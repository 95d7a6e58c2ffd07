import GrammarBundle.Number.Numeral

/-!
The settings that a configuration document may make, and what each must be. A document that breaks the
rules is reported by one violation: that it is no mapping, then that it has unknown names, then the
violation of the greatest name in code point order. All its violations are worded before one is chosen, and
a value that cannot be displayed leaves the violation that shows it without words.
-/

namespace GrammarBundle.Config

inductive Violation where
  | wrongType (value type : Text)
  | notOne
  | empty
  | belowZero (value : Text)
  | unknownNames (names : List Text)
  deriving DecidableEq, Repr

def Violation.message : Violation → Text
  | .wrongType value type => value ++ " is not of type '" ++ type ++ "'"
  | .notOne => "1 was expected"
  | .empty => "'' should be non-empty"
  | .belowZero value => value ++ " is less than the minimum of 0"
  | .unknownNames names =>
    "Additional properties are not allowed (" ++ Text.join ", " names ++
      (if names.length = 1 then (" was" : Text) else " were") ++ " unexpected)"

/-- What the value of a name must be. -/
inductive Rule where
  /-- The number one. -/
  | one
  /-- Text that is not empty. -/
  | text
  /-- An integer from zero on. -/
  | count
  /-- A truth value. -/
  | flag
  deriving DecidableEq, Repr

/-- The known names with their rules, in descending order: the order in which violations are found. -/
def rules : List (Text × Rule) :=
  [("with_types", .flag), ("types_module", .text), ("timeout_seconds", .count),
    ("schema_version", .one), ("ohm_module", .text), ("node", .text), ("esm", .flag)]

/-- The number that a value is; truth values are none. -/
def numeral? : Datum → Option Numeral
  | .int n => some (.whole n)
  | .float x => some (.floating x)
  | _ => none

/-- The integer that a value has as its number. -/
def integer? (v : Datum) : Option Numeral := (numeral? v).filter (·.isInteger)

def isOne : Numeral → Bool
  | .whole n => n == 1
  | .floating x => x.toInt? == some 1

def Rule.violation? (rule : Rule) (v : Datum) : Option Violation :=
  match rule with
  | .one =>
    match integer? v with
    | none => some (.wrongType v.display "integer")
    | some n => if isOne n then none else some .notOne
  | .text =>
    match v with
    | .str [] => some .empty
    | .str _ => none
    | v => some (.wrongType v.display "string")
  | .count =>
    match integer? v with
    | none => some (.wrongType v.display "integer")
    | some n => if n.isNegative then some (.belowZero n.toText) else none
  | .flag =>
    match v with
    | .bool _ => none
    | v => some (.wrongType v.display "boolean")

/-- Whether a value breaks a rule by a violation that shows it, and cannot be displayed. -/
def Rule.isWordless (rule : Rule) (v : Datum) : Bool :=
  match rule.violation? v with
  | some (.wrongType _ _) => !v.isPrintable
  | some (.belowZero _) => !v.isPrintable
  | _ => false

def valueOf (name : Text) : List (Datum × Datum) → Option Datum
  | [] => none
  | (.str key, v) :: rest => if key = name then some v else valueOf name rest
  | _ :: rest => valueOf name rest

def isKnown : Datum → Bool
  | .str t => rules.any fun (name, _) => name = t
  | _ => false

/-- The settings of a document; what it does not set is absent. -/
structure Settings where
  node : Option Text
  runtime : Option Text
  typesModule : Option Text
  timeout : Option Numeral
  withTypes : Option Bool
  esm : Option Bool
  deriving DecidableEq, Repr, Inhabited

def Settings.unset : Settings := ⟨none, none, none, none, none, none⟩

def textOf? : Datum → Option Text
  | .str t => some t
  | _ => none

def flagOf? : Datum → Option Bool
  | .bool b => some b
  | _ => none

/-- The settings that the entries of a valid document make. -/
def Settings.ofEntries (entries : List (Datum × Datum)) : Settings where
  node := (valueOf "node" entries).bind textOf?
  runtime := (valueOf "ohm_module" entries).bind textOf?
  typesModule := (valueOf "types_module" entries).bind textOf?
  timeout := (valueOf "timeout_seconds" entries).bind integer?
  withTypes := (valueOf "with_types" entries).bind flagOf?
  esm := (valueOf "esm" entries).bind flagOf?

/-- A value of a document; one that stands for the container around it is the document itself. -/
def resolved (document : Datum) : Datum → Datum
  | .again _ => document
  | v => v

def unknownKeys (entries : List (Datum × Datum)) : List Datum :=
  (entries.map (·.1)).filter (!isKnown ·)

def entriesViolation? (entries : List (Datum × Datum)) : Option Violation :=
  let unknown := unknownKeys entries
  if unknown ≠ [] then
    some (.unknownNames ((unknown.mergeSort fun a b => a.plain.atMost b.plain).map (·.display)))
  else
    rules.findSome? fun (name, rule) =>
      (valueOf name entries).bind fun v => rule.violation? (resolved (.mapping entries) v)

/-- The settings of a document, or its violation; no document at all makes no settings. -/
def Settings.ofDocument : Datum → Except Violation Settings
  | .null => .ok .unset
  | .mapping entries =>
    match entriesViolation? entries with
    | some violation => .error violation
    | none => .ok (.ofEntries entries)
  | v => .error (.wrongType v.display "object")

/-- Whether a document has a violation without words. -/
def Settings.isWordless : Datum → Bool
  | .null => false
  | .mapping entries =>
    (unknownKeys entries).any (!·.isPrintable) ||
      rules.any fun (name, rule) =>
        (valueOf name entries).any fun v => rule.isWordless (resolved (.mapping entries) v)
  | v => !v.isPrintable

end GrammarBundle.Config
