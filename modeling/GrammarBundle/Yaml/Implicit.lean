import GrammarBundle.Text.Decimal
import GrammarBundle.Yaml.Blank

/-!
The kinds of nodes, and which kind a plain scalar is of. The form of its text decides: words for truth
and for nothing, whole and floating numbers in several notations, dates and times; all else is text.
-/

namespace GrammarBundle.Yaml

inductive Kind where
  | null
  | bool
  | int
  | float
  | binary
  | timestamp
  | orderedMap
  | pairs
  | set
  | str
  | seq
  | map
  | merge
  | value
  | unknown
  deriving DecidableEq, Repr, Inhabited

/-- What all known tags begin with. -/
def tagBase : Text := "tag:yaml.org,2002:"

def kindNames : List (Text × Kind) :=
  [("null", .null), ("bool", .bool), ("int", .int), ("float", .float), ("binary", .binary),
    ("timestamp", .timestamp), ("omap", .orderedMap), ("pairs", .pairs), ("set", .set),
    ("str", .str), ("seq", .seq), ("map", .map), ("merge", .merge), ("value", .value)]

def Kind.ofTag (tag : Text) : Kind :=
  if tagBase.isPrefixOf tag then
    ((kindNames.find? fun (name, _) => name = tag.drop tagBase.length).map (·.2)).getD .unknown
  else .unknown

namespace Implicit

/-- A run of code points of a class, with the text after it. -/
def run (inClass : CodePoint → Bool) (t : Text) : Text × Text :=
  let run := t.takeWhile inClass
  (run, t.drop run.length)

def isDigit (p : CodePoint) : Bool := p.isDigit

def isDigitOrUnderscore (p : CodePoint) : Bool := p.isDigit || p = .char '_'

def unsigned (t : Text) : Text :=
  match t with
  | p :: rest => if p.isOneOf ['+', '-'] then rest else t
  | [] => []

/-- Whether a text consists of at least one code point of a class. -/
def allOf (inClass : CodePoint → Bool) (t : Text) : Bool := !t.isEmpty && t.all inClass

/-- One or two digits below sixty after a colon, again and again, as places of base sixty; what is left
after them. -/
def sixties : (fuel : Nat) → Text → Text
  | 0, t => t
  | fuel + 1, t =>
    match t with
    | .char ':' :: a :: b :: rest =>
      if a.isOneOf ['0', '1', '2', '3', '4', '5'] && b.isDigit then sixties fuel rest
      else if a.isDigit then sixties fuel (b :: rest)
      else t
    | .char ':' :: a :: [] => if a.isDigit then [] else t
    | t => t

/-- Whether base sixty places follow, at least one, and the text after them. -/
def sixties? (t : Text) : Option Text :=
  let rest := sixties t.length t
  if rest.length < t.length then some rest else none

/-- Whole numbers: binary, octal, decimal, hexadecimal, and base sixty. -/
def isInt (t : Text) : Bool :=
  let u := unsigned t
  match u with
  | .char '0' :: .char 'b' :: digits =>
    allOf (fun p => p.isOneOf ['0', '1', '_']) digits
  | .char '0' :: .char 'x' :: digits =>
    allOf (fun p => p.hexDigit?.isSome || p = .char '_') digits
  | .char '0' :: digits =>
    digits.all fun p => p.isOneOf ['0', '1', '2', '3', '4', '5', '6', '7', '_']
  | p :: _ =>
    p.isDigit &&
      (let (_, rest) := run isDigitOrUnderscore u
       rest.isEmpty || sixties? rest = some [])
  | [] => false

/-- A signed exponent, or nothing. -/
def isExponent (t : Text) : Bool :=
  match t with
  | [] => true
  | e :: sign :: digits =>
    e.isOneOf ['e', 'E'] && sign.isOneOf ['+', '-'] && allOf isDigit digits
  | _ => false

/-- Floating numbers: with a point, in base sixty with a point, and the words for what is not finite. -/
def isFloat (t : Text) : Bool :=
  let u := unsigned t
  let startsWithDigit (t : Text) : Bool := (t.head?.map (·.isDigit)).getD false
  match u with
  | .char '.' :: rest =>
    ["inf", "Inf", "INF"].any (fun w : String => Text.ofString w = rest) ||
      (u.length = t.length &&
        (["nan", "NaN", "NAN"].any (fun w : String => Text.ofString w = rest) ||
          (startsWithDigit rest && isExponent (run isDigitOrUnderscore rest).2)))
  | _ =>
    startsWithDigit u &&
      (let (_, rest) := run isDigitOrUnderscore u
       match rest with
       | .char '.' :: fraction => isExponent (run isDigitOrUnderscore fraction).2
       | _ =>
         match sixties? rest with
         | some (.char '.' :: fraction) => (run isDigitOrUnderscore fraction).2.isEmpty
         | _ => false)

def isTruth (t : Text) : Bool :=
  ["yes", "Yes", "YES", "no", "No", "NO", "true", "True", "TRUE", "false", "False", "FALSE", "on",
    "On", "ON", "off", "Off", "OFF"].any fun w : String => Text.ofString w = t

def isNull (t : Text) : Bool :=
  ["", "~", "null", "Null", "NULL"].any fun w : String => Text.ofString w = t

end Implicit

/-- The parts of a written time; the day alone, or with a time of day, a fraction, and a distance from
universal time. -/
structure WrittenTime where
  year : Nat
  month : Nat
  day : Nat
  clock : Option (Nat × Nat × Nat)
  fraction : Text
  zone : Option Int
  deriving DecidableEq, Repr

namespace WrittenTime

/-- Up to `most` digits at the head of a text, at least `least`, as a number. -/
def digits? (least most : Nat) (t : Text) : Option (Nat × Text) :=
  let d := (t.takeWhile (·.isDigit)).take most
  if d.length < least then none else (Text.nat? d).map fun n => (n, t.drop d.length)

/-- The text after a code point that must stand there. -/
def after? (c : Char) (t : Text) : Option Text :=
  match t with
  | p :: rest => if p = .char c then some rest else none
  | [] => none

/-- The distance from universal time at the end of a written time: none, a letter, or hours with or
without minutes. -/
def zone? (t : Text) : Option (Option Int) :=
  match skipBlanks t with
  | [] => if t.isEmpty then some none else none
  | p :: rest =>
    if p = .char 'Z' then (if rest.isEmpty then some (some 0) else none)
    else if p.isOneOf ['+', '-'] then do
      let (hours, rest) ← digits? 1 2 rest
      let minutes ←
        if rest.isEmpty then some 0
        else do
          let (minutes, rest) ← digits? 2 2 (← after? ':' rest)
          if rest.isEmpty then some minutes else none
      let seconds : Int := hours * 3600 + minutes * 60
      return some (if p = .char '-' then -seconds else seconds)
    else none

/-- The parts of a written time of day, after what separates it from the day. -/
def clock? (year month day : Nat) (t : Text) : Option WrittenTime := do
  let (hour, rest) ← digits? 1 2 t
  let (minute, rest) ← digits? 2 2 (← after? ':' rest)
  let (second, rest) ← digits? 2 2 (← after? ':' rest)
  let (fraction, rest) :=
    match rest with
    | .char '.' :: rest => Implicit.run Implicit.isDigit rest
    | rest => ([], rest)
  let zone ← zone? rest
  return ⟨year, month, day, some (hour, minute, second), fraction, zone⟩

def ofText? (t : Text) : Option WrittenTime := do
  let (year, rest) ← digits? 4 4 t
  let (month, rest) ← digits? 1 2 (← after? '-' rest)
  let (day, rest) ← digits? 1 2 (← after? '-' rest)
  match rest with
  | [] => return ⟨year, month, day, none, [], none⟩
  | p :: more =>
    if p.isOneOf ['T', 't'] then clock? year month day more
    else if isBlank p then clock? year month day (skipBlanks rest)
    else none

/-- Whether a text by itself is read as a time: a day without a time of day needs two digits for month
and day. -/
def isImplicit (t : Text) : Bool :=
  match ofText? t with
  | none => false
  | some w => w.clock.isSome || t.length == 10

end WrittenTime

namespace Implicit

/-- A text without one line feed at its end, which its form disregards. -/
def withoutLineFeed (t : Text) : Text := if t.getLast? = some (.char '\n') then t.dropLast else t

/-- The kind of a scalar without a tag and without quotes. -/
def kindOf (text : Text) : Kind :=
  let t := withoutLineFeed text
  if text ≠ [] ∧ t = [] then .str
  else if isTruth t then .bool
  else if isFloat t then .float
  else if isInt t then .int
  else if t = "<<" then .merge
  else if isNull t then .null
  else if WrittenTime.isImplicit t then .timestamp
  else if t = "=" then .value
  else if t = "!" ∨ t = "&" ∨ t = "*" then .unknown
  else .str

end Implicit

end GrammarBundle.Yaml
