import GrammarBundle.Json.Shape
import GrammarBundle.Json.Writer

/-!
Compiled grammars. A grammar is its own declaration on top of the chain of grammars that it extends,
which ends at the built-in rules. Its recipe is the expression from which the runtime builds it again.
-/

namespace GrammarBundle

/-- What a grammar declares of its own. -/
structure Declaration where
  name : Json
  info : Json
  start : Json
  rules : Json
  deriving Inhabited

/-- Where the base of a grammar was found: in an earlier row of the same collection, or outside it. -/
inductive Link where
  | row (number : Nat)
  | outside
  deriving DecidableEq, Repr

/-- A grammar: a declaration that extends the built-in rules, or another grammar. -/
inductive Grammar where
  | root (declaration : Declaration)
  | derived (declaration : Declaration) (link : Link) (base : Grammar)
  deriving Inhabited

namespace Grammar

def declaration : Grammar → Declaration
  | .root d => d
  | .derived d _ _ => d

/-- The grammar that a grammar extends; none for the built-in rules. -/
def base? : Grammar → Option Grammar
  | .root _ => none
  | .derived _ _ base => some base

def title (g : Grammar) : Text := g.declaration.name.plain

/-- A grammar of which nothing but the name is known. -/
def named (name : Json) : Grammar := .root ⟨name, .object [], .null, .object []⟩

/-- The source text of a grammar, as its information has it. -/
def source (g : Grammar) : Except ShapeFault Json := do
  return (← g.declaration.info.member? "source").getD .null

end Grammar

/-- The recipe of a declaration, given the expression for its base. -/
def Declaration.recipe (d : Declaration) (base : Text) : Text :=
  "[" ++ Text.join ","
    [Json.compact (.str "grammar"), d.info.compact, d.name.compact, base, d.start.compact,
      d.rules.compact] ++ "]"

namespace Grammar

/-- The recipe of a grammar with the recipes of all its bases inside; the built-in rules are null. -/
def recipe : Grammar → Text
  | .root d => d.recipe "null"
  | .derived d _ base => d.recipe base.recipe

/-- The recipe of a grammar with a given expression in the place of its base, if there is one. -/
def recipeOn (expression : Option Text) (g : Grammar) : Text :=
  match expression with
  | none => g.recipe
  | some e => if e.isEmpty then g.recipe else g.declaration.recipe e

end Grammar

/-- A grammar of a collection under its key, with the number of the row that declared it. -/
structure Entry where
  key : Text
  row : Nat
  grammar : Grammar
  deriving Inhabited

/-- Grammars in the order in which their keys were first declared. -/
abbrev Collection := List Entry

namespace Collection

def find? (key : Text) (c : Collection) : Option Entry := List.find? (fun e => e.key = key) c

/-- Stores an entry: a new key stands last, a known one keeps its place. -/
def put (entry : Entry) : Collection → Collection
  | [] => [entry]
  | e :: rest => if e.key = entry.key then entry :: rest else e :: put entry rest

/-- Whether the base of a grammar is one of the collection's own grammars. -/
def holdsBase (c : Collection) (g : Grammar) : Bool :=
  match g with
  | .derived _ (.row number) _ => c.any fun e => e.row = number
  | _ => false

end Collection

end GrammarBundle
