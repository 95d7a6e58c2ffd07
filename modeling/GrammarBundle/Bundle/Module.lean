import GrammarBundle.Grammar.Basic

/-!
Generated modules. A module loads the runtime, rebuilds each grammar of a collection from its recipe,
and exports the result: the grammar itself where there is exactly one, otherwise an object with a
member for each key. A recipe refers to its base as a member of that object.
-/

namespace GrammarBundle.Bundle

/-- The format of a module: with `import` and `export`, or with `require`. -/
inductive Format where
  | esm
  | commonJs
  deriving DecidableEq, Repr

def Format.ofEsm (esm : Bool) : Format := if esm then .esm else .commonJs

def Format.preamble (f : Format) (runtime : Text) : Text :=
  match f with
  | .esm => "import ohm from '" ++ runtime ++ "';"
  | .commonJs => "'use strict';const ohm=require('" ++ runtime ++ "');"

def Format.trailer : Format → Text
  | .esm => "export default result;"
  | .commonJs => "module.exports=result;"

/-- The runtime that generated modules load. -/
def defaultRuntime : Text := "ohm-js"

/-- What a statement assigns to: the result itself, or a member of it. -/
inductive Target where
  | whole
  | member (key : Text)
  deriving DecidableEq, Repr

def Target.text : Target → Text
  | .whole => "const result="
  | .member key => "result." ++ key ++ "="

/-- What stands for the base in a recipe: nothing for the built-in rules, or a member of the result. -/
inductive Slot where
  | builtIn
  | reference (name : Text)
  deriving DecidableEq, Repr

def Slot.text : Slot → Text
  | .builtIn => "null"
  | .reference name => "result." ++ name

/-- One statement of a module: a grammar rebuilt and assigned. -/
structure Statement where
  target : Target
  slot : Slot
  declaration : Declaration

def Statement.text (s : Statement) : Text :=
  s.target.text ++ "ohm.makeRecipe(" ++ s.declaration.recipe s.slot.text ++ ");"

def slotOf (g : Grammar) : Slot :=
  match g.base? with
  | none => .builtIn
  | some base => .reference base.title

/-- Whether a collection is exported as its only grammar. -/
def isSingle (c : Collection) : Bool := c.length == 1

def statements (c : Collection) : List Statement :=
  c.map fun entry =>
    ⟨if isSingle c then .whole else .member entry.key, slotOf entry.grammar,
      entry.grammar.declaration⟩

def renderModule (format : Format) (runtime : Text) (c : Collection) : Text :=
  format.preamble runtime ++ Text.onlyIf (!isSingle c) "const result=\x7b\x7d;" ++
    (statements c).flatMap Statement.text ++ format.trailer

end GrammarBundle.Bundle
