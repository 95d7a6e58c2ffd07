import GrammarBundle.Grammar.Basic

/-!
Declaration order. A generated module runs from top to bottom, so that every grammar must extend the
built-in rules or a grammar declared before it in the same collection.
-/

namespace GrammarBundle

/-- A grammar whose base is not declared before it: declared later in the collection, or outside. -/
structure OrderFault where
  source : Text
  key : Text
  base : Text
  isLater : Bool
  deriving DecidableEq, Repr

def OrderFault.message (f : OrderFault) : Text :=
  f.source ++ ": grammar '" ++ f.key ++ "' extends '" ++ f.base ++ "', which is declared " ++
    (if f.isLater then ("later in" : Text) else "outside") ++ " this file"

namespace Collection

/-- Whether a name is one of the keys; only text can be a key. -/
def isKey (name : Json) (keys : List Text) : Bool :=
  match name with
  | .str t => keys.contains t
  | _ => false

/-- The order of entries that follow entries with the keys `seen`. -/
def orderFrom (source : Text) (keys seen : List Text) : List Entry → Except OrderFault Unit
  | [] => .ok ()
  | entry :: rest =>
    match entry.grammar.base? with
    | none => orderFrom source keys (entry.key :: seen) rest
    | some base =>
      if isKey base.declaration.name seen then orderFrom source keys (entry.key :: seen) rest
      else .error ⟨source, entry.key, base.title, isKey base.declaration.name keys⟩

/-- Refuses the first grammar that extends one not declared before it. -/
def checkOrder (source : Text) (c : Collection) : Except OrderFault Unit :=
  orderFrom source (c.map (·.key)) [] c

/-- The source of a collection that comes from no file. -/
def anonymousSource : Text := "<grammars>"

end Collection

end GrammarBundle
