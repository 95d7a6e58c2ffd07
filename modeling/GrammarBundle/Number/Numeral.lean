import GrammarBundle.Datum.Value

/-!
Numbers as a configuration gives them: whole, or floating with a whole value.
-/

namespace GrammarBundle

inductive Numeral where
  | whole (n : Int)
  | floating (x : Binary64)
  deriving DecidableEq, Repr, Inhabited

namespace Numeral

def isNegative : Numeral → Bool
  | .whole n => n < 0
  | .floating x => x.isBelowZero

def isPositive : Numeral → Bool
  | .whole n => 0 < n
  | .floating (.finite s m _) => !s && m != 0
  | .floating (.infinite s) => !s
  | .floating .nan => false

def isInteger : Numeral → Bool
  | .whole _ => true
  | .floating x => x.toInt?.isSome

def toJson : Numeral → Json
  | .whole n => .int n
  | .floating x => .float x

def toText (n : Numeral) : Text := n.toJson.plain

end Numeral

end GrammarBundle
