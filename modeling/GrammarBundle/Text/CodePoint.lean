/-!
Text as a list of code points. A code point is a character or a surrogate: a JSON escape can name a
surrogate that has no partner, and such text must be carried, compared and printed even though no
encoding can hold it.
-/

namespace GrammarBundle

/-- A code point: a character, or one of the 2048 surrogates, which name no character. -/
inductive CodePoint where
  | char (c : Char)
  | surrogate (offset : Fin 2048)
  deriving DecidableEq, Repr, Inhabited

namespace CodePoint

/-- The number of a code point; surrogates fill the gap from U+D800 to U+DFFF. -/
def val : CodePoint → Nat
  | .char c => c.toNat
  | .surrogate u => 0xD800 + u.val

/-- The code point of a number below U+110000. -/
def ofNat (n : Nat) : CodePoint :=
  if h : n - 0xD800 < 2048 ∧ 0xD800 ≤ n then .surrogate ⟨n - 0xD800, h.1⟩ else .char (Char.ofNat n)

def isSurrogate : CodePoint → Bool
  | .char _ => false
  | .surrogate _ => true

def isHigh (p : CodePoint) : Bool := 0xD800 ≤ p.val && p.val < 0xDC00

def isLow (p : CodePoint) : Bool := 0xDC00 ≤ p.val && p.val < 0xE000

/-- The decimal value of an ASCII digit. -/
def digit? : CodePoint → Option Nat
  | .char c => if '0' ≤ c ∧ c ≤ '9' then some (c.toNat - '0'.toNat) else none
  | .surrogate _ => none

def isDigit (p : CodePoint) : Bool := p.digit?.isSome

/-- The value of an ASCII hexadecimal digit of either case. -/
def hexDigit? : CodePoint → Option Nat
  | .char c =>
    if '0' ≤ c ∧ c ≤ '9' then some (c.toNat - '0'.toNat)
    else if 'a' ≤ c ∧ c ≤ 'f' then some (c.toNat - 'a'.toNat + 10)
    else if 'A' ≤ c ∧ c ≤ 'F' then some (c.toNat - 'A'.toNat + 10)
    else none
  | .surrogate _ => none

def isOneOf (p : CodePoint) (cs : List Char) : Bool :=
  match p with
  | .char c => cs.contains c
  | .surrogate _ => false

instance : Coe Char CodePoint := ⟨.char⟩

end CodePoint

/-- Text is a list of code points. -/
abbrev Text := List CodePoint

namespace Text

def ofString (s : String) : Text := s.toList.map .char

instance : Coe String Text := ⟨ofString⟩

/-- Order by code point, the shorter of two texts first when one continues the other. -/
def before : Text → Text → Bool
  | [], [] => false
  | [], _ :: _ => true
  | _ :: _, [] => false
  | a :: r, b :: s => a.val < b.val || (a = b && before r s)

/-- At most: the order used for sorting names and keys. -/
def atMost (a b : Text) : Bool := !before b a

/-- The texts joined with a separator between neighbours. -/
def join (separator : Text) : List Text → Text
  | [] => []
  | [t] => t
  | t :: rest => t ++ separator ++ join separator rest

/-- The pieces between occurrences of a code point; a text without it is one piece. -/
def splitAt (p : CodePoint) : Text → List Text
  | [] => [[]]
  | q :: rest =>
    if q = p then [] :: splitAt p rest
    else
      match splitAt p rest with
      | [] => [[q]]
      | piece :: pieces => (q :: piece) :: pieces

/-- The text before and after the first occurrence of a fragment. -/
def cut? (fragment : Text) : Text → Option (Text × Text)
  | [] => if fragment = [] then some ([], []) else none
  | p :: rest =>
    if fragment.isPrefixOf (p :: rest) then some ([], (p :: rest).drop fragment.length)
    else (cut? fragment rest).map fun (a, b) => (p :: a, b)

/-- The text without the code points of a class at either end. -/
def trim (blank : CodePoint → Bool) (t : Text) : Text :=
  ((t.dropWhile blank).reverse.dropWhile blank).reverse

/-- A text, or nothing where a condition fails. -/
def onlyIf (condition : Bool) (t : Text) : Text := if condition then t else []

def repeated (count : Nat) (p : CodePoint) : Text := List.replicate count p

def surrogateFree (t : Text) : Bool := t.all (!·.isSurrogate)

end Text

end GrammarBundle
