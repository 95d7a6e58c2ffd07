import GrammarBundle.Text.CodePoint

/-!
Numerals: whole numbers written in decimal and in fixed-width hexadecimal, and read back.
-/

namespace GrammarBundle

/-- The digit character of a value below 36, in lower case. -/
def CodePoint.ofDigit (d : Nat) : CodePoint :=
  .char (Char.ofNat (if d < 10 then '0'.toNat + d else 'a'.toNat + (d - 10)))

namespace Text

/-- A natural number in decimal, without leading zeros. -/
def ofNat (n : Nat) : Text :=
  if n < 10 then [CodePoint.ofDigit n] else ofNat (n / 10) ++ [CodePoint.ofDigit (n % 10)]
termination_by n

/-- An integer in decimal, a minus sign in front of a negative one. -/
def ofInt : Int → Text
  | .ofNat n => ofNat n
  | .negSucc n => .char '-' :: ofNat (n + 1)

/-- The text filled with zeros on the left up to a width. -/
def zeroPadded (width : Nat) (t : Text) : Text :=
  repeated (width - t.length) '0' ++ t

/-- The last `width` hexadecimal digits of a number. -/
def hex : (width : Nat) → Nat → Text
  | 0, _ => []
  | width + 1, n => hex width (n / 16) ++ [CodePoint.ofDigit (n % 16)]

/-- The number that a row of digit values names in a base. -/
def value (base : Nat) (digits : List Nat) : Nat :=
  digits.foldl (fun n d => n * base + d) 0

/-- The number that a non-empty row of decimal digits names. -/
def nat? (t : Text) : Option Nat :=
  if t.isEmpty then none else (t.mapM CodePoint.digit?).map (value 10)

end Text

end GrammarBundle
