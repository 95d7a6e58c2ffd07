import GrammarBundle.Number.Binary64
import GrammarBundle.Text.Decimal

/-!
The shortest decimal of a floating-point number: of the decimals that read back as the number, those
with the fewest digits, and of these the one nearest to it.
-/

namespace GrammarBundle

/-- A decimal: digits · 10 ^ exponent. -/
structure Decimal where
  digits : Nat
  exponent : Int
  deriving DecidableEq, Repr, Inhabited

namespace Decimal

/-- The same decimal without trailing zeros, given a bound on their number. -/
def withoutTrailingZeros : (fuel : Nat) → Decimal → Decimal
  | 0, d => d
  | fuel + 1, d =>
    if d.digits ≠ 0 ∧ d.digits % 10 = 0 then
      withoutTrailingZeros fuel ⟨d.digits / 10, d.exponent + 1⟩
    else d

end Decimal

namespace Binary64

/-- A quotient times a power of ten, as a quotient. -/
def decimallyScaled (num den : Nat) (power : Int) : Nat × Nat :=
  if 0 ≤ power then (num * Nat.pow 10 power.toNat, den) else (num, den * Nat.pow 10 (-power).toNat)

/-- Raises an exponent, at most `fuel` times, while ten to it is at most the quotient. -/
def raisedExponent (num den : Nat) : (fuel : Nat) → Int → Int
  | 0, k => k
  | fuel + 1, k =>
    let (n, d) := decimallyScaled num den (-k)
    if d ≤ n then raisedExponent num den fuel (k + 1) else k

/-- The number of digits before the point of a positive quotient: the least `k` with the quotient
below 10 ^ k. -/
def magnitude (num den : Nat) : Int :=
  raisedExponent num den 5 (((num.log2 : Int) - (den.log2 : Int)) * 30103 / 100000 - 1)

/-- The decimal of `count` digits that reads back as the positive number, the nearer of two. -/
def hit? (significand : Nat) (exponent : Int) (num den : Nat) (k : Int) (count : Nat) :
    Option Decimal :=
  let g := k - count
  let (n, d) := decimallyScaled num den (-g)
  let low := n / d
  let r := n % d
  let lowFirst := 2 * r < d || (2 * r == d && low % 2 == 0)
  let candidates := if r = 0 then [low] else if lowFirst then [low, low + 1] else [low + 1, low]
  let target := Binary64.finite false significand exponent
  (candidates.find? fun c => ofDecimal false c g = target).map (⟨·, g⟩)

/-- The first hit when the number of digits grows from `count`. -/
def firstHit (significand : Nat) (exponent : Int) (num den : Nat) (k : Int) :
    (fuel count : Nat) → Decimal
  | 0, _ => ⟨0, 0⟩
  | fuel + 1, count =>
    match hit? significand exponent num den k count with
    | some d => d
    | none => firstHit significand exponent num den k fuel (count + 1)

/-- The shortest decimal of significand · 2 ^ exponent; seventeen digits always suffice. -/
def shortest (significand : Nat) (exponent : Int) : Decimal :=
  if significand = 0 then ⟨0, 0⟩
  else
    let (num, den) := scaled significand 1 exponent
    Decimal.withoutTrailingZeros 20
      (firstHit significand exponent num den (magnitude num den) 17 1)

/-- The sign and digits of an exponent, two digits at least. -/
def exponentText (e : Int) : Text :=
  (.char (if e < 0 then '-' else '+')) :: Text.zeroPadded 2 (Text.ofNat e.natAbs)

/-- A decimal as text: positional from 10 ^ -4 up to 10 ^ 16 and with a fraction always shown,
otherwise one digit before the point and an exponent. -/
def decimalText (d : Decimal) : Text :=
  let s := Text.ofNat d.digits
  let point : Int := s.length + d.exponent
  if d.digits = 0 then "0.0"
  else if -4 < point ∧ point ≤ 16 then
    if point ≤ 0 then "0." ++ Text.repeated (-point).toNat '0' ++ s
    else if s.length ≤ point.toNat then
      s ++ Text.repeated (point.toNat - s.length) '0' ++ ".0"
    else s.take point.toNat ++ "." ++ s.drop point.toNat
  else
    s.take 1 ++ Text.onlyIf (s.length != 1) ("." ++ s.drop 1) ++ "e" ++ exponentText (point - 1)

/-- The number as text, with the given names for infinity and for no number. -/
def toTextWith (infinity none : Text) : Binary64 → Text
  | .finite s m q => Text.onlyIf s "-" ++ decimalText (shortest m q)
  | .infinite s => Text.onlyIf s "-" ++ infinity
  | .nan => none

def toText (x : Binary64) : Text := toTextWith "inf" "nan" x

end Binary64

end GrammarBundle
