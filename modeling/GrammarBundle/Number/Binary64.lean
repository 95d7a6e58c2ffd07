/-!
Binary floating-point numbers of 64 bits, as exact values: a finite number is a significand times a
power of two. Every operation computes the exact result and rounds once, to the nearest number, a tie
to the even significand.
-/

namespace GrammarBundle

/-- A number of the format: finite with value ± significand · 2 ^ exponent, infinite, or none. -/
inductive Binary64 where
  | finite (negative : Bool) (significand : Nat) (exponent : Int)
  | infinite (negative : Bool)
  | nan
  deriving DecidableEq, Repr, Inhabited

namespace Binary64

def leastExponent : Int := -1074

def greatestExponent : Int := 971

def zero (negative : Bool) : Binary64 := .finite negative 0 leastExponent

/-- The whole number nearest to a quotient, a tie to the even one. -/
def roundedQuotient (num den : Nat) : Nat :=
  let m := num / den
  let r := num % den
  if 2 * r < den then m else if den < 2 * r then m + 1 else m + m % 2

/-- A quotient times a power of two, as a quotient. -/
def scaled (num den : Nat) (power : Int) : Nat × Nat :=
  if 0 ≤ power then (num * Nat.pow 2 power.toNat, den) else (num, den * Nat.pow 2 (-power).toNat)

/-- The exponent of the leading binary digit of a positive quotient. -/
def leadingExponent (num den : Nat) : Int :=
  let guess : Int := (num.log2 : Int) - (den.log2 : Int)
  let (n, d) := scaled num den (-guess)
  if d ≤ n then guess else guess - 1

/-- The number nearest to a quotient of natural numbers. -/
def ofQuotient (negative : Bool) (num den : Nat) : Binary64 :=
  if num = 0 then zero negative
  else
    let q := max (leadingExponent num den - 52) leastExponent
    let (n, d) := scaled num den (-q)
    let m := roundedQuotient n d
    let (m, q) := if m = Nat.pow 2 53 then (Nat.pow 2 52, q + 1) else (m, q)
    if greatestExponent < q then .infinite negative else .finite negative m q

/-- The number nearest to digits · 10 ^ exponent. Exponents far outside the format are settled from
the length of the digits alone. -/
def ofDecimal (negative : Bool) (digits : Nat) (exponent : Int) : Binary64 :=
  if digits = 0 then zero negative
  else if 310 < exponent + (digits.log2 / 4 : Nat) then .infinite negative
  else if exponent + (digits.log2 / 3 : Nat) + 1 < -330 then zero negative
  else if 0 ≤ exponent then ofQuotient negative (digits * Nat.pow 10 exponent.toNat) 1
  else ofQuotient negative digits (Nat.pow 10 (-exponent).toNat)

def ofInt (n : Int) : Binary64 := ofQuotient (n < 0) n.natAbs 1

def neg : Binary64 → Binary64
  | .finite s m q => .finite (!s) m q
  | .infinite s => .infinite (!s)
  | .nan => .nan

/-- The number nearest to coefficient · 2 ^ exponent; an exact zero takes the given sign. -/
def ofScaledInt (zeroSign : Bool) (coefficient exponent : Int) : Binary64 :=
  if coefficient = 0 then zero zeroSign
  else
    let (n, d) := scaled coefficient.natAbs 1 exponent
    ofQuotient (coefficient < 0) n d

/-- The signed significand at a lower exponent. -/
def coefficientAt (low : Int) (negative : Bool) (significand : Nat) (exponent : Int) : Int :=
  let c : Int := significand * Nat.pow 2 (exponent - low).toNat
  if negative then -c else c

def add : Binary64 → Binary64 → Binary64
  | .nan, _ => .nan
  | _, .nan => .nan
  | .infinite s, .infinite t => if s = t then .infinite s else .nan
  | .infinite s, .finite _ _ _ => .infinite s
  | .finite _ _ _, .infinite t => .infinite t
  | .finite s m p, .finite t n q =>
    let low := min p q
    ofScaledInt (s && t) (coefficientAt low s m p + coefficientAt low t n q) low

def sub (x y : Binary64) : Binary64 := add x y.neg

def mul : Binary64 → Binary64 → Binary64
  | .nan, _ => .nan
  | _, .nan => .nan
  | .infinite s, .infinite t => .infinite (s != t)
  | .infinite s, .finite t n _ => if n = 0 then .nan else .infinite (s != t)
  | .finite s m _, .infinite t => if m = 0 then .nan else .infinite (s != t)
  | .finite s m p, .finite t n q =>
    let (num, den) := scaled (m * n) 1 (p + q)
    ofQuotient (s != t) num den

/-- The integer part, toward zero; zero for what is not finite. -/
def truncate : Binary64 → Int
  | .finite s m q =>
    let (n, d) := scaled m 1 q
    if s then -((n / d : Nat) : Int) else ((n / d : Nat) : Int)
  | _ => 0

/-- The integer that a number is, if it is one. -/
def toInt? : Binary64 → Option Int
  | .finite s m q =>
    let (n, d) := scaled m 1 q
    if n % d = 0 then some (if s then -((n / d : Nat) : Int) else ((n / d : Nat) : Int)) else none
  | _ => none

def isBelowZero : Binary64 → Bool
  | .finite s m _ => s && m != 0
  | .infinite s => s
  | .nan => false

end Binary64

end GrammarBundle
