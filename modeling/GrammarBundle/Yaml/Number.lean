import GrammarBundle.Text.Blank
import GrammarBundle.Text.Digits
import GrammarBundle.Yaml.Implicit

/-!
Numbers of a document. Whole numbers are binary, octal, decimal or hexadecimal after their marks, or
rows of places of base sixty; floating numbers likewise. Underscores may stand anywhere and mean
nothing.
-/

namespace GrammarBundle.Yaml

def withoutUnderscores (t : Text) : Text := t.filter (· ≠ .char '_')

/-- A sign in front of a text, if there is one, and the text after it. -/
def signed (t : Text) : Bool × Text :=
  match t with
  | .char '-' :: rest => (true, rest)
  | .char '+' :: rest => (false, rest)
  | _ => (false, t)

/-- The letter that may mark a base after a zero. -/
def baseMark? (base : Nat) : Option (List Char) :=
  if base = 2 then some ['b', 'B']
  else if base = 8 then some ['o', 'O']
  else if base = 16 then some ['x', 'X']
  else none

/-- The digits after a mark of the base, if it is there. -/
def unmarked (base : Nat) (t : Text) : Text :=
  match baseMark? base, t with
  | some marks, .char '0' :: p :: rest => if p.isOneOf marks then rest else t
  | _, _ => t

/-- The whole number that a text writes in a base. White space around it and a sign are allowed, and the
digits may be those of any script. -/
def whole (base : Nat) (t : Text) : Except ScalarFault Int :=
  let (negative, digits) := signed t.strip
  let digits := unmarked base digits
  match digits.mapM CodePoint.place? with
  | none => .error (.notWhole base t)
  | some places =>
    if places.isEmpty || places.any fun d => base ≤ d then .error (.notWhole base t)
    else if base = 10 ∧ Json.digitLimit < places.length then .error (.tooManyDigits places.length)
    else
      let n : Int := Text.value base places
      .ok (if negative then -n else n)

def sixtyValue (places : List Int) : Int := places.foldl (fun n d => n * 60 + d) 0

def wholeOf (text : Text) : Except ScalarFault Int := do
  let t := withoutUnderscores text
  if t.isEmpty then .error .nothing
  let (negative, t) := signed t
  let n ←
    if t = "0" then pure 0
    else if t.take 2 = "0b" then whole 2 (t.drop 2)
    else if t.take 2 = "0x" then whole 16 (t.drop 2)
    else if t.isEmpty then .error .nothing
    else if t.head? = some (.char '0') then whole 8 t
    else if t.elem (.char ':') then
      return (if negative then -1 else 1) *
        sixtyValue (← (Text.splitAt ':' t).mapM (whole 10))
    else whole 10 t
  return if negative then -n else n

def lowered (t : Text) : Text :=
  t.map fun p =>
    match p with
    | .char c => .char c.toLower
    | p => p

/-- The text with the digits of all scripts as those of ASCII. -/
def plainDigits (t : Text) : Text :=
  t.map fun p =>
    match p.decimal? with
    | some d => CodePoint.ofDigit d
    | none => p

/-- The exponent that a text is, none where there is nothing. -/
def exponentOf? (t : Text) : Option Int :=
  match t with
  | [] => some 0
  | p :: rest =>
    if p.isOneOf ['e', 'E'] then
      let (negative, digits) := signed rest
      (Text.nat? digits).map fun n => if negative then -(n : Int) else n
    else none

/-- The floating number that a text without a sign writes in digits. -/
def decimal? (t : Text) : Option Binary64 :=
  let (whole, rest) := Implicit.run Implicit.isDigit t
  let (fraction, rest) :=
    match rest with
    | .char '.' :: rest => Implicit.run Implicit.isDigit rest
    | rest => ([], rest)
  match Text.nat? (whole ++ fraction), exponentOf? rest with
  | some n, some e => some (.ofDecimal false n (e - (fraction.length : Int)))
  | _, _ => none

/-- The floating number that a text writes; words for what is not finite are allowed. -/
def floating (t : Text) : Except ScalarFault Binary64 :=
  let (negative, u) := signed (plainDigits t.strip)
  let word := lowered u
  let x :=
    if word = "inf" ∨ word = "infinity" then some (Binary64.infinite false)
    else if word = "nan" then some Binary64.nan
    else decimal? u
  match x with
  | none => .error (.notFloating t)
  | some x => .ok (if negative then x.neg else x)

/-- The value of floating places of base sixty, the last one first. The value of a place is a whole number,
and a floating one is multiplied by it only where it is in their range. -/
def sixtyFloating (base : Int) (sum : Binary64) : List Binary64 → Except ScalarFault Binary64
  | [] => .ok sum
  | d :: rest =>
    match Binary64.ofInt base with
    | .infinite _ => .error .placeOverflow
    | scale => sixtyFloating (base * 60) (sum.add (d.mul scale)) rest

def floatingOf (text : Text) : Except ScalarFault Binary64 := do
  let t := lowered (withoutUnderscores text)
  if t.isEmpty then .error .nothing
  let (negative, t) := signed t
  let x ←
    if t = ".inf" then pure (Binary64.infinite false)
    else if t = ".nan" then pure Binary64.nan
    else if t.elem (.char ':') then do
      let places ← (Text.splitAt ':' t).mapM floating
      sixtyFloating 1 (.zero false) places.reverse
    else floating t
  return if negative then x.neg else x

end GrammarBundle.Yaml
