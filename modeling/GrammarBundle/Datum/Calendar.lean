import GrammarBundle.Text.Decimal

/-!
Dates and times of day in the proleptic Gregorian calendar, for the years 1 to 9999, with their ISO
text.
-/

namespace GrammarBundle

structure Date where
  year : Nat
  month : Nat
  day : Nat
  deriving DecidableEq, Repr, Inhabited

namespace Date

def isLeapYear (year : Nat) : Bool := year % 4 == 0 && (year % 100 != 0 || year % 400 == 0)

def daysInMonth (year month : Nat) : Nat :=
  if month = 2 then (if isLeapYear year then 29 else 28)
  else if month = 4 ∨ month = 6 ∨ month = 9 ∨ month = 11 then 30
  else 31

/-- The days of the first months of a year. -/
def daysOfMonths (year : Nat) : Nat → Nat
  | 0 => 0
  | month + 1 => daysOfMonths year month + daysInMonth year (month + 1)

/-- The number of days from the last one before the year 1. -/
def dayNumber (d : Date) : Nat :=
  let before := d.year - 1
  before * 365 + before / 4 - before / 100 + before / 400 + daysOfMonths d.year (d.month - 1) + d.day

/-- The date as year, month and day with hyphens. -/
def isoText (d : Date) : Text :=
  Text.zeroPadded 4 (Text.ofNat d.year) ++ "-" ++ Text.zeroPadded 2 (Text.ofNat d.month) ++ "-" ++
    Text.zeroPadded 2 (Text.ofNat d.day)

end Date

/-- A time on a day, with its distance from universal time in seconds where that is known. -/
structure DateTime where
  date : Date
  hour : Nat
  minute : Nat
  second : Nat
  microsecond : Nat
  offset : Option Int
  deriving DecidableEq, Repr, Inhabited

namespace DateTime

/-- A distance from universal time as sign, hours and minutes, and seconds where there are any. -/
def offsetText (seconds : Int) : Text :=
  let n := seconds.natAbs
  let two (n : Nat) : Text := Text.zeroPadded 2 (Text.ofNat n)
  .char (if seconds < 0 then '-' else '+') :: two (n / 3600) ++ ":" ++ two (n / 60 % 60) ++
    Text.onlyIf (n % 60 != 0) (":" ++ two (n % 60))

/-- Hours, minutes and seconds, and six digits of a fraction unless it is zero. -/
def clockText (t : DateTime) : Text :=
  let two (n : Nat) : Text := Text.zeroPadded 2 (Text.ofNat n)
  two t.hour ++ ":" ++ two t.minute ++ ":" ++ two t.second ++
    Text.onlyIf (t.microsecond != 0) ("." ++ Text.zeroPadded 6 (Text.ofNat t.microsecond))

def textWith (separator : Text) (t : DateTime) : Text :=
  t.date.isoText ++ separator ++ t.clockText ++ ((t.offset.map offsetText).getD [])

def isoText (t : DateTime) : Text := t.textWith "T"

/-- The microseconds up to a time at a distance from universal time. -/
def microseconds (t : DateTime) (offset : Int) : Int :=
  let minutes : Int := (t.date.dayNumber * 24 + t.hour) * 60 + t.minute
  (minutes * 60 + t.second - offset) * 1000000 + t.microsecond

/-- Whether two times are the same: by their moment where both have a distance from universal time. -/
def isSameMoment (t u : DateTime) : Bool :=
  match t.offset, u.offset with
  | some a, some b => t.microseconds a == u.microseconds b
  | _, _ => t == u

/-- The time as digits alone: the date, a hyphen, and the time of day. -/
def stamp (t : DateTime) : Text :=
  let two (n : Nat) : Text := Text.zeroPadded 2 (Text.ofNat n)
  Text.ofNat t.date.year ++ two t.date.month ++ two t.date.day ++ "-" ++ two t.hour ++
    two t.minute ++ two t.second

end DateTime

end GrammarBundle
