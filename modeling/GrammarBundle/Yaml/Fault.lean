import GrammarBundle.Datum.Value
import GrammarBundle.Json.Reader

/-!
Why a document of the configuration format cannot be read: its form is bad, or a scalar has the form of
a kind of value that does not exist.
-/

namespace GrammarBundle.Yaml

inductive ScalarFault where
  /-- Not the digits of a whole number. -/
  | notWhole (base : Nat) (text : Text)
  /-- Not a floating number. -/
  | notFloating (text : Text)
  /-- Not one of the words for a truth value. -/
  | notTruth (word : Text)
  /-- Not a date or time. -/
  | notTime
  /-- Nothing where a number is needed. -/
  | nothing
  /-- More digits than are read. -/
  | tooManyDigits (count : Nat)
  | yearRange (year : Nat)
  | monthRange
  | dayRange
  | hourRange
  | minuteRange
  | secondRange
  /-- A distance from universal time, in seconds, of a day or more. -/
  | offsetRange (seconds : Int)
  /-- The number of no code point. -/
  | pointRange
  /-- A number far above those of code points. -/
  | pointOverflow
  /-- A place of base sixty that no floating number reaches. -/
  | placeOverflow
  /-- A time that is no text itself but has it under the key for that. -/
  | notText
  /-- A text that is under a key of the very collection that should have it. -/
  | endless
  deriving DecidableEq, Repr

def ScalarFault.message : ScalarFault → Text
  | .notWhole base text =>
    "invalid literal for int() with base " ++ Text.ofNat base ++ ": " ++ text.quoted.take 200
  | .notFloating text => "could not convert string to float: " ++ text.quoted
  | .notTruth word => word.quoted
  | .notTime => "'NoneType' object has no attribute 'groupdict'"
  | .nothing => "string index out of range"
  | .tooManyDigits count => Json.digitLimitMessage count
  | .yearRange year => "year " ++ Text.ofNat year ++ " is out of range"
  | .monthRange => "month must be in 1..12"
  | .dayRange => "day is out of range for month"
  | .hourRange => "hour must be in 0..23"
  | .minuteRange => "minute must be in 0..59"
  | .secondRange => "second must be in 0..59"
  | .offsetRange seconds =>
    "offset must be a timedelta strictly between -timedelta(hours=24) and timedelta(hours=24), not " ++
      Datum.displaySpan seconds ++ "."
  | .pointRange => "chr() arg not in range(0x110000)"
  | .pointOverflow => "Python int too large to convert to C int"
  | .placeOverflow => "int too large to convert to float"
  | .notText => "expected string or bytes-like object, got 'list'"
  | .endless => "maximum recursion depth exceeded"

inductive Fault where
  | malformed
  | scalar (fault : ScalarFault)
  deriving DecidableEq, Repr

/-- The detail that messages give for a document of bad form. -/
def malformedDetail : Text := "<yaml error>"

end GrammarBundle.Yaml
