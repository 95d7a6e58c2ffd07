import GrammarBundle.Datum.Calendar
import GrammarBundle.Json.Writer
import GrammarBundle.Text.Quoted

/-!
Data: the values that a document can hold, with their text in messages. JSON values are data; a
document of the richer format can also hold bytes, days, times, sets and pairs, and its mappings can
have keys of any kind.
-/

namespace GrammarBundle

/-- A value of a document. The last case stands for a list or mapping that holds itself, at the place
where it appears inside itself. -/
inductive Datum where
  | null
  | bool (b : Bool)
  | int (n : Int)
  | float (x : Binary64)
  | str (t : Text)
  | bytes (b : List UInt8)
  | date (d : Date)
  | dateTime (t : DateTime)
  | list (items : List Datum)
  | tuple (items : List Datum)
  | mapping (entries : List (Datum × Datum))
  | set (members : List Datum)
  | again (isList : Bool)
  deriving Inhabited

namespace Datum

/-- A span of time as days and seconds within the day, those that are zero left out. -/
def displaySpan (seconds : Int) : Text :=
  let days := seconds / 86400
  let within := seconds % 86400
  let parts : List Text :=
    (if days = 0 then [] else ["days=" ++ Text.ofInt days]) ++
      (if within = 0 then [] else ["seconds=" ++ Text.ofInt within])
  "datetime.timedelta(" ++ Text.join ", " parts ++ ")"

def displayOffset (seconds : Int) : Text :=
  if seconds = 0 then "datetime.timezone.utc"
  else "datetime.timezone(" ++ displaySpan seconds ++ ")"

def displayDateTime (t : DateTime) : Text :=
  let fields := [t.date.year, t.date.month, t.date.day, t.hour, t.minute]
  let fields :=
    if t.microsecond ≠ 0 then fields ++ [t.second, t.microsecond]
    else if t.second ≠ 0 then fields ++ [t.second]
    else fields
  let zone : Text :=
    match t.offset with
    | none => []
    | some seconds => ", tzinfo=" ++ displayOffset seconds
  "datetime.datetime(" ++ Text.join ", " (fields.map Text.ofNat) ++ zone ++ ")"

mutual

/-- The value as it stands in a message: text in quotes, containers with their elements. -/
def display : Datum → Text
  | .null => "None"
  | .bool true => "True"
  | .bool false => "False"
  | .int n => Text.ofInt n
  | .float x => x.toText
  | .str t => t.quoted
  | .bytes b => Text.quotedBytes b
  | .date d =>
    "datetime.date(" ++ Text.join ", " ([d.year, d.month, d.day].map Text.ofNat) ++ ")"
  | .dateTime t => displayDateTime t
  | .list items => "[" ++ displayItems items ++ "]"
  | .tuple [v] => "(" ++ display v ++ ",)"
  | .tuple items => "(" ++ displayItems items ++ ")"
  | .mapping entries => "\x7b" ++ displayEntries entries ++ "\x7d"
  | .set [] => "set()"
  | .set members => "\x7b" ++ displayItems members ++ "\x7d"
  | .again true => "[...]"
  | .again false => "\x7b...\x7d"

def displayItems : List Datum → Text
  | [] => []
  | [v] => display v
  | v :: rest => display v ++ ", " ++ displayItems rest

def displayEntries : List (Datum × Datum) → Text
  | [] => []
  | [(k, v)] => display k ++ ": " ++ display v
  | (k, v) :: rest => display k ++ ": " ++ display v ++ ", " ++ displayEntries rest

end

mutual

/-- Whether a value can be displayed: no whole number in it has more digits than are printed. -/
def isPrintable : Datum → Bool
  | .int n => (Json.int n).isPrintable
  | .list items => arePrintable items
  | .tuple items => arePrintable items
  | .mapping entries => arePrintableEntries entries
  | .set members => arePrintable members
  | _ => true

def arePrintable : List Datum → Bool
  | [] => true
  | v :: rest => isPrintable v && arePrintable rest

def arePrintableEntries : List (Datum × Datum) → Bool
  | [] => true
  | (k, v) :: rest => isPrintable k && isPrintable v && arePrintableEntries rest

end

/-- The value by itself: text and dates without quotes. -/
def plain : Datum → Text
  | .str t => t
  | .date d => d.isoText
  | .dateTime t => t.textWith " "
  | v => v.display

end Datum

namespace Json

mutual

def toDatum : Json → Datum
  | .null => .null
  | .bool b => .bool b
  | .int n => .int n
  | .float x => .float x
  | .str t => .str t
  | .list items => .list (toDatumItems items)
  | .object members => .mapping (toDatumMembers members)

def toDatumItems : List Json → List Datum
  | [] => []
  | v :: rest => toDatum v :: toDatumItems rest

def toDatumMembers : List (Text × Json) → List (Datum × Datum)
  | [] => []
  | (k, v) :: rest => (.str k, toDatum v) :: toDatumMembers rest

end

def display (v : Json) : Text := v.toDatum.display

/-- The value by itself; text is what it is. -/
def plain : Json → Text
  | .str t => t
  | v => v.display

end Json

end GrammarBundle
