import GrammarBundle.Json.Reader
import GrammarBundle.Number.Shortest

/-!
JSON as text, in two forms. The compact form is what JavaScript writes: no spaces, non-ASCII text as it
is, and a surrogate always escaped, so that the result can be encoded. The portable form is pure ASCII
with the members of every object sorted, on one line or indented. A whole number with more digits than
are read is not printed.
-/

namespace GrammarBundle.Json

/-- Two characters for the code points that have an escape of their own. -/
def shortEscape? : CodePoint → Option Text
  | .char '"' => some "\\\""
  | .char '\\' => some "\\\\"
  | .char '\n' => some "\\n"
  | .char '\r' => some "\\r"
  | .char '\t' => some "\\t"
  | .char '\x0c' => some "\\f"
  | .char '\x08' => some "\\b"
  | _ => none

def unitEscape (n : Nat) : Text := "\\u" ++ Text.hex 4 n

/-- A code point inside a string of the compact form. -/
def compactPoint (p : CodePoint) : Text :=
  match shortEscape? p with
  | some t => t
  | none => if p.val < 0x20 || p.isSurrogate then unitEscape p.val else [p]

/-- A code point inside a string of the portable form; above U+FFFF as a surrogate pair. -/
def portablePoint (p : CodePoint) : Text :=
  match shortEscape? p with
  | some t => t
  | none =>
    let n := p.val
    if 0x20 ≤ n && n < 0x7F then [p]
    else if n < 0x10000 then unitEscape n
    else
      unitEscape (0xD800 + (n - 0x10000) / 1024) ++ unitEscape (0xDC00 + (n - 0x10000) % 1024)

structure Style where
  point : CodePoint → Text
  comma : Text
  colon : Text
  indented : Bool

/-- No spaces, and only what must be is escaped. -/
def Style.compact : Style := ⟨compactPoint, ",", ":", false⟩

/-- One line of ASCII with a space after commas and colons. -/
def Style.line : Style := ⟨portablePoint, ", ", ": ", false⟩

/-- ASCII with each element on a line of its own, two spaces deeper than its container. -/
def Style.pretty : Style := ⟨portablePoint, ",", ": ", true⟩

/-- A line break and the indentation of a depth, where the style has any. -/
def Style.break (style : Style) (depth : Nat) : Text :=
  Text.onlyIf style.indented (.char '\n' :: Text.repeated (2 * depth) ' ')

def Style.quote (style : Style) (t : Text) : Text :=
  .char '"' :: t.flatMap style.point ++ [.char '"']

/-- A floating number; what is not finite has a capital name. -/
def floatText (x : Binary64) : Text := x.toTextWith "Infinity" "NaN"

mutual

/-- A value as text, at a depth of nesting. -/
def write (style : Style) (depth : Nat) : Json → Text
  | .null => "null"
  | .bool true => "true"
  | .bool false => "false"
  | .int n => Text.ofInt n
  | .float x => floatText x
  | .str t => style.quote t
  | .list [] => "[]"
  | .list (v :: rest) =>
    "[" ++ style.break (depth + 1) ++ write style (depth + 1) v ++
      writeItems style (depth + 1) rest ++ style.break depth ++ "]"
  | .object [] => "\x7b\x7d"
  | .object ((k, v) :: rest) =>
    "\x7b" ++ style.break (depth + 1) ++ style.quote k ++ style.colon ++ write style (depth + 1) v ++
      writeMembers style (depth + 1) rest ++ style.break depth ++ "\x7d"

def writeItems (style : Style) (depth : Nat) : List Json → Text
  | [] => []
  | v :: rest =>
    style.comma ++ style.break depth ++ write style depth v ++ writeItems style depth rest

def writeMembers (style : Style) (depth : Nat) : List (Text × Json) → Text
  | [] => []
  | (k, v) :: rest =>
    style.comma ++ style.break depth ++ style.quote k ++ style.colon ++ write style depth v ++
      writeMembers style depth rest

end

/-- The compact form, in the given member order. -/
def compact (v : Json) : Text := write .compact 0 v

/-- The portable form in the given member order, on one line. -/
def line (v : Json) : Text := write .line 0 v

/-- The portable form: sorted members, on one line or indented. -/
def portable (v : Json) (indented : Bool) : Text :=
  write (if indented then .pretty else .line) 0 v.sortKeys

inductive PrintFault where
  | tooManyDigits
  deriving DecidableEq, Repr

def PrintFault.message : PrintFault → Text
  | .tooManyDigits =>
    "Exceeds the limit (" ++ Text.ofNat digitLimit ++
      " digits) for integer string conversion; use sys.set_int_max_str_digits() to increase the limit"

mutual

/-- Whether no whole number in a value has more digits than are printed. -/
def isPrintable : Json → Bool
  | .int n => (Text.ofNat n.natAbs).length ≤ digitLimit
  | .list items => arePrintable items
  | .object members => arePrintableMembers members
  | _ => true

def arePrintable : List Json → Bool
  | [] => true
  | v :: rest => isPrintable v && arePrintable rest

def arePrintableMembers : List (Text × Json) → Bool
  | [] => true
  | (_, v) :: rest => isPrintable v && arePrintableMembers rest

end

/-- A value as it is sent, on one line in the given member order. -/
def dumpLine (v : Json) : Except PrintFault Text :=
  if v.isPrintable then .ok v.line else .error .tooManyDigits

/-- A value as it is printed, in its portable form. -/
def dump (v : Json) (indented : Bool) : Except PrintFault Text :=
  if v.isPrintable then .ok (v.portable indented) else .error .tooManyDigits

end GrammarBundle.Json
