import GrammarBundle.Json.Value
import GrammarBundle.Text.Decimal

/-!
Reading JSON. A fault names its cause and the text that was left where it shows; the position, line and
column of its message follow from that rest. Beyond the standard, `NaN`, `Infinity` and `-Infinity` are
numbers, and an escape may name a surrogate without a partner. Values may be nested to any depth: the stack
of a program is assumed to suffice for them, here and wherever values are written.
-/

namespace GrammarBundle.Json

inductive SyntaxCause where
  | byteOrderMark
  | expectedValue
  | expectedName
  | expectedColon
  | expectedComma
  | unterminatedString
  | controlCharacter
  | unknownEscape
  | unicodeEscape
  | extraData
  deriving DecidableEq, Repr

def SyntaxCause.message : SyntaxCause → Text
  | .byteOrderMark => "Unexpected UTF-8 BOM (decode using utf-8-sig)"
  | .expectedValue => "Expecting value"
  | .expectedName => "Expecting property name enclosed in double quotes"
  | .expectedColon => "Expecting ':' delimiter"
  | .expectedComma => "Expecting ',' delimiter"
  | .unterminatedString => "Unterminated string starting at"
  | .controlCharacter => "Invalid control character at"
  | .unknownEscape => "Invalid \\escape"
  | .unicodeEscape => "Invalid \\uXXXX escape"
  | .extraData => "Extra data"

/-- The most digits that a whole number may have. -/
def digitLimit : Nat := 4300

/-- A fault found while reading: bad form with the text left at it, or a number with too many digits. -/
inductive Stop where
  | badForm (cause : SyntaxCause) (rest : Text)
  | tooManyDigits (count : Nat)
  deriving DecidableEq, Repr

inductive ReadFault where
  | badForm (cause : SyntaxCause) (line column position : Nat)
  | tooManyDigits (count : Nat)
  deriving DecidableEq, Repr

/-- The message for a whole number of more digits than are read. -/
def digitLimitMessage (count : Nat) : Text :=
  "Exceeds the limit (" ++ Text.ofNat digitLimit ++
    " digits) for integer string conversion: value has " ++ Text.ofNat count ++
    " digits; use sys.set_int_max_str_digits() to increase the limit"

def ReadFault.message : ReadFault → Text
  | .badForm cause line column position =>
    cause.message ++ ": line " ++ Text.ofNat line ++ " column " ++ Text.ofNat column ++ " (char " ++
      Text.ofNat position ++ ")"
  | .tooManyDigits count => digitLimitMessage count

/-- The fault of a text whose reading stopped; lines end at line feeds alone. -/
def Stop.locate (text : Text) : Stop → ReadFault
  | .badForm cause rest =>
    let position := text.length - rest.length
    let done := text.take position
    .badForm cause (done.count (.char '\n') + 1)
      ((done.reverse.takeWhile (· ≠ .char '\n')).length + 1) position
  | .tooManyDigits count => .tooManyDigits count

/-- The four blank characters between tokens. -/
def isSpace (p : CodePoint) : Bool := p.isOneOf [' ', '\t', '\n', '\r']

def skipSpace (t : Text) : Text := t.dropWhile isSpace

/-- The number that four hexadecimal digits at the head of a text name. -/
def fourHex? : Text → Option Nat
  | a :: b :: c :: d :: _ => ([a, b, c, d].mapM CodePoint.hexDigit?).map (Text.value 16)
  | _ => none

/-- An escape after its backslash: the code point, and how much text it takes. Two halves of a
surrogate pair make one character; a unit that closes the text is refused, as no quote can follow. -/
def escape (start backslash : Text) : Text → Except Stop (CodePoint × Nat)
  | [] => .error (.badForm .unterminatedString start)
  | .char '"' :: _ => .ok ('"', 1)
  | .char '\\' :: _ => .ok ('\\', 1)
  | .char '/' :: _ => .ok ('/', 1)
  | .char 'b' :: _ => .ok ('\x08', 1)
  | .char 'f' :: _ => .ok ('\x0c', 1)
  | .char 'n' :: _ => .ok ('\n', 1)
  | .char 'r' :: _ => .ok ('\r', 1)
  | .char 't' :: _ => .ok ('\t', 1)
  | .char 'u' :: digits =>
    match fourHex? digits with
    | none => .error (.badForm .unicodeEscape (.char 'u' :: digits))
    | some n =>
      match digits.drop 4 with
      | [] => .error (.badForm .unicodeEscape (.char 'u' :: digits))
      | .char '\\' :: .char 'u' :: second =>
        if (CodePoint.ofNat n).isHigh && 4 < second.length then
          match fourHex? second with
          | none => .error (.badForm .unicodeEscape (.char 'u' :: second))
          | some m =>
            if (CodePoint.ofNat m).isLow then
              .ok (CodePoint.ofNat (0x10000 + (n - 0xD800) * 1024 + (m - 0xDC00)), 11)
            else .ok (CodePoint.ofNat n, 5)
        else .ok (CodePoint.ofNat n, 5)
      | _ => .ok (CodePoint.ofNat n, 5)
  | _ => .error (.badForm .unknownEscape backslash)

/-- The rest of a string after its opening quote, which stands at the head of `start`. -/
def stringBody (start : Text) : Text → Except Stop (Text × Text)
  | [] => .error (.badForm .unterminatedString start)
  | p :: rest =>
    if p = .char '"' then .ok ([], rest)
    else if p = .char '\\' then
      match escape start (p :: rest) rest with
      | .error stop => .error stop
      | .ok (q, count) =>
        match stringBody start (rest.drop count) with
        | .error stop => .error stop
        | .ok (body, rest) => .ok (q :: body, rest)
    else if p.val < 0x20 then .error (.badForm .controlCharacter (p :: rest))
    else
      match stringBody start rest with
      | .error stop => .error stop
      | .ok (body, rest) => .ok (p :: body, rest)
termination_by t => t.length
decreasing_by
  · simp only [List.length_drop, List.length_cons]; omega
  · simp

/-- A fraction: a point and at least one digit. -/
def fraction (t : Text) : Text × Text :=
  match t with
  | .char '.' :: rest =>
    let digits := rest.takeWhile (·.isDigit)
    if digits.isEmpty then ([], t) else (digits, rest.drop digits.length)
  | _ => ([], t)

/-- An exponent: its mark, a sign or none, and at least one digit. -/
def exponent? (t : Text) : Option (Int × Text) :=
  match t with
  | p :: rest =>
    if p.isOneOf ['e', 'E'] then
      let (negative, rest) :=
        match rest with
        | .char '+' :: rest => (false, rest)
        | .char '-' :: rest => (true, rest)
        | _ => (false, rest)
      let digits := rest.takeWhile (·.isDigit)
      (Text.nat? digits).map fun n => (if negative then -(n : Int) else n, rest.drop digits.length)
    else none
  | [] => none

/-- The digits of the whole part: a zero alone, or digits that do not start with one. -/
def wholeDigits (t : Text) : Text :=
  match t with
  | .char '0' :: _ => [.char '0']
  | _ => t.takeWhile (·.isDigit)

/-- A number at the head of `start`, given its sign and the text after the sign. -/
def number (start : Text) (negative : Bool) (t : Text) : Except Stop (Json × Text) :=
  let whole := wholeDigits t
  let rest := t.drop whole.length
  match Text.nat? whole with
  | none => .error (.badForm .expectedValue start)
  | some n =>
    let (fractional, afterFraction) := fraction rest
    match exponent? afterFraction with
    | none =>
      if fractional.isEmpty then
        if digitLimit < whole.length then .error (.tooManyDigits whole.length)
        else .ok (.int (if negative then -(n : Int) else n), rest)
      else
        .ok
          (.float (.ofDecimal negative ((Text.nat? (whole ++ fractional)).getD 0)
            (-(fractional.length : Int))), afterFraction)
    | some (e, rest) =>
      .ok
        (.float (.ofDecimal negative ((Text.nat? (whole ++ fractional)).getD 0)
          (e - (fractional.length : Int))), rest)

def words : List (Text × Json) :=
  [("null", .null), ("true", .bool true), ("false", .bool false), ("NaN", .float .nan),
    ("Infinity", .float (.infinite false)), ("-Infinity", .float (.infinite true))]

/-- A word or a number at the head of a text. -/
def wordOrNumber (t : Text) : Except Stop (Json × Text) :=
  match words.find? (fun (word, _) => word.isPrefixOf t) with
  | some (word, v) => .ok (v, t.drop word.length)
  | none =>
    match t with
    | .char '-' :: rest => number t true rest
    | _ => number t false t

mutual

/-- A value at the head of a text, with the text after it. -/
def value : (fuel : Nat) → Text → Except Stop (Json × Text)
  | 0, t => .error (.badForm .expectedValue t)
  | fuel + 1, t =>
    match t with
    | .char '"' :: rest =>
      match stringBody t rest with
      | .error stop => .error stop
      | .ok (body, rest) => .ok (.str body, rest)
    | .char '[' :: rest =>
      match skipSpace rest with
      | .char ']' :: rest => .ok (.list [], rest)
      | rest =>
        match elements fuel rest with
        | .error stop => .error stop
        | .ok (items, rest) => .ok (.list items, rest)
    | .char '{' :: rest =>
      match skipSpace rest with
      | .char '}' :: rest => .ok (.object [], rest)
      | rest =>
        match members fuel rest with
        | .error stop => .error stop
        | .ok (settings, rest) => .ok (.object (Members.ofSettings settings), rest)
    | _ => wordOrNumber t

/-- One or more elements and the closing bracket. -/
def elements : (fuel : Nat) → Text → Except Stop (List Json × Text)
  | 0, t => .error (.badForm .expectedValue t)
  | fuel + 1, t =>
    match value fuel t with
    | .error stop => .error stop
    | .ok (v, rest) =>
      match skipSpace rest with
      | .char ']' :: rest => .ok ([v], rest)
      | .char ',' :: rest =>
        match elements fuel (skipSpace rest) with
        | .error stop => .error stop
        | .ok (items, rest) => .ok (v :: items, rest)
      | rest => .error (.badForm .expectedComma rest)

/-- One or more members and the closing brace. -/
def members : (fuel : Nat) → Text → Except Stop (List (Text × Json) × Text)
  | 0, t => .error (.badForm .expectedName t)
  | fuel + 1, t =>
    match t with
    | .char '"' :: rest =>
      match stringBody t rest with
      | .error stop => .error stop
      | .ok (name, rest) =>
        match skipSpace rest with
        | .char ':' :: rest =>
          match value fuel (skipSpace rest) with
          | .error stop => .error stop
          | .ok (v, rest) =>
            match skipSpace rest with
            | .char '}' :: rest => .ok ([(name, v)], rest)
            | .char ',' :: rest =>
              match members fuel (skipSpace rest) with
              | .error stop => .error stop
              | .ok (settings, rest) => .ok ((name, v) :: settings, rest)
            | rest => .error (.badForm .expectedComma rest)
        | rest => .error (.badForm .expectedColon rest)
    | _ => .error (.badForm .expectedName t)

end

/-- A text that holds one value and blanks, or where its reading stops. -/
def readAll (t : Text) : Except Stop Json :=
  match t with
  | .char '\uFEFF' :: _ => .error (.badForm .byteOrderMark t)
  | _ =>
    match value (2 * t.length + 2) (skipSpace t) with
    | .error stop => .error stop
    | .ok (v, rest) =>
      match skipSpace rest with
      | [] => .ok v
      | rest => .error (.badForm .extraData rest)

def read (t : Text) : Except ReadFault Json :=
  match readAll t with
  | .error stop => .error (stop.locate t)
  | .ok v => .ok v

end GrammarBundle.Json
