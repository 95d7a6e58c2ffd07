import GrammarBundle.Text.Decimal
import GrammarBundle.Yaml.Blank

/-!
Quoted scalars. A line break inside is read as a space, and further breaks as they are; between double
quotes a backslash starts an escape. A separator of documents may not stand inside.
-/

namespace GrammarBundle.Yaml.Quoted

/-- The code point that a one-letter escape stands for. -/
def letterEscape? (p : CodePoint) : Option CodePoint :=
  match p with
  | .char '0' => some '\x00'
  | .char 'a' => some '\x07'
  | .char 'b' => some '\x08'
  | .char 't' => some '\t'
  | .char '\t' => some '\t'
  | .char 'n' => some '\n'
  | .char 'v' => some '\x0b'
  | .char 'f' => some '\x0c'
  | .char 'r' => some '\r'
  | .char 'e' => some '\x1b'
  | .char ' ' => some ' '
  | .char '"' => some '"'
  | .char '\\' => some '\\'
  | .char '/' => some '/'
  | .char 'N' => some '\x85'
  | .char '_' => some '\xa0'
  | .char 'L' => some '\u2028'
  | .char 'P' => some '\u2029'
  | _ => none

/-- How many hexadecimal digits follow the letter of a numeric escape. -/
def digitCount? (p : CodePoint) : Option Nat :=
  match p with
  | .char 'x' => some 2
  | .char 'u' => some 4
  | .char 'U' => some 8
  | _ => none

def numbered (count : Nat) (t : Text) : Except Fault CodePoint :=
  if t.length < count then .error .malformed
  else
    match (t.take count).mapM CodePoint.hexDigit? with
    | none => .error .malformed
    | some digits =>
      let n := Text.value 16 digits
      if n < 0x110000 then .ok (CodePoint.ofNat n)
      else if n < Nat.pow 2 31 then .error (.scalar .pointRange)
      else .error (.scalar .pointOverflow)

/-- The blank lines after a line break: their breaks, and the text after them and the blanks. -/
def breaks : (fuel : Nat) → Text → Except Fault (Text × Text)
  | 0, _ => .error .malformed
  | fuel + 1, t =>
    if atSeparator t then .error .malformed
    else
      let t := skipBlanks t
      match lineBreak? t with
      | none => .ok ([], t)
      | some (chunk, rest) =>
        match breaks fuel rest with
        | .error fault => .error fault
        | .ok (more, rest) => .ok (chunk ++ more, rest)

/-- Blanks inside a scalar: as they are within a line, folded at its end. -/
def blanks (fuel : Nat) (t : Text) : Except Fault (Text × Text) :=
  let space := t.takeWhile isBlank
  let t := t.drop space.length
  match t with
  | [] => .error .malformed
  | _ =>
    match lineBreak? t with
    | none => .ok (space, t)
    | some (chunk, rest) =>
      match breaks fuel rest with
      | .error fault => .error fault
      | .ok (more, rest) =>
        let first : Text :=
          if chunk ≠ ([.char '\n'] : Text) then chunk else Text.onlyIf more.isEmpty " "
        .ok (first ++ more, rest)

def escape (fuel : Nat) (t : Text) : Except Fault (Text × Text) :=
  match t with
  | [] => .error .malformed
  | p :: rest =>
    match letterEscape? p with
    | some q => .ok ([q], rest)
    | none =>
      match digitCount? p with
      | some count =>
        match numbered count rest with
        | .error fault => .error fault
        | .ok q => .ok ([q], rest.drop count)
      | none =>
        match lineBreak? t with
        | some (_, rest) => breaks fuel rest
        | none => .error .malformed

/-- The rest of a scalar after its opening quote: its value, and the text after the closing quote. -/
def body (double : Bool) : (fuel : Nat) → Text → Except Fault (Text × Text)
  | 0, _ => .error .malformed
  | fuel + 1, t =>
    match t with
    | [] => .error .malformed
    | p :: rest =>
      if double && p = .char '"' then .ok ([], rest)
      else if !double && p = .char '\'' && rest.head? != some (.char '\'') then .ok ([], rest)
      else
        let step : Except Fault (Text × Text) :=
          if !double && p = .char '\'' then .ok ([p], rest.drop 1)
          else if double && p = .char '\\' then escape fuel rest
          else if isBlank p || isBreak p then blanks fuel t
          else .ok ([p], rest)
        match step with
        | .error fault => .error fault
        | .ok (chunk, rest) =>
          match body double fuel rest with
          | .error fault => .error fault
          | .ok (more, rest) => .ok (chunk ++ more, rest)

/-- A quoted scalar at the head of a text, with the text after it. -/
def scan (t : Text) : Except Fault (Text × Text) :=
  body (t.head? = some (.char '"')) (t.length + 1) (t.drop 1)

end GrammarBundle.Yaml.Quoted
