import GrammarBundle.Text.Decimal
import GrammarBundle.Yaml.Blank

/-!
Block scalars: the indented lines after a bar or an angle. The header may fix the indentation and say
what becomes of the line breaks at the end; after an angle, lines that start with no blank are folded.
-/

namespace GrammarBundle.Yaml.Block

/-- What becomes of the line breaks at the end: they go, one stays, or all stay. -/
inductive Chomping where
  | strip
  | clip
  | keep
  deriving DecidableEq, Repr

/-- A header: the chomping and the indentation that it gives. -/
structure Header where
  chomping : Chomping
  increment : Option Nat

def chomping? (t : Text) : Option Chomping :=
  match t with
  | .char '+' :: _ => some .keep
  | .char '-' :: _ => some .strip
  | _ => none

/-- The header after the bar or angle, up to the end of its line. -/
def header (t : Text) : Except Fault (Header × Text) := do
  let first := chomping? t
  let t := if first.isSome then t.drop 1 else t
  let digit := t.head?.bind CodePoint.digit?
  if digit = some 0 then .error .malformed
  let t := if digit.isSome then t.drop 1 else t
  let second := if first.isNone && digit.isSome then chomping? t else none
  let t := if second.isSome then t.drop 1 else t
  if !atSpace t then .error .malformed
  return (⟨(first.orElse fun _ => second).getD .clip, digit⟩, ← lineRest t)

/-- The blank lines before the first line, their breaks, the deepest indentation among them and the
first line, and the indentation of the first line. -/
def leading : (fuel : Nat) → (column deepest : Nat) → Text → Text × Nat × Nat × Text
  | 0, column, deepest, t => ([], deepest, column, t)
  | fuel + 1, column, deepest, t =>
    match t with
    | .char ' ' :: rest => leading fuel (column + 1) (max deepest (column + 1)) rest
    | t =>
      match lineBreak? t with
      | none => ([], deepest, column, t)
      | some (chunk, rest) =>
        let (more, deepest, column, rest) := leading fuel 0 deepest rest
        (chunk ++ more, deepest, column, rest)

/-- The spaces at the head of a text up to a number. -/
def indentation (indent : Nat) (t : Text) : Nat := ((t.takeWhile isSpace).take indent).length

/-- The blank lines before the next line, given the indentation: their breaks, how far the next line is
indented at most up to it, and the text from there. -/
def blankLines (indent : Nat) : (fuel : Nat) → Text → Text × Nat × Text
  | 0, t => ([], 0, t)
  | fuel + 1, t =>
    let column := indentation indent t
    let t := t.drop column
    match lineBreak? t with
    | none => ([], column, t)
    | some (chunk, rest) =>
      let (more, column, rest) := blankLines indent fuel rest
      (chunk ++ more, column, rest)

def startsBlank (t : Text) : Bool := (t.head?.map isBlank).getD false

/-- The value from its next line on, and the text after it; `before` are the breaks of blank lines
before that line. -/
def content (folded : Bool) (chomping : Chomping) (indent : Nat) : (fuel : Nat) → (before : Text) →
    (column : Nat) → Text → Text × Text
  | 0, _, _, t => ([], t)
  | fuel + 1, before, column, t =>
    if column ≠ indent ∨ t = [] then
      (if chomping = .keep then before else [], t)
    else
      let line := t.takeWhile (!isBreak ·)
      let rest := t.drop line.length
      let (lineEnd, rest) := (lineBreak? rest).getD ([], rest)
      let (blank, column, rest) := blankLines indent (rest.length + 1) rest
      if column = indent ∧ rest ≠ [] then
        let joint : Text :=
          if folded && lineEnd = ([.char '\n'] : Text) && !startsBlank t && !startsBlank rest then
            Text.onlyIf blank.isEmpty " "
          else lineEnd
        let (more, rest) := content folded chomping indent fuel blank column rest
        (before ++ line ++ joint ++ more, rest)
      else
        let tail : Text :=
          match chomping with
          | .strip => []
          | .clip => lineEnd
          | .keep => lineEnd ++ blank
        (before ++ line ++ tail, rest)

/-- A block scalar at the head of a text, inside a block of the given indentation; its value and the
text after it. -/
def scan (blockIndent : Int) (t : Text) : Except Fault (Text × Text) := do
  let folded := t.head? = some (.char '>')
  let (h, rest) ← header (t.drop 1)
  let least := max (blockIndent + 1).toNat 1
  match h.increment with
  | none =>
    let (before, deepest, column, rest) := leading (rest.length + 1) 0 0 rest
    return content folded h.chomping (max least deepest) (rest.length + 1) before column rest
  | some increment =>
    let indent := least + increment - 1
    let (before, column, rest) := blankLines indent (rest.length + 1) rest
    return content folded h.chomping indent (rest.length + 1) before column rest

end GrammarBundle.Yaml.Block
