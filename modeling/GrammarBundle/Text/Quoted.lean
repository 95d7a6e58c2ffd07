import GrammarBundle.Text.Decimal
import GrammarBundle.Text.Printable

/-!
Text quoted for a message: between quotes, with everything that has no visible form escaped, so that
the reader sees exactly which code points the text holds.
-/

namespace GrammarBundle.Text

/-- A code point by its number: two, four or eight hexadecimal digits, the fewest that suffice. -/
def numberEscape (p : CodePoint) : Text :=
  let n := p.val
  if n ≤ 0xFF then "\\x" ++ hex 2 n
  else if n ≤ 0xFFFF then "\\u" ++ hex 4 n
  else "\\U" ++ hex 8 n

/-- One code point inside quotes of the given kind. -/
def quotedPoint (quote p : CodePoint) : Text :=
  if p = quote ∨ p = .char '\\' then [.char '\\', p]
  else if p = .char '\t' then "\\t"
  else if p = .char '\n' then "\\n"
  else if p = .char '\r' then "\\r"
  else if p.isPrintable then [p]
  else numberEscape p

/-- The text in single quotes; in double quotes where it holds a single quote and no double one. -/
def quoted (t : Text) : Text :=
  let quote : CodePoint :=
    if t.elem (.char '\'') && !t.elem (.char '"') then .char '"' else .char '\''
  quote :: t.flatMap (quotedPoint quote) ++ [quote]

/-- Bytes in quotes after the letter b: ASCII as itself, all else as two hexadecimal digits. -/
def quotedBytes (bytes : List UInt8) : Text :=
  let points : Text := bytes.map fun b => CodePoint.ofNat b.toNat
  let quote : CodePoint :=
    if points.elem (.char '\'') && !points.elem (.char '"') then .char '"' else .char '\''
  let point (p : CodePoint) : Text :=
    if p.val < 0x80 then quotedPoint quote p else "\\x" ++ hex 2 p.val
  "b" ++ (quote :: points.flatMap point) ++ [quote]

end GrammarBundle.Text
