import GrammarBundle.Text.CodePoint

/-!
Lines of a text: where a text breaks into lines, and the one line end that reading a file leaves.
-/

namespace GrammarBundle

def CodePoint.isLineBreak (p : CodePoint) : Bool :=
  let n := p.val
  (0x0A ≤ n && n ≤ 0x0D) || (0x1C ≤ n && n ≤ 0x1E) || n == 0x85 || n == 0x2028 || n == 0x2029

namespace Text

/-- The lines of a text without their ends; a carriage return and line feed end one line together,
and an end that closes the text starts no further line. -/
def lines : Text → List Text
  | [] => []
  | .char '\r' :: .char '\n' :: rest => [] :: lines rest
  | p :: rest =>
    if p.isLineBreak then [] :: lines rest
    else
      match lines rest with
      | [] => [[p]]
      | line :: more => (p :: line) :: more

/-- Every line end of a file read as one line feed. -/
def unifyLineEnds : Text → Text
  | [] => []
  | .char '\r' :: .char '\n' :: rest => .char '\n' :: unifyLineEnds rest
  | p :: rest => (if p = .char '\r' then .char '\n' else p) :: unifyLineEnds rest

end Text

end GrammarBundle
