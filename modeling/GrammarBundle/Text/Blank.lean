import GrammarBundle.Text.CodePoint

/-!
White space: the code points that separate words in any script, the four ASCII information separators
among them.
-/

namespace GrammarBundle

def CodePoint.isBlank (p : CodePoint) : Bool :=
  let n := p.val
  (0x09 ≤ n && n ≤ 0x0D) || (0x1C ≤ n && n ≤ 0x20) || n == 0x85 || n == 0xA0 || n == 0x1680 ||
    (0x2000 ≤ n && n ≤ 0x200A) || n == 0x2028 || n == 0x2029 || n == 0x202F || n == 0x205F ||
    n == 0x3000

def Text.strip (t : Text) : Text := t.trim CodePoint.isBlank

end GrammarBundle
