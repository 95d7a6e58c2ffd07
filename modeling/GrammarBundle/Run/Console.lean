import GrammarBundle.Text.CodePoint

/-!
Consoles: what the output of a run takes. An output has an encoding, and refuses a text that has no bytes
in it; ASCII has bytes in all of them. That an output is full, or is closed while the program runs, is not
considered.
-/

namespace GrammarBundle

/-- An output: which texts it refuses, and in which words. -/
structure Console where
  refusal? : Text → Option Text
  ascii : ∀ t : Text, (∀ p ∈ t, p.val < 0x80) → refusal? t = none

namespace Console

/-- An output that takes every text, as one that is kept and not encoded does. -/
def lenient : Console := ⟨fun _ => none, fun _ _ => rfl⟩

end Console

end GrammarBundle
