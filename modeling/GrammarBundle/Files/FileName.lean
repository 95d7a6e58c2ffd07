import GrammarBundle.Text.Utf8

/-!
File names as bytes and as text. A byte that is not part of any character is carried by one of the
surrogates U+DC80 to U+DCFF, so that every file name has a text and that text leads back to its bytes.
-/

namespace GrammarBundle.FileName

/-- The byte that a surrogate carries. -/
def carried? : CodePoint → Option UInt8
  | .char _ => none
  | .surrogate u =>
    if 0x480 ≤ u.val ∧ u.val ≤ 0x4FF then some (UInt8.ofNat (u.val - 0x400)) else none

/-- The bytes of a text, given how many code points stand before it. -/
def encodeFrom (position : Nat) : Text → Except Utf8.EncodeFault (List UInt8)
  | [] => .ok []
  | .char c :: rest => (Utf8.encodeNumber c.toNat ++ ·) <$> encodeFrom (position + 1) rest
  | .surrogate u :: rest =>
    match carried? (.surrogate u) with
    | some b => (b :: ·) <$> encodeFrom (position + 1) rest
    | none => .error ⟨.surrogate u, position, 1 + (rest.takeWhile (·.isSurrogate)).length⟩

/-- The bytes of a path; a surrogate that carries no byte is refused. -/
def encode (t : Text) : Except Utf8.EncodeFault (List UInt8) := encodeFrom 0 t

/-- The text of bytes, each byte outside all characters carried by a surrogate. -/
def decode : List UInt8 → Text
  | [] => []
  | b :: rest =>
    match Utf8.leadOf b rest with
    | .point number size => CodePoint.ofNat number :: decode (rest.drop (size - 1))
    | .fault _ _ => CodePoint.ofNat (0xDC00 + b.toNat) :: decode rest
termination_by bytes => bytes.length
decreasing_by
  · simp only [List.length_drop, List.length_cons]; omega
  · simp

/-- The text that a listing shows for a name. -/
def canonical (t : Text) : Text :=
  if t.surrogateFree then t
  else
    match encode t with
    | .ok bytes => decode bytes
    | .error _ => t

def size (t : Text) : Nat :=
  match encode t with
  | .ok bytes => bytes.length
  | .error _ => t.length

end GrammarBundle.FileName
