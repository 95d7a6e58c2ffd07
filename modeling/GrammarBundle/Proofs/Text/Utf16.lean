import Mathlib.Data.List.Chain
import GrammarBundle.Proofs.Json.Strings
import GrammarBundle.Proofs.Text.Pieces

/-!
UTF-16. A code point is one unit of sixteen bits, or the two surrogates of a pair if its number is above
U+FFFF. Units are read back as code points, each pair as one; a surrogate that stands alone is a unit
like any other and comes back as it was.
-/

namespace GrammarBundle

/-- Text as units of sixteen bits. -/
abbrev Units := List UInt16

/-- Text in which no high surrogate has a low one directly after it. -/
def Text.Unpaired (t : Text) : Prop := t.IsChain fun p q => ¬(p.isHigh = true ∧ q.isLow = true)

instance {t : Text} : Decidable t.Unpaired :=
  inferInstanceAs (Decidable (t.IsChain fun p q => ¬(p.isHigh = true ∧ q.isLow = true)))

namespace Text

theorem paired_of_unpaired {t : Text} (unpaired : t.Unpaired) : t.paired = t := by
  induction t using Text.paired.induct with
  | case1 p q rest pair _ =>
    rw [Bool.and_eq_true] at pair
    exact absurd pair (List.isChain_cons_cons.mp unpaired).1
  | case2 p q rest apart ih =>
    rw [paired, if_neg apart, ih (List.isChain_cons_cons.mp unpaired).2]
  | case3 p => rfl
  | case4 => rfl

theorem unpaired_of_surrogateFree {t : Text} (free : t.surrogateFree = true) : t.Unpaired := by
  induction t with
  | nil => exact .nil
  | cons p t ih =>
    rw [surrogateFree, List.all_cons, Bool.and_eq_true, Bool.not_eq_true'] at free
    have not_high : ¬p.isHigh = true := by
      intro high
      rw [Json.surrogate_of_high high] at free
      cases free.1
    exact List.isChain_cons.mpr ⟨fun q _ pair => not_high pair.1, ih free.2⟩

theorem paired_of_surrogateFree {t : Text} (free : t.surrogateFree = true) : t.paired = t :=
  paired_of_unpaired (unpaired_of_surrogateFree free)

/-- A code point in front of what it makes no pair with. -/
theorem paired_cons_apart {p : CodePoint} {t : Text}
    (apart : ∀ q rest, t = q :: rest → p.isHigh = true → q.isLow = false) :
    paired (p :: t) = p :: t.paired := by
  cases t with
  | nil => rfl
  | cons q rest =>
    have single : ¬(p.isHigh && q.isLow) = true := by
      rw [Bool.and_eq_true]
      rintro ⟨high, low⟩
      rw [apart q rest rfl high] at low
      cases low
    rw [paired, if_neg single]

end Text

namespace Utf16

def encodePoint (p : CodePoint) : Units :=
  let n := p.val
  if n < 0x10000 then [UInt16.ofNat n]
  else [UInt16.ofNat (0xD800 + (n - 0x10000) / 1024), UInt16.ofNat (0xDC00 + (n - 0x10000) % 1024)]

def encode (t : Text) : Units := t.flatMap encodePoint

/-- The code point that a unit is by itself. -/
def pointOf (u : UInt16) : CodePoint := .ofNat u.toNat

def decode (units : Units) : Text := Text.paired (units.map pointOf)

theorem encode_append {s t : Text} : encode (s ++ t) = encode s ++ encode t :=
  List.flatMap_append

theorem encode_flatMap {t : Text} {f : CodePoint → Text} :
    encode (t.flatMap f) = t.flatMap fun p => encode (f p) :=
  List.flatMap_assoc

theorem encode_join {separator : Text} {parts : List Text} :
    encode (Text.join separator parts) = (encode separator).intercalate (parts.map encode) := by
  induction parts with
  | nil => rfl
  | cons part parts ih =>
    cases parts with
    | nil => simp [Text.join, List.intercalate]
    | cons next parts =>
      rw [Text.join_cons (List.cons_ne_nil _ _), encode_append, encode_append, ih]
      simp [List.intercalate]

theorem pointOf_unit {n : Nat} (small : n < 0x10000) : pointOf (UInt16.ofNat n) = .ofNat n := by
  rw [pointOf, UInt16.toNat_ofNat', Nat.mod_eq_of_lt small]

/-- A code point as its units are by themselves: itself, or the two surrogates of its pair. -/
def halves (p : CodePoint) : Text :=
  if p.val < 0x10000 then [p]
  else [.ofNat (0xD800 + (p.val - 0x10000) / 1024), .ofNat (0xDC00 + (p.val - 0x10000) % 1024)]

theorem map_encodePoint (p : CodePoint) : (encodePoint p).map pointOf = halves p := by
  have bound := p.val_lt
  unfold encodePoint halves
  dsimp only
  split
  next small => rw [List.map_singleton, pointOf_unit small, CodePoint.ofNat_val]
  next large =>
    rw [List.map_cons, List.map_singleton, pointOf_unit (by omega), pointOf_unit (by omega)]

theorem decode_encode_eq (t : Text) : decode (encode t) = Text.paired (t.flatMap halves) := by
  unfold decode encode
  rw [List.map_flatMap]
  exact congrArg (fun f => Text.paired (t.flatMap f)) (funext map_encodePoint)

theorem halves_of_surrogate {p : CodePoint} (surrogate : p.isSurrogate = true) : halves p = [p] :=
  if_pos (Json.val_lt_of_surrogate surrogate)

/-- The first half of a code point is a low surrogate only if the code point is one. -/
theorem head_halves {p q : CodePoint} {rest : Text} (apart : p.isLow = false)
    (first : halves p = q :: rest) : q.isLow = false := by
  have bound := p.val_lt
  unfold halves at first
  split at first
  · obtain ⟨rfl, _⟩ := List.cons.inj first
    exact apart
  · obtain ⟨rfl, _⟩ := List.cons.inj first
    exact Json.not_both _ (Json.isHigh_ofNat (by omega) (by omega))

theorem halves_ne_nil {p : CodePoint} : halves p ≠ [] := by
  unfold halves
  split <;> simp

/-- The halves of a code point come together again, unless the code point makes a pair with what
follows. -/
theorem paired_halves {p : CodePoint} {t : Text}
    (apart : ∀ q rest, t = q :: rest → p.isHigh = true → q.isLow = false) :
    Text.paired (halves p ++ t) = p :: t.paired := by
  have bound := p.val_lt
  unfold halves
  split
  · exact Text.paired_cons_apart apart
  next large =>
    have high : (CodePoint.ofNat (0xD800 + (p.val - 0x10000) / 1024)).isHigh = true :=
      Json.isHigh_ofNat (by omega) (by omega)
    have low : (CodePoint.ofNat (0xDC00 + (p.val - 0x10000) % 1024)).isLow = true :=
      Json.isLow_ofNat (by omega) (by omega)
    have whole : CodePoint.joined (.ofNat (0xD800 + (p.val - 0x10000) / 1024))
        (.ofNat (0xDC00 + (p.val - 0x10000) % 1024)) = p := by
      rw [CodePoint.joined, CodePoint.val_ofNat_surrogate (by omega) (by omega),
        CodePoint.val_ofNat_surrogate (by omega) (by omega)]
      have number : 0x10000 + (0xD800 + (p.val - 0x10000) / 1024 - 0xD800) * 1024 +
          (0xDC00 + (p.val - 0x10000) % 1024 - 0xDC00) = p.val := by omega
      rw [number, CodePoint.ofNat_val]
    rw [List.cons_append, List.cons_append, List.nil_append, Text.paired, high, low, whole]
    rfl

/-- Text is read back from its units with each surrogate pair as one character. -/
theorem decode_encode (t : Text) : decode (encode t) = t.paired := by
  rw [decode_encode_eq]
  -- Along the recursion that joins pairs, so that the case of a pair takes two code points at once.
  induction t using Text.paired.induct with
  | case1 p q rest pair ih =>
    have both := pair
    rw [Bool.and_eq_true] at both
    rw [List.flatMap_cons, List.flatMap_cons, halves_of_surrogate (Json.surrogate_of_high both.1),
      halves_of_surrogate (Json.surrogate_of_low both.2)]
    rw [List.cons_append, List.nil_append, List.cons_append, List.nil_append, Text.paired, if_pos pair,
      ih, Text.paired, if_pos pair]
  | case2 p q rest single ih =>
    have apart : ∀ r tail, (q :: rest).flatMap halves = r :: tail → p.isHigh = true →
        r.isLow = false := by
      intro r tail same high
      rw [high, Bool.true_and, Bool.not_eq_true] at single
      obtain ⟨first, more, found⟩ := List.exists_cons_of_ne_nil (halves_ne_nil (p := q))
      rw [List.flatMap_cons, found, List.cons_append] at same
      cases same
      exact head_halves single found
    rw [List.flatMap_cons, paired_halves apart, ih, Text.paired, if_neg single]
  | case3 p =>
    have alone := paired_halves (p := p) (t := []) (by simp)
    rw [List.flatMap_cons, List.flatMap_nil, alone]
    rfl
  | case4 => rfl

end Utf16

end GrammarBundle
