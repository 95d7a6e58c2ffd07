import GrammarBundle.Proofs.Files.FileNames
import GrammarBundle.Proofs.Files.PathTexts

/-!
Names as listings show them. The text that is listed for a name has the bytes of the name, so it leads
where the name leads, and listing it again changes nothing more.
-/

namespace GrammarBundle

namespace FileName

open Utf8 (leadOf leadOf_eq encodeNumber_of_lead lead_plain)

variable {t : Text} {p : CodePoint} {bytes : List UInt8}

theorem pointBytes_number {number : Nat} (valid : number < 0x110000)
    (plain : ¬(number - 0xD800 < 2048 ∧ 0xD800 ≤ number)) :
    pointBytes? (CodePoint.ofNat number) = some (Utf8.encodeNumber number) := by
  have same : (Char.ofNat number).toNat = number := by
    have character : number.isValidChar := by
      simp only [Nat.isValidChar]
      omega
    rw [Char.ofNat, dif_pos character]
    rfl
  rw [CodePoint.ofNat_char plain, pointBytes?, same]

theorem pointBytes_stray {b : UInt8} (large : 0x80 ≤ b.toNat) :
    pointBytes? (CodePoint.ofNat (0xDC00 + b.toNat)) = some [b] := by
  have bound : 0x400 + b.toNat < 2048 := by
    have := b.toNat_lt
    omega
  have sum : 0xDC00 + b.toNat = 0xD800 + (0x400 + b.toNat) := by omega
  have named := CodePoint.ofNat_surrogate (u := ⟨0x400 + b.toNat, bound⟩)
  dsimp only at named
  have inside : 0x480 ≤ 0x400 + b.toNat ∧ 0x400 + b.toNat ≤ 0x4FF := by
    have := b.toNat_lt
    omega
  rw [sum, named]
  simp [pointBytes?, carried?, inside]

/-- The text of some bytes has these bytes. -/
theorem encodes_decode (bytes : List UInt8) : Encodes (decode bytes) bytes := by
  induction bytes using decode.induct with
  | case1 =>
    rw [decode]
    exact .nil
  | case2 b rest number size lead ih =>
    have head := lead
    rw [leadOf_eq] at head
    obtain ⟨valid, listed⟩ := encodeNumber_of_lead head
    have taken : Utf8.encodeNumber number = (b :: rest).take size := by
      apply (List.map_inj_right fun _ _ => UInt8.toNat_inj.mp).mp
      rw [listed, List.map_take, List.map_cons]
    cases size with
    | zero => exact absurd taken encodeNumber_ne_nil
    | succ size =>
      have whole : b :: rest = Utf8.encodeNumber number ++ rest.drop size := by
        rw [taken, List.take_succ_cons, List.cons_append, List.take_append_drop]
      rw [decode, lead, whole]
      exact .point (pointBytes_number valid (lead_plain head)) ih
  | case3 b rest cause size lead ih =>
    have large : 0x80 ≤ b.toNat := by
      apply Decidable.byContradiction
      intro small
      unfold leadOf Utf8.lead at lead
      rw [if_pos (Nat.lt_of_not_le small)] at lead
      cases lead
    rw [decode, lead]
    exact .point (pointBytes_stray large) ih

theorem Encodes.canonical (encodes : Encodes t bytes) : Encodes (canonical t) bytes := by
  unfold FileName.canonical
  split
  · exact encodes
  · rw [encode_ok_iff.mpr encodes]
    exact encodes_decode bytes

theorem canonical_canonical (t : Text) : canonical (canonical t) = canonical t := by
  cases encoded : encode t with
  | error fault =>
    have same : canonical t = t := by
      unfold canonical
      rw [encoded]
      exact ite_self t
    rw [same, same]
  | ok bytes =>
    have again := encode_ok_iff.mpr (encode_ok_iff.mp encoded).canonical
    by_cases free : t.surrogateFree
    · have same : canonical t = t := if_pos free
      rw [same, same]
    · have listed : canonical t = decode bytes := by
        unfold canonical
        rw [if_neg free, encoded]
      rw [listed] at again ⊢
      unfold canonical
      rw [again]
      exact ite_self _

theorem pointBytes_small {first : List UInt8} (here : pointBytes? p = some first)
    (small : p.val < 0x80) : first = [asciiByte p] := by
  have whole : Encodes [p] (first ++ []) := .point here .nil
  have ascii : IsAscii [p] := by
    intro q member
    rw [List.mem_singleton.mp member]
    exact small
  have same := encode_ok_iff.mpr whole
  rw [encode_ok_iff.mpr (Encodes.ascii ascii)] at same
  rw [List.append_nil] at same
  exact (Except.ok.inj same).symm

theorem large_ofNat {n : Nat} (low : 0x80 ≤ n) (high : n < 256) : 0x80 ≤ (UInt8.ofNat n).toNat := by
  rw [UInt8.toNat_ofNat', Nat.mod_eq_of_lt high]
  exact low

theorem pointBytes_large {first : List UInt8} (here : pointBytes? p = some first)
    (large : 0x80 ≤ p.val) : ∀ b ∈ first, 0x80 ≤ b.toNat := by
  cases p with
  | char c =>
    have high : ¬c.toNat < 0x80 := Nat.not_lt.mpr large
    cases here
    intro b member
    unfold Utf8.encodeNumber at member
    dsimp only at member
    rw [if_neg high] at member
    have valid := CodePoint.val_lt (.char c)
    simp only [CodePoint.val] at valid
    split at member
    · simp only [List.mem_cons, List.not_mem_nil, or_false] at member
      rcases member with rfl | rfl <;> exact large_ofNat (by omega) (by omega)
    · split at member
      · simp only [List.mem_cons, List.not_mem_nil, or_false] at member
        rcases member with rfl | rfl | rfl <;> exact large_ofNat (by omega) (by omega)
      · simp only [List.mem_cons, List.not_mem_nil, or_false] at member
        rcases member with rfl | rfl | rfl | rfl <;> exact large_ofNat (by omega) (by omega)
  | surrogate u =>
    obtain ⟨b, carried, rfl⟩ := Option.map_eq_some_iff.mp here
    intro other member
    rw [List.mem_singleton.mp member]
    unfold carried? at carried
    dsimp only at carried
    split at carried
    next inside =>
      rw [← Option.some.inj carried]
      exact large_ofNat (by omega) (by omega)
    · cases carried

/-- An ASCII code point is in a name if its byte is among the bytes of the name. -/
theorem Encodes.mem_iff (encodes : Encodes t bytes) (small : p.val < 0x80) :
    p ∈ t ↔ asciiByte p ∈ bytes := by
  induction encodes with
  | nil => simp
  | @point q first t rest here _ ih =>
    have head : p = q ↔ asciiByte p ∈ first := by
      by_cases low : q.val < 0x80
      · rw [pointBytes_small here low, List.mem_singleton]
        constructor
        · intro same
          rw [same]
        · intro same
          have numbers := congrArg UInt8.toNat same
          rw [asciiByte_toNat small, asciiByte_toNat low] at numbers
          rw [← CodePoint.ofNat_val p, numbers, CodePoint.ofNat_val]
      · constructor
        · rintro rfl
          exact absurd small low
        · intro member
          have large := pointBytes_large here (Nat.not_lt.mp low) _ member
          rw [asciiByte_toNat small] at large
          omega
    rw [List.mem_cons, List.mem_append, head, ih]

/-- Only an ASCII text has its bytes. -/
theorem Encodes.eq_of_ascii {s : Text} (ascii : IsAscii s) (encodes : Encodes t (s.map asciiByte)) :
    t = s := by
  induction s generalizing t with
  | nil =>
    apply Decidable.byContradiction
    intro some_text
    exact encodes.ne_nil some_text rfl
  | cons p s ih =>
    have small := ascii p List.mem_cons_self
    generalize whole : (p :: s).map asciiByte = bytes at encodes
    cases encodes with
    | nil => cases whole
    | @point q first t rest here more =>
      have some_bytes := (Encodes.point here .nil).ne_nil (List.cons_ne_nil q [])
      rw [List.append_nil] at some_bytes
      obtain ⟨b, others, rfl⟩ := List.exists_cons_of_ne_nil some_bytes
      obtain ⟨same, tail⟩ := List.cons.inj whole
      have low : q.val < 0x80 := by
        apply Decidable.byContradiction
        intro large
        have high := pointBytes_large here (Nat.not_lt.mp large) b List.mem_cons_self
        rw [← same, asciiByte_toNat small] at high
        omega
      obtain ⟨rfl, rfl⟩ := List.cons.inj (pointBytes_small here low)
      have numbers := congrArg UInt8.toNat same
      rw [asciiByte_toNat small, asciiByte_toNat low] at numbers
      have point : q = p := by rw [← CodePoint.ofNat_val q, ← numbers, CodePoint.ofNat_val]
      change s.map asciiByte = rest at tail
      have others : t = s := by
        apply ih fun q member => ascii q (List.mem_cons_of_mem p member)
        rw [tail]
        exact more
      rw [point, others]

end FileName

/-- A name that a listing can show, and that leads to what it is listed for. -/
structure Listed (name : Text) : Prop where
  some_name : name ≠ []
  stay : name ≠ "."
  up : name ≠ ".."
  free : slash ∉ name
  closed : CodePoint.char '\x00' ∉ name
  encodes : ∃ bytes, FileName.Encodes name bytes
  canonical : FileName.canonical name = name

/-- A name that a path can have is listed as such a name. -/
theorem listed_canonical {name : Text} {bytes : List UInt8} (some_name : name ≠ []) (stay : name ≠ ".")
    (up : name ≠ "..") (free : slash ∉ name) (closed : CodePoint.char '\x00' ∉ name)
    (encodes : FileName.Encodes name bytes) : Listed (FileName.canonical name) := by
  have listed := encodes.canonical
  have plain {s : Text} (ascii : FileName.IsAscii s) (other : name ≠ s) :
      FileName.canonical name ≠ s := by
    intro same
    rw [same] at listed
    have bytes_same := FileName.encode_ok_iff.mpr listed
    rw [FileName.encode_ok_iff.mpr (FileName.Encodes.ascii ascii)] at bytes_same
    rw [← Except.ok.inj bytes_same] at encodes
    exact other (encodes.eq_of_ascii ascii)
  constructor
  case some_name => exact FileName.canonical_ne_nil some_name
  case stay => exact plain (by decide) stay
  case up => exact plain (by decide) up
  case free => rwa [listed.mem_iff (by decide), ← encodes.mem_iff (by decide)]
  case closed => rwa [listed.mem_iff (by decide), ← encodes.mem_iff (by decide)]
  case encodes => exact ⟨bytes, listed⟩
  case canonical => exact FileName.canonical_canonical name

end GrammarBundle
