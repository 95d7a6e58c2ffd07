import GrammarBundle.Bundle.Names
import GrammarBundle.Files.FileName
import GrammarBundle.Proofs.Text.CodePoints
import GrammarBundle.Proofs.Text.Utf8

/-!
File names: which texts have bytes, what their bytes are, and how a name with an ASCII ending is listed.
A listing changes nothing but the code points that stand for stray bytes, so that an ending survives it.
-/

namespace GrammarBundle

namespace FileName

open Utf8 (leadOf leadOf_eq lead_append lead_size isTail)

def pointBytes? : CodePoint → Option (List UInt8)
  | .char c => some (Utf8.encodeNumber c.toNat)
  | .surrogate u => (carried? (.surrogate u)).map ([·])

/-- The bytes of a name, code point by code point. -/
inductive Encodes : Text → List UInt8 → Prop
  | nil : Encodes [] []
  | point {p bytes t rest} : pointBytes? p = some bytes → Encodes t rest →
      Encodes (p :: t) (bytes ++ rest)

theorem encodeFrom_ok_iff {position : Nat} {t : Text} {bytes : List UInt8} :
    encodeFrom position t = .ok bytes ↔ Encodes t bytes := by
  induction t generalizing position bytes with
  | nil =>
    simp only [encodeFrom]
    constructor
    · intro done; cases done; exact .nil
    · intro encodes; cases encodes; rfl
  | cons p rest ih =>
    constructor
    · intro done
      cases p with
      | char c =>
        simp only [encodeFrom] at done
        cases found : encodeFrom (position + 1) rest with
        | error fault => rw [found] at done; cases done
        | ok more => rw [found] at done; cases done; exact .point rfl (ih.mp found)
      | surrogate u =>
        simp only [encodeFrom] at done
        cases carried : carried? (.surrogate u) with
        | none => rw [carried] at done; cases done
        | some b =>
          rw [carried] at done
          cases found : encodeFrom (position + 1) rest with
          | error fault => simp only [found] at done; cases done
          | ok more =>
            simp only [found] at done
            cases done
            have here : pointBytes? (.surrogate u) = some [b] := by simp [pointBytes?, carried]
            exact .point here (ih.mp found)
    · intro encodes
      cases encodes with
      | @point _ first _ more here later =>
        have found : encodeFrom (position + 1) rest = .ok more := ih.mpr later
        cases p with
        | char c =>
          cases here
          simp only [encodeFrom, found]
          rfl
        | surrogate u =>
          obtain ⟨b, carried, rfl⟩ := Option.map_eq_some_iff.mp here
          simp only [encodeFrom, carried, found]
          rfl

theorem encode_ok_iff {t : Text} {bytes : List UInt8} : encode t = .ok bytes ↔ Encodes t bytes :=
  encodeFrom_ok_iff

theorem Encodes.append {s t : Text} {front back : List UInt8} (first : Encodes s front)
    (second : Encodes t back) : Encodes (s ++ t) (front ++ back) := by
  induction first with
  | nil => exact second
  | point here _ ih =>
    rw [List.cons_append, List.append_assoc]
    exact .point here ih

theorem Encodes.split {s t : Text} {bytes : List UInt8} (whole : Encodes (s ++ t) bytes) :
    ∃ front back, bytes = front ++ back ∧ Encodes s front ∧ Encodes t back := by
  induction s generalizing bytes with
  | nil => exact ⟨[], bytes, rfl, .nil, whole⟩
  | cons p s ih =>
    cases whole with
    | @point _ first _ more here later =>
      obtain ⟨front, back, rfl, before, after⟩ := ih later
      exact ⟨first ++ front, back, by simp, .point here before, after⟩

/-- A part of a text that has bytes has a part of them. -/
theorem Encodes.sublist {s t : Text} {bytes : List UInt8} (whole : Encodes t bytes)
    (part : s.Sublist t) : ∃ fewer, Encodes s fewer ∧ fewer.length ≤ bytes.length := by
  induction part generalizing bytes with
  | slnil => exact ⟨bytes, whole, Nat.le_refl _⟩
  | cons p part ih =>
    cases whole with
    | point here later =>
      obtain ⟨fewer, encodes, bound⟩ := ih later
      exact ⟨fewer, encodes, by simp only [List.length_append]; omega⟩
  | cons_cons p part ih =>
    cases whole with
    | point here later =>
      obtain ⟨fewer, encodes, bound⟩ := ih later
      exact ⟨_, .point here encodes, by simp only [List.length_append]; omega⟩

def IsAscii (t : Text) : Prop := ∀ p ∈ t, p.val < 0x80

instance (t : Text) : Decidable (IsAscii t) := inferInstanceAs (Decidable (∀ p ∈ t, p.val < 0x80))

def asciiByte (p : CodePoint) : UInt8 := UInt8.ofNat p.val

theorem Encodes.ascii {t : Text} (ascii : IsAscii t) : Encodes t (t.map asciiByte) := by
  induction t with
  | nil => exact .nil
  | cons p t ih =>
    have small := ascii p List.mem_cons_self
    have later := ih fun q member => ascii q (List.mem_cons_of_mem _ member)
    cases p with
    | char c =>
      have here : pointBytes? (.char c) = some [asciiByte (.char c)] := by
        simp only [CodePoint.val] at small
        simp [pointBytes?, Utf8.encodeNumber, small, asciiByte, CodePoint.val]
      exact .point here later
    | surrogate u => simp only [CodePoint.val] at small; omega

theorem asciiByte_toNat {p : CodePoint} (small : p.val < 0x80) : (asciiByte p).toNat = p.val := by
  rw [asciiByte, UInt8.toNat_ofNat', Nat.mod_eq_of_lt (by omega)]

theorem decode_ascii {t : Text} (ascii : IsAscii t) : decode (t.map asciiByte) = t := by
  induction t with
  | nil => rw [List.map_nil, decode]
  | cons p t ih =>
    have small := ascii p List.mem_cons_self
    have lead : leadOf (asciiByte p) (t.map asciiByte) = .point p.val 1 := by
      simp only [leadOf, Utf8.lead, asciiByte_toNat small, if_pos small]
    rw [List.map_cons, decode, lead]
    simp only [Nat.sub_self, List.drop_zero]
    rw [ih fun q member => ascii q (List.mem_cons_of_mem _ member)]
    rw [CodePoint.ofNat_val]

/-- ASCII bytes after others are listed as themselves. -/
theorem decode_append {bytes : List UInt8} {t : Text} (ascii : IsAscii t) :
    decode (bytes ++ t.map asciiByte) = decode bytes ++ t := by
  have apart : ∀ b ∈ (t.map asciiByte).map UInt8.toNat, isTail b = false := by
    intro b member
    obtain ⟨_, listed, rfl⟩ := List.mem_map.mp member
    obtain ⟨p, inside, rfl⟩ := List.mem_map.mp listed
    have small := ascii p inside
    rw [asciiByte_toNat small]
    simp only [isTail, Bool.and_eq_false_iff, decide_eq_false_iff_not]
    omega
  induction bytes using decode.induct with
  | case1 => rw [List.nil_append, decode_ascii ascii, decode, List.nil_append]
  | case2 b rest number size lead ih =>
    rw [leadOf_eq] at lead
    have same := lead_append b.toNat (rest.map UInt8.toNat) apart
    have bound := lead_size lead
    rw [lead, ← List.map_append, ← leadOf_eq] at same
    rw [← leadOf_eq] at lead
    rw [List.length_map] at bound
    rw [List.cons_append, decode, same, decode, lead]
    simp only
    rw [List.drop_append_of_le_length (by omega), ih, List.cons_append]
  | case3 b rest cause size lead ih =>
    have same := lead_append b.toNat (rest.map UInt8.toNat) apart
    rw [← leadOf_eq, lead, ← List.map_append, ← leadOf_eq] at same
    obtain ⟨cause, size, same⟩ := same
    rw [List.cons_append, decode, same, decode, lead]
    simp only
    rw [ih, List.cons_append]

theorem IsAscii.surrogateFree {t : Text} (ascii : IsAscii t) : t.surrogateFree = true := by
  simp only [Text.surrogateFree, List.all_eq_true]
  intro p member
  have small := ascii p member
  cases p with
  | char c => rfl
  | surrogate u => simp only [CodePoint.val] at small; omega

/-- A listing keeps the ASCII ending of a name. -/
theorem canonical_append {t ending : Text} (ascii : IsAscii ending) :
    canonical (t ++ ending) = canonical t ++ ending := by
  have free : (t ++ ending).surrogateFree = t.surrogateFree := by
    have ending_free := ascii.surrogateFree
    simp only [Text.surrogateFree] at ending_free ⊢
    rw [List.all_append, ending_free, Bool.and_true]
  rw [canonical, canonical, free]
  split
  · rfl
  · cases encoded : encode t with
    | ok bytes =>
      have whole := (encode_ok_iff.mp encoded).append (Encodes.ascii ascii)
      rw [encode_ok_iff.mpr whole]
      exact decode_append ascii
    | error fault =>
      cases whole : encode (t ++ ending) with
      | error fault => rfl
      | ok bytes =>
        obtain ⟨front, back, rfl, first, second⟩ := (encode_ok_iff.mp whole).split
        rw [encode_ok_iff.mpr first] at encoded
        cases encoded

theorem encodeNumber_ne_nil {n : Nat} : Utf8.encodeNumber n ≠ [] := by
  unfold Utf8.encodeNumber
  dsimp only
  split
  · exact List.cons_ne_nil _ _
  · split
    · exact List.cons_ne_nil _ _
    · split <;> exact List.cons_ne_nil _ _

theorem Encodes.ne_nil {t : Text} {bytes : List UInt8} (encodes : Encodes t bytes)
    (some_text : t ≠ []) : bytes ≠ [] := by
  cases encodes with
  | nil => exact absurd rfl some_text
  | @point p first _ _ here _ =>
    have some_bytes : first ≠ [] := by
      cases p with
      | char c => cases here; exact encodeNumber_ne_nil
      | surrogate u =>
        obtain ⟨b, _, rfl⟩ := Option.map_eq_some_iff.mp here
        exact List.cons_ne_nil _ _
    simp [some_bytes]

theorem canonical_ne_nil {t : Text} (some_text : t ≠ []) : canonical t ≠ [] := by
  unfold canonical
  split
  · exact some_text
  · split
    next bytes encoded =>
      obtain ⟨b, rest, rfl⟩ :=
        List.exists_cons_of_ne_nil ((encode_ok_iff.mp encoded).ne_nil some_text)
      rw [decode]
      split <;> exact List.cons_ne_nil _ _
    · exact some_text

end FileName

namespace Path

/-- The suffix of a name that has a point with something before it, and none after it. -/
theorem suffixOf_append {stem ending : Text} (some_stem : stem ≠ []) (some_ending : ending ≠ [])
    (free : CodePoint.char '.' ∉ ending) :
    suffixOf (stem ++ .char '.' :: ending) = .char '.' :: ending := by
  have tail : (stem ++ .char '.' :: ending).reverse.takeWhile (· ≠ .char '.') =
      ending.reverse := by
    rw [List.reverse_append, List.reverse_cons, List.append_assoc,
      List.takeWhile_append_of_pos]
    · simp
    · intro p member
      have : p ≠ .char '.' := fun same => free (same ▸ List.mem_reverse.mp member)
      simpa using this
  have long : ¬(stem ++ CodePoint.char '.' :: ending).length ≤ ending.length + 1 := by
    have := List.length_pos_iff.mpr some_stem
    simp only [List.length_append, List.length_cons]
    omega
  simp only [suffixOf, tail, List.reverse_reverse, some_ending, long, or_self, if_false]

/-- A name with a suffix is something with that suffix at its end. -/
theorem eq_append_of_suffixOf {name ending : Text} (found : suffixOf name = .char '.' :: ending) :
    ∃ stem, stem ≠ [] ∧ name = stem ++ .char '.' :: ending := by
  unfold suffixOf at found
  dsimp only at found
  split at found
  · cases found
  next long =>
    rw [not_or, Nat.not_le] at long
    obtain rfl := (List.cons.inj found).2
    have parts := List.takeWhile_append_dropWhile (p := (· ≠ CodePoint.char '.')) (l := name.reverse)
    generalize name.reverse.takeWhile (· ≠ CodePoint.char '.') = tail at parts long
    cases rest : name.reverse.dropWhile (· ≠ CodePoint.char '.') with
    | nil =>
      rw [rest, List.append_nil] at parts
      rw [parts, List.length_reverse, List.length_reverse] at long
      omega
    | cons p rest' =>
      have point : p = .char '.' := by
        have apart := List.head_dropWhile_not (fun q => decide (q ≠ CodePoint.char '.'))
          (l := name.reverse) (by rw [rest]; exact List.cons_ne_nil _ _)
        simp only [rest, List.head_cons] at apart
        simpa using apart
      subst point
      rw [rest] at parts
      have whole : name = rest'.reverse ++ .char '.' :: tail.reverse := by
        rw [← List.reverse_reverse name, ← parts]
        simp
      refine ⟨rest'.reverse, ?_, whole⟩
      intro empty
      rw [whole, empty] at long
      simp at long

end Path

end GrammarBundle
