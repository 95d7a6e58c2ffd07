import GrammarBundle.Proofs.Text.CodePoints
import GrammarBundle.Text.Utf8

/-!
The head of a byte sequence: it lies within the first four bytes, and bytes that continue no character
do not change it. It is no surrogate, so that decoded text has none; and just the text that has none is
encoded.
-/

namespace GrammarBundle

theorem Text.surrogateFree_append {s t : Text} :
    surrogateFree (s ++ t) = true ↔ s.surrogateFree = true ∧ t.surrogateFree = true := by
  rw [surrogateFree, List.all_append, Bool.and_eq_true]
  rfl

namespace Utf8

/-- The head of a byte sequence lies within its first four bytes. -/
theorem lead_take {first : Nat} {rest : List Nat} : lead first (rest.take 3) = lead first rest := by
  match rest with
  | [] | [_] | [_, _] | _ :: _ :: _ :: _ => rfl

theorem leadOf_eq {first : UInt8} {rest : List UInt8} :
    leadOf first rest = lead first.toNat (rest.map UInt8.toNat) := by
  rw [leadOf, List.map_take, lead_take]

/-- A character does not reach beyond the bytes that are there. -/
theorem lead_size {first number size : Nat} {rest : List Nat}
    (found : lead first rest = .point number size) : size ≤ rest.length + 1 := by
  match rest with
  | [] => grind [lead]
  | [_] => grind [lead]
  | [_, _] => grind [lead]
  | _ :: _ :: _ :: _ => grind [lead]

/-- Bytes that continue no character keep what stands at the head: a character stays the same, and a
fault stays a fault. -/
theorem lead_append (first : Nat) (rest : List Nat) {tail : List Nat} (ascii : ∀ b ∈ tail, isTail b = false) :
    match lead first rest with
    | .point number size => lead first (rest ++ tail) = .point number size
    | .fault _ _ => ∃ cause size, lead first (rest ++ tail) = .fault cause size := by
  cases tail with
  | nil =>
    rw [List.append_nil]
    cases lead first rest with
    | point number size => rfl
    | fault cause size => exact ⟨cause, size, rfl⟩
  | cons b tail =>
    have apart := ascii b List.mem_cons_self
    have second : mayFollow first b = false := by rw [mayFollow, apart, Bool.false_and]
    match rest with
    | [] => simp only [List.nil_append, lead, second]; grind
    | [_] => simp only [List.cons_append, List.nil_append, lead, apart]; grind
    | [_, _] => simp only [List.cons_append, List.nil_append, lead, apart]; grind
    | _ :: _ :: _ :: _ => simp only [List.cons_append, lead]; grind

theorem tail_bounds {b : Nat} (tail : isTail b = true) : 0x80 ≤ b ∧ b ≤ 0xBF := by
  simpa [isTail] using tail

theorem second_bounds {first second : Nat} (follows : mayFollow first second = true) :
    (0x80 ≤ second ∧ second ≤ 0xBF) ∧ (first = 0xE0 → 0xA0 ≤ second) ∧
      (first = 0xED → second ≤ 0x9F) ∧ (first = 0xF0 → 0x90 ≤ second) ∧
      (first = 0xF4 → second ≤ 0x8F) := by
  unfold mayFollow at follows
  rw [Bool.and_eq_true] at follows
  refine ⟨tail_bounds follows.1, ?_, ?_, ?_, ?_⟩
  · rintro rfl
    simpa using follows.2
  · rintro rfl
    simpa using follows.2
  · rintro rfl
    simpa using follows.2
  · rintro rfl
    simpa using follows.2

/-- How one to four bytes at the head of a sequence make a character. -/
inductive Headed (first : Nat) : List Nat → Nat → Nat → Prop
  | one {rest : List Nat} : first < 0x80 → Headed first rest first 1
  | two {second : Nat} {rest : List Nat} : 0xC2 ≤ first → first < 0xE0 →
      mayFollow first second = true →
      Headed first (second :: rest) ((first - 0xC0) * 64 + (second - 0x80)) 2
  | three {second third : Nat} {rest : List Nat} : 0xE0 ≤ first → first < 0xF0 →
      mayFollow first second = true → isTail third = true →
      Headed first (second :: third :: rest)
        (((first - 0xE0) * 64 + (second - 0x80)) * 64 + (third - 0x80)) 3
  | four {second third fourth : Nat} {rest : List Nat} : 0xF0 ≤ first → first ≤ 0xF4 →
      mayFollow first second = true → isTail third = true → isTail fourth = true →
      Headed first (second :: third :: fourth :: rest)
        ((((first - 0xF0) * 64 + (second - 0x80)) * 64 + (third - 0x80)) * 64 + (fourth - 0x80)) 4

theorem headed_of_lead {first number size : Nat} {rest : List Nat}
    (found : lead first rest = .point number size) : Headed first rest number size := by
  unfold lead at found
  split at found
  next small =>
    obtain ⟨rfl, rfl⟩ := Lead.point.inj found
    exact .one small
  next large =>
    split at found
    · cases found
    next known =>
      rw [Bool.or_eq_true, decide_eq_true_eq, decide_eq_true_eq, not_or, Nat.not_lt,
        Nat.not_lt] at known
      split at found
      · cases found
      next second rest =>
        split at found
        · cases found
        next follows =>
          rw [Bool.not_eq_true', Bool.not_eq_false] at follows
          split at found
          next two =>
            obtain ⟨rfl, rfl⟩ := Lead.point.inj found
            exact .two known.1 two follows
          next more =>
            split at found
            · cases found
            next third rest =>
              split at found
              · cases found
              next third_tail =>
                rw [Bool.not_eq_true', Bool.not_eq_false] at third_tail
                split at found
                next three =>
                  obtain ⟨rfl, rfl⟩ := Lead.point.inj found
                  exact .three (Nat.not_lt.mp more) three follows third_tail
                next four =>
                  split at found
                  · cases found
                  next fourth rest =>
                    split at found
                    · cases found
                    next fourth_tail =>
                      rw [Bool.not_eq_true', Bool.not_eq_false] at fourth_tail
                      obtain ⟨rfl, rfl⟩ := Lead.point.inj found
                      exact .four (Nat.not_lt.mp four) known.2 follows third_tail fourth_tail

/-- A character at the head of a byte sequence is no surrogate. -/
theorem lead_plain {first number size : Nat} {rest : List Nat}
    (found : lead first rest = .point number size) :
    ¬(number - 0xD800 < 2048 ∧ 0xD800 ≤ number) := by
  cases headed_of_lead found with
  | one small => omega
  | two _ _ follows =>
    have bounds := second_bounds follows
    omega
  | three _ _ follows third_tail =>
    have bounds := second_bounds follows
    have third_bounds := tail_bounds third_tail
    omega
  | four _ _ follows third_tail fourth_tail =>
    have bounds := second_bounds follows
    have third_bounds := tail_bounds third_tail
    omega

/-- A character at the head of a byte sequence has these bytes as its encoding. -/
theorem encodeNumber_of_lead {first number size : Nat} {rest : List Nat}
    (found : lead first rest = .point number size) :
    number < 0x110000 ∧ (encodeNumber number).map UInt8.toNat = (first :: rest).take size := by
  cases headed_of_lead found with
  | one small =>
    simp [encodeNumber, small]
    omega
  | @two second rest least _ follows =>
    have bounds := second_bounds follows
    have low : ¬(first - 0xC0) * 64 + (second - 0x80) < 0x80 := by omega
    have high : (first - 0xC0) * 64 + (second - 0x80) < 0x800 := by omega
    simp [encodeNumber, low, high]
    omega
  | @three second third rest _ _ follows third_tail =>
    have bounds := second_bounds follows
    have third_bounds := tail_bounds third_tail
    generalize named : ((first - 0xE0) * 64 + (second - 0x80)) * 64 + (third - 0x80) = number
    have low : ¬number < 0x80 := by omega
    have middle : ¬number < 0x800 := by omega
    have high : number < 0x10000 := by omega
    simp [encodeNumber, low, middle, high]
    omega
  | @four second third fourth rest _ _ follows third_tail fourth_tail =>
    have bounds := second_bounds follows
    have third_bounds := tail_bounds third_tail
    have fourth_bounds := tail_bounds fourth_tail
    generalize named : (((first - 0xF0) * 64 + (second - 0x80)) * 64 + (third - 0x80)) * 64 +
      (fourth - 0x80) = number
    have low : ¬number < 0x80 := by omega
    have middle : ¬number < 0x800 := by omega
    have high : ¬number < 0x10000 := by omega
    simp [encodeNumber, low, middle, high]
    omega

theorem surrogateFree_decodeFrom {bytes : List UInt8} {position : Nat} {t : Text}
    (decoded : decodeFrom position bytes = .ok t) : t.surrogateFree = true := by
  induction position, bytes using decodeFrom.induct generalizing t with
  | case1 position =>
    rw [decodeFrom] at decoded
    cases decoded
    rfl
  | case2 position b rest number size found ih =>
    rw [decodeFrom, found] at decoded
    dsimp only at decoded
    cases later : decodeFrom (position + size) (rest.drop (size - 1)) with
    | error fault =>
      rw [later] at decoded
      cases decoded
    | ok more =>
      rw [later] at decoded
      cases decoded
      have plain : (CodePoint.ofNat number).isSurrogate = false := by
        rw [leadOf_eq] at found
        rw [CodePoint.ofNat_char (lead_plain found)]
        rfl
      have free := ih later
      unfold Text.surrogateFree at free ⊢
      rw [List.all_cons, plain, free]
      rfl
  | case3 position b rest cause size found =>
    rw [decodeFrom, found] at decoded
    cases decoded

theorem encodeFrom_of_surrogateFree {t : Text} (position : Nat) (free : t.surrogateFree = true) :
    ∃ bytes, encodeFrom position t = .ok bytes := by
  induction t generalizing position with
  | nil => exact ⟨[], rfl⟩
  | cons p t ih =>
    rw [Text.surrogateFree, List.all_cons, Bool.and_eq_true] at free
    cases p with
    | char c =>
      obtain ⟨bytes, encoded⟩ := ih (position + 1) free.2
      exact ⟨encodeNumber c.toNat ++ bytes, by rw [encodeFrom, encoded]; rfl⟩
    | surrogate u => exact absurd free.1 (by simp [CodePoint.isSurrogate])

/-- Text without surrogates can be encoded. -/
theorem encode_of_surrogateFree {t : Text} (free : t.surrogateFree = true) :
    ∃ bytes, encode t = .ok bytes :=
  encodeFrom_of_surrogateFree 0 free

theorem surrogateFree_of_encodeFrom {t : Text} {position : Nat} {bytes : List UInt8}
    (encoded : encodeFrom position t = .ok bytes) : t.surrogateFree = true := by
  induction t generalizing position bytes with
  | nil => rfl
  | cons p t ih =>
    cases p with
    | char c =>
      rw [encodeFrom] at encoded
      cases later : encodeFrom (position + 1) t with
      | ok more => exact ih later
      | error fault =>
        rw [later] at encoded
        cases encoded
    | surrogate u =>
      rw [encodeFrom] at encoded
      cases encoded

/-- Text that can be encoded has no surrogates. -/
theorem surrogateFree_of_encode {t : Text} {bytes : List UInt8} (encoded : encode t = .ok bytes) :
    t.surrogateFree = true :=
  surrogateFree_of_encodeFrom encoded

theorem surrogateFree_decode {bytes : List UInt8} {t : Text} (decoded : decode bytes = .ok t) :
    t.surrogateFree = true :=
  surrogateFree_decodeFrom decoded

end Utf8

end GrammarBundle
