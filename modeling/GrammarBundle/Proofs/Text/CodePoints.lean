import GrammarBundle.Text.CodePoint

/-!
Code points and their numbers: every code point is the one of its number.
-/

namespace GrammarBundle.CodePoint

theorem ofNat_char {n : Nat} (apart : ¬(n - 0xD800 < 2048 ∧ 0xD800 ≤ n)) :
    ofNat n = .char (Char.ofNat n) := by
  rw [ofNat, dif_neg apart]

theorem ofNat_surrogate {u : Fin 2048} : ofNat (0xD800 + u.val) = .surrogate u := by
  have inside : 0xD800 + u.val - 0xD800 < 2048 ∧ 0xD800 ≤ 0xD800 + u.val := by omega
  rw [ofNat, dif_pos inside]
  exact congrArg surrogate (Fin.ext (Nat.add_sub_cancel_left 0xD800 u.val))

theorem ofNat_val (p : CodePoint) : ofNat p.val = p := by
  cases p with
  | char c =>
    have valid := c.valid
    rw [val, ofNat_char, Char.ofNat_toNat]
    simp only [UInt32.isValidChar, Nat.isValidChar] at valid
    simp only [Char.toNat]
    omega
  | surrogate u => exact ofNat_surrogate

/-- The number of a surrogate is the one that it was made of. -/
theorem val_ofNat_surrogate {n : Nat} (lower : 0xD800 ≤ n) (upper : n < 0xE000) :
    (ofNat n).val = n := by
  obtain ⟨k, rfl⟩ := Nat.exists_eq_add_of_le lower
  have bound : k < 2048 := by omega
  have same := ofNat_surrogate (u := ⟨k, bound⟩)
  rw [same, val]

theorem val_lt (p : CodePoint) : p.val < 0x110000 := by
  cases p with
  | char c =>
    have valid := c.valid
    simp only [UInt32.isValidChar, Nat.isValidChar] at valid
    simp only [val, Char.toNat]
    omega
  | surrogate u => simp only [val]; omega

end GrammarBundle.CodePoint
