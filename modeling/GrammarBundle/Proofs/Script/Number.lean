import Mathlib
import GrammarBundle.Proofs.Text.Numerals

/-!
Numbers of the script language as text. Its numbers are binary, with a significand of 53 bits. A number
is printed with as few decimal digits as are rounded to it. A whole number below 2 ^ 53 is printed with
its own digits, because no other decimal of so few digits is rounded to it.
-/

namespace GrammarBundle.Script

/-- The finite numbers. -/
def IsNumber (x : ℚ) : Prop :=
  ∃ m q : ℤ, |m| < 2 ^ 53 ∧ -1074 ≤ q ∧ q ≤ 971 ∧ x = m * 2 ^ q

/-- Numbers whose significand, of full length where the exponent allows it, is even. -/
def IsEven (x : ℚ) : Prop :=
  ∃ m q : ℤ, |m| < 2 ^ 53 ∧ -1074 ≤ q ∧ q ≤ 971 ∧ (2 ^ 52 ≤ |m| ∨ q = -1074) ∧ Even m ∧
    x = m * 2 ^ q

/-- A finite number is the nearest one to a value; of two that are as near it is the even one. -/
structure Rounds (y x : ℚ) : Prop where
  number : IsNumber x
  finite : |y| < (2 ^ 54 - 1) * 2 ^ 970
  nearest : ∀ z, IsNumber z → |y - x| ≤ |y - z|
  even : ∀ z, IsNumber z → |y - z| = |y - x| → z = x ∨ IsEven x

/-- The `k` digits of `s`, with the point after the first `n`, are a decimal that is rounded to `x`. -/
structure Digits (x : ℚ) (s k : ℕ) (n : ℤ) : Prop where
  positive : 1 ≤ k
  lower : 10 ^ (k - 1) ≤ s
  upper : s < 10 ^ k
  rounds : Rounds (s * 10 ^ (n - k)) x

/-- Digits of which there are as few as possible. -/
structure Fewest (x : ℚ) (s k : ℕ) (n : ℤ) : Prop extends Digits x s k n where
  least : ∀ s' k' n', Digits x s' k' n' → k ≤ k'

/-- Digits with their point, or with an exponent where the point would be far away. -/
def layout (s k : ℕ) (n : ℤ) : Text :=
  let digits := Text.ofNat s
  let exponent : Text := "e" ++ (.char (if 0 < n then '+' else '-') :: Text.ofNat (n - 1).natAbs)
  if k ≤ n ∧ n ≤ 21 then digits ++ Text.repeated (n - k).toNat '0'
  else if 0 < n ∧ n ≤ 21 then digits.take n.toNat ++ "." ++ digits.drop n.toNat
  else if -6 < n ∧ n ≤ 0 then "0." ++ Text.repeated (-n).toNat '0' ++ digits
  else if k = 1 then digits ++ exponent
  else digits.take 1 ++ "." ++ digits.drop 1 ++ exponent

/-- How a finite number is printed. -/
inductive Printed : ℚ → Text → Prop
  | zero : Printed 0 "0"
  | negative {x : ℚ} {t : Text} : x < 0 → Printed (-x) t → Printed x (.char '-' :: t)
  | positive {x : ℚ} {s k : ℕ} {n : ℤ} : 0 < x → Fewest x s k n → Printed x (layout s k n)

theorem isNumber_natCast {m : ℕ} (small : m ≤ 2 ^ 53) : IsNumber m := by
  rcases Nat.lt_or_eq_of_le small with less | rfl
  · refine ⟨m, 0, ?_, by decide, by decide, by simp⟩
    rw [Nat.abs_cast]
    exact_mod_cast less
  · exact ⟨2 ^ 52, 1, by norm_num, by decide, by decide, by norm_num⟩

/-- Whole numbers below 2 ^ 53 are numbers, and are rounded to themselves. -/
theorem rounds_self {m : ℕ} (small : m < 2 ^ 53) : Rounds m m := by
  have number : IsNumber m := isNumber_natCast small.le
  refine ⟨number, ?_, ?_, ?_⟩
  · have bound : (m : ℚ) < 2 ^ 53 := by exact_mod_cast small
    have scale : (1 : ℚ) ≤ 2 ^ 970 := one_le_pow₀ (by norm_num)
    rw [Nat.abs_cast]
    calc (m : ℚ) < 2 ^ 53 := bound
      _ ≤ (2 ^ 54 - 1) * 1 := by norm_num
      _ ≤ (2 ^ 54 - 1) * 2 ^ 970 := mul_le_mul_of_nonneg_left scale (by norm_num)
  · intro z _
    rw [sub_self, abs_zero]
    exact abs_nonneg _
  · intro z _ same
    rw [sub_self, abs_zero, abs_eq_zero, sub_eq_zero] at same
    exact .inl same.symm

section

variable {m s k z : ℕ} {n : ℤ}

/-- A whole value that is rounded to a number below 2 ^ 53 is that number. -/
theorem eq_of_rounds_natCast {y : ℕ} (small : m < 2 ^ 53) (rounds : Rounds y m) : y = m := by
  have bound : (m : ℚ) < 2 ^ 53 := by exact_mod_cast small
  rcases Nat.lt_or_ge (2 ^ 53) y with large | fits
  · -- Two to the power of 53 is nearer.
    have above : (2 : ℚ) ^ 53 < y := by exact_mod_cast large
    have near := rounds.nearest (2 ^ 53 : ℕ) (isNumber_natCast le_rfl)
    push_cast at near
    rw [abs_of_pos (by linarith), abs_of_pos (by linarith)] at near
    linarith
  · have near := rounds.nearest y (isNumber_natCast fits)
    rw [sub_self, abs_zero] at near
    have same := abs_nonpos_iff.mp near
    exact_mod_cast sub_eq_zero.mp same

/-- A value below a whole number that is at most `m` is rounded to `m` only if the two are one. -/
theorem eq_of_rounds_below {y : ℚ} {w : ℕ} (small : m < 2 ^ 53) (below : y < w) (most : w ≤ m)
    (rounds : Rounds y m) : m = w := by
  have most' : (w : ℚ) ≤ m := by exact_mod_cast most
  have near := rounds.nearest w (isNumber_natCast (most.trans small.le))
  rw [abs_of_nonpos (by linarith), abs_of_neg (by linarith)] at near
  have least : (m : ℚ) ≤ w := by linarith
  exact le_antisymm (by exact_mod_cast least) most

/-- A decimal with no more digits than a whole number has, trailing zeros aside, is rounded to that
number only if it equals it. -/
theorem eq_of_digits {count : ℕ} (small : m < 2 ^ 53) (least : 10 ^ (count - 1) ≤ m)
    (single : ∀ j, m = 10 ^ j → count = 1) (few : k ≤ count) (digits : Digits m s k n) :
    (s : ℚ) * 10 ^ (n - k) = m := by
  have rounds := digits.rounds
  rcases le_or_gt (k : ℤ) n with whole | broken
  · obtain ⟨e, shift⟩ := Int.eq_ofNat_of_zero_le (sub_nonneg.mpr whole)
    rw [shift, zpow_natCast] at rounds ⊢
    have value : (s : ℚ) * 10 ^ e = ((s * 10 ^ e : ℕ) : ℚ) := by push_cast; rfl
    rw [value] at rounds ⊢
    rw [eq_of_rounds_natCast small rounds]
  · exfalso
    have top : (s : ℚ) < 10 ^ (k : ℤ) := by
      rw [zpow_natCast]
      exact_mod_cast digits.upper
    have below : (s : ℚ) * 10 ^ (n - k) < 10 ^ n := by
      calc (s : ℚ) * 10 ^ (n - k) < 10 ^ (k : ℤ) * 10 ^ (n - k) :=
            mul_lt_mul_of_pos_right top (by positivity)
        _ = 10 ^ n := by rw [← zpow_add₀ (by norm_num)]; congr 1; ring
    have positive : 1 ≤ m := Nat.one_le_pow _ _ (by decide) |>.trans least
    rcases le_or_gt n 0 with none | some
    · -- The decimal is below one, and so the number is one and has a single digit.
      have low : (s : ℚ) * 10 ^ (n - k) < ((1 : ℕ) : ℚ) := by
        have one : (10 : ℚ) ^ n ≤ 1 := zpow_le_one_of_nonpos₀ (by norm_num) none
        push_cast
        linarith
      obtain rfl := eq_of_rounds_below small low positive rounds
      obtain rfl : k = 1 := le_antisymm (few.trans (single 0 rfl).le) digits.positive
      have nine : (s : ℚ) ≤ 9 := by
        have upper : s ≤ 9 := Nat.le_of_lt_succ digits.upper
        exact_mod_cast upper
      have tenth : (10 : ℚ) ^ (n - (1 : ℕ)) ≤ 1 / 10 := by
        calc (10 : ℚ) ^ (n - (1 : ℕ)) ≤ 10 ^ (-1 : ℤ) :=
              zpow_le_zpow_right₀ (by norm_num) (by push_cast; omega)
          _ = 1 / 10 := by norm_num
      have high : (s : ℚ) * 10 ^ (n - (1 : ℕ)) ≤ 9 / 10 := by
        calc (s : ℚ) * 10 ^ (n - (1 : ℕ)) ≤ 9 * (1 / 10) :=
              mul_le_mul nine tenth (by positivity) (by norm_num)
          _ = 9 / 10 := by norm_num
      have nearer : IsNumber (15 / 16) := ⟨15, -4, by norm_num, by decide, by decide, by norm_num⟩
      have near := rounds.nearest _ nearer
      push_cast at near high
      rw [abs_of_nonpos (by linarith), abs_of_nonpos (by linarith)] at near
      linarith
    · -- A power of ten lies between the decimal and the number, and so it is the number.
      obtain ⟨j, rfl⟩ := Int.eq_ofNat_of_zero_le some.le
      have low : (s : ℚ) * 10 ^ ((j : ℤ) - k) < ((10 ^ j : ℕ) : ℚ) := by
        rw [zpow_natCast] at below
        push_cast
        exact below
      have shorter : j ≤ count - 1 := by omega
      have most : 10 ^ j ≤ m := (Nat.pow_le_pow_right (by decide) shorter).trans least
      have power := eq_of_rounds_below small low most rounds
      have one := single j power
      omega

/-- Decimals of one value, the first without a zero at its end. -/
theorem shift_of_same {e : ℤ} (plain : ¬10 ∣ s) {s' : ℕ} (same : (s' : ℚ) * 10 ^ e = s * 10 ^ z) :
    ∃ d : ℕ, e = z - d ∧ s' = s * 10 ^ d := by
  rcases le_or_gt e z with less | beyond
  · obtain ⟨d, shift⟩ := Int.eq_ofNat_of_zero_le (sub_nonneg.mpr less)
    obtain rfl : e = z - d := by omega
    refine ⟨d, rfl, ?_⟩
    have scale : (10 : ℚ) ^ (z : ℤ) = 10 ^ ((z : ℤ) - d) * 10 ^ d := by
      rw [← zpow_natCast, ← zpow_add₀ (by norm_num)]
      congr 1
      ring
    have value : (s' : ℚ) * 10 ^ ((z : ℤ) - d) = s * 10 ^ d * 10 ^ ((z : ℤ) - d) := by
      rw [same, ← zpow_natCast, scale]
      ring
    have equal := mul_right_cancel₀ (zpow_ne_zero _ (by norm_num)) value
    exact_mod_cast equal
  · exfalso
    obtain ⟨d, shift⟩ := Int.eq_ofNat_of_zero_le (sub_nonneg.mpr beyond.le)
    obtain rfl : e = z + d := by omega
    have value : (s' : ℚ) * 10 ^ d * 10 ^ z = s * 10 ^ z := by
      rw [← same, zpow_add₀ (by norm_num), zpow_natCast, zpow_natCast]
      ring
    have equal : s' * 10 ^ d = s := by
      exact_mod_cast mul_right_cancel₀ (pow_ne_zero _ (by norm_num)) value
    obtain ⟨more, rfl⟩ : ∃ more, d = more + 1 := ⟨d - 1, by omega⟩
    exact plain ⟨s' * 10 ^ more, by rw [← equal, pow_succ]; ring⟩

end

/-- A positive whole number as its digits up to the last that is not zero, and the zeros after them. -/
structure Stripped (m s k z : ℕ) : Prop where
  value : m = s * 10 ^ z
  plain : ¬10 ∣ s
  positive : 1 ≤ k
  lower : 10 ^ (k - 1) ≤ s
  upper : s < 10 ^ k

theorem exists_stripped {m : ℕ} (positive : 0 < m) : ∃ s k z, Stripped m s k z := by
  obtain ⟨z, s, plain, value⟩ := Nat.exists_eq_pow_mul_and_not_dvd positive.ne' 10 (by decide)
  have some_digit : s ≠ 0 := by
    rintro rfl
    exact plain (dvd_zero 10)
  refine ⟨s, Nat.log 10 s + 1, z, by rw [value, Nat.mul_comm], plain, by omega, ?_, ?_⟩
  · rw [Nat.add_sub_cancel]
    exact Nat.pow_log_le_self 10 some_digit
  · exact Nat.lt_pow_succ_log_self (by decide) s

namespace Stripped

variable {m s k z : ℕ}

theorem le_value (stripped : Stripped m s k z) : s ≤ m := by
  rw [stripped.value]
  exact Nat.le_mul_of_pos_right s (by positivity)

/-- A power of ten has one digit that is not zero. -/
theorem single (stripped : Stripped m s k z) (j : ℕ) (power : m = 10 ^ j) : k = 1 := by
  have same : ((1 : ℕ) : ℚ) * 10 ^ (j : ℤ) = s * 10 ^ z := by
    rw [zpow_natCast, Nat.cast_one, one_mul]
    exact_mod_cast power.symm.trans stripped.value
  obtain ⟨d, _, one⟩ := shift_of_same stripped.plain same
  obtain rfl : s = 1 := Nat.eq_one_of_mul_eq_one_right one.symm
  have lower := stripped.lower
  have positive := stripped.positive
  by_contra several
  obtain ⟨more, rfl⟩ : ∃ more, k = more + 2 := ⟨k - 2, by omega⟩
  have ten : 10 ^ 1 ≤ 10 ^ (more + 2 - 1) := Nat.pow_le_pow_right (by decide) (by omega)
  omega

/-- Digits for a stripped number are its own, with some of its zeros at most. -/
theorem of_digits (stripped : Stripped m s k z) (small : m < 2 ^ 53) {s' k' : ℕ} {n : ℤ}
    (few : k' ≤ k) (digits : Digits m s' k' n) : s' = s ∧ k' = k ∧ n = k + z := by
  have equal := eq_of_digits small (stripped.lower.trans stripped.le_value) stripped.single few digits
  have value : (m : ℚ) = s * 10 ^ z := by exact_mod_cast congrArg Nat.cast stripped.value
  obtain ⟨d, shift, rfl⟩ := shift_of_same stripped.plain (equal.trans value)
  have lower := stripped.lower
  have upper := digits.upper
  -- More zeros would be more digits.
  have none : d = 0 := by
    by_contra some
    have wide : 10 ^ (k - 1) * 10 ^ 1 ≤ s * 10 ^ d :=
      Nat.mul_le_mul lower (Nat.pow_le_pow_right (by decide) (by omega))
    rw [← pow_add, Nat.sub_add_cancel stripped.positive] at wide
    have narrow : 10 ^ k' ≤ 10 ^ k := Nat.pow_le_pow_right (by decide) few
    omega
  subst none
  rw [pow_zero, Nat.mul_one] at upper ⊢
  have same : k' = k := by
    by_contra different
    have narrow : 10 ^ k' ≤ 10 ^ (k - 1) := Nat.pow_le_pow_right (by decide) (by omega)
    omega
  refine ⟨rfl, same, ?_⟩
  rw [same] at shift
  omega

theorem digits (stripped : Stripped m s k z) (small : m < 2 ^ 53) : Digits m s k (k + z) := by
  refine ⟨stripped.positive, stripped.lower, stripped.upper, ?_⟩
  have value : (s : ℚ) * 10 ^ ((k : ℤ) + z - k) = m := by
    rw [add_sub_cancel_left, zpow_natCast]
    exact_mod_cast congrArg Nat.cast stripped.value.symm
  rw [value]
  exact rounds_self small

theorem fewest (stripped : Stripped m s k z) (small : m < 2 ^ 53) : Fewest m s k (k + z) := by
  refine ⟨stripped.digits small, ?_⟩
  intro s' k' n' digits
  rcases Nat.le_total k' k with few | many
  · exact (stripped.of_digits small few digits).2.1.ge
  · exact many

end Stripped

theorem ofNat_zeros {s : ℕ} (positive : 0 < s) (z : ℕ) :
    Text.ofNat (s * 10 ^ z) = Text.ofNat s ++ Text.repeated z '0' := by
  induction z with
  | zero => simp [Text.repeated]
  | succ z ih =>
    have large : ¬s * 10 ^ (z + 1) < 10 := by
      have some_zeros : 0 < 10 ^ z := Nat.pow_pos (by decide)
      have front : 1 * 1 ≤ s * 10 ^ z := Nat.mul_le_mul positive some_zeros
      rw [pow_succ, ← Nat.mul_assoc]
      omega
    have rest : s * 10 ^ (z + 1) / 10 = s * 10 ^ z := by
      rw [pow_succ, ← Nat.mul_assoc, Nat.mul_div_cancel _ (by decide)]
    have last : s * 10 ^ (z + 1) % 10 = 0 := by
      rw [pow_succ, ← Nat.mul_assoc, Nat.mul_mod_left]
    rw [Text.ofNat, if_neg large, rest, last, ih, List.append_assoc, Text.repeated, Text.repeated,
      List.replicate_succ']
    rfl

/-- The digits of a whole number below 2 ^ 53 need no exponent. -/
theorem layout_stripped {m s k z : ℕ} (small : m < 2 ^ 53) (stripped : Stripped m s k z) :
    layout s k (k + z) = Text.ofNat m := by
  have some_digit : 0 < s := Nat.lt_of_lt_of_le (Nat.pow_pos (by decide)) stripped.lower
  have short : k + z ≤ 21 := by
    have front : 10 ^ (k - 1 + z) ≤ m := by
      rw [pow_add, stripped.value]
      exact Nat.mul_le_mul_right _ stripped.lower
    have bound : 10 ^ (k - 1 + z) < 10 ^ 21 :=
      front.trans_lt (small.trans (by norm_num))
    have less := (Nat.pow_lt_pow_iff_right (by decide)).mp bound
    have positive := stripped.positive
    omega
  have near : (k : ℤ) ≤ k + z ∧ (k : ℤ) + z ≤ 21 := by omega
  unfold layout
  dsimp only
  rw [if_pos near, add_sub_cancel_left, Int.toNat_natCast, stripped.value, ofNat_zeros some_digit]

/-- A positive whole number below 2 ^ 53 is printed with its digits, and in no other way. -/
theorem printed_natCast {m : ℕ} (positive : 0 < m) (small : m < 2 ^ 53) {t : Text} :
    Printed m t ↔ t = Text.ofNat m := by
  obtain ⟨s, k, z, stripped⟩ := exists_stripped positive
  have above : (0 : ℚ) < m := by exact_mod_cast positive
  constructor
  · intro printed
    generalize named : (m : ℚ) = x at printed
    cases printed with
    | zero => exact absurd named above.ne'
    | negative below _ => exact absurd (named ▸ above) below.not_gt
    | positive _ fewest =>
      subst named
      have few := fewest.least s k _ (stripped.digits small)
      obtain ⟨rfl, rfl, rfl⟩ := stripped.of_digits small few fewest.toDigits
      exact layout_stripped small stripped
  · rintro rfl
    rw [← layout_stripped small stripped]
    exact .positive above (stripped.fewest small)

/-- A whole number of a magnitude below 2 ^ 53 is printed in decimal, and in no other way. -/
theorem printed_intCast {n : ℤ} (small : n.natAbs < 2 ^ 53) {t : Text} :
    Printed n t ↔ t = Text.ofInt n := by
  cases n with
  | ofNat m =>
    rcases Nat.eq_zero_or_pos m with rfl | positive
    · have zero : Text.ofInt (Int.ofNat 0) = "0" := by
        rw [Text.ofInt, Text.ofNat]
        rfl
      rw [zero]
      constructor
      · intro printed
        generalize named : ((Int.ofNat 0 : ℤ) : ℚ) = x at printed
        cases printed with
        | zero => rfl
        | negative below _ => exact absurd (named ▸ below) (by simp)
        | positive above _ => exact absurd (named ▸ above) (by simp)
      · rintro rfl
        exact_mod_cast Printed.zero
    · exact_mod_cast printed_natCast positive small
  | negSucc m =>
    have below : ((Int.negSucc m : ℤ) : ℚ) < 0 := by exact_mod_cast Int.negSucc_lt_zero m
    have magnitude : -((Int.negSucc m : ℤ) : ℚ) = ((m + 1 : ℕ) : ℚ) := by
      rw [Int.cast_negSucc, neg_neg]
    have digits {t : Text} : Printed ((m + 1 : ℕ) : ℚ) t ↔ t = Text.ofNat (m + 1) :=
      printed_natCast m.succ_pos small
    rw [Text.ofInt]
    constructor
    · intro printed
      generalize named : ((Int.negSucc m : ℤ) : ℚ) = x at printed
      cases printed with
      | zero => exact absurd named below.ne
      | negative _ rest =>
        rw [← named, magnitude, digits] at rest
        rw [rest]
      | positive above _ => exact absurd (named ▸ above) below.not_gt
    · rintro rfl
      exact .negative below (magnitude ▸ digits.mpr rfl)

end GrammarBundle.Script
