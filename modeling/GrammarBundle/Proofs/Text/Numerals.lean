import GrammarBundle.Text.Decimal

/-!
Numerals read back: the digits of a natural number name that number, and only zero starts with a zero.
-/

namespace GrammarBundle.Text

theorem digit_ofDigit : ∀ d < 10, (CodePoint.ofDigit d).digit? = some d := by
  decide

theorem ofDigit_ne_zero : ∀ d < 10, d ≠ 0 → CodePoint.ofDigit d ≠ .char '0' := by
  decide

theorem value_append {base : Nat} {front : List Nat} {d : Nat} :
    value base (front ++ [d]) = value base front * base + d := by
  rw [value, value, List.foldl_append]
  rfl

theorem digits_ofNat (n : Nat) :
    ∃ digits, (ofNat n).mapM CodePoint.digit? = some digits ∧ value 10 digits = n := by
  induction n using Nat.strongRecOn with
  | ind n ih =>
    rw [ofNat]
    split
    next small =>
      refine ⟨[n], ?_, by simp [value]⟩
      rw [List.mapM_cons, digit_ofDigit n small]
      rfl
    next large =>
      obtain ⟨digits, read, named⟩ := ih (n / 10) (by omega)
      refine ⟨digits ++ [n % 10], ?_, ?_⟩
      · rw [List.mapM_append, read, List.mapM_cons, digit_ofDigit (n % 10) (by omega)]
        rfl
      · rw [value_append, named]
        omega

theorem ofNat_ne_nil {n : Nat} : ofNat n ≠ [] := by
  rw [ofNat]
  split <;> simp

theorem nat?_ofNat (n : Nat) : nat? (ofNat n) = some n := by
  obtain ⟨digits, read, named⟩ := digits_ofNat n
  rw [nat?, if_neg (by simp [ofNat_ne_nil]), read, Option.map_some, named]

theorem isDigit_ofNat {n : Nat} : ∀ p ∈ ofNat n, p.isDigit = true := by
  induction n using Nat.strongRecOn with
  | ind n ih =>
    have last {d : Nat} (small : d < 10) : (CodePoint.ofDigit d).isDigit = true := by
      rw [CodePoint.isDigit, digit_ofDigit d small]
      rfl
    intro p member
    rw [ofNat] at member
    split at member
    next small => exact List.mem_singleton.mp member ▸ last small
    next large =>
      rcases List.mem_append.mp member with inside | inside
      · exact ih (n / 10) (by omega) p inside
      · exact List.mem_singleton.mp inside ▸ last (by omega)

theorem head_ofNat {n : Nat} (positive : n ≠ 0) : (ofNat n).head? ≠ some (.char '0') := by
  induction n using Nat.strongRecOn with
  | ind n ih =>
    rw [ofNat]
    split
    next small =>
      intro same
      exact ofDigit_ne_zero n small positive (Option.some.inj same)
    next large =>
      obtain ⟨p, front, found⟩ := List.exists_cons_of_ne_nil (ofNat_ne_nil (n := n / 10))
      have first := ih (n / 10) (by omega) (by omega)
      rw [found] at first ⊢
      exact first

theorem digit?_lt {p : CodePoint} {d : Nat} (digit : p.digit? = some d) : d < 10 := by
  cases p with
  | surrogate u => cases digit
  | char c =>
    rw [CodePoint.digit?] at digit
    split at digit
    next bounds =>
      have upper : c.toNat ≤ '9'.toNat := bounds.2
      have named := Option.some.inj digit
      simp only [Char.reduceToNat] at upper named
      omega
    · cases digit

theorem digits_cons {p : CodePoint} {t : Text} {digits : List Nat}
    (read : (p :: t).mapM CodePoint.digit? = some digits) :
    ∃ d rest, digits = d :: rest ∧ d < 10 ∧ t.mapM CodePoint.digit? = some rest := by
  rw [List.mapM_cons] at read
  cases digit : p.digit? with
  | none =>
    rw [digit] at read
    cases read
  | some d =>
    cases later : t.mapM CodePoint.digit? with
    | none =>
      rw [digit, later] at read
      cases read
    | some rest =>
      rw [digit, later] at read
      cases read
      exact ⟨d, rest, rfl, digit?_lt digit, rfl⟩

theorem length_ofNat_digit {d : Nat} (n : Nat) (small : d < 10) :
    (ofNat (n * 10 + d)).length ≤ (ofNat n).length + 1 := by
  rw [ofNat]
  split
  · simp
  next large =>
    have front : (n * 10 + d) / 10 = n := by omega
    rw [front, List.length_append]
    exact Nat.le_refl _

theorem length_ofNat_foldl {t : Text} {digits : List Nat} (n : Nat)
    (read : t.mapM CodePoint.digit? = some digits) :
    (ofNat (digits.foldl (fun n d => n * 10 + d) n)).length ≤ (ofNat n).length + t.length := by
  induction t generalizing n digits with
  | nil =>
    cases read
    exact Nat.le_refl _
  | cons p t ih =>
    obtain ⟨d, rest, rfl, small, later⟩ := digits_cons read
    calc (ofNat (rest.foldl (fun n d => n * 10 + d) (n * 10 + d))).length
        ≤ (ofNat (n * 10 + d)).length + t.length := ih (n * 10 + d) later
      _ ≤ (ofNat n).length + 1 + t.length := Nat.add_le_add_right (length_ofNat_digit n small) _
      _ = (ofNat n).length + (p :: t).length := by rw [List.length_cons]; omega

/-- A number has no more digits than the numeral from which it is read. -/
theorem length_ofNat_of_nat? {t : Text} {n : Nat} (read : nat? t = some n) :
    (ofNat n).length ≤ t.length := by
  cases t with
  | nil => cases read
  | cons p t =>
    rw [nat?, if_neg (by simp), Option.map_eq_some_iff] at read
    obtain ⟨digits, read, rfl⟩ := read
    obtain ⟨d, rest, rfl, small, later⟩ := digits_cons read
    -- The first digit alone is one long, unlike the nothing before it.
    have single : (ofNat (0 * 10 + d)).length = 1 := by
      rw [Nat.zero_mul, Nat.zero_add, ofNat, if_pos small]
      rfl
    have bound := length_ofNat_foldl (0 * 10 + d) later
    rw [single] at bound
    rw [List.length_cons, Nat.add_comm]
    exact bound

end GrammarBundle.Text
