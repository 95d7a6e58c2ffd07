import GrammarBundle.Number.Numeral
import GrammarBundle.Proofs.Text.Numerals
import GrammarBundle.Text.Lines

/-!
Numbers as text. Whatever a number is, it is written in printable ASCII, and so without white space and
line breaks.
-/

namespace GrammarBundle

/-- A printable ASCII character. -/
def CodePoint.isShown (p : CodePoint) : Bool := 0x20 ≤ p.val && p.val < 0x7F

theorem CodePoint.bounds_of_digit {p : CodePoint} (digit : p.isDigit = true) :
    p.isSurrogate = false ∧ 0x30 ≤ p.val ∧ p.val ≤ 0x39 := by
  cases p with
  | surrogate u => cases digit
  | char c =>
    have bounds : '0' ≤ c ∧ c ≤ '9' := by
      apply Decidable.byContradiction
      intro beyond
      rw [CodePoint.isDigit, CodePoint.digit?, if_neg beyond] at digit
      cases digit
    exact ⟨rfl, bounds⟩

/-- Text of printable ASCII characters. -/
def Text.Shown (t : Text) : Prop := ∀ p ∈ t, p.isShown = true

instance (t : Text) : Decidable t.Shown := inferInstanceAs (Decidable (∀ p ∈ t, p.isShown = true))

namespace Text

variable {s t : Text}

theorem Shown.of_subset (shown : t.Shown) (part : s ⊆ t) : s.Shown :=
  fun p member => shown p (part member)

theorem Shown.append (first : s.Shown) (last : t.Shown) : Shown (s ++ t) := by
  intro p member
  rcases List.mem_append.mp member with inside | inside
  · exact first p inside
  · exact last p inside

theorem Shown.onlyIf (condition : Bool) (shown : t.Shown) : Shown (Text.onlyIf condition t) := by
  cases condition with
  | true => exact shown
  | false => exact fun p member => absurd member List.not_mem_nil

theorem shown_repeated {p : CodePoint} (count : Nat) (shown : p.isShown = true) :
    Shown (repeated count p) := by
  intro q member
  rw [List.eq_of_mem_replicate member]
  exact shown

theorem shown_ofNat (n : Nat) : (ofNat n).Shown := by
  intro p member
  obtain ⟨_, lower, upper⟩ := CodePoint.bounds_of_digit (isDigit_ofNat p member)
  simp only [CodePoint.isShown, Bool.and_eq_true, decide_eq_true_eq]
  omega

theorem shown_ofInt (n : Int) : (ofInt n).Shown := by
  have sign : Shown [.char '-'] := by decide
  cases n with
  | ofNat n => exact shown_ofNat n
  | negSucc n => exact sign.append (shown_ofNat (n + 1))

/-- No line breaks after a printable character. -/
theorem Shown.unbroken (shown : t.Shown) : ∀ p ∈ t, p.isLineBreak = false := by
  intro p member
  have bounds := shown p member
  simp only [CodePoint.isShown, Bool.and_eq_true, decide_eq_true_eq] at bounds
  simp only [CodePoint.isLineBreak, Bool.or_eq_false_iff, Bool.and_eq_false_iff,
    decide_eq_false_iff_not, beq_eq_false_iff_ne]
  omega

end Text

open Text (Shown shown_ofNat shown_ofInt shown_repeated)

namespace Binary64

theorem shown_exponentText (e : Int) : (exponentText e).Shown := by
  have sign : Shown [.char (if e < 0 then '-' else '+')] := by
    split <;> decide
  exact sign.append ((shown_repeated _ rfl).append (shown_ofNat _))

theorem shown_decimalText (d : Decimal) : (decimalText d).Shown := by
  have digits := shown_ofNat d.digits
  have front (n : Nat) : Shown ((Text.ofNat d.digits).take n) := digits.of_subset (List.take_subset n _)
  have back (n : Nat) : Shown ((Text.ofNat d.digits).drop n) := digits.of_subset (List.drop_subset n _)
  have zero : Shown "0.0" := by decide
  have lead : Shown "0." := by decide
  have close : Shown ".0" := by decide
  have point : Shown "." := by decide
  have mark : Shown "e" := by decide
  have zeros (n : Nat) : Shown (Text.repeated n '0') := shown_repeated n rfl
  unfold decimalText
  dsimp only
  split
  · exact zero
  · split
    · split
      · exact (lead.append (zeros _)).append digits
      · split
        · exact (digits.append (zeros _)).append close
        · exact ((front _).append point).append (back _)
    · exact (((front 1).append ((point.append (back 1)).onlyIf _)).append mark).append
        (shown_exponentText _)

theorem shown_toTextWith (x : Binary64) {infinity none : Text} (infinity_shown : infinity.Shown)
    (none_shown : none.Shown) : (x.toTextWith infinity none).Shown := by
  have minus : Shown "-" := by decide
  cases x with
  | finite s m q => exact (minus.onlyIf s).append (shown_decimalText _)
  | infinite s => exact (minus.onlyIf s).append infinity_shown
  | nan => exact none_shown

theorem shown_toText (x : Binary64) : x.toText.Shown :=
  x.shown_toTextWith (by decide) (by decide)

end Binary64

theorem Numeral.shown_toText (n : Numeral) : n.toText.Shown := by
  cases n with
  | whole n => exact shown_ofInt n
  | floating x => exact x.shown_toText

end GrammarBundle
