import Mathlib
import GrammarBundle.Proofs.Text.CodePoints

/-!
The order of texts is the one of the lists of their numbers, and so it is linear. Sorting a list with one
more text in it puts the text between the others.
-/

namespace GrammarBundle.Text

variable {s t u : Text}

theorem val_injective : Function.Injective CodePoint.val := by
  intro p q same
  rw [← CodePoint.ofNat_val p, same, CodePoint.ofNat_val]

theorem before_iff : before s t = true ↔ s.map CodePoint.val < t.map CodePoint.val := by
  induction s generalizing t with
  | nil => cases t <;> simp [before]
  | cons p s ih =>
    cases t with
    | nil => simp [before]
    | cons q t =>
      have same : p = q ↔ p.val = q.val := val_injective.eq_iff.symm
      simp [before, List.cons_lt_cons_iff, ih, same]

theorem atMost_iff : atMost s t = true ↔ s.map CodePoint.val ≤ t.map CodePoint.val := by
  rw [atMost, Bool.not_eq_true', ← Bool.not_eq_true, before_iff, not_lt]

theorem atMost_trans (first : atMost s t = true) (second : atMost t u = true) :
    atMost s u = true := by
  rw [atMost_iff] at first second ⊢
  exact first.trans second

theorem atMost_total (s t : Text) : (atMost s t || atMost t s) = true := by
  rw [Bool.or_eq_true, atMost_iff, atMost_iff]
  exact le_total _ _

theorem atMost_antisymm (first : atMost s t = true) (second : atMost t s = true) : s = t := by
  rw [atMost_iff] at first second
  exact List.map_injective_iff.mpr val_injective (first.antisymm second)

theorem sorted_mergeSort (texts : List Text) :
    (texts.mergeSort atMost).Pairwise fun a b => atMost a b = true := by
  apply List.pairwise_mergeSort
  · intro a b c first second
    exact atMost_trans first second
  · exact atMost_total

/-- Lists of the same texts, both in order, are the same. -/
theorem eq_of_sorted {texts texts' : List Text} (same : texts.Perm texts')
    (sorted : texts.Pairwise fun a b => atMost a b = true)
    (sorted' : texts'.Pairwise fun a b => atMost a b = true) : texts = texts' :=
  same.eq_of_pairwise (fun _ _ _ _ => atMost_antisymm) sorted sorted'

/-- A further text is sorted in between the others, which stay in their order. -/
theorem mergeSort_insert (texts : List Text) (t : Text) :
    ∃ front back, texts.mergeSort atMost = front ++ back ∧
      (texts ++ [t]).mergeSort atMost = front ++ t :: back := by
  have whole := List.mergeSort_perm (texts ++ [t]) atMost
  have member : t ∈ (texts ++ [t]).mergeSort atMost :=
    whole.mem_iff.mpr (List.mem_append_right _ List.mem_cons_self)
  obtain ⟨front, back, split_sorted⟩ := List.append_of_mem member
  have sorted := sorted_mergeSort (texts ++ [t])
  rw [split_sorted] at whole sorted
  refine ⟨front, back, ?_, split_sorted⟩
  have rest : (front ++ back).Perm texts := by
    have moved : (t :: (front ++ back)).Perm (t :: texts) :=
      (List.perm_middle.symm.trans whole).trans (List.perm_append_singleton t texts)
    exact moved.cons_inv
  have part : (front ++ back).Sublist (front ++ t :: back) :=
    (List.sublist_cons_self t back).append_left front
  exact eq_of_sorted ((List.mergeSort_perm texts atMost).trans rest.symm)
    (sorted_mergeSort texts) (sorted.sublist part)

end GrammarBundle.Text
