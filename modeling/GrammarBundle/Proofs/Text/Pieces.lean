import GrammarBundle.Text.CodePoint

/-!
Splitting a text at a code point and joining pieces again: the two undo each other, and leaving pieces
out of a text leaves a part of it.
-/

namespace GrammarBundle.Text

variable {p q : CodePoint} {s t : Text}

theorem join_cons {separator first : Text} {rest : List Text} (more : rest ≠ []) :
    join separator (first :: rest) = first ++ separator ++ join separator rest := by
  cases rest with
  | nil => exact absurd rfl more
  | cons second rest => rfl

theorem join_append {separator : Text} {front back : List Text} (some_front : front ≠ [])
    (some_back : back ≠ []) :
    join separator (front ++ back) = join separator front ++ separator ++ join separator back := by
  induction front with
  | nil => exact absurd rfl some_front
  | cons first front ih =>
    cases front with
    | nil => exact join_cons some_back
    | cons second front =>
      rw [List.cons_append, join_cons (by simp), ih (by simp),
        join_cons (List.cons_ne_nil second front)]
      simp only [List.append_assoc]

/-- Empty pieces in front of others are as many separators. -/
theorem join_replicate_nil {count : Nat} {pieces : List Text} (some_pieces : pieces ≠ []) :
    join [p] (List.replicate count [] ++ pieces) = List.replicate count p ++ join [p] pieces := by
  induction count with
  | zero => rfl
  | succ count ih =>
    rw [List.replicate_succ, List.cons_append, join_cons (by simp [some_pieces]), ih,
      List.replicate_succ]
    rfl

theorem join_sublist (separator : Text) {fewer pieces : List Text} (part : fewer.Sublist pieces) :
    (join separator fewer).Sublist (join separator pieces) := by
  induction part with
  | slnil => exact .slnil
  | @cons fewer pieces piece part ih =>
    cases pieces with
    | nil => cases part; exact List.nil_sublist _
    | cons second pieces =>
      rw [join_cons (by simp)]
      exact ih.trans (List.sublist_append_right _ _)
  | @cons_cons fewer pieces piece part ih =>
    cases pieces with
    | nil => cases part; exact List.Sublist.refl _
    | cons second pieces =>
      rw [join_cons (List.cons_ne_nil second pieces)]
      cases fewer with
      | nil =>
        rw [List.append_assoc]
        exact List.sublist_append_left _ _
      | cons other fewer =>
        rw [join_cons (by simp)]
        exact ih.append_left _

theorem splitAt_ne_nil : splitAt p t ≠ [] := by
  cases t with
  | nil => simp [splitAt]
  | cons q rest =>
    simp only [splitAt]
    split
    · simp
    · split <;> simp

theorem splitAt_self {rest : Text} : splitAt p (p :: rest) = [] :: splitAt p rest := by
  simp [splitAt]

/-- A code point other than the separator joins the first piece of the rest. -/
theorem splitAt_other {rest first : Text} {pieces : List Text} (other : q ≠ p)
    (split_rest : splitAt p rest = first :: pieces) :
    splitAt p (q :: rest) = (q :: first) :: pieces := by
  rw [splitAt, if_neg other, split_rest]

theorem splitAt_whole (free : p ∉ t) : splitAt p t = [t] := by
  induction t with
  | nil => rfl
  | cons q rest ih =>
    rw [List.mem_cons, not_or] at free
    exact splitAt_other (Ne.symm free.1) (ih free.2)

theorem splitAt_append_separator :
    splitAt p (s ++ p :: t) = splitAt p s ++ splitAt p t := by
  induction s with
  | nil => exact splitAt_self
  | cons q s ih =>
    by_cases same : q = p
    · subst same
      rw [List.cons_append, splitAt_self, splitAt_self, ih, List.cons_append]
    · obtain ⟨first, pieces, found⟩ := List.exists_cons_of_ne_nil (splitAt_ne_nil (p := p) (t := s))
      have whole : splitAt p (s ++ p :: t) = first :: (pieces ++ splitAt p t) := by
        rw [ih, found, List.cons_append]
      rw [List.cons_append, splitAt_other same whole, splitAt_other same found, List.cons_append]

/-- Text without the separator at the end of another lengthens its last piece. -/
theorem splitAt_append_free (free : p ∉ s) :
    ∃ front last, splitAt p t = front ++ [last] ∧ splitAt p (t ++ s) = front ++ [last ++ s] := by
  induction t with
  | nil => exact ⟨[], [], rfl, splitAt_whole free⟩
  | cons q t ih =>
    obtain ⟨front, last, before, after⟩ := ih
    by_cases same : q = p
    · subst same
      refine ⟨[] :: front, last, ?_, ?_⟩
      · rw [splitAt_self, before, List.cons_append]
      · rw [List.cons_append, splitAt_self, after, List.cons_append]
    · cases front with
      | nil => exact ⟨[], q :: last, splitAt_other same before, splitAt_other same after⟩
      | cons first front =>
        exact ⟨(q :: first) :: front, last, splitAt_other same before, splitAt_other same after⟩

theorem not_mem_of_mem_splitAt {piece : Text} (member : piece ∈ splitAt p t) : p ∉ piece := by
  induction t generalizing piece with
  | nil => simp_all [splitAt]
  | cons q rest ih =>
    by_cases same : q = p
    · subst same
      rw [splitAt_self] at member
      rcases List.mem_cons.mp member with rfl | later
      · simp
      · exact ih later
    · obtain ⟨first, pieces, found⟩ :=
        List.exists_cons_of_ne_nil (splitAt_ne_nil (p := p) (t := rest))
      rw [splitAt_other same found] at member
      rw [found] at ih
      rcases List.mem_cons.mp member with rfl | later
      · rw [List.mem_cons, not_or]
        exact ⟨Ne.symm same, ih List.mem_cons_self⟩
      · exact ih (List.mem_cons_of_mem _ later)

theorem join_splitAt : join [p] (splitAt p t) = t := by
  induction t with
  | nil => rfl
  | cons q rest ih =>
    by_cases same : q = p
    · subst same
      rw [splitAt_self, join_cons splitAt_ne_nil, ih]
      rfl
    · obtain ⟨first, pieces, found⟩ :=
        List.exists_cons_of_ne_nil (splitAt_ne_nil (p := p) (t := rest))
      rw [splitAt_other same found]
      rw [found] at ih
      cases pieces with
      | nil => exact congrArg (q :: ·) ih
      | cons second pieces =>
        rw [join_cons (by simp)] at ih ⊢
        exact congrArg (q :: ·) ih

theorem splitAt_join {pieces : List Text} (some_pieces : pieces ≠ [])
    (free : ∀ piece ∈ pieces, p ∉ piece) : splitAt p (join [p] pieces) = pieces := by
  induction pieces with
  | nil => exact absurd rfl some_pieces
  | cons first pieces ih =>
    have free_first := free first List.mem_cons_self
    cases pieces with
    | nil => exact splitAt_whole free_first
    | cons second pieces =>
      have later := ih (by simp) fun piece member => free piece (List.mem_cons_of_mem _ member)
      rw [join_cons (by simp), List.append_assoc, List.singleton_append, splitAt_append_separator,
        later, splitAt_whole free_first, List.singleton_append]

/-- Texts that each end with a code point are found again behind it, just where it stands in none of them. -/
theorem splitAt_terminated {pieces : List Text} :
    splitAt p (pieces.flatMap (· ++ [p])) = pieces ++ [[]] ↔ ∀ piece ∈ pieces, p ∉ piece := by
  constructor
  · intro found piece member
    have split : piece ∈ splitAt p (pieces.flatMap (· ++ [p])) := by
      rw [found]
      exact List.mem_append_left _ member
    exact not_mem_of_mem_splitAt split
  · intro free
    induction pieces with
    | nil => rfl
    | cons first pieces ih =>
      have later := ih fun piece member => free piece (List.mem_cons_of_mem first member)
      rw [List.flatMap_cons, List.append_assoc, List.singleton_append, splitAt_append_separator,
        splitAt_whole (free first List.mem_cons_self), later]
      rfl

/-- A code point that is no part of the separator stands in a joined text where it stands in a piece. -/
theorem mem_join {separator : Text} (apart : p ∉ separator) {pieces : List Text} :
    p ∈ join separator pieces ↔ ∃ piece ∈ pieces, p ∈ piece := by
  induction pieces with
  | nil => simp [join]
  | cons first pieces ih =>
    cases pieces with
    | nil => simp [join]
    | cons second pieces =>
      rw [join_cons (List.cons_ne_nil second pieces), List.mem_append, List.mem_append, ih]
      simp [apart]

theorem sublist_of_mem_splitAt {piece : Text} (member : piece ∈ splitAt p t) : piece.Sublist t := by
  have part := join_sublist [p] (List.singleton_sublist.mpr member)
  rwa [join_splitAt] at part

end GrammarBundle.Text
