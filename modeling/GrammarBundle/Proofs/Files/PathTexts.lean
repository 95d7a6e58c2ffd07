import GrammarBundle.Files.Disk
import GrammarBundle.Files.Path
import GrammarBundle.Proofs.Text.Pieces

/-!
Paths and their texts. The names that a walk reads off the text of a path are the names of the path, and
the text is a part of the text that the path was read from.
-/

namespace GrammarBundle

abbrev slash : CodePoint := .char '/'

namespace Path

/-- A piece of a written path that is a name. -/
def isName (piece : Text) : Bool := piece ≠ [] && piece ≠ [.char '.']

theorem isName_iff {piece : Text} : isName piece = true ↔ piece ≠ [] ∧ piece ≠ [.char '.'] := by
  simp [isName]

theorem ofText_names (t : Text) : (ofText t).names = (Text.splitAt slash t).filter isName := rfl

theorem ofText_name {t name : Text} (member : name ∈ (ofText t).names) :
    name ≠ [] ∧ name ≠ [.char '.'] ∧ slash ∉ name := by
  rw [ofText_names] at member
  have inside := List.mem_filter.mp member
  have proper := isName_iff.mp inside.2
  exact ⟨proper.1, proper.2, Text.not_mem_of_mem_splitAt inside.1⟩

/-- How many separators a text starts with. -/
def leading (t : Text) : Nat := (t.takeWhile (· = slash)).length

theorem rootOf_length (t : Text) : (rootOf t).length ≤ leading t := by
  unfold rootOf leading
  split
  next none => simp
  next two => rw [two]; exact Nat.le_refl 2
  next one _ => exact Nat.one_le_iff_ne_zero.mpr one

theorem rootOf_eq_replicate (t : Text) : rootOf t = List.replicate (rootOf t).length slash := by
  unfold rootOf
  split <;> rfl

theorem rootOf_eq_nil_iff {t : Text} : rootOf t = [] ↔ t.head? ≠ some slash := by
  have lengths : rootOf t = [] ↔ leading t = 0 := by
    unfold rootOf leading
    split
    next none => simp [none]
    next two => simp [two, Text.ofString]
    next one _ => simpa [Text.ofString] using one
  rw [lengths, leading]
  cases t with
  | nil => simp
  | cons p rest => by_cases same : p = slash <;> simp [same]

/-- The pieces of a text begin with one empty piece for each separator it starts with. -/
theorem splitAt_leading (t : Text) :
    ∃ rest, Text.splitAt slash t = List.replicate (leading t) [] ++ rest := by
  unfold leading
  induction t with
  | nil => exact ⟨_, rfl⟩
  | cons p t ih =>
    by_cases same : p = slash
    · subst same
      obtain ⟨rest, found⟩ := ih
      refine ⟨rest, ?_⟩
      simp only [Text.splitAt_self, found, decide_true, List.takeWhile_cons_of_pos,
        List.length_cons, List.replicate_succ, List.cons_append]
    · exact ⟨Text.splitAt slash (p :: t), by simp [same]⟩

/-- The pieces before the names in the text of a path. -/
def rootPieces (p : Path) : List Text := List.replicate p.root.length []

theorem ofText_pieces_sublist (t : Text) :
    ((ofText t).rootPieces ++ (ofText t).names).Sublist (Text.splitAt slash t) := by
  obtain ⟨rest, found⟩ := splitAt_leading t
  have none : (List.replicate (leading t) ([] : Text)).filter isName = [] := by
    apply List.filter_eq_nil_iff.mpr
    intro piece member
    rw [List.eq_of_mem_replicate member]
    simp [isName]
  rw [ofText_names, found, List.filter_append, none, List.nil_append]
  apply List.Sublist.append
  · exact List.replicate_sublist_replicate _ |>.mpr (rootOf_length t)
  · exact List.filter_sublist

/-- The text of a path with names is the joint of its pieces. -/
theorem ofText_toText {t : Text} (some_names : (ofText t).names ≠ []) :
    (ofText t).toText = Text.join [slash] ((ofText t).rootPieces ++ (ofText t).names) := by
  have slashes : (ofText t).root = List.replicate (ofText t).root.length slash :=
    rootOf_eq_replicate t
  rw [rootPieces, Text.join_replicate_nil some_names, ← slashes, toText,
    if_neg fun both => some_names both.2]
  rfl

theorem ofText_toText_sublist {t : Text} (some_names : (ofText t).names ≠ []) :
    (ofText t).toText.Sublist t := by
  have part := Text.join_sublist [slash] (ofText_pieces_sublist t)
  rw [Text.join_splitAt] at part
  rw [ofText_toText some_names]
  exact part

theorem splitAt_toText {t : Text} (some_names : (ofText t).names ≠ []) :
    Text.splitAt slash (ofText t).toText = (ofText t).rootPieces ++ (ofText t).names := by
  rw [ofText_toText some_names]
  apply Text.splitAt_join (by simp [some_names])
  intro piece member
  rcases List.mem_append.mp member with root | name
  · rw [List.eq_of_mem_replicate root]
    simp
  · exact (ofText_name name).2.2

/-- The text of a path starts at the root where the text that it was read from does. -/
theorem head_toText {t : Text} (some_names : (ofText t).names ≠ []) :
    (ofText t).toText.head? = some slash ↔ t.head? = some slash := by
  have named := some_names
  obtain ⟨first, rest, names⟩ := List.exists_cons_of_ne_nil named
  have listed : first ∈ (ofText t).names := by simp [names]
  have proper := ofText_name listed
  obtain ⟨p, first, rfl⟩ := List.exists_cons_of_ne_nil proper.1
  have other : p ≠ slash := fun same => proper.2.2 (by simp [same])
  have text : (ofText t).toText = rootOf t ++ Text.join [slash] (ofText t).names := by
    rw [toText, if_neg fun both => some_names both.2]
    rfl
  have starts : (Text.join [slash] (ofText t).names).head? = some p := by
    rw [names]
    cases rest with
    | nil => rfl
    | cons second rest =>
      rw [Text.join_cons (by simp)]
      rfl
  by_cases root : rootOf t = []
  · rw [text, root, List.nil_append, starts]
    have relative := rootOf_eq_nil_iff.mp root
    simp [other, relative]
  · have absolute : t.head? = some slash :=
      Decidable.byContradiction fun relative => root (rootOf_eq_nil_iff.mpr relative)
    have slashes := rootOf_eq_replicate t
    obtain ⟨q, more, filled⟩ := List.exists_cons_of_ne_nil root
    rw [text, filled, List.cons_append, List.head?_cons, absolute]
    rw [filled] at slashes
    have first_slash : q = slash := by
      rw [List.length_cons, List.replicate_succ] at slashes
      exact (List.cons.inj slashes).1
    simp [first_slash]

theorem ofText_isAbsolute {t : Text} : (ofText t).isAbsolute = true ↔ t.head? = some slash := by
  have root : (ofText t).isAbsolute = true ↔ rootOf t ≠ [] := by
    simp [isAbsolute, ofText]
  rw [root, ne_eq, rootOf_eq_nil_iff]
  exact Decidable.not_not

theorem rootOf_congr {s t : Text} (same : leading s = leading t) : rootOf s = rootOf t := by
  unfold leading at same
  simp only [rootOf, same]

/-- A text keeps its leading separators, whatever follows it, unless they go on there. -/
theorem leading_append {s t : Text}
    (ends : (∃ p ∈ s, p ≠ slash) ∨ t.head? ≠ some slash) : leading (s ++ t) = leading s := by
  unfold leading
  rw [List.takeWhile_append]
  split
  next whole =>
    have all : ∀ p ∈ s, p = slash := by
      have self := (List.takeWhile_sublist (· = slash)).eq_of_length whole
      have taken := List.all_takeWhile (l := s) (p := (· = slash))
      rw [self] at taken
      simpa using taken
    rcases ends with ⟨p, member, other⟩ | closed
    · exact absurd (all p member) other
    · cases t with
      | nil => rw [List.takeWhile_nil, List.append_nil, whole]
      | cons p t =>
        have other : p ≠ slash := fun same => closed (by simp [same])
        simp [other, whole]
  · rfl

/-- Joining a path with a text below it reads the joint text. -/
theorem ofText_joinPath {base : Text} (some_base : base ≠ []) (t : Text) :
    ofText (Text.joinPath base t) = (ofText base).join t := by
  unfold Text.joinPath join
  by_cases absolute : t.head? = some slash
  · rw [if_pos absolute]
    simp only [ofText_isAbsolute.mpr absolute, if_true]
  · have relative : (ofText t).isAbsolute = false := by
      rw [← Bool.not_eq_true, ofText_isAbsolute]
      exact absolute
    simp only [if_neg absolute, relative, Bool.false_eq_true, if_false]
    by_cases ends : base.getLast? = some slash
    · obtain ⟨front, rfl⟩ := List.getLast?_eq_some_iff.mp ends
      rw [if_pos (.inr ends)]
      have root : rootOf (front ++ [slash] ++ t) = rootOf (front ++ [slash]) :=
        rootOf_congr (leading_append (.inr absolute))
      have pieces : Text.splitAt slash (front ++ [slash]) = Text.splitAt slash front ++ [[]] :=
        Text.splitAt_append_separator
      have names : (ofText (front ++ [slash] ++ t)).names =
          (ofText (front ++ [slash])).names ++ (ofText t).names := by
        rw [ofText_names, ofText_names, ofText_names, List.append_assoc, List.singleton_append,
          Text.splitAt_append_separator, pieces, List.filter_append, List.filter_append]
        simp [isName]
      exact congr (congrArg Path.mk root) names
    · have closed : ¬(base = [] ∨ base.getLast? = some slash) := by simp [some_base, ends]
      rw [if_neg closed]
      have other : ∃ p ∈ base, p ≠ slash := by
        refine ⟨base.getLast some_base, List.getLast_mem some_base, ?_⟩
        intro same
        exact ends (by rw [List.getLast?_eq_some_getLast some_base, same])
      have root : rootOf (base ++ slash :: t) = rootOf base :=
        rootOf_congr (leading_append (.inl other))
      have names : (ofText (base ++ slash :: t)).names = (ofText base).names ++ (ofText t).names := by
        rw [ofText_names, ofText_names, ofText_names, Text.splitAt_append_separator,
          List.filter_append]
      have text : base ++ Text.ofString "/" ++ t = base ++ slash :: t := by
        rw [List.append_assoc]
        rfl
      rw [text]
      exact congr (congrArg Path.mk root) names

/-- Text without a separator at the end of a name stays at the end of the joint path. -/
theorem joinPath_append {base t ending : Text} (some_ending : ending.head? ≠ some slash) :
    Text.joinPath base (t ++ ending) = Text.joinPath base t ++ ending := by
  unfold Text.joinPath
  have head : (t ++ ending).head? = some slash ↔ t.head? = some slash := by
    cases t with
    | nil => simpa using some_ending
    | cons p t => rfl
  by_cases absolute : t.head? = some slash
  · rw [if_pos absolute, if_pos (head.mpr absolute)]
  · rw [if_neg absolute, if_neg (mt head.mp absolute)]
    split
    · rw [List.append_assoc]
    · simp only [List.append_assoc]

end Path

namespace Disk

/-- A text that does not end in a separator gives its pieces as names. -/
theorem namesOf_eq_filter {t : Text} (closed : t.getLast? ≠ some slash) :
    namesOf t = (Text.splitAt slash t).filter (· ≠ []) := by
  unfold namesOf
  rw [if_neg fun both => closed both.1]

/-- The names that a walk reads off the text of a path are the names of the path. -/
theorem namesOf_toText {t : Text} (some_names : (Path.ofText t).names ≠ []) :
    namesOf (Path.ofText t).toText = (Path.ofText t).names := by
  have pieces := Path.splitAt_toText some_names
  have closed : (Path.ofText t).toText.getLast? ≠ some slash := by
    intro ends
    obtain ⟨front, split_text⟩ := List.getLast?_eq_some_iff.mp ends
    have last : Text.splitAt slash (Path.ofText t).toText = Text.splitAt slash front ++ [[]] := by
      rw [split_text, Text.splitAt_append_separator]
      rfl
    rw [last] at pieces
    have member : ([] : Text) ∈ (Path.ofText t).names := by
      have split_names := List.dropLast_concat_getLast some_names
      rw [← split_names, ← List.append_assoc] at pieces
      have same := (List.append_inj' pieces rfl).2
      rw [List.cons.inj same |>.1]
      exact List.getLast_mem some_names
    exact (Path.ofText_name member).1 rfl
  rw [namesOf_eq_filter closed, pieces, List.filter_append]
  have roots : (Path.ofText t).rootPieces.filter (· ≠ []) = [] := by
    apply List.filter_eq_nil_iff.mpr
    intro piece member
    simp [List.eq_of_mem_replicate member]
  have names : (Path.ofText t).names.filter (· ≠ []) = (Path.ofText t).names := by
    apply List.filter_eq_self.mpr
    intro name member
    simpa using (Path.ofText_name member).1
  rw [roots, names, List.nil_append]

end Disk

end GrammarBundle
