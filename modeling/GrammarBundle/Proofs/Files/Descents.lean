import GrammarBundle.Proofs.Files.Below
import GrammarBundle.Proofs.Files.Resolved
import GrammarBundle.Proofs.Files.Seats

/-!
Texts that only go down. Each of their names leads to a place of that name one step below, so that below one
base different texts of files name different places. A point, two points, a slash too many or a root in front
would let two texts name one place.
-/

namespace GrammarBundle

namespace Text

/-- A name that leads one step down, to the place of that name. -/
def StepsDown (name : Text) : Prop :=
  name ≠ [] ∧ name ≠ "." ∧ name ≠ ".." ∧ FileName.canonical name = name

instance (name : Text) : Decidable name.StepsDown :=
  inferInstanceAs (Decidable (_ ∧ _))

/-- A text whose names all lead one step down; a slash may stand at its end. -/
def Descends (t : Text) : Prop :=
  ∃ (front : List Text) (last : Text), splitAt slash t = front ++ [last] ∧
    (∀ name ∈ front, StepsDown name) ∧ (last = [] ∨ StepsDown last)

/-- A text that goes down to a name, as the text of a file does. -/
def DescendsTo (t : Text) : Prop := ∀ name ∈ splitAt slash t, StepsDown name

variable {s t base name ending : Text}

theorem StepsDown.descendsTo (down : name.StepsDown) (free : slash ∉ name) : name.DescendsTo := by
  unfold DescendsTo
  rw [splitAt_whole free]
  intro other member
  rwa [List.mem_singleton.mp member]

theorem descends_nil : Descends [] :=
  ⟨[], [], rfl, fun _ member => absurd member List.not_mem_nil, .inl rfl⟩

theorem DescendsTo.descends (down : t.DescendsTo) : t.Descends := by
  obtain ⟨front, last, pieces⟩ :=
    List.eq_nil_or_concat (splitAt slash t) |>.resolve_left splitAt_ne_nil
  rw [List.concat_eq_append] at pieces
  unfold DescendsTo at down
  rw [pieces] at down
  exact ⟨front, last, pieces, fun name member => down name (List.mem_append_left _ member),
    .inr (down last (List.mem_append_right _ List.mem_cons_self))⟩

theorem DescendsTo.ne_nil (down : t.DescendsTo) : t ≠ [] := by
  rintro rfl
  exact (down [] List.mem_cons_self).1 rfl

/-- The last piece of a text is empty exactly if nothing stands behind its last slash. -/
theorem getLast_of_splitAt {front : List Text} {last : Text} (some_text : t ≠ [])
    (pieces : splitAt slash t = front ++ [last]) : last = [] ↔ t.getLast? = some slash := by
  constructor
  · rintro rfl
    have whole : t = join [slash] (front ++ [[]]) := by rw [← pieces, join_splitAt]
    have some_front : front ≠ [] := by
      rintro rfl
      exact some_text whole
    rw [whole, join_append some_front (List.cons_ne_nil _ _), List.append_assoc]
    exact List.getLast?_concat
  · intro ends
    obtain ⟨before, rfl⟩ := List.getLast?_eq_some_iff.mp ends
    rw [splitAt_append_separator] at pieces
    exact (List.cons.inj (List.append_inj' pieces rfl).2).1.symm

theorem Descends.relative (down : t.Descends) : t.head? ≠ some slash := by
  obtain ⟨front, last, pieces, steps, _⟩ := down
  cases t with
  | nil => exact nofun
  | cons p rest =>
    intro same
    cases same
    rw [splitAt_self] at pieces
    cases front with
    | nil => exact splitAt_ne_nil (List.cons.inj pieces).2
    | cons name front => exact (steps name List.mem_cons_self).1 (List.cons.inj pieces).1.symm

/-- A text that goes down and does not end in a slash goes down to a name. -/
theorem Descends.to_name (down : t.Descends) (some_text : t ≠ []) (closed : t.getLast? ≠ some slash) :
    t.DescendsTo := by
  obtain ⟨front, last, pieces, steps, ends⟩ := down
  unfold DescendsTo
  rw [pieces]
  intro name member
  rcases List.mem_append.mp member with before | here
  · exact steps name before
  · rw [List.mem_singleton.mp here]
    exact ends.resolve_left (mt (getLast_of_splitAt some_text pieces).mp closed)

theorem DescendsTo.closed (down : t.DescendsTo) : t.getLast? ≠ some slash := by
  obtain ⟨front, last, pieces⟩ :=
    List.eq_nil_or_concat (splitAt slash t) |>.resolve_left splitAt_ne_nil
  rw [List.concat_eq_append] at pieces
  have member : last ∈ splitAt slash t := by
    rw [pieces]
    exact List.mem_append_right _ List.mem_cons_self
  exact mt (getLast_of_splitAt down.ne_nil pieces).mpr (down last member).1

theorem Descends.below (first : s.DescendsTo) (last : t.Descends) : Descends (s ++ slash :: t) := by
  obtain ⟨front, name, pieces, steps, ends⟩ := last
  refine ⟨splitAt slash s ++ front, name, ?_, List.forall_mem_append.mpr ⟨first, steps⟩, ends⟩
  rw [splitAt_append_separator, pieces, List.append_assoc]

theorem Descends.joinPath (first : s.Descends) (last : t.Descends) : (Text.joinPath s t).Descends := by
  unfold Text.joinPath
  rw [if_neg last.relative]
  by_cases some_text : s = []
  · rw [if_pos (.inl some_text), some_text]
    exact last
  · by_cases ends : s.getLast? = some slash
    · rw [if_pos (.inr ends)]
      obtain ⟨before, rfl⟩ := List.getLast?_eq_some_iff.mp ends
      obtain ⟨front, name, pieces, steps, _⟩ := first
      rw [splitAt_append_separator] at pieces
      have down : DescendsTo before := by
        unfold DescendsTo
        rwa [(List.append_inj' pieces rfl).1]
      rw [List.append_assoc]
      exact .below down last
    · rw [if_neg (not_or.mpr ⟨some_text, ends⟩), List.append_assoc]
      exact .below (first.to_name some_text ends) last

/-- An ASCII ending without a slash makes the last name longer. -/
theorem DescendsTo.append (down : t.DescendsTo) (free : slash ∉ ending)
    (ascii : FileName.IsAscii ending) : (t ++ ending).DescendsTo := by
  obtain ⟨front, last, before, after⟩ := splitAt_append_free (t := t) free
  unfold DescendsTo at down ⊢
  rw [before, List.forall_mem_append] at down
  rw [after, List.forall_mem_append]
  refine ⟨down.1, fun name member => ?_⟩
  obtain ⟨some_name, stay, up, listed⟩ := down.2 last List.mem_cons_self
  obtain ⟨stay', up'⟩ := Disk.append_ne_points ending some_name stay up
  rw [List.mem_singleton.mp member]
  exact ⟨by simp [some_name], stay', up', by rw [FileName.canonical_append ascii, listed]⟩

end Text

namespace Disk

variable {workdir here : Place} {base t u : Text}

theorem foldl_stepTo {names : List Text} (steps : ∀ name ∈ names, Text.StepsDown name) :
    names.foldl stepTo here = here ++ names := by
  induction names generalizing here with
  | nil => exact (List.append_nil here).symm
  | cons name rest ih =>
    obtain ⟨_, stay, up, listed⟩ := steps name List.mem_cons_self
    rw [List.foldl_cons, ih fun other member => steps other (List.mem_cons_of_mem _ member), stepTo,
      if_neg stay, if_neg up, listed, List.append_assoc, List.singleton_append]

/-- The place that a base names, a slash at its end left out of account. -/
def startOf (workdir : Place) (base : Text) : Place :=
  (piecesOf base).foldl stepTo (if isAbsolute base then [] else workdir)

/-- A text that goes down to a name stands below its base, under the names that it writes. -/
theorem resolved_joinPath (some_base : base ≠ []) (down : t.DescendsTo) :
    resolved workdir (Text.joinPath base t) = startOf workdir base ++ Text.splitAt slash t := by
  have relative := down.descends.relative
  have closed : (Text.joinPath base t).getLast? ≠ some slash := by
    rw [Text.getLast?_joinPath down.ne_nil]
    exact down.closed
  have names : namesOf (Text.joinPath base t) = piecesOf base ++ Text.splitAt slash t := by
    have whole : piecesOf t = Text.splitAt slash t := by
      apply List.filter_eq_self.mpr
      intro name member
      exact decide_eq_true (down name member).1
    rw [namesOf_eq_filter closed, ← piecesOf, piecesOf_joinPath some_base relative, whole]
  rw [resolved, names, isAbsolute_joinPath some_base relative, List.foldl_append, foldl_stepTo down]
  rfl

/-- Different texts that go down to names stand at different places below one base. -/
theorem resolved_joinPath_inj (some_base : base ≠ []) (first : t.DescendsTo) (second : u.DescendsTo)
    (same : resolved workdir (Text.joinPath base t) = resolved workdir (Text.joinPath base u)) : t = u := by
  rw [resolved_joinPath some_base first, resolved_joinPath some_base second,
    List.append_cancel_left_eq] at same
  rw [← Text.join_splitAt (p := slash) (t := t), same, Text.join_splitAt]

end Disk

end GrammarBundle
