import GrammarBundle.Proofs.Files.Descents
import GrammarBundle.Proofs.Files.Passable
import GrammarBundle.Proofs.Pattern.Found

/-!
Searches with patterns that only go down. What such a pattern finds only goes down as well, for it is put
together from names of the pattern and names on the disk.
-/

namespace GrammarBundle

/-- A disk whose names are such as a listing can show, as they are on a system. -/
def Disk.Named (d : Disk) : Prop := ∀ entry ∈ d.entries, ∀ name ∈ entry.1, Listed name

theorem Listed.stepsDown {name : Text} (listed : Listed name) : name.StepsDown :=
  ⟨listed.some_name, listed.stay, listed.up, listed.canonical⟩

namespace Pattern

open Text (Descends DescendsTo)

variable {pattern name t : Text}

theorem splitLast_whole (free : slash ∉ name) : splitLast name = ([], name) := by
  have none_before : (name.reverse.takeWhile (· ≠ .char '/')).reverse = name := by
    rw [List.takeWhile_eq_self_iff.mpr, List.reverse_reverse]
    intro p member
    refine decide_eq_true ?_
    rintro rfl
    exact free (List.mem_reverse.mp member)
  unfold splitLast
  simp only [none_before, Nat.sub_self, List.take_zero, List.reverse_nil, List.dropWhile_nil, if_true]

theorem splitLast_below (some_front : t ≠ []) (closed : t.getLast? ≠ some slash) (free : slash ∉ name) :
    splitLast (t ++ slash :: name) = (t, name) := by
  have passed : ∀ p ∈ name.reverse, decide (p ≠ CodePoint.char '/') = true := by
    intro p member
    refine decide_eq_true ?_
    rintro rfl
    exact free (List.mem_reverse.mp member)
  have last : ((t ++ slash :: name).reverse.takeWhile (· ≠ .char '/')).reverse = name := by
    rw [List.reverse_append, List.reverse_cons, List.append_assoc, List.takeWhile_append_of_pos passed,
      List.singleton_append, List.takeWhile_cons_of_neg (by simp), List.append_nil, List.reverse_reverse]
  have front : (t ++ slash :: name).take ((t ++ slash :: name).length - name.length) = t ++ [slash] := by
    have lengths : (t ++ slash :: name).length - name.length = (t ++ [slash]).length := by
      simp only [List.length_append, List.length_cons, List.length_nil]
      omega
    have whole : t ++ slash :: name = t ++ [slash] ++ name := by simp
    rw [lengths, whole, List.take_left]
  have bare : ((t ++ [slash]).reverse.dropWhile (· = .char '/')).reverse = t := by
    obtain ⟨before, p, rfl⟩ := List.eq_nil_or_concat t |>.resolve_left some_front
    rw [List.concat_eq_append] at closed ⊢
    rw [List.getLast?_concat] at closed
    have other : ¬decide (p = CodePoint.char '/') = true := by
      rw [decide_eq_true_iff]
      rintro rfl
      exact closed rfl
    rw [List.reverse_append, List.reverse_singleton, List.singleton_append,
      List.dropWhile_cons_of_pos (by simp), List.reverse_append, List.reverse_singleton,
      List.singleton_append, List.dropWhile_cons, if_neg other, List.reverse_cons, List.reverse_reverse]
  unfold splitLast
  dsimp only
  rw [last, front, bare, if_neg some_front]

theorem descends_splitLast (down : pattern.Descends) :
    Descends (splitLast pattern).1 ∧ Descends (splitLast pattern).2 := by
  obtain ⟨front, last, pieces, steps, ends⟩ := down
  have free : slash ∉ last := by
    apply Text.not_mem_of_mem_splitAt (t := pattern)
    rw [pieces]
    exact List.mem_append_right _ List.mem_cons_self
  have last_down : last.Descends :=
    ⟨[], last, Text.splitAt_whole free, fun _ member => absurd member List.not_mem_nil, ends⟩
  have whole : pattern = Text.join [slash] (front ++ [last]) := by
    rw [← pieces, Text.join_splitAt]
  by_cases alone : front = []
  · subst alone
    obtain rfl : pattern = last := whole
    rw [splitLast_whole free]
    exact ⟨Text.descends_nil, last_down⟩
  · have front_free : ∀ piece ∈ front, slash ∉ piece := by
      intro piece member
      apply Text.not_mem_of_mem_splitAt (t := pattern)
      rw [pieces]
      exact List.mem_append_left _ member
    have down : DescendsTo (Text.join [slash] front) := by
      unfold Text.DescendsTo
      rwa [Text.splitAt_join alone front_free]
    rw [Text.join_append alone (List.cons_ne_nil _ _), List.append_assoc] at whole
    have split_whole : splitLast pattern = (Text.join [slash] front, last) := by
      rw [whole]
      exact splitLast_below down.ne_nil down.closed free
    rw [split_whole]
    exact ⟨down.descends, last_down⟩

namespace Scope

variable {s : Scope}

theorem closed_of_named (named : s.disk.Named) : Closed s True (fun _ => True) Descends where
  base := trivial
  below _ _ _ _ := trivial
  names directory onlyDirectories _ := by
    unfold names
    dsimp only
    split
    · exact fun _ member => absurd member List.not_mem_nil
    · trivial
    next all listed =>
      intro name member
      have inside : name ∈ all := by
        split at member
        · exact (List.mem_filter.mp member).1
        · exact member
      have known := Disk.names_of_list named listed name inside
      exact (known.stepsDown.descendsTo known.free).descends
  nothing := Text.descends_nil
  joinPath _ _ := Descends.joinPath
  parts _ := descends_splitLast

theorem glob_down {found : List Text} (named : s.disk.Named) (down : pattern.Descends)
    (matched : s.glob pattern = .ok found) : ∀ t ∈ found, Descends t := by
  have yields := (closed_of_named named).glob down
  rw [matched] at yields
  exact yields

end Scope

end Pattern

end GrammarBundle
