import GrammarBundle.Bundle.Generate
import GrammarBundle.Proofs.Files.Passable
import GrammarBundle.Proofs.Pattern.Found
import GrammarBundle.Proofs.Pattern.Scan

/-!
Searches never fail on patterns and names that the system takes. What is found is put together from the
pattern and from names on the disk, and a directory that the system refuses to list has no names.
-/

namespace GrammarBundle

open Text (Passable)

/-- A search that ends with passable texts. -/
def Pattern.Finds (result : Except PathFault (List Text)) : Prop :=
  ∃ found, result = .ok found ∧ ∀ t ∈ found, t.Passable

namespace Pattern

variable {pattern name directory : Text}

theorem finds_of_yields {result : Except PathFault (List Text)}
    (yields : Yields False Text.Passable result) : Finds result := by
  cases result with
  | error fault => exact yields.elim
  | ok found => exact ⟨found, rfl, yields⟩

theorem passable_joined (first : directory.Passable) (last : name.Passable) :
    (joined directory name).Passable := by
  unfold joined
  split
  · exact last
  · split
    · exact first
    · exact first.joinPath last

theorem passable_splitLast (passable : pattern.Passable) :
    (splitLast pattern).1.Passable ∧ (splitLast pattern).2.Passable := by
  have front (n : Nat) : Text.Passable (pattern.take n) := passable.of_subset (List.take_subset _ _)
  unfold splitLast
  dsimp only
  constructor
  · split
    · exact front _
    · intro p inside
      have dropped := List.dropWhile_subset _ (List.mem_reverse.mp inside)
      exact front _ p (List.mem_reverse.mp dropped)
  · intro p inside
    have taken := List.takeWhile_subset _ (List.mem_reverse.mp inside)
    exact passable p (List.mem_reverse.mp taken)

/-- A scope on a disk whose names are passable, with a base that is passable. -/
structure Scope.Passable (s : Scope) : Prop where
  disk : s.disk.Passable
  base : s.base.Passable

namespace Scope

variable {s : Scope}

theorem names_yield (passable : s.Passable) (onlyDirectories : Bool) (inside : directory.Passable) :
    Yields False Text.Passable (s.names directory onlyDirectories) := by
  unfold names
  generalize made : (if directory = [] then (("." : Text)) else directory) = path
  have path_passable : path.Passable := by
    rw [← made]
    split
    · decide
    · exact inside
  have listing := Disk.list_refused s.disk s.workdir path_passable
  dsimp only
  cases listed : s.disk.list s.workdir path with
  | error fault =>
    rw [listed] at listing
    obtain ⟨reason, rfl⟩ := listing
    exact fun _ member => absurd member List.not_mem_nil
  | ok names =>
    have known := Disk.names_of_list passable.disk listed
    intro t member
    apply known t
    split at member
    · exact (List.mem_filter.mp member).1
    · exact member

theorem Passable.closed (passable : s.Passable) : Closed s False Text.Passable Text.Passable where
  base := passable.base
  below _ _ := passable_joined
  names _ onlyDirectories := names_yield passable onlyDirectories
  nothing := by decide
  joinPath _ _ := Text.Passable.joinPath
  parts _ := passable_splitLast

theorem glob_finds (passable : s.Passable) (taken : pattern.Passable) : Finds (s.glob pattern) :=
  finds_of_yields (passable.closed.glob taken)

end Scope

theorem subset_of_mem_splitFrom {depth : Nat} {t part : Text} (member : part ∈ splitFrom depth t) :
    part ⊆ t := by
  induction t generalizing depth part with
  | nil =>
    rw [splitFrom, List.mem_singleton] at member
    rw [member]
    exact List.Subset.refl _
  | cons p rest ih =>
    unfold splitFrom at member
    split at member
    · rcases List.mem_cons.mp member with rfl | later
      · exact List.nil_subset _
      · exact List.subset_cons_of_subset p (ih later)
    · split at member
      · obtain rfl := List.mem_singleton.mp member
        exact List.cons_subset_cons p (List.nil_subset _)
      next first parts same =>
        rcases List.mem_cons.mp member with rfl | later
        · exact List.cons_subset_cons p (ih (same ▸ List.mem_cons_self))
        · exact List.subset_cons_of_subset p (ih (same ▸ List.mem_cons_of_mem _ later))

/-- What a pattern stands for is put together from parts of it. -/
theorem passable_expandBraces (taken : pattern.Passable) :
    ∀ t ∈ expandBraces pattern, t.Passable := by
  induction pattern using expandBraces.induct with
  | case1 pattern none_found =>
    intro t member
    rw [expandBraces, none_found] at member
    obtain rfl := List.mem_singleton.mp member
    exact taken
  | case2 pattern g found ih =>
    intro t member
    rw [expandBraces, found] at member
    obtain ⟨⟨part, listed⟩, _, inside⟩ := List.mem_flatMap.mp (List.mem_eraseDups.mp member)
    rw [(expandable_of_group found).whole] at taken
    obtain ⟨head, rest⟩ := Text.passable_append.mp taken
    obtain ⟨body, tail⟩ := Text.passable_append.mp (rest.of_subset (List.subset_cons_self _ _))
    have chosen : (g.choose part).Passable :=
      (head.append (body.of_subset (subset_of_mem_splitFrom listed))).append
        (tail.of_subset (List.subset_cons_self _ _))
    exact ih part listed chosen t inside

theorem subset_freshFiles (s : Scope) (seen found : List Text) : freshFiles s seen found ⊆ found := by
  induction found generalizing seen with
  | nil => exact List.Subset.refl _
  | cons path rest ih =>
    unfold freshFiles
    split
    · exact List.subset_cons_of_subset path (ih seen)
    · exact List.cons_subset_cons path (ih _)

end Pattern

namespace Bundle

open Pattern (Finds)

theorem expandFrom_finds {s : Pattern.Scope} (passable : s.Passable) {patterns : List Text}
    (taken : ∀ pattern ∈ patterns, pattern.Passable) (seen : List Text) :
    Finds (expandFrom s seen patterns) := by
  induction patterns generalizing seen with
  | nil => exact ⟨[], rfl, fun _ member => absurd member List.not_mem_nil⟩
  | cons pattern rest ih =>
    obtain ⟨found, matched, known⟩ :=
      Pattern.Scope.glob_finds passable (taken pattern List.mem_cons_self)
    obtain ⟨more, later, known'⟩ := ih (fun other member => taken other (List.mem_cons_of_mem _ member))
      (seen ++ Pattern.freshFiles s seen found)
    refine ⟨Pattern.freshFiles s seen found ++ more, ?_, List.forall_mem_append.mpr ⟨?_, known'⟩⟩
    · rw [expandFrom, matched]
      dsimp only
      rw [later]
    · exact fun t member => known t (Pattern.subset_freshFiles s seen found member)

/-- Patterns that are passable can be expanded, and match files whose paths are passable. -/
theorem expandPatterns_finds {disk : Disk} (workdir : Place) {patterns : List Text} {base : Option Text}
    (named : disk.Passable) (below : (baseOf base).Passable)
    (taken : ∀ pattern ∈ patterns, pattern.Passable) :
    Finds (expandPatterns disk workdir patterns base) := by
  refine expandFrom_finds ⟨named, below⟩ (fun t member => ?_) []
  obtain ⟨pattern, listed, inside⟩ := List.mem_flatMap.mp member
  exact Pattern.passable_expandBraces (taken pattern listed) t inside

end Bundle

end GrammarBundle
