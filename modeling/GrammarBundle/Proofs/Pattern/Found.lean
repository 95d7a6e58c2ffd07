import GrammarBundle.Proofs.Pattern.Extensions

/-!
What searches find. A property that names on the disk and the names of a pattern have, and that joining them
keeps, is one of everything that the pattern finds.
-/

namespace GrammarBundle.Pattern

/-- A search finds texts with a property, or it fails where it may fail. -/
def Yields (fails : Prop) (P : Text → Prop) : Except PathFault (List Text) → Prop
  | .ok found => ∀ t ∈ found, P t
  | .error _ => fails

/-- Properties of directories and of what is found in them, for the searches of a scope. -/
structure Closed (s : Scope) (fails : Prop) (inside P : Text → Prop) : Prop where
  base : inside s.base
  below : ∀ directory name, inside directory → P name → inside (joined directory name)
  names : ∀ directory onlyDirectories, inside directory →
    Yields fails P (s.names directory onlyDirectories)
  nothing : P []
  joinPath : ∀ t u, P t → P u → P (Text.joinPath t u)
  parts : ∀ pattern, P pattern → P (splitLast pattern).1 ∧ P (splitLast pattern).2

variable {fails : Prop} {inside P Q : Text → Prop}

theorem Yields.bind {result : Except PathFault (List Text)}
    {next : List Text → Except PathFault (List Text)} (first : Yields fails P result)
    (rest : ∀ found, (∀ t ∈ found, P t) → Yields fails Q (next found)) :
    Yields fails Q (result >>= next) := by
  cases result with
  | error fault => exact first
  | ok found => exact rest found first

theorem yields_mapM {search : Text → Except PathFault (List Text)} {items : List Text}
    (each : ∀ item ∈ items, Yields fails P (search item)) :
    Yields fails P (do let found ← items.mapM search; return found.flatten) := by
  induction items with
  | nil => exact fun _ member => absurd member List.not_mem_nil
  | cons item items ih =>
    obtain ⟨here, others⟩ := List.forall_mem_cons.mp each
    have later := ih others
    rw [List.mapM_cons]
    cases searched : search item with
    | error fault =>
      rw [searched] at here
      exact here
    | ok found =>
      rw [searched] at here
      cases mapped : items.mapM search with
      | error fault =>
        rw [mapped] at later
        exact later
      | ok rest =>
        rw [mapped] at later
        exact List.forall_mem_append.mpr ⟨here, later⟩

theorem forall_mem_alone {t : Text} (own : P t) (there : Prop) [Decidable there] :
    ∀ u ∈ (if there then [t] else []), P u := by
  intro u member
  split at member
  · obtain rfl := List.mem_singleton.mp member
    exact own
  · cases member

namespace Closed

variable {s : Scope} {pattern name directory : Text}

theorem joined (closed : Closed s fails inside P) (first : P directory) (last : P name) :
    P (Pattern.joined directory name) := by
  unfold Pattern.joined
  split
  · exact last
  · split
    · exact first
    · exact closed.joinPath directory name first last

theorem descend (closed : Closed s fails inside P) (onlyDirectories : Bool) (fuel : Nat)
    (within : inside directory) : Yields fails P (s.below onlyDirectories fuel directory) := by
  induction fuel generalizing directory with
  | zero => exact fun _ member => absurd member List.not_mem_nil
  | succ fuel ih =>
    refine (closed.names directory onlyDirectories within).bind fun names known => yields_mapM ?_
    intro name member
    have own := known name (List.mem_filter.mp member).1
    refine (ih (closed.below directory name within own)).bind fun inner deeper t found => ?_
    rcases List.mem_cons.mp found with rfl | later
    · exact own
    · obtain ⟨rest, held, rfl⟩ := List.mem_map.mp later
      exact closed.joined own (deeper rest held)

theorem matchIn (closed : Closed s fails inside P) (onlyDirectories : Bool) (within : inside directory)
    (own : P pattern) : Yields fails P (s.matchIn directory pattern onlyDirectories) := by
  unfold Scope.matchIn
  split
  · refine (closed.descend onlyDirectories Disk.pathLimit within).bind fun found known => ?_
    exact List.forall_mem_append.mpr ⟨forall_mem_alone closed.nothing _, known⟩
  · split
    · refine (closed.names directory onlyDirectories within).bind fun names known t member => ?_
      exact known t (List.mem_filter.mp member).1
    · split
      · exact forall_mem_alone closed.nothing _
      · exact forall_mem_alone own _

theorem matchAll (closed : Closed s fails inside P) (onlyDirectories : Bool) (own : P name)
    {directories : List Text} (known : ∀ directory ∈ directories, P directory) :
    Yields fails P (s.matchAll onlyDirectories name directories) := by
  refine yields_mapM fun directory member => ?_
  have here := known directory member
  have within := closed.below s.base directory closed.base here
  refine (closed.matchIn onlyDirectories within own).bind fun names found t inside => ?_
  obtain ⟨rest, held, rfl⟩ := List.mem_map.mp inside
  exact closed.joinPath directory rest here (found rest held)

theorem search (closed : Closed s fails inside P) (onlyDirectories : Bool) (pattern : Text)
    (own : P pattern) : Yields fails P (s.search onlyDirectories pattern) := by
  obtain ⟨front, last⟩ := closed.parts pattern own
  rw [Scope.search.eq_def]
  cases parts : splitLast pattern with
  | mk directory name =>
    rw [parts] at front last
    dsimp only at front last ⊢
    split
    · exact forall_mem_alone own _
    · split
      · exact closed.matchIn onlyDirectories closed.base last
      · split
        next shorter =>
          exact (search closed true directory front).bind fun directories known =>
            closed.matchAll onlyDirectories last known
        · refine closed.matchAll onlyDirectories last fun other member => ?_
          obtain rfl := List.mem_singleton.mp member
          exact front
termination_by pattern.length
decreasing_by simp_all

theorem glob (closed : Closed s fails inside P) (own : P pattern) : Yields fails P (s.glob pattern) := by
  refine (closed.search false pattern own).bind fun found known => ?_
  split
  · split
    · exact fun t member => known t (List.mem_cons_of_mem _ member)
    · exact known
  · exact known

end Closed

end GrammarBundle.Pattern
