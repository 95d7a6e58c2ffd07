import GrammarBundle.Proofs.Files.Walks

/-!
What a written path names, links aside. Its names lead from the root or the working directory one by one: a
point stays, two points go up, and any other name goes down. On a disk without links a walk that ends does so
at the place that its path names, whatever else stands on the disk.
-/

namespace GrammarBundle.Disk

/-- Where a name leads from a place. -/
def stepTo (here : Place) (name : Text) : Place :=
  if name = "." then here
  else if name = ".." then here.dropLast
  else here ++ [FileName.canonical name]

/-- The place that a written path names. -/
def resolved (workdir : Place) (t : Text) : Place :=
  (namesOf t).foldl stepTo (if isAbsolute t then [] else workdir)

/-- The place where a walk ends. -/
def Walked.place : Walked → Place
  | .found place _ => place
  | .free directory name => directory ++ [name]

variable {d : Disk} {follow : Bool} {links : Nat} {workdir place : Place} {t : Text}

theorem place_of_walk {here : Place} {names : List Text} {walked : Walked} (linkless : d.Linkless)
    (ends : d.walk follow links here names = .ok walked) : walked.place = names.foldl stepTo here := by
  induction names generalizing here with
  | nil =>
    rw [walk] at ends
    cases ends
    rfl
  | cons name rest ih =>
    rw [walk] at ends
    rw [List.foldl_cons, stepTo]
    split at ends
    next stay =>
      rw [if_pos stay]
      exact ih ends
    next stay =>
      rw [if_neg stay]
      split at ends
      next up =>
        rw [if_pos up]
        exact ih ends
      next up =>
        rw [if_neg up]
        split at ends
        · cases ends
        · dsimp only at ends
          split at ends
          · split at ends
            next last =>
              subst last
              cases ends
              rfl
            · cases ends
          · exact ih ends
          · split at ends
            next last =>
              subst last
              cases ends
              rfl
            · cases ends
          next found => exact absurd found (linkless _ _)

theorem place_of_walkPath {walked : Walked} (linkless : d.Linkless)
    (ends : d.walkPath workdir follow t = .ok walked) : walked.place = resolved workdir t :=
  place_of_walk linkless (walk_of_walkPath ends)

theorem resolved_of_look {node : Node} (linkless : d.Linkless)
    (found : d.look workdir follow t = .ok (place, node)) : place = resolved workdir t := by
  unfold look at found
  split at found
  · cases found
  · cases found
  next ended =>
    cases found
    exact place_of_walkPath linkless ended

theorem resolved_of_writePlace (linkless : d.Linkless) (ends : d.writePlace workdir t = .ok place) :
    place = resolved workdir t := by
  unfold writePlace at ends
  split at ends
  · cases ends
  next ended =>
    cases ends
    exact place_of_walkPath linkless ended
  next ended =>
    cases ends
    exact place_of_walkPath linkless ended
  · cases ends

/-- A place that a file can take: nothing stands there, or a file. -/
def Vacant (d : Disk) (place : Place) : Prop :=
  place ≠ [] ∧ (d.node? place = none ∨ ∃ old, d.node? place = some (.file old))

/-- The second disk is the first with a file at a place, where there was nothing or a file before. -/
structure Replaced (d d' : Disk) (place : Place) (bytes : List UInt8) : Prop where
  vacant : d.Vacant place
  nodes : ∀ other, d'.node? other = if other = place then some (.file bytes) else d.node? other

theorem replaced_set (bytes : List UInt8) (vacant : d.Vacant place) :
    Replaced d (d.set place (.file bytes)) place bytes :=
  ⟨vacant, fun _ => node_set vacant.1⟩

section

variable {d' : Disk} {bytes : List UInt8}

theorem Replaced.linkless (replaced : Replaced d d' place bytes) (linkless : d.Linkless) :
    d'.Linkless := by
  intro other target found
  rw [replaced.nodes] at found
  split at found
  · cases found
  · exact linkless other target found

theorem Vacant.no_directory (vacant : d.Vacant place) : d.node? place ≠ some .directory := by
  intro found
  rcases vacant.2 with free | ⟨old, held⟩
  · rw [free] at found
    cases found
  · rw [held] at found
    cases found

/-- A walk that ends at a place goes the same way when a file is put there, and finds it. -/
theorem walk_replaced {here : Place} {names : List Text} {walked : Walked} (linkless : d.Linkless)
    (replaced : Replaced d d' place bytes) (ends : d.walk follow links here names = .ok walked)
    (there : walked.place = place) (other : walked ≠ .found place .directory) :
    d'.walk follow links here names = .ok (.found place (.file bytes)) := by
  induction names generalizing here with
  | nil =>
    rw [walk] at ends
    cases ends
    exact absurd (congrArg (Walked.found · .directory) there) other
  | cons name rest ih =>
    rw [walk] at ends ⊢
    split at ends
    next stay =>
      rw [if_pos stay]
      exact ih ends
    next stay =>
      rw [if_neg stay]
      split at ends
      next up =>
        rw [if_pos up]
        exact ih ends
      next up =>
        rw [if_neg up]
        split at ends
        · cases ends
        next short =>
          rw [if_neg short]
          dsimp only at ends ⊢
          split at ends
          next free =>
            split at ends
            next last =>
              cases ends
              obtain rfl : here ++ [FileName.canonical name] = place := there
              rw [replaced.nodes, if_pos rfl]
              exact if_pos last
            · cases ends
          next found =>
            have apart : here ++ [FileName.canonical name] ≠ place := by
              intro same
              exact replaced.vacant.no_directory (same ▸ found)
            rw [replaced.nodes, if_neg apart, found]
            exact ih ends
          next held =>
            split at ends
            next last =>
              cases ends
              obtain rfl : here ++ [FileName.canonical name] = place := there
              rw [replaced.nodes, if_pos rfl]
              exact if_pos last
            · cases ends
          next found => exact absurd found (linkless _ _)

theorem walkPath_replaced {walked : Walked} (linkless : d.Linkless)
    (replaced : Replaced d d' place bytes) (ends : d.walkPath workdir follow t = .ok walked)
    (there : walked.place = place) (other : walked ≠ .found place .directory) :
    d'.walkPath workdir follow t = .ok (.found place (.file bytes)) := by
  have walks := walk_replaced linkless replaced (walk_of_walkPath ends) there other
  unfold walkPath at ends ⊢
  split at ends
  · cases ends
  · split at ends
    · cases ends
    next whole =>
      split at ends
      · cases ends
      next some_text =>
        split at ends
        · cases ends
        next short => rw [if_neg whole, if_neg some_text, if_neg short, walks]

/-- What is written to a path is read from it. -/
theorem read_replaced (linkless : d.Linkless) (replaced : Replaced d d' place bytes)
    (ends : d.writePlace workdir t = .ok place) : d'.read workdir t = .ok bytes := by
  have found : d'.walkPath workdir true t = .ok (.found place (.file bytes)) := by
    unfold writePlace at ends
    split at ends
    · cases ends
    next found =>
      cases ends
      exact walkPath_replaced linkless replaced found rfl (by simp)
    next found =>
      cases ends
      exact walkPath_replaced linkless replaced found rfl (by simp)
    · cases ends
  rw [read, look, found]

end

end GrammarBundle.Disk
