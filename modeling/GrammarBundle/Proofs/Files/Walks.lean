import GrammarBundle.Files.Disk
import GrammarBundle.Proofs.Files.FileNames

/-!
Walks on a disk without links. A disk may grow by files whose names are not those of grammar files; a
walk on the grown disk ends where it ended before, or at one of those files.
-/

namespace GrammarBundle

def IsGrammarPlace (place : Place) : Prop :=
  Path.suffixOf (place.getLastD []) = Bundle.grammarExtension

namespace Disk

def Linkless (d : Disk) : Prop := ∀ place target, d.node? place ≠ some (.link target)

theorem linkless_of_entries {d : Disk}
    (plain : ∀ entry ∈ d.entries, ∀ target, entry.2 ≠ .link target) : d.Linkless := by
  intro place target found
  unfold node? at found
  split at found
  · cases found
  · obtain ⟨entry, held, kind⟩ := Option.map_eq_some_iff.mp found
    exact plain entry (List.mem_of_find?_eq_some held) target kind

theorem find_setIn {place other : Place} {node : Node} {entries : List (Place × Node)} :
    ((setIn place node entries).find? fun (p, _) => p = other).map (·.2) =
      if other = place then some node
      else (entries.find? fun (p, _) => p = other).map (·.2) := by
  induction entries with
  | nil => by_cases same : other = place <;> simp [setIn, same, eq_comm]
  | cons entry entries ih =>
    obtain ⟨p, old⟩ := entry
    by_cases here : p = place
    · subst here
      by_cases same : other = p <;> simp [setIn, same, eq_comm]
    · by_cases same : p = other
      · have apart : other ≠ place := same ▸ here
        simp [setIn, same, apart]
      · simp only [setIn, here, if_false, List.find?_cons, same, decide_false]
        exact ih

/-- Putting a node at a place changes what stands there, and nothing else. -/
theorem node_set {d : Disk} {place other : Place} {node : Node} (inside : place ≠ []) :
    (d.set place node).node? other = if other = place then some node else d.node? other := by
  by_cases root : other = []
  · subst root
    rw [if_neg (Ne.symm inside)]
    rfl
  · simp only [node?, root, if_false, set]
    exact find_setIn

/-- Writing a file: a place that was free or held a file holds a file. -/
structure Written (before after : Option Node) : Prop where
  before : before = none ∨ ∃ old, before = some (.file old)
  after : ∃ new, after = some (.file new)

/-- The second disk is the first with files written that are not grammar files. -/
def Grown (d d' : Disk) : Prop :=
  ∀ place, d'.node? place = d.node? place ∨
    (¬IsGrammarPlace place ∧ Written (d.node? place) (d'.node? place))

theorem Grown.refl (d : Disk) : Grown d d := fun _ => .inl rfl

theorem Grown.trans {d d' d'' : Disk} (first : Grown d d') (second : Grown d' d'') :
    Grown d d'' := by
  intro place
  rcases first place with same | ⟨apart, written⟩
  · rw [← same]
    exact second place
  · rcases second place with same | ⟨_, again⟩
    · rw [same]
      exact .inr ⟨apart, written⟩
    · exact .inr ⟨apart, written.before, again.after⟩

theorem Grown.linkless {d d' : Disk} (grown : Grown d d') (linkless : d.Linkless) :
    d'.Linkless := by
  intro place target found
  rcases grown place with same | ⟨_, _, new, filled⟩
  · exact linkless place target (same ▸ found)
  · rw [filled] at found
    cases found

/-- How walks on a disk and on a grown one end: alike, or at a file that was written. -/
inductive Agree {ε : Type} (cause : SystemReason → ε) : Except ε Walked → Except ε Walked → Prop
  | same (r) : Agree cause r r
  | overwritten {place old new} : ¬IsGrammarPlace place →
      Agree cause (.ok (.found place (.file old))) (.ok (.found place (.file new)))
  | created {directory name new} : ¬IsGrammarPlace (directory ++ [name]) →
      Agree cause (.ok (.free directory name)) (.ok (.found (directory ++ [name]) (.file new)))
  | blocked : Agree cause (.error (cause .noEntry)) (.error (cause .notDirectory))

variable {d d' : Disk} {follow : Bool} {links : Nat}

theorem walk_agree (follow : Bool) (links : Nat) (linkless : d.Linkless) (grown : Grown d d')
    (here : Place) (names : List Text) :
    Agree id (d.walk follow links here names) (d'.walk follow links here names) := by
  induction names generalizing here with
  | nil =>
    rw [walk, walk]
    exact .same _
  | cons name rest ih =>
    rw [walk, walk]
    split
    · exact ih here
    · split
      · exact ih here.dropLast
      · split
        · exact .same _
        · dsimp only
          -- Only at a written file do the walks part, and no walk goes on through a file.
          rcases grown (here ++ [FileName.canonical name]) with
            same | ⟨apart, free | ⟨old, held⟩, new, filled⟩
          · rw [same]
            cases found : d.node? (here ++ [FileName.canonical name]) with
            | none => exact .same _
            | some node =>
              cases node with
              | file bytes => exact .same _
              | directory => exact ih _
              | link target => exact absurd found (linkless _ _)
          · rw [free, filled]
            by_cases last : rest = []
            · simp only [last, if_true]
              exact .created apart
            · simp only [last, if_false]
              exact .blocked
          · rw [held, filled]
            by_cases last : rest = []
            · simp only [last, if_true]
              exact .overwritten apart
            · simp only [last, if_false]
              exact .same _

theorem walkPath_agree (follow : Bool) (linkless : d.Linkless) (grown : Grown d d') (workdir : Place)
    (t : Text) :
    Agree PathFault.system (d.walkPath workdir follow t) (d'.walkPath workdir follow t) := by
  unfold walkPath
  cases FileName.encode t with
  | error fault => exact .same _
  | ok bytes =>
    dsimp only
    split
    · exact .same _
    · split
      · exact .same _
      · split
        · exact .same _
        · have agree := walk_agree follow linkLimit linkless grown
            (if isAbsolute t then [] else workdir) (namesOf t)
          generalize d.walk follow linkLimit _ (namesOf t) = ended at agree
          generalize d'.walk follow linkLimit _ (namesOf t) = ended' at agree
          cases agree with
          | same r => exact .same _
          | overwritten apart => exact .overwritten apart
          | created apart => exact .created apart
          | blocked => exact .blocked

theorem look_grammar {workdir place : Place} {t : Text} {bytes : List UInt8}
    (linkless : d.Linkless) (grown : Grown d d') (grammar : IsGrammarPlace place)
    (found : d.look workdir follow t = .ok (place, .file bytes)) :
    d'.look workdir follow t = .ok (place, .file bytes) := by
  have agree := walkPath_agree follow linkless grown workdir t
  unfold look at found ⊢
  generalize d.walkPath workdir follow t = ended at agree found
  generalize d'.walkPath workdir follow t = ended' at agree
  cases agree with
  | same r => exact found
  | overwritten apart => cases found; exact absurd grammar apart
  | created apart => cases found
  | blocked => cases found

theorem writePlace_grown {workdir place : Place} {t : Text} (linkless : d.Linkless)
    (grown : Grown d d') :
    d'.writePlace workdir t = .ok place ↔ d.writePlace workdir t = .ok place := by
  have agree := walkPath_agree true linkless grown workdir t
  unfold writePlace
  generalize d.walkPath workdir true t = ended at agree
  generalize d'.walkPath workdir true t = ended' at agree
  cases agree with
  | same r => exact Iff.rfl
  | overwritten apart => exact Iff.rfl
  | created apart => exact Iff.rfl
  | blocked => simp

/-- Names lead to a directory: whatever last name follows them, the walk goes on from there. -/
def Reaches (d : Disk) (follow : Bool) (links : Nat) (here : Place) (names : List Text)
    (directory : Place) : Prop :=
  ∀ last, d.walk follow links here (names ++ [last]) = d.walk follow links directory [last]

/-- A walk that ends at a file comes to the directory of the file before its last name. -/
theorem walk_to_file {here place : Place} {names : List Text} {bytes : List UInt8}
    (linkless : d.Linkless)
    (ends : d.walk follow links here names = .ok (.found place (.file bytes))) :
    ∃ (front : List Text) (name : Text) (directory : Place),
      names = front ++ [name] ∧ name ≠ "." ∧ name ≠ ".." ∧
        place = directory ++ [FileName.canonical name] ∧
        d.node? place = some (.file bytes) ∧ d.Reaches follow links here front directory := by
  induction names generalizing here with
  | nil => rw [walk] at ends; cases ends
  | cons first rest ih =>
    rw [walk] at ends
    split at ends
    next stay =>
      obtain ⟨front, name, directory, rfl, low, high, ended, held, reaches⟩ := ih ends
      refine ⟨first :: front, name, directory, rfl, low, high, ended, held, ?_⟩
      intro last
      rw [List.cons_append, walk, if_pos stay, reaches]
    next stay =>
      split at ends
      next up =>
        obtain ⟨front, name, directory, rfl, low, high, ended, held, reaches⟩ := ih ends
        refine ⟨first :: front, name, directory, rfl, low, high, ended, held, ?_⟩
        intro last
        rw [List.cons_append, walk, if_neg stay, if_pos up, reaches]
      next up =>
        split at ends
        · cases ends
        next short =>
          dsimp only at ends
          split at ends
          · split at ends <;> cases ends
          next found =>
            obtain ⟨front, name, directory, rfl, low, high, ended, held, reaches⟩ := ih ends
            refine ⟨first :: front, name, directory, rfl, low, high, ended, held, ?_⟩
            intro last
            rw [List.cons_append, walk, if_neg stay, if_neg up, if_neg short]
            simp only [found]
            exact reaches last
          next found =>
            split at ends
            next alone =>
              subst alone
              cases ends
              -- The file is under the last name, so that nothing comes before it.
              exact ⟨[], first, here, rfl, stay, up, rfl, found, fun _ => rfl⟩
            · cases ends
          next found => exact absurd found (linkless _ _)

/-- One step from a directory to a last name finds what stands there, or that nothing does. -/
theorem walk_last {here : Place} {name : Text} {walked : Walked} (linkless : d.Linkless)
    (stay : name ≠ ".") (up : name ≠ "..")
    (ends : d.walk follow links here [name] = .ok walked) :
    (d.node? (here ++ [FileName.canonical name]) = none ∧
        walked = .free here (FileName.canonical name)) ∨
      ∃ node, d.node? (here ++ [FileName.canonical name]) = some node ∧
        walked = .found (here ++ [FileName.canonical name]) node := by
  rw [walk, if_neg stay, if_neg up] at ends
  split at ends
  · cases ends
  · dsimp only at ends
    split at ends
    next free => cases ends; exact .inl ⟨free, rfl⟩
    next found => rw [walk] at ends; cases ends; exact .inr ⟨_, found, rfl⟩
    next found => cases ends; exact .inr ⟨_, found, rfl⟩
    next found => exact absurd found (linkless _ _)

/-- What the end of a walk says about its place. -/
def Stands (d : Disk) : Walked → Prop
  | .free directory name => d.node? (directory ++ [name]) = none
  | .found place (.file bytes) => d.node? place = some (.file bytes) ∧ place ≠ []
  | .found _ _ => True

theorem walk_stands {here : Place} {names : List Text} {walked : Walked} (linkless : d.Linkless)
    (ends : d.walk follow links here names = .ok walked) : d.Stands walked := by
  induction names generalizing here with
  | nil => rw [walk] at ends; cases ends; trivial
  | cons name rest ih =>
    rw [walk] at ends
    split at ends
    · exact ih ends
    · split at ends
      · exact ih ends
      · split at ends
        · cases ends
        · dsimp only at ends
          split at ends
          next free =>
            split at ends
            · cases ends; exact free
            · cases ends
          · exact ih ends
          next found =>
            split at ends
            · cases ends; exact ⟨found, by simp⟩
            · cases ends
          next found => exact absurd found (linkless _ _)

theorem walk_of_walkPath {workdir : Place} {t : Text} {walked : Walked}
    (ends : d.walkPath workdir follow t = .ok walked) :
    d.walk follow linkLimit (if isAbsolute t then [] else workdir) (namesOf t) = .ok walked := by
  unfold walkPath at ends
  split at ends
  · cases ends
  · split at ends
    · cases ends
    · split at ends
      · cases ends
      · split at ends
        · cases ends
        · split at ends
          next failed => cases ends
          next found => cases ends; exact found

theorem node_of_look {workdir place : Place} {t : Text} {bytes : List UInt8} (linkless : d.Linkless)
    (found : d.look workdir follow t = .ok (place, .file bytes)) :
    d.node? place = some (.file bytes) := by
  unfold look at found
  split at found
  · cases found
  · cases found
  next ended =>
    cases found
    exact (walk_stands linkless (walk_of_walkPath ended)).1

/-- A place that can be written is free or holds a file. -/
theorem node_of_writePlace {workdir place : Place} {t : Text} (linkless : d.Linkless)
    (ends : d.writePlace workdir t = .ok place) :
    place ≠ [] ∧ (d.node? place = none ∨ ∃ old, d.node? place = some (.file old)) := by
  unfold writePlace at ends
  split at ends
  · cases ends
  next directory name found =>
    cases ends
    exact ⟨by simp, .inl (walk_stands linkless (walk_of_walkPath found))⟩
  next place bytes found =>
    cases ends
    have held := walk_stands linkless (walk_of_walkPath found)
    exact ⟨held.2, .inr ⟨bytes, held.1⟩⟩
  · cases ends

/-- Writing a file that is no grammar file makes a disk grow. -/
theorem grown_of_writePlace {workdir place : Place} {t : Text} {bytes : List UInt8}
    (linkless : d.Linkless) (ends : d.writePlace workdir t = .ok place)
    (apart : ¬IsGrammarPlace place) : Grown d (d.set place (.file bytes)) := by
  intro other
  have held := node_of_writePlace linkless ends
  rw [node_set held.1]
  by_cases same : other = place
  · subst same
    rw [if_pos rfl]
    exact .inr ⟨apart, held.2, bytes, rfl⟩
  · rw [if_neg same]
    exact .inl rfl

end Disk

end GrammarBundle
