import GrammarBundle.Pattern.Search
import GrammarBundle.Proofs.Files.Extensions
import GrammarBundle.Proofs.Run.Actions

/-!
Searches on a disk with files added. A pattern matches what it matched before, in the same order; what it
matches besides leads to an added file or nowhere, and nothing is matched below that.
-/

namespace GrammarBundle.Pattern

theorem joined_assoc (s t u : Text) : joined s (joined t u) = joined (joined s t) u := by
  unfold joined
  by_cases first : s = []
  · simp [first]
  · by_cases second : t = []
    · simp [first, second]
    · by_cases third : u = []
      · simp [first, second, third]
      · have some_front : Text.joinPath s t ≠ [] := by
          unfold Text.joinPath
          split
          · exact second
          · split <;> simp [first]
        have some_back : Text.joinPath t u ≠ [] := by
          unfold Text.joinPath
          split
          · exact third
          · split <;> simp [second]
        simp only [first, second, third, some_front, some_back, if_false]
        exact Text.joinPath_assoc s t u

theorem joined_eq_joinPath {base name : Text} (some_base : base ≠ []) (some_name : name ≠ []) :
    joined base name = Text.joinPath base name := by
  unfold joined
  rw [if_neg some_base, if_neg some_name]

theorem joinPath_eq_joined {name : Text} (base : Text) (some_name : name ≠ []) :
    Text.joinPath base name = joined base name := by
  by_cases empty : base = []
  · subst empty
    unfold joined Text.joinPath
    simp
  · exact (joined_eq_joinPath empty some_name).symm

theorem joined_ne_nil {base name : Text} (some_base : base ≠ []) : joined base name ≠ [] := by
  unfold joined Text.joinPath
  rw [if_neg some_base]
  split
  · exact some_base
  next some_name =>
    split
    · exact some_name
    · split <;> simp [some_base]

theorem joined_ne_nil_of_name {base name : Text} (some_name : name ≠ []) : joined base name ≠ [] := by
  by_cases empty : base = []
  · unfold joined
    rwa [if_pos empty]
  · exact joined_ne_nil empty

theorem splitLast_free (path : Text) : slash ∉ (splitLast path).2 := by
  unfold splitLast
  dsimp only
  rw [List.mem_reverse]
  intro inside
  have apart := List.mem_takeWhile_imp inside
  simp at apart

namespace Scope

def onDisk (s : Scope) (disk : Disk) : Scope := { s with disk }

variable {s : Scope} {d' : Disk} {onlyDirectories : Bool} {directory pattern : Text}

section barren

variable (linkless : s.disk.Linkless) (barren : Disk.Barren s.disk s.workdir directory)
  (some_path : directory ≠ [])

include barren some_path

theorem names_barren : s.names directory onlyDirectories = .ok [] := by
  obtain ⟨reason, refused⟩ := barren.list
  unfold names
  rw [if_neg some_path]
  dsimp only
  rw [refused]

theorem below_barren (fuel : Nat) : s.below onlyDirectories fuel directory = .ok [] := by
  cases fuel with
  | zero => rfl
  | succ fuel =>
    unfold below
    rw [names_barren barren some_path]
    rfl

include linkless

theorem matchIn_barren (free : slash ∉ pattern) :
    s.matchIn directory pattern onlyDirectories = .ok [] := by
  unfold matchIn
  rw [barren.isDirectory]
  split
  · rw [below_barren barren some_path]
    simp [some_path, bind, Except.bind, pure, Except.pure]
  · split
    · rw [names_barren barren some_path]
      rfl
    · split
      · rfl
      next some_name =>
        rw [joined_eq_joinPath some_path some_name,
          barren.hasEntry_below linkless some_path some_name free]
        rfl

end barren

/-- What a search finds besides: a text that leads to an added file, or nowhere. -/
def Besides (s : Scope) (directory found : Text) : Prop :=
  found ≠ [] ∧ Disk.Barren s.disk s.workdir (joined directory found)

/-- The matches of a pattern are what its search finds, but perhaps for the base itself. -/
theorem glob_of_search {all : List Text} {p : Text → Bool} (proper : p [] = false)
    (searched : s.search false pattern = .ok all) :
    ∃ found, s.glob pattern = .ok found ∧ found.filter p = all.filter p := by
  unfold glob
  rw [searched]
  dsimp only [bind, Except.bind]
  split
  · split
    · refine ⟨_, rfl, ?_⟩
      rw [List.filter_cons_of_neg (by simp [proper])]
    · exact ⟨_, rfl, rfl⟩
  · exact ⟨_, rfl, rfl⟩

/-- What a deep search takes from a name in a directory: the name, and what is below it. -/
def branch (s : Scope) (onlyDirectories : Bool) (fuel : Nat) (directory name : Text) :
    Except PathFault (List Text) := do
  let inner ← s.below onlyDirectories fuel (joined directory name)
  return name :: inner.map (joined name)

/-- What a name pattern matches in a directory, as the paths that lead there. -/
def matchBelow (s : Scope) (onlyDirectories : Bool) (name directory : Text) :
    Except PathFault (List Text) := do
  let names ← s.matchIn (joined s.base directory) name onlyDirectories
  return names.map (Text.joinPath directory)

def matchAll (s : Scope) (onlyDirectories : Bool) (name : Text) (directories : List Text) :
    Except PathFault (List Text) := do
  let found ← directories.mapM (s.matchBelow onlyDirectories name)
  return found.flatten

section extended

variable (linkless : s.disk.Linkless) (extended : Disk.Extended s.disk d')

include linkless extended

theorem names_extended {names : List Text} (some_path : directory ≠ [])
    (listed : s.names directory onlyDirectories = .ok names) :
    ∃ names', (s.onDisk d').names directory onlyDirectories = .ok names' ∧
      Interposed ((s.onDisk d').Besides directory) names names' := by
  unfold Scope.names at listed ⊢
  rw [if_neg some_path] at listed ⊢
  dsimp only at listed ⊢
  have directories (t : Text) : d'.isDirectory s.workdir t = s.disk.isDirectory s.workdir t :=
    Disk.isDirectory_grown linkless extended.grown
  cases found : s.disk.list s.workdir directory with
  | error fault =>
    rw [found] at listed
    cases fault with
    | system reason =>
      obtain ⟨reason', refused⟩ := Disk.list_refused_grown linkless extended.grown found
      cases listed
      exact ⟨[], by simp only [onDisk, refused], .nil⟩
    | zeroCharacter => cases listed
    | unencodable fault => cases listed
  | ok all =>
    rw [found] at listed
    obtain ⟨place, all', leads, again, inside⟩ := extended.list linkless found
    have besides : Interposed ((s.onDisk d').Besides directory) all all' := by
      apply inside.imp
      intro name fresh
      refine ⟨fresh.listed.some_name, ?_⟩
      rw [joined_eq_joinPath some_path fresh.listed.some_name]
      exact Disk.barren_of_fresh (extended.grown.linkless linkless) leads fresh
    cases listed
    simp only [onDisk, again, directories]
    refine ⟨_, rfl, ?_⟩
    cases onlyDirectories with
    | false => exact besides
    | true => exact (besides.filter _).imp fun _ both => both.1

theorem entry_extended {text : Text} (some_text : text ≠ []) :
    Interposed ((s.onDisk d').Besides directory)
      (if s.disk.hasEntry s.workdir (joined directory text) then [text] else [])
      (if d'.hasEntry s.workdir (joined directory text) then [text] else []) := by
  rcases Disk.hasEntry_grown linkless extended.grown with same | ⟨none, barren⟩
  · rw [same]
    exact .refl _
  · rw [none, if_neg Bool.false_ne_true]
    split
    · exact .more ⟨some_text, barren⟩ .nil
    · exact .nil

/-- What is found below a path is found again; added files are found besides. -/
theorem below_extended (fuel : Nat) {found : List Text} (some_path : directory ≠ [])
    (searched : s.below onlyDirectories fuel directory = .ok found) :
    ∃ found', (s.onDisk d').below onlyDirectories fuel directory = .ok found' ∧
      Interposed ((s.onDisk d').Besides directory) found found' := by
  induction fuel generalizing directory found with
  | zero =>
    cases searched
    exact ⟨[], rfl, .nil⟩
  | succ fuel ih =>
    obtain ⟨names, listed, searched⟩ := bind_ok.mp searched
    obtain ⟨results, went, done⟩ := bind_ok.mp searched
    cases done
    obtain ⟨names', again, inside⟩ := names_extended linkless extended some_path listed
    have visible := (inside.filter (!isHidden ·)).imp fun _ both => both.1
    have kept (name : Text) (found : List Text)
        (stepped : s.branch onlyDirectories fuel directory name = .ok found) :
        ∃ found', (s.onDisk d').branch onlyDirectories fuel directory name = .ok found' ∧
          Interposed ((s.onDisk d').Besides directory) found found' := by
      obtain ⟨inner, below, done⟩ := bind_ok.mp stepped
      cases done
      obtain ⟨inner', below', deeper⟩ := ih (joined_ne_nil some_path) below
      refine ⟨_, bind_ok.mpr ⟨inner', below', rfl⟩, .keep name (deeper.map (joined name) ?_)⟩
      rintro text ⟨some_text, barren⟩
      refine ⟨joined_ne_nil_of_name some_text, ?_⟩
      rwa [joined_assoc]
    have others (name : Text) (besides : (s.onDisk d').Besides directory name) :
        ∃ found', (s.onDisk d').branch onlyDirectories fuel directory name = .ok found' ∧
          ∀ text ∈ found', (s.onDisk d').Besides directory text := by
      have nothing : (s.onDisk d').below onlyDirectories fuel (joined directory name) = .ok [] :=
        below_barren besides.2 (joined_ne_nil some_path) fuel
      refine ⟨[name], bind_ok.mpr ⟨[], nothing, rfl⟩, ?_⟩
      intro text member
      rwa [List.mem_singleton.mp member]
    obtain ⟨results', went', among⟩ := visible.mapM kept others went
    exact ⟨_, bind_ok.mpr ⟨names', again, bind_ok.mpr ⟨results', went', rfl⟩⟩, among⟩

/-- What a name pattern matches in a directory is matched again; added files are matched besides. -/
theorem matchIn_extended {found : List Text} (some_path : directory ≠ [])
    (searched : s.matchIn directory pattern onlyDirectories = .ok found) :
    ∃ found', (s.onDisk d').matchIn directory pattern onlyDirectories = .ok found' ∧
      Interposed ((s.onDisk d').Besides directory) found found' := by
  have directories (t : Text) : (s.onDisk d').disk.isDirectory (s.onDisk d').workdir t =
      s.disk.isDirectory s.workdir t := Disk.isDirectory_grown linkless extended.grown
  unfold matchIn at searched ⊢
  rw [directories]
  split at searched
  next deep =>
    obtain ⟨inner, below, done⟩ := bind_ok.mp searched
    cases done
    obtain ⟨inner', below', deeper⟩ := below_extended linkless extended _ some_path below
    rw [if_pos deep]
    exact ⟨_, bind_ok.mpr ⟨inner', below', rfl⟩, (Interposed.refl _).append deeper⟩
  next plain =>
    rw [if_neg plain]
    split at searched
    next wild =>
      obtain ⟨names, listed, done⟩ := bind_ok.mp searched
      cases done
      obtain ⟨names', again, inside⟩ := names_extended linkless extended some_path listed
      rw [if_pos wild]
      refine ⟨_, bind_ok.mpr ⟨names', again, rfl⟩, ?_⟩
      exact (inside.filter _).imp fun _ both => both.1
    next literal =>
      rw [if_neg literal]
      split at searched
      next empty =>
        cases searched
        rw [if_pos empty]
        exact ⟨_, rfl, .refl _⟩
      next some_name =>
        cases searched
        rw [if_neg some_name]
        refine ⟨_, rfl, ?_⟩
        exact entry_extended linkless extended some_name

/-- Directories that are searched besides add nothing to what is matched below all of them. -/
theorem matchAll_extended (some_base : s.base ≠ []) {name : Text} (free : slash ∉ name)
    {all all' found : List Text} (inside : Interposed ((s.onDisk d').Besides s.base) all all')
    (searched : s.matchAll onlyDirectories name all = .ok found) :
    ∃ found', (s.onDisk d').matchAll onlyDirectories name all' = .ok found' ∧
      Interposed ((s.onDisk d').Besides s.base) found found' := by
  obtain ⟨results, went, done⟩ := bind_ok.mp searched
  cases done
  have kept (directory : Text) (found : List Text)
      (stepped : s.matchBelow onlyDirectories name directory = .ok found) :
      ∃ found', (s.onDisk d').matchBelow onlyDirectories name directory = .ok found' ∧
        Interposed ((s.onDisk d').Besides s.base) found found' := by
    obtain ⟨names, matched, done⟩ := bind_ok.mp stepped
    cases done
    obtain ⟨names', matched', deeper⟩ :=
      matchIn_extended linkless extended (joined_ne_nil some_base) matched
    refine ⟨_, bind_ok.mpr ⟨names', matched', rfl⟩, deeper.map (Text.joinPath directory) ?_⟩
    rintro text ⟨some_text, barren⟩
    rw [joinPath_eq_joined directory some_text]
    refine ⟨joined_ne_nil_of_name some_text, ?_⟩
    rwa [joined_assoc]
  have others (directory : Text) (besides : (s.onDisk d').Besides s.base directory) :
      ∃ found', (s.onDisk d').matchBelow onlyDirectories name directory = .ok found' ∧
        ∀ text ∈ found', (s.onDisk d').Besides s.base text := by
    have nothing : (s.onDisk d').matchIn (joined s.base directory) name onlyDirectories = .ok [] :=
      matchIn_barren (extended.grown.linkless linkless) besides.2 (joined_ne_nil some_base) free
    refine ⟨[], bind_ok.mpr ⟨[], nothing, rfl⟩, ?_⟩
    intro text member
    cases member
  obtain ⟨results', went', among⟩ := inside.mapM kept others went
  exact ⟨_, bind_ok.mpr ⟨results', went', rfl⟩, among⟩

/-- What a pattern matches is matched again, in the same order; added files are matched besides. -/
theorem search_extended (some_base : s.base ≠ []) (onlyDirectories : Bool) (pattern : Text)
    {found : List Text} (searched : s.search onlyDirectories pattern = .ok found) :
    ∃ found', (s.onDisk d').search onlyDirectories pattern = .ok found' ∧
      Interposed ((s.onDisk d').Besides s.base) found found' := by
  have directories (t : Text) : (s.onDisk d').disk.isDirectory (s.onDisk d').workdir t =
      s.disk.isDirectory s.workdir t := Disk.isDirectory_grown linkless extended.grown
  have base : (s.onDisk d').base = s.base := rfl
  have free := splitLast_free pattern
  rw [search.eq_def] at searched ⊢
  rw [base]
  cases parts : splitLast pattern with
  | mk directory name =>
    rw [parts] at searched free
    dsimp only at searched free ⊢
    split at searched
    next plain =>
      cases searched
      rw [if_pos plain]
      refine ⟨_, rfl, ?_⟩
      split
      · rw [directories]
        exact .refl _
      next some_name =>
        apply entry_extended linkless extended
        rintro rfl
        cases parts
        exact some_name rfl
    next wild =>
      rw [if_neg wild]
      split at searched
      next here =>
        rw [if_pos here]
        exact matchIn_extended linkless extended some_base searched
      next above =>
        rw [if_neg above]
        split at searched
        next shorter =>
          obtain ⟨all, listed, searched⟩ := bind_ok.mp searched
          obtain ⟨all', listed', inside⟩ := search_extended some_base true directory listed
          obtain ⟨found', matched, among⟩ :=
            matchAll_extended linkless extended some_base free inside searched
          rw [if_pos shorter]
          exact ⟨found', bind_ok.mpr ⟨all', listed', matched⟩, among⟩
        next longer =>
          rw [if_neg longer]
          exact matchAll_extended linkless extended some_base free (.refl [directory]) searched
termination_by pattern.length
decreasing_by simp_all

/-- A filter that takes neither the base itself nor what is matched besides sees the same matches. -/
theorem glob_extended (some_base : s.base ≠ []) {found : List Text} (matched : s.glob pattern = .ok found)
    {p : Text → Bool} (proper : p [] = false)
    (apart : ∀ text, (s.onDisk d').Besides s.base text → p text = false) :
    ∃ found', (s.onDisk d').glob pattern = .ok found' ∧ found'.filter p = found.filter p := by
  obtain ⟨all, searched, _⟩ := bind_ok.mp matched
  obtain ⟨all', searched', inside⟩ := search_extended linkless extended some_base false pattern searched
  obtain ⟨found', matched', kept'⟩ := glob_of_search proper searched'
  obtain ⟨other, again, kept⟩ := glob_of_search proper searched
  cases again.symm.trans matched
  exact ⟨found', matched', kept'.trans ((inside.filter_eq apart).trans kept.symm)⟩

end extended

end Scope

/-- The fresh files of one kind depend on the matches of that kind. -/
theorem freshFiles_filter (s : Scope) (p : Text → Bool) (seen found : List Text) :
    (freshFiles s seen found).filter p = freshFiles s (seen.filter p) (found.filter p) := by
  induction found generalizing seen with
  | nil => rfl
  | cons path rest ih =>
    rw [freshFiles]
    by_cases kept : p path = true
    · have known : (seen.filter p).contains path = seen.contains path := by
        simp [kept]
      rw [List.filter_cons_of_pos kept, freshFiles, known]
      split
      · exact ih seen
      · rw [List.filter_cons_of_pos kept, ih, List.filter_cons_of_pos kept]
    · rw [List.filter_cons_of_neg kept]
      split
      · exact ih seen
      · rw [List.filter_cons_of_neg kept, ih, List.filter_cons_of_neg kept]

theorem freshFiles_congr {s s' : Scope} (seen : List Text) {found : List Text}
    (same : ∀ path ∈ found, s'.disk.isFile s'.workdir (Text.joinPath s'.base path) =
      s.disk.isFile s.workdir (Text.joinPath s.base path)) :
    freshFiles s' seen found = freshFiles s seen found := by
  induction found generalizing seen with
  | nil => rfl
  | cons path rest ih =>
    have later := fun other member => same other (List.mem_cons_of_mem path member)
    rw [freshFiles, freshFiles, same path List.mem_cons_self, ih _ later, ih _ later]

end GrammarBundle.Pattern
