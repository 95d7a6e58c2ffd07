import GrammarBundle.Pattern.Search
import GrammarBundle.Proofs.Files.Contents

/-!
Searches look at names. What a pattern matches depends on where files and directories are; no file is
opened for it.
-/

namespace GrammarBundle.Pattern

def Scope.bare (s : Scope) : Scope := { s with disk := s.disk.bare }

namespace Scope

variable {s : Scope} {onlyDirectories : Bool}

theorem names_bare {directory : Text} :
    s.bare.names directory onlyDirectories = s.names directory onlyDirectories := by
  unfold names bare
  dsimp only
  rw [Disk.list_bare]
  simp only [Disk.isDirectory_bare]

theorem below_bare {fuel : Nat} {directory : Text} :
    s.bare.below onlyDirectories fuel directory = s.below onlyDirectories fuel directory := by
  induction fuel generalizing directory with
  | zero => rfl
  | succ fuel ih =>
    unfold below
    rw [names_bare]
    simp only [ih]

theorem matchIn_bare {directory pattern : Text} :
    s.bare.matchIn directory pattern onlyDirectories = s.matchIn directory pattern onlyDirectories := by
  have directories (t : Text) : s.bare.disk.isDirectory s.bare.workdir t =
      s.disk.isDirectory s.workdir t := Disk.isDirectory_bare
  have entries (t : Text) : s.bare.disk.hasEntry s.bare.workdir t = s.disk.hasEntry s.workdir t :=
    Disk.hasEntry_bare
  unfold matchIn
  simp only [below_bare, names_bare, directories, entries]

theorem search_bare (onlyDirectories : Bool) (pattern : Text) :
    s.bare.search onlyDirectories pattern = s.search onlyDirectories pattern := by
  have directories (t : Text) : s.bare.disk.isDirectory s.bare.workdir t =
      s.disk.isDirectory s.workdir t := Disk.isDirectory_bare
  have entries (t : Text) : s.bare.disk.hasEntry s.bare.workdir t = s.disk.hasEntry s.workdir t :=
    Disk.hasEntry_bare
  have base : s.bare.base = s.base := rfl
  rw [search.eq_def s.bare, search.eq_def s]
  simp only [matchIn_bare, directories, entries, base]
  split
  · rfl
  · split
    · rfl
    · split
      next shorter => rw [search_bare true (splitLast pattern).1]
      · rfl
termination_by pattern.length
decreasing_by simp_all

theorem glob_bare {pattern : Text} : s.bare.glob pattern = s.glob pattern := by
  unfold glob
  rw [search_bare false pattern]

end Scope

theorem freshFiles_bare {s : Scope} {seen found : List Text} :
    freshFiles s.bare seen found = freshFiles s seen found := by
  induction found generalizing seen with
  | nil => rfl
  | cons path rest ih =>
    have files : s.bare.disk.isFile s.bare.workdir (Text.joinPath s.bare.base path) =
        s.disk.isFile s.workdir (Text.joinPath s.base path) := Disk.isFile_bare
    rw [freshFiles, freshFiles, files, ih, ih]

end GrammarBundle.Pattern
