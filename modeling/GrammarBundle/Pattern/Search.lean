import GrammarBundle.Files.Disk
import GrammarBundle.Files.Path
import GrammarBundle.Pattern.Wildcard

/-!
Searching a disk for the paths that a pattern matches. The pattern is split at its last slash: its
directory part is searched first, and its name part then in every directory found. The name `**` stands
for any number of directories; found paths are spelled as the pattern spells them, and stand in the order
in which the disk lists its directories, which is that of the names.
-/

namespace GrammarBundle.Pattern

/-- Where a search runs: the disk, its working directory, and the base that patterns are relative to. -/
structure Scope where
  disk : Disk
  workdir : Place
  base : Text

/-- A base and a name as one path; an empty one of the two adds nothing. -/
def joined (base name : Text) : Text :=
  if base = [] then name else if name = [] then base else Text.joinPath base name

/-- A path before and after its last slash; slashes at the end of the first part go, unless it has
nothing else. -/
def splitLast (path : Text) : Text × Text :=
  let name := (path.reverse.takeWhile (· ≠ .char '/')).reverse
  let head := path.take (path.length - name.length)
  let bare := (head.reverse.dropWhile (· = .char '/')).reverse
  (if bare = [] then head else bare, name)

namespace Scope

/-- The names in a directory, all or only those of directories. A directory that cannot be listed has
no names, but a path that is none is a fault. -/
def names (s : Scope) (directory : Text) (onlyDirectories : Bool) : Except PathFault (List Text) :=
  let path : Text := if directory = [] then ("." : Text) else directory
  match s.disk.list s.workdir path with
  | .error (.system _) => .ok []
  | .error fault => .error fault
  | .ok names =>
    .ok (if onlyDirectories then
      names.filter fun name => s.disk.isDirectory s.workdir (Text.joinPath path name) else names)

/-- The paths below a directory at any depth, hidden ones left out. The fuel bounds the depth: a path
that is too long cannot be listed. -/
def below (s : Scope) (onlyDirectories : Bool) : (fuel : Nat) → Text → Except PathFault (List Text)
  | 0, _ => .ok []
  | fuel + 1, directory => do
    let names ← s.names directory onlyDirectories
    let found ← (names.filter (!isHidden ·)).mapM fun name => do
      let inner ← below s onlyDirectories fuel (joined directory name)
      return name :: inner.map (joined name)
    return found.flatten

/-- The names in one directory that a name pattern matches. -/
def matchIn (s : Scope) (directory pattern : Text) (onlyDirectories : Bool) :
    Except PathFault (List Text) :=
  if pattern = "**" then do
    let own := if directory = [] ∨ s.disk.isDirectory s.workdir directory then [[]] else []
    return own ++ (← s.below onlyDirectories Disk.pathLimit directory)
  else if hasWild pattern then do
    let names ← s.names directory onlyDirectories
    return names.filter fun name =>
      (isHidden pattern || !isHidden name) && matchesName pattern name
  else if pattern = [] then
    .ok (if s.disk.isDirectory s.workdir directory then [[]] else [])
  else .ok (if s.disk.hasEntry s.workdir (joined directory pattern) then [pattern] else [])

/-- The paths that a pattern matches, in the order of the listings. -/
def search (s : Scope) (onlyDirectories : Bool) (pattern : Text) : Except PathFault (List Text) :=
  let (directory, name) := splitLast pattern
  if !hasWild pattern then
    let there :=
      if name = [] then s.disk.isDirectory s.workdir (joined s.base directory)
      else s.disk.hasEntry s.workdir (joined s.base pattern)
    .ok (if there then [pattern] else [])
  else if directory = [] then s.matchIn s.base name onlyDirectories
  else do
    let directories ←
      if directory.length < pattern.length ∧ hasWild directory then search s true directory
      else .ok [directory]
    let found ← directories.mapM fun directory => do
      let names ← s.matchIn (joined s.base directory) name onlyDirectories
      return names.map (Text.joinPath directory)
    return found.flatten
termination_by pattern.length
decreasing_by simp_all

/-- The paths that a pattern matches; the base itself, which an empty pattern or a leading `**` finds
first, is left out. -/
def glob (s : Scope) (pattern : Text) : Except PathFault (List Text) := do
  let found ← s.search false pattern
  if pattern = [] ∨ pattern.take 2 = "**" then
    match found with
    | [] :: rest => return rest
    | found => return found
  else return found

end Scope

/-- The files among the paths found, each once, at its first place; `seen` were listed before. -/
def freshFiles (s : Scope) (seen : List Text) : List Text → List Text
  | [] => []
  | path :: rest =>
    if seen.contains path || !s.disk.isFile s.workdir (Text.joinPath s.base path) then
      freshFiles s seen rest
    else path :: freshFiles s (path :: seen) rest

end GrammarBundle.Pattern
