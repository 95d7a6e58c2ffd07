import GrammarBundle.Files.Fault
import GrammarBundle.Files.FileName

/-!
A disk: files, directories and symbolic links under the places where they stand. A path is walked name
by name from the working directory or the root; links on the way are followed, up to a limit. Reading
and writing act on what the walk ends at, and writing touches no other place. A system may list a
directory in any order; here it is assumed to do so in that of the names.
-/

namespace GrammarBundle

/-- A place on the disk: the names from the root down. -/
abbrev Place := List Text

inductive Node where
  | file (bytes : List UInt8)
  | directory
  | link (target : Text)
  deriving DecidableEq, Repr, Inhabited

/-- A disk: what stands at which place. The root is always a directory. -/
structure Disk where
  entries : List (Place × Node)
  deriving Inhabited

namespace Disk

def node? (d : Disk) (place : Place) : Option Node :=
  if place = [] then some .directory
  else (d.entries.find? fun (p, _) => p = place).map (·.2)

def setIn (place : Place) (node : Node) : List (Place × Node) → List (Place × Node)
  | [] => [(place, node)]
  | (p, old) :: rest =>
    if p = place then (p, node) :: rest else (p, old) :: setIn place node rest

def set (d : Disk) (place : Place) (node : Node) : Disk := ⟨setIn place node d.entries⟩

/-- The disk without a place and everything below it. -/
def erase (d : Disk) (place : Place) : Disk :=
  ⟨d.entries.filter fun (p, _) => !place.isPrefixOf p⟩

/-- The names in a directory with what they stand for, in the order of the names. -/
def children (d : Disk) (place : Place) : List (Text × Node) :=
  (d.entries.filterMap fun (p, node) =>
    match p.getLast? with
    | some name => if p.dropLast = place then some (name, node) else none
    | none => none).mergeSort fun a b => a.1.atMost b.1

/-- The names of a written path; a slash at the end asks for a directory, as the name `.` does. -/
def namesOf (t : Text) : List Text :=
  let names := (Text.splitAt '/' t).filter (· ≠ [])
  if t.getLast? = some (.char '/') ∧ names ≠ [] then names ++ [Text.ofString "."] else names

def isAbsolute (t : Text) : Bool := t.head? = some (.char '/')

/-- Where a walk ends: at something, or at a name that is free in an existing directory. -/
inductive Walked where
  | found (place : Place) (node : Node)
  | free (directory : Place) (name : Text)
  deriving DecidableEq, Repr

def linkLimit : Nat := 40

def nameLimit : Nat := 255

/-- The number of bytes from which on a path is too long. -/
def pathLimit : Nat := 4096

/-- Walks from a directory along names. A link at the end is followed only if asked. -/
def walk (d : Disk) (follow : Bool) (links : Nat) (here : Place) :
    List Text → Except SystemReason Walked
  | [] => .ok (.found here .directory)
  | name :: rest =>
    if name = "." then walk d follow links here rest
    else if name = ".." then walk d follow links here.dropLast rest
    else if nameLimit < FileName.size name then .error .nameTooLong
    else
      let place := here ++ [FileName.canonical name]
      match d.node? place with
      | none => if rest = [] then .ok (.free here (FileName.canonical name)) else .error .noEntry
      | some .directory => walk d follow links place rest
      | some (.file bytes) =>
        if rest = [] then .ok (.found place (.file bytes)) else .error .notDirectory
      | some (.link target) =>
        if rest = [] ∧ follow = false then .ok (.found place (.link target))
        else
          match links with
          | 0 => .error .tooManyLinks
          | links + 1 =>
            walk d follow links (if isAbsolute target then [] else here) (namesOf target ++ rest)
termination_by names => (links, names.length)

def walkPath (d : Disk) (workdir : Place) (follow : Bool) (t : Text) : Except PathFault Walked :=
  match FileName.encode t with
  | .error fault => .error (.unencodable fault)
  | .ok bytes =>
    if t.elem (.char '\x00') then .error .zeroCharacter
    else if t = [] then .error (.system .noEntry)
    else if pathLimit ≤ bytes.length then .error (.system .nameTooLong)
    else
      match walk d follow linkLimit (if isAbsolute t then [] else workdir) (namesOf t) with
      | .error reason => .error (.system reason)
      | .ok walked => .ok walked

/-- What a path leads to; with `follow`, through a link at its end. -/
def look (d : Disk) (workdir : Place) (follow : Bool) (t : Text) :
    Except PathFault (Place × Node) :=
  match d.walkPath workdir follow t with
  | .error fault => .error fault
  | .ok (.free _ _) => .error (.system .noEntry)
  | .ok (.found place node) => .ok (place, node)

/-- Whether anything stands at a path, be it a link that leads nowhere. -/
def hasEntry (d : Disk) (workdir : Place) (t : Text) : Bool :=
  (d.look workdir false t).toOption.isSome

def isDirectory (d : Disk) (workdir : Place) (t : Text) : Bool :=
  match d.look workdir true t with
  | .ok (_, .directory) => true
  | _ => false

def isFile (d : Disk) (workdir : Place) (t : Text) : Bool :=
  match d.look workdir true t with
  | .ok (_, .file _) => true
  | _ => false

def read (d : Disk) (workdir : Place) (t : Text) : Except PathFault (List UInt8) :=
  match d.look workdir true t with
  | .error fault => .error fault
  | .ok (_, .file bytes) => .ok bytes
  | .ok _ => .error (.system .isDirectory)

/-- The place that writing to a path creates or overwrites. -/
def writePlace (d : Disk) (workdir : Place) (t : Text) : Except PathFault Place :=
  match d.walkPath workdir true t with
  | .error fault => .error fault
  | .ok (.free directory name) => .ok (directory ++ [name])
  | .ok (.found place (.file _)) => .ok place
  | .ok (.found _ _) => .error (.system .isDirectory)

/-- The disk with a file of the given bytes at a path. -/
def write (d : Disk) (workdir : Place) (t : Text) (bytes : List UInt8) : Except PathFault Disk :=
  match d.writePlace workdir t with
  | .error fault => .error fault
  | .ok place => .ok (d.set place (.file bytes))

def list (d : Disk) (workdir : Place) (t : Text) : Except PathFault (List Text) :=
  match d.look workdir true t with
  | .error fault => .error fault
  | .ok (place, .directory) => .ok ((d.children place).map (·.1))
  | .ok _ => .error (.system .notDirectory)

/-- The regular files with their bytes, each at its place. -/
def files (d : Disk) : List (Place × List UInt8) :=
  d.entries.filterMap fun (place, node) =>
    match node with
    | .file bytes => some (place, bytes)
    | _ => none

end Disk

end GrammarBundle
