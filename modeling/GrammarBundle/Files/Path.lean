import GrammarBundle.Text.CodePoint

/-!
Paths as text: a root or none, and the names on the way. Empty names and the name `.` go; the name `..`
stays, because what it means depends on links.
-/

namespace GrammarBundle

/-- A path: its root, empty for a relative path, and its names. -/
structure Path where
  root : Text
  names : List Text
  deriving DecidableEq, Repr

namespace Path

/-- The root of a written path: exactly two leading slashes are a root of their own. -/
def rootOf (t : Text) : Text :=
  match (t.takeWhile (· = .char '/')).length with
  | 0 => []
  | 2 => "//"
  | _ => "/"

def ofText (t : Text) : Path :=
  ⟨rootOf t, (Text.splitAt '/' t).filter fun name => name ≠ [] && name ≠ [.char '.']⟩

/-- The path as text; a relative path without names is `.`. -/
def toText (p : Path) : Text :=
  if p.root = [] ∧ p.names = [] then "." else p.root ++ Text.join "/" p.names

def here : Path := ⟨[], []⟩

def isAbsolute (p : Path) : Bool := !p.root.isEmpty

/-- A written path below a base; an absolute one stands by itself. -/
def join (base : Path) (t : Text) : Path :=
  let p := ofText t
  if p.isAbsolute then p else ⟨base.root, base.names ++ p.names⟩

/-- The last name, empty where there is none. -/
def name (p : Path) : Text := p.names.getLastD []

/-- The part of a name from its last point on; a point at either end of the name does not count. -/
def suffixOf (name : Text) : Text :=
  let tail := (name.reverse.takeWhile (· ≠ .char '.')).reverse
  if tail = [] ∨ name.length ≤ tail.length + 1 then [] else .char '.' :: tail

/-- The extension of the last name, with its point. -/
def suffix (p : Path) : Text := suffixOf p.name

end Path

/-- A base path and a name as one text, with a slash between them unless the base ends in one; an
absolute name stands by itself, and an empty base adds nothing. -/
def Text.joinPath (base name : Text) : Text :=
  if name.head? = some (.char '/') then name
  else if base = [] ∨ base.getLast? = some (.char '/') then base ++ name
  else base ++ "/" ++ name

end GrammarBundle
