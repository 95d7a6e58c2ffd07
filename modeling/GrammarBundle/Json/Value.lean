import GrammarBundle.Number.Binary64
import GrammarBundle.Text.CodePoint

/-!
JSON values. An object keeps its members in the order of their first appearance; numbers are whole or
floating, and the two kinds stay apart.
-/

namespace GrammarBundle

inductive Json where
  | null
  | bool (b : Bool)
  | int (n : Int)
  | float (x : Binary64)
  | str (t : Text)
  | list (items : List Json)
  | object (members : List (Text × Json))
  deriving Inhabited

/-- The members of an object: names with their values, in order. -/
abbrev Members := List (Text × Json)

namespace Members

def get? (name : Text) : Members → Option Json
  | [] => none
  | (key, value) :: rest => if key = name then some value else get? name rest

/-- Sets a member: a new one stands last, a known one keeps its place. -/
def put (name : Text) (value : Json) : Members → Members
  | [] => [(name, value)]
  | (key, old) :: rest =>
    if key = name then (key, value) :: rest else (key, old) :: put name value rest

def putAll (settings : List (Text × Json)) (members : Members) : Members :=
  settings.foldl (fun members (name, value) => put name value members) members

/-- The members that a row of settings makes, the last setting of a name winning. -/
def ofSettings (settings : List (Text × Json)) : Members := putAll settings []

/-- Members in the order of their names. -/
def sorted (members : Members) : Members :=
  members.mergeSort fun a b => a.1.atMost b.1

end Members

namespace Json

instance : Coe Int Json := ⟨.int⟩
instance : Coe Text Json := ⟨.str⟩
instance : Coe Bool Json := ⟨.bool⟩

def ofText? : Option Text → Json
  | none => .null
  | some t => .str t

/-- Whether a value counts as given: null, false, zero and empty values do not. -/
def isGiven : Json → Bool
  | .null => false
  | .bool b => b
  | .int n => n != 0
  | .float (.finite _ m _) => m != 0
  | .float _ => true
  | .str t => !t.isEmpty
  | .list items => !items.isEmpty
  | .object members => !members.isEmpty

mutual

/-- The value with the members of every object in the order of their names. -/
def sortKeys : Json → Json
  | .list items => .list (sortKeysItems items)
  | .object members => .object (Members.sorted (sortKeysMembers members))
  | v => v

def sortKeysItems : List Json → List Json
  | [] => []
  | v :: rest => sortKeys v :: sortKeysItems rest

def sortKeysMembers : List (Text × Json) → List (Text × Json)
  | [] => []
  | (k, v) :: rest => (k, sortKeys v) :: sortKeysMembers rest

end

end Json

end GrammarBundle
