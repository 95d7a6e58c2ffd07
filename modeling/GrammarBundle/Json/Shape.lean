import GrammarBundle.Datum.Value

/-!
Taking JSON values apart. A value that has not the shape which its reader expects is a fault; the fault
says what was asked of which kind of value.
-/

namespace GrammarBundle

/-- The kinds of values that a shape fault tells apart. -/
inductive Kind where
  | null
  | bool
  | int
  | float
  | str
  | list
  | object
  deriving DecidableEq, Repr

def Kind.name : Kind → Text
  | .null => "NoneType"
  | .bool => "bool"
  | .int => "int"
  | .float => "float"
  | .str => "str"
  | .list => "list"
  | .object => "dict"

def Json.kind : Json → Kind
  | .null => .null
  | .bool _ => .bool
  | .int _ => .int
  | .float _ => .float
  | .str _ => .str
  | .list _ => .list
  | .object _ => .object

/-- A value that cannot be taken apart as asked. -/
inductive ShapeFault where
  /-- No member of this name or number. -/
  | missing (key : Json)
  /-- A list or text is shorter than the place asked for. -/
  | outOfRange (isList : Bool)
  /-- A name was asked of a list. -/
  | namedElement
  /-- A name was asked of a text. -/
  | namedPoint
  /-- An element was asked of a value without elements. -/
  | notIndexed (kind : Kind)
  /-- A member was looked up in a value without members. -/
  | noMembers (kind : Kind)
  /-- The elements of a value without elements were asked for. -/
  | notIterable (kind : Kind)
  /-- An element that should be a name with its value is neither text nor a container. -/
  | notPair (place : Nat)
  /-- An element that should be a name with its value has not two parts. -/
  | pairLength (place length : Nat)
  /-- A container stands where a name is needed. -/
  | notName (kind : Kind)
  deriving Inhabited

def ShapeFault.message : ShapeFault → Text
  | .missing key => key.display
  | .outOfRange true => "list index out of range"
  | .outOfRange false => "string index out of range"
  | .namedElement => "list indices must be integers or slices, not str"
  | .namedPoint => "string indices must be integers, not 'str'"
  | .notIndexed kind => Text.quoted kind.name ++ " object is not subscriptable"
  | .noMembers kind => Text.quoted kind.name ++ " object has no attribute 'get'"
  | .notIterable kind => Text.quoted kind.name ++ " object is not iterable"
  | .notPair place =>
    "cannot convert dictionary update sequence element #" ++ Text.ofNat place ++ " to a sequence"
  | .pairLength place length =>
    "dictionary update sequence element #" ++ Text.ofNat place ++ " has length " ++
      Text.ofNat length ++ "; 2 is required"
  | .notName kind => "unhashable type: " ++ Text.quoted kind.name

namespace Json

/-- The member of a name that must be there. -/
def member (name : Text) : Json → Except ShapeFault Json
  | .object members =>
    match Members.get? name members with
    | some v => .ok v
    | none => .error (.missing (.str name))
  | .list _ => .error .namedElement
  | .str _ => .error .namedPoint
  | v => .error (.notIndexed v.kind)

/-- The member of a name, if it is there, of a value that must have members. -/
def member? (name : Text) : Json → Except ShapeFault (Option Json)
  | .object members => .ok (Members.get? name members)
  | v => .error (.noMembers v.kind)

/-- The element at a place that must be there. -/
def element (place : Nat) : Json → Except ShapeFault Json
  | .list items =>
    match items[place]? with
    | some v => .ok v
    | none => .error (.outOfRange true)
  | .str t =>
    match t[place]? with
    | some p => .ok (.str [p])
    | none => .error (.outOfRange false)
  | .object _ => .error (.missing (.int place))
  | v => .error (.notIndexed v.kind)

/-- What a value runs through: elements of a list, names of an object, code points of a text. -/
def elements? : Json → Option (List Json)
  | .list items => some items
  | .object members => some (members.map fun (k, _) => .str k)
  | .str t => some (t.map fun p => .str [p])
  | _ => none

/-- The elements of a value that must have some. -/
def elementsOf (v : Json) : Except ShapeFault (List Json) :=
  match v.elements? with
  | some items => .ok items
  | none => .error (.notIterable v.kind)

/-- The whole number that a value equals: truth values count as zero and one. -/
def wholeNumber? : Json → Option Int
  | .bool b => some (if b then 1 else 0)
  | .int n => some n
  | .float x => x.toInt?
  | _ => none

/-- Whether two values are one name: numbers by their value, all else as it is. -/
def sameName (a b : Json) : Bool :=
  match a.wholeNumber?, b.wholeNumber? with
  | some m, some n => m == n
  | none, none =>
    match a, b with
    | .null, .null => true
    | .str s, .str t => s == t
    | .float x, .float y => x == y
    | _, _ => false
  | _, _ => false

/-- Sets a name in a row of named values: a new one stands last, a known one keeps its place and its
spelling. -/
def setName (name value : Json) : List (Json × Json) → List (Json × Json)
  | [] => [(name, value)]
  | (key, old) :: rest =>
    if sameName key name then (key, value) :: rest else (key, old) :: setName name value rest

end Json

end GrammarBundle
