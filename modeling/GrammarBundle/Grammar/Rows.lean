import GrammarBundle.Grammar.Basic

/-!
Collections from the rows that the compiler answers with. A row names its grammar, says what the
grammar extends, and gives its recipe as a JSON value. A base is looked up among the earlier rows, then
among the grammars already known; one that is found in neither is kept by its name.
-/

namespace GrammarBundle

namespace Json

/-- The two parts of an element that stands for a name with its value. -/
def pairAt (place : Nat) (v : Json) : Except ShapeFault (Json × Json) :=
  match v.elements? with
  | none => .error (.notPair place)
  | some [name, value] => .ok (name, value)
  | some items => .error (.pairLength place items.length)

/-- The row of named values that a list of pairs makes, starting at a place of the list. -/
def pairsFrom (place : Nat) (named : List (Json × Json)) :
    List Json → Except ShapeFault (List (Json × Json))
  | [] => .ok named
  | v :: rest =>
    match pairAt place v with
    | .error fault => .error fault
    | .ok (name, value) =>
      match name with
      | .list _ => .error (.notName .list)
      | .object _ => .error (.notName .object)
      | _ => pairsFrom (place + 1) (setName name value named) rest

/-- The name of a member: text is itself, other values are written as JSON. -/
def memberName : Json → Text
  | .str t => t
  | v => v.compact

/-- The object that a value makes: an object, a list of pairs, or nothing where none is given. -/
def asObject (v : Json) : Except ShapeFault Json :=
  if !v.isGiven then .ok (.object [])
  else
    match v with
    | .object members => .ok (.object members)
    | _ =>
      match v.elements? with
      | none => .error (.notIterable v.kind)
      | some items =>
        match pairsFrom 0 [] items with
        | .error fault => .error fault
        | .ok named => .ok (.object (named.map fun (k, v) => (memberName k, v)))

end Json

namespace Collection

/-- The base that a row names, if it is not the built-in rules. -/
def baseOf (known done : Collection) (row : Json) : Except ShapeFault (Option (Link × Grammar)) := do
  let described ← row.member? "superGrammar"
  let described := (described.filter (·.isGiven)).getD (.object [])
  let builtIn ← described.member? "builtIn"
  if (builtIn.getD (.bool true)).isGiven then return none
  let name := (← described.member "name").plain
  match done.find? name with
  | some entry => return some (.row entry.row, entry.grammar)
  | none =>
    match known.find? name with
    | some entry => return some (.outside, entry.grammar)
    | none => return some (.outside, Grammar.named (.str name))

/-- The entry that a row declares after the rows `done`. -/
def entryOf (known done : Collection) (number : Nat) (row : Json) : Except ShapeFault Entry := do
  let recipe ← row.member "recipe"
  let base ← baseOf known done row
  let name := (← row.member "name").plain
  let info ← (← recipe.element 1).asObject
  let start ← recipe.element 4
  let rules ← (← recipe.element 5).asObject
  let declaration : Declaration := ⟨.str name, info, start, rules⟩
  match base with
  | none => return ⟨name, number, .root declaration⟩
  | some (link, base) => return ⟨name, number, .derived declaration link base⟩

/-- The collection after more rows, the first of which has the given number. -/
def addRows (known : Collection) : (number : Nat) → (done : Collection) → List Json →
    Except ShapeFault Collection
  | _, done, [] => .ok done
  | number, done, row :: rest =>
    match entryOf known done number row with
    | .error fault => .error fault
    | .ok entry => addRows known (number + 1) (done.put entry) rest

/-- The collection that the rows of a compiler's answer declare. -/
def ofRows (rows : Json) (known : Collection) : Except ShapeFault Collection :=
  match rows.elementsOf with
  | .error fault => .error fault
  | .ok rows => addRows known 0 [] rows

end Collection

end GrammarBundle
