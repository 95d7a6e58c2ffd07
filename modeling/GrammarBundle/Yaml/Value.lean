import GrammarBundle.Yaml.Base64
import GrammarBundle.Yaml.Node
import GrammarBundle.Yaml.Number

/-!
The values of nodes. A scalar has the value that its kind reads from its text. A collection is empty at
first and waits to be filled, after all that were met before it; filling it makes values of its parts.
Every node has one value, wherever it stands, and of several faults the first one that is met in this order
counts. Filling a mapping changes the nodes: what merge keys bring in becomes part of it, and a key that is
the mark of a value becomes text, also for a scalar that is read from it later.

How deep nodes may be in one another is not limited here, and the members of a set stand in the order in
which they are written.
-/

namespace GrammarBundle.Yaml

def timeOf (w : WrittenTime) : Except ScalarFault Datum := do
  let date : Date := ⟨w.year, w.month, w.day⟩
  let checkDate : Except ScalarFault Unit := do
    if w.year < 1 then .error (.yearRange w.year)
    if w.month < 1 ∨ 12 < w.month then .error .monthRange
    if w.day < 1 ∨ Date.daysInMonth w.year w.month < w.day then .error .dayRange
  match w.clock with
  | none =>
    checkDate
    return .date date
  | some (hour, minute, second) =>
    match w.zone with
    | some seconds => if 86400 ≤ seconds.natAbs then .error (.offsetRange seconds)
    | none => pure ()
    checkDate
    if 23 < hour then .error .hourRange
    if 59 < minute then .error .minuteRange
    if 59 < second then .error .secondRange
    let six := (w.fraction ++ Text.repeated 6 '0').take 6
    return .dateTime ⟨date, hour, minute, second, (Text.nat? six).getD 0, w.zone⟩

/-- The truth value of a word in any case. -/
def truthOf (text : Text) : Except ScalarFault Bool :=
  let word := lowered text
  if word = "yes" ∨ word = "true" ∨ word = "on" then .ok true
  else if word = "no" ∨ word = "false" ∨ word = "off" then .ok false
  else .error (.notTruth word)

def ofScalar {α : Type} (make : α → Datum) : Except ScalarFault α → Except Fault Datum
  | .ok a => .ok (make a)
  | .error f => .error (.scalar f)

def scalarValue (kind : Kind) (text : Text) : Except Fault Datum :=
  match kind with
  | .null => .ok .null
  | .bool => ofScalar .bool (truthOf text)
  | .int => ofScalar .int (wholeOf text)
  | .float => ofScalar .float (floatingOf text)
  | .binary =>
    match Base64.bytes? text with
    | some bytes => .ok (.bytes bytes)
    | none => .error .malformed
  | .timestamp =>
    match WrittenTime.ofText? (Implicit.withoutLineFeed text) with
    | some w => ofScalar id (timeOf w)
    | none => .error (.scalar .notTime)
  | .str => .ok (.str text)
  | _ => .error .malformed

def Kind.isScalar : Kind → Bool
  | .null | .bool | .int | .float | .binary | .timestamp | .str => true
  | _ => false

def Kind.isCollection : Kind → Bool
  | .seq | .map | .set | .orderedMap | .pairs => true
  | _ => false

/-- What a filled collection holds, by the numbers of the nodes. -/
inductive Holding where
  | list (items : List Nat)
  | tuples (pairs : List (Nat × Nat))
  | mapping (entries : List (Nat × Nat))
  | set (members : List (Nat × Nat))

/-- Whether a collection that holds itself is shown as a list there. -/
def Holding.isList : Holding → Bool
  | .list _ | .tuples _ => true
  | .mapping _ | .set _ => false

/-- What has become of a node: a scalar has a value, with the number by which it is told from others that
are not equal to themselves. -/
inductive Made where
  | scalar (v : Datum) (identity : Nat)
  | waiting
  | filled (held : Holding)

/-- The state of making values: the nodes, what has become of them, and the collections that wait. -/
structure Making where
  nodes : Array Node
  made : Array (Option Made)
  queue : List Nat

abbrev Maker (α : Type) := StateT Making (Except Fault) α

/-- The text of a node that is read as a scalar: a mapping may have it under the key of that kind. More
steps than there are nodes never end. -/
def scalarText (nodes : Array Node) : (fuel number : Nat) → Except Fault Text
  | 0, _ => .error (.scalar .endless)
  | fuel + 1, number =>
    match nodes[number]? with
    | some (.scalar _ text) => .ok text
    | some (.mapping _ pairs) =>
      match pairs.find? fun (key, _) => (nodes[key]?.map Node.kind) = some .value with
      | some (_, v) => scalarText nodes fuel v
      | none => .error .malformed
    | _ => .error .malformed

/-- Whether a text is the word for what is no number. All of these have one value. -/
def isNanWord (text : Text) : Bool := (signed (lowered (withoutUnderscores text))).2 = ".nan"

namespace Maker

def fail {α : Type} : Maker α := throw .malformed

def node (number : Nat) : Maker Node := do
  return (← get).nodes.getD number default

def setNode (number : Nat) (n : Node) : Maker Unit :=
  modify fun s => { s with nodes := s.nodes.setIfInBounds number n }

def made (number : Nat) : Maker (Option Made) := do
  return (← get).made.getD number none

def setMade (number : Nat) (m : Made) : Maker Unit :=
  modify fun s => { s with made := s.made.setIfInBounds number (some m) }

/-- The entries of a mapping; nothing else may be merged into one. -/
def entries (number : Nat) : Maker (List (Nat × Nat)) := do
  match ← node number with
  | .mapping _ pairs => return pairs
  | _ => fail

def setEntries (number : Nat) (pairs : List (Nat × Nat)) : Maker Unit := do
  match ← node number with
  | .mapping kind _ => setNode number (.mapping kind pairs)
  | _ => fail

/-- Makes a key that is the mark of a value text. -/
def plainKey (number : Nat) : Maker Unit := do
  match ← node number with
  | .scalar .value text => setNode number (.scalar .str text)
  | .sequence .value items => setNode number (.sequence .str items)
  | .mapping .value pairs => setNode number (.mapping .str pairs)
  | _ => return

/-- Puts what the merge keys of a mapping bring in in front of its entries; of several mappings the last
one comes first. The mapping is looked at from a place on, with what has been brought in before. Each step
takes one merge key away, so that there are no more steps than keys, though a mapping may be merged into
itself. -/
def flatten : (fuel number start : Nat) → (brought : List (Nat × Nat)) → Maker Unit
  | 0, _, _, _ => fail
  | fuel + 1, number, start, brought => do
    let pairs ← entries number
    let nodes := (← get).nodes
    let isMerge (pair : Nat × Nat) : Bool := (nodes.getD pair.1 default).kind = .merge
    let (passed, later) := (pairs.drop start).span (!isMerge ·)
    passed.forM fun (key, _) => plainKey key
    match later with
    | [] => setEntries number (brought ++ pairs)
    | (_, v) :: rest => do
      setEntries number (pairs.take start ++ passed ++ rest)
      let own (number : Nat) : Maker (List (Nat × Nat)) := do
        flatten fuel number 0 []
        entries number
      let more ←
        match ← node v with
        | .mapping _ _ => own v
        | .sequence _ items => (fun parts => parts.reverse.flatten) <$> items.mapM own
        | .scalar _ _ => fail
      flatten fuel number (start + passed.length) (brought ++ more)

/-- Makes a value of a node, unless that was done before. -/
def construct (number : Nat) : Maker Unit := do
  if (← made number).isSome then return
  let n ← node number
  let nodes := (← get).nodes
  if n.kind.isScalar then
    let text ← scalarText nodes (nodes.size + 1) number
    match n with
    | .mapping .timestamp _ => throw (.scalar .notText)
    | _ =>
      let v ← scalarValue n.kind text
      let isShared := n.kind = .float && isNanWord text
      setMade number (.scalar v (if isShared then nodes.size else number))
  else if n.kind.isCollection then
    setMade number .waiting
    modify fun s => { s with queue := s.queue ++ [number] }
  else fail

/-- Makes values of the keys and values of a mapping; a collection is no key. -/
def constructEntries (pairs : List (Nat × Nat)) : Maker Unit :=
  pairs.forM fun (key, v) => do
    construct key
    match ← made key with
    | some (.scalar _ _) => construct v
    | _ => fail

/-- The entries of a mapping that is filled. -/
def filledEntries (number : Nat) : Maker (List (Nat × Nat)) := do
  let merges := (← get).nodes.foldl (fun count n =>
    match n with
    | .mapping _ pairs => count + pairs.length
    | _ => count) 0
  flatten (merges + 1) number 0 []
  let pairs ← entries number
  constructEntries pairs
  return pairs

/-- The one entry of a mapping that stands for a pair. -/
def pair (number : Nat) : Maker (Nat × Nat) := do
  match ← node number with
  | .mapping _ [(first, second)] =>
    construct first
    construct second
    return (first, second)
  | _ => fail

def holding (number : Nat) : Maker Holding := do
  match ← node number with
  | .sequence .seq items => do
    items.forM construct
    return .list items
  | .sequence .orderedMap items => return .tuples (← items.mapM pair)
  | .sequence .pairs items => return .tuples (← items.mapM pair)
  | .mapping .map _ => return .mapping (← filledEntries number)
  | .mapping .set _ => return .set (← filledEntries number)
  | _ => fail

/-- Fills the collections that wait, in turn. -/
def fillAll : (fuel : Nat) → Maker Unit
  | 0 => return
  | fuel + 1 => do
    match (← get).queue with
    | [] => return
    | number :: rest =>
      modify fun s => { s with queue := rest }
      setMade number (.filled (← holding number))
      fillAll fuel

end Maker

/-- The whole number that a key equals; truth values count as zero and one. -/
def keyNumber? : Datum → Option Int
  | .bool b => some (if b then 1 else 0)
  | .int n => some n
  | .float x => x.toInt?
  | _ => none

/-- A key with the number by which it is told from others that are not equal to themselves. -/
structure Key where
  value : Datum
  identity : Nat

/-- Whether two values are the same key: numbers by their value, times by their moment, all else as it
is. -/
def Key.same (a b : Key) : Bool :=
  match keyNumber? a.value, keyNumber? b.value with
  | some m, some n => m == n
  | none, none =>
    match a.value, b.value with
    | .null, .null => true
    | .str s, .str t => s == t
    | .bytes x, .bytes y => x == y
    | .date d, .date e => d == e
    | .dateTime t, .dateTime u => t.isSameMoment u
    | .float x, .float y => if x = .nan then y == .nan && a.identity == b.identity else x == y
    | _, _ => false
  | _, _ => false

/-- Sets a key: a new one stands last, a known one keeps its place and its spelling. -/
def setKey (key : Key) (v : Datum) : List (Key × Datum) → List (Key × Datum)
  | [] => [(key, v)]
  | (k, old) :: rest => if k.same key then (k, v) :: rest else (k, old) :: setKey key v rest

/-- The entries that keys with values make in turn. -/
def entriesOf (settings : List (Key × Datum)) : List (Datum × Datum) :=
  (settings.foldl (fun entries (key, v) => setKey key v entries) []).map fun (key, v) => (key.value, v)

/-- The value of a node when all collections are filled; a collection inside itself is the sign for
that. -/
def valueOf (made : Array (Option Made)) : (fuel : Nat) → (inside : List Nat) → (number : Nat) → Datum
  | 0, _, _ => .null
  | fuel + 1, inside, number =>
    match made.getD number none with
    | some (.scalar v _) => v
    | some (.filled held) =>
      if inside.elem number then .again held.isList
      else
        let part := valueOf made fuel (number :: inside)
        let key (number : Nat) : Key :=
          match made.getD number none with
          | some (.scalar v identity) => ⟨v, identity⟩
          | _ => ⟨part number, number⟩
        let entries (pairs : List (Nat × Nat)) : List (Datum × Datum) :=
          entriesOf (pairs.map fun (k, v) => (key k, part v))
        match held with
        | .list items => .list (items.map part)
        | .tuples pairs => .list (pairs.map fun (first, second) => .tuple [part first, part second])
        | .mapping pairs => .mapping (entries pairs)
        | .set pairs => .set ((entries pairs).map (·.1))
    | _ => .null

/-- The value of a node among the nodes of a document. -/
def Node.value (number : Nat) (nodes : Array Node) : Except Fault Datum := do
  let make : Maker Unit := do
    Maker.construct number
    Maker.fillAll nodes.size
  let (_, s) ← make.run ⟨nodes, Array.replicate nodes.size none, []⟩
  return valueOf s.made (nodes.size + 1) [] number

end GrammarBundle.Yaml
