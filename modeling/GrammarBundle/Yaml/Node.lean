import GrammarBundle.Yaml.Implicit
import GrammarBundle.Yaml.Token

/-!
Nodes: the graph of a document. A node is a scalar, a sequence or a mapping, each of a kind, and stands at a
number, by which the nodes around it hold it; an alias is the very node that its anchor names.
-/

namespace GrammarBundle.Yaml

inductive Node where
  | scalar (kind : Kind) (text : Text)
  | sequence (kind : Kind) (items : List Nat)
  | mapping (kind : Kind) (pairs : List (Nat × Nat))
  deriving Inhabited

def Node.kind : Node → Kind
  | .scalar kind _ => kind
  | .sequence kind _ => kind
  | .mapping kind _ => kind

/-- The state of building nodes: the tokens left, the nodes that the anchors name, what tag handles stand
for, and the nodes by their numbers. -/
structure Builder where
  tokens : List Token
  anchors : List (Text × Nat)
  handles : List (Text × Text)
  nodes : Array Node

namespace Builder

/-- The token that comes next; a fault ends the building. -/
def peek (b : Builder) : Except Fault Token :=
  match b.tokens with
  | [] => .error .malformed
  | .fault f :: _ => .error f
  | t :: _ => .ok t

def drop (b : Builder) : Builder := { b with tokens := b.tokens.tail }

/-- A node at the next number. -/
def add (n : Node) (b : Builder) : Nat × Builder := (b.nodes.size, { b with nodes := b.nodes.push n })

/-- A node at the next number, under its anchor if it has one. -/
def addNamed (anchor : Option Text) (n : Node) (b : Builder) : Nat × Builder :=
  let (number, b) := b.add n
  match anchor with
  | none => (number, b)
  | some name => (number, { b with anchors := (name, number) :: b.anchors })

/-- A collection with its elements in it. -/
def complete (number : Nat) (n : Node) (b : Builder) : Builder :=
  { b with nodes := b.nodes.setIfInBounds number n }

/-- The anchor and tag in front of a node, in either order. -/
def properties (b : Builder) : Except Fault (Option Text × Option WrittenTag × Builder) := do
  match ← b.peek with
  | .anchor name =>
    let b := b.drop
    match ← b.peek with
    | .tag t => return (some name, some t, b.drop)
    | _ => return (some name, none, b)
  | .tag t =>
    let b := b.drop
    match ← b.peek with
    | .anchor name => return (some name, some t, b.drop)
    | _ => return (none, some t, b)
  | _ => return (none, none, b)

def fullTag (t : WrittenTag) (b : Builder) : Except Fault Text :=
  match t.handle with
  | none => .ok t.suffix
  | some handle =>
    match b.handles.find? fun (name, _) => name = handle with
    | some (_, expansion) => .ok (expansion ++ t.suffix)
    | none => .error .malformed

/-- The tag that leaves the kind of a scalar to its text. -/
def openTag : Text := "!"

def scalarKind (tag : Option Text) (isPlain : Bool) (text : Text) : Kind :=
  match tag with
  | none => if isPlain then Implicit.kindOf text else .str
  | some t => if t = openTag then Implicit.kindOf text else Kind.ofTag t

def collectionKind (tag : Option Text) (standard : Kind) : Kind :=
  match tag with
  | none => standard
  | some t => if t = openTag then standard else Kind.ofTag t

def addEmpty (b : Builder) : Nat × Builder := b.add (.scalar .null [])

def aliased (name : Text) (b : Builder) : Except Fault Nat :=
  match b.anchors.find? fun (n, _) => n = name with
  | some (_, number) => .ok number
  | none => .error .malformed

mutual

/-- A node. Blocks may begin only where `block` says so, and a sequence at the indentation of the
mapping around it only where `indentless` says so. -/
def node (block indentless : Bool) : (fuel : Nat) → Builder → Except Fault (Nat × Builder)
  | 0, _ => .error .malformed
  | fuel + 1, b => do
    match ← b.peek with
    | .alias name => return (← b.aliased name, b.drop)
    | _ =>
      let (anchor, written, b) ← b.properties
      let tag ←
        match written with
        | none => pure none
        | some t => do pure (some (← b.fullTag t))
      let isBare := anchor.isNone && tag.isNone
      let t ← b.peek
      let taken := (anchor.map fun name => b.anchors.any fun (n, _) => n = name).getD false
      if taken then .error .malformed
      let list := collectionKind tag .seq
      let mapping := collectionKind tag .map
      let nothing : Except Fault (Nat × Builder) :=
        if isBare then .error .malformed
        else .ok (b.addNamed anchor (.scalar (scalarKind tag true []) []))
      match t with
      | .blockEntry =>
        if indentless then do
          let (number, b) := b.addNamed anchor (.sequence list [])
          let (items, b) ← sequenceItems true fuel b
          return (number, b.complete number (.sequence list items))
        else nothing
      | .scalar text isPlain =>
        return b.drop.addNamed anchor (.scalar (scalarKind tag isPlain text) text)
      | .flowSequenceStart =>
        let (number, b) := b.drop.addNamed anchor (.sequence list [])
        let (items, b) ← flowItems true fuel b
        return (number, b.complete number (.sequence list items))
      | .flowMappingStart =>
        let (number, b) := b.drop.addNamed anchor (.mapping mapping [])
        let (pairs, b) ← flowPairs true fuel b
        return (number, b.complete number (.mapping mapping pairs))
      | .blockSequenceStart =>
        if block then do
          let (number, b) := b.drop.addNamed anchor (.sequence list [])
          let (items, b) ← sequenceItems false fuel b
          return (number, b.complete number (.sequence list items))
        else nothing
      | .blockMappingStart =>
        if block then do
          let (number, b) := b.drop.addNamed anchor (.mapping mapping [])
          let (pairs, b) ← blockPairs fuel b
          return (number, b.complete number (.mapping mapping pairs))
        else nothing
      | _ => nothing

/-- The elements of a block sequence, with the end of its block unless it has no block of its own. -/
def sequenceItems (indentless : Bool) : (fuel : Nat) → Builder →
    Except Fault (List Nat × Builder)
  | 0, _ => .error .malformed
  | fuel + 1, b => do
    match ← b.peek with
    | .blockEntry =>
      let b := b.drop
      let t ← b.peek
      let isEmpty := t = .blockEntry || t = .blockEnd || (indentless && (t = .key || t = .value))
      let (first, b) ← if isEmpty then pure b.addEmpty else node true false fuel b
      let (rest, b) ← sequenceItems indentless fuel b
      return (first :: rest, b)
    | .blockEnd => return ([], if indentless then b else b.drop)
    | _ => if indentless then return ([], b) else .error .malformed

/-- The entries of a block mapping, with the end of its block. -/
def blockPairs : (fuel : Nat) → Builder → Except Fault (List (Nat × Nat) × Builder)
  | 0, _ => .error .malformed
  | fuel + 1, b => do
    match ← b.peek with
    | .key =>
      let b := b.drop
      let t ← b.peek
      let (key, b) ←
        if t = .key || t = .value || t = .blockEnd then pure b.addEmpty
        else node true true fuel b
      let (value, b) ← blockValue fuel b
      let (rest, b) ← blockPairs fuel b
      return ((key, value) :: rest, b)
    | .blockEnd => return ([], b.drop)
    | _ => .error .malformed

/-- The value of an entry of a block mapping; nothing where no colon stands. -/
def blockValue : (fuel : Nat) → Builder → Except Fault (Nat × Builder)
  | 0, _ => .error .malformed
  | fuel + 1, b => do
    match ← b.peek with
    | .value =>
      let b := b.drop
      let t ← b.peek
      if t = .key || t = .value || t = .blockEnd then return b.addEmpty
      else node true true fuel b
    | _ => return b.addEmpty

/-- The value after a key inside brackets that end with `close`. -/
def flowValue (close : Token) : (fuel : Nat) → Builder → Except Fault (Nat × Builder)
  | 0, _ => .error .malformed
  | fuel + 1, b => do
    match ← b.peek with
    | .value =>
      let b := b.drop
      let t ← b.peek
      if t = .flowEntry || t = close then return b.addEmpty else node false false fuel b
    | _ => return b.addEmpty

/-- The key after its mark inside brackets that end with `close`. -/
def flowKey (close : Token) : (fuel : Nat) → Builder → Except Fault (Nat × Builder)
  | 0, _ => .error .malformed
  | fuel + 1, b => do
    let t ← b.peek
    if t = .value || t = .flowEntry || t = close then return b.addEmpty
    else node false false fuel b

/-- The elements of a sequence in brackets; an element that is a key with its value is a mapping. -/
def flowItems (isFirst : Bool) : (fuel : Nat) → Builder → Except Fault (List Nat × Builder)
  | 0, _ => .error .malformed
  | fuel + 1, b => do
    match ← b.peek with
    | .flowSequenceEnd => return ([], b.drop)
    | t =>
      if !isFirst && t ≠ .flowEntry then .error .malformed
      let b := if isFirst then b else b.drop
      match ← b.peek with
      | .flowSequenceEnd => return ([], b.drop)
      | .key =>
        let (key, b) ← flowKey .flowSequenceEnd fuel b.drop
        let (value, b) ← flowValue .flowSequenceEnd fuel b
        let (number, b) := b.add (.mapping .map [(key, value)])
        let (rest, b) ← flowItems false fuel b
        return (number :: rest, b)
      | _ =>
        let (first, b) ← node false false fuel b
        let (rest, b) ← flowItems false fuel b
        return (first :: rest, b)

/-- The entries of a mapping in braces. -/
def flowPairs (isFirst : Bool) : (fuel : Nat) → Builder →
    Except Fault (List (Nat × Nat) × Builder)
  | 0, _ => .error .malformed
  | fuel + 1, b => do
    match ← b.peek with
    | .flowMappingEnd => return ([], b.drop)
    | t =>
      if !isFirst && t ≠ .flowEntry then .error .malformed
      let b := if isFirst then b else b.drop
      match ← b.peek with
      | .flowMappingEnd => return ([], b.drop)
      | .key =>
        let (key, b) ← flowKey .flowMappingEnd fuel b.drop
        let (value, b) ← flowValue .flowMappingEnd fuel b
        let (rest, b) ← flowPairs false fuel b
        return ((key, value) :: rest, b)
      | _ =>
        let (key, b) ← node false false fuel b
        let (value, b) := b.addEmpty
        let (rest, b) ← flowPairs false fuel b
        return ((key, value) :: rest, b)

end

/-- The tag handles that stand for something without a directive. -/
def standardHandles : List (Text × Text) := [("!", "!"), ("!!", tagBase)]

/-- The directives in front of a document: at most one version, and each handle at most once. -/
def directives (hasVersion : Bool) (handles : List (Text × Text)) :
    List Token → Except Fault (List (Text × Text) × List Token)
  | .directive (.version major) :: rest =>
    if hasVersion || major ≠ 1 then .error .malformed else directives true handles rest
  | .directive (.tag handle expansion) :: rest =>
    if handles.any fun (name, _) => name = handle then .error .malformed
    else directives hasVersion (handles ++ [(handle, expansion)]) rest
  | .directive .other :: rest => directives hasVersion handles rest
  | tokens => .ok (handles, tokens)

/-- The end of a document: no more of it may follow. -/
def finish (b : Builder) : Except Fault Unit := do
  match ← ({ b with tokens := b.tokens.dropWhile (· = .documentEnd) } : Builder).peek with
  | .streamEnd => return ()
  | _ => .error .malformed

/-- The node of a document that begins with its start mark, after its directives. -/
def explicitDocument (b : Builder) : Except Fault (Nat × Builder) := do
  match ← b.peek with
  | .documentStart =>
    let b := b.drop
    match ← b.peek with
    | .directive _ => return b.addEmpty
    | .documentStart => return b.addEmpty
    | .documentEnd => return b.addEmpty
    | .streamEnd => return b.addEmpty
    | _ => node true false (3 * b.tokens.length + 3) b
  | _ => .error .malformed

/-- The nodes of a document, if its text has one, and the number of the outermost one. -/
def document (tokens : List Token) : Except Fault (Option (Nat × Array Node)) := do
  let b : Builder := ⟨tokens, [], standardHandles, #[]⟩
  match ← b.peek with
  | .streamEnd => return none
  | .directive _ | .documentStart =>
    let (handles, tokens) ← directives false [] tokens
    let (number, b) ← explicitDocument ⟨tokens, [], handles ++ standardHandles, #[]⟩
    b.finish
    return some (number, b.nodes)
  | _ =>
    let (number, b) ← node true false (3 * tokens.length + 3) b
    b.finish
    return some (number, b.nodes)

end Builder

end GrammarBundle.Yaml
