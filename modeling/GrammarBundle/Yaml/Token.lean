import GrammarBundle.Yaml.Block
import GrammarBundle.Yaml.Plain
import GrammarBundle.Yaml.Quoted
import GrammarBundle.Yaml.Tag

/-!
Tokens of a document. Indentation becomes tokens that open and close blocks. A word may turn out to be a
key only when its colon comes; the tokens are therefore written down as they come, and what a colon
makes known of an earlier place is kept beside them and put in at the end.
-/

namespace GrammarBundle.Yaml

/-- A token. The last one of a document that cannot be read to its end is its fault. -/
inductive Token where
  | directive (d : Directive)
  | documentStart
  | documentEnd
  | blockSequenceStart
  | blockMappingStart
  | blockEnd
  | flowSequenceStart
  | flowSequenceEnd
  | flowMappingStart
  | flowMappingEnd
  | blockEntry
  | flowEntry
  | key
  | value
  | alias (name : Text)
  | anchor (name : Text)
  | tag (t : WrittenTag)
  | scalar (text : Text) (isPlain : Bool)
  | streamEnd
  | fault (f : Fault)
  deriving DecidableEq, Repr

structure Cursor where
  rest : Text
  index : Nat
  line : Nat
  column : Nat

namespace Cursor

/-- The place one code point on; a byte order mark takes no column. -/
def step (c : Cursor) : Cursor :=
  match c.rest with
  | [] => c
  | p :: rest =>
    if isBreak p && !(p = .char '\r' && rest.head? = some (.char '\n')) then
      ⟨rest, c.index + 1, c.line + 1, 0⟩
    else ⟨rest, c.index + 1, c.line, if p = .char '\uFEFF' then c.column else c.column + 1⟩

def advance : (count : Nat) → Cursor → Cursor
  | 0, c => c
  | count + 1, c => advance count c.step

/-- The place where a given rest of the text begins. -/
def moveTo (c : Cursor) (rest : Text) : Cursor := c.advance (c.rest.length - rest.length)

end Cursor

/-- A place at which a simple key may begin: the number of its first token, whether a key must stand
there, and where it is. -/
structure PossibleKey where
  token : Nat
  isRequired : Bool
  index : Nat
  line : Nat
  column : Nat

structure Scanner where
  cursor : Cursor
  /-- The tokens so far, the last one first. -/
  reversed : List Token
  count : Nat
  /-- Tokens that belong in front of the token of a number. -/
  splices : List (Nat × List Token)
  flowLevel : Nat
  indent : Int
  indents : List Int
  /-- Whether a simple key may begin here. -/
  keyAllowed : Bool
  /-- The possible keys of the levels of brackets. -/
  keys : List (Nat × PossibleKey)

namespace Scanner

abbrev Step := Except Fault Scanner

def start (text : Text) : Scanner :=
  ⟨⟨text, 0, 0, 0⟩, [], 0, [], 0, -1, [], true, []⟩

def push (t : Token) (s : Scanner) : Scanner :=
  { s with reversed := t :: s.reversed, count := s.count + 1 }

def inFlow (s : Scanner) : Bool := s.flowLevel != 0

def skip (count : Nat) (s : Scanner) : Scanner := { s with cursor := s.cursor.advance count }

def allowKey (allowed : Bool) (s : Scanner) : Scanner := { s with keyAllowed := allowed }

def keyLimit : Nat := 1024

/-- Drops the possible keys that can no longer be keys: those on other lines and those too far back. A
place that must hold a key cannot be dropped. -/
def dropStale (s : Scanner) : Step :=
  let isStale (k : PossibleKey) : Bool :=
    k.line != s.cursor.line || keyLimit < s.cursor.index - k.index
  if s.keys.any fun (_, k) => isStale k && k.isRequired then .error .malformed
  else .ok { s with keys := s.keys.filter fun (_, k) => !isStale k }

def removeKey (s : Scanner) : Step :=
  if s.keys.any fun (level, k) => level == s.flowLevel && k.isRequired then .error .malformed
  else .ok { s with keys := s.keys.filter fun (level, _) => level != s.flowLevel }

def saveKey (s : Scanner) : Step := do
  let isRequired := !s.inFlow && s.indent == (s.cursor.column : Int)
  if s.keyAllowed then
    let s ← s.removeKey
    let c := s.cursor
    return { s with
      keys := (s.flowLevel, ⟨s.count, isRequired, c.index, c.line, c.column⟩) :: s.keys }
  else return s

/-- The block ends that lower indentation makes, given the indentations of the open blocks. -/
def closeBlocks (column : Int) : List Int → Scanner → Scanner
  | [], s => s
  | outer :: indents, s =>
    if column < s.indent then
      closeBlocks column indents (push .blockEnd { s with indent := outer, indents })
    else s

/-- Closes the blocks that are indented more than a column. -/
def unwind (column : Int) (s : Scanner) : Scanner :=
  if s.inFlow then s else closeBlocks column s.indents s

/-- Opens a block at a column, if that is deeper than the present one. -/
def deepen? (column : Int) (s : Scanner) : Option Scanner :=
  if s.indent < column then some { s with indents := s.indent :: s.indents, indent := column }
  else none

/-- Opens a block at the present column with a token, if that is deeper. -/
def openBlock (t : Token) (s : Scanner) : Scanner :=
  match s.deepen? s.cursor.column with
  | some s => s.push t
  | none => s

/-- Moves over spaces, comments and line breaks; a line break lets simple keys begin again. -/
def skipToToken : (fuel : Nat) → Scanner → Scanner
  | 0, s => s
  | fuel + 1, s =>
    let t := skipSpaces s.cursor.rest
    let t := if t.head? = some (.char '#') then skipLine t else t
    match lineBreak? t with
    | none => { s with cursor := s.cursor.moveTo t }
    | some (_, rest) =>
      skipToToken fuel
        { s with cursor := s.cursor.moveTo rest, keyAllowed := s.keyAllowed || !s.inFlow }

def scanEnd (s : Scanner) : Step := do
  let s ← (s.unwind (-1)).removeKey
  return push .streamEnd { s with keyAllowed := false, keys := [] }

def scanSeparator (t : Token) (s : Scanner) : Step := do
  let s ← (s.unwind (-1)).removeKey
  return ((s.allowKey false).skip 3).push t

def scanDirective (s : Scanner) : Step := do
  let s ← (s.unwind (-1)).removeKey
  let (d, rest) ← directive (s.cursor.rest.drop 1)
  return { s.allowKey false with cursor := s.cursor.moveTo rest }.push (.directive d)

def openFlow (t : Token) (s : Scanner) : Step := do
  let s ← s.saveKey
  return ({ s with flowLevel := s.flowLevel + 1, keyAllowed := true }.skip 1).push t

def closeFlow (t : Token) (s : Scanner) : Step := do
  let s ← s.removeKey
  return ({ s with flowLevel := s.flowLevel - 1, keyAllowed := false }.skip 1).push t

def scanFlowEntry (s : Scanner) : Step := do
  let s ← s.removeKey
  return ((s.allowKey true).skip 1).push .flowEntry

/-- A hyphen that starts an element of a block. -/
def scanBlockEntry (s : Scanner) : Step := do
  if !s.inFlow && !s.keyAllowed then .error .malformed
  let s := if s.inFlow then s else s.openBlock .blockSequenceStart
  let s ← (s.allowKey true).removeKey
  return (s.skip 1).push .blockEntry

/-- A question mark that starts a key. -/
def scanKey (s : Scanner) : Step := do
  if !s.inFlow && !s.keyAllowed then .error .malformed
  let s := if s.inFlow then s else s.openBlock .blockMappingStart
  let s ← (s.allowKey !s.inFlow).removeKey
  return (s.skip 1).push .key

/-- A colon after a simple key: the key's tokens go in front of it. -/
def confirmKey (k : PossibleKey) (s : Scanner) : Scanner :=
  let s := { s with keys := s.keys.filter fun (level, _) => level != s.flowLevel }
  let (tokens, s) :=
    if s.inFlow then ([Token.key], s)
    else
      match s.deepen? k.column with
      | some s => ([Token.blockMappingStart, Token.key], s)
      | none => ([Token.key], s)
  { s with splices := s.splices ++ [(k.token, tokens)], keyAllowed := false }

/-- A colon that starts a value. -/
def scanValue (s : Scanner) : Step := do
  match s.keys.find? fun (level, _) => level == s.flowLevel with
  | some (_, k) => return ((s.confirmKey k).skip 1).push .value
  | none =>
    if !s.inFlow && !s.keyAllowed then .error .malformed
    let s := if s.inFlow then s else s.openBlock .blockMappingStart
    let s ← (s.allowKey !s.inFlow).removeKey
    return (s.skip 1).push .value

/-- A token that a simple key may begin with, given how it is read after its first code point. -/
def scanWord {α : Type} (read : Text → Except Fault (α × Text)) (token : α → Token) (s : Scanner) :
    Step := do
  let s ← s.saveKey
  let (a, rest) ← read s.cursor.rest
  return { s.allowKey false with cursor := s.cursor.moveTo rest }.push (token a)

def scanBlockScalar (s : Scanner) : Step := do
  let s ← (s.allowKey true).removeKey
  let (text, rest) ← Block.scan s.indent s.cursor.rest
  return { s with cursor := s.cursor.moveTo rest }.push (.scalar text false)

def scanPlain (s : Scanner) : Step := do
  let s ← s.saveKey
  let scanned := Plain.scan s.inFlow (s.indent + 1) s.cursor.rest
  return { s.allowKey scanned.newLine with cursor := s.cursor.moveTo scanned.rest }.push
    (.scalar scanned.value true)

/-- Whether a mark stands by itself here: always inside brackets, otherwise at the end of a word. -/
def standsAlone (s : Scanner) (rest : Text) : Bool := s.inFlow || atWordEnd rest

def scanToken (s : Scanner) : Step :=
  let t := s.cursor.rest
  let atMargin := s.cursor.column = 0
  match t with
  | [] => s.scanEnd
  | p :: rest =>
    if atMargin && p = .char '%' then s.scanDirective
    else if atMargin && p = .char '-' && atSeparator t then s.scanSeparator .documentStart
    else if atMargin && p = .char '.' && atSeparator t then s.scanSeparator .documentEnd
    else if p = .char '[' then s.openFlow .flowSequenceStart
    else if p = .char '{' then s.openFlow .flowMappingStart
    else if p = .char ']' then s.closeFlow .flowSequenceEnd
    else if p = .char '}' then s.closeFlow .flowMappingEnd
    else if p = .char ',' then s.scanFlowEntry
    else if p = .char '-' && atWordEnd rest then s.scanBlockEntry
    else if p = .char '?' && s.standsAlone rest then s.scanKey
    else if p = .char ':' && s.standsAlone rest then s.scanValue
    else if p = .char '*' then s.scanWord (fun t => anchorName (t.drop 1)) .alias
    else if p = .char '&' then s.scanWord (fun t => anchorName (t.drop 1)) .anchor
    else if p = .char '!' then s.scanWord tag .tag
    else if !s.inFlow && (p = .char '|' || p = .char '>') then s.scanBlockScalar
    else if p = .char '\'' || p = .char '"' then s.scanWord Quoted.scan (.scalar · false)
    else if Plain.mayStart s.inFlow t then s.scanPlain
    else .error .malformed

def next (s : Scanner) : Step := do
  let s := s.skipToToken (s.cursor.rest.length + 1)
  let s ← s.dropStale
  (s.unwind s.cursor.column).scanToken

/-- The tokens with the spliced ones in their places, the first token having the given number. -/
def merge (splices : List (Nat × List Token)) : (number : Nat) → List Token → List Token
  | _, [] => []
  | number, t :: rest =>
    (splices.filter fun (place, _) => place == number).flatMap (·.2) ++
      t :: merge splices (number + 1) rest

def tokens (s : Scanner) : List Token := merge s.splices 0 s.reversed.reverse

/-- The tokens before a fault: a token that may still become a key is not known yet. -/
def tokensBefore (f : Fault) (s : Scanner) : List Token :=
  let known := s.keys.foldl (fun n (_, k) => min n k.token) s.count
  merge s.splices 0 (s.reversed.reverse.take known) ++ [.fault f]

/-- Scans up to the end or the first fault. -/
def run : (fuel : Nat) → Scanner → List Token
  | 0, s => s.tokens
  | fuel + 1, s =>
    match s.next with
    | .error f => s.tokensBefore f
    | .ok s => if s.reversed.head? = some .streamEnd then s.tokens else run fuel s

end Scanner

/-- The tokens of a text. A byte order mark at its start is passed over. -/
def tokensOf (text : Text) : List Token :=
  let s := Scanner.start text
  let s := if text.head? = some (.char '\uFEFF') then s.skip 1 else s
  s.run (text.length + 2)

end GrammarBundle.Yaml
