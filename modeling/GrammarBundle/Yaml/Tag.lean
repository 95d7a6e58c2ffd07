import GrammarBundle.Text.Decimal
import GrammarBundle.Text.Utf8
import GrammarBundle.Yaml.Blank

/-!
Tags, anchors and directives: the words that say how a node is to be read, how it is called, and what
the shorthands of tags stand for.
-/

namespace GrammarBundle.Yaml

/-- A written tag: a handle, if it has one, and the rest. -/
structure WrittenTag where
  handle : Option Text
  suffix : Text
  deriving DecidableEq, Repr

/-- A directive: a version, a handle with what it stands for, or one that means nothing here. -/
inductive Directive where
  | version (major : Nat)
  | tag (handle expansion : Text)
  | other
  deriving DecidableEq, Repr

/-- The code points of a tag besides letters and digits. -/
def isUriPoint (p : CodePoint) : Bool :=
  match p with
  | .char c =>
    ('0' ≤ c && c ≤ '9') || ('A' ≤ c && c ≤ 'Z') || ('a' ≤ c && c ≤ 'z') ||
      "-;/?:@&=+$,_.!~*'()[]%".toList.contains c
  | .surrogate _ => false

/-- The bytes of percent escapes at the head of a text, with the text after them. -/
def percentBytes : (fuel : Nat) → Text → Except Fault (List UInt8 × Text)
  | 0, t => .ok ([], t)
  | fuel + 1, t =>
    match t with
    | .char '%' :: rest =>
      match (rest.take 2).mapM CodePoint.hexDigit? with
      | some [a, b] =>
        match percentBytes fuel (rest.drop 2) with
        | .error fault => .error fault
        | .ok (bytes, rest) => .ok (UInt8.ofNat (a * 16 + b) :: bytes, rest)
      | _ => .error .malformed
    | t => .ok ([], t)

/-- The code points of a tag, percent escapes decoded. -/
def uriPoints : (fuel : Nat) → Text → Except Fault (Text × Text)
  | 0, t => .ok ([], t)
  | fuel + 1, t =>
    match t with
    | [] => .ok ([], [])
    | p :: rest =>
      if p = .char '%' then do
        let (bytes, rest) ← percentBytes (t.length + 1) t
        match Utf8.decode bytes with
        | .error _ => .error .malformed
        | .ok decoded =>
          let (more, rest) ← uriPoints fuel rest
          return (decoded ++ more, rest)
      else if isUriPoint p then do
        let (more, rest) ← uriPoints fuel rest
        return (p :: more, rest)
      else .ok ([], t)

/-- The text of a tag, which must not be empty. -/
def uri (t : Text) : Except Fault (Text × Text) :=
  if (t.head?.map isUriPoint).getD false then uriPoints (t.length + 1) t else .error .malformed

/-- A handle: an exclamation mark, alone or with a word and a second one. -/
def handle (t : Text) : Except Fault (Text × Text) :=
  match t with
  | .char '!' :: rest =>
    if rest.head? = some (.char ' ') then .ok ("!", rest)
    else
      let word := rest.takeWhile isWordPoint
      match rest.drop word.length with
      | .char '!' :: rest => .ok (.char '!' :: word ++ [.char '!'], rest)
      | _ => .error .malformed
  | _ => .error .malformed

def tag (t : Text) : Except Fault (WrittenTag × Text) := do
  let rest := t.drop 1
  let (written, rest) ←
    if rest.head? = some (.char '<') then do
      let (suffix, rest) ← uri (rest.drop 1)
      if rest.head? ≠ some (.char '>') then .error .malformed
      pure (WrittenTag.mk none suffix, rest.drop 1)
    else if atWordEnd rest then pure (WrittenTag.mk none "!", rest)
    else if ((rest.takeWhile fun p => !(isSpace p || isBreak p)).elem (.char '!')) then do
      let (name, rest) ← handle t
      let (suffix, rest) ← uri rest
      pure (WrittenTag.mk (some name) suffix, rest)
    else do
      let (suffix, rest) ← uri rest
      pure (WrittenTag.mk (some "!") suffix, rest)
  if atSpace rest then return (written, rest) else .error .malformed

/-- The name of an anchor or alias after its mark. -/
def anchorName (t : Text) : Except Fault (Text × Text) :=
  let name := t.takeWhile isWordPoint
  let rest := t.drop name.length
  let ends := atWordEnd rest ||
    (rest.head?.map (·.isOneOf ['?', ':', ',', ']', '}', '%', '@', '`'])).getD false
  if name ≠ [] && ends then .ok (name, rest) else .error .malformed

def versionNumber (t : Text) : Except Fault (Nat × Text) :=
  let digits := t.takeWhile (·.isDigit)
  match Text.nat? digits with
  | none => .error .malformed
  | some n =>
    if Json.digitLimit < digits.length then .error (.scalar (.tooManyDigits digits.length))
    else .ok (n, t.drop digits.length)

/-- A directive after its percent sign, with the text after its line. -/
def directive (t : Text) : Except Fault (Directive × Text) := do
  let name := t.takeWhile isWordPoint
  let rest := t.drop name.length
  if name = [] ∨ !atSpace rest then .error .malformed
  if name = "YAML" then
    let (major, rest) ← versionNumber (skipSpaces rest)
    if rest.head? ≠ some (.char '.') then .error .malformed
    let (_, rest) ← versionNumber (rest.drop 1)
    if !atSpace rest then .error .malformed
    return (.version major, ← lineRest rest)
  else if name = "TAG" then
    let (name, rest) ← handle (skipSpaces rest)
    if rest.head? ≠ some (.char ' ') then .error .malformed
    let (expansion, rest) ← uri (skipSpaces rest)
    if !atSpace rest then .error .malformed
    return (.tag name expansion, ← lineRest rest)
  else return (.other, ← lineRest (skipLine rest))

end GrammarBundle.Yaml
