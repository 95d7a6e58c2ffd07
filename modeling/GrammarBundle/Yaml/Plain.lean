import GrammarBundle.Yaml.Blank

/-!
Plain scalars: text without quotes. It ends at a comment, at a colon that ends a word, at a separator of
documents, at a line that is indented too little, and inside brackets at their punctuation. Lines fold
as in quoted scalars.
-/

namespace GrammarBundle.Yaml.Plain

def mayStart (inFlow : Bool) (t : Text) : Bool :=
  match t with
  | [] => false
  | p :: rest =>
    !(isBlank p || isBreak p ||
      p.isOneOf ['-', '?', ':', ',', '[', ']', '{', '}', '#', '&', '*', '!', '|', '>', '\'', '"', '%',
        '@', '`']) ||
      (!atWordEnd rest && (p = .char '-' || (!inFlow && p.isOneOf ['?', ':'])))

def wordEnds (inFlow : Bool) (t : Text) : Bool :=
  match t with
  | [] => true
  | p :: rest =>
    isBlank p || isBreak p ||
      (p = .char ':' &&
        (atWordEnd rest ||
          (inFlow && (rest.head?.map (·.isOneOf [',', '[', ']', '{', '}'])).getD false))) ||
      (inFlow && p.isOneOf [',', '?', '[', ']', '{', '}'])

def word (inFlow : Bool) : Text → Text × Text
  | [] => ([], [])
  | p :: rest =>
    if wordEnds inFlow (p :: rest) then ([], p :: rest)
    else
      let (more, rest) := word inFlow rest
      (p :: more, rest)

/-- What lies between two words: the text that joins them, none where the scalar ends; whether a line
ended; the spaces before the next word on its line; and the text from there. -/
structure Gap where
  joint : Option Text
  newLine : Bool
  column : Nat
  rest : Text

/-- The blank lines after a line break, with the spaces on the line that follows; none where a
separator of documents stands. -/
def breaks : (fuel : Nat) → (column : Nat) → Text → Option Text × Nat × Text
  | 0, column, t => (some [], column, t)
  | fuel + 1, column, t =>
    match t with
    | .char ' ' :: rest => breaks fuel (column + 1) rest
    | t =>
      match lineBreak? t with
      | none => (some [], column, t)
      | some (chunk, rest) =>
        if atSeparator rest then (none, 0, rest)
        else
          let (more, column, rest) := breaks fuel 0 rest
          (more.map (chunk ++ ·), column, rest)

def gap (t : Text) : Gap :=
  let space := t.takeWhile isSpace
  let rest := t.drop space.length
  match lineBreak? rest with
  | none => ⟨if space = [] then none else some space, false, 0, rest⟩
  | some (chunk, rest) =>
    if atSeparator rest then ⟨none, true, 0, rest⟩
    else
      match breaks (rest.length + 1) 0 rest with
      | (none, column, rest) => ⟨none, true, column, rest⟩
      | (some more, column, rest) =>
        let first : Text :=
          if chunk ≠ ([.char '\n'] : Text) then chunk else Text.onlyIf more.isEmpty " "
        ⟨some (first ++ more), true, column, rest⟩

/-- A scanned scalar: its value, whether its last gap ended a line, and the text after it. -/
structure Scanned where
  value : Text
  newLine : Bool
  rest : Text

/-- The words from here on, given the joint before them. -/
def words (inFlow : Bool) (indent : Int) : (fuel : Nat) → (joint : Text) → (newLine : Bool) → Text →
    Scanned
  | 0, _, newLine, t => ⟨[], newLine, t⟩
  | fuel + 1, joint, newLine, t =>
    if t.head? = some (.char '#') then ⟨[], newLine, t⟩
    else
      match word inFlow t with
      | ([], t) => ⟨[], newLine, t⟩
      | (w, rest) =>
        let g := gap rest
        match g.joint with
        | none => ⟨joint ++ w, g.newLine, g.rest⟩
        | some next =>
          if !inFlow && g.newLine && (g.column : Int) < indent then ⟨joint ++ w, true, g.rest⟩
          else
            let more := words inFlow indent fuel next g.newLine g.rest
            { more with value := joint ++ w ++ more.value }

/-- A plain scalar at the head of a text, whose further lines must be indented at least so far. -/
def scan (inFlow : Bool) (indent : Int) (t : Text) : Scanned :=
  words inFlow indent (t.length + 1) [] false t

end GrammarBundle.Yaml.Plain
