import GrammarBundle.Text.CodePoint
import GrammarBundle.Yaml.Fault

/-!
The characters that structure a document: blanks, line breaks, and what may stand at the end of a word
or of a line. The end of the text ends both.
-/

namespace GrammarBundle.Yaml

def isBreak (p : CodePoint) : Bool := p.isOneOf ['\n', '\r', '\x85', '\u2028', '\u2029']

def isSpace (p : CodePoint) : Bool := p = .char ' '

def isBlank (p : CodePoint) : Bool := p.isOneOf [' ', '\t']

/-- Whether a text is over or starts with a line break. -/
def atLineEnd (t : Text) : Bool :=
  match t with
  | [] => true
  | p :: _ => isBreak p

/-- Whether a text is over or starts with a space or a line break. -/
def atSpace (t : Text) : Bool :=
  match t with
  | [] => true
  | p :: _ => isSpace p || isBreak p

/-- Whether a text is over or starts with a blank or a line break. -/
def atWordEnd (t : Text) : Bool :=
  match t with
  | [] => true
  | p :: _ => isBlank p || isBreak p

/-- A line break at the head of a text, as it is read, with the text after it. All breaks are read as a
line feed but the two separators. -/
def lineBreak? (t : Text) : Option (Text × Text) :=
  match t with
  | .char '\r' :: .char '\n' :: rest => some ([.char '\n'], rest)
  | p :: rest =>
    if p.isOneOf ['\n', '\r', '\x85'] then some ([.char '\n'], rest)
    else if isBreak p then some ([p], rest)
    else none
  | [] => none

def skipBreak (t : Text) : Text :=
  match lineBreak? t with
  | some (_, rest) => rest
  | none => t

def skipSpaces (t : Text) : Text := t.dropWhile isSpace

def skipBlanks (t : Text) : Text := t.dropWhile isBlank

/-- The text up to the end of the line goes. -/
def skipLine (t : Text) : Text := t.dropWhile (!isBreak ·)

/-- Three hyphens or three points as a word, which separate documents. -/
def atSeparator (t : Text) : Bool :=
  (t.take 3 = "---" || t.take 3 = "...") && atWordEnd (t.drop 3)

/-- Letters, digits, hyphen and underscore. -/
def isWordPoint (p : CodePoint) : Bool :=
  match p with
  | .char c =>
    ('0' ≤ c && c ≤ '9') || ('A' ≤ c && c ≤ 'Z') || ('a' ≤ c && c ≤ 'z') || c = '-' || c = '_'
  | .surrogate _ => false

/-- The code points that a document may hold. -/
def isAllowed (p : CodePoint) : Bool :=
  let n := p.val
  n = 0x09 || n = 0x0A || n = 0x0D || (0x20 ≤ n && n ≤ 0x7E) || n = 0x85 || (0xA0 ≤ n && n ≤ 0xD7FF) ||
    (0xE000 ≤ n && n ≤ 0xFFFD) || 0x10000 ≤ n

/-- The rest of a line that may hold spaces and a comment; anything else is a fault. -/
def lineRest (t : Text) : Except Fault Text :=
  let t := skipSpaces t
  let t := if t.head? = some (.char '#') then skipLine t else t
  if atLineEnd t then .ok (skipBreak t) else .error .malformed

end GrammarBundle.Yaml
