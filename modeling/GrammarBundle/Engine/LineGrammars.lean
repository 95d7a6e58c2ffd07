import GrammarBundle.Engine.Process
import GrammarBundle.Json.Reader
import GrammarBundle.Json.Writer

/-!
A small engine of line grammars. Each line of a source declares one grammar by its name, with the name
of its base after the mark `<:`; a line that starts with an exclamation mark refuses the whole source
with the message after it. It answers the same requests as a full engine.
-/

namespace GrammarBundle.Engine.LineGrammars

def isSpace (p : CodePoint) : Bool := p.isOneOf [' ', '\t']

def trim (t : Text) : Text := t.trim isSpace

/-- A line's name and base name; the base is empty where none is written. -/
def nameAndBase (line : Text) : Text × Text :=
  match Text.cut? "<:" line with
  | some (name, base) => (trim name, trim base)
  | none => (trim line, [])

def rowOf (line : Text) : Json :=
  let (name, base) := nameAndBase line
  let described : Members :=
    [("name", .str (if base.isEmpty then "BuiltInRules" else base)),
      ("builtIn", .bool base.isEmpty)]
  let rules : Members := [("start", .list [.str "terminal", .object [], .str name])]
  .object
    [("name", .str name), ("superGrammar", .object described),
      ("recipe", .list
        [.str "grammar", .object [("source", .str line)], .str name, .null, .str "start",
          .object rules])]

/-- The answer that refuses a source. -/
def refusal (message : Text) : Json :=
  .object [("status", .str "error"), ("message", .str message)]

/-- The rows of a source, or the message that refuses it. -/
def rowsOf : List Text → Except Text (List Json)
  | [] => .ok []
  | line :: rest =>
    match line with
    | [] => rowsOf rest
    | .char '!' :: message => .error message
    | line => (rowOf line :: ·) <$> rowsOf rest

def textField (name : Text) (request : Members) : Text :=
  match request.get? name with
  | some (.str t) => t
  | _ => []

def textsField (name : Text) (request : Members) : List Text :=
  match request.get? name with
  | some (.list items) =>
    items.filterMap fun item =>
      match item with
      | .str t => some t
      | _ => none
  | _ => []

/-- The answer to a request, with the exit code of the process. -/
def respond (request : Members) : Json × Int :=
  let operation := textField "op" request
  if operation = "compile" then
    match rowsOf ((Text.splitAt '\n' (textField "source" request)).map trim) with
    | .ok rows => (.object [("status", .str "ok"), ("grammars", .list rows)], 0)
    | .error message => (refusal message, 1)
  else if operation = "types" then
    let comments := (textsField "sources" request).map fun source => Text.ofString "// " ++ source
    (.object [("status", .str "ok"), ("types", .str (Text.join "\n" comments))], 0)
  else
    (.object
      [("status", .str "ok"), ("ohmModule", .str ("/stub/" ++ textField "ohmModule" request)),
        ("ohmVersion", .str "17.1.0"), ("node", .str "v20.0.0")], 0)

def answer (call : Call) : Outcome :=
  let request : Members :=
    match Json.read (call.input.getD []) with
    | .ok (.object members) => members
    | _ => []
  let (response, code) := respond request
  .ended code (some response.line) (some []) .still

end GrammarBundle.Engine.LineGrammars
