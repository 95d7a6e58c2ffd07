import GrammarBundle.Datum.Calendar
import GrammarBundle.Engine.Process
import GrammarBundle.Files.Disk
import GrammarBundle.Files.Path
import GrammarBundle.Run.Console
import GrammarBundle.Run.Failure
import GrammarBundle.Text.Lines

/-!
The host of a run: all that a run reads and changes. A run is a function of the host that ends with a
result or a failure and with the host as it has become, also where it fails. The output takes the texts
that its console takes. The error output takes every text, since it escapes what it cannot encode; what is
kept of it here is the text before that. Memory and stack are assumed to suffice for every run.
-/

namespace GrammarBundle

/-- Where in the program an event is said to come from. -/
structure Site where
  file : Text
  line : Nat

structure Host where
  disk : Disk
  workdir : Place
  environment : List (Text × Text)
  now : DateTime
  engine : Engine
  /-- The engine's program. -/
  engineScript : Text
  site : Site
  console : Console := .lenient
  /-- The calls made so far. -/
  calls : List Engine.Call
  output : Text
  errors : Text

namespace Host

def withOutput (host : Host) (line : Text) : Host :=
  { host with output := host.output ++ line ++ [.char '\n'] }

def withError (host : Host) (line : Text) : Host :=
  { host with errors := host.errors ++ line ++ [.char '\n'] }

end Host

abbrev Action (α : Type) := ExceptT Failure (StateM Host) α

namespace Action

/-- The result of a computation that may fail for one of its own causes. -/
def ofExcept {ε α : Type} (cause : ε → Failure) : Except ε α → Action α
  | .ok a => pure a
  | .error e => throw (cause e)

def on {α : Type} (step : Action α) (host : Host) : Except Failure α × Host :=
  StateT.run (ExceptT.run step) host

def variableValue (name : Text) : Action (Option Text) := do
  return ((← get).environment.find? fun (key, _) => key = name).map (·.2)

/-- The text of a file, its line ends unified. -/
def readText (path : Path) : Action Text := do
  let host ← get
  let bytes ← ofExcept (Failure.ofPath path.toText) (host.disk.read host.workdir path.toText)
  let text ← ofExcept Failure.undecodable (Utf8.decode bytes)
  return Text.unifyLineEnds text

def writeBytes (path : Path) (bytes : List UInt8) : Action Unit := do
  let host ← get
  let disk ← ofExcept (Failure.ofPath path.toText)
    (host.disk.write host.workdir path.toText bytes)
  set { host with disk }

/-- Writes text to a file. The file is opened before the text is encoded, so that text which cannot be
encoded leaves it empty. -/
def writeText (path : Path) (text : Text) : Action Unit := do
  match Utf8.encode text with
  | .ok bytes => writeBytes path bytes
  | .error fault =>
    writeBytes path []
    throw (.unencodable fault)

/-- The faults that asking for the kind of a file lets through: a path that leads nowhere is no
fault. -/
def isGrave : PathFault → Bool
  | .system .noEntry => false
  | .system .notDirectory => false
  | .system .tooManyLinks => false
  | .system (.other 9) => false
  | .system _ => true
  | .zeroCharacter => false
  | .unencodable _ => false

/-- What a path leads to, if it leads anywhere. -/
def nodeAt (path : Path) : Action (Option Node) := do
  let host ← get
  match host.disk.look host.workdir true path.toText with
  | .ok (_, node) => return some node
  | .error fault =>
    if isGrave fault then throw (Failure.ofPath path.toText fault) else return none

def isFile (path : Path) : Action Bool := do
  match ← nodeAt path with
  | some (.file _) => return true
  | _ => return false

def isDirectory (path : Path) : Action Bool := do
  match ← nodeAt path with
  | some .directory => return true
  | _ => return false

/-- Prints text with a line feed after it, unless the output refuses it. -/
def printLine (text : Text) : Action Unit := do
  match (← get).console.refusal? text with
  | some message => throw (.unprinted message)
  | none => modify fun host => host.withOutput text

/-- Prints an error message with a line feed after it. -/
def printError (text : Text) : Action Unit :=
  modify fun host => host.withError text

end Action

end GrammarBundle
