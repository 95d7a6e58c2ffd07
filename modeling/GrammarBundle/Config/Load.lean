import GrammarBundle.Config.Settings
import GrammarBundle.Run.Context
import GrammarBundle.Run.Host
import GrammarBundle.Yaml.Document

/-!
Loading a configuration: which document is read, how its file name decides its format, and how its
settings and the environment make the configuration of a run. Of what reads the richer format only this is
used, that it comes to a value, to a fault of form or to another fault; a run reads it as `Yaml.read` does.
-/

namespace GrammarBundle.Config

/-- The file names under which a document is looked for, in order. -/
def fileNames : List Text := ["ohm-bundler.yaml", "ohm-bundler.yml", "ohm-bundler.json"]

def firstFile (directory : Path) : List Text → Action (Option Path)
  | [] => return none
  | name :: rest => do
    let path := directory.join name
    if ← Action.isFile path then return some path else firstFile directory rest

def findFile (directory : Path) : Action (Option Path) := firstFile directory fileNames

/-- What reads the richer format of documents: a text has a value or a fault. -/
abbrev Reader := Text → Except Yaml.Fault Datum

/-- The value of a document's text; the extension `.json` makes it JSON, all else is for the reader. -/
def parseWith (reader : Reader) (path : Path) (text : Text) : Except Failure Datum :=
  if path.suffix = ".json" then
    match Json.read text with
    | .ok v => .ok v.toDatum
    | .error (.tooManyDigits count) => .error (.json (.tooManyDigits count))
    | .error fault => .error (.configUnreadable path.toText (.json fault))
  else
    match reader text with
    | .ok v => .ok v
    | .error .malformed => .error (.configUnreadable path.toText .malformed)
    | .error (.scalar fault) => .error (.scalar fault)

abbrev parse (path : Path) (text : Text) : Except Failure Datum := parseWith Yaml.read path text

/-- The settings of a document that comes from a path, if it comes from one. -/
def settingsOf (path : Option Text) (document : Datum) : Except Failure Settings :=
  match Settings.isWordless document, Settings.ofDocument document with
  | true, _ => .error (.unprintable .tooManyDigits)
  | false, .ok settings => .ok settings
  | false, .error violation => .error (.configInvalid path violation)

/-- The document to read: the one that was asked for, which must be there, or that of the directory. -/
def documentPath (directory : Path) (explicit : Option Text) : Action (Option Path) := do
  match explicit.filter (!·.isEmpty) with
  | none => findFile directory
  | some name =>
    let path := directory.join name
    if ← Action.isFile path then return some path
    else throw (.configMissing path.toText)

def loadWith (reader : Reader) (directory : Path) (explicit : Option Text) : Action Config := do
  let environment := (← get).environment
  let look (name : Text) : Option Text :=
    (environment.find? fun (key, _) => key = name).map (·.2)
  match ← documentPath directory explicit with
  | none => return standard.withEnvironment look
  | some path =>
    let document ← Action.ofExcept id (parseWith reader path (← Action.readText path))
    let settings ← Action.ofExcept id (settingsOf (some path.toText) document)
    return (ofSettings path settings).withEnvironment look

abbrev load (directory : Path) (explicit : Option Text) : Action Config :=
  loadWith Yaml.read directory explicit

end GrammarBundle.Config

namespace GrammarBundle

/-- What a context is made from; what is absent or empty has a default. -/
structure ContextArguments where
  runId : Option Text
  workdir : Option Text
  dryRun : Bool
  format : Text
  verbose : Bool
  quiet : Bool
  logJson : Bool
  configPath : Option Text

namespace ContextArguments

/-- The arguments of a context of which nothing is asked. -/
def standard : ContextArguments := ⟨none, none, false, "text", false, false, false, none⟩

def runIdVariable : Text := "RUN_ID"

/-- The name of a run that nothing else names: the program and the time. -/
def defaultRunId (now : DateTime) : Text := "ohm-bundler-" ++ now.stamp

def firstGiven (fallback : Text) : List (Option Text) → Text
  | [] => fallback
  | none :: rest => firstGiven fallback rest
  | some t :: rest => if t.isEmpty then firstGiven fallback rest else t

/-- The context of a run, its configuration loaded. -/
def start (a : ContextArguments) : Action Context := do
  let host ← get
  let named ← Action.variableValue runIdVariable
  let workdir :=
    match a.workdir.filter (!·.isEmpty) with
    | some t => Path.ofText t
    | none => ⟨"/", host.workdir⟩
  let config ← Config.load workdir a.configPath
  return ⟨firstGiven (defaultRunId host.now) [a.runId, named], workdir, a.dryRun, a.format,
    a.verbose, a.quiet, a.logJson, config⟩

end ContextArguments

end GrammarBundle
