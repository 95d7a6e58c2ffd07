import GrammarBundle.Command.Arguments
import GrammarBundle.Command.Doctor
import GrammarBundle.Command.Generate
import GrammarBundle.Config.Load
import GrammarBundle.Run.ErrorReport

/-!
Running a command line on a host. The run always ends with an exit code: a command line that cannot be
read is answered with its usage, and a failure of the command with an error report.
-/

namespace GrammarBundle

namespace Invocation

/-- The flag that asks for JSON, as it is written in full. -/
def jsonFlag : Text := "--json"

def contextArguments (i : Invocation) (format : Text) : ContextArguments where
  runId := i.switches.runId
  workdir := i.switches.workdir
  dryRun := i.switches.dryRun
  format := format
  verbose := i.switches.verbose
  quiet := i.switches.quiet
  logJson := i.switches.logJson
  configPath := i.switches.config

def dispatch (ctx : Context) (asJson : Bool) : Command.Chosen → Action ExitCode
  | .generateBundles patterns withTypes esm => do
    Command.generateBundles ctx asJson patterns withTypes esm
    return .success
  | .version _ => do
    Command.emit asJson (Command.payload ctx Command.okStatus
      [("version", .str Command.version)])
    return .success
  | .doctor _ => Command.doctor ctx asJson

def startEvent (ctx : Context) (command : Command.Chosen) : LogEvent :=
  ⟨"debug", "cli", "start",
    [("cmd", .str command.name), ("fmt", .str ctx.format), ("dry_run", .bool ctx.dryRun)]⟩

def perform (i : Invocation) (format : Text) : Action ExitCode := do
  let ctx ← (i.contextArguments format).start
  Action.log ctx (startEvent ctx i.command)
  dispatch ctx (format = "json") i.command

/-- Carries out an invocation and reports its failure. -/
def performReported (i : Invocation) (format : Text) (host : Host) : ExitCode × Host :=
  match (i.perform format).on host with
  | (.ok code, host) => (code, host)
  | (.error failure, host) =>
    (failure.exitCode, host.withError (failure.report.render (format = "json")))

/-- What is said about flags that ask for different formats. -/
def conflictMessage : Text :=
  "conflicting output flags: use either --format json or --json"

/-- Whether a format is given that the flag for JSON contradicts. -/
def hasConflict (i : Invocation) (jsonWritten : Bool) : Bool :=
  match i.switches.format with
  | none => false
  | some format => jsonWritten && format ≠ "json"

def run (arguments : List Text) (host : Host) : ExitCode × Host :=
  match read arguments with
  | .error (.shown text) => (.success, host.withOutput text)
  | .error (.misused form fault) => (.usage, host.withError (form.complaint fault))
  | .ok i =>
    let jsonWritten := arguments.contains jsonFlag
    if i.hasConflict jsonWritten then (.config, host.withError conflictMessage)
    else i.performReported (Command.outputFormat jsonWritten i.switches.format) host

end Invocation

end GrammarBundle
