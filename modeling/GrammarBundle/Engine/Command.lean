import GrammarBundle.Run.Log
import GrammarBundle.Text.Blank

/-!
Running a command: a call is made and recorded, and its outcome becomes a result. A process that was
stopped has an exit code of its own and a note at the end of its error output, which tells the time it
had, as long as this has no more digits than are printed.
-/

namespace GrammarBundle.Engine

/-- The exit code of a process that was stopped because its time was over. -/
def stoppedCode : Int := 124

/-- What a finished or stopped process leaves. -/
structure CommandResult where
  code : Int
  output : Text
  errors : Text
  milliseconds : Int
  deriving DecidableEq, Repr

/-- Both outputs without white space at the ends. -/
def CommandResult.combined (r : CommandResult) : Text := Text.strip (r.output ++ r.errors)

/-- The words of the note about a process that was stopped. -/
def stoppedWords (timeout : Numeral) : Text :=
  "command timed out after " ++ timeout.toText ++ "s"

/-- The note about a process that was stopped, if the time it had can be printed. -/
def stoppedNote (timeout : Numeral) : Except Json.PrintFault Text :=
  if timeout.toJson.isPrintable then .ok (stoppedWords timeout) else .error .tooManyDigits

/-- Why a call has no result. -/
inductive CallFault where
  | refused (reason : SystemReason)
  | failed (message : Text)
  /-- The process was stopped, and there is no note about it. -/
  | untold (fault : Json.PrintFault)

def CallFault.failure (program : Text) : CallFault → Failure
  | .refused reason => .system ⟨reason, program⟩
  | .failed message => .callFailed message
  | .untold fault => .unprintable fault

/-- The result of an outcome, or why it has none. -/
def Outcome.result (timeout : Numeral) : Outcome → Except CallFault CommandResult
  | .ended code output errors clock =>
    .ok ⟨code, output.getD [], errors.getD [], clock.milliseconds⟩
  | .stopped output errors clock =>
    match stoppedNote timeout with
    | .error fault => .error (.untold fault)
    | .ok note =>
      .ok ⟨stoppedCode, output.toText, Text.strip (errors.toText ++ "\n" ++ note), clock.milliseconds⟩
  | .refused reason => .error (.refused reason)
  | .failed message => .error (.failed message)

/-- The call of a command; a timeout that is not positive is none. -/
def callOf (command : List Text) (workdir : Text) (input : Option Text) (timeout : Numeral) : Call :=
  ⟨command, workdir, input, if timeout.isPositive then some timeout else none⟩

/-- Makes a call: it is recorded, and the engine answers it. -/
def make (call : Call) : Action Outcome := do
  let host ← get
  let (outcome, engine) := host.engine.answer call
  set { host with engine, calls := host.calls ++ [call] }
  return outcome

def runCommand (command : List Text) (workdir : Text) (input : Option Text) (timeout : Numeral)
    (ctx : Option Context) : Action CommandResult := do
  let program := command.headD []
  let outcome ← make (callOf command workdir input timeout)
  let result ← Action.ofExcept (CallFault.failure program) (outcome.result timeout)
  match ctx with
  | none => return result
  | some ctx =>
    Action.log ctx ⟨"debug", "process", "run-command",
      [("command", .str program), ("cwd", .str workdir), ("code", .int result.code),
        ("duration_ms", .int result.milliseconds)]⟩
    return result

end GrammarBundle.Engine
