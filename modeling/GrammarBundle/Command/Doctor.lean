import GrammarBundle.Command.Report
import GrammarBundle.Engine.Request

/-!
The command that shows the configuration in force and what the engine runs on. An engine that cannot be
asked is part of the diagnosis.
-/

namespace GrammarBundle.Command

def configJson (c : Config) : Json :=
  .object
    [("source", Json.ofText? (c.source.map Path.toText)), ("node", .str c.node),
      ("ohm_module", .str c.runtime), ("types_module", .str c.typesModule),
      ("timeout_seconds", c.timeout.toJson)]

/-- What asking the engine led to. -/
inductive Diagnosis where
  | healthy (runtime : Json)
  | broken (kind message : Text)

namespace Diagnosis

def status : Diagnosis → Text
  | .healthy _ => okStatus
  | .broken _ _ => "fail"

/-- The description of the engine, or why there is none. -/
def runtimeJson : Diagnosis → Json
  | .healthy runtime => runtime
  | .broken kind message => .object [("error", .str message), ("kind", .str kind)]

def exitCode : Diagnosis → ExitCode
  | .healthy _ => .success
  | .broken _ _ => .prerequisite

end Diagnosis

/-- Asks the engine what it runs on. A failure that the program itself reports is a diagnosis, any other
remains a failure. -/
def diagnose (ctx : Context) : Action Diagnosis :=
  tryCatch (Diagnosis.healthy <$> Engine.probe ctx) fun failure =>
    match failure.report? with
    | some (_, kind) => return .broken kind failure.message
    | none => throw failure

def doctor (ctx : Context) (asJson : Bool) : Action ExitCode := do
  let diagnosis ← diagnose ctx
  emit asJson (payload ctx diagnosis.status
    [("config", configJson ctx.config), ("runtime", diagnosis.runtimeJson)])
  return diagnosis.exitCode

end GrammarBundle.Command
