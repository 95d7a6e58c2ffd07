import GrammarBundle.Json.Writer
import GrammarBundle.Run.Failure

/-!
Error reports: a failure as the command line shows it, in words or as one JSON object.
-/

namespace GrammarBundle

structure ErrorReport where
  message : Json
  code : Json
  kind : Json

namespace ErrorReport

/-- The kind of an error that has no kind of its own. -/
def genericKind : Text := "generic_error"

/-- An error of which nothing but the message is given. -/
def ofMessage (message : Json) : ErrorReport :=
  ⟨message, .int ExitCode.internal.number, .str genericKind⟩

/-- The report with its parts named. -/
def display (r : ErrorReport) : Text :=
  "BundleError(message=" ++ r.message.display ++ ", code=" ++ r.code.display ++ ", kind=" ++
    r.kind.display ++ ")"

def toJson (r : ErrorReport) : Json :=
  .object
    [("schema_name", .str "ohm-bundler.error.v1"), ("schema_version", .int 1),
      ("tool", .str "ohm-bundler"), ("status", .str "error"),
      ("errors", .list
        [.object [("code", r.code), ("kind", r.kind), ("message", r.message)]])]

/-- The report as text: one line of JSON, or the message alone. -/
def render (asJson : Bool) (r : ErrorReport) : Text :=
  if asJson then Json.portable r.toJson false else r.message.plain

end ErrorReport

namespace Failure

def exitCode (f : Failure) : ExitCode :=
  match f.report? with
  | some (code, _) => code
  | none => if f.isSystem then .io else .internal

def report (f : Failure) : ErrorReport :=
  match f.report? with
  | some (code, kind) => ⟨.str f.message, .int code.number, .str kind⟩
  | none =>
    if f.isSystem then ⟨.str f.message, .int ExitCode.io.number, .str "io_error"⟩
    else .ofMessage (.str ("internal error: " ++ f.message))

end Failure

end GrammarBundle
