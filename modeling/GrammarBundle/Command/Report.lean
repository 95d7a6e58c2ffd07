import GrammarBundle.Json.Writer
import GrammarBundle.Run.Context
import GrammarBundle.Run.Host

/-!
What commands print: JSON objects that start from the same parts, on one line or indented.
-/

namespace GrammarBundle.Command

def version : Text := "0.1.0"

def okStatus : Text := "ok"

/-- The parts that every printed object has. -/
def baseMembers (ctx : Context) (status : Text) : Members :=
  [("schema_version", .int 1), ("tool", .str "ohm-bundler"), ("status", .str status),
    ("run_id", .str ctx.runId), ("cwd", .str ctx.workdir.toText), ("dry_run", .bool ctx.dryRun),
    ("format", .str ctx.format)]

/-- A printed object: the parts that every one has, and its own. -/
def payload (ctx : Context) (status : Text) (parts : Members) : Json :=
  .object (baseMembers ctx status ++ parts)

/-- A value as it is printed: one line for programs, indented for readers. -/
def printed (asJson : Bool) (v : Json) : Text := v.portable (!asJson)

def emit (asJson : Bool) (v : Json) : Action Unit := do
  let text ← Action.ofExcept Failure.unprintable (v.dump (!asJson))
  Action.printLine text

/-- The output format: JSON if its option is given, else the format that is given, else text. -/
def outputFormat (json : Bool) (given : Option Text) : Text :=
  if json then "json"
  else
    match given with
    | none => "text"
    | some t => if t.isEmpty then "text" else t

end GrammarBundle.Command
