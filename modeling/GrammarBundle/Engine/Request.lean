import GrammarBundle.Engine.Command
import GrammarBundle.Grammar.Rows
import GrammarBundle.Text.Lines

/-!
Requests to the engine. A request is one JSON object on the input of one process, and its answer one
JSON object on the process's output. Every outcome that is no answer is a failure of its own kind.
-/

namespace GrammarBundle.Engine

/-- The names that the fields of a request cannot have. -/
def fixedNames : List Text := ["self", "op"]

/-- A request as JSON: the operation, the runtime to load, and the fields. -/
def requestJson (operation : Text) (ctx : Context) (fields : Members) : Json :=
  .object (Members.putAll fields
    [("op", .str operation), ("ohmModule", .str ctx.config.runtime)])

/-- The answer that a process's result holds, or why it holds none. -/
def answerOf (operation : Text) (r : CommandResult) : Except Failure Json :=
  if r.code = stoppedCode then
    match (Text.lines r.errors).getLast? with
    | none => .error (.shape (.outOfRange true))
    | some note => .error (.timedOut operation note)
  else
    match Json.read r.output with
    | .error (.tooManyDigits count) => .error (.json (.tooManyDigits count))
    | .error _ =>
      .error (.engineFailed operation
        (if r.combined.isEmpty then "exit code " ++ Text.ofInt r.code else r.combined))
    | .ok payload =>
      match payload.member? "status" with
      | .error fault => .error (.shape fault)
      | .ok (some (.str ['o', 'k'])) => .ok payload
      | .ok _ =>
        match payload.member? "message" with
        | .error fault => .error (.shape fault)
        | .ok message =>
          .error (.notCompiled ((message.getD (.str "unknown bridge error")).plain))

/-- Asks the engine, in the directory of the context, which must be there. -/
def ask (ctx : Context) (operation : Text) (fields : Members) : Action Json := do
  match (fields.map (·.1)).find? fixedNames.contains with
  | some name => throw (.repeatedField "NodeBridge.call" name)
  | none =>
    if !(← Action.isDirectory ctx.workdir) then
      throw (.workdirMissing ctx.workdir.toText)
    let script := (← get).engineScript
    let request ← Action.ofExcept Failure.unprintable (requestJson operation ctx fields).dumpLine
    let result ←
      tryCatch
        (runCommand [ctx.config.node, script] ctx.workdir.toText (some request) ctx.config.timeout
          (some ctx))
        fun failure =>
          match failure with
          | .system ⟨.noEntry, _⟩ => throw (.nodeMissing ctx.config.node)
          | failure => throw failure
    Action.ofExcept id (answerOf operation result)

def compile (ctx : Context) (source : Text) : Action Collection := do
  let payload ← ask ctx "compile" [("source", .str source)]
  let rows ← Action.ofExcept Failure.shape (payload.member "grammars")
  Action.ofExcept Failure.shape (Collection.ofRows rows [])

/-- The source text of a grammar; a grammar without one has an empty source. -/
def sourceText (g : Grammar) : Text :=
  match g.source with
  | .error _ => []
  | .ok v => if v.isGiven then v.plain else []

def generateTypes (ctx : Context) (c : Collection) : Action Text := do
  let sources := c.map fun entry => Json.str (sourceText entry.grammar)
  let payload ← ask ctx "types"
    [("typesModule", .str ctx.config.typesModule), ("sources", .list sources)]
  return (← Action.ofExcept Failure.shape (payload.member "types")).plain

def probe (ctx : Context) : Action Json := ask ctx "probe" []

end GrammarBundle.Engine
