import GrammarBundle.Bundle.Generate
import GrammarBundle.Command.Report

/-!
The command that generates bundles. A dry run prints the files that it would write; otherwise the files
are written and their paths are printed.
-/

namespace GrammarBundle.Command

/-- Runs a step that writes to a sink; the sink with what was written. -/
def fill (sink : Bundle.Sink) (step : Bundle.Emission Unit) : Action Bundle.Sink := fun host =>
  match StateT.run (ExceptT.run step) ⟨host, sink⟩ with
  | (.ok _, session) => (.ok session.sink, session.host)
  | (.error failure, session) => (.error failure, session.host)

/-- What a run is asked for: flags turn on what the configuration leaves off. -/
def bundleOptions (ctx : Context) (withTypes esm : Bool) : Bundle.Options :=
  ⟨ctx.dryRun, some ctx.workdir.toText, withTypes || ctx.config.withTypes,
    esm || ctx.config.esm⟩

/-- Prints texts, each on a line of its own. -/
def printLines : List Text → Action Unit
  | [] => return ()
  | t :: rest => do
    Action.printLine t
    printLines rest

/-- The lines for a planned file: its name, and its contents for those who want to see more. -/
def plannedLines (ctx : Context) : Text × Text → List Text
  | (name, contents) => if ctx.verbose then [name, contents] else [name]

def printPlan (ctx : Context) (asJson : Bool) (plan : Bundle.Plan) : Action Unit :=
  if asJson then
    emit true (payload ctx okStatus
      [("files_to_write", .object (plan.map fun (name, contents) => (name, .str contents)))])
  else printLines (plan.flatMap (plannedLines ctx))

def printWritten (ctx : Context) (asJson : Bool) (paths : List Path) : Action Unit :=
  if asJson then
    emit true (payload ctx okStatus [("written", .list (paths.map fun path => .str path.toText))])
  else printLines (paths.map Path.toText)

/-- Generates bundles for patterns and prints the result. -/
def generateBundles (ctx : Context) (asJson : Bool) (patterns : List Text) (withTypes esm : Bool) :
    Action Unit := do
  let opts := bundleOptions ctx withTypes esm
  let sink ← fill (Bundle.defaultSink ctx opts) (Bundle.bundlePatterns ctx opts patterns)
  if ctx.dryRun then printPlan ctx asJson sink.files
  else printWritten ctx asJson sink.written

end GrammarBundle.Command
