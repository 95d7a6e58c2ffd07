import GrammarBundle.Command.Run
import GrammarBundle.Proofs.Bundle.Promises
import GrammarBundle.Proofs.Config.Load
import GrammarBundle.Proofs.Json.Canonical

/-!
The command that generates bundles, step by step: a configuration is loaded, the start is logged, the run
fills its sink, and what the sink holds is shown. In JSON it is always shown; the lines of the other form
are shown up to the first that the output refuses.
-/

namespace GrammarBundle.Command

theorem on_fill {sink : Bundle.Sink} {step : Bundle.Emission Unit} {host : Host} :
    (fill sink step).on host =
      match step.on ⟨host, sink⟩ with
      | (.ok _, session) => (.ok session.sink, session.host)
      | (.error failure, session) => (.error failure, session.host) := rfl

/-- Lines that are printed one by one, up to the first that the output refuses. -/
def printedOn (host : Host) : List Text → Except Failure Unit × Host
  | [] => (.ok (), host)
  | line :: rest =>
    match host.console.refusal? line with
    | some message => (.error (.unprinted message), host)
    | none => printedOn (host.withOutput line) rest

theorem on_printLines (lines : List Text) (host : Host) :
    (printLines lines).on host = printedOn host lines := by
  induction lines generalizing host with
  | nil => rfl
  | cons line rest ih =>
    rw [printLines, Action.on_bind, Action.on_printLine, printedOn]
    cases host.console.refusal? line with
    | some message => rfl
    | none => exact ih (host.withOutput line)

/-- Printing fails where the output refuses one of the lines. -/
theorem refused_of_printedOn {lines : List Text} {host after : Host} {failure : Failure}
    (failed : printedOn host lines = (.error failure, after)) :
    after.console = host.console ∧
      ∃ line ∈ lines, ∃ message, host.console.refusal? line = some message ∧
        failure = .unprinted message := by
  induction lines generalizing host with
  | nil => cases failed
  | cons line rest ih =>
    rw [printedOn] at failed
    cases refused : host.console.refusal? line with
    | some message =>
      rw [refused] at failed
      cases failed
      exact ⟨rfl, line, List.mem_cons_self, message, refused, rfl⟩
    | none =>
      rw [refused] at failed
      obtain ⟨same, later, member, cause⟩ := ih failed
      exact ⟨same, later, List.mem_cons_of_mem line member, cause⟩

/-- The parts that are shown of a sink after a run. -/
def shownParts (dryRun : Bool) (sink : Bundle.Sink) : Members :=
  if dryRun then
    [("files_to_write", .object (sink.files.map fun (name, contents) => (name, .str contents)))]
  else [("written", .list (sink.written.map fun path => .str path.toText))]

/-- The lines that are shown of a sink after a run, where no JSON is asked for. -/
def shownLines (ctx : Context) (sink : Bundle.Sink) : List Text :=
  if ctx.dryRun then sink.files.flatMap (plannedLines ctx) else sink.written.map Path.toText

theorem on_emit {v : Json} (asJson : Bool) (host : Host) (printable : v.isPrintable = true) :
    (emit asJson v).on host = (.ok (), host.withOutput (printed asJson v)) := by
  unfold emit
  rw [Action.on_bind, Action.on_ofExcept, Json.dump, if_pos printable]
  dsimp only [Except.mapError]
  rw [Action.on_printLine, host.console.ascii _ (Json.ascii_portable v (!asJson))]
  rfl

theorem printable_baseMembers (ctx : Context) (status : Text) :
    Json.arePrintableMembers (baseMembers ctx status) = true := by
  have version : (Json.int 1).isPrintable = true := by
    rw [Json.isPrintable, Int.natAbs_one, Text.ofNat, if_pos (by decide)]
    decide
  change ((Json.int 1).isPrintable && true) = true
  rw [version]
  rfl

theorem printable_payload (ctx : Context) (status : Text) {parts : Members}
    (printable : Json.arePrintableMembers parts = true) :
    (payload ctx status parts).isPrintable = true := by
  rw [payload, Json.isPrintable, Json.arePrintableMembers_iff]
  intro m member
  rcases List.mem_append.mp member with base | part
  · exact Json.arePrintableMembers_iff.mp (printable_baseMembers ctx status) m base
  · exact Json.arePrintableMembers_iff.mp printable m part

theorem printable_shownParts (dryRun : Bool) (sink : Bundle.Sink) :
    Json.arePrintableMembers (shownParts dryRun sink) = true := by
  unfold shownParts
  split
  · have files : Json.arePrintableMembers (sink.files.map fun (name, contents) => (name, .str contents)) =
        true := by
      refine Json.arePrintableMembers_iff.mpr fun m member => ?_
      obtain ⟨file, _, rfl⟩ := List.mem_map.mp member
      rfl
    rw [Json.arePrintableMembers, Json.isPrintable, files]
    rfl
  · have paths : Json.arePrintable (sink.written.map fun path => .str path.toText) = true := by
      refine Json.arePrintable_iff.mpr fun v member => ?_
      obtain ⟨path, _, rfl⟩ := List.mem_map.mp member
      rfl
    rw [Json.arePrintableMembers, Json.isPrintable, paths]
    rfl

/-- How showing a sink on a host ends. -/
def showOn (ctx : Context) (asJson : Bool) (sink : Bundle.Sink) (host : Host) :
    Except Failure Unit × Host :=
  if asJson then
    (.ok (), host.withOutput ((payload ctx okStatus (shownParts ctx.dryRun sink)).portable false))
  else printedOn host (shownLines ctx sink)

theorem on_show {ctx : Context} {asJson : Bool} {sink : Bundle.Sink} {host : Host} :
    (if ctx.dryRun then printPlan ctx asJson sink.files else printWritten ctx asJson sink.written).on host =
      showOn ctx asJson sink host := by
  have emitted := on_emit true host
    (printable_payload ctx okStatus (printable_shownParts ctx.dryRun sink))
  unfold showOn shownLines printPlan printWritten
  cases dry : ctx.dryRun <;> rw [dry] at emitted <;> cases asJson
  case false.true | true.true => exact emitted
  case false.false | true.false => exact on_printLines _ _

theorem on_generateBundles {ctx : Context} {asJson : Bool} {patterns : List Text} {withTypes esm : Bool}
    {host : Host} :
    (generateBundles ctx asJson patterns withTypes esm).on host =
      match Bundle.generate ctx (bundleOptions ctx withTypes esm) patterns host with
      | (.ok _, session) => showOn ctx asJson session.sink session.host
      | (.error failure, session) => (.error failure, session.host) := by
  unfold generateBundles Bundle.generate
  dsimp only
  rw [Action.on_bind, on_fill]
  generalize (Bundle.bundlePatterns ctx (bundleOptions ctx withTypes esm) patterns).on
    ⟨host, Bundle.defaultSink ctx (bundleOptions ctx withTypes esm)⟩ = ended
  obtain ⟨result, session⟩ := ended
  cases result with
  | error failure => rfl
  | ok _ => exact on_show

/-- Generating bundles: its configuration cannot be loaded, or the run begins after the start is logged. -/
theorem on_perform {i : Invocation} {patterns : List Text} {withTypes esm : Bool}
    (command : i.command = .generateBundles patterns withTypes esm) (format : Text) (host : Host) :
    (∃ failure, ((Config.load (Config.placeOf (i.contextArguments format) host)
        i.switches.config).on host).1 = .error failure ∧
      (i.perform format).on host = (.error failure, host)) ∨
    ∃ config errors ctx, ((Config.load (Config.placeOf (i.contextArguments format) host)
        i.switches.config).on host).1 = .ok config ∧
      ctx = Config.contextOf (i.contextArguments format) host config ∧
      host.Noted (host.logged errors) ∧
      (i.perform format).on host =
        match Bundle.generate ctx (bundleOptions ctx withTypes esm) patterns (host.logged errors) with
        | (.ok _, session) =>
          ((showOn ctx (format = "json") session.sink session.host).1.map fun _ => .success,
            (showOn ctx (format = "json") session.sink session.host).2)
        | (.error failure, session) => (.error failure, session.host) := by
  unfold Invocation.perform
  rw [Action.on_bind, Config.on_start, command]
  change (∃ failure, ((Config.load _ (i.contextArguments format).configPath).on host).1 = _ ∧ _) ∨
    ∃ config errors ctx, ((Config.load _ (i.contextArguments format).configPath).on host).1 = _ ∧ _
  cases (Config.load (Config.placeOf (i.contextArguments format) host)
      (i.contextArguments format).configPath).on host |>.1 with
  | error failure => exact .inl ⟨failure, rfl, rfl⟩
  | ok config =>
    right
    let ctx := Config.contextOf (i.contextArguments format) host config
    obtain ⟨errors, logged⟩ := Action.on_log ctx host
      (Invocation.startEvent ctx (.generateBundles patterns withTypes esm)) rfl
    have noted := Notes.met_iff.mp (Notes.kept_log ctx
      (Invocation.startEvent ctx (.generateBundles patterns withTypes esm)) host)
    change host.Noted ((Action.log ctx _).on host).2 at noted
    rw [logged] at noted
    refine ⟨config, errors, ctx, rfl, rfl, noted, ?_⟩
    dsimp only [Except.map]
    rw [Action.on_bind, logged]
    dsimp only [Invocation.dispatch]
    rw [Action.on_bind, on_generateBundles]
    generalize Bundle.generate ctx (bundleOptions ctx withTypes esm) patterns (host.logged errors) = ended
    obtain ⟨result, session⟩ := ended
    cases result with
    | error failure => rfl
    | ok _ =>
      dsimp only
      generalize showOn ctx (format = "json") session.sink session.host = shown
      obtain ⟨result, after⟩ := shown
      cases result <;> rfl

end GrammarBundle.Command
