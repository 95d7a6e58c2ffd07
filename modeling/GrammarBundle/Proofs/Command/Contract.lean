import GrammarBundle.Proofs.Command.Readings
import GrammarBundle.Proofs.Command.Steps
import GrammarBundle.Proofs.Json.Line

/-!
What programs may rely on that generate bundles with JSON asked for. A run that ends well prints one line,
an object that shows what is planned or what lies on the disk now. A run that fails prints nothing, and
the last line of its error output is an object that shows one error, with the exit code of the run.
-/

namespace GrammarBundle

/-- The exit code of a failure: its own if the program itself reports it, otherwise one for refusals of
the system and one for all else. -/
inductive Failure.Coded : Failure → ExitCode → Prop
  | reported {failure : Failure} {code : ExitCode} {kind : Text} :
      failure.report? = some (code, kind) → Coded failure code
  | system (fault : SystemFault) : Coded (.system fault) .io
  | internal {failure : Failure} : failure.report? = none → failure.isSystem = false →
      Coded failure .internal

theorem Failure.coded_exitCode (failure : Failure) : failure.Coded failure.exitCode := by
  unfold Failure.exitCode
  cases reported : failure.report? with
  | some found => exact .reported reported
  | none =>
    cases failure
    case system fault => exact .system fault
    all_goals exact .internal reported rfl

theorem Failure.exitCode_ne_zero (failure : Failure) : failure.exitCode.number ≠ 0 := by
  intro zero
  cases failure <;> cases zero

/-- The members of an error report. -/
def Failure.reportMembers (failure : Failure) (kind message : Json) : Members :=
  [("schema_name", .str "ohm-bundler.error.v1"), ("schema_version", .int 1),
    ("tool", .str "ohm-bundler"), ("status", .str "error"),
    ("errors", .list
      [.object [("code", .int failure.exitCode.number), ("kind", kind), ("message", message)]])]

theorem Failure.report_toJson (failure : Failure) :
    ∃ kind message : Text, failure.report.toJson =
      .object (failure.reportMembers (.str kind) (.str message)) := by
  unfold Failure.report Failure.reportMembers Failure.exitCode
  cases failure.report? with
  | some found => exact ⟨_, _, rfl⟩
  | none =>
    dsimp only
    split <;> exact ⟨_, _, rfl⟩

/-- A host that printed one more line than another. -/
structure Host.Printed (host after : Host) (line : Text) : Prop where
  output : after.output = host.output ++ line ++ [.char '\n']
  errors : ∃ lines : Text, lines.Lined ∧ after.errors = host.errors ++ lines

/-- A host that printed nothing, and the last line of whose error output is a given one. -/
structure Host.Complained (host after : Host) (line : Text) : Prop where
  output : after.output = host.output
  errors : ∃ lines : Text, lines.Lined ∧ after.errors = host.errors ++ lines ++ line ++ [.char '\n']

namespace Command

/-- What is shown of a run that ended well: the plan of a dry run, or the paths of all files that were
written, in the order of the writing. -/
structure Told (host after : Host) (dryRun : Bool) (sink : Bundle.Sink) (members : Members) : Prop where
  status : members.get? "status" = some (.str "ok")
  plan : dryRun = true → ∃ plan, sink = .plan plan ∧ after.disk = host.disk ∧
    members.get? "files_to_write" =
      some (.object (plan.map fun (name, contents) => (name, .str contents)))
  written : dryRun = false → ∃ ctx base files,
    sink = .directory ctx base (files.map fun file : Text × Text => base.join file.1) ∧
    Bundle.Laid host.workdir base files host.disk after.disk ∧
    members.get? "written" = some (.list (files.map fun file => .str (base.join file.1).toText))

/-- A run ends well: its code is zero, and its output one line that shows what it generated. -/
structure Succeeded (host : Host) (i : Invocation) (patterns : List Text) (withTypes esm : Bool)
    (code : ExitCode) (after : Host) : Prop where
  success : code = .success
  shown : ∃ ctx errors session line members,
    ctx.dryRun = i.switches.dryRun ∧
    Bundle.generate ctx (bundleOptions ctx withTypes esm) patterns (host.logged errors) =
      (.ok (), session) ∧
    host.Printed after line ∧ Json.Shows line members ∧
    Told host after i.switches.dryRun session.sink members

/-- A run fails: its output is empty, and the last line of its error output shows one error, which has
the code of the run. -/
structure Failed (host : Host) (i : Invocation) (code : ExitCode) (after : Host) : Prop where
  nonzero : code.number ≠ 0
  shown : ∃ failure line members kind message,
    ((i.perform "json").on host).1 = .error failure ∧ failure.Coded code ∧
    host.Complained after line ∧ Json.Shows line members ∧
    members.get? "status" = some (.str "error") ∧
    members.get? "errors" = some (.list
      [.object [("code", .int code.number), ("kind", .str kind), ("message", .str message)]])

theorem short_int {n : Nat} (small : n < 100) : Json.Readable (.int n) := by
  have digits : (Text.ofNat n).length ≤ 2 := by
    rw [Text.ofNat]
    split
    · simp
    next large =>
      rw [Text.ofNat, if_pos (by omega)]
      simp
  exact digits.trans (by decide)

/-- The names of the members that are shown of a run. -/
def shownNames (dryRun : Bool) : List Text :=
  ["schema_version", "tool", "status", "run_id", "cwd", "dry_run", "format",
    if dryRun then "files_to_write" else "written"]

theorem names_shown (ctx : Context) (dryRun : Bool) (sink : Bundle.Sink) :
    (baseMembers ctx okStatus ++ shownParts dryRun sink).map (·.1) = shownNames dryRun := by
  cases dryRun <;> rfl

theorem shownNames_distinct : ∀ dryRun, (shownNames dryRun).Nodup := by
  decide

theorem shownNames_free :
    ∀ dryRun, ∀ name ∈ shownNames dryRun, Text.surrogateFree name = true := by
  decide

theorem shows_payload (ctx : Context) (dryRun : Bool) (sink : Bundle.Sink) :
    Json.Shows ((payload ctx okStatus (shownParts dryRun sink)).portable false)
      (baseMembers ctx okStatus ++ shownParts dryRun sink) := by
  have parts : Json.ReadableMembers (shownParts dryRun sink) := by
    unfold shownParts
    split
    · refine ⟨Json.readableMembers_iff.mpr fun m member => ?_, trivial⟩
      obtain ⟨entry, _, rfl⟩ := List.mem_map.mp member
      trivial
    · refine ⟨Json.readableItems_iff.mpr fun v member => ?_, trivial⟩
      obtain ⟨path, _, rfl⟩ := List.mem_map.mp member
      trivial
  have readable : Json.Readable (.object (baseMembers ctx okStatus ++ shownParts dryRun sink)) :=
    ⟨short_int (by decide), trivial, trivial, trivial, trivial, trivial, trivial, parts⟩
  refine Json.shows_portable readable ?_ fun m member => ?_
  · rw [names_shown]
    exact shownNames_distinct dryRun
  · have named : m.1 ∈ shownNames dryRun := by
      rw [← names_shown ctx dryRun sink]
      exact List.mem_map_of_mem member
    exact shownNames_free dryRun m.1 named

/-- What is shown of a run tells what the run did. -/
theorem told_of_stored {host after : Host} {ctx : Context} {opts : Bundle.Options} {errors : Text}
    {session : Bundle.Session} {files : List (Text × Text)} (dry : opts.dryRun = ctx.dryRun)
    (stored : Bundle.Stored files ⟨host.logged errors, Bundle.defaultSink ctx opts⟩ session)
    (same : after.disk = session.host.disk) :
    Told host after ctx.dryRun session.sink
      (baseMembers ctx okStatus ++ shownParts ctx.dryRun session.sink) where
  status := by cases ctx.dryRun <;> rfl
  plan := by
    intro planned
    rw [planned] at dry ⊢
    cases stored with
    | plan plan _ sink disk _ =>
      refine ⟨_, sink, same.trans disk, ?_⟩
      rw [sink]
      rfl
    | directory _ base written start =>
      rw [Bundle.defaultSink, dry] at start
      cases start
  written := by
    intro onDisk
    rw [onDisk] at dry ⊢
    rw [Bundle.defaultSink_disk dry] at stored
    cases stored with
    | plan plan start =>
      cases start
    | directory _ base written start sink laid _ =>
      cases start
      refine ⟨ctx, _, files, sink, same ▸ laid, ?_⟩
      rw [sink]
      change some (Json.list ((files.map _).map _)) = _
      rw [List.map_map]
      rfl

theorem shows_report (failure : Failure) : ∃ kind message,
    Json.Shows (failure.report.render true) (failure.reportMembers (.str kind) (.str message)) := by
  obtain ⟨kind, message, same⟩ := failure.report_toJson
  refine ⟨kind, message, ?_⟩
  have small : failure.exitCode.number < 100 := by
    cases failure.exitCode <;> decide
  have readable : Json.Readable (.object (failure.reportMembers (.str kind) (.str message))) :=
    ⟨trivial, short_int (by decide), trivial, trivial,
      ⟨⟨short_int small, trivial, trivial, trivial⟩, trivial⟩, trivial⟩
  have names : (failure.reportMembers (.str kind) (.str message)).map (·.1) =
      ["schema_name", "schema_version", "tool", "status", "errors"] := rfl
  have render : failure.report.render true =
      Json.portable (.object (failure.reportMembers (.str kind) (.str message))) false := by
    rw [ErrorReport.render, if_pos rfl, same]
  rw [render]
  refine Json.shows_portable readable ?_ fun m member => ?_
  · rw [names]
    decide
  · have named : m.1 ∈ (failure.reportMembers (.str kind) (.str message)).map (·.1) :=
      List.mem_map_of_mem member
    rw [names] at named
    have free : ∀ name ∈ ([Text.ofString "schema_name", Text.ofString "schema_version",
        Text.ofString "tool", Text.ofString "status", Text.ofString "errors"] : List Text),
        Text.surrogateFree name = true := by
      decide
    exact free m.1 named

/-- A command line with the flag for JSON and no other format runs in JSON. -/
theorem run_json {arguments : List Text} {i : Invocation}
    (parsed : Invocation.read arguments = .ok i)
    (asked : arguments.contains Invocation.jsonFlag = true)
    (not_text : i.switches.format ≠ some "text") (host : Host) :
    Invocation.run arguments host = i.performReported "json" host := by
  have calm : i.hasConflict true = false := by
    unfold Invocation.hasConflict
    cases given : i.switches.format with
    | none => rfl
    | some t =>
      have known := Invocation.known_read parsed t given
      rw [given] at not_text
      rcases List.mem_cons.mp known with rfl | json
      · exact absurd rfl not_text
      · rw [List.mem_singleton] at json
        subst json
        decide
  unfold Invocation.run
  rw [parsed]
  dsimp only
  rw [asked, calm]
  rfl

/-- A run that fails after lines on the error output alone reports its failure. -/
theorem failed_of_noted {i : Invocation} {host after : Host} {failure : Failure}
    (noted : host.Noted after)
    (performed : (i.perform "json").on host = (.error failure, after)) :
    Failed host i (i.performReported "json" host).1 (i.performReported "json" host).2 := by
  obtain ⟨kind, message, shows⟩ := shows_report failure
  obtain ⟨lines, whole, added⟩ := noted.errors
  have reported : i.performReported "json" host =
      (failure.exitCode, after.withError (failure.report.render true)) := by
    unfold Invocation.performReported
    rw [performed]
    rfl
  rw [reported]
  refine ⟨failure.exitCode_ne_zero, failure, _, _, kind, message, by rw [performed],
    failure.coded_exitCode, ⟨noted.output, lines, whole, ?_⟩, shows, rfl, rfl⟩
  change after.errors ++ _ ++ _ = _
  rw [added]

/-- A run that ends well prints the line that shows what it did. -/
theorem succeeded_of_generated {i : Invocation} {patterns : List Text} {withTypes esm : Bool}
    {host : Host} {ctx : Context} {errors : Text} {session : Bundle.Session}
    (dry : ctx.dryRun = i.switches.dryRun) (noted : host.Noted session.host)
    (generated : Bundle.generate ctx (bundleOptions ctx withTypes esm) patterns
      (host.logged errors) = (.ok (), session))
    (performed : (i.perform "json").on host = (.ok .success, session.host.withOutput
      ((payload ctx okStatus (shownParts ctx.dryRun session.sink)).portable false))) :
    Succeeded host i patterns withTypes esm (i.performReported "json" host).1
      (i.performReported "json" host).2 := by
  obtain ⟨files, stored⟩ := Bundle.generate_stored generated
  obtain ⟨lines, whole, added⟩ := noted.errors
  have reported : i.performReported "json" host = (.success, session.host.withOutput
      ((payload ctx okStatus (shownParts ctx.dryRun session.sink)).portable false)) := by
    unfold Invocation.performReported
    rw [performed]
  rw [reported]
  refine ⟨rfl, ctx, errors, session, _, _, dry, generated, ⟨?_, lines, whole, added⟩,
    shows_payload ctx ctx.dryRun session.sink, dry ▸ told_of_stored rfl stored rfl⟩
  change session.host.output ++ _ ++ _ = _
  rw [noted.output]

/-- A run with JSON ends well and shows what it planned or wrote, or it fails and shows its error. -/
theorem json_contract {arguments : List Text} {i : Invocation} {patterns : List Text}
    {withTypes esm : Bool} (parsed : Invocation.read arguments = .ok i)
    (command : i.command = .generateBundles patterns withTypes esm)
    (asked : arguments.contains Invocation.jsonFlag = true)
    (not_text : i.switches.format ≠ some "text") (host : Host) :
    Succeeded host i patterns withTypes esm (Invocation.run arguments host).1
        (Invocation.run arguments host).2 ∨
      Failed host i (Invocation.run arguments host).1 (Invocation.run arguments host).2 := by
  rw [run_json parsed asked not_text]
  rcases on_perform command "json" host with
    ⟨failure, _, performed⟩ | ⟨config, errors, ctx, _, made, noted, performed⟩
  · exact .inr (failed_of_noted (.refl host) performed)
  · have said := noted.trans (Bundle.generate_noted ctx (bundleOptions ctx withTypes esm) patterns
      (host.logged errors))
    cases ended : Bundle.generate ctx (bundleOptions ctx withTypes esm) patterns
        (host.logged errors) with
    | mk result session =>
      rw [ended] at said performed
      cases result with
      | error failure => exact .inr (failed_of_noted said performed)
      | ok _ =>
        have dry : ctx.dryRun = i.switches.dryRun := by rw [made]; rfl
        exact .inl (succeeded_of_generated dry said ended performed)

/-- A dry run in JSON of two grammar files. -/
def jsonArguments : List Text := ["--json", "--dry-run", "generateBundles", "*.ohm"]

def jsonInvocation : Invocation :=
  ⟨{ Switches.unset with json := true, dryRun := true }, .generateBundles ["*.ohm"] false false⟩

theorem json_read : Invocation.read jsonArguments = .ok jsonInvocation := by
  cbv

/-- Where the engine answers, the dry run ends well. -/
theorem json_succeeds : (Invocation.run jsonArguments Bundle.steadyHost).1 = .success := by
  have jsonly : jsonInvocation.command = .generateBundles ["*.ohm"] false false := rfl
  rw [run_json json_read (by decide) (by decide)]
  unfold Invocation.performReported
  rcases on_perform jsonly "json" Bundle.steadyHost with
    ⟨failure, failed, _⟩ | ⟨config, errors, ctx, _, rfl, _, performed⟩
  · have alone : (Config.documentPath ⟨"/", []⟩ none).on Bundle.steadyHost = (.ok none, Bundle.steadyHost) := by
      cbv
    cases failed.symm.trans (congrArg Prod.fst (Config.on_load_nothing alone))
  · generalize made : Config.contextOf (jsonInvocation.contextArguments "json") Bundle.steadyHost config =
      ctx at performed
    have root : ctx.workdir = ⟨"/", []⟩ := by rw [← made]; rfl
    have dry : ctx.dryRun = true := by rw [← made]; rfl
    have sent : ∀ file ∈ Bundle.sampleGrammars.filter Bundle.isGrammarFile, ∃ source,
        Bundle.sourceOf ctx (bundleOptions ctx false false) (Bundle.steadyHost.logged errors) file =
          .ok source := by
      intro file member
      unfold Bundle.sourceOf Bundle.textOf Engine.ready bundleOptions
      dsimp only
      rw [root]
      fin_cases member
      · exact ⟨"A", by cbv⟩
      · exact ⟨"B", by cbv⟩
    have expanded : Bundle.expandPatterns (Bundle.steadyHost.logged errors).disk
        (Bundle.steadyHost.logged errors).workdir ["*.ohm"] (bundleOptions ctx false false).workdir =
          .ok Bundle.sampleGrammars := by
      unfold bundleOptions
      dsimp only
      rw [root]
      cbv
    have linkless : (Bundle.steadyHost.logged errors).disk.Linkless := Bundle.sample_linkless
    have good : (Bundle.generate ctx (bundleOptions ctx false false) ["*.ohm"]
        (Bundle.steadyHost.logged errors)).1 = .ok () :=
      Bundle.generate_planned linkless expanded dry (Bundle.clear_steady rfl sent)
    rw [performed]
    generalize Bundle.generate ctx (bundleOptions ctx false false) ["*.ohm"]
      (Bundle.steadyHost.logged errors) = ended at good ⊢
    obtain ⟨result, session⟩ := ended
    cases good
    rfl

theorem json_contract_dry : Invocation.read jsonArguments = .ok jsonInvocation ∧
    (Invocation.run jsonArguments Bundle.steadyHost).1 = .success ∧
    (Succeeded Bundle.steadyHost jsonInvocation ["*.ohm"] false false
        (Invocation.run jsonArguments Bundle.steadyHost).1
        (Invocation.run jsonArguments Bundle.steadyHost).2 ∨
      Failed Bundle.steadyHost jsonInvocation (Invocation.run jsonArguments Bundle.steadyHost).1
        (Invocation.run jsonArguments Bundle.steadyHost).2) :=
  ⟨json_read, json_succeeds, json_contract json_read rfl (by decide) (by decide) Bundle.steadyHost⟩

end Command

end GrammarBundle
