import GrammarBundle.Proofs.Bundle.Unread
import GrammarBundle.Proofs.Engine.Requests

/-!
The exact work of a run. Its requests and writes are the first ones of its agenda, and all of them
exactly if the run succeeds; what each request says is read back from the input of its call.
-/

namespace GrammarBundle.Bundle

open Emission (SameEnd)

variable {ctx : Context} {opts : Options} {host : Host} {patterns files : List Text}

/-- Where files are that a run has written: in its plan, or on the disk. -/
def Delivered (ctx : Context) (opts : Options) (host : Host) (files : Plan) (session : Session) : Prop :=
  if opts.dryRun then session.sink = .plan files ∧ session.host.disk = host.disk
  else
    session.sink = .directory ctx (Path.ofText (baseOf opts.workdir))
        (files.map fun (name, _) => (Path.ofText (baseOf opts.workdir)).join name) ∧
      Plan.applied host.workdir (Path.ofText (baseOf opts.workdir)) files host.disk =
        some session.host.disk

/-- A run has done the first steps of its agenda and nothing else, and it ends where the next one fails. -/
structure Progress (ctx : Context) (opts : Options) (host : Host) (steps : List Step)
    (run : Except Failure Unit × Session) (done rest : List Step) (middle : Session) : Prop where
  order : steps = done ++ rest
  performed : (performAll done).on ⟨host, defaultSink ctx opts⟩ = (.ok (), middle)
  delivered : Delivered ctx opts host (filesOf done) middle
  calls : run.2.host.calls = host.calls ++ callsOf done
  sink : run.2.sink = middle.sink
  ends : (rest = [] ∧ SameEnd run (.ok (), middle)) ∨ ∃ step more failure, rest = step :: more ∧
    run.1 = .error failure ∧ SameEnd run (step.perform.on middle)

theorem failed_step {step : Step} {session final : Session} {failure : Failure}
    (failed : step.perform.on session = (.error failure, final)) :
    final.host.calls = session.host.calls ∧ final.sink = session.sink := by
  obtain ⟨obstacle, deed⟩ := step
  cases obstacle with
  | some cause =>
    cases failed
    exact ⟨rfl, rfl⟩
  | none =>
    obtain ⟨filename, contents, rfl⟩ := failed_deed failed
    obtain ⟨current, sink⟩ := session
    cases sink with
    | plan plan => cases failed
    | directory ctx base written =>
      obtain ⟨disk, errors, rfl, _⟩ := Emission.write_error failed
      exact ⟨rfl, rfl⟩

/-- Performed steps have delivered their files, if the files have names of their own. -/
theorem delivered_of_performed {done : List Step} {middle : Session}
    (nodup : ((filesOf done).map (·.1)).Nodup)
    (performed : (performAll done).on ⟨host, defaultSink ctx opts⟩ = (.ok (), middle)) :
    Delivered ctx opts host (filesOf done) middle := by
  unfold Delivered
  cases dry : opts.dryRun with
  | true =>
    have clear := clear_of_performed performed
    have start : defaultSink ctx opts = .plan [] := if_pos dry
    obtain ⟨final, planned, disk, sink⟩ := performed_plan host [] clear
    rw [start, planned] at performed
    cases performed
    rw [putAll_nodup nodup] at sink
    exact ⟨sink, disk⟩
  | false =>
    rw [defaultSink_disk dry] at performed
    obtain ⟨applied, _, sink⟩ := performed_directory performed
    exact ⟨sink, applied⟩

/-- Performing steps gets through the first ones of them. -/
theorem progress_of_sameEnd {steps : List Step} {run : Except Failure Unit × Session}
    (nodup : ((filesOf steps).map (·.1)).Nodup)
    (ran : SameEnd run ((performAll steps).on ⟨host, defaultSink ctx opts⟩)) :
    ∃ done rest middle, Progress ctx opts host steps run done rest middle := by
  generalize performs : (performAll steps).on ⟨host, defaultSink ctx opts⟩ = performed at ran
  obtain ⟨result, final⟩ := performed
  obtain ⟨done, rest, middle, rfl, first, ends⟩ := performAll_split performs
  have calls : run.2.host.calls = final.host.calls := ran.calls
  have sinks : run.2.sink = final.sink := ran.sink
  have fresh : ((filesOf done).map (·.1)).Nodup := by
    rw [filesOf_append, List.map_append] at nodup
    exact (List.nodup_append.mp nodup).1
  refine ⟨done, rest, middle, rfl, first, delivered_of_performed fresh first, ?_, ?_, ?_⟩
  · rcases ends with ⟨_, _, rfl⟩ | ⟨step, more, failure, _, _, failed⟩
    · exact calls.trans (calls_performed first)
    -- A step that fails has made no call, so that the calls are those of the steps before it.
    · rw [calls, (failed_step failed).1]
      exact calls_performed first
  · rcases ends with ⟨_, _, rfl⟩ | ⟨step, more, failure, _, _, failed⟩
    · exact sinks
    · exact sinks.trans (failed_step failed).2
  · rcases ends with ⟨nothing, rfl, rfl⟩ | ⟨step, more, failure, next, rfl, failed⟩
    · exact .inl ⟨nothing, ran⟩
    · exact .inr ⟨step, more, failure, next, ran.1, failed ▸ ran⟩

theorem files_of_jobs {engine : Engine} {grammars : List Text} :
    (jobs ctx opts host engine grammars).map (·.file) = grammars := by
  induction grammars generalizing engine with
  | nil => rfl
  | cons file rest ih =>
    rw [jobs, List.map_cons, ih]
    rfl

theorem read_of_textOf {file text : Text} (found : textOf opts host file = .ok text) :
    ∃ bytes decoded,
      host.disk.read host.workdir (sourcePath opts.workdir file).toText = .ok bytes ∧
      Utf8.decode bytes = .ok decoded ∧ text = decoded.unifyLineEnds := by
  unfold textOf at found
  rw [Action.on_readText] at found
  dsimp only at found
  split at found
  · cases found
  next bytes read =>
    split at found
    · cases found
    next decoded text_decoded =>
      cases found
      exact ⟨bytes, decoded, read, text_decoded, rfl⟩

theorem textOf_of_sourceOf {file text : Text} (sent : sourceOf ctx opts host file = .ok text) :
    textOf opts host file = .ok text := by
  unfold sourceOf at sent
  split at sent
  · cases sent
  next found =>
    split at sent
    · cases sent
    · cases sent
      exact found

/-- The source of a job is the text of its file, its bytes decoded and its line ends unified. -/
theorem source_of_job {engine : Engine} {grammars : List Text} :
    ∀ job ∈ jobs ctx opts host engine grammars, ∀ text, job.source = .ok text →
      ∃ bytes decoded,
        host.disk.read host.workdir (sourcePath opts.workdir job.file).toText = .ok bytes ∧
        Utf8.decode bytes = .ok decoded ∧ text = decoded.unifyLineEnds := by
  induction grammars generalizing engine with
  | nil => exact fun _ member => absurd member List.not_mem_nil
  | cons file rest ih =>
    intro job member text sent
    rcases List.mem_cons.mp member with rfl | later
    · exact read_of_textOf (textOf_of_sourceOf sent)
    · exact ih job later text sent

theorem surrogateFree_of_job {engine : Engine} {grammars : List Text} {job : Job}
    (member : job ∈ jobs ctx opts host engine grammars) :
    Text.surrogateFree (valueOf job.source) = true := by
  cases sent : job.source with
  | error failure => rfl
  | ok text =>
    obtain ⟨bytes, decoded, _, text_decoded, rfl⟩ := source_of_job job member text sent
    exact Text.surrogateFree_unifyLineEnds (Utf8.surrogateFree_decode text_decoded)

theorem length_outputs :
    (files.flatMap (outputsOf opts)).length = files.length * if opts.withTypes then 2 else 1 := by
  induction files with
  | nil => exact (Nat.zero_mul _).symm
  | cons file rest ih =>
    rw [List.flatMap_cons, List.length_append, ih, List.length_cons, Nat.succ_mul, Nat.add_comm]
    congr 1
    unfold outputsOf
    cases opts.withTypes <;> rfl

/-- What a run over matched files does. -/
structure ExactWork (ctx : Context) (opts : Options) (patterns : List Text) (host : Host)
    (files : List Text) : Prop where
  /-- The agenda has one job for each grammar file, in order. -/
  listed : (jobs ctx opts host host.engine (files.filter isGrammarFile)).map (·.file) =
    files.filter isGrammarFile
  /-- The run does the first steps of the agenda, up to one that fails. -/
  progress : ∃ done rest middle, Progress ctx opts host (agenda ctx opts host host.engine files)
    (generate ctx opts patterns host) done rest middle
  source : ∀ job ∈ jobs ctx opts host host.engine (files.filter isGrammarFile), ∀ text,
    job.source = .ok text → ∃ bytes decoded,
      host.disk.read host.workdir (sourcePath opts.workdir job.file).toText = .ok bytes ∧
      Utf8.decode bytes = .ok decoded ∧ text = decoded.unifyLineEnds
  compiles : ∀ job ∈ jobs ctx opts host host.engine (files.filter isGrammarFile),
    Json.read ((job.compileCall ctx host).input.getD []) =
      .ok (.object [("op", .str "compile"), ("ohmModule", .str ctx.config.runtime.paired),
        ("source", .str (valueOf job.source))])
  types : ∀ job ∈ jobs ctx opts host host.engine (files.filter isGrammarFile),
    Json.read ((job.typesCall ctx host).input.getD []) =
      .ok (.object [("op", .str "types"), ("ohmModule", .str ctx.config.runtime.paired),
        ("typesModule", .str ctx.config.typesModule.paired),
        ("sources", .list ((valueOf job.collection).map fun entry =>
          .str (Engine.sourceText entry.grammar).paired))])
  /-- What other files hold makes no difference. -/
  unread : ∀ other, SameSources opts host files other →
    agenda ctx opts (host.onDisk other) host.engine files = agenda ctx opts host host.engine files ∧
      SameShape (generate ctx opts patterns (host.onDisk other)) (generate ctx opts patterns host)
  /-- A dry run that succeeds has planned every output under a name of its own. -/
  planned : opts.dryRun = true → (generate ctx opts patterns host).1 = .ok () →
    let plan := (generate ctx opts patterns host).2.sink.files
    plan = filesOf (agenda ctx opts host host.engine files) ∧ (plan.map (·.1)).Nodup ∧
      plan.length = (files.filter isGrammarFile).length * if opts.withTypes then 2 else 1

/-- A run works exactly through its agenda. -/
theorem generate_works_exactly (linkless : host.disk.Linkless)
    (expanded : expandPatterns host.disk host.workdir patterns opts.workdir = .ok files) :
    ExactWork ctx opts patterns host files := by
  have names : (filesOf (agenda ctx opts host host.engine files)).map (·.1) =
      (files.filter isGrammarFile).flatMap (outputsOf opts) := names_of_steps
  have nodup : ((filesOf (agenda ctx opts host host.engine files)).map (·.1)).Nodup := by
    rw [names]
    exact nodup_outputs ((expandPatterns_spec expanded).1.filter _)
  have progress := progress_of_sameEnd nodup (run_performs ctx opts linkless expanded)
  refine ⟨files_of_jobs, progress, source_of_job, ?_, ?_, ?_, ?_⟩
  · intro job member
    exact Engine.read_compileCall (surrogateFree_of_job member)
  · intro job _
    exact Engine.read_typesCall
  · intro other same
    exact run_unread linkless expanded same
  · intro dry good
    obtain ⟨done, rest, middle, order, performed, delivered, _, sink, ends⟩ := progress
    rcases ends with ⟨rfl, _⟩ | ⟨step, more, failure, _, bad, _⟩
    · unfold Delivered at delivered
      rw [if_pos dry] at delivered
      rw [List.append_nil] at order
      have plan : (generate ctx opts patterns host).2.sink.files =
          filesOf (agenda ctx opts host host.engine files) := by
        rw [sink, delivered.1, order]
        rfl
      dsimp only
      rw [plan]
      refine ⟨rfl, nodup, ?_⟩
      rw [← length_outputs, ← names, List.length_map]
    · rw [good] at bad
      cases bad

theorem generate_works_exactly_sample :
    steadyHost.disk.Linkless ∧
      expandPatterns steadyHost.disk steadyHost.workdir ["*"] sampleOptions.workdir = .ok sampleFiles ∧
      (generate sampleContext { sampleOptions with dryRun := true } ["*"] steadyHost).1 = .ok () ∧
      ExactWork sampleContext { sampleOptions with dryRun := true } ["*"] steadyHost sampleFiles :=
  ⟨sample_linkless, sample_expanded, planned_steady,
    generate_works_exactly sample_linkless sample_expanded⟩

/-- A context whose runtime has a name of two surrogates that make a pair. -/
def pairedContext : Context :=
  { sampleContext with
    config := { Config.standard with runtime := [.surrogate 0x3D, .surrogate 0x600] } }

/-- A surrogate pair in the name of the runtime comes back as one character, not as it was given. -/
theorem paired_runtime_not_kept :
    ¬∀ call ∈ (generate pairedContext sampleOptions ["a.ohm"] sampleHost).2.host.calls,
      ∃ fields : Members, Json.read (call.input.getD []) = .ok (.object fields) ∧
        (fields.get? "ohmModule").map Json.plain = some pairedContext.config.runtime := by
  have called : (generate pairedContext sampleOptions ["a.ohm"] sampleHost).2.host.calls =
      [Engine.compileCall pairedContext sampleHost.engineScript "A"] := by
    cbv
  intro kept
  obtain ⟨fields, read, given⟩ := kept (Engine.compileCall pairedContext sampleHost.engineScript "A")
    (by rw [called]; exact List.mem_singleton_self _)
  have free : Text.surrogateFree "A" = true := by decide
  rw [Engine.read_compileCall free] at read
  cases read
  exact absurd given (by decide)

end GrammarBundle.Bundle
