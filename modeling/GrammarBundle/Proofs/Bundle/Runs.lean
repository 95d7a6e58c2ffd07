import Mathlib
import GrammarBundle.Engine.LineGrammars
import GrammarBundle.Proofs.Bundle.Plans

/-!
Whole runs. A run performs the agenda of the files that its patterns match; every output has a name of
its own, so that a plan holds all files in the order in which they are written.
-/

namespace GrammarBundle.Bundle

open Emission (SameEnd on_bind on_ofAction)

variable {ctx : Context} {opts : Options} {host : Host} {patterns files : List Text}

/-- The place of the file that a matched text denotes. -/
def Denotes (host : Host) (base : Option Text) (file : Text) (place : Place) : Prop :=
  ∃ node, host.disk.look host.workdir true (sourcePath base file).toText = .ok (place, node)

def outputsOf (opts : Options) (file : Text) : List Text :=
  moduleFile file :: if opts.withTypes then [declarationFile file] else []

theorem filesOf_append {front back : List Step} :
    filesOf (front ++ back) = filesOf front ++ filesOf back :=
  List.filterMap_append

theorem names_of_job (job : Job) :
    (filesOf (job.steps ctx opts host)).map (·.1) = outputsOf opts job.file := by
  unfold Job.steps outputsOf filesOf
  cases opts.withTypes <;> rfl

theorem names_of_steps {engine : Engine} :
    (filesOf (stepsOf ctx opts host engine files)).map (·.1) = files.flatMap (outputsOf opts) := by
  induction files generalizing engine with
  | nil => rfl
  | cons file rest ih =>
    rw [stepsOf_cons, List.flatMap_cons, filesOf_append, List.map_append, names_of_job, ih]
    rfl

theorem output_of_entry {engine : Engine} {entry : Text × Text}
    (member : entry ∈ filesOf (stepsOf ctx opts host engine files)) :
    ∃ file ∈ files, entry.1 ∈ outputsOf opts file := by
  have named : entry.1 ∈ (filesOf (stepsOf ctx opts host engine files)).map (·.1) :=
    List.mem_map_of_mem member
  rw [names_of_steps] at named
  exact List.mem_flatMap.mp named

theorem entry_of_output (ctx : Context) (host : Host) (engine : Engine) {file output : Text}
    (member : file ∈ files)
    (listed : output ∈ outputsOf opts file) :
    ∃ contents, (output, contents) ∈ filesOf (stepsOf ctx opts host engine files) := by
  have named : output ∈ (filesOf (stepsOf ctx opts host engine files)).map (·.1) := by
    rw [names_of_steps]
    exact List.mem_flatMap.mpr ⟨file, member, listed⟩
  obtain ⟨⟨name, contents⟩, inside, rfl⟩ := List.mem_map.mp named
  exact ⟨contents, inside⟩

theorem mem_outputsOf {file output : Text} (member : output ∈ outputsOf opts file) :
    ∃ ending ∈ [moduleEnding, declarationEnding], output = file ++ ending := by
  unfold outputsOf at member
  rcases List.mem_cons.mp member with rfl | member
  · exact ⟨moduleEnding, by simp, rfl⟩
  · split at member
    · rw [List.mem_singleton] at member
      exact ⟨declarationEnding, by simp, member⟩
    · cases member

theorem nodup_outputs (nodup : files.Nodup) : (files.flatMap (outputsOf opts)).Nodup := by
  induction files with
  | nil => exact List.nodup_nil
  | cons file rest ih =>
    obtain ⟨fresh, later⟩ := List.nodup_cons.mp nodup
    rw [List.flatMap_cons, List.nodup_append]
    refine ⟨?_, ih later, ?_⟩
    · have apart : moduleFile file ≠ declarationFile file := by
        intro same
        have endings := (append_ending_inj List.mem_cons_self (List.mem_cons_of_mem _ List.mem_cons_self)
          same).2
        exact absurd endings (by decide)
      unfold outputsOf
      cases opts.withTypes with
      | false => simp
      | true => simp [apart]
    · intro output first other second same
      subst same
      obtain ⟨ending, listed, whole⟩ := mem_outputsOf first
      obtain ⟨file', member, second⟩ := List.mem_flatMap.mp second
      obtain ⟨ending', listed', whole'⟩ := mem_outputsOf second
      have files := (append_ending_inj listed listed' (whole.symm.trans whole')).1
      exact fresh (files ▸ member)

theorem put_fresh {name contents : Text} {plan : Plan} (fresh : name ∉ plan.map (·.1)) :
    Plan.put name contents plan = plan ++ [(name, contents)] := by
  induction plan with
  | nil => rfl
  | cons entry plan ih =>
    rw [List.map_cons, List.mem_cons, not_or] at fresh
    obtain ⟨n, old⟩ := entry
    rw [Plan.put, if_neg (Ne.symm fresh.1), ih fresh.2, List.cons_append]

/-- A plan keeps files of different names as they come. -/
theorem putAll_nodup {files plan : Plan} (nodup : ((plan ++ files).map (·.1)).Nodup) :
    Plan.putAll files plan = plan ++ files := by
  induction files generalizing plan with
  | nil => exact (List.append_nil plan).symm
  | cons entry files ih =>
    obtain ⟨name, contents⟩ := entry
    have fresh : name ∉ plan.map (·.1) := by
      rw [List.map_append, List.nodup_append] at nodup
      intro member
      exact nodup.2.2 name member name List.mem_cons_self rfl
    have whole : plan ++ (name, contents) :: files = plan ++ [(name, contents)] ++ files := by simp
    have first : Plan.putAll ((name, contents) :: files) plan =
        Plan.putAll files (plan ++ [(name, contents)]) :=
      congrArg (Plan.putAll files) (put_fresh fresh)
    rw [first, ih (whole ▸ nodup), whole]

/-- A run on a host, with the sink of a run that is given none. -/
def generate (ctx : Context) (opts : Options) (patterns : List Text) (host : Host) :
    Except Failure Unit × Session :=
  (bundlePatterns ctx opts patterns).on ⟨host, defaultSink ctx opts⟩

def Sourced (host : Host) (base : Option Text) (grammars : List Text) : Prop :=
  ∀ file ∈ grammars, ∃ place bytes, Source host.disk host.workdir base file place bytes

theorem follows_directory (ctx : Context) :
    Follows ctx opts host host.engine
      ⟨host, .directory ctx (Path.ofText (baseOf opts.workdir)) []⟩ :=
  ⟨Disk.Grown.refl _, rfl, rfl, rfl, .inr ⟨[], rfl⟩⟩

/-- A run starts as the first step of itself. -/
theorem follows_start (ctx : Context) :
    Follows ctx opts host host.engine ⟨host, defaultSink ctx opts⟩ := by
  refine ⟨Disk.Grown.refl _, rfl, rfl, rfl, ?_⟩
  unfold defaultSink
  cases opts.dryRun with
  | true => exact .inl ⟨[], rfl⟩
  | false => exact .inr ⟨[], under_eq ctx opts.workdir⟩

theorem on_bundlePatterns {session : Session}
    (expanded : expandPatterns session.host.disk session.host.workdir patterns opts.workdir =
      .ok files) :
    (bundlePatterns ctx opts patterns).on session = (bundleFiles ctx opts files).on session := by
  unfold bundlePatterns
  rw [on_bind, Emission.on_get]
  dsimp only
  rw [on_bind, on_ofAction, expanded]
  rfl

/-- Patterns that cannot be expanded end a run before its first step. -/
theorem on_bundlePatterns_error {session : Session} {fault : PathFault}
    (failed : expandPatterns session.host.disk session.host.workdir patterns opts.workdir =
      .error fault) :
    (bundlePatterns ctx opts patterns).on session = (.error (Failure.ofListing [] fault), session) := by
  unfold bundlePatterns
  rw [on_bind, Emission.on_get]
  dsimp only
  rw [on_bind, on_ofAction, failed]
  rfl

theorem stands_of_expanded (linkless : host.disk.Linkless)
    (expanded : expandPatterns host.disk host.workdir patterns opts.workdir = .ok files) :
    ∀ file ∈ files, Stands host opts.workdir file := by
  intro file member grammar
  exact source_of_matched linkless ((expandPatterns_spec expanded).2 file member) grammar

theorem sourced_of_stands (stand : ∀ file ∈ files, Stands host opts.workdir file) :
    Sourced host opts.workdir (files.filter isGrammarFile) := by
  intro file member
  obtain ⟨inside, grammar⟩ := List.mem_filter.mp member
  exact stand file inside grammar

/-- The steps for sources write nothing but their outputs. -/
theorem ours_steps (ctx : Context) (engine : Engine) {grammars : List Text}
    (sources : Sourced host opts.workdir grammars) :
    ∀ step ∈ stepsOf ctx opts host engine grammars, Ours host opts.workdir step.deed := by
  induction grammars generalizing engine with
  | nil => exact fun _ member => absurd member List.not_mem_nil
  | cons file rest ih =>
    intro step member
    rw [stepsOf_cons] at member
    rcases List.mem_append.mp member with here | later
    · obtain ⟨place, bytes, source⟩ := sources file List.mem_cons_self
      exact ours_job _ source step here
    · exact ih _ (fun other inside => sources other (List.mem_cons_of_mem _ inside)) step later

theorem defaultSink_disk (onDisk : opts.dryRun = false) :
    defaultSink ctx opts = .directory ctx (Path.ofText (baseOf opts.workdir)) [] := by
  unfold defaultSink
  rw [onDisk]
  exact under_eq ctx opts.workdir

theorem grammars_perform (ctx : Context) (opts : Options) {grammars : List Text}
    (linkless : host.disk.Linkless) (stand : ∀ file ∈ grammars, Stands host opts.workdir file)
    (kinds : ∀ file ∈ grammars, isGrammarFile file = true) :
    SameEnd ((bundleFiles ctx opts grammars).on ⟨host, defaultSink ctx opts⟩)
      ((performAll (stepsOf ctx opts host host.engine grammars)).on
        ⟨host, defaultSink ctx opts⟩) := by
  have performs := alike_bundleFiles linkless stand _ _ rfl (follows_start ctx)
  rw [agenda, List.filter_eq_self.mpr kinds] at performs
  exact performs

theorem run_performs (ctx : Context) (opts : Options) (linkless : host.disk.Linkless)
    (expanded : expandPatterns host.disk host.workdir patterns opts.workdir = .ok files) :
    SameEnd (generate ctx opts patterns host)
      ((performAll (agenda ctx opts host host.engine files)).on ⟨host, defaultSink ctx opts⟩) := by
  rw [generate, on_bundlePatterns expanded]
  exact alike_bundleFiles linkless (stands_of_expanded linkless expanded) _ _ rfl (follows_start ctx)

/-- A run with a plan succeeds if nothing stands in the way of its agenda. -/
theorem generate_planned (linkless : host.disk.Linkless)
    (expanded : expandPatterns host.disk host.workdir patterns opts.workdir = .ok files)
    (dry : opts.dryRun = true)
    (clear : ∀ step ∈ agenda ctx opts host host.engine files, step.obstacle = none) :
    (generate ctx opts patterns host).1 = .ok () := by
  obtain ⟨final, planned, -⟩ := performed_plan host [] clear
  have start : defaultSink ctx opts = .plan [] := if_pos dry
  have performs := run_performs ctx opts linkless expanded
  rw [start, planned] at performs
  exact performs.1

/-- A run on the disk succeeds if nothing stands in the way of its agenda and all its files can be
written. -/
theorem generate_written {disk : Disk} (linkless : host.disk.Linkless)
    (expanded : expandPatterns host.disk host.workdir patterns opts.workdir = .ok files)
    (onDisk : opts.dryRun = false)
    (clear : ∀ step ∈ agenda ctx opts host host.engine files, step.obstacle = none)
    (applied : Plan.applied host.workdir (Path.ofText (baseOf opts.workdir))
      (filesOf (agenda ctx opts host host.engine files)) host.disk = some disk) :
    (generate ctx opts patterns host).1 = .ok () := by
  obtain ⟨final, performed, -⟩ := performed_of_applied ctx [] clear applied
  have performs := run_performs ctx opts linkless expanded
  rw [defaultSink_disk onDisk, performed] at performs
  exact performs.1

/-- Performing steps ends at the first one that something stands in the way of. -/
theorem performAll_blocked {done rest : List Step} {failure : Failure} {deed : Deed}
    {session middle : Session} (performed : (performAll done).on session = (.ok (), middle)) :
    (performAll (done ++ ⟨some failure, deed⟩ :: rest)).on session = (.error failure, middle) := by
  rw [performAll_append, on_bind, performed]
  rfl

/-- A run fails with what stands in the way of the first step that is not performed. -/
theorem generate_blocked {done rest : List Step} {failure : Failure} {deed : Deed} {middle : Session}
    (linkless : host.disk.Linkless)
    (expanded : expandPatterns host.disk host.workdir patterns opts.workdir = .ok files)
    (blocked : agenda ctx opts host host.engine files = done ++ ⟨some failure, deed⟩ :: rest)
    (performed : (performAll done).on ⟨host, defaultSink ctx opts⟩ = (.ok (), middle)) :
    (generate ctx opts patterns host).1 = .error failure := by
  have performs := run_performs ctx opts linkless expanded
  rw [blocked, performAll_blocked performed] at performs
  exact performs.1

section rule

variable {answer : Engine.Call → Engine.Outcome} {grammars : List Text}

theorem leaves_rule (job : Job) :
    job.leaves ctx opts host (.rule answer) = .rule answer := by
  unfold Job.leaves
  induction (job.steps ctx opts host).map Step.deed with
  | nil => rfl
  | cons deed rest ih => cases deed <;> exact ih

theorem stepsOf_rule :
    stepsOf ctx opts host (.rule answer) grammars =
      grammars.flatMap fun file =>
        (jobOf ctx opts host (.rule answer) file).steps ctx opts host := by
  induction grammars with
  | nil => rfl
  | cons file rest ih => rw [stepsOf_cons, leaves_rule, ih, List.flatMap_cons]

end rule

section sample

/-- A host with two grammar files and a note, and with no engine that answers. -/
def sampleHost : Host where
  disk := ⟨[([Text.ofString "a.ohm"], .file [0x41]), ([Text.ofString "b.ohm"], .file [0x42]),
    ([Text.ofString "note.txt"], .file [0xFF])]⟩
  workdir := []
  environment := []
  now := ⟨⟨2024, 1, 2⟩, 3, 4, 5, 0, none⟩
  engine := .script []
  engineScript := "/bridge.mjs"
  site := ⟨"FILE", 0⟩
  calls := []
  output := []
  errors := []

def sampleContext : Context where
  runId := "run"
  workdir := ⟨"/", []⟩
  dryRun := false
  format := "text"
  verbose := false
  quiet := false
  logJson := false
  config := .standard

def sampleOptions : Options := ⟨false, none, true, false⟩

def sampleFiles : List Text := ["a.ohm", "b.ohm", "note.txt"]

theorem sample_linkless : sampleHost.disk.Linkless := by
  apply Disk.linkless_of_entries
  simp [sampleHost]

theorem sample_expanded :
    expandPatterns sampleHost.disk sampleHost.workdir ["*"] sampleOptions.workdir =
      .ok sampleFiles := by
  cbv

/-- What an engine answers that finds the same grammar in every source. -/
def steadyAnswer : Json :=
  .object [("status", .str "ok"), ("grammars", .list [Engine.LineGrammars.rowOf "A"]),
    ("types", .str "// A")]

def steadyOutcome : Engine.Outcome := .ended 0 (some steadyAnswer.line) none .still

/-- The sample's host with such an engine. -/
def steadyHost : Host := { sampleHost with engine := .rule fun _ => steadyOutcome }

def steadyCollection : Collection :=
  [⟨"A", 0, .root ⟨.str "A", .object [("source", .str "A")], .str "start",
    .object [("start", .list [.str "terminal", .object [], .str "A"])]⟩⟩]

-- The clock of an outcome is binary arithmetic that is slow to evaluate: replies are computed around it.
theorem reply_steady (ctx : Context) (operation : Text) :
    Engine.reply ctx operation steadyOutcome = .ok steadyAnswer := by
  have read : Json.read steadyAnswer.line = .ok steadyAnswer := by cbv
  unfold Engine.reply Engine.Outcome.result steadyOutcome Engine.answerOf
  dsimp only [Option.getD]
  rw [read]
  rfl

/-- The job of a file, where both requests for it get the steady answer. -/
theorem jobOf_steady {engine : Engine} {file source : Text}
    (read : sourceOf ctx opts host file = .ok source)
    (first : ∀ call, (engine.answer call).1 = steadyOutcome)
    (second : ∀ call call', ((engine.after call).answer call').1 = steadyOutcome) :
    jobOf ctx opts host engine file = ⟨file, .ok source, .ok steadyCollection, .ok "// A"⟩ := by
  have compiled : Engine.compiled ctx steadyOutcome = .ok steadyCollection := by
    rw [Engine.compiled, reply_steady]
    cbv
  have typed : Engine.typed ctx steadyOutcome = .ok "// A" := by
    rw [Engine.typed, reply_steady]
    rfl
  have ordered : inOrder file (.ok steadyCollection) = .ok steadyCollection := rfl
  unfold jobOf
  dsimp only
  rw [first, second, compiled, typed, ordered, read]

/-- Nothing stands in the way of a job whose parts are all there. -/
theorem clear_steps {job : Job} {source types : Text} {c : Collection} (sent : job.source = .ok source)
    (ordered : job.collection = .ok c) (typed : job.types = .ok types) :
    ∀ step ∈ job.steps ctx opts host, step.obstacle = none := by
  unfold Job.steps
  rw [sent, ordered, typed]
  intro step member
  cases declared : opts.withTypes <;> rw [declared] at member <;> fin_cases member <;> rfl

/-- Where every request gets the steady answer, nothing stands in the way of sources that can be sent. -/
theorem clear_steady (steady : host.engine = .rule fun _ => steadyOutcome)
    (sent : ∀ file ∈ files.filter isGrammarFile, ∃ source, sourceOf ctx opts host file = .ok source) :
    ∀ step ∈ agenda ctx opts host host.engine files, step.obstacle = none := by
  intro step member
  rw [agenda, steady, stepsOf_rule] at member
  obtain ⟨file, inside, member⟩ := List.mem_flatMap.mp member
  obtain ⟨source, read⟩ := sent file inside
  rw [jobOf_steady read (fun _ => rfl) (fun _ _ => rfl)] at member
  exact clear_steps rfl rfl rfl step member

def sampleGrammars : List Text := ["a.ohm", "b.ohm"]

theorem sample_grammars : sampleFiles.filter isGrammarFile = sampleGrammars := by
  decide

/-- The sources of the sample are sent, whether they are read for a plan or for the disk. -/
theorem sent_steady (dryRun : Bool) : ∀ file ∈ sampleFiles.filter isGrammarFile,
    ∃ source, sourceOf sampleContext { sampleOptions with dryRun } steadyHost file = .ok source := by
  rw [sample_grammars]
  intro file member
  fin_cases member
  · exact ⟨"A", by cbv⟩
  · exact ⟨"B", by cbv⟩

theorem planned_steady :
    (generate sampleContext { sampleOptions with dryRun := true } ["*"] steadyHost).1 = .ok () :=
  generate_planned sample_linkless sample_expanded rfl (clear_steady rfl (sent_steady true))

theorem applied_steady : ∃ disk, Plan.applied steadyHost.workdir (Path.ofText (baseOf none))
    (filesOf (agenda sampleContext sampleOptions steadyHost steadyHost.engine sampleFiles))
      steadyHost.disk = some disk := by
  have first : sourceOf sampleContext sampleOptions steadyHost "a.ohm" = .ok "A" := by cbv
  have second : sourceOf sampleContext sampleOptions steadyHost "b.ohm" = .ok "B" := by cbv
  have ruled : steadyHost.engine = .rule fun _ => steadyOutcome := rfl
  rw [agenda, sample_grammars, sampleGrammars, ruled, stepsOf_rule, List.flatMap_cons,
    List.flatMap_cons, List.flatMap_nil, List.append_nil, jobOf_steady first (fun _ => rfl) (fun _ _ => rfl),
    jobOf_steady second (fun _ => rfl) (fun _ _ => rfl)]
  apply Option.isSome_iff_exists.mp
  cbv

theorem written_steady {patterns : List Text}
    (expanded : expandPatterns steadyHost.disk steadyHost.workdir patterns none = .ok sampleFiles) :
    (generate sampleContext sampleOptions patterns steadyHost).1 = .ok () := by
  obtain ⟨disk, applied⟩ := applied_steady
  exact generate_written sample_linkless expanded rfl (clear_steady rfl (sent_steady false)) applied

end sample

end GrammarBundle.Bundle
