import GrammarBundle.Proofs.Bundle.Runs

/-!
Dry runs. A dry run and a run that writes to the disk perform the same agenda, so that the plan of the one
is what the other writes, and the disk run can fail on its own only where the disk refuses a write.
-/

namespace GrammarBundle.Bundle

open Emission (SameEnd)

variable {ctx : Context} {opts : Options} {host : Host} {patterns files : List Text}

def Options.dry (opts : Options) (dryRun : Bool) : Options := { opts with dryRun }

/-- A dry run tells what the disk run does from the same host. -/
structure Rehearses (ctx : Context) (base : Path) (host : Host)
    (dry real : Except Failure Unit × Session) : Prop where
  harmless : dry.2.host.disk = host.disk
  kept : real.1 = .ok () → dry.1 = .ok () ∧ dry.2.host.calls = real.2.host.calls ∧
    Plan.applied host.workdir base dry.2.sink.files host.disk = some real.2.host.disk ∧
    ∀ place, (∀ entry ∈ dry.2.sink.files,
        host.disk.writePlace host.workdir (base.join entry.1).toText ≠ .ok place) →
      real.2.host.disk.node? place = host.disk.node? place
  /-- What the dry run cannot foresee is a write that the disk refuses. -/
  sole : dry.1 = .ok () → real.1 = .ok () ∨
    ∃ done name contents rest midway written failure after,
      dry.2.sink.files = done ++ (name, contents) :: rest ∧
      Plan.applied host.workdir base done host.disk = some midway.disk ∧
      real.1 = .error failure ∧
      (Sink.write name contents (.directory ctx base written)).on midway =
        (.error failure, after) ∧
      after.disk = real.2.host.disk
  warned : ∀ failure, dry.1 = .error failure → ∃ cause, real.1 = .error cause

theorem agenda_dry (dryRun : Bool) (engine : Engine) :
    agenda ctx (opts.dry dryRun) host engine files = agenda ctx opts host engine files := by
  unfold agenda
  induction files.filter isGrammarFile generalizing engine with
  | nil => rfl
  | cons file rest ih =>
    rw [stepsOf_cons, stepsOf_cons, ← ih]
    rfl

/-- Steps that nothing stands in the way of all enter a plan. -/
theorem planned_of_clear {steps : List Step} {result : Except Failure Unit} {final : Session}
    (nodup : ((filesOf steps).map (·.1)).Nodup) (clear : ∀ step ∈ steps, step.obstacle = none)
    (planned : (performAll steps).on ⟨host, .plan []⟩ = (result, final)) :
    result = .ok () ∧ final.sink.files = filesOf steps := by
  obtain ⟨last, performed, _, sink⟩ := performed_plan host [] clear
  have fresh : Plan.putAll (filesOf steps) [] = filesOf steps := putAll_nodup nodup
  rw [planned] at performed
  cases performed
  rw [sink, fresh]
  exact ⟨rfl, rfl⟩

/-- Steps that nothing stands in the way of can fail on the disk only where it refuses a write. -/
theorem refused_of_clear {steps : List Step} {base : Path} {result : Except Failure Unit}
    {final : Session} (clear : ∀ step ∈ steps, step.obstacle = none)
    (wrote : (performAll steps).on ⟨host, .directory ctx base []⟩ = (result, final)) :
    result = .ok () ∨ ∃ done name contents rest midway written failure after,
      filesOf steps = done ++ (name, contents) :: rest ∧
      Plan.applied host.workdir base done host.disk = some midway.disk ∧
      result = .error failure ∧
      (Sink.write name contents (.directory ctx base written)).on midway =
        (.error failure, after) ∧
      after.disk = final.host.disk := by
  obtain ⟨done, rest, middle, rfl, performed, ⟨_, good, _⟩ | ⟨step, more, failure, rfl, bad, failed⟩⟩ :=
    performAll_split wrote
  · exact .inl good
  · have unhindered : step.obstacle = none := clear step (by simp)
    obtain ⟨obstacle, deed⟩ := step
    subst unhindered
    obtain ⟨name, contents, rfl⟩ := failed_deed failed
    obtain ⟨applied, _, directory⟩ := performed_directory performed
    have refused := Emission.sink_error failed
    rw [directory] at refused
    exact .inr ⟨filesOf done, name, contents, filesOf more, middle.host, _, failure, final.host,
      filesOf_append, applied, bad, refused, rfl⟩

/-- The same steps, performed with a plan and on the disk. -/
theorem performAll_rehearses {steps : List Step} (linkless : host.disk.Linkless)
    (ours : ∀ step ∈ steps, Ours host opts.workdir step.deed)
    (nodup : ((filesOf steps).map (·.1)).Nodup) :
    Rehearses ctx (Path.ofText (baseOf opts.workdir)) host
      ((performAll steps).on ⟨host, .plan []⟩)
      ((performAll steps).on ⟨host, .directory ctx (Path.ofText (baseOf opts.workdir)) []⟩) := by
  generalize planned : (performAll steps).on ⟨host, .plan []⟩ = dry
  generalize wrote : (performAll steps).on
    ⟨host, .directory ctx (Path.ofText (baseOf opts.workdir)) []⟩ = real
  obtain ⟨result, final⟩ := dry
  obtain ⟨result', final'⟩ := real
  refine ⟨plan_harmless planned, ?kept, ?sole, ?warned⟩
  case kept =>
    rintro rfl
    obtain ⟨rfl, sink⟩ := planned_of_clear nodup (clear_of_performed wrote) planned
    obtain ⟨applied, _, _⟩ := performed_directory wrote
    refine ⟨rfl, (calls_performed planned).trans (calls_performed wrote).symm, sink ▸ applied, ?_⟩
    intro place apart
    rw [sink] at apart
    apply unchanged_performAll linkless ours (follows_directory ctx) wrote
    intro entry member
    rw [sourcePath_eq_join]
    exact apart entry member
  case sole =>
    rintro rfl
    have clear := clear_of_performed planned
    rw [(planned_of_clear nodup clear planned).2]
    exact refused_of_clear clear wrote
  case warned =>
    intro failure stopped
    cases result' with
    | error cause => exact ⟨cause, rfl⟩
    | ok _ =>
      have good := (planned_of_clear nodup (clear_of_performed wrote) planned).1
      exact absurd (good.symm.trans stopped) (by simp)

/-- What is the same but for what was logged rehearses the same. -/
theorem Rehearses.of_sameEnd {base : Path} {dry real dry' real' : Except Failure Unit × Session}
    (planned : SameEnd dry' dry) (wrote : SameEnd real' real)
    (rehearses : Rehearses ctx base host dry real) : Rehearses ctx base host dry' real' := by
  obtain ⟨harmless, kept, sole, warned⟩ := rehearses
  rw [← planned.1, ← wrote.1, ← wrote.disk, ← planned.calls, ← wrote.calls, ← planned.sink] at kept
  rw [← planned.1, ← wrote.1, ← wrote.disk, ← planned.sink] at sole
  rw [← planned.1, ← wrote.1] at warned
  exact ⟨planned.disk.trans harmless, kept, sole, warned⟩

/-- A dry run and a disk run agree. -/
theorem dryRun_agrees (linkless : host.disk.Linkless) :
    Rehearses ctx (Path.ofText (baseOf opts.workdir)) host
      (generate ctx (opts.dry true) patterns host) (generate ctx (opts.dry false) patterns host) := by
  cases expanded : expandPatterns host.disk host.workdir patterns opts.workdir with
  | error fault =>
    have stops (dryRun : Bool) : generate ctx (opts.dry dryRun) patterns host =
        (.error (Failure.ofListing [] fault), ⟨host, defaultSink ctx (opts.dry dryRun)⟩) :=
      on_bundlePatterns_error expanded
    rw [stops, stops]
    refine ⟨rfl, fun good => ?_, fun good => ?_, fun _ _ => ⟨_, rfl⟩⟩
    · cases good
    · cases good
  | ok files =>
    have planned := run_performs ctx (opts.dry true) linkless expanded
    have wrote := run_performs ctx (opts.dry false) linkless expanded
    rw [agenda_dry] at planned wrote
    rw [defaultSink_disk rfl] at wrote
    -- Both runs perform one agenda, and its outputs have names of their own, so that no entry of the
    -- plan takes another's place.
    have nodup : ((filesOf (agenda ctx opts host host.engine files)).map (·.1)).Nodup := by
      rw [agenda, names_of_steps]
      exact nodup_outputs ((expandPatterns_spec expanded).1.filter _)
    have sources := sourced_of_stands (stands_of_expanded linkless expanded)
    exact (performAll_rehearses linkless (ours_steps _ _ sources) nodup).of_sameEnd planned wrote

theorem dryRun_agrees_sample :
    steadyHost.disk.Linkless ∧
      (generate sampleContext (sampleOptions.dry true) ["*"] steadyHost).1 = .ok () ∧
      (generate sampleContext (sampleOptions.dry false) ["*"] steadyHost).1 = .ok () ∧
      Rehearses sampleContext (Path.ofText (baseOf sampleOptions.workdir)) steadyHost
        (generate sampleContext (sampleOptions.dry true) ["*"] steadyHost)
        (generate sampleContext (sampleOptions.dry false) ["*"] steadyHost) :=
  ⟨sample_linkless, planned_steady, written_steady sample_expanded, dryRun_agrees sample_linkless⟩

end GrammarBundle.Bundle
