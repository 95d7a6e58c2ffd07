import GrammarBundle.Proofs.Bundle.Runs
import GrammarBundle.Proofs.Run.Notes

/-!
Promises that a whole run keeps because its steps do. Such are the promise to say nothing but lines on
the error output, and the promise that the sink tells what was written: a plan holds the files, and a
directory the paths, of everything that a run has written, in the order of the writing.
-/

namespace GrammarBundle.Bundle

open Promise (Kept kept_pure met_bind)

/-- A promise about hosts, made about the hosts of sessions. -/
def onSessions (promise : Promise Host) : Promise Session where
  done s t := promise.done s.host t.host
  failed s t failure := promise.failed s.host t.host failure
  refl s := promise.refl s.host
  trans := promise.trans
  later := promise.later

theorem kept_ofAction {α : Type} {promise : Promise Host} {step : Action α}
    (kept : promise.Kept step) : (onSessions promise).Kept (Emission.ofAction step) := by
  intro session
  have met := kept session.host
  change (onSessions promise).Met session
    ((step.on session.host).1, { session with host := (step.on session.host).2 })
  change promise.Met session.host (step.on session.host) at met
  generalize step.on session.host = ended at met ⊢
  obtain ⟨result, host⟩ := ended
  cases result <;> exact met

/-- A promise that the steps of a run keep, one by one. -/
structure Promised (promise : Promise Session) (ctx : Context) (opts : Options) : Prop where
  reads : ∀ file, fileExtension file = grammarExtension →
    promise.Kept (Emission.ofAction (Action.readText (sourcePath opts.workdir file)))
  compiles : ∀ source, promise.Kept (Emission.ofAction (Engine.compile ctx source))
  orders : ∀ (c : Collection) file,
    promise.Kept (Emission.ofAction (Action.ofExcept Failure.grammarOrder (c.checkOrder file)))
  logs : ∀ event : LogEvent, event.clash? = none →
    promise.Kept (Emission.ofAction (Action.log ctx event))
  suits : ∀ file extension,
    promise.Kept (Emission.ofAction (Action.ofExcept id (requireExtension file extension)))
  types : ∀ c, promise.Kept (Emission.ofAction (Engine.generateTypes ctx c))
  writes : ∀ filename contents, promise.Kept (Emission.write filename contents)

section

variable {promise : Promise Session} {ctx : Context} {opts : Options}

theorem Promised.file (steps : Promised promise ctx opts) (file : Text) :
    promise.Kept (bundleFile ctx opts file) := by
  unfold bundleFile
  split
  next grammar =>
    refine (steps.reads file grammar).bind fun source => (steps.compiles source).bind fun c => ?_
    refine (steps.orders c file).bind fun _ => (steps.logs _ rfl).bind fun _ => ?_
    refine Kept.bind ?_ fun _ => ?_
    · exact (steps.suits _ _).bind fun _ => (steps.writes _ _).bind fun _ => kept_pure _
    · split
      · refine Kept.bind ?_ fun _ => kept_pure _
        exact (steps.suits _ _).bind fun _ => (steps.types c).bind fun _ =>
          (steps.writes _ _).bind fun _ => kept_pure _
      · exact kept_pure _
  next => exact steps.logs _ rfl

theorem Promised.files (steps : Promised promise ctx opts) (files : List Text) :
    promise.Kept (bundleFiles ctx opts files) := by
  induction files with
  | nil => exact kept_pure ()
  | cons file files ih => exact (steps.file file).bind fun _ => ih

/-- A run keeps what its steps keep, if the promise allows for patterns that cannot be expanded. -/
theorem Promised.run (steps : Promised promise ctx opts) (patterns : List Text)
    (lists : ∀ (session : Session) fault,
      expandPatterns session.host.disk session.host.workdir patterns opts.workdir = .error fault →
      promise.failed session session (Failure.ofListing [] fault)) :
    promise.Kept (bundlePatterns ctx opts patterns) := by
  intro session
  change promise.Met session ((bundlePatterns ctx opts patterns).on session)
  cases expanded : expandPatterns session.host.disk session.host.workdir patterns opts.workdir with
  | error fault =>
    rw [on_bundlePatterns_error expanded]
    exact lists session fault expanded
  | ok files =>
    rw [on_bundlePatterns expanded]
    exact steps.files files session

end

theorem notes_write (filename contents : Text) :
    (onSessions notes).Kept (Emission.write filename contents) := by
  refine Promise.kept_get.bind fun session => Kept.bind (kept_ofAction ?_) fun sink => ?_
  · unfold Sink.write
    split
    · exact kept_pure _
    · exact (Notes.kept_log _ _).bind fun _ => (Notes.kept_writeText _ _).bind fun _ => kept_pure _
  · exact fun session => Host.Noted.refl session.host

theorem notes_promised (ctx : Context) (opts : Options) :
    Promised (onSessions notes) ctx opts where
  reads _ _ := kept_ofAction (Notes.kept_readText _)
  compiles _ := kept_ofAction (Notes.kept_compile _ _)
  orders _ _ := kept_ofAction (Notes.kept_ofExcept _ _)
  logs _ _ := kept_ofAction (Notes.kept_log _ _)
  suits _ _ := kept_ofAction (Notes.kept_ofExcept _ _)
  types _ := kept_ofAction (Notes.kept_generateTypes _ _)
  writes := notes_write

/-- A run says nothing but lines on the error output. -/
theorem generate_noted (ctx : Context) (opts : Options) (patterns : List Text) (host : Host) :
    host.Noted (generate ctx opts patterns host).2.host := by
  have met := (notes_promised ctx opts).run patterns (fun session _ _ => Host.Noted.refl session.host)
    ⟨host, defaultSink ctx opts⟩
  change (onSessions notes).Met _ (generate ctx opts patterns host) at met
  generalize generate ctx opts patterns host = ended at met ⊢
  obtain ⟨result, session⟩ := ended
  cases result <;> exact met

/-- A disk after files are written in turn below a base path. -/
inductive Laid (workdir : Place) (base : Path) : List (Text × Text) → Disk → Disk → Prop
  | nil (d : Disk) : Laid workdir base [] d d
  | cons {name contents : Text} {files : List (Text × Text)} {bytes : List UInt8} {d next last : Disk} :
      Utf8.encode contents = .ok bytes →
      d.write workdir (base.join name).toText bytes = .ok next →
      Laid workdir base files next last → Laid workdir base ((name, contents) :: files) d last

theorem Laid.append {workdir : Place} {base : Path} {files more : List (Text × Text)}
    {d next last : Disk} (first : Laid workdir base files d next)
    (rest : Laid workdir base more next last) : Laid workdir base (files ++ more) d last := by
  induction first with
  | nil d => exact rest
  | cons encoded written _ ih => exact .cons encoded written (ih rest)

/-- A session after files were written: a plan has taken them, or they lie below the directory of the
sink, which knows their paths. -/
inductive Stored (files : List (Text × Text)) (s t : Session) : Prop
  | plan (plan : Plan) : s.sink = .plan plan → t.sink = .plan (Plan.putAll files plan) →
      t.host.disk = s.host.disk → t.host.workdir = s.host.workdir → Stored files s t
  | directory (ctx : Context) (base : Path) (written : List Path) :
      s.sink = .directory ctx base written →
      t.sink = .directory ctx base (written ++ files.map fun file => base.join file.1) →
      Laid s.host.workdir base files s.host.disk t.host.disk →
      t.host.workdir = s.host.workdir → Stored files s t

theorem stored_nothing {s t : Session} (sink : t.sink = s.sink) (disk : t.host.disk = s.host.disk)
    (workdir : t.host.workdir = s.host.workdir) : Stored [] s t := by
  cases kind : s.sink with
  | plan plan => exact .plan plan kind (sink.trans kind) disk workdir
  | directory ctx base written =>
    refine .directory ctx base written kind ?_ ?_ workdir
    · rw [sink, kind, List.map_nil, List.append_nil]
    · rw [disk]
      exact .nil _

theorem Stored.trans {files more : List (Text × Text)} {s t u : Session}
    (first : Stored files s t) (rest : Stored more t u) : Stored (files ++ more) s u := by
  cases first with
  | plan plan from_plan to_plan disk workdir =>
    cases rest with
    | plan plan' from_plan' to_plan' disk' workdir' =>
      rw [to_plan] at from_plan'
      cases from_plan'
      refine .plan plan from_plan ?_ (disk'.trans disk) (workdir'.trans workdir)
      rw [to_plan', Plan.putAll, Plan.putAll, Plan.putAll, List.foldl_append]
    | directory ctx base written from_directory =>
      rw [to_plan] at from_directory
      cases from_directory
  | directory ctx base written from_directory to_directory laid workdir =>
    cases rest with
    | plan plan from_plan =>
      rw [to_directory] at from_plan
      cases from_plan
    | directory ctx' base' written' from_directory' to_directory' laid' workdir' =>
      rw [to_directory] at from_directory'
      cases from_directory'
      rw [workdir] at laid'
      refine .directory ctx base written from_directory ?_ (laid.append laid')
        (workdir'.trans workdir)
      rw [to_directory', List.map_append, List.append_assoc]

/-- The promise that the sink tells what was written, where a step ends well. -/
def stores : Promise Session where
  done s t := ∃ files, Stored files s t
  failed _ _ _ := True
  refl s := ⟨[], stored_nothing rfl rfl rfl⟩
  trans first rest := by
    obtain ⟨files, first⟩ := first
    obtain ⟨more, rest⟩ := rest
    exact ⟨files ++ more, first.trans rest⟩
  later _ _ := trivial

/-- Steps that write no file keep the promise. -/
theorem stores_ofAction {α : Type} {step : Action α}
    (stays : ∀ host, (step.on host).2.disk = host.disk ∧ (step.on host).2.workdir = host.workdir) :
    stores.Kept (Emission.ofAction step) := by
  intro session
  obtain ⟨disk, workdir⟩ := stays session.host
  change stores.Met session ((step.on session.host).1, { session with host := (step.on session.host).2 })
  generalize step.on session.host = ended at disk workdir ⊢
  obtain ⟨result, host⟩ := ended
  cases result with
  | ok a => exact ⟨[], stored_nothing rfl disk workdir⟩
  | error failure => trivial

theorem stores_write (filename contents : Text) : stores.Kept (Emission.write filename contents) := by
  intro session
  change stores.Met session ((Emission.write filename contents).on session)
  obtain ⟨host, sink⟩ := session
  cases sink with
  | plan plan => exact ⟨[(filename, contents)], .plan plan rfl rfl rfl rfl⟩
  | directory ctx base written =>
    cases ended : (Emission.write filename contents).on ⟨host, .directory ctx base written⟩ with
    | mk result next =>
      cases result with
      | error failure => trivial
      | ok _ =>
        obtain ⟨place, bytes, errors, encoded, found, rfl⟩ := Emission.write_ok ended
        refine ⟨[(filename, contents)], .directory ctx base written rfl rfl ?_ rfl⟩
        refine .cons encoded ?_ (.nil _)
        rw [Disk.write, found]

theorem stores_promised (ctx : Context) (opts : Options) : Promised stores ctx opts where
  reads _ _ := stores_ofAction fun host => by
    rw [Action.on_readText]
    exact ⟨rfl, rfl⟩
  compiles source := stores_ofAction fun host => by
    obtain ⟨errors, compiled⟩ : ∃ errors, (Engine.compile ctx source).on host = _ :=
      Engine.on_compile ctx host rfl
    rw [compiled]
    split <;> exact ⟨rfl, rfl⟩
  orders _ _ := stores_ofAction fun host => by
    rw [Action.on_ofExcept]
    exact ⟨rfl, rfl⟩
  logs event clear := stores_ofAction fun host => by
    obtain ⟨errors, logged⟩ := Action.on_log ctx host event clear
    rw [logged]
    exact ⟨rfl, rfl⟩
  suits _ _ := stores_ofAction fun host => by
    rw [Action.on_ofExcept]
    exact ⟨rfl, rfl⟩
  types c := stores_ofAction fun host => by
    obtain ⟨errors, typed⟩ : ∃ errors, (Engine.generateTypes ctx c).on host = _ :=
      Engine.on_generateTypes ctx host rfl
    rw [typed]
    split <;> exact ⟨rfl, rfl⟩
  writes := stores_write

/-- The sink of a run that ends well tells what was written. -/
theorem generate_stored {ctx : Context} {opts : Options} {patterns : List Text} {host : Host}
    {session : Session} (done : generate ctx opts patterns host = (.ok (), session)) :
    ∃ files, Stored files ⟨host, defaultSink ctx opts⟩ session := by
  have met := (stores_promised ctx opts).run patterns (fun _ _ _ => trivial) ⟨host, defaultSink ctx opts⟩
  change stores.Met _ (generate ctx opts patterns host) at met
  rw [done] at met
  exact met

end GrammarBundle.Bundle
