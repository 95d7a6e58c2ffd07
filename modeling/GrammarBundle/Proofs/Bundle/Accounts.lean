import GrammarBundle.Proofs.Bundle.Promises
import GrammarBundle.Proofs.Engine.Exchanges
import GrammarBundle.Proofs.Pattern.Passable

/-!
Failures that have no exit code of their own. With an engine whose answers are proper and with paths that
the system takes, a run fails in such a way only where a grammar file is no text, or where a text that it
writes has a surrogate, which came from the engine or from the name of a file.
-/

namespace GrammarBundle.Bundle

open Promise (Kept met_bind)

/-- The directory of a sink, if it writes into one. -/
def Sink.base? : Sink → Option Path
  | .plan _ => none
  | .directory _ base _ => some base

/-- Causes without an exit code of their own, for which a run from one host fails on another. -/
inductive Blamed (ctx : Context) (opts : Options) (files : List Text) (host after : Host) : Failure → Prop
  /-- A matched grammar file is no text. -/
  | source {file : Text} {bytes : List UInt8} {fault : Utf8.DecodeFault} :
      file ∈ files → fileExtension file = grammarExtension →
      after.disk.read after.workdir (sourcePath opts.workdir file).toText = .ok bytes →
      Utf8.decode bytes = .error fault → Blamed ctx opts files host after (.undecodable fault)
  /-- The module of what the engine compiled cannot be encoded. -/
  | module {exchange : Engine.Exchange} {c : Collection} {fault : Utf8.EncodeFault} :
      opts.dryRun = false → exchange ∈ host.exchanges after →
      Engine.compiled ctx exchange.2 = .ok c →
      Utf8.encode (renderModule (.ofEsm opts.esm) defaultRuntime c) = .error fault →
      Blamed ctx opts files host after (.unencodable fault)
  /-- The declarations that the engine made for a matched file cannot be encoded. -/
  | declarations {exchange : Engine.Exchange} {file types : Text} {fault : Utf8.EncodeFault} :
      opts.dryRun = false → opts.withTypes = true → file ∈ files →
      exchange ∈ host.exchanges after → Engine.typed ctx exchange.2 = .ok types →
      Utf8.encode (declarationText file types) = .error fault →
      Blamed ctx opts files host after (.unencodable fault)

/-- A cause depends on the exchanges, and on the disk where the run failed. -/
theorem Blamed.moved {ctx : Context} {opts : Options} {files : List Text} {host after host' after' : Host}
    {failure : Failure} (blamed : Blamed ctx opts files host after failure)
    (exchanges : host'.exchanges after' = host.exchanges after) (disk : after'.disk = after.disk)
    (workdir : after'.workdir = after.workdir) : Blamed ctx opts files host' after' failure := by
  cases blamed with
  | source member grammar held broken =>
    rw [← disk, ← workdir] at held
    exact .source member grammar held broken
  | module onDisk member came broken => exact .module onDisk (exchanges ▸ member) came broken
  | declarations onDisk typed listed member came broken =>
    exact .declarations onDisk typed listed (exchanges ▸ member) came broken

/-- A session of a run from a host: it was reached by calls, and its sink writes below a passable path, and
not in a dry run. -/
structure Under (opts : Options) (host : Host) (session : Session) : Prop where
  reached : host.Reached session.host
  base : ∀ base, session.sink.base? = some base → opts.dryRun = false ∧ base.Passable

/-- The promise that a failure has an exit code of its own or a cause that is to blame, if the exchanges
until then are proper. -/
def accounts (ctx : Context) (opts : Options) (files : List Text) (host : Host) : Promise Session where
  done s t := Under opts host s →
    Under opts host t ∧ host.exchanges s.host ⊆ host.exchanges t.host
  failed s t failure := Under opts host s → (∀ e ∈ host.exchanges t.host, Engine.Proper e) →
    failure.exitCode ≠ .internal ∨ Blamed ctx opts files host t.host failure
  refl s under := ⟨under, List.Subset.refl _⟩
  trans first rest under := by
    obtain ⟨there, before⟩ := first under
    obtain ⟨last, after⟩ := rest there
    exact ⟨last, List.Subset.trans before after⟩
  later first rest under := rest (first under).1

section

variable {ctx : Context} {opts : Options} {files : List Text} {host : Host} {s : Session} {file : Text}
  {α β : Type}

/-- Steps are looked at only in sessions of the run. -/
theorem accounts_under {step : Emission α}
    (met : ∀ s, Under opts host s → (accounts ctx opts files host).Met s (step.on s)) :
    (accounts ctx opts files host).Kept step := by
  intro s
  by_cases under : Under opts host s
  · exact met s under
  · change (accounts ctx opts files host).Met s (step.on s)
    generalize step.on s = ended
    obtain ⟨result, t⟩ := ended
    cases result with
    | ok a => exact fun here => absurd here under
    | error failure => exact fun here => absurd here under

/-- What follows a step runs in a session of the run, which knows the exchanges made before. -/
theorem accounts_bind {step : Emission α} {next : α → Emission β} (under : Under opts host s)
    (first : (accounts ctx opts files host).Met s (step.on s))
    (rest : ∀ a t, step.on s = (.ok a, t) → Under opts host t →
      host.exchanges s.host ⊆ host.exchanges t.host →
      (accounts ctx opts files host).Met t ((next a).on t)) :
    (accounts ctx opts files host).Met s ((step >>= next).on s) := by
  refine met_bind first fun a t ended => ?_
  change step.on s = (.ok a, t) at ended
  rw [ended] at first
  obtain ⟨there, more⟩ := first under
  exact rest a t ended there more

/-- A step without calls that fails, if it does, with an exit code of its own. -/
theorem accounts_plain {step : Action α}
    (calls : (step.on s.host).2.calls = s.host.calls)
    (engine : (step.on s.host).2.engine = s.host.engine)
    (coded : ∀ failure, (step.on s.host).1 = .error failure → failure.exitCode ≠ .internal) :
    (accounts ctx opts files host).Met s ((Emission.ofAction step).on s) := by
  rw [Emission.on_ofAction]
  generalize step.on s.host = ended at calls engine coded ⊢
  obtain ⟨result, after⟩ := ended
  cases result with
  | ok a =>
    intro under
    obtain ⟨reached, same⟩ := under.reached.same calls engine
    refine ⟨⟨reached, under.base⟩, ?_⟩
    dsimp only at same ⊢
    rw [same]
    exact List.Subset.refl _
  | error failure => exact fun _ _ => .inl (coded failure rfl)

/-- Something that came out of an exchange of the run. -/
def Received (host : Host) (session : Session) (answer : Engine.Outcome → Except Failure α) (a : α) :
    Prop :=
  ∃ exchange ∈ host.exchanges session.host, answer exchange.2 = .ok a

theorem Received.later {session next : Session} {answer : Engine.Outcome → Except Failure α} {a : α}
    (received : Received host session answer a)
    (more : host.exchanges session.host ⊆ host.exchanges next.host) : Received host next answer a := by
  obtain ⟨exchange, member, same⟩ := received
  exact ⟨exchange, more member, same⟩

variable (files) in
/-- A request fails, if it does, with an exit code of its own, and what it brings was received. -/
theorem accounts_request {step : Action α} {answer : Engine.Outcome → Except Failure α}
    {call : Engine.Call} {errors : Text} (under : Under opts host s)
    (asked : step.on s.host =
      match Engine.ready s.host ctx with
      | .error failure => (.error failure, s.host)
      | .ok _ => (answer (s.host.engine.answer call).1, (s.host.asked call).logged errors))
    (proper : ∀ outcome failure, Engine.Proper (call, outcome) → answer outcome = .error failure →
      Engine.Foreseen failure) :
    (accounts ctx opts files host).Met s ((Emission.ofAction step).on s) ∧
      ∀ a t, (Emission.ofAction step).on s = (.ok a, t) → Received host t answer a := by
  rw [Emission.on_ofAction, asked]
  cases standing : Engine.ready s.host ctx with
  | error failure =>
    refine ⟨fun _ _ => .inl ?_, fun a t ended => by cases ended⟩
    exact (Engine.foreseen_of_not_ready standing).not_internal
  | ok _ =>
    obtain ⟨reached, added⟩ := under.reached.asked call errors
    dsimp only
    have last : (call, (s.host.engine.answer call).1) ∈
        host.exchanges ((s.host.asked call).logged errors) := by
      rw [added]
      exact List.mem_append_right _ (List.mem_singleton_self _)
    generalize (s.host.engine.answer call).1 = outcome at last added
    cases came : answer outcome with
    | ok a =>
      refine ⟨fun _ => ⟨⟨reached, under.base⟩, ?_⟩, fun a t ended => ?_⟩
      · dsimp only
        rw [added]
        exact List.subset_append_left _ _
      · cases ended
        exact ⟨_, last, came⟩
    | error failure =>
      refine ⟨fun _ all => .inl ?_, fun a t ended => by cases ended⟩
      exact (proper outcome failure (all _ last) came).not_internal

/-- A source is read, is refused by the system, or is no text. -/
theorem accounts_read (below : (baseOf opts.workdir).Passable) (member : file ∈ files)
    (known : file.Passable) (grammar : fileExtension file = grammarExtension) :
    (accounts ctx opts files host).Met s
      ((Emission.ofAction (Action.readText (sourcePath opts.workdir file))).on s) := by
  have passable : (sourcePath opts.workdir file).toText.Passable := by
    rw [sourcePath_eq]
    exact (Path.passable_ofText (below.joinPath known)).toText
  have refused := Disk.read_refused s.host.disk s.host.workdir passable
  rw [Emission.on_ofAction, Action.on_readText]
  cases held : s.host.disk.read s.host.workdir (sourcePath opts.workdir file).toText with
  | error fault =>
    rw [held] at refused
    obtain ⟨reason, rfl⟩ := refused
    exact fun _ _ => .inl (by intro same; cases same)
  | ok bytes =>
    dsimp only
    cases decoded : Utf8.decode bytes with
    | error fault => exact fun _ _ => .inr (.source member grammar held decoded)
    | ok text => exact fun under => ⟨under, List.Subset.refl _⟩

/-- A file is written, the system refuses it, or its contents cannot be encoded. -/
theorem accounts_write {filename contents : Text} (under : Under opts host s) (named : filename.Passable)
    (blamed : ∀ fault after, Utf8.encode contents = .error fault → opts.dryRun = false →
      host.exchanges after = host.exchanges s.host →
      Blamed ctx opts files host after (.unencodable fault)) :
    (accounts ctx opts files host).Met s ((Emission.write filename contents).on s) := by
  obtain ⟨current, sink⟩ := s
  cases sink with
  | plan plan => exact fun under => ⟨⟨under.reached, fun _ given => by cases given⟩, List.Subset.refl _⟩
  | directory own base written =>
    obtain ⟨onDisk, base_passable⟩ := under.base base rfl
    obtain ⟨errors, wrote⟩ := Emission.on_write_directory filename contents current own base written
    have refused := Disk.writePlace_refused current.disk current.workdir (base_passable.join named).toText
    rw [wrote]
    cases found : current.disk.writePlace current.workdir (base.join filename).toText with
    | error fault =>
      rw [found] at refused
      obtain ⟨reason, rfl⟩ := refused
      exact fun _ _ => .inl (by intro same; cases same)
    | ok place =>
      dsimp only
      cases encoded : Utf8.encode contents with
      | error fault => exact fun _ _ => .inr (blamed fault _ encoded onDisk rfl)
      | ok bytes =>
        exact fun under => ⟨⟨under.reached, under.base⟩, List.Subset.refl _⟩

theorem accounts_module {c : Collection} (under : Under opts host s) (known : file.Passable)
    (grammar : isGrammarFile file = true)
    (received : Received host s (Engine.compiled ctx) c) :
    (accounts ctx opts files host).Met s
      ((emitModule file c (.ofEsm opts.esm) defaultRuntime).on s) := by
  obtain ⟨exchange, member, came⟩ := received
  rw [emitModule_eq grammar]
  refine accounts_bind under (accounts_write under (known.append (by decide)) ?_) fun _ t _ _ _ =>
    Promise.kept_pure _ t
  intro fault after encoded onDisk same
  exact .module onDisk (same ▸ member) came encoded

theorem accounts_declarations {c : Collection} (under : Under opts host s) (listed : file ∈ files)
    (known : file.Passable) (grammar : isGrammarFile file = true) (typed : opts.withTypes = true) :
    (accounts ctx opts files host).Met s
      ((emitDeclarations file (Engine.generateTypes ctx c)).on s) := by
  obtain ⟨errors, asked⟩ := Engine.on_generateTypes (c := c) ctx s.host rfl
  obtain ⟨met, received⟩ := accounts_request files under asked fun _ _ => Engine.typed_proper
  rw [emitDeclarations_eq grammar]
  refine accounts_bind under met fun types t ended there _ => ?_
  obtain ⟨exchange, member, came⟩ := received types t ended
  refine accounts_bind there (accounts_write there (known.append (by decide)) ?_) fun _ u _ _ _ =>
    Promise.kept_pure _ u
  intro fault after encoded onDisk same
  exact .declarations onDisk typed listed (same ▸ member) came encoded

theorem accounts_log (event : LogEvent) (clear : event.clash? = none) :
    (accounts ctx opts files host).Met s ((Emission.ofAction (Action.log ctx event)).on s) := by
  obtain ⟨errors, logged⟩ := Action.on_log ctx s.host event clear
  refine accounts_plain (by rw [logged]; rfl) (by rw [logged]; rfl) fun failure failed => ?_
  rw [logged] at failed
  cases failed

theorem accounts_order (c : Collection) (file : Text) :
    (accounts ctx opts files host).Met s
      ((Emission.ofAction (Action.ofExcept Failure.grammarOrder (c.checkOrder file))).on s) := by
  refine accounts_plain (by rw [Action.on_ofExcept]) (by rw [Action.on_ofExcept]) ?_
  intro failure failed internal
  rw [Action.on_ofExcept] at failed
  cases checked : c.checkOrder file <;> rw [checked] at failed <;> cases failed
  cases internal

theorem accounts_file (below : (baseOf opts.workdir).Passable) (listed : file ∈ files)
    (known : file.Passable) : (accounts ctx opts files host).Kept (bundleFile ctx opts file) := by
  refine accounts_under fun s under => ?_
  unfold bundleFile
  split
  next extension =>
    have grammar : isGrammarFile file = true := decide_eq_true extension
    refine accounts_bind under (accounts_read below listed known extension) fun source t _ there _ => ?_
    obtain ⟨errors, asked⟩ : ∃ errors, (Engine.compile ctx source).on t.host = _ :=
      Engine.on_compile ctx t.host rfl
    obtain ⟨met, received⟩ := accounts_request files there asked fun _ _ => Engine.compiled_proper
    refine accounts_bind there met fun c u ended there _ => ?_
    have compiled := received c u ended
    refine accounts_bind there (accounts_order c file) fun _ v _ there more => ?_
    refine accounts_bind there (accounts_log _ rfl) fun _ w _ there more' => ?_
    have compiled := (compiled.later more).later more'
    refine accounts_bind there (accounts_module there known grammar compiled) fun _ x _ there _ => ?_
    split
    next typed =>
      exact accounts_bind there (accounts_declarations there listed known grammar typed)
        fun _ y _ _ _ => Promise.kept_pure _ y
    · exact Promise.kept_pure _ x
  · exact accounts_log _ rfl

theorem accounts_files (below : (baseOf opts.workdir).Passable) {rest : List Text}
    (listed : rest ⊆ files) (known : ∀ file ∈ files, file.Passable) :
    (accounts ctx opts files host).Kept (bundleFiles ctx opts rest) := by
  induction rest with
  | nil => exact Promise.kept_pure ()
  | cons file rest ih =>
    have member := listed List.mem_cons_self
    exact (accounts_file below member (known file member)).bind fun _ =>
      ih fun other later => listed (List.mem_cons_of_mem file later)

theorem under_start (below : (baseOf opts.workdir).Passable) (host : Host) :
    Under opts host ⟨host, defaultSink ctx opts⟩ where
  reached := .refl host
  base := by
    intro base given
    cases dry : opts.dryRun with
    | true =>
      rw [defaultSink, dry] at given
      cases given
    | false =>
      rw [defaultSink_disk dry] at given
      cases given
      exact ⟨rfl, Path.passable_ofText below⟩

/-- A run that fails without an exit code of its own has a cause that is to blame. -/
theorem generate_accounted {patterns : List Text} {failure : Failure} {session : Session}
    (named : host.disk.Passable) (below : (baseOf opts.workdir).Passable)
    (taken : ∀ pattern ∈ patterns, pattern.Passable)
    (failed : generate ctx opts patterns host = (.error failure, session))
    (proper : ∀ exchange ∈ host.exchanges session.host, Engine.Proper exchange)
    (internal : failure.exitCode = .internal) :
    ∃ files, expandPatterns host.disk host.workdir patterns opts.workdir = .ok files ∧
      Blamed ctx opts files host session.host failure := by
  obtain ⟨files, expanded, known⟩ := expandPatterns_finds host.workdir named below taken
  refine ⟨files, expanded, ?_⟩
  have met : (accounts ctx opts files host).Met ⟨host, defaultSink ctx opts⟩
      ((bundleFiles ctx opts files).on ⟨host, defaultSink ctx opts⟩) :=
    accounts_files below (List.Subset.refl files) known _
  unfold generate at failed
  rw [on_bundlePatterns expanded] at failed
  rw [failed] at met
  exact (met (under_start below host) proper).resolve_left (absurd internal)

end

end GrammarBundle.Bundle
