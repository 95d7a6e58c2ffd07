import GrammarBundle.Proofs.Bundle.Records
import GrammarBundle.Proofs.Bundle.Runs
import GrammarBundle.Proofs.Engine.Unconfigured
import GrammarBundle.Proofs.Json.Canonical

/-!
Runs in two configurations. A run goes side by side with a run in any other context of the same working
directory: they reach the same files, hand the same contents to their writers, and end alike. So nothing
of a configuration, and nothing of what is logged, shows in the bundles. One thing of a configuration
shows in the kind of a failure, where a process is stopped: whether the time it had has too many digits to
be told.
-/

namespace GrammarBundle.Bundle

/-- Sinks that hold the same and write to the same directory, whatever they log. -/
inductive Sink.Akin : Sink → Sink → Prop
  | plan (files : Plan) : Akin (.plan files) (.plan files)
  | directory (ctx ctx' : Context) (base : Path) (written : List Path) :
      Akin (.directory ctx base written) (.directory ctx' base written)

theorem Sink.Akin.files {sink sink' : Sink} (akin : sink.Akin sink') : sink'.files = sink.files := by
  cases akin <;> rfl

theorem defaultSink_akin (ctx ctx' : Context) (opts : Options) :
    (defaultSink ctx opts).Akin (defaultSink ctx' opts) := by
  unfold defaultSink
  cases opts.dryRun with
  | true => exact .plan []
  | false => exact .directory ctx ctx' _ []

variable {ω : Type} {kept : ω → ω → Prop}

/-- A writer that acts on its own state, on file names, on contents and on the host, but not on what was
called and printed before. -/
def Writer.Oblivious (writer : Writer ω) (kept : ω → ω → Prop) : Prop :=
  ∀ filename contents, Abreast True (fun one other => one.1.Akin other.1 ∧ kept one.2 other.2)
    (writer filename contents) (writer filename contents)

theorem sink_oblivious : Writer.sink.Oblivious Sink.Akin := by
  rintro filename contents ⟨host, sink⟩ ⟨host', sink'⟩ ⟨hosts, sinks⟩
  change Ends True ((Emission.write filename contents).on ⟨host, sink⟩).1
      ((Emission.write filename contents).on ⟨host', sink'⟩).1 ∧
    ((Emission.write filename contents).on ⟨host, sink⟩).2.host.Akin
      ((Emission.write filename contents).on ⟨host', sink'⟩).2.host ∧
    ((Emission.write filename contents).on ⟨host, sink⟩).2.sink.Akin
      ((Emission.write filename contents).on ⟨host', sink'⟩).2.sink
  cases sinks with
  | plan files => exact ⟨.ok (), hosts, .plan _⟩
  | directory ctx ctx' base written =>
    obtain ⟨errors, left⟩ := Emission.on_write_directory filename contents host ctx base written
    obtain ⟨errors', right⟩ := Emission.on_write_directory filename contents host' ctx' base written
    have same : host'.disk.writePlace host'.workdir (base.join filename).toText =
        host.disk.writePlace host.workdir (base.join filename).toText := by
      rw [hosts.disk, hosts.workdir]
    rw [left, right, same]
    cases host.disk.writePlace host.workdir (base.join filename).toText with
    | error fault => exact ⟨.error (.same _), hosts.logged _ _, .directory _ _ _ _⟩
    | ok place =>
      cases Utf8.encode contents with
      | error fault => exact ⟨.error (.same _), hosts.set place _ _ _, .directory _ _ _ _⟩
      | ok bytes => exact ⟨.ok (), hosts.set place _ _ _, .directory _ _ _ _⟩

/-- Journals of two runs that have come equally far. -/
structure Journal.Akin (kept : ω → ω → Prop) (journal journal' : Journal ω) : Prop where
  hosts : journal.host.Akin journal'.host
  writers : kept journal.writer journal'.writer
  source : journal'.source = journal.source
  writes : journal'.writes = journal.writes

namespace Recorded

variable {told : Prop} {α : Type} {ctx ctx' : Context} {opts : Options} {writer : Writer ω}

theorem abreast_ofAction {one other : Action α} (abreast : Abreast told Host.Akin one other) :
    Abreast told (Journal.Akin kept) (ofAction one) (ofAction other) := by
  intro journal journal' akin
  obtain ⟨ends, hosts⟩ := abreast journal.host journal'.host akin.hosts
  exact ⟨ends, hosts, akin.writers, akin.source, akin.writes⟩

theorem abreast_log (ctx ctx' : Context) (event event' : LogEvent) (clear : event.clash? = none)
    (clear' : event'.clash? = none) :
    Abreast told (Journal.Akin kept) (ofAction (Action.log ctx event))
      (ofAction (Action.log ctx' event')) :=
  abreast_ofAction (Action.abreast_log ctx ctx' event event' clear clear')

theorem abreast_ofExcept {ε : Type} {cause : ε → Failure} (result : Except ε α) :
    Abreast told (Journal.Akin kept) (ofAction (Action.ofExcept cause result) : Recorded ω α)
      (ofAction (Action.ofExcept cause result)) :=
  abreast_ofAction (Action.abreast_ofExcept result)

theorem abreast_reach (file : Text) :
    Abreast told (Journal.Akin kept) (reach file : Recorded ω Unit) (reach file) := by
  intro journal journal' akin
  exact ⟨.ok (), akin.hosts, akin.writers, rfl, akin.writes⟩

theorem abreast_write (oblivious : writer.Oblivious kept) (filename contents : Text) :
    Abreast told (Journal.Akin kept) (write writer filename contents)
      (write writer filename contents) := by
  intro journal journal' akin
  obtain ⟨ends, hosts, writers⟩ := oblivious filename contents (journal.host, journal.writer)
    (journal'.host, journal'.writer) ⟨akin.hosts, akin.writers⟩
  exact ⟨ends.of_untimed, hosts, writers, akin.source,
    congrArg (· ++ [(filename, contents)]) akin.writes⟩

theorem abreast_emitModule (oblivious : writer.Oblivious kept) (file : Text) (c : Collection)
    (format : Format) (runtime : Text) :
    Abreast told (Journal.Akin kept) (emitModule writer file c format runtime)
      (emitModule writer file c format runtime) :=
  (abreast_ofExcept _).next (abreast_write oblivious _ _)

theorem abreast_emitDeclarations (oblivious : writer.Oblivious kept) (file : Text)
    {types types' : Action Text} (asked : Abreast told Host.Akin types types') :
    Abreast told (Journal.Akin kept) (emitDeclarations writer file types)
      (emitDeclarations writer file types') := by
  apply (abreast_ofExcept _).next
  apply (abreast_ofAction asked).bind
  intro types
  exact abreast_write oblivious _ _

theorem abreast_bundleGrammar (oblivious : writer.Oblivious kept)
    (workdirs : ctx'.workdir = ctx.workdir) (file : Text) :
    Abreast (ctx.ToldAlike ctx') (Journal.Akin kept) (bundleGrammar writer ctx opts file)
      (bundleGrammar writer ctx' opts file) := by
  apply (abreast_ofAction Action.abreast_readText).bind
  intro source
  apply (abreast_ofAction (Engine.abreast_compile workdirs source)).bind
  intro c
  apply (abreast_ofExcept _).next
  apply (abreast_log ctx ctx' _ _ rfl rfl).next
  apply (abreast_emitModule oblivious file c _ _).next
  cases opts.withTypes with
  | false => exact abreast_pure ()
  | true => exact abreast_emitDeclarations oblivious file (Engine.abreast_generateTypes workdirs c)

theorem abreast_bundleFile (oblivious : writer.Oblivious kept)
    (workdirs : ctx'.workdir = ctx.workdir) (file : Text) :
    Abreast (ctx.ToldAlike ctx') (Journal.Akin kept) (bundleFile writer ctx opts file)
      (bundleFile writer ctx' opts file) := by
  apply (abreast_reach file).next
  split
  · exact abreast_bundleGrammar oblivious workdirs file
  · exact abreast_log ctx ctx' _ _ rfl rfl

theorem abreast_bundleFiles (oblivious : writer.Oblivious kept)
    (workdirs : ctx'.workdir = ctx.workdir) (files : List Text) :
    Abreast (ctx.ToldAlike ctx') (Journal.Akin kept) (bundleFiles writer ctx opts files)
      (bundleFiles writer ctx' opts files) := by
  induction files with
  | nil => exact abreast_pure ()
  | cons file rest ih => exact (abreast_bundleFile oblivious workdirs file).next ih

theorem abreast_bundlePatterns (oblivious : writer.Oblivious kept)
    (workdirs : ctx'.workdir = ctx.workdir) (patterns : List Text) :
    Abreast (ctx.ToldAlike ctx') (Journal.Akin kept) (bundlePatterns writer ctx opts patterns)
      (bundlePatterns writer ctx' opts patterns) := by
  intro journal journal' akin
  have opened (context : Context) (journal : Journal ω) :
      StateT.run (ExceptT.run (bundlePatterns writer context opts patterns)) journal =
        StateT.run (ExceptT.run (ofAction (Action.ofExcept (Failure.ofListing [])
          (expandPatterns journal.host.disk journal.host.workdir patterns opts.workdir)) >>=
            bundleFiles writer context opts)) journal := rfl
  rw [opened, opened, akin.hosts.disk, akin.hosts.workdir]
  exact (abreast_ofExcept _).bind (abreast_bundleFiles oblivious workdirs) journal journal' akin

end Recorded

/-- A run on a host, with a writer in some state and with a record. -/
def recorded (writer : Writer ω) (ctx : Context) (opts : Options) (patterns : List Text)
    (host : Host) (state : ω) : Except Failure Unit × Journal ω :=
  (Recorded.bundlePatterns writer ctx opts patterns).on (.start host state)

/-- Runs that cannot be told apart by what they leave: they reach the same file, hand the same files to
their writers in the same order, leave the same disk, and both succeed or both fail, in the same way if
times are told alike. -/
structure Indistinct (told : Prop) (kept : ω → ω → Prop) (one other : Except Failure Unit × Journal ω) :
    Prop where
  both : other.1.toOption = one.1.toOption
  ends : Ends told one.1 other.1
  kind : told → other.1.mapError (·.report.kind) = one.1.mapError (·.report.kind)
  source : other.2.source = one.2.source
  writes : other.2.writes = one.2.writes
  disk : other.2.host.disk = one.2.host.disk
  writer : kept one.2.writer other.2.writer

variable {ctx ctx' : Context} {opts : Options} {patterns : List Text} {host : Host}
  {outcomes : List Engine.Outcome}

theorem recorded_indistinct {writer : Writer ω} {state state' : ω}
    (oblivious : writer.Oblivious kept) (states : kept state state')
    (workdirs : ctx'.workdir = ctx.workdir) (scripted : host.engine = .script outcomes) :
    Indistinct (ctx.ToldAlike ctx') kept (recorded writer ctx opts patterns host state)
      (recorded writer ctx' opts patterns host state') := by
  obtain ⟨ends, akin⟩ := Recorded.abreast_bundlePatterns oblivious workdirs patterns
    (.start host state) (.start host state') ⟨.refl scripted, states, rfl, rfl⟩
  exact ⟨ends.both, ends, ends.kind, akin.source, akin.writes, akin.hosts.disk, akin.writers⟩

section sample

/-- A context that has nothing in common with the sample but the working directory. -/
def foreignContext : Context where
  runId := "other"
  workdir := ⟨"/", []⟩
  dryRun := true
  format := "json"
  verbose := true
  quiet := true
  logJson := true
  config := ⟨"deno", "other-js", "other.js", .whole 1, true, true, some ⟨"/", ["other.yml"]⟩⟩

/-- The sample's host, where the engine compiles one grammar file and is then stopped. -/
def stoppingHost : Host :=
  { sampleHost with
    engine := .script
      [.ended 0 (some "\x7b\"status\": \"ok\", \"grammars\": []\x7d") none .still,
        .stopped .absent .absent .still] }

/-- The sample's context with a time of more digits than are printed. -/
def longContext : Context :=
  { sampleContext with
    config := { Config.standard with timeout := .whole (10 ^ Json.digitLimit : Nat) } }

/-- The sample's host, where the engine is stopped at once. -/
def haltedHost : Host := { sampleHost with engine := .script [.stopped .absent .absent .still] }

/-- A run on that host fails as the request for its first file does. -/
theorem generate_halted (ctx : Context) {failure : Failure} (root : ctx.workdir = sampleContext.workdir)
    (replied : Engine.reply ctx "compile" (.stopped .absent .absent .still) = .error failure) :
    (generate ctx sampleOptions ["*"] haltedHost).1 = .error failure := by
  have read : sourceOf ctx sampleOptions haltedHost "a.ohm" = .ok "A" := by
    have text : textOf sampleOptions haltedHost "a.ohm" = .ok "A" := by cbv
    have standing : Engine.ready haltedHost ctx = .ok () := by
      rw [Engine.ready, Action.on_isDirectory, root]
      cbv
    rw [sourceOf, text, standing]
  have refused (call : Engine.Call) :
      Engine.compiled ctx (haltedHost.engine.answer call).1 = .error failure := by
    change Engine.compiled ctx (.stopped .absent .absent .still) = _
    rw [Engine.compiled, replied]
  obtain ⟨rest, deed, blocked⟩ : ∃ rest deed,
      agenda ctx sampleOptions haltedHost haltedHost.engine sampleFiles =
        [⟨none, .request (Engine.compileCall ctx haltedHost.engineScript "A")⟩] ++
          ⟨some failure, deed⟩ :: rest := by
    rw [agenda, sample_grammars, sampleGrammars, stepsOf_cons]
    unfold jobOf
    dsimp only
    rw [read, refused]
    exact ⟨_, _, rfl⟩
  exact generate_blocked sample_linkless sample_expanded blocked rfl

/-- The contexts show in messages alone. -/
example :
    (generate sampleContext sampleOptions ["*"] sampleHost).1 = .error (.nodeMissing "node") ∧
      (generate foreignContext sampleOptions ["*"] sampleHost).1 = .error (.nodeMissing "deno") := by
  constructor <;> cbv

end sample

end GrammarBundle.Bundle
