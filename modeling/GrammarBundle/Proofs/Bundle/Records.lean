import GrammarBundle.Proofs.Bundle.Emissions
import GrammarBundle.Proofs.Run.Abreast

/-!
Runs with a record, for any writer. The record says which file a run is at and what it has handed to its
writer, in order and with repetitions, which neither a plan nor a disk can tell afterwards. Where the
writer is a sink, a run that keeps a record does what the run does that keeps none.
-/

namespace GrammarBundle.Bundle

/-- A writer with a state of its own: what it does with a file name and contents. -/
abbrev Writer (ω : Type) := Text → Text → ExceptT Failure (StateM (Host × ω)) Unit

/-- The writer that hands every file to a sink. -/
def Writer.sink : Writer Sink := fun filename contents (host, sink) =>
  let (result, session) := (Emission.write filename contents).on ⟨host, sink⟩
  (result, session.host, session.sink)

/-- How far a run has come: the file it is at, and the files it has handed to its writer. -/
structure Journal (ω : Type) where
  host : Host
  writer : ω
  source : Option Text
  writes : List (Text × Text)

def Journal.start {ω : Type} (host : Host) (writer : ω) : Journal ω := ⟨host, writer, none, []⟩

def Journal.session (journal : Journal Sink) : Session := ⟨journal.host, journal.writer⟩

abbrev Recorded (ω α : Type) := ExceptT Failure (StateM (Journal ω)) α

namespace Recorded

variable {ω α β : Type}

def on (step : Recorded ω α) (journal : Journal ω) : Except Failure α × Journal ω :=
  StateT.run (ExceptT.run step) journal

def ofAction (step : Action α) : Recorded ω α := fun journal =>
  let (result, host) := step.on journal.host
  (result, { journal with host })

def write (writer : Writer ω) (filename contents : Text) : Recorded ω Unit := fun journal =>
  let (result, host, state) :=
    StateT.run (ExceptT.run (writer filename contents)) (journal.host, journal.writer)
  (result, { journal with
    host, writer := state, writes := journal.writes ++ [(filename, contents)] })

def reach (file : Text) : Recorded ω Unit :=
  modify fun journal => { journal with source := some file }

def emitModule (writer : Writer ω) (grammarFile : Text) (c : Collection) (format : Format)
    (runtime : Text) : Recorded ω Unit := do
  ofAction (Action.ofExcept id (requireExtension grammarFile grammarExtension))
  write writer (moduleFile grammarFile) (renderModule format runtime c)

def emitDeclarations (writer : Writer ω) (grammarFile : Text) (types : Action Text) :
    Recorded ω Unit := do
  ofAction (Action.ofExcept id (requireExtension grammarFile grammarExtension))
  let types ← ofAction types
  write writer (declarationFile grammarFile) (declarationText grammarFile types)

def bundleGrammar (writer : Writer ω) (ctx : Context) (opts : Options) (file : Text) :
    Recorded ω Unit := do
  let source ← ofAction (Action.readText (sourcePath opts.workdir file))
  let c ← ofAction (Engine.compile ctx source)
  ofAction (Action.ofExcept Failure.grammarOrder (c.checkOrder file))
  ofAction (Action.log ctx ⟨"debug", "bundles", "compiled",
    [("path", .str file), ("grammars", .int c.length)]⟩)
  emitModule writer file c (.ofEsm opts.esm) defaultRuntime
  if opts.withTypes then emitDeclarations writer file (Engine.generateTypes ctx c)

def bundleFile (writer : Writer ω) (ctx : Context) (opts : Options) (file : Text) :
    Recorded ω Unit := do
  reach file
  if fileExtension file = grammarExtension then bundleGrammar writer ctx opts file
  else ofAction (Action.log ctx ⟨"debug", "bundles", "skip", [("path", .str file)]⟩)

def bundleFiles (writer : Writer ω) (ctx : Context) (opts : Options) : List Text → Recorded ω Unit
  | [] => return ()
  | file :: rest => do
    bundleFile writer ctx opts file
    bundleFiles writer ctx opts rest

def bundlePatterns (writer : Writer ω) (ctx : Context) (opts : Options) (patterns : List Text) :
    Recorded ω Unit := do
  let host := (← get).host
  let files ← ofAction (Action.ofExcept (Failure.ofListing [])
    (expandPatterns host.disk host.workdir patterns opts.workdir))
  bundleFiles writer ctx opts files

/-- A step with a record does what a step does that keeps none. -/
def Keeps (recorded : Recorded Sink α) (step : Emission α) : Prop :=
  ∀ journal, ((recorded.on journal).1, (recorded.on journal).2.session) = step.on journal.session

theorem keeps_pure (a : α) : Keeps (pure a) (pure a) := fun _ => rfl

theorem keeps_ofAction (step : Action α) : Keeps (ofAction step) (Emission.ofAction step) :=
  fun _ => rfl

theorem keeps_write (filename contents : Text) :
    Keeps (write .sink filename contents) (Emission.write filename contents) :=
  fun _ => rfl

theorem on_bind {step : Recorded ω α} {next : α → Recorded ω β} {journal : Journal ω} :
    (step >>= next).on journal =
      match step.on journal with
      | (.ok a, after) => (next a).on after
      | (.error failure, after) => (.error failure, after) := by
  unfold on
  rw [run_bind]
  cases StateT.run (ExceptT.run step) journal with
  | mk result after => cases result <;> rfl

theorem Keeps.bind {recorded : Recorded Sink α} {step : Emission α} {next : α → Recorded Sink β}
    {rest : α → Emission β} (first : Keeps recorded step) (later : ∀ a, Keeps (next a) (rest a)) :
    Keeps (recorded >>= next) (step >>= rest) := by
  intro journal
  have same := first journal
  rw [on_bind, Emission.on_bind, ← same]
  cases recorded.on journal with
  | mk result after =>
    cases result with
    | ok a => exact later a after
    | error failure => rfl

theorem keeps_emitModule (grammarFile : Text) (c : Collection) (format : Format) (runtime : Text) :
    Keeps (emitModule .sink grammarFile c format runtime)
      (Bundle.emitModule grammarFile c format runtime >>= fun _ => pure ()) := by
  unfold emitModule Bundle.emitModule
  simp only [bind_assoc, pure_bind]
  apply (keeps_ofAction _).bind
  intro _
  simpa using keeps_write (moduleFile grammarFile) (renderModule format runtime c)

theorem keeps_emitDeclarations (grammarFile : Text) (types : Action Text) :
    Keeps (emitDeclarations .sink grammarFile types)
      (Bundle.emitDeclarations grammarFile types >>= fun _ => pure ()) := by
  unfold emitDeclarations Bundle.emitDeclarations
  simp only [bind_assoc, pure_bind]
  apply (keeps_ofAction _).bind
  intro _
  apply (keeps_ofAction _).bind
  intro types
  simpa using keeps_write (declarationFile grammarFile) (declarationText grammarFile types)

theorem keeps_bundleGrammar (ctx : Context) (opts : Options) (file : Text) :
    Keeps (bundleGrammar .sink ctx opts file) (Bundle.bundleGrammar ctx opts file) := by
  unfold bundleGrammar Bundle.bundleGrammar
  apply (keeps_ofAction _).bind
  intro source
  apply (keeps_ofAction _).bind
  intro c
  apply (keeps_ofAction _).bind
  intro _
  apply (keeps_ofAction _).bind
  intro _
  have module := keeps_emitModule file c (.ofEsm opts.esm) defaultRuntime
  have declarations := keeps_emitDeclarations file (Engine.generateTypes ctx c)
  cases opts.withTypes with
  | false => simpa using module.bind fun _ => keeps_pure ()
  | true => simpa [bind_assoc] using module.bind fun _ => declarations

theorem keeps_bundleFile (ctx : Context) (opts : Options) (file : Text) :
    Keeps (bundleFile .sink ctx opts file) (Bundle.bundleFile ctx opts file) := by
  -- that a file is reached is of the record alone
  suffices kept : Keeps
      (if fileExtension file = grammarExtension then bundleGrammar .sink ctx opts file
        else ofAction (Action.log ctx ⟨"debug", "bundles", "skip", [("path", .str file)]⟩))
      (Bundle.bundleFile ctx opts file) by
    exact fun journal => kept { journal with source := some file }
  unfold Bundle.bundleFile
  split
  · exact keeps_bundleGrammar ctx opts file
  · exact keeps_ofAction _

theorem keeps_bundleFiles (ctx : Context) (opts : Options) (files : List Text) :
    Keeps (bundleFiles .sink ctx opts files) (Bundle.bundleFiles ctx opts files) := by
  induction files with
  | nil => exact keeps_pure ()
  | cons file rest ih =>
    apply (keeps_bundleFile ctx opts file).bind
    intro _
    exact ih

/-- Keeping a record changes nothing of what a run does. -/
theorem keeps_bundlePatterns (ctx : Context) (opts : Options) (patterns : List Text) :
    Keeps (bundlePatterns .sink ctx opts patterns) (Bundle.bundlePatterns ctx opts patterns) := by
  intro journal
  have listed := keeps_ofAction (Action.ofExcept (Failure.ofListing [])
    (expandPatterns journal.host.disk journal.host.workdir patterns opts.workdir))
  exact (listed.bind fun files => keeps_bundleFiles ctx opts files) journal

end Recorded

end GrammarBundle.Bundle
