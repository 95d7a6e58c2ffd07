import GrammarBundle.Proofs.Bundle.Emissions
import GrammarBundle.Proofs.Engine.Replies

/-!
The agenda of a run: for each grammar file a job, and for each job its deeds in order, each with what
stands in its way if anything does. The agenda is known from the host that the run starts on and from
the engine's outcomes; a run performs it, step by step, up to the first failure.
-/

namespace GrammarBundle.Bundle

/-- What a run does that can be seen: it makes a call, or writes a file to its sink. -/
inductive Deed where
  | request (call : Engine.Call)
  | write (filename contents : Text)

/-- A deed on an agenda, and why it is not done if it is not. -/
structure Step where
  obstacle : Option Failure
  deed : Deed

def Deed.perform : Deed → Emission Unit
  | .request call => do
    let _ ← Emission.ofAction (Engine.make call)
  | .write filename contents => Emission.write filename contents

def Deed.leaves (engine : Engine) : Deed → Engine
  | .request call => engine.after call
  | .write _ _ => engine

def Step.perform (step : Step) : Emission Unit :=
  match step.obstacle with
  | some failure => throw failure
  | none => step.deed.perform

/-- Performs steps in order, up to the first failure. -/
def performAll : List Step → Emission Unit
  | [] => return ()
  | step :: rest => do
    step.perform
    performAll rest

/-- What stands in the way of a deed that needs a result. -/
def obstacleOf {α : Type} : Except Failure α → Option Failure
  | .error failure => some failure
  | .ok _ => none

/-- The result that a deed uses; the empty one stands for a result that is not there. -/
def valueOf {α : Type} (result : Except Failure (List α)) : List α := result.toOption.getD []

/-- The work on one grammar file: its source if it can be sent to the compiler, the collection that comes
back if it is in order, and the type declarations for it. -/
structure Job where
  file : Text
  source : Except Failure Text
  collection : Except Failure Collection
  types : Except Failure Text

section

variable (ctx : Context) (opts : Options) (host : Host)

def Job.compileCall (job : Job) : Engine.Call :=
  Engine.compileCall ctx host.engineScript (valueOf job.source)

def Job.typesCall (job : Job) : Engine.Call :=
  Engine.typesCall ctx host.engineScript (valueOf job.collection)

/-- The steps of a job: the source is compiled and the module written, then, if they are asked for, the
type declarations are generated and written. -/
def Job.steps (job : Job) : List Step :=
  ⟨obstacleOf job.source, .request (job.compileCall ctx host)⟩ ::
    ⟨obstacleOf job.collection, .write (moduleFile job.file)
      (renderModule (.ofEsm opts.esm) defaultRuntime (valueOf job.collection))⟩ ::
    if opts.withTypes then
      [⟨none, .request (job.typesCall ctx host)⟩,
        ⟨obstacleOf job.types, .write (declarationFile job.file)
          (declarationText job.file (valueOf job.types))⟩]
    else []

def textOf (file : Text) : Except Failure Text :=
  ((Action.readText (sourcePath opts.workdir file)).on host).1

/-- The text of a file if it can be sent to the compiler. -/
def sourceOf (file : Text) : Except Failure Text :=
  match textOf opts host file with
  | .error failure => .error failure
  | .ok text =>
    match Engine.ready host ctx with
    | .error failure => .error failure
    | .ok _ => .ok text

def inOrder (file : Text) (compiled : Except Failure Collection) : Except Failure Collection :=
  match compiled with
  | .error failure => .error failure
  | .ok c =>
    match c.checkOrder file with
    | .error fault => .error (.grammarOrder fault)
    | .ok _ => .ok c

/-- The job of a file, given the engine that is left to it. -/
def jobOf (engine : Engine) (file : Text) : Job :=
  let source := sourceOf ctx opts host file
  let call := Engine.compileCall ctx host.engineScript (valueOf source)
  let collection := inOrder file (Engine.compiled ctx (engine.answer call).1)
  let second := Engine.typesCall ctx host.engineScript (valueOf collection)
  ⟨file, source, collection, Engine.typed ctx ((engine.after call).answer second).1⟩

def Job.leaves (engine : Engine) (job : Job) : Engine :=
  ((job.steps ctx opts host).map Step.deed).foldl Deed.leaves engine

def jobs (engine : Engine) : List Text → List Job
  | [] => []
  | file :: rest =>
    let job := jobOf ctx opts host engine file
    job :: jobs (job.leaves ctx opts host engine) rest

def stepsOf (engine : Engine) (grammars : List Text) : List Step :=
  (jobs ctx opts host engine grammars).flatMap (Job.steps ctx opts host)

def agenda (engine : Engine) (files : List Text) : List Step :=
  stepsOf ctx opts host engine (files.filter isGrammarFile)

/-- A session in a run: grammar files stand on its disk as they stood on the first host, and the engine
is left in some state. -/
structure Follows (engine : Engine) (session : Session) : Prop where
  grown : Disk.Grown host.disk session.host.disk
  workdir : session.host.workdir = host.workdir
  script : session.host.engineScript = host.engineScript
  engine : session.host.engine = engine
  sink : (∃ files, session.sink = .plan files) ∨
    ∃ written, session.sink = .directory ctx (Path.ofText (baseOf opts.workdir)) written

end

theorem stepsOf_cons {ctx : Context} {opts : Options} {host : Host} {engine : Engine} {file : Text}
    {rest : List Text} :
    stepsOf ctx opts host engine (file :: rest) =
      (jobOf ctx opts host engine file).steps ctx opts host ++
        stepsOf ctx opts host ((jobOf ctx opts host engine file).leaves ctx opts host engine) rest :=
  rfl

/-- Hosts on which the same texts are read and the same engine program is asked have the same steps. -/
theorem stepsOf_congr {ctx : Context} {opts : Options} {host host' : Host} {engine : Engine}
    {grammars : List Text} (script : host'.engineScript = host.engineScript)
    (ready : Engine.ready host' ctx = Engine.ready host ctx)
    (texts : ∀ file ∈ grammars, textOf opts host' file = textOf opts host file) :
    stepsOf ctx opts host' engine grammars = stepsOf ctx opts host engine grammars := by
  induction grammars generalizing engine with
  | nil => rfl
  | cons file rest ih =>
    have sources : sourceOf ctx opts host' file = sourceOf ctx opts host file := by
      unfold sourceOf
      rw [texts file List.mem_cons_self, ready]
    have job : jobOf ctx opts host' engine file = jobOf ctx opts host engine file := by
      unfold jobOf
      rw [sources, script]
    have steps (job : Job) : job.steps ctx opts host' = job.steps ctx opts host := by
      unfold Job.steps Job.compileCall Job.typesCall
      rw [script]
    have leaves (job : Job) :
        job.leaves ctx opts host' engine = job.leaves ctx opts host engine := by
      rw [Job.leaves, steps, Job.leaves]
    rw [stepsOf_cons, stepsOf_cons, job, steps, leaves]
    exact congrArg _ (ih fun other member => texts other (List.mem_cons_of_mem _ member))

theorem perform_ok_iff {step : Step} {session session' : Session} :
    step.perform.on session = (.ok (), session') ↔
      step.obstacle = none ∧ step.deed.perform.on session = (.ok (), session') := by
  unfold Step.perform
  cases step.obstacle with
  | none => simp
  | some failure => simp [Emission.on_throw]

theorem performAll_cons_ok {step : Step} {rest : List Step} {session last : Session} :
    (performAll (step :: rest)).on session = (.ok (), last) ↔
      ∃ next, step.perform.on session = (.ok (), next) ∧
        (performAll rest).on next = (.ok (), last) := by
  rw [performAll, Emission.on_bind]
  cases step.perform.on session with
  | mk result after =>
    cases result with
    | ok _ =>
      constructor
      · intro done
        exact ⟨after, rfl, done⟩
      · intro done
        obtain ⟨next, same, later⟩ := done
        cases same
        exact later
    | error failure => simp

theorem performAll_append {front back : List Step} {session : Session} :
    (performAll (front ++ back)).on session =
      ((performAll front) >>= fun _ => performAll back).on session := by
  induction front generalizing session with
  | nil => rfl
  | cons step front ih =>
    rw [List.cons_append, performAll, performAll, Emission.on_bind, Emission.on_bind,
      Emission.on_bind]
    cases step.perform.on session with
    | mk result after =>
      cases result with
      | error failure => rfl
      | ok _ =>
        dsimp only
        rw [ih, Emission.on_bind]

end GrammarBundle.Bundle
