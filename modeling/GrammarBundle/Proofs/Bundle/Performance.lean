import GrammarBundle.Proofs.Bundle.Agenda

/-!
A run performs its agenda: bundling files does what the steps of the agenda do, one after the other up to
the first failure, and differs from it at most in what it logs.
-/

namespace GrammarBundle.Bundle

open Emission (Alike on_bind on_ofAction)

variable {ctx : Context} {opts : Options} {host : Host} {engine : Engine} {file : Text}

/-- A file of a run: if it is a grammar file, it stands on the first host's disk as one. -/
def Stands (host : Host) (base : Option Text) (file : Text) : Prop :=
  isGrammarFile file = true → ∃ place bytes, Source host.disk host.workdir base file place bytes

theorem Follows.asked {session : Session} (call : Engine.Call)
    (follows : Follows ctx opts host engine session) :
    Follows ctx opts host (engine.after call) { session with host := session.host.asked call } :=
  { follows with engine := congrArg (·.after call) follows.engine }

/-- An output that is written is no grammar file, so that the session goes on in the same run. -/
theorem Follows.wrote {session session' : Session} {place : Place} {bytes : List UInt8}
    {ending contents : Text} {result : Except Failure Unit} (linkless : host.disk.Linkless)
    (source : Source host.disk host.workdir opts.workdir file place bytes)
    (listed : ending ∈ [moduleEnding, declarationEnding])
    (follows : Follows ctx opts host engine session)
    (wrote : (Emission.write (file ++ ending) contents).on session = (result, session')) :
    Follows ctx opts host engine session' := by
  obtain ⟨current, sink⟩ := session
  obtain ⟨grown, workdir, script, engine, ⟨files, rfl⟩ | ⟨written, rfl⟩⟩ := follows
  · cases wrote
    exact ⟨grown, workdir, script, engine, .inl ⟨_, rfl⟩⟩
  · obtain ⟨errors, done⟩ := Emission.on_write_directory (file ++ ending) contents current ctx
      (Path.ofText (baseOf opts.workdir)) written
    rw [done, ← sourcePath_eq_join, workdir] at wrote
    have grows {target : Place} (filled : List UInt8)
        (found : current.disk.writePlace host.workdir
          (sourcePath opts.workdir (file ++ ending)).toText = .ok target) :
        Disk.Grown host.disk (current.disk.set target (.file filled)) := by
      have same := source.outputs ending listed target
        ((Disk.writePlace_grown linkless grown).mp found)
      have apart : ¬IsGrammarPlace target := same ▸ not_grammar_beside listed
      exact grown.trans (Disk.grown_of_writePlace (grown.linkless linkless) found apart)
    split at wrote
    · cases wrote
      exact ⟨grown, workdir, script, engine, .inr ⟨_, rfl⟩⟩
    next found =>
      split at wrote <;> cases wrote
      · exact ⟨grows _ found, rfl, script, engine, .inr ⟨_, rfl⟩⟩
      · exact ⟨grows _ found, rfl, script, engine, .inr ⟨_, rfl⟩⟩

/-- A source that is read in a run has the text that it had on the first host. -/
theorem on_readSource (session : Session) {place : Place} {bytes : List UInt8}
    (linkless : host.disk.Linkless)
    (source : Source host.disk host.workdir opts.workdir file place bytes)
    (grown : Disk.Grown host.disk session.host.disk)
    (workdir : session.host.workdir = host.workdir) :
    (Emission.ofAction (Action.readText (sourcePath opts.workdir file))).on session =
      (textOf opts host file, session) := by
  have found := Disk.look_grammar linkless grown source.grammar source.found
  rw [on_ofAction, textOf, Action.on_readText, Action.on_readText, workdir, Disk.read, Disk.read,
    found, source.found]

theorem emitModule_eq {c : Collection} {format : Format} {runtime : Text}
    (grammar : isGrammarFile file = true) :
    emitModule file c format runtime = do
      Emission.write (moduleFile file) (renderModule format runtime c)
      return moduleFile file := by
  have allowed : requireExtension file grammarExtension = .ok () :=
    if_pos (of_decide_eq_true grammar)
  unfold emitModule
  rw [allowed]
  rfl

theorem emitDeclarations_eq {types : Action Text} (grammar : isGrammarFile file = true) :
    emitDeclarations file types = do
      let types ← Emission.ofAction types
      Emission.write (declarationFile file) (declarationText file types)
      return declarationFile file := by
  have allowed : requireExtension file grammarExtension = .ok () :=
    if_pos (of_decide_eq_true grammar)
  unfold emitDeclarations
  rw [allowed]
  rfl

/-- The type declarations are requested and written as the steps for them say. -/
theorem alike_emitDeclarations {c : Collection} (linkless : host.disk.Linkless)
    (grammar : isGrammarFile file = true) (standing : Engine.ready host ctx = .ok ())
    {types : Except Failure Text}
    (typed : types = Engine.typed ctx
      (engine.answer (Engine.typesCall ctx host.engineScript c)).1) :
    Alike (Follows ctx opts host engine)
      (emitDeclarations file (Engine.generateTypes ctx c) >>= fun _ => pure ())
      (performAll [⟨none, .request (Engine.typesCall ctx host.engineScript c)⟩,
        ⟨obstacleOf types, .write (declarationFile file) (declarationText file (valueOf types))⟩]) := by
  rw [emitDeclarations_eq grammar]
  intro s t same follows
  rw [Session.eq_logged same]
  generalize s.host.errors = logged
  generalize called : Engine.typesCall ctx host.engineScript c = call at typed ⊢
  have ready : Engine.ready (t.host.logged logged) ctx = .ok () :=
    (Engine.ready_grown (t.host.logged logged) linkless follows.grown
      follows.workdir).trans standing
  obtain ⟨errors, asked⟩ := Engine.on_generateTypes (c := c) ctx (t.host.logged logged)
    (show call = _ by rw [← called, ← follows.script]; rfl)
  rw [ready] at asked
  have answered : (Engine.typed ctx ((t.host.logged logged).engine.answer call).1) = types := by
    rw [typed, ← follows.engine]
    rfl
  rw [answered] at asked
  rw [bind_assoc, on_bind, on_ofAction, asked]
  clear answered typed
  cases types with
  | error failure => exact ⟨rfl, rfl⟩
  | ok types =>
    dsimp only
    rw [bind_assoc]
    simp only [pure_bind]
    have ends : Alike (fun _ => True)
        (Emission.write (declarationFile file) (declarationText file types) >>= fun _ => pure ())
        (Emission.write (declarationFile file) (declarationText file types) >>= fun _ => pure ()) :=
      Emission.alike_write.bind (fun _ _ _ _ _ => trivial)
        fun _ => Emission.alike_pure (fun _ => True) ()
    exact ends ⟨((t.host.logged logged).asked call).logged errors, t.sink⟩
      ⟨t.host.asked call, t.sink⟩ rfl trivial

/-- A source is read, sent and compiled, if it can be. -/
theorem on_compileSource (logged : Text) {session : Session} {place : Place} {bytes : List UInt8}
    (linkless : host.disk.Linkless)
    (source : Source host.disk host.workdir opts.workdir file place bytes)
    (follows : Follows ctx opts host engine session) :
    ∃ errors, (Emission.ofAction (Action.readText (sourcePath opts.workdir file)) >>= fun text =>
        Emission.ofAction (Engine.compile ctx text)).on ⟨session.host.logged logged, session.sink⟩ =
      match sourceOf ctx opts host file with
      | .error failure => (.error failure, ⟨session.host.logged errors, session.sink⟩)
      | .ok text =>
        let call := Engine.compileCall ctx host.engineScript text
        (Engine.compiled ctx (engine.answer call).1,
          ⟨(session.host.asked call).logged errors, session.sink⟩) := by
  have read := on_readSource ⟨session.host.logged logged, session.sink⟩ linkless source
    follows.grown follows.workdir
  rw [on_bind, read, sourceOf]
  cases textOf opts host file with
  | error failure => exact ⟨logged, rfl⟩
  | ok text =>
    dsimp only
    rw [on_ofAction]
    obtain ⟨errors, asked⟩ := Engine.on_compile ctx (session.host.logged logged)
      (show Engine.compileCall ctx host.engineScript text = _ by rw [← follows.script]; rfl)
    have ready : Engine.ready (session.host.logged logged) ctx = Engine.ready host ctx :=
      Engine.ready_grown (session.host.logged logged) linkless follows.grown follows.workdir
    have answered : (session.host.logged logged).engine = engine := follows.engine
    rw [asked, ready, answered]
    cases Engine.ready host ctx with
    | error failure => exact ⟨logged, rfl⟩
    | ok _ => exact ⟨errors, rfl⟩

theorem ready_of_sourceOf {text : Text} (sent : sourceOf ctx opts host file = .ok text) :
    Engine.ready host ctx = .ok () := by
  unfold sourceOf at sent
  split at sent
  · cases sent
  · split at sent
    · cases sent
    next standing => exact standing

/-- A collection in order is written, and its type declarations with it, as the steps say. -/
theorem alike_emit (engine : Engine) {place : Place} {bytes : List UInt8} {c : Collection}
    {types : Except Failure Text} (linkless : host.disk.Linkless) (grammar : isGrammarFile file = true)
    (source : Source host.disk host.workdir opts.workdir file place bytes)
    (standing : Engine.ready host ctx = .ok ())
    (typed : types = Engine.typed ctx
      (engine.answer (Engine.typesCall ctx host.engineScript c)).1) :
    Alike (Follows ctx opts host engine)
      (do
        let _ ← emitModule file c (.ofEsm opts.esm) defaultRuntime
        if opts.withTypes then
          let _ ← emitDeclarations file (Engine.generateTypes ctx c))
      (performAll (⟨none, .write (moduleFile file)
          (renderModule (.ofEsm opts.esm) defaultRuntime c)⟩ ::
        if opts.withTypes then
          [⟨none, .request (Engine.typesCall ctx host.engineScript c)⟩,
            ⟨obstacleOf types, .write (declarationFile file) (declarationText file (valueOf types))⟩]
        else [])) := by
  rw [emitModule_eq grammar, bind_assoc]
  simp only [pure_bind]
  have own : moduleEnding ∈ [moduleEnding, declarationEnding] := List.mem_cons_self
  have keeps (t : Session) (a : Unit) (t' : Session) (follows : Follows ctx opts host engine t)
      (wrote : (Emission.write (moduleFile file) (renderModule (.ofEsm opts.esm) defaultRuntime c)).on
        t = (.ok a, t')) : Follows ctx opts host engine t' :=
    follows.wrote linkless source own wrote
  apply Emission.alike_write.bind keeps
  intro _
  cases opts.withTypes with
  | false => exact Emission.alike_pure _ ()
  | true => exact alike_emitDeclarations linkless grammar standing typed

theorem alike_bundleGrammar {place : Place} {bytes : List UInt8} (linkless : host.disk.Linkless)
    (grammar : isGrammarFile file = true)
    (source : Source host.disk host.workdir opts.workdir file place bytes) :
    Alike (Follows ctx opts host engine) (bundleGrammar ctx opts file)
      (performAll ((jobOf ctx opts host engine file).steps ctx opts host)) := by
  intro s t same follows
  rw [Session.eq_logged same]
  obtain ⟨errors, compiles⟩ := on_compileSource s.host.errors linkless source follows
  unfold bundleGrammar
  rw [← bind_assoc, on_bind, compiles]
  unfold Job.steps jobOf
  dsimp only
  cases sent : sourceOf ctx opts host file with
  | error failure => exact ⟨rfl, rfl⟩
  | ok text =>
    have standing := ready_of_sourceOf sent
    simp only [obstacleOf, valueOf, Job.compileCall, Job.typesCall, Except.toOption, Option.getD]
    generalize Engine.compileCall ctx host.engineScript text = call
    cases Engine.compiled ctx (engine.answer call).1 with
    | error failure => exact ⟨rfl, rfl⟩
    | ok c =>
      dsimp only [inOrder]
      rw [on_bind, on_ofAction, Action.on_ofExcept]
      cases c.checkOrder file with
      | error fault => exact ⟨rfl, rfl⟩
      | ok _ =>
        have tail := Emission.alike_log ctx ⟨"debug", "bundles", "compiled",
          [("path", .str file), ("grammars", .int c.length)]⟩ rfl
          (alike_emit (c := c) (engine.after call) linkless grammar source standing rfl)
        exact tail ⟨(t.host.asked call).logged errors, t.sink⟩ ⟨t.host.asked call, t.sink⟩ rfl
          (follows.asked call)

/-- A deed of a run: if it writes, it writes an output of a source. -/
def Ours (host : Host) (base : Option Text) : Deed → Prop
  | .request _ => True
  | .write filename _ => ∃ file ending place bytes, filename = file ++ ending ∧
      ending ∈ [moduleEnding, declarationEnding] ∧
      Source host.disk host.workdir base file place bytes

theorem Follows.performed {deed : Deed} {session session' : Session} {result : Except Failure Unit}
    (linkless : host.disk.Linkless) (ours : Ours host opts.workdir deed)
    (follows : Follows ctx opts host engine session)
    (done : deed.perform.on session = (result, session')) :
    Follows ctx opts host (deed.leaves engine) session' := by
  cases deed with
  | request call =>
    cases done
    exact follows.asked call
  | write filename contents =>
    obtain ⟨file, ending, place, bytes, rfl, listed, source⟩ := ours
    exact follows.wrote linkless source listed done

/-- Steps that are all performed leave the engine that their deeds leave. -/
theorem Follows.performedAll {steps : List Step} {session session' : Session}
    (linkless : host.disk.Linkless) (ours : ∀ step ∈ steps, Ours host opts.workdir step.deed)
    (follows : Follows ctx opts host engine session)
    (done : (performAll steps).on session = (.ok (), session')) :
    Follows ctx opts host ((steps.map Step.deed).foldl Deed.leaves engine) session' := by
  induction steps generalizing engine session with
  | nil =>
    cases done
    exact follows
  | cons step rest ih =>
    obtain ⟨next, first, later⟩ := performAll_cons_ok.mp done
    have here := ours step List.mem_cons_self
    exact ih (fun other member => ours other (List.mem_cons_of_mem _ member))
      (follows.performed linkless here (perform_ok_iff.mp first).2) later

theorem ours_job {place : Place} {bytes : List UInt8} (job : Job)
    (source : Source host.disk host.workdir opts.workdir job.file place bytes) :
    ∀ step ∈ job.steps ctx opts host, Ours host opts.workdir step.deed := by
  have wrote : Ours host opts.workdir (.write (moduleFile job.file)
      (renderModule (.ofEsm opts.esm) defaultRuntime (valueOf job.collection))) :=
    ⟨job.file, moduleEnding, place, bytes, rfl, by simp, source⟩
  have declared : Ours host opts.workdir (.write (declarationFile job.file)
      (declarationText job.file (valueOf job.types))) :=
    ⟨job.file, declarationEnding, place, bytes, rfl, by simp, source⟩
  intro step member
  unfold Job.steps at member
  rcases List.mem_cons.mp member with rfl | member
  · trivial
  · rcases List.mem_cons.mp member with rfl | member
    · exact wrote
    · split at member
      · rcases List.mem_cons.mp member with rfl | member
        · trivial
        · rw [List.mem_singleton] at member
          subst member
          exact declared
      · cases member

theorem alike_bundleFiles {files : List Text} (linkless : host.disk.Linkless)
    (stand : ∀ file ∈ files, Stands host opts.workdir file) :
    Alike (Follows ctx opts host engine) (bundleFiles ctx opts files)
      (performAll (agenda ctx opts host engine files)) := by
  induction files generalizing engine with
  | nil => exact Emission.alike_pure _ ()
  | cons file rest ih =>
    have later {engine : Engine} :=
      @ih engine fun other member => stand other (List.mem_cons_of_mem _ member)
    unfold bundleFiles bundleFile
    by_cases grammar : isGrammarFile file = true
    · obtain ⟨place, bytes, source⟩ := stand file List.mem_cons_self grammar
      have steps : agenda ctx opts host engine (file :: rest) =
          (jobOf ctx opts host engine file).steps ctx opts host ++
            agenda ctx opts host
              ((jobOf ctx opts host engine file).leaves ctx opts host engine) rest := by
        unfold agenda
        rw [List.filter_cons_of_pos grammar, stepsOf_cons]
      rw [if_pos (of_decide_eq_true grammar), steps]
      intro s t same follows
      rw [performAll_append]
      -- What earlier bundles wrote is no source, so that the job of the next file is the one on the agenda.
      refine (alike_bundleGrammar linkless grammar source).bind ?_ (fun _ => later) s t same follows
      intro t _ t' follows done
      exact follows.performedAll linkless (ours_job _ source) done
    · have steps : agenda ctx opts host engine (file :: rest) = agenda ctx opts host engine rest := by
        unfold agenda
        rw [List.filter_cons_of_neg grammar]
      rw [if_neg (fun same => grammar (decide_eq_true same)), steps]
      exact Emission.alike_log ctx _ rfl later

end GrammarBundle.Bundle
