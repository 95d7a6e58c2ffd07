import GrammarBundle.Engine.Request
import GrammarBundle.Proofs.Files.Walks
import GrammarBundle.Proofs.Run.Actions

/-!
What a request comes to: a function of how its call comes out. The call is made only from a directory
that is there, and whether it is there does not change while files are written that are no grammar files.
-/

namespace GrammarBundle

def Engine.after (engine : Engine) (call : Engine.Call) : Engine := (engine.answer call).2

def Host.asked (host : Host) (call : Engine.Call) : Host :=
  { host with engine := host.engine.after call, calls := host.calls ++ [call] }

namespace Engine

variable {ctx : Context} {host : Host} {operation : Text} {fields : Members}

theorem on_make {call : Call} :
    (make call).on host = (.ok (host.engine.answer call).1, host.asked call) := rfl

/-- Whether requests can be made: the directory of the context is there. -/
def ready (host : Host) (ctx : Context) : Except Failure Unit :=
  match ((Action.isDirectory ctx.workdir).on host).1 with
  | .error failure => .error failure
  | .ok true => .ok ()
  | .ok false => .error (.workdirMissing ctx.workdir.toText)

def requestCall (ctx : Context) (script operation : Text) (fields : Members) : Call :=
  callOf [ctx.config.node, script] ctx.workdir.toText
    (some (requestJson operation ctx fields).line) ctx.config.timeout

/-- What a request comes to when its call comes out in some way. -/
def reply (ctx : Context) (operation : Text) (outcome : Outcome) : Except Failure Json :=
  match outcome.result ctx.config.timeout with
  | .error (.refused .noEntry) => .error (.nodeMissing ctx.config.node)
  | .error fault => .error (fault.failure ctx.config.node)
  | .ok result => answerOf operation result

/-- Running a command makes its call and comes to its result. -/
theorem on_runCommand (ctx : Context) (host : Host) {program : Text} {args : List Text}
    {workdir : Text} {input : Option Text} {timeout : Numeral} {call : Call}
    (called : call = callOf (program :: args) workdir input timeout) :
    ∃ errors, (runCommand (program :: args) workdir input timeout (some ctx)).on host =
      (((host.engine.answer call).1.result timeout).mapError (CallFault.failure program),
        (host.asked call).logged errors) := by
  subst called
  unfold runCommand
  rw [Action.on_bind, on_make]
  dsimp only
  rw [Action.on_bind, Action.on_ofExcept]
  cases (host.engine.answer (callOf (program :: args) workdir input timeout)).1.result timeout with
  | error fault => exact ⟨host.errors, rfl⟩
  | ok result =>
    dsimp only [Except.mapError]
    obtain ⟨errors, logged⟩ := Action.on_log ctx
      (host.asked (callOf (program :: args) workdir input timeout))
      ⟨"debug", "process", "run-command",
        [("command", .str program), ("cwd", .str workdir), ("code", .int result.code),
          ("duration_ms", .int result.milliseconds)]⟩ rfl
    refine ⟨errors, ?_⟩
    simp only [List.headD_cons]
    rw [Action.on_bind, logged]
    rfl

/-- A request that can be sent is a call, if it can be made, and comes to the reply to the call's outcome.
One that cannot be sent ends before the call. -/
theorem on_ask_sent (host : Host) {script : Text} {call : Call} (based : script = host.engineScript)
    (called : call = requestCall ctx script operation fields)
    (clear : (fields.map (·.1)).find? fixedNames.contains = none) :
    ∃ errors, (ask ctx operation fields).on host =
      match ready host ctx with
      | .error failure => (.error failure, host)
      | .ok _ =>
        if (requestJson operation ctx fields).isPrintable then
          (reply ctx operation (host.engine.answer call).1, (host.asked call).logged errors)
        else (.error (.unprintable .tooManyDigits), host) := by
  subst based
  unfold ask
  rw [clear]
  dsimp only
  obtain ⟨verdict, found⟩ :
      ∃ verdict, (Action.isDirectory ctx.workdir).on host = (verdict, host) :=
    ⟨_, Action.on_isDirectory⟩
  rw [Action.on_bind, ready, found]
  cases verdict with
  | error failure => exact ⟨host.errors, rfl⟩
  | ok there =>
    cases there with
    | false => exact ⟨host.errors, rfl⟩
    | true =>
      obtain ⟨errors, ran⟩ := on_runCommand ctx host called
      refine ⟨errors, ?_⟩
      dsimp only
      rw [if_neg (by decide), Action.on_bind, Action.on_get]
      dsimp only
      rw [Action.on_bind, Action.on_ofExcept, Json.dumpLine]
      cases (requestJson operation ctx fields).isPrintable with
      | false => rfl
      | true =>
        rw [if_pos rfl, if_pos rfl]
        dsimp only [Except.mapError]
        rw [Action.on_bind, Action.on_tryCatch, ran, reply]
        cases (host.engine.answer call).1.result ctx.config.timeout with
        | error fault =>
          cases fault with
          | refused reason => cases reason <;> rfl
          | failed message => rfl
          | untold cause => rfl
        | ok result =>
          dsimp only [Except.mapError]
          rw [Action.on_ofExcept]
          cases answerOf operation result <;> rfl

/-- A request that can be sent is a call, if it can be made, and comes to the reply to the call's
outcome. -/
theorem on_ask (host : Host) {script : Text} {call : Call} (based : script = host.engineScript)
    (called : call = requestCall ctx script operation fields)
    (clear : (fields.map (·.1)).find? fixedNames.contains = none)
    (printable : (requestJson operation ctx fields).isPrintable = true) :
    ∃ errors, (ask ctx operation fields).on host =
      match ready host ctx with
      | .error failure => (.error failure, host)
      | .ok _ =>
        (reply ctx operation (host.engine.answer call).1, (host.asked call).logged errors) := by
  obtain ⟨errors, asked⟩ := on_ask_sent host based called clear
  refine ⟨errors, ?_⟩
  rw [asked]
  cases ready host ctx with
  | error failure => rfl
  | ok _ => exact if_pos printable

/-- Texts can be sent, however many there are. -/
theorem printable_texts {α : Type} (text : α → Text) (items : List α) :
    Json.arePrintable (items.map fun item => .str (text item)) = true := by
  induction items with
  | nil => rfl
  | cons item rest ih => exact ih

def compiled (ctx : Context) (outcome : Outcome) : Except Failure Collection :=
  match reply ctx "compile" outcome with
  | .error failure => .error failure
  | .ok payload =>
    match payload.member "grammars" with
    | .error fault => .error (.shape fault)
    | .ok rows => (Collection.ofRows rows []).mapError .shape

def typed (ctx : Context) (outcome : Outcome) : Except Failure Text :=
  match reply ctx "types" outcome with
  | .error failure => .error failure
  | .ok payload =>
    match payload.member "types" with
    | .error fault => .error (.shape fault)
    | .ok types => .ok types.plain

def compileCall (ctx : Context) (script source : Text) : Call :=
  requestCall ctx script "compile" [("source", .str source)]

def typesCall (ctx : Context) (script : Text) (c : Collection) : Call :=
  requestCall ctx script "types"
    [("typesModule", .str ctx.config.typesModule),
      ("sources", .list (c.map fun entry => .str (sourceText entry.grammar)))]

theorem on_compile (ctx : Context) (host : Host) {source : Text} {call : Call}
    (called : call = compileCall ctx host.engineScript source) :
    ∃ errors, (compile ctx source).on host =
      match ready host ctx with
      | .error failure => (.error failure, host)
      | .ok _ => (compiled ctx (host.engine.answer call).1, (host.asked call).logged errors) := by
  obtain ⟨errors, asked⟩ := on_ask host rfl called rfl rfl
  refine ⟨errors, ?_⟩
  unfold compile compiled
  rw [Action.on_bind, asked]
  cases ready host ctx with
  | error failure => rfl
  | ok _ =>
    dsimp only
    cases reply ctx "compile" (host.engine.answer call).1 with
    | error failure => rfl
    | ok payload =>
      dsimp only
      rw [Action.on_bind, Action.on_ofExcept]
      cases payload.member "grammars" with
      | error fault => rfl
      | ok rows => exact Action.on_ofExcept

theorem on_generateTypes (ctx : Context) (host : Host) {c : Collection} {call : Call}
    (called : call = typesCall ctx host.engineScript c) :
    ∃ errors, (generateTypes ctx c).on host =
      match ready host ctx with
      | .error failure => (.error failure, host)
      | .ok _ => (typed ctx (host.engine.answer call).1, (host.asked call).logged errors) := by
  have printable : (requestJson "types" ctx [("typesModule", .str ctx.config.typesModule),
      ("sources", .list (c.map fun entry => .str (sourceText entry.grammar)))]).isPrintable = true := by
    change (Json.arePrintable (c.map fun entry => .str (sourceText entry.grammar)) && true) = true
    rw [printable_texts]
    rfl
  obtain ⟨errors, asked⟩ := on_ask host rfl called rfl printable
  refine ⟨errors, ?_⟩
  unfold generateTypes typed
  dsimp only
  rw [Action.on_bind, asked]
  cases ready host ctx with
  | error failure => rfl
  | ok _ =>
    dsimp only
    cases reply ctx "types" (host.engine.answer call).1 with
    | error failure => rfl
    | ok payload =>
      dsimp only
      rw [Action.on_bind, Action.on_ofExcept]
      cases payload.member "types" with
      | error fault => rfl
      | ok types => rfl

/-- Whether requests can be made does not change while files are written that are no grammar files. -/
theorem ready_grown (host' : Host) (linkless : host.disk.Linkless)
    (grown : Disk.Grown host.disk host'.disk) (same : host'.workdir = host.workdir) :
    ready host' ctx = ready host ctx := by
  unfold ready
  rw [Action.on_isDirectory, Action.on_isDirectory, same]
  have agree := Disk.walkPath_agree true linkless grown host.workdir ctx.workdir.toText
  unfold Disk.look
  generalize host.disk.walkPath host.workdir true ctx.workdir.toText = ended at agree
  generalize host'.disk.walkPath host.workdir true ctx.workdir.toText = ended' at agree
  cases agree <;> rfl

end Engine

end GrammarBundle
