import GrammarBundle.Proofs.Engine.Replies
import GrammarBundle.Proofs.Run.Promises

/-!
What runs say before they end: lines on the error output, and nothing on the output, which stays what it
is. Steps that read and write files, make requests and log events promise that, whether they end well or
fail.
-/

namespace GrammarBundle

/-- Whole lines: nothing, or a text that ends with a line feed. -/
def Text.Lined (t : Text) : Prop := t = [] ∨ t.getLast? = some (.char '\n')

theorem Text.Lined.append {s t : Text} (first : s.Lined) (last : t.Lined) : (s ++ t).Lined := by
  rcases last with rfl | ended
  · rw [List.append_nil]
    exact first
  · right
    rw [List.getLast?_append, ended]
    rfl

/-- A host after some lines were written to its error output, and nothing to its output. -/
structure Host.Noted (host after : Host) : Prop where
  console : after.console = host.console
  output : after.output = host.output
  errors : ∃ lines : Text, lines.Lined ∧ after.errors = host.errors ++ lines

namespace Host.Noted

variable {host next after : Host}

theorem of_same (console : after.console = host.console) (output : after.output = host.output)
    (errors : after.errors = host.errors) : host.Noted after :=
  ⟨console, output, [], .inl rfl, by rw [errors, List.append_nil]⟩

theorem refl (host : Host) : host.Noted host := of_same rfl rfl rfl

theorem trans (first : host.Noted next) (last : next.Noted after) : host.Noted after := by
  obtain ⟨lines, whole, added⟩ := first.errors
  obtain ⟨more, whole', added'⟩ := last.errors
  refine ⟨last.console.trans first.console, last.output.trans first.output, lines ++ more, whole.append whole', ?_⟩
  rw [added', added, List.append_assoc]

end Host.Noted

/-- The promise to say nothing but lines on the error output. -/
def notes : Promise Host where
  done := Host.Noted
  failed host after _ := host.Noted after
  refl := .refl
  trans := .trans
  later := .trans

namespace Notes

open Promise

variable {α : Type}

theorem met_iff {host : Host} {ended : Except Failure α × Host} :
    notes.Met host ended ↔ host.Noted ended.2 := by
  obtain ⟨result, after⟩ := ended
  cases result <;> rfl

/-- Steps that change nothing promise everything. -/
theorem kept_of_same {step : Action α} (same : ∀ host, (step.on host).2 = host) :
    notes.Kept step := by
  intro host
  have stays : (StateT.run (ExceptT.run step) host).2 = host := same host
  rw [met_iff, stays]
  exact .refl host

theorem kept_throw (failure : Failure) : notes.Kept (throw failure : Action α) := Host.Noted.refl

theorem kept_ofExcept {ε : Type} (cause : ε → Failure) (result : Except ε α) :
    notes.Kept (Action.ofExcept cause result) :=
  Promise.kept_ofExcept fun _ host _ => .refl host

theorem kept_tryCatch {step : Action α} {handler : Failure → Action α} (first : notes.Kept step)
    (caught : ∀ failure, notes.Kept (handler failure)) : notes.Kept (tryCatch step handler) := by
  intro host
  have ended : (tryCatch step handler).on host = _ := Action.on_tryCatch
  have tried : host.Noted (step.on host).2 := met_iff.mp (first host)
  change notes.Met host ((tryCatch step handler).on host)
  rw [ended, met_iff]
  generalize step.on host = result at tried
  obtain ⟨result, next⟩ := result
  cases result with
  | ok a => exact tried
  | error failure => exact tried.trans (met_iff.mp (caught failure next))

theorem kept_log (ctx : Context) (event : LogEvent) : notes.Kept (Action.log ctx event) := by
  unfold Action.log
  cases event.clash? with
  | some name => exact kept_throw _
  | none =>
    dsimp only
    split
    · intro host
      refine ⟨rfl, rfl, event.line ctx host.now host.site ++ [.char '\n'], .inr ?_, ?_⟩
      · rw [List.getLast?_append]
        rfl
      · exact List.append_assoc _ _ _
    · exact kept_pure ()

theorem kept_readText (path : Path) : notes.Kept (Action.readText path) :=
  kept_of_same fun host => by rw [Action.on_readText]

theorem kept_writeText (path : Path) (text : Text) : notes.Kept (Action.writeText path text) := by
  intro host
  have ended : (Action.writeText path text).on host = _ := Action.on_writeText
  change notes.Met host ((Action.writeText path text).on host)
  rw [ended]
  cases host.disk.writePlace host.workdir path.toText with
  | error fault => exact .refl host
  | ok place => cases Utf8.encode text <;> exact .of_same rfl rfl rfl

theorem kept_runCommand (command : List Text) (workdir : Text) (input : Option Text)
    (timeout : Numeral) (ctx : Option Context) :
    notes.Kept (Engine.runCommand command workdir input timeout ctx) := by
  have made (call : Engine.Call) : notes.Kept (Engine.make call) :=
    fun host => .of_same rfl rfl rfl
  refine (made _).bind fun outcome => (kept_ofExcept _ _).bind fun result => ?_
  cases ctx with
  | none => exact kept_pure result
  | some ctx => exact (kept_log ctx _).bind fun _ => kept_pure result

theorem kept_ask (ctx : Context) (operation : Text) (fields : Members) :
    notes.Kept (Engine.ask ctx operation fields) := by
  unfold Engine.ask
  split
  · exact kept_throw _
  · have looked : notes.Kept (Action.isDirectory ctx.workdir) :=
      kept_of_same fun host => by rw [Action.on_isDirectory]
    refine looked.bind fun there => ?_
    cases there
    · exact fun host => met_bind (kept_throw _ host) fun _ _ ended => by cases ended
    · refine kept_get.bind fun host => (kept_ofExcept _ _).bind fun request =>
        Kept.bind ?_ fun _ => kept_ofExcept _ _
      exact kept_tryCatch (kept_runCommand _ _ _ _ _) fun failure => by
        split <;> exact kept_throw _

theorem kept_compile (ctx : Context) (source : Text) : notes.Kept (Engine.compile ctx source) :=
  (kept_ask _ _ _).bind fun _ => (kept_ofExcept _ _).bind fun _ => kept_ofExcept _ _

theorem kept_generateTypes (ctx : Context) (c : Collection) :
    notes.Kept (Engine.generateTypes ctx c) :=
  (kept_ask _ _ _).bind fun _ => (kept_ofExcept _ _).bind fun _ => kept_pure _

end Notes

end GrammarBundle
