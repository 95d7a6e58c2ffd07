import GrammarBundle.Command.Doctor
import GrammarBundle.Proofs.Command.Steps
import GrammarBundle.Proofs.Engine.Timeouts
import GrammarBundle.Proofs.Json.Reprinted

/-!
Diagnoses. The command that shows the configuration prints one object, whatever became of the engine's
process, as long as the failure to ask it is one that the program reports. Other failures end the command
before it prints: a refusal of the system other than that the program is not there, an outcome that no kind
of failure fits, and a time limit with more digits than are printed.
-/

namespace GrammarBundle

/-- What the system says of a path has no kind of its own. -/
theorem Failure.report?_ofPath (path : Text) (fault : PathFault) : (ofPath path fault).report? = none := by
  cases fault <;> rfl

namespace Command

variable {ctx : Context} {asJson : Bool} {host after : Host}

/-- How the process of a probe comes out. -/
def probeOutcome (ctx : Context) (host : Host) : Engine.Outcome :=
  (host.engine.answer (Engine.requestCall ctx host.engineScript "probe" [])).1

/-- A probe is answered: it is made, and its process ends by itself with an answer as its output. -/
structure Answers (ctx : Context) (host : Host) (v : Json) : Prop where
  there : ((Action.isDirectory ctx.workdir).on host).1 = .ok true
  ended : ∃ code output errors clock, probeOutcome ctx host = .ended code output errors clock ∧
    code ≠ Engine.stoppedCode ∧ Json.read (output.getD []) = .ok v
  answered : Engine.Answered v

/-- Why a probe fails in a way that the program does not report. -/
inductive Escapes (ctx : Context) (host : Host) : Prop
  /-- The system refuses to say whether the directory is there. -/
  | unknown (failure : Failure) :
      ((Action.isDirectory ctx.workdir).on host).1 = .error failure → Escapes ctx host
  /-- The program is there, and the system does not start it. -/
  | refused (reason : SystemReason) : ((Action.isDirectory ctx.workdir).on host).1 = .ok true →
      probeOutcome ctx host = .refused reason → reason ≠ .noEntry → Escapes ctx host
  | unforeseen : ((Action.isDirectory ctx.workdir).on host).1 = .ok true →
      Engine.Unforeseen ctx.config.timeout (probeOutcome ctx host) → Escapes ctx host

section probe

/-- What a probe comes to: whether it is made, and the reply to how its process comes out. -/
def probed (ctx : Context) (host : Host) : Except Failure Json :=
  match Engine.ready host ctx with
  | .error failure => .error failure
  | .ok _ => Engine.reply ctx "probe" (probeOutcome ctx host)

/-- A probe prints nothing. -/
theorem on_probe (ctx : Context) (host : Host) :
    ∃ after, (Engine.probe ctx).on host = (probed ctx host, after) ∧ after.output = host.output := by
  obtain ⟨errors, asked⟩ : ∃ errors, (Engine.ask ctx "probe" []).on host = _ :=
    Engine.on_ask host rfl rfl rfl rfl
  unfold Engine.probe probed
  rw [asked]
  cases Engine.ready host ctx with
  | error failure => exact ⟨host, rfl, rfl⟩
  | ok _ => exact ⟨_, rfl, rfl⟩

theorem probed_of_there (there : ((Action.isDirectory ctx.workdir).on host).1 = .ok true) :
    probed ctx host = Engine.reply ctx "probe" (probeOutcome ctx host) := by
  rw [probed, Engine.ready, there]

theorem probed_of_unknown {failure : Failure}
    (unknown : ((Action.isDirectory ctx.workdir).on host).1 = .error failure) :
    probed ctx host = .error failure := by
  rw [probed, Engine.ready, unknown]

theorem probed_of_missing (missing : ((Action.isDirectory ctx.workdir).on host).1 = .ok false) :
    probed ctx host = .error (.workdirMissing ctx.workdir.toText) := by
  rw [probed, Engine.ready, missing]

theorem probed_of_answers {v : Json} (answers : Answers ctx host v) : probed ctx host = .ok v := by
  obtain ⟨there, ⟨code, output, errors, clock, ended, self, read⟩, members, rfl, good⟩ := answers
  have judged : Engine.Judged "probe" (output.getD [])
      (Engine.reply ctx "probe" (.ended code output errors clock)) :=
    Engine.judged_of_ended output errors clock self
  rw [probed_of_there there, ended]
  generalize Engine.reply ctx "probe" (.ended code output errors clock) = result at judged ⊢
  cases judged with
  | answered w again => rw [Except.ok.inj (again.symm.trans read)]
  | refused others again bad =>
    cases again.symm.trans read
    exact absurd good bad
  | unreadable detail again => cases again.symm.trans read
  | tooManyDigits count again => cases again.symm.trans read
  | noObject w again other =>
    cases again.symm.trans read
    exact absurd rfl other

theorem unreported_of_escapes (escapes : Escapes ctx host) :
    ∃ failure, probed ctx host = .error failure ∧ failure.report? = none := by
  cases escapes with
  | unknown failure unknown =>
    refine ⟨failure, probed_of_unknown unknown, ?_⟩
    rw [Action.on_isDirectory] at unknown
    dsimp only at unknown
    split at unknown
    · cases unknown
    · cases unknown
    · split at unknown
      · cases unknown
        exact Failure.report?_ofPath _ _
      · cases unknown
  | refused reason there outcome other =>
    rw [probed_of_there there, outcome, Engine.reply_of_refused ctx "probe" other]
    exact ⟨_, rfl, rfl⟩
  | unforeseen there unforeseen =>
    rw [probed_of_there there]
    obtain ⟨failure, fails, unreported, -⟩ := Engine.reply_unforeseen "probe" unforeseen
    exact ⟨failure, fails, unreported⟩

/-- The ways in which a probe comes out. -/
inductive Probed (ctx : Context) (host : Host) : Except Failure Json → Prop
  | answered (v : Json) : Answers ctx host v → Probed ctx host (.ok v)
  | reported (failure : Failure) (code : ExitCode) (kind : Text) :
      failure.report? = some (code, kind) → Probed ctx host (.error failure)
  | escaped (failure : Failure) : Escapes ctx host → Probed ctx host (.error failure)

/-- A process that ended by itself answers the probe, fails it in a way that is reported, or lets it
escape. -/
theorem probed_of_ended {code : Int} {output errors : Option Text} {clock : Engine.Readings}
    (there : ((Action.isDirectory ctx.workdir).on host).1 = .ok true)
    (ended : probeOutcome ctx host = .ended code output errors clock) :
    Probed ctx host (Engine.reply ctx "probe" (.ended code output errors clock)) := by
  by_cases stopped : code = Engine.stoppedCode
  · subst stopped
    rw [Engine.reply_of_stoppedCode]
    cases last : (Text.lines (errors.getD [])).getLast? with
    | some note => exact .reported _ _ _ rfl
    | none =>
      have silent := Text.lines_eq_nil_iff.mp (List.getLast?_eq_none_iff.mp last)
      exact .escaped _ (.unforeseen there (ended ▸ .silent output errors clock silent))
  · have judged : Engine.Judged "probe" (output.getD [])
        (Engine.reply ctx "probe" (.ended code output errors clock)) :=
      Engine.judged_of_ended output errors clock stopped
    generalize Engine.reply ctx "probe" (.ended code output errors clock) = result at judged ⊢
    cases judged with
    | answered v read good =>
      exact .answered v ⟨there, ⟨code, output, errors, clock, ended, stopped, read⟩, good⟩
    | refused members read other => exact .reported _ _ _ rfl
    | unreadable detail read => exact .reported _ _ _ rfl
    | tooManyDigits count read =>
      exact .escaped _ (.unforeseen there
        (ended ▸ .tooManyDigits code output errors clock count stopped read))
    | noObject v read other =>
      exact .escaped _ (.unforeseen there (ended ▸ .noObject code output errors clock v stopped read other))

theorem probed_cases (ctx : Context) (host : Host) : Probed ctx host (probed ctx host) := by
  cases looked : ((Action.isDirectory ctx.workdir).on host).1 with
  | error failure =>
    rw [probed_of_unknown looked]
    exact .escaped failure (.unknown failure looked)
  | ok there =>
    cases there with
    | false =>
      rw [probed_of_missing looked]
      exact .reported _ _ _ rfl
    | true =>
      rw [probed_of_there looked]
      cases outcome : probeOutcome ctx host with
      | ended code output errors clock => exact probed_of_ended looked outcome
      | stopped output errors clock =>
        cases printable : ctx.config.timeout.toJson.isPrintable with
        | true =>
          rw [Engine.reply_of_stopped "probe" output errors clock printable]
          exact .reported _ _ _ rfl
        | false =>
          rw [Engine.reply_untold "probe" output errors clock printable]
          exact .escaped _ (.unforeseen looked (outcome ▸ .untold output errors clock printable))
      | failed message => exact .escaped _ (.unforeseen looked (outcome ▸ .failed message))
      | refused reason =>
        by_cases missing : reason = .noEntry
        · subst missing
          exact .reported _ _ _ rfl
        · rw [Engine.reply_of_refused ctx "probe" missing]
          exact .escaped _ (.refused reason looked outcome missing)

end probe

section shown

/-- What the command comes to when a probe has come out in some way. -/
def verdict : Except Failure Json → Except Failure Diagnosis
  | .ok v => .ok (.healthy v)
  | .error failure =>
    match failure.report? with
    | some (_, kind) => .ok (.broken kind failure.message)
    | none => .error failure

theorem verdict_reported {failure : Failure} {code : ExitCode} {kind : Text}
    (report : failure.report? = some (code, kind)) :
    verdict (.error failure) = .ok (.broken kind failure.message) := by
  rw [verdict, report]

theorem verdict_unreported {failure : Failure} (unreported : failure.report? = none) :
    verdict (.error failure) = .error failure := by
  rw [verdict, unreported]

/-- The handler takes the failures that the program reports, and lets the others through. -/
theorem on_diagnose (ctx : Context) (host : Host) :
    ∃ after, (diagnose ctx).on host = (verdict (probed ctx host), after) ∧
      after.output = host.output := by
  obtain ⟨after, asked, silent⟩ := on_probe ctx host
  refine ⟨after, ?_, silent⟩
  unfold diagnose verdict
  rw [Action.on_tryCatch, Action.on_map, asked]
  cases probed ctx host with
  | ok v => rfl
  | error failure =>
    dsimp only [Except.map]
    cases failure.report? with
    | none => rfl
    | some known => rfl

/-- The object that shows a diagnosis. -/
def shown (ctx : Context) (status : Text) (runtime : Json) : Json :=
  payload ctx status [("config", configJson ctx.config), ("runtime", runtime)]

/-- A diagnosis is printed unless the time limit is too long for it. -/
theorem printable_shown (ctx : Context) (status : Text) {runtime : Json}
    (printable : runtime.isPrintable = true) :
    (shown ctx status runtime).isPrintable = ctx.config.timeout.toJson.isPrintable := by
  -- The time limit is the one number of a configuration.
  have config : (configJson ctx.config).isPrintable = ctx.config.timeout.toJson.isPrintable := by
    unfold configJson
    cases ctx.config.source <;> simp [Json.isPrintable, Json.arePrintableMembers, Json.ofText?]
  rw [Bool.eq_iff_iff, ← config]
  constructor
  · intro whole
    rw [shown, payload, Json.isPrintable, Json.arePrintableMembers_iff] at whole
    exact whole _ (List.mem_append_right _ List.mem_cons_self)
  · intro config
    refine printable_payload ctx status ?_
    rw [Json.arePrintableMembers, config, Json.arePrintableMembers, printable]
    rfl

theorem doctor_eq (ctx : Context) (asJson : Bool) :
    doctor ctx asJson = do
      let diagnosis ← diagnose ctx
      emit asJson (shown ctx diagnosis.status diagnosis.runtimeJson)
      return diagnosis.exitCode := rfl

theorem on_doctor_failed (asJson : Bool) {failure : Failure}
    (failed : (diagnose ctx).on host = (.error failure, after)) :
    (doctor ctx asJson).on host = (.error failure, after) := by
  rw [doctor_eq, Action.on_bind, failed]

theorem on_doctor (asJson : Bool) {diagnosis : Diagnosis}
    (found : (diagnose ctx).on host = (.ok diagnosis, after))
    (printable : diagnosis.runtimeJson.isPrintable = true) :
    (doctor ctx asJson).on host =
      if ctx.config.timeout.toJson.isPrintable then
        (.ok diagnosis.exitCode,
          after.withOutput (printed asJson (shown ctx diagnosis.status diagnosis.runtimeJson)))
      else (.error (.unprintable .tooManyDigits), after) := by
  have limit := printable_shown ctx diagnosis.status printable
  rw [doctor_eq, Action.on_bind, found]
  dsimp only
  rw [Action.on_bind]
  cases short : ctx.config.timeout.toJson.isPrintable with
  | true =>
    rw [on_emit asJson after (limit.trans short)]
    rfl
  | false =>
    unfold emit
    rw [Action.on_bind, Action.on_ofExcept, Json.dump_unprintable (limit.trans short)]
    rfl

end shown

/-- The command ends with a code after it has printed one object, with a status and what is known of the
engine. -/
structure Diagnosed (ctx : Context) (asJson : Bool) (host : Host) (code : ExitCode) (status : Text)
    (runtime : Json) : Prop where
  ends : ((doctor ctx asJson).on host).1 = .ok code
  prints : ((doctor ctx asJson).on host).2.output =
    host.output ++ printed asJson (payload ctx status
      [("config", configJson ctx.config), ("runtime", runtime)]) ++ [.char '\n']

/-- The command ends with a failure that the program does not report, and prints nothing. -/
structure Undiagnosed (ctx : Context) (asJson : Bool) (host : Host) (failure : Failure) : Prop where
  fails : ((doctor ctx asJson).on host).1 = .error failure
  unreported : failure.report? = none
  silent : ((doctor ctx asJson).on host).2.output = host.output

theorem Undiagnosed.not_diagnosed {failure : Failure} {code : ExitCode} {status : Text} {runtime : Json}
    (undiagnosed : Undiagnosed ctx asJson host failure) :
    ¬Diagnosed ctx asJson host code status runtime := by
  intro diagnosed
  cases undiagnosed.fails.symm.trans diagnosed.ends

/-- A diagnosis that was found is printed unless the time limit is too long for it. -/
theorem shown_of_found {diagnosis : Diagnosis} (found : (diagnose ctx).on host = (.ok diagnosis, after))
    (silent : after.output = host.output) (printable : diagnosis.runtimeJson.isPrintable = true) :
    (ctx.config.timeout.toJson.isPrintable = true →
        Diagnosed ctx asJson host diagnosis.exitCode diagnosis.status diagnosis.runtimeJson) ∧
      (ctx.config.timeout.toJson.isPrintable = false →
        Undiagnosed ctx asJson host (.unprintable .tooManyDigits)) := by
  have ended := on_doctor asJson found printable
  constructor
  · intro short
    rw [if_pos short] at ended
    constructor
    · rw [ended]
    · rw [ended, ← silent]
      rfl
  · intro long
    rw [long, if_neg (by decide)] at ended
    constructor
    · rw [ended]
    · rfl
    · rw [ended, ← silent]

theorem found_of_answers {v : Json} (answers : Answers ctx host v) :
    ∃ after, (diagnose ctx).on host = (.ok (.healthy v), after) ∧ after.output = host.output ∧
      v.isPrintable = true := by
  obtain ⟨after, found, silent⟩ := on_diagnose ctx host
  rw [probed_of_answers answers] at found
  obtain ⟨code, output, errors, clock, -, -, read⟩ := answers.ended
  exact ⟨after, found, silent, Json.printable_read read⟩

theorem found_of_reported {failure : Failure} {code : ExitCode} {kind : Text}
    (report : failure.report? = some (code, kind)) (came : probed ctx host = .error failure) :
    ∃ after, (diagnose ctx).on host = (.ok (.broken kind failure.message), after) ∧
      after.output = host.output := by
  obtain ⟨after, found, silent⟩ := on_diagnose ctx host
  rw [came, verdict_reported report] at found
  exact ⟨after, found, silent⟩

theorem undiagnosed_of_escapes (asJson : Bool) (escapes : Escapes ctx host) :
    ∃ failure, Undiagnosed ctx asJson host failure := by
  obtain ⟨failure, came, unreported⟩ := unreported_of_escapes escapes
  obtain ⟨after, failed, silent⟩ := on_diagnose ctx host
  rw [came, verdict_unreported unreported] at failed
  have ended := on_doctor_failed asJson failed
  refine ⟨failure, ?_, unreported, ?_⟩
  · rw [ended]
  · rw [ended, ← silent]

theorem undiagnosed_of_long (asJson : Bool) (long : ctx.config.timeout.toJson.isPrintable = false) :
    ∃ failure, Undiagnosed ctx asJson host failure := by
  have outcome := probed_cases ctx host
  generalize came : probed ctx host = result at outcome
  cases outcome with
  | answered v answers =>
    obtain ⟨after, found, silent, printable⟩ := found_of_answers answers
    exact ⟨_, (shown_of_found found silent printable).2 long⟩
  | reported failure code kind report =>
    obtain ⟨after, found, silent⟩ := found_of_reported report came
    exact ⟨_, (shown_of_found found silent rfl).2 long⟩
  | escaped failure escapes => exact undiagnosed_of_escapes asJson escapes

/-- Where the engine answers, its answer is shown and the command succeeds. Where it does not, the failure
to ask it is shown, if it is one that the program reports. Any other failure ends the command before it
prints, and so does a time limit that is too long to be printed. -/
theorem doctor_diagnoses (ctx : Context) (asJson : Bool) (host : Host) :
    (ctx.config.timeout.toJson.isPrintable = true →
      (∀ v, Answers ctx host v → Diagnosed ctx asJson host .success "ok" v) ∧
        (¬Escapes ctx host → (∀ v, ¬Answers ctx host v) →
          ∃ failure code kind, ((Engine.probe ctx).on host).1 = .error failure ∧
            failure.report? = some (code, kind) ∧
            Diagnosed ctx asJson host .prerequisite "fail"
              (.object [("error", .str failure.message), ("kind", .str kind)]))) ∧
      (Escapes ctx host ∨ ctx.config.timeout.toJson.isPrintable = false →
        ∃ failure, Undiagnosed ctx asJson host failure) := by
  refine ⟨fun short => ⟨?_, ?_⟩, ?_⟩
  · intro v answers
    obtain ⟨after, found, silent, printable⟩ := found_of_answers answers
    exact (shown_of_found found silent printable).1 short
  · intro caught unanswered
    obtain ⟨_, asked, _⟩ := on_probe ctx host
    have outcome := probed_cases ctx host
    generalize came : probed ctx host = result at outcome asked
    cases outcome with
    | answered v answers => exact absurd answers (unanswered v)
    | reported failure code kind report =>
      obtain ⟨after, found, silent⟩ := found_of_reported report came
      exact ⟨failure, code, kind, by rw [asked], report, (shown_of_found found silent rfl).1 short⟩
    | escaped failure escapes => exact absurd escapes caught
  · rintro (escapes | long)
    · exact undiagnosed_of_escapes asJson escapes
    · exact undiagnosed_of_long asJson long

section sample

open Engine

theorem root_there (outcome : Outcome) :
    ((Action.isDirectory rootContext.workdir).on (answeringHost outcome)).1 = .ok true := by
  cbv

/-- A process that answers, with an exit code that is not taken into account. -/
def answeredOutcome : Outcome :=
  .ended 1 (some "\x7b\"status\": \"ok\", \"node\": \"v20\"\x7d") none .still

def answer : Json := .object [("status", .str "ok"), ("node", .str "v20")]

theorem answers_sample : Answers rootContext (answeringHost answeredOutcome) answer where
  there := root_there _
  ended := by
    have read : Json.read "\x7b\"status\": \"ok\", \"node\": \"v20\"\x7d" = .ok answer := by cbv
    exact ⟨1, _, none, .still, rfl, by decide, read⟩
  answered := ⟨_, rfl, by cbv⟩

/-- A program that is not there is no answer, and does not escape. -/
theorem missing_caught :
    ¬Escapes rootContext (answeringHost (.refused .noEntry)) ∧
      ∀ v, ¬Answers rootContext (answeringHost (.refused .noEntry)) v := by
  constructor
  · rintro (⟨failure, unknown⟩ | ⟨reason, -, same, other⟩ | ⟨-, unforeseen⟩)
    · cases (root_there (.refused .noEntry)).symm.trans unknown
    · cases same
      exact other rfl
    · cases unforeseen
  · rintro v ⟨-, ⟨code, output, errors, clock, ended, -⟩, -⟩
    cases ended

theorem refused_escapes : Escapes rootContext (answeringHost (.refused .accessDenied)) :=
  .refused .accessDenied (root_there _) rfl (by decide)

theorem doctor_diagnoses_sample :
    rootContext.config.timeout.toJson.isPrintable = true ∧
      Diagnosed rootContext true (answeringHost answeredOutcome) .success "ok" answer ∧
      (∃ failure code kind,
        ((probe rootContext).on (answeringHost (.refused .noEntry))).1 = .error failure ∧
          failure.report? = some (code, kind) ∧
          Diagnosed rootContext true (answeringHost (.refused .noEntry)) .prerequisite "fail"
            (.object [("error", .str failure.message), ("kind", .str kind)])) ∧
      ∃ failure, Undiagnosed rootContext true (answeringHost (.refused .accessDenied)) failure := by
  have short : rootContext.config.timeout.toJson.isPrintable = true := by cbv
  have answered := doctor_diagnoses rootContext true (answeringHost answeredOutcome)
  have missing := doctor_diagnoses rootContext true (answeringHost (.refused .noEntry))
  have refused := doctor_diagnoses rootContext true (answeringHost (.refused .accessDenied))
  exact ⟨short, (answered.1 short).1 answer answers_sample,
    (missing.1 short).2 missing_caught.1 missing_caught.2, refused.2 (.inl refused_escapes)⟩

theorem list_escapes : Escapes rootContext (answeringHost (.ended 0 (some "[]") none .still)) := by
  have read : Json.read "[]" = .ok (.list []) := by cbv
  have unforeseen : Unforeseen rootContext.config.timeout (.ended 0 (some "[]") none .still) :=
    .noObject 0 (some "[]") none .still _ (by decide) read (by decide)
  exact .unforeseen (root_there _) unforeseen

/-- An output that is no object, and a program that may not be run, leave the command without a
diagnosis. -/
theorem escaped_not_diagnosed :
    (¬∃ code status runtime, Diagnosed rootContext true
        (answeringHost (.ended 0 (some "[]") none .still)) code status runtime) ∧
      ¬∃ code status runtime, Diagnosed rootContext true
        (answeringHost (.refused .accessDenied)) code status runtime := by
  constructor
  · rintro ⟨code, status, runtime, diagnosed⟩
    obtain ⟨failure, undiagnosed⟩ := undiagnosed_of_escapes true list_escapes
    exact undiagnosed.not_diagnosed diagnosed
  · rintro ⟨code, status, runtime, diagnosed⟩
    obtain ⟨failure, undiagnosed⟩ := undiagnosed_of_escapes true refused_escapes
    exact undiagnosed.not_diagnosed diagnosed

end sample

end Command

end GrammarBundle
