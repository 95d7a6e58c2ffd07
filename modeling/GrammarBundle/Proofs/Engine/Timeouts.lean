import GrammarBundle.Proofs.Engine.Outcomes
import GrammarBundle.Proofs.Number.Shown
import GrammarBundle.Proofs.Text.LastLine
import GrammarBundle.Run.ErrorReport

/-!
Timeouts. A process that was stopped leaves a note as the last line of its error output, whatever it wrote
before, and the request is reported as timed out with that note, unless the time is too long a number for
it. A process that ended by itself is judged by its output, unless it ended with the code of a stopped one:
then the last line that it wrote is taken for the note.
-/

namespace GrammarBundle.Engine

/-- A request that is reported as timed out, with a message. -/
def TimedOut (message : Text) (result : Except Failure Json) : Prop :=
  ∃ failure, result = .error failure ∧ failure.report = ⟨.str message, .int 8, .str "timeout"⟩

/-- What a process's output alone makes of a request. Only how an unreadable output is told is left open. -/
inductive Judged (operation output : Text) : Except Failure Json → Prop
  | answered (v : Json) : Json.read output = .ok v → Answered v → Judged operation output (.ok v)
  /-- An object with another status is a refusal, in the words of its message. -/
  | refused (members : Members) : Json.read output = .ok (.object members) →
      members.get? "status" ≠ some (.str "ok") →
      Judged operation output (.error (.notCompiled
        ((members.get? "message").getD (.str "unknown bridge error")).plain))
  | unreadable (detail : Text) {cause : Json.SyntaxCause} {line column position : Nat} :
      Json.read output = .error (.badForm cause line column position) →
      Judged operation output (.error (.engineFailed operation detail))
  | tooManyDigits (count : Nat) : Json.read output = .error (.tooManyDigits count) →
      Judged operation output (.error (.json (.tooManyDigits count)))
  | noObject (v : Json) : Json.read output = .ok v → v.kind ≠ .object →
      Judged operation output (.error (.shape (.noMembers v.kind)))

variable {ctx : Context} {operation : Text}

theorem shown_stoppedWords (timeout : Numeral) : (stoppedWords timeout).Shown := by
  have start : Text.Shown "command timed out after " := by decide
  have unit : Text.Shown "s" := by decide
  exact (start.append timeout.shown_toText).append unit

/-- The note about a stopped process is its last line, whatever it had written before. -/
theorem last_line_stopped (errors : Text) (timeout : Numeral) :
    (Text.lines (Text.strip (errors ++ "\n" ++ stoppedWords timeout))).getLast? =
      some (stoppedWords timeout) := by
  have whole : stoppedWords timeout =
      .char 'c' :: ("ommand timed out after " ++ timeout.toText : Text) ++ [.char 's'] := rfl
  have feed : errors ++ "\n" ++ stoppedWords timeout = errors ++ .char '\n' :: stoppedWords timeout := by
    rw [List.append_assoc]
    rfl
  rw [feed]
  exact Text.last_line_strip errors whole (by decide) (by decide) (shown_stoppedWords timeout).unbroken

theorem reply_of_stopped (operation : Text) (output errors : PartialOutput) (clock : Readings)
    (printable : ctx.config.timeout.toJson.isPrintable = true) :
    reply ctx operation (.stopped output errors clock) =
      .error (.timedOut operation (stoppedWords ctx.config.timeout)) := by
  rw [reply_told operation output errors clock printable]
  unfold answerOf
  dsimp only
  rw [if_pos rfl, last_line_stopped]

/-- A process that ended with the code of a stopped one is never judged by its output. -/
theorem reply_of_stoppedCode (ctx : Context) (operation : Text) (output errors : Option Text)
    (clock : Readings) :
    reply ctx operation (.ended stoppedCode output errors clock) =
      match (Text.lines (errors.getD [])).getLast? with
      | none => .error (.shape (.outOfRange true))
      | some note => .error (.timedOut operation note) := by
  unfold reply Outcome.result answerOf
  refine (if_pos rfl).trans ?_
  cases (Text.lines (errors.getD [])).getLast? with
  | none => rfl
  | some note => rfl

theorem judged_of_ended {code : Int} (output errors : Option Text) (clock : Readings)
    (self : code ≠ stoppedCode) :
    Judged operation (output.getD []) (reply ctx operation (.ended code output errors clock)) := by
  change Judged operation (output.getD [])
    (answerOf operation ⟨code, output.getD [], errors.getD [], clock.milliseconds⟩)
  cases read : Json.read (output.getD []) with
  | error fault =>
    unfold answerOf
    dsimp only
    rw [if_neg self, read]
    cases fault with
    | badForm cause line column position => exact .unreadable _ read
    | tooManyDigits count => exact .tooManyDigits count read
  | ok v =>
    rw [answerOf_read self read]
    by_cases object : v.kind = .object
    · obtain ⟨members, rfl, status⟩ := member_object object "status"
      rw [status]
      by_cases good : members.get? "status" = some (.str "ok")
      · rw [good]
        exact .answered _ read ⟨members, rfl, good⟩
      · have refusal : Judged operation (output.getD []) _ := .refused members read good
        split
        next cause => cases cause
        next same => exact absurd (Except.ok.inj same) good
        · exact refusal
    · rw [member_noObject object]
      exact .noObject v read object

/-- What an output makes of a request is no timeout. -/
theorem Judged.not_timedOut {output message : Text} {result : Except Failure Json}
    (judged : Judged operation output result) : ¬TimedOut message result := by
  rintro ⟨failure, same, told⟩
  have kind := congrArg ErrorReport.kind told
  cases judged with
  | answered v read good => cases same
  | refused members read other =>
    cases same
    cases kind
  | unreadable detail read =>
    cases same
    cases kind
  | tooManyDigits count read =>
    cases same
    cases kind
  | noObject v read other =>
    cases same
    cases kind

theorem timedOut_note (operation note : Text) :
    TimedOut ("ohm bridge `" ++ operation ++ "` " ++ note) (.error (.timedOut operation note)) :=
  ⟨_, rfl, rfl⟩

/-- What fails for its digits is no timeout. -/
theorem not_timedOut_unprintable {message : Text} {fault : Json.PrintFault} :
    ¬TimedOut message (.error (.unprintable fault)) := by
  rintro ⟨failure, same, report⟩
  cases same
  cases congrArg ErrorReport.kind report

/-- A reply is a timeout for a process that was stopped after a time that can be printed, and for one that
ended by itself with the code of a stopped one and wrote something on its error output. -/
theorem reply_timedOut_iff (outcome : Outcome) :
    (∃ message, TimedOut message (reply ctx operation outcome)) ↔
      (ctx.config.timeout.toJson.isPrintable = true ∧
          ∃ output errors clock, outcome = .stopped output errors clock) ∨
        ∃ output errors clock, outcome = .ended stoppedCode output errors clock ∧
          errors.getD [] ≠ [] := by
  constructor
  · rintro ⟨message, told⟩
    cases outcome with
    | stopped output errors clock =>
      cases printable : ctx.config.timeout.toJson.isPrintable with
      | true => exact .inl ⟨rfl, output, errors, clock, rfl⟩
      | false =>
        rw [reply_untold operation output errors clock printable] at told
        exact absurd told not_timedOut_unprintable
    | failed message =>
      obtain ⟨failure, same, report⟩ := told
      cases same
      cases congrArg ErrorReport.kind report
    | ended code output errors clock =>
      by_cases stopped : code = stoppedCode
      · subst stopped
        refine .inr ⟨output, errors, clock, rfl, ?_⟩
        intro silent
        rw [reply_of_stoppedCode, silent] at told
        obtain ⟨failure, same, report⟩ := told
        cases same
        cases congrArg ErrorReport.kind report
      · exact absurd told (judged_of_ended output errors clock stopped).not_timedOut
    | refused reason =>
      obtain ⟨failure, same, report⟩ := told
      have kind := congrArg ErrorReport.kind report
      cases reason <;> cases same <;> cases kind
  · rintro (⟨printable, output, errors, clock, rfl⟩ | ⟨output, errors, clock, rfl, some_text⟩)
    · rw [reply_of_stopped operation output errors clock printable]
      exact ⟨_, timedOut_note operation _⟩
    · rw [reply_of_stoppedCode]
      cases last : (Text.lines (errors.getD [])).getLast? with
      | none => exact absurd (Text.lines_eq_nil_iff.mp (List.getLast?_eq_none_iff.mp last)) some_text
      | some note => exact ⟨_, timedOut_note operation note⟩

/-- From a directory that is there, a request that can be sent comes to the reply to the outcome of its
process. -/
theorem ask_replies (ctx : Context) (operation : Text) {host : Host} {fields : Members} {outcome : Outcome}
    (there : ((Action.isDirectory ctx.workdir).on host).1 = .ok true)
    (clear : (fields.map (·.1)).find? fixedNames.contains = none)
    (sent : (requestJson operation ctx fields).isPrintable = true)
    (answered : (host.engine.answer
      (requestCall ctx host.engineScript operation fields)).1 = outcome) :
    ((ask ctx operation fields).on host).1 = reply ctx operation outcome := by
  have standing : ready host ctx = .ok () := by rw [ready, there]
  obtain ⟨errors, asked⟩ := on_ask host rfl rfl clear sent
  rw [asked, standing, ← answered]

/-- A request that cannot be sent fails before there is a process. -/
theorem ask_unsent (ctx : Context) (operation : Text) {host : Host} {fields : Members}
    (there : ((Action.isDirectory ctx.workdir).on host).1 = .ok true)
    (clear : (fields.map (·.1)).find? fixedNames.contains = none)
    (unsent : (requestJson operation ctx fields).isPrintable = false) :
    ((ask ctx operation fields).on host).1 = .error (.unprintable .tooManyDigits) := by
  have standing : ready host ctx = .ok () := by rw [ready, there]
  obtain ⟨errors, asked⟩ := on_ask_sent host rfl rfl clear
  rw [asked, standing, unsent]
  rfl

/-- A request from a directory that is there is reported as timed out if its process was stopped, with a
message that names the operation and the time it had, whatever the process had written; where this time
has more digits than are printed, the request fails for them. A process that ended by itself is judged by
its output, unless it ended with the code of a stopped one: it is then reported as timed out if it wrote
anything on its error output. For a request that cannot be sent there is no process. -/
theorem timeouts_told (ctx : Context) (operation : Text) {host : Host} {fields : Members} {outcome : Outcome}
    (there : ((Action.isDirectory ctx.workdir).on host).1 = .ok true)
    (clear : (fields.map (·.1)).find? fixedNames.contains = none)
    (answered : (host.engine.answer
      (requestCall ctx host.engineScript operation fields)).1 = outcome) :
    ((∃ message, TimedOut message ((ask ctx operation fields).on host).1) ↔
        (requestJson operation ctx fields).isPrintable = true ∧
          ((ctx.config.timeout.toJson.isPrintable = true ∧
              ∃ output errors clock, outcome = .stopped output errors clock) ∨
            ∃ output errors clock, outcome = .ended stoppedCode output errors clock ∧
              errors.getD [] ≠ [])) ∧
      ((requestJson operation ctx fields).isPrintable = false →
        ((ask ctx operation fields).on host).1 = .error (.unprintable .tooManyDigits)) ∧
      ((requestJson operation ctx fields).isPrintable = true →
        (∀ output errors clock, outcome = .stopped output errors clock →
          (ctx.config.timeout.toJson.isPrintable = true →
              TimedOut ("ohm bridge `" ++ operation ++ "` command timed out after " ++
                ctx.config.timeout.toText ++ "s") ((ask ctx operation fields).on host).1) ∧
            (ctx.config.timeout.toJson.isPrintable = false →
              ((ask ctx operation fields).on host).1 = .error (.unprintable .tooManyDigits))) ∧
        ∀ code output errors clock, outcome = .ended code output errors clock → code ≠ stoppedCode →
          Judged operation (output.getD []) ((ask ctx operation fields).on host).1) := by
  cases sent : (requestJson operation ctx fields).isPrintable with
  | false =>
    rw [ask_unsent ctx operation there clear sent]
    refine ⟨iff_of_false (fun ⟨_, told⟩ => not_timedOut_unprintable told) (fun made => ?_), fun _ => rfl,
      fun made => ?_⟩
    · cases made.1
    · cases made
  | true =>
    rw [ask_replies ctx operation there clear sent answered]
    refine ⟨(reply_timedOut_iff outcome).trans (and_iff_right rfl).symm, fun unsent => ?_,
      fun _ => ⟨?_, ?_⟩⟩
    · cases unsent
    · rintro output errors clock rfl
      refine ⟨fun printable => ?_, reply_untold operation output errors clock⟩
      have words : "ohm bridge `" ++ operation ++ "` command timed out after " ++
            ctx.config.timeout.toText ++ "s" =
          "ohm bridge `" ++ operation ++ "` " ++ stoppedWords ctx.config.timeout := by
        simp [stoppedWords, Text.ofString]
      rw [reply_of_stopped operation output errors clock printable, words]
      exact timedOut_note operation _
    · rintro code output errors clock rfl self
      exact judged_of_ended output errors clock self

section sample

/-- A stopped process that had answered, and had begun a line of errors with a broken character. -/
def stoppedOutcome : Outcome :=
  .stopped (.text "\x7b\"status\": \"ok\"\x7d") (.bytes [0x0A, 0x0D, 0xE2, 0x80]) .still

theorem answeringHost_answers (outcome : Outcome) (call : Call) :
    ((answeringHost outcome).engine.answer call).1 = outcome := rfl

theorem timeouts_told_stopped :
    ((Action.isDirectory rootContext.workdir).on (answeringHost stoppedOutcome)).1 = .ok true ∧
      (([] : Members).map (·.1)).find? fixedNames.contains = none ∧
      (requestJson "probe" rootContext []).isPrintable = true ∧
      rootContext.config.timeout.toJson.isPrintable = true ∧
      TimedOut "ohm bridge `probe` command timed out after 60s"
        ((ask rootContext "probe" []).on (answeringHost stoppedOutcome)).1 := by
  have there : ((Action.isDirectory rootContext.workdir).on (answeringHost stoppedOutcome)).1 =
      .ok true := by cbv
  have clear : (([] : Members).map (·.1)).find? fixedNames.contains = none := rfl
  have sent : (requestJson "probe" rootContext []).isPrintable = true := rfl
  have printable : rootContext.config.timeout.toJson.isPrintable = true := by cbv
  have told := timeouts_told rootContext "probe" there clear (answeringHost_answers stoppedOutcome _)
  have sixty : rootContext.config.timeout.toText = "60" := by cbv
  have stopped := ((told.2.2 sent).1 _ _ _ rfl).1 printable
  rw [sixty] at stopped
  exact ⟨there, clear, sent, printable, stopped⟩

/-- A process that ended by itself with an answer, with the code of a stopped one and with a warning. -/
def warningOutcome : Outcome :=
  .ended stoppedCode (some "\x7b\"status\": \"ok\"\x7d") (some "warning: slow disk\n") .still

/-- Its answer is not taken, and its warning is told as a timeout. -/
theorem warning_timedOut :
    TimedOut "ohm bridge `probe` warning: slow disk"
        ((ask rootContext "probe" []).on (answeringHost warningOutcome)).1 ∧
      ¬Judged "probe" "\x7b\"status\": \"ok\"\x7d"
        ((ask rootContext "probe" []).on (answeringHost warningOutcome)).1 := by
  have there : ((Action.isDirectory rootContext.workdir).on (answeringHost warningOutcome)).1 =
      .ok true := by cbv
  have last : (Text.lines ((some (Text.ofString "warning: slow disk\n")).getD [])).getLast? =
      some (Text.ofString "warning: slow disk") := by cbv
  have told : TimedOut "ohm bridge `probe` warning: slow disk"
      ((ask rootContext "probe" []).on (answeringHost warningOutcome)).1 := by
    rw [ask_replies rootContext "probe" there rfl rfl (answeringHost_answers warningOutcome _),
      warningOutcome, reply_of_stoppedCode, last]
    exact timedOut_note "probe" "warning: slow disk"
  exact ⟨told, fun judged => judged.not_timedOut told⟩

end sample

end GrammarBundle.Engine
