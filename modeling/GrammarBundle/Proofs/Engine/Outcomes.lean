import Mathlib
import GrammarBundle.Proofs.Engine.Replies

/-!
What a request comes to, outcome by outcome. A process that was stopped is told from the others by the
note about it, which is no white space. An answer is an object whose status is `ok`; every other end has a
kind of its own, except where a process ends by itself as a stopped one would and says nothing, where its
output can be read but is no object or holds too long a number, where the time of a stopped process has
too many digits for the note, and where the call fails by itself.
-/

namespace GrammarBundle

namespace Text

theorem lines_eq_nil_iff {t : Text} : lines t = [] ↔ t = [] := by
  constructor
  · intro none
    cases t with
    | nil => rfl
    | cons p rest =>
      unfold lines at none
      split at none
      next same => cases same
      · cases none
      next q tail _ same =>
        split at none
        · cases none
        · split at none <;> cases none
  · rintro rfl
    rfl

theorem trim_ne_nil {blank : CodePoint → Bool} {t : Text} {p : CodePoint} (member : p ∈ t)
    (dark : blank p = false) : trim blank t ≠ [] := by
  intro none
  have kept : p ∈ t.dropWhile blank := by
    rw [← List.takeWhile_append_dropWhile (p := blank) (l := t)] at member
    rcases List.mem_append.mp member with early | late
    · have skipped := List.mem_takeWhile_imp early
      rw [dark] at skipped
      cases skipped
    · exact late
  have gone : (t.dropWhile blank).reverse.dropWhile blank = [] := by simpa [trim] using none
  have skipped := List.dropWhile_eq_nil_iff.mp gone p (List.mem_reverse.mpr kept)
  rw [dark] at skipped
  cases skipped

end Text

namespace Engine

theorem stopped_lines (errors : Text) (timeout : Numeral) :
    Text.lines (Text.strip (errors ++ "\n" ++ stoppedWords timeout)) ≠ [] := by
  intro none
  have member : CodePoint.char 'c' ∈ errors ++ "\n" ++ stoppedWords timeout := by
    simp [stoppedWords, Text.ofString]
  exact Text.trim_ne_nil member (by decide) (Text.lines_eq_nil_iff.mp none)

variable {ctx : Context} {operation : Text}

/-- The reply to a stopped process is made from the note about it. -/
theorem reply_told (operation : Text) (output errors : PartialOutput) (clock : Readings)
    (printable : ctx.config.timeout.toJson.isPrintable = true) :
    reply ctx operation (.stopped output errors clock) =
      answerOf operation ⟨stoppedCode, output.toText,
        Text.strip (errors.toText ++ "\n" ++ stoppedWords ctx.config.timeout), clock.milliseconds⟩ := by
  unfold reply Outcome.result stoppedNote
  rw [if_pos printable]

/-- A request whose process was stopped fails because its time was over, if this can be told. -/
theorem reply_stopped (operation : Text) (output errors : PartialOutput) (clock : Readings)
    (printable : ctx.config.timeout.toJson.isPrintable = true) :
    ∃ note, reply ctx operation (.stopped output errors clock) = .error (.timedOut operation note) := by
  have some_line := stopped_lines errors.toText ctx.config.timeout
  rw [reply_told operation output errors clock printable]
  unfold answerOf
  dsimp only
  rw [if_pos rfl]
  cases last : (Text.lines (Text.strip
      (errors.toText ++ "\n" ++ stoppedWords ctx.config.timeout))).getLast? with
  | none => exact absurd (List.getLast?_eq_none_iff.mp last) some_line
  | some note => exact ⟨note, rfl⟩

/-- Where the time of a stopped process cannot be printed, the request fails for that. -/
theorem reply_untold (operation : Text) (output errors : PartialOutput) (clock : Readings)
    (long : ctx.config.timeout.toJson.isPrintable = false) :
    reply ctx operation (.stopped output errors clock) = .error (.unprintable .tooManyDigits) := by
  unfold reply Outcome.result stoppedNote
  rw [long]
  rfl

/-- An answer of the engine: an object with the status `ok`. -/
def Answered (v : Json) : Prop := ∃ members : Members, v = .object members ∧
  members.get? "status" = some (.str "ok")

/-- Failures that a request is meant to end with: each has a kind of its own, or is a refusal by the
system other than that nothing is there. -/
inductive Foreseen : Failure → Prop
  | workdirMissing (path : Text) : Foreseen (.workdirMissing path)
  | nodeMissing (node : Text) : Foreseen (.nodeMissing node)
  | timedOut (operation note : Text) : Foreseen (.timedOut operation note)
  | engineFailed (operation detail : Text) : Foreseen (.engineFailed operation detail)
  | notCompiled (message : Text) : Foreseen (.notCompiled message)
  | refused (fault : SystemFault) : fault.reason ≠ .noEntry → Foreseen (.system fault)

/-- A request that ends with an answer or with a failure that is foreseen. -/
def Classified : Except Failure Json → Prop
  | .ok v => Answered v
  | .error failure => Foreseen failure

/-- Outcomes that no kind of failure fits, where a process had a time to end. -/
inductive Unforeseen (timeout : Numeral) : Outcome → Prop
  /-- The process ends with the code of a stopped one and leaves no line on its error output. -/
  | silent (output errors : Option Text) (clock : Readings) : errors.getD [] = [] →
      Unforeseen timeout (.ended stoppedCode output errors clock)
  | tooManyDigits (code : Int) (output errors : Option Text) (clock : Readings) (count : Nat) :
      code ≠ stoppedCode → Json.read (output.getD []) = .error (.tooManyDigits count) →
      Unforeseen timeout (.ended code output errors clock)
  | noObject (code : Int) (output errors : Option Text) (clock : Readings) (v : Json) :
      code ≠ stoppedCode → Json.read (output.getD []) = .ok v → v.kind ≠ .object →
      Unforeseen timeout (.ended code output errors clock)
  /-- The process is stopped, and its time has more digits than are printed. -/
  | untold (output errors : PartialOutput) (clock : Readings) : timeout.toJson.isPrintable = false →
      Unforeseen timeout (.stopped output errors clock)
  | failed (message : Text) : Unforeseen timeout (.failed message)

theorem member_object {v : Json} (object : v.kind = .object) (name : Text) :
    ∃ members : Members, v = .object members ∧ v.member? name = .ok (members.get? name) := by
  cases v with
  | object members => exact ⟨members, rfl, rfl⟩
  | _ => cases object

theorem member_noObject {v : Json} (other : v.kind ≠ .object) (name : Text) :
    v.member? name = .error (.noMembers v.kind) := by
  cases v with
  | object members => exact absurd rfl other
  | _ => rfl

/-- The answer of a process that ended by itself, from what its output reads as. -/
theorem answerOf_read {r : CommandResult} (self : r.code ≠ stoppedCode) {v : Json}
    (read : Json.read r.output = .ok v) :
    answerOf operation r =
      match v.member? "status" with
      | .error fault => .error (.shape fault)
      | .ok (some (.str ['o', 'k'])) => .ok v
      | .ok _ =>
        match v.member? "message" with
        | .error fault => .error (.shape fault)
        | .ok message => .error (.notCompiled ((message.getD (.str "unknown bridge error")).plain)) := by
  unfold answerOf
  rw [if_neg self]
  generalize Json.read r.output = reading at read ⊢
  subst read
  rfl

/-- An object answers, or says why it does not. -/
theorem answerOf_object {r : CommandResult} {v : Json} (self : r.code ≠ stoppedCode)
    (read : Json.read r.output = .ok v) (object : v.kind = .object) :
    Classified (answerOf operation r) := by
  obtain ⟨members, rfl, status⟩ := member_object object "status"
  rw [answerOf_read self read, status]
  split
  next cause => cases cause
  next good => exact ⟨members, rfl, Except.ok.inj good⟩
  · exact .notCompiled _

/-- A request whose process comes out in an unforeseen way fails, and its failure is neither one that the
program reports nor a refusal of the system. -/
theorem reply_unforeseen (operation : Text) {outcome : Outcome}
    (unforeseen : Unforeseen ctx.config.timeout outcome) :
    ∃ failure, reply ctx operation outcome = .error failure ∧ failure.report? = none ∧
      failure.isSystem = false := by
  cases unforeseen with
  | silent output errors clock empty =>
    refine ⟨.shape (.outOfRange true), ?_, rfl, rfl⟩
    unfold reply Outcome.result answerOf
    dsimp only
    rw [if_pos rfl, empty]
    rfl
  | tooManyDigits code output errors clock count self long =>
    refine ⟨.json (.tooManyDigits count), ?_, rfl, rfl⟩
    unfold reply Outcome.result answerOf
    dsimp only
    rw [if_neg self, long]
  | noObject code output errors clock v self read other =>
    refine ⟨.shape (.noMembers v.kind), ?_, rfl, rfl⟩
    change answerOf operation ⟨code, output.getD [], errors.getD [], clock.milliseconds⟩ = _
    rw [answerOf_read self read, member_noObject other]
  | untold output errors clock long =>
    exact ⟨_, reply_untold operation output errors clock long, rfl, rfl⟩
  | failed message => exact ⟨.callFailed message, rfl, rfl, rfl⟩

theorem Foreseen.named {failure : Failure} (foreseen : Foreseen failure) :
    failure.report? ≠ none ∨ failure.isSystem = true := by
  cases foreseen with
  | refused fault other => exact .inr rfl
  | _ => exact .inl (by intro none; cases none)

theorem not_classified {outcome : Outcome} (unforeseen : Unforeseen ctx.config.timeout outcome) :
    ¬Classified (reply ctx operation outcome) := by
  intro classified
  obtain ⟨failure, fails, unreported, other⟩ := reply_unforeseen operation unforeseen
  rw [fails] at classified
  rcases classified.named with reported | system
  · exact reported unreported
  · exact Bool.noConfusion (system.symm.trans other)

/-- A process that ends by itself is classified unless its outcome is one of the unforeseen ones. -/
theorem ended_classified {code : Int} {output errors : Option Text} {clock : Readings}
    (foreseen : ¬Unforeseen ctx.config.timeout (.ended code output errors clock)) :
    Classified (reply ctx operation (.ended code output errors clock)) := by
  change Classified (answerOf operation ⟨code, output.getD [], errors.getD [], clock.milliseconds⟩)
  by_cases stopped : code = stoppedCode
  · subst stopped
    cases last : (Text.lines (errors.getD [])).getLast? with
    | none =>
      have silent := Text.lines_eq_nil_iff.mp (List.getLast?_eq_none_iff.mp last)
      exact absurd (.silent output errors clock silent) foreseen
    | some note =>
      unfold answerOf
      dsimp only
      rw [if_pos rfl, last]
      exact .timedOut _ _
  · cases read : Json.read (output.getD []) with
    | ok v =>
      by_cases object : v.kind = .object
      · exact answerOf_object stopped read object
      · exact absurd (.noObject code output errors clock v stopped read object) foreseen
    | error fault =>
      cases fault with
      | tooManyDigits count =>
        exact absurd (.tooManyDigits code output errors clock count stopped read) foreseen
      | badForm cause line column position =>
        unfold answerOf
        dsimp only
        rw [if_neg stopped, read]
        exact .engineFailed _ _

/-- A program that is there and is not started fails the request with what the system said. -/
theorem reply_of_refused (ctx : Context) (operation : Text) {reason : SystemReason}
    (other : reason ≠ .noEntry) :
    reply ctx operation (.refused reason) = .error (.system ⟨reason, ctx.config.node⟩) := by
  cases reason <;> first | rfl | exact absurd rfl other

theorem reply_classified (outcome : Outcome) :
    Classified (reply ctx operation outcome) ↔ ¬Unforeseen ctx.config.timeout outcome := by
  constructor
  · intro classified unforeseen
    exact not_classified unforeseen classified
  · intro foreseen
    cases outcome with
    | ended code output errors clock => exact ended_classified foreseen
    | stopped output errors clock =>
      cases printable : ctx.config.timeout.toJson.isPrintable with
      | false => exact absurd (.untold output errors clock printable) foreseen
      | true =>
        obtain ⟨note, stopped⟩ := reply_stopped operation output errors clock printable
        rw [stopped]
        exact .timedOut operation note
    | failed message => exact absurd (.failed message) foreseen
    | refused reason =>
      by_cases missing : reason = .noEntry
      · subst missing
        exact .nodeMissing _
      · rw [reply_of_refused ctx operation missing]
        exact .refused _ missing

/-- Requests that cannot be made fail in a way that is foreseen. -/
theorem foreseen_of_not_ready {host : Host} {failure : Failure}
    (unready : ready host ctx = .error failure) : Foreseen failure := by
  unfold ready at unready
  rw [Action.on_isDirectory] at unready
  cases looked : host.disk.look host.workdir true ctx.workdir.toText with
  | ok found =>
    obtain ⟨place, node⟩ := found
    rw [looked] at unready
    cases node <;> cases unready <;> exact .workdirMissing _
  | error fault =>
    rw [looked] at unready
    cases grave : Action.isGrave fault with
    | false =>
      simp only [grave] at unready
      cases unready
      exact .workdirMissing _
    | true =>
      simp only [grave] at unready
      cases unready
      cases fault with
      | system reason =>
        refine .refused _ ?_
        rintro rfl
        cases grave
      | zeroCharacter => cases grave
      | unencodable cause => cases grave

/-- A request ends with an answer or a foreseen failure, unless it can be made and either cannot be sent
for the digits of a number in it, or the outcome of its process is unforeseen. -/
theorem ask_classified (host : Host) {fields : Members}
    (clear : (fields.map (·.1)).find? fixedNames.contains = none) :
    Classified ((ask ctx operation fields).on host).1 ↔
      (ready host ctx = .ok () →
        (requestJson operation ctx fields).isPrintable = true ∧
          ¬Unforeseen ctx.config.timeout (host.engine.answer
            (requestCall ctx host.engineScript operation fields)).1) := by
  obtain ⟨errors, asked⟩ := on_ask_sent host rfl rfl clear
  rw [asked]
  cases standing : ready host ctx with
  | error failure =>
    constructor
    · intro _ made
      cases made
    · intro _
      exact foreseen_of_not_ready standing
  | ok _ =>
    dsimp only
    cases printable : (requestJson operation ctx fields).isPrintable with
    | false =>
      constructor
      · intro classified
        cases classified
      · intro sent
        cases (sent rfl).1
    | true =>
      rw [if_pos rfl, reply_classified]
      constructor
      · intro foreseen _
        exact ⟨rfl, foreseen⟩
      · intro sent
        exact (sent rfl).2

section sample

/-- A host in its root directory, whose engine answers once. -/
def answeringHost (outcome : Outcome) : Host where
  disk := ⟨[]⟩
  workdir := []
  environment := []
  now := ⟨⟨2024, 1, 2⟩, 3, 4, 5, 0, none⟩
  engine := .script [outcome]
  engineScript := "/bridge.mjs"
  site := ⟨"FILE", 0⟩
  calls := []
  output := []
  errors := []

def rootContext : Context where
  runId := "run"
  workdir := ⟨"/", []⟩
  dryRun := false
  format := "text"
  verbose := false
  quiet := true
  logJson := false
  config := .standard

theorem ask_classified_list :
    ((([] : Members).map (·.1)).find? fixedNames.contains = none) ∧
      (Classified ((ask rootContext "probe" []).on
          (answeringHost (.ended 0 (some "[]") none .still))).1 ↔
        (ready (answeringHost (.ended 0 (some "[]") none .still)) rootContext = .ok () →
          (requestJson "probe" rootContext []).isPrintable = true ∧
            ¬Unforeseen rootContext.config.timeout (.ended 0 (some "[]") none .still))) :=
  ⟨rfl, ask_classified (answeringHost (.ended 0 (some "[]") none .still)) rfl⟩

theorem answeringHost_ready (outcome : Outcome) :
    ready (answeringHost outcome) rootContext = .ok () := by
  cbv

/-- An output that is no object, and a process that ends as a stopped one would and says nothing, are no
answers and have no kind of failure of their own. -/
theorem request_not_classified :
    ¬Classified ((ask rootContext "probe" []).on
        (answeringHost (.ended 0 (some "[]") none .still))).1 ∧
      ¬Classified ((ask rootContext "probe" []).on
        (answeringHost (.ended 124 (some "\x7b\x7d") none .still))).1 := by
  have read : Json.read "[]" = .ok (.list []) := by cbv
  have asked (outcome : Outcome) : ((ask rootContext "probe" []).on (answeringHost outcome)).1 =
      reply rootContext "probe" outcome := by
    obtain ⟨errors, asked⟩ :
        ∃ errors, (ask rootContext "probe" []).on (answeringHost outcome) = _ :=
      on_ask (answeringHost outcome) rfl rfl rfl rfl
    rw [asked, answeringHost_ready]
    rfl
  rw [asked, asked]
  constructor
  · exact not_classified (.noObject 0 (some "[]") none .still _ (by decide) read (by decide))
  · exact not_classified (.silent (some "\x7b\x7d") none .still rfl)

end sample

end Engine

end GrammarBundle
