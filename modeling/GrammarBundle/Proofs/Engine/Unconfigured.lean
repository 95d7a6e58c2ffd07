import GrammarBundle.Proofs.Engine.Outcomes
import GrammarBundle.Proofs.Run.Abreast

/-!
Requests in two configurations. Where the outcomes of the calls are given, what a request comes to does
not depend on the configuration of its context, except for the words in which a failure names the
engine's program and its time, and for whether that time has too many digits to be named.
-/

namespace GrammarBundle

/-- Contexts whose times are both printed or both have too many digits for it. -/
def Context.ToldAlike (ctx ctx' : Context) : Prop :=
  ctx'.config.timeout.toJson.isPrintable = ctx.config.timeout.toJson.isPrintable

/-- Hosts that differ in calls made and in what was printed about them at most, where the outcomes of the
calls to come are given. -/
structure Host.Akin (host host' : Host) : Prop where
  same : host' = { host with calls := host'.calls, errors := host'.errors }
  scripted : ∃ outcomes, host.engine = .script outcomes

namespace Host.Akin

variable {host host' : Host}

theorem refl {outcomes : List Engine.Outcome} (scripted : host.engine = .script outcomes) :
    host.Akin host :=
  ⟨rfl, outcomes, scripted⟩

theorem disk (akin : host.Akin host') : host'.disk = host.disk := by
  rw [akin.same]

theorem workdir (akin : host.Akin host') : host'.workdir = host.workdir := by
  rw [akin.same]

theorem logged (akin : host.Akin host') (errors errors' : Text) :
    (host.logged errors).Akin (host'.logged errors') := by
  refine ⟨?_, akin.scripted⟩
  rw [akin.same]
  rfl

theorem set (akin : host.Akin host') (place : Place) (node : Node) (errors errors' : Text) :
    Host.Akin { host with disk := host.disk.set place node, errors }
      { host' with disk := host'.disk.set place node, errors := errors' } := by
  refine ⟨?_, akin.scripted⟩
  rw [akin.same]

/-- Whatever is asked, the next outcome is the same. -/
theorem asked (akin : host.Akin host') (call call' : Engine.Call) :
    (host'.engine.answer call').1 = (host.engine.answer call).1 ∧
      (host.asked call).Akin (host'.asked call') := by
  obtain ⟨outcomes, scripted⟩ := akin.scripted
  rw [akin.same]
  cases outcomes with
  | nil =>
    refine ⟨?_, ?_, [], ?_⟩ <;> simp [Host.asked, Engine.after, scripted, Engine.answer]
  | cons outcome rest =>
    refine ⟨?_, ?_, rest, ?_⟩ <;> simp [Host.asked, Engine.after, scripted, Engine.answer]

end Host.Akin

namespace Action

variable {told : Prop} {path : Path}

theorem abreast_readText : Abreast told Host.Akin (readText path) (readText path) := by
  intro host host' akin
  have left : (readText path).on host = _ := on_readText
  have right : (readText path).on host' = _ := on_readText
  rw [akin.disk, akin.workdir] at right
  change Ends told ((readText path).on host).1 ((readText path).on host').1 ∧
    Host.Akin ((readText path).on host).2 ((readText path).on host').2
  rw [left, right]
  exact ⟨Ends.refl _, akin⟩

theorem abreast_ofExcept {ε α : Type} {cause : ε → Failure} (result : Except ε α) :
    Abreast told Host.Akin (ofExcept cause result) (ofExcept cause result) := by
  intro host host' akin
  cases result with
  | ok a => exact ⟨.ok a, akin⟩
  | error e => exact ⟨.error (.same _), akin⟩

/-- Whether an event is let through makes no difference. -/
theorem abreast_log (ctx ctx' : Context) (event event' : LogEvent) (clear : event.clash? = none)
    (clear' : event'.clash? = none) : Abreast told Host.Akin (log ctx event) (log ctx' event') := by
  intro host host' akin
  obtain ⟨errors, left⟩ := on_log ctx host event clear
  obtain ⟨errors', right⟩ := on_log ctx' host' event' clear'
  change Ends told ((log ctx event).on host).1 ((log ctx' event').on host').1 ∧
    Host.Akin ((log ctx event).on host).2 ((log ctx' event').on host').2
  rw [left, right]
  exact ⟨.ok (), akin.logged errors errors'⟩

end Action

namespace Engine

variable {ctx ctx' : Context}

/-- The replies to a stopped process differ in the time that they tell, or in whether they can. -/
theorem stopped_akin (ctx ctx' : Context) (operation : Text) (output errors : PartialOutput)
    (clock : Readings) :
    Ends (ctx.ToldAlike ctx') (reply ctx operation (.stopped output errors clock))
      (reply ctx' operation (.stopped output errors clock)) := by
  cases first : ctx.config.timeout.toJson.isPrintable <;>
    cases last : ctx'.config.timeout.toJson.isPrintable
  case false.false =>
    rw [reply_untold operation output errors clock first, reply_untold operation output errors clock last]
    exact Ends.refl _
  case false.true =>
    obtain ⟨note, right⟩ := reply_stopped operation output errors clock last
    rw [reply_untold operation output errors clock first, right]
    refine .error (.last_told operation note .tooManyDigits fun alike => ?_)
    rw [Context.ToldAlike, first, last] at alike
    cases alike
  case true.false =>
    obtain ⟨note, left⟩ := reply_stopped operation output errors clock first
    rw [left, reply_untold operation output errors clock last]
    refine .error (.first_told operation note .tooManyDigits fun alike => ?_)
    rw [Context.ToldAlike, first, last] at alike
    cases alike
  case true.true =>
    obtain ⟨note, left⟩ := reply_stopped operation output errors clock first
    obtain ⟨note', right⟩ := reply_stopped operation output errors clock last
    rw [left, right]
    exact .error (.timedOut operation note note')

theorem reply_akin (ctx ctx' : Context) (operation : Text) (outcome : Outcome) :
    Ends (ctx.ToldAlike ctx') (reply ctx operation outcome) (reply ctx' operation outcome) := by
  cases outcome with
  | ended code output errors clock => exact Ends.refl _
  | stopped output errors clock => exact stopped_akin ctx ctx' operation output errors clock
  | refused reason =>
    by_cases missing : reason = .noEntry
    · subst missing
      exact .error (.nodeMissing _ _)
    · rw [reply_of_refused ctx operation missing, reply_of_refused ctx' operation missing]
      exact .error (.refused reason _ _)
  | failed message => exact Ends.refl _

theorem compiled_akin (ctx ctx' : Context) (outcome : Outcome) :
    Ends (ctx.ToldAlike ctx') (compiled ctx outcome) (compiled ctx' outcome) := by
  unfold compiled
  have replies := reply_akin ctx ctx' "compile" outcome
  generalize reply ctx "compile" outcome = left at replies
  generalize reply ctx' "compile" outcome = right at replies
  cases replies with
  | ok payload => exact Ends.refl _
  | error akin => exact .error akin

theorem typed_akin (ctx ctx' : Context) (outcome : Outcome) :
    Ends (ctx.ToldAlike ctx') (typed ctx outcome) (typed ctx' outcome) := by
  unfold typed
  have replies := reply_akin ctx ctx' "types" outcome
  generalize reply ctx "types" outcome = left at replies
  generalize reply ctx' "types" outcome = right at replies
  cases replies with
  | ok payload => exact Ends.refl _
  | error akin => exact .error akin

theorem ready_akin {host host' : Host} (workdirs : ctx'.workdir = ctx.workdir)
    (akin : host.Akin host') : ready host' ctx' = ready host ctx := by
  unfold ready
  rw [Action.on_isDirectory, Action.on_isDirectory, workdirs, akin.disk, akin.workdir]

/-- A request that comes to what its outcome says goes on side by side with any other such one. -/
theorem abreast_request {told : Prop} {α : Type} {one other : Action α} {call call' : Host → Call}
    {said said' : Outcome → Except Failure α} (workdirs : ctx'.workdir = ctx.workdir)
    (left : ∀ host, ∃ errors, one.on host =
      match ready host ctx with
      | .error failure => (.error failure, host)
      | .ok _ => (said (host.engine.answer (call host)).1, (host.asked (call host)).logged errors))
    (right : ∀ host, ∃ errors, other.on host =
      match ready host ctx' with
      | .error failure => (.error failure, host)
      | .ok _ => (said' (host.engine.answer (call' host)).1, (host.asked (call' host)).logged errors))
    (sayings : ∀ outcome, Ends told (said outcome) (said' outcome)) :
    Abreast told Host.Akin one other := by
  intro host host' akin
  obtain ⟨errors, left⟩ := left host
  obtain ⟨errors', right⟩ := right host'
  obtain ⟨outcomes, hosts⟩ := akin.asked (call host) (call' host')
  change Ends told (one.on host).1 (other.on host').1 ∧ Host.Akin (one.on host).2 (other.on host').2
  rw [left, right, ready_akin workdirs akin, outcomes]
  cases ready host ctx with
  | error failure => exact ⟨.error (.same failure), akin⟩
  | ok _ => exact ⟨sayings _, hosts.logged errors errors'⟩

theorem abreast_compile (workdirs : ctx'.workdir = ctx.workdir) (source : Text) :
    Abreast (ctx.ToldAlike ctx') Host.Akin (compile ctx source) (compile ctx' source) :=
  abreast_request workdirs (fun host => on_compile ctx host rfl) (fun host => on_compile ctx' host rfl)
    (compiled_akin ctx ctx')

theorem abreast_generateTypes (workdirs : ctx'.workdir = ctx.workdir) (c : Collection) :
    Abreast (ctx.ToldAlike ctx') Host.Akin (generateTypes ctx c) (generateTypes ctx' c) :=
  abreast_request workdirs (fun host => on_generateTypes ctx host rfl)
    (fun host => on_generateTypes ctx' host rfl) (typed_akin ctx ctx')

end Engine

end GrammarBundle
