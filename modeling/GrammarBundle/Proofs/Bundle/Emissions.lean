import GrammarBundle.Proofs.Bundle.Sources
import GrammarBundle.Proofs.Run.Actions

/-!
Steps that write to a sink. Two runs are compared up to what they log. A plan takes every file and leaves
the disk alone; a directory creates or overwrites one file on the disk, which stays empty where the
contents cannot be encoded.
-/

namespace GrammarBundle

namespace Bundle

/-- A session without what was logged in it. -/
def Session.quiet (session : Session) : Session := { session with host := session.host.quiet }

/-- Sessions that differ in what was logged at most. -/
theorem Session.eq_logged {session other : Session} (same : session.quiet = other.quiet) :
    session = ⟨other.host.logged session.host.errors, other.sink⟩ :=
  congrArg (fun quiet => Session.mk (quiet.host.logged session.host.errors) quiet.sink) same

namespace Emission

variable {α β : Type} {session : Session}

def on (step : Emission α) (session : Session) : Except Failure α × Session :=
  StateT.run (ExceptT.run step) session

theorem on_pure {a : α} : (pure a : Emission α).on session = (.ok a, session) := rfl

theorem on_get : (get : Emission Session).on session = (.ok session, session) := rfl

theorem on_throw {failure : Failure} :
    (throw failure : Emission α).on session = (.error failure, session) := rfl

theorem on_bind {step : Emission α} {next : α → Emission β} :
    (step >>= next).on session =
      match step.on session with
      | (.ok a, after) => (next a).on after
      | (.error failure, after) => (.error failure, after) := by
  change ExceptT.bindCont next (step.on session).1 (step.on session).2 = _
  cases step.on session with
  | mk result after => cases result <;> rfl

theorem on_ofAction {step : Action α} :
    (ofAction step).on session =
      ((step.on session.host).1, { session with host := (step.on session.host).2 }) := rfl

/-- A run ends like another: with the same result, and in the same session but for what was logged. -/
def SameEnd (one other : Except Failure α × Session) : Prop :=
  one.1 = other.1 ∧ one.2.quiet = other.2.quiet

section

variable {one other : Except Failure α × Session}

theorem SameEnd.disk (same : SameEnd one other) : one.2.host.disk = other.2.host.disk :=
  congrArg (·.host.disk) same.2

theorem SameEnd.calls (same : SameEnd one other) : one.2.host.calls = other.2.host.calls :=
  congrArg (·.host.calls) same.2

theorem SameEnd.sink (same : SameEnd one other) : one.2.sink = other.2.sink :=
  congrArg (·.sink) same.2

end

/-- From the accepted sessions, one step does the same as another but for what it logs. -/
def Alike (accepted : Session → Prop) (one other : Emission α) : Prop :=
  ∀ s t : Session, s.quiet = t.quiet → accepted t → SameEnd (one.on s) (other.on t)

variable {accepted reached : Session → Prop}

theorem alike_pure (accepted : Session → Prop) (a : α) : Alike accepted (pure a) (pure a) :=
  fun _ _ same _ => ⟨rfl, same⟩

/-- Steps that are alike, followed by steps that are alike where the first ones end. -/
theorem Alike.bind {one other : Emission α} {next rest : α → Emission β}
    (first : Alike accepted one other)
    (kept : ∀ t a t', accepted t → other.on t = (.ok a, t') → reached t')
    (later : ∀ a, Alike reached (next a) (rest a)) :
    Alike accepted (one >>= next) (other >>= rest) := by
  intro s t same accepts
  rw [on_bind, on_bind]
  have ends := first s t same accepts
  have keeps := kept t
  generalize one.on s = left at ends
  generalize other.on t = right at ends keeps
  obtain ⟨result, s'⟩ := left
  obtain ⟨result', t'⟩ := right
  obtain ⟨rfl, same'⟩ : result = result' ∧ s'.quiet = t'.quiet := ends
  cases result with
  | error failure => exact ⟨rfl, same'⟩
  | ok a => exact later a s' t' same' (keeps a t' accepts rfl)

/-- An event in front of a step makes no difference. -/
theorem alike_log (ctx : Context) (event : LogEvent) {one other : Emission α}
    (clear : event.clash? = none) (alike : Alike accepted one other) :
    Alike accepted (ofAction (Action.log ctx event) >>= fun _ => one) other := by
  intro s t same accepts
  obtain ⟨errors, logged⟩ := Action.on_log ctx s.host event clear
  rw [on_bind, on_ofAction, logged]
  exact alike _ t same accepts

variable {filename contents : Text} {host : Host}

/-- Writing below a directory opens the file of its path, and fills it if the text can be encoded. -/
theorem on_write_directory (filename contents : Text) (host : Host) (ctx : Context) (base : Path)
    (written : List Path) :
    ∃ errors, (write filename contents).on ⟨host, .directory ctx base written⟩ =
      match host.disk.writePlace host.workdir (base.join filename).toText with
      | .error fault =>
        (.error (Failure.ofPath (base.join filename).toText fault),
          ⟨host.logged errors, .directory ctx base written⟩)
      | .ok place =>
        match Utf8.encode contents with
        | .error fault =>
          (.error (.unencodable fault),
            ⟨{ host with disk := host.disk.set place (.file []), errors },
              .directory ctx base written⟩)
        | .ok bytes =>
          (.ok (),
            ⟨{ host with disk := host.disk.set place (.file bytes), errors },
              .directory ctx base (written ++ [base.join filename])⟩) := by
  obtain ⟨errors, logged⟩ := Action.on_log ctx host
    ⟨"info", "bundles", "write", [("path", .str (base.join filename).toText)]⟩ rfl
  refine ⟨errors, ?_⟩
  change (ofAction (Sink.write filename contents (.directory ctx base written)) >>= fun sink =>
    (modify fun session => { session with sink } : Emission Unit)).on
      ⟨host, .directory ctx base written⟩ = _
  rw [on_bind, on_ofAction, Sink.write, Action.on_bind, logged]
  dsimp only
  rw [Action.on_bind, Action.on_writeText]
  dsimp only [Host.logged]
  cases host.disk.writePlace host.workdir (base.join filename).toText with
  | error fault => rfl
  | ok place => cases Utf8.encode contents <;> rfl

theorem write_ok {ctx : Context} {base : Path} {written : List Path} {next : Session}
    (done : (write filename contents).on ⟨host, .directory ctx base written⟩ = (.ok (), next)) :
    ∃ place bytes errors, Utf8.encode contents = .ok bytes ∧
      host.disk.writePlace host.workdir (base.join filename).toText = .ok place ∧
      next = ⟨{ host with disk := host.disk.set place (.file bytes), errors },
        .directory ctx base (written ++ [base.join filename])⟩ := by
  obtain ⟨errors, wrote⟩ := on_write_directory filename contents host ctx base written
  rw [wrote] at done
  split at done
  · cases done
  next place found =>
    split at done
    · cases done
    next bytes encoded =>
      cases done
      exact ⟨place, bytes, errors, encoded, found, rfl⟩

/-- A write that fails leaves the file empty at most. -/
theorem write_error {ctx : Context} {base : Path} {written : List Path} {next : Session}
    {failure : Failure}
    (failed : (write filename contents).on ⟨host, .directory ctx base written⟩ =
      (.error failure, next)) :
    ∃ disk errors, next = ⟨{ host with disk, errors }, .directory ctx base written⟩ ∧
      (disk = host.disk ∨ ∃ place, disk = host.disk.set place (.file []) ∧
        host.disk.writePlace host.workdir (base.join filename).toText = .ok place) := by
  obtain ⟨errors, wrote⟩ := on_write_directory filename contents host ctx base written
  rw [wrote] at failed
  split at failed
  · cases failed
    exact ⟨host.disk, errors, rfl, .inl rfl⟩
  next place found =>
    split at failed
    · cases failed
      exact ⟨_, errors, rfl, .inr ⟨place, rfl, found⟩⟩
    · cases failed

theorem sink_error {session final : Session} {failure : Failure}
    (failed : (write filename contents).on session = (.error failure, final)) :
    (Sink.write filename contents session.sink).on session.host = (.error failure, final.host) := by
  change (ofAction (Sink.write filename contents session.sink) >>= fun sink =>
    (modify fun session => { session with sink } : Emission Unit)).on session = _ at failed
  rw [on_bind, on_ofAction] at failed
  cases wrote : (Sink.write filename contents session.sink).on session.host with
  | mk result after =>
    rw [wrote] at failed
    cases result with
    | error cause =>
      cases failed
      rfl
    | ok sink => cases failed

theorem alike_write {accepted : Session → Prop} :
    Alike accepted (write filename contents) (write filename contents) := by
  intro s t same _
  rw [Session.eq_logged same]
  obtain ⟨host, sink⟩ := t
  cases sink with
  | plan files => exact ⟨rfl, rfl⟩
  | directory ctx base written =>
    obtain ⟨errors, left⟩ := on_write_directory filename contents (host.logged s.host.errors) ctx
      base written
    obtain ⟨errors', right⟩ := on_write_directory filename contents host ctx base written
    rw [left, right]
    dsimp only [Host.logged]
    cases host.disk.writePlace host.workdir (base.join filename).toText with
    | error fault => exact ⟨rfl, rfl⟩
    | ok place => cases Utf8.encode contents <;> exact ⟨rfl, rfl⟩

end Emission

end Bundle

end GrammarBundle
