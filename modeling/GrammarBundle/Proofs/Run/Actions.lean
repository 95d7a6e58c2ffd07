import GrammarBundle.Run.Log

/-!
What the steps of a run do to a host: which part of it they read, what they change, and how they end.
Events go to the error output and change no other part of a host.
-/

namespace GrammarBundle

theorem bind_ok {ε α β : Type} {x : Except ε α} {next : α → Except ε β} {b : β} :
    (x >>= next) = .ok b ↔ ∃ a, x = .ok a ∧ next a = .ok b := by
  cases x with
  | error e => simp [bind, Except.bind]
  | ok a => simp [bind, Except.bind]

def Host.logged (host : Host) (errors : Text) : Host := { host with errors }

def Host.quiet (host : Host) : Host := host.logged []

namespace Action

variable {α β : Type} {host : Host}

theorem on_pure {a : α} : (pure a : Action α).on host = (.ok a, host) := rfl

theorem on_throw {failure : Failure} : (throw failure : Action α).on host = (.error failure, host) :=
  rfl

theorem on_bind {step : Action α} {next : α → Action β} :
    (step >>= next).on host =
      match step.on host with
      | (.ok a, after) => (next a).on after
      | (.error failure, after) => (.error failure, after) := by
  change ExceptT.bindCont next (step.on host).1 (step.on host).2 = _
  cases step.on host with
  | mk result after => cases result <;> rfl

theorem on_map {f : α → β} {step : Action α} :
    (f <$> step).on host = ((step.on host).1.map f, (step.on host).2) := by
  rw [map_eq_pure_bind, on_bind]
  generalize step.on host = ended
  obtain ⟨result, after⟩ := ended
  cases result <;> rfl

theorem on_ofExcept {ε : Type} {cause : ε → Failure} {result : Except ε α} :
    (ofExcept cause result).on host = (result.mapError cause, host) := by
  cases result <;> rfl

theorem on_log (ctx : Context) (host : Host) (event : LogEvent) (clear : event.clash? = none) :
    ∃ errors, (log ctx event).on host = (.ok (), host.logged errors) := by
  unfold log
  rw [clear]
  dsimp only
  split
  · exact ⟨_, rfl⟩
  · exact ⟨host.errors, rfl⟩

theorem on_get : (get : Action Host).on host = (.ok host, host) := rfl

theorem on_printLine {text : Text} :
    (printLine text).on host =
      match host.console.refusal? text with
      | some message => (.error (.unprinted message), host)
      | none => (.ok (), host.withOutput text) := by
  unfold printLine
  rw [on_bind, on_get]
  dsimp only
  cases host.console.refusal? text <;> rfl

theorem on_tryCatch {step : Action α} {handler : Failure → Action α} :
    (tryCatch step handler).on host =
      match step.on host with
      | (.ok a, after) => (.ok a, after)
      | (.error failure, after) => (handler failure).on after := by
  unfold on ExceptT.run StateT.run
  simp only [tryCatch, tryCatchThe, MonadExceptOf.tryCatch, ExceptT.tryCatch, ExceptT.mk, bind,
    StateT.bind]
  cases step host with
  | mk result after => cases result <;> rfl

theorem on_nodeAt {path : Path} :
    (nodeAt path).on host =
      (match host.disk.look host.workdir true path.toText with
        | .ok (_, node) => .ok (some node)
        | .error fault =>
          if isGrave fault then .error (Failure.ofPath path.toText fault) else .ok none, host) := by
  have here : (get : Action Host).on host = (.ok host, host) := rfl
  unfold nodeAt
  rw [on_bind, here]
  dsimp only
  cases host.disk.look host.workdir true path.toText with
  | ok found => rfl
  | error fault =>
    dsimp only
    cases isGrave fault <;> rfl

theorem on_isDirectory {path : Path} :
    (isDirectory path).on host =
      (match host.disk.look host.workdir true path.toText with
        | .ok (_, .directory) => .ok true
        | .ok _ => .ok false
        | .error fault =>
          if isGrave fault then .error (Failure.ofPath path.toText fault) else .ok false, host) := by
  unfold isDirectory
  rw [on_bind, on_nodeAt]
  cases host.disk.look host.workdir true path.toText with
  | ok found =>
    obtain ⟨_, node⟩ := found
    cases node <;> rfl
  | error fault =>
    dsimp only
    cases isGrave fault <;> rfl

theorem on_isFile {path : Path} :
    (isFile path).on host =
      (match host.disk.look host.workdir true path.toText with
        | .ok (_, .file _) => .ok true
        | .ok _ => .ok false
        | .error fault =>
          if isGrave fault then .error (Failure.ofPath path.toText fault) else .ok false, host) := by
  unfold isFile
  rw [on_bind, on_nodeAt]
  cases host.disk.look host.workdir true path.toText with
  | ok found =>
    obtain ⟨_, node⟩ := found
    cases node <;> rfl
  | error fault =>
    dsimp only
    cases isGrave fault <;> rfl

/-- Reading text reads what a path leads to, and changes nothing. -/
theorem on_readText {path : Path} :
    (readText path).on host =
      (match host.disk.read host.workdir path.toText with
        | .error fault => .error (Failure.ofPath path.toText fault)
        | .ok bytes =>
          match Utf8.decode bytes with
          | .error fault => .error (.undecodable fault)
          | .ok text => .ok (Text.unifyLineEnds text), host) := by
  change (ofExcept (Failure.ofPath path.toText) (host.disk.read host.workdir path.toText) >>=
    fun bytes => ofExcept Failure.undecodable (Utf8.decode bytes) >>=
      fun text => (pure (Text.unifyLineEnds text) : Action Text)).on host = _
  rw [on_bind, on_ofExcept]
  cases host.disk.read host.workdir path.toText with
  | error fault => rfl
  | ok bytes =>
    dsimp only [Except.mapError]
    rw [on_bind, on_ofExcept]
    cases Utf8.decode bytes <;> rfl

/-- Writing text opens the file at the place of its path, and fills it if the text can be encoded. -/
theorem on_writeText {host : Host} {path : Path} {text : Text} :
    (writeText path text).on host =
      match host.disk.writePlace host.workdir path.toText with
      | .error fault => (.error (Failure.ofPath path.toText fault), host)
      | .ok place =>
        match Utf8.encode text with
        | .error fault =>
          (.error (.unencodable fault), { host with disk := host.disk.set place (.file []) })
        | .ok bytes => (.ok (), { host with disk := host.disk.set place (.file bytes) }) := by
  have put (bytes : List UInt8) : (writeBytes path bytes).on host =
      match host.disk.writePlace host.workdir path.toText with
      | .error fault => (.error (Failure.ofPath path.toText fault), host)
      | .ok place => (.ok (), { host with disk := host.disk.set place (.file bytes) }) := by
    change (Action.ofExcept (Failure.ofPath path.toText)
      (host.disk.write host.workdir path.toText bytes) >>= fun disk =>
        (set { host with disk } : Action Unit)).on host = _
    rw [on_bind, on_ofExcept, Disk.write]
    cases host.disk.writePlace host.workdir path.toText <;> rfl
  unfold writeText
  cases Utf8.encode text with
  | ok bytes => exact put bytes
  | error fault =>
    dsimp only
    rw [on_bind, put]
    cases host.disk.writePlace host.workdir path.toText <;> rfl

end Action

end GrammarBundle
