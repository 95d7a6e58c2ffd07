import Mathlib
import GrammarBundle.Config.Load
import GrammarBundle.Proofs.Run.Actions
import GrammarBundle.Run.ErrorReport

/-!
What loading a configuration comes to, with whatever reads the richer format. The file is looked for and
read, its bytes become text, the text a value and the value settings. A fault of the value's form and a rule
that it breaks are reported as bad configuration. Bytes that are no text, a number of too many digits, a
scalar for which the reader fails otherwise and a violation that shows what cannot be displayed are not.
Loading changes nothing on the host.
-/

namespace GrammarBundle.Config

/-- A result, or a failure that is reported as bad configuration or as a refusal by the system. -/
def Reported {α : Type} : Except Failure α → Prop
  | .ok _ => True
  | .error failure =>
    failure.report? = some (.config, Text.ofString "invalid_config") ∨ failure.isSystem = true

/-- Contents of a document, at a path, that are bad and are not reported as such. -/
inductive Unforeseen (reader : Reader) (path : Path) : List UInt8 → Prop
  | undecodable {bytes : List UInt8} {fault : Utf8.DecodeFault} : Utf8.decode bytes = .error fault →
      Unforeseen reader path bytes
  | tooManyDigits {bytes : List UInt8} {text : Text} {count : Nat} : path.suffix = ".json" →
      Utf8.decode bytes = .ok text → Json.read text.unifyLineEnds = .error (.tooManyDigits count) →
      Unforeseen reader path bytes
  | scalar {bytes : List UInt8} {text : Text} {fault : Yaml.ScalarFault} : path.suffix ≠ ".json" →
      Utf8.decode bytes = .ok text → reader text.unifyLineEnds = .error (.scalar fault) →
      Unforeseen reader path bytes
  | wordless {bytes : List UInt8} {text : Text} {document : Datum} : Utf8.decode bytes = .ok text →
      parseWith reader path text.unifyLineEnds = .ok document → Settings.isWordless document = true →
      Unforeseen reader path bytes

/-- What the bytes of a document come to. -/
def settingsOfBytes (reader : Reader) (path : Path) (bytes : List UInt8) : Except Failure Settings :=
  match Utf8.decode bytes with
  | .error fault => .error (.undecodable fault)
  | .ok text =>
    match parseWith reader path text.unifyLineEnds with
    | .error failure => .error failure
    | .ok document => settingsOf (some path.toText) document

/-- What a search for a document comes to. -/
inductive Sought (host : Host) : Except Failure (Option Path) → Prop
  | nothing : Sought host (.ok none)
  | file {path : Path} {place : Place} {bytes : List UInt8} :
      host.disk.look host.workdir true path.toText = .ok (place, .file bytes) →
      Sought host (.ok (some path))
  | missing (path : Text) : Sought host (.error (.configMissing path))
  | refused (fault : SystemFault) : Sought host (.error (.system fault))

/-- Asking for a file finds one, finds none, or is refused by the system. -/
theorem isFile_cases (host : Host) (path : Path) :
    (∃ place bytes, host.disk.look host.workdir true path.toText = .ok (place, .file bytes) ∧
      (Action.isFile path).on host = (.ok true, host)) ∨
    (Action.isFile path).on host = (.ok false, host) ∨
    ∃ fault, (Action.isFile path).on host = (.error (.system fault), host) := by
  rw [Action.on_isFile]
  cases host.disk.look host.workdir true path.toText with
  | ok found =>
    obtain ⟨place, node⟩ := found
    cases node with
    | file bytes => exact .inl ⟨place, bytes, rfl, rfl⟩
    | directory => exact .inr (.inl rfl)
    | link target => exact .inr (.inl rfl)
  | error fault =>
    right
    cases fault with
    | zeroCharacter => exact .inl rfl
    | unencodable cause => exact .inl rfl
    | system reason =>
      cases grave : Action.isGrave (.system reason) with
      | false => exact .inl (by simp [grave])
      | true => exact .inr ⟨⟨reason, path.toText⟩, by simp [grave, Failure.ofPath]⟩

section

variable {host : Host} {directory : Path} {explicit : Option Text}

theorem firstFile_sought (names : List Text) :
    ∃ result, (firstFile directory names).on host = (result, host) ∧ Sought host result := by
  induction names with
  | nil => exact ⟨_, rfl, .nothing⟩
  | cons name names ih =>
    rw [firstFile, Action.on_bind]
    rcases isFile_cases host (directory.join name) with
      ⟨place, bytes, there, asked⟩ | asked | ⟨fault, asked⟩
    · rw [asked]
      exact ⟨_, rfl, .file there⟩
    · rw [asked]
      exact ih
    · rw [asked]
      exact ⟨_, rfl, .refused fault⟩

theorem documentPath_sought (host : Host) (directory : Path) (explicit : Option Text) :
    ∃ result, (documentPath directory explicit).on host = (result, host) ∧ Sought host result := by
  unfold documentPath
  cases explicit.filter (!·.isEmpty) with
  | none => exact firstFile_sought fileNames
  | some name =>
    dsimp only
    rw [Action.on_bind]
    rcases isFile_cases host (directory.join name) with
      ⟨place, bytes, there, asked⟩ | asked | ⟨fault, asked⟩
    · rw [asked]
      exact ⟨_, rfl, .file there⟩
    · rw [asked]
      exact ⟨_, rfl, .missing _⟩
    · rw [asked]
      exact ⟨_, rfl, .refused fault⟩

end

section

variable {reader : Reader}

/-- A document's text is parsed or reported as bad, or has a fault that is not reported. -/
theorem parse_cases (reader : Reader) (path : Path) (text : Text) :
    Reported (parseWith reader path text) ∨
    (path.suffix = ".json" ∧ ∃ count, Json.read text = .error (.tooManyDigits count)) ∨
    (path.suffix ≠ ".json" ∧ ∃ fault, reader text = .error (.scalar fault)) := by
  unfold parseWith
  by_cases json : path.suffix = ".json"
  · rw [if_pos json]
    cases Json.read text with
    | ok v => exact .inl trivial
    | error fault =>
      cases fault with
      | badForm cause line column position => exact .inl (.inl rfl)
      | tooManyDigits count => exact .inr (.inl ⟨json, count, rfl⟩)
  · rw [if_neg json]
    cases reader text with
    | ok v => exact .inl trivial
    | error fault =>
      cases fault with
      | malformed => exact .inl (.inl rfl)
      | scalar fault => exact .inr (.inr ⟨json, fault, rfl⟩)

/-- A document makes settings or is reported as bad, unless it has a violation without words. -/
theorem settingsOf_reported (path : Option Text) {document : Datum}
    (worded : Settings.isWordless document = false) : Reported (settingsOf path document) := by
  unfold settingsOf
  rw [worded]
  cases Settings.ofDocument document with
  | ok settings => trivial
  | error violation => exact .inl rfl

theorem settingsOf_wordless (path : Option Text) {document : Datum}
    (wordless : Settings.isWordless document = true) :
    settingsOf path document = .error (.unprintable .tooManyDigits) := by
  rw [settingsOf, wordless]

theorem not_reported {path : Path} {bytes : List UInt8} (unforeseen : Unforeseen reader path bytes) :
    ¬Reported (settingsOfBytes reader path bytes) := by
  unfold settingsOfBytes
  cases unforeseen with
  | undecodable broken =>
    rw [broken]
    rintro (reported | refused)
    · cases reported
    · cases refused
  | tooManyDigits json decoded long =>
    rw [decoded]
    dsimp only
    rw [parseWith, if_pos json, long]
    rintro (reported | refused)
    · cases reported
    · cases refused
  | scalar other decoded fault =>
    rw [decoded]
    dsimp only
    rw [parseWith, if_neg other, fault]
    rintro (reported | refused)
    · cases reported
    · cases refused
  | wordless decoded parsed wordless =>
    rw [decoded]
    dsimp only
    rw [parsed]
    dsimp only
    rw [settingsOf_wordless _ wordless]
    rintro (reported | refused)
    · cases reported
    · cases refused

/-- The bytes of a document make settings or are reported as bad, unless they are unforeseen. -/
theorem settingsOfBytes_reported (reader : Reader) (path : Path) (bytes : List UInt8) :
    Reported (settingsOfBytes reader path bytes) ↔ ¬Unforeseen reader path bytes := by
  constructor
  · intro reported unforeseen
    exact not_reported unforeseen reported
  · intro foreseen
    unfold settingsOfBytes
    cases decoded : Utf8.decode bytes with
    | error fault => exact absurd (.undecodable decoded) foreseen
    | ok text =>
      dsimp only
      rcases parse_cases reader path text.unifyLineEnds with
        reported | ⟨json, count, long⟩ | ⟨other, fault, bad⟩
      · cases parsed : parseWith reader path text.unifyLineEnds with
        | error failure =>
          rw [parsed] at reported
          exact reported
        | ok document =>
          refine settingsOf_reported _ ?_
          rw [← Bool.not_eq_true]
          exact fun wordless => foreseen (.wordless decoded parsed wordless)
      · exact absurd (.tooManyDigits json decoded long) foreseen
      · exact absurd (.scalar other decoded bad) foreseen

end

section

variable {reader : Reader} {host : Host} {directory : Path} {explicit : Option Text}

/-- The value of a variable in the environment of a host. -/
def variableOn (host : Host) (name : Text) : Option Text :=
  (host.environment.find? fun (key, _) => key = name).map (·.2)

/-- The configuration that settings of a document make on a host. -/
def inForce (host : Host) (path : Path) (settings : Settings) : Config :=
  (ofSettings path settings).withEnvironment (variableOn host)

/-- The configuration on a host where no document is found. -/
def inForceAlone (host : Host) : Config := standard.withEnvironment (variableOn host)

/-- Loading with no document at hand. -/
theorem on_load_nothing (none_found : (documentPath directory explicit).on host = (.ok none, host)) :
    (loadWith reader directory explicit).on host = (.ok (inForceAlone host), host) := by
  unfold loadWith
  rw [Action.on_bind, Action.on_get]
  dsimp only
  rw [Action.on_bind, none_found]
  rfl

theorem on_load_failed {failure : Failure}
    (failed : (documentPath directory explicit).on host = (.error failure, host)) :
    (loadWith reader directory explicit).on host = (.error failure, host) := by
  unfold loadWith
  rw [Action.on_bind, Action.on_get]
  dsimp only
  rw [Action.on_bind, failed]

theorem on_load_file {path : Path} {bytes : List UInt8}
    (found : (documentPath directory explicit).on host = (.ok (some path), host))
    (held : host.disk.read host.workdir path.toText = .ok bytes) :
    (loadWith reader directory explicit).on host =
      ((settingsOfBytes reader path bytes).map (inForce host path), host) := by
  unfold loadWith
  rw [Action.on_bind, Action.on_get]
  dsimp only
  rw [Action.on_bind, found]
  dsimp only
  rw [Action.on_bind, Action.on_readText, held, settingsOfBytes]
  dsimp only
  cases Utf8.decode bytes with
  | error fault => rfl
  | ok text =>
    dsimp only
    rw [Action.on_bind, Action.on_ofExcept]
    cases parseWith reader path text.unifyLineEnds with
    | error failure => rfl
    | ok document =>
      dsimp only [Except.mapError]
      rw [Action.on_bind, Action.on_ofExcept]
      cases settingsOf (some path.toText) document <;> rfl

theorem reported_map {α β : Type} {result : Except Failure α} (f : α → β) :
    Reported (result.map f) ↔ Reported result := by
  cases result <;> rfl

/-- Loading changes nothing on the host. -/
theorem load_leaves_host (reader : Reader) (host : Host) (directory : Path) (explicit : Option Text) :
    ((loadWith reader directory explicit).on host).2 = host := by
  obtain ⟨result, asked, sought⟩ := documentPath_sought host directory explicit
  cases sought with
  | nothing =>
    rw [on_load_nothing asked]
  | file there => rw [on_load_file asked (by rw [Disk.read, there])]
  | missing path => rw [on_load_failed asked]
  | refused fault => rw [on_load_failed asked]

/-- Whatever reads the richer format, loading ends with a configuration, is refused by the system or reports
bad configuration, unless the file that is found has unforeseen contents. -/
theorem load_reported (reader : Reader) (host : Host) (directory : Path) (explicit : Option Text) :
    Reported ((loadWith reader directory explicit).on host).1 ↔
      ∀ path bytes, (documentPath directory explicit).on host = (.ok (some path), host) →
        host.disk.read host.workdir path.toText = .ok bytes → ¬Unforeseen reader path bytes := by
  obtain ⟨result, asked, sought⟩ := documentPath_sought host directory explicit
  rw [asked]
  cases sought with
  | nothing =>
    rw [on_load_nothing asked]
    exact iff_of_true trivial (fun path bytes found => by cases found)
  | missing path =>
    rw [on_load_failed asked]
    exact iff_of_true (.inl rfl) (fun path bytes found => by cases found)
  | refused fault =>
    rw [on_load_failed asked]
    exact iff_of_true (.inr rfl) (fun path bytes found => by cases found)
  | file there =>
    next path place bytes =>
    have held : host.disk.read host.workdir path.toText = .ok bytes := by rw [Disk.read, there]
    rw [on_load_file asked held, reported_map, settingsOfBytes_reported]
    constructor
    · intro foreseen other contents found read
      cases found
      rw [held] at read
      cases read
      exact foreseen
    · intro foreseen
      exact foreseen path bytes rfl held

/-- Where no document is found, loading ends with the configuration of the environment alone, or fails with
an exit code of its own. -/
theorem load_unconfigured
    (alone : ∀ path, (documentPath directory explicit).on host ≠ (.ok (some path), host)) :
    ((load directory explicit).on host).1 = .ok (inForceAlone host) ∨
      ∃ failure, ((load directory explicit).on host).1 = .error failure ∧
        failure.exitCode ≠ .internal := by
  obtain ⟨result, asked, sought⟩ := documentPath_sought host directory explicit
  cases sought with
  | nothing =>
    rw [on_load_nothing asked]
    exact .inl rfl
  | file there => exact absurd asked (alone _)
  | missing path =>
    rw [on_load_failed asked]
    exact .inr ⟨_, rfl, fun same => by cases same⟩
  | refused fault =>
    rw [on_load_failed asked]
    exact .inr ⟨_, rfl, fun same => by cases same⟩

end

/-- The directory that a context is made for. -/
def placeOf (a : ContextArguments) (host : Host) : Path :=
  match a.workdir.filter (!·.isEmpty) with
  | some t => Path.ofText t
  | none => ⟨"/", host.workdir⟩

/-- The context of a run in a configuration. -/
def contextOf (a : ContextArguments) (host : Host) (config : Config) : Context :=
  let named := (host.environment.find? fun (key, _) => key = ContextArguments.runIdVariable).map (·.2)
  ⟨ContextArguments.firstGiven (ContextArguments.defaultRunId host.now) [a.runId, named],
    placeOf a host, a.dryRun, a.format, a.verbose, a.quiet, a.logJson, config⟩

/-- A context is made with the configuration that is loaded, and leaves the host as it is. -/
theorem on_start (a : ContextArguments) (host : Host) : a.start.on host =
    (((load (placeOf a host) a.configPath).on host).1.map (contextOf a host), host) := by
  unfold ContextArguments.start
  rw [Action.on_bind, Action.on_get]
  change (load (placeOf a host) a.configPath >>= fun config =>
    (pure (contextOf a host config) : Action Context)).on host = _
  rw [Action.on_bind]
  have left := load_leaves_host Yaml.read host (placeOf a host) a.configPath
  generalize (load (placeOf a host) a.configPath).on host = ended at left ⊢
  obtain ⟨result, after⟩ := ended
  cases left
  cases result <;> rfl

section sample

/-- A host whose working directory, the root, holds one file. -/
def documentHost (name : Text) (bytes : List UInt8) : Host where
  disk := ⟨[([name], .file bytes)]⟩
  workdir := []
  environment := []
  now := ⟨⟨2024, 1, 2⟩, 3, 4, 5, 0, none⟩
  engine := .script []
  engineScript := "/bridge.mjs"
  site := ⟨"FILE", 0⟩
  calls := []
  output := []
  errors := []

/-- A document that is no text is not reported. -/
theorem broken_load_not_reported :
    ¬Reported ((load ⟨"/", []⟩ none).on (documentHost "ohm-bundler.yaml" [0xFF])).1 := by
  have found : (documentPath ⟨"/", []⟩ none).on (documentHost "ohm-bundler.yaml" [0xFF]) =
      (.ok (some ⟨"/", ["ohm-bundler.yaml"]⟩), documentHost "ohm-bundler.yaml" [0xFF]) := by
    cbv
  have held : (documentHost "ohm-bundler.yaml" [0xFF]).disk.read
      (documentHost "ohm-bundler.yaml" [0xFF]).workdir
      (Path.toText ⟨"/", ["ohm-bundler.yaml"]⟩) = .ok [0xFF] := by
    cbv
  have broken : Utf8.decode [0xFF] = .error ⟨.invalidStart, 0xFF, 0, 1⟩ := by
    cbv
  rw [on_load_file found held, reported_map]
  exact not_reported (.undecodable broken)

end sample

end GrammarBundle.Config
