import GrammarBundle.Proofs.Bundle.Accounts
import GrammarBundle.Proofs.Files.FileNames
import GrammarBundle.Proofs.Command.Readings
import GrammarBundle.Proofs.Command.Steps

/-!
When generating bundles ends as an internal error. Without a configuration document, and with an engine that
answers as it should, only texts are to blame: an argument that is no path, a grammar file that is no text,
a generated file with a surrogate, or a shown line that the output does not take. Every other run ends well
or with an exit code that says why it failed.
-/

namespace GrammarBundle

/-- A host whose names can be parts of paths, as those of a system can. -/
structure Host.Named (host : Host) : Prop where
  disk : host.disk.Passable
  workdir : ∀ name ∈ host.workdir, name.Passable

namespace Console

/-- An output in UTF-8. -/
def utf8 : Console where
  refusal? t :=
    match Utf8.encode t with
    | .ok _ => none
    | .error fault => some fault.message
  ascii t small := by
    obtain ⟨bytes, encoded⟩ := Utf8.encode_of_surrogateFree (FileName.IsAscii.surrogateFree small)
    rw [encoded]

/-- An output in UTF-8 takes a text exactly if it has no surrogates. -/
theorem utf8_takes_iff (t : Text) : utf8.refusal? t = none ↔ t.surrogateFree = true := by
  rw [utf8]
  dsimp only
  cases encoded : Utf8.encode t with
  | ok bytes => exact iff_of_true rfl (Utf8.surrogateFree_of_encode encoded)
  | error fault =>
    refine iff_of_false (fun taken => by cases taken) fun free => ?_
    obtain ⟨bytes, other⟩ := Utf8.encode_of_surrogateFree free
    cases encoded.symm.trans other

end Console

namespace Invocation

/-- The directory in which an invocation runs. -/
def directory (i : Invocation) (host : Host) : Path :=
  match i.switches.workdir.filter (!·.isEmpty) with
  | some t => Path.ofText t
  | none => ⟨"/", host.workdir⟩

/-- What a run is asked for where there is no configuration document. -/
def options (i : Invocation) (host : Host) (withTypes esm : Bool) : Bundle.Options :=
  ⟨i.switches.dryRun, some (i.directory host).toText, withTypes, esm⟩

end Invocation

namespace Command

/-- The exit codes of runs that end well or that say why they failed. -/
def told : List ExitCode := [.success, .config, .validation, .compile, .io, .prerequisite, .timeout]

/-- A context that an invocation makes for a run in some format. -/
structure MadeFor (i : Invocation) (format : Text) (ctx : Context) : Prop where
  format : ctx.format = format
  dryRun : ctx.dryRun = i.switches.dryRun
  verbose : ctx.verbose = i.switches.verbose

/-- Why generating bundles on a host can end as an internal error on another. -/
inductive Mistold (arguments : List Text) (i : Invocation) (patterns : List Text) (withTypes esm : Bool)
    (host after : Host) : Prop
  /-- An argument has a surrogate that carries no byte. -/
  | argument {t : Text} {fault : Utf8.EncodeFault} : t ∈ arguments → FileName.encode t = .error fault →
      Mistold arguments i patterns withTypes esm host after
  /-- A matched file or what is written for it is to blame. -/
  | run {ctx : Context} {files : List Text} {failure : Failure} :
      Bundle.expandPatterns host.disk host.workdir patterns
        (some (i.directory host).toText) = .ok files →
      Bundle.Blamed ctx (i.options host withTypes esm) files host after failure →
      Mistold arguments i patterns withTypes esm host after
  /-- The run ends well, and the output refuses a line that is shown of it: a path, or in a dry run with more
  to see the contents of a planned file. In JSON there is no such line. -/
  | shown {format : Text} {ctx : Context} {errors : Text} {session : Bundle.Session}
      {line message : Text} : MadeFor i format ctx → format ≠ "json" →
      Bundle.generate ctx (i.options host withTypes esm) patterns (host.logged errors) = (.ok (), session) →
      line ∈ shownLines ctx session.sink → host.console.refusal? line = some message →
      Mistold arguments i patterns withTypes esm host after

variable {arguments patterns : List Text} {i : Invocation} {withTypes esm : Bool} {host : Host}

theorem told_or_internal (failure : Failure) :
    failure.exitCode ∈ told ∨ failure.exitCode = .internal := by
  have read : failure.exitCode ≠ .usage := by
    intro same
    cases failure <;> cases same
  generalize failure.exitCode = code at read ⊢
  cases code
  case usage => exact absurd rfl read
  all_goals decide

/-- An invocation that is performed ends well, or with the code of a failure. -/
theorem performed_told_or_internal (command : i.command = .generateBundles patterns withTypes esm)
    (format : Text) (host : Host) :
    (i.performReported format host).1 ∈ told ∨ (i.performReported format host).1 = .internal := by
  unfold Invocation.performReported
  rcases on_perform command format host with
    ⟨failure, _, performed⟩ | ⟨config, errors, ctx, _, _, _, performed⟩
  · rw [performed]
    exact told_or_internal failure
  · rw [performed]
    generalize Bundle.generate ctx (bundleOptions ctx withTypes esm) patterns (host.logged errors) = ended
    obtain ⟨result, session⟩ := ended
    cases result with
    | error failure => exact told_or_internal failure
    | ok _ =>
      dsimp only
      generalize showOn ctx (format = "json") session.sink session.host = shown
      obtain ⟨result, after⟩ := shown
      cases result with
      | error failure => exact told_or_internal failure
      | ok _ =>
        have success : ExitCode.success ∈ told := by decide
        exact .inl success

/-- Arguments without zero characters are passable, or one of them has no bytes. -/
theorem passable_arguments (closed : ∀ t ∈ arguments, CodePoint.char '\x00' ∉ t) :
    (∀ t ∈ arguments, t.Passable) ∨ ∃ t ∈ arguments, ∃ fault, FileName.encode t = .error fault := by
  by_cases encoded : ∀ t ∈ arguments, ∃ bytes, FileName.encode t = .ok bytes
  · left
    intro t member
    obtain ⟨bytes, same⟩ := encoded t member
    exact Text.passable_of_encode (closed t member) same
  · right
    simp only [not_forall] at encoded
    obtain ⟨t, member, refused⟩ := encoded
    refine ⟨t, member, ?_⟩
    cases same : FileName.encode t with
    | ok bytes => exact absurd ⟨bytes, same⟩ refused
    | error fault => exact ⟨fault, rfl⟩

theorem passable_directory (named : host.Named) (placed : i.switches.Placed) :
    (i.directory host).toText.Passable := by
  unfold Invocation.directory
  split
  next t given =>
    exact (Path.passable_ofText (placed t (Option.filter_eq_some_iff.mp given).1)).toText
  · have root : Text.Passable "/" := by decide
    exact Path.Passable.toText ⟨root, named.workdir⟩

theorem passable_base {t : Text} (passable : t.Passable) : (Bundle.baseOf (some t)).Passable := by
  unfold Bundle.baseOf
  dsimp only
  split
  · decide
  · exact passable

theorem bundleOptions_unconfigured (i : Invocation) (host : Host) (format : Text) (withTypes esm : Bool) :
    bundleOptions (Config.contextOf (i.contextArguments format) host (Config.inForceAlone host))
      withTypes esm = i.options host withTypes esm := by
  change Bundle.Options.mk i.switches.dryRun (some (i.directory host).toText) (withTypes || false)
    (esm || false) = _
  rw [Bool.or_false, Bool.or_false]
  rfl

/-- A run that ended well is not shown where the output refuses a line of it. -/
theorem mistold_of_shown {format : Text} {ctx : Context} {errors : Text} {session : Bundle.Session}
    {after later : Host} {failure : Failure}
    (made : MadeFor i format ctx) (noted : host.Noted session.host)
    (ended : Bundle.generate ctx (i.options host withTypes esm) patterns (host.logged errors) =
      (.ok (), session))
    (failed : showOn ctx (format = "json") session.sink session.host = (.error failure, after)) :
    Mistold arguments i patterns withTypes esm host later := by
  unfold showOn at failed
  split at failed
  · cases failed
  next other =>
    obtain ⟨-, line, member, message, refused, -⟩ := refused_of_printedOn failed
    rw [noted.console] at refused
    exact .shown made (by simpa using other) ended member refused

/-- An invocation on paths that the system takes ends as an internal error only where a text is to blame. -/
theorem performed_mistold {format : Text}
    (command : i.command = .generateBundles patterns withTypes esm)
    (taken : ∀ pattern ∈ patterns, pattern.Passable) (placed : i.switches.Placed) (named : host.Named)
    (alone : ∀ path, (Config.documentPath (i.directory host) i.switches.config).on host ≠
      (.ok (some path), host))
    (proper : ∀ exchange ∈ host.exchanges (i.performReported format host).2, Engine.Proper exchange)
    (internal : (i.performReported format host).1 = .internal) :
    Mistold arguments i patterns withTypes esm host (i.performReported format host).2 := by
  unfold Invocation.performReported at proper internal ⊢
  rcases on_perform command format host with
    ⟨failure, unloaded, performed⟩ | ⟨config, errors, ctx, loaded, rfl, noted, performed⟩
  · rw [performed] at internal
    rcases Config.load_unconfigured alone with loaded | ⟨cause, refused, coded⟩
    · cases unloaded.symm.trans loaded
    · cases unloaded.symm.trans refused
      exact absurd internal coded
  · obtain rfl : config = Config.inForceAlone host := by
      rcases Config.load_unconfigured alone with found | ⟨cause, refused, _⟩
      · exact Except.ok.inj (loaded.symm.trans found)
      · cases loaded.symm.trans refused
    rw [performed, bundleOptions_unconfigured] at proper internal ⊢
    have made : MadeFor i format (Config.contextOf (i.contextArguments format) host
      (Config.inForceAlone host)) := ⟨rfl, rfl, rfl⟩
    generalize Config.contextOf (i.contextArguments format) host (Config.inForceAlone host) = ctx at *
    have said := noted.trans (Bundle.generate_noted ctx (i.options host withTypes esm) patterns
      (host.logged errors))
    cases ended : Bundle.generate ctx (i.options host withTypes esm) patterns (host.logged errors) with
    | mk result session =>
      rw [ended] at proper internal said
      cases result with
      | ok _ =>
        dsimp only at internal ⊢
        cases failed : showOn ctx (format = "json") session.sink session.host with
        | mk result after =>
          rw [failed] at internal
          cases result with
          | ok _ => cases internal
          | error failure => exact mistold_of_shown made said ended failed
      | error failure =>
        have start : (host.logged errors).disk.Passable := named.disk
        obtain ⟨files, expanded, blamed⟩ := Bundle.generate_accounted start
          (passable_base (passable_directory named placed)) taken ended proper internal
        exact .run expanded (blamed.moved rfl rfl rfl)

/-- Generating bundles without a configuration document ends with an exit code that tells how, or as an
internal error for which a text is to blame. -/
theorem internal_mistold (parsed : Invocation.read arguments = .ok i)
    (command : i.command = .generateBundles patterns withTypes esm)
    (closed : ∀ t ∈ arguments, CodePoint.char '\x00' ∉ t) (named : host.Named)
    (alone : ∀ path, (Config.documentPath (i.directory host) i.switches.config).on host ≠
      (.ok (some path), host))
    (proper : ∀ exchange ∈ host.exchanges (Invocation.run arguments host).2, Engine.Proper exchange) :
    (Invocation.run arguments host).1 ∈ told ∨
      (Invocation.run arguments host).1 = .internal ∧
        Mistold arguments i patterns withTypes esm host (Invocation.run arguments host).2 := by
  unfold Invocation.run at proper ⊢
  rw [parsed] at proper ⊢
  dsimp only at proper ⊢
  split at proper
  next conflict =>
    have config : ExitCode.config ∈ told := by decide
    rw [if_pos conflict]
    exact .inl config
  next calm =>
    rw [if_neg calm]
    refine (performed_told_or_internal command _ host).imp id fun internal => ⟨internal, ?_⟩
    rcases passable_arguments closed with passable | ⟨t, member, fault, refused⟩
    · obtain ⟨placed, words⟩ := placed_invariant.read passable parsed
      have taken := words patterns withTypes esm command
      exact performed_mistold command taken placed named alone proper internal
    · exact .argument member refused

section sample

/-- A host whose working directory holds one grammar file, which is no text. -/
def brokenHost : Host := Config.documentHost "a.ohm" [0xFF]

def brokenArguments : List Text := ["generateBundles", "a.ohm"]

def brokenInvocation : Invocation := ⟨.unset, .generateBundles ["a.ohm"] false false⟩

theorem broken_read : Invocation.read brokenArguments = .ok brokenInvocation := by
  cbv

theorem broken_closed : ∀ t ∈ brokenArguments, CodePoint.char '\x00' ∉ t := by
  decide

theorem broken_named : brokenHost.Named where
  disk := by
    intro entry member
    obtain rfl := List.mem_singleton.mp member
    decide
  workdir := fun _ member => absurd member List.not_mem_nil

theorem broken_alone (path : Path) :
    (Config.documentPath (brokenInvocation.directory brokenHost) brokenInvocation.switches.config).on
      brokenHost ≠ (.ok (some path), brokenHost) := by
  have searched : (Config.documentPath (brokenInvocation.directory brokenHost)
      brokenInvocation.switches.config).on brokenHost = (.ok none, brokenHost) := by
    cbv
  rw [searched]
  intro same
  cases same

theorem broken_proper : ∀ exchange ∈ brokenHost.exchanges (Invocation.run brokenArguments brokenHost).2,
    Engine.Proper exchange := by
  have calls : (Invocation.run brokenArguments brokenHost).2.calls = [] := by cbv
  rw [Host.exchanges, calls]
  exact fun _ member => absurd member List.not_mem_nil

theorem internal_mistold_broken : Invocation.read brokenArguments = .ok brokenInvocation ∧
    ((Invocation.run brokenArguments brokenHost).1 ∈ told ∨
      (Invocation.run brokenArguments brokenHost).1 = .internal ∧
        Mistold brokenArguments brokenInvocation ["a.ohm"] false false brokenHost
          (Invocation.run brokenArguments brokenHost).2) :=
  ⟨broken_read, internal_mistold broken_read rfl broken_closed broken_named broken_alone broken_proper⟩

/-- A grammar file that is no text ends a run as an internal error, though the engine is not even asked. -/
theorem broken_source_internal :
    ¬∀ (arguments patterns : List Text) (i : Invocation) (withTypes esm : Bool) (host : Host),
      Invocation.read arguments = .ok i → i.command = .generateBundles patterns withTypes esm →
      (∀ t ∈ arguments, CodePoint.char '\x00' ∉ t) → host.Named →
      (∀ path, (Config.documentPath (i.directory host) i.switches.config).on host ≠
        (.ok (some path), host)) →
      (∀ exchange ∈ host.exchanges (Invocation.run arguments host).2, Engine.Proper exchange) →
      (Invocation.run arguments host).1 ≠ .internal := by
  intro never
  have internal : (Invocation.run brokenArguments brokenHost).1 = .internal := by cbv
  exact never brokenArguments ["a.ohm"] brokenInvocation false false brokenHost broken_read rfl
    broken_closed broken_named broken_alone broken_proper internal

end sample

end Command

end GrammarBundle
