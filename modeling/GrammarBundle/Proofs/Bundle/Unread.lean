import GrammarBundle.Proofs.Bundle.Runs
import GrammarBundle.Proofs.Pattern.Search

/-!
What a run does not read. The files that are no sources of a run may hold anything: on another disk with
the same names and the same sources, the run has the same agenda and comes to the same end.
-/

namespace GrammarBundle

/-- The host with another disk. -/
def Host.onDisk (host : Host) (disk : Disk) : Host := { host with disk }

namespace Disk

variable {d d' : Disk} {workdir place : Place} {t : Text}

theorem linkless_of_bare (same : d'.bare = d.bare) (linkless : d.Linkless) : d'.Linkless := by
  intro place target found
  have kept : (d.node? place).map Node.bare = some (.link target) := by
    rw [← node_bare, ← same, node_bare, found]
    rfl
  obtain ⟨node, held, kind⟩ := Option.map_eq_some_iff.mp kept
  cases node with
  | link other =>
    cases kind
    exact linkless place target held
  | file bytes => cases kind
  | directory => cases kind

/-- A file that holds the same is found on both disks. -/
theorem look_of_bare {bytes : List UInt8} (linkless : d.Linkless) (same : d'.bare = d.bare)
    (found : d.look workdir true t = .ok (place, .file bytes))
    (kept : d'.node? place = d.node? place) : d'.look workdir true t = .ok (place, .file bytes) := by
  have kinds : (d'.look workdir true t).map (fun found => (found.1, found.2.bare)) =
      .ok (place, .file []) := by
    rw [← look_bare, same, look_bare, found]
    rfl
  cases ended : d'.look workdir true t with
  | error fault =>
    rw [ended] at kinds
    cases kinds
  | ok other =>
    obtain ⟨place', node⟩ := other
    rw [ended] at kinds
    cases node with
    | file bytes' =>
      cases kinds
      have held := node_of_look (linkless_of_bare same linkless) ended
      rw [kept, node_of_look linkless found] at held
      cases held
      rfl
    | directory => cases kinds
    | link target => cases kinds

end Disk

namespace Bundle

open Emission (SameEnd on_bind)

variable {ctx : Context} {opts : Options} {host : Host} {other : Disk} {patterns files : List Text}

theorem expandFrom_bare (s : Pattern.Scope) (seen patterns : List Text) :
    expandFrom s.bare seen patterns = expandFrom s seen patterns := by
  induction patterns generalizing seen with
  | nil => rfl
  | cons pattern rest ih =>
    unfold expandFrom
    rw [Pattern.Scope.glob_bare]
    simp only [Pattern.freshFiles_bare, ih]

/-- Which files patterns match does not depend on what the files hold. -/
theorem expandPatterns_of_bare {workdir : Place} {base : Option Text}
    (same : other.bare = host.disk.bare) :
    expandPatterns other workdir patterns base = expandPatterns host.disk workdir patterns base := by
  have left := expandFrom_bare ⟨other, workdir, baseOf base⟩ []
    (patterns.flatMap Pattern.expandBraces)
  have right := expandFrom_bare ⟨host.disk, workdir, baseOf base⟩ []
    (patterns.flatMap Pattern.expandBraces)
  unfold expandPatterns
  rw [← left, ← right, Pattern.Scope.bare, Pattern.Scope.bare]
  dsimp only
  rw [same]

/-- A session without what was logged and without what files hold. -/
def Session.shape (session : Session) : Session :=
  ⟨{ session.host with disk := session.host.disk.bare, errors := [] }, session.sink⟩

/-- Runs that end in the same way, but for what was logged and what files hold. -/
def SameShape (one other : Except Failure Unit × Session) : Prop :=
  one.1 = other.1 ∧ one.2.shape = other.2.shape

theorem Session.shape_of_quiet {session session' : Session} (same : session'.quiet = session.quiet) :
    session'.shape = session.shape :=
  congrArg (fun quiet => Session.mk { quiet.host with disk := quiet.host.disk.bare } quiet.sink) same

theorem Session.of_shape {session session' : Session} (same : session'.shape = session.shape) :
    session'.host.disk.bare = session.host.disk.bare ∧
      session' = ⟨{ session.host with
        disk := session'.host.disk, errors := session'.host.errors }, session.sink⟩ :=
  ⟨congrArg (·.host.disk) same,
    congrArg (fun shape => Session.mk { shape.host with
      disk := session'.host.disk, errors := session'.host.errors } shape.sink) same⟩

/-- A deed comes to the same end whatever the files hold that are on the disk before it. -/
theorem deed_sameShape {deed : Deed} {session session' : Session}
    (same : session'.shape = session.shape) :
    SameShape (deed.perform.on session') (deed.perform.on session) := by
  obtain ⟨disks, whole⟩ := Session.of_shape same
  generalize session'.host.disk = disk at disks whole
  generalize session'.host.errors = errors at whole
  subst whole
  obtain ⟨host, sink⟩ := session
  have session_eq (disk disk' : Disk) (errors errors' : Text) (sink : Sink)
      (alike : disk.bare = disk'.bare) :
      Session.shape ⟨{ host with disk, errors }, sink⟩ =
        Session.shape ⟨{ host with disk := disk', errors := errors' }, sink⟩ :=
    congrArg (fun disk => Session.mk { host with disk, errors := [] } sink) alike
  cases deed with
  | request call =>
    rw [on_request, on_request]
    exact ⟨rfl, congrArg (fun disk => Session.mk { host.asked call with disk, errors := [] } sink)
      disks⟩
  | write filename contents =>
    cases sink with
    | plan plan => exact ⟨rfl, session_eq disk host.disk errors host.errors _ disks⟩
    | directory ctx base written =>
      obtain ⟨errors', left⟩ := Emission.on_write_directory filename contents
        { host with disk, errors } ctx base written
      obtain ⟨errors'', right⟩ := Emission.on_write_directory filename contents host ctx base written
      -- Where a write goes is settled by the names on the disk alone.
      have found : disk.writePlace host.workdir (base.join filename).toText =
          host.disk.writePlace host.workdir (base.join filename).toText := by
        rw [← Disk.writePlace_bare, disks, Disk.writePlace_bare]
      have put (place : Place) (bytes : List UInt8) :
          (disk.set place (.file bytes)).bare = (host.disk.set place (.file bytes)).bare := by
        rw [Disk.bare_set, Disk.bare_set, disks]
      unfold Deed.perform
      rw [left, right]
      dsimp only
      rw [found]
      cases host.disk.writePlace host.workdir (base.join filename).toText with
      | error fault => exact ⟨rfl, session_eq _ _ _ _ _ disks⟩
      | ok place =>
        cases Utf8.encode contents with
        | error fault => exact ⟨rfl, session_eq _ _ _ _ _ (put place [])⟩
        | ok bytes => exact ⟨rfl, session_eq _ _ _ _ _ (put place bytes)⟩

theorem performAll_sameShape {steps : List Step} {session session' : Session}
    (same : session'.shape = session.shape) :
    SameShape ((performAll steps).on session') ((performAll steps).on session) := by
  induction steps generalizing session session' with
  | nil => exact ⟨rfl, same⟩
  | cons step rest ih =>
    obtain ⟨obstacle, deed⟩ := step
    rw [performAll, on_bind, on_bind]
    cases obstacle with
    | some failure => exact ⟨rfl, same⟩
    | none =>
      have ends : SameShape (deed.perform.on session') (deed.perform.on session) :=
        deed_sameShape same
      unfold Step.perform
      dsimp only
      generalize deed.perform.on session' = left at ends
      generalize deed.perform.on session = right at ends
      obtain ⟨result, after⟩ := left
      obtain ⟨result', after'⟩ := right
      obtain ⟨rfl, later⟩ := ends
      cases result with
      | error failure => exact ⟨rfl, later⟩
      | ok _ => exact ih later

/-- Another disk on which all names are the same, and the grammar files among some files hold the same. -/
structure SameSources (opts : Options) (host : Host) (files : List Text) (other : Disk) : Prop where
  names : other.bare = host.disk.bare
  sources : ∀ file ∈ files.filter isGrammarFile, ∀ place,
    Denotes host opts.workdir file place → other.node? place = host.disk.node? place

theorem textOf_same {file : Text} {place : Place} {bytes : List UInt8}
    (linkless : host.disk.Linkless) (same : other.bare = host.disk.bare)
    (source : Source host.disk host.workdir opts.workdir file place bytes)
    (kept : other.node? place = host.disk.node? place) :
    textOf opts (host.onDisk other) file = textOf opts host file := by
  have found : other.look host.workdir true (sourcePath opts.workdir file).toText =
      .ok (place, .file bytes) := Disk.look_of_bare linkless same source.found kept
  have read : other.read host.workdir (sourcePath opts.workdir file).toText =
      host.disk.read host.workdir (sourcePath opts.workdir file).toText := by
    rw [Disk.read, Disk.read, found, source.found]
  unfold textOf
  rw [Action.on_readText, Action.on_readText]
  unfold Host.onDisk
  dsimp only
  rw [read]

theorem ready_same (same : other.bare = host.disk.bare) :
    Engine.ready (host.onDisk other) ctx = Engine.ready host ctx := by
  have looks : (other.look host.workdir true ctx.workdir.toText).map (fun found =>
      (found.1, found.2.bare)) = (host.disk.look host.workdir true ctx.workdir.toText).map
        fun found => (found.1, found.2.bare) := by
    rw [← Disk.look_bare, same, Disk.look_bare]
  unfold Engine.ready
  rw [Action.on_isDirectory, Action.on_isDirectory]
  unfold Host.onDisk
  dsimp only
  generalize other.look host.workdir true ctx.workdir.toText = found at looks
  generalize host.disk.look host.workdir true ctx.workdir.toText = found' at looks
  cases found with
  | error fault =>
    cases found' with
    | error fault' =>
      cases looks
      rfl
    | ok _ => cases looks
  | ok walked =>
    cases found' with
    | error fault' => cases looks
    | ok walked' =>
      obtain ⟨place, node⟩ := walked
      obtain ⟨place', node'⟩ := walked'
      cases node <;> cases node' <;> first | rfl | cases looks

theorem stepsOf_same {engine : Engine} {grammars : List Text}
    (texts : ∀ file ∈ grammars, textOf opts (host.onDisk other) file = textOf opts host file)
    (same : other.bare = host.disk.bare) :
    stepsOf ctx opts (host.onDisk other) engine grammars = stepsOf ctx opts host engine grammars :=
  stepsOf_congr rfl (ready_same same) texts

/-- A run does not depend on what files hold that are not among its sources. -/
theorem run_unread (linkless : host.disk.Linkless)
    (expanded : expandPatterns host.disk host.workdir patterns opts.workdir = .ok files)
    (same : SameSources opts host files other) :
    agenda ctx opts (host.onDisk other) host.engine files =
        agenda ctx opts host host.engine files ∧
      SameShape (generate ctx opts patterns (host.onDisk other)) (generate ctx opts patterns host) := by
  have again : expandPatterns other host.workdir patterns opts.workdir = .ok files :=
    (expandPatterns_of_bare same.names).trans expanded
  have texts : ∀ file ∈ files.filter isGrammarFile,
      textOf opts (host.onDisk other) file = textOf opts host file := by
    intro file member
    obtain ⟨place, bytes, source⟩ :=
      sourced_of_stands (stands_of_expanded linkless expanded) file member
    exact textOf_same linkless same.names source (same.sources file member place ⟨_, source.found⟩)
  have steps : agenda ctx opts (host.onDisk other) host.engine files =
      agenda ctx opts host host.engine files := stepsOf_same texts same.names
  have linkless' : (host.onDisk other).disk.Linkless := Disk.linkless_of_bare same.names linkless
  have first := run_performs ctx opts linkless' again
  have second := run_performs ctx opts linkless expanded
  have start : Session.shape ⟨host.onDisk other, defaultSink ctx opts⟩ =
      Session.shape ⟨host, defaultSink ctx opts⟩ :=
    congrArg (fun disk => Session.mk { host with disk, errors := [] } (defaultSink ctx opts)) same.names
  have ends : SameShape
      ((performAll (agenda ctx opts host host.engine files)).on
        ⟨host.onDisk other, defaultSink ctx opts⟩)
      ((performAll (agenda ctx opts host host.engine files)).on ⟨host, defaultSink ctx opts⟩) :=
    performAll_sameShape start
  change SameEnd _ ((performAll (agenda ctx opts (host.onDisk other) host.engine files)).on _) at first
  rw [steps] at first
  refine ⟨steps, first.1.trans (ends.1.trans second.1.symm), ?_⟩
  exact (Session.shape_of_quiet first.2).trans (ends.2.trans (Session.shape_of_quiet second.2).symm)

end Bundle

end GrammarBundle
