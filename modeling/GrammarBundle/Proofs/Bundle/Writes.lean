import GrammarBundle.Proofs.Bundle.Runs
import GrammarBundle.Proofs.Files.Resolved

/-!
Calls that write files below a directory, one after another. A call stores its contents, or it fails and
changes nothing, but for one case: contents that cannot be encoded leave the file that was opened for them
empty. So the paths that are listed as written are those of the calls that succeeded, and what lies at such a
path is what the last call left there that could open it.
-/

namespace GrammarBundle.Bundle

/-- A call that writes a file, with the sessions around it and how it ended. -/
structure Attempt where
  filename : Text
  contents : Text
  before : Session
  result : Except Failure Unit
  after : Session

def attempt (filename contents : Text) (session : Session) : Attempt :=
  let ended := (Emission.write filename contents).on session
  ⟨filename, contents, session, ended.1, ended.2⟩

/-- Calls one after another; one that fails does not stop those after it. -/
def attempts : List (Text × Text) → Session → List Attempt
  | [], _ => []
  | (filename, contents) :: rest, session =>
    let first := attempt filename contents session
    first :: attempts rest first.after

/-- The session after attempts. -/
def lastSession (session : Session) : List Attempt → Session
  | [] => session
  | first :: rest => lastSession first.after rest

namespace Attempt

def path (base : Path) (a : Attempt) : Path := base.join a.filename

/-- The place that the path of a call names. -/
def place (base : Path) (a : Attempt) : Place :=
  Disk.resolved a.before.host.workdir (a.path base).toText

/-- A call that succeeded: its file holds the contents, nothing else has changed, and its path is listed. -/
structure Stored (a : Attempt) (base : Path) (bytes : List UInt8) : Prop where
  result : a.result = .ok ()
  encoded : Utf8.encode a.contents = .ok bytes
  replaced : Disk.Replaced a.before.host.disk a.after.host.disk (a.place base) bytes
  reads : a.after.host.disk.read a.before.host.workdir (a.path base).toText = .ok bytes
  listed : a.after.sink.written = a.before.sink.written ++ [a.path base]

/-- A call whose contents cannot be encoded: its file is there and empty, nothing else has changed. -/
structure Emptied (a : Attempt) (base : Path) : Prop where
  refused : ∃ fault, Utf8.encode a.contents = .error fault ∧ a.result = .error (.unencodable fault)
  replaced : Disk.Replaced a.before.host.disk a.after.host.disk (a.place base) []
  listed : a.after.sink.written = a.before.sink.written

/-- A call that failed and changed nothing. -/
structure Untouched (a : Attempt) : Prop where
  failed : ∃ failure, a.result = .error failure
  disk : a.after.host.disk = a.before.host.disk
  listed : a.after.sink.written = a.before.sink.written

end Attempt

/-- The last one of some attempts that opened a place. -/
structure LastAt (base : Path) (place : Place) (made : List Attempt) (a : Attempt) : Prop where
  there : a.place base = place
  last : ∃ front back, made = front ++ a :: back ∧ ∀ b ∈ back, b.place base = place → b.Untouched

/-- What attempts leave at a place where something stood before them. -/
inductive Left (base : Path) (place : Place) (made : List Attempt) (before : Option Node) :
    Option Node → Prop
  | untouched : (∀ a ∈ made, a.place base = place → a.Untouched) → Left base place made before before
  | stored {a : Attempt} {bytes : List UInt8} : LastAt base place made a → a.Stored base bytes →
      Left base place made before (some (.file bytes))
  | emptied {a : Attempt} : LastAt base place made a → a.Emptied base →
      Left base place made before (some (.file []))

/-- What lies at the place of a path that is listed as written: the contents of the last call that could open
it, or nothing in the file, because that call's contents cannot be encoded. -/
inductive Lies (base : Path) (place : Place) (made : List Attempt) : Option Node → Prop
  | stored {a : Attempt} {bytes : List UInt8} : LastAt base place made a → a.Stored base bytes →
      Lies base place made (some (.file bytes))
  | emptied {a : Attempt} : LastAt base place made a → a.Emptied base →
      Lies base place made (some (.file []))

/-- A session that writes below a directory on a disk without links. -/
structure Session.Below (ctx : Context) (base : Path) (workdir : Place) (session : Session) : Prop where
  linkless : session.host.disk.Linkless
  workdir : session.host.workdir = workdir
  sink : ∃ written, session.sink = .directory ctx base written

section

variable {ctx : Context} {base : Path} {workdir place : Place} {session : Session} {a : Attempt}
  {made : List Attempt}

/-- How a call can end, and that calls can go on after it. -/
theorem attempt_cases (below : session.Below ctx base workdir) (filename contents : Text) :
    ((∃ bytes, (attempt filename contents session).Stored base bytes) ∨
      (attempt filename contents session).Emptied base ∨
      (attempt filename contents session).Untouched) ∧
    (attempt filename contents session).after.Below ctx base workdir := by
  obtain ⟨host, sink⟩ := session
  obtain ⟨linkless, rfl, written, rfl⟩ := below
  obtain ⟨errors, wrote⟩ := Emission.on_write_directory filename contents host ctx base written
  unfold attempt
  cases opened : host.disk.writePlace host.workdir (base.join filename).toText with
  | error fault =>
    rw [opened] at wrote
    dsimp only at wrote
    rw [wrote]
    exact ⟨.inr (.inr ⟨⟨_, rfl⟩, rfl, rfl⟩), linkless, rfl, written, rfl⟩
  | ok target =>
    have vacant := Disk.node_of_writePlace linkless opened
    have there := Disk.resolved_of_writePlace linkless opened
    rw [opened] at wrote
    dsimp only at wrote
    cases encoded : Utf8.encode contents with
    | error fault =>
      rw [encoded] at wrote
      dsimp only at wrote
      rw [wrote]
      have replaced := Disk.replaced_set [] vacant
      refine ⟨.inr (.inl ⟨⟨fault, encoded, rfl⟩, ?_, rfl⟩), replaced.linkless linkless, rfl, written, rfl⟩
      exact there ▸ replaced
    | ok bytes =>
      rw [encoded] at wrote
      dsimp only at wrote
      rw [wrote]
      have replaced := Disk.replaced_set bytes vacant
      refine ⟨.inl ⟨bytes, rfl, encoded, there ▸ replaced, ?_, rfl⟩, replaced.linkless linkless, rfl, _,
        rfl⟩
      exact Disk.read_replaced linkless replaced opened

theorem LastAt.cons (last : LastAt base place made a) (first : Attempt) :
    LastAt base place (first :: made) a := by
  obtain ⟨front, back, rfl, untouched⟩ := last.last
  exact ⟨last.there, first :: front, back, rfl, untouched⟩

/-- What attempts leave at a place after one more attempt in front of them. -/
theorem Left.cons {first : Attempt} {left : Option Node}
    (settled : (∃ bytes, first.Stored base bytes) ∨ first.Emptied base ∨ first.Untouched)
    (later : Left base place made (first.after.host.disk.node? place) left) :
    Left base place (first :: made) (first.before.host.disk.node? place) left := by
  cases later with
  | stored last stored => exact .stored (last.cons first) stored
  | emptied last emptied => exact .emptied (last.cons first) emptied
  | untouched untouched =>
    have last (there : first.place base = place) : LastAt base place (first :: made) first :=
      ⟨there, [], made, rfl, untouched⟩
    by_cases there : first.place base = place
    · rcases settled with ⟨bytes, stored⟩ | emptied | same
      · rw [stored.replaced.nodes, if_pos there.symm]
        exact .stored (last there) stored
      · rw [emptied.replaced.nodes, if_pos there.symm]
        exact .emptied (last there) emptied
      · rw [same.disk]
        exact .untouched (List.forall_mem_cons.mpr ⟨fun _ => same, untouched⟩)
    · have kept : first.after.host.disk.node? place = first.before.host.disk.node? place := by
        rcases settled with ⟨bytes, stored⟩ | emptied | same
        · rw [stored.replaced.nodes, if_neg (Ne.symm there)]
        · rw [emptied.replaced.nodes, if_neg (Ne.symm there)]
        · rw [same.disk]
      rw [kept]
      exact .untouched (List.forall_mem_cons.mpr ⟨fun same => absurd same there, untouched⟩)

theorem settled_of_attempts (below : session.Below ctx base workdir) (calls : List (Text × Text)) :
    ∀ a ∈ attempts calls session,
      (∃ bytes, a.Stored base bytes) ∨ a.Emptied base ∨ a.Untouched := by
  induction calls generalizing session with
  | nil => exact fun _ member => absurd member List.not_mem_nil
  | cons call rest ih =>
    obtain ⟨settled, next⟩ := attempt_cases below call.1 call.2
    exact List.forall_mem_cons.mpr ⟨settled, ih next⟩

theorem left_of_attempts (below : session.Below ctx base workdir) (calls : List (Text × Text))
    (place : Place) :
    Left base place (attempts calls session) (session.host.disk.node? place)
      ((lastSession session (attempts calls session)).host.disk.node? place) := by
  induction calls generalizing session with
  | nil => exact .untouched fun _ member => absurd member List.not_mem_nil
  | cons call rest ih =>
    obtain ⟨settled, next⟩ := attempt_cases below call.1 call.2
    exact .cons settled (ih next)

/-- The paths that are listed are those of the calls that succeeded, in order. -/
theorem written_of_attempts (below : session.Below ctx base workdir) (calls : List (Text × Text)) :
    (lastSession session (attempts calls session)).sink.written =
      session.sink.written ++
        ((attempts calls session).filter (·.result.isOk)).map (Attempt.path base) := by
  induction calls generalizing session with
  | nil => exact (List.append_nil _).symm
  | cons call rest ih =>
    obtain ⟨settled, next⟩ := attempt_cases below call.1 call.2
    have later := ih next
    rw [attempts, lastSession, later]
    rcases settled with ⟨bytes, stored⟩ | ⟨⟨fault, _, failed⟩, _, listed⟩ | ⟨⟨failure, failed⟩, _, listed⟩
    · rw [List.filter_cons_of_pos (by rw [stored.result]; rfl), stored.listed, List.append_assoc]
      rfl
    · rw [List.filter_cons_of_neg (by rw [failed]; exact Bool.false_ne_true), listed]
      rfl
    · rw [List.filter_cons_of_neg (by rw [failed]; exact Bool.false_ne_true), listed]
      rfl

theorem workdir_of_attempts (below : session.Below ctx base workdir) (calls : List (Text × Text)) :
    ∀ a ∈ attempts calls session, a.before.host.workdir = workdir := by
  induction calls generalizing session with
  | nil => exact fun _ member => absurd member List.not_mem_nil
  | cons call rest ih =>
    obtain ⟨_, next⟩ := attempt_cases below call.1 call.2
    exact List.forall_mem_cons.mpr ⟨below.workdir, ih next⟩

theorem Left.lies {before node : Option Node} (left : Left base place made before node)
    (inside : a ∈ made) (there : a.place base = place) (succeeded : a.result.isOk = true) :
    Lies base place made node := by
  cases left with
  | untouched untouched =>
    obtain ⟨failure, failed⟩ := (untouched a inside there).failed
    rw [failed] at succeeded
    cases succeeded
  | stored last stored => exact .stored last stored
  | emptied last emptied => exact .emptied last emptied

end

/-- Every call below a directory stores its contents, or changes nothing, or, where its contents cannot be
encoded, leaves the file empty that was opened for them. So after any calls the paths of those that succeeded
are listed in order, and every place holds what the last call left there that could open it. At the place of
a listed path that is a file with the contents of its last call that succeeded, or an empty one. -/
theorem attempts_settled {host : Host} (linkless : host.disk.Linkless) (ctx : Context)
    (base : Option Text) (calls : List (Text × Text)) :
    let path := (base.map Path.ofText).getD .here
    let made := attempts calls ⟨host, .under ctx base⟩
    let final := lastSession ⟨host, .under ctx base⟩ made
    (∀ a ∈ made, (∃ bytes, a.Stored path bytes) ∨ a.Emptied path ∨ a.Untouched) ∧
      final.sink.written = (made.filter (·.result.isOk)).map (Attempt.path path) ∧
      (∀ place, Left path place made (host.disk.node? place) (final.host.disk.node? place)) ∧
      ∀ written ∈ final.sink.written,
        Lies path (Disk.resolved host.workdir written.toText) made
          (final.host.disk.node? (Disk.resolved host.workdir written.toText)) := by
  intro path made final
  have below : Session.Below ctx path host.workdir ⟨host, .under ctx base⟩ :=
    ⟨linkless, rfl, [], rfl⟩
  have listed := written_of_attempts below calls
  have left := left_of_attempts below calls
  refine ⟨settled_of_attempts below calls, listed, left, fun written member => ?_⟩
  obtain ⟨a, inside, rfl⟩ := List.mem_map.mp (listed ▸ member)
  obtain ⟨inside, succeeded⟩ := List.mem_filter.mp inside
  have there : a.place path = Disk.resolved host.workdir (a.path path).toText :=
    congrArg (Disk.resolved · (a.path path).toText) (workdir_of_attempts below calls a inside)
  exact (left _).lies inside there succeeded

/-- A call that succeeds, and two on one file of which the second cannot be encoded. -/
def sampleCalls : List (Text × Text) :=
  [("c.js", "c"), ("note.txt", "new"), ("note.txt", [.char 'x', .ofNat 0xD800])]

theorem attempts_settled_sample : sampleHost.disk.Linkless ∧
    let made := attempts sampleCalls ⟨sampleHost, .under sampleContext none⟩
    let final := lastSession ⟨sampleHost, .under sampleContext none⟩ made
    (∀ a ∈ made, (∃ bytes, a.Stored .here bytes) ∨ a.Emptied .here ∨ a.Untouched) ∧
      final.sink.written = (made.filter (·.result.isOk)).map (Attempt.path .here) ∧
      (∀ place, Left .here place made (sampleHost.disk.node? place) (final.host.disk.node? place)) ∧
      ∀ written ∈ final.sink.written,
        Lies .here (Disk.resolved sampleHost.workdir written.toText) made
          (final.host.disk.node? (Disk.resolved sampleHost.workdir written.toText)) :=
  ⟨sample_linkless, attempts_settled sample_linkless sampleContext none sampleCalls⟩

/-- A call that fails because its contents cannot be encoded has emptied the file that was there. -/
theorem failed_call_empties :
    ¬∀ (host : Host) (ctx : Context) (base : Option Text) (filename contents : Text),
      host.disk.Linkless →
      (∃ bytes, (attempt filename contents ⟨host, .under ctx base⟩).Stored
          ((base.map Path.ofText).getD .here) bytes) ∨
        (attempt filename contents ⟨host, .under ctx base⟩).Untouched := by
  intro always
  let lone : Text := [.char 'x', .ofNat 0xD800]
  have failed : (attempt "note.txt" lone ⟨sampleHost, .under sampleContext none⟩).result.isOk = false := by
    cbv
  have emptied : (attempt "note.txt" lone ⟨sampleHost, .under sampleContext none⟩).after.host.disk.node?
      [Text.ofString "note.txt"] = some (.file []) := by
    cbv
  rcases always sampleHost sampleContext none "note.txt" lone sample_linkless with ⟨bytes, stored⟩ | same
  · rw [stored.result] at failed
    cases failed
  · rw [same.disk] at emptied
    cases emptied

end GrammarBundle.Bundle
