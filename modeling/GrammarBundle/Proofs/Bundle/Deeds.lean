import GrammarBundle.Proofs.Bundle.Performance

/-!
What performing steps does to a session. The calls are the requests in order; a plan takes the written
files and the disk stays as it was; below a directory the files are written on the disk one after the
other. A step that fails has an obstacle or is a write that the disk refuses.
-/

namespace GrammarBundle.Bundle

open Emission (on_bind)

def Deed.call? : Deed → Option Engine.Call
  | .request call => some call
  | .write _ _ => none

def Deed.file? : Deed → Option (Text × Text)
  | .request _ => none
  | .write filename contents => some (filename, contents)

def callsOf (steps : List Step) : List Engine.Call := steps.filterMap (·.deed.call?)

def filesOf (steps : List Step) : Plan := steps.filterMap (·.deed.file?)

/-- A plan with more files put into it in order. -/
def Plan.putAll (files plan : Plan) : Plan :=
  files.foldl (fun plan (name, contents) => Plan.put name contents plan) plan

/-- The disk with the files of a plan written below a base in order, if each of them can be. -/
def Plan.applied (workdir : Place) (base : Path) : Plan → Disk → Option Disk
  | [], d => some d
  | (name, contents) :: rest, d =>
    match Utf8.encode contents, d.writePlace workdir (base.join name).toText with
    | .ok bytes, .ok place => Plan.applied workdir base rest (d.set place (.file bytes))
    | _, _ => none

/-- A run of steps goes through all of them, or stops at the first one that fails. -/
theorem performAll_split {steps : List Step} {session final : Session}
    {result : Except Failure Unit} (ran : (performAll steps).on session = (result, final)) :
    ∃ done rest middle, steps = done ++ rest ∧ (performAll done).on session = (.ok (), middle) ∧
      ((rest = [] ∧ result = .ok () ∧ final = middle) ∨
        ∃ step more failure, rest = step :: more ∧ result = .error failure ∧
          step.perform.on middle = (.error failure, final)) := by
  induction steps generalizing session with
  | nil =>
    cases ran
    exact ⟨[], [], final, rfl, rfl, .inl ⟨rfl, rfl, rfl⟩⟩
  | cons step steps ih =>
    rw [performAll, on_bind] at ran
    cases first : step.perform.on session with
    | mk outcome next =>
      rw [first] at ran
      cases outcome with
      | error failure =>
        cases ran
        exact ⟨[], step :: steps, session, rfl, rfl, .inr ⟨step, steps, failure, rfl, rfl, first⟩⟩
      | ok _ =>
        obtain ⟨done, rest, middle, same, performed, ends⟩ := ih ran
        refine ⟨step :: done, rest, middle, by rw [same, List.cons_append], ?_, ends⟩
        exact performAll_cons_ok.mpr ⟨next, first, performed⟩

/-- No obstacle stands in the way of steps that are performed. -/
theorem clear_of_performed {steps : List Step} {session final : Session}
    (done : (performAll steps).on session = (.ok (), final)) :
    ∀ step ∈ steps, step.obstacle = none := by
  induction steps generalizing session with
  | nil => exact fun _ member => absurd member List.not_mem_nil
  | cons step rest ih =>
    obtain ⟨next, first, later⟩ := performAll_cons_ok.mp done
    intro other member
    rcases List.mem_cons.mp member with rfl | inside
    · exact (perform_ok_iff.mp first).1
    · exact ih later other inside

theorem on_request {call : Engine.Call} {session : Session} :
    (Deed.request call).perform.on session =
      (.ok (), { session with host := session.host.asked call }) := rfl

/-- A deed that fails is a write, and what was called before stays as it was. -/
theorem failed_deed {deed : Deed} {session final : Session} {failure : Failure}
    (failed : deed.perform.on session = (.error failure, final)) :
    ∃ filename contents, deed = .write filename contents := by
  cases deed with
  | request call => cases failed
  | write filename contents => exact ⟨filename, contents, rfl⟩

theorem calls_performed {steps : List Step} {session final : Session}
    (done : (performAll steps).on session = (.ok (), final)) :
    final.host.calls = session.host.calls ++ callsOf steps := by
  induction steps generalizing session with
  | nil =>
    cases done
    exact (List.append_nil _).symm
  | cons step rest ih =>
    obtain ⟨next, first, later⟩ := performAll_cons_ok.mp done
    obtain ⟨obstacle, deed⟩ := step
    obtain ⟨rfl, first⟩ := perform_ok_iff.mp first
    rw [ih later]
    cases deed with
    | request call =>
      rw [on_request] at first
      cases first
      exact List.append_assoc _ _ _
    | write filename contents =>
      obtain ⟨host, sink⟩ := session
      cases sink with
      | plan plan => cases first; rfl
      | directory ctx base written =>
        obtain ⟨place, bytes, errors, _, _, rfl⟩ := Emission.write_ok first
        rfl

/-- A plan takes the files of steps that nothing stands in the way of, and the disk stays. -/
theorem performed_plan {steps : List Step} (host : Host) (plan : Plan)
    (clear : ∀ step ∈ steps, step.obstacle = none) :
    ∃ final, (performAll steps).on ⟨host, .plan plan⟩ = (.ok (), final) ∧
      final.host.disk = host.disk ∧ final.sink = .plan (Plan.putAll (filesOf steps) plan) := by
  induction steps generalizing host plan with
  | nil => exact ⟨_, rfl, rfl, rfl⟩
  | cons step rest ih =>
    obtain ⟨obstacle, deed⟩ := step
    obtain rfl : obstacle = none := clear _ List.mem_cons_self
    have later (host : Host) (plan : Plan) := @ih host plan
      fun other member => clear other (List.mem_cons_of_mem _ member)
    cases deed with
    | request call => exact later (host.asked call) plan
    | write filename contents => exact later host (Plan.put filename contents plan)

/-- Steps that write to a plan leave the disk alone, wherever they stop. -/
theorem plan_harmless {steps : List Step} {host : Host} {plan : Plan} {final : Session}
    {result : Except Failure Unit}
    (ran : (performAll steps).on ⟨host, .plan plan⟩ = (result, final)) :
    final.host.disk = host.disk := by
  induction steps generalizing host plan with
  | nil =>
    cases ran
    rfl
  | cons step rest ih =>
    obtain ⟨obstacle, deed⟩ := step
    rw [performAll, on_bind] at ran
    cases obstacle with
    | some failure =>
      cases ran
      rfl
    | none =>
      cases deed with
      | request call => exact @ih (host.asked call) _ ran
      | write filename contents => exact @ih _ (Plan.put filename contents plan) ran

/-- Below a directory, performed steps have written their files on the disk. -/
theorem performed_directory {steps : List Step} {host : Host} {ctx : Context} {base : Path}
    {written : List Path} {final : Session}
    (done : (performAll steps).on ⟨host, .directory ctx base written⟩ = (.ok (), final)) :
    Plan.applied host.workdir base (filesOf steps) host.disk = some final.host.disk ∧
      final.host.workdir = host.workdir ∧
      final.sink = .directory ctx base (written ++ (filesOf steps).map (base.join ·.1)) := by
  induction steps generalizing host written with
  | nil =>
    cases done
    exact ⟨rfl, rfl, by simp [filesOf]⟩
  | cons step rest ih =>
    obtain ⟨next, first, later⟩ := performAll_cons_ok.mp done
    obtain ⟨obstacle, deed⟩ := step
    obtain ⟨rfl, first⟩ := perform_ok_iff.mp first
    cases deed with
    | request call =>
      rw [on_request] at first
      cases first
      exact @ih (host.asked call) _ later
    | write filename contents =>
      obtain ⟨place, bytes, errors, encoded, found, rfl⟩ := Emission.write_ok first
      obtain ⟨applied, workdir, sink⟩ := ih later
      refine ⟨?_, workdir, ?_⟩
      · change Plan.applied host.workdir base ((filename, contents) :: filesOf rest) host.disk = _
        rw [Plan.applied, encoded, found]
        exact applied
      · rw [sink, List.append_assoc]
        rfl

section frame

variable {ctx : Context} {opts : Options} {host : Host} {engine : Engine} {session final : Session}
  {result : Except Failure Unit} {place : Place}

/-- A deed changes nothing but the file that it writes. -/
theorem unchanged_deed {deed : Deed} (linkless : host.disk.Linkless)
    (follows : Follows ctx opts host engine session)
    (ran : deed.perform.on session = (result, final))
    (apart : ∀ entry, deed.file? = some entry → host.disk.writePlace host.workdir
      (sourcePath opts.workdir entry.1).toText ≠ .ok place) :
    final.host.disk.node? place = session.host.disk.node? place := by
  cases deed with
  | request call =>
    rw [on_request] at ran
    cases ran
    rfl
  | write filename contents =>
    obtain ⟨current, sink⟩ := session
    obtain ⟨grown, workdir, script, engine, ⟨files, rfl⟩ | ⟨written, rfl⟩⟩ := follows
    · cases ran
      rfl
    · have other {target : Place} {bytes : List UInt8}
          (found : current.disk.writePlace current.workdir
            ((Path.ofText (baseOf opts.workdir)).join filename).toText = .ok target) :
          (current.disk.set target (.file bytes)).node? place = current.disk.node? place := by
        rw [workdir, ← sourcePath_eq_join] at found
        have first := (Disk.writePlace_grown linkless grown).mp found
        have inside := (Disk.node_of_writePlace linkless first).1
        have different : place ≠ target := fun same =>
          apart (filename, contents) rfl (same ▸ first)
        rw [Disk.node_set inside, if_neg different]
      cases result with
      | ok _ =>
        obtain ⟨target, bytes, errors, _, found, rfl⟩ := Emission.write_ok ran
        exact other found
      | error failure =>
        obtain ⟨disk, errors, rfl, rfl | ⟨target, rfl, found⟩⟩ := Emission.write_error ran
        · rfl
        · exact other found

/-- Steps change nothing but the files that they write, wherever they stop. -/
theorem unchanged_performAll {steps : List Step} (linkless : host.disk.Linkless)
    (ours : ∀ step ∈ steps, Ours host opts.workdir step.deed)
    (follows : Follows ctx opts host engine session)
    (ran : (performAll steps).on session = (result, final))
    (apart : ∀ entry ∈ filesOf steps, host.disk.writePlace host.workdir
      (sourcePath opts.workdir entry.1).toText ≠ .ok place) :
    final.host.disk.node? place = session.host.disk.node? place := by
  induction steps generalizing engine session with
  | nil =>
    cases ran
    rfl
  | cons step rest ih =>
    obtain ⟨obstacle, deed⟩ := step
    have here := ours _ List.mem_cons_self
    have own : ∀ entry, deed.file? = some entry → host.disk.writePlace host.workdir
        (sourcePath opts.workdir entry.1).toText ≠ .ok place := by
      intro entry same
      exact apart entry (List.mem_filterMap.mpr ⟨_, List.mem_cons_self, same⟩)
    have later : ∀ entry ∈ filesOf rest, host.disk.writePlace host.workdir
        (sourcePath opts.workdir entry.1).toText ≠ .ok place := by
      intro entry member
      obtain ⟨other, inside, same⟩ := List.mem_filterMap.mp member
      exact apart entry (List.mem_filterMap.mpr ⟨other, List.mem_cons_of_mem _ inside, same⟩)
    rw [performAll, on_bind] at ran
    cases obstacle with
    | some failure =>
      cases ran
      rfl
    | none =>
      cases first : deed.perform.on session with
      | mk outcome next =>
        have performed : (Step.mk none deed).perform.on session = (outcome, next) := first
        rw [performed] at ran
        have same := unchanged_deed linkless follows first own
        cases outcome with
        | error failure =>
          cases ran
          exact same
        | ok _ =>
          exact (ih (fun other member => ours other (List.mem_cons_of_mem _ member))
            (follows.performed linkless here first) ran later).trans same

end frame

end GrammarBundle.Bundle
