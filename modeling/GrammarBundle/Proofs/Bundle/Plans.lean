import GrammarBundle.Proofs.Bundle.Deeds
import GrammarBundle.Proofs.Files.Extensions

/-!
Plans on disks. A plan of files that are no grammar files extends the disk that it is written on. If its
files have the same contents wherever they land in the same place, then writing it again changes nothing.
-/

namespace GrammarBundle

theorem Disk.setIn_same {place : Place} {node : Node} {entries : List (Place × Node)}
    (held : (entries.find? fun (p, _) => p = place).map (·.2) = some node) :
    setIn place node entries = entries := by
  induction entries with
  | nil => cases held
  | cons entry entries ih =>
    obtain ⟨p, old⟩ := entry
    by_cases here : p = place
    · rw [List.find?_cons_of_pos (by simpa using here)] at held
      cases held
      rw [setIn, if_pos here]
    · rw [List.find?_cons_of_neg (by simpa using here)] at held
      rw [setIn, if_neg here, ih held]

/-- A file that is overwritten with what it holds stays as it is. -/
theorem Disk.set_same {d : Disk} {place : Place} {bytes : List UInt8}
    (held : d.node? place = some (.file bytes)) : d.set place (.file bytes) = d := by
  unfold node? at held
  split at held
  · cases held
  · rw [set, setIn_same held]

namespace Bundle

variable {d d' : Disk} {workdir : Place} {base : Path} {plan rest : Plan} {entry : Text × Text}

/-- Where a file of a plan lands. -/
abbrev landing (d : Disk) (workdir : Place) (base : Path) (entry : Text × Text) :
    Except PathFault Place :=
  d.writePlace workdir (base.join entry.1).toText

/-- A plan whose files are no grammar files and have the same contents where they land together. -/
structure Plan.Coherent (d : Disk) (workdir : Place) (base : Path) (plan : Plan) : Prop where
  apart : ∀ entry ∈ plan, ∀ place, landing d workdir base entry = .ok place → ¬IsGrammarPlace place
  agree : ∀ entry ∈ plan, ∀ other ∈ plan, ∀ place, landing d workdir base entry = .ok place →
    landing d workdir base other = .ok place → entry.2 = other.2

/-- A file of a plan that is on the disk as it would be written. -/
def Settled (d : Disk) (workdir : Place) (base : Path) (entry : Text × Text) : Prop :=
  ∃ place bytes, landing d workdir base entry = .ok place ∧ Utf8.encode entry.2 = .ok bytes ∧
    d.node? place = some (.file bytes)

theorem applied_cons :
    Plan.applied workdir base (entry :: rest) d = some d' ↔
      ∃ place bytes, landing d workdir base entry = .ok place ∧ Utf8.encode entry.2 = .ok bytes ∧
        Plan.applied workdir base rest (d.set place (.file bytes)) = some d' := by
  rw [Plan.applied]
  constructor
  · intro applied
    split at applied
    next bytes place encoded lands => exact ⟨place, bytes, lands, encoded, applied⟩
    · cases applied
  · intro written
    obtain ⟨place, bytes, lands, encoded, applied⟩ := written
    unfold landing at lands
    rw [encoded, lands]
    exact applied

theorem Plan.Coherent.tail (coherent : Plan.Coherent d workdir base (entry :: rest))
    (linkless : d.Linkless) (grown : Disk.Grown d d') : Plan.Coherent d' workdir base rest := by
  have earlier {other : Text × Text} {place : Place}
      (lands : landing d' workdir base other = .ok place) : landing d workdir base other = .ok place :=
    (Disk.writePlace_grown linkless grown).mp lands
  constructor
  · intro other member place lands
    exact coherent.apart other (List.mem_cons_of_mem _ member) place (earlier lands)
  · intro one member other member' place lands lands'
    exact coherent.agree one (List.mem_cons_of_mem _ member) other (List.mem_cons_of_mem _ member')
      place (earlier lands) (earlier lands')

theorem encodable_of_applied (applied : Plan.applied workdir base plan d = some d') :
    ∀ entry ∈ plan, ∃ bytes, Utf8.encode entry.2 = .ok bytes := by
  induction plan generalizing d with
  | nil => exact fun _ member => absurd member List.not_mem_nil
  | cons first rest ih =>
    obtain ⟨place, bytes, _, encoded, later⟩ := applied_cons.mp applied
    intro entry member
    rcases List.mem_cons.mp member with rfl | inside
    · exact ⟨bytes, encoded⟩
    · exact ih later entry inside

theorem extended_of_applied (linkless : d.Linkless) (coherent : Plan.Coherent d workdir base plan)
    (applied : Plan.applied workdir base plan d = some d') : Disk.Extended d d' := by
  induction plan generalizing d with
  | nil =>
    cases applied
    exact Disk.Extended.refl _
  | cons first rest ih =>
    obtain ⟨place, bytes, lands, _, later⟩ := applied_cons.mp applied
    have step : Disk.Extended d (d.set place (.file bytes)) :=
      Disk.extended_of_writePlace linkless lands (coherent.apart first List.mem_cons_self place lands)
    exact step.trans (ih (step.grown.linkless linkless) (coherent.tail linkless step.grown) later)

/-- A file stays as it is while a plan is written, if what lands on it has its contents. -/
theorem kept_of_applied {place : Place} {bytes : List UInt8} (linkless : d.Linkless)
    (coherent : Plan.Coherent d workdir base plan)
    (applied : Plan.applied workdir base plan d = some d')
    (held : d.node? place = some (.file bytes))
    (same : ∀ entry ∈ plan, landing d workdir base entry = .ok place →
      Utf8.encode entry.2 = .ok bytes) :
    d'.node? place = some (.file bytes) := by
  induction plan generalizing d with
  | nil =>
    cases applied
    exact held
  | cons first rest ih =>
    obtain ⟨target, filled, lands, encoded, later⟩ := applied_cons.mp applied
    have step : Disk.Extended d (d.set target (.file filled)) :=
      Disk.extended_of_writePlace linkless lands (coherent.apart first List.mem_cons_self target lands)
    apply ih (step.grown.linkless linkless) (coherent.tail linkless step.grown) later
    · rw [Disk.node_set (Disk.node_of_writePlace linkless lands).1]
      split
      next here =>
        subst here
        have contents := same first List.mem_cons_self lands
        rw [encoded] at contents
        cases contents
        rfl
      · exact held
    · intro entry member lands'
      exact same entry (List.mem_cons_of_mem _ member)
        ((Disk.writePlace_grown linkless step.grown).mp lands')

theorem settled_of_applied (linkless : d.Linkless) (coherent : Plan.Coherent d workdir base plan)
    (applied : Plan.applied workdir base plan d = some d') :
    ∀ entry ∈ plan, Settled d' workdir base entry := by
  induction plan generalizing d with
  | nil => exact fun _ member => absurd member List.not_mem_nil
  | cons first rest ih =>
    have whole := extended_of_applied linkless coherent applied
    obtain ⟨place, bytes, lands, encoded, later⟩ := applied_cons.mp applied
    have step : Disk.Extended d (d.set place (.file bytes)) :=
      Disk.extended_of_writePlace linkless lands (coherent.apart first List.mem_cons_self place lands)
    have linkless' := step.grown.linkless linkless
    have remaining := coherent.tail linkless step.grown
    intro entry member
    rcases List.mem_cons.mp member with rfl | inside
    · refine ⟨place, bytes, (Disk.writePlace_grown linkless whole.grown).mpr lands, encoded, ?_⟩
      apply kept_of_applied linkless' remaining later
      · rw [Disk.node_set (Disk.node_of_writePlace linkless lands).1, if_pos rfl]
      · intro other member' lands'
        have first_lands := (Disk.writePlace_grown linkless step.grown).mp lands'
        rw [← coherent.agree entry member other (List.mem_cons_of_mem _ member') place lands
          first_lands]
        exact encoded
    · exact ih linkless' remaining later entry inside

theorem applied_of_settled (settled : ∀ entry ∈ plan, Settled d workdir base entry) :
    Plan.applied workdir base plan d = some d := by
  induction plan with
  | nil => rfl
  | cons first rest ih =>
    obtain ⟨place, bytes, lands, encoded, held⟩ := settled first List.mem_cons_self
    refine applied_cons.mpr ⟨place, bytes, lands, encoded, ?_⟩
    rw [Disk.set_same held]
    exact ih fun entry member => settled entry (List.mem_cons_of_mem _ member)

/-- A coherent plan that is written again changes nothing. -/
theorem applied_again (linkless : d.Linkless) (coherent : Plan.Coherent d workdir base plan)
    (applied : Plan.applied workdir base plan d = some d') :
    Plan.applied workdir base plan d' = some d' :=
  applied_of_settled (settled_of_applied linkless coherent applied)

/-- What a run writes is no grammar file. -/
theorem apart_of_ours {steps : List Step} {host : Host} {base : Option Text}
    (ours : ∀ step ∈ steps, Ours host base step.deed) :
    ∀ entry ∈ filesOf steps, ∀ place,
      landing host.disk host.workdir (Path.ofText (baseOf base)) entry = .ok place →
        ¬IsGrammarPlace place := by
  intro entry member place lands
  obtain ⟨step, inside, wrote⟩ := List.mem_filterMap.mp member
  have own := ours step inside
  cases written : step.deed with
  | request call =>
    rw [written] at wrote
    cases wrote
  | write filename contents =>
    rw [written] at wrote own
    cases wrote
    obtain ⟨file, ending, seat, bytes, rfl, known, source⟩ := own
    rw [landing, ← sourcePath_eq_join] at lands
    rw [source.outputs ending known place lands]
    exact not_grammar_beside known

/-- Steps that nothing stands in the way of are performed if their files can be written. -/
theorem performed_of_applied {steps : List Step} {host : Host} (ctx : Context) (written : List Path)
    (clear : ∀ step ∈ steps, step.obstacle = none)
    (applied : Plan.applied host.workdir base (filesOf steps) host.disk = some d') :
    ∃ final, (performAll steps).on ⟨host, .directory ctx base written⟩ = (.ok (), final) ∧
      final.host.disk = d' := by
  induction steps generalizing host written with
  | nil =>
    cases applied
    exact ⟨_, rfl, rfl⟩
  | cons step rest ih =>
    obtain ⟨obstacle, deed⟩ := step
    obtain rfl : obstacle = none := clear _ List.mem_cons_self
    have remaining : ∀ step ∈ rest, step.obstacle = none :=
      fun other member => clear other (List.mem_cons_of_mem _ member)
    cases deed with
    | request call => exact @ih (host.asked call) written remaining applied
    | write filename contents =>
      obtain ⟨place, bytes, lands, encoded, later⟩ := applied_cons.mp applied
      obtain ⟨errors, wrote⟩ := Emission.on_write_directory filename contents host ctx base written
      unfold landing at lands
      dsimp only at lands encoded
      rw [lands, encoded] at wrote
      obtain ⟨final, performed, disk⟩ := @ih
        { host with disk := host.disk.set place (.file bytes), errors }
        (written ++ [base.join filename]) remaining later
      exact ⟨final, performAll_cons_ok.mpr ⟨_, perform_ok_iff.mpr ⟨rfl, wrote⟩, performed⟩, disk⟩

end Bundle

end GrammarBundle
