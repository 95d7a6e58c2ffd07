import GrammarBundle.Proofs.Bundle.Runs

/-!
Runs that stop. A run that fails on one of its sources has written the outputs of the sources before it,
and has touched nothing else but the outputs of that source.
-/

namespace GrammarBundle.Bundle

open Emission (SameEnd on_bind)

variable {ctx : Context} {opts : Options} {host : Host} {engine : Engine}
  {patterns files : List Text} {session final : Session}

/-- The place where a run writes an output. -/
def Lands (host : Host) (base : Option Text) (output : Text) (place : Place) : Prop :=
  host.disk.writePlace host.workdir (sourcePath base output).toText = .ok place

/-- Performed steps leave what they wrote, if no two of them write to one place. -/
theorem performed_holds {steps : List Step} (linkless : host.disk.Linkless)
    (ours : ∀ step ∈ steps, Ours host opts.workdir step.deed)
    (distinct : ∀ entry ∈ filesOf steps, ∀ other ∈ filesOf steps, ∀ place,
      Lands host opts.workdir entry.1 place → Lands host opts.workdir other.1 place → entry = other)
    (done : (performAll steps).on
      ⟨host, .directory ctx (Path.ofText (baseOf opts.workdir)) []⟩ = (.ok (), final)) :
    ∀ entry ∈ filesOf steps, ∃ place bytes, Lands host opts.workdir entry.1 place ∧
      Utf8.encode entry.2 = .ok bytes ∧ final.host.disk.node? place = some (.file bytes) := by
  have lands_iff (entry : Text × Text) (place : Place) :
      landing host.disk host.workdir (Path.ofText (baseOf opts.workdir)) entry = .ok place ↔
        Lands host opts.workdir entry.1 place := by
    rw [landing, ← sourcePath_eq_join, Lands]
  have coherent : Plan.Coherent host.disk host.workdir (Path.ofText (baseOf opts.workdir))
      (filesOf steps) := by
    constructor
    case apart => exact apart_of_ours ours
    case agree =>
      intro entry member other member' place lands lands'
      exact congrArg Prod.snd (distinct entry member other member' place
        ((lands_iff _ _).mp lands) ((lands_iff _ _).mp lands'))
  have applied := (performed_directory done).1
  have extended := extended_of_applied linkless coherent applied
  intro entry member
  obtain ⟨place, bytes, lands, encoded, held⟩ :=
    settled_of_applied linkless coherent applied entry member
  have first := (Disk.writePlace_grown linkless extended.grown).mp lands
  exact ⟨place, bytes, (lands_iff _ _).mp first, encoded, held⟩

/-- A run of steps that fails, fails in the steps for one of its files. -/
theorem stopped_at {grammars : List Text} {failure : Failure}
    (stopped : (performAll (stepsOf ctx opts host engine grammars)).on session =
      (.error failure, final)) :
    ∃ before current after left middle, grammars = before ++ current :: after ∧
      (performAll (stepsOf ctx opts host engine before)).on session = (.ok (), middle) ∧
      stepsOf ctx opts host engine (before ++ [current]) = stepsOf ctx opts host engine before ++
        (jobOf ctx opts host left current).steps ctx opts host ∧
      (performAll ((jobOf ctx opts host left current).steps ctx opts host)).on middle =
        (.error failure, final) := by
  induction grammars generalizing engine session with
  | nil => cases stopped
  | cons file rest ih =>
    rw [stepsOf_cons, performAll_append, on_bind] at stopped
    cases first : (performAll ((jobOf ctx opts host engine file).steps ctx opts host)).on session with
    | mk result next =>
      rw [first] at stopped
      cases result with
      | error cause =>
        cases stopped
        refine ⟨[], file, rest, engine, session, rfl, rfl, ?_, first⟩
        rw [List.nil_append, stepsOf_cons]
        exact List.append_nil _
      | ok _ =>
        obtain ⟨before, current, after, left, middle, rfl, performed, whole, failed⟩ := ih stopped
        refine ⟨file :: before, current, after, left, middle, rfl, ?_, ?_, failed⟩
        · rw [stepsOf_cons, performAll_append, on_bind, first]
          exact performed
        · rw [List.cons_append, stepsOf_cons, stepsOf_cons, whole, List.append_assoc]

/-- Files that stand in one place are one file. -/
def Apart (host : Host) (base : Option Text) (grammars : List Text) : Prop :=
  ∀ file ∈ grammars, ∀ other ∈ grammars, ∀ place,
    Denotes host base file place → Denotes host base other place → file = other

section outputs

variable {grammars : List Text} {file other output output' : Text} {place : Place}

/-- Outputs that land in one place are one output, if the sources are different files. -/
theorem lands_once (sources : Sourced host opts.workdir grammars)
    (apart : Apart host opts.workdir grammars) (member : file ∈ grammars)
    (member' : other ∈ grammars) (listed : output ∈ outputsOf opts file)
    (listed' : output' ∈ outputsOf opts other) (lands : Lands host opts.workdir output place)
    (lands' : Lands host opts.workdir output' place) : file = other ∧ output = output' := by
  obtain ⟨ending, known, rfl⟩ := mem_outputsOf listed
  obtain ⟨ending', known', rfl⟩ := mem_outputsOf listed'
  obtain ⟨seat, bytes, source⟩ := sources file member
  obtain ⟨seat', bytes', source'⟩ := sources other member'
  have same := (source.outputs ending known place lands).symm.trans
    (source'.outputs ending' known' place lands')
  obtain ⟨rfl, rfl⟩ := beside_inj source.some_place source'.some_place known known' same
  obtain rfl := apart file member other member' seat ⟨_, source.found⟩ ⟨_, source'.found⟩
  exact ⟨rfl, rfl⟩

theorem lands_apart (ctx : Context) (engine : Engine) (sources : Sourced host opts.workdir grammars)
    (apart : Apart host opts.workdir grammars) (nodup : grammars.Nodup) :
    ∀ entry ∈ filesOf (stepsOf ctx opts host engine grammars),
      ∀ other ∈ filesOf (stepsOf ctx opts host engine grammars), ∀ place,
        Lands host opts.workdir entry.1 place → Lands host opts.workdir other.1 place →
          entry = other := by
  have names : ((filesOf (stepsOf ctx opts host engine grammars)).map (·.1)).Nodup := by
    rw [names_of_steps]
    exact nodup_outputs nodup
  intro entry member other member' place lands lands'
  obtain ⟨file, inside, listed⟩ := output_of_entry member
  obtain ⟨file', inside', listed'⟩ := output_of_entry member'
  have same := (lands_once sources apart inside inside' listed listed' lands lands').2
  exact List.inj_on_of_nodup_map names member member' same

theorem not_lands_on_source (sources : Sourced host opts.workdir grammars) (member : file ∈ grammars)
    (denotes : Denotes host opts.workdir file place) (member' : other ∈ grammars)
    (listed : output ∈ outputsOf opts other) : ¬Lands host opts.workdir output place := by
  intro lands
  obtain ⟨seat, bytes, source⟩ := sources file member
  obtain ⟨node, found⟩ := denotes
  rw [source.found] at found
  cases found
  obtain ⟨ending, known, rfl⟩ := mem_outputsOf listed
  obtain ⟨seat', bytes', source'⟩ := sources other member'
  have lands_beside := source'.outputs ending known place lands
  exact not_grammar_beside known (lands_beside ▸ source.grammar)

end outputs

section steps

variable {grammars : List Text} {place : Place} {result : Except Failure Unit}

/-- The steps for sources change nothing but where the outputs land, wherever they stop. -/
theorem unchanged_steps (linkless : host.disk.Linkless) (sources : Sourced host opts.workdir grammars)
    (ran : (performAll (stepsOf ctx opts host host.engine grammars)).on
      ⟨host, .directory ctx (Path.ofText (baseOf opts.workdir)) []⟩ = (result, final))
    (free : ∀ file ∈ grammars, ∀ output ∈ outputsOf opts file,
      ¬Lands host opts.workdir output place) :
    final.host.disk.node? place = host.disk.node? place := by
  apply unchanged_performAll linkless (ours_steps _ _ sources) (follows_directory ctx) ran
  intro entry member
  obtain ⟨file, inside, listed⟩ := output_of_entry member
  exact free file inside entry.1 listed

/-- The steps for one source change nothing but where its outputs land. -/
theorem unchanged_job {left : Engine} {current : Text} {seat : Place} {bytes : List UInt8}
    (linkless : host.disk.Linkless) (follows : Follows ctx opts host engine session)
    (source : Source host.disk host.workdir opts.workdir current seat bytes)
    (ran : (performAll ((jobOf ctx opts host left current).steps ctx opts host)).on session =
      (result, final))
    (free : ∀ output ∈ outputsOf opts current, ¬Lands host opts.workdir output place) :
    final.host.disk.node? place = session.host.disk.node? place := by
  apply unchanged_performAll linkless (ours_job _ source) follows ran
  intro entry inside
  have named := List.mem_map_of_mem (f := Prod.fst) inside
  rw [names_of_job] at named
  exact free entry.1 named

/-- Steps for sources that are all performed leave every output with its contents. -/
theorem outputs_hold (linkless : host.disk.Linkless) (sources : Sourced host opts.workdir grammars)
    (apart : Apart host opts.workdir grammars) (nodup : grammars.Nodup)
    (done : (performAll (stepsOf ctx opts host host.engine grammars)).on
      ⟨host, .directory ctx (Path.ofText (baseOf opts.workdir)) []⟩ = (.ok (), final))
    {file output : Text} (member : file ∈ grammars) (listed : output ∈ outputsOf opts file) :
    ∃ contents place bytes,
      (output, contents) ∈ filesOf (stepsOf ctx opts host host.engine grammars) ∧
        Lands host opts.workdir output place ∧ Utf8.encode contents = .ok bytes ∧
        final.host.disk.node? place = some (.file bytes) := by
  obtain ⟨contents, entered⟩ := entry_of_output ctx host host.engine member listed
  obtain ⟨place, bytes, lands, encoded, held⟩ := performed_holds linkless (ours_steps _ _ sources)
    (lands_apart _ _ sources apart nodup) done _ entered
  exact ⟨contents, place, bytes, entered, lands, encoded, held⟩

end steps

/-- How a run stands when it has failed: on which source, and what it has done by then. -/
structure Stopped (ctx : Context) (opts : Options) (host : Host) (grammars before : List Text)
    (current : Text) (after : List Text) (whole final : Disk) : Prop where
  order : grammars = before ++ current :: after
  complete : ∀ file ∈ before, ∀ output ∈ outputsOf opts file, ∃ contents place bytes,
    (output, contents) ∈ filesOf (stepsOf ctx opts host host.engine before) ∧
      Lands host opts.workdir output place ∧ Utf8.encode contents = .ok bytes ∧
      whole.node? place = some (.file bytes) ∧ final.node? place = some (.file bytes)
  untouched : ∀ place, (∀ file ∈ before ++ [current], ∀ output ∈ outputsOf opts file,
    ¬Lands host opts.workdir output place) → final.node? place = host.disk.node? place
  pending : ∀ file ∈ after, ∀ output ∈ outputsOf opts file, ∀ place,
    Lands host opts.workdir output place → final.node? place = host.disk.node? place
  sources : ∀ file ∈ grammars, ∀ place, Denotes host opts.workdir file place →
    final.node? place = host.disk.node? place

/-- Steps for sources that fail damage nothing but the outputs of the source that they fail on. -/
theorem stopped_steps {grammars : List Text} {failure : Failure} (linkless : host.disk.Linkless)
    (sources : Sourced host opts.workdir grammars) (apart : Apart host opts.workdir grammars)
    (nodup : grammars.Nodup)
    (failed : (performAll (stepsOf ctx opts host host.engine grammars)).on
      ⟨host, .directory ctx (Path.ofText (baseOf opts.workdir)) []⟩ = (.error failure, final)) :
    ∃ before current after middle,
      (performAll (stepsOf ctx opts host host.engine before)).on
        ⟨host, .directory ctx (Path.ofText (baseOf opts.workdir)) []⟩ = (.ok (), middle) ∧
      (performAll (stepsOf ctx opts host host.engine (before ++ [current]))).on
        ⟨host, .directory ctx (Path.ofText (baseOf opts.workdir)) []⟩ = (.error failure, final) ∧
      Stopped ctx opts host grammars before current after middle.host.disk final.host.disk := by
  obtain ⟨before, current, after, left, middle, order, performed, steps, stopped⟩ :=
    stopped_at failed
  have whole : grammars = (before ++ [current]) ++ after := by simp [order]
  have front : ∀ file ∈ before ++ [current], file ∈ grammars := fun file member =>
    whole ▸ List.mem_append_left after member
  have first : ∀ file ∈ before, file ∈ grammars := fun file member =>
    front file (List.mem_append_left _ member)
  have here : current ∈ grammars := front current (by simp)
  have last : ∀ file ∈ after, file ∈ grammars := fun file member =>
    whole ▸ List.mem_append_right _ member
  have ran : (performAll (stepsOf ctx opts host host.engine (before ++ [current]))).on
      ⟨host, .directory ctx (Path.ofText (baseOf opts.workdir)) []⟩ = (.error failure, final) := by
    rw [steps, performAll_append, on_bind, performed]
    exact stopped
  have sourced : Sourced host opts.workdir before := fun file member => sources file (first file member)
  have untouched := fun place => @unchanged_steps ctx opts host final (before ++ [current]) place _
    linkless (fun file member => sources file (front file member)) ran
  -- An output before the failing source is kept by the source's own steps, one after it by all steps.
  obtain ⟨front_nodup, _, later⟩ := List.nodup_append.mp (whole ▸ nodup)
  obtain ⟨before_nodup, _, earlier⟩ := List.nodup_append.mp front_nodup
  refine ⟨before, current, after, middle, performed, ran, order, ?complete, untouched, ?pending,
    ?sources⟩
  case complete =>
    intro file member output listed
    obtain ⟨contents, place, bytes, entered, lands, encoded, held⟩ := outputs_hold linkless sourced
      (fun file member other member' => apart file (first file member) other (first other member'))
      before_nodup performed member listed
    obtain ⟨seat, filled, source⟩ := sources current here
    have follows := (follows_directory ctx).performedAll linkless (ours_steps _ _ sourced) performed
    have stays := unchanged_job linkless follows source stopped fun named listed' lands' =>
      earlier file member current List.mem_cons_self
        (lands_once sources apart (first file member) here listed listed' lands lands').1
    exact ⟨contents, place, bytes, entered, lands, encoded, held, stays.trans held⟩
  case pending =>
    intro file member output listed place lands
    apply untouched
    intro other inside output' listed' lands'
    exact later other inside file member
      (lands_once sources apart (front other inside) (last file member) listed' listed lands' lands).1
  case sources =>
    intro file member place denotes
    apply untouched
    intro other inside output listed
    exact not_lands_on_source sources member denotes (front other inside) listed

/-- A run that fails damages nothing but the outputs of the source that it fails on: the sources before
that one make a run of their own, whose outputs stay. -/
theorem aborted_damages_nothing_else {failure : Failure} (linkless : host.disk.Linkless)
    (onDisk : opts.dryRun = false)
    (expanded : expandPatterns host.disk host.workdir patterns opts.workdir = .ok files)
    (apart : ∀ file ∈ files.filter isGrammarFile, ∀ other ∈ files.filter isGrammarFile, ∀ place,
      Denotes host opts.workdir file place → Denotes host opts.workdir other place → file = other)
    (failed : generate ctx opts patterns host = (.error failure, final)) :
    ∃ before current after whole,
      (bundleFiles ctx opts before).on ⟨host, defaultSink ctx opts⟩ = (.ok (), whole) ∧
      ((bundleFiles ctx opts (before ++ [current])).on ⟨host, defaultSink ctx opts⟩).1 =
        .error failure ∧
      Stopped ctx opts host (files.filter isGrammarFile) before current after whole.host.disk
        final.host.disk := by
  have stand := stands_of_expanded linkless expanded
  have nodup : (files.filter isGrammarFile).Nodup := (expandPatterns_spec expanded).1.filter _
  have performs := run_performs ctx opts linkless expanded
  rw [failed, agenda, defaultSink_disk onDisk] at performs
  generalize ran : (performAll (stepsOf ctx opts host host.engine (files.filter isGrammarFile))).on
    ⟨host, .directory ctx (Path.ofText (baseOf opts.workdir)) []⟩ = performed at performs
  obtain ⟨result, final'⟩ := performed
  obtain ⟨rfl, quiet⟩ := performs
  obtain ⟨before, current, after, middle, good, bad, stopped⟩ :=
    stopped_steps linkless (sourced_of_stands stand) apart nodup ran
  have inside : ∀ file ∈ before ++ [current], file ∈ files.filter isGrammarFile := by
    intro file member
    rw [stopped.order, ← List.singleton_append, ← List.append_assoc]
    exact List.mem_append_left _ member
  have part {grammars : List Text} (within : ∀ file ∈ grammars, file ∈ before ++ [current]) :=
    grammars_perform ctx opts linkless
      (fun file member => stand file (List.mem_filter.mp (inside file (within file member))).1)
      fun file member => (List.mem_filter.mp (inside file (within file member))).2
  have first := part fun file member => List.mem_append_left [current] member
  have second := part fun file member => member
  rw [defaultSink_disk onDisk] at first second ⊢
  rw [good] at first
  rw [bad] at second
  generalize before_ran : (bundleFiles ctx opts before).on
    ⟨host, .directory ctx (Path.ofText (baseOf opts.workdir)) []⟩ = run at first
  obtain ⟨outcome, whole⟩ := run
  obtain ⟨rfl, same⟩ := first
  have disks : whole.host.disk = middle.host.disk := congrArg (·.host.disk) same
  have disks' : final.host.disk = final'.host.disk := congrArg (·.host.disk) quiet
  rw [← disks, ← disks'] at stopped
  exact ⟨before, current, after, whole, before_ran, second.1, stopped⟩

/-- The sample's host, where the engine is there for the first grammar file alone. -/
def haltingHost : Host := { sampleHost with engine := .script [steadyOutcome, steadyOutcome] }

theorem sample_apart : ∀ file ∈ sampleFiles.filter isGrammarFile,
    ∀ other ∈ sampleFiles.filter isGrammarFile, ∀ place,
      Denotes haltingHost sampleOptions.workdir file place →
        Denotes haltingHost sampleOptions.workdir other place → file = other := by
  have first : haltingHost.disk.look haltingHost.workdir true
      (sourcePath sampleOptions.workdir "a.ohm").toText =
        .ok ([Text.ofString "a.ohm"], .file [0x41]) := by
    cbv
  have second : haltingHost.disk.look haltingHost.workdir true
      (sourcePath sampleOptions.workdir "b.ohm").toText =
        .ok ([Text.ofString "b.ohm"], .file [0x42]) := by
    cbv
  have different : Text.ofString "a.ohm" ≠ Text.ofString "b.ohm" := by decide
  rw [sample_grammars, sampleGrammars]
  intro file member other member' place denotes denotes'
  obtain ⟨node, found⟩ := denotes
  obtain ⟨node', found'⟩ := denotes'
  simp only [List.mem_cons, List.not_mem_nil, or_false] at member member'
  rcases member with rfl | rfl <;> rcases member' with rfl | rfl
  · rfl
  · rw [first] at found
    rw [second] at found'
    have same := (Prod.mk.inj (Except.ok.inj found)).1.trans
      (Prod.mk.inj (Except.ok.inj found')).1.symm
    exact absurd (List.cons.inj same).1 different
  · rw [second] at found
    rw [first] at found'
    have same := (Prod.mk.inj (Except.ok.inj found')).1.trans
      (Prod.mk.inj (Except.ok.inj found)).1.symm
    exact absurd (List.cons.inj same).1 different
  · rfl

/-- The steps of a run on that host up to the answer that is not there. -/
def haltingSteps : List Step :=
  let job : Job := ⟨"a.ohm", .ok "A", .ok steadyCollection, .ok "// A"⟩
  job.steps sampleContext sampleOptions haltingHost ++
    [⟨none, .request (Engine.compileCall sampleContext haltingHost.engineScript "B")⟩]

/-- A run on that host has made the outputs of the first file when it fails. -/
theorem generate_halting :
    (generate sampleContext sampleOptions ["*"] haltingHost).1 = .error (.nodeMissing "node") := by
  have first : sourceOf sampleContext sampleOptions haltingHost "a.ohm" = .ok "A" := by cbv
  have second : sourceOf sampleContext sampleOptions haltingHost "b.ohm" = .ok "B" := by cbv
  obtain ⟨rest, deed, agreed⟩ : ∃ rest deed,
      agenda sampleContext sampleOptions haltingHost haltingHost.engine sampleFiles =
        haltingSteps ++ ⟨some (.nodeMissing "node"), deed⟩ :: rest := by
    rw [agenda, sample_grammars, sampleGrammars, stepsOf_cons,
      jobOf_steady first (fun _ => rfl) (fun _ _ => rfl), stepsOf_cons]
    unfold jobOf
    dsimp only
    rw [second]
    exact ⟨_, _, rfl⟩
  have clear : ∀ step ∈ haltingSteps, step.obstacle = none := by
    intro step member
    fin_cases member <;> rfl
  obtain ⟨disk, applied⟩ : ∃ disk, Plan.applied haltingHost.workdir
      (Path.ofText (baseOf sampleOptions.workdir)) (filesOf haltingSteps) haltingHost.disk = some disk := by
    apply Option.isSome_iff_exists.mp
    cbv
  obtain ⟨middle, performed, -⟩ := performed_of_applied sampleContext [] clear applied
  rw [← defaultSink_disk rfl] at performed
  exact generate_blocked sample_linkless sample_expanded agreed performed

theorem aborted_damages_nothing_else_sample :
    ∃ failure final, generate sampleContext sampleOptions ["*"] haltingHost = (.error failure, final) ∧
      ∃ before current after whole,
        (bundleFiles sampleContext sampleOptions before).on
          ⟨haltingHost, defaultSink sampleContext sampleOptions⟩ = (.ok (), whole) ∧
        ((bundleFiles sampleContext sampleOptions (before ++ [current])).on
          ⟨haltingHost, defaultSink sampleContext sampleOptions⟩).1 = .error failure ∧
        Stopped sampleContext sampleOptions haltingHost (sampleFiles.filter isGrammarFile) before
          current after whole.host.disk final.host.disk := by
  have failed : generate sampleContext sampleOptions ["*"] haltingHost =
      (.error (.nodeMissing "node"), (generate sampleContext sampleOptions ["*"] haltingHost).2) :=
    Prod.ext generate_halting rfl
  exact ⟨_, _, failed,
    aborted_damages_nothing_else sample_linkless rfl sample_expanded sample_apart failed⟩

end GrammarBundle.Bundle
