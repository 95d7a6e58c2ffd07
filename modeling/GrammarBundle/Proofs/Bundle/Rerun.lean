import GrammarBundle.Proofs.Bundle.Rematched
import GrammarBundle.Proofs.Bundle.Runs

/-!
Runs made again. An engine with a rule answers the same request in the same way, so that sources in one
place have the same outputs. A run that succeeds therefore writes a coherent plan, and a run on the disk
that it leaves finds the same sources, makes the same requests and writes the same plan again.
-/

namespace GrammarBundle.Bundle

variable {ctx : Context} {opts : Options} {host later : Host} {engine : Engine}
  {answer : Engine.Call → Engine.Outcome} {patterns files grammars : List Text} {file other : Text}
  {place : Place} {bytes : List UInt8} {entry : Text × Text}

section job

/-- What a job writes to its output with an ending. -/
def Job.output (opts : Options) (job : Job) (ending : Text) : Text :=
  if ending = moduleEnding then
    renderModule (.ofEsm opts.esm) defaultRuntime (valueOf job.collection)
  else declarationText job.file (valueOf job.types)

theorem files_of_job {job : Job} (member : entry ∈ filesOf (job.steps ctx opts host)) :
    ∃ ending ∈ [moduleEnding, declarationEnding],
      entry = (job.file ++ ending, job.output opts ending) := by
  unfold Job.steps filesOf at member
  cases typed : opts.withTypes with
  | false =>
    rw [typed] at member
    obtain rfl := List.mem_singleton.mp member
    exact ⟨moduleEnding, List.mem_cons_self, rfl⟩
  | true =>
    rw [typed] at member
    rcases List.mem_cons.mp member with rfl | declared
    · exact ⟨moduleEnding, List.mem_cons_self, rfl⟩
    · obtain rfl := List.mem_singleton.mp declared
      exact ⟨declarationEnding, by simp, rfl⟩

theorem collected_of_clear {job : Job}
    (clear : ∀ step ∈ job.steps ctx opts host, step.obstacle = none) :
    ∃ c, job.collection = .ok c := by
  have none : obstacleOf job.collection = none :=
    clear _ (List.mem_cons_of_mem _ List.mem_cons_self)
  cases collected : job.collection with
  | ok c => exact ⟨c, rfl⟩
  | error failure =>
    rw [collected] at none
    cases none

theorem compiled_of_inOrder {compiled : Except Failure Collection} {c : Collection}
    (ordered : inOrder file compiled = .ok c) : compiled = .ok c := by
  unfold inOrder at ordered
  split at ordered
  · cases ordered
  · split at ordered
    · cases ordered
    · exact ordered

theorem textOf_same_place (source : Source host.disk host.workdir opts.workdir file place bytes)
    (source' : Source host.disk host.workdir opts.workdir other place bytes) :
    textOf opts host file = textOf opts host other := by
  unfold textOf
  rw [Action.on_readText, Action.on_readText, Disk.read, Disk.read, source.found, source'.found]

/-- Sources in one place are compiled to one collection, and have the same types. -/
theorem jobOf_same_place
    (source : Source host.disk host.workdir opts.workdir file place bytes)
    (source' : Source host.disk host.workdir opts.workdir other place bytes)
    {c c' : Collection} (collected : (jobOf ctx opts host engine file).collection = .ok c)
    (collected' : (jobOf ctx opts host engine other).collection = .ok c') :
    (jobOf ctx opts host engine file).collection = (jobOf ctx opts host engine other).collection ∧
      (jobOf ctx opts host engine file).types = (jobOf ctx opts host engine other).types := by
  have sources : sourceOf ctx opts host file = sourceOf ctx opts host other := by
    unfold sourceOf
    rw [textOf_same_place source source']
  have collections : (jobOf ctx opts host engine file).collection =
      (jobOf ctx opts host engine other).collection := by
    have first := compiled_of_inOrder collected
    have second := compiled_of_inOrder collected'
    rw [sources, second] at first
    rw [collected, collected', first]
  refine ⟨collections, ?_⟩
  unfold jobOf at collections ⊢
  dsimp only at collections ⊢
  rw [collections, sources]

/-- The name of a source can be written only if it is the name that its directory lists. -/
theorem name_of_declared {types : Text} {encoding : List UInt8} (linkless : host.disk.Linkless)
    (grammar : isGrammarFile file = true)
    (source : Source host.disk host.workdir opts.workdir file place bytes)
    (encoded : Utf8.encode (declarationText file types) = .ok encoding) :
    (Path.ofText file).name = place.getLastD [] := by
  obtain ⟨stem, _, named⟩ := name_of_grammar grammar
  have free := Utf8.surrogateFree_of_encode encoded
  have some_name : (Path.ofText file).name.isEmpty = false := by simp [named]
  simp only [declarationText, Text.join, banner, some_name, Bool.not_false, Text.onlyIf, if_true,
    Text.surrogateFree_append] at free
  obtain ⟨⟨⟨⟨-, -, free_name⟩, -⟩, -⟩, -⟩ := free
  rw [name_of_source linkless grammar source, FileName.canonical, if_pos free_name]

/-- Outputs of sources in one place are the same, if they can be written. -/
theorem output_same_place {ending : Text} {encoding encoding' : List UInt8}
    (linkless : host.disk.Linkless) (grammar : isGrammarFile file = true)
    (grammar' : isGrammarFile other = true)
    (source : Source host.disk host.workdir opts.workdir file place bytes)
    (source' : Source host.disk host.workdir opts.workdir other place bytes)
    {c c' : Collection} (collected : (jobOf ctx opts host engine file).collection = .ok c)
    (collected' : (jobOf ctx opts host engine other).collection = .ok c')
    (encoded : Utf8.encode ((jobOf ctx opts host engine file).output opts ending) = .ok encoding)
    (encoded' : Utf8.encode ((jobOf ctx opts host engine other).output opts ending) =
      .ok encoding') :
    (jobOf ctx opts host engine file).output opts ending =
      (jobOf ctx opts host engine other).output opts ending := by
  obtain ⟨collections, types⟩ := jobOf_same_place source source' collected collected'
  unfold Job.output at encoded encoded' ⊢
  split
  · rw [collections]
  next declared =>
    rw [if_neg declared] at encoded encoded'
    have name : (Path.ofText file).name = (Path.ofText other).name :=
      (name_of_declared linkless grammar source encoded).trans
        (name_of_declared linkless grammar' source' encoded').symm
    have files : (jobOf ctx opts host engine file).file = file := rfl
    have others : (jobOf ctx opts host engine other).file = other := rfl
    rw [types, files, others, declarationText, declarationText, name]

end job

section plan

theorem output_of_steps
    (member : entry ∈ filesOf (stepsOf ctx opts host (.rule answer) grammars)) :
    ∃ file ∈ grammars, ∃ ending ∈ [moduleEnding, declarationEnding],
      entry = (file ++ ending, (jobOf ctx opts host (.rule answer) file).output opts ending) := by
  rw [stepsOf_rule, filesOf, List.filterMap_flatMap, List.mem_flatMap] at member
  obtain ⟨file, inside, member⟩ := member
  obtain ⟨ending, known, rfl⟩ := files_of_job member
  exact ⟨file, inside, ending, known, rfl⟩

theorem collected_of_steps
    (clear : ∀ step ∈ stepsOf ctx opts host (.rule answer) grammars, step.obstacle = none)
    (member : file ∈ grammars) :
    ∃ c, (jobOf ctx opts host (.rule answer) file).collection = .ok c := by
  have clear_job : ∀ step ∈ (jobOf ctx opts host (.rule answer) file).steps ctx opts host,
      step.obstacle = none := by
    intro step inside
    apply clear
    rw [stepsOf_rule]
    exact List.mem_flatMap.mpr ⟨file, member, inside⟩
  exact collected_of_clear clear_job

/-- Steps under a rule that can all be done write a coherent plan. -/
theorem coherent_steps (linkless : host.disk.Linkless)
    (sources : Sourced host opts.workdir grammars)
    (kinds : ∀ file ∈ grammars, isGrammarFile file = true)
    (clear : ∀ step ∈ stepsOf ctx opts host (.rule answer) grammars, step.obstacle = none)
    (encodable : ∀ entry ∈ filesOf (stepsOf ctx opts host (.rule answer) grammars),
      ∃ bytes, Utf8.encode entry.2 = .ok bytes) :
    Plan.Coherent host.disk host.workdir (Path.ofText (baseOf opts.workdir))
      (filesOf (stepsOf ctx opts host (.rule answer) grammars)) := by
  constructor
  case apart => exact apart_of_ours (ours_steps ctx _ sources)
  case agree =>
    intro entry member other member' place lands lands'
    obtain ⟨bytes, encoded⟩ := encodable entry member
    obtain ⟨bytes', encoded'⟩ := encodable other member'
    obtain ⟨file, inside, ending, known, rfl⟩ := output_of_steps member
    obtain ⟨file', inside', ending', known', rfl⟩ := output_of_steps member'
    obtain ⟨seat, held, source⟩ := sources file inside
    obtain ⟨seat', held', source'⟩ := sources file' inside'
    rw [landing, ← sourcePath_eq_join] at lands lands'
    -- An output that lands beside a source tells the source and its ending.
    have same := (source.outputs ending known place lands).symm.trans
      (source'.outputs ending' known' place lands')
    obtain ⟨rfl, rfl⟩ := beside_inj source.some_place source'.some_place known known' same
    obtain rfl : held = held' := by
      have first := Disk.node_of_look linkless source.found
      rw [Disk.node_of_look linkless source'.found] at first
      cases first
      rfl
    obtain ⟨c, collected⟩ := collected_of_steps clear inside
    obtain ⟨c', collected'⟩ := collected_of_steps clear inside'
    exact output_same_place linkless (kinds file inside) (kinds file' inside') source source' collected
      collected' encoded encoded'

end plan

/-- A host on which a run starts with a given disk, from the place and with the engine of another host. -/
structure Resumes (host : Host) (disk : Disk) (later : Host) : Prop where
  disk : later.disk = disk
  workdir : later.workdir = host.workdir
  script : later.engineScript = host.engineScript
  engine : later.engine = host.engine

theorem stepsOf_resumed {disk : Disk} (linkless : host.disk.Linkless)
    (sources : Sourced host opts.workdir grammars) (grown : Disk.Grown host.disk disk)
    (resumes : Resumes host disk later) :
    stepsOf ctx opts later later.engine grammars = stepsOf ctx opts host host.engine grammars := by
  have grown_later : Disk.Grown host.disk later.disk := resumes.disk ▸ grown
  rw [resumes.engine]
  apply stepsOf_congr resumes.script
  · exact Engine.ready_grown later linkless grown_later resumes.workdir
  · intro file member
    obtain ⟨place, bytes, source⟩ := sources file member
    have read := on_readSource ⟨later, .plan []⟩ linkless source grown_later resumes.workdir
    exact congrArg (·.1) read

theorem expanded_of_ok {final : Session} (done : generate ctx opts patterns host = (.ok (), final)) :
    ∃ files, expandPatterns host.disk host.workdir patterns opts.workdir = .ok files := by
  cases expanded : expandPatterns host.disk host.workdir patterns opts.workdir with
  | ok files => exact ⟨files, rfl⟩
  | error fault =>
    have stops : generate ctx opts patterns host = _ := on_bundlePatterns_error expanded
    rw [stops] at done
    cases done

/-- A run that succeeds makes its calls and writes a coherent plan. -/
theorem run_writes {final : Session} (linkless : host.disk.Linkless) (onDisk : opts.dryRun = false)
    (ruled : host.engine = .rule answer)
    (expanded : expandPatterns host.disk host.workdir patterns opts.workdir = .ok files)
    (done : generate ctx opts patterns host = (.ok (), final)) :
    (∀ step ∈ agenda ctx opts host host.engine files, step.obstacle = none) ∧
      final.host.calls = host.calls ++ callsOf (agenda ctx opts host host.engine files) ∧
      Plan.applied host.workdir (Path.ofText (baseOf opts.workdir))
        (filesOf (agenda ctx opts host host.engine files)) host.disk = some final.host.disk ∧
      Plan.Coherent host.disk host.workdir (Path.ofText (baseOf opts.workdir))
        (filesOf (agenda ctx opts host host.engine files)) := by
  have performs := run_performs ctx opts linkless expanded
  rw [done, defaultSink_disk onDisk] at performs
  generalize performed : (performAll (agenda ctx opts host host.engine files)).on _ = run at performs
  obtain ⟨result, last⟩ := run
  have disks : final.host.disk = last.host.disk := performs.disk
  have calls : final.host.calls = last.host.calls := performs.calls
  obtain ⟨rfl, -⟩ := performs
  have clear := clear_of_performed performed
  have applied := (performed_directory performed).1
  rw [disks, calls]
  refine ⟨clear, calls_performed performed, applied, ?_⟩
  have encodable := encodable_of_applied applied
  unfold agenda at clear encodable ⊢
  rw [ruled] at clear encodable ⊢
  exact coherent_steps linkless (sourced_of_stands (stands_of_expanded linkless expanded))
    (fun file member => (List.mem_filter.mp member).2) clear encodable

/-- A run that is made again makes the same requests in the same order and changes nothing. -/
theorem generate_again {final : Session} (linkless : host.disk.Linkless)
    (onDisk : opts.dryRun = false) (ruled : host.engine = .rule answer)
    (done : generate ctx opts patterns host = (.ok (), final))
    (resumes : Resumes host final.host.disk later) :
    ∃ requests again, final.host.calls = host.calls ++ requests ∧
      generate ctx opts patterns later = (.ok (), again) ∧
      again.host.calls = later.calls ++ requests ∧ again.host.disk = final.host.disk := by
  obtain ⟨files, expanded⟩ := expanded_of_ok done
  obtain ⟨clear, calls, applied, coherent⟩ := run_writes linkless onDisk ruled expanded done
  have extended := extended_of_applied linkless coherent applied
  -- The outputs may be matched now, but no output is a grammar file: the agenda is the one of the first run.
  obtain ⟨files', expanded', same⟩ := expandPatterns_extended linkless extended expanded
  have steps : agenda ctx opts later later.engine files' =
      agenda ctx opts host host.engine files := by
    unfold agenda
    rw [same]
    exact stepsOf_resumed linkless (sourced_of_stands (stands_of_expanded linkless expanded))
      extended.grown resumes
  obtain ⟨disk, workdir, script, engine⟩ := resumes
  have linkless' : later.disk.Linkless := disk ▸ extended.grown.linkless linkless
  have expanded_later :
      expandPatterns later.disk later.workdir patterns opts.workdir = .ok files' := by
    rw [disk, workdir]
    exact expanded'
  have writable : Plan.applied later.workdir (Path.ofText (baseOf opts.workdir))
      (filesOf (agenda ctx opts host host.engine files)) later.disk = some final.host.disk := by
    rw [disk, workdir]
    exact applied_again linkless coherent applied
  have performs := run_performs ctx opts linkless' expanded_later
  obtain ⟨last, performed, unchanged⟩ := performed_of_applied ctx [] clear writable
  rw [steps, defaultSink_disk onDisk, performed] at performs
  refine ⟨_, (generate ctx opts patterns later).2, calls, Prod.ext performs.1 rfl, ?_, ?_⟩
  · exact performs.calls.trans (calls_performed performed)
  · exact performs.disk.trans unchanged

section sample

theorem done_steady :
    generate sampleContext sampleOptions ["**/*"] steadyHost =
      (.ok (), (generate sampleContext sampleOptions ["**/*"] steadyHost).2) := by
  have expanded : expandPatterns steadyHost.disk steadyHost.workdir ["**/*"] none = .ok sampleFiles := by
    cbv
  exact Prod.ext (written_steady expanded) rfl

/-- A run on everything below the directory is made again, where it finds its own outputs. -/
theorem generate_again_everything :
    ∃ final, steadyHost.disk.Linkless ∧ sampleOptions.dryRun = false ∧
      steadyHost.engine = .rule (fun _ => steadyOutcome) ∧
      generate sampleContext sampleOptions ["**/*"] steadyHost = (.ok (), final) ∧
      Resumes steadyHost final.host.disk { steadyHost with disk := final.host.disk } ∧
      ∃ requests again, final.host.calls = steadyHost.calls ++ requests ∧
        generate sampleContext sampleOptions ["**/*"] { steadyHost with disk := final.host.disk } =
          (.ok (), again) ∧
        again.host.calls = steadyHost.calls ++ requests ∧ again.host.disk = final.host.disk :=
  ⟨_, sample_linkless, rfl, rfl, done_steady, ⟨rfl, rfl, rfl, rfl⟩,
    generate_again sample_linkless rfl rfl done_steady ⟨rfl, rfl, rfl, rfl⟩⟩

end sample

end GrammarBundle.Bundle
