import Mathlib
import GrammarBundle.Proofs.Bundle.ExactWork
import GrammarBundle.Proofs.Bundle.Matches
import GrammarBundle.Proofs.Bundle.Rematched
import GrammarBundle.Proofs.Pattern.Descents

/-!
Spellings of one file. Expanding patterns tells files apart by the texts that lead to them, so that a file is
listed once in each spelling that is matched. Patterns that only go down spell every file in one way; with
them no file is listed twice, and a run compiles no source and writes no output twice.
-/

namespace GrammarBundle

/-- The text of a file has a last name, also if it is written below a base. -/
theorem Disk.text_of_isFile {d : Disk} {workdir : Place} {base t : Text} (linkless : d.Linkless)
    (some_base : base ≠ []) (file : d.isFile workdir (Text.joinPath base t) = true) :
    t ≠ [] ∧ t.getLast? ≠ some slash := by
  obtain ⟨place, bytes, ends⟩ := walkPath_of_isFile file
  have found : d.look workdir true (Text.joinPath base t) = .ok (place, .file bytes) := by
    rw [look, ends]
  obtain ⟨front, name, directory, names, stay, _⟩ := name_of_look linkless found
  have closed := (pieces_of_namesOf stay names).2.1
  have some_text : t ≠ [] := by
    rintro rfl
    apply closed
    unfold Text.joinPath
    rw [if_neg (by simp)]
    split
    next ends =>
      rw [List.append_nil]
      exact ends.resolve_left some_base
    · rw [List.append_nil]
      exact List.getLast?_concat
  rw [Text.getLast?_joinPath some_text] at closed
  exact ⟨some_text, closed⟩

theorem Disk.hasEntry_of_isFile {d : Disk} {workdir : Place} {t : Text} (linkless : d.Linkless)
    (file : d.isFile workdir t = true) : d.hasEntry workdir t = true := by
  obtain ⟨place, bytes, ends⟩ := walkPath_of_isFile file
  rw [hasEntry, look_follow linkless, look, ends]
  rfl

namespace Pattern

/-- A pattern that is matched as it is written. -/
def Literal (pattern : Text) : Prop := hasWild pattern = false ∧ group? pattern = none

variable {s : Scope} {pattern : Text} {patterns : List Text}

theorem name_of_closed (some_text : pattern ≠ []) (closed : pattern.getLast? ≠ some slash) :
    (splitLast pattern).2 ≠ [] := by
  obtain ⟨front, p, rfl⟩ := List.eq_nil_or_concat pattern |>.resolve_left some_text
  rw [List.concat_eq_append] at closed ⊢
  rw [List.getLast?_concat] at closed
  have other : p ≠ .char '/' := fun same => closed (congrArg some same)
  simp [splitLast, other]

/-- A literal pattern matches the file that it spells. -/
theorem glob_literal (linkless : s.disk.Linkless) (some_base : s.base ≠ [])
    (plain : hasWild pattern = false) :
    ∃ found, s.glob pattern = .ok found ∧ found.filter s.isFile = [pattern].filter s.isFile := by
  have proper : s.isFile [] = false := by
    rw [← Bool.not_eq_true]
    intro file
    exact (Disk.text_of_isFile linkless some_base file).1 rfl
  cases searched : s.search false pattern with
  | error fault =>
    rw [Scope.search.eq_def] at searched
    simp only [plain, Bool.not_false, if_true] at searched
    cases searched
  | ok all =>
    obtain ⟨found, matched, kept⟩ := Scope.glob_of_search proper searched
    refine ⟨found, matched, kept.trans ?_⟩
    rw [Scope.search.eq_def] at searched
    simp only [plain, Bool.not_false, if_true] at searched
    cases searched
    by_cases file : s.isFile pattern = true
    · obtain ⟨some_text, closed⟩ := Disk.text_of_isFile linkless some_base file
      have there := Disk.hasEntry_of_isFile linkless file
      rw [← joined_eq_joinPath some_base some_text] at there
      rw [if_neg (name_of_closed some_text closed), if_pos there]
    · have none_kept : [pattern].filter s.isFile = [] := List.filter_cons_of_neg file
      rw [none_kept, List.filter_eq_nil_iff]
      intro t member
      have same : t = pattern := by
        split at member
        all_goals
          split at member
          · exact List.mem_singleton.mp member
          · cases member
      rwa [same]

theorem globAll_literal (linkless : s.disk.Linkless) (some_base : s.base ≠ [])
    (plain : ∀ pattern ∈ patterns, hasWild pattern = false) :
    ∃ found, s.globAll patterns = .ok found ∧ found.filter s.isFile = patterns.filter s.isFile := by
  induction patterns with
  | nil => exact ⟨[], rfl, rfl⟩
  | cons pattern rest ih =>
    obtain ⟨here, matched, kept⟩ := glob_literal linkless some_base (plain pattern List.mem_cons_self)
    obtain ⟨more, others, kept'⟩ := ih fun other member => plain other (List.mem_cons_of_mem _ member)
    refine ⟨here ++ more, ?_, ?_⟩
    · rw [Scope.globAll, matched, others]
      rfl
    · rw [List.filter_append, kept, kept', ← List.filter_append, List.singleton_append]

end Pattern

namespace Bundle

open Pattern (Literal expandBraces)

/-- The place that a file's text names, whatever way it is spelled. -/
def placeOf (workdir : Place) (base : Option Text) (file : Text) : Place :=
  Disk.resolved workdir (Text.joinPath (baseOf base) file)

section

variable {disk : Disk} {workdir : Place} {base : Option Text} {patterns files : List Text}
  {file other : Text}

/-- Each entry leads to a file at the place that it names. -/
theorem found_of_expanded (linkless : disk.Linkless)
    (expanded : expandPatterns disk workdir patterns base = .ok files) (member : file ∈ files) :
    ∃ bytes, disk.look workdir true (Text.joinPath (baseOf base) file) =
      .ok (placeOf workdir base file, .file bytes) := by
  obtain ⟨place, bytes, ends⟩ := Disk.walkPath_of_isFile ((expandPatterns_spec expanded).2 file member)
  have found : disk.look workdir true (Text.joinPath (baseOf base) file) =
      .ok (place, .file bytes) := by
    rw [Disk.look, ends]
  rw [found, Disk.resolved_of_look linkless found]
  exact ⟨bytes, rfl⟩

/-- Literal patterns are listed as they are spelled: those of files, each spelling once. -/
theorem expandPatterns_literal (linkless : disk.Linkless)
    (literal : ∀ pattern ∈ patterns, Literal pattern) :
    expandPatterns disk workdir patterns base =
      .ok (patterns.filter (scopeAt disk workdir base).isFile).eraseDups := by
  have written : patterns.flatMap expandBraces = patterns := by
    rw [List.flatMap_congr fun pattern member => Pattern.expandBraces_plain (literal pattern member).2,
      List.flatMap_singleton']
  have linkless' : (scopeAt disk workdir base).disk.Linkless := linkless
  obtain ⟨found, together, kept⟩ := Pattern.globAll_literal linkless' (baseOf_ne_nil base)
    fun pattern member => (literal pattern member).1
  rw [expandPatterns_eq, written, together, ← kept]
  rfl

/-- What patterns that only go down list goes down to the name of a file. -/
theorem descendsTo_of_expanded (linkless : disk.Linkless) (named : disk.Named)
    (down : ∀ pattern ∈ patterns, ∀ e ∈ expandBraces pattern, Text.Descends e)
    (expanded : expandPatterns disk workdir patterns base = .ok files) :
    ∀ file ∈ files, Text.DescendsTo file := by
  intro file member
  obtain ⟨stands, pattern, listed, e, inside, found, matched, among⟩ :=
    (mem_expandPatterns expanded file).mp member
  have named' : (scopeAt disk workdir base).disk.Named := named
  have descends := Pattern.Scope.glob_down named' (down pattern listed e inside) matched file among
  obtain ⟨some_text, closed⟩ := Disk.text_of_isFile linkless (baseOf_ne_nil base) stands
  exact descends.to_name some_text closed

theorem nodup_places (workdir : Place) (base : Option Text) {texts : List Text}
    (down : ∀ t ∈ texts, Text.DescendsTo t) (nodup : texts.Nodup) :
    (texts.map (placeOf workdir base)).Nodup := by
  apply nodup.map_on
  intro t member u member' same
  exact Disk.resolved_joinPath_inj (baseOf_ne_nil base) (down t member) (down u member') same

theorem descendsTo_outputs (opts : Options) (down : ∀ file ∈ files, Text.DescendsTo file) :
    ∀ output ∈ files.flatMap (outputsOf opts), Text.DescendsTo output := by
  intro output member
  obtain ⟨file, inside, listed⟩ := List.mem_flatMap.mp member
  obtain ⟨ending, ends, rfl⟩ := mem_outputsOf listed
  obtain ⟨free, ascii⟩ := ending_plain ending ends
  exact (down file inside).append free ascii

end

/-- What a run over matched files does to each place at most once. -/
structure OncePerPlace (ctx : Context) (opts : Options) (patterns : List Text) (host : Host)
    (files : List Text) : Prop where
  listed : (files.map (placeOf host.workdir opts.workdir)).Nodup
  compiled : ((jobs ctx opts host host.engine (files.filter isGrammarFile)).map fun job =>
    placeOf host.workdir opts.workdir job.file).Nodup
  written : ∃ done rest middle, Progress ctx opts host (agenda ctx opts host host.engine files)
      (generate ctx opts patterns host) done rest middle ∧
    ((filesOf done).map fun (name, _) => placeOf host.workdir opts.workdir name).Nodup

variable {ctx : Context} {opts : Options} {host : Host} {patterns files : List Text}

theorem oncePerPlace (ctx : Context) (linkless : host.disk.Linkless) (named : host.disk.Named)
    (down : ∀ pattern ∈ patterns, ∀ e ∈ expandBraces pattern, Text.Descends e)
    (expanded : expandPatterns host.disk host.workdir patterns opts.workdir = .ok files) :
    OncePerPlace ctx opts patterns host files := by
  have below := descendsTo_of_expanded linkless named down expanded
  have nodup := (expandPatterns_spec expanded).1
  have grammars := nodup.filter isGrammarFile
  have sources : ∀ file ∈ files.filter isGrammarFile, Text.DescendsTo file := fun file member =>
    below file (List.mem_filter.mp member).1
  have sought : (jobs ctx opts host host.engine (files.filter isGrammarFile)).map (·.file) =
      files.filter isGrammarFile := files_of_jobs
  have names : (filesOf (agenda ctx opts host host.engine files)).map (·.1) =
      (files.filter isGrammarFile).flatMap (outputsOf opts) := names_of_steps
  have outputs : ((filesOf (agenda ctx opts host host.engine files)).map (·.1)).Nodup := by
    rw [names]
    exact nodup_outputs grammars
  obtain ⟨done, rest, middle, progress⟩ :=
    progress_of_sameEnd outputs (run_performs ctx opts linkless expanded)
  refine ⟨nodup_places _ _ below nodup, ?_, done, rest, middle, progress, ?_⟩
  · have compiled := nodup_places host.workdir opts.workdir sources grammars
    rw [← sought, List.map_map] at compiled
    exact compiled
  -- What has been written is what the steps before the end of the run write.
  · have written := nodup_places host.workdir opts.workdir (descendsTo_outputs opts sources)
      (nodup_outputs grammars)
    rw [← names, List.map_map, progress.order, filesOf_append, List.map_append] at written
    exact (List.nodup_append.mp written).1

/-- Files are listed by their spelling. The entries are different texts, each of which leads to a file at the
place that it names. Literal patterns are listed as they are written, so that a file has one entry for each of
its spellings among them. If all patterns only go down, then every file has one spelling: no two entries name
one place, and a run compiles no source and writes no output twice. -/
theorem expandPatterns_by_spelling (ctx : Context) (opts : Options) (linkless : host.disk.Linkless) :
    (∀ patterns files, expandPatterns host.disk host.workdir patterns opts.workdir = .ok files →
      files.Nodup ∧ ∀ file ∈ files, ∃ bytes,
        host.disk.look host.workdir true (Text.joinPath (baseOf opts.workdir) file) =
          .ok (placeOf host.workdir opts.workdir file, .file bytes)) ∧
    (∀ patterns, (∀ pattern ∈ patterns, Literal pattern) →
      expandPatterns host.disk host.workdir patterns opts.workdir =
        .ok (patterns.filter (scopeAt host.disk host.workdir opts.workdir).isFile).eraseDups) ∧
    (host.disk.Named → ∀ patterns files,
      (∀ pattern ∈ patterns, ∀ e ∈ expandBraces pattern, Text.Descends e) →
      expandPatterns host.disk host.workdir patterns opts.workdir = .ok files →
      OncePerPlace ctx opts patterns host files) := by
  refine ⟨?_, ?_, ?_⟩
  · intro patterns files expanded
    exact ⟨(expandPatterns_spec expanded).1, fun file member => found_of_expanded linkless expanded member⟩
  · intro patterns literal
    exact expandPatterns_literal linkless literal
  · intro named patterns files down expanded
    exact oncePerPlace ctx linkless named down expanded

section sample

def respelled : List Text := ["a.ohm", "./a.ohm"]

theorem literal_respelled : ∀ pattern ∈ respelled, Literal pattern := by
  unfold Literal
  decide

theorem sample_named : sampleHost.disk.Named := by
  have plain {name : Text} (ascii : FileName.IsAscii name) (some_name : name ≠ []) (stay : name ≠ ".")
      (up : name ≠ "..") (free : slash ∉ name) (closed : CodePoint.char '\x00' ∉ name) : Listed name :=
    ⟨some_name, stay, up, free, closed, ⟨_, .ascii ascii⟩, if_pos ascii.surrogateFree⟩
  intro entry member name inside
  simp only [sampleHost, List.mem_cons, List.not_mem_nil, or_false] at member
  rcases member with rfl | rfl | rfl
  all_goals
    rw [List.mem_singleton.mp inside]
    exact plain (by decide) (by decide) (by decide) (by decide) (by decide) (by decide)

theorem expandPatterns_by_spelling_sample :
    sampleHost.disk.Linkless ∧ sampleHost.disk.Named ∧
    (∀ pattern ∈ [Text.ofString "*"], ∀ e ∈ expandBraces pattern, Text.Descends e) ∧
    expandPatterns sampleHost.disk sampleHost.workdir ["*"] sampleOptions.workdir = .ok sampleFiles ∧
    OncePerPlace sampleContext sampleOptions ["*"] sampleHost sampleFiles ∧
    (∀ pattern ∈ respelled, Literal pattern) ∧
    expandPatterns sampleHost.disk sampleHost.workdir respelled sampleOptions.workdir =
      .ok (respelled.filter
        (scopeAt sampleHost.disk sampleHost.workdir sampleOptions.workdir).isFile).eraseDups := by
  have down : ∀ pattern ∈ [Text.ofString "*"], ∀ e ∈ expandBraces pattern, Text.Descends e := by
    intro pattern member e inside
    obtain rfl := List.mem_singleton.mp member
    rw [Pattern.expandBraces_plain (by decide)] at inside
    obtain rfl := List.mem_singleton.mp inside
    have step : Text.StepsDown (Text.ofString "*") := by decide
    exact (step.descendsTo (by decide)).descends
  obtain ⟨_, literal, once⟩ := expandPatterns_by_spelling sampleContext sampleOptions sample_linkless
  exact ⟨sample_linkless, sample_named, down, sample_expanded,
    once sample_named _ _ down sample_expanded, literal_respelled, literal _ literal_respelled⟩

/-- A file that is spelled in two ways is listed twice. -/
theorem respelled_file_listed_twice :
    sampleHost.disk.Linkless ∧
    expandPatterns sampleHost.disk sampleHost.workdir respelled sampleOptions.workdir = .ok respelled ∧
    ¬(respelled.map (placeOf sampleHost.workdir sampleOptions.workdir)).Nodup := by
  refine ⟨sample_linkless, by cbv, by decide⟩

end sample

end Bundle

end GrammarBundle
