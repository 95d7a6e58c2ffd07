import GrammarBundle.Proofs.Bundle.Sources
import GrammarBundle.Proofs.Pattern.Extensions

/-!
Patterns on a disk with outputs added. The grammar files among the matched files are the same ones in the
same order, because a text with the extension of grammar files does not lead to an output.
-/

namespace GrammarBundle

/-- The place of a file has the last name of its path, as it is listed. -/
theorem Disk.name_of_look {d : Disk} {workdir place : Place} {t : Text} {bytes : List UInt8}
    (linkless : d.Linkless) (found : d.look workdir true t = .ok (place, .file bytes)) :
    ∃ (front : List Text) (name : Text) (directory : Place),
      namesOf t = front ++ [name] ∧ name ≠ "." ∧ name ≠ ".." ∧
      place = directory ++ [FileName.canonical name] := by
  unfold look at found
  split at found
  · cases found
  · cases found
  next ends =>
    cases found
    obtain ⟨front, name, directory, names, stay, up, same, _⟩ :=
      walk_to_file linkless (walk_of_walkPath ends)
    exact ⟨front, name, directory, names, stay, up, same⟩

namespace Bundle

variable {d d' : Disk} {workdir place : Place} {base : Option Text} {file : Text} {bytes : List UInt8}

theorem name_of_grammar (grammar : isGrammarFile file = true) :
    ∃ stem, stem ≠ [] ∧ (Path.ofText file).name = stem ++ .char '.' :: Text.ofString "ohm" :=
  Path.eq_append_of_suffixOf (of_decide_eq_true grammar)

/-- A text with the extension of grammar files leads to a place with that extension. -/
theorem grammar_of_look {base : Text} (some_base : base ≠ []) (linkless : d.Linkless)
    (grammar : isGrammarFile file = true)
    (found : d.look workdir true (Text.joinPath base file) = .ok (place, .file bytes)) :
    IsGrammarPlace place := by
  obtain ⟨front, name, directory, names, stay, up, rfl⟩ := Disk.name_of_look linkless found
  obtain ⟨some_name, _, pieces, split_text, _⟩ := Disk.pieces_of_namesOf stay names
  have whole := Disk.names_beside split_text some_name stay up List.not_mem_nil
  rw [List.append_nil, List.append_nil] at whole
  obtain ⟨stem, some_stem, named⟩ := name_of_grammar grammar
  have same : name = stem ++ .char '.' :: Text.ofString "ohm" := by
    have last : (Path.ofText (Text.joinPath base file)).name = name := by
      rw [Path.name, whole, List.getLastD_concat]
    rw [← last, Path.ofText_joinPath some_base, name_join (by simp [named]), named]
  unfold IsGrammarPlace
  rw [List.getLastD_concat, same, FileName.canonical_append (by decide),
    Path.suffixOf_append (FileName.canonical_ne_nil some_stem) (by decide) (by decide)]
  rfl

/-- A source stands under the last name of its text, as it is listed. -/
theorem name_of_source (linkless : d.Linkless) (grammar : isGrammarFile file = true)
    (source : Source d workdir base file place bytes) :
    place.getLastD [] = FileName.canonical (Path.ofText file).name := by
  obtain ⟨front, name, directory, names, _, _, rfl⟩ := Disk.name_of_look linkless source.found
  obtain ⟨stem, _, named⟩ := name_of_grammar grammar
  have joint : (Path.ofText (Text.joinPath (baseOf base) file)).name = (Path.ofText file).name := by
    rw [Path.ofText_joinPath (baseOf_ne_nil base), name_join (by simp [named])]
  have some_names : (Path.ofText (Text.joinPath (baseOf base) file)).names ≠ [] := by
    intro none
    rw [Path.name, none, named] at joint
    simp at joint
  rw [sourcePath_eq, Disk.namesOf_toText some_names] at names
  rw [List.getLastD_concat, ← joint, Path.name, names, List.getLastD_concat]

section extended

variable {s : Pattern.Scope} (linkless : s.disk.Linkless) (extended : Disk.Extended s.disk d')
  (some_base : s.base ≠ [])

/-- A text that leads to a grammar file. -/
def grammarAt (s : Pattern.Scope) (file : Text) : Bool :=
  isGrammarFile file && s.disk.isFile s.workdir (Text.joinPath s.base file)

include linkless extended some_base

theorem isFile_extended (grammar : isGrammarFile file = true) :
    d'.isFile s.workdir (Text.joinPath s.base file) =
      s.disk.isFile s.workdir (Text.joinPath s.base file) := by
  rcases Disk.isFile_grown linkless extended.grown with same | ⟨place, bytes, found, apart⟩
  · exact same
  · exact absurd (grammar_of_look some_base (extended.grown.linkless linkless) grammar found) apart

theorem grammarAt_extended (file : Text) : grammarAt (s.onDisk d') file = grammarAt s file := by
  unfold grammarAt
  cases grammar : isGrammarFile file with
  | false => rfl
  | true => exact isFile_extended linkless extended some_base grammar

theorem not_grammarAt_besides (besides : (s.onDisk d').Besides s.base file) :
    grammarAt s file = false := by
  obtain ⟨some_text, barren⟩ := besides
  rw [Pattern.joined_eq_joinPath some_base some_text] at barren
  rw [← grammarAt_extended linkless extended some_base, grammarAt, Bool.and_eq_false_iff]
  cases grammar : isGrammarFile file with
  | false => exact .inl rfl
  | true =>
    right
    change d'.isFile s.workdir (Text.joinPath s.base file) = false
    cases barren with
    | file found apart =>
      exact absurd (grammar_of_look some_base (extended.grown.linkless linkless) grammar found) apart
    | nothing refused =>
      have refused_there : d'.look s.workdir true (Text.joinPath s.base file) = .error _ := refused
      unfold Disk.isFile
      rw [refused_there]

theorem expandFrom_extended {seen seen' patterns files : List Text}
    (known : seen'.filter (grammarAt s) = seen.filter (grammarAt s))
    (expanded : expandFrom s seen patterns = .ok files) :
    ∃ files', expandFrom (s.onDisk d') seen' patterns = .ok files' ∧
      files'.filter (grammarAt s) = files.filter (grammarAt s) := by
  induction patterns generalizing seen seen' files with
  | nil =>
    cases expanded
    exact ⟨[], rfl, rfl⟩
  | cons pattern rest ih =>
    unfold expandFrom at expanded ⊢
    split at expanded
    · cases expanded
    next found globbed =>
      obtain ⟨found', globbed', matched⟩ := Pattern.Scope.glob_extended linkless extended some_base
        globbed (p := grammarAt s) rfl
        fun text => not_grammarAt_besides linkless extended some_base
      have fresh : (Pattern.freshFiles (s.onDisk d') seen' found').filter (grammarAt s) =
          (Pattern.freshFiles s seen found).filter (grammarAt s) := by
        rw [Pattern.freshFiles_filter, Pattern.freshFiles_filter, known, matched]
        apply Pattern.freshFiles_congr
        intro path member
        have kept := (List.mem_filter.mp member).2
        rw [grammarAt, Bool.and_eq_true] at kept
        exact isFile_extended linkless extended some_base kept.1
      dsimp only at expanded
      split at expanded
      · cases expanded
      next more later =>
        cases expanded
        have known_after : (seen' ++ Pattern.freshFiles (s.onDisk d') seen' found').filter
            (grammarAt s) = (seen ++ Pattern.freshFiles s seen found).filter (grammarAt s) := by
          rw [List.filter_append, List.filter_append, known, fresh]
        obtain ⟨more', later', same⟩ := ih known_after later
        rw [globbed']
        dsimp only
        rw [later']
        refine ⟨_, rfl, ?_⟩
        rw [List.filter_append, List.filter_append, fresh, same]

end extended

/-- Patterns match the same grammar files in the same order when outputs have been added. -/
theorem expandPatterns_extended {patterns files : List Text} (linkless : d.Linkless)
    (extended : Disk.Extended d d') (expanded : expandPatterns d workdir patterns base = .ok files) :
    ∃ files', expandPatterns d' workdir patterns base = .ok files' ∧
      files'.filter isGrammarFile = files.filter isGrammarFile := by
  obtain ⟨files', expanded', same⟩ := expandFrom_extended (s := ⟨d, workdir, baseOf base⟩) linkless
    extended (baseOf_ne_nil base) rfl expanded
  refine ⟨files', expanded', ?_⟩
  have all_files : ∀ file ∈ files, grammarAt ⟨d, workdir, baseOf base⟩ file = isGrammarFile file := by
    intro file member
    rw [grammarAt, (expandPatterns_spec expanded).2 file member, Bool.and_true]
  have all_files' : ∀ file ∈ files',
      grammarAt ⟨d, workdir, baseOf base⟩ file = isGrammarFile file := by
    intro file member
    rw [← grammarAt_extended linkless extended (baseOf_ne_nil base)]
    rw [grammarAt]
    change (isGrammarFile file && d'.isFile workdir (Text.joinPath (baseOf base) file)) = _
    rw [(expandPatterns_spec expanded').2 file member, Bool.and_true]
  rw [← List.filter_congr all_files, ← List.filter_congr all_files', same]

end Bundle

end GrammarBundle
