import GrammarBundle.Bundle.Generate
import GrammarBundle.Proofs.Files.Seats

/-!
The files that a run bundles, and where their outputs go. Each matched file is listed once and stands in
some directory; its outputs stand beside it, under names that are no names of grammar files and that no
other source has.
-/

namespace GrammarBundle.Bundle

theorem freshFiles_spec (s : Pattern.Scope) (seen found : List Text) :
    (Pattern.freshFiles s seen found).Nodup ∧
      ∀ file ∈ Pattern.freshFiles s seen found,
        file ∉ seen ∧ s.disk.isFile s.workdir (Text.joinPath s.base file) = true := by
  induction found generalizing seen with
  | nil => exact ⟨List.nodup_nil, fun _ member => absurd member List.not_mem_nil⟩
  | cons path rest ih =>
    unfold Pattern.freshFiles
    split
    · exact ih seen
    next fresh =>
      obtain ⟨nodup, spec⟩ := ih (path :: seen)
      simp only [Bool.or_eq_true, List.contains_iff_mem, not_or, Bool.not_eq_true',
        Bool.not_eq_false] at fresh
      refine ⟨List.nodup_cons.mpr ⟨?_, nodup⟩, ?_⟩
      · intro again
        exact (spec path again).1 List.mem_cons_self
      · intro file member
        rcases List.mem_cons.mp member with rfl | later
        · exact fresh
        · have apart := spec file later
          rw [List.mem_cons, not_or] at apart
          exact ⟨apart.1.2, apart.2⟩

theorem expandFrom_spec {s : Pattern.Scope} {seen patterns files : List Text}
    (expanded : expandFrom s seen patterns = .ok files) :
    files.Nodup ∧ ∀ file ∈ files,
      file ∉ seen ∧ s.disk.isFile s.workdir (Text.joinPath s.base file) = true := by
  induction patterns generalizing seen files with
  | nil =>
    cases expanded
    exact ⟨List.nodup_nil, fun _ member => absurd member List.not_mem_nil⟩
  | cons pattern rest ih =>
    unfold expandFrom at expanded
    split at expanded
    · cases expanded
    next found _ =>
      dsimp only at expanded
      split at expanded
      · cases expanded
      next more later =>
        cases expanded
        obtain ⟨fresh_nodup, fresh⟩ := freshFiles_spec s seen found
        obtain ⟨more_nodup, spec⟩ := ih later
        refine ⟨List.nodup_append.mpr ⟨fresh_nodup, more_nodup, ?_⟩, ?_⟩
        · intro file first other second same
          exact (spec other second).1 (List.mem_append_right _ (same ▸ first))
        · intro file member
          rcases List.mem_append.mp member with first | second
          · exact fresh file first
          · have apart := spec file second
            rw [List.mem_append, not_or] at apart
            exact ⟨apart.1.1, apart.2⟩

/-- The matched files are listed once each, and each is a file. -/
theorem expandPatterns_spec {disk : Disk} {workdir : Place} {patterns files : List Text}
    {base : Option Text} (expanded : expandPatterns disk workdir patterns base = .ok files) :
    files.Nodup ∧
      ∀ file ∈ files, disk.isFile workdir (Text.joinPath (baseOf base) file) = true := by
  obtain ⟨nodup, spec⟩ := expandFrom_spec expanded
  exact ⟨nodup, fun file member => (spec file member).2⟩

theorem baseOf_ne_nil (base : Option Text) : baseOf base ≠ [] := by
  cases base with
  | none => exact List.cons_ne_nil _ _
  | some t =>
    unfold baseOf
    cases t with
    | nil => exact List.cons_ne_nil _ _
    | cons p t => exact List.cons_ne_nil _ _

/-- Below the working directory a path is what its text writes. -/
theorem join_point (file : Text) : (Path.ofText ".").join file = Path.ofText file := by
  unfold Path.join
  dsimp only
  split
  · rfl
  next relative =>
    have root : (Path.ofText file).root = [] := by
      simpa [Path.isAbsolute] using relative
    have same : Path.mk [] (Path.ofText file).names = Path.ofText file :=
      congrArg (fun r => Path.mk r (Path.ofText file).names) root.symm
    exact same

/-- The path of a file below a base is what the joint text writes. -/
theorem sourcePath_eq_join (base : Option Text) (file : Text) :
    sourcePath base file = (Path.ofText (baseOf base)).join file := by
  cases base with
  | none => exact (join_point file).symm
  | some t =>
    cases t with
    | nil => exact (join_point file).symm
    | cons p t => rfl

theorem sourcePath_eq (base : Option Text) (file : Text) :
    sourcePath base file = Path.ofText (Text.joinPath (baseOf base) file) := by
  rw [Path.ofText_joinPath (baseOf_ne_nil base), sourcePath_eq_join]

/-- The sink of a run writes a file where a source of that name would be. -/
theorem under_eq (ctx : Context) (base : Option Text) :
    Sink.under ctx (base.filter (!·.isEmpty)) = .directory ctx (Path.ofText (baseOf base)) [] := by
  cases base with
  | none => rfl
  | some t => cases t <;> rfl

/-- A file that a run bundles. -/
def isGrammarFile (file : Text) : Bool := fileExtension file = grammarExtension

/-- The ends of the names of outputs. -/
def moduleEnding : Text := "-bundle.js"
def declarationEnding : Text := "-bundle.d.ts"

/-- The place beside another whose name is the other's with an ending. -/
def beside (place : Place) (ending : Text) : Place :=
  place.dropLast ++ [place.getLastD [] ++ ending]

/-- A grammar file on a disk: where it stands, what it holds, and where its outputs go. -/
structure Source (d : Disk) (workdir : Place) (base : Option Text) (file : Text) (place : Place)
    (bytes : List UInt8) : Prop where
  some_place : place ≠ []
  grammar : IsGrammarPlace place
  found : d.look workdir true (sourcePath base file).toText = .ok (place, .file bytes)
  outputs : ∀ ending ∈ [moduleEnding, declarationEnding], ∀ target,
    d.writePlace workdir (sourcePath base (file ++ ending)).toText = .ok target →
      target = beside place ending

theorem name_join {base : Path} {t : Text} (some_name : (Path.ofText t).name ≠ []) :
    (base.join t).name = (Path.ofText t).name := by
  unfold Path.join
  dsimp only
  split
  · rfl
  · unfold Path.name at some_name ⊢
    dsimp only
    cases last : (Path.ofText t).names.getLast? with
    | none =>
      rw [List.getLast?_eq_none_iff] at last
      rw [last] at some_name
      exact absurd rfl some_name
    | some name =>
      obtain ⟨front, split_names⟩ := List.getLast?_eq_some_iff.mp last
      rw [split_names, ← List.append_assoc, List.getLastD_concat, List.getLastD_concat]

/-- An ending holds no separator and is ASCII. -/
theorem ending_plain :
    ∀ ending ∈ [moduleEnding, declarationEnding], slash ∉ ending ∧ FileName.IsAscii ending := by
  decide

/-- An output tells what it is an output of, and which ending it has. -/
theorem append_ending_inj {t t' ending ending' : Text}
    (listed : ending ∈ [moduleEnding, declarationEnding])
    (listed' : ending' ∈ [moduleEnding, declarationEnding])
    (same : t ++ ending = t' ++ ending') : t = t' ∧ ending = ending' := by
  have endings : ending = ending' := by
    -- The endings differ in their last two letters, whatever names come before them.
    have tails := congrArg (fun t => t.reverse.take 2) same
    simp only [List.reverse_append] at tails
    simp only [List.mem_cons, List.not_mem_nil, or_false] at listed listed'
    rcases listed with rfl | rfl <;> rcases listed' with rfl | rfl
    · rfl
    · exact absurd tails (by simp [moduleEnding, declarationEnding, Text.ofString])
    · exact absurd tails (by simp [moduleEnding, declarationEnding, Text.ofString])
    · rfl
  subst endings
  exact ⟨List.append_cancel_right same, rfl⟩

theorem beside_inj {place other : Place} (some_place : place ≠ []) (some_other : other ≠ [])
    {ending ending' : Text} (listed : ending ∈ [moduleEnding, declarationEnding])
    (listed' : ending' ∈ [moduleEnding, declarationEnding])
    (same : beside place ending = beside other ending') : place = other ∧ ending = ending' := by
  obtain ⟨front, name, rfl⟩ := List.eq_nil_or_concat place |>.resolve_left some_place
  obtain ⟨front', name', rfl⟩ := List.eq_nil_or_concat other |>.resolve_left some_other
  simp only [beside, List.concat_eq_append, List.dropLast_concat, List.getLastD_concat] at same ⊢
  obtain ⟨rfl, names⟩ := List.append_inj' same rfl
  obtain ⟨rfl, rfl⟩ := append_ending_inj listed listed' (List.cons.inj names).1
  exact ⟨rfl, rfl⟩

/-- Outputs have no names of grammar files. -/
theorem not_grammar_beside {place : Place} {ending : Text}
    (listed : ending ∈ [moduleEnding, declarationEnding]) : ¬IsGrammarPlace (beside place ending) := by
  unfold IsGrammarPlace beside
  rw [List.getLastD_concat]
  simp only [List.mem_cons, List.not_mem_nil, or_false] at listed
  rcases listed with rfl | rfl
  · have split_name : place.getLastD [] ++ moduleEnding =
        (place.getLastD [] ++ Text.ofString "-bundle") ++ .char '.' :: Text.ofString "js" := by
      rw [List.append_assoc]
      rfl
    rw [split_name, Path.suffixOf_append (by simp [Text.ofString]) (by decide) (by decide)]
    decide
  · have split_name : place.getLastD [] ++ declarationEnding =
        (place.getLastD [] ++ Text.ofString "-bundle.d") ++ .char '.' :: Text.ofString "ts" := by
      rw [List.append_assoc]
      rfl
    rw [split_name, Path.suffixOf_append (by simp [Text.ofString]) (by decide) (by decide)]
    decide

/-- A matched grammar file is a source, with its outputs beside it. -/
theorem source_of_matched {d : Disk} {workdir : Place} {base : Option Text} {file : Text}
    (linkless : d.Linkless) (found : d.isFile workdir (Text.joinPath (baseOf base) file) = true)
    (grammar : isGrammarFile file = true) :
    ∃ place bytes, Source d workdir base file place bytes := by
  obtain ⟨directory, name, bytes, seated⟩ := Disk.seated_of_isFile linkless found
  have extension : Path.suffixOf (Path.ofText file).name = .char '.' :: Text.ofString "ohm" :=
    of_decide_eq_true grammar
  obtain ⟨stem, some_stem, named⟩ := Path.eq_append_of_suffixOf extension
  have named_whole : name = stem ++ .char '.' :: Text.ofString "ohm" := by
    rw [← seated.named, Path.ofText_joinPath (baseOf_ne_nil base), name_join (by simp [named]), named]
  have listed : FileName.canonical name =
      FileName.canonical stem ++ .char '.' :: Text.ofString "ohm" := by
    rw [named_whole, FileName.canonical_append (by decide)]
  refine ⟨directory ++ [FileName.canonical name], bytes, by simp, ?_, ?_, ?_⟩
  · unfold IsGrammarPlace
    rw [List.getLastD_concat, listed, Path.suffixOf_append (FileName.canonical_ne_nil some_stem)
      (by decide) (by decide)]
    rfl
  · rw [sourcePath_eq]
    exact seated.found
  · intro ending member target written
    obtain ⟨free, ascii⟩ := ending_plain ending member
    have head : ending.head? ≠ some slash := fun same => free (List.mem_of_head? same)
    rw [sourcePath_eq, Path.joinPath_append head] at written
    rw [seated.beside ending target free written, beside, FileName.canonical_append ascii,
      List.dropLast_concat, List.getLastD_concat]

end GrammarBundle.Bundle
