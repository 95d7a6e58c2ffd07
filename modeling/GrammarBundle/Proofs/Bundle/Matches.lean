import Mathlib
import GrammarBundle.Proofs.Bundle.Sources
import GrammarBundle.Proofs.Pattern.Shadows
import GrammarBundle.Proofs.Run.Actions

/-!
What patterns match together. The expansion of patterns is the list of the files among all that they match,
each at its first place. So it is a union that keeps its order, it is the same for patterns whose alternatives
are written out, and its order is the only thing that depends on the order of the patterns.
-/

namespace GrammarBundle

namespace Pattern

/-- A path that is found is one of a file. -/
def Scope.isFile (s : Scope) (path : Text) : Bool :=
  s.disk.isFile s.workdir (Text.joinPath s.base path)

/-- All that patterns match, one pattern after the other. -/
def Scope.globAll (s : Scope) : List Text → Except PathFault (List Text)
  | [] => return []
  | pattern :: rest => do
    let found ← s.glob pattern
    let more ← s.globAll rest
    return found ++ more

section

variable {s : Scope} {patterns found : List Text}

theorem globAll_append (s : Scope) (patterns more : List Text) :
    s.globAll (patterns ++ more) = do
      let found ← s.globAll patterns
      let others ← s.globAll more
      return found ++ others := by
  induction patterns with
  | nil => exact (bind_pure _).symm
  | cons pattern rest ih =>
    rw [List.cons_append, Scope.globAll, Scope.globAll, ih]
    simp only [bind_assoc, pure_bind, List.append_assoc]

/-- Patterns are matched together exactly if each of them is matched. -/
theorem globAll_ends : (∃ found, s.globAll patterns = .ok found) ↔
    ∀ pattern ∈ patterns, ∃ found, s.glob pattern = .ok found := by
  induction patterns with
  | nil => exact iff_of_true ⟨[], rfl⟩ (fun _ member => absurd member List.not_mem_nil)
  | cons pattern rest ih =>
    rw [List.forall_mem_cons, ← ih, Scope.globAll]
    constructor
    · rintro ⟨found, together⟩
      obtain ⟨here, matched, later⟩ := bind_ok.mp together
      obtain ⟨more, others, _⟩ := bind_ok.mp later
      exact ⟨⟨here, matched⟩, more, others⟩
    · rintro ⟨⟨here, matched⟩, more, others⟩
      exact ⟨here ++ more, by rw [matched, others]; rfl⟩

theorem mem_globAll (together : s.globAll patterns = .ok found) (file : Text) :
    file ∈ found ↔ ∃ pattern ∈ patterns, ∃ here, s.glob pattern = .ok here ∧ file ∈ here := by
  induction patterns generalizing found with
  | nil =>
    cases together
    constructor
    · intro member
      cases member
    · rintro ⟨pattern, member, _⟩
      cases member
  | cons pattern rest ih =>
    obtain ⟨here, matched, later⟩ := bind_ok.mp together
    obtain ⟨more, others, same⟩ := bind_ok.mp later
    cases same
    rw [List.mem_append, ih others]
    constructor
    · rintro (first | ⟨other, member, hits⟩)
      · exact ⟨pattern, List.mem_cons_self, here, matched, first⟩
      · exact ⟨other, List.mem_cons_of_mem _ member, hits⟩
    · rintro ⟨other, member, hits, globbed, inside⟩
      rcases List.mem_cons.mp member with rfl | member
      · rw [matched] at globbed
        cases globbed
        exact .inl inside
      · exact .inr ⟨other, member, hits, globbed, inside⟩

end

/-- First occurrences in a list that goes on: those of its front, then those of its rest that its front does
not have. -/
theorem eraseDups_append_removeAll {α : Type} [BEq α] [LawfulBEq α] (seen front rest : List α) :
    (front ++ rest).eraseDups.removeAll seen =
      front.eraseDups.removeAll seen ++
        rest.eraseDups.removeAll (seen ++ front.eraseDups.removeAll seen) := by
  have apart (a : α) : (a ∉ seen ∧ a ∉ front) ↔ a ∉ seen ++ front.eraseDups.removeAll seen := by
    simp only [List.removeAll, List.mem_append, List.mem_filter, List.mem_eraseDups,
      Bool.not_eq_true', List.elem_eq_mem, decide_eq_false_iff_not]
    tauto
  rw [List.eraseDups_append, eraseDups_removeAll]
  unfold List.removeAll at apart ⊢
  rw [List.filter_append, List.filter_filter]
  congr 1
  apply List.filter_congr
  intro a _
  rw [Bool.eq_iff_iff]
  simpa only [List.elem_eq_mem, Bool.and_eq_true, Bool.not_eq_true', decide_eq_false_iff_not]
    using apart a

/-- The fresh files are the first occurrences of files, but for those seen before. -/
theorem freshFiles_eq (s : Scope) (seen found : List Text) :
    freshFiles s seen found = (found.filter s.isFile).eraseDups.removeAll seen := by
  induction found generalizing seen with
  | nil => rfl
  | cons path rest ih =>
    rw [freshFiles, ih, ih]
    by_cases file : s.isFile path = true
    · rw [List.filter_cons_of_pos file, eraseDups_cons_filter, List.cons_removeAll,
        ← List.removeAll_cons]
      have isFile : s.disk.isFile s.workdir (Text.joinPath s.base path) = true := file
      cases known : seen.contains path with
      | false => simp [isFile]
      | true =>
        have same : ∀ a, a ∈ path :: seen ↔ a ∈ seen := by
          intro a
          rw [List.mem_cons, or_iff_right_of_imp]
          rintro rfl
          exact List.contains_iff_mem.mp known
        simp [removeAll_congr same]
    · have other : s.disk.isFile s.workdir (Text.joinPath s.base path) = false := by
        simpa [Scope.isFile] using file
      rw [List.filter_cons_of_neg file, if_pos (by simp [other])]

end Pattern

namespace Bundle

open Pattern (Scope expandBraces freshFiles freshFiles_eq eraseDups_append_removeAll)

/-- Expanding is matching all patterns and keeping the first occurrence of each file not seen before. -/
theorem expandFrom_eq (s : Scope) (seen patterns : List Text) :
    expandFrom s seen patterns = do
      let found ← s.globAll patterns
      return (found.filter s.isFile).eraseDups.removeAll seen := by
  induction patterns generalizing seen with
  | nil => rfl
  | cons pattern rest ih =>
    rw [expandFrom, Scope.globAll]
    cases s.glob pattern with
    | error fault => rfl
    | ok here =>
      dsimp only
      rw [ih]
      cases s.globAll rest with
      | error fault => rfl
      | ok more =>
        have united : freshFiles s seen here ++
            (more.filter s.isFile).eraseDups.removeAll (seen ++ freshFiles s seen here) =
            ((here ++ more).filter s.isFile).eraseDups.removeAll seen := by
          rw [freshFiles_eq, List.filter_append, eraseDups_append_removeAll]
        exact congrArg Except.ok united

/-- Where patterns are matched. -/
def scopeAt (disk : Disk) (workdir : Place) (base : Option Text) : Scope := ⟨disk, workdir, baseOf base⟩

section

variable {disk : Disk} {workdir : Place} {base : Option Text} {patterns other files : List Text}

theorem expandPatterns_eq (disk : Disk) (workdir : Place) (patterns : List Text) (base : Option Text) :
    expandPatterns disk workdir patterns base = do
      let found ← (scopeAt disk workdir base).globAll (patterns.flatMap expandBraces)
      return (found.filter (scopeAt disk workdir base).isFile).eraseDups := by
  rw [expandPatterns, ← scopeAt, expandFrom_eq]
  simp only [List.removeAll_nil]

/-- Expanding ends exactly if each expansion of each pattern is matched. -/
theorem expandPatterns_ends : (∃ files, expandPatterns disk workdir patterns base = .ok files) ↔
    ∀ pattern ∈ patterns, ∀ e ∈ expandBraces pattern,
      ∃ found, (scopeAt disk workdir base).glob e = .ok found := by
  have each : (∀ e ∈ patterns.flatMap expandBraces,
      ∃ found, (scopeAt disk workdir base).glob e = .ok found) ↔
      ∀ pattern ∈ patterns, ∀ e ∈ expandBraces pattern,
        ∃ found, (scopeAt disk workdir base).glob e = .ok found := List.forall_mem_flatMap
  rw [← each, ← Pattern.globAll_ends, expandPatterns_eq]
  constructor
  · rintro ⟨files, expanded⟩
    obtain ⟨found, together, _⟩ := bind_ok.mp expanded
    exact ⟨found, together⟩
  · rintro ⟨found, together⟩
    rw [together]
    exact ⟨_, rfl⟩

/-- The files that patterns expand to are those that some expansion of some pattern matches. -/
theorem mem_expandPatterns (expanded : expandPatterns disk workdir patterns base = .ok files)
    (file : Text) : file ∈ files ↔
      disk.isFile workdir (Text.joinPath (baseOf base) file) = true ∧
      ∃ pattern ∈ patterns, ∃ e ∈ expandBraces pattern,
        ∃ found, (scopeAt disk workdir base).glob e = .ok found ∧ file ∈ found := by
  rw [expandPatterns_eq] at expanded
  obtain ⟨found, together, same⟩ := bind_ok.mp expanded
  cases same
  rw [List.mem_eraseDups, List.mem_filter, Pattern.mem_globAll together, and_comm]
  apply and_congr_right
  intro _
  constructor
  · rintro ⟨e, member, hits⟩
    obtain ⟨pattern, listed, inside⟩ := List.mem_flatMap.mp member
    exact ⟨pattern, listed, e, inside, hits⟩
  · rintro ⟨pattern, listed, e, inside, hits⟩
    exact ⟨e, List.mem_flatMap.mpr ⟨pattern, listed, inside⟩, hits⟩

/-- Further patterns add the files that were not there before. -/
theorem expandPatterns_append (disk : Disk) (workdir : Place) (patterns more : List Text)
    (base : Option Text) : expandPatterns disk workdir (patterns ++ more) base = do
      let files ← expandPatterns disk workdir patterns base
      let others ← expandPatterns disk workdir more base
      return files ++ others.removeAll files := by
  have united (found others : List Text) (p : Text → Bool) : ((found ++ others).filter p).eraseDups =
      (found.filter p).eraseDups ++
        (others.filter p).eraseDups.removeAll (found.filter p).eraseDups := by
    have apart := eraseDups_append_removeAll [] (found.filter p) (others.filter p)
    simp only [List.removeAll_nil, List.nil_append] at apart
    rw [List.filter_append, apart]
  simp only [expandPatterns_eq, List.flatMap_append, Pattern.globAll_append, bind_assoc, pure_bind,
    united]

/-- Alternatives that are written out are matched as those in braces. -/
theorem expandPatterns_written (disk : Disk) (workdir : Place) (patterns : List Text)
    (base : Option Text) : expandPatterns disk workdir (patterns.flatMap expandBraces) base =
      expandPatterns disk workdir patterns base := by
  have plain : (patterns.flatMap expandBraces).flatMap expandBraces = patterns.flatMap expandBraces := by
    rw [List.flatMap_assoc]
    apply List.flatMap_congr
    intro pattern _
    have fixed : ∀ e ∈ expandBraces pattern, expandBraces e = [e] := by
      intro e member
      exact Pattern.expandBraces_plain (Pattern.group_eq_none_iff.mpr (Pattern.literal_of_mem member))
    rw [List.flatMap_congr fixed, List.flatMap_singleton']
  rw [expandPatterns, plain, expandPatterns]

/-- Patterns in another order expand to the same files in another order. -/
theorem expandPatterns_perm (permuted : patterns.Perm other)
    (expanded : expandPatterns disk workdir patterns base = .ok files) :
    ∃ files', expandPatterns disk workdir other base = .ok files' ∧ files.Perm files' := by
  have ends := expandPatterns_ends.mp ⟨files, expanded⟩
  have ends' : ∃ files', expandPatterns disk workdir other base = .ok files' := by
    apply expandPatterns_ends.mpr
    intro pattern member
    exact ends pattern (permuted.mem_iff.mpr member)
  obtain ⟨files', expanded'⟩ := ends'
  refine ⟨files', expanded', ?_⟩
  apply (List.perm_ext_iff_of_nodup (expandPatterns_spec expanded).1 (expandPatterns_spec expanded').1).mpr
  intro file
  simp only [mem_expandPatterns expanded, mem_expandPatterns expanded', permuted.mem_iff]

end

/-- Expanding patterns is a union without repetitions that keeps its order. It ends exactly if each expansion
of each pattern is matched; then the files are those that some expansion of some pattern matches, once each.
Further patterns add at the end, in their order, what was not there before; alternatives may be written out;
and patterns in another order give the same files in another order. -/
theorem expandPatterns_union (disk : Disk) (workdir : Place) (base : Option Text) :
    (∀ patterns, (∃ files, expandPatterns disk workdir patterns base = .ok files) ↔
      ∀ pattern ∈ patterns, ∀ e ∈ expandBraces pattern,
        ∃ found, (scopeAt disk workdir base).glob e = .ok found) ∧
    (∀ patterns files, expandPatterns disk workdir patterns base = .ok files →
      files.Nodup ∧ ∀ file, file ∈ files ↔
        disk.isFile workdir (Text.joinPath (baseOf base) file) = true ∧
        ∃ pattern ∈ patterns, ∃ e ∈ expandBraces pattern,
          ∃ found, (scopeAt disk workdir base).glob e = .ok found ∧ file ∈ found) ∧
    (∀ patterns more, expandPatterns disk workdir (patterns ++ more) base = do
      let files ← expandPatterns disk workdir patterns base
      let others ← expandPatterns disk workdir more base
      return files ++ others.removeAll files) ∧
    (∀ patterns, expandPatterns disk workdir (patterns.flatMap expandBraces) base =
      expandPatterns disk workdir patterns base) ∧
    ∀ patterns other files, patterns.Perm other → expandPatterns disk workdir patterns base = .ok files →
      ∃ files', expandPatterns disk workdir other base = .ok files' ∧ files.Perm files' := by
  refine ⟨?_, ?_, ?_, ?_, ?_⟩
  · intro patterns
    exact expandPatterns_ends
  · intro patterns files expanded
    exact ⟨(expandPatterns_spec expanded).1, mem_expandPatterns expanded⟩
  · intro patterns more
    exact expandPatterns_append disk workdir patterns more base
  · intro patterns
    exact expandPatterns_written disk workdir patterns base
  · intro patterns other files permuted expanded
    exact expandPatterns_perm permuted expanded

section sample

/-- A disk with two files, and patterns that both match them. -/
def pairedDisk : Disk := ⟨[([Text.ofString "a.ohm"], .file []), ([Text.ofString "b.ohm"], .file [])]⟩

def pairedPatterns : List Text := ["\x7bb,a\x7d.ohm", "*"]

def pairedFiles : List Text := ["b.ohm", "a.ohm"]

theorem expandPatterns_union_paired :
    (expandPatterns pairedDisk [] pairedPatterns none = .ok pairedFiles ∧ pairedFiles.Nodup ∧
      ∀ file, file ∈ pairedFiles ↔
        pairedDisk.isFile [] (Text.joinPath (baseOf none) file) = true ∧
        ∃ pattern ∈ pairedPatterns, ∃ e ∈ expandBraces pattern,
          ∃ found, (scopeAt pairedDisk [] none).glob e = .ok found ∧ file ∈ found) ∧
    pairedPatterns.Perm pairedPatterns.reverse ∧
    ∃ files', expandPatterns pairedDisk [] pairedPatterns.reverse none = .ok files' ∧
      pairedFiles.Perm files' := by
  have expanded : expandPatterns pairedDisk [] pairedPatterns none = .ok pairedFiles := by cbv
  have turned : pairedPatterns.Perm pairedPatterns.reverse := (List.reverse_perm _).symm
  obtain ⟨_, holds, _, _, permutes⟩ := expandPatterns_union pairedDisk [] none
  obtain ⟨nodup, members⟩ := holds _ _ expanded
  exact ⟨⟨expanded, nodup, members⟩, turned, permutes _ _ _ turned expanded⟩

example : expandPatterns pairedDisk [] pairedPatterns.reverse none = .ok ["a.ohm", "b.ohm"] := by
  cbv

end sample

end Bundle

end GrammarBundle
