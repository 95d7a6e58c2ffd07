import GrammarBundle.Proofs.Files.PathTexts
import GrammarBundle.Proofs.Files.Walks

/-!
Files and what is written beside them. A text that leads to a file leads to it also as a path, and the
same text with something at its end writes into the directory of the file.
-/

namespace GrammarBundle.Disk

variable {d : Disk} {follow : Bool} {links : Nat} {workdir : Place} {t : Text}

/-- A text leads to a file: its last name, the directory of the file, and what it holds. -/
structure Seated (d : Disk) (workdir : Place) (t : Text) (directory : Place) (name : Text)
    (bytes : List UInt8) : Prop where
  named : (Path.ofText t).name = name
  found : d.look workdir true (Path.ofText t).toText =
    .ok (directory ++ [FileName.canonical name], .file bytes)
  /-- The text with an ending writes a file of that ending beside this one. -/
  beside : ∀ ending place, slash ∉ ending →
    d.writePlace workdir (Path.ofText (t ++ ending)).toText = .ok place →
      place = directory ++ [FileName.canonical (name ++ ending)]

/-- Points among the names before the last one do not change a walk. -/
theorem walk_names (linkless : d.Linkless) (here : Place) (pieces : List Text) (last : Text) :
    d.walk follow links here (pieces.filter Path.isName ++ [last]) =
      d.walk follow links here (pieces.filter (· ≠ []) ++ [last]) := by
  induction pieces generalizing here with
  | nil => rfl
  | cons piece pieces ih =>
    by_cases empty : piece = []
    · subst empty
      exact ih here
    · rw [List.filter_cons_of_pos (p := (· ≠ [])) (by simpa using empty)]
      by_cases point : piece = [.char '.']
      · subst point
        rw [List.filter_cons_of_neg (by simp [Path.isName]), List.cons_append, ih, walk]
        exact (if_pos rfl).symm
      · rw [List.filter_cons_of_pos (by simp [Path.isName, empty, point]), List.cons_append,
          List.cons_append, walk, walk]
        split
        · exact ih here
        · split
          · exact ih here.dropLast
          · split
            · rfl
            · dsimp only
              split
              · simp
              · exact ih _
              · simp
              next found => exact absurd found (linkless _ _)

/-- The pieces of a text whose walk has a last name other than a point. -/
theorem pieces_of_namesOf {front : List Text} {name : Text} (apart : name ≠ ".")
    (names : namesOf t = front ++ [name]) :
    name ≠ [] ∧ t.getLast? ≠ some slash ∧
      ∃ pieces, Text.splitAt slash t = pieces ++ [name] ∧ pieces.filter (· ≠ []) = front := by
  have closed : t.getLast? ≠ some slash := by
    intro ends
    by_cases none : (Text.splitAt slash t).filter (· ≠ []) = []
    · have plain : namesOf t = [] := none ▸ if_neg fun both => both.2 none
      rw [plain] at names
      simp at names
    · have pointed : namesOf t = (Text.splitAt slash t).filter (· ≠ []) ++ [Text.ofString "."] :=
        if_pos ⟨ends, none⟩
      rw [pointed] at names
      exact apart (List.cons.inj (List.append_inj' names rfl).2).1.symm
  rw [namesOf_eq_filter closed] at names
  have some_name : name ≠ [] := by
    have member : name ∈ (Text.splitAt slash t).filter (· ≠ []) := by
      rw [names]
      exact List.mem_append_right _ List.mem_cons_self
    simpa using (List.mem_filter.mp member).2
  obtain ⟨pieces, last, split_text⟩ :=
    List.eq_nil_or_concat (Text.splitAt slash t) |>.resolve_left Text.splitAt_ne_nil
  rw [List.concat_eq_append] at split_text
  have some_last : last ≠ [] := by
    intro empty
    subst empty
    have text := Text.join_splitAt (p := slash) (t := t)
    rw [split_text] at text
    cases pieces with
    | nil =>
      rw [← text] at names
      simp [Text.join, Text.splitAt] at names
    | cons piece pieces =>
      rw [Text.join_append (by simp) (by simp)] at text
      exact closed (by rw [← text]; simp [Text.join])
  rw [split_text, List.filter_append] at names
  have kept : [last].filter (· ≠ []) = [last] := by simp [some_last]
  rw [kept] at names
  have same := List.append_inj' names rfl
  refine ⟨some_name, closed, pieces, ?_, same.1⟩
  rw [split_text, same.2]

/-- A path that a walk can take stays one when parts of it are left out, unless nothing remains. -/
theorem walkPath_of_sublist {s : Text} {walked : Walked} (part : s.Sublist t) (some_text : s ≠ [])
    (same : isAbsolute s = isAbsolute t)
    (ends : d.walkPath workdir follow t = .ok walked)
    (walks : d.walk follow linkLimit (if isAbsolute t then [] else workdir) (namesOf s) =
      d.walk follow linkLimit (if isAbsolute t then [] else workdir) (namesOf t)) :
    d.walkPath workdir follow s = .ok walked := by
  unfold walkPath at ends ⊢
  cases encoded : FileName.encode t with
  | error fault => rw [encoded] at ends; cases ends
  | ok bytes =>
    obtain ⟨fewer, encodes, bound⟩ := (FileName.encode_ok_iff.mp encoded).sublist part
    rw [encoded] at ends
    rw [FileName.encode_ok_iff.mpr encodes]
    dsimp only at ends ⊢
    by_cases zero : t.elem (.char '\x00')
    · rw [if_pos zero] at ends
      cases ends
    · have no_zero : ¬s.elem (.char '\x00') := by
        intro inside
        exact zero (List.elem_iff.mpr (part.subset (List.elem_iff.mp inside)))
      by_cases empty : t = []
      · exact absurd (List.sublist_nil.mp (empty ▸ part)) some_text
      · by_cases long : pathLimit ≤ bytes.length
        · rw [if_neg zero, if_neg empty, if_pos long] at ends
          cases ends
        · have short : ¬pathLimit ≤ fewer.length := by omega
          rw [if_neg zero, if_neg empty, if_neg long] at ends
          rw [if_neg no_zero, if_neg some_text, if_neg short, same, walks]
          exact ends

/-- A name that is no point and no pair of points becomes neither by an ending. -/
theorem append_ne_points {name : Text} (ending : Text) (some_name : name ≠ []) (stay : name ≠ ".")
    (up : name ≠ "..") : name ++ ending ≠ "." ∧ name ++ ending ≠ ".." := by
  constructor
  · intro point
    obtain ⟨rfl, -⟩ | ⟨rfl, -⟩ := List.append_eq_singleton_iff.mp point
    · exact some_name rfl
    · exact stay rfl
  · intro points
    rcases List.append_eq_cons_iff.mp points with ⟨none, -⟩ | ⟨rest, rfl, more⟩
    · exact some_name none
    · rcases List.append_eq_singleton_iff.mp more.symm with ⟨rfl, -⟩ | ⟨rfl, -⟩
      · exact stay rfl
      · exact up rfl

section beside

variable {pieces : List Text} {name ending : Text}

/-- An ending of the text is an ending of its last name. -/
theorem names_beside (split_text : Text.splitAt slash t = pieces ++ [name]) (some_name : name ≠ [])
    (stay : name ≠ ".") (up : name ≠ "..") (free : slash ∉ ending) :
    (Path.ofText (t ++ ending)).names = pieces.filter Path.isName ++ [name ++ ending] := by
  obtain ⟨front, last, before, after⟩ := Text.splitAt_append_free (t := t) free
  have same := List.append_inj' (before.symm.trans split_text) rfl
  have apart := append_ne_points ending some_name stay up
  rw [Path.ofText_names, after, same.1, (List.cons.inj same.2).1, List.filter_append,
    List.filter_cons_of_pos, List.filter_nil]
  exact Path.isName_iff.mpr ⟨by simp [some_name], apart.1⟩

theorem isAbsolute_beside (some_text : t ≠ []) (named : (Path.ofText (t ++ ending)).names ≠ []) :
    isAbsolute (Path.ofText (t ++ ending)).toText = isAbsolute t := by
  have head := Path.head_toText named
  obtain ⟨p, rest, rfl⟩ := List.exists_cons_of_ne_nil some_text
  exact decide_eq_decide.mpr head

end beside

theorem walkPath_of_isFile (file : d.isFile workdir t = true) :
    ∃ place bytes, d.walkPath workdir true t = .ok (.found place (.file bytes)) := by
  simp only [isFile, look] at file
  split at file
  next found =>
    split at found <;> cases found
    exact ⟨_, _, ‹_›⟩
  · cases file

/-- A text whose walk ends in a directory with one more name writes the file of that name. -/
theorem place_of_writePlace {directory place : Place} {name : Text} (linkless : d.Linkless)
    (stay : name ≠ ".") (up : name ≠ "..")
    (walks : d.walk true linkLimit (if isAbsolute t then [] else workdir) (namesOf t) =
      d.walk true linkLimit directory [name])
    (written : d.writePlace workdir t = .ok place) :
    place = directory ++ [FileName.canonical name] := by
  have one_step {walked : Walked} (found : d.walkPath workdir true t = .ok walked) :=
    walk_last linkless stay up (walks.symm.trans (walk_of_walkPath found))
  unfold writePlace at written
  split at written
  · cases written
  next found =>
    cases written
    rcases one_step found with ⟨_, same⟩ | ⟨_, _, same⟩
    · cases same; rfl
    · cases same
  next found =>
    cases written
    rcases one_step found with ⟨_, same⟩ | ⟨_, _, same⟩
    · cases same
    · cases same; rfl
  · cases written

/-- A text that leads to a file is seated in the directory of the file. -/
theorem seated_of_isFile (linkless : d.Linkless) (file : d.isFile workdir t = true) :
    ∃ directory name bytes, d.Seated workdir t directory name bytes := by
  obtain ⟨place, bytes, ends⟩ := walkPath_of_isFile file
  obtain ⟨front, name, directory, names, stay, up, rfl, held, reaches⟩ :=
    walk_to_file linkless (walk_of_walkPath ends)
  obtain ⟨some_name, closed, pieces, split_text, rfl⟩ := pieces_of_namesOf stay names
  have some_text : t ≠ [] := by
    intro empty
    subst empty
    have same : [] ++ [[]] = pieces ++ [name] := split_text
    exact some_name (List.cons.inj (List.append_inj' same rfl).2).1.symm
  have names_with (ending : Text) (free : slash ∉ ending) :=
    names_beside split_text some_name stay up free
  have start_with (ending : Text) (free : slash ∉ ending) :
      isAbsolute (Path.ofText (t ++ ending)).toText = isAbsolute t :=
    isAbsolute_beside some_text (by simp [names_with ending free])
  have walk_with (ending : Text) (free : slash ∉ ending) :
      d.walk true linkLimit (if isAbsolute t then [] else workdir)
          (namesOf (Path.ofText (t ++ ending)).toText) =
        d.walk true linkLimit directory [name ++ ending] := by
    rw [namesOf_toText (by simp [names_with ending free]), names_with ending free,
      walk_names linkless, reaches]
  refine ⟨directory, name, bytes, ?named, ?found, ?beside⟩
  case named =>
    have whole := names_with [] List.not_mem_nil
    rw [List.append_nil, List.append_nil] at whole
    rw [Path.name, whole, List.getLastD_concat]
  case found =>
    have whole := names_with [] List.not_mem_nil
    have starts := start_with [] List.not_mem_nil
    have walks := walk_with [] List.not_mem_nil
    rw [List.append_nil] at whole starts walks
    have some_names : (Path.ofText t).names ≠ [] := by simp [whole]
    have some_path : (Path.ofText t).toText ≠ [] := by
      intro empty
      have none := namesOf_toText some_names
      rw [empty] at none
      exact some_names none.symm
    -- The text of the path is shorter than the one read, so that its limits hold with those of the other.
    have again := walkPath_of_sublist (Path.ofText_toText_sublist some_names) some_path starts ends
      (by rw [walks, List.append_nil, names, reaches])
    rw [look, again]
  case beside =>
    intro ending place free written
    have apart := append_ne_points ending some_name stay up
    have walks := walk_with ending free
    rw [← start_with ending free] at walks
    exact place_of_writePlace linkless apart.1 apart.2 walks written

end GrammarBundle.Disk
