import GrammarBundle.Proofs.Files.ListedNames
import GrammarBundle.Proofs.Files.Walks

/-!
Paths below others. A walk along a joint path goes on from where the walk along its first part ends, so
that something stands below a path only if the path leads to a directory.
-/

namespace GrammarBundle

theorem Text.joinPath_assoc (s t u : Text) :
    Text.joinPath s (Text.joinPath t u) = Text.joinPath (Text.joinPath s t) u := by
  unfold Text.joinPath
  by_cases third : u.head? = some slash
  · simp only [third, if_true]
  · by_cases some_second : t = []
    · subst some_second
      by_cases first : s = [] ∨ s.getLast? = some slash
      · simp [third, first]
      · simp [third, first, Text.ofString]
    · obtain ⟨p, rest, rfl⟩ := List.exists_cons_of_ne_nil some_second
      by_cases second : p = slash
      · subst second
        by_cases closed : (slash :: rest).getLast? = some slash <;> simp [third, closed]
      · have last (front : Text) : (front ++ p :: rest).getLast? = (p :: rest).getLast? := by
          rw [List.getLast?_append, List.getLast?_cons]
          rfl
        by_cases first : s = [] ∨ s.getLast? = some slash
        · by_cases closed : (p :: rest).getLast? = some slash
          · simp [third, second, first, last, closed]
          · simp [third, second, first, last, closed]
        · by_cases closed : (p :: rest).getLast? = some slash
          · simp [third, second, first, last, closed]
          · simp [third, second, first, last, closed]

theorem Text.getLast?_joinPath {base t : Text} (some_text : t ≠ []) :
    (Text.joinPath base t).getLast? = t.getLast? := by
  have last (front : Text) : (front ++ t).getLast? = t.getLast? := by
    obtain ⟨before, p, rfl⟩ := List.eq_nil_or_concat t |>.resolve_left some_text
    rw [List.concat_eq_append, ← List.append_assoc, List.getLast?_concat, List.getLast?_concat]
  unfold Text.joinPath
  split
  · rfl
  · split <;> exact last _

namespace Disk

variable {d : Disk} {follow : Bool} {links : Nat} {workdir : Place} {t name : Text}

def piecesOf (t : Text) : List Text := (Text.splitAt slash t).filter (· ≠ [])

theorem namesOf_pieces (t : Text) : namesOf t = piecesOf t ∨ namesOf t = piecesOf t ++ [Text.ofString "."] := by
  unfold namesOf
  dsimp only
  split
  · exact .inr rfl
  · exact .inl rfl

theorem piecesOf_joinPath {base : Text} (some_base : base ≠ []) (relative : t.head? ≠ some slash) :
    piecesOf (Text.joinPath base t) = piecesOf base ++ piecesOf t := by
  unfold Text.joinPath
  rw [if_neg relative]
  split
  next ends =>
    obtain ⟨front, rfl⟩ := List.getLast?_eq_some_iff.mp (ends.resolve_left some_base)
    have pieces : Text.splitAt slash (front ++ [slash]) = Text.splitAt slash front ++ [[]] :=
      Text.splitAt_append_separator
    rw [piecesOf, piecesOf, piecesOf, pieces, List.append_assoc, List.singleton_append,
      Text.splitAt_append_separator, List.filter_append, List.filter_append]
    simp
  · rw [List.append_assoc]
    change piecesOf (base ++ slash :: t) = _
    rw [piecesOf, Text.splitAt_append_separator, List.filter_append, piecesOf, piecesOf]

theorem namesOf_joinPath (some_text : t ≠ []) (some_name : name ≠ []) (free : slash ∉ name) :
    namesOf (Text.joinPath t name) = piecesOf t ++ [name] := by
  have relative : name.head? ≠ some slash := fun same => free (List.mem_of_head? same)
  have closed : (Text.joinPath t name).getLast? ≠ some slash := by
    rw [Text.getLast?_joinPath some_name]
    exact fun same => free (List.mem_of_getLast? same)
  have alone : piecesOf name = [name] := by
    rw [piecesOf, Text.splitAt_whole free]
    simp [some_name]
  rw [namesOf_eq_filter closed, ← piecesOf, piecesOf_joinPath some_text relative, alone]

/-- A path that a walk can be tried on. -/
structure Allowed (t : Text) : Prop where
  encodes : ∃ bytes, FileName.Encodes t bytes ∧ bytes.length < pathLimit
  closed : CodePoint.char '\x00' ∉ t
  some_text : t ≠ []

theorem walkPath_of_allowed (allowed : Allowed t) :
    d.walkPath workdir follow t =
      (d.walk follow linkLimit (if isAbsolute t then [] else workdir) (namesOf t)).mapError
        PathFault.system := by
  obtain ⟨bytes, encodes, short⟩ := allowed.encodes
  have zero : ¬t.elem (.char '\x00') = true := fun inside => allowed.closed (List.elem_iff.mp inside)
  unfold walkPath
  rw [FileName.encode_ok_iff.mpr encodes]
  dsimp only
  rw [if_neg zero, if_neg allowed.some_text, if_neg (Nat.not_le.mpr short)]
  cases d.walk follow linkLimit (if isAbsolute t then [] else workdir) (namesOf t) <;> rfl

theorem allowed_of_walkPath {walked : Walked} (ends : d.walkPath workdir follow t = .ok walked) :
    Allowed t := by
  unfold walkPath at ends
  split at ends
  · cases ends
  next bytes encoded =>
    split at ends
    · cases ends
    next zero =>
      split at ends
      · cases ends
      next some_text =>
        split at ends
        · cases ends
        next short =>
          exact ⟨⟨bytes, FileName.encode_ok_iff.mp encoded, Nat.not_le.mp short⟩,
            fun inside => zero (List.elem_iff.mpr inside), some_text⟩

theorem Allowed.sublist {s : Text} (allowed : Allowed t) (part : s.Sublist t) (some_text : s ≠ []) :
    Allowed s := by
  obtain ⟨bytes, encodes, short⟩ := allowed.encodes
  obtain ⟨fewer, part_encodes, bound⟩ := encodes.sublist part
  exact ⟨⟨fewer, part_encodes, by omega⟩, fun inside => allowed.closed (part.subset inside), some_text⟩

/-- A text that has bytes and no zero character is tried as a path, or it is too long for one. -/
theorem allowed_or_long {bytes : List UInt8} (encodes : FileName.Encodes t bytes)
    (closed : CodePoint.char '\x00' ∉ t) (some_text : t ≠ []) :
    Allowed t ∨ d.walkPath workdir follow t = .error (.system .nameTooLong) := by
  by_cases short : bytes.length < pathLimit
  · exact .inl ⟨⟨bytes, encodes, short⟩, closed, some_text⟩
  · have zero : ¬t.elem (.char '\x00') = true := fun inside => closed (List.elem_iff.mp inside)
    unfold walkPath
    rw [FileName.encode_ok_iff.mpr encodes]
    dsimp only
    rw [if_neg zero, if_neg some_text, if_pos (Nat.not_lt.mp short)]
    exact .inr rfl

/-- Without links it makes no difference whether links are followed. -/
theorem walk_follow (linkless : d.Linkless) (here : Place) (names : List Text) :
    d.walk follow links here names = d.walk true links here names := by
  induction names generalizing here with
  | nil => rw [walk, walk]
  | cons name rest ih =>
    rw [walk, walk]
    split
    · exact ih here
    · split
      · exact ih here.dropLast
      · split
        · rfl
        · dsimp only
          split
          · rfl
          · exact ih _
          · rfl
          next found => exact absurd found (linkless _ _)

/-- A walk along more names goes on from the directory where the walk along the first ones ends; from a
file, and from where nothing is, no walk goes on. -/
theorem walk_append (linkless : d.Linkless) (here : Place) (names : List Text) {more : List Text}
    (some_more : more ≠ []) :
    d.walk follow links here (names ++ more) =
      match d.walk follow links here names with
      | .ok (.found place .directory) => d.walk follow links place more
      | .ok (.found _ _) => .error .notDirectory
      | .ok (.free _ _) => .error .noEntry
      | .error reason => .error reason := by
  induction names generalizing here with
  | nil =>
    rw [List.nil_append, walk]
  | cons name rest ih =>
    rw [List.cons_append, walk, walk]
    split
    · exact ih here
    · split
      · exact ih here.dropLast
      · split
        · rfl
        · dsimp only
          cases found : d.node? (here ++ [FileName.canonical name]) with
          | none =>
            by_cases last : rest = [] <;> simp [last, some_more]
          | some node =>
            cases node with
            | file bytes => by_cases last : rest = [] <;> simp [last, some_more]
            | directory => exact ih _
            | link target => exact absurd found (linkless _ _)

theorem isAbsolute_joinPath (some_text : t ≠ []) (relative : name.head? ≠ some slash) :
    isAbsolute (Text.joinPath t name) = isAbsolute t := by
  obtain ⟨p, rest, rfl⟩ := List.exists_cons_of_ne_nil some_text
  unfold Text.joinPath
  rw [if_neg relative]
  split <;> rfl

theorem sublist_joinPath (relative : name.head? ≠ some slash) : t.Sublist (Text.joinPath t name) := by
  unfold Text.joinPath
  rw [if_neg relative]
  split
  · exact List.sublist_append_left _ _
  · rw [List.append_assoc]
    exact List.sublist_append_left _ _

theorem joinPath_allowed_or_long {bytes : List UInt8} (allowed : Allowed t)
    (relative : name.head? ≠ some slash) (some_name : name ≠ [])
    (encodes : FileName.Encodes name bytes) (closed : CodePoint.char '\x00' ∉ name) :
    Allowed (Text.joinPath t name) ∨
      d.walkPath workdir follow (Text.joinPath t name) = .error (.system .nameTooLong) := by
  obtain ⟨front, first, _⟩ := allowed.encodes
  have between : FileName.Encodes (Text.ofString "/") [0x2F] := FileName.Encodes.ascii (by decide)
  have before := allowed.closed
  unfold Text.joinPath
  rw [if_neg relative]
  split
  · apply allowed_or_long (first.append encodes)
    · simp [before, closed]
    · simp [some_name]
  · apply allowed_or_long ((first.append between).append encodes)
    · simp [before, closed, Text.ofString]
    · simp [some_name]

theorem look_of_pieces {place : Place} (linkless : d.Linkless) (allowed : Allowed t)
    (ends : d.walk follow linkLimit (if isAbsolute t then [] else workdir) (piecesOf t) =
      .ok (.found place .directory)) :
    d.look workdir follow t = .ok (place, .directory) := by
  have whole : d.walk follow linkLimit (if isAbsolute t then [] else workdir) (namesOf t) =
      .ok (.found place .directory) := by
    rcases namesOf_pieces t with same | pointed
    · rw [same, ends]
    · rw [pointed, walk_append linkless _ _ (List.cons_ne_nil _ _), ends]
      dsimp only
      rw [walk, if_pos rfl, walk]
  rw [look, walkPath_of_allowed allowed, whole]
  rfl

/-- Something stands below a path only if the path leads to a directory. -/
theorem directory_of_below {found : Place × Node} (linkless : d.Linkless) (some_text : t ≠ [])
    (some_name : name ≠ []) (free : slash ∉ name)
    (below : d.look workdir follow (Text.joinPath t name) = .ok found) :
    ∃ place, d.look workdir true t = .ok (place, .directory) := by
  have relative : name.head? ≠ some slash := fun same => free (List.mem_of_head? same)
  unfold look at below
  split at below
  · cases below
  · cases below
  next place node ends =>
    have allowed := (allowed_of_walkPath ends).sublist (sublist_joinPath relative) some_text
    have walked := walk_of_walkPath ends
    rw [isAbsolute_joinPath some_text relative, namesOf_joinPath some_text some_name free,
      walk_append linkless _ _ (List.cons_ne_nil _ _), walk_follow linkless] at walked
    split at walked
    next place ends => exact ⟨place, look_of_pieces linkless allowed ends⟩
    · cases walked
    · cases walked
    · cases walked

theorem pieces_of_look {place : Place} (linkless : d.Linkless)
    (found : d.look workdir true t = .ok (place, .directory)) :
    d.walk true linkLimit (if isAbsolute t then [] else workdir) (piecesOf t) =
      .ok (.found place .directory) := by
  unfold look at found
  split at found
  · cases found
  · cases found
  next ends =>
    cases found
    have walked := walk_of_walkPath ends
    rcases namesOf_pieces t with same | pointed
    · rwa [same] at walked
    · rw [pointed, walk_append linkless _ _ (List.cons_ne_nil _ _)] at walked
      split at walked
      next place' before =>
        rw [walk, if_pos rfl, walk] at walked
        cases walked
        exact before
      · cases walked
      · cases walked
      · cases walked

end Disk

end GrammarBundle
