import GrammarBundle.Proofs.Files.Below
import GrammarBundle.Proofs.Files.Contents
import GrammarBundle.Proofs.Files.Interposed
import GrammarBundle.Proofs.Text.Order

/-!
Disks with files added. A file that is written anew is listed in its directory between the names that were
listed before, which stay in their order, and nothing else is listed or found anew.
-/

namespace GrammarBundle

namespace Disk

variable {d d' d'' : Disk} {follow : Bool} {links : Nat} {workdir place : Place} {t name : Text}

/-- The names in a directory, as they are listed. -/
def namesIn (d : Disk) (place : Place) : List Text := (d.children place).map (·.1)

/-- A name under which a directory lists a file that was not there before. -/
structure Fresh (d d' : Disk) (directory : Place) (name : Text) : Prop where
  listed : Listed name
  free : d.node? (directory ++ [name]) = none
  filled : ∃ bytes, d'.node? (directory ++ [name]) = some (.file bytes)
  apart : ¬IsGrammarPlace (directory ++ [name])

/-- The second disk is the first with files written that are not grammar files, and lists nothing new
but these files. -/
structure Extended (d d' : Disk) : Prop where
  grown : Grown d d'
  names : ∀ place, Interposed (Fresh d d' place) (d.namesIn place) (d'.namesIn place)

theorem Fresh.later (fresh : Fresh d d' place name) (grown : Grown d' d'') :
    Fresh d d'' place name := by
  obtain ⟨bytes, filled⟩ := fresh.filled
  refine ⟨fresh.listed, fresh.free, ?_, fresh.apart⟩
  rcases grown (place ++ [name]) with same | ⟨_, _, new⟩
  · exact ⟨bytes, same.trans filled⟩
  · exact new

theorem Fresh.earlier (fresh : Fresh d' d'' place name) (grown : Grown d d') :
    Fresh d d'' place name := by
  refine ⟨fresh.listed, ?_, fresh.filled, fresh.apart⟩
  rcases grown (place ++ [name]) with same | ⟨_, _, bytes, filled⟩
  · rw [← same]
    exact fresh.free
  · rw [fresh.free] at filled
    cases filled

theorem Extended.refl (d : Disk) : Extended d d := ⟨Grown.refl d, fun _ => Interposed.refl _⟩

theorem Extended.trans (first : Extended d d') (second : Extended d' d'') : Extended d d'' := by
  refine ⟨first.grown.trans second.grown, ?_⟩
  intro place
  have before := (first.names place).imp fun _ fresh => fresh.later second.grown
  have after := (second.names place).imp fun _ fresh => fresh.earlier first.grown
  exact before.trans after

section names

/-- The name that a place has in a directory, if it stands there. -/
def nameIn (directory place : Place) : Option Text :=
  match place.getLast? with
  | some name => if place.dropLast = directory then some name else none
  | none => none

theorem namesIn_eq (d : Disk) (place : Place) :
    d.namesIn place = ((d.entries.map (·.1)).filterMap (nameIn place)).mergeSort Text.atMost := by
  unfold namesIn children
  rw [List.map_mergeSort (s := Text.atMost) fun _ _ _ _ => rfl, List.map_filterMap,
    List.filterMap_map]
  congr 2
  funext entry
  obtain ⟨p, node⟩ := entry
  dsimp only [Function.comp, nameIn]
  cases p.getLast? with
  | none => rfl
  | some name =>
    dsimp only
    split <;> rfl

theorem places_setIn {node : Node} {entries : List (Place × Node)} :
    (setIn place node entries).map (·.1) =
      if place ∈ entries.map (·.1) then entries.map (·.1) else entries.map (·.1) ++ [place] := by
  induction entries with
  | nil => rfl
  | cons entry entries ih =>
    obtain ⟨p, old⟩ := entry
    by_cases here : p = place
    · simp [setIn, here]
    · have other : place ≠ p := Ne.symm here
      rw [setIn, if_neg here, List.map_cons, ih]
      by_cases inside : place ∈ entries.map (·.1)
      · simp [inside]
      · simp [inside, other]

theorem mem_places_iff (inside : place ≠ []) :
    place ∈ d.entries.map (·.1) ↔ d.node? place ≠ none := by
  unfold node?
  rw [if_neg inside, ne_eq, Option.map_eq_none_iff, List.find?_eq_none]
  simp

theorem namesIn_set_same {node : Node} (inside : place ≠ []) (held : d.node? place ≠ none)
    (directory : Place) : (d.set place node).namesIn directory = d.namesIn directory := by
  rw [namesIn_eq, namesIn_eq, set, places_setIn, if_pos ((mem_places_iff inside).mpr held)]

/-- A file that is written anew is listed between the others in its directory, and in no other one. -/
theorem namesIn_set_new {directory : Place} {bytes : List UInt8} (listed : Listed name)
    (free : d.node? (directory ++ [name]) = none) (apart : ¬IsGrammarPlace (directory ++ [name]))
    (other : Place) :
    Interposed (Fresh d (d.set (directory ++ [name]) (.file bytes)) other) (d.namesIn other)
      ((d.set (directory ++ [name]) (.file bytes)).namesIn other) := by
  have inside : directory ++ [name] ≠ [] := by simp
  have absent : directory ++ [name] ∉ d.entries.map (·.1) := fun member =>
    (mem_places_iff inside).mp member free
  rw [namesIn_eq, namesIn_eq, set, places_setIn, if_neg absent, List.filterMap_append]
  have named : nameIn other (directory ++ [name]) = if directory = other then some name else none := by
    rw [nameIn, List.getLast?_concat, List.dropLast_concat]
  rw [List.filterMap_cons, named]
  by_cases same : directory = other
  · subst same
    rw [if_pos rfl]
    obtain ⟨front, back, before, after⟩ :=
      Text.mergeSort_insert ((d.entries.map (·.1)).filterMap (nameIn directory)) name
    rw [List.filterMap_nil, before, after]
    have fresh : Fresh d (d.set (directory ++ [name]) (.file bytes)) directory name :=
      ⟨listed, free, ⟨bytes, by rw [node_set inside, if_pos rfl]⟩, apart⟩
    exact (Interposed.refl front).append (.more fresh (.refl back))
  · rw [if_neg same, List.filterMap_nil, List.append_nil]
    exact .refl _

end names

/-- A walk that ends at a free name ends at the name of the path that is not there. -/
theorem name_of_free {here directory : Place} {names : List Text} (linkless : d.Linkless)
    (ends : d.walk follow links here names = .ok (.free directory name)) :
    ∃ own ∈ names, own ≠ "." ∧ own ≠ ".." ∧ name = FileName.canonical own := by
  induction names generalizing here with
  | nil =>
    rw [walk] at ends
    cases ends
  | cons first rest ih =>
    have later {here : Place} (ends : d.walk follow links here rest = .ok (.free directory name)) :
        ∃ own ∈ first :: rest, own ≠ "." ∧ own ≠ ".." ∧ name = FileName.canonical own := by
      obtain ⟨own, member, proper⟩ := ih ends
      exact ⟨own, List.mem_cons_of_mem first member, proper⟩
    rw [walk] at ends
    split at ends
    · exact later ends
    next stay =>
      split at ends
      · exact later ends
      next up =>
        split at ends
        · cases ends
        · dsimp only at ends
          split at ends
          · split at ends
            · cases ends
              exact ⟨first, List.mem_cons_self, stay, up, rfl⟩
            · cases ends
          · exact later ends
          · split at ends <;> cases ends
          next found => exact absurd found (linkless _ _)

theorem listed_of_free {directory : Place} (linkless : d.Linkless)
    (ends : d.walkPath workdir follow t = .ok (.free directory name)) : Listed name := by
  have allowed := allowed_of_walkPath ends
  obtain ⟨own, member, stay, up, rfl⟩ := name_of_free linkless (walk_of_walkPath ends)
  have piece : own ∈ piecesOf t := by
    rcases namesOf_pieces t with same | pointed
    · rwa [same] at member
    · rw [pointed, List.mem_append, List.mem_singleton] at member
      exact member.resolve_right stay
  obtain ⟨inside, some_name⟩ := List.mem_filter.mp piece
  have part := Text.sublist_of_mem_splitAt inside
  obtain ⟨bytes, encodes, _⟩ := allowed.encodes
  obtain ⟨fewer, part_encodes, _⟩ := encodes.sublist part
  exact listed_canonical (by simpa using some_name) stay up (Text.not_mem_of_mem_splitAt inside)
    (fun zero => allowed.closed (part.subset zero)) part_encodes

theorem extended_of_writePlace {bytes : List UInt8} (linkless : d.Linkless)
    (ends : d.writePlace workdir t = .ok place) (apart : ¬IsGrammarPlace place) :
    Extended d (d.set place (.file bytes)) := by
  refine ⟨grown_of_writePlace linkless ends apart, ?_⟩
  have inside := (node_of_writePlace linkless ends).1
  intro other
  cases held : d.node? place with
  | some node =>
    rw [namesIn_set_same inside (by rw [held]; exact Option.some_ne_none node)]
    exact .refl _
  | none =>
    unfold writePlace at ends
    split at ends
    · cases ends
    next directory name found =>
      cases ends
      exact namesIn_set_new (listed_of_free linkless found) held apart other
    next found =>
      cases ends
      rw [(walk_stands linkless (walk_of_walkPath found)).1] at held
      cases held
    · cases ends

/-- A path at which nothing can be found but a file that is no grammar file. -/
inductive Barren (d : Disk) (workdir : Place) (t : Text) : Prop
  | file {place : Place} {bytes : List UInt8} :
      d.look workdir true t = .ok (place, .file bytes) → ¬IsGrammarPlace place → Barren d workdir t
  | nothing {reason : SystemReason} :
      d.look workdir true t = .error (.system reason) → Barren d workdir t

namespace Barren

theorem not_directory (barren : Barren d workdir t) :
    d.look workdir true t ≠ .ok (place, .directory) := by
  intro found
  cases barren with
  | file other _ => rw [other] at found; cases found
  | nothing other => rw [other] at found; cases found

theorem isDirectory (barren : Barren d workdir t) : d.isDirectory workdir t = false := by
  unfold Disk.isDirectory
  cases barren with
  | file found _ => rw [found]
  | nothing found => rw [found]

theorem list (barren : Barren d workdir t) :
    ∃ reason, d.list workdir t = .error (.system reason) := by
  unfold Disk.list
  cases barren with
  | file found _ => rw [found]; exact ⟨_, rfl⟩
  | nothing found => rw [found]; exact ⟨_, rfl⟩

theorem hasEntry_below (barren : Barren d workdir t) (linkless : d.Linkless) (some_text : t ≠ [])
    (some_name : name ≠ []) (free : slash ∉ name) :
    d.hasEntry workdir (Text.joinPath t name) = false := by
  unfold hasEntry
  cases found : d.look workdir false (Text.joinPath t name) with
  | error fault => rfl
  | ok node =>
    obtain ⟨place, ended⟩ := directory_of_below linkless some_text some_name free found
    exact absurd ended barren.not_directory

end Barren

theorem look_follow (linkless : d.Linkless) : d.look workdir follow t = d.look workdir true t := by
  have same : d.walkPath workdir follow t = d.walkPath workdir true t := by
    unfold walkPath
    rw [walk_follow linkless]
  rw [look, look, same]

section grown

variable (linkless : d.Linkless) (grown : Grown d d')

include linkless grown

theorem look_directory_grown :
    d'.look workdir true t = .ok (place, .directory) ↔ d.look workdir true t = .ok (place, .directory) := by
  have agree := walkPath_agree true linkless grown workdir t
  unfold look
  generalize d.walkPath workdir true t = ended at agree
  generalize d'.walkPath workdir true t = ended' at agree
  cases agree with
  | same r => exact Iff.rfl
  | overwritten apart => simp
  | created apart => simp
  | blocked => simp

theorem isDirectory_grown : d'.isDirectory workdir t = d.isDirectory workdir t := by
  have agree := walkPath_agree true linkless grown workdir t
  unfold isDirectory look
  generalize d.walkPath workdir true t = ended at agree
  generalize d'.walkPath workdir true t = ended' at agree
  cases agree <;> rfl

/-- What is found at a path on the grown disk was found before, or nothing was and it is a new file. -/
theorem hasEntry_grown :
    d'.hasEntry workdir t = d.hasEntry workdir t ∨
      (d.hasEntry workdir t = false ∧ Barren d' workdir t) := by
  have agree := walkPath_agree true linkless grown workdir t
  have barren {place : Place} {new : List UInt8} (apart : ¬IsGrammarPlace place)
      (found : d'.walkPath workdir true t = .ok (.found place (.file new))) : Barren d' workdir t :=
    .file (by rw [look, found]) apart
  unfold hasEntry
  rw [look_follow linkless, look_follow (grown.linkless linkless), look, look]
  generalize d.walkPath workdir true t = ended at agree
  generalize d'.walkPath workdir true t = ended' at agree barren
  cases agree with
  | same r => exact .inl rfl
  | overwritten apart => exact .inl rfl
  | created apart => exact .inr ⟨rfl, barren apart rfl⟩
  | blocked => exact .inl rfl

theorem isFile_grown :
    d'.isFile workdir t = d.isFile workdir t ∨
      ∃ place bytes, d'.look workdir true t = .ok (place, .file bytes) ∧ ¬IsGrammarPlace place := by
  have agree := walkPath_agree true linkless grown workdir t
  unfold isFile look
  generalize d.walkPath workdir true t = ended at agree
  generalize d'.walkPath workdir true t = ended' at agree
  cases agree with
  | same r => exact .inl rfl
  | overwritten apart => exact .inl rfl
  | created apart => exact .inr ⟨_, _, rfl, apart⟩
  | blocked => exact .inl rfl

theorem list_refused_grown {reason : SystemReason} (refused : d.list workdir t = .error (.system reason)) :
    ∃ reason', d'.list workdir t = .error (.system reason') := by
  have agree := walkPath_agree true linkless grown workdir t
  unfold list look at refused ⊢
  generalize d.walkPath workdir true t = ended at agree refused
  generalize d'.walkPath workdir true t = ended' at agree
  cases agree with
  | same _ =>
    cases ended with
    | error fault => exact ⟨reason, refused⟩
    | ok walked =>
      cases walked with
      | free directory name => exact ⟨_, rfl⟩
      | found place node =>
        cases node with
        | file bytes => exact ⟨_, rfl⟩
        | directory => cases refused
        | link target => exact ⟨_, rfl⟩
  | overwritten apart => exact ⟨_, rfl⟩
  | created apart => exact ⟨_, rfl⟩
  | blocked => exact ⟨_, rfl⟩

end grown

/-- A directory that could be listed is listed again, with new files between the names. -/
theorem Extended.list {names : List Text} (extended : Extended d d') (linkless : d.Linkless)
    (listed : d.list workdir t = .ok names) :
    ∃ place names', d'.look workdir true t = .ok (place, .directory) ∧
      d'.list workdir t = .ok names' ∧ Interposed (Fresh d d' place) names names' := by
  unfold Disk.list at listed
  split at listed
  · cases listed
  next place found =>
    cases listed
    have again := (look_directory_grown linkless extended.grown).mpr found
    refine ⟨place, d'.namesIn place, again, ?_, extended.names place⟩
    rw [Disk.list, again]
    rfl
  · cases listed

/-- A path to a new file leads to it, or is too long to lead anywhere. -/
theorem barren_of_fresh (linkless' : d'.Linkless) (found : d'.look workdir true t = .ok (place, .directory))
    (fresh : Fresh d d' place name) : Barren d' workdir (Text.joinPath t name) := by
  obtain ⟨bytes, filled⟩ := fresh.filled
  have listed := fresh.listed
  have relative : name.head? ≠ some slash := fun same => listed.free (List.mem_of_head? same)
  have allowed : Allowed t := by
    unfold look at found
    split at found
    · cases found
    · cases found
    next ends => exact allowed_of_walkPath ends
  have walks : d'.walk true linkLimit (if isAbsolute (Text.joinPath t name) then [] else workdir)
      (namesOf (Text.joinPath t name)) = d'.walk true linkLimit place [name] := by
    rw [isAbsolute_joinPath allowed.some_text relative,
      namesOf_joinPath allowed.some_text listed.some_name listed.free,
      walk_append linkless' _ _ (List.cons_ne_nil _ _), pieces_of_look linkless' found]
  have ends : d'.walk true linkLimit place [name] = .error .nameTooLong ∨
      d'.walk true linkLimit place [name] = .ok (.found (place ++ [name]) (.file bytes)) := by
    rw [walk, if_neg listed.stay, if_neg listed.up, listed.canonical]
    split
    · exact .inl rfl
    · simp [filled]
  obtain ⟨name_bytes, encodes⟩ := listed.encodes
  have tried : Allowed (Text.joinPath t name) ∨
      d'.walkPath workdir true (Text.joinPath t name) = .error (.system .nameTooLong) :=
    joinPath_allowed_or_long allowed relative listed.some_name encodes listed.closed
  rcases tried with short | long
  · have whole : d'.walkPath workdir true (Text.joinPath t name) = _ := walkPath_of_allowed short
    rcases ends with refused | ended
    · exact .nothing (by rw [look, whole, walks, refused]; rfl)
    · exact .file (by rw [look, whole, walks, ended]; rfl) fresh.apart
  · exact .nothing (by rw [look, long])

end Disk

end GrammarBundle
