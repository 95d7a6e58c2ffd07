import GrammarBundle.Files.Disk

/-!
Names without contents. What walks, listings and questions about kinds come to depends on where the
files and directories of a disk are, and not on what the files hold.
-/

namespace GrammarBundle

def Node.bare : Node → Node
  | .file _ => .file []
  | node => node

namespace Disk

def bare (d : Disk) : Disk := ⟨d.entries.map fun (place, node) => (place, node.bare)⟩

def Walked.bare : Walked → Walked
  | .found place node => .found place node.bare
  | .free directory name => .free directory name

variable {d : Disk} {workdir place : Place} {follow : Bool} {t : Text}

theorem node_bare : d.bare.node? place = (d.node? place).map Node.bare := by
  unfold node? bare
  split
  · rfl
  · dsimp only
    rw [List.find?_map, Option.map_map, Option.map_map]
    rfl

/-- A step of a walk goes the way of what it finds, whatever that holds. -/
theorem walk_bare_step {links : Nat} {here : Place} {name : Text} {rest : List Text} (stay : name ≠ ".")
    (up : name ≠ "..") (short : ¬nameLimit < FileName.size name) {found : Option Node}
    (held : d.node? (here ++ [FileName.canonical name]) = found) :
    d.bare.walk follow links here (name :: rest) =
      match found.map Node.bare with
      | none => if rest = [] then .ok (.free here (FileName.canonical name)) else .error .noEntry
      | some .directory => d.bare.walk follow links (here ++ [FileName.canonical name]) rest
      | some (.file bytes) =>
        if rest = [] then .ok (.found (here ++ [FileName.canonical name]) (.file bytes))
        else .error .notDirectory
      | some (.link target) =>
        if rest = [] ∧ follow = false then
          .ok (.found (here ++ [FileName.canonical name]) (.link target))
        else
          match links with
          | 0 => .error .tooManyLinks
          | links + 1 =>
            d.bare.walk follow links (if isAbsolute target then [] else here)
              (namesOf target ++ rest) := by
  have kept : d.bare.node? (here ++ [FileName.canonical name]) = found.map Node.bare := by
    rw [node_bare, held]
  rw [walk, if_neg stay, if_neg up, if_neg short]
  dsimp only
  generalize d.bare.node? (here ++ [FileName.canonical name]) = seen at kept
  subst kept
  rfl

theorem walk_bare (links : Nat) (here : Place) (names : List Text) :
    d.bare.walk follow links here names = (d.walk follow links here names).map Walked.bare := by
  fun_induction d.walk follow links here names with
  | case1 links here =>
    rw [walk]
    rfl
  | case2 links here rest ih => rw [walk, if_pos rfl, ih]
  | case3 links here rest stay ih => rw [walk, if_neg stay, if_pos rfl, ih]
  | case4 links here name rest stay up long =>
    rw [walk, if_neg stay, if_neg up, if_pos long]
    rfl
  | case5 links here name stay up short place free =>
    rw [walk_bare_step stay up short free]
    rfl
  | case6 links here name rest stay up short place free more =>
    rw [walk_bare_step stay up short free]
    exact if_neg more
  | case7 links here name rest stay up short place found ih =>
    rw [walk_bare_step stay up short found]
    exact ih
  | case8 links here name stay up short place bytes found =>
    rw [walk_bare_step stay up short found]
    rfl
  | case9 links here name rest stay up short place bytes found more =>
    rw [walk_bare_step stay up short found]
    exact if_neg more
  | case10 links here name rest stay up short place target found ends =>
    rw [walk_bare_step stay up short found]
    exact if_pos ends
  | case11 here name rest stay up short place target found goes =>
    rw [walk_bare_step stay up short found]
    exact if_neg goes
  | case12 here name rest stay up short place target found goes links ih =>
    rw [walk_bare_step stay up short found]
    exact (if_neg goes).trans ih

theorem walkPath_bare :
    d.bare.walkPath workdir follow t = (d.walkPath workdir follow t).map Walked.bare := by
  unfold walkPath
  split
  · rfl
  · split
    · rfl
    · split
      · rfl
      · split
        · rfl
        · rw [walk_bare]
          cases d.walk follow linkLimit (if isAbsolute t then [] else workdir) (namesOf t) <;> rfl

theorem look_bare :
    d.bare.look workdir follow t =
      (d.look workdir follow t).map fun found => (found.1, found.2.bare) := by
  unfold look
  rw [walkPath_bare]
  cases d.walkPath workdir follow t with
  | error fault => rfl
  | ok walked => cases walked <;> rfl

theorem hasEntry_bare : d.bare.hasEntry workdir t = d.hasEntry workdir t := by
  unfold hasEntry
  rw [look_bare]
  cases d.look workdir false t <;> rfl

theorem isDirectory_bare : d.bare.isDirectory workdir t = d.isDirectory workdir t := by
  unfold isDirectory
  rw [look_bare]
  cases d.look workdir true t with
  | error fault => rfl
  | ok found =>
    obtain ⟨place, node⟩ := found
    cases node <;> rfl

theorem isFile_bare : d.bare.isFile workdir t = d.isFile workdir t := by
  unfold isFile
  rw [look_bare]
  cases d.look workdir true t with
  | error fault => rfl
  | ok found =>
    obtain ⟨place, node⟩ := found
    cases node <;> rfl

theorem names_bare : (d.bare.children place).map (·.1) = (d.children place).map (·.1) := by
  unfold children bare
  rw [List.map_mergeSort (s := Text.atMost), List.map_mergeSort (s := Text.atMost)]
  · dsimp only
    rw [List.filterMap_map, List.map_filterMap, List.map_filterMap]
    congr 2
    funext entry
    obtain ⟨p, node⟩ := entry
    dsimp only [Function.comp]
    cases p.getLast? with
    | none => rfl
    | some name =>
      dsimp only
      split <;> rfl
  · intros
    rfl
  · intros
    rfl

theorem list_bare : d.bare.list workdir t = d.list workdir t := by
  unfold list
  rw [look_bare]
  cases d.look workdir true t with
  | error fault => rfl
  | ok found =>
    obtain ⟨place, node⟩ := found
    cases node with
    | directory => exact congrArg Except.ok names_bare
    | file bytes => rfl
    | link target => rfl

theorem writePlace_bare : d.bare.writePlace workdir t = d.writePlace workdir t := by
  unfold writePlace
  rw [walkPath_bare]
  cases d.walkPath workdir true t with
  | error fault => rfl
  | ok walked =>
    cases walked with
    | free directory name => rfl
    | found place node => cases node <;> rfl

theorem bare_set {node : Node} : (d.set place node).bare = d.bare.set place node.bare := by
  unfold set bare
  dsimp only
  congr 1
  induction d.entries with
  | nil => rfl
  | cons entry entries ih =>
    obtain ⟨p, old⟩ := entry
    rw [List.map_cons, setIn, setIn]
    split
    · rfl
    · rw [List.map_cons, ih]

end Disk

end GrammarBundle
