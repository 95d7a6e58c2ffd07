import GrammarBundle.Json.Shape
import GrammarBundle.Proofs.Json.Intact

/-!
Objects on a line of their own. The portable form of an object is a text of printable ASCII characters
and so a single line. It is read back as the object with the members of every object in order and each
surrogate pair as one character, and what its members are does not depend on their order.
-/

namespace GrammarBundle

namespace Members

variable {name : Text} {members members' : Members}

theorem get?_of_mem {v : Json} (distinct : (members.map (·.1)).Nodup)
    (inside : (name, v) ∈ members) : get? name members = some v := by
  induction members with
  | nil => cases inside
  | cons first rest ih =>
    obtain ⟨key, old⟩ := first
    rw [List.map_cons, List.nodup_cons] at distinct
    rw [get?]
    rcases List.mem_cons.mp inside with same | later
    · cases same
      exact if_pos rfl
    · have other : key ≠ name := by
        rintro rfl
        exact distinct.1 (List.mem_map.mpr ⟨_, later, rfl⟩)
      rw [if_neg other, ih distinct.2 later]

/-- Members of distinct names are found in whatever order they stand. -/
theorem get?_perm (distinct : (members.map (·.1)).Nodup) (same : members'.Perm members) :
    get? name members' = get? name members := by
  have distinct' : (members'.map (·.1)).Nodup := (same.map _).nodup_iff.mpr distinct
  ext v
  constructor
  · intro found
    exact get?_of_mem distinct (same.mem_iff.mp (Json.mem_of_get found))
  · intro found
    exact get?_of_mem distinct' (same.mem_iff.mpr (Json.mem_of_get found))

theorem get?_map (f : Json → Json) :
    get? name (members.map fun (key, v) => (key, f v)) = (get? name members).map f := by
  induction members with
  | nil => rfl
  | cons first rest ih =>
    obtain ⟨key, v⟩ := first
    rw [List.map_cons, get?, get?, ih]
    split <;> rfl

theorem get?_put {key : Text} {v : Json} :
    get? name (put key v members) = if key = name then some v else get? name members := by
  induction members with
  | nil => rfl
  | cons first rest ih =>
    obtain ⟨other, old⟩ := first
    rw [put]
    split
    next same =>
      subst same
      rw [get?, get?]
      split <;> rfl
    next apart =>
      rw [get?, get?, ih]
      split
      next here =>
        subst here
        rw [if_neg (Ne.symm apart)]
      · rfl

/-- Settings of distinct names stand over the members of their names. -/
theorem get?_putAll {settings : Members} (distinct : (settings.map (·.1)).Nodup) :
    get? name (putAll settings members) = (get? name settings).or (get? name members) := by
  induction settings generalizing members with
  | nil => rfl
  | cons first rest ih =>
    obtain ⟨key, v⟩ := first
    rw [List.map_cons, List.nodup_cons] at distinct
    change get? name (putAll rest (put key v members)) = _
    rw [ih distinct.2, get?_put, get?]
    split
    next same =>
      subst same
      have fresh : get? key rest = none := by
        cases found : get? key rest with
        | none => rfl
        | some w => exact absurd (List.mem_map_of_mem (Json.mem_of_get found)) distinct.1
      rw [fresh]
      rfl
    · rfl

end Members

namespace Json

theorem readableItems_iff {items : List Json} :
    ReadableItems items ↔ ∀ v ∈ items, v.Readable := by
  induction items with
  | nil => simp [ReadableItems]
  | cons v rest ih => simp [ReadableItems, ih]

theorem readableMembers_iff {members : List (Text × Json)} :
    ReadableMembers members ↔ ∀ m ∈ members, m.2.Readable := by
  induction members with
  | nil => simp [ReadableMembers]
  | cons m rest ih =>
    obtain ⟨k, v⟩ := m
    simp [ReadableMembers, ih]

theorem sortKeysMembers_eq (members : List (Text × Json)) :
    sortKeysMembers members = members.map fun (k, v) => (k, v.sortKeys) := by
  induction members with
  | nil => rfl
  | cons m rest ih =>
    obtain ⟨k, v⟩ := m
    rw [sortKeysMembers, ih, List.map_cons]

theorem pairedMembers_eq (members : List (Text × Json)) :
    pairedMembers members = members.map fun (k, v) => (k.paired, v.paired) := by
  induction members with
  | nil => rfl
  | cons m rest ih =>
    obtain ⟨k, v⟩ := m
    rw [pairedMembers, ih, List.map_cons]

mutual

theorem whole_of_readable {v : Json} (readable : v.Readable) : v.Whole := by
  match v with
  | .null | .bool _ | .int _ | .str _ => trivial
  | .float _ => exact readable
  | .list items => exact wholeItems_of_readable readable
  | .object members => exact wholeMembers_of_readable readable

theorem wholeItems_of_readable {items : List Json} (readable : ReadableItems items) :
    WholeItems items := by
  match items with
  | [] => trivial
  | v :: rest => exact ⟨whole_of_readable readable.1, wholeItems_of_readable readable.2⟩

theorem wholeMembers_of_readable {members : List (Text × Json)}
    (readable : ReadableMembers members) : WholeMembers members := by
  match members with
  | [] => trivial
  | (k, v) :: rest => exact ⟨whole_of_readable readable.1, wholeMembers_of_readable readable.2⟩

end

mutual

theorem readable_sortKeys {v : Json} (readable : v.Readable) : v.sortKeys.Readable := by
  match v with
  | .null | .bool _ | .str _ => trivial
  | .int n => exact readable
  | .float _ => exact readable
  | .list items => exact readableItems_sortKeys readable
  | .object members =>
    have sorted := readableMembers_iff.mp (readableMembers_sortKeys readable)
    refine readableMembers_iff.mpr fun m member => sorted m ?_
    exact (List.mergeSort_perm _ _).mem_iff.mp member

theorem readableItems_sortKeys {items : List Json} (readable : ReadableItems items) :
    ReadableItems (sortKeysItems items) := by
  match items with
  | [] => trivial
  | v :: rest => exact ⟨readable_sortKeys readable.1, readableItems_sortKeys readable.2⟩

theorem readableMembers_sortKeys {members : List (Text × Json)}
    (readable : ReadableMembers members) : ReadableMembers (sortKeysMembers members) := by
  match members with
  | [] => trivial
  | (k, v) :: rest => exact ⟨readable_sortKeys readable.1, readableMembers_sortKeys readable.2⟩

end

theorem printable_ofDigit : ∀ d < 16, (CodePoint.ofDigit d).isShown = true := by
  decide

theorem printable_unitEscape (n : Nat) : (unitEscape n).all (·.isShown) = true := by
  rw [unitEscape, hex_four, List.all_append]
  simp only [List.all_cons, List.all_nil]
  rw [printable_ofDigit _ (Nat.mod_lt _ (by decide)), printable_ofDigit _ (Nat.mod_lt _ (by decide)),
    printable_ofDigit _ (Nat.mod_lt _ (by decide)), printable_ofDigit _ (Nat.mod_lt _ (by decide))]
  rfl

theorem printable_portablePoint (p : CodePoint) :
    (portablePoint p).all (·.isShown) = true := by
  unfold portablePoint
  split
  next e short =>
    unfold shortEscape? at short
    split at short <;> cases short <;> rfl
  next plain =>
    dsimp only
    split
    next shown => simpa [CodePoint.isShown] using shown
    next hidden =>
      split
      · exact printable_unitEscape _
      · rw [List.all_append, printable_unitEscape, printable_unitEscape]
        rfl

theorem line_printable : Style.line.Within (·.isShown) where
  point := printable_portablePoint
  comma := rfl
  colon := rfl
  gap _ := rfl
  shown _ shown := shown

/-- A line of printable characters shows an object: it is its portable form, and is read as an object
with its members. -/
structure Shows (line : Text) (members : Members) : Prop where
  form : line = portable (.object members) false
  printable : ∀ p ∈ line, p.isShown = true
  reads : ∃ found : Members, read line = .ok (.object found) ∧
    ∀ name, found.get? name = (members.get? name).map fun v => v.sortKeys.paired

theorem shows_portable {members : Members} (readable : (Json.object members).Readable)
    (distinct : (members.map (·.1)).Nodup) (free : ∀ m ∈ members, m.1.surrogateFree = true) :
    Shows (portable (.object members) false) members := by
  have sorted := readable_sortKeys readable
  refine ⟨rfl, List.all_eq_true.mp (all_write line_printable 0 _), ?_⟩
  let ordered : Members := Members.sorted (sortKeysMembers members)
  have perm : ordered.Perm (members.map fun (k, v) => (k, v.sortKeys)) := by
    rw [← sortKeysMembers_eq]
    exact List.mergeSort_perm _ _
  have same_names : (members.map fun (k, v) => (k, v.sortKeys)).map (·.1) = members.map (·.1) := by
    rw [List.map_map]
    rfl
  have kept : pairedMembers ordered = ordered.map fun (k, v) => (k, v.paired) := by
    rw [pairedMembers_eq]
    refine List.map_congr_left fun m member => ?_
    obtain ⟨original, inside, rfl⟩ := List.mem_map.mp (perm.mem_iff.mp member)
    dsimp only
    rw [Text.paired_of_surrogateFree (free original inside)]
  have ordered_names : (ordered.map fun (k, v) => (k, v.paired)).map (·.1) = ordered.map (·.1) := by
    rw [List.map_map]
    rfl
  have ordered_distinct : (ordered.map (·.1)).Nodup := by
    rw [(perm.map (·.1)).nodup_iff, same_names]
    exact distinct
  refine ⟨ordered.map fun (k, v) => (k, v.paired), ?_, fun name => ?_⟩
  · have whole := read_write legible_line sorted
    rw [sortKeys, paired, kept, Members.ofSettings_distinct (ordered_names ▸ ordered_distinct)] at whole
    exact whole
  · rw [Members.get?_map, Members.get?_perm (same_names ▸ distinct) perm, Members.get?_map,
      Option.map_map]
    rfl

end Json

end GrammarBundle
