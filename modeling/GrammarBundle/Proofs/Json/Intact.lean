import GrammarBundle.Json.Shape
import GrammarBundle.Proofs.Json.Received

/-!
Values that the compact form keeps as they are: such as are read from a text without surrogates, with
whole numbers only. Their parts are of the same sort, and what is put together from them is one too. The
compact form of a list is put together from those of its elements, and that of an object from its members.
-/

namespace GrammarBundle.Json

theorem wholeItems_iff {items : List Json} : WholeItems items ↔ ∀ v ∈ items, v.Whole := by
  induction items with
  | nil => simp [WholeItems]
  | cons v rest ih => simp [WholeItems, ih]

theorem wholeMembers_iff {members : List (Text × Json)} :
    WholeMembers members ↔ ∀ m ∈ members, m.2.Whole := by
  induction members with
  | nil => simp [WholeMembers]
  | cons m rest ih =>
    obtain ⟨k, v⟩ := m
    simp [WholeMembers, ih]

structure Intact (v : Json) : Prop where
  received : v.Received
  whole : v.Whole

theorem Intact.read {v : Json} (intact : v.Intact) : Json.read v.compact = .ok v :=
  read_compact intact.received intact.whole

theorem Intact.null : Intact .null := ⟨trivial, trivial⟩

theorem Intact.empty : Intact (.object []) := ⟨⟨List.nodup_nil, trivial⟩, trivial⟩

theorem intact_list {items : List Json} : Intact (.list items) ↔ ∀ v ∈ items, v.Intact := by
  constructor
  · intro intact v member
    exact ⟨receivedItems_iff.mp intact.received v member, wholeItems_iff.mp intact.whole v member⟩
  · intro intact
    exact ⟨receivedItems_iff.mpr fun v member => (intact v member).received,
      wholeItems_iff.mpr fun v member => (intact v member).whole⟩

theorem Intact.value {members : List (Text × Json)} {m : Text × Json}
    (intact : Intact (.object members)) (member : m ∈ members) : m.2.Intact :=
  ⟨(receivedMembers_iff.mp intact.received.2 m member).2, wholeMembers_iff.mp intact.whole m member⟩

theorem mem_of_get {name : Text} {members : Members} {v : Json}
    (found : Members.get? name members = some v) : (name, v) ∈ members := by
  induction members with
  | nil => cases found
  | cons first members ih =>
    obtain ⟨key, value⟩ := first
    rw [Members.get?] at found
    split at found
    next same =>
      cases found
      rw [same]
      exact List.mem_cons_self
    next => exact List.mem_cons_of_mem _ (ih found)

theorem Intact.member {name : Text} {v w : Json} (intact : v.Intact)
    (found : v.member name = .ok w) : w.Intact := by
  cases v with
  | object members =>
    rw [Json.member] at found
    split at found
    next value inside =>
      cases found
      exact intact.value (mem_of_get inside)
    next => cases found
  | _ => cases found

theorem Intact.member? {name : Text} {v w : Json} (intact : v.Intact)
    (found : v.member? name = .ok (some w)) : w.Intact := by
  cases v with
  | object members =>
    rw [Json.member?, Except.ok.injEq] at found
    exact intact.value (mem_of_get found)
  | _ => cases found

mutual

/-- The compact form of a value is the same at every depth. -/
theorem write_compact_depth (v : Json) (d e : Nat) : write .compact d v = write .compact e v := by
  match v with
  | .null => rfl
  | .bool true => rfl
  | .bool false => rfl
  | .int _ => rfl
  | .float _ => rfl
  | .str _ => rfl
  | .list [] => rfl
  | .list (v :: rest) =>
    rw [write, write, write_compact_depth v _ (e + 1), writeItems_compact_depth rest _ (e + 1)]
    rfl
  | .object [] => rfl
  | .object ((k, v) :: rest) =>
    rw [write, write, write_compact_depth v _ (e + 1), writeMembers_compact_depth rest _ (e + 1)]
    rfl

theorem writeItems_compact_depth (items : List Json) (d e : Nat) :
    writeItems .compact d items = writeItems .compact e items := by
  match items with
  | [] => rfl
  | v :: rest =>
    rw [writeItems, writeItems, write_compact_depth v d e, writeItems_compact_depth rest d e]
    rfl

theorem writeMembers_compact_depth (members : List (Text × Json)) (d e : Nat) :
    writeMembers .compact d members = writeMembers .compact e members := by
  match members with
  | [] => rfl
  | (k, v) :: rest =>
    rw [writeMembers, writeMembers, write_compact_depth v d e, writeMembers_compact_depth rest d e]
    rfl

end

theorem rowOf_compact {depth : Nat} {items : List Json} :
    rowOf .compact depth items = Text.join "," (items.map compact) := by
  induction items with
  | nil => rfl
  | cons v items ih =>
    cases items with
    | nil =>
      rw [rowOf, writeItems, List.append_nil]
      exact write_compact_depth v depth 0
    | cons w items =>
      rw [rowOf, items_cons, ih, write_compact_depth v depth 0]
      simp only [List.map_cons, Text.join, List.append_assoc]
      rfl

/-- The compact form of a list is the compact forms of its elements between brackets. -/
theorem compact_list {items : List Json} :
    compact (.list items) = "[" ++ Text.join "," (items.map compact) ++ "]" := by
  cases items with
  | nil => rfl
  | cons v items =>
    rw [compact, write_list, rowOf_compact]
    rfl

/-- A member of an object in the compact form. -/
def compactMember (m : Text × Json) : Text := Style.compact.quote m.1 ++ ":" ++ m.2.compact

theorem memberRow_compact {depth : Nat} {members : List (Text × Json)} :
    memberRow .compact depth members = Text.join "," (members.map compactMember) := by
  induction members with
  | nil => rfl
  | cons m members ih =>
    obtain ⟨k, v⟩ := m
    cases members with
    | nil =>
      rw [memberRow, writeMembers, List.append_nil, write_compact_depth v depth 0]
      rfl
    | cons n members =>
      rw [memberRow, members_cons, ih, write_compact_depth v depth 0]
      simp only [List.map_cons, Text.join, compactMember, List.append_assoc]
      rfl

/-- The compact form of an object is its members in their order between braces. -/
theorem compact_object {members : List (Text × Json)} :
    compact (.object members) = "\x7b" ++ Text.join "," (members.map compactMember) ++ "\x7d" := by
  cases members with
  | nil => rfl
  | cons m members =>
    rw [compact, write_object, memberRow_compact]
    rfl

end GrammarBundle.Json
