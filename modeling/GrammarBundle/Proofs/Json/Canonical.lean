import GrammarBundle.Proofs.Json.Line
import GrammarBundle.Proofs.Text.Order
import GrammarBundle.Proofs.Text.Utf16

/-!
What is printed is canonical. Values without floating numbers are printed alike, on a line or indented, just
where they are the same but for the order of members, and what is printed is read back as such a value.
A whole number with more digits than are read is not printed at all.
-/

namespace GrammarBundle

namespace Json

mutual

/-- A value without floating numbers, whose texts have no surrogate pairs, and whose objects have distinct
names. Its whole numbers may have any length. -/
def Plain : Json → Prop
  | .float _ => False
  | .str t => t.Unpaired
  | .list items => PlainItems items
  | .object members => (members.map (·.1)).Nodup ∧ PlainMembers members
  | _ => True

def PlainItems : List Json → Prop
  | [] => True
  | v :: rest => Plain v ∧ PlainItems rest

def PlainMembers : List (Text × Json) → Prop
  | [] => True
  | (k, v) :: rest => k.Unpaired ∧ Plain v ∧ PlainMembers rest

end

/-- Values that are the same but for the order of members, at any depth. -/
inductive Reordered : Json → Json → Prop
  | refl (v : Json) : Reordered v v
  | trans {u v w : Json} : Reordered u v → Reordered v w → Reordered u w
  | members {members others : Members} : members.Perm others →
      Reordered (.object members) (.object others)
  | inItem {v w : Json} (front back : List Json) : Reordered v w →
      Reordered (.list (front ++ v :: back)) (.list (front ++ w :: back))
  | inMember {v w : Json} (front back : Members) (name : Text) : Reordered v w →
      Reordered (.object (front ++ (name, v) :: back)) (.object (front ++ (name, w) :: back))

section

variable {v w : Json} {items : List Json} {members others : Members}

theorem plainItems_iff : PlainItems items ↔ ∀ v ∈ items, v.Plain := by
  induction items with
  | nil => simp [PlainItems]
  | cons v rest ih => simp [PlainItems, ih]

theorem plainMembers_iff : PlainMembers members ↔ ∀ m ∈ members, m.1.Unpaired ∧ m.2.Plain := by
  induction members with
  | nil => simp [PlainMembers]
  | cons m rest ih =>
    obtain ⟨k, v⟩ := m
    simp [PlainMembers, ih, and_assoc]

theorem arePrintable_iff : arePrintable items = true ↔ ∀ v ∈ items, v.isPrintable = true := by
  induction items with
  | nil => simp [arePrintable]
  | cons v rest ih => simp [arePrintable, ih]

theorem arePrintableMembers_iff :
    arePrintableMembers members = true ↔ ∀ m ∈ members, m.2.isPrintable = true := by
  induction members with
  | nil => simp [arePrintableMembers]
  | cons m rest ih =>
    obtain ⟨k, v⟩ := m
    simp [arePrintableMembers, ih]

theorem sortKeysItems_eq (items : List Json) : sortKeysItems items = items.map sortKeys := by
  induction items with
  | nil => rfl
  | cons v rest ih => rw [sortKeysItems, ih, List.map_cons]

end

mutual

theorem whole_of_plain {v : Json} (plain : v.Plain) : v.Whole := by
  match v with
  | .null | .bool _ | .int _ | .str _ => trivial
  | .float _ => exact plain
  | .list items => exact wholeItems_of_plain plain
  | .object members => exact wholeMembers_of_plain plain.2

theorem wholeItems_of_plain {items : List Json} (plain : PlainItems items) : WholeItems items := by
  match items with
  | [] => trivial
  | v :: rest => exact ⟨whole_of_plain plain.1, wholeItems_of_plain plain.2⟩

theorem wholeMembers_of_plain {members : List (Text × Json)} (plain : PlainMembers members) :
    WholeMembers members := by
  match members with
  | [] => trivial
  | (k, v) :: rest => exact ⟨whole_of_plain plain.2.1, wholeMembers_of_plain plain.2.2⟩

end

mutual

/-- Plain values whose numbers can be printed are values as reading makes them. -/
theorem received_of_plain {v : Json} (plain : v.Plain) (printable : v.isPrintable = true) :
    v.Received := by
  match v with
  | .null | .bool _ | .float _ => trivial
  | .int n =>
    rw [isPrintable, decide_eq_true_eq] at printable
    exact printable
  | .str t => exact Text.paired_of_unpaired plain
  | .list items => exact receivedItems_of_plain plain printable
  | .object members => exact ⟨plain.1, receivedMembers_of_plain plain.2 printable⟩

theorem receivedItems_of_plain {items : List Json} (plain : PlainItems items)
    (printable : arePrintable items = true) : ReceivedItems items := by
  match items with
  | [] => trivial
  | v :: rest =>
    rw [arePrintable, Bool.and_eq_true] at printable
    exact ⟨received_of_plain plain.1 printable.1, receivedItems_of_plain plain.2 printable.2⟩

theorem receivedMembers_of_plain {members : List (Text × Json)} (plain : PlainMembers members)
    (printable : arePrintableMembers members = true) : ReceivedMembers members := by
  match members with
  | [] => trivial
  | (k, v) :: rest =>
    rw [arePrintableMembers, Bool.and_eq_true] at printable
    exact ⟨Text.paired_of_unpaired plain.1, received_of_plain plain.2.1 printable.1,
      receivedMembers_of_plain plain.2.2 printable.2⟩

end

section

variable {u v w : Json} {members others : Members}

/-- Members of distinct names have one order only in which their names are in order. -/
theorem sorted_perm (distinct : (members.map (·.1)).Nodup) (same : members.Perm others) :
    Members.sorted members = Members.sorted others := by
  have ordered (entries : Members) :
      (Members.sorted entries).Pairwise fun a b => a.1.atMost b.1 = true := by
    apply List.pairwise_mergeSort
    · intro a b c first second
      exact Text.atMost_trans first second
    · exact fun a b => Text.atMost_total a.1 b.1
  have here := List.mergeSort_perm members fun a b => a.1.atMost b.1
  have there := List.mergeSort_perm others fun a b => a.1.atMost b.1
  refine (here.trans (same.trans there.symm)).eq_of_pairwise ?_ (ordered members) (ordered others)
  intro a b inside beside first second
  have named : a.1 = b.1 := Text.atMost_antisymm first second
  exact List.inj_on_of_nodup_map distinct (here.mem_iff.mp inside)
    (same.mem_iff.mpr (there.mem_iff.mp beside)) named

namespace Reordered

theorem symm (same : Reordered v w) : Reordered w v := by
  induction same with
  | refl v => exact .refl v
  | trans _ _ first second => exact .trans second first
  | members moved => exact .members moved.symm
  | inItem front back _ ih => exact .inItem front back ih
  | inMember front back name _ ih => exact .inMember front back name ih

theorem printable_eq (same : Reordered v w) : v.isPrintable = w.isPrintable := by
  induction same with
  | refl v => rfl
  | trans _ _ first second => exact first.trans second
  | members moved =>
    rw [Bool.eq_iff_iff, isPrintable, isPrintable, arePrintableMembers_iff, arePrintableMembers_iff]
    simp only [moved.mem_iff]
  | inItem front back _ ih =>
    rw [Bool.eq_iff_iff, isPrintable, isPrintable, arePrintable_iff, arePrintable_iff]
    simp only [List.mem_append, List.mem_cons, or_imp, forall_and, forall_eq, ih]
  | inMember front back name _ ih =>
    rw [Bool.eq_iff_iff, isPrintable, isPrintable, arePrintableMembers_iff, arePrintableMembers_iff]
    simp only [List.mem_append, List.mem_cons, or_imp, forall_and, forall_eq, ih]

theorem plain (same : Reordered v w) (plain : v.Plain) : w.Plain := by
  induction same with
  | refl v => exact plain
  | trans _ _ first second => exact second (first plain)
  | members moved =>
    refine ⟨(moved.map _).nodup_iff.mp plain.1, plainMembers_iff.mpr fun m member => ?_⟩
    exact plainMembers_iff.mp plain.2 m (moved.mem_iff.mpr member)
  | inItem front back _ ih =>
    rw [Plain, plainItems_iff] at plain ⊢
    simp only [List.mem_append, List.mem_cons, or_imp, forall_and, forall_eq] at plain ⊢
    exact ⟨plain.1, ih plain.2.1, plain.2.2⟩
  | inMember front back name _ ih =>
    rw [Plain, plainMembers_iff, List.map_append, List.map_cons] at plain ⊢
    refine ⟨plain.1, fun m member => ?_⟩
    rcases List.mem_append.mp member with before | later
    · exact plain.2 m (List.mem_append_left _ before)
    · rcases List.mem_cons.mp later with rfl | after
      · have inside := plain.2 _ (List.mem_append_right _ List.mem_cons_self)
        exact ⟨inside.1, ih inside.2⟩
      · exact plain.2 m (List.mem_append_right _ (List.mem_cons_of_mem _ after))

/-- Values that are the same but for the order of members are the same with their members in order. -/
theorem sortKeys_eq (same : Reordered v w) (plain : v.Plain) : v.sortKeys = w.sortKeys := by
  induction same with
  | refl v => rfl
  | trans before _ first second => exact (first plain).trans (second (before.plain plain))
  | members moved =>
    rw [sortKeys, sortKeys, sortKeysMembers_eq, sortKeysMembers_eq]
    refine congrArg Json.object (sorted_perm ?_ (moved.map _))
    rw [List.map_map]
    exact plain.1
  | inItem front back _ ih =>
    rw [Plain, plainItems_iff] at plain
    have inside := plain _ (List.mem_append_right _ List.mem_cons_self)
    simp only [sortKeys, sortKeysItems_eq, List.map_append, List.map_cons, ih inside]
  | inMember front back name _ ih =>
    rw [Plain, plainMembers_iff] at plain
    have inside := plain.2 _ (List.mem_append_right _ List.mem_cons_self)
    simp only [sortKeys, sortKeysMembers_eq, List.map_append, List.map_cons, ih inside.2]

end Reordered

end

mutual

theorem reordered_sortKeys (v : Json) : v.Reordered v.sortKeys := by
  match v with
  | .null | .bool _ | .int _ | .float _ | .str _ => exact .refl _
  | .list items => exact reordered_sortKeysItems [] items
  | .object members =>
    have sorted : (sortKeysMembers members).Perm (Members.sorted (sortKeysMembers members)) :=
      (List.mergeSort_perm _ _).symm
    exact .trans (reordered_sortKeysMembers [] members) (.members sorted)

/-- The elements are put in order one by one. -/
theorem reordered_sortKeysItems (front items : List Json) :
    Reordered (.list (front ++ items)) (.list (front ++ sortKeysItems items)) := by
  match items with
  | [] => exact .refl _
  | v :: rest =>
    have later := reordered_sortKeysItems (front ++ [v.sortKeys]) rest
    rw [List.append_assoc, List.append_assoc] at later
    exact .trans (.inItem front rest (reordered_sortKeys v)) later

theorem reordered_sortKeysMembers (front members : List (Text × Json)) :
    Reordered (.object (front ++ members)) (.object (front ++ sortKeysMembers members)) := by
  match members with
  | [] => exact .refl _
  | (k, v) :: rest =>
    have later := reordered_sortKeysMembers (front ++ [(k, v.sortKeys)]) rest
    rw [List.append_assoc, List.append_assoc] at later
    exact .trans (.inMember front rest k (reordered_sortKeys v)) later

end

/-- Sorting the members of a value at every depth leaves nothing of their order, and nothing else out. -/
theorem sortKeys_eq_iff {v w : Json} (plain : v.Plain) : v.sortKeys = w.sortKeys ↔ v.Reordered w := by
  constructor
  · intro same
    have back := (reordered_sortKeys w).symm
    rw [← same] at back
    exact .trans (reordered_sortKeys v) back
  · exact fun same => same.sortKeys_eq plain

/-- A printable ASCII character, or a line feed. -/
def isLayout (p : CodePoint) : Bool := p.isShown || p = .char '\n'

theorem pretty_layout : Style.pretty.Within isLayout where
  point p := by
    have shown := List.all_eq_true.mp (printable_portablePoint p)
    exact List.all_eq_true.mpr fun q member => by rw [isLayout, shown q member]; rfl
  comma := rfl
  colon := rfl
  gap depth := by
    rw [List.all_eq_true]
    intro p member
    rcases List.mem_cons.mp member with rfl | space
    · rfl
    · rw [List.eq_of_mem_replicate space]
      rfl
  shown p shown := by rw [isLayout, shown]; rfl

/-- What a value is printed as: ASCII text that is read as the value but for the order of members, and
unless it is indented a single line of printable characters. -/
structure Prints (v : Json) (indented : Bool) (t : Text) : Prop where
  ascii : ∀ p ∈ t, p.val < 0x80
  reads : ∃ u, read t = .ok u ∧ v.Reordered u
  line : indented = false → ∀ p ∈ t, p.isShown = true

section

variable {v w : Json}

theorem read_portable (plain : v.Plain) (printable : v.isPrintable = true) (indented : Bool) :
    read (v.portable indented) = .ok v.sortKeys := by
  have ordered := reordered_sortKeys v
  have plain' := ordered.plain plain
  have received := received_of_plain plain' (ordered.printable_eq ▸ printable)
  have readable := readable_of_received received (whole_of_plain plain')
  have settled := paired_of_received received
  unfold portable
  cases indented
  · rw [if_neg (by decide), read_write legible_line readable, settled]
  · rw [if_pos rfl, read_write legible_pretty readable, settled]

theorem shown_portable (v : Json) : (v.portable false).Shown :=
  List.all_eq_true.mp (all_write line_printable 0 v.sortKeys)

/-- Whatever a value is, it is printed in ASCII. -/
theorem ascii_portable (v : Json) (indented : Bool) : ∀ p ∈ v.portable indented, p.val < 0x80 := by
  intro p member
  have layout : isLayout p = true := by
    cases indented
    · rw [isLayout, shown_portable v p member]
      rfl
    · exact List.all_eq_true.mp (all_write pretty_layout 0 v.sortKeys) p member
  rw [isLayout, Bool.or_eq_true, decide_eq_true_eq] at layout
  rcases layout with shown | rfl
  · rw [CodePoint.isShown, Bool.and_eq_true, decide_eq_true_eq, decide_eq_true_eq] at shown
    omega
  · decide

theorem prints_portable (plain : v.Plain) (printable : v.isPrintable = true) (indented : Bool) :
    v.Prints indented (v.portable indented) := by
  refine ⟨ascii_portable v indented,
    ⟨_, read_portable plain printable indented, reordered_sortKeys v⟩, ?_⟩
  rintro rfl
  exact shown_portable v

theorem dump_printable (printable : v.isPrintable = true) (indented : Bool) :
    v.dump indented = .ok (v.portable indented) := by
  rw [dump, if_pos printable]

theorem dump_unprintable (long : v.isPrintable = false) (indented : Bool) :
    v.dump indented = .error .tooManyDigits := by
  rw [dump, long, if_neg (by decide)]

/-- A power of ten has one digit more than its exponent says. -/
theorem length_ofNat_pow (k : Nat) : (Text.ofNat (10 ^ k)).length = k + 1 := by
  induction k with
  | zero => rw [Nat.pow_zero, Text.ofNat, if_pos (by decide)]; rfl
  | succ k ih =>
    have positive : 0 < 10 ^ k := Nat.pow_pos (by decide)
    have front : 10 ^ (k + 1) / 10 = 10 ^ k := by omega
    rw [Text.ofNat, if_neg (by omega), front, List.length_append, ih]
    rfl

theorem unprintable_pow {k : Nat} (long : digitLimit ≤ k) :
    (Json.int (10 ^ k : Nat)).isPrintable = false := by
  rw [isPrintable, Int.natAbs_natCast, length_ofNat_pow, decide_eq_false_iff_not]
  omega

/-- Two values whose numbers can be printed are printed alike just where they are the same but for the
order of members. A value with a longer number is refused. -/
theorem dump_canonical (v w : Json) (plain : v.Plain) (other : w.Plain) (indented : Bool) :
    (v.isPrintable = true → ∃ t, v.dump indented = .ok t ∧ v.Prints indented t) ∧
      (v.isPrintable = true → (v.dump indented = w.dump indented ↔ v.Reordered w)) ∧
      (v.isPrintable = false → v.dump indented = .error .tooManyDigits) := by
  refine ⟨fun printable => ?_, fun printable => ⟨fun same => ?_, fun same => ?_⟩, fun long => ?_⟩
  · exact ⟨_, dump_printable printable indented, prints_portable plain printable indented⟩
  · rw [dump_printable printable] at same
    cases short : w.isPrintable with
    | false =>
      rw [dump_unprintable short] at same
      cases same
    | true =>
      rw [dump_printable short] at same
      have read := read_portable plain printable indented
      rw [Except.ok.inj same, read_portable other short indented] at read
      exact (sortKeys_eq_iff plain).mp (Except.ok.inj read).symm
  · have short : w.isPrintable = true := same.printable_eq ▸ printable
    rw [dump_printable printable, dump_printable short, portable, portable, same.sortKeys_eq plain]
  · exact dump_unprintable long indented

end

/-- Two spellings of one value: an object with nested and empty containers, and a character that is printed
as a surrogate pair. -/
def sample : Json :=
  .object [("b", .list [.int 1, .object [], .list []]), ("a", .str [.char '😀', .ofNat 0xD803])]

def sampleReordered : Json :=
  .object [("a", .str [.char '😀', .ofNat 0xD803]), ("b", .list [.int 1, .object [], .list []])]

theorem dump_canonical_sample : sample.Plain ∧ sampleReordered.Plain ∧ sample.isPrintable = true ∧
    (∃ t, sample.dump true = .ok t ∧ sample.Prints true t) ∧
      (sample.dump true = sampleReordered.dump true ↔ sample.Reordered sampleReordered) :=
  have listed : (Json.list [.int 1, .object [], .list []]).Plain :=
    ⟨trivial, ⟨List.nodup_nil, trivial⟩, trivial, trivial⟩
  have text : Text.Unpaired [.char '😀', .ofNat 0xD803] := by decide
  have plain : sample.Plain := ⟨by decide, by decide, listed, by decide, text, trivial⟩
  have other : sampleReordered.Plain := ⟨by decide, by decide, text, by decide, listed, trivial⟩
  have printable : sample.isPrintable = true := by cbv
  have canonical := dump_canonical sample sampleReordered plain other true
  ⟨plain, other, printable, canonical.1 printable, canonical.2.1 printable⟩

example : sample.dump false = sampleReordered.dump false := by cbv

/-- A whole number with more digits than are printed has no text, though it is plain. -/
theorem long_number_not_printed :
    ¬∀ v w : Json, v.Plain → w.Plain → ∀ indented,
      (v.dump indented = w.dump indented ↔ v.Reordered w) ∧
        ∃ t, v.dump indented = .ok t ∧ v.Prints indented t := by
  intro always
  let long : Json := .int (10 ^ digitLimit : Nat)
  obtain ⟨_, t, printed, _⟩ := always long long trivial trivial false
  rw [dump_unprintable (unprintable_pow (Nat.le_refl _))] at printed
  cases printed

end Json

end GrammarBundle
