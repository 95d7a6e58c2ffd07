import GrammarBundle.Json.Shape
import GrammarBundle.Proofs.Json.Compact
import GrammarBundle.Proofs.Json.ReadBack

/-!
Where a written value ends. The compact form is a prefix code: two texts that start with written values,
each closed by what may follow a value, are equal only if the values are equal, and so is what follows.
Values need not be such that reading gives them back: numbers may have any length, and texts may hold
surrogate pairs.
-/

namespace GrammarBundle.Json

section

variable {p q : CodePoint} {r s t u : Text}

/-- The code point written at the head of a string's inside, and the text after it; units stay apart. -/
def pointAt? : Text → Option (CodePoint × Text)
  | .char '\\' :: .char 'u' :: digits =>
    (fourHex? digits).map fun n => (.ofNat n, digits.drop 4)
  | .char '\\' :: rest =>
    match escape [] [] rest with
    | .ok (q, count) => some (q, rest.drop count)
    | .error _ => none
  | p :: rest => some (p, rest)
  | [] => none

theorem pointAt_short {e : Text} (short : shortEscape? p = some e) :
    pointAt? (e ++ r) = some (p, r) := by
  unfold shortEscape? at short
  split at short <;> cases short <;> rfl

theorem pointAt_unit {n : Nat} (small : n < 0x10000) :
    pointAt? (unitEscape n ++ r) = some (.ofNat n, r) := by
  change (fourHex? (Text.hex 4 n ++ r)).map (fun m => (CodePoint.ofNat m, (Text.hex 4 n ++ r).drop 4)) = _
  rw [fourHex_hex small, drop_hex]
  rfl

theorem pointAt_plain (backslash : p ≠ .char '\\') : pointAt? (p :: r) = some (p, r) := by
  unfold pointAt?
  split
  next same => exact absurd (List.cons.inj same).1 backslash
  next same => exact absurd (List.cons.inj same).1 backslash
  next same =>
    cases same
    rfl
  next same => cases same

theorem pointAt_compactPoint : pointAt? (compactPoint p ++ r) = some (p, r) := by
  unfold compactPoint
  split
  next e short => exact pointAt_short short
  next plain =>
    split
    next marked =>
      have small : p.val < 0x10000 := by
        rw [Bool.or_eq_true, decide_eq_true_eq] at marked
        rcases marked with control | surrogate
        · omega
        · exact val_lt_of_surrogate surrogate
      rw [pointAt_unit small, CodePoint.ofNat_val]
    · exact pointAt_plain (ne_of_no_escape plain).2

theorem compactPoint_delimited (same : compactPoint p ++ r = compactPoint q ++ s) :
    p = q ∧ r = s := by
  have heads := congrArg pointAt? same
  rw [pointAt_compactPoint, pointAt_compactPoint, Option.some.injEq, Prod.mk.injEq] at heads
  exact heads

/-- No written code point starts with the quote that ends a string. -/
theorem quote_ends (same : .char '"' :: r = compactPoint q ++ s) : False := by
  have heads := congrArg pointAt? same
  rw [pointAt_plain (by decide), pointAt_compactPoint, Option.some.injEq, Prod.mk.injEq] at heads
  obtain ⟨rfl, rfl⟩ := heads
  cases same

theorem inside_delimited
    (same : t.flatMap compactPoint ++ .char '"' :: r = u.flatMap compactPoint ++ .char '"' :: s) :
    t = u ∧ r = s := by
  induction t generalizing u with
  | nil =>
    cases u with
    | nil => exact ⟨rfl, (List.cons.inj same).2⟩
    | cons q u =>
      rw [List.flatMap_cons, List.append_assoc] at same
      exact (quote_ends same).elim
  | cons p t ih =>
    cases u with
    | nil =>
      rw [List.flatMap_cons, List.append_assoc] at same
      exact (quote_ends same.symm).elim
    | cons q u =>
      rw [List.flatMap_cons, List.flatMap_cons, List.append_assoc, List.append_assoc] at same
      obtain ⟨rfl, later⟩ := compactPoint_delimited same
      obtain ⟨rfl, rest⟩ := ih later
      exact ⟨rfl, rest⟩

theorem quote_delimited (same : Style.compact.quote t ++ r = Style.compact.quote u ++ s) :
    t = u ∧ r = s := by
  simp only [Style.quote, List.cons_append, List.append_assoc, List.nil_append] at same
  exact inside_delimited (List.cons.inj same).2

end

section

variable {r s : Text} {depth : Nat}

theorem ofNat_delimited {m n : Nat} (closes : Closes r) (closed : Closes s)
    (same : Text.ofNat m ++ r = Text.ofNat n ++ s) : m = n ∧ r = s := by
  have digits := congrArg (List.takeWhile (·.isDigit)) same
  rw [digits_written closes, digits_written closed] at digits
  have number := congrArg Text.nat? digits
  rw [Text.nat?_ofNat, Text.nat?_ofNat, Option.some.injEq] at number
  rw [digits] at same
  exact ⟨number, List.append_cancel_left same⟩

theorem minus_ne_ofNat {n : Nat} (same : .char '-' :: r = Text.ofNat n ++ s) : False := by
  obtain ⟨p, tail, found⟩ := List.exists_cons_of_ne_nil (Text.ofNat_ne_nil (n := n))
  have digit := Text.isDigit_ofNat p (found ▸ List.mem_cons_self)
  rw [found, List.cons_append] at same
  rw [← (List.cons.inj same).1] at digit
  cases digit

theorem ofInt_delimited {m n : Int} (closes : Closes r) (closed : Closes s)
    (same : Text.ofInt m ++ r = Text.ofInt n ++ s) : m = n ∧ r = s := by
  cases m with
  | ofNat m =>
    cases n with
    | ofNat n =>
      obtain ⟨rfl, rest⟩ := ofNat_delimited closes closed same
      exact ⟨rfl, rest⟩
    | negSucc n => exact (minus_ne_ofNat same.symm).elim
  | negSucc m =>
    cases n with
    | ofNat n => exact (minus_ne_ofNat same).elim
    | negSucc n =>
      obtain ⟨number, rest⟩ := ofNat_delimited closes closed (List.cons.inj same).2
      obtain rfl : m = n := Nat.succ.inj number
      exact ⟨rfl, rest⟩

/-- The kind of value that a code point starts, if it starts one. -/
def kindAt? (p : CodePoint) : Option Kind :=
  match p with
  | .char 'n' => some .null
  | .char 't' => some .bool
  | .char 'f' => some .bool
  | .char '"' => some .str
  | .char '[' => some .list
  | .char '{' => some .object
  | .char '-' => some .int
  | p => if p.isDigit then some .int else none

theorem kindAt_digit {p : CodePoint} (digit : p.isDigit = true) : kindAt? p = some .int := by
  unfold kindAt?
  split
  all_goals first | cases digit | rfl | exact if_pos digit

theorem kind_written {v : Json} (depth : Nat) (whole : v.Whole) :
    ∃ p tail, write .compact depth v = p :: tail ∧ kindAt? p = some v.kind := by
  match v with
  | .null => exact ⟨.char 'n', _, rfl, rfl⟩
  | .bool true => exact ⟨.char 't', _, rfl, rfl⟩
  | .bool false => exact ⟨.char 'f', _, rfl, rfl⟩
  | .int (.ofNat n) =>
    obtain ⟨p, tail, found⟩ := List.exists_cons_of_ne_nil (Text.ofNat_ne_nil (n := n))
    exact ⟨p, tail, found, kindAt_digit (Text.isDigit_ofNat p (found ▸ List.mem_cons_self))⟩
  | .int (.negSucc n) => exact ⟨.char '-', _, rfl, rfl⟩
  | .float x => exact whole.elim
  | .str t => exact ⟨.char '"', _, rfl, rfl⟩
  | .list [] => exact ⟨.char '[', _, rfl, rfl⟩
  | .list (v :: items) =>
    rw [write]
    exact ⟨.char '[', _, rfl, rfl⟩
  | .object [] => exact ⟨.char '{', _, rfl, rfl⟩
  | .object ((k, v) :: members) =>
    rw [write]
    exact ⟨.char '{', _, rfl, rfl⟩

/-- Values of one kind. -/
inductive Alike : Json → Json → Prop
  | null : Alike .null .null
  | bool {b c} : Alike (.bool b) (.bool c)
  | int {m n} : Alike (.int m) (.int n)
  | float {x y} : Alike (.float x) (.float y)
  | str {t u} : Alike (.str t) (.str u)
  | list {items others} : Alike (.list items) (.list others)
  | object {members others} : Alike (.object members) (.object others)

theorem alike_of_kind {v w : Json} (same : v.kind = w.kind) : Alike v w := by
  cases v <;> cases w <;> first | constructor | cases same

theorem kind_delimited {v w : Json} (whole : v.Whole) (other : w.Whole)
    (same : write .compact depth v ++ r = write .compact depth w ++ s) : v.kind = w.kind := by
  obtain ⟨p, tail, first, kind⟩ := kind_written depth whole
  obtain ⟨q, rest, second, kind'⟩ := kind_written depth other
  rw [first, second, List.cons_append, List.cons_append] at same
  rw [(List.cons.inj same).1, kind', Option.some.injEq] at kind
  exact kind.symm

/-- What starts no value is not the head of a written value. -/
theorem no_value {p : CodePoint} {v : Json} (whole : v.Whole) (none_starts : kindAt? p = none)
    (same : p :: r = write .compact depth v ++ s) : False := by
  obtain ⟨q, tail, found, kind⟩ := kind_written depth whole
  rw [found, List.cons_append] at same
  rw [← (List.cons.inj same).1, none_starts] at kind
  cases kind

theorem writeItems_cons {v : Json} {items : List Json} :
    writeItems .compact depth (v :: items) ++ r =
      .char ',' :: (write .compact depth v ++ (writeItems .compact depth items ++ r)) := by
  rw [items_cons, rowOf]
  simp only [List.append_assoc]
  rfl

theorem writeMembers_cons {k : Text} {v : Json} {members : List (Text × Json)} :
    writeMembers .compact depth ((k, v) :: members) ++ r =
      .char ',' :: (Style.compact.quote k ++ (.char ':' ::
        (write .compact depth v ++ (writeMembers .compact depth members ++ r)))) := by
  rw [members_cons, memberRow]
  simp only [List.append_assoc]
  rfl

theorem list_cons {v : Json} {items : List Json} :
    write .compact depth (.list (v :: items)) ++ r =
      .char '[' :: (write .compact (depth + 1) v ++
        (writeItems .compact (depth + 1) items ++ .char ']' :: r)) := by
  rw [write_list, rowOf]
  simp only [List.append_assoc, List.cons_append]
  rfl

theorem object_cons {k : Text} {v : Json} {members : List (Text × Json)} :
    write .compact depth (.object ((k, v) :: members)) ++ r =
      .char '{' :: (Style.compact.quote k ++ (.char ':' :: (write .compact (depth + 1) v ++
        (writeMembers .compact (depth + 1) members ++ .char '}' :: r)))) := by
  rw [write_object, memberRow]
  simp only [List.append_assoc, List.cons_append]
  rfl

theorem closes_items {items : List Json} :
    Closes (writeItems .compact depth items ++ .char ']' :: r) := by
  cases items with
  | nil => exact closes_cons (by simp)
  | cons v items =>
    rw [writeItems_cons]
    exact closes_cons (by simp)

theorem closes_members {members : List (Text × Json)} :
    Closes (writeMembers .compact depth members ++ .char '}' :: r) := by
  cases members with
  | nil => exact closes_cons (by simp)
  | cons member members =>
    rw [writeMembers_cons]
    exact closes_cons (by simp)

end

mutual

/-- A written value ends where it says, and nothing else is written like it. -/
theorem write_delimited (v w : Json) (depth : Nat) {r s : Text} (whole : v.Whole) (other : w.Whole)
    (closes : Closes r) (closed : Closes s)
    (same : write .compact depth v ++ r = write .compact depth w ++ s) : v = w ∧ r = s := by
  have alike : Alike v w := alike_of_kind (kind_delimited whole other same)
  match v, w, alike with
  | .null, .null, .null => exact ⟨rfl, List.append_cancel_left same⟩
  | .bool true, .bool true, .bool => exact ⟨rfl, List.append_cancel_left same⟩
  | .bool false, .bool false, .bool => exact ⟨rfl, List.append_cancel_left same⟩
  | .bool true, .bool false, .bool => cases same
  | .bool false, .bool true, .bool => cases same
  | .int m, .int n, .int =>
    obtain ⟨rfl, rest⟩ := ofInt_delimited closes closed same
    exact ⟨rfl, rest⟩
  | .float x, _, _ => exact whole.elim
  | .str t, .str u, .str =>
    obtain ⟨rfl, rest⟩ := quote_delimited same
    exact ⟨rfl, rest⟩
  | .list [], .list [], .list => exact ⟨rfl, List.append_cancel_left same⟩
  | .list [], .list (w :: others), .list =>
    rw [list_cons] at same
    exact (no_value other.1 rfl (List.cons.inj same).2).elim
  | .list (v :: items), .list [], .list =>
    rw [list_cons] at same
    exact (no_value whole.1 rfl (List.cons.inj same).2.symm).elim
  | .list (v :: items), .list (w :: others), .list =>
    rw [list_cons, list_cons] at same
    obtain ⟨rfl, later⟩ := write_delimited v w _ whole.1 other.1 closes_items closes_items
      (List.cons.inj same).2
    obtain ⟨rfl, rest⟩ := writeItems_delimited items others _ whole.2 other.2 later
    exact ⟨rfl, rest⟩
  | .object [], .object [], .object => exact ⟨rfl, List.append_cancel_left same⟩
  | .object [], .object ((l, w) :: others), .object =>
    rw [object_cons] at same
    cases same
  | .object ((k, v) :: members), .object [], .object =>
    rw [object_cons] at same
    cases same
  | .object ((k, v) :: members), .object ((l, w) :: others), .object =>
    rw [object_cons, object_cons] at same
    obtain ⟨rfl, valued⟩ := quote_delimited (List.cons.inj same).2
    obtain ⟨rfl, later⟩ := write_delimited v w _ whole.1 other.1 closes_members closes_members
      (List.cons.inj valued).2
    obtain ⟨rfl, rest⟩ := writeMembers_delimited members others _ whole.2 other.2 later
    exact ⟨rfl, rest⟩

theorem writeItems_delimited (items others : List Json) (depth : Nat) {r s : Text}
    (whole : WholeItems items) (other : WholeItems others)
    (same : writeItems .compact depth items ++ .char ']' :: r =
      writeItems .compact depth others ++ .char ']' :: s) : items = others ∧ r = s := by
  match items, others with
  | [], [] => exact ⟨rfl, (List.cons.inj same).2⟩
  | [], w :: others =>
    rw [writeItems_cons] at same
    cases same
  | v :: items, [] =>
    rw [writeItems_cons] at same
    cases same
  | v :: items, w :: others =>
    rw [writeItems_cons, writeItems_cons] at same
    obtain ⟨rfl, later⟩ := write_delimited v w depth whole.1 other.1 closes_items closes_items
      (List.cons.inj same).2
    obtain ⟨rfl, rest⟩ := writeItems_delimited items others depth whole.2 other.2 later
    exact ⟨rfl, rest⟩

theorem writeMembers_delimited (members others : List (Text × Json)) (depth : Nat) {r s : Text}
    (whole : WholeMembers members) (other : WholeMembers others)
    (same : writeMembers .compact depth members ++ .char '}' :: r =
      writeMembers .compact depth others ++ .char '}' :: s) : members = others ∧ r = s := by
  match members, others with
  | [], [] => exact ⟨rfl, (List.cons.inj same).2⟩
  | [], (l, w) :: others =>
    rw [writeMembers_cons] at same
    cases same
  | (k, v) :: members, [] =>
    rw [writeMembers_cons] at same
    cases same
  | (k, v) :: members, (l, w) :: others =>
    rw [writeMembers_cons, writeMembers_cons] at same
    obtain ⟨rfl, valued⟩ := quote_delimited (List.cons.inj same).2
    obtain ⟨rfl, later⟩ := write_delimited v w depth whole.1 other.1 closes_members closes_members
      (List.cons.inj valued).2
    obtain ⟨rfl, rest⟩ := writeMembers_delimited members others depth whole.2 other.2 later
    exact ⟨rfl, rest⟩

end

end GrammarBundle.Json
