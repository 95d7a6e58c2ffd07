import GrammarBundle.Proofs.Json.Strings
import GrammarBundle.Proofs.Text.Numerals

/-!
Values of JSON read back. What a style writes for a value without floating numbers is read as that value,
but for the surrogate pairs in its texts.
-/

namespace GrammarBundle.Json

mutual

/-- A value without floating numbers, and without whole numbers that are too long to be read. -/
def Readable : Json → Prop
  | .float _ => False
  | .int n => (Text.ofNat n.natAbs).length ≤ digitLimit
  | .list items => ReadableItems items
  | .object members => ReadableMembers members
  | _ => True

def ReadableItems : List Json → Prop
  | [] => True
  | v :: rest => Readable v ∧ ReadableItems rest

def ReadableMembers : List (Text × Json) → Prop
  | [] => True
  | (_, v) :: rest => Readable v ∧ ReadableMembers rest

end

mutual

/-- The value with each surrogate pair of its texts as one character. -/
def paired : Json → Json
  | .str t => .str t.paired
  | .list items => .list (pairedItems items)
  | .object members => .object (Members.ofSettings (pairedMembers members))
  | v => v

def pairedItems : List Json → List Json
  | [] => []
  | v :: rest => paired v :: pairedItems rest

def pairedMembers : List (Text × Json) → List (Text × Json)
  | [] => []
  | (k, v) :: rest => (k.paired, paired v) :: pairedMembers rest

end

/-- A style whose texts are read back: its commas and colons stand first in what it writes for them. -/
structure Style.Legible (style : Style) : Prop where
  point : Reads style.point
  comma : ∃ blank, style.comma = .char ',' :: blank ∧ ∀ p ∈ blank, isSpace p = true
  colon : ∃ blank, style.colon = .char ':' :: blank ∧ ∀ p ∈ blank, isSpace p = true

theorem legible_compact : Style.compact.Legible :=
  ⟨Written.reads compact_written, ⟨[], rfl, by simp⟩, ⟨[], rfl, by simp⟩⟩

theorem legible_line : Style.line.Legible :=
  ⟨Written.reads portable_written, ⟨[.char ' '], rfl, by decide⟩, ⟨[.char ' '], rfl, by decide⟩⟩

theorem legible_pretty : Style.pretty.Legible :=
  ⟨Written.reads portable_written, ⟨[], rfl, by simp⟩, ⟨[.char ' '], rfl, by decide⟩⟩

/-- A text that may stand after a value. -/
def Closes (rest : Text) : Prop :=
  ∀ p tail, rest = p :: tail → p ∈ [.char ',', .char ']', .char '}', .char '\n']

section

variable {style : Style} {depth : Nat} {p : CodePoint} {t rest tail blank : Text}

theorem closes_cons (mark : p ∈ [CodePoint.char ',', .char ']', .char '}', .char '\n']) :
    Closes (p :: tail) := by
  intro q tail' same
  cases same
  exact mark

theorem skip_blank (spaces : ∀ p ∈ blank, isSpace p = true) :
    skipSpace (blank ++ t) = skipSpace t :=
  List.dropWhile_append_of_pos spaces

theorem skip_mark (mark : isSpace p = false) : skipSpace (p :: tail) = p :: tail := by
  rw [skipSpace, List.dropWhile_cons_of_neg (by simp [mark])]

theorem break_blank : ∀ p ∈ style.break depth, isSpace p = true := by
  intro p member
  unfold Style.break Text.onlyIf at member
  split at member
  · rcases List.mem_cons.mp member with rfl | member
    · rfl
    · rw [List.eq_of_mem_replicate member]
      rfl
  · cases member

theorem closes_break (closed : Closes rest) : Closes (style.break depth ++ rest) := by
  unfold Style.break Text.onlyIf
  split
  · exact closes_cons (by simp)
  · exact closed

/-- A written value starts with a code point that is no blank, no mark of an order of bytes, and closes
nothing. -/
def Opens (t : Text) : Prop :=
  ∃ p tail, t = p :: tail ∧ isSpace p = false ∧ p ≠ .char ']' ∧ p ≠ .char '\uFEFF'

theorem opens_digits {n : Nat} : Opens (Text.ofNat n) := by
  obtain ⟨p, tail, found⟩ := List.exists_cons_of_ne_nil (Text.ofNat_ne_nil (n := n))
  have digit : p.isDigit = true := Text.isDigit_ofNat p (found ▸ List.mem_cons_self)
  refine ⟨p, tail, found, ?_, ?_, ?_⟩
  · rw [← Bool.not_eq_true]
    intro space
    cases p with
    | char c =>
      simp only [isSpace, CodePoint.isOneOf, List.contains_eq_mem, decide_eq_true_eq] at space
      simp only [List.mem_cons, List.not_mem_nil, or_false] at space
      rcases space with rfl | rfl | rfl | rfl <;> exact absurd digit (by decide)
    | surrogate u => cases space
  all_goals
    rintro rfl
    exact absurd digit (by decide)

/-- A written integer starts with a digit or a minus sign, and so with no mark of another value. -/
theorem opens_int {n : Int} : ∃ p tail, Text.ofInt n = p :: tail ∧
    p ≠ .char '"' ∧ p ≠ .char '[' ∧ p ≠ .char '{' := by
  cases n with
  | ofNat n =>
    obtain ⟨p, tail, found⟩ := List.exists_cons_of_ne_nil (Text.ofNat_ne_nil (n := n))
    have digit : p.isDigit = true := Text.isDigit_ofNat p (found ▸ List.mem_cons_self)
    refine ⟨p, tail, found, ?_, ?_, ?_⟩
    all_goals
      rintro rfl
      cases digit
  | negSucc n => exact ⟨_, _, rfl, by decide, by decide, by decide⟩

theorem opens_write {v : Json} (readable : v.Readable) : Opens (write style depth v) := by
  match v with
  | .null => exact ⟨.char 'n', _, rfl, rfl, by decide, by decide⟩
  | .bool true => exact ⟨.char 't', _, rfl, rfl, by decide, by decide⟩
  | .bool false => exact ⟨.char 'f', _, rfl, rfl, by decide, by decide⟩
  | .int (.ofNat n) => exact opens_digits
  | .int (.negSucc n) => exact ⟨.char '-', _, rfl, rfl, by decide, by decide⟩
  | .float x => exact readable.elim
  | .str t => exact ⟨.char '"', _, rfl, rfl, by decide, by decide⟩
  | .list [] => exact ⟨.char '[', _, rfl, rfl, by decide, by decide⟩
  | .list (v :: items) =>
    rw [write]
    exact ⟨.char '[', _, rfl, rfl, by decide, by decide⟩
  | .object [] => exact ⟨.char '{', _, rfl, rfl, by decide, by decide⟩
  | .object ((k, v) :: members) =>
    rw [write]
    exact ⟨.char '{', _, rfl, rfl, by decide, by decide⟩

theorem no_word (digit : p.isDigit = true) :
    words.find? (fun (word, _) => word.isPrefixOf (p :: tail)) = none := by
  have other {c : Char} (letter : (CodePoint.char c).isDigit = false) : (CodePoint.char c == p) = false := by
    rw [beq_eq_false_iff_ne]
    rintro rfl
    rw [digit] at letter
    cases letter
  simp [words, Text.ofString, List.isPrefixOf, other (c := 'n') rfl, other (c := 't') rfl,
    other (c := 'f') rfl, other (c := 'N') rfl, other (c := 'I') rfl, other (c := '-') rfl]

theorem no_word_after_minus (digit : p.isDigit = true) :
    words.find? (fun (word, _) => word.isPrefixOf (.char '-' :: p :: tail)) = none := by
  have other : (CodePoint.char 'I' == p) = false := by
    rw [beq_eq_false_iff_ne]
    rintro rfl
    cases digit
  simp [words, Text.ofString, List.isPrefixOf, other]

theorem no_digit_of_closes (closed : Closes rest) : rest.takeWhile (·.isDigit) = [] := by
  cases rest with
  | nil => rfl
  | cons p tail =>
    have mark := closed p tail rfl
    simp only [List.mem_cons, List.not_mem_nil, or_false] at mark
    rcases mark with rfl | rfl | rfl | rfl <;> rfl

theorem digits_written {n : Nat} (closed : Closes rest) :
    (Text.ofNat n ++ rest).takeWhile (·.isDigit) = Text.ofNat n := by
  rw [List.takeWhile_append_of_pos Text.isDigit_ofNat, no_digit_of_closes closed, List.append_nil]

theorem whole_digits {n : Nat} (closed : Closes rest) :
    wholeDigits (Text.ofNat n ++ rest) = Text.ofNat n := by
  by_cases zero : n = 0
  · subst zero
    rw [Text.ofNat, if_pos (by decide)]
    rfl
  · have first := Text.head_ofNat zero
    have digits := digits_written (n := n) closed
    obtain ⟨p, tail, found⟩ := List.exists_cons_of_ne_nil (Text.ofNat_ne_nil (n := n))
    rw [found] at first digits ⊢
    unfold wholeDigits
    split
    next same => exact absurd (congrArg List.head? same) first
    · exact digits

/-- A written natural number is read back, with the sign that stood before it. -/
theorem number_written (start : Text) (negative : Bool) {n : Nat}
    (short : (Text.ofNat n).length ≤ digitLimit) (closed : Closes rest) :
    number start negative (Text.ofNat n ++ rest) =
      .ok (.int (if negative then -(n : Int) else n), rest) := by
  have plain : fraction rest = ([], rest) ∧ exponent? rest = none := by
    cases rest with
    | nil => exact ⟨rfl, rfl⟩
    | cons p tail =>
      have mark := closed p tail rfl
      simp only [List.mem_cons, List.not_mem_nil, or_false] at mark
      rcases mark with rfl | rfl | rfl | rfl <;> exact ⟨rfl, rfl⟩
  unfold number
  rw [whole_digits closed]
  dsimp only
  rw [List.drop_left, Text.nat?_ofNat]
  dsimp only
  rw [plain.1]
  dsimp only
  rw [plain.2]
  dsimp only
  rw [if_pos List.isEmpty_nil, if_neg (Nat.not_lt.mpr short)]

theorem int_written {n : Int} (short : (Text.ofNat n.natAbs).length ≤ digitLimit)
    (closed : Closes rest) : wordOrNumber (Text.ofInt n ++ rest) = .ok (.int n, rest) := by
  have digit {m : Nat} : ∃ p tail, Text.ofNat m = p :: tail ∧ p.isDigit = true := by
    obtain ⟨p, tail, found⟩ := List.exists_cons_of_ne_nil (Text.ofNat_ne_nil (n := m))
    exact ⟨p, tail, found, Text.isDigit_ofNat p (found ▸ List.mem_cons_self)⟩
  cases n with
  | ofNat n =>
    obtain ⟨p, tail, found, first⟩ := digit (m := n)
    have written := number_written (n := n) (Text.ofNat n ++ rest) false short closed
    unfold wordOrNumber
    rw [Text.ofInt, found, List.cons_append, no_word first]
    rw [found, List.cons_append] at written
    dsimp only
    split
    next same =>
      rw [(List.cons.inj same).1] at first
      cases first
    · exact written
  | negSucc n =>
    obtain ⟨p, tail, found, first⟩ := digit (m := n + 1)
    have written := number_written (n := n + 1) (.char '-' :: (Text.ofNat (n + 1) ++ rest))
      true short closed
    unfold wordOrNumber
    rw [Text.ofInt, List.cons_append, found, List.cons_append, no_word_after_minus first]
    rw [found, List.cons_append] at written
    exact written

theorem skip_opens (opens : Opens t) : skipSpace t = t := by
  obtain ⟨p, tail, rfl, mark, _⟩ := opens
  exact skip_mark mark

theorem opens_quote : Opens (.char '"' :: tail) := ⟨_, _, rfl, rfl, by decide, by decide⟩

theorem Opens.append (opens : Opens t) : Opens (t ++ tail) := by
  obtain ⟨p, t, rfl, first⟩ := opens
  exact ⟨p, t ++ tail, rfl, first⟩

variable {fuel : Nat} {v : Json} {items : List Json} {settings : List (Text × Json)} {name : Text}

theorem value_word (quote : p ≠ .char '"') (bracket : p ≠ .char '[') (brace : p ≠ .char '{') :
    value (fuel + 1) (p :: tail) = wordOrNumber (p :: tail) := by
  unfold value
  split
  next same => exact absurd (List.cons.inj same).1 quote
  next same => exact absurd (List.cons.inj same).1 bracket
  next same => exact absurd (List.cons.inj same).1 brace
  · rfl

theorem value_string (read : stringBody (.char '"' :: t) t = .ok (name, rest)) :
    value (fuel + 1) (.char '"' :: t) = .ok (.str name, rest) := by
  rw [value, read]

theorem value_list (spaces : ∀ p ∈ blank, isSpace p = true) (opens : Opens t)
    (read : elements fuel t = .ok (items, rest)) :
    value (fuel + 1) (.char '[' :: (blank ++ t)) = .ok (.list items, rest) := by
  obtain ⟨p, t, rfl, mark, apart, _⟩ := opens
  rw [value, skip_blank spaces, skip_mark mark]
  split
  next same => exact absurd (List.cons.inj same).1 apart
  · rw [read]

theorem value_object (spaces : ∀ p ∈ blank, isSpace p = true)
    (read : members fuel (.char '"' :: t) = .ok (settings, rest)) :
    value (fuel + 1) (.char '{' :: (blank ++ .char '"' :: t)) =
      .ok (.object (Members.ofSettings settings), rest) := by
  rw [value, skip_blank spaces, skip_mark rfl]
  split
  next same => exact absurd (List.cons.inj same).1 (by decide)
  · rw [read]

theorem elements_last (spaces : ∀ p ∈ blank, isSpace p = true)
    (read : value fuel t = .ok (v, blank ++ .char ']' :: rest)) :
    elements (fuel + 1) t = .ok ([v], rest) := by
  rw [elements, read]
  dsimp only
  rw [skip_blank spaces, skip_mark rfl]
  rfl

theorem elements_more (spaces : ∀ p ∈ blank, isSpace p = true) (opens : Opens t)
    (read : value fuel tail = .ok (v, .char ',' :: (blank ++ t)))
    (later : elements fuel t = .ok (items, rest)) :
    elements (fuel + 1) tail = .ok (v :: items, rest) := by
  rw [elements, read]
  dsimp only
  rw [skip_mark rfl]
  split
  next same => exact absurd (List.cons.inj same).1 (by decide)
  next same =>
    cases same
    rw [skip_blank spaces, skip_opens opens, later]
  next other => exact absurd rfl (other _)

/-- A member is read up to what stands after its value. -/
theorem members_step (spaces : ∀ p ∈ blank, isSpace p = true) (opens : Opens t)
    (named : stringBody (.char '"' :: tail) tail = .ok (name, .char ':' :: (blank ++ t)))
    (read : value fuel t = .ok (v, rest)) :
    members (fuel + 1) (.char '"' :: tail) =
      match skipSpace rest with
      | .char '}' :: rest => .ok ([(name, v)], rest)
      | .char ',' :: rest =>
        match members fuel (skipSpace rest) with
        | .error stop => .error stop
        | .ok (settings, rest) => .ok ((name, v) :: settings, rest)
      | rest => .error (.badForm .expectedComma rest) := by
  rw [members, named]
  dsimp only
  rw [skip_mark rfl]
  split
  next same =>
    cases same
    rw [skip_blank spaces, skip_opens opens]
    generalize value fuel t = found at read
    subst read
    rfl
  next other => exact absurd rfl (other _)

theorem members_last {after : Text} (spaces : ∀ p ∈ blank, isSpace p = true) (opens : Opens t)
    (named : stringBody (.char '"' :: tail) tail = .ok (name, .char ':' :: (blank ++ t)))
    (read : value fuel t = .ok (v, after ++ .char '}' :: rest))
    (closing : ∀ p ∈ after, isSpace p = true) :
    members (fuel + 1) (.char '"' :: tail) = .ok ([(name, v)], rest) := by
  rw [members_step spaces opens named read, skip_blank closing, skip_mark rfl]
  rfl

theorem members_more {gap next : Text} (spaces : ∀ p ∈ blank, isSpace p = true) (opens : Opens t)
    (named : stringBody (.char '"' :: tail) tail = .ok (name, .char ':' :: (blank ++ t)))
    (read : value fuel t = .ok (v, .char ',' :: (gap ++ next)))
    (gap_spaces : ∀ p ∈ gap, isSpace p = true) (next_opens : Opens next)
    (later : members fuel next = .ok (settings, rest)) :
    members (fuel + 1) (.char '"' :: tail) = .ok ((name, v) :: settings, rest) := by
  rw [members_step spaces opens named read, skip_mark rfl]
  split
  next same => exact absurd (List.cons.inj same).1 (by decide)
  next same =>
    cases same
    rw [skip_blank gap_spaces, skip_opens next_opens, later]
  next other => exact absurd rfl (other _)

/-- The elements of a list as they are written, from the first one on. -/
def rowOf (style : Style) (depth : Nat) : List Json → Text
  | [] => []
  | v :: rest => write style depth v ++ writeItems style depth rest

/-- The members of an object as they are written, from the first one on. -/
def memberRow (style : Style) (depth : Nat) : List (Text × Json) → Text
  | [] => []
  | (k, v) :: rest =>
    style.quote k ++ style.colon ++ write style depth v ++ writeMembers style depth rest

theorem write_list :
    write style depth (.list (v :: items)) = .char '[' :: (style.break (depth + 1) ++
      (rowOf style (depth + 1) (v :: items) ++ (style.break depth ++ [.char ']']))) := by
  rw [write, rowOf]
  simp only [List.append_assoc]
  rfl

theorem write_object {member : Text × Json} :
    write style depth (.object (member :: settings)) = .char '{' :: (style.break (depth + 1) ++
      (memberRow style (depth + 1) (member :: settings) ++ (style.break depth ++ [.char '}']))) := by
  obtain ⟨k, v⟩ := member
  rw [write, memberRow]
  simp only [List.append_assoc]
  rfl

theorem items_cons : writeItems style depth (v :: items) =
    style.comma ++ (style.break depth ++ rowOf style depth (v :: items)) := by
  rw [writeItems, rowOf]
  simp only [List.append_assoc]

theorem memberRow_text {k : Text} : memberRow style depth ((k, v) :: settings) ++ tail =
    .char '"' :: (k.flatMap style.point ++ ([.char '"'] ++ (style.colon ++
      (write style depth v ++ (writeMembers style depth settings ++ tail))))) := by
  rw [memberRow, Style.quote]
  simp only [List.append_assoc, List.cons_append]

theorem members_cons {member : Text × Json} : writeMembers style depth (member :: settings) =
    style.comma ++ (style.break depth ++ memberRow style depth (member :: settings)) := by
  obtain ⟨k, v⟩ := member
  rw [writeMembers, memberRow]
  simp only [List.append_assoc]

end

section

variable {style : Style} {depth fuel : Nat} {rest blank : Text}

theorem row_opens {v : Json} {items : List Json} (readable : v.Readable) :
    Opens (rowOf style depth (v :: items)) :=
  (opens_write readable).append

theorem length_opens {t : Text} (opens : Opens t) : 0 < t.length := by
  obtain ⟨p, tail, rfl, _⟩ := opens
  exact Nat.zero_lt_succ _

/-- The text of a string in quotes is read back. -/
theorem quote_written (legible : style.Legible) {start t : Text} :
    stringBody start (t.flatMap style.point ++ ([.char '"'] ++ rest)) = .ok (t.paired, rest) :=
  body_written legible.point start t rest

end

mutual

/-- A written value is read back, whatever closes it. -/
theorem value_written {style : Style} (legible : style.Legible) (v : Json) (depth fuel : Nat)
    {rest : Text} (readable : v.Readable) (closed : Closes rest)
    (enough : 2 * (write style depth v).length ≤ fuel) :
    value fuel (write style depth v ++ rest) = .ok (v.paired, rest) := by
  have some_text : 0 < (write style depth v).length := length_opens (opens_write readable)
  obtain ⟨fuel, rfl⟩ : ∃ less, fuel = less + 1 := ⟨fuel - 1, by omega⟩
  match v with
  | .null => exact value_word (by decide) (by decide) (by decide)
  | .bool true => exact value_word (by decide) (by decide) (by decide)
  | .bool false => exact value_word (by decide) (by decide) (by decide)
  | .int n =>
    obtain ⟨p, tail, found, quote, bracket, brace⟩ := opens_int (n := n)
    have read := int_written readable closed
    rw [found, List.cons_append] at read
    rw [write, found, List.cons_append, value_word quote bracket brace, read]
    rfl
  | .float x => exact readable.elim
  | .str t =>
    rw [write, Style.quote, List.cons_append, List.cons_append, List.append_assoc]
    exact value_string (quote_written legible)
  | .list [] => rfl
  -- The brackets pay for the fuel that the elements need besides their text.
  | .list (v :: items) =>
    rw [write_list] at enough ⊢
    simp only [List.cons_append, List.append_assoc]
    apply value_list break_blank (row_opens readable.1).append
    refine elements_written legible (v :: items) _ _ _ _ (by simp) readable ?_
    simp only [List.length_cons, List.length_append] at enough
    omega
  | .object [] => rfl
  | .object ((k, v) :: settings) =>
    rw [write_object] at enough ⊢
    simp only [List.cons_append, List.append_assoc]
    apply value_object break_blank
    refine members_written legible ((k, v) :: settings) _ _ _ _ (by simp) readable ?_
    simp only [List.length_cons, List.length_append] at enough
    omega

theorem elements_written {style : Style} (legible : style.Legible) (items : List Json)
    (depth back fuel : Nat) (rest : Text) (some_items : items ≠ [])
    (readable : ReadableItems items) (enough : 2 * (rowOf style depth items).length + 1 ≤ fuel) :
    elements fuel (rowOf style depth items ++ (style.break back ++ .char ']' :: rest)) =
      .ok (pairedItems items, rest) := by
  obtain ⟨fuel, rfl⟩ : ∃ less, fuel = less + 1 := ⟨fuel - 1, by omega⟩
  match items with
  | [v] =>
    have closed : Closes (style.break back ++ .char ']' :: rest) := closes_break (closes_cons (by simp))
    rw [rowOf, writeItems, List.append_nil] at enough ⊢
    exact elements_last break_blank
      (value_written legible v _ _ readable.1 closed (by omega))
  | v :: w :: items =>
    obtain ⟨blank, comma, spaces⟩ := legible.comma
    have next : writeItems style depth (w :: items) ++ (style.break back ++ .char ']' :: rest) =
        .char ',' :: (blank ++ style.break depth ++
          (rowOf style depth (w :: items) ++ (style.break back ++ .char ']' :: rest))) := by
      rw [items_cons, comma]
      simp only [List.cons_append, List.append_assoc]
    have size : (rowOf style depth (v :: w :: items)).length =
        (write style depth v).length + (blank.length + 1 + ((style.break depth).length +
          (rowOf style depth (w :: items)).length)) := by
      rw [rowOf, items_cons, comma]
      simp only [List.length_append, List.length_cons]
    have closed : Closes (.char ',' :: (blank ++ style.break depth ++
        (rowOf style depth (w :: items) ++ (style.break back ++ .char ']' :: rest)))) :=
      closes_cons (by simp)
    have first := value_written legible v depth fuel readable.1 closed (by omega)
    have later := elements_written legible (w :: items) depth back fuel rest (by simp) readable.2
      (by omega)
    have skipped : ∀ p ∈ blank ++ style.break depth, isSpace p = true := by
      intro p member
      exact (List.mem_append.mp member).elim (spaces p) (break_blank p)
    rw [rowOf, List.append_assoc, next]
    exact elements_more skipped (row_opens readable.2.1).append first later

theorem members_written {style : Style} (legible : style.Legible) (settings : List (Text × Json))
    (depth back fuel : Nat) (rest : Text) (some_members : settings ≠ [])
    (readable : ReadableMembers settings)
    (enough : 2 * (memberRow style depth settings).length + 1 ≤ fuel) :
    members fuel (memberRow style depth settings ++ (style.break back ++ .char '}' :: rest)) =
      .ok (pairedMembers settings, rest) := by
  obtain ⟨fuel, rfl⟩ : ∃ less, fuel = less + 1 := ⟨fuel - 1, by omega⟩
  obtain ⟨gap, colon, gap_spaces⟩ := legible.colon
  match settings with
  | [(k, v)] =>
    have closed : Closes (style.break back ++ .char '}' :: rest) := closes_break (closes_cons (by simp))
    have size : (write style depth v).length ≤ (memberRow style depth [(k, v)]).length := by
      rw [memberRow, writeMembers]
      simp only [List.length_append, List.length_nil]
      omega
    have first := value_written legible v depth fuel readable.1 closed (by omega)
    rw [memberRow_text, colon, writeMembers, List.nil_append, List.cons_append]
    exact members_last gap_spaces (opens_write readable.1).append (quote_written legible) first
      break_blank
  | (k, v) :: member :: settings =>
    obtain ⟨blank, comma, spaces⟩ := legible.comma
    have next : writeMembers style depth (member :: settings) ++
        (style.break back ++ .char '}' :: rest) = .char ',' :: (blank ++ style.break depth ++
          (memberRow style depth (member :: settings) ++ (style.break back ++ .char '}' :: rest))) := by
      rw [members_cons, comma]
      simp only [List.cons_append, List.append_assoc]
    have size : (write style depth v).length + (memberRow style depth (member :: settings)).length <
        (memberRow style depth ((k, v) :: member :: settings)).length := by
      have whole : memberRow style depth ((k, v) :: member :: settings) = style.quote k ++
        style.colon ++ write style depth v ++ writeMembers style depth (member :: settings) := rfl
      rw [whole, members_cons, comma]
      simp only [List.length_append, List.length_cons]
      omega
    have closed : Closes (.char ',' :: (blank ++ style.break depth ++
        (memberRow style depth (member :: settings) ++ (style.break back ++ .char '}' :: rest)))) :=
      closes_cons (by simp)
    have first := value_written legible v depth fuel readable.1 closed (by omega)
    have later := members_written legible (member :: settings) depth back fuel rest (by simp)
      readable.2 (by omega)
    have skipped : ∀ p ∈ blank ++ style.break depth, isSpace p = true := by
      intro p inside
      exact (List.mem_append.mp inside).elim (spaces p) (break_blank p)
    have opens : Opens (memberRow style depth (member :: settings)) := opens_quote
    rw [memberRow_text, colon, next, List.cons_append]
    exact members_more gap_spaces (opens_write readable.1).append (quote_written legible) first
      skipped opens.append later

end

/-- What a style writes on no depth is read as a whole text. -/
theorem read_write {style : Style} {v : Json} (legible : style.Legible) (readable : v.Readable) :
    read (write style 0 v) = .ok v.paired := by
  have opens : Opens (write style 0 v) := opens_write readable
  have closed : Closes [] := fun _ _ same => absurd same (by simp)
  have whole := value_written legible v 0 (2 * (write style 0 v).length + 2) readable closed
    (by omega)
  rw [List.append_nil] at whole
  have all : readAll (write style 0 v) = .ok v.paired := by
    unfold readAll
    split
    next mark =>
      obtain ⟨p, tail, found, _, _, apart⟩ := opens
      rw [found] at mark
      exact absurd (List.cons.inj mark).1 apart
    · rw [skip_opens opens, whole]
      rfl
  rw [read, all]

end GrammarBundle.Json
