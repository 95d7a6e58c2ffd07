import GrammarBundle.Grammar.Rows

/-!
Collections built from rows of the compiler's shape. Each row becomes one entry, and the grammar that it
extends is looked up among the entries of the rows before it, then among the grammars already known, and
is otherwise kept by its name. Either way it has the name that the row gives.
-/

namespace GrammarBundle

/-- A row in the shape in which the compiler answers, with what it says. Names may be any values. -/
structure Row where
  json : Json
  name : Json
  builtIn : Bool
  base : Json
  info : Members
  start : Json
  rules : Members
  named : json.member "name" = .ok name
  extending : ∃ described : Members, json.member? "superGrammar" = .ok (some (.object described)) ∧
    described.get? "name" = some base ∧ described.get? "builtIn" = some (.bool builtIn)
  compiled : ∃ tag again slot more, json.member "recipe" =
    .ok (.list (tag :: .object info :: again :: slot :: start :: .object rules :: more))

namespace Row

/-- The row with which the compiler answers for a grammar. -/
def answered (name : Json) (base : Text) (builtIn : Bool) (info : Members) (start : Json)
    (rules : Members) : Row where
  json := .object [("name", name),
    ("superGrammar", .object [("name", .str base), ("builtIn", .bool builtIn)]),
    ("recipe", .list [.str "grammar", .object info, name, .null, start, .object rules])]
  name := name
  builtIn := builtIn
  base := .str base
  info := info
  start := start
  rules := rules
  named := rfl
  extending := ⟨_, rfl, rfl, rfl⟩
  compiled := ⟨_, _, _, _, rfl⟩

def title (r : Row) : Text := r.name.plain

def baseTitle (r : Row) : Text := r.base.plain

def declaration (r : Row) : Declaration := ⟨.str r.title, .object r.info, r.start, .object r.rules⟩

/-- What a row extends if not the built-in rules, after the entries `done`. -/
def extended (known done : Collection) (r : Row) : Link × Grammar :=
  match done.find? r.baseTitle with
  | some entry => (.row entry.row, entry.grammar)
  | none =>
    match known.find? r.baseTitle with
    | some entry => (.outside, entry.grammar)
    | none => (.outside, Grammar.named (.str r.baseTitle))

def grammar (known done : Collection) (r : Row) : Grammar :=
  if r.builtIn then .root r.declaration
  else .derived r.declaration (r.extended known done).1 (r.extended known done).2

def entry (known done : Collection) (number : Nat) (r : Row) : Entry :=
  ⟨r.title, number, r.grammar known done⟩

def entries (known : Collection) : (number : Nat) → (done : Collection) → List Row → Collection
  | _, _, [] => []
  | number, done, r :: rest =>
    r.entry known done number :: entries known (number + 1) (done ++ [r.entry known done number]) rest

variable {known done : Collection} {number : Nat} {rows : List Row}

theorem entries_keys : (entries known number done rows).map (·.key) = rows.map title := by
  induction rows generalizing number done with
  | nil => rfl
  | cons r rows ih =>
    rw [entries, List.map_cons, List.map_cons, ih]
    rfl

theorem entries_numbers :
    (entries known number done rows).map (·.row) = List.range' number rows.length := by
  induction rows generalizing number done with
  | nil => rfl
  | cons r rows ih =>
    rw [entries, List.map_cons, ih, List.length_cons, List.range'_succ]
    rfl

/-- An entry is made by its row after the entries before it. -/
theorem entries_split {front back : Collection} {entry : Entry}
    (parts : entries known number done rows = front ++ entry :: back) :
    ∃ before r after, rows = before ++ r :: after ∧ front = entries known number done before ∧
      entry = r.entry known (done ++ front) (number + before.length) := by
  induction rows generalizing number done front with
  | nil => simp [entries] at parts
  | cons r rows ih =>
    rw [entries] at parts
    cases front with
    | nil =>
      obtain ⟨rfl, -⟩ := List.cons.inj parts
      refine ⟨[], r, rows, rfl, rfl, ?_⟩
      rw [List.append_nil]
      rfl
    | cons first front =>
      obtain ⟨rfl, later⟩ := List.cons.inj parts
      obtain ⟨before, other, after, rfl, rfl, rfl⟩ := ih later
      refine ⟨r :: before, other, after, rfl, rfl, ?_⟩
      rw [List.append_assoc, List.length_cons, Nat.add_assoc, Nat.add_comm 1]
      rfl

end Row

namespace Json

theorem asObject_object (members : Members) :
    asObject (.object members) = .ok (.object members) := by
  cases members with
  | nil => rfl
  | cons member members => rfl

end Json

namespace Collection

variable {known done c : Collection} {number : Nat} {r : Row} {rows : List Row} {entry : Entry}
  {name : Text}

theorem baseOf_row : baseOf known done r.json =
    .ok (if r.builtIn then none else some (r.extended known done)) := by
  obtain ⟨described, base, name, builtIn⟩ := r.extending
  have given : (Json.object described).isGiven = true := by
    cases described with
    | nil => cases name
    | cons member members => rfl
  have builtIn' : (Json.object described).member? "builtIn" = .ok (some (.bool r.builtIn)) := by
    rw [Json.member?, builtIn]
  have name' : (Json.object described).member "name" = .ok r.base := by
    rw [Json.member, name]
  simp only [baseOf, base, bind, Except.bind, Option.filter_some, given, if_true, Option.getD_some,
    builtIn', name', pure, Except.pure]
  cases r.builtIn with
  | true => rfl
  | false =>
    unfold Row.extended Row.baseTitle
    cases done.find? r.base.plain with
    | some entry => rfl
    | none => cases known.find? r.base.plain <;> rfl

theorem entryOf_row : entryOf known done number r.json = .ok (r.entry known done number) := by
  obtain ⟨tag, again, slot, more, recipe⟩ := r.compiled
  have info : Json.element 1 (.list (tag :: .object r.info :: again :: slot :: r.start ::
    .object r.rules :: more)) = .ok (.object r.info) := rfl
  have start : Json.element 4 (.list (tag :: .object r.info :: again :: slot :: r.start ::
    .object r.rules :: more)) = .ok r.start := rfl
  have rules : Json.element 5 (.list (tag :: .object r.info :: again :: slot :: r.start ::
    .object r.rules :: more)) = .ok (.object r.rules) := rfl
  simp only [entryOf, recipe, baseOf_row, r.named, info, start, rules, Json.asObject_object, bind,
    Except.bind, pure, Except.pure, Row.entry, Row.grammar, Row.declaration, Row.title]
  cases r.builtIn <;> rfl

theorem put_fresh (fresh : entry.key ∉ done.map (·.key)) : done.put entry = done ++ [entry] := by
  induction done with
  | nil => rfl
  | cons first done ih =>
    rw [List.map_cons, List.mem_cons, not_or] at fresh
    rw [put, if_neg (Ne.symm fresh.1), ih fresh.2]
    rfl

/-- Rows of distinct names become one entry each, in their order. -/
theorem addRows_rows (distinct : (done.map (·.key) ++ rows.map Row.title).Nodup) :
    addRows known number done (rows.map (·.json)) =
      .ok (done ++ Row.entries known number done rows) := by
  induction rows generalizing number done with
  | nil => rw [List.map_nil, addRows, Row.entries, List.append_nil]
  | cons r rows ih =>
    -- No earlier entry has the name, so that storing the new entry does not replace one.
    have fresh : (r.entry known done number).key ∉ done.map (·.key) := by
      intro member
      rw [List.map_cons, List.nodup_append] at distinct
      exact distinct.2.2 _ member _ List.mem_cons_self rfl
    have next : done.map (·.key) ++ (r :: rows).map Row.title =
        (done ++ [r.entry known done number]).map (·.key) ++ rows.map Row.title := by
      simp [Row.entry]
    rw [next] at distinct
    rw [List.map_cons, addRows, entryOf_row]
    dsimp only
    rw [put_fresh fresh, ih distinct, Row.entries, List.append_assoc]
    rfl

theorem ofRows_rows (known : Collection) (distinct : (rows.map Row.title).Nodup) :
    ofRows (.list (rows.map (·.json))) known = .ok (Row.entries known 0 [] rows) := by
  rw [ofRows, Json.elementsOf, Json.elements?]
  exact addRows_rows distinct

/-- Rows make a collection also where a name comes back. -/
theorem addRows_ok (known : Collection) (number : Nat) (done : Collection) (rows : List Row) :
    ∃ c, addRows known number done (rows.map (·.json)) = .ok c := by
  induction rows generalizing number done with
  | nil => exact ⟨done, rfl⟩
  | cons r rows ih =>
    rw [List.map_cons, addRows, entryOf_row]
    exact ih (number + 1) (done.put (r.entry known done number))

def Named (c : Collection) : Prop := ∀ entry ∈ c, entry.grammar.declaration.name = .str entry.key

theorem mem_of_find (found : c.find? name = some entry) : entry ∈ c ∧ entry.key = name :=
  ⟨List.mem_of_find?_eq_some found, by simpa using List.find?_some found⟩

theorem find_eq_none : c.find? name = none ↔ name ∉ c.map (·.key) := by
  simp [find?]

theorem find_of_mem (distinct : (c.map (·.key)).Nodup) (member : entry ∈ c) (keyed : entry.key = name) :
    c.find? name = some entry := by
  induction c with
  | nil => cases member
  | cons first c ih =>
    rw [List.map_cons, List.nodup_cons] at distinct
    rcases List.mem_cons.mp member with rfl | later
    · exact List.find?_cons_of_pos (by simpa using keyed)
    · have other : first.key ≠ name := by
        intro same
        exact distinct.1 (List.mem_map.mpr ⟨entry, later, keyed.trans same.symm⟩)
      rw [find?, List.find?_cons_of_neg (by simpa using other)]
      exact ih distinct.2 later

theorem Named.append {front back : Collection} (first : front.Named) (second : back.Named) :
    Named (front ++ back) := by
  intro entry member
  rcases List.mem_append.mp member with inside | inside
  · exact first entry inside
  · exact second entry inside

theorem named_entry : Named [r.entry known done number] := by
  intro entry member
  obtain rfl := List.mem_singleton.mp member
  unfold Row.entry Row.grammar
  dsimp only
  split <;> rfl

/-- A base has the name that its row gives, wherever it is found. -/
theorem extended_named (named : known.Named) (earlier : done.Named) :
    (r.extended known done).2.declaration.name = .str r.baseTitle := by
  unfold Row.extended
  cases found : done.find? r.baseTitle with
  | some entry =>
    obtain ⟨member, keyed⟩ := mem_of_find found
    rw [← keyed]
    exact earlier entry member
  | none =>
    cases outside : known.find? r.baseTitle with
    | some entry =>
      obtain ⟨member, keyed⟩ := mem_of_find outside
      rw [← keyed]
      exact named entry member
    | none => rfl

theorem mem_put {other : Entry} (member : other ∈ done.put entry) : other = entry ∨ other ∈ done := by
  induction done with
  | nil => exact .inl (List.mem_singleton.mp member)
  | cons first done ih =>
    rw [put] at member
    split at member
    · rcases List.mem_cons.mp member with same | later
      · exact .inl same
      · exact .inr (List.mem_cons_of_mem _ later)
    · rcases List.mem_cons.mp member with same | later
      · exact .inr (List.mem_cons.mpr (.inl same))
      · exact (ih later).imp_right (List.mem_cons_of_mem _)

theorem entryOf_named {row : Json} (made : entryOf known done number row = .ok entry) :
    entry.grammar.declaration.name = .str entry.key := by
  simp only [entryOf, bind, Except.bind] at made
  repeat' split at made
  all_goals first
    | (cases made; rfl)
    | cases made

theorem addRows_named {rows : List Json} (made : addRows known number done rows = .ok c)
    (named : done.Named) : c.Named := by
  induction rows generalizing number done with
  | nil =>
    rw [addRows] at made
    cases made
    exact named
  | cons row rows ih =>
    rw [addRows] at made
    split at made
    · cases made
    next entry found =>
      refine ih made fun other member => ?_
      rcases mem_put member with rfl | old
      · exact entryOf_named found
      · exact named other old

/-- A collection built from rows, with the grammars known then built in the same way. -/
inductive Built : Collection → Prop
  | nothing : Built []
  | rows {rows : Json} {known c : Collection} (earlier : Built known)
      (made : ofRows rows known = .ok c) : Built c

theorem Built.named (built : c.Built) : c.Named := by
  cases built with
  | nothing =>
    intro entry member
    cases member
  | rows earlier made =>
    rw [ofRows] at made
    split at made
    · cases made
    · refine addRows_named made fun entry member => ?_
      cases member

end Collection

end GrammarBundle
