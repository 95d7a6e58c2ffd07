import GrammarBundle.Proofs.Grammar.Rows
import GrammarBundle.Proofs.Json.Intact

/-!
Recipes on their way from the compiler into a module. A row's recipe is read as JSON, its grammar keeps
what the recipe declares, and the recipe of the grammar is put together from compact forms. As a whole
that is again the compact form of a value. Read back it is the row's recipe, in which the recipe of the
base stands for the base.
-/

namespace GrammarBundle

variable {known done c : Collection} {number : Nat} {rows : List Row} {r : Row} {entry : Entry}

/-- The value that the recipe of a declaration is the compact form of, given that of its base. -/
def Declaration.value (d : Declaration) (base : Json) : Json :=
  .list [.str "grammar", d.info, d.name, base, d.start, d.rules]

theorem Declaration.recipe_compact (d : Declaration) (base : Json) :
    d.recipe base.compact = (d.value base).compact := by
  rw [value, Json.compact_list]
  rfl

structure Declaration.Intact (d : Declaration) : Prop where
  name : d.name.Intact
  info : d.info.Intact
  start : d.start.Intact
  rules : d.rules.Intact

theorem Declaration.Intact.value {d : Declaration} {base : Json} (intact : d.Intact)
    (base_intact : base.Intact) : (d.value base).Intact := by
  apply Json.intact_list.mpr
  simp only [List.forall_mem_cons, List.not_mem_nil, false_implies, implies_true, and_true]
  exact ⟨⟨rfl, trivial⟩, intact.info, intact.name, base_intact, intact.start, intact.rules⟩

namespace Grammar

/-- The recipe of a grammar as a value, with those of all its bases inside. -/
def value : Grammar → Json
  | .root d => d.value .null
  | .derived d _ base => d.value base.value

theorem recipe_compact (g : Grammar) : g.recipe = g.value.compact := by
  induction g with
  | root d => exact d.recipe_compact .null
  | derived d link base ih =>
    rw [recipe, ih]
    exact d.recipe_compact base.value

/-- All declarations of a grammar and its bases are kept by their compact forms. -/
def Intact : Grammar → Prop
  | .root d => d.Intact
  | .derived d _ base => d.Intact ∧ base.Intact

theorem Intact.declaration {g : Grammar} (intact : g.Intact) : g.declaration.Intact := by
  cases g with
  | root d => exact intact
  | derived d link base => exact intact.1

theorem Intact.value {g : Grammar} (intact : g.Intact) : g.value.Intact := by
  induction g with
  | root d => exact Declaration.Intact.value intact .null
  | derived d link base ih => exact intact.1.value (ih intact.2)

theorem Intact.read_recipe {g : Grammar} (intact : g.Intact) :
    Json.read g.recipe = .ok g.value := by
  rw [recipe_compact]
  exact intact.value.read

/-- With nothing in the place of the base, the recipe is read back as that of the declaration alone. -/
theorem Intact.read_recipeOn {g : Grammar} (intact : g.Intact) :
    Json.read (g.recipeOn (some "null")) = .ok (g.declaration.value .null) := by
  have text : g.recipeOn (some "null") = (g.declaration.value .null).compact :=
    g.declaration.recipe_compact .null
  rw [text]
  exact (intact.declaration.value .null).read

end Grammar

namespace Row

def recipe (r : Row) (base : Json) : Json :=
  .list [.str "grammar", .object r.info, .str r.title, base, r.start, .object r.rules]

/-- A row whose base is named by a text and whose recipe has exactly the parts that a grammar keeps. -/
structure Exact (r : Row) : Prop where
  base_text : r.base = .str r.baseTitle
  exact : r.json.member "recipe" = .ok (r.recipe .null)

theorem Exact.declaration_intact (exact : r.Exact) (intact : r.json.Intact) :
    r.declaration.Intact := by
  have parts := Json.intact_list.mp (intact.member exact.exact)
  simp only [List.forall_mem_cons] at parts
  obtain ⟨-, info, name, -, start, rules, -⟩ := parts
  exact ⟨name, info, start, rules⟩

theorem Exact.base_intact (exact : r.Exact) (intact : r.json.Intact) :
    (Json.str r.baseTitle).Intact := by
  obtain ⟨described, found, name, -⟩ := r.extending
  rw [← exact.base_text]
  exact (intact.member? found).value (Json.mem_of_get name)

theorem grammar_declaration : (r.grammar known done).declaration = r.declaration := by
  unfold grammar
  split <;> rfl

theorem grammar_value : (r.grammar known done).value =
    r.recipe (if r.builtIn then .null else (r.extended known done).2.value) := by
  unfold grammar
  split <;> rfl

theorem extended_intact (base : (Json.str r.baseTitle).Intact)
    (outside : ∀ entry ∈ known, entry.grammar.Intact)
    (earlier : ∀ entry ∈ done, entry.grammar.Intact) : (r.extended known done).2.Intact := by
  unfold extended
  cases found : done.find? r.baseTitle with
  | some entry => exact earlier entry (Collection.mem_of_find found).1
  | none =>
    cases beyond : known.find? r.baseTitle with
    | some entry => exact outside entry (Collection.mem_of_find beyond).1
    -- Of a name that is found nowhere the grammar has only the name, which the row gives.
    | none => exact ⟨base, .empty, .null, .empty⟩

theorem grammar_intact (exact : r.Exact) (intact : r.json.Intact)
    (outside : ∀ entry ∈ known, entry.grammar.Intact)
    (earlier : ∀ entry ∈ done, entry.grammar.Intact) : (r.grammar known done).Intact := by
  have declared := exact.declaration_intact intact
  unfold grammar
  split
  · exact declared
  · exact ⟨declared, extended_intact (exact.base_intact intact) outside earlier⟩

/-- Rows that are read and say what a grammar keeps make entries that their recipes keep. -/
theorem entries_intact (exact : ∀ r ∈ rows, r.Exact) (intact : ∀ r ∈ rows, r.json.Intact)
    (outside : ∀ entry ∈ known, entry.grammar.Intact)
    (earlier : ∀ entry ∈ done, entry.grammar.Intact) :
    ∀ entry ∈ entries known number done rows, entry.grammar.Intact := by
  induction rows generalizing number done with
  | nil =>
    intro entry member
    cases member
  | cons r rows ih =>
    have own : (r.entry known done number).grammar.Intact :=
      grammar_intact (exact r List.mem_cons_self) (intact r List.mem_cons_self) outside earlier
    rw [entries]
    intro entry member
    rcases List.mem_cons.mp member with rfl | later
    · exact own
    · refine ih (fun other inside => exact other (List.mem_cons_of_mem _ inside))
        (fun other inside => intact other (List.mem_cons_of_mem _ inside)) ?_ entry later
      intro other inside
      rcases List.mem_append.mp inside with old | new
      · exact earlier other old
      · rw [List.mem_singleton.mp new]
        exact own

end Row

namespace Collection

/-- What the whole recipe of a row's entry is read back as, after entries of different keys. -/
theorem read_recipe_row (distinct : (done.map (·.key)).Nodup)
    (kept : ∀ owner ∈ done, owner.grammar.Intact) (own : (r.grammar [] done).Intact) :
    ∃ base, Json.read (r.grammar [] done).recipe = .ok (r.recipe base) ∧
      (r.builtIn = true → base = .null) ∧
      (r.builtIn = false → ∀ owner ∈ done, owner.key = r.baseTitle →
        Json.read owner.grammar.recipe = .ok base) ∧
      (r.builtIn = false → r.baseTitle ∉ done.map (·.key) →
        base = .list [.str "grammar", .object [], .str r.baseTitle, .null, .null, .object []]) := by
  rw [own.read_recipe, Row.grammar_value]
  refine ⟨_, rfl, ?_, ?_, ?_⟩
  · intro builtIn
    rw [if_pos builtIn]
  · intro extending owner member keyed
    have found := find_of_mem distinct member keyed
    rw [(kept owner member).read_recipe, extending, Row.extended, found]
    rfl
  · intro extending absent
    rw [extending, Row.extended, find_eq_none.mpr absent]
    rfl

/-- Rows read from a text without surrogates, with whole numbers, names that differ and recipes that say
just what a grammar keeps, make one entry each. With nothing in the place of the base, the
recipe of an entry is read back as that of its row. The whole recipe is read back as the row's recipe on
a base: nothing for the built-in rules, what the recipe of the base is read back as where that is an
earlier row, and the recipe of a grammar of that name without rules otherwise. -/
theorem recipes_read_back {t : Text} (free : t.surrogateFree = true)
    (read : Json.read t = .ok (.list (rows.map (·.json))))
    (whole : (Json.list (rows.map (·.json))).Whole) (exact : ∀ r ∈ rows, r.Exact)
    (distinct : (rows.map Row.title).Nodup) :
    ∃ c, ofRows (.list (rows.map (·.json))) [] = .ok c ∧ c.map (·.key) = rows.map Row.title ∧
      ∀ front entry back, c = front ++ entry :: back →
        ∃ before r after, rows = before ++ r :: after ∧
          front.map (·.key) = before.map Row.title ∧
          (∃ recipe, r.json.member "recipe" = .ok recipe ∧
            Json.read (entry.grammar.recipeOn (some "null")) = .ok recipe) ∧
          ∃ base, Json.read entry.grammar.recipe = .ok (r.recipe base) ∧
            (r.builtIn = true → base = .null) ∧
            (r.builtIn = false → ∀ owner ∈ front, owner.key = r.baseTitle →
              Json.read owner.grammar.recipe = .ok base) ∧
            (r.builtIn = false → r.baseTitle ∉ before.map Row.title →
              base = .list [.str "grammar", .object [], .str r.baseTitle, .null, .null, .object []]) := by
  have received : (Json.list (rows.map (·.json))).Intact := ⟨Json.received_read free read, whole⟩
  have intact : ∀ r ∈ rows, r.json.Intact := fun r member =>
    Json.intact_list.mp received r.json (List.mem_map_of_mem member)
  have kept : ∀ entry ∈ Row.entries [] 0 [] rows, entry.grammar.Intact :=
    Row.entries_intact exact intact nofun nofun
  refine ⟨_, ofRows_rows [] distinct, Row.entries_keys, ?_⟩
  intro front entry back parts
  have entry_kept : entry.grammar.Intact := kept entry (by simp [parts])
  have front_kept : ∀ owner ∈ front, owner.grammar.Intact := fun owner member =>
    kept owner (by simp [parts, member])
  obtain ⟨before, r, after, rfl, rfl, rfl⟩ := Row.entries_split parts
  have keys : (Row.entries [] 0 [] before).map (·.key) = before.map Row.title := Row.entries_keys
  have front_distinct : ((Row.entries [] 0 [] before).map (·.key)).Nodup := by
    rw [keys]
    rw [List.map_append, List.nodup_append] at distinct
    exact distinct.1
  have row_exact : r.json.member "recipe" = .ok (r.recipe .null) := (exact r (by simp)).exact
  refine ⟨before, r, after, rfl, keys, ⟨_, row_exact, ?_⟩, ?_⟩
  · rw [entry_kept.read_recipeOn, Row.entry, Row.grammar_declaration]
    rfl
  · rw [← keys]
    exact read_recipe_row front_distinct front_kept entry_kept

/-- Rows of a grammar whose source has a surrogate without a partner, one that extends it, and one that
extends a grammar from elsewhere. -/
def answer : List Row :=
  [.answered (.str "A") "BuiltInRules" true [("source", .str (.ofNat 0xD800 :: "A \x7b\x7d"))]
      (.str "start") [("start", .list [.int (-1), .null])],
    .answered (.str "B") "A" false [] .null [], .answered (.str "C") "Far" false [] .null []]

theorem recipes_read_back_answer :
    ∃ t : Text, t.surrogateFree = true ∧ Json.read t = .ok (.list (answer.map (·.json))) ∧
      ∃ first second third base,
        ofRows (.list (answer.map (·.json))) [] = .ok [first, second, third] ∧
          Json.read first.grammar.recipe = .ok base ∧
          Json.read second.grammar.recipe = .ok (answer[1].recipe base) := by
  have number : (Text.ofNat (Int.natAbs (-1))).length ≤ Json.digitLimit := by
    rw [Text.ofNat]
    decide
  have readable : (Json.list (answer.map (·.json))).Readable := by
    simp only [answer, Row.answered, List.map_cons, List.map_nil, Json.Readable, Json.ReadableItems,
      Json.ReadableMembers, number, and_true]
  have whole : (Json.list (answer.map (·.json))).Whole := by
    simp only [answer, Row.answered, List.map_cons, List.map_nil, Json.Whole, Json.WholeItems,
      Json.WholeMembers, and_true]
  have free : (Json.list (answer.map (·.json))).compact.surrogateFree = true :=
    Text.surrogateFree_of_isVisible (Json.visible_compact _)
  have read : Json.read (Json.list (answer.map (·.json))).compact = .ok (.list (answer.map (·.json))) :=
    Json.read_write Json.legible_compact readable
  have exact : ∀ r ∈ answer, r.Exact := by
    simp only [answer, List.forall_mem_cons, List.not_mem_nil, false_implies, implies_true, and_true]
    exact ⟨⟨rfl, rfl⟩, ⟨rfl, rfl⟩, ⟨rfl, rfl⟩⟩
  have distinct : (answer.map Row.title).Nodup := by
    change (["A", "B", "C"] : List Text).Nodup
    decide
  obtain ⟨c, made, -, reads⟩ := recipes_read_back free read whole exact distinct
  cases made
  obtain ⟨before, r, after, parts, keyed, -, base, second_read, -, owned, -⟩ := reads [_] _ [_] rfl
  obtain ⟨earlier, rfl, -⟩ := List.map_eq_singleton_iff.mp keyed.symm
  obtain ⟨rfl, -⟩ := List.cons.inj (List.cons.inj parts).2
  have first_read := owned rfl _ List.mem_cons_self rfl
  exact ⟨_, free, read, _, _, _, base, rfl, first_read, second_read⟩

end Collection

end GrammarBundle
