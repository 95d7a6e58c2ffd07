import GrammarBundle.Proofs.Bundle.Linking
import GrammarBundle.Proofs.Grammar.Rows
import GrammarBundle.Run.Failure

/-!
The declaration order of collections built from rows. Building looks a base up among the entries made
so far and then elsewhere; the check looks its name up among the keys passed. On rows of distinct names
the two agree: a row is accepted when it extends the built-in rules or an earlier row, and then it extends
the very grammar stored for that row.
-/

namespace GrammarBundle

namespace Row

variable {known done : Collection} {number : Nat} {passed : List Text} {r : Row} {rows : List Row}

/-- A row extends the built-in rules or one of the names given. -/
def Grounded (names : List Text) (r : Row) : Prop := r.builtIn = false → r.baseTitle ∈ names

/-- Every row extends the built-in rules, a name passed or an earlier row. -/
def Ordered (passed : List Text) (rows : List Row) : Prop :=
  ∀ before r after, rows = before ++ r :: after → r.Grounded (passed ++ before.map title)

theorem Ordered.nil : Ordered passed [] := by
  intro before r after parts
  simp at parts

theorem Ordered.cons (first : r.Grounded passed) (rest : Ordered (passed ++ [r.title]) rows) :
    Ordered passed (r :: rows) := by
  intro before other after parts
  cases before with
  | nil =>
    rw [List.nil_append, List.cons.injEq] at parts
    obtain ⟨rfl, -⟩ := parts
    rwa [List.map_nil, List.append_nil]
  | cons earlier before =>
    rw [List.cons_append, List.cons.injEq] at parts
    obtain ⟨rfl, parts⟩ := parts
    have grounded := rest before other after parts
    rwa [List.append_assoc] at grounded

theorem base_of_builtIn (builtIn : r.builtIn = true) : (r.grammar known done).base? = none := by
  rw [grammar, if_pos builtIn]
  rfl

theorem base_of_extending (extending : r.builtIn = false) :
    (r.grammar known done).base? = some (r.extended known done).2 := by
  rw [grammar, extending]
  rfl

theorem grammar_of_earlier (extending : r.builtIn = false) (earlier : r.baseTitle ∈ done.map (·.key)) :
    ∃ owner ∈ done, owner.key = r.baseTitle ∧
      r.grammar known done = .derived r.declaration (.row owner.row) owner.grammar := by
  cases found : done.find? r.baseTitle with
  | none => exact absurd earlier (Collection.find_eq_none.mp found)
  | some owner =>
    obtain ⟨member, keyed⟩ := Collection.mem_of_find found
    refine ⟨owner, member, keyed, ?_⟩
    rw [grammar, extending, extended, found]
    rfl

end Row

namespace Collection

variable {known done : Collection} {rows : List Row} {r : Row} {seen : List Text}

theorem orderFrom_row (source : Text) (keys : List Text) (number : Nat) (rest : List Entry)
    (named : known.Named) (earlier : done.Named) (passed : ∀ t, t ∈ seen ↔ t ∈ done.map (·.key)) :
    (r.Grounded (done.map (·.key)) ∧
      orderFrom source keys seen (r.entry known done number :: rest) =
        orderFrom source keys (r.title :: seen) rest) ∨
    (¬ r.Grounded (done.map (·.key)) ∧
      orderFrom source keys seen (r.entry known done number :: rest) =
        .error ⟨source, r.title, r.baseTitle, decide (r.baseTitle ∈ keys)⟩) := by
  have own : (r.entry known done number).grammar = r.grammar known done := rfl
  have key : (r.entry known done number).key = r.title := rfl
  cases builtIn : r.builtIn with
  | true =>
    refine .inl ⟨fun extending => ?_, ?_⟩
    · rw [builtIn] at extending
      cases extending
    · simp only [orderFrom, own, key, Row.base_of_builtIn builtIn]
  | false =>
    -- What building looked up by its name has that name, and the check goes by it.
    have name := extended_named (r := r) named earlier
    have isKey_base (names : List Text) :
        isKey (r.extended known done).2.declaration.name names = decide (r.baseTitle ∈ names) := by
      rw [name, isKey, List.contains_eq_mem]
    simp only [orderFrom, own, key, Row.base_of_extending builtIn, isKey_base,
      Grammar.title_of_name name, decide_eq_true_eq, passed]
    by_cases declared : r.baseTitle ∈ done.map (·.key)
    · exact .inl ⟨fun _ => declared, if_pos declared⟩
    · exact .inr ⟨fun grounded => declared (grounded builtIn), if_neg declared⟩

/-- The check passes all rows or stops at the first that is not grounded. -/
theorem orderFrom_rows (source : Text) (keys seen : List Text) (number : Nat) (rows : List Row)
    (named : known.Named) (earlier : done.Named) (passed : ∀ t, t ∈ seen ↔ t ∈ done.map (·.key)) :
    (Row.Ordered (done.map (·.key)) rows ∧
      orderFrom source keys seen (Row.entries known number done rows) = .ok ()) ∨
    ∃ before r after, rows = before ++ r :: after ∧ Row.Ordered (done.map (·.key)) before ∧
      ¬ r.Grounded (done.map (·.key) ++ before.map Row.title) ∧
      orderFrom source keys seen (Row.entries known number done rows) =
        .error ⟨source, r.title, r.baseTitle, decide (r.baseTitle ∈ keys)⟩ := by
  -- The names seen are those of the entries made so far, whichever way the first row goes.
  induction rows generalizing number done seen with
  | nil => exact .inl ⟨.nil, rfl⟩
  | cons r rows ih =>
    rw [Row.entries]
    rcases orderFrom_row (r := r) source keys number
        (Row.entries known (number + 1) (done ++ [r.entry known done number]) rows)
        named earlier passed with
      ⟨grounded, step⟩ | ⟨stray, refused⟩
    · have later : (done ++ [r.entry known done number]).Named := earlier.append named_entry
      have extended : (done ++ [r.entry known done number]).map (·.key) =
          done.map (·.key) ++ [r.title] := by
        simp [Row.entry]
      have passed' (t : Text) :
          t ∈ r.title :: seen ↔ t ∈ (done ++ [r.entry known done number]).map (·.key) := by
        rw [extended, List.mem_cons, List.mem_append, List.mem_singleton, passed, or_comm]
      rw [step]
      rcases ih (r.title :: seen) (number + 1) later passed' with
        ⟨ordered, accepted⟩ | ⟨before, stray, after, rfl, ordered, rest⟩
      · rw [extended] at ordered
        exact .inl ⟨.cons grounded ordered, accepted⟩
      · rw [extended] at ordered rest
        refine .inr ⟨r :: before, stray, after, rfl, .cons grounded ordered, ?_⟩
        rwa [List.append_assoc] at rest
    · refine .inr ⟨[], r, rows, rfl, .nil, ?_, refused⟩
      rwa [List.map_nil, List.append_nil]

/-- A collection has one entry for each row, and what a row extends is what the collection stores. -/
structure Reflects (c : Collection) (rows : List Row) : Prop where
  keys : c.map (·.key) = rows.map Row.title
  numbers : c.map (·.row) = List.range rows.length
  grammars : ∀ front entry back, c = front ++ entry :: back →
    ∃ before r after, rows = before ++ r :: after ∧ front.map (·.key) = before.map Row.title ∧
      (r.builtIn = true → entry.grammar = .root r.declaration) ∧
      (r.builtIn = false → ∃ owner ∈ front, owner.key = r.baseTitle ∧
        entry.grammar = .derived r.declaration (.row owner.row) owner.grammar)

theorem entries_reflect (ordered : Row.Ordered [] rows) :
    Reflects (Row.entries known 0 [] rows) rows := by
  refine ⟨Row.entries_keys, ?_, ?_⟩
  · rw [Row.entries_numbers, List.range_eq_range']
  · intro front entry back parts
    obtain ⟨before, r, after, rfl, rfl, rfl⟩ := Row.entries_split parts
    have keys : (Row.entries known 0 [] before).map (·.key) = before.map Row.title := Row.entries_keys
    refine ⟨before, r, after, rfl, keys, ?_, ?_⟩
    · intro builtIn
      rw [Row.entry, Row.grammar, if_pos builtIn]
    · intro extending
      have earlier : r.baseTitle ∈ (Row.entries known 0 [] before).map (·.key) := by
        rw [keys]
        exact ordered before r after rfl extending
      exact Row.grammar_of_earlier extending earlier

/-- The check accepts ordered rows, and refuses others at the first row that extends no earlier one. -/
theorem checkOrder_rows (source : Text) (rows : List Row) (named : known.Named) :
    (Row.Ordered [] rows ∧ checkOrder source (Row.entries known 0 [] rows) = .ok ()) ∨
    ∃ before r after, rows = before ++ r :: after ∧ Row.Ordered [] before ∧
      ¬ r.Grounded (before.map Row.title) ∧
      checkOrder source (Row.entries known 0 [] rows) =
        .error ⟨source, r.title, r.baseTitle, decide (r.baseTitle ∈ (r :: after).map Row.title)⟩ := by
  have nothing : Named [] := nofun
  rw [checkOrder, Row.entries_keys]
  rcases orderFrom_rows source (rows.map Row.title) [] 0 rows named nothing (fun _ => Iff.rfl) with
    accepted | ⟨before, r, after, rfl, ordered, stray, refused⟩
  · exact .inl accepted
  · refine .inr ⟨before, r, after, rfl, ordered, stray, ?_⟩
    -- The keys of the whole collection tell apart only this row and later ones from grammars outside.
    have elsewhere : r.baseTitle ∉ before.map Row.title := fun member => stray fun _ => member
    rw [refused, List.map_append]
    simp only [List.mem_append, elsewhere, false_or]

/-- Rows of distinct names make a collection, which the check accepts just when every row that does not
extend the built-in rules names an earlier row. It then has the rows in their order, each on the grammar
stored for the row named. Otherwise the first row that names none is refused, with a note on whether the
name is its own or that of a later row. -/
theorem checkOrder_ofRows (built : known.Built) (distinct : (rows.map Row.title).Nodup)
    (source : Text) :
    ∃ c, ofRows (.list (rows.map (·.json))) known = .ok c ∧
      (checkOrder source c = .ok () ↔ ∀ before r after, rows = before ++ r :: after →
        r.builtIn = false → r.baseTitle ∈ before.map Row.title) ∧
      (checkOrder source c = .ok () → c.Reflects rows) ∧
      ∀ fault, checkOrder source c = .error fault →
        ∃ before r after, rows = before ++ r :: after ∧
          (∀ front other back, before = front ++ other :: back →
            other.builtIn = false → other.baseTitle ∈ front.map Row.title) ∧
          r.builtIn = false ∧ r.baseTitle ∉ before.map Row.title ∧
          fault = ⟨source, r.title, r.baseTitle, decide (r.baseTitle ∈ (r :: after).map Row.title)⟩ ∧
          (Failure.grammarOrder fault).report?.map (fun (code, kind) => (code.number, kind)) =
            some (4, ("grammar_order" : Text)) ∧
          (Failure.grammarOrder fault).message =
            source ++ ": grammar '" ++ r.title ++ "' extends '" ++ r.baseTitle ++
              "', which is declared " ++
              (if r.baseTitle ∈ (r :: after).map Row.title then ("later in" : Text) else "outside") ++
              " this file" := by
  refine ⟨_, ofRows_rows known distinct, ?_⟩
  rcases checkOrder_rows source rows built.named with
    ⟨ordered, accepted⟩ | ⟨before, r, after, rfl, ordered, stray, refused⟩
  · rw [accepted]
    refine ⟨⟨fun _ => ordered, fun _ => rfl⟩, fun _ => entries_reflect ordered, ?_⟩
    intro fault refused
    cases refused
  · obtain ⟨extending, elsewhere⟩ := Classical.not_imp.mp stray
    rw [refused]
    refine ⟨⟨fun accepted => ?_, fun ordered => ?_⟩, fun accepted => ?_, fun fault same => ?_⟩
    · cases accepted
    · exact absurd (ordered before r after rfl extending) elsewhere
    · cases accepted
    · cases same
      refine ⟨before, r, after, rfl, ordered, Bool.eq_false_iff.mpr (by simpa using extending),
        elsewhere, rfl, rfl, ?_⟩
      simp only [Failure.message, OrderFault.message, decide_eq_true_eq]

def elsewhere : List Row := [.answered (.str "Far") "BuiltInRules" true [] .null []]

/-- Rows whose last one extends a grammar from elsewhere; the first one is named by a truth value. -/
def family : List Row :=
  [.answered (.bool true) "BuiltInRules" true [] .null [], .answered (.str "B") "True" false [] .null [],
    .answered (.str "C") "Far" false [] .null []]

theorem checkOrder_ofRows_family :
    ∃ known, ofRows (.list (elsewhere.map (·.json))) [] = .ok known ∧
      ∃ c, ofRows (.list (family.map (·.json))) known = .ok c ∧
        checkOrder "family.ohm" c ≠ .ok () ∧
        ∃ fault, checkOrder "family.ohm" c = .error fault ∧ fault = ⟨"family.ohm", "C", "Far", false⟩ ∧
          (Failure.grammarOrder fault).report?.map (fun (code, kind) => (code.number, kind)) =
            some (4, ("grammar_order" : Text)) := by
  have made : ofRows (.list (elsewhere.map (·.json))) [] = .ok (Row.entries [] 0 [] elsewhere) := rfl
  have distinct : (family.map Row.title).Nodup := by decide
  refine ⟨_, made, ?_⟩
  obtain ⟨c, built, accepted, -, refused⟩ :=
    checkOrder_ofRows (.rows .nothing made) distinct "family.ohm"
  refine ⟨c, built, fun ordered => ?_, ?_⟩
  · have earlier := accepted.mp ordered (family.take 2) family[2] [] rfl rfl
    revert earlier
    decide
  · cases built
    obtain ⟨before, r, after, -, -, -, -, -, reported, -⟩ := refused _ rfl
    exact ⟨_, rfl, rfl, reported⟩

end Collection

end GrammarBundle
