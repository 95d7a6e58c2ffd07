import GrammarBundle.Bundle.Module
import GrammarBundle.Proofs.Grammar.DeclaredEarlier

/-!
Linking. A generated module names the base of a grammar as a member of its result; the recipe of a
grammar holds the recipes of all its bases. Replacing the references of a module by what its earlier
statements assigned leads from the first form to the second.
-/

namespace GrammarBundle

/-- Every base is the grammar that the collection has under the name of that base. -/
def Collection.BasesStored (c : Collection) : Prop :=
  ∀ entry ∈ c, ∀ base, entry.grammar.base? = some base →
    ∀ stored ∈ c, stored.key = base.title → stored.grammar = base

theorem Grammar.title_of_name {g : Grammar} {t : Text} (named : g.declaration.name = .str t) :
    g.title = t := by
  rw [title, named, Json.plain]

theorem Grammar.recipe_of_root {g : Grammar} (root : g.base? = none) :
    g.recipe = g.declaration.recipe "null" := by
  cases g with
  | root d => rfl
  | derived d link base => cases root

theorem Grammar.recipe_of_base {g base : Grammar} (based : g.base? = some base) :
    g.recipe = g.declaration.recipe base.recipe := by
  cases g with
  | root d => cases based
  | derived d link base => cases based; rfl

namespace Bundle

/-- Recipes assigned to members of the result, the latest first. -/
abbrev Assigned := List (Text × Text)

/-- The text of a slot, a reference replaced by the recipe assigned to it. A reference to a member
without a recipe stays what it is. -/
def Slot.linked (known : Assigned) : Slot → Text
  | .builtIn => Slot.builtIn.text
  | .reference name => (known.lookup name).getD (Slot.reference name).text

def Statement.linked (known : Assigned) (s : Statement) : Text :=
  s.declaration.recipe (s.slot.linked known)

/-- The recipes after an assignment to a target. -/
def Target.assign (recipe : Text) (known : Assigned) : Target → Assigned
  | .whole => known
  | .member key => (key, recipe) :: known

/-- The linked recipes of statements that follow assignments. -/
def linkFrom (known : Assigned) : List Statement → List Text
  | [] => []
  | s :: rest => s.linked known :: linkFrom (s.target.assign (s.linked known) known) rest

/-- The recipes of statements, each linked to those before it from the first to the last. -/
def link (statements : List Statement) : List Text := linkFrom [] statements

/-- The statement of an entry, given whether it is the only one. -/
def statementOf (single : Bool) (entry : Entry) : Statement :=
  ⟨if single then .whole else .member entry.key, slotOf entry.grammar, entry.grammar.declaration⟩

theorem statements_eq (c : Collection) : statements c = c.map (statementOf (isSingle c)) := rfl

theorem slotOf_root {g : Grammar} (root : g.base? = none) : slotOf g = .builtIn := by
  rw [slotOf, root]

theorem slotOf_base {g base : Grammar} (based : g.base? = some base) :
    slotOf g = .reference base.title := by
  rw [slotOf, based]

/-- A reference in a slot comes from a base with the name referred to. -/
theorem base_of_reference {g : Grammar} {name : Text} (slot : slotOf g = .reference name) :
    ∃ base, g.base? = some base ∧ base.title = name := by
  cases based : g.base? with
  | none => rw [slotOf_root based] at slot; cases slot
  | some base => rw [slotOf_base based] at slot; cases slot; exact ⟨base, rfl, rfl⟩

/-- A collection exported as its only grammar refers to nothing. -/
theorem single_without_references {c : Collection} {source : Text}
    (accepted : c.checkOrder source = .ok ()) (single : c.length = 1) :
    ∀ s ∈ statements c, s.slot = .builtIn := by
  obtain ⟨entry, rfl⟩ := List.length_eq_one_iff.mp single
  intro s member
  obtain rfl := List.mem_singleton.mp member
  exact slotOf_root (Collection.first_is_root accepted)

theorem not_single_of_two {before after : Collection} {entry earlier : Entry}
    (member : earlier ∈ before) : isSingle (before ++ entry :: after) = false := by
  have := List.length_pos_of_mem member
  simp only [isSingle, List.length_append, List.length_cons, beq_eq_false_iff_ne]
  omega

/-- In an accepted collection every reference names a member assigned by an earlier statement. -/
theorem reference_assigned_earlier {c : Collection} {source : Text}
    (accepted : c.checkOrder source = .ok ()) {before after : List Statement} {s : Statement}
    {name : Text} (parts : statements c = before ++ s :: after) (slot : s.slot = .reference name) :
    ∃ earlier ∈ before, earlier.target = .member name := by
  rw [statements_eq] at parts
  obtain ⟨first, rest, rfl, rfl, tail⟩ := List.map_eq_append_iff.mp parts
  obtain ⟨entry, last, rfl, rfl, rfl⟩ := List.map_eq_cons_iff.mp tail
  obtain ⟨base, based, rfl⟩ := base_of_reference slot
  obtain ⟨earlier, member, named⟩ := Collection.base_declared_earlier accepted rfl based
  refine ⟨statementOf false earlier, ?_, ?_⟩
  · rw [not_single_of_two member]
    exact List.mem_map_of_mem member
  · rw [Grammar.title_of_name named]
    rfl

/-- The recipes assigned so far are those of the entries passed, and every entry passed has one. -/
structure Records (known : Assigned) (passed : Collection) : Prop where
  sound : ∀ name recipe, known.lookup name = some recipe →
    ∃ entry ∈ passed, entry.key = name ∧ entry.grammar.recipe = recipe
  complete : ∀ entry ∈ passed, ∃ recipe, known.lookup entry.key = some recipe

theorem Records.nil : Records [] [] :=
  ⟨fun _ _ found => by simp at found, fun _ member => by simp at member⟩

theorem Records.step {known : Assigned} {passed : Collection} (records : Records known passed)
    (entry : Entry) :
    Records ((entry.key, entry.grammar.recipe) :: known) (passed ++ [entry]) := by
  constructor
  · intro name recipe found
    by_cases same : name = entry.key
    · subst same
      simp only [List.lookup_cons, beq_self_eq_true, Option.some.injEq] at found
      exact ⟨entry, by simp, rfl, found⟩
    · simp only [List.lookup_cons, beq_eq_false_iff_ne.mpr same] at found
      obtain ⟨earlier, member, keyed, recorded⟩ := records.sound name recipe found
      exact ⟨earlier, List.mem_append_left _ member, keyed, recorded⟩
  · intro earlier member
    by_cases same : earlier.key = entry.key
    · exact ⟨entry.grammar.recipe, by simp [same]⟩
    · rcases List.mem_append.mp member with old | new
      · obtain ⟨recipe, found⟩ := records.complete earlier old
        exact ⟨recipe, by simpa [List.lookup_cons, beq_eq_false_iff_ne.mpr same] using found⟩
      · exact absurd (congrArg Entry.key (List.mem_singleton.mp new)) same

/-- The statement of an entry, linked to records of the entries before it, is its whole recipe. -/
theorem linked_statement {c passed rest : Collection} {source : Text} {entry : Entry}
    {known : Assigned} (accepted : c.checkOrder source = .ok ()) (stored : c.BasesStored)
    (parts : c = passed ++ entry :: rest) (records : Records known passed) (single : Bool) :
    (statementOf single entry).linked known = entry.grammar.recipe := by
  cases based : entry.grammar.base? with
  | none =>
    rw [Grammar.recipe_of_root based]
    simp only [Statement.linked, statementOf, slotOf_root based, Slot.linked, Slot.text]
  | some base =>
    obtain ⟨earlier, member, named⟩ := Collection.base_declared_earlier accepted parts based
    obtain ⟨recipe, found⟩ := records.complete earlier member
    -- The record under the base's name may belong to another entry of that name, and still is the base.
    obtain ⟨owner, owned, keyed, recorded⟩ := records.sound _ _ found
    have title := Grammar.title_of_name named
    have inside : entry ∈ c := by simp [parts]
    have same : owner.grammar = base :=
      stored entry inside base based owner (by simp [parts, owned]) (keyed.trans title.symm)
    rw [Grammar.recipe_of_base based]
    simp only [Statement.linked, statementOf, slotOf_base based, Slot.linked, title, found,
      Option.getD_some, ← recorded, same]

/-- Linking goes on from the records of the entries passed to the recipes of those that follow. -/
theorem linkFrom_statements {c passed rest : Collection} {source : Text} {known : Assigned}
    (accepted : c.checkOrder source = .ok ()) (stored : c.BasesStored)
    (parts : c = passed ++ rest) (records : Records known passed) :
    linkFrom known (rest.map (statementOf false)) = rest.map fun entry => entry.grammar.recipe := by
  induction rest generalizing passed known with
  | nil => rfl
  | cons entry rest ih =>
    have linked := linked_statement accepted stored parts records false
    have parts' : c = (passed ++ [entry]) ++ rest := by simp [parts]
    simp only [List.map_cons, linkFrom, linked]
    rw [← ih parts' (records.step entry)]
    rfl

/-- Linking the statements of an accepted collection gives the whole recipe of every entry. -/
theorem link_statements {c : Collection} {source : Text} (accepted : c.checkOrder source = .ok ())
    (stored : c.BasesStored) : link (statements c) = c.map fun entry => entry.grammar.recipe := by
  rw [statements_eq, link]
  cases single : isSingle c with
  | false => exact linkFrom_statements accepted stored rfl .nil
  | true =>
    obtain ⟨entry, rfl⟩ := List.length_eq_one_iff.mp (eq_of_beq single)
    have linked := linked_statement accepted stored (List.nil_append _).symm .nil true
    simp only [List.map_cons, List.map_nil, linkFrom, linked]

/-- Three grammars, each on top of the one before. -/
def chain : Collection :=
  let a : Grammar := .root ⟨.str "A", .object [], .null, .object []⟩
  let b : Grammar := .derived ⟨.str "B", .object [], .null, .object []⟩ (.row 0) a
  let c : Grammar := .derived ⟨.str "C", .object [], .null, .object []⟩ (.row 1) b
  [⟨"A", 0, a⟩, ⟨"B", 1, b⟩, ⟨"C", 2, c⟩]

theorem chain_stored : chain.BasesStored := by
  simp [Collection.BasesStored, chain, Grammar.base?, Grammar.title, Grammar.declaration,
    Json.plain, Text.ofString]

end Bundle

end GrammarBundle
