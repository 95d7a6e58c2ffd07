import GrammarBundle.Proofs.Bundle.Linking
import GrammarBundle.Proofs.Json.Delimited
import GrammarBundle.Proofs.Text.Pieces

/-!
The text of a module tells its format and its statements. Keys and references are identifiers, and so end
at the sign after them; recipes are written values. No text inside a recipe can therefore be taken for
another statement, for a reference, or for the end of the module.
-/

namespace GrammarBundle

def CodePoint.isWordSign : CodePoint → Bool
  | .char c => c.isAlphanum || c == '_' || c == '$'
  | .surrogate _ => false

/-- An ASCII identifier: letters, digits, `_` and `$`, no digit first. -/
def Text.isIdentifier : Text → Bool
  | [] => false
  | p :: rest => p.isWordSign && !p.isDigit && rest.all (·.isWordSign)

namespace Text

variable {p : CodePoint} {s t r u : Text}

theorem not_mem_of_isIdentifier (named : t.isIdentifier = true) (mark : p.isWordSign = false) :
    p ∉ t := by
  intro member
  cases t with
  | nil => cases member
  | cons q t =>
    rw [isIdentifier, Bool.and_eq_true, Bool.and_eq_true, List.all_eq_true] at named
    have sign : p.isWordSign = true := by
      rcases List.mem_cons.mp member with rfl | inside
      · exact named.1.1
      · exact named.2 p inside
    rw [mark] at sign
    cases sign

/-- Text without a mark ends at the first occurrence of that mark. -/
theorem ends_at (free : p ∉ s) (clear : p ∉ t) (same : s ++ p :: r = t ++ p :: u) :
    s = t ∧ r = u := by
  have pieces := congrArg (splitAt p) same
  rw [splitAt_append_separator, splitAt_append_separator, splitAt_whole free, splitAt_whole clear]
    at pieces
  obtain rfl := (List.cons.inj pieces).1
  exact ⟨rfl, (List.cons.inj (List.append_cancel_left same)).2⟩

end Text

/-- A declaration whose numbers are all whole. -/
structure Declaration.Whole (d : Declaration) : Prop where
  name : d.name.Whole
  info : d.info.Whole
  start : d.start.Whole
  rules : d.rules.Whole

namespace Bundle

variable {r s : Text}

def Slot.Named : Slot → Prop
  | .builtIn => True
  | .reference name => name.isIdentifier = true

def Target.Named : Target → Prop
  | .whole => True
  | .member key => key.isIdentifier = true

/-- A statement whose names are identifiers and whose numbers are all whole. -/
structure Statement.Plain (s : Statement) : Prop where
  target : s.target.Named
  slot : s.slot.Named
  declaration : s.declaration.Whole

theorem slot_ends {x y : Slot} (named : x.Named) (other : y.Named)
    (same : x.text ++ .char ',' :: r = y.text ++ .char ',' :: s) : x = y ∧ r = s := by
  cases x with
  | builtIn =>
    cases y with
    | builtIn => exact ⟨rfl, (List.cons.inj (List.append_cancel_left same)).2⟩
    | reference name => cases same
  | reference name =>
    cases y with
    | builtIn => cases same
    | reference name' =>
      rw [Slot.text, Slot.text, List.append_assoc, List.append_assoc] at same
      obtain ⟨rfl, rest⟩ := Text.ends_at (Text.not_mem_of_isIdentifier named rfl)
        (Text.not_mem_of_isIdentifier other rfl) (List.append_cancel_left same)
      exact ⟨rfl, rest⟩

theorem target_ends {x y : Target} (named : x.Named) (other : y.Named)
    (same : x.text ++ r = y.text ++ s) : x = y ∧ r = s := by
  cases x with
  | whole =>
    cases y with
    | whole => exact ⟨rfl, List.append_cancel_left same⟩
    | member key => cases same
  | member key =>
    cases y with
    | whole => cases same
    | member key' =>
      rw [Target.text, Target.text] at same
      simp only [List.append_assoc] at same
      obtain ⟨rfl, rest⟩ := Text.ends_at (Text.not_mem_of_isIdentifier named rfl)
        (Text.not_mem_of_isIdentifier other rfl) (List.append_cancel_left same)
      exact ⟨rfl, rest⟩

theorem recipe_append (d : Declaration) (base : Text) :
    d.recipe base ++ r = .char '[' :: (Json.compact (.str "grammar") ++ .char ',' ::
      (d.info.compact ++ .char ',' :: (d.name.compact ++ .char ',' :: (base ++ .char ',' ::
        (d.start.compact ++ .char ',' :: (d.rules.compact ++ .char ']' :: r)))))) := by
  simp only [Declaration.recipe, Text.join, List.append_assoc]
  rfl

theorem recipe_ends {d e : Declaration} {x y : Slot} (whole : d.Whole) (others : e.Whole)
    (named : x.Named) (other : y.Named) (same : d.recipe x.text ++ r = e.recipe y.text ++ s) :
    d = e ∧ x = y ∧ r = s := by
  have comma {t : Text} : Json.Closes (.char ',' :: t) := Json.closes_cons (by simp)
  have bracket {t : Text} : Json.Closes (.char ']' :: t) := Json.closes_cons (by simp)
  rw [recipe_append, recipe_append] at same
  have tagged := List.append_cancel_left (List.cons.inj same).2
  obtain ⟨info, after_info⟩ := Json.write_delimited _ _ 0 whole.info others.info comma comma
    (List.cons.inj tagged).2
  obtain ⟨name, after_name⟩ := Json.write_delimited _ _ 0 whole.name others.name comma comma
    (List.cons.inj after_info).2
  obtain ⟨slot, after_slot⟩ := slot_ends named other (List.cons.inj after_name).2
  obtain ⟨start, after_start⟩ := Json.write_delimited _ _ 0 whole.start others.start comma comma
    after_slot
  obtain ⟨rules, after_rules⟩ := Json.write_delimited _ _ 0 whole.rules others.rules bracket bracket
    (List.cons.inj after_start).2
  refine ⟨?_, slot, (List.cons.inj after_rules).2⟩
  cases d
  cases e
  rw [Declaration.mk.injEq]
  exact ⟨name, info, start, rules⟩

theorem statement_ends {x y : Statement} (plain : x.Plain) (other : y.Plain)
    (same : x.text ++ r = y.text ++ s) : x = y ∧ r = s := by
  rw [Statement.text, Statement.text] at same
  simp only [List.append_assoc] at same
  obtain ⟨target, called⟩ := target_ends plain.target other.target same
  obtain ⟨declaration, slot, closed⟩ := recipe_ends plain.declaration other.declaration plain.slot
    other.slot (List.append_cancel_left called)
  refine ⟨?_, List.append_cancel_left closed⟩
  cases x
  cases y
  rw [Statement.mk.injEq]
  exact ⟨target, slot, declaration⟩

/-- A statement starts with its target, and so unlike the end of a module. -/
theorem trailer_no_statement {f : Format} {x : Statement} (same : f.trailer = x.text ++ s) : False := by
  obtain ⟨target, slot, declaration⟩ := x
  cases f <;> cases target <;> cases same

theorem statements_end {f : Format} {front others : List Statement}
    (plain : ∀ x ∈ front, x.Plain) (clear : ∀ x ∈ others, x.Plain)
    (same : front.flatMap Statement.text ++ f.trailer =
      others.flatMap Statement.text ++ f.trailer) : front = others := by
  induction front generalizing others with
  | nil =>
    cases others with
    | nil => rfl
    | cons y others =>
      rw [List.flatMap_cons, List.append_assoc] at same
      exact (trailer_no_statement same).elim
  | cons x front ih =>
    cases others with
    | nil =>
      rw [List.flatMap_cons, List.append_assoc] at same
      exact (trailer_no_statement same.symm).elim
    | cons y others =>
      rw [List.flatMap_cons, List.flatMap_cons, List.append_assoc, List.append_assoc] at same
      obtain ⟨rfl, later⟩ := statement_ends (plain x List.mem_cons_self)
        (clear y List.mem_cons_self) same
      rw [ih (fun z member => plain z (List.mem_cons_of_mem _ member))
        (fun z member => clear z (List.mem_cons_of_mem _ member)) later]

/-- The text of a module of any statements, with or without an object to which they assign. -/
def moduleText (format : Format) (runtime : Text) (keyed : Bool) (ss : List Statement) : Text :=
  format.preamble runtime ++ (Text.onlyIf keyed "const result=\x7b\x7d;" ++
    (ss.flatMap Statement.text ++ format.trailer))

theorem renderModule_eq (format : Format) (runtime : Text) (c : Collection) :
    renderModule format runtime c = moduleText format runtime (!isSingle c) (statements c) := by
  simp only [renderModule, moduleText, List.append_assoc]

theorem format_of_preamble {e f : Format} {runtime : Text}
    (same : e.preamble runtime ++ r = f.preamble runtime ++ s) : e = f := by
  cases e <;> cases f <;> first | rfl | cases same

/-- The object to which statements assign is declared in a way of its own. -/
theorem no_object {f : Format} {ss : List Statement}
    (same : "const result=\x7b\x7d;" ++ r = ss.flatMap Statement.text ++ f.trailer) : False := by
  cases ss with
  | nil => cases f <;> cases same
  | cons x ss =>
    rw [List.flatMap_cons, List.append_assoc] at same
    obtain ⟨target, slot, declaration⟩ := x
    cases target <;> cases same

theorem moduleText_injective {e f : Format} {runtime : Text} {keyed keyed' : Bool}
    {ss others : List Statement} (plain : ∀ x ∈ ss, x.Plain) (clear : ∀ x ∈ others, x.Plain)
    (same : moduleText e runtime keyed ss = moduleText f runtime keyed' others) :
    e = f ∧ keyed = keyed' ∧ ss = others := by
  obtain rfl := format_of_preamble same
  have opened := List.append_cancel_left same
  cases keyed with
  | false =>
    cases keyed' with
    | false => exact ⟨rfl, rfl, statements_end plain clear opened⟩
    | true => exact (no_object opened.symm).elim
  | true =>
    cases keyed' with
    | false => exact (no_object opened).elim
    | true => exact ⟨rfl, rfl, statements_end plain clear (List.append_cancel_left opened)⟩

end Bundle

/-- An entry whose names are identifiers and whose numbers are all whole. -/
structure Entry.Plain (entry : Entry) : Prop where
  key : entry.key.isIdentifier = true
  base : ∀ base, entry.grammar.base? = some base → base.title.isIdentifier = true
  declaration : entry.grammar.declaration.Whole

namespace Bundle

theorem plain_statements {c : Collection} (plain : ∀ entry ∈ c, entry.Plain) :
    ∀ x ∈ statements c, x.Plain := by
  intro x member
  obtain ⟨entry, inside, rfl⟩ := List.mem_map.mp member
  have names := plain entry inside
  refine ⟨?_, ?_, names.declaration⟩
  · cases isSingle c with
    | false => exact names.key
    | true => exact trivial
  · cases based : entry.grammar.base? with
    | none =>
      change (slotOf entry.grammar).Named
      rw [slotOf_root based]
      exact trivial
    | some base =>
      change (slotOf entry.grammar).Named
      rw [slotOf_base based]
      exact names.base base based

/-- A grammar whose source and rules hold the text of statements. -/
def imitation (key : Text) : Collection :=
  [⟨key, 0, .derived
    ⟨.str "A", .object [("source", .str "\"]);result.B=ohm.makeRecipe([\"")], .str "\\\"",
      .object [("];", .list [.str "module.exports=result;", .null, .int (-1)])]⟩
    .outside (.named (.str "Base"))⟩]

theorem plain_imitation {key : Text} (named : key.isIdentifier = true) :
    ∀ entry ∈ imitation key, entry.Plain := by
  intro entry member
  obtain rfl := List.mem_singleton.mp member
  refine ⟨named, ?_, trivial, ⟨trivial, trivial⟩, trivial,
    ⟨⟨trivial, trivial, trivial, trivial⟩, trivial⟩⟩
  intro base based
  cases based
  rfl

end Bundle

end GrammarBundle
