import GrammarBundle.Config.Load

/-!
What a document may say. Each rule takes exactly the values that it names, and a document makes settings
exactly if it is none at all or a mapping of known names to values that meet their rules. Put into the
defaults one by one, its entries make the configuration of these settings, and none of them is refused.
-/

namespace GrammarBundle

namespace Binary64

theorem scaled_positive (m : Nat) (power : Int) :
    0 < (scaled m 1 power).2 ∧ ((scaled m 1 power).1 = 0 ↔ m = 0) := by
  have powers (k : Nat) : 0 < Nat.pow 2 k := Nat.pow_pos (by decide)
  unfold scaled
  split
  · have some_power := powers power.toNat
    simp only [Nat.mul_eq_zero]
    omega
  · have some_power := powers (-power).toNat
    simp only [Nat.one_mul, iff_self, and_true]
    exact some_power

/-- A number with a whole value is below zero if that value is. -/
theorem isBelowZero_of_toInt {x : Binary64} {n : Int} (whole : x.toInt? = some n) :
    x.isBelowZero = decide (n < 0) := by
  cases x with
  | infinite s => cases whole
  | nan => cases whole
  | finite s m q =>
    obtain ⟨positive, none_iff⟩ := scaled_positive m q
    unfold toInt? at whole
    dsimp only at whole
    generalize (scaled m 1 q).1 = num at whole none_iff
    generalize (scaled m 1 q).2 = den at whole positive
    split at whole
    next divides =>
      obtain ⟨k, rfl⟩ := Nat.dvd_of_mod_eq_zero divides
      rw [Nat.mul_div_cancel_left k positive] at whole
      have some_value : m ≠ 0 ↔ k ≠ 0 := by
        rw [ne_eq, ← none_iff, Nat.mul_eq_zero]
        omega
      cases s with
      | false =>
        obtain rfl : (k : Int) = n := by simpa using whole
        simp [isBelowZero]
      | true =>
        obtain rfl : -(k : Int) = n := by simpa using whole
        rw [isBelowZero, Bool.true_and, Bool.eq_iff_iff, bne_iff_ne, some_value, decide_eq_true_iff]
        omega
    · cases whole

end Binary64

namespace Numeral

def toDatum : Numeral → Datum
  | .whole n => .int n
  | .floating x => .float x

/-- The integer that a number is, if it is one. -/
def value? : Numeral → Option Int
  | .whole n => some n
  | .floating x => x.toInt?

theorem isInteger_eq (n : Numeral) : n.isInteger = n.value?.isSome := by
  cases n <;> rfl

theorem isNegative_eq {n : Numeral} {k : Int} (value : n.value? = some k) :
    n.isNegative = decide (k < 0) := by
  cases n with
  | whole n =>
    obtain rfl : n = k := Option.some.inj value
    rfl
  | floating x => exact Binary64.isBelowZero_of_toInt value

end Numeral

namespace Config

theorem isOne_eq (n : Numeral) : isOne n = (n.value? == some 1) := by
  cases n with
  | whole n => simp [isOne, Numeral.value?]
  | floating x => rfl

/-- A value is an integer if it is the datum of a number that is one. -/
theorem integer_eq_some_iff {v : Datum} {n : Numeral} :
    integer? v = some n ↔ v = n.toDatum ∧ ∃ k, n.value? = some k := by
  rw [integer?, Option.filter_eq_some_iff, Numeral.isInteger_eq, Option.isSome_iff_exists]
  constructor
  · rintro ⟨number, whole⟩
    refine ⟨?_, whole⟩
    cases v <;> cases number <;> rfl
  · rintro ⟨rfl, whole⟩
    refine ⟨?_, whole⟩
    cases n <;> rfl

/-- The values that rules allow. -/
inductive Meets : Rule → Datum → Prop
  | one {n : Numeral} : n.value? = some 1 → Meets .one n.toDatum
  | text {t : Text} : t ≠ [] → Meets .text (.str t)
  | count {n : Numeral} {k : Int} : n.value? = some k → 0 ≤ k → Meets .count n.toDatum
  | flag (b : Bool) : Meets .flag (.bool b)

theorem meets_one_iff (v : Datum) : Rule.violation? .one v = none ↔ Meets .one v := by
  constructor
  · intro fine
    unfold Rule.violation? at fine
    dsimp only at fine
    split at fine
    · cases fine
    next n found =>
      split at fine
      next one =>
        obtain ⟨rfl, _⟩ := integer_eq_some_iff.mp found
        rw [isOne_eq, beq_iff_eq] at one
        exact .one one
      · cases fine
  · rintro ⟨value⟩
    next n =>
      have found : integer? n.toDatum = some n := integer_eq_some_iff.mpr ⟨rfl, _, value⟩
      have one : isOne n = true := by rw [isOne_eq, value, beq_self_eq_true]
      unfold Rule.violation?
      dsimp only
      rw [found]
      dsimp only
      rw [if_pos one]

theorem meets_count_iff (v : Datum) : Rule.violation? .count v = none ↔ Meets .count v := by
  constructor
  · intro fine
    unfold Rule.violation? at fine
    dsimp only at fine
    split at fine
    · cases fine
    next n found =>
      split at fine
      · cases fine
      next positive =>
        obtain ⟨rfl, k, value⟩ := integer_eq_some_iff.mp found
        rw [Numeral.isNegative_eq value, decide_eq_true_iff, Int.not_lt] at positive
        exact .count value positive
  · rintro ⟨⟩
    next n k value positive =>
      have found : integer? n.toDatum = some n := integer_eq_some_iff.mpr ⟨rfl, _, value⟩
      have above : ¬n.isNegative = true := by
        rw [Numeral.isNegative_eq value, decide_eq_true_iff]
        exact Int.not_lt.mpr positive
      unfold Rule.violation?
      dsimp only
      rw [found]
      dsimp only
      rw [if_neg above]

/-- A value meets a rule exactly if it does not violate it. -/
theorem meets_iff (rule : Rule) (v : Datum) : rule.violation? v = none ↔ Meets rule v := by
  cases rule with
  | one => exact meets_one_iff v
  | count => exact meets_count_iff v
  | text =>
    constructor
    · intro fine
      cases v with
      | str t =>
        cases t with
        | nil => cases fine
        | cons p t => exact .text (List.cons_ne_nil p t)
      | _ => cases fine
    · rintro ⟨⟩
      next t some_text =>
        cases t with
        | nil => exact absurd rfl some_text
        | cons p t => rfl
  | flag =>
    constructor
    · intro fine
      cases v with
      | bool b => exact .flag b
      | _ => cases fine
    · rintro ⟨⟩
      rfl

/-- A value that stands for the mapping around it meets no rule, as the mapping itself does. -/
theorem meets_resolved (entries : List (Datum × Datum)) (rule : Rule) (v : Datum) :
    Meets rule (resolved (.mapping entries) v) ↔ Meets rule v := by
  cases v with
  | again isList =>
    rw [← meets_iff, ← meets_iff]
    cases rule <;> exact iff_of_false (fun fine => by cases fine) (fun fine => by cases fine)
  | _ => exact Iff.rfl

theorem isKnown_iff (key : Datum) : isKnown key = true ↔ ∃ name ∈ rules.map (·.1), key = .str name := by
  cases key with
  | str t =>
    simp only [isKnown, List.any_eq_true, decide_eq_true_iff, List.mem_map, Datum.str.injEq]
    constructor
    · rintro ⟨row, there, rfl⟩
      exact ⟨row.1, ⟨row, there, rfl⟩, rfl⟩
    · rintro ⟨name, ⟨row, there, rfl⟩, same⟩
      exact ⟨row, there, same.symm⟩
  | _ => exact iff_of_false Bool.false_ne_true (fun ⟨_, _, same⟩ => by cases same)

/-- Entries under known names only, each of which meets the rule of its name. -/
structure Lawful (entries : List (Datum × Datum)) : Prop where
  known : ∀ entry ∈ entries, ∃ name ∈ rules.map (·.1), entry.1 = .str name
  met : ∀ {name rule v}, (name, rule) ∈ rules → valueOf name entries = some v → Meets rule v

theorem unknownKeys_eq_nil_iff (entries : List (Datum × Datum)) :
    unknownKeys entries = [] ↔ ∀ entry ∈ entries, ∃ name ∈ rules.map (·.1), entry.1 = .str name := by
  simp only [unknownKeys, List.filter_eq_nil_iff, Bool.not_eq_true, Bool.not_eq_false',
    List.forall_mem_map, isKnown_iff]

/-- Entries have no violation exactly if they are lawful. -/
theorem lawful_iff (entries : List (Datum × Datum)) :
    entriesViolation? entries = none ↔ Lawful entries := by
  have all_known := unknownKeys_eq_nil_iff entries
  unfold entriesViolation?
  dsimp only
  split
  next some_unknown =>
    constructor
    · intro fine
      cases fine
    · intro lawful
      exact absurd (all_known.mpr lawful.known) some_unknown
  next none_unknown =>
    rw [ne_eq, Decidable.not_not] at none_unknown
    simp only [List.findSome?_eq_none_iff, Prod.forall, Option.bind_eq_none_iff, meets_iff,
      meets_resolved]
    constructor
    · intro met
      refine ⟨all_known.mp none_unknown, ?_⟩
      intro name rule v row
      exact met name rule row v
    · intro lawful name rule row v
      exact lawful.met row

/-- The documents that make settings. -/
inductive Accepted : Datum → Prop
  | nothing : Accepted .null
  | mapping {entries : List (Datum × Datum)} : Lawful entries → Accepted (.mapping entries)

/-- The entries of a document; one that is no mapping has none. -/
def entriesOf : Datum → List (Datum × Datum)
  | .mapping entries => entries
  | _ => []

/-- The settings of an accepted document are those of its entries. -/
theorem ofDocument_eq_ok_iff (document : Datum) (settings : Settings) :
    Settings.ofDocument document = .ok settings ↔
      Accepted document ∧ settings = .ofEntries (entriesOf document) := by
  cases document with
  | null =>
    constructor
    · rintro ⟨⟩
      exact ⟨.nothing, rfl⟩
    · rintro ⟨_, rfl⟩
      rfl
  | mapping entries =>
    unfold Settings.ofDocument
    dsimp only [entriesOf]
    cases judged : entriesViolation? entries with
    | none =>
      constructor
      · rintro ⟨⟩
        exact ⟨.mapping ((lawful_iff entries).mp judged), rfl⟩
      · rintro ⟨_, rfl⟩
        rfl
    | some violation =>
      constructor
      · intro accepted
        cases accepted
      · rintro ⟨accepted, _⟩
        cases accepted with
        | mapping lawful =>
          rw [(lawful_iff entries).mpr lawful] at judged
          cases judged
  | _ =>
    constructor
    · intro accepted
      cases accepted
    · rintro ⟨accepted, _⟩
      cases accepted

/-- A value that meets a rule has no violation, and none without words. -/
theorem worded_of_meets {rule : Rule} {v : Datum} (met : Meets rule v) : rule.isWordless v = false := by
  rw [Rule.isWordless, (meets_iff rule v).mpr met]

/-- An accepted document has no violation without words. -/
theorem worded_of_accepted {document : Datum} (accepted : Accepted document) :
    Settings.isWordless document = false := by
  cases accepted with
  | nothing => rfl
  | @mapping entries lawful =>
    rw [Settings.isWordless, (unknownKeys_eq_nil_iff entries).mpr lawful.known, List.any_nil,
      Bool.false_or, List.any_eq_false]
    rintro ⟨name, rule⟩ row
    rw [Bool.not_eq_true, Option.any_eq_false]
    intro v given
    exact worded_of_meets ((meets_resolved entries rule v).mpr (lawful.met row given))

/-- A configuration with the setting of one entry, if it has one of that name and the value is of its
kind. -/
def withEntry (c : Config) (name : Text) (v : Datum) : Option Config :=
  if name = "node" then (textOf? v).map fun t => { c with node := t }
  else if name = "ohm_module" then (textOf? v).map fun t => { c with runtime := t }
  else if name = "types_module" then (textOf? v).map fun t => { c with typesModule := t }
  else if name = "timeout_seconds" then (numeral? v).map fun n => { c with timeout := n }
  else if name = "with_types" then (flagOf? v).map fun b => { c with withTypes := b }
  else if name = "esm" then (flagOf? v).map fun b => { c with esm := b }
  else none

/-- A configuration with the settings of entries, one by one. -/
def withEntries (c : Config) : List (Datum × Datum) → Option Config
  | [] => some c
  | (.str name, v) :: rest => do withEntry (← withEntries c rest) name v
  | _ :: _ => none

theorem valueOf_other {name other : Text} (v : Datum) (rest : List (Datum × Datum))
    (others : name ≠ other) : valueOf other ((.str name, v) :: rest) = valueOf other rest := by
  rw [valueOf, if_neg others]

theorem valueOf_eq_none {name : Text} {entries : List (Datum × Datum)}
    (fresh : .str name ∉ entries.map (·.1)) : valueOf name entries = none := by
  induction entries with
  | nil => rfl
  | cons entry rest ih =>
    obtain ⟨key, v⟩ := entry
    rw [List.map_cons, List.mem_cons, not_or] at fresh
    obtain ⟨others, fresh⟩ := fresh
    cases key with
    | str t =>
      rw [valueOf_other v rest (fun same => others (congrArg Datum.str same.symm))]
      exact ih fresh
    | _ => exact ih fresh

/-- Lawful entries are so without the first one. -/
theorem Lawful.tail {entry : Datum × Datum} {rest : List (Datum × Datum)}
    (lawful : Lawful (entry :: rest)) (fresh : entry.1 ∉ rest.map (·.1)) : Lawful rest := by
  obtain ⟨key, v⟩ := entry
  obtain ⟨name, _, rfl⟩ := lawful.known _ List.mem_cons_self
  constructor
  · intro entry there
    exact lawful.known entry (List.mem_cons_of_mem _ there)
  · intro other rule value row given
    by_cases same : name = other
    · subst same
      rw [valueOf_eq_none fresh] at given
      cases given
    · rw [← valueOf_other v rest same] at given
      exact lawful.met row given

/-- The entry in front of others changes their configuration by its own setting. -/
theorem withEntry_ofEntries {name : Text} {rule : Rule} {v : Datum} (source : Path)
    (rest : List (Datum × Datum)) (row : (name, rule) ∈ rules) (other : name ≠ "schema_version")
    (met : Meets rule v) : withEntry (ofSettings source (.ofEntries rest)) name v =
      some (ofSettings source (.ofEntries ((.str name, v) :: rest))) := by
  simp only [rules, List.mem_cons, List.not_mem_nil, or_false, Prod.mk.injEq] at row
  rcases row with ⟨rfl, rfl⟩ | ⟨rfl, rfl⟩ | ⟨rfl, rfl⟩ | ⟨rfl, _⟩ | ⟨rfl, rfl⟩ | ⟨rfl, rfl⟩ | ⟨rfl, rfl⟩
  case inr.inr.inr.inl => exact absurd rfl other
  case inr.inr.inl =>
    cases met with
    | @count n k whole positive =>
      have number : numeral? n.toDatum = some n := by cases n <;> rfl
      have integer : integer? n.toDatum = some n := integer_eq_some_iff.mpr ⟨rfl, k, whole⟩
      change (numeral? n.toDatum).map _ = some (ofSettings source
        { Settings.ofEntries rest with timeout := integer? n.toDatum })
      rw [number, integer]
      rfl
  all_goals
    cases met
    rfl

/-- The entries that set something: all but that of the version. -/
def setting (entries : List (Datum × Datum)) : List (Datum × Datum) :=
  entries.filter fun (key, _) => textOf? key ≠ some "schema_version"

/-- Put into the defaults one by one, lawful entries make the configuration of their settings. -/
theorem withEntries_lawful {entries : List (Datum × Datum)} (source : Path) (lawful : Lawful entries)
    (distinct : (entries.map (·.1)).Nodup) :
    withEntries { standard with source := some source } (setting entries) =
      some (ofSettings source (.ofEntries entries)) := by
  induction entries with
  | nil => rfl
  | cons entry rest ih =>
    rw [List.map_cons, List.nodup_cons] at distinct
    have ih := ih (lawful.tail distinct.1) distinct.2
    obtain ⟨key, v⟩ := entry
    obtain ⟨_, known, rfl⟩ := lawful.known _ List.mem_cons_self
    obtain ⟨⟨name, rule⟩, row, rfl⟩ := List.mem_map.mp known
    by_cases version : name = "schema_version"
    · subst version
      exact ih
    · have met : Meets rule v := lawful.met row (by rw [valueOf, if_pos rfl])
      have kept : setting ((.str name, v) :: rest) = (.str name, v) :: setting rest := by
        rw [setting, List.filter_cons_of_pos]
        · rfl
        · exact decide_eq_true (fun same => version (Option.some.inj same))
      rw [kept, withEntries, ih]
      exact withEntry_ofEntries source rest row version met

end Config

end GrammarBundle
