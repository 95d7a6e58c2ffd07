import GrammarBundle.Proofs.Json.Strings
import GrammarBundle.Proofs.Number.Shown

/-!
The compact form. It is made of visible code points alone. In a value without floating numbers, escaping
each surrogate where it is written comes to the same as escaping all surrogates of the written text
afterwards: the second pass meets a surrogate only inside a string, and never in the middle of an escape.
-/

namespace GrammarBundle

/-- Neither a control character below U+0020 nor a surrogate. -/
def CodePoint.isVisible (p : CodePoint) : Bool := 0x20 ≤ p.val && !p.isSurrogate

def Text.isVisible (t : Text) : Bool := t.all (·.isVisible)

namespace Text

theorem isVisible_append {s t : Text} :
    isVisible (s ++ t) = true ↔ s.isVisible = true ∧ t.isVisible = true := by
  rw [isVisible, List.all_append, Bool.and_eq_true]
  rfl

theorem isVisible_cons {p : CodePoint} {t : Text} :
    isVisible (p :: t) = true ↔ p.isVisible = true ∧ t.isVisible = true := by
  rw [isVisible, List.all_cons, Bool.and_eq_true]
  rfl

theorem surrogateFree_of_isVisible {t : Text} (visible : t.isVisible = true) :
    t.surrogateFree = true := by
  rw [isVisible, List.all_eq_true] at visible
  rw [surrogateFree, List.all_eq_true]
  intro p member
  have seen := visible p member
  rw [CodePoint.isVisible, Bool.and_eq_true] at seen
  exact seen.2

end Text

namespace Json

mutual

/-- A value whose numbers are all whole. -/
def Whole : Json → Prop
  | .float _ => False
  | .list items => WholeItems items
  | .object members => WholeMembers members
  | _ => True

def WholeItems : List Json → Prop
  | [] => True
  | v :: rest => Whole v ∧ WholeItems rest

def WholeMembers : List (Text × Json) → Prop
  | [] => True
  | (_, v) :: rest => Whole v ∧ WholeMembers rest

end

theorem visible_ofDigit : ∀ d < 16, (CodePoint.ofDigit d).isVisible = true := by
  decide

theorem visible_unitEscape (n : Nat) : (unitEscape n).isVisible = true := by
  rw [unitEscape, hex_four]
  simp only [Text.isVisible_append, Text.isVisible_cons]
  refine ⟨rfl, ?_, ?_, ?_, ?_, rfl⟩ <;> exact visible_ofDigit _ (Nat.mod_lt _ (by decide))

theorem visible_shortEscape {p : CodePoint} {e : Text} (short : shortEscape? p = some e) :
    e.isVisible = true := by
  unfold shortEscape? at short
  split at short <;> cases short <;> rfl

theorem visible_compactPoint (p : CodePoint) : (compactPoint p).isVisible = true := by
  unfold compactPoint
  split
  next e short => exact visible_shortEscape short
  next plain =>
    split
    · exact visible_unitEscape p.val
    next shown =>
      simp only [Bool.or_eq_true, decide_eq_true_eq, not_or, Bool.not_eq_true] at shown
      have printable : 0x20 ≤ p.val := Nat.le_of_not_lt shown.1
      simp [Text.isVisible, CodePoint.isVisible, shown.2, printable]

theorem shown_floatText (x : Binary64) : (floatText x).Shown :=
  x.shown_toTextWith (by decide) (by decide)

/-- A style that writes accepted code points only, printable ASCII characters among them. -/
structure Style.Within (style : Style) (accepted : CodePoint → Bool) : Prop where
  point : ∀ p, (style.point p).all accepted = true
  comma : style.comma.all accepted = true
  colon : style.colon.all accepted = true
  gap : ∀ depth, (style.break depth).all accepted = true
  shown : ∀ p, p.isShown = true → accepted p = true

namespace Style.Within

variable {style : Style} {accepted : CodePoint → Bool}

theorem fixed (within : style.Within accepted) {t : Text} (shown : t.Shown) :
    t.all accepted = true :=
  List.all_eq_true.mpr fun p member => within.shown p (shown p member)

theorem quote (within : style.Within accepted) (t : Text) : (style.quote t).all accepted = true := by
  have mark : accepted (.char '"') = true := within.shown _ (by decide)
  have inside : (t.flatMap style.point).all accepted = true := by
    rw [List.all_flatMap, List.all_eq_true]
    exact fun p _ => within.point p
  rw [Style.quote, List.all_append, List.all_cons, mark, inside, List.all_cons, mark]
  rfl

end Style.Within

mutual

theorem all_write {style : Style} {accepted : CodePoint → Bool} (within : style.Within accepted)
    (depth : Nat) (v : Json) : (write style depth v).all accepted = true := by
  match v with
  | .null =>
    rw [write]
    exact within.fixed (by decide)
  | .bool true =>
    rw [write]
    exact within.fixed (by decide)
  | .bool false =>
    rw [write]
    exact within.fixed (by decide)
  | .int n => exact within.fixed (Text.shown_ofInt n)
  | .float x => exact within.fixed (shown_floatText x)
  | .str t => exact within.quote t
  | .list [] =>
    rw [write]
    exact within.fixed (by decide)
  | .list (v :: items) =>
    rw [write]
    simp only [List.all_append, Bool.and_eq_true]
    exact ⟨⟨⟨⟨⟨within.fixed (by decide), within.gap _⟩, all_write within _ v⟩,
      all_writeItems within _ items⟩, within.gap _⟩, within.fixed (by decide)⟩
  | .object [] =>
    rw [write]
    exact within.fixed (by decide)
  | .object ((k, v) :: members) =>
    rw [write]
    simp only [List.all_append, Bool.and_eq_true]
    exact ⟨⟨⟨⟨⟨⟨⟨within.fixed (by decide), within.gap _⟩, within.quote k⟩, within.colon⟩,
      all_write within _ v⟩, all_writeMembers within _ members⟩, within.gap _⟩,
      within.fixed (by decide)⟩

theorem all_writeItems {style : Style} {accepted : CodePoint → Bool} (within : style.Within accepted)
    (depth : Nat) (items : List Json) : (writeItems style depth items).all accepted = true := by
  match items with
  | [] => rfl
  | v :: rest =>
    rw [writeItems]
    simp only [List.all_append, Bool.and_eq_true]
    exact ⟨⟨⟨within.comma, within.gap _⟩, all_write within _ v⟩, all_writeItems within _ rest⟩

theorem all_writeMembers {style : Style} {accepted : CodePoint → Bool} (within : style.Within accepted)
    (depth : Nat) (members : List (Text × Json)) :
    (writeMembers style depth members).all accepted = true := by
  match members with
  | [] => rfl
  | (k, v) :: rest =>
    rw [writeMembers]
    simp only [List.all_append, Bool.and_eq_true]
    exact ⟨⟨⟨⟨⟨within.comma, within.gap _⟩, within.quote k⟩, within.colon⟩,
      all_write within _ v⟩, all_writeMembers within _ rest⟩

end

theorem compact_visible : Style.compact.Within (·.isVisible) where
  point := visible_compactPoint
  comma := rfl
  colon := rfl
  gap _ := rfl
  shown p shown := by
    rw [CodePoint.isShown, Bool.and_eq_true, decide_eq_true_eq, decide_eq_true_eq] at shown
    cases p with
    | char c => simp [CodePoint.isVisible, CodePoint.isSurrogate, shown.1]
    | surrogate u => exact absurd shown.2 (by simp only [CodePoint.val]; omega)

theorem visible_compact (v : Json) : v.compact.isVisible = true :=
  all_write compact_visible 0 v

/-- A code point inside a string as the first of two passes writes it, surrogates as they are. -/
def keptPoint (p : CodePoint) : Text :=
  match shortEscape? p with
  | some t => t
  | none => if p.val < 0x20 then unitEscape p.val else [p]

/-- The compact form with surrogates as they are. -/
def Style.kept : Style := ⟨keptPoint, ",", ":", false⟩

/-- What the second pass puts for a code point of the written text. -/
def escapeSurrogate (p : CodePoint) : Text := if p.isSurrogate then unitEscape p.val else [p]

theorem escape_free {t : Text} (free : t.surrogateFree = true) : t.flatMap escapeSurrogate = t := by
  induction t with
  | nil => rfl
  | cons p t ih =>
    rw [Text.surrogateFree, List.all_cons, Bool.and_eq_true, Bool.not_eq_true'] at free
    rw [List.flatMap_cons, ih free.2, escapeSurrogate, free.1]
    rfl

theorem escape_visible {t : Text} (visible : t.isVisible = true) :
    t.flatMap escapeSurrogate = t :=
  escape_free (Text.surrogateFree_of_isVisible visible)

theorem escape_keptPoint (p : CodePoint) :
    (keptPoint p).flatMap escapeSurrogate = compactPoint p := by
  unfold keptPoint compactPoint
  cases escape : shortEscape? p with
  | some e => exact escape_visible (visible_shortEscape escape)
  | none =>
    by_cases control : p.val < 0x20
    · simp only [control, if_true, decide_true, Bool.true_or]
      exact escape_visible (visible_unitEscape p.val)
    · simp [control, escapeSurrogate]

theorem escape_quote (t : Text) :
    (Style.kept.quote t).flatMap escapeSurrogate = Style.compact.quote t := by
  have inside : (t.flatMap keptPoint).flatMap escapeSurrogate = t.flatMap compactPoint := by
    rw [List.flatMap_assoc]
    exact congrArg t.flatMap (funext escape_keptPoint)
  change (CodePoint.char '"' :: t.flatMap keptPoint ++ [CodePoint.char '"']).flatMap
    escapeSurrogate = _
  rw [List.flatMap_append, List.flatMap_cons, inside]
  rfl

mutual

theorem escape_write {v : Json} (depth : Nat) (whole : v.Whole) :
    (write .kept depth v).flatMap escapeSurrogate = write .compact depth v := by
  match v with
  | .null => rfl
  | .bool true => rfl
  | .bool false => rfl
  | .int n => exact escape_visible (compact_visible.fixed (Text.shown_ofInt n))
  | .float x => exact whole.elim
  | .str t => exact escape_quote t
  | .list [] => rfl
  | .list (v :: items) =>
    rw [write, write]
    simp only [List.flatMap_append]
    rw [escape_write _ whole.1, escape_writeItems _ whole.2]
    rfl
  | .object [] => rfl
  | .object ((k, v) :: members) =>
    rw [write, write]
    simp only [List.flatMap_append]
    rw [escape_write _ whole.1, escape_writeMembers _ whole.2, escape_quote]
    rfl

theorem escape_writeItems {items : List Json} (depth : Nat) (whole : WholeItems items) :
    (writeItems .kept depth items).flatMap escapeSurrogate = writeItems .compact depth items := by
  match items with
  | [] => rfl
  | v :: rest =>
    rw [writeItems, writeItems]
    simp only [List.flatMap_append]
    rw [escape_write _ whole.1, escape_writeItems _ whole.2]
    rfl

theorem escape_writeMembers {members : List (Text × Json)} (depth : Nat)
    (whole : WholeMembers members) :
    (writeMembers .kept depth members).flatMap escapeSurrogate =
      writeMembers .compact depth members := by
  match members with
  | [] => rfl
  | (k, v) :: rest =>
    rw [writeMembers, writeMembers]
    simp only [List.flatMap_append]
    rw [escape_write _ whole.1, escape_writeMembers _ whole.2, escape_quote]
    rfl

end

/-- The compact form is the written text with its surrogates escaped afterwards. -/
theorem compact_eq_escaped {v : Json} (whole : v.Whole) :
    v.compact = (write .kept 0 v).flatMap escapeSurrogate :=
  (escape_write 0 whole).symm

end Json

end GrammarBundle
