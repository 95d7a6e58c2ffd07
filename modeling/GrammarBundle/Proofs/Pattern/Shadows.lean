import GrammarBundle.Proofs.Pattern.Products
import GrammarBundle.Proofs.Text.Pieces

/-!
What expansion leaves. The scan passes a group without a comma of its own as a whole, and behind a brace
that is never closed it finds no group at all. Alternatives that stand in such a shadow stay as they are,
and all others go: a pattern leaves alternatives exactly if it has some in a shadow.
-/

namespace GrammarBundle.Pattern

/-- A group of alternatives, wherever in the text it stands. -/
def HoldsAlternatives (t : Text) : Prop :=
  ∃ before body after, t = before ++ .char '{' :: (body ++ .char '}' :: after) ∧
    isBalanced body = true ∧ HoldsComma body

/-- The text after an opening brace does not close it. -/
def NeverCloses (t : Text) : Prop :=
  ∀ body after, t = body ++ .char '}' :: after → isBalanced body = false

/-- An opening brace has alternatives in its shadow, given the text after it. -/
inductive Shades (t : Text) : Prop
  /-- The brace opens a group without a comma of its own, in which the alternatives stand. -/
  | group (body after : Text) : t = body ++ .char '}' :: after → isBalanced body = true →
      ¬HoldsComma body → HoldsAlternatives body → Shades t
  /-- The brace has no partner, and the alternatives stand somewhere behind it. -/
  | unclosed : NeverCloses t → HoldsAlternatives t → Shades t

/-- A text with alternatives in the shadow of one of its braces. -/
def Shadowed (t : Text) : Prop := ∃ before after, t = before ++ .char '{' :: after ∧ Shades after

section partners

/-- A text that ends below the depth of a brace before it closes that brace. -/
theorem partner_of_depth {depth k : Nat} {t : Text} (low : depthFrom (depth + (k + 1)) t ≤ k) :
    ∃ body after, t = body ++ .char '}' :: after ∧ isBalancedFrom depth body = true := by
  induction t generalizing depth with
  | nil =>
    simp only [depthFrom, List.foldl_nil] at low
    omega
  | cons p t ih =>
    by_cases closing : p = .char '}' ∧ depth = 0
    · obtain ⟨rfl, rfl⟩ := closing
      exact ⟨[], t, rfl, rfl⟩
    · rw [depthFrom_cons, depthAfter_add (k + 1) closing] at low
      obtain ⟨body, after, rfl, balanced⟩ := ih low
      exact ⟨p :: body, after, rfl, isBalancedFrom_cons.mpr ⟨closing, balanced⟩⟩

/-- Every brace of closed text has its partner in it. -/
theorem partner_of_closed {before rest : Text} (closed : isClosed (before ++ .char '{' :: rest) = true) :
    ∃ body after, rest = body ++ .char '}' :: after ∧ isBalanced body = true := by
  have ends := depthFrom_closed closed
  rw [depthFrom_append, depthFrom_cons] at ends
  have low : depthFrom (0 + (depthFrom 0 before + 1)) rest ≤ depthFrom 0 before := by
    rw [Nat.zero_add]
    exact Nat.le_trans (Nat.le_of_eq ends) (Nat.zero_le _)
  exact partner_of_depth low

theorem partner_of_closes {t : Text} (closes : ¬NeverCloses t) :
    ∃ body after, t = body ++ .char '}' :: after ∧ isBalanced body = true := by
  simpa [NeverCloses] using closes

/-- A brace has one partner at most. -/
theorem partner_unique {depth : Nat} {body other after rest : Text}
    (balanced : isBalancedFrom depth body = true) (balanced' : isBalancedFrom depth other = true)
    (same : body ++ .char '}' :: after = other ++ .char '}' :: rest) : body = other := by
  induction body generalizing other depth with
  | nil =>
    cases other with
    | nil => rfl
    | cons q other =>
      obtain ⟨rfl, _⟩ := List.cons.inj same
      have none : depth = 0 := by simpa [isBalancedFrom] using balanced
      exact absurd ⟨rfl, none⟩ (isBalancedFrom_cons.mp balanced').1
  | cons p body ih =>
    cases other with
    | nil =>
      obtain ⟨rfl, _⟩ := List.cons.inj same
      have none : depth = 0 := by simpa [isBalancedFrom] using balanced'
      exact absurd ⟨rfl, none⟩ (isBalancedFrom_cons.mp balanced).1
    | cons q other =>
      obtain ⟨rfl, rests⟩ := List.cons.inj same
      have tails := ih (isBalancedFrom_cons.mp balanced).2 (isBalancedFrom_cons.mp balanced').2 rests
      rw [tails]

/-- The partner of a brace that has none in front of a group has it behind the group. -/
theorem encloses_group {inner body after outer rest : Text} (never : NeverCloses inner)
    (balanced : isBalanced body = true) (outer_balanced : isBalanced outer = true)
    (same : inner ++ .char '{' :: (body ++ .char '}' :: after) = outer ++ .char '}' :: rest) :
    ∃ behind, outer = inner ++ .char '{' :: (body ++ .char '}' :: behind) := by
  rcases List.append_eq_append_iff.mp same with ⟨more, rfl, late⟩ | ⟨more, early, late⟩
  · cases more with
    | nil => cases late
    | cons p more =>
      obtain ⟨rfl, rests⟩ := List.cons.inj late
      obtain ⟨inside, behind, rfl, inside_balanced⟩ :=
        partner_of_closed (isClosed_of_balanced outer_balanced)
      have joined : body ++ .char '}' :: after =
          inside ++ .char '}' :: (behind ++ .char '}' :: rest) := by simpa using rests
      rw [partner_unique balanced inside_balanced joined]
      exact ⟨behind, rfl⟩
  · cases more with
    | nil => cases late
    | cons p more =>
      obtain ⟨rfl, _⟩ := List.cons.inj late
      have unbalanced := never outer more early
      rw [outer_balanced] at unbalanced
      cases unbalanced

/-- Text that is not closed has a first brace that it never closes. -/
theorem unclosed_brace {t : Text} (openEnd : isClosed t ≠ true) :
    ∃ before after, t = before ++ .char '{' :: after ∧ isClosed before = true ∧ NeverCloses after := by
  -- A group in front is passed as a whole, so that the rest may be shorter by more than one.
  induction length : t.length using Nat.strongRecOn generalizing t with
  | ind n ih =>
    cases t with
    | nil => exact absurd rfl openEnd
    | cons p t =>
      by_cases opening : p = .char '{'
      · subst opening
        by_cases never : NeverCloses t
        · exact ⟨[], t, rfl, rfl, never⟩
        · obtain ⟨body, after, rfl, balanced⟩ := partner_of_closes never
          have passed (rest : Text) :
              isClosed (.char '{' :: (body ++ .char '}' :: rest)) = isClosed rest :=
            isClosed_group balanced
          rw [passed] at openEnd
          have shorter : after.length < n := by
            rw [← length]
            simp
            omega
          obtain ⟨before, inner, rfl, closed, never⟩ := ih _ shorter openEnd rfl
          refine ⟨.char '{' :: (body ++ .char '}' :: before), inner, by simp, ?_, never⟩
          rw [passed, closed]
      · have passed (rest : Text) : isClosed (p :: rest) = isClosed rest := by
          simp only [isClosed, depthFrom_cons, depthAfter_outside opening]
        rw [passed] at openEnd
        obtain ⟨before, inner, rfl, closed, never⟩ := ih t.length (by simp [← length]) openEnd rfl
        exact ⟨p :: before, inner, rfl, by rw [passed, closed], never⟩

end partners

section shadows

variable {front rest body t : Text}

theorem HoldsAlternatives.extend (before after : Text) (holds : HoldsAlternatives t) :
    HoldsAlternatives (before ++ .char '{' :: (t ++ after)) := by
  obtain ⟨left, body, right, rfl, balanced, comma⟩ := holds
  exact ⟨before ++ .char '{' :: left, body, right ++ after, by simp, balanced, comma⟩

/-- Shadows hold the alternatives that make them. -/
theorem Shadowed.holdsAlternatives (shadowed : Shadowed t) : HoldsAlternatives t := by
  obtain ⟨before, after, rfl, shades⟩ := shadowed
  cases shades with
  | group body rest whole balanced single holds =>
    subst whole
    exact holds.extend before (.char '}' :: rest)
  | unclosed never holds => simpa using holds.extend before []

/-- A brace with a partner shades what stands between the two, if no comma of theirs does. -/
theorem shades_closed (balanced : isBalanced body = true) :
    Shades (body ++ .char '}' :: rest) ↔ ¬HoldsComma body ∧ HoldsAlternatives body := by
  constructor
  · intro shades
    cases shades with
    | group other after whole balanced' single holds =>
      obtain rfl : body = other := partner_unique balanced balanced' whole
      exact ⟨single, holds⟩
    | unclosed never _ =>
      have unbalanced := never body rest rfl
      rw [balanced] at unbalanced
      cases unbalanced
  · rintro ⟨single, holds⟩
    exact .group body rest rfl balanced single holds

theorem not_shadowed_nil : ¬Shadowed [] := by
  rintro ⟨before, after, none, _⟩
  simp at none

theorem shadowed_cons {p : CodePoint} :
    Shadowed (p :: t) ↔ (p = .char '{' ∧ Shades t) ∨ Shadowed t := by
  constructor
  · rintro ⟨before, after, whole, shades⟩
    cases before with
    | nil =>
      obtain ⟨rfl, rfl⟩ := List.cons.inj whole
      exact .inl ⟨rfl, shades⟩
    | cons q before =>
      obtain ⟨rfl, rfl⟩ := List.cons.inj whole
      exact .inr ⟨before, after, rfl, shades⟩
  · rintro (⟨rfl, shades⟩ | ⟨before, after, rfl, shades⟩)
    · exact ⟨[], t, rfl, shades⟩
    · exact ⟨p :: before, after, rfl, shades⟩

/-- No shadow falls out of closed text, and none into it. -/
theorem shadowed_append (closed : isClosed front = true) :
    Shadowed (front ++ rest) ↔ Shadowed front ∨ Shadowed rest := by
  -- A brace of the front shades the same text with the rest behind it, for its partner stands before.
  have kept {before inner : Text} (whole : front = before ++ .char '{' :: inner) :
      Shades (inner ++ rest) ↔ Shades inner := by
    rw [whole] at closed
    obtain ⟨body, after, rfl, balanced⟩ := partner_of_closed closed
    rw [List.append_assoc, List.cons_append, shades_closed balanced, shades_closed balanced]
  constructor
  · rintro ⟨before, after, whole, shades⟩
    rcases List.append_eq_append_iff.mp whole with ⟨between, rfl, late⟩ | ⟨inner, early, late⟩
    · exact .inr ⟨between, after, late, shades⟩
    · cases inner with
      | nil => exact .inr ⟨[], after, late.symm, shades⟩
      | cons p inner =>
        obtain ⟨rfl, rfl⟩ := List.cons.inj late
        exact .inl ⟨before, inner, early, (kept early).mp shades⟩
  · rintro (⟨before, inner, whole, shades⟩ | ⟨before, after, rfl, shades⟩)
    · exact ⟨before, inner ++ rest, by simp [whole], (kept whole).mpr shades⟩
    · exact ⟨front ++ before, after, by simp, shades⟩

/-- A group of alternatives shades nothing itself. -/
theorem shadowed_group (balanced : isBalanced body = true) (comma : HoldsComma body) :
    Shadowed (.char '{' :: body ++ .char '}' :: rest) ↔ Shadowed body ∨ Shadowed rest := by
  have plain : CodePoint.char '}' ≠ .char '{' := by decide
  rw [List.cons_append, shadowed_cons, shades_closed balanced,
    shadowed_append (isClosed_of_balanced balanced), shadowed_cons]
  simp [comma, plain]

end shadows

section parts

theorem splitFrom_ne_nil (depth : Nat) (t : Text) : splitFrom depth t ≠ [] := by
  cases t with
  | nil => simp [splitFrom]
  | cons p t =>
    rw [splitFrom]
    split
    · simp
    · split <;> simp

/-- The parts of a text with commas between them are the text. -/
theorem join_splitFrom (depth : Nat) (t : Text) : Text.join [.char ','] (splitFrom depth t) = t := by
  induction t generalizing depth with
  | nil => rfl
  | cons p t ih =>
    rw [splitFrom]
    split
    next comma =>
      rw [Text.join_cons (splitFrom_ne_nil 0 t), ih, comma.1]
      rfl
    · have whole := ih (depthAfter depth p)
      split
      next none => exact absurd none (splitFrom_ne_nil _ _)
      next part parts split_rest =>
        rw [split_rest] at whole
        cases parts with
        | nil => simpa [Text.join] using whole
        | cons second parts =>
          rw [Text.join_cons (by simp)] at whole ⊢
          simpa using whole

/-- A shadow falls on one of the parts that commas separate. -/
theorem shadowed_join {parts : List Text} (closed : ∀ part ∈ parts, isClosed part = true) :
    Shadowed (Text.join [.char ','] parts) ↔ ∃ part ∈ parts, Shadowed part := by
  induction parts with
  | nil => simp [Text.join, not_shadowed_nil]
  | cons part parts ih =>
    have first := closed part List.mem_cons_self
    have others := ih fun other member => closed other (List.mem_cons_of_mem _ member)
    cases parts with
    | nil => simp [Text.join]
    | cons second parts =>
      have plain : CodePoint.char ',' ≠ .char '{' := by decide
      rw [Text.join_cons (by simp), List.append_assoc, shadowed_append first, List.singleton_append,
        shadowed_cons, others]
      simp [plain]

theorem shadowed_body {body : Text} (balanced : isBalanced body = true) :
    Shadowed body ↔ ∃ part ∈ splitAlternatives body, Shadowed part := by
  have joined := join_splitFrom 0 body
  conv_lhs => rw [← joined]
  apply shadowed_join
  intro part member
  exact isClosed_of_balanced (isBalanced_of_alternative balanced member)

end parts

namespace Expandable

variable {pattern : Text} {g : Group}

theorem shadowed_iff (expandable : Expandable pattern g) :
    Shadowed pattern ↔ Shadowed g.head ∨ Shadowed g.body ∨ Shadowed g.tail := by
  rw [expandable.whole, shadowed_append expandable.outside,
    shadowed_group expandable.inside expandable.holdsComma]

theorem shadowed_choose (expandable : Expandable pattern g) {part : Text}
    (member : part ∈ splitAlternatives g.body) :
    Shadowed (g.choose part) ↔ Shadowed g.head ∨ Shadowed part ∨ Shadowed g.tail := by
  have closed := isClosed_of_balanced (isBalanced_of_alternative expandable.inside member)
  rw [Group.choose, List.append_assoc, shadowed_append expandable.outside, shadowed_append closed]

/-- Choosing an alternative moves no shadow. -/
theorem shadowed_some_choice (expandable : Expandable pattern g) :
    Shadowed pattern ↔ ∃ part ∈ splitAlternatives g.body, Shadowed (g.choose part) := by
  rw [expandable.shadowed_iff, shadowed_body expandable.inside]
  constructor
  · intro shadowed
    obtain ⟨first, inside⟩ := List.exists_mem_of_ne_nil _ (splitFrom_ne_nil 0 g.body)
    rcases shadowed with head | ⟨part, member, here⟩ | tail
    · exact ⟨first, inside, (expandable.shadowed_choose inside).mpr (.inl head)⟩
    · exact ⟨part, member, (expandable.shadowed_choose member).mpr (.inr (.inl here))⟩
    · exact ⟨first, inside, (expandable.shadowed_choose inside).mpr (.inr (.inr tail))⟩
  · rintro ⟨part, member, shadowed⟩
    rcases (expandable.shadowed_choose member).mp shadowed with head | here | tail
    · exact .inl head
    · exact .inr (.inl ⟨part, member, here⟩)
    · exact .inr (.inr tail)

end Expandable

/-- In a pattern without a group to expand all alternatives are in a shadow. -/
theorem shadowed_of_literal {pattern : Text} (literal : ¬HoldsGroup pattern)
    (holds : HoldsAlternatives pattern) : Shadowed pattern := by
  obtain ⟨before, body, after, rfl, balanced, comma⟩ := holds
  have openEnd : isClosed before ≠ true := by
    intro closed
    exact literal ⟨before, body, after, rfl, closed, balanced, comma⟩
  obtain ⟨front, inner, rfl, closed, never⟩ := unclosed_brace openEnd
  rw [List.append_assoc, List.cons_append] at literal ⊢
  refine ⟨front, _, rfl, ?_⟩
  by_cases unclosed : NeverCloses (inner ++ .char '{' :: (body ++ .char '}' :: after))
  · exact .unclosed unclosed ⟨inner, body, after, rfl, balanced, comma⟩
  · obtain ⟨outer, rest, same, outer_balanced⟩ := partner_of_closes unclosed
    refine .group outer rest same outer_balanced ?_ ?_
    · intro own
      rw [same] at literal
      exact literal ⟨front, outer, rest, rfl, closed, outer_balanced, own⟩
    · obtain ⟨behind, rfl⟩ := encloses_group never balanced outer_balanced same
      exact ⟨inner, body, behind, rfl, balanced, comma⟩

/-- What a pattern expands to has no group to expand. -/
theorem literal_of_mem {pattern e : Text} (member : e ∈ expandBraces pattern) : ¬HoldsGroup e := by
  induction pattern using expandBraces.induct with
  | case1 pattern none_found =>
    rw [expandBraces_plain none_found] at member
    obtain rfl := List.mem_singleton.mp member
    exact group_eq_none_iff.mp none_found
  | case2 pattern g found ih =>
    rw [expandBraces_group found, List.mem_eraseDups] at member
    obtain ⟨part, listed, inside⟩ := List.mem_flatMap.mp member
    exact ih part listed inside

theorem leaves_alternatives_iff (pattern : Text) :
    (∃ e ∈ expandBraces pattern, HoldsAlternatives e) ↔ Shadowed pattern := by
  induction pattern using expandBraces.induct with
  | case1 pattern none_found =>
    rw [expandBraces_plain none_found]
    simp only [List.mem_singleton, exists_eq_left]
    constructor
    · exact shadowed_of_literal (group_eq_none_iff.mp none_found)
    · exact Shadowed.holdsAlternatives
  | case2 pattern g found ih =>
    rw [expandBraces_group found, (expandable_of_group found).shadowed_some_choice]
    simp only [List.mem_eraseDups, List.mem_flatMap]
    constructor
    · rintro ⟨e, ⟨part, member, inside⟩, holds⟩
      exact ⟨part, member, (ih part member).mp ⟨e, inside, holds⟩⟩
    · rintro ⟨part, member, shadowed⟩
      obtain ⟨e, inside, holds⟩ := (ih part member).mpr shadowed
      exact ⟨e, ⟨part, member, inside⟩, holds⟩

/-- A pattern expands to patterns without any alternatives exactly if it has none in the shadow of a brace:
in a group without a comma of its own, or behind a brace that is never closed. -/
theorem expandBraces_complete_iff (pattern : Text) :
    (∀ e ∈ expandBraces pattern, ¬HoldsAlternatives e) ↔ ¬Shadowed pattern := by
  rw [← leaves_alternatives_iff]
  simp

/-- The pattern `{x{a,b}}`: alternatives in a group without alternatives of its own. -/
def groupedPattern : Text := "\x7bx\x7ba,b\x7d\x7d"

/-- The pattern `{open/{a,b}.ohm`: alternatives behind a brace without a partner. -/
def unclosedPattern : Text := "\x7bopen/\x7ba,b\x7d.ohm"

/-- Both patterns stand for themselves alone, with the alternatives left in them. -/
theorem alternatives_remain :
    (∃ e ∈ expandBraces groupedPattern, HoldsAlternatives e) ∧
      ∃ e ∈ expandBraces unclosedPattern, HoldsAlternatives e := by
  have grouped : group? groupedPattern = none := by decide
  have unclosed : group? unclosedPattern = none := by decide
  have comma : HoldsComma "a,b" := ⟨"a", "b", rfl, rfl⟩
  rw [expandBraces_plain grouped, expandBraces_plain unclosed]
  constructor
  · exact ⟨_, List.mem_singleton_self _, "\x7bx", "a,b", "\x7d", rfl, rfl, comma⟩
  · exact ⟨_, List.mem_singleton_self _, "\x7bopen/", "a,b", ".ohm", rfl, rfl, comma⟩

end GrammarBundle.Pattern
