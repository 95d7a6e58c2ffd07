import GrammarBundle.Pattern.Braces

/-!
The scan for a group. Text in which every brace has its partner is passed over as a whole, so that the
group found first is not changed by what stands after it, and is found again behind closed text that
holds none.
-/

namespace GrammarBundle.Pattern

/-- The nesting depth after a text. -/
def depthFrom (depth : Nat) (t : Text) : Nat := t.foldl depthAfter depth

/-- Text at whose end no brace is open. -/
def isClosed (t : Text) : Bool := depthFrom 0 t = 0

/-- Text in which every brace has its partner, those included that are open before it. -/
def isBalancedFrom (depth : Nat) : Text → Bool
  | [] => depth = 0
  | p :: rest =>
    if p = .char '}' ∧ depth = 0 then false else isBalancedFrom (depthAfter depth p) rest

def isBalanced (t : Text) : Bool := isBalancedFrom 0 t

theorem depthFrom_append (depth : Nat) (t u : Text) :
    depthFrom depth (t ++ u) = depthFrom (depthFrom depth t) u :=
  List.foldl_append

theorem depthFrom_cons (depth : Nat) (p : CodePoint) (t : Text) :
    depthFrom depth (p :: t) = depthFrom (depthAfter depth p) t := rfl

theorem isBalancedFrom_cons {depth : Nat} {p : CodePoint} {t : Text} :
    isBalancedFrom depth (p :: t) = true ↔
      ¬(p = .char '}' ∧ depth = 0) ∧ isBalancedFrom (depthAfter depth p) t = true := by
  rw [isBalancedFrom]
  split <;> simp_all

/-- Below other open braces the depth changes in the same way, until their own partners come. -/
theorem depthAfter_add {depth : Nat} {p : CodePoint} (k : Nat) (inside : ¬(p = .char '}' ∧ depth = 0)) :
    depthAfter (depth + k) p = depthAfter depth p + k := by
  unfold depthAfter
  split
  · omega
  · split
    next closing =>
      have open_brace : depth ≠ 0 := fun none => inside ⟨closing, none⟩
      omega
    · rfl

theorem depthAfter_outside {p : CodePoint} (plain : p ≠ .char '{') : depthAfter 0 p = 0 := by
  unfold depthAfter
  rw [if_neg plain]
  split <;> rfl

theorem depthFrom_balanced {depth : Nat} {t : Text} (k : Nat) (balanced : isBalancedFrom depth t = true) :
    depthFrom (depth + k) t = k := by
  induction t generalizing depth with
  | nil =>
    have none : depth = 0 := by simpa [isBalancedFrom] using balanced
    simp [depthFrom, none]
  | cons p t ih =>
    obtain ⟨inside, rest⟩ := isBalancedFrom_cons.mp balanced
    rw [depthFrom_cons, depthAfter_add k inside]
    exact ih rest

theorem depthFrom_closed {t : Text} (closed : isClosed t = true) : depthFrom 0 t = 0 := by
  simpa [isClosed] using closed

theorem isClosed_of_balanced {t : Text} (balanced : isBalanced t = true) : isClosed t = true := by
  simpa [isClosed] using depthFrom_balanced 0 balanced

theorem isClosed_append {t u : Text} (closed : isClosed t = true) : isClosed (t ++ u) = isClosed u := by
  simp [isClosed, depthFrom_append, depthFrom_closed closed]

/-- A group of balanced text is closed where it stands. -/
theorem isClosed_group {body rest : Text} (balanced : isBalanced body = true) :
    isClosed (.char '{' :: body ++ .char '}' :: rest) = isClosed rest := by
  have inside : depthFrom 1 body = 1 := by simpa using depthFrom_balanced 1 balanced
  unfold isClosed
  rw [List.cons_append, depthFrom_cons, depthFrom_append]
  change decide (depthFrom (depthFrom 1 body) _ = 0) = _
  rw [inside]
  rfl

/-- A comma of the text that stands in no group. -/
def HoldsComma (body : Text) : Prop :=
  ∃ left right, body = left ++ .char ',' :: right ∧ isBalanced left = true

/-- The parts of balanced text are balanced, the first one with the braces open before it. -/
theorem splitFrom_balanced {depth : Nat} {t : Text} (balanced : isBalancedFrom depth t = true) :
    ∃ first parts, splitFrom depth t = first :: parts ∧ isBalancedFrom depth first = true ∧
      ∀ part ∈ parts, isBalanced part = true := by
  induction t generalizing depth with
  | nil => exact ⟨[], [], rfl, balanced, by simp⟩
  | cons p t ih =>
    obtain ⟨inside, rest⟩ := isBalancedFrom_cons.mp balanced
    obtain ⟨first, parts, split_rest, first_balanced, parts_balanced⟩ := ih rest
    rw [splitFrom]
    split
    next comma =>
      obtain ⟨rfl, rfl⟩ := comma
      refine ⟨[], splitFrom 0 t, rfl, rfl, ?_⟩
      intro part member
      change splitFrom 0 t = first :: parts at split_rest
      rw [split_rest] at member
      rcases List.mem_cons.mp member with rfl | later
      · exact first_balanced
      · exact parts_balanced part later
    · rw [split_rest]
      exact ⟨p :: first, parts, rfl, isBalancedFrom_cons.mpr ⟨inside, first_balanced⟩,
        parts_balanced⟩

theorem isBalanced_of_alternative {body part : Text} (balanced : isBalanced body = true)
    (member : part ∈ splitAlternatives body) : isBalanced part = true := by
  obtain ⟨first, parts, split_body, first_balanced, parts_balanced⟩ := splitFrom_balanced balanced
  rw [splitAlternatives, split_body] at member
  rcases List.mem_cons.mp member with rfl | later
  · exact first_balanced
  · exact parts_balanced part later

/-- Text with more than one part holds a comma of its own. -/
theorem comma_of_parts {depth : Nat} {t : Text} (balanced : isBalancedFrom depth t = true)
    (several : 2 ≤ (splitFrom depth t).length) :
    ∃ left right, t = left ++ .char ',' :: right ∧ isBalancedFrom depth left = true := by
  induction t generalizing depth with
  | nil => simp [splitFrom] at several
  | cons p t ih =>
    obtain ⟨inside, rest⟩ := isBalancedFrom_cons.mp balanced
    rw [splitFrom] at several
    split at several
    next comma => exact ⟨[], t, by rw [comma.1]; rfl, by simp [isBalancedFrom, comma.2]⟩
    · obtain ⟨first, parts, split_rest, _⟩ := splitFrom_balanced rest
      rw [split_rest] at several
      obtain ⟨left, right, rfl, left_balanced⟩ := ih rest (by simpa [split_rest] using several)
      exact ⟨p :: left, right, rfl, isBalancedFrom_cons.mpr ⟨inside, left_balanced⟩⟩

/-- A comma in no group makes more than one part. -/
theorem parts_of_comma {depth : Nat} {left : Text} (balanced : isBalancedFrom depth left = true)
    (right : Text) : 2 ≤ (splitFrom depth (left ++ .char ',' :: right)).length := by
  induction left generalizing depth with
  | nil =>
    have none : depth = 0 := by simpa [isBalancedFrom] using balanced
    have some_part : 1 ≤ (splitFrom 0 right).length := by
      cases right with
      | nil => simp [splitFrom]
      | cons p right =>
        rw [splitFrom]
        split
        · simp
        · split <;> simp
    simpa [none, splitFrom] using some_part
  | cons p left ih =>
    obtain ⟨_, rest⟩ := isBalancedFrom_cons.mp balanced
    rw [List.cons_append, splitFrom]
    split
    next comma =>
      obtain ⟨rfl, rfl⟩ := comma
      exact Nat.le_succ_of_le (ih rest)
    · have several := ih rest
      split
      next none => simp [none] at several
      next parts => simpa [parts] using several

/-- The text of an open group that has been passed. -/
def openText : Option (Nat × Text) → Text
  | none => []
  | some (_, body) => .char '{' :: body

def openDepth : Option (Nat × Text) → Nat
  | none => 0
  | some (depth, _) => depth + 1

variable {head t rest : Text} {inner : Option (Nat × Text)} {g : Group}

theorem groupFrom_outside {p : CodePoint} :
    groupFrom? head none (p :: rest) =
      if p = .char '{' then groupFrom? head (some (0, [])) rest
      else groupFrom? (head ++ [p]) none rest := by
  rw [groupFrom?]

theorem groupFrom_inside {p : CodePoint} {depth : Nat} {body : Text} :
    groupFrom? head (some (depth, body)) (p :: rest) =
      if p = .char '}' ∧ depth = 0 then
        if (splitAlternatives body).length < 2 then
          groupFrom? (head ++ .char '{' :: body ++ [p]) none rest
        else some ⟨head, body, rest⟩
      else groupFrom? head (some (depthAfter depth p, body ++ [p])) rest := by
  rw [groupFrom?]

/-- Inside a group the scan passes over balanced text. -/
theorem groupFrom_balanced {depth : Nat} {body : Text} (balanced : isBalancedFrom depth t = true) :
    groupFrom? head (some (depth, body)) (t ++ .char '}' :: rest) =
      groupFrom? head (some (0, body ++ t)) (.char '}' :: rest) := by
  induction t generalizing depth body with
  | nil =>
    have none : depth = 0 := by simpa [isBalancedFrom] using balanced
    simp [none]
  | cons p t ih =>
    obtain ⟨inside, later⟩ := isBalancedFrom_cons.mp balanced
    rw [List.cons_append, groupFrom_inside, if_neg inside, ih later, List.append_assoc]
    rfl

/-- The group that is found stays the first one when the text goes on. -/
theorem groupFrom_append (more : Text) (found : groupFrom? head inner t = some g) :
    groupFrom? head inner (t ++ more) = some { g with tail := g.tail ++ more } := by
  induction t generalizing head inner with
  | nil => simp [groupFrom?] at found
  | cons p t ih =>
    rw [List.cons_append]
    cases inner with
    | none =>
      rw [groupFrom_outside] at found ⊢
      split at found
      next opening => rw [if_pos opening, ih found]
      next plain => rw [if_neg plain, ih found]
    | some group =>
      obtain ⟨depth, body⟩ := group
      rw [groupFrom_inside] at found ⊢
      split at found
      next closing =>
        rw [if_pos closing]
        split at found
        next single => rw [if_pos single, ih found]
        next several =>
          rw [if_neg several]
          cases found
          rfl
      next passing => rw [if_neg passing, ih found]

/-- Behind closed text without a group the scan starts as at the beginning. -/
theorem groupFrom_closed (more : Text) (none_found : groupFrom? head inner t = none)
    (closed : depthFrom (openDepth inner) t = 0) :
    groupFrom? head inner (t ++ more) = groupFrom? (head ++ openText inner ++ t) none more := by
  induction t generalizing head inner with
  | nil =>
    cases inner with
    | none => simp [openText]
    | some group => simp [depthFrom, openDepth] at closed
  | cons p t ih =>
    rw [depthFrom_cons] at closed
    rw [List.cons_append]
    cases inner with
    | none =>
      rw [groupFrom_outside] at none_found ⊢
      split at none_found
      next opening =>
        subst opening
        rw [if_pos rfl, ih none_found closed]
        simp [openText]
      next plain =>
        rw [openDepth, depthAfter_outside plain] at closed
        rw [if_neg plain, ih none_found closed]
        simp [openText]
    | some group =>
      obtain ⟨depth, body⟩ := group
      rw [groupFrom_inside] at none_found ⊢
      split at none_found
      next closing =>
        obtain ⟨rfl, rfl⟩ := closing
        rw [if_pos ⟨rfl, rfl⟩]
        split at none_found
        next single =>
          rw [if_pos single, ih none_found closed]
          simp [openText]
        · cases none_found
      next passing =>
        rw [openDepth, depthAfter_add 1 passing] at closed
        rw [if_neg passing, ih none_found closed]
        simp [openText]

/-- Text before the scan's start goes to the head of what is found. -/
theorem groupFrom_shift (front : Text) :
    groupFrom? (front ++ head) inner t =
      (groupFrom? head inner t).map fun g => { g with head := front ++ g.head } := by
  induction t generalizing head inner with
  | nil => simp [groupFrom?]
  | cons p t ih =>
    cases inner with
    | none =>
      rw [groupFrom_outside, groupFrom_outside]
      split
      · exact ih
      · rw [List.append_assoc]
        exact ih
    | some group =>
      obtain ⟨depth, body⟩ := group
      rw [groupFrom_inside, groupFrom_inside]
      split
      · split
        · simp only [List.append_assoc] at ih ⊢
          exact ih
        · rfl
      · exact ih

/-- A group to expand, where it stands in a pattern. -/
structure Expandable (pattern : Text) (g : Group) : Prop where
  whole : pattern = g.head ++ (.char '{' :: g.body ++ .char '}' :: g.tail)
  outside : isClosed g.head = true
  inside : isBalanced g.body = true
  several : 2 ≤ (splitAlternatives g.body).length

/-- What has been passed of an open group is balanced but for the braces still open in it. -/
def Passed : Option (Nat × Text) → Prop
  | none => True
  | some (depth, body) => ∀ more, isBalanced (body ++ more) = isBalancedFrom depth more

theorem groupFrom_expandable (found : groupFrom? head inner t = some g)
    (outside : isClosed head = true) (passed : Passed inner) :
    Expandable (head ++ openText inner ++ t) g := by
  induction t generalizing head inner with
  | nil => simp [groupFrom?] at found
  | cons p t ih =>
    cases inner with
    | none =>
      rw [groupFrom_outside] at found
      split at found
      next opening =>
        subst opening
        have first : Passed (some (0, [])) := fun _ => rfl
        have expandable := ih found outside first
        simpa [openText] using expandable
      next plain =>
        have closed : isClosed (head ++ [p]) = true := by
          rw [isClosed_append outside]
          simp [isClosed, depthFrom, depthAfter_outside plain]
        simpa [openText] using ih found closed trivial
    | some group =>
      obtain ⟨depth, body⟩ := group
      rw [groupFrom_inside] at found
      split at found
      next closing =>
        obtain ⟨rfl, rfl⟩ := closing
        have balanced : isBalanced body = true := by simpa [isBalancedFrom] using passed []
        split at found
        next single =>
          have closed : isClosed (head ++ .char '{' :: body ++ [.char '}']) = true := by
            rw [List.append_assoc, isClosed_append outside, isClosed_group balanced]
            rfl
          simpa [openText] using ih found closed trivial
        next several =>
          cases found
          exact ⟨by simp [openText], outside, balanced, Nat.not_lt.mp several⟩
      next passing =>
        have further : Passed (some (depthAfter depth p, body ++ [p])) := by
          intro more
          rw [List.append_assoc, List.singleton_append, passed, isBalancedFrom, if_neg passing]
        simpa [openText] using ih found outside further

theorem expandable_of_group {pattern : Text} (found : group? pattern = some g) :
    Expandable pattern g := by
  simpa [openText] using groupFrom_expandable found rfl trivial

namespace Expandable

variable {pattern : Text}

theorem holdsComma (expandable : Expandable pattern g) : HoldsComma g.body :=
  comma_of_parts expandable.inside expandable.several

theorem tail_closed (expandable : Expandable pattern g) (closed : isClosed pattern = true) :
    isClosed g.tail = true := by
  rw [expandable.whole, isClosed_append expandable.outside, isClosed_group expandable.inside] at closed
  exact closed

/-- A closed pattern stays closed when an alternative takes the place of its group. -/
theorem choose_closed (expandable : Expandable pattern g) (closed : isClosed pattern = true)
    {part : Text} (member : part ∈ splitAlternatives g.body) : isClosed (g.choose part) = true := by
  have balanced := isBalanced_of_alternative expandable.inside member
  rw [Group.choose, List.append_assoc, isClosed_append expandable.outside,
    isClosed_append (isClosed_of_balanced balanced)]
  exact expandable.tail_closed closed

end Expandable

/-- A balanced group with a comma of its own is the one that is found where it stands. -/
theorem group_of_braces {body : Text} (balanced : isBalanced body = true)
    (several : 2 ≤ (splitAlternatives body).length) :
    groupFrom? head none (.char '{' :: body ++ .char '}' :: rest) = some ⟨head, body, rest⟩ := by
  rw [List.cons_append, groupFrom_outside, if_pos rfl, groupFrom_balanced balanced,
    groupFrom_inside, if_pos ⟨rfl, rfl⟩, List.nil_append, if_neg (by omega)]

/-- A closed group of the pattern, outside all other groups, with a comma of its own. -/
def HoldsGroup (pattern : Text) : Prop :=
  ∃ head body tail, pattern = head ++ (.char '{' :: body ++ .char '}' :: tail) ∧
    isClosed head = true ∧ isBalanced body = true ∧ HoldsComma body

/-- A pattern has a group to expand exactly if it holds one. -/
theorem group_eq_none_iff {pattern : Text} : group? pattern = none ↔ ¬HoldsGroup pattern := by
  constructor
  · rintro none_found ⟨head, body, tail, rfl, closed, balanced, left, right, rfl, left_balanced⟩
    have several := parts_of_comma left_balanced right
    cases first : group? head with
    | some g =>
      rw [group?, groupFrom_append _ first] at none_found
      cases none_found
    | none =>
      have passed := groupFrom_closed
        (.char '{' :: (left ++ .char ',' :: right) ++ .char '}' :: tail) first
        (depthFrom_closed closed)
      rw [group_of_braces balanced several] at passed
      exact absurd (none_found.symm.trans passed) (by simp)
  · intro literal
    cases found : group? pattern with
    | none => rfl
    | some g =>
      have expandable := expandable_of_group found
      exact absurd ⟨g.head, g.body, g.tail, expandable.whole, expandable.outside,
        expandable.inside, expandable.holdsComma⟩ literal

end GrammarBundle.Pattern
