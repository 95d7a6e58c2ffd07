import GrammarBundle.Text.CodePoint

/-!
Alternatives in braces. A pattern such as `a{b,c}d` stands for the patterns `abd` and `acd`; groups may
nest. The first group that closes at the outermost level and holds a comma of its own is replaced by
each of its alternatives in turn, until no such group is left. A group without a comma of its own, and
a brace without a partner, stay as they are. Nothing limits here how many groups are replaced one inside
another, as the stack of a program may.
-/

namespace GrammarBundle.Pattern

/-- The nesting depth after one more code point; a closing brace without a partner does not count. -/
def depthAfter (depth : Nat) (p : CodePoint) : Nat :=
  if p = .char '{' then depth + 1 else if p = .char '}' then depth - 1 else depth

/-- The parts of a text between its commas of depth zero, given the depth at its start. -/
def splitFrom (depth : Nat) : Text → List Text
  | [] => [[]]
  | p :: rest =>
    if p = .char ',' ∧ depth = 0 then [] :: splitFrom 0 rest
    else
      match splitFrom (depthAfter depth p) rest with
      | [] => [[p]]
      | part :: parts => (p :: part) :: parts

/-- The alternatives of a group: its parts between commas outside all inner braces. -/
def splitAlternatives (body : Text) : List Text := splitFrom 0 body

/-- A group to expand, with the text before and after it. -/
structure Group where
  head : Text
  body : Text
  tail : Text
  deriving DecidableEq, Repr

/-- The first group to expand after `head`. Where a group is open, `inner` holds the depth inside it
and the part of its body that has been passed. -/
def groupFrom? (head : Text) (inner : Option (Nat × Text)) : Text → Option Group
  | [] => none
  | p :: rest =>
    match inner with
    | none =>
      if p = .char '{' then groupFrom? head (some (0, [])) rest
      else groupFrom? (head ++ [p]) none rest
    | some (depth, body) =>
      if p = .char '}' ∧ depth = 0 then
        if (splitAlternatives body).length < 2 then
          groupFrom? (head ++ .char '{' :: body ++ [p]) none rest
        else some ⟨head, body, rest⟩
      else groupFrom? head (some (depthAfter depth p, body ++ [p])) rest

/-- The group of a pattern that is expanded first. -/
def group? (pattern : Text) : Option Group := groupFrom? [] none pattern

/-- The pattern with a group replaced by one of its alternatives. -/
def Group.choose (g : Group) (alternative : Text) : Text := g.head ++ alternative ++ g.tail

theorem length_le_of_mem_splitFrom {t part : Text} {depth : Nat} (h : part ∈ splitFrom depth t) :
    part.length ≤ t.length := by
  induction t generalizing depth part with
  | nil => simp_all [splitFrom]
  | cons p rest ih =>
    unfold splitFrom at h
    split at h
    · rcases List.mem_cons.1 h with rfl | h
      · simp
      · exact Nat.le_succ_of_le (ih h)
    · split at h
      next => simp_all
      next first others e =>
        rcases List.mem_cons.1 h with rfl | h
        · have := ih (e ▸ List.mem_cons_self : first ∈ _)
          simpa using this
        · exact Nat.le_succ_of_le (ih (e ▸ List.mem_cons_of_mem _ h : part ∈ _))

/-- How much text an open group holds. -/
def openLength : Option (Nat × Text) → Nat
  | none => 0
  | some (_, body) => body.length + 1

theorem length_of_groupFrom? {head t : Text} {inner : Option (Nat × Text)} {g : Group}
    (h : groupFrom? head inner t = some g) :
    g.head.length + g.body.length + g.tail.length + 2 =
      head.length + openLength inner + t.length := by
  induction t generalizing head inner with
  | nil => simp [groupFrom?] at h
  | cons p rest ih =>
    unfold groupFrom? at h
    split at h
    · split at h
      · have := ih h; simp [openLength] at this ⊢; omega
      · have := ih h; simp [openLength] at this ⊢; omega
    · split at h
      · split at h
        · have := ih h; simp [openLength] at this ⊢; omega
        · cases h; simp [openLength]; omega
      · have := ih h; simp [openLength] at this ⊢; omega

/-- Choosing an alternative makes a pattern shorter, for its braces go. -/
theorem length_choose_lt {pattern part : Text} {g : Group} (hg : group? pattern = some g)
    (h : part ∈ splitAlternatives g.body) : (g.choose part).length < pattern.length := by
  have h₁ := length_of_groupFrom? hg
  have h₂ := length_le_of_mem_splitFrom h
  simp [openLength] at h₁
  simp [Group.choose]
  omega

/-- The patterns that a pattern with alternatives stands for, each once, in the order in which the
alternatives are written. -/
def expandBraces (pattern : Text) : List Text :=
  match _group : group? pattern with
  | none => [pattern]
  | some g =>
    ((splitAlternatives g.body).attach.flatMap fun ⟨part, _⟩ =>
      expandBraces (g.choose part)).eraseDups
termination_by pattern.length
decreasing_by exact length_choose_lt _group ‹_ ∈ _›

end GrammarBundle.Pattern
