import GrammarBundle.Proofs.Pattern.Shadows

/-!
The parts between outer commas. A text is divided in one way only into parts without outer commas of which
all but the last are closed, and its alternatives are these parts. A closing brace without a partner counts for
nothing, so that this holds of texts whose braces do not match, too.
-/

namespace GrammarBundle.Pattern

/-- A comma outside of all braces, where so many are open before the text. -/
def OuterComma (depth : Nat) (t : Text) : Prop :=
  ∃ before after, t = before ++ .char ',' :: after ∧ depthFrom depth before = 0

/-- The parts of a text: with commas between them they are the text, none has an outer comma, and every brace
of a part that is not the last is closed in it. -/
structure Divides (parts : List Text) (t : Text) : Prop where
  some_part : parts ≠ []
  joined : Text.join [.char ','] parts = t
  whole : ∀ part ∈ parts, ¬OuterComma 0 part
  closed : ∀ part ∈ parts.dropLast, depthFrom 0 part = 0

variable {depth : Nat} {t before after part : Text} {parts : List Text}

theorem OuterComma.cons {p : CodePoint} (outer : OuterComma (depthAfter depth p) t) :
    OuterComma depth (p :: t) := by
  obtain ⟨before, after, rfl, closed⟩ := outer
  exact ⟨p :: before, after, rfl, closed⟩

/-- The first outer comma has none before it. -/
theorem first_outer_comma (outer : OuterComma depth t) :
    ∃ before after, t = before ++ .char ',' :: after ∧ depthFrom depth before = 0 ∧
      ¬OuterComma depth before := by
  obtain ⟨before, after, rfl, closed⟩ := outer
  induction length : before.length using Nat.strongRecOn generalizing before after with
  | ind n ih =>
    by_cases earlier : OuterComma depth before
    · obtain ⟨front, back, rfl, closed_front⟩ := earlier
      rw [List.append_assoc]
      apply ih front.length _ front _ closed_front rfl
      rw [← length, List.length_append, List.length_cons]
      omega
    · exact ⟨before, after, rfl, closed, earlier⟩

theorem splitFrom_whole (whole : ¬OuterComma depth t) : splitFrom depth t = [t] := by
  induction t generalizing depth with
  | nil => rfl
  | cons p t ih =>
    have rest := ih fun outer => whole outer.cons
    rw [splitFrom, rest]
    split
    next comma =>
      obtain ⟨rfl, rfl⟩ := comma
      exact absurd ⟨[], t, rfl, rfl⟩ whole
    · rfl

/-- The first outer comma ends the first part, and behind it no brace is open. -/
theorem splitFrom_comma (whole : ¬OuterComma depth before) (closed : depthFrom depth before = 0)
    (after : Text) :
    splitFrom depth (before ++ .char ',' :: after) = before :: splitFrom 0 after := by
  induction before generalizing depth with
  | nil => exact if_pos ⟨rfl, closed⟩
  | cons p before ih =>
    have rest := ih (fun outer => whole outer.cons) closed
    rw [List.cons_append, splitFrom, rest]
    split
    next comma =>
      obtain ⟨rfl, rfl⟩ := comma
      exact absurd ⟨[], before, rfl, rfl⟩ whole
    · rfl

namespace Divides

theorem single (whole : ¬OuterComma 0 t) : Divides [t] t where
  some_part := List.cons_ne_nil t []
  joined := rfl
  whole := by
    intro part member
    rw [List.mem_singleton.mp member]
    exact whole
  closed := fun part member => absurd member List.not_mem_nil

theorem cons (rest : Divides parts t) (whole : ¬OuterComma 0 part) (closed : depthFrom 0 part = 0) :
    Divides (part :: parts) (part ++ .char ',' :: t) where
  some_part := List.cons_ne_nil part parts
  joined := by
    rw [Text.join_cons rest.some_part, rest.joined, List.append_assoc]
    rfl
  whole := by
    intro other member
    rcases List.mem_cons.mp member with rfl | later
    · exact whole
    · exact rest.whole other later
  closed := by
    intro other member
    rw [List.dropLast_cons_of_ne_nil rest.some_part] at member
    rcases List.mem_cons.mp member with rfl | later
    · exact closed
    · exact rest.closed other later

/-- A text with more than one part goes on behind the first of them with a comma and the other parts. -/
theorem tail {second : Text} (divides : Divides (part :: second :: parts) t) :
    ∃ rest, t = part ++ .char ',' :: rest ∧ ¬OuterComma 0 part ∧ depthFrom 0 part = 0 ∧
      Divides (second :: parts) rest := by
  have more : second :: parts ≠ [] := List.cons_ne_nil second parts
  have closed := divides.closed
  rw [List.dropLast_cons_of_ne_nil more] at closed
  refine ⟨Text.join [.char ','] (second :: parts), ?_, divides.whole part List.mem_cons_self,
    closed part List.mem_cons_self, more, rfl, ?_, ?_⟩
  · rw [← divides.joined, Text.join_cons more, List.append_assoc]
    rfl
  · exact fun other member => divides.whole other (List.mem_cons_of_mem part member)
  · exact fun other member => closed other (List.mem_cons_of_mem part member)

end Divides

theorem divides_alternatives (body : Text) : Divides (splitAlternatives body) body := by
  induction length : body.length using Nat.strongRecOn generalizing body with
  | ind n ih =>
    unfold splitAlternatives
    by_cases outer : OuterComma 0 body
    · obtain ⟨before, after, rfl, closed, whole⟩ := first_outer_comma outer
      have shorter : after.length < n := by
        rw [← length, List.length_append, List.length_cons]
        omega
      rw [splitFrom_comma whole closed]
      exact (ih after.length shorter after rfl).cons whole closed
    · rw [splitFrom_whole outer]
      exact .single outer

/-- Whatever parts divide a text are its alternatives. -/
theorem Divides.eq_alternatives {body : Text} (divides : Divides parts body) :
    splitAlternatives body = parts := by
  unfold splitAlternatives
  induction parts generalizing body with
  | nil => exact absurd rfl divides.some_part
  | cons part parts ih =>
    cases parts with
    | nil =>
      obtain rfl : part = body := divides.joined
      exact splitFrom_whole (divides.whole part List.mem_cons_self)
    | cons second parts =>
      obtain ⟨rest, rfl, whole, closed, divides_rest⟩ := divides.tail
      rw [splitFrom_comma whole closed, ih divides_rest]

/-- The alternatives of a body, whatever its braces, are the only parts that divide it, and each of them has
itself as its one alternative. -/
theorem splitAlternatives_exact (body : Text) :
    (∀ parts, splitAlternatives body = parts ↔ Divides parts body) ∧
      ∀ part ∈ splitAlternatives body, splitAlternatives part = [part] := by
  refine ⟨fun parts => ⟨?_, Divides.eq_alternatives⟩, ?_⟩
  · rintro rfl
    exact divides_alternatives body
  · intro part member
    exact splitFrom_whole ((divides_alternatives body).whole part member)

/-- The body `}a,{b,c},{d,e`: a closing brace without a partner, a group, and a brace that stays open. -/
def unmatchedBody : Text := "\x7da,\x7bb,c\x7d,\x7bd,e"

theorem splitAlternatives_exact_unmatched :
    Divides ["\x7da", "\x7bb,c\x7d", "\x7bd,e"] unmatchedBody ∧
      Text.ofString "\x7bd,e" ∈ splitAlternatives unmatchedBody ∧
      splitAlternatives "\x7bd,e" = ["\x7bd,e"] := by
  have parts : splitAlternatives unmatchedBody = ["\x7da", "\x7bb,c\x7d", "\x7bd,e"] := by decide
  have last : Text.ofString "\x7bd,e" ∈ splitAlternatives unmatchedBody := by decide
  exact ⟨((splitAlternatives_exact unmatchedBody).1 _).mp parts, last,
    (splitAlternatives_exact unmatchedBody).2 _ last⟩

end GrammarBundle.Pattern
