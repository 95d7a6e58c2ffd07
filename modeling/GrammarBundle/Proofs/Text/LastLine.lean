import GrammarBundle.Text.Blank
import GrammarBundle.Text.Lines

/-!
The last line of a text. A line that is put behind a line feed is the last one, whatever stands before it,
and it still is when the white space at both ends of the text goes, if it has none at its own ends.
-/

namespace GrammarBundle.Text

variable {front line t : Text} {p : CodePoint} {blank : CodePoint → Bool}

/-- Text without line breaks is one line. -/
theorem lines_unbroken (inhabited : line ≠ []) (unbroken : ∀ p ∈ line, p.isLineBreak = false) :
    lines line = [line] := by
  induction line with
  | nil => exact absurd rfl inhabited
  | cons p line ih =>
    have solid := unbroken p List.mem_cons_self
    have others : ∀ q ∈ line, q.isLineBreak = false :=
      fun q member => unbroken q (List.mem_cons_of_mem p member)
    unfold lines
    split
    next none => cases none
    next rest same =>
      obtain ⟨rfl, _⟩ := List.cons.inj same
      cases solid
    next q rest _ same =>
      obtain ⟨rfl, rfl⟩ := List.cons.inj same
      rw [if_neg (by simp [solid])]
      cases line with
      | nil => rfl
      | cons q line => rw [ih (List.cons_ne_nil q line) others]

/-- A code point in front of a text of several lines leaves its last line as it is. -/
theorem last_line_cons (p : CodePoint) (several : 2 ≤ (lines t).length) :
    2 ≤ (lines (p :: t)).length ∧ (lines (p :: t)).getLast? = (lines t).getLast? := by
  have longer (first : Text) : 2 ≤ (first :: lines t).length ∧
      (first :: lines t).getLast? = (lines t).getLast? := by
    refine ⟨Nat.le_succ_of_le several, ?_⟩
    cases found : lines t with
    | nil => simp [found] at several
    | cons second rest => rw [List.getLast?_cons_cons]
  conv in lines (p :: t) => unfold lines
  conv in (lines (p :: t)).getLast? => unfold lines
  split
  next none => cases none
  next rest same =>
    obtain ⟨rfl, rfl⟩ := List.cons.inj same
    exact ⟨several, rfl⟩
  next q rest _ same =>
    obtain ⟨rfl, rfl⟩ := List.cons.inj same
    split
    · exact longer []
    · cases found : lines t with
      | nil => simp [found] at several
      | cons first others =>
        rw [found] at several
        cases others with
        | nil => simp at several
        | cons second others => simp

/-- A line behind a line feed is the last one. -/
theorem last_line (front : Text) (inhabited : line ≠ [])
    (unbroken : ∀ p ∈ line, p.isLineBreak = false) :
    (lines (front ++ .char '\n' :: line)).getLast? = some line := by
  have alone : lines (.char '\n' :: line) = [[], line] :=
    congrArg (List.cons []) (lines_unbroken inhabited unbroken)
  suffices whole : 2 ≤ (lines (front ++ .char '\n' :: line)).length ∧
      (lines (front ++ .char '\n' :: line)).getLast? = some line from whole.2
  induction front with
  | nil =>
    rw [List.nil_append, alone]
    exact ⟨Nat.le_refl 2, rfl⟩
  | cons p front ih =>
    obtain ⟨several, last⟩ := last_line_cons p ih.1
    exact ⟨several, last.trans ih.2⟩

/-- Trimming does nothing at an end that is not blank. -/
theorem trim_solid_end (solid : blank p = false) :
    trim blank (front ++ [p]) = (front ++ [p]).dropWhile blank := by
  have kept : ∃ rest, (front ++ [p]).dropWhile blank = rest ++ [p] := by
    rw [List.dropWhile_append]
    split
    · exact ⟨[], by simp [solid]⟩
    · exact ⟨_, rfl⟩
  obtain ⟨rest, found⟩ := kept
  rw [trim, found, List.reverse_append, List.reverse_singleton, List.singleton_append,
    List.dropWhile_cons_of_neg (by simp [solid]), List.reverse_cons, List.reverse_reverse]

/-- A line with no white space at its ends stays the last one of a trimmed text. -/
theorem last_line_strip {first last : CodePoint} {middle : Text} (front : Text)
    (whole : line = first :: middle ++ [last]) (solid_first : first.isBlank = false)
    (solid_last : last.isBlank = false) (unbroken : ∀ p ∈ line, p.isLineBreak = false) :
    (lines (strip (front ++ .char '\n' :: line))).getLast? = some line := by
  have inhabited : line ≠ [] := by simp [whole]
  have own : line.dropWhile CodePoint.isBlank = line := by
    rw [whole, List.cons_append, List.dropWhile_cons_of_neg (by simp [solid_first])]
  have kept : strip (front ++ .char '\n' :: line) =
      (front ++ .char '\n' :: line).dropWhile CodePoint.isBlank := by
    have ended : front ++ .char '\n' :: line = front ++ .char '\n' :: (first :: middle) ++ [last] := by
      simp [whole]
    rw [strip, ended, trim_solid_end solid_last]
  rw [kept, List.dropWhile_append]
  split
  · have feed : (CodePoint.char '\n').isBlank = true := by decide
    rw [List.dropWhile_cons_of_pos feed, own, lines_unbroken inhabited unbroken]
    rfl
  · exact last_line _ inhabited unbroken

end GrammarBundle.Text
