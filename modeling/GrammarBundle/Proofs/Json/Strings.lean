import GrammarBundle.Json.Reader
import GrammarBundle.Json.Writer
import GrammarBundle.Proofs.Text.CodePoints

/-!
Strings of JSON read back. A written string is read as the text that was written, but for surrogates: a
high one and a low one next to it are read as the character that they stand for together.
-/

namespace GrammarBundle

def CodePoint.joined (p q : CodePoint) : CodePoint :=
  .ofNat (0x10000 + (p.val - 0xD800) * 1024 + (q.val - 0xDC00))

/-- The text with each surrogate pair as one character. -/
def Text.paired : Text → Text
  | p :: q :: rest =>
    if p.isHigh && q.isLow then p.joined q :: paired rest else p :: paired (q :: rest)
  | [p] => [p]
  | [] => []

namespace Json

theorem hexDigit_ofDigit : ∀ d < 16, (CodePoint.ofDigit d).hexDigit? = some d := by
  decide

theorem hex_four (n : Nat) :
    Text.hex 4 n = [.ofDigit (n / 16 / 16 / 16 % 16), .ofDigit (n / 16 / 16 % 16),
      .ofDigit (n / 16 % 16), .ofDigit (n % 16)] := rfl

theorem fourHex_hex {n : Nat} {tail : Text} (small : n < 0x10000) :
    fourHex? (Text.hex 4 n ++ tail) = some n := by
  rw [hex_four]
  simp only [List.cons_append, fourHex?, List.mapM_cons, List.mapM_nil]
  rw [hexDigit_ofDigit _ (by omega), hexDigit_ofDigit _ (by omega), hexDigit_ofDigit _ (by omega),
    hexDigit_ofDigit _ (by omega)]
  simp [Text.value]
  omega

theorem drop_hex {n : Nat} {tail : Text} : (Text.hex 4 n ++ tail).drop 4 = tail := rfl

/-- The result of reading a string with one more code point in front. -/
def cons (p : CodePoint) : Except Stop (Text × Text) → Except Stop (Text × Text)
  | .error stop => .error stop
  | .ok (body, rest) => .ok (p :: body, rest)

variable {start tail : Text} {p q : CodePoint}

theorem body_plain (quote : p ≠ .char '"') (backslash : p ≠ .char '\\') (printable : 0x20 ≤ p.val) :
    stringBody start (p :: tail) = cons p (stringBody start tail) := by
  rw [stringBody, if_neg quote, if_neg backslash, if_neg (by omega)]
  rfl

theorem body_escape (rest : Text) {count : Nat}
    (read : escape start (.char '\\' :: rest) rest = .ok (q, count)) :
    stringBody start (.char '\\' :: rest) = cons q (stringBody start (rest.drop count)) := by
  rw [stringBody, if_neg (by decide), if_pos rfl, read]
  rfl

/-- A short escape is read as the code point that it is for. -/
theorem body_short {e : Text} (short : shortEscape? p = some e) :
    stringBody start (e ++ tail) = cons p (stringBody start tail) := by
  unfold shortEscape? at short
  split at short
  · cases short
    exact body_escape (.char '"' :: tail) rfl
  · cases short
    exact body_escape (.char '\\' :: tail) rfl
  · cases short
    exact body_escape (.char 'n' :: tail) rfl
  · cases short
    exact body_escape (.char 'r' :: tail) rfl
  · cases short
    exact body_escape (.char 't' :: tail) rfl
  · cases short
    exact body_escape (.char 'f' :: tail) rfl
  · cases short
    exact body_escape (.char 'b' :: tail) rfl
  · cases short

/-- No escape of a low surrogate stands at the head of a text. -/
def NoLow (tail : Text) : Prop :=
  ∀ second, tail = .char '\\' :: .char 'u' :: second →
    ∃ m, fourHex? second = some m ∧ (CodePoint.ofNat m).isLow = false

theorem escape_unit {n : Nat} {backslash : Text} (small : n < 0x10000) (some_tail : tail ≠ [])
    (single : (CodePoint.ofNat n).isHigh = true → NoLow tail) :
    escape start backslash (.char 'u' :: (Text.hex 4 n ++ tail)) = .ok (.ofNat n, 5) := by
  rw [escape, fourHex_hex small, drop_hex]
  dsimp only
  split
  · exact absurd rfl some_tail
  next _ second =>
    split
    next pair =>
      rw [Bool.and_eq_true] at pair
      obtain ⟨m, read, alone⟩ := single pair.1 second rfl
      rw [read]
      dsimp only
      rw [if_neg (by simp [alone])]
    · rfl
  · rfl

/-- A unit is read as its code point, unless it is one half of a pair. -/
theorem body_unit {n : Nat} (small : n < 0x10000) (some_tail : tail ≠ [])
    (single : (CodePoint.ofNat n).isHigh = true → NoLow tail) :
    stringBody start (unitEscape n ++ tail) = cons (.ofNat n) (stringBody start tail) :=
  body_escape (.char 'u' :: (Text.hex 4 n ++ tail)) (escape_unit small some_tail single)

/-- Two units that are the halves of a pair are read as one character. -/
theorem body_pair {n m : Nat} (high : (CodePoint.ofNat n).isHigh = true)
    (low : (CodePoint.ofNat m).isLow = true) (small : n < 0x10000) (small' : m < 0x10000)
    (some_tail : tail ≠ []) :
    stringBody start (unitEscape n ++ (unitEscape m ++ tail)) =
      cons (.ofNat (0x10000 + (n - 0xD800) * 1024 + (m - 0xDC00))) (stringBody start tail) := by
  have long : 4 < (Text.hex 4 m ++ tail).length := by
    have := List.length_pos_iff.mpr some_tail
    rw [List.length_append, hex_four]
    simp only [List.length_cons, List.length_nil]
    omega
  have read : escape start (.char '\\' :: .char 'u' :: (Text.hex 4 n ++ (unitEscape m ++ tail)))
      (.char 'u' :: (Text.hex 4 n ++ (unitEscape m ++ tail))) =
        .ok (.ofNat (0x10000 + (n - 0xD800) * 1024 + (m - 0xDC00)), 11) := by
    have after : unitEscape m ++ tail = .char '\\' :: .char 'u' :: (Text.hex 4 m ++ tail) := rfl
    rw [escape, fourHex_hex small, drop_hex, after]
    simp only [high, Bool.true_and, long, decide_true, if_true, fourHex_hex small', low]
  exact body_escape _ read

theorem ne_of_no_escape (plain : shortEscape? p = none) : p ≠ .char '"' ∧ p ≠ .char '\\' := by
  constructor
  · rintro rfl
    cases plain
  · rintro rfl
    cases plain

theorem noLow_plain (backslash : p ≠ .char '\\') : NoLow (p :: tail) :=
  fun _ same => absurd (List.cons.inj same).1 backslash

theorem noLow_short {e : Text} (short : shortEscape? p = some e) : NoLow (e ++ tail) := by
  unfold shortEscape? at short
  split at short <;> cases short <;>
    exact fun _ same => absurd (List.cons.inj (List.cons.inj same).2).1 (by decide)

theorem noLow_unit {n : Nat} (small : n < 0x10000) (alone : (CodePoint.ofNat n).isLow = false) :
    NoLow (unitEscape n ++ tail) := by
  intro second same
  have digits : Text.hex 4 n ++ tail = second := (List.cons.inj (List.cons.inj same).2).2
  exact ⟨n, digits ▸ fourHex_hex small, alone⟩

/-- A way of writing code points that reading undoes: a surrogate is a unit, and any other code point is
read back whatever comes after it. -/
structure Reads (point : CodePoint → Text) : Prop where
  unit : ∀ p, p.isSurrogate = true → point p = unitEscape p.val
  plain : ∀ p start tail, p.isSurrogate = false → tail ≠ [] →
    stringBody start (point p ++ tail) = cons p (stringBody start tail)
  noLow : ∀ p tail, p.isLow = false → NoLow (point p ++ tail)

theorem shortEscape_surrogate (u : Fin 2048) : shortEscape? (.surrogate u) = none := rfl

theorem isHigh_ofNat {n : Nat} (lower : 0xD800 ≤ n) (upper : n < 0xDC00) :
    (CodePoint.ofNat n).isHigh = true := by
  rw [CodePoint.isHigh, CodePoint.val_ofNat_surrogate lower (by omega)]
  simp only [Bool.and_eq_true, decide_eq_true_eq]
  omega

theorem isLow_ofNat {n : Nat} (lower : 0xDC00 ≤ n) (upper : n < 0xE000) :
    (CodePoint.ofNat n).isLow = true := by
  rw [CodePoint.isLow, CodePoint.val_ofNat_surrogate (by omega) upper]
  simp only [Bool.and_eq_true, decide_eq_true_eq]
  omega

theorem not_both (p : CodePoint) (high : p.isHigh = true) : p.isLow = false := by
  simp only [CodePoint.isHigh, CodePoint.isLow, Bool.and_eq_true, Bool.and_eq_false_iff,
    decide_eq_true_eq, decide_eq_false_iff_not] at high ⊢
  omega

theorem not_high_of_char {p : CodePoint} (char : p.isSurrogate = false) : p.isHigh = false := by
  cases p with
  | char c =>
    have valid := c.valid
    simp only [UInt32.isValidChar, Nat.isValidChar] at valid
    rw [← Bool.not_eq_true]
    intro high
    simp only [CodePoint.isHigh, Bool.and_eq_true, decide_eq_true_eq] at high
    simp only [CodePoint.val, Char.toNat] at high
    omega
  | surrogate u => cases char

theorem surrogate_of_high (high : p.isHigh = true) : p.isSurrogate = true := by
  rw [← Bool.not_eq_false]
  intro char
  rw [not_high_of_char char] at high
  cases high

theorem surrogate_of_low (low : p.isLow = true) : p.isSurrogate = true := by
  cases p with
  | char c =>
    have valid := c.valid
    simp only [UInt32.isValidChar, Nat.isValidChar] at valid
    simp only [CodePoint.isLow, Bool.and_eq_true, decide_eq_true_eq] at low
    simp only [CodePoint.val, Char.toNat] at low
    omega
  | surrogate u => rfl

theorem val_lt_of_surrogate (surrogate : p.isSurrogate = true) : p.val < 0x10000 := by
  cases p with
  | char c => cases surrogate
  | surrogate u =>
    simp only [CodePoint.val]
    omega

/-- A way of writing one code point: by an escape of its own, as it is, as a unit, or as the pair of
units that stand for it. -/
inductive Written (point : CodePoint → Text) (p : CodePoint) : Prop
  | short {e : Text} (short : shortEscape? p = some e) (same : point p = e)
  | raw (plain : shortEscape? p = none) (char : p.isSurrogate = false) (printable : 0x20 ≤ p.val)
      (same : point p = [p])
  | unit (plain : shortEscape? p = none) (small : p.val < 0x10000) (same : point p = unitEscape p.val)
  | pair (large : 0x10000 ≤ p.val)
      (same : point p = unitEscape (0xD800 + (p.val - 0x10000) / 1024) ++
        unitEscape (0xDC00 + (p.val - 0x10000) % 1024))

namespace Written

variable {point : CodePoint → Text}

theorem unit_of_surrogate (written : Written point p) (surrogate : p.isSurrogate = true) :
    point p = unitEscape p.val := by
  have small := val_lt_of_surrogate surrogate
  cases written with
  | short short same =>
    cases p with
    | char c => cases surrogate
    | surrogate u =>
      rw [shortEscape_surrogate] at short
      cases short
  | raw plain char printable same =>
    rw [char] at surrogate
    cases surrogate
  | unit plain small same => exact same
  | pair large same => omega

theorem body (written : Written point p) (char : p.isSurrogate = false) (some_tail : tail ≠ []) :
    stringBody start (point p ++ tail) = cons p (stringBody start tail) := by
  have bound := p.val_lt
  cases written with
  | short short same =>
    rw [same]
    exact body_short short
  | raw plain _ printable same =>
    rw [same]
    exact body_plain (ne_of_no_escape plain).1 (ne_of_no_escape plain).2 printable
  | unit plain small same =>
    have alone : (CodePoint.ofNat p.val).isHigh = true → NoLow tail := by
      rw [CodePoint.ofNat_val, not_high_of_char char]
      intro high
      cases high
    rw [same, body_unit small some_tail alone, CodePoint.ofNat_val]
  | pair large same =>
    have whole : 0x10000 + (0xD800 + (p.val - 0x10000) / 1024 - 0xD800) * 1024 +
        (0xDC00 + (p.val - 0x10000) % 1024 - 0xDC00) = p.val := by omega
    rw [same, List.append_assoc, body_pair (isHigh_ofNat (by omega) (by omega))
      (isLow_ofNat (by omega) (by omega)) (by omega) (by omega) some_tail, whole,
      CodePoint.ofNat_val]

theorem noLow (written : Written point p) (alone : p.isLow = false) : NoLow (point p ++ tail) := by
  have bound := p.val_lt
  cases written with
  | short short same =>
    rw [same]
    exact noLow_short short
  | raw plain _ _ same =>
    rw [same]
    exact noLow_plain (ne_of_no_escape plain).2
  | unit plain small same =>
    rw [same]
    exact noLow_unit small (by rw [CodePoint.ofNat_val, alone])
  | pair large same =>
    rw [same, List.append_assoc]
    exact noLow_unit (by omega) (not_both _ (isHigh_ofNat (by omega) (by omega)))

theorem reads (written : ∀ p, Written point p) : Reads point where
  unit p surrogate := (written p).unit_of_surrogate surrogate
  plain p _ _ char some_tail := (written p).body char some_tail
  noLow p _ alone := (written p).noLow alone

end Written

theorem portable_written (p : CodePoint) : Written portablePoint p := by
  cases escape : shortEscape? p with
  | some e => exact .short escape (by rw [portablePoint, escape])
  | none =>
    by_cases ascii : 0x20 ≤ p.val ∧ p.val < 0x7F
    · have char : p.isSurrogate = false := by
        cases p with
        | char c => rfl
        | surrogate u =>
          simp only [CodePoint.val] at ascii
          omega
      exact .raw escape char ascii.1 (by simp [portablePoint, escape, ascii])
    · by_cases small : p.val < 0x10000
      · refine .unit escape small ?_
        simp only [portablePoint, escape, Bool.and_eq_true, decide_eq_true_eq, ascii, small, if_true,
          if_false]
      · refine .pair (Nat.le_of_not_lt small) ?_
        simp only [portablePoint, escape, Bool.and_eq_true, decide_eq_true_eq, ascii, small, if_false]

theorem compact_written (p : CodePoint) : Written compactPoint p := by
  cases escape : shortEscape? p with
  | some e => exact .short escape (by rw [compactPoint, escape])
  | none =>
    cases surrogate : p.isSurrogate with
    | true =>
      exact .unit escape (val_lt_of_surrogate surrogate) (by simp [compactPoint, escape, surrogate])
    | false =>
      by_cases control : p.val < 0x20
      · exact .unit escape (by omega) (by simp [compactPoint, escape, control])
      · refine .raw escape surrogate (Nat.le_of_not_lt control) ?_
        simp [compactPoint, escape, surrogate, control]

/-- One code point is read back, unless it is the first half of a pair. -/
theorem body_point {point : CodePoint → Text} (reads : Reads point) (some_tail : tail ≠ [])
    (single : p.isHigh = true → NoLow tail) :
    stringBody start (point p ++ tail) = cons p (stringBody start tail) := by
  cases surrogate : p.isSurrogate with
  | false => exact reads.plain p start tail surrogate some_tail
  | true =>
    rw [reads.unit p surrogate, body_unit (val_lt_of_surrogate surrogate) some_tail
      (by rw [CodePoint.ofNat_val]; exact single), CodePoint.ofNat_val]

/-- A written string is read back, each surrogate pair as one character. -/
theorem body_written {point : CodePoint → Text} (reads : Reads point) (start t rest : Text) :
    stringBody start (t.flatMap point ++ .char '"' :: rest) = .ok (t.paired, rest) := by
  have some_tail {front : Text} : front ++ .char '"' :: rest ≠ [] := by simp
  -- Along the recursion that joins pairs, so that the case of a pair takes two code points at once.
  induction t using Text.paired.induct with
  | case1 p q t pair ih =>
    rw [Bool.and_eq_true] at pair
    have first := surrogate_of_high pair.1
    have second := surrogate_of_low pair.2
    rw [List.flatMap_cons, List.flatMap_cons, reads.unit p first, reads.unit q second,
      List.append_assoc, List.append_assoc, body_pair (by rw [CodePoint.ofNat_val, pair.1])
        (by rw [CodePoint.ofNat_val, pair.2]) (val_lt_of_surrogate first)
        (val_lt_of_surrogate second) some_tail, ih, Text.paired, pair.1, pair.2]
    rfl
  | case2 p q t apart ih =>
    have single : p.isHigh = true →
        NoLow ((q :: t).flatMap point ++ .char '"' :: rest) := by
      intro high
      rw [high, Bool.true_and, Bool.not_eq_true] at apart
      rw [List.flatMap_cons, List.append_assoc]
      exact reads.noLow q _ apart
    rw [List.flatMap_cons, List.append_assoc, body_point reads some_tail single, ih, Text.paired,
      if_neg apart]
    rfl
  | case3 p =>
    have closes : NoLow (.char '"' :: rest) := noLow_plain (by decide)
    have ends : stringBody start (.char '"' :: rest) = .ok ([], rest) := by
      rw [stringBody, if_pos rfl]
    rw [List.flatMap_cons, List.flatMap_nil, List.append_nil,
      body_point reads (List.cons_ne_nil _ _) fun _ => closes, ends]
    rfl
  | case4 =>
    rw [List.flatMap_nil, List.nil_append, stringBody, if_pos rfl]
    rfl

end Json

end GrammarBundle
