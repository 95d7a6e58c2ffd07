import Mathlib.Data.List.Basic
import GrammarBundle.Proofs.Pattern.Scan

/-!
Patterns as products. A pattern that goes on behind closed text stands for every pattern of its front
followed by every pattern of its rest, each once and in order; a group stands for what its alternatives
stand for, and a pattern without one for itself.
-/

namespace GrammarBundle.Pattern

section firstOccurrences

variable {α β : Type} [BEq α] [LawfulBEq α]

theorem eraseDups_filter (keep : α → Bool) (items : List α) :
    (items.filter keep).eraseDups = items.eraseDups.filter keep := by
  -- The rest without an item is shorter than the rest, but no part of it at its front.
  induction length : items.length using Nat.strongRecOn generalizing items with
  | ind n ih =>
    cases items with
    | nil => rfl
    | cons a rest =>
      have shorter : (rest.filter fun b => !b == a).length < n := by
        rw [← length, List.length_cons]
        exact Nat.lt_succ_of_le (List.length_filter_le _ _)
      have later := ih _ shorter (rest.filter fun b => !b == a) rfl
      have commute : (rest.filter fun b => !b == a).filter keep =
          (rest.filter keep).filter fun b => !b == a := by
        simp only [List.filter_filter, Bool.and_comm]
      rw [List.eraseDups_cons, List.filter_cons, List.filter_cons]
      split
      · rw [List.eraseDups_cons, ← commute, later]
      next dropped =>
        have gone : (rest.filter fun b => !b == a).filter keep = rest.filter keep := by
          rw [commute, List.filter_eq_self]
          intro b member
          have kept := (List.mem_filter.mp member).2
          have apart : b ≠ a := fun same => dropped (same ▸ kept)
          simpa using apart
        rw [← later, gone]

theorem eraseDups_removeAll (items gone : List α) :
    (items.removeAll gone).eraseDups = items.eraseDups.removeAll gone :=
  eraseDups_filter _ items

/-- An item comes first, and then what remains of the rest without it. -/
theorem eraseDups_cons_filter (a : α) (rest : List α) :
    (a :: rest).eraseDups = a :: rest.eraseDups.filter fun b => !b == a := by
  rw [List.eraseDups_cons, eraseDups_filter]

theorem eraseDups_idem (items : List α) : items.eraseDups.eraseDups = items.eraseDups := by
  induction items with
  | nil => rfl
  | cons a rest ih =>
    rw [eraseDups_cons_filter, eraseDups_cons_filter, eraseDups_filter, ih, List.filter_filter]
    simp

theorem removeAll_congr {items gone other : List α} (same : ∀ a, a ∈ gone ↔ a ∈ other) :
    items.removeAll gone = items.removeAll other := by
  unfold List.removeAll
  apply List.filter_congr
  intro a _
  simp only [List.elem_eq_contains, List.contains_eq_mem, same]

/-- Repetitions in front do not show once all repetitions go. -/
theorem eraseDups_append_front (front rest : List α) :
    (front.eraseDups ++ rest).eraseDups = (front ++ rest).eraseDups := by
  rw [List.eraseDups_append, List.eraseDups_append, eraseDups_idem,
    removeAll_congr fun a => List.mem_eraseDups]

theorem eraseDups_append_rest {front rest other : List α} (same : rest.eraseDups = other.eraseDups) :
    (front ++ rest).eraseDups = (front ++ other).eraseDups := by
  rw [List.eraseDups_append, List.eraseDups_append, eraseDups_removeAll, eraseDups_removeAll, same]

theorem eraseDups_flatMap (f : β → List α) (items : List β) :
    (items.flatMap fun b => (f b).eraseDups).eraseDups = (items.flatMap f).eraseDups := by
  induction items with
  | nil => rfl
  | cons b rest ih =>
    rw [List.flatMap_cons, List.flatMap_cons, eraseDups_append_front, eraseDups_append_rest ih]

variable [BEq β] [LawfulBEq β]

/-- A second occurrence adds nothing to what has been made of the first one. -/
theorem removeAll_flatMap (f : β → List α) (b : β) (items : List β) :
    ((items.filter fun c => !c == b).flatMap f).removeAll (f b) = (items.flatMap f).removeAll (f b) := by
  induction items with
  | nil => rfl
  | cons c rest ih =>
    unfold List.removeAll at ih ⊢
    rw [List.filter_cons, List.flatMap_cons, List.filter_append]
    split
    · rw [List.flatMap_cons, List.filter_append, ih]
    next same =>
      obtain rfl : c = b := by simpa using same
      have none : ((f c).filter fun a => !(f c).elem a) = [] := by simp
      rw [none, List.nil_append, ih]

theorem eraseDups_flatMap_eraseDups (f : β → List α) (items : List β) :
    (items.eraseDups.flatMap f).eraseDups = (items.flatMap f).eraseDups := by
  induction items with
  | nil => rfl
  | cons b rest ih =>
    rw [eraseDups_cons_filter, List.flatMap_cons, List.flatMap_cons, List.eraseDups_append,
      List.eraseDups_append, removeAll_flatMap, eraseDups_removeAll, eraseDups_removeAll, ih]

theorem eraseDups_map {f : α → β} (injective : ∀ a b, f a = f b → a = b) (items : List α) :
    (items.map f).eraseDups = items.eraseDups.map f := by
  induction items with
  | nil => rfl
  | cons a rest ih =>
    have apart : (rest.eraseDups.map f).filter (fun b => !b == f a) =
        (rest.eraseDups.filter fun b => !b == a).map f := by
      rw [List.filter_map]
      congr 1
      apply List.filter_congr
      intro b _
      have images : f b = f a ↔ b = a := ⟨injective b a, congrArg f⟩
      rw [Bool.eq_iff_iff]
      simp [images]
    rw [List.map_cons, eraseDups_cons_filter, eraseDups_cons_filter, List.map_cons, ih, apart]

end firstOccurrences

/-- Every text of one list followed by every text of another. -/
def products (fronts rests : List Text) : List Text :=
  fronts.flatMap fun front => rests.map (front ++ ·)

theorem products_flatMap {α : Type} (f : α → List Text) (items : List α) (rests : List Text) :
    items.flatMap (fun a => products (f a) rests) = products (items.flatMap f) rests := by
  unfold products
  rw [List.flatMap_assoc]

theorem expandBraces_plain {pattern : Text} (none_found : group? pattern = none) :
    expandBraces pattern = [pattern] := by
  rw [expandBraces]
  split
  · rfl
  next found => rw [none_found] at found; cases found

theorem expandBraces_group {pattern : Text} {g : Group} (found : group? pattern = some g) :
    expandBraces pattern =
      ((splitAlternatives g.body).flatMap fun part => expandBraces (g.choose part)).eraseDups := by
  rw [expandBraces]
  split
  next none_found => rw [found] at none_found; cases none_found
  next other same =>
    rw [found] at same
    cases same
    rw [List.flatMap_subtype (g := fun part => expandBraces (g.choose part)) fun _ _ => rfl,
      List.unattach_attach]

/-- Closed text without a group stands in front of all patterns of what follows. -/
theorem expandBraces_behind {front : Text} (closed : isClosed front = true)
    (none_found : group? front = none) (rest : Text) :
    expandBraces (front ++ rest) = (expandBraces rest).map (front ++ ·) := by
  have behind (rest : Text) : group? (front ++ rest) =
      (group? rest).map fun g => { g with head := front ++ g.head } := by
    have shifted : groupFrom? (front ++ []) none rest = _ := groupFrom_shift front
    rw [List.append_nil] at shifted
    have passed : group? (front ++ rest) = groupFrom? ([] ++ openText none ++ front) none rest :=
      groupFrom_closed rest none_found (depthFrom_closed closed)
    rw [passed]
    exact shifted
  induction length : rest.length using Nat.strongRecOn generalizing rest with
  | ind n ih =>
    cases found : group? rest with
    | none =>
      have nothing : group? (front ++ rest) = none := by rw [behind, found]; rfl
      rw [expandBraces_plain nothing, expandBraces_plain found]
      rfl
    | some g =>
      have moved : group? (front ++ rest) = some { g with head := front ++ g.head } := by
        rw [behind, found]
        rfl
      have chosen : ∀ part ∈ splitAlternatives g.body,
          expandBraces (Group.choose { g with head := front ++ g.head } part) =
            (expandBraces (g.choose part)).map (front ++ ·) := by
        intro part member
        have shorter : (g.choose part).length < n := length ▸ length_choose_lt found member
        rw [← ih _ shorter _ rfl]
        simp [Group.choose]
      rw [expandBraces_group moved, expandBraces_group found, List.flatMap_congr chosen,
        ← eraseDups_map fun a b same => List.append_cancel_left same, List.map_flatMap]

/-- Closed text followed by any text stands for the products of what both stand for. -/
theorem expandBraces_append {front : Text} (closed : isClosed front = true) (rest : Text) :
    expandBraces (front ++ rest) = (products (expandBraces front) (expandBraces rest)).eraseDups := by
  induction length : front.length using Nat.strongRecOn generalizing front with
  | ind n ih =>
    cases found : group? front with
    | none =>
      have once : (expandBraces rest).eraseDups = expandBraces rest := by
        cases inner : group? rest with
        | none => rw [expandBraces_plain inner]; rfl
        | some g => rw [expandBraces_group inner, eraseDups_idem]
      rw [expandBraces_behind closed found, expandBraces_plain found, products, List.flatMap_cons,
        List.flatMap_nil, List.append_nil,
        eraseDups_map fun a b same => List.append_cancel_left same, once]
    | some g =>
      -- The group of the front is the first one of the whole, and choosing keeps the front closed.
      have expandable := expandable_of_group found
      have further : group? (front ++ rest) = some { g with tail := g.tail ++ rest } :=
        groupFrom_append rest found
      have chosen : ∀ part ∈ splitAlternatives g.body,
          expandBraces (Group.choose { g with tail := g.tail ++ rest } part) =
            (products (expandBraces (g.choose part)) (expandBraces rest)).eraseDups := by
        intro part member
        have shorter : (g.choose part).length < n := length ▸ length_choose_lt found member
        rw [← ih _ shorter (expandable.choose_closed closed member) rfl]
        simp [Group.choose]
      calc expandBraces (front ++ rest)
          = ((splitAlternatives g.body).flatMap fun part =>
              (products (expandBraces (g.choose part)) (expandBraces rest)).eraseDups).eraseDups := by
            rw [expandBraces_group further]
            exact congrArg List.eraseDups (List.flatMap_congr chosen)
        _ = (products ((splitAlternatives g.body).flatMap fun part => expandBraces (g.choose part))
              (expandBraces rest)).eraseDups := by
            rw [eraseDups_flatMap, products_flatMap]
        _ = (products (expandBraces front) (expandBraces rest)).eraseDups := by
            rw [expandBraces_group found]
            exact (eraseDups_flatMap_eraseDups _ _).symm

/-- A balanced group stands for what its alternatives stand for. -/
theorem expandBraces_braces {body : Text} (balanced : isBalanced body = true)
    (several : 2 ≤ (splitAlternatives body).length) :
    expandBraces (.char '{' :: body ++ [.char '}']) =
      ((splitAlternatives body).flatMap expandBraces).eraseDups := by
  have found : group? (.char '{' :: body ++ [.char '}']) = some ⟨[], body, []⟩ :=
    group_of_braces balanced several
  rw [expandBraces_group found]
  simp [Group.choose]

/-- Patterns are products of their parts: closed text goes in front of each pattern of what follows it,
a group stands for its alternatives, and text without a group for itself. -/
theorem expandBraces_composes :
    (∀ front rest, isClosed front = true →
      expandBraces (front ++ rest) =
        ((expandBraces front).flatMap fun a => (expandBraces rest).map (a ++ ·)).eraseDups) ∧
    (∀ body, isBalanced body = true → 2 ≤ (splitAlternatives body).length →
      expandBraces (.char '{' :: body ++ [.char '}']) =
        ((splitAlternatives body).flatMap expandBraces).eraseDups) ∧
    ∀ pattern, ¬HoldsGroup pattern → expandBraces pattern = [pattern] := by
  refine ⟨?_, ?_, ?_⟩
  · intro front rest closed
    exact expandBraces_append closed rest
  · intro body balanced several
    exact expandBraces_braces balanced several
  · intro pattern literal
    exact expandBraces_plain (group_eq_none_iff.mpr literal)

section sample

/-- The pattern `}{a,{b,a}}{x}`: alternatives in alternatives, one of them written twice, between a
bracket without a partner and a group without alternatives. -/
def nestedPattern : Text := "\x7d\x7ba,\x7bb,a\x7d\x7d\x7bx\x7d"

/-- The pattern `{c,d}{`. -/
def openPattern : Text := "\x7bc,d\x7d\x7b"

/-- The body `a,{b,a}`. -/
def nestedBody : Text := "a,\x7bb,a\x7d"

/-- The pattern `{a,{b,c}`, whose first bracket has no partner. -/
def literalPattern : Text := "\x7ba,\x7bb,c\x7d"

theorem expandBraces_composes_nested :
    (isClosed nestedPattern = true ∧
      expandBraces (nestedPattern ++ openPattern) =
        ((expandBraces nestedPattern).flatMap fun a =>
          (expandBraces openPattern).map (a ++ ·)).eraseDups) ∧
    (isBalanced nestedBody = true ∧ 2 ≤ (splitAlternatives nestedBody).length ∧
      expandBraces (.char '{' :: nestedBody ++ [.char '}']) =
        ((splitAlternatives nestedBody).flatMap expandBraces).eraseDups) ∧
    ¬HoldsGroup literalPattern ∧ expandBraces literalPattern = [literalPattern] := by
  have closed : isClosed nestedPattern = true := by decide
  have balanced : isBalanced nestedBody = true := by decide
  have several : 2 ≤ (splitAlternatives nestedBody).length := by decide
  have literal : ¬HoldsGroup literalPattern := group_eq_none_iff.mp (by decide)
  exact ⟨⟨closed, expandBraces_composes.1 _ _ closed⟩,
    ⟨balanced, several, expandBraces_composes.2.1 _ balanced several⟩,
    literal, expandBraces_composes.2.2 _ literal⟩

example : expandBraces nestedPattern =
    ["\x7da\x7bx\x7d", "\x7db\x7bx\x7d"] := by
  cbv

end sample

end GrammarBundle.Pattern
