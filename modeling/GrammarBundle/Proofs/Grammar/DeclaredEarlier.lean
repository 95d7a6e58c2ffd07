import GrammarBundle.Grammar.Order

/-!
What an accepted declaration order says: the base of every grammar is named by the key of an entry that
stands before it in the collection.
-/

namespace GrammarBundle.Collection

theorem isKey_iff {name : Json} {keys : List Text} :
    isKey name keys = true ↔ ∃ t ∈ keys, name = .str t := by
  cases name <;> simp [isKey]

/-- An accepted order names every base by a key seen before the entries or by an earlier entry. -/
theorem base_declared_of_orderFrom {source : Text} {keys seen : List Text}
    {before rest : List Entry} {entry : Entry} {base : Grammar}
    (accepted : orderFrom source keys seen (before ++ entry :: rest) = .ok ())
    (based : entry.grammar.base? = some base) :
    ∃ t, base.declaration.name = .str t ∧ (t ∈ seen ∨ t ∈ before.map (·.key)) := by
  induction before generalizing seen with
  | nil =>
    simp only [List.nil_append, orderFrom, based] at accepted
    split at accepted
    next known =>
      obtain ⟨t, member, same⟩ := isKey_iff.mp known
      exact ⟨t, same, .inl member⟩
    next => cases accepted
  | cons first before ih =>
    have later : orderFrom source keys (first.key :: seen) (before ++ entry :: rest) = .ok () := by
      simp only [List.cons_append, orderFrom] at accepted
      split at accepted
      · exact accepted
      · split at accepted
        · exact accepted
        · cases accepted
    obtain ⟨t, same, place⟩ := ih later
    refine ⟨t, same, ?_⟩
    rcases place with known | member
    · rcases List.mem_cons.mp known with rfl | old
      · exact .inr List.mem_cons_self
      · exact .inl old
    · exact .inr (List.mem_cons_of_mem _ member)

/-- In an accepted collection the base of an entry is named by the key of an entry before it. -/
theorem base_declared_earlier {c before rest : List Entry} {source : Text} {entry : Entry}
    {base : Grammar} (accepted : checkOrder source c = .ok ())
    (parts : c = before ++ entry :: rest) (based : entry.grammar.base? = some base) :
    ∃ earlier ∈ before, base.declaration.name = .str earlier.key := by
  rw [checkOrder, parts] at accepted
  obtain ⟨t, same, place⟩ := base_declared_of_orderFrom accepted based
  rcases place with none_seen | member
  · cases none_seen
  · obtain ⟨earlier, found, rfl⟩ := List.mem_map.mp member
    exact ⟨earlier, found, same⟩

theorem first_is_root {rest : List Entry} {source : Text} {entry : Entry}
    (accepted : checkOrder source (entry :: rest) = .ok ()) : entry.grammar.base? = none := by
  cases based : entry.grammar.base? with
  | none => rfl
  | some base =>
    obtain ⟨earlier, member, _⟩ :=
      base_declared_earlier accepted (List.nil_append _).symm based
    cases member

end GrammarBundle.Collection
