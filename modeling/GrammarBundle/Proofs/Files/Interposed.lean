/-!
Lists with elements put in between. The elements of the first list stay in their order, and the further
ones are all of one kind.
-/

namespace GrammarBundle

/-- The second list is the first with further elements of some kind anywhere in it. -/
inductive Interposed {α : Type} (further : α → Prop) : List α → List α → Prop
  | nil : Interposed further [] []
  | keep (a : α) {l l' : List α} : Interposed further l l' → Interposed further (a :: l) (a :: l')
  | more {a : α} {l l' : List α} : further a → Interposed further l l' →
      Interposed further l (a :: l')

namespace Interposed

variable {α β ε : Type} {further other : α → Prop} {l l' l'' k k' : List α}

theorem refl (l : List α) : Interposed further l l := by
  induction l with
  | nil => exact .nil
  | cons a l ih => exact .keep a ih

theorem imp (inside : Interposed further l l') (kinds : ∀ a, further a → other a) :
    Interposed other l l' := by
  induction inside with
  | nil => exact .nil
  | keep a _ ih => exact .keep a ih
  | more here _ ih => exact .more (kinds _ here) ih

theorem trans (first : Interposed further l l') (second : Interposed further l' l'') :
    Interposed further l l'' := by
  induction second generalizing l with
  | nil => exact first
  | keep a _ ih =>
    cases first with
    | keep _ first => exact .keep a (ih first)
    | more here first => exact .more here (ih first)
  | more here _ ih => exact .more here (ih first)

theorem append (first : Interposed further l l') (second : Interposed further k k') :
    Interposed further (l ++ k) (l' ++ k') := by
  induction first with
  | nil => exact second
  | keep a _ ih => exact .keep a ih
  | more here _ ih => exact .more here ih

/-- Nothing but further elements. -/
theorem of_all (all : ∀ a ∈ l, further a) : Interposed further [] l := by
  induction l with
  | nil => exact .nil
  | cons a l ih =>
    apply more (all a List.mem_cons_self)
    exact ih fun b member => all b (List.mem_cons_of_mem a member)

theorem map {kind : β → Prop} (f : α → β) (kinds : ∀ a, further a → kind (f a))
    (inside : Interposed further l l') : Interposed kind (l.map f) (l'.map f) := by
  induction inside with
  | nil => exact .nil
  | keep a _ ih => exact .keep (f a) ih
  | more here _ ih => exact .more (kinds _ here) ih

theorem filter (p : α → Bool) (inside : Interposed further l l') :
    Interposed (fun a => further a ∧ p a = true) (l.filter p) (l'.filter p) := by
  induction inside with
  | nil => exact .nil
  | keep a _ ih =>
    by_cases kept : p a = true
    · rw [List.filter_cons_of_pos kept, List.filter_cons_of_pos kept]
      exact .keep a ih
    · rw [List.filter_cons_of_neg kept, List.filter_cons_of_neg kept]
      exact ih
  | @more a _ _ here _ ih =>
    by_cases kept : p a = true
    · rw [List.filter_cons_of_pos kept]
      exact .more ⟨here, kept⟩ ih
    · rw [List.filter_cons_of_neg kept]
      exact ih

theorem eq_of_none (none : ∀ a, ¬further a) (inside : Interposed further l l') : l' = l := by
  induction inside with
  | nil => rfl
  | keep a _ ih => rw [ih]
  | more here _ _ => exact absurd here (none _)

/-- A filter that takes none of the further elements cannot tell the lists apart. -/
theorem filter_eq {p : α → Bool} (apart : ∀ a, further a → p a = false)
    (inside : Interposed further l l') : l'.filter p = l.filter p := by
  apply (inside.filter p).eq_of_none
  rintro a ⟨here, kept⟩
  rw [apart a here] at kept
  cases kept

theorem mapM_cons_ok {f : α → Except ε β} {a : α} {results : List β} :
    (a :: l).mapM f = .ok results ↔
      ∃ b bs, f a = .ok b ∧ l.mapM f = .ok bs ∧ results = b :: bs := by
  rw [List.mapM_cons]
  cases f a with
  | error e => simp [bind, Except.bind]
  | ok b =>
    cases l.mapM f with
    | error e => simp [bind, Except.bind]
    | ok bs => simp [bind, Except.bind, pure, Except.pure, eq_comm]

/-- Steps over both lists: where the steps for the kept elements have results with elements put in between
and those for the further elements have nothing but further results, so have all steps together. -/
theorem mapM {f f' : α → Except ε (List β)} {kind : β → Prop} {results : List (List β)}
    (inside : Interposed further l l')
    (kept : ∀ a found, f a = .ok found → ∃ found', f' a = .ok found' ∧ Interposed kind found found')
    (others : ∀ a, further a → ∃ found', f' a = .ok found' ∧ ∀ b ∈ found', kind b)
    (done : l.mapM f = .ok results) :
    ∃ results', l'.mapM f' = .ok results' ∧ Interposed kind results.flatten results'.flatten := by
  induction inside generalizing results with
  | nil =>
    cases done
    exact ⟨[], rfl, .nil⟩
  | keep a _ ih =>
    obtain ⟨found, rest, first, later, rfl⟩ := mapM_cons_ok.mp done
    obtain ⟨found', first', between⟩ := kept a found first
    obtain ⟨rest', later', among⟩ := ih later
    exact ⟨found' :: rest', mapM_cons_ok.mpr ⟨_, _, first', later', rfl⟩, between.append among⟩
  | @more a _ _ here _ ih =>
    obtain ⟨found', first', all⟩ := others a here
    obtain ⟨rest', later', among⟩ := ih done
    exact ⟨found' :: rest', mapM_cons_ok.mpr ⟨_, _, first', later', rfl⟩,
      (of_all all).append among⟩

end Interposed

end GrammarBundle
