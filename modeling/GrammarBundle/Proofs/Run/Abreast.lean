import GrammarBundle.Proofs.Run.Actions
import GrammarBundle.Run.ErrorReport

/-!
Runs side by side. Two steps are abreast if from related states they come to related states and end
alike: with the same value, or with failures that differ at most in what they say of the engine's
program and of its time. Where one of them cannot tell a time that the other can, this may be what it
fails for.
-/

namespace GrammarBundle

/-- Failures that differ at most in the engine's program and in its last words, or, if times are not told
alike, in whether these could be told. -/
inductive Failure.Akin (told : Prop) : Failure → Failure → Prop
  | same (failure : Failure) : Akin told failure failure
  | nodeMissing (node node' : Text) : Akin told (.nodeMissing node) (.nodeMissing node')
  | timedOut (operation note note' : Text) :
      Akin told (.timedOut operation note) (.timedOut operation note')
  | refused (reason : SystemReason) (node node' : Text) :
      Akin told (.system ⟨reason, node⟩) (.system ⟨reason, node'⟩)
  | first_told (operation note : Text) (fault : Json.PrintFault) : ¬told →
      Akin told (.timedOut operation note) (.unprintable fault)
  | last_told (operation note : Text) (fault : Json.PrintFault) : ¬told →
      Akin told (.unprintable fault) (.timedOut operation note)

variable {told : Prop}

theorem Failure.Akin.report {failure failure' : Failure} (akin : failure.Akin told failure')
    (alike : told) :
    failure'.report.kind = failure.report.kind ∧ failure'.report.code = failure.report.code := by
  cases akin with
  | first_told _ _ _ apart => exact absurd alike apart
  | last_told _ _ _ apart => exact absurd alike apart
  | _ => exact ⟨rfl, rfl⟩

/-- Ends of two runs: the same value, or failures that are akin. -/
inductive Ends (told : Prop) {α : Type} : Except Failure α → Except Failure α → Prop
  | ok (a : α) : Ends told (.ok a) (.ok a)
  | error {failure failure' : Failure} : failure.Akin told failure' →
      Ends told (.error failure) (.error failure')

theorem Ends.refl {α : Type} (result : Except Failure α) : Ends told result result := by
  cases result with
  | ok a => exact .ok a
  | error failure => exact .error (.same failure)

/-- What ends alike without regard to times ends alike. -/
theorem Ends.of_untimed {α : Type} {result result' : Except Failure α} (ends : Ends True result result') :
    Ends told result result' := by
  cases ends with
  | ok a => exact .ok a
  | error akin =>
    refine .error ?_
    cases akin with
    | same => exact .same _
    | nodeMissing node node' => exact .nodeMissing node node'
    | timedOut operation note note' => exact .timedOut operation note note'
    | refused reason node node' => exact .refused reason node node'
    | first_told _ _ _ apart => exact absurd trivial apart
    | last_told _ _ _ apart => exact absurd trivial apart

/-- Both runs succeed, or both fail. -/
theorem Ends.both {α : Type} {result result' : Except Failure α} (ends : Ends told result result') :
    result'.toOption = result.toOption := by
  cases ends <;> rfl

/-- What the program says of a failure differs at most in the message, if times are told alike. -/
theorem Ends.kind {α : Type} {result result' : Except Failure α} (ends : Ends told result result')
    (alike : told) : result'.mapError (·.report.kind) = result.mapError (·.report.kind) := by
  cases ends with
  | ok a => rfl
  | error akin => exact congrArg Except.error (akin.report alike).1

variable {σ α β : Type} {related : σ → σ → Prop}

/-- Steps that go on side by side from related states. -/
def Abreast (told : Prop) (related : σ → σ → Prop) (one other : ExceptT Failure (StateM σ) α) : Prop :=
  ∀ s t, related s t →
    Ends told (StateT.run (ExceptT.run one) s).1 (StateT.run (ExceptT.run other) t).1 ∧
      related (StateT.run (ExceptT.run one) s).2 (StateT.run (ExceptT.run other) t).2

theorem abreast_pure (a : α) : Abreast told related (pure a) (pure a) :=
  fun _ _ states => ⟨.ok a, states⟩

theorem run_bind {step : ExceptT Failure (StateM σ) α} {next : α → ExceptT Failure (StateM σ) β}
    {s : σ} :
    StateT.run (ExceptT.run (step >>= next)) s =
      match StateT.run (ExceptT.run step) s with
      | (.ok a, after) => StateT.run (ExceptT.run (next a)) after
      | (.error failure, after) => (.error failure, after) := by
  change ExceptT.bindCont next (StateT.run (ExceptT.run step) s).1 (StateT.run (ExceptT.run step) s).2 = _
  cases StateT.run (ExceptT.run step) s with
  | mk result after => cases result <;> rfl

theorem Abreast.bind {one other : ExceptT Failure (StateM σ) α}
    {next rest : α → ExceptT Failure (StateM σ) β} (first : Abreast told related one other)
    (later : ∀ a, Abreast told related (next a) (rest a)) :
    Abreast told related (one >>= next) (other >>= rest) := by
  intro s t states
  rw [run_bind, run_bind]
  have ends := first s t states
  generalize StateT.run (ExceptT.run one) s = left at ends
  generalize StateT.run (ExceptT.run other) t = right at ends
  obtain ⟨result, s'⟩ := left
  obtain ⟨result', t'⟩ := right
  obtain ⟨results, after⟩ := ends
  cases results with
  | ok a => exact later a s' t' after
  | error akin => exact ⟨.error akin, after⟩

/-- A step followed by what does not depend on its value. -/
theorem Abreast.next {one other : ExceptT Failure (StateM σ) α}
    {next rest : ExceptT Failure (StateM σ) β} (first : Abreast told related one other)
    (later : Abreast told related next rest) :
    Abreast told related (one >>= fun _ => next) (other >>= fun _ => rest) :=
  first.bind fun _ => later

end GrammarBundle
