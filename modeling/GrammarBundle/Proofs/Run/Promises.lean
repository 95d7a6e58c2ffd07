import GrammarBundle.Proofs.Run.Abreast
import GrammarBundle.Proofs.Run.Actions

/-!
Promises about steps. A promise says how the state after a step is related to the state before it, where
the step ends well and where it fails. A promise that steps keep one by one is kept by what is put
together from them.
-/

namespace GrammarBundle

/-- What is promised of steps: a relation of states where a step ends well, and one for each failure. -/
structure Promise (σ : Type) where
  done : σ → σ → Prop
  failed : σ → σ → Failure → Prop
  refl : ∀ s, done s s
  trans : ∀ {s t u}, done s t → done t u → done s u
  later : ∀ {s t u failure}, done s t → failed t u failure → failed s u failure

namespace Promise

variable {σ α β : Type} {promise : Promise σ}

/-- A step from a state ended as promised. -/
def Met (promise : Promise σ) (s : σ) : Except Failure α × σ → Prop
  | (.ok _, t) => promise.done s t
  | (.error failure, t) => promise.failed s t failure

def Kept (promise : Promise σ) (step : ExceptT Failure (StateM σ) α) : Prop :=
  ∀ s, promise.Met s (StateT.run (ExceptT.run step) s)

theorem kept_pure (a : α) : promise.Kept (pure a) := promise.refl

theorem kept_get : promise.Kept (get : ExceptT Failure (StateM σ) σ) := promise.refl

theorem met_bind {step : ExceptT Failure (StateM σ) α} {next : α → ExceptT Failure (StateM σ) β}
    {s : σ} (first : promise.Met s (StateT.run (ExceptT.run step) s))
    (rest : ∀ a t, StateT.run (ExceptT.run step) s = (.ok a, t) →
      promise.Met t (StateT.run (ExceptT.run (next a)) t)) :
    promise.Met s (StateT.run (ExceptT.run (step >>= next)) s) := by
  rw [run_bind]
  generalize StateT.run (ExceptT.run step) s = ended at first rest
  obtain ⟨result, t⟩ := ended
  cases result with
  | error failure => exact first
  | ok a =>
    have last := rest a t rfl
    dsimp only
    generalize StateT.run (ExceptT.run (next a)) t = ended at last ⊢
    obtain ⟨result, u⟩ := ended
    cases result with
    | ok b => exact promise.trans first last
    | error failure => exact promise.later first last

theorem Kept.bind {step : ExceptT Failure (StateM σ) α} {next : α → ExceptT Failure (StateM σ) β}
    (first : promise.Kept step) (rest : ∀ a, promise.Kept (next a)) :
    promise.Kept (step >>= next) :=
  fun s => met_bind (first s) fun a t _ => rest a t

/-- A result that is at hand keeps a promise, if its failure may happen where it is. -/
theorem kept_ofExcept {promise : Promise Host} {ε : Type} {cause : ε → Failure}
    {result : Except ε α}
    (allowed : ∀ e host, result = .error e → promise.failed host host (cause e)) :
    promise.Kept (Action.ofExcept cause result) := by
  intro host
  cases result with
  | ok a => exact promise.refl host
  | error e => exact allowed e host rfl

end Promise

end GrammarBundle
