import GrammarBundle.Proofs.Engine.Outcomes
import GrammarBundle.Proofs.Grammar.Rows
import GrammarBundle.Run.ErrorReport

/-!
Exchanges with the engine: the calls that a run makes, each with its outcome. An exchange is proper if it
comes out in a foreseen way and its answer, if there is one, has the shape that the request asks for. A
request whose exchange is proper fails in a way that is foreseen, if it fails.
-/

namespace GrammarBundle

namespace Engine

abbrev Exchange := Call × Outcome

def afterAll (engine : Engine) (calls : List Call) : Engine := calls.foldl Engine.after engine

/-- Calls with their outcomes, made one after another. -/
def exchanges (engine : Engine) : List Call → List Exchange
  | [] => []
  | call :: rest => (call, (engine.answer call).1) :: (engine.after call).exchanges rest

theorem exchanges_append (engine : Engine) (first rest : List Call) :
    engine.exchanges (first ++ rest) =
      engine.exchanges first ++ (engine.afterAll first).exchanges rest := by
  induction first generalizing engine with
  | nil => rfl
  | cons call first ih =>
    rw [List.cons_append, exchanges, exchanges, ih, List.cons_append]
    rfl

/-- An exchange that is foreseen in the context of its call, with an answer of the shape that was asked
for. -/
structure Proper (exchange : Exchange) : Prop where
  foreseen : ∀ ctx script operation fields, exchange.1 = requestCall ctx script operation fields →
    ¬Unforeseen ctx.config.timeout exchange.2
  rows : ∀ ctx script source payload, exchange.1 = compileCall ctx script source →
    reply ctx "compile" exchange.2 = .ok payload →
    ∃ rows : List Row, payload.member "grammars" = .ok (.list (rows.map (·.json)))
  text : ∀ ctx script c payload, exchange.1 = typesCall ctx script c →
    reply ctx "types" exchange.2 = .ok payload →
    ∃ types : Text, payload.member "types" = .ok (.str types)

variable {ctx : Context} {script : Text} {outcome : Outcome} {failure : Failure}

theorem reply_proper {operation : Text} {fields : Members}
    (proper : Proper (requestCall ctx script operation fields, outcome))
    (failed : reply ctx operation outcome = .error failure) : Foreseen failure := by
  have classified : Classified (reply ctx operation outcome) :=
    (reply_classified outcome).mpr (proper.foreseen ctx script operation fields rfl)
  rw [failed] at classified
  exact classified

theorem compiled_proper {source : Text} (proper : Proper (compileCall ctx script source, outcome))
    (failed : compiled ctx outcome = .error failure) : Foreseen failure := by
  unfold compiled at failed
  cases replied : reply ctx "compile" outcome with
  | error cause =>
    rw [replied] at failed
    cases failed
    exact reply_proper proper replied
  | ok payload =>
    obtain ⟨rows, given⟩ := proper.rows ctx script source payload rfl replied
    obtain ⟨c, made⟩ := Collection.addRows_ok [] 0 [] rows
    rw [replied] at failed
    dsimp only at failed
    rw [given] at failed
    dsimp only at failed
    rw [Collection.ofRows, Json.elementsOf, Json.elements?] at failed
    dsimp only at failed
    rw [made] at failed
    cases failed

theorem typed_proper {c : Collection} (proper : Proper (typesCall ctx script c, outcome))
    (failed : typed ctx outcome = .error failure) : Foreseen failure := by
  unfold typed at failed
  cases replied : reply ctx "types" outcome with
  | error cause =>
    rw [replied] at failed
    cases failed
    exact reply_proper proper replied
  | ok payload =>
    obtain ⟨types, given⟩ := proper.text ctx script c payload rfl replied
    rw [replied] at failed
    dsimp only at failed
    rw [given] at failed
    cases failed

/-- What is foreseen has an exit code of its own. -/
theorem Foreseen.not_internal (foreseen : Foreseen failure) : failure.exitCode ≠ .internal := by
  intro same
  cases foreseen <;> cases same

end Engine

/-- The exchanges by which one host has become another. -/
def Host.exchanges (host after : Host) : List Engine.Exchange :=
  host.engine.exchanges (after.calls.drop host.calls.length)

/-- A host that another one has become by making calls, whatever else was done on it. -/
def Host.Reached (host after : Host) : Prop :=
  ∃ made, after.calls = host.calls ++ made ∧ after.engine = host.engine.afterAll made

namespace Host

variable {host after next : Host}

theorem Reached.refl (host : Host) : host.Reached host := ⟨[], (List.append_nil _).symm, rfl⟩

/-- Steps that make no call reach what was reached, and add no exchange. -/
theorem Reached.same (reached : host.Reached after) (calls : next.calls = after.calls)
    (engine : next.engine = after.engine) :
    host.Reached next ∧ host.exchanges next = host.exchanges after := by
  obtain ⟨made, made_calls, made_engine⟩ := reached
  refine ⟨⟨made, calls.trans made_calls, engine.trans made_engine⟩, ?_⟩
  rw [exchanges, exchanges, calls]

/-- A call adds one exchange. -/
theorem Reached.asked (reached : host.Reached after) (call : Engine.Call) (errors : Text) :
    host.Reached ((after.asked call).logged errors) ∧
      host.exchanges ((after.asked call).logged errors) =
        host.exchanges after ++ [(call, (after.engine.answer call).1)] := by
  obtain ⟨made, made_calls, made_engine⟩ := reached
  have calls : ((after.asked call).logged errors).calls = host.calls ++ (made ++ [call]) := by
    rw [← List.append_assoc, ← made_calls]
    rfl
  refine ⟨⟨made ++ [call], calls, ?_⟩, ?_⟩
  · change after.engine.after call = _
    rw [made_engine, Engine.afterAll, Engine.afterAll, List.foldl_append]
    rfl
  · rw [exchanges, exchanges, calls, made_calls, List.drop_left, List.drop_left,
      Engine.exchanges_append, ← made_engine]
    rfl

end Host

end GrammarBundle
