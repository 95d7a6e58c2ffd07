import GrammarBundle.Files.Fault
import GrammarBundle.Number.Numeral

/-!
Processes: what a program is called with, and how a call can come out. An engine answers calls, from a
script or by a rule of its own; what the time that a call may take does to it is part of the outcome.
-/

namespace GrammarBundle.Engine

/-- A call of a program: the command, where it runs, its input, and how long it may take. -/
structure Call where
  command : List Text
  workdir : Text
  input : Option Text
  timeout : Option Numeral
  deriving DecidableEq, Repr

/-- Output of a stopped process: none, text, or bytes that may end inside a character. -/
inductive PartialOutput where
  | absent
  | text (t : Text)
  | bytes (b : List UInt8)
  deriving DecidableEq, Repr

def PartialOutput.toText : PartialOutput → Text
  | .absent => []
  | .text t => t
  | .bytes b => Utf8.decodeLenient b

/-- Readings of a steady clock before and after a call, in seconds. -/
structure Readings where
  before : Binary64
  after : Binary64
  deriving DecidableEq, Repr

def Readings.still : Readings := ⟨.zero false, .zero false⟩

/-- The whole milliseconds between the readings. -/
def Readings.milliseconds (r : Readings) : Int :=
  ((r.after.sub r.before).mul (.ofInt 1000)).truncate

inductive Outcome where
  /-- The process ended by itself. -/
  | ended (code : Int) (output errors : Option Text) (clock : Readings)
  /-- The process was stopped because its time was over. -/
  | stopped (output errors : PartialOutput) (clock : Readings)
  /-- The process could not be started. -/
  | refused (reason : SystemReason)
  /-- The call failed by itself, before or after the process: a part of the command or the time is none
  that can be passed on, or an output is no UTF-8. -/
  | failed (message : Text)
  deriving DecidableEq, Repr

end GrammarBundle.Engine

namespace GrammarBundle

/-- What answers calls: outcomes to be used up one by one, or a rule. -/
inductive Engine where
  | script (outcomes : List Engine.Outcome)
  | rule (answer : Engine.Call → Engine.Outcome)

namespace Engine

/-- The outcome of a call and the engine for the calls after it; a used-up script starts nothing. -/
def answer (call : Call) : Engine → Outcome × Engine
  | .script [] => (.refused .noEntry, .script [])
  | .script (outcome :: rest) => (outcome, .script rest)
  | .rule f => (f call, .rule f)

end Engine

end GrammarBundle
