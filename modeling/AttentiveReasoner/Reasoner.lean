import AttentiveReasoner.Memory.Cycle

/-!
Contract: a reasoner, which runs the cycles of a memory and counts what came of
them.

Owns: the counters, a single step, and runs of a given number of steps.

Does not own: the memory, which others may use between the steps. A cycle that
fails ends a run and adds nothing to the counters.
-/

namespace AttentiveReasoner

open AttentiveReasoner.Inference
open AttentiveReasoner.Language
open AttentiveReasoner.Numeric

/-- What came of the cycles so far. -/
structure Counters where
  cycles : Nat := 0
  processed : Nat := 0
  fired : Nat := 0
  derived : Nat := 0
  forgotten : Nat := 0
deriving DecidableEq, Repr

/-- The counters after one more cycle. -/
def Counters.record (counters : Counters) (report : CycleReport) : Counters where
  cycles := counters.cycles + 1
  processed := counters.processed + report.processed.toNat
  fired := counters.fired + report.fired.toNat
  derived := counters.derived + report.derived
  forgotten := counters.forgotten + report.forgotten

/-- A rule and the counters of its cycles. -/
structure Reasoner where
  rule : Rule
  counters : Counters := {}

namespace Reasoner

variable [Arithmetic]

/-- One cycle. -/
def step
    (reasoner : Reasoner)
    (memory : Memory)
    (outside : Held) :
    Except Failure CycleReport × Reasoner × Memory :=
  match memory.runCycle outside reasoner.rule with
  | (.error failure, memory) => (.error failure, reasoner, memory)
  | (.ok report, memory) =>
      (.ok report, { reasoner with counters := reasoner.counters.record report }, memory)

/-- A number of cycles, up to the first that fails. -/
def run
    (reasoner : Reasoner)
    (memory : Memory)
    (outside : Held) :
    (steps : Nat) →
    Except Failure Counters × Reasoner × Memory
  | 0 => (.ok reasoner.counters, reasoner, memory)
  | steps + 1 =>
      match reasoner.step memory outside with
      | (.error failure, reasoner, memory) => (.error failure, reasoner, memory)
      | (.ok _, reasoner, memory) => reasoner.run memory outside steps

end Reasoner

end AttentiveReasoner
