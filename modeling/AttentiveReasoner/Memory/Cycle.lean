import AttentiveReasoner.Inference.Rule
import AttentiveReasoner.Memory.Delivery

/-!
Contract: the cycle of a memory.

Owns:
- firing a selected concept with one of its tasks;
- a full cycle, and what it reports.

Does not own: the rule. Whatever the rule does, the task and the concept return to
their bags, with forgetting, before a failure is passed on or the derived tasks
are put in.
-/

namespace AttentiveReasoner

open AttentiveReasoner.Attention
open AttentiveReasoner.Evidence
open AttentiveReasoner.Inference
open AttentiveReasoner.Knowledge
open AttentiveReasoner.Language
open AttentiveReasoner.Numeric

/-- What came of firing a concept: whether there was one, how many tasks were
derived, and how many concepts left the memory. -/
structure Firing where
  fired : Bool := false
  derived : Nat := 0
  forgotten : Nat := 0
deriving DecidableEq, Repr

/-- What came of a cycle. -/
structure CycleReport where
  /-- The number of the cycle; the first one has the number one. -/
  cycle : Nat
  /-- Whether a waiting task was delivered. -/
  processed : Bool
  fired : Bool
  derived : Nat
  forgotten : Nat
deriving DecidableEq, Repr

namespace Memory

variable [Arithmetic]

/-- Apply a rule to a concept, which is out of its bag, and one of its tasks. The
task returns to its bag and the concept is refreshed. A concept without tasks
derives nothing. -/
def applyRule
    (memory : Memory)
    (outside : Held)
    (rule : Rule)
    (concept : Concept) :
    Except Failure (List Task) × Concept × Memory :=
  match concept.takeTask with
  | (none, concept) => (.ok [], concept, memory)
  | (some task, concept) =>
      let applied :=
        rule memory (outside.withTerms (task.content :: concept.contents)) concept task
      let refreshed := (concept.putBackTask task).2.refresh
      (applied.1, refreshed.1, applied.2.tell refreshed.2)

/-- The tasks of a successful inference. -/
def derivedTasks : Except Failure (List Task) → List Task
  | .ok tasks => tasks
  | .error _ => []

/-- Put a concept back into its bag, with forgetting. A concept that leaves is
forgotten; tells how many did. -/
def putBackConcept
    (memory : Memory)
    (outside : Held)
    (concept : Concept) :
    Nat × Memory :=
  let placed := memory.concepts.putBack concept
  let memory := { memory with concepts := placed.bag }.tell placed.notices
  match placed.departed with
  | none => (0, memory)
  | some departed => (1, memory.forgetConcept outside departed)

/-- Put derived tasks into the buffer, in their order. -/
def inputTasks (memory : Memory) (tasks : List Task) : Memory :=
  tasks.foldl (fun memory task => (memory.inputTask task).2) memory

/-- Select a concept and one of its tasks, and apply a rule to them. The derived
tasks go into the buffer. -/
def fireConcept
    (memory : Memory)
    (outside : Held)
    (rule : Rule) :
    Except Failure Firing × Memory :=
  match memory.concepts.takeOut with
  | (none, concepts) => (.ok {}, { memory with concepts := concepts })
  | (some concept, concepts) =>
      let (outcome, concept, memory) :=
        { memory with concepts := concepts }.applyRule outside rule concept
      let tasks := derivedTasks outcome
      let (forgotten, memory) :=
        memory.putBackConcept (outside.withTerms (tasks.map Task.content)) concept
      match outcome with
      | .error failure => (.error failure, memory)
      | .ok tasks =>
          (.ok ⟨true, tasks.length, forgotten⟩, memory.inputTasks tasks)

/-- One cycle: a waiting task is delivered, then a concept is fired. -/
def runCycle
    (memory : Memory)
    (outside : Held)
    (rule : Rule) :
    Except Failure CycleReport × Memory :=
  let cycle := memory.cycles + 1
  let (processed, memory) := { memory with cycles := cycle }.processNewTask outside
  let (outcome, memory) := memory.fireConcept outside rule
  (outcome.map (fun firing =>
      ⟨cycle, processed, firing.fired, firing.derived, firing.forgotten⟩),
    memory)

end Memory

end AttentiveReasoner
