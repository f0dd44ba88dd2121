import AttentiveReasoner.Memory.Basic

/-!
Contract: the delivery of new tasks to concepts.

Owns:
- the terms that a task concerns;
- the delivery of a task to the concept of one term;
- processing one waiting task, and all of them.

Does not own: how the waiting task is selected, which is the business of the
buffer.

A task concerns the subject and the predicate of its statement and the statement
itself, in this order; a delivery may push out a concept that was served before.
-/

namespace AttentiveReasoner.Memory

open AttentiveReasoner.Attention
open AttentiveReasoner.Evidence
open AttentiveReasoner.Knowledge
open AttentiveReasoner.Language
open AttentiveReasoner.Numeric

variable [Arithmetic]

/-- The terms that a task with the given content concerns. -/
def targets (content : Term) : List Term :=
  if content.isStatement then content.components ++ [content] else [content]

/-- Deliver a task to the concept of a term. It is lost if the concept cannot
become resident. -/
def deliver
    (memory : Memory)
    (outside : Held)
    (task : Task)
    (term : Term) :
    Memory :=
  match memory.activate outside term task.budget with
  | (false, memory) => memory
  | (true, memory) =>
      let receive (concept : Concept) : Concept × List Notice × Unit :=
        let accepted := concept.accept task
        (accepted.1, accepted.2.2, ())
      (memory.editConcept term.name receive).2

/-- Take a task out of the buffer and deliver it to all whom it concerns; tells
whether there was one. -/
def processNewTask (memory : Memory) (outside : Held) : Bool × Memory :=
  match memory.newTasks.takeOut with
  | (none, newTasks) => (false, { memory with newTasks := newTasks })
  | (some task, newTasks) =>
      let outside := outside.withTerms [task.content]
      (true,
        (targets task.content).foldl
          (fun memory term => memory.deliver outside task term)
          { memory with newTasks := newTasks })

/-- Process waiting tasks until none is left, at most `limit` of them; tells how
many were processed. -/
def processUpTo (memory : Memory) (outside : Held) : (limit : Nat) → Nat × Memory
  | 0 => (0, memory)
  | limit + 1 =>
      match memory.processNewTask outside with
      | (false, memory) => (0, memory)
      | (true, memory) =>
          let rest := memory.processUpTo outside limit
          (rest.1 + 1, rest.2)

/-- Process all waiting tasks. Deliveries add none, so there are no more than wait
at the start. -/
def processAll (memory : Memory) (outside : Held) : Nat × Memory :=
  memory.processUpTo outside (memory.pendingTasks + 1)

end AttentiveReasoner.Memory
