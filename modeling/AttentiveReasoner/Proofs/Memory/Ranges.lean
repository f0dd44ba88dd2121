import AttentiveReasoner.Proofs.Inference.Chaining
import AttentiveReasoner.Proofs.Memory.Upkeep

/-!
Contract: the ranges of all budgets of a memory.

Owns:
- that known rules leave a memory in order;
- that every run of a caller does who gives corrected budgets;
- that then every budget is in range: of waiting tasks, of concepts, of their tasks, and of
  what chaining derives.

Does not own: budgets that were taken over as they are.

All of this holds of runs by any arithmetic. There are two ways for a product or a power into a
budget, as the new priority of a budget or as a part of a corrected one, and in range is what
comes out, whatever the number is. Products also decide who queues in which level, and with it
who is selected; the ranges do not depend on that.
-/

namespace AttentiveReasoner

open AttentiveReasoner.Attention
open AttentiveReasoner.Evidence
open AttentiveReasoner.Inference
open AttentiveReasoner.Knowledge
open AttentiveReasoner.Language
open AttentiveReasoner.Numeric

section AnyArithmetic

variable [Arithmetic]

/-- An action whose budget, if it gives one, is a corrected one. -/
def Action.IsCorrected : Action → Prop
  | .inputTask _ _ _ budget _ | .activate _ budget =>
      ∃ priority durability quality, budget = .corrected priority durability quality
  | _ => True

namespace Memory

/-- All budgets of a memory are in range. -/
structure Ranged (memory : Memory) : Prop where
  waiting : ∀ task ∈ memory.newTasks.items, task.budget.InRange
  concepts : ∀ concept ∈ memory.concepts.items, concept.budget.InRange
  tasks : ∀ concept ∈ memory.concepts.items, ∀ task ∈ concept.tasks.items,
    task.budget.InRange

variable {parameters : Parameters} {symbols : Symbols} {admits : Budget → Prop}
  {memory : Memory}

theorem InOrder.ranged (inOrder : memory.InOrder parameters Budget.InRange) :
    memory.Ranged where
  waiting := inOrder.waiting
  concepts := fun concept member => (inOrder.resident concept member).budget
  tasks := fun concept member => (inOrder.resident concept member).taskBudgets

/-- Bounds and ranges together. -/
theorem Ranged.inOrder (ranged : memory.Ranged)
    (inOrder : memory.InOrder parameters (fun _ => True)) :
    memory.InOrder parameters Budget.InRange where
  parameters_eq := inOrder.parameters_eq
  concepts := inOrder.concepts
  newTasks := inOrder.newTasks
  resident := fun concept member =>
    { inOrder.resident concept member with
      budget := ranged.concepts concept member
      taskBudgets := ranged.tasks concept member }
  waiting := ranged.waiting

/-- A known rule touches no bag, and gives its conclusions corrected budgets. -/
theorem knownRule_inOrder (corrects : ∀ priority durability quality,
    admits (.corrected priority durability quality)) (rule : KnownRule) :
    RuleInOrder parameters admits rule.rule := by
  intro memory outside concept task inOrder _
  rcases rule.known memory outside concept task with nothing | ⟨decay, chains⟩ | ⟨failure, fails⟩
  · rw [nothing]
    exact ⟨inOrder, fun _ member => nomatch member⟩
  · obtain ⟨⟨registry, result⟩, budgets⟩ := chaining_budgets decay memory outside concept task
    rw [chains]
    refine ⟨?_, ?_⟩
    · rw [result]
      exact inOrder.of_sameBags rfl rfl rfl
    · intro derived isDerived
      rw [budgets derived isDerived]
      exact corrects _ _ _
  · rw [fails]
    exact ⟨inOrder, fun _ member => nomatch member⟩

end Memory

namespace Exchange

variable {parameters : Parameters} {admits : Budget → Prop} {exchange : Exchange}

theorem perform_inOrder (lasting : Budget.Lasting admits)
    (corrects : ∀ priority durability quality, admits (.corrected priority durability quality))
    (inOrder : exchange.memory.InOrder parameters admits) {action : Action}
    (corrected : action.IsCorrected) :
    (exchange.perform action).memory.InOrder parameters admits := by
  cases action with
  | build request => exact inOrder.of_sameBags rfl rfl rfl
  | newTask place punctuation =>
      simp only [perform]
      split
      · exact inOrder.of_sameBags rfl rfl rfl
      · exact inOrder
  | inputTask place punctuation stamp budget origin =>
      obtain ⟨priority, durability, quality, rfl⟩ := corrected
      simp only [perform]
      split
      · exact inOrder.inputTask lasting (corrects priority durability quality)
      · exact inOrder
  | activate place budget =>
      obtain ⟨priority, durability, quality, rfl⟩ := corrected
      simp only [perform]
      split
      · exact inOrder.activate lasting (corrects priority durability quality) _ _
      · exact inOrder
  | processNewTask => exact inOrder.processNewTask lasting _
  | fire rule => exact inOrder.fireConcept lasting (Memory.knownRule_inOrder corrects rule) _
  | cycle rule => exact inOrder.runCycle lasting (Memory.knownRule_inOrder corrects rule) _

theorem run_inOrder (lasting : Budget.Lasting admits)
    (corrects : ∀ priority durability quality, admits (.corrected priority durability quality))
    (inOrder : exchange.memory.InOrder parameters admits) {actions : List Action}
    (corrected : ∀ action ∈ actions, action.IsCorrected) :
    (exchange.run actions).memory.InOrder parameters admits := by
  induction actions generalizing exchange with
  | nil => exact inOrder
  | cons action rest inductionHypothesis =>
      refine inductionHypothesis
        (perform_inOrder lasting corrects inOrder (corrected action List.mem_cons_self)) ?_
      exact fun other member => corrected other (List.mem_cons_of_mem _ member)

/-- Of a caller who gives corrected budgets, the memory has all budgets in range. -/
theorem of_ranged (parameters : Parameters) (symbols : Symbols) {actions : List Action}
    (corrected : ∀ action ∈ actions, action.IsCorrected) :
    (of parameters symbols actions).memory.Ranged := by
  have started : (start parameters symbols).memory.InOrder parameters Budget.InRange :=
    Memory.empty_inOrder parameters symbols
  exact (run_inOrder Budget.lasting_inRange Budget.corrected_inRange started corrected).ranged

end Exchange

end AnyArithmetic

namespace Exchange

/-- Whatever numbers products and powers are: after every run with corrected budgets, every budget
of the memory is in range, and so are those of the tasks that the memory makes and that chaining
derives, by any factor. -/
theorem budgets_inRange [Arithmetic] (parameters : Parameters) (symbols : Symbols)
    (actions : List Action) (corrected : ∀ action ∈ actions, action.IsCorrected) :
    let memory := (of parameters symbols actions).memory
    memory.Ranged ∧
      (∀ content punctuation, (memory.newTask content punctuation).1.budget.InRange) ∧
      ∀ decay outside concept task,
        ∀ derived ∈ Memory.derivedTasks (chaining decay memory outside concept task).1,
          derived.budget.InRange := by
  intro memory
  refine ⟨of_ranged parameters symbols corrected, ?_, ?_⟩
  · intro content punctuation
    cases punctuation <;> exact Budget.corrected_inRange _ _ _
  · intro decay outside concept task derived isDerived
    rw [(chaining_budgets decay memory outside concept task).2 derived isDerived]
    exact Budget.corrected_inRange _ _ _

/-- The actions that tell a memory of `<a --> b>` and of `<b --> c>`, with numbers out of all
ranges, and have it chain by a factor that is not a number. -/
def strayActions [Arithmetic] : List Action :=
  [.build (.word "a"), .build (.word "b"), .build (.word "c"),
    .build (.statement .inheritance 0 1), .build (.statement .inheritance 1 2),
    .inputTask 3 .judgment (.input 1 0)
      (.corrected Single.notANumber (Single.ofNat 2) (Single.ofNat 3)) .input,
    .inputTask 4 .judgment (.input 2 0) .standard .input,
    .activate 1 (.corrected (Single.ofNat 7) Single.notANumber Single.notANumber),
    .processNewTask, .processNewTask, .fire (.ofDecay Single.notANumber)]

theorem strayActions_corrected [Arithmetic] : ∀ action ∈ strayActions, action.IsCorrected := by
  simp only [strayActions, List.forall_mem_cons]
  exact ⟨trivial, trivial, trivial, trivial, trivial, ⟨_, _, _, rfl⟩, ⟨_, _, _, rfl⟩,
    ⟨_, _, _, rfl⟩, trivial, trivial, trivial, fun _ member => nomatch member⟩

/-- A product above all ranges, and a power that is not a number. -/
abbrev strayArithmetic : Arithmetic where
  product := fun _ _ => Single.ofNat 2
  power := fun _ _ => Single.notANumber

/-- By the arithmetic that runs, the conclusion has been drawn and waits. By that and by the stray
one, every budget is in range. -/
theorem stray_budgets_inRange :
    (∀ action ∈ strayActions, action.IsCorrected) ∧
      (of { seed := some 0 } .usual strayActions).memory.newTasks.keys = ["<a --> c>."] ∧
      (of { seed := some 0 } .usual strayActions).memory.Ranged ∧
      (@of strayArithmetic {} .usual (@strayActions strayArithmetic)).memory.Ranged :=
  ⟨strayActions_corrected, by decide +kernel,
    (budgets_inRange { seed := some 0 } .usual strayActions strayActions_corrected).1,
    (@budgets_inRange strayArithmetic {} .usual _ (@strayActions_corrected strayArithmetic)).1⟩

end Exchange

end AttentiveReasoner
