import AttentiveReasoner.Proofs.Attention.Budgets
import AttentiveReasoner.Proofs.Knowledge.Concepts

/-!
Contract: concepts in order.

Owns:
- tasks and concepts all of whose budgets have a lasting property;
- that such a concept, with tasks and beliefs within their bounds, stays one whatever is done
  to it.

Does not own: what a concept knows, and what it knows it about.

The property of budgets is arbitrary as long as it lasts. With the property that always holds,
the laws below are about the bounds alone.
-/

namespace AttentiveReasoner.Knowledge

open AttentiveReasoner.Attention
open AttentiveReasoner.Evidence
open AttentiveReasoner.Language
open AttentiveReasoner.Numeric

variable [Arithmetic]

variable {admits : Budget → Prop} {cycles : Nat}

/-- The budgets of tasks change in a bag as lasting properties allow. -/
theorem stable_budget (lasting : Budget.Lasting admits) (cycles : Nat) :
    Bag.Stable cycles (fun task : Task => admits task.budget) where
  placed := fun task clock admitted => lasting.placed task.budget clock admitted
  merged := fun _ _ admitted otherAdmitted _ => lasting.merged _ _ admitted otherAdmitted
  faded := fun task clock admitted => lasting.faded task.budget cycles clock admitted

namespace Concept

/-- A concept within its bounds, all of whose budgets have a property. -/
structure InOrder (parameters : Parameters) (admits : Budget → Prop) (concept : Concept) :
    Prop where
  tasks : concept.tasks.Sound parameters.taskLinkBagSize
  beliefs : concept.beliefs.Sound parameters.beliefTableSize
  budget : admits concept.budget
  taskBudgets : ∀ task ∈ concept.tasks.items, admits task.budget

variable {parameters : Parameters} {concept other : Concept} {task : Task} {budget : Budget}

theorem create_inOrder {serial : Nat} (term : Term) (admitted : admits budget) :
    (create term budget parameters serial).InOrder parameters admits where
  tasks := (create_sound term budget parameters serial).tasks
  beliefs := (create_sound term budget parameters serial).beliefs
  budget := admitted
  taskBudgets := fun _ member => nomatch member

theorem InOrder.withBudget (inOrder : concept.InOrder parameters admits)
    (admitted : admits budget) :
    ({ concept with budget := budget } : Concept).InOrder parameters admits :=
  { inOrder with budget := admitted }

theorem InOrder.refresh (inOrder : concept.InOrder parameters admits) :
    concept.refresh.1.InOrder parameters admits :=
  ⟨inOrder.tasks, inOrder.beliefs, inOrder.budget, inOrder.taskBudgets⟩

theorem InOrder.accept (inOrder : concept.InOrder parameters admits)
    (lasting : Budget.Lasting admits) (admitted : admits task.budget) :
    (concept.accept task).1.InOrder parameters admits where
  tasks := inOrder.tasks.put task
  beliefs := accept_beliefs_sound inOrder.beliefs
  budget := by
    simp only [Concept.accept, Concept.refresh]
    split
    · exact lasting.reprioritized _ _ inOrder.budget
    · exact inOrder.budget
  taskBudgets := fun other member =>
    (stable_budget lasting concept.tasks.forgetCycles).put inOrder.tasks.consistent
      inOrder.taskBudgets admitted other (.inl member)

/-- A task is taken out. -/
theorem InOrder.takeTask (inOrder : concept.InOrder parameters admits) :
    (∀ task, concept.takeTask.1 = some task → admits task.budget) ∧
      concept.takeTask.2.InOrder parameters admits := by
  obtain ⟨taken, left⟩ :
      (∀ task, concept.tasks.takeOut.1 = some task → admits task.budget) ∧
        ∀ task ∈ concept.tasks.takeOut.2.items, admits task.budget :=
    inOrder.tasks.consistent.takeOut_all inOrder.taskBudgets
  exact ⟨taken, inOrder.tasks.takeOut, inOrder.beliefs, inOrder.budget, left⟩

theorem InOrder.putBackTask (inOrder : concept.InOrder parameters admits)
    (lasting : Budget.Lasting admits) (admitted : admits task.budget) :
    (concept.putBackTask task).2.InOrder parameters admits where
  tasks := inOrder.tasks.putBack task
  beliefs := inOrder.beliefs
  budget := inOrder.budget
  taskBudgets := fun other member =>
    (stable_budget lasting concept.tasks.forgetCycles).putBack inOrder.tasks.consistent
      inOrder.taskBudgets admitted other (.inl member)

theorem InOrder.absorb (inOrder : concept.InOrder parameters admits)
    (lasting : Budget.Lasting admits) (otherInOrder : other.InOrder parameters admits) :
    (concept.absorb other).1.InOrder parameters admits where
  tasks := putAll_sound inOrder.tasks
  beliefs := by
    refine inOrder.beliefs.addAll ?_
    exact fun sentence member =>
      otherInOrder.beliefs.judgment sentence (List.mem_reverse.mp member)
  budget := inOrder.budget
  taskBudgets := putAll_all (stable_budget lasting) inOrder.tasks inOrder.taskBudgets
    otherInOrder.taskBudgets

/-- A bag of concepts keeps them in order. -/
theorem stable_inOrder (parameters : Parameters) (lasting : Budget.Lasting admits)
    (cycles : Nat) : Bag.Stable cycles (InOrder parameters admits) where
  placed := fun concept clock inOrder =>
    inOrder.withBudget (lasting.placed concept.budget clock inOrder.budget)
  merged := fun _ _ inOrder otherInOrder _ =>
    (inOrder.withBudget (lasting.merged _ _ inOrder.budget otherInOrder.budget)).absorb lasting
      otherInOrder
  faded := fun concept clock inOrder =>
    inOrder.withBudget (lasting.faded concept.budget cycles clock inOrder.budget)

end Concept

end AttentiveReasoner.Knowledge
