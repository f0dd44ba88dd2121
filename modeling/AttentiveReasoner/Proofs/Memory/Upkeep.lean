import AttentiveReasoner.Proofs.Knowledge.Upkeep
import AttentiveReasoner.Proofs.Memory.Activity

/-!
Contract: memories in order, along every run.

Owns:
- memories whose bags are within their sizes and whose budgets have a lasting property;
- that every operation keeps a memory in order when it is given such budgets;
- that every run with any rules does, as far as the bounds are concerned;
- that every run of a caller does who gives corrected budgets.

Does not own: the registry, and what the property of budgets is good for.

A rule may do to the memory what keeps it in order, and derive tasks with such budgets. The
rules known by name do nothing to its bags.
-/

namespace AttentiveReasoner

open AttentiveReasoner.Attention
open AttentiveReasoner.Evidence
open AttentiveReasoner.Inference
open AttentiveReasoner.Knowledge
open AttentiveReasoner.Language
open AttentiveReasoner.Numeric

variable [Arithmetic]

namespace Memory

/-- A memory within its bounds, all of whose budgets have a property. -/
structure InOrder (parameters : Parameters) (admits : Budget → Prop) (memory : Memory) : Prop where
  parameters_eq : memory.parameters = parameters
  concepts : memory.concepts.Sound parameters.conceptBagSize
  newTasks : memory.newTasks.Sound parameters.taskBufferSize
  resident : ∀ concept ∈ memory.concepts.items, concept.InOrder parameters admits
  waiting : ∀ task ∈ memory.newTasks.items, admits task.budget

variable {parameters : Parameters} {symbols : Symbols} {admits : Budget → Prop}
  {memory start : Memory} {outside : Held} {concept : Concept} {task : Task} {rule : Rule}

theorem empty_inOrder (parameters : Parameters) (symbols : Symbols) :
    (empty parameters symbols).InOrder parameters admits where
  parameters_eq := rfl
  concepts := Bag.empty_sound parameters.conceptBagConfig (parameters.draws .concepts)
  newTasks := Bag.empty_sound
    { parameters.bagConfig parameters.taskBufferSize parameters.taskForgettingCycle with
      defaultForgetCycles := parameters.newTaskForgettingCycle }
    (parameters.draws .buffer)
  resident := fun _ member => nomatch member
  waiting := fun _ member => nomatch member

/-- The registry, the clock, the serial numbers and the displays have no budgets. -/
theorem InOrder.of_sameBags {other : Memory} (inOrder : memory.InOrder parameters admits)
    (sameParameters : other.parameters = memory.parameters)
    (sameConcepts : other.concepts = memory.concepts)
    (sameTasks : other.newTasks = memory.newTasks) : other.InOrder parameters admits where
  parameters_eq := sameParameters.trans inOrder.parameters_eq
  concepts := sameConcepts ▸ inOrder.concepts
  newTasks := sameTasks ▸ inOrder.newTasks
  resident := sameConcepts ▸ inOrder.resident
  waiting := sameTasks ▸ inOrder.waiting

/-! ## New tasks -/

theorem InOrder.inputTask (inOrder : memory.InOrder parameters admits)
    (lasting : Budget.Lasting admits) (admitted : admits task.budget) :
    (memory.inputTask task).2.InOrder parameters admits :=
  { inOrder with
    newTasks := inOrder.newTasks.put task
    waiting := fun other member =>
      (stable_budget lasting memory.newTasks.forgetCycles).put inOrder.newTasks.consistent
        inOrder.waiting admitted other (.inl member) }

theorem InOrder.inputTasks {tasks : List Task} (inOrder : memory.InOrder parameters admits)
    (lasting : Budget.Lasting admits) (admitted : ∀ task ∈ tasks, admits task.budget) :
    (memory.inputTasks tasks).InOrder parameters admits := by
  unfold Memory.inputTasks
  induction tasks generalizing memory with
  | nil => exact inOrder
  | cons first rest inductionHypothesis =>
      refine inductionHypothesis
        (inOrder.inputTask lasting (admitted first List.mem_cons_self)) ?_
      exact fun task member => admitted task (List.mem_cons_of_mem _ member)

theorem concepts_inputTasks (memory : Memory) (tasks : List Task) :
    (memory.inputTasks tasks).concepts = memory.concepts := by
  induction tasks generalizing memory with
  | nil => rfl
  | cons task rest inductionHypothesis => exact inductionHypothesis (memory.inputTask task).2

/-- A task leaves the buffer. -/
theorem InOrder.takeNewTask (inOrder : memory.InOrder parameters admits) :
    (∀ task, memory.newTasks.takeOut.1 = some task → admits task.budget) ∧
      ({ memory with newTasks := memory.newTasks.takeOut.2 } : Memory).InOrder parameters
        admits := by
  obtain ⟨taken, left⟩ :
      (∀ task, memory.newTasks.takeOut.1 = some task → admits task.budget) ∧
        ∀ task ∈ memory.newTasks.takeOut.2.items, admits task.budget :=
    inOrder.newTasks.consistent.takeOut_all inOrder.waiting
  exact ⟨taken, { inOrder with newTasks := inOrder.newTasks.takeOut, waiting := left }⟩

/-! ## Concepts -/

theorem InOrder.editConcept {ρ : Type} {name : String}
    {change : Concept → Concept × List Notice × ρ}
    (inOrder : memory.InOrder parameters admits) (lasting : Budget.Lasting admits)
    (keepsKey : ∀ concept, (change concept).1.key = concept.key)
    (changed : ∀ concept, concept.InOrder parameters admits →
      (change concept).1.InOrder parameters admits) :
    (memory.editConcept name change).2.InOrder parameters admits := by
  rw [editConcept_memory]
  have edited : ({ memory with concepts := (memory.concepts.edit name change).2 } :
      Memory).InOrder parameters admits :=
    { inOrder with
      concepts := inOrder.concepts.edit name change keepsKey
      resident := (Concept.stable_inOrder parameters lasting memory.concepts.forgetCycles).edit
        inOrder.concepts.consistent inOrder.resident
        fun concept holds _ => changed concept holds }
  exact edited.of_sameBags rfl rfl rfl

theorem InOrder.observe (inOrder : memory.InOrder parameters admits)
    (lasting : Budget.Lasting admits) (name : String) (observation : Observation) :
    (memory.editConcept name observation.change).2.InOrder parameters admits := by
  apply inOrder.editConcept lasting
  case keepsKey => cases observation <;> exact fun _ => rfl
  case changed =>
    cases observation <;>
      exact fun concept holds => ⟨holds.tasks, holds.beliefs, holds.budget, holds.taskBudgets⟩

omit [Arithmetic] in
/-- Placing a concept concerns the concepts, and the registry if one leaves. -/
theorem afterPlacing_keeps (memory : Memory) (outside : Held)
    (placement : Placement Concept Notice) :
    let after := memory.afterPlacing outside placement
    after.concepts = placement.bag ∧
      (placement.departed = none → after.registry = memory.registry) ∧
      after.parameters = memory.parameters ∧ after.newTasks = memory.newTasks ∧
      after.lastSerial = memory.lastSerial ∧ after.cycles = memory.cycles := by
  unfold afterPlacing
  cases placement.departed with
  | none => exact ⟨rfl, fun _ => rfl, rfl, rfl, rfl, rfl⟩
  | some gone => exact ⟨rfl, nofun, rfl, rfl, rfl, rfl⟩

/-- Whoever leaves when a concept is placed, the others stay in order. -/
theorem InOrder.afterPlacing {placement : Placement Concept Notice}
    (inOrder : memory.InOrder parameters admits)
    (sound : placement.bag.Sound parameters.conceptBagSize)
    (resident : ∀ concept ∈ placement.bag.items, concept.InOrder parameters admits) :
    (memory.afterPlacing outside placement).InOrder parameters admits := by
  have placed : ({ memory with concepts := placement.bag } : Memory).InOrder parameters admits :=
    { inOrder with concepts := sound, resident := resident }
  obtain ⟨sameConcepts, _, sameParameters, sameTasks, _⟩ :=
    afterPlacing_keeps memory outside placement
  exact placed.of_sameBags sameParameters sameConcepts sameTasks

theorem InOrder.putConcept (inOrder : memory.InOrder parameters admits)
    (lasting : Budget.Lasting admits) (conceptInOrder : concept.InOrder parameters admits) :
    (memory.afterPlacing outside (memory.concepts.put concept)).InOrder parameters admits := by
  refine inOrder.afterPlacing (inOrder.concepts.put concept) ?_
  intro other member
  exact (Concept.stable_inOrder parameters lasting memory.concepts.forgetCycles).put
    inOrder.concepts.consistent inOrder.resident conceptInOrder other (.inl member)

theorem InOrder.putBackConcept (inOrder : memory.InOrder parameters admits)
    (lasting : Budget.Lasting admits) (conceptInOrder : concept.InOrder parameters admits) :
    (memory.putBackConcept outside concept).2.InOrder parameters admits := by
  rw [putBackConcept_memory]
  refine inOrder.afterPlacing (inOrder.concepts.putBack concept) ?_
  intro other member
  exact (Concept.stable_inOrder parameters lasting memory.concepts.forgetCycles).putBack
    inOrder.concepts.consistent inOrder.resident conceptInOrder other (.inl member)

theorem InOrder.reinforce (inOrder : memory.InOrder parameters admits)
    (lasting : Budget.Lasting admits) {budget : Budget} (admitted : admits budget)
    (name : String) :
    (memory.editConcept name (Memory.reinforce budget)).2.InOrder parameters admits :=
  inOrder.editConcept lasting (fun _ => rfl) fun _ holds =>
    (holds.withBudget (lasting.merged _ _ holds.budget admitted)).refresh

theorem InOrder.receive (inOrder : memory.InOrder parameters admits)
    (lasting : Budget.Lasting admits) (admitted : admits task.budget) (name : String) :
    (memory.editConcept name (Memory.receive task)).2.InOrder parameters admits :=
  inOrder.editConcept lasting (fun _ => rfl) fun _ holds => holds.accept lasting admitted

theorem InOrder.newcomer (inOrder : memory.InOrder parameters admits) {budget : Budget}
    (admitted : admits budget) (term : Term) :
    (memory.newcomer term budget).InOrder parameters admits := by
  rw [Memory.newcomer, inOrder.parameters_eq]
  exact Concept.create_inOrder term admitted

theorem InOrder.activate (inOrder : memory.InOrder parameters admits)
    (lasting : Budget.Lasting admits) {budget : Budget} (admitted : admits budget)
    (outside : Held) (term : Term) :
    (memory.activate outside term budget).2.InOrder parameters admits := by
  rcases activate_cases memory outside term budget with
    ⟨_, reinforced⟩ | ⟨_, entered⟩
  · rw [reinforced]
    exact inOrder.reinforce lasting admitted term.name
  · rw [entered]
    exact inOrder.putConcept lasting (inOrder.newcomer admitted term)

/-! ## Delivery -/

theorem InOrder.deliver (inOrder : memory.InOrder parameters admits)
    (lasting : Budget.Lasting admits) (admitted : admits task.budget) (outside : Held)
    (term : Term) : (memory.deliver outside task term).InOrder parameters admits := by
  have activated := inOrder.activate lasting admitted outside term
  rcases deliver_cases memory outside task term with rejected | received
  · rw [rejected]
    exact activated
  · rw [received]
    exact activated.receive lasting admitted term.name

theorem InOrder.deliverAll (inOrder : memory.InOrder parameters admits)
    (lasting : Budget.Lasting admits) (admitted : admits task.budget) (outside : Held)
    (terms : List Term) :
    (terms.foldl (fun memory term => memory.deliver outside task term) memory).InOrder
      parameters admits := by
  induction terms generalizing memory with
  | nil => exact inOrder
  | cons term rest inductionHypothesis =>
      exact inductionHypothesis (inOrder.deliver lasting admitted outside term)

theorem InOrder.processNewTask (inOrder : memory.InOrder parameters admits)
    (lasting : Budget.Lasting admits) (outside : Held) :
    (memory.processNewTask outside).2.InOrder parameters admits := by
  obtain ⟨taken, left⟩ := inOrder.takeNewTask
  rcases processNewTask_cases memory outside with ⟨_, result⟩ | ⟨task, isTaken, result⟩
  · rw [result]
    exact left
  · rw [result]
    exact left.deliverAll lasting (taken task isTaken) (outside.withTerms [task.content])
      (targets task.content)

/-! ## Firing -/

/-- A concept leaves its bag. -/
theorem InOrder.takeConcept (inOrder : memory.InOrder parameters admits) :
    (∀ concept, memory.concepts.takeOut.1 = some concept →
        concept.InOrder parameters admits) ∧
      ({ memory with concepts := memory.concepts.takeOut.2 } : Memory).InOrder parameters
        admits := by
  obtain ⟨taken, left⟩ := inOrder.concepts.consistent.takeOut_all inOrder.resident
  exact ⟨taken, { inOrder with concepts := inOrder.concepts.takeOut, resident := left }⟩

/-- A rule that leaves memories in order, and derives tasks with budgets that have the
property. -/
def RuleInOrder (parameters : Parameters) (admits : Budget → Prop) (rule : Rule) : Prop :=
  ∀ memory outside concept task, memory.InOrder parameters admits → admits task.budget →
    (rule memory outside concept task).2.InOrder parameters admits ∧
      ∀ derived ∈ derivedTasks (rule memory outside concept task).1, admits derived.budget

theorem InOrder.applyRule (inOrder : memory.InOrder parameters admits)
    (lasting : Budget.Lasting admits) (conceptInOrder : concept.InOrder parameters admits)
    (ruleInOrder : RuleInOrder parameters admits rule) (outside : Held) :
    (memory.applyRule outside rule concept).2.2.InOrder parameters admits ∧
      (memory.applyRule outside rule concept).2.1.InOrder parameters admits ∧
      ∀ task ∈ derivedTasks (memory.applyRule outside rule concept).1, admits task.budget := by
  obtain ⟨taken, left⟩ := conceptInOrder.takeTask
  rcases applyRule_cases memory outside rule concept with ⟨_, nothing⟩ |
    ⟨task, isTaken, applied, isApplied, result⟩
  · rw [nothing]
    exact ⟨inOrder, left, fun _ member => nomatch member⟩
  · have admitted := taken task isTaken
    have after := ruleInOrder memory
      (outside.withTerms (task.content :: concept.takeTask.2.contents)) concept.takeTask.2 task
      inOrder admitted
    rw [← isApplied] at after
    rw [result]
    exact ⟨after.1.of_sameBags rfl rfl rfl, (left.putBackTask lasting admitted).refresh, after.2⟩

theorem InOrder.fireConcept (inOrder : memory.InOrder parameters admits)
    (lasting : Budget.Lasting admits) (ruleInOrder : RuleInOrder parameters admits rule)
    (outside : Held) : (memory.fireConcept outside rule).2.InOrder parameters admits := by
  obtain ⟨taken, left⟩ := inOrder.takeConcept
  rcases fireConcept_cases memory outside rule with ⟨_, nothing⟩ |
    ⟨concept, isTaken, applied, back, isApplied, isBack, cases⟩
  · rw [nothing]
    exact left
  · obtain ⟨appliedInOrder, conceptInOrder, derived⟩ :=
      left.applyRule lasting (taken concept isTaken) ruleInOrder outside
    rw [← isApplied] at appliedInOrder conceptInOrder derived
    have returned : back.2.InOrder parameters admits := by
      rw [isBack]
      exact appliedInOrder.putBackConcept lasting conceptInOrder
    rcases cases with ⟨failure, _, result⟩ | ⟨tasks, succeeded, result⟩
    · rw [result]
      exact returned
    · rw [result]
      rw [succeeded] at derived
      exact returned.inputTasks lasting derived

/-- The memory in the middle of a cycle: a waiting task has been delivered, and no concept has
been fired yet. -/
def midCycle (memory : Memory) (outside : Held) : Memory :=
  (({ memory with cycles := memory.cycles + 1 } : Memory).processNewTask outside).2

/-- A cycle returns what came of firing in its middle. -/
theorem runCycle_of_midCycle (memory : Memory) (outside : Held) (rule : Rule) :
    memory.runCycle outside rule =
      (((memory.midCycle outside).fireConcept outside rule).1.map (fun firing =>
          ⟨memory.cycles + 1,
            (({ memory with cycles := memory.cycles + 1 } : Memory).processNewTask outside).1,
            firing.fired, firing.derived, firing.forgotten⟩),
        ((memory.midCycle outside).fireConcept outside rule).2) :=
  rfl

theorem InOrder.midCycle (inOrder : memory.InOrder parameters admits)
    (lasting : Budget.Lasting admits) (outside : Held) :
    (memory.midCycle outside).InOrder parameters admits := by
  have begun : ({ memory with cycles := memory.cycles + 1 } : Memory).InOrder parameters admits :=
    inOrder.of_sameBags rfl rfl rfl
  exact begun.processNewTask lasting outside

theorem InOrder.runCycle (inOrder : memory.InOrder parameters admits)
    (lasting : Budget.Lasting admits) (ruleInOrder : RuleInOrder parameters admits rule)
    (outside : Held) : (memory.runCycle outside rule).2.InOrder parameters admits :=
  (inOrder.midCycle lasting outside).fireConcept lasting ruleInOrder outside

/-! ## Runs with any rules -/

/-- Every run keeps the bounds. -/
theorem Leads.inOrder {mayFire : Prop} (led : Leads mayFire start memory)
    (inOrder : start.InOrder parameters (fun _ => True)) :
    memory.InOrder parameters (fun _ => True) := by
  induction led with
  | here memory => exact inOrder
  | aside led registry lastSerial cycles inductionHypothesis =>
      exact (inductionHypothesis inOrder).of_sameBags rfl rfl rfl
  | inputTask led task inductionHypothesis =>
      exact (inductionHypothesis inOrder).inputTask Budget.lasting_true trivial
  | activate led outside term budget inductionHypothesis =>
      exact (inductionHypothesis inOrder).activate Budget.lasting_true trivial outside term
  | processNewTask led outside inductionHypothesis =>
      exact (inductionHypothesis inOrder).processNewTask Budget.lasting_true outside
  | fireConcept led fires outside rule leads inductionHypothesis ruleHypothesis =>
      refine (inductionHypothesis inOrder).fireConcept Budget.lasting_true ?_ outside
      exact fun memory outside concept task given _ =>
        ⟨ruleHypothesis memory outside concept task given, fun _ _ => trivial⟩
  | observe led name observation inductionHypothesis =>
      exact (inductionHypothesis inOrder).observe Budget.lasting_true name observation

/-- Whatever led to a memory, it is within its bounds. -/
theorem Leads.withinBounds {mayFire : Prop}
    (led : Leads mayFire (empty parameters symbols) memory) :
    memory.InOrder parameters (fun _ => True) :=
  led.inOrder (empty_inOrder parameters symbols)

/-- A rule that leads memories on leaves them within their bounds. -/
theorem leads_ruleInOrder {mayFire : Prop} (leads : ∀ memory outside concept task,
    Leads mayFire memory (rule memory outside concept task).2) :
    RuleInOrder parameters (fun _ => True) rule :=
  fun memory outside concept task inOrder _ =>
    ⟨(leads memory outside concept task).inOrder inOrder, fun _ _ => trivial⟩

end Memory

end AttentiveReasoner
