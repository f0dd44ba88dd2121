import AttentiveReasoner.Memory.Cycle
import AttentiveReasoner.Proofs.Attention.Bag.Lookup
import AttentiveReasoner.Proofs.Knowledge.Concepts

/-!
Contract: what the operations of a memory come to, and what it holds afterwards.

Owns:
- activation, delivery, firing and cycles, case by case;
- the soundness of a memory all of whose terms are of a kind: its bags keep within their
  sizes, its concepts are sound;
- that every operation other than the application of a rule keeps it, when it is given
  terms of the kind.

Does not own: the registry, and what is held outside of the memory.

The kind of terms is arbitrary. With the parts of given terms as the kind, the laws below
say that no operation comes by a term that it was not given.
-/

namespace AttentiveReasoner.Memory

open AttentiveReasoner.Attention
open AttentiveReasoner.Evidence
open AttentiveReasoner.Inference
open AttentiveReasoner.Knowledge
open AttentiveReasoner.Language
open AttentiveReasoner.Numeric

variable [Arithmetic]

/-- A memory made with the given parameters, within its bounds, all of whose terms are of a
kind. -/
structure Holds (parameters : Parameters) (good : Term → Prop) (memory : Memory) : Prop where
  parameters_eq : memory.parameters = parameters
  concepts : memory.concepts.Sound parameters.conceptBagSize
  newTasks : memory.newTasks.Sound parameters.taskBufferSize
  resident : ∀ concept ∈ memory.concepts.items, concept.Holds parameters good
  waiting : ∀ task ∈ memory.newTasks.items, good task.content

variable {parameters : Parameters} {good : Term → Prop} {memory : Memory} {outside : Held}

/-! ## Contents -/

omit [Arithmetic] in
theorem forall_mem_contents :
    (∀ term ∈ memory.contents, good term) ↔
      (∀ concept ∈ memory.concepts.items, ∀ term ∈ concept.contents, good term) ∧
        ∀ task ∈ memory.newTasks.items, good task.content := by
  simp only [contents, TaskBag.contents, List.forall_mem_append, List.forall_mem_flatMap,
    List.forall_mem_map]

theorem Holds.contents (holds : memory.Holds parameters good) :
    ∀ term ∈ memory.contents, good term :=
  forall_mem_contents.mpr
    ⟨fun concept member => (holds.resident concept member).contents, holds.waiting⟩

/-- What all terms of a memory are is a kind of its terms. -/
theorem Holds.of_contents {other : Term → Prop} (holds : memory.Holds parameters good)
    (all : ∀ term ∈ memory.contents, other term) : memory.Holds parameters other := by
  obtain ⟨residentOther, waitingOther⟩ := forall_mem_contents.mp all
  refine ⟨holds.parameters_eq, holds.concepts, holds.newTasks, ?_, waitingOther⟩
  intro concept member
  have terms := residentOther concept member
  exact
    { sound := (holds.resident concept member).sound
      term := terms concept.term List.mem_cons_self
      matters := fun content isMatter => terms content (List.mem_cons_of_mem _ isMatter) }

theorem empty_holds (parameters : Parameters) (symbols : Symbols) :
    (empty parameters symbols).Holds parameters good where
  parameters_eq := rfl
  concepts := Bag.empty_sound parameters.conceptBagConfig (parameters.draws .concepts)
  newTasks := Bag.empty_sound
    { parameters.bagConfig parameters.taskBufferSize parameters.taskForgettingCycle with
      defaultForgetCycles := parameters.newTaskForgettingCycle }
    (parameters.draws .buffer)
  resident := fun _ member => nomatch member
  waiting := fun _ member => nomatch member

/-- The registry, the clock, the serial numbers and the displays hold nothing. -/
theorem Holds.of_sameBags {other : Memory} (holds : memory.Holds parameters good)
    (sameParameters : other.parameters = memory.parameters)
    (sameConcepts : other.concepts = memory.concepts)
    (sameTasks : other.newTasks = memory.newTasks) : other.Holds parameters good where
  parameters_eq := sameParameters.trans holds.parameters_eq
  concepts := sameConcepts ▸ holds.concepts
  newTasks := sameTasks ▸ holds.newTasks
  resident := sameConcepts ▸ holds.resident
  waiting := sameTasks ▸ holds.waiting

/-! ## New tasks -/

theorem Holds.inputTask {task : Task} (holds : memory.Holds parameters good)
    (given : good task.content) : (memory.inputTask task).2.Holds parameters good where
  parameters_eq := holds.parameters_eq
  concepts := holds.concepts
  newTasks := holds.newTasks.put task
  resident := holds.resident
  waiting := by
    intro other member
    exact (stable_content memory.newTasks.forgetCycles good).put holds.newTasks.consistent
      holds.waiting given other (.inl member)

/-! ## Operations in parts -/

/-- What activation does to a resident concept. -/
def reinforce (budget : Budget) (concept : Concept) : Concept × List Notice × Unit :=
  let refreshed := ({ concept with budget := concept.budget.merge budget } : Concept).refresh
  (refreshed.1, refreshed.2, ())

/-- What delivery does to a resident concept. -/
def receive (task : Task) (concept : Concept) : Concept × List Notice × Unit :=
  let accepted := concept.accept task
  (accepted.1, accepted.2.2, ())

/-- The memory after a concept was placed in its bag: the observers are told, and a concept
that left is forgotten. -/
def afterPlacing (memory : Memory) (outside : Held) (placement : Placement Concept Notice) :
    Memory :=
  let placed := { memory with concepts := placement.bag }.tell placement.notices
  match placement.departed with
  | none => placed
  | some departed => placed.forgetConcept outside departed

theorem editConcept_memory {ρ : Type} (memory : Memory) (name : String)
    (change : Concept → Concept × List Notice × ρ) :
    (memory.editConcept name change).2 =
      ({ memory with concepts := (memory.concepts.edit name change).2 }.tell
        (((memory.concepts.edit name change).1.map Prod.fst).getD [])) := by
  unfold editConcept
  rcases memory.concepts.edit name change with ⟨_ | told, concepts⟩ <;> rfl

theorem editConcept_absent {ρ : Type} {name : String}
    {change : Concept → Concept × List Notice × ρ}
    (absent : memory.concept? name = none) :
    memory.editConcept name change = (none, memory) := by
  unfold editConcept
  rw [Bag.edit_of_free absent]

theorem editConcept_found {ρ : Type} {name : String} {concept : Concept}
    {change : Concept → Concept × List Notice × ρ}
    (found : memory.concept? name = some concept) :
    (memory.editConcept name change).1 = some (change concept).2.2 := by
  have told : (memory.concepts.edit name change).1 = some (change concept).2 :=
    (Bag.find?_edit found).1
  unfold editConcept
  rcases edited : memory.concepts.edit name change with ⟨_ | notices, concepts⟩
  · rw [edited] at told
    contradiction
  · rw [edited] at told
    exact congrArg (Option.map Prod.snd) told

variable {term : Term}

/-- Activation reinforces the resident concept. -/
theorem activate_of_resident {concept : Concept}
    (found : memory.concept? term.name = some concept) (outside : Held) (budget : Budget) :
    memory.activate outside term budget =
      (true, (memory.editConcept term.name (reinforce budget)).2) := by
  have isReinforce : (fun concept : Concept =>
      (({ concept with budget := concept.budget.merge budget } : Concept).refresh.1,
        ({ concept with budget := concept.budget.merge budget } : Concept).refresh.2, ())) =
      reinforce budget := rfl
  have result : (memory.editConcept term.name (reinforce budget)).1 = some () :=
    editConcept_found found
  simp only [activate, isReinforce]
  rcases edited : memory.editConcept term.name (reinforce budget) with ⟨_ | _, after⟩
  · rw [edited] at result
    contradiction
  · rfl

/-- A new concept is put in. The answer is whether whoever left, if anybody did, is another. -/
theorem activate_of_free (free : memory.concept? term.name = none) (outside : Held)
    (budget : Budget) :
    memory.activate outside term budget =
      ((memory.concepts.put (memory.newcomer term budget)).departed.all
          (fun gone => decide (gone.key ≠ term.name)),
        memory.afterPlacing outside (memory.concepts.put (memory.newcomer term budget))) := by
  have isReinforce : (fun concept : Concept =>
      (({ concept with budget := concept.budget.merge budget } : Concept).refresh.1,
        ({ concept with budget := concept.budget.merge budget } : Concept).refresh.2, ())) =
      reinforce budget := rfl
  simp only [activate, isReinforce, editConcept_absent free, Memory.afterPlacing]
  cases (memory.concepts.put (memory.newcomer term budget)).departed <;> rfl

theorem activate_cases (memory : Memory) (outside : Held) (term : Term) (budget : Budget) :
    ((∃ concept, memory.concept? term.name = some concept) ∧
        memory.activate outside term budget =
          (true, (memory.editConcept term.name (reinforce budget)).2)) ∨
      (memory.concept? term.name = none ∧
        (memory.activate outside term budget).2 =
          memory.afterPlacing outside
            (memory.concepts.put (memory.newcomer term budget))) := by
  cases found : memory.concept? term.name with
  | none => exact .inr ⟨rfl, by rw [activate_of_free found]⟩
  | some concept => exact .inl ⟨⟨concept, rfl⟩, activate_of_resident found outside budget⟩

theorem putBackConcept_memory (memory : Memory) (outside : Held) (concept : Concept) :
    (memory.putBackConcept outside concept).2 =
      memory.afterPlacing outside (memory.concepts.putBack concept) := by
  simp only [putBackConcept, afterPlacing]
  cases (memory.concepts.putBack concept).departed <;> rfl

/-- Applying a rule takes a task of the concept out and puts it back. -/
theorem applyRule_cases (memory : Memory) (outside : Held) (rule : Rule) (concept : Concept) :
    (concept.takeTask.1 = none ∧
        memory.applyRule outside rule concept = (.ok [], concept.takeTask.2, memory)) ∨
      ∃ task, concept.takeTask.1 = some task ∧
        ∃ applied, applied =
            rule memory (outside.withTerms (task.content :: concept.takeTask.2.contents))
              concept.takeTask.2 task ∧
          memory.applyRule outside rule concept =
            (applied.1, (concept.takeTask.2.putBackTask task).2.refresh.1,
              applied.2.tell (concept.takeTask.2.putBackTask task).2.refresh.2) := by
  unfold applyRule
  rcases concept.takeTask with ⟨_ | task, left⟩
  · exact .inl ⟨rfl, rfl⟩
  · exact .inr ⟨task, rfl, _, rfl, rfl⟩

/-- Firing takes a concept out, applies the rule and puts it back; then the derived tasks
are put in, or the failure is passed on. -/
theorem fireConcept_cases (memory : Memory) (outside : Held) (rule : Rule) :
    (memory.concepts.takeOut.1 = none ∧
        memory.fireConcept outside rule =
          (.ok {}, { memory with concepts := memory.concepts.takeOut.2 })) ∨
      ∃ concept, memory.concepts.takeOut.1 = some concept ∧
        ∃ applied back, applied =
            ({ memory with concepts := memory.concepts.takeOut.2 } : Memory).applyRule outside
              rule concept ∧
          back = applied.2.2.putBackConcept
            (outside.withTerms ((derivedTasks applied.1).map Task.content)) applied.2.1 ∧
          ((∃ failure, applied.1 = .error failure ∧
              memory.fireConcept outside rule = (.error failure, back.2)) ∨
            ∃ tasks, applied.1 = .ok tasks ∧
              memory.fireConcept outside rule =
                (.ok ⟨true, tasks.length, back.1⟩, back.2.inputTasks tasks)) := by
  unfold fireConcept
  rcases memory.concepts.takeOut with ⟨_ | concept, concepts⟩
  · exact .inl ⟨rfl, rfl⟩
  · refine .inr ⟨concept, rfl, _, _, rfl, rfl, ?_⟩
    dsimp only
    rcases ({ memory with concepts := concepts } : Memory).applyRule outside rule concept with
      ⟨failure | tasks, after, left⟩
    · exact .inl ⟨failure, rfl, rfl⟩
    · exact .inr ⟨tasks, rfl, rfl⟩

theorem runCycle_eq (memory : Memory) (outside : Held) (rule : Rule) :
    ∃ processed, processed =
        ({ memory with cycles := memory.cycles + 1 } : Memory).processNewTask outside ∧
      memory.runCycle outside rule =
        ((processed.2.fireConcept outside rule).1.map (fun firing =>
            ⟨memory.cycles + 1, processed.1, firing.fired, firing.derived, firing.forgotten⟩),
          (processed.2.fireConcept outside rule).2) :=
  ⟨_, rfl, rfl⟩

/-! ## Concepts -/

variable {concept : Concept}

/-- A change of the bag of concepts that keeps it within its size. -/
theorem Holds.withConcepts {concepts : ConceptBag} (holds : memory.Holds parameters good)
    (sound : concepts.Sound parameters.conceptBagSize)
    (resident : ∀ concept ∈ concepts.items, concept.Holds parameters good) :
    ({ memory with concepts := concepts } : Memory).Holds parameters good :=
  ⟨holds.parameters_eq, sound, holds.newTasks, resident, holds.waiting⟩

theorem Holds.editConcept {ρ : Type} {name : String}
    {change : Concept → Concept × List Notice × ρ}
    (holds : memory.Holds parameters good)
    (keepsKey : ∀ concept, (change concept).1.key = concept.key)
    (changed : ∀ concept, concept.Holds parameters good → concept.key = name →
      (change concept).1.Holds parameters good) :
    (memory.editConcept name change).2.Holds parameters good := by
  rw [editConcept_memory]
  have edited := holds.withConcepts
    (holds.concepts.edit name change keepsKey)
    ((Concept.stable_holds memory.concepts.forgetCycles parameters good).edit
      holds.concepts.consistent holds.resident changed)
  exact edited.of_sameBags rfl rfl rfl

theorem refresh_holds (holds : concept.Holds parameters good) :
    concept.refresh.1.Holds parameters good :=
  ⟨⟨holds.sound.tasks, holds.sound.beliefs, holds.sound.about⟩, holds.term, holds.matters⟩

theorem reinforce_holds (holds : concept.Holds parameters good) (budget : Budget) :
    (reinforce budget concept).1.Holds parameters good :=
  refresh_holds ⟨holds.sound.withBudget _, holds.term, holds.matters⟩

theorem receive_holds {task : Task} (holds : concept.Holds parameters good)
    (given : good task.content) (concerns : Concerns task.content concept.key) :
    (receive task concept).1.Holds parameters good where
  sound := holds.sound.accept concerns
  term := holds.term
  matters := Concept.accept_matters holds.sound.tasks.consistent holds.matters given

theorem create_holds {term : Term} (given : good term) (budget : Budget) (serial : Nat) :
    (Concept.create term budget parameters serial).Holds parameters good where
  sound := Concept.create_sound term budget parameters serial
  term := given
  matters := fun _ member => nomatch member

/-! ## Delivery -/

theorem deliver_cases (memory : Memory) (outside : Held) (task : Task) (term : Term) :
    memory.deliver outside task term = (memory.activate outside term task.budget).2 ∨
      memory.deliver outside task term =
        ((memory.activate outside term task.budget).2.editConcept term.name (receive task)).2 := by
  have isReceive : (fun concept : Concept =>
      ((concept.accept task).1, (concept.accept task).2.2, ())) = receive task := rfl
  simp only [deliver, isReceive]
  rcases memory.activate outside term task.budget with ⟨_ | _, after⟩
  · exact .inl rfl
  · exact .inr rfl

/-- Processing a task delivers what was waiting. -/
theorem processNewTask_cases (memory : Memory) (outside : Held) :
    (memory.newTasks.takeOut.1 = none ∧
        memory.processNewTask outside =
          (false, { memory with newTasks := memory.newTasks.takeOut.2 })) ∨
      ∃ task, memory.newTasks.takeOut.1 = some task ∧
        memory.processNewTask outside =
          (true, (targets task.content).foldl
            (fun memory term => memory.deliver (outside.withTerms [task.content]) task term)
            { memory with newTasks := memory.newTasks.takeOut.2 }) := by
  unfold processNewTask
  rcases memory.newTasks.takeOut with ⟨_ | task, newTasks⟩
  · exact .inl ⟨rfl, rfl⟩
  · exact .inr ⟨task, rfl, rfl⟩

theorem Holds.withNewTasks {newTasks : TaskBag} (holds : memory.Holds parameters good)
    (sound : newTasks.Sound parameters.taskBufferSize)
    (waiting : ∀ task ∈ newTasks.items, good task.content) :
    ({ memory with newTasks := newTasks } : Memory).Holds parameters good :=
  ⟨holds.parameters_eq, holds.concepts, sound, holds.resident, waiting⟩

/-- A task leaves the buffer. -/
theorem Holds.takeNewTask (holds : memory.Holds parameters good) :
    (∀ task, memory.newTasks.takeOut.1 = some task → good task.content) ∧
      ({ memory with newTasks := memory.newTasks.takeOut.2 } : Memory).Holds parameters good := by
  obtain ⟨taken, left⟩ :
      (∀ task, memory.newTasks.takeOut.1 = some task → good task.content) ∧
        ∀ task ∈ memory.newTasks.takeOut.2.items, good task.content :=
    holds.newTasks.consistent.takeOut_all holds.waiting
  exact ⟨taken, holds.withNewTasks holds.newTasks.takeOut left⟩

/-! ## Firing -/

/-- A concept leaves its bag. -/
theorem Holds.takeConcept (holds : memory.Holds parameters good) :
    (∀ concept, memory.concepts.takeOut.1 = some concept → concept.Holds parameters good) ∧
      ({ memory with concepts := memory.concepts.takeOut.2 } : Memory).Holds parameters good := by
  obtain ⟨taken, left⟩ := holds.concepts.consistent.takeOut_all holds.resident
  exact ⟨taken, holds.withConcepts holds.concepts.takeOut left⟩

/-- A concept that has its task back. -/
theorem putBackTask_holds {task : Task} (holds : concept.Holds parameters good)
    (given : good task.content) (concerns : Concerns task.content concept.key) :
    (concept.putBackTask task).2.refresh.1.Holds parameters good :=
  refresh_holds
    { sound := holds.sound.putBackTask concerns
      term := holds.term
      matters := Concept.putBackTask_matters holds.sound.tasks.consistent holds.matters given }

/-- A concept without one of its tasks, which concerns its term. -/
theorem takeTask_holds (holds : concept.Holds parameters good) :
    (∀ task, concept.takeTask.1 = some task →
        good task.content ∧ Concerns task.content concept.key) ∧
      concept.takeTask.2.Holds parameters good := by
  obtain ⟨takenGood, leftGood⟩ :=
    Concept.takeTask_matters holds.sound.tasks.consistent holds.matters
  have takenAbout :=
    (Concept.takeTask_matters holds.sound.tasks.consistent holds.sound.about).1
  exact ⟨fun task isTaken => ⟨takenGood task isTaken, takenAbout task isTaken⟩,
    holds.sound.takeTask, holds.term, leftGood⟩

end AttentiveReasoner.Memory
