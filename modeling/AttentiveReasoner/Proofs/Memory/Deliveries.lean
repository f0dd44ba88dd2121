import AttentiveReasoner.Proofs.Memory.Activation
import AttentiveReasoner.Proofs.Memory.Draining

/-!
Contract: all that delivering a waiting task does to the concepts of a memory.

Owns:
- what putting an item in comes to for the item: it is there, or all others are stronger;
- concepts that a task has been delivered to;
- what one delivery does to the concept of its term and to all others;
- that the deliveries of a task serve whom it concerns, and leave the others alone.

Does not own: memories with room for all deliveries, and which task is drawn.

A delivery may push out a concept that an earlier one has served, and a later one may bring that
concept back. Its priority is then the one of the task, and yet it is the larger of this and what
it was before all deliveries: whoever is pushed out is not stronger than the task.
-/

namespace AttentiveReasoner

open AttentiveReasoner.Attention
open AttentiveReasoner.Evidence
open AttentiveReasoner.Inference
open AttentiveReasoner.Knowledge
open AttentiveReasoner.Language
open AttentiveReasoner.Numeric

/-! ## Weights of numbers -/

namespace Attention.Bag

variable {left right : Float32}

theorem less_of_weightOf_lt (leftNumber : Single.isNaN left = false)
    (rightNumber : Single.isNaN right = false) (lighter : weightOf left < weightOf right) :
    Single.less left right = true := by
  have leftWeight := weightOf_eq leftNumber
  have rightWeight := weightOf_eq rightNumber
  apply (Single.less_iff left right).mpr
  refine ⟨leftNumber, rightNumber, ?_⟩
  omega

variable {α ν : Type} [Item α ν] [LawfulItem α] [KeepsBudget α] {bag : Bag α} {item : α}
  {capacity : Nat}

/-- An item that was put in is there, or the bag is full of others that are all stronger. -/
theorem Sound.put_stays_or_weaker (sound : bag.Sound capacity)
    (isNumber : Single.isNaN (Item.priority item) = false)
    (areNumbers : ∀ other ∈ bag.items, Single.isNaN (Item.priority other) = false) :
    Item.key item ∈ (bag.put item).bag.names ∨
      (bag.put item).bag.size = capacity ∧
        ∀ other ∈ (bag.put item).bag.items, Item.key other ≠ Item.key item ∧
          Single.less (Item.priority item) (Item.priority other) = true := by
  by_cases room : bag.HasRoom (Item.key item)
  · left
    rw [names_put room]
    exact Finset.mem_insert_self _ _
  · obtain ⟨notFound, full, _⟩ := put_of_noRoom room
    have free := find?_eq_none_iff.mp notFound
    obtain ⟨key, slot, _, _, weakest, remaining⟩ := (sound.put_puts item).evicts free full
    by_cases stays : Item.key item = key
    · right
      have afterwards := sound.put item
      -- The newcomer is the one who leaves, and nobody is younger than a newcomer.
      have isNewcomer : slot = bag.placedSlot item (bag.lastSerial + 1) := by
        rcases weakest.contends with resides | ⟨_, placed⟩
        · rw [← stays, free] at resides
          contradiction
        · exact placed
      have samePriority : Item.priority slot.item = Item.priority item := by
        rw [isNewcomer]
        unfold Item.priority placedSlot
        rw [Item.budget_mapBudget]
        rfl
      refine ⟨?_, ?_⟩
      · have displaces := (sound.put_displaces item).card_le
        have bound := afterwards.size_le
        have declared := sound.capacity_eq
        rw [sound.consistent.card_names, afterwards.consistent.card_names] at displaces
        omega
      · intro other member
        obtain ⟨otherSlot, resides, isOther⟩ := afterwards.consistent.mem_items_iff.mp member
        obtain ⟨contends, different⟩ := (remaining _ _).mp resides
        have wasThere : bag.slot? (Item.key other) = some otherSlot := by
          rcases contends with stayed | ⟨sameKey, _⟩
          · exact stayed
          · exact absurd (sameKey.trans stays) different
        have older := sound.consistent.serial_le _ _ wasThere
        have otherMember := (sound.consistent.mem_items_of_slot? wasThere).1
        have serial : slot.serial = bag.lastSerial + 1 := by
          rw [isNewcomer]
          rfl
        refine ⟨fun sameKey => different (sameKey.trans stays), ?_⟩
        rw [isOther] at otherMember
        apply less_of_weightOf_lt isNumber (areNumbers other otherMember)
        have least := weakest.least _ _ contends different
        rw [samePriority, isOther] at least
        omega
    · left
      exact mem_names_iff_slot?.mpr ⟨_, (remaining _ _).mpr ⟨.inr ⟨rfl, rfl⟩, stays⟩⟩

end Attention.Bag

namespace Memory

variable {parameters : Parameters} {symbols : Symbols} {memory after start : Memory}
  {outside : Held} {task : Task} {term : Term} {budget : Budget} {concept : Concept}
  {previous : Option Float32} {name : String} {served : List String}

/-! ## Concepts that were served -/

/-- A priority after it was raised to another one; it may not have been there before. -/
def raised (previous : Option Float32) (priority : Float32) : Float32 :=
  (previous.map (Single.larger · priority)).getD priority

/-- A concept that a task has been delivered to, with the priority that it had before. The task is
among its tasks, unless they are all stronger and there is room for no more. -/
structure Serves (parameters : Parameters) (task : Task) (previous : Option Float32)
    (concept : Concept) : Prop where
  priority : Single.Same concept.budget.priority (raised previous task.priority)
  activity : concept.activity = .ofPriority concept.budget.priority
  belief : task.sentence.isJudgment = true → 0 < parameters.beliefTableSize →
    concept.beliefs.sentences.head? = some task.sentence
  task : task.key ∈ concept.tasks.names ∨
    concept.tasks.size = parameters.taskLinkBagSize ∧
      ∀ other ∈ concept.tasks.items, other.key ≠ task.key ∧
        Single.less task.priority other.priority = true

/-- A concept as strong as it is to be accepts the task. -/
theorem accept_serves (inOrder : concept.InOrder parameters Budget.InRange)
    (admitted : task.budget.InRange)
    (isRaised : Single.Same concept.budget.priority (raised previous task.priority))
    (notWeaker : Single.less concept.budget.priority task.priority = false) :
    Serves parameters task previous (concept.accept task).1 := by
  have sameBudget : (concept.accept task).1.budget = concept.budget := by
    simp only [Concept.accept, Concept.refresh, notWeaker, Bool.false_eq_true, if_false]
  constructor
  case priority => rwa [sameBudget]
  case activity => rfl
  case belief =>
    intro judgment positive
    have table : 0 < concept.beliefs.capacity := by
      rw [inOrder.beliefs.capacity_eq]
      exact positive
    obtain ⟨capacity, isCapacity⟩ := Nat.exists_eq_succ_of_ne_zero table.ne'
    simp only [Concept.accept, Concept.refresh, judgment, if_true, Beliefs.add, isCapacity,
      List.take_succ_cons, List.head?_cons]
  case task =>
    apply inOrder.tasks.put_stays_or_weaker
    · exact admitted.priority.isNumber
    · exact fun other member => (inOrder.taskBudgets other member).priority.isNumber

/-! ## One delivery -/

/-- What is activated is as strong as the larger priority. -/
theorem InOrder.activated_priority (inOrder : memory.InOrder parameters Budget.InRange)
    (admitted : task.budget.InRange) (term : Term) :
    Single.Same (memory.activated term task.budget).budget.priority
      (raised ((memory.concept? term.name).map (·.budget.priority)) task.priority) := by
  have itself : ∀ {priority}, Single.Between Single.zero Single.one priority →
      Single.Same priority priority :=
    fun between => Single.same_iff.mpr ⟨between.isNumber, between.isNumber, rfl⟩
  unfold Memory.activated
  cases found : memory.concept? term.name with
  | none => exact itself admitted.priority
  | some concept =>
      exact itself ((inOrder.resident_of_found found).budget.priority.larger admitted.priority)

/-- Raising the priority of a concept gives the larger one; that of a missing concept counts as
zero. -/
theorem InOrder.signedMagnitude_raised (inOrder : memory.InOrder parameters Budget.InRange)
    (admitted : task.budget.InRange) (name : String) :
    Single.isNaN (raised ((memory.concept? name).map (·.budget.priority)) task.priority) = false ∧
      Single.signedMagnitude
          (raised ((memory.concept? name).map (·.budget.priority)) task.priority) =
        max (((memory.concept? name).map fun concept =>
            Single.signedMagnitude concept.budget.priority).getD 0)
          (Single.signedMagnitude task.priority) := by
  have isNumber := admitted.priority.isNumber
  have notNegative := admitted.priority.signedMagnitude_nonneg
  cases found : memory.concept? name with
  | none =>
      refine ⟨isNumber, ?_⟩
      exact (max_eq_right notNegative).symm
  | some concept =>
      have between := (inOrder.resident_of_found found).budget.priority
      exact ⟨(between.larger admitted.priority).isNumber,
        Single.signedMagnitude_larger between.isNumber isNumber⟩

/-- What one delivery of a task does: it serves the concept of the term, if that is there
afterwards; all others stay as they are or leave, and nobody leaves who is stronger than the
task. -/
structure Delivers (parameters : Parameters) (task : Task) (term : Term)
    (memory after : Memory) : Prop where
  serves : ∀ concept, after.concept? term.name = some concept →
    Serves parameters task ((memory.concept? term.name).map (·.budget.priority)) concept
  stays_or_leaves : ∀ name, name ≠ term.name →
    after.concepts.slot? name = memory.concepts.slot? name ∨ after.concepts.slot? name = none
  leaves_weaker : ∀ name concept, memory.concept? name = some concept →
    after.concept? name = none →
      Single.signedMagnitude concept.budget.priority ≤ Single.signedMagnitude task.priority
  newTasks : after.newTasks = memory.newTasks

/-- The task goes to the concept of the term, if that is there after it was activated. -/
theorem deliver_eq (activates : Activates outside term task.budget memory
      (memory.activate outside term task.budget).1 (memory.activate outside term task.budget).2) :
    memory.deliver outside task term =
      ((memory.activate outside term task.budget).2.editConcept term.name (receive task)).2 := by
  have isReceive : (fun concept : Concept =>
      ((concept.accept task).1, (concept.accept task).2.2, ())) = receive task := rfl
  have answer := activates.answer_iff
  simp only [deliver, isReceive]
  generalize memory.activate outside term task.budget = activated at answer ⊢
  obtain ⟨isThere, activated⟩ := activated
  cases isThere with
  | true => rfl
  | false =>
      have absent : activated.concepts.find? term.name = none :=
        Bag.not_mem_names.mp fun present => Bool.false_ne_true (answer.mpr present)
      rw [editConcept_absent absent]

/-- A delivery leaves the waiting tasks alone. -/
theorem newTasks_deliver (activates : Activates outside term task.budget memory
      (memory.activate outside term task.budget).1 (memory.activate outside term task.budget).2) :
    (memory.deliver outside task term).newTasks = memory.newTasks := by
  rw [deliver_eq activates, editConcept_memory]
  exact activates.newTasks

/-- A concept that is there after it was activated is the resident one with the larger budget, or
the newcomer. -/
theorem Activates.concept?_own {answer : Bool}
    (activates : Activates outside term budget memory answer after)
    (found : after.concept? term.name = some concept) :
    concept = memory.concepts.placed (memory.activated term budget) := by
  obtain ⟨own, ownResides, rfl⟩ := Bag.slot?_eq_some_of_find? found
  cases resides : memory.concepts.slot? term.name with
  | some slot =>
      have residing : memory.concept? term.name = some slot.item := by
        rw [concept?, Bag.find?, resides, Option.map_some]
      have isOwn := (activates.reinforces slot resides).2.1
      rw [ownResides] at isOwn
      rw [Option.some.inj isOwn, activated, residing]
      rfl
  | none =>
      have absent : memory.concept? term.name = none := Bag.find?_eq_none_iff.mpr resides
      have isOwn : after.concepts.slot? term.name = some (memory.newcomerSlot term budget) := by
        by_cases room : memory.concepts.size < memory.concepts.capacity
        · exact (activates.creates resides room).2.1
        · obtain ⟨key, slot, _, _, names, stays, _⟩ :=
            activates.displaces resides (Nat.not_lt.mp room)
          apply stays
          have isThere : term.name ∈ after.concepts.names :=
            Bag.mem_names_iff_slot?.mpr ⟨own, ownResides⟩
          rw [names] at isThere
          exact (Finset.mem_erase.mp isThere).1
      rw [ownResides] at isOwn
      rw [Option.some.inj isOwn, activated, absent]
      rfl

/-- Others stay as they are when a concept is activated, or leave. -/
theorem Activates.stays_or_leaves {answer : Bool}
    (activates : Activates outside term budget memory answer after) (other : name ≠ term.name) :
    after.concepts.slot? name = memory.concepts.slot? name ∨
      after.concepts.slot? name = none := by
  have notOwn : name ∉ ({term.name} : Finset String) := by simpa using other
  cases resides : memory.concepts.slot? term.name with
  | some slot => exact .inl ((activates.reinforces slot resides).2.2.slot?_eq name notOwn)
  | none =>
      by_cases room : memory.concepts.size < memory.concepts.capacity
      · exact .inl ((activates.creates resides room).2.2.slot?_eq name notOwn)
      · obtain ⟨key, slot, _, _, names, _, spares, _⟩ :=
          activates.displaces resides (Nat.not_lt.mp room)
        by_cases isGone : name = key
        · right
          apply Bag.find?_eq_none_iff.mp
          apply Bag.not_mem_names.mp
          rw [names, isGone]
          exact Finset.notMem_erase key _
        · left
          apply spares.slot?_eq
          simp [other, isGone]

/-- Whoever leaves as a concept is activated is not stronger than its budget. -/
theorem Activates.leaves_weaker {answer : Bool}
    (activates : Activates outside term budget memory answer after)
    (inOrder : memory.InOrder parameters Budget.InRange) (admitted : budget.InRange)
    (found : memory.concept? name = some concept) (gone : after.concept? name = none) :
    Single.signedMagnitude concept.budget.priority ≤ Single.signedMagnitude budget.priority := by
  obtain ⟨own, resides, rfl⟩ := Bag.slot?_eq_some_of_find? found
  obtain ⟨different, weakest, _⟩ :=
    activates.displaced_of_gone resides (Bag.not_mem_names.mpr gone)
  -- The newcomer contended too, and was not the one to leave.
  have ownRange := (inOrder.resident_of_found found).budget.priority
  have minimal := weakest.minimal term.name (memory.newcomerSlot term budget)
    (.inr ⟨rfl, rfl⟩) different.symm ownRange.isNumber admitted.priority.isNumber
  have counted := ((Single.atMost_iff _ _).mp minimal).2.2
  have ownCount := Bag.signedMagnitude_counted ownRange.isNumber
  have newCount := Bag.signedMagnitude_counted admitted.priority.isNumber
  have notNegative := admitted.priority.signedMagnitude_nonneg
  change Single.signedMagnitude (Bag.counted own.item.budget.priority) ≤
    Single.signedMagnitude (Bag.counted budget.priority) at counted
  omega

theorem InOrder.deliver_delivers (inOrder : memory.InOrder parameters Budget.InRange)
    (admitted : task.budget.InRange) (outside : Held) (term : Term) :
    Delivers parameters task term memory (memory.deliver outside task term) := by
  have activates := inOrder.activate_activates outside term task.budget
  have activatedInOrder := inOrder.activate Budget.lasting_inRange admitted outside term
  have delivers := deliver_eq activates
  have sameTasks := newTasks_deliver activates
  generalize memory.activate outside term task.budget = activated at *
  have sameBag : (memory.deliver outside task term).concepts =
      (activated.2.concepts.edit term.name (Memory.receive task)).2 := by
    rw [delivers, editConcept_memory]
    rfl
  have sameSlots : ∀ name, name ≠ term.name →
      (memory.deliver outside task term).concepts.slot? name =
        activated.2.concepts.slot? name := by
    intro name other
    rw [sameBag]
    apply (activatedInOrder.concepts.consistent.spares_edit term.name (Memory.receive task)).slot?_eq
    simpa using other
  have sameNames : (memory.deliver outside task term).concepts.names =
      activated.2.concepts.names := by
    rw [sameBag]
    exact Bag.names_edit _ _ _
  constructor
  case serves =>
    intro concept found
    cases before : activated.2.concept? term.name with
    | none =>
        rw [concept?, sameBag, Bag.edit_of_free before] at found
        rw [concept?, found] at before
        contradiction
    | some own =>
        have isOwn := activates.concept?_own before
        have edited : (activated.2.concepts.edit term.name (Memory.receive task)).2.find? term.name =
            some (activated.2.concepts.placed (Memory.receive task own).1) :=
          ((Bag.find?_edit before).2 term.name).trans (if_pos rfl)
        rw [concept?, sameBag, edited] at found
        obtain ⟨ownInOrder, _, notWeaker, _⟩ := inOrder.activated admitted term
        have isRaised := inOrder.activated_priority admitted term
        have served : Serves parameters task
            ((memory.concept? term.name).map (·.budget.priority)) (own.accept task).1 := by
          rw [isOwn]
          exact accept_serves ownInOrder admitted isRaised notWeaker
        rw [← Option.some.inj found]
        exact ⟨served.priority, served.activity, served.belief, served.task⟩
  case stays_or_leaves =>
    intro name other
    rw [sameSlots name other]
    exact activates.stays_or_leaves other
  case leaves_weaker =>
    intro name concept found gone
    apply activates.leaves_weaker inOrder admitted found
    apply Bag.not_mem_names.mp
    rw [← sameNames]
    exact Bag.not_mem_names.mpr gone
  case newTasks => exact sameTasks

/-! ## All deliveries -/

/-- A memory in the course of the deliveries of a task: whoever was served and is there has been
served, all others who are there are as they were at the start, and who is gone was not stronger
than the task. -/
structure Underway (parameters : Parameters) (task : Task) (start : Memory)
    (served : List String) (memory : Memory) : Prop where
  serves : ∀ name ∈ served, ∀ concept, memory.concept? name = some concept →
    Serves parameters task ((start.concept? name).map (·.budget.priority)) concept
  untouched : ∀ name, name ∉ served → ∀ slot, memory.concepts.slot? name = some slot →
    start.concepts.slot? name = some slot
  gone_weaker : ∀ name concept, start.concept? name = some concept →
    memory.concept? name = none →
      Single.signedMagnitude concept.budget.priority ≤ Single.signedMagnitude task.priority
  newTasks : memory.newTasks = start.newTasks

theorem underway_start (parameters : Parameters) (task : Task) (start : Memory) :
    Underway parameters task start [] start where
  serves := fun _ member => nomatch member
  untouched := fun _ _ _ resides => resides
  gone_weaker := by
    intro name concept found gone
    rw [found] at gone
    contradiction
  newTasks := rfl

/-- Whoever is there and was not served is as at the start. -/
theorem Underway.concept?_start (underway : Underway parameters task start served memory)
    (unserved : name ∉ served) (found : memory.concept? name = some concept) :
    start.concept? name = some concept := by
  obtain ⟨slot, resides, rfl⟩ := Bag.slot?_eq_some_of_find? found
  rw [concept?, Bag.find?, underway.untouched name unserved slot resides, Option.map_some]

/-- The priority of the start and that of any time in between are raised to the same. -/
theorem Underway.raised_same (underway : Underway parameters task start served memory)
    (startInOrder : start.InOrder parameters Budget.InRange)
    (inOrder : memory.InOrder parameters Budget.InRange) (admitted : task.budget.InRange)
    (name : String) :
    Single.signedMagnitude
        (raised ((memory.concept? name).map (·.budget.priority)) task.priority) =
      Single.signedMagnitude
        (raised ((start.concept? name).map (·.budget.priority)) task.priority) := by
  have startRaised := (startInOrder.signedMagnitude_raised admitted name).2
  have nowRaised := (inOrder.signedMagnitude_raised admitted name).2
  have notNegative : 0 ≤ Single.signedMagnitude task.priority :=
    admitted.priority.signedMagnitude_nonneg
  cases now : memory.concept? name with
  | none =>
      rw [now] at nowRaised
      cases before : start.concept? name with
      | none => rfl
      | some concept =>
          have weaker := underway.gone_weaker name concept before now
          rw [before] at startRaised
          simp only [Option.map_some, Option.map_none, Option.getD_some, Option.getD_none]
            at startRaised nowRaised ⊢
          omega
  | some concept =>
      by_cases wasServed : name ∈ served
      · have same := (underway.serves name wasServed concept now).priority
        have priority := (Single.same_iff.mp same).2.2
        rw [now] at nowRaised
        simp only [Option.map_some, Option.getD_some] at nowRaised ⊢
        rw [startRaised] at priority ⊢
        omega
      · rw [underway.concept?_start wasServed now]

theorem Underway.step (underway : Underway parameters task start served memory)
    (startInOrder : start.InOrder parameters Budget.InRange)
    (inOrder : memory.InOrder parameters Budget.InRange) (admitted : task.budget.InRange)
    (delivers : Delivers parameters task term memory after) :
    Underway parameters task start (served ++ [term.name]) after where
  serves := by
    intro name member concept found
    by_cases own : name = term.name
    · subst own
      have serves := delivers.serves concept found
      have priority := Single.same_iff.mp serves.priority
      have sameRaised := underway.raised_same startInOrder inOrder admitted term.name
      refine { serves with priority := ?_ }
      apply Single.same_iff.mpr
      exact ⟨priority.1, (startInOrder.signedMagnitude_raised admitted term.name).1,
        priority.2.2.trans sameRaised⟩
    · have wasServed : name ∈ served := by simpa [own] using member
      rcases delivers.stays_or_leaves name own with stays | leaves
      · rw [concept?, Bag.find?, stays] at found
        exact underway.serves name wasServed concept found
      · rw [concept?, Bag.find?, leaves] at found
        contradiction
  untouched := by
    intro name unserved slot resides
    simp only [List.mem_append, List.mem_singleton, not_or] at unserved
    rcases delivers.stays_or_leaves name unserved.2 with stays | leaves
    · rw [stays] at resides
      exact underway.untouched name unserved.1 slot resides
    · rw [leaves] at resides
      contradiction
  gone_weaker := by
    intro name concept wasThere gone
    cases now : memory.concept? name with
    | none => exact underway.gone_weaker name concept wasThere now
    | some other =>
        have weaker := delivers.leaves_weaker name other now gone
        by_cases wasServed : name ∈ served
        · have same := (underway.serves name wasServed other now).priority
          have priority := (Single.same_iff.mp same).2.2
          have isRaised := (startInOrder.signedMagnitude_raised admitted name).2
          rw [wasThere] at priority isRaised
          simp only [Option.map_some, Option.getD_some] at priority isRaised
          omega
        · rw [underway.concept?_start wasServed now] at wasThere
          rwa [← Option.some.inj wasThere]
  newTasks := delivers.newTasks.trans underway.newTasks

theorem Underway.deliverAll (underway : Underway parameters task start served memory)
    (startInOrder : start.InOrder parameters Budget.InRange)
    (inOrder : memory.InOrder parameters Budget.InRange) (admitted : task.budget.InRange)
    (outside : Held) (terms : List Term) :
    Underway parameters task start (served ++ terms.map Term.name)
      (terms.foldl (fun memory term => memory.deliver outside task term) memory) := by
  induction terms generalizing memory served with
  | nil =>
      rw [List.map_nil, List.append_nil]
      exact underway
  | cons term rest inductionHypothesis =>
      have delivers := inOrder.deliver_delivers admitted outside term
      have next := inOrder.deliver Budget.lasting_inRange admitted outside term
      have stepped := inductionHypothesis
        (underway.step startInOrder inOrder admitted delivers) next
      rwa [List.append_assoc, List.singleton_append, ← List.map_cons] at stepped

/-! ## Processing a task -/

/-- The names of the terms that a task concerns. -/
def concerned (task : Task) : List String :=
  (targets task.content).map Term.name

/-- Processing a task has delivered it. It was drawn from the waiting ones, and the others still
wait. Whoever it concerns and is there has been served; whoever else is there was there before, in
the same slot. -/
structure Processes (parameters : Parameters) (task : Task) (memory after : Memory) : Prop where
  drawn : memory.newTasks.takeOut.1 = some task
  removed : memory.newTasks.items.Perm (task :: after.newTasks.items)
  newTasks : after.newTasks = memory.newTasks.takeOut.2
  serves : ∀ name ∈ concerned task, ∀ concept, after.concept? name = some concept →
    Serves parameters task ((memory.concept? name).map (·.budget.priority)) concept
  untouched : ∀ name, name ∉ concerned task → ∀ slot,
    after.concepts.slot? name = some slot → memory.concepts.slot? name = some slot

theorem InOrder.processNewTask_processes (inOrder : memory.InOrder parameters Budget.InRange)
    (waiting : memory.pendingTasks ≠ 0) (outside : Held) :
    (memory.processNewTask outside).1 = true ∧
      ∃ task, Processes parameters task memory (memory.processNewTask outside).2 := by
  rcases processNewTask_cases memory outside with ⟨nobody, _⟩ | ⟨task, drawn, result⟩
  · exact absurd (inOrder.newTasks.consistent.takeOut_none_iff.mp nobody) waiting
  · obtain ⟨taken, left⟩ := inOrder.takeNewTask
    have underway := (underway_start parameters task _).deliverAll left left (taken task drawn)
      (outside.withTerms [task.content]) (targets task.content)
    rw [List.nil_append] at underway
    rw [result]
    refine ⟨rfl, task, ?_⟩
    constructor
    case drawn => exact drawn
    case removed =>
      rw [underway.newTasks]
      exact inOrder.newTasks.items_takeOut drawn
    case newTasks => exact underway.newTasks
    case serves => exact underway.serves
    case untouched => exact underway.untouched

/-- In every memory whose budgets are in range, processing takes one of the tasks that wait and
serves whom it concerns, as far as there is room, and nobody else. -/
theorem Leads.processes_one_task (led : Leads True (empty parameters symbols) memory)
    (ranged : memory.Ranged) (waiting : memory.pendingTasks ≠ 0) (outside : Held) :
    (memory.processNewTask outside).1 = true ∧
      ∃ task, Processes parameters task memory (memory.processNewTask outside).2 :=
  (ranged.inOrder led.withinBounds).processNewTask_processes waiting outside

/-- The actions that leave a memory for two concepts with `c`, while `<a --> b>` waits. -/
def pressingActions : List Action :=
  [.build (.word "a"), .build (.word "b"), .build (.word "c"),
    .build (.statement .inheritance 0 1),
    .activate 2 (.corrected (Single.hundredths 30) Single.one Single.zero),
    .inputTask 3 .judgment (.input 1 0)
      (.corrected (Single.hundredths 90) Single.one Single.zero) .input]

theorem pressingActions_corrected : ∀ action ∈ pressingActions, action.IsCorrected := by
  simp only [pressingActions, List.forall_mem_cons]
  exact ⟨trivial, trivial, trivial, trivial, ⟨_, _, _, rfl⟩, ⟨_, _, _, rfl⟩,
    fun _ member => nomatch member⟩

/-- The memory after the actions. -/
def pressing : Memory :=
  (Exchange.of { conceptBagSize := 2 } .usual pressingActions).memory

theorem pressing_leads : Leads True (empty { conceptBagSize := 2 } .usual) pressing := by
  have started : Leads True (empty { conceptBagSize := 2 } .usual)
      (Exchange.start { conceptBagSize := 2 } .usual).memory := .here _
  exact started.run pressingActions

/-- The delivery to `b` pushes out `c`, and the one to `<a --> b>` pushes out `a`, which has been
served already. -/
theorem pressing_processes :
    let processed := pressing.processNewTask Held.nothing
    pressing.Ranged ∧ pressing.pendingTasks = 1 ∧
      pressing.concepts.keys = ["c"] ∧
      (processed.1, processed.2.pendingTasks, processed.2.concepts.keys) =
        (true, 0, ["<a --> b>", "b"]) ∧
      ∃ task, Processes { conceptBagSize := 2 } task pressing processed.2 := by
  intro processed
  have ranged : pressing.Ranged :=
    Exchange.of_ranged { conceptBagSize := 2 } .usual pressingActions_corrected
  have ran : pressing.pendingTasks = 1 ∧ pressing.concepts.keys = ["c"] ∧
      (processed.1, processed.2.pendingTasks, processed.2.concepts.keys) =
        (true, 0, ["<a --> b>", "b"]) := by
    decide +kernel
  have waiting : pressing.pendingTasks ≠ 0 := by
    rw [ran.1]
    exact Nat.one_ne_zero
  exact ⟨ranged, ran.1, ran.2.1, ran.2.2,
    (pressing_leads.processes_one_task ranged waiting Held.nothing).2⟩

end Memory

end AttentiveReasoner
