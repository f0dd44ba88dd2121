import AttentiveReasoner.Proofs.Knowledge.Portraits
import AttentiveReasoner.Proofs.Memory.Ranges

/-!
Contract: processing all waiting tasks, in whatever order they are drawn.

Owns:
- the album of a memory: the portraits of its concepts, by name;
- the deliveries of tasks, and memories with room for all of them;
- that a delivery for which there is room does to the album what it does to the portraits;
- that processing all waiting tasks delivers each of them once, and that the concepts they lead
  to are alike for all draws.

Does not own: memories without room. There a delivery may push out what another one made.

The room that deliveries need does not depend on their order either. It is a bound on unions of
keys, and each delivery only moves a key from the one side of a union to the other.
-/

namespace AttentiveReasoner

open AttentiveReasoner.Attention
open AttentiveReasoner.Chance
open AttentiveReasoner.Evidence
open AttentiveReasoner.Knowledge
open AttentiveReasoner.Language
open AttentiveReasoner.Numeric

namespace Memory

variable {parameters : Parameters} {symbols : Symbols} {memory : Memory} {outside : Held}
  {task : Task} {term : Term} {name key : String} {rest : List (Task × String)}

/-- The portraits of the concepts of a memory. -/
def album (memory : Memory) : Album :=
  fun name => (memory.concept? name).map Concept.portrait

theorem mem_names_iff : name ∈ memory.concepts.names ↔ memory.album name ≠ none := by
  rw [Bag.mem_names, album, concept?]
  cases memory.concepts.find? name <;> simp

/-! ## Room -/

/-- The deliveries of tasks: each to all whom it concerns. -/
def deliveries (tasks : List Task) : List (Task × String) :=
  tasks.flatMap (fun task => (targets task.content).map (fun term => (task, term.name)))

/-- The keys of what is delivered under a name. -/
def keysFor (deliveries : List (Task × String)) (name : String) : Finset String :=
  ((deliveries.filter (·.2 = name)).map (·.1.key)).toFinset

/-- The keys of the tasks of a concept, if there is one of the name. -/
def taskKeys (memory : Memory) (name : String) : Finset String :=
  ((memory.concept? name).map (·.tasks.names)).getD ∅

/-- The keys of the beliefs of a concept, if there is one of the name. -/
def beliefKeys (memory : Memory) (name : String) : Finset String :=
  ((memory.concept? name).map (·.beliefs.keys)).getD ∅

/-- A memory in which deliveries overflow no bag and no table. -/
structure Roomy (parameters : Parameters) (deliveries : List (Task × String))
    (memory : Memory) : Prop where
  concepts : (memory.concepts.names ∪ (deliveries.map (·.2)).toFinset).card ≤
    parameters.conceptBagSize
  tasks : ∀ name, (memory.taskKeys name ∪ keysFor deliveries name).card ≤
    parameters.taskLinkBagSize
  beliefs : ∀ name, (memory.beliefKeys name ∪
      keysFor (deliveries.filter (·.1.sentence.isJudgment)) name).card ≤
    parameters.beliefTableSize

theorem task_of_mem_deliveries {tasks : List Task} {delivery : Task × String}
    (member : delivery ∈ deliveries tasks) : delivery.1 ∈ tasks := by
  obtain ⟨task, isTask, isDelivery⟩ := List.mem_flatMap.mp member
  obtain ⟨term, _, rfl⟩ := List.mem_map.mp isDelivery
  exact isTask

theorem mem_keysFor {deliveries : List (Task × String)} :
    key ∈ keysFor deliveries name ↔
      ∃ delivery ∈ deliveries, delivery.2 = name ∧ delivery.1.key = key := by
  simp [keysFor, and_assoc]

/-- No more keys are delivered under a name than there are tasks. -/
theorem card_keysFor_le (tasks : List Task) (name : String) :
    (keysFor (deliveries tasks) name).card ≤ tasks.length := by
  rw [← List.length_map Task.key]
  refine (Finset.card_le_card ?_).trans (List.toFinset_card_le (tasks.map Task.key))
  intro key member
  obtain ⟨delivery, isDelivery, _, keyed⟩ := mem_keysFor.mp member
  exact List.mem_toFinset.mpr
    (List.mem_map.mpr ⟨delivery.1, task_of_mem_deliveries isDelivery, keyed⟩)

theorem keysFor_filter_subset (deliveries : List (Task × String))
    (isKept : Task × String → Bool) (name : String) :
    keysFor (deliveries.filter isKept) name ⊆ keysFor deliveries name := by
  intro key member
  obtain ⟨delivery, isDelivery, delivered⟩ := mem_keysFor.mp member
  exact mem_keysFor.mpr ⟨delivery, (List.mem_filter.mp isDelivery).1, delivered⟩

theorem keysFor_cons (delivery : Task × String) (rest : List (Task × String)) (name : String) :
    keysFor (delivery :: rest) name =
      if delivery.2 = name then insert delivery.1.key (keysFor rest name)
      else keysFor rest name := by
  by_cases same : delivery.2 = name <;> simp [keysFor, same]

/-- Fewer deliveries, in whatever order, need no more room. -/
theorem Roomy.of_subset {more fewer : List (Task × String)} (roomy : memory.Roomy parameters more)
    (subset : ∀ delivery ∈ fewer, delivery ∈ more) : memory.Roomy parameters fewer where
  concepts := by
    refine (Finset.card_le_card (Finset.union_subset_union_right ?_)).trans roomy.concepts
    intro name member
    obtain ⟨delivery, isDelivery, named⟩ := List.mem_map.mp (List.mem_toFinset.mp member)
    exact List.mem_toFinset.mpr (List.mem_map.mpr ⟨delivery, subset delivery isDelivery, named⟩)
  tasks := by
    intro name
    refine (Finset.card_le_card (Finset.union_subset_union_right ?_)).trans (roomy.tasks name)
    intro key member
    obtain ⟨delivery, isDelivery, delivered⟩ := mem_keysFor.mp member
    exact mem_keysFor.mpr ⟨delivery, subset delivery isDelivery, delivered⟩
  beliefs := by
    intro name
    refine (Finset.card_le_card (Finset.union_subset_union_right ?_)).trans (roomy.beliefs name)
    intro key member
    obtain ⟨delivery, isDelivery, delivered⟩ := mem_keysFor.mp member
    obtain ⟨given, judgment⟩ := List.mem_filter.mp isDelivery
    exact mem_keysFor.mpr
      ⟨delivery, List.mem_filter.mpr ⟨subset delivery given, judgment⟩, delivered⟩

/-- There is room for one of the entrants if there is for all. -/
theorem room_of_card_le {keys entrants : Finset String} {capacity : Nat}
    (enough : (keys ∪ entrants).card ≤ capacity) (enters : key ∈ entrants) :
    key ∈ keys ∨ keys.card < capacity := by
  by_cases present : key ∈ keys
  · exact .inl present
  · have larger : keys.card < (keys ∪ entrants).card := by
      refine Finset.card_lt_card (Finset.ssubset_iff.mpr ⟨key, present, ?_⟩)
      exact Finset.insert_subset (Finset.mem_union_right _ enters) Finset.subset_union_left
    exact .inr (by omega)

/-! ## One delivery -/

/-- A memory in which nothing but the concept of one name is another. -/
def Differs (before after : Memory) (own : String) (concept : Concept) : Prop :=
  ∀ name, after.concept? name = if name = own then some concept else before.concept? name

theorem Differs.names {before after : Memory} {own : String} {concept : Concept}
    (differs : before.Differs after own concept) :
    after.concepts.names = insert own before.concepts.names := by
  ext name
  have here := differs name
  unfold concept? at here
  rw [Finset.mem_insert, Bag.mem_names, Bag.mem_names, here]
  by_cases same : name = own <;> simp [same]

/-- The concept that a delivery activates: the resident one with the larger budget, or a new
one. -/
def activated (memory : Memory) (term : Term) (budget : Budget) : Concept :=
  match memory.concept? term.name with
  | some concept => (reinforce budget concept).1
  | none => memory.newcomer term budget

/-- The concept that accepts the task of a delivery. -/
def delivered (memory : Memory) (task : Task) (term : Term) : Concept :=
  ((memory.concepts.placed (memory.activated term task.budget)).accept task).1

theorem concept?_editConcept {ρ : Type} {change : Concept → Concept × List Notice × ρ}
    {concept : Concept} (found : memory.concept? name = some concept) :
    (memory.editConcept name change).2.newTasks = memory.newTasks ∧
      memory.Differs (memory.editConcept name change).2 name
        (memory.concepts.placed (change concept).1) := by
  rw [editConcept_memory]
  exact ⟨rfl, (Bag.find?_edit found).2⟩

/-- Activating where there is room. -/
theorem activate_of_room (room : memory.concepts.HasRoom term.name) (outside : Held)
    (budget : Budget) :
    ∃ after, memory.activate outside term budget = (true, after) ∧
      after.newTasks = memory.newTasks ∧
      memory.Differs after term.name
        (memory.concepts.placed (memory.activated term budget)) := by
  cases found : memory.concept? term.name with
  | some concept =>
      have isActivated : memory.activated term budget = (reinforce budget concept).1 := by
        rw [activated, found]
      obtain ⟨sameTasks, others⟩ := concept?_editConcept found
      refine ⟨_, activate_of_resident found outside budget, sameTasks, ?_⟩
      rw [isActivated]
      exact others
  | none =>
      have isActivated : memory.activated term budget =
          memory.newcomer term budget := by
        rw [activated, found]
      let created := memory.newcomer term budget
      obtain ⟨stays, others⟩ : (memory.concepts.put created).departed = none ∧ ∀ name,
          (memory.concepts.put created).bag.find? name =
            if name = term.name then some (memory.concepts.placed (memory.concepts.entering created))
            else memory.concepts.find? name := Bag.find?_put room
      have entersItself : memory.concepts.entering created = created := by
        have free : memory.concepts.find? (Item.key created) = none := found
        rw [Bag.entering, free]
      rw [entersItself] at others
      refine ⟨({ memory with concepts := (memory.concepts.put created).bag } : Memory).tell
        (memory.concepts.put created).notices, ?_, rfl, ?_⟩
      · simp only [activate_of_free found, afterPlacing]
        rw [stays]
        rfl
      · rw [isActivated]
        exact others

/-- Delivering where there is room. -/
theorem deliver_of_room (room : memory.concepts.HasRoom term.name) (outside : Held)
    (task : Task) :
    ∃ bag : ConceptBag, (memory.deliver outside task term).newTasks = memory.newTasks ∧
      memory.Differs (memory.deliver outside task term) term.name
        (bag.placed (memory.delivered task term)) := by
  obtain ⟨after, activates, sameTasks, others⟩ :=
    activate_of_room room outside task.budget
  have own : after.concept? term.name =
      some (memory.concepts.placed (memory.activated term task.budget)) := by
    rw [others, if_pos rfl]
  have delivers : memory.deliver outside task term =
      (after.editConcept term.name (receive task)).2 := by
    have isReceive : (fun concept : Concept =>
        ((concept.accept task).1, (concept.accept task).2.2, ())) = receive task := rfl
    simp only [deliver, activates, isReceive]
  obtain ⟨keptTasks, edited⟩ := concept?_editConcept own
  refine ⟨after.concepts, ?_, ?_⟩
  · rw [delivers, keptTasks, sameTasks]
  · intro name
    rw [delivers, edited, others]
    split
    · rfl
    · rfl

theorem InOrder.resident_of_found {admits : Budget → Prop} {concept : Concept}
    (inOrder : memory.InOrder parameters admits) (found : memory.concept? name = some concept) :
    concept.InOrder parameters admits :=
  inOrder.resident concept (inOrder.concepts.consistent.mem_of_find? found).1

/-- What is activated is as strong as the budget, has kept its tasks and beliefs, and its
portrait is raised. -/
theorem InOrder.activated (inOrder : memory.InOrder parameters Budget.InRange)
    {budget : Budget} (admitted : budget.InRange) (term : Term) :
    let concept := memory.concepts.placed (memory.activated term budget)
    concept.InOrder parameters Budget.InRange ∧
      concept.activity = .ofPriority concept.budget.priority ∧
      Single.less concept.budget.priority budget.priority = false ∧
      concept.tasks.names = memory.taskKeys term.name ∧
      concept.beliefs.keys = memory.beliefKeys term.name ∧
      concept.portrait = ((memory.album term.name).getD .blank).raise budget := by
  unfold Memory.activated taskKeys beliefKeys album
  cases found : memory.concept? term.name with
  | some resident =>
      have residentInOrder := inOrder.resident_of_found found
      have merged := Budget.lasting_inRange.merged _ _ residentInOrder.budget admitted
      have reinforced : (Memory.reinforce budget resident).1.InOrder parameters Budget.InRange :=
        (residentInOrder.withBudget merged).refresh
      refine ⟨?_, rfl, ?_, rfl, rfl, ?_⟩
      · exact reinforced.withBudget (Budget.lasting_inRange.placed _ _ merged)
      · refine Single.less_eq_false ?_
        change _ ≤ Single.signedMagnitude (Single.larger resident.budget.priority budget.priority)
        rw [Single.signedMagnitude_larger residentInOrder.budget.priority.isNumber
          admitted.priority.isNumber]
        exact le_max_right _ _
      · exact Concept.portrait_reinforce residentInOrder.budget admitted
  | none =>
      refine ⟨?_, rfl, ?_, rfl, rfl, ?_⟩
      · exact (inOrder.newcomer admitted term).withBudget
          (Budget.lasting_inRange.placed _ _ admitted)
      · exact Single.less_eq_false (le_refl _)
      · change (memory.newcomer term budget).portrait = _
        exact Concept.portrait_create term admitted

/-- What a delivery makes of a concept, where there is room. -/
theorem InOrder.delivered (inOrder : memory.InOrder parameters Budget.InRange)
    (admitted : task.budget.InRange)
    (roomy : memory.Roomy parameters ((task, term.name) :: rest)) :
    (memory.delivered task term).portrait =
        ((memory.album term.name).getD .blank).receive task ∧
      (memory.delivered task term).tasks.names = insert task.key (memory.taskKeys term.name) ∧
      (memory.delivered task term).beliefs.keys =
        if task.sentence.isJudgment then insert task.key (memory.beliefKeys term.name)
        else memory.beliefKeys term.name := by
  -- The concept has just been raised by the budget of the task, so accepting adds nothing to it.
  obtain ⟨concept, fresh, notStronger, taskKeys, beliefKeys, portrait⟩ :=
    inOrder.activated admitted term
  unfold Memory.delivered
  generalize memory.concepts.placed (memory.activated term task.budget) = activated at *
  have taskRoom : activated.tasks.HasRoom task.key := by
    have enough := roomy.tasks term.name
    rw [← taskKeys] at enough
    have room := room_of_card_le enough (mem_keysFor.mpr ⟨_, List.mem_cons_self, rfl, rfl⟩)
    rwa [concept.tasks.consistent.card_names, ← concept.tasks.capacity_eq] at room
  have beliefRoom : task.sentence.isJudgment = true → activated.beliefs.HasRoom task.key := by
    intro judgment
    have enough := roomy.beliefs term.name
    rw [← beliefKeys] at enough
    have room := room_of_card_le enough (mem_keysFor.mpr
      ⟨_, List.mem_filter.mpr ⟨List.mem_cons_self, judgment⟩, rfl, rfl⟩)
    rwa [concept.beliefs.card_keys, ← concept.beliefs.capacity_eq] at room
  refine ⟨?_, ?_, ?_⟩
  · rw [Concept.portrait_accept concept fresh notStronger taskRoom beliefRoom, portrait]
    rfl
  · rw [← taskKeys]
    exact Bag.names_put taskRoom
  · rw [← beliefKeys]
    simp only [Concept.accept, Concept.refresh]
    split
    · exact concept.beliefs.keys_add (beliefRoom ‹_›)
    · rfl

/-- A delivery moves its key from those that need room to those that have it. -/
theorem card_moved {delivery : Task × String} {before after : Finset String} {bound : Nat}
    (moved : after = if name = delivery.2 then insert delivery.1.key before else before)
    (enough : (before ∪ keysFor (delivery :: rest) name).card ≤ bound) :
    (after ∪ keysFor rest name).card ≤ bound := by
  rw [keysFor_cons] at enough
  rw [moved]
  by_cases same : name = delivery.2
  · rw [if_pos same.symm, Finset.union_insert] at enough
    rwa [if_pos same, Finset.insert_union]
  · rw [if_neg (Ne.symm same)] at enough
    rwa [if_neg same]

/-- After a delivery there is room for the others. -/
theorem Roomy.afterDelivery {after : Memory} {delivery : Task × String} {concept : Concept}
    (roomy : memory.Roomy parameters (delivery :: rest))
    (differs : memory.Differs after delivery.2 concept)
    (taskKeys : concept.tasks.names = insert delivery.1.key (memory.taskKeys delivery.2))
    (beliefKeys : concept.beliefs.keys =
      if delivery.1.sentence.isJudgment then insert delivery.1.key (memory.beliefKeys delivery.2)
      else memory.beliefKeys delivery.2) : after.Roomy parameters rest where
  concepts := by
    have enough := roomy.concepts
    rw [List.map_cons, List.toFinset_cons, Finset.union_insert] at enough
    rwa [differs.names, Finset.insert_union]
  tasks := by
    intro name
    refine card_moved ?_ (roomy.tasks name)
    rw [Memory.taskKeys, differs]
    split
    · rename_i same
      rw [same]
      exact taskKeys
    · rfl
  beliefs := by
    intro name
    have enough := roomy.beliefs name
    have keys : after.beliefKeys name =
        if name = delivery.2 then concept.beliefs.keys else memory.beliefKeys name := by
      rw [Memory.beliefKeys, differs]
      split
      · rfl
      · rfl
    rw [beliefKeys] at keys
    cases judgment : delivery.1.sentence.isJudgment with
    | true =>
        rw [List.filter_cons_of_pos (by exact judgment)] at enough
        refine card_moved ?_ enough
        rw [keys, judgment]
        split
        · rename_i same
          rw [same]
          rfl
        · rfl
    | false =>
        rw [List.filter_cons_of_neg (by simp [judgment])] at enough
        have kept : after.beliefKeys name = memory.beliefKeys name := by
          rw [keys, judgment]
          split
          · rename_i same
            rw [same]
            rfl
          · rfl
        rwa [kept]

/-- A delivery for which there is room is one to the album, and leaves room for the others. -/
theorem InOrder.deliver_album (inOrder : memory.InOrder parameters Budget.InRange)
    (admitted : task.budget.InRange)
    (roomy : memory.Roomy parameters ((task, term.name) :: rest)) (outside : Held) :
    (memory.deliver outside task term).newTasks = memory.newTasks ∧
      (memory.deliver outside task term).album = memory.album.deliver (task, term.name) ∧
      (memory.deliver outside task term).Roomy parameters rest := by
  have room : memory.concepts.HasRoom term.name := by
    have within := room_of_card_le roomy.concepts (List.mem_toFinset.mpr List.mem_cons_self)
    rwa [inOrder.concepts.consistent.card_names, ← inOrder.concepts.capacity_eq] at within
  obtain ⟨bag, sameTasks, differs⟩ :=
    deliver_of_room room outside task
  obtain ⟨portrait, taskKeys, beliefKeys⟩ := inOrder.delivered admitted roomy
  refine ⟨sameTasks, ?_, roomy.afterDelivery differs taskKeys beliefKeys⟩
  funext name
  rw [album, differs, Album.deliver, Function.update_apply]
  split
  · exact congrArg some portrait
  · rfl

/-! ## All deliveries -/

theorem InOrder.deliverAll_album (inOrder : memory.InOrder parameters Budget.InRange)
    (admitted : task.budget.InRange) (outside : Held) (terms : List Term)
    (roomy : memory.Roomy parameters (terms.map (fun term => (task, term.name)) ++ rest)) :
    let after := terms.foldl (fun memory term => memory.deliver outside task term) memory
    after.newTasks = memory.newTasks ∧
      after.album =
        (terms.map (fun term => (task, term.name))).foldl Album.deliver memory.album ∧
      after.Roomy parameters rest := by
  induction terms generalizing memory with
  | nil => exact ⟨rfl, rfl, roomy⟩
  | cons term others inductionHypothesis =>
      obtain ⟨sameTasks, sameAlbum, roomyAfter⟩ := inOrder.deliver_album admitted roomy outside
      obtain ⟨restTasks, restAlbum, restRoomy⟩ := inductionHypothesis
        (inOrder.deliver Budget.lasting_inRange admitted outside term) roomyAfter
      refine ⟨restTasks.trans sameTasks, ?_, restRoomy⟩
      rw [sameAlbum] at restAlbum
      exact restAlbum

theorem length_waiting (memory : Memory) :
    memory.newTasks.items.length = memory.pendingTasks := by
  rw [Bag.items, List.length_map]
  rfl

theorem waiting_eq_nil_iff : memory.newTasks.items = [] ↔ memory.pendingTasks = 0 := by
  rw [← length_waiting, List.length_eq_zero_iff]

/-- Processing stops where no task waits. -/
theorem InOrder.processNewTask_stops {admits : Budget → Prop}
    (inOrder : memory.InOrder parameters admits) (nothing : memory.pendingTasks = 0)
    (outside : Held) :
    memory.processNewTask outside =
      (false, { memory with newTasks := memory.newTasks.takeOut.2 }) := by
  have nobody : memory.newTasks.takeOut.1 = none :=
    inOrder.newTasks.consistent.takeOut_none_iff.mpr nothing
  rcases processNewTask_cases memory outside with ⟨_, result⟩ | ⟨task, drawn, _⟩
  · exact result
  · rw [nobody] at drawn
    contradiction

/-- Processing one task delivers one of those that wait, and leaves room for the others. -/
theorem InOrder.processNewTask_album (inOrder : memory.InOrder parameters Budget.InRange)
    (roomy : memory.Roomy parameters (deliveries memory.newTasks.items)) (outside : Held)
    (waiting : memory.pendingTasks ≠ 0) :
    let processed := memory.processNewTask outside
    processed.1 = true ∧
      processed.2.Roomy parameters (deliveries processed.2.newTasks.items) ∧
      ∃ task, (task :: processed.2.newTasks.items).Perm memory.newTasks.items ∧
        processed.2.album = (deliveries [task]).foldl Album.deliver memory.album := by
  rcases processNewTask_cases memory outside with ⟨nobody, _⟩ | ⟨task, drawn, result⟩
  · exact absurd (inOrder.newTasks.consistent.takeOut_none_iff.mp nobody) waiting
  · obtain ⟨taken, left⟩ := inOrder.takeNewTask
    have perm := inOrder.newTasks.items_takeOut drawn
    have leftRoomy : ({ memory with newTasks := memory.newTasks.takeOut.2 } : Memory).Roomy
        parameters (deliveries (task :: memory.newTasks.takeOut.2.items)) := by
      have sameRoom := roomy.of_subset fun delivery member =>
        (perm.flatMap_right _).mem_iff.mpr member
      exact ⟨sameRoom.concepts, sameRoom.tasks, sameRoom.beliefs⟩
    obtain ⟨sameTasks, sameAlbum, roomyAfter⟩ := left.deliverAll_album (taken task drawn)
      (outside.withTerms [task.content]) (targets task.content) leftRoomy
    rw [result]
    refine ⟨rfl, ?_, task, ?_, ?_⟩
    · rw [sameTasks]
      exact roomyAfter
    · rw [sameTasks]
      exact perm.symm
    · rw [sameAlbum, deliveries, List.flatMap_singleton]
      rfl

/-- Processing the waiting tasks delivers each of them once, in some order. -/
theorem InOrder.processUpTo_album (inOrder : memory.InOrder parameters Budget.InRange)
    (roomy : memory.Roomy parameters (deliveries memory.newTasks.items)) (outside : Held)
    {limit : Nat} (enough : memory.pendingTasks ≤ limit) :
    let drained := memory.processUpTo outside limit
    drained.1 = memory.pendingTasks ∧ drained.2.InOrder parameters Budget.InRange ∧
      drained.2.pendingTasks = 0 ∧
      ∃ order, order.Perm memory.newTasks.items ∧
        drained.2.album = (deliveries order).foldl Album.deliver memory.album := by
  -- Along the limit, there stays room for whatever waits: each step uses what it had room for.
  induction limit generalizing memory with
  | zero =>
      have nothing : memory.pendingTasks = 0 := Nat.le_zero.mp enough
      exact ⟨nothing.symm, inOrder, nothing, [], by rw [waiting_eq_nil_iff.mpr nothing], rfl⟩
  | succ limit inductionHypothesis =>
      have afterInOrder := inOrder.processNewTask Budget.lasting_inRange outside
      by_cases nothing : memory.pendingTasks = 0
      · have stops := inOrder.processNewTask_stops nothing outside
        have nobody := inOrder.newTasks.consistent.takeOut_none_iff.mpr nothing
        rw [stops] at afterInOrder
        simp only [processUpTo, stops]
        refine ⟨nothing.symm, afterInOrder, ?_, [], by rw [waiting_eq_nil_iff.mpr nothing], rfl⟩
        rw [pendingTasks, Bag.size, (Bag.takeOut_none nobody).1]
        exact nothing
      · obtain ⟨continues, roomyAfter, task, perm, album⟩ :=
          inOrder.processNewTask_album roomy outside nothing
        have fewer := perm.length_eq
        rw [List.length_cons, length_waiting, length_waiting] at fewer
        obtain ⟨count, drained, emptied, order, isOrder, laterAlbum⟩ :=
          inductionHypothesis afterInOrder roomyAfter (by omega)
        have result : memory.processUpTo outside (limit + 1) =
            (((memory.processNewTask outside).2.processUpTo outside limit).1 + 1,
              ((memory.processNewTask outside).2.processUpTo outside limit).2) := by
          rw [processUpTo, ← Prod.eta (memory.processNewTask outside), continues]
        rw [result]
        refine ⟨by omega, drained, emptied, task :: order, (isOrder.cons task).trans perm, ?_⟩
        rw [laterAlbum, album, ← List.foldl_append, deliveries, deliveries, deliveries,
          ← List.flatMap_append, List.singleton_append]

/-! ## All orders -/

/-- The memory with other draws for its waiting tasks. -/
def drawing (memory : Memory) (draws : Draws) : Memory :=
  { memory with newTasks := { memory.newTasks with draws := draws } }

/-- Memories with alike concepts under the same names. -/
structure Alike (left right : Memory) : Prop where
  names : left.concepts.names = right.concepts.names
  concepts : ∀ name leftConcept rightConcept, left.concept? name = some leftConcept →
    right.concept? name = some rightConcept → leftConcept.Alike rightConcept

theorem alike_of_album_eq {left right : Memory}
    (leftInOrder : left.InOrder parameters Budget.InRange)
    (rightInOrder : right.InOrder parameters Budget.InRange) (same : left.album = right.album) :
    left.Alike right where
  names := by
    ext name
    rw [mem_names_iff, mem_names_iff, same]
  concepts := by
    intro name leftConcept rightConcept leftFound rightFound
    have here := congrFun same name
    rw [album, album, leftFound, rightFound] at here
    exact Concept.alike_of_portrait_eq (leftInOrder.resident_of_found leftFound)
      (rightInOrder.resident_of_found rightFound) (Option.some.inj here)

/-- There is room if the waiting tasks fit in beside what there is. -/
theorem InOrder.roomy_of_sizes {admits : Budget → Prop}
    (inOrder : memory.InOrder parameters admits)
    (concepts : memory.concepts.size + (deliveries memory.newTasks.items).length ≤
      parameters.conceptBagSize)
    (alone : memory.pendingTasks ≤ parameters.taskLinkBagSize ∧
      memory.pendingTasks ≤ parameters.beliefTableSize)
    (beside : ∀ concept ∈ memory.concepts.items,
      concept.tasks.size + memory.pendingTasks ≤ parameters.taskLinkBagSize ∧
        concept.beliefs.size + memory.pendingTasks ≤ parameters.beliefTableSize) :
    memory.Roomy parameters (deliveries memory.newTasks.items) := by
  have kept : ∀ name,
      (memory.taskKeys name).card + memory.pendingTasks ≤ parameters.taskLinkBagSize ∧
        (memory.beliefKeys name).card + memory.pendingTasks ≤ parameters.beliefTableSize := by
    intro name
    unfold taskKeys beliefKeys
    cases found : memory.concept? name with
    | none => simpa using alone
    | some concept =>
        have resident := inOrder.resident_of_found found
        simp only [Option.map_some, Option.getD_some, resident.tasks.consistent.card_names,
          resident.beliefs.card_keys]
        exact beside concept (inOrder.concepts.consistent.mem_of_find? found).1
  refine ⟨?_, ?_, ?_⟩
  · refine (Finset.card_union_le _ _).trans ?_
    rw [inOrder.concepts.consistent.card_names]
    have fewNames := List.toFinset_card_le ((deliveries memory.newTasks.items).map (·.2))
    rw [List.length_map] at fewNames
    omega
  · intro name
    refine (Finset.card_union_le _ _).trans ?_
    have few := card_keysFor_le memory.newTasks.items name
    rw [length_waiting] at few
    have sizes := (kept name).1
    omega
  · intro name
    refine (Finset.card_union_le _ _).trans ?_
    have fewer := Finset.card_le_card (keysFor_filter_subset (deliveries memory.newTasks.items)
      (·.1.sentence.isJudgment) name)
    have few := card_keysFor_le memory.newTasks.items name
    rw [length_waiting] at few
    have sizes := (kept name).2
    omega

/-- Whatever is drawn, processing all waiting tasks comes to one album. -/
theorem InOrder.processAll_album (inOrder : memory.InOrder parameters Budget.InRange)
    (roomy : memory.Roomy parameters (deliveries memory.newTasks.items)) (outside : Held)
    (draws : Draws) :
    let drained := (memory.drawing draws).processAll outside
    drained.1 = memory.pendingTasks ∧ drained.2.InOrder parameters Budget.InRange ∧
      (drained.2.processNewTask outside).1 = false ∧
      drained.2.album = (deliveries memory.newTasks.items).foldl Album.deliver memory.album := by
  have drawingInOrder : (memory.drawing draws).InOrder parameters Budget.InRange :=
    { inOrder with
      newTasks := inOrder.newTasks.of_sameIndexes rfl rfl rfl (Nat.le_refl _) (Nat.le_refl _) rfl }
  have drawingRoomy : (memory.drawing draws).Roomy parameters
      (deliveries (memory.drawing draws).newTasks.items) :=
    ⟨roomy.concepts, roomy.tasks, roomy.beliefs⟩
  obtain ⟨count, drained, emptied, order, perm, album⟩ :=
    drawingInOrder.processUpTo_album drawingRoomy outside (Nat.le_succ _)
  have samePerm : order.Perm memory.newTasks.items := perm
  refine ⟨count, drained, congrArg Prod.fst (drained.processNewTask_stops emptied outside), ?_⟩
  refine album.trans (Album.deliver_perm (samePerm.flatMap_right _) ?_ memory.album)
  intro first firstMember second secondMember sameKey
  exact inOrder.newTasks.consistent.eq_of_key_eq
    (samePerm.mem_iff.mp (task_of_mem_deliveries firstMember))
    (samePerm.mem_iff.mp (task_of_mem_deliveries secondMember)) sameKey

/-- Waiting tasks for which there is room are processed to the same end, whatever is drawn: to
the same concepts, whose budgets have the same values, with the same activities, tasks and
beliefs. -/
theorem Leads.drained_alike (led : Leads True (empty parameters symbols) memory)
    (ranged : memory.Ranged)
    (roomy : memory.Roomy parameters (deliveries memory.newTasks.items)) (outside : Held)
    (left right : Draws) :
    let leftEnd := (memory.drawing left).processAll outside
    let rightEnd := (memory.drawing right).processAll outside
    leftEnd.1 = memory.pendingTasks ∧ rightEnd.1 = memory.pendingTasks ∧
      (leftEnd.2.processNewTask outside).1 = false ∧
      (rightEnd.2.processNewTask outside).1 = false ∧
      leftEnd.2.Alike rightEnd.2 := by
  have inOrder := ranged.inOrder led.withinBounds
  obtain ⟨leftCount, leftInOrder, leftStops, leftAlbum⟩ :=
    inOrder.processAll_album roomy outside left
  obtain ⟨rightCount, rightInOrder, rightStops, rightAlbum⟩ :=
    inOrder.processAll_album roomy outside right
  exact ⟨leftCount, rightCount, leftStops, rightStops,
    alike_of_album_eq leftInOrder rightInOrder (leftAlbum.trans rightAlbum.symm)⟩

/-- The actions that leave a memory that knows `b` with `<a --> b>` and `<b --> c>` to process. -/
def tellingActions : List Action :=
  [.build (.word "a"), .build (.word "b"), .build (.word "c"),
    .build (.statement .inheritance 0 1), .build (.statement .inheritance 1 2),
    .inputTask 3 .judgment (.input 1 0)
      (.corrected (Single.hundredths 90) (Single.hundredths 50) (Single.hundredths 20)) .input,
    .inputTask 4 .judgment (.input 2 0)
      (.corrected (Single.hundredths 30) (Single.hundredths 80) (Single.hundredths 70)) .derived,
    .activate 1 .standard]

theorem tellingActions_corrected : ∀ action ∈ tellingActions, action.IsCorrected := by
  simp only [tellingActions, List.forall_mem_cons]
  exact ⟨trivial, trivial, trivial, trivial, trivial, ⟨_, _, _, rfl⟩, ⟨_, _, _, rfl⟩,
    ⟨_, _, _, rfl⟩, fun _ member => nomatch member⟩

/-- The memory after the actions. -/
def told : Memory :=
  (Exchange.of {} .usual tellingActions).memory

theorem told_leads : Leads True (empty {} .usual) told := by
  have started : Leads True (empty {} .usual) (Exchange.start {} .usual).memory := .here _
  exact started.run tellingActions

theorem told_roomy : told.Roomy {} (deliveries told.newTasks.items) := by
  refine told_leads.withinBounds.roomy_of_sizes ?_ ?_ ?_
  · decide +kernel
  · decide +kernel
  · decide +kernel

/-- The two tasks are drawn in either order, which shows in the bag; the concepts are alike. -/
theorem told_drained_alike :
    let late := (told.drawing (fun _ => 0)).processAll Held.nothing
    let early := (told.drawing (fun _ => UInt64.ofNat (UInt64.size - 1))).processAll Held.nothing
    told.Ranged ∧ told.pendingTasks = 2 ∧
      late.2.concepts.slots.map (·.1) = ["c", "<b --> c>", "a", "b", "<a --> b>"] ∧
      early.2.concepts.slots.map (·.1) = ["a", "<a --> b>", "b", "c", "<b --> c>"] ∧
      late.2.Alike early.2 := by
  intro late early
  have ranged : told.Ranged := Exchange.of_ranged {} .usual tellingActions_corrected
  have orders : told.pendingTasks = 2 ∧
      late.2.concepts.slots.map (·.1) = ["c", "<b --> c>", "a", "b", "<a --> b>"] ∧
      early.2.concepts.slots.map (·.1) = ["a", "<a --> b>", "b", "c", "<b --> c>"] := by
    decide +kernel
  exact ⟨ranged, orders.1, orders.2.1, orders.2.2,
    (told_leads.drained_alike ranged told_roomy Held.nothing _ _).2.2.2.2⟩

end Memory

end AttentiveReasoner
