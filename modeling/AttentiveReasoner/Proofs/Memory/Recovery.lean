import AttentiveReasoner.Proofs.Attention.Bag.Lookup
import AttentiveReasoner.Proofs.Memory.Upkeep

/-!
Contract: what a failing rule leaves behind.

Owns:
- rules that leave a memory alone when they fail;
- what becomes of a concept that was fired and of its task: they return, or are forgotten as
  their bags and the memory forget;
- that firing with a failing rule leaves the memory that firing without a rule does.

Does not own: rules that change a memory and then fail. What they changed stays changed.

A rule is applied while the concept is out of the bag of the memory and the task out of the
bag of the concept. Both are put back before anybody looks at what the rule returned.
-/

namespace AttentiveReasoner

open AttentiveReasoner.Attention
open AttentiveReasoner.Evidence
open AttentiveReasoner.Inference
open AttentiveReasoner.Knowledge
open AttentiveReasoner.Language
open AttentiveReasoner.Numeric

namespace Language

theorem Held.withTerms_nil (held : Held) : held.withTerms [] = held := by
  funext object
  simp [withTerms, Term.anyConsistsOf]

namespace Registry

/-- Releasing a name leaves no entry under it that nobody holds, and every other name alone. -/
theorem entry?_release (registry : Registry) (held : Held) (name : String) :
    (∀ term, entry? (registry.release held name).2 name = some term →
        held term.object = true) ∧
      ∀ other, other ≠ name →
        entry? (registry.release held name).2 other = registry.entry? other := by
  cases entry : registry.entry? name with
  | none => simp [release, entry]
  | some term =>
      simp only [release, entry]
      split
      · rename_i isHeld
        refine ⟨fun other listed => ?_, fun _ _ => rfl⟩
        rw [entry] at listed
        rwa [← Option.some.inj listed]
      · refine ⟨fun other listed => ?_, fun other different => ?_⟩
        · rw [entry?_remove, if_pos rfl] at listed
          contradiction
        · rw [entry?_remove, if_neg different]

end Registry

end Language

namespace Knowledge

/-- A concept that drops its observer tells it so. -/
theorem Concept.detach_detaches (concept : Concept) (displays : Displays) {observer : Observer}
    (observes : concept.observer = some observer) :
    ((displays.receiveAll concept.detach.2).of observer).detached = true := by
  have told : concept.detach.2 = [.detach observer] := by
    simp [Concept.detach, Concept.tell, observes]
  rw [told]
  simp [Displays.receiveAll, Displays.receive, Displays.of_write, Displays.of_update]

/-- A concept after it was fired with one of its tasks: it has the task back, and its activity
follows its priority. -/
def Concept.recovered (concept : Concept) (task : Task) : Concept where
  term := concept.term
  budget := concept.budget
  activity := .ofPriority concept.budget.priority
  tasks := (concept.tasks.takeOut.2.putBack task).bag
  beliefs := concept.beliefs
  observer := concept.observer

end Knowledge

namespace Memory

variable {parameters : Parameters} {symbols : Symbols} {memory : Memory} {outside : Held}
  {rule : Rule} {concept : Concept} {task : Task} {failure : Failure}

/-- A rule that leaves a memory alone when it fails. -/
def LeavesAlone (rule : Rule) : Prop :=
  ∀ memory outside concept task failure,
    (rule memory outside concept task).1 = .error failure →
      (rule memory outside concept task).2 = memory

/-! ## The same as without a rule -/

/-- A rule that fails is applied to a concept which has a task, and leaves the concept as no rule
at all does. -/
theorem applyRule_failed (leavesAlone : LeavesAlone rule)
    (failed : (memory.applyRule outside rule concept).1 = .error failure) :
    ∃ task, concept.tasks.takeOut.1 = some task ∧
      memory.applyRule outside noRule concept =
        (.ok [], (memory.applyRule outside rule concept).2) ∧
      (memory.applyRule outside rule concept).2.1 = concept.recovered task ∧
      (memory.applyRule outside rule concept).2.2 =
        memory.tell (concept.takeTask.2.putBackTask task).2.refresh.2 := by
  rcases applyRule_cases memory outside rule concept with ⟨_, nothing⟩ |
    ⟨task, isTaken, applied, isApplied, result⟩
  · rw [nothing] at failed
    contradiction
  · rw [result] at failed
    have untouched : applied.2 = memory := by
      rw [isApplied]
      refine leavesAlone _ _ _ _ failure ?_
      rw [← isApplied]
      exact failed
    refine ⟨task, isTaken, ?_, ?_, ?_⟩
    · rcases applyRule_cases memory outside noRule concept with ⟨noTask, _⟩ |
        ⟨other, isOther, derived, isDerived, without⟩
      · rw [isTaken] at noTask
        contradiction
      · obtain rfl := Option.some.inj (isTaken.symm.trans isOther)
        rw [without, result, isDerived, untouched]
        rfl
    · rw [result]
      rfl
    · rw [result, untouched]

/-- Firing the concept that is drawn, by what the rule comes to. -/
theorem fireConcept_of_drawn (drawn : memory.concepts.takeOut.1 = some concept) :
    memory.fireConcept outside rule =
      let applied :=
        ({ memory with concepts := memory.concepts.takeOut.2 } : Memory).applyRule outside rule
          concept
      let back := applied.2.2.putBackConcept
        (outside.withTerms ((derivedTasks applied.1).map Task.content)) applied.2.1
      match applied.1 with
      | .error failure => (.error failure, back.2)
      | .ok tasks => (.ok ⟨true, tasks.length, back.1⟩, back.2.inputTasks tasks) := by
  unfold fireConcept
  revert drawn
  rcases memory.concepts.takeOut with ⟨_ | other, concepts⟩
  · exact nofun
  · intro drawn
    obtain rfl := Option.some.inj drawn
    rfl

/-- The memory after a failure is that after firing without a rule. -/
theorem fireConcept_failed (leavesAlone : LeavesAlone rule)
    (failed : (memory.fireConcept outside rule).1 = .error failure) :
    ∃ concept task forgotten,
      memory.concepts.takeOut.1 = some concept ∧ concept.tasks.takeOut.1 = some task ∧
      memory.fireConcept outside noRule =
        (.ok ⟨true, 0, forgotten⟩, (memory.fireConcept outside rule).2) ∧
      (memory.fireConcept outside rule).2 =
        (({ memory with concepts := memory.concepts.takeOut.2 } : Memory).tell
          (concept.takeTask.2.putBackTask task).2.refresh.2).afterPlacing outside
            (memory.concepts.takeOut.2.putBack (concept.recovered task)) := by
  rcases fireConcept_cases memory outside rule with ⟨_, nothing⟩ |
    ⟨concept, drawn, applied, back, isApplied, isBack, cases⟩
  · rw [nothing] at failed
    contradiction
  · rcases cases with ⟨other, failedRule, result⟩ | ⟨tasks, _, result⟩
    · have ruleFailed := failedRule
      rw [isApplied] at ruleFailed
      obtain ⟨task, taskDrawn, without, sameConcept, sameMemory⟩ :=
        applyRule_failed leavesAlone ruleFailed
      rw [← isApplied] at without sameConcept sameMemory
      rw [failedRule] at isBack
      have bare : memory.fireConcept outside noRule = (.ok ⟨true, 0, back.1⟩, back.2) := by
        rw [fireConcept_of_drawn drawn, without, isBack]
        rfl
      have placed : back.2 = applied.2.2.afterPlacing outside
          (applied.2.2.concepts.putBack applied.2.1) := by
        rw [isBack, putBackConcept_memory]
        exact congrArg (fun held => Memory.afterPlacing _ held _) outside.withTerms_nil
      rw [sameConcept, sameMemory] at placed
      rw [result]
      exact ⟨concept, task, back.1, drawn, taskDrawn, bare, placed⟩
    · rw [result] at failed
      contradiction

/-- A rule that always fails makes firing fail, unless it is not applied at all. -/
theorem fireConcept_always (fails : ∀ memory outside concept task, ∃ failure,
    (rule memory outside concept task).1 = .error failure) :
    (∃ failure, (memory.fireConcept outside rule).1 = .error failure) ∨
      memory.fireConcept outside rule = memory.fireConcept outside noRule := by
  unfold fireConcept
  rcases memory.concepts.takeOut with ⟨_ | concept, concepts⟩
  · exact .inr rfl
  · simp only [applyRule]
    rcases concept.takeTask with ⟨_ | task, left⟩
    · exact .inr rfl
    · obtain ⟨failure, failed⟩ := fails { memory with concepts := concepts }
        (outside.withTerms (task.content :: left.contents)) left task
      simp only [failed]
      exact .inl ⟨failure, rfl⟩

/-! ## What comes back -/

/-- A concept was fired with one of its tasks, and both have come back, or have been forgotten;
nobody and nothing else has changed. -/
structure Recovers (outside : Held) (memory after : Memory) (concept : Concept) (task : Task) :
    Prop where
  drawn : memory.concepts.takeOut.1 = some concept
  task_drawn : concept.tasks.takeOut.1 = some task
  tasks : ∀ key, (concept.recovered task).tasks.find? key =
    if key = task.key then concept.tasks.takeOut.2.returning task else concept.tasks.find? key
  concepts : ∀ name, after.concept? name =
    if name = concept.key then memory.concepts.takeOut.2.returning (concept.recovered task)
    else memory.concept? name
  /-- Of a concept that is gone, the observer is dropped, and the entry, unless held. -/
  forgotten : after.concept? concept.key = none →
    (∀ observer, concept.observer = some observer →
        (after.displays.of observer).detached = true) ∧
      ∀ term, after.registry.entry? concept.key = some term →
        after.held outside term.object = true
  registry : ∀ name, (name = concept.key → after.concept? name ≠ none) →
    after.registry.entry? name = memory.registry.entry? name
  newTasks : after.newTasks = memory.newTasks
  lastSerial : after.lastSerial = memory.lastSerial
  cycles : after.cycles = memory.cycles

/-- A concept that leaves as another one is placed loses its observer, and its entry unless it is
held. -/
theorem afterPlacing_forgets (memory : Memory) (outside : Held)
    {placement : Placement Concept Notice} {gone : Concept}
    (departed : placement.departed = some gone) :
    let after := memory.afterPlacing outside placement
    (∀ observer, gone.observer = some observer →
        (after.displays.of observer).detached = true) ∧
      (∀ term, after.registry.entry? gone.key = some term →
        after.held outside term.object = true) ∧
      ∀ name, name ≠ gone.key → after.registry.entry? name = memory.registry.entry? name := by
  have released := memory.registry.entry?_release
    (({ memory with concepts := placement.bag } : Memory).held outside) gone.key
  simp only [Memory.afterPlacing, departed]
  exact ⟨fun _ observes => gone.detach_detaches _ observes, released⟩

/-- Placing leaves the entries alone of all who do not leave. -/
theorem entry?_afterPlacing (memory : Memory) (outside : Held)
    {placement : Placement Concept Notice} {name : String}
    (stays : ∀ gone, placement.departed = some gone → name ≠ gone.key) :
    (memory.afterPlacing outside placement).registry.entry? name =
      memory.registry.entry? name := by
  cases isGone : placement.departed with
  | none => rw [(afterPlacing_keeps memory outside placement).2.1 isGone]
  | some gone => exact (afterPlacing_forgets memory outside isGone).2.2 name (stays gone isGone)

theorem InOrder.recovers_of_failed (inOrder : memory.InOrder parameters (fun _ => True))
    (leavesAlone : LeavesAlone rule)
    (failed : (memory.fireConcept outside rule).1 = .error failure) :
    ∃ concept task, Recovers outside memory (memory.fireConcept outside rule).2 concept task := by
  obtain ⟨concept, task, _, isTaken, taskTaken, _, result⟩ := fireConcept_failed leavesAlone failed
  obtain ⟨_, tasks⟩ := (inOrder.takeConcept.1 concept isTaken).tasks.find?_putBack_takeOut
    taskTaken task rfl
  obtain ⟨departed, found⟩ := inOrder.concepts.find?_putBack_takeOut isTaken
    (concept.recovered task) rfl
  rw [result]
  -- Where the placement and the memory come from does not matter from here on.
  generalize memory.concepts.takeOut.2.putBack (concept.recovered task) = placement at *
  generalize isApplied : ({ memory with concepts := memory.concepts.takeOut.2 } : Memory).tell
    (concept.takeTask.2.putBackTask task).2.refresh.2 = applied at *
  obtain ⟨sameConcepts, _, _, newTasks, lastSerial, cycles⟩ :=
    afterPlacing_keeps applied outside placement
  have concepts : ∀ name, (applied.afterPlacing outside placement).concept? name =
      if name = concept.key then memory.concepts.takeOut.2.returning (concept.recovered task)
      else memory.concept? name := by
    intro name
    rw [concept?, sameConcepts]
    exact found name
  have own : (applied.afterPlacing outside placement).concept? concept.key =
      memory.concepts.takeOut.2.returning (concept.recovered task) := by
    rw [concepts, if_pos rfl]
  have appliedRegistry : applied.registry = memory.registry := by
    rw [← isApplied]
    rfl
  refine ⟨concept, task, isTaken, taskTaken, tasks, concepts, ?_, ?_, ?_, ?_, ?_⟩
  · intro gone
    rw [if_pos (own.symm.trans gone)] at departed
    obtain ⟨detached, unlisted, _⟩ :=
      afterPlacing_forgets applied outside departed
    exact ⟨detached, unlisted⟩
  · intro name stays
    rw [← appliedRegistry]
    refine entry?_afterPlacing applied outside ?_
    intro gone isGone sameName
    rw [isGone] at departed
    split at departed
    · rename_i left
      have goneKey : gone.key = concept.key := by
        rw [Option.some.inj departed]
        rfl
      have ownName : name = concept.key := sameName.trans goneKey
      exact stays ownName (by rw [ownName, own, left])
    · contradiction
  · rw [newTasks, ← isApplied]
    rfl
  · rw [lastSerial, ← isApplied]
    rfl
  · rw [cycles, ← isApplied]
    rfl

/-- Wherever a rule fails and leaves the memory alone, firing and cycles leave the memory that
they leave without a rule, with the concept and the task back or forgotten. A rule that always
fails leaves the same memory also where it is not applied; only what is returned is different. -/
theorem Leads.failing_rule_loses_nothing
    (led : Leads True (empty parameters symbols) memory) (leavesAlone : LeavesAlone rule)
    (outside : Held) :
    (∀ failure, (memory.fireConcept outside rule).1 = .error failure →
      (∃ forgotten, memory.fireConcept outside noRule =
          (.ok ⟨true, 0, forgotten⟩, (memory.fireConcept outside rule).2)) ∧
        ∃ concept task,
          Recovers outside memory (memory.fireConcept outside rule).2 concept task) ∧
    (∀ failure, (memory.runCycle outside rule).1 = .error failure →
      (∃ processed forgotten, memory.runCycle outside noRule =
          (.ok ⟨memory.cycles + 1, processed, true, 0, forgotten⟩,
            (memory.runCycle outside rule).2)) ∧
        ∃ concept task,
          Recovers outside (memory.midCycle outside) (memory.runCycle outside rule).2 concept
            task) ∧
    ((∀ memory outside concept task, ∃ failure,
        (rule memory outside concept task).1 = .error failure) →
      (memory.fireConcept outside rule).2 = (memory.fireConcept outside noRule).2 ∧
        (memory.runCycle outside rule).2 = (memory.runCycle outside noRule).2) := by
  have inOrder := led.withinBounds
  have middleInOrder := inOrder.midCycle Budget.lasting_true outside
  refine ⟨?_, ?_, ?_⟩
  · intro failure failed
    obtain ⟨_, _, forgotten, _, _, without, _⟩ := fireConcept_failed leavesAlone failed
    exact ⟨⟨forgotten, without⟩, inOrder.recovers_of_failed leavesAlone failed⟩
  · intro failure failed
    have fireFailed : ((memory.midCycle outside).fireConcept outside rule).1 = .error failure := by
      rw [runCycle_of_midCycle] at failed
      cases outcome : ((memory.midCycle outside).fireConcept outside rule).1 with
      | ok firing => simp [outcome, Except.map] at failed
      | error other => simpa [outcome, Except.map] using failed
    obtain ⟨_, _, forgotten, _, _, without, _⟩ := fireConcept_failed leavesAlone fireFailed
    rw [runCycle_of_midCycle memory outside noRule, runCycle_of_midCycle memory outside rule,
      without]
    exact ⟨⟨_, forgotten, rfl⟩, middleInOrder.recovers_of_failed leavesAlone fireFailed⟩
  · intro fails
    have sameFired : ∀ memory : Memory,
        (memory.fireConcept outside rule).2 = (memory.fireConcept outside noRule).2 := by
      intro memory
      rcases fireConcept_always fails with ⟨failure, failed⟩ | same
      · obtain ⟨_, _, _, _, _, without, _⟩ := fireConcept_failed leavesAlone failed
        rw [without]
      · rw [same]
    exact ⟨sameFired memory, sameFired (memory.midCycle outside)⟩

/-- A memory with one concept, which is observed and will not outlast its firing. -/
def fleeting : Memory :=
  let leaf : Term := .atom 0 "leaf"
  let budget : Budget := .corrected Single.one Single.zero Single.zero
  let told := ((empty {} .usual).inputTask ⟨⟨leaf, .question, .input 1 0⟩, budget, .input⟩).2
  ((told.processNewTask Held.nothing).2.editConcept "leaf"
    (Observation.startPlay (.recording "watcher")).change).2

/-- The rule fails while the concept and its task are out. Both are forgotten, as they are without
a rule, and the observer is told. -/
theorem fleeting_loses_nothing :
    let failure : Failure := .reductionTooDeep "leaf" 0
    let rule : Rule := fun memory _ _ _ => (.error failure, memory)
    let after := (fleeting.fireConcept Held.nothing rule).2
    (fleeting.fireConcept Held.nothing rule).1 = .error failure ∧
      after = (fleeting.fireConcept Held.nothing noRule).2 ∧
      (fleeting.concepts.keys, after.concepts.keys) = (["leaf"], []) ∧
      (after.displays.of (.recording "watcher")).detached = true := by
  intro failure rule after
  have led : Leads True (empty {} .usual) fleeting :=
    (((Leads.here _).inputTask _).processNewTask _).observe _ _
  have leavesAlone : LeavesAlone rule := fun _ _ _ _ _ _ => rfl
  have nothing := (led.failing_rule_loses_nothing leavesAlone Held.nothing).2.2
    fun _ _ _ _ => ⟨failure, rfl⟩
  have fired : (fleeting.fireConcept Held.nothing rule).1 = .error failure ∧
      (fleeting.concepts.keys, after.concepts.keys) = (["leaf"], []) ∧
      (after.displays.of (.recording "watcher")).detached = true := by
    decide +kernel
  exact ⟨fired.1, nothing.1, fired.2⟩

end Memory

end AttentiveReasoner
