import AttentiveReasoner.Proofs.Attention.Bag.Selecting
import AttentiveReasoner.Proofs.Memory.Deliveries

/-!
Contract: how the waiting tasks of a memory are used up.

Owns:
- what processing a task, and a cycle without a rule, do to the buffer;
- runs of steps each of which takes a task out of the buffer;
- that processing finds a task as often as there are tasks waiting, and each of them once;
- that processing all tasks comes to an end.

Does not own: what the tasks are delivered to. Nothing here depends on the room for concepts, on
what their bag forgets, or on the budgets.

The measure of the loop is the number of waiting tasks. It falls with every task that is drawn,
since a delivery changes concepts only, and a concept that is pushed out drops its tasks without
passing them on.
-/

namespace AttentiveReasoner.Memory

open AttentiveReasoner.Attention
open AttentiveReasoner.Chance
open AttentiveReasoner.Evidence
open AttentiveReasoner.Inference
open AttentiveReasoner.Knowledge
open AttentiveReasoner.Language
open AttentiveReasoner.Numeric

variable {parameters : Parameters} {symbols : Symbols} {memory : Memory} {outside : Held}
  {task : Task}

/-! ## One step -/

theorem InOrder.newTasks_deliverAll (inOrder : memory.InOrder parameters (fun _ => True))
    (outside : Held) (task : Task) (terms : List Term) :
    (terms.foldl (fun memory term => memory.deliver outside task term) memory).newTasks =
      memory.newTasks := by
  induction terms generalizing memory with
  | nil => rfl
  | cons term rest inductionHypothesis =>
      have delivered : (memory.deliver outside task term).InOrder parameters (fun _ => True) :=
        inOrder.deliver Budget.lasting_true trivial outside term
      apply (inductionHypothesis delivered).trans
      exact newTasks_deliver (inOrder.activate_activates outside term task.budget)

/-- Processing tells whether a task was drawn, and leaves the others waiting. -/
theorem InOrder.processNewTask_buffer (inOrder : memory.InOrder parameters (fun _ => True))
    (outside : Held) :
    (memory.processNewTask outside).1 = memory.newTasks.takeOut.1.isSome ∧
      (memory.processNewTask outside).2.newTasks = memory.newTasks.takeOut.2 := by
  obtain ⟨_, left⟩ := inOrder.takeNewTask
  rcases processNewTask_cases memory outside with ⟨nobody, result⟩ | ⟨task, drawn, result⟩
  · rw [result, nobody]
    exact ⟨rfl, rfl⟩
  · rw [result, drawn]
    refine ⟨rfl, ?_⟩
    exact left.newTasks_deliverAll (outside.withTerms [task.content]) task (targets task.content)

/-- Without a rule firing succeeds, and no task is put in. -/
theorem fireConcept_noRule (memory : Memory) (outside : Held) :
    (∃ firing, (memory.fireConcept outside noRule).1 = .ok firing) ∧
      (memory.fireConcept outside noRule).2.newTasks = memory.newTasks := by
  rcases fireConcept_cases memory outside noRule with ⟨_, nothing⟩ |
    ⟨concept, _, applied, back, isApplied, isBack, cases⟩
  · rw [nothing]
    exact ⟨⟨_, rfl⟩, rfl⟩
  · have derivesNothing : applied.1 = .ok [] ∧ applied.2.2.newTasks = memory.newTasks := by
      rw [isApplied]
      rcases applyRule_cases { memory with concepts := memory.concepts.takeOut.2 } outside
        noRule concept with ⟨_, idle⟩ | ⟨task, _, derived, isDerived, result⟩
      · rw [idle]
        exact ⟨rfl, rfl⟩
      · rw [result, isDerived]
        exact ⟨rfl, rfl⟩
    have sameTasks : back.2.newTasks = memory.newTasks := by
      rw [isBack, putBackConcept_memory, ← derivesNothing.2]
      exact (afterPlacing_keeps _ _ _).2.2.2.1
    rcases cases with ⟨failure, failed, _⟩ | ⟨tasks, succeeded, result⟩
    · rw [derivesNothing.1] at failed
      contradiction
    · rw [derivesNothing.1] at succeeded
      rw [result, ← Except.ok.inj succeeded]
      exact ⟨⟨_, rfl⟩, sameTasks⟩

/-- A cycle without a rule reports whether a task was drawn, and leaves the others waiting. -/
theorem InOrder.runCycle_noRule (inOrder : memory.InOrder parameters (fun _ => True))
    (outside : Held) :
    (∃ report, (memory.runCycle outside noRule).1 = .ok report ∧
        report.processed = memory.newTasks.takeOut.1.isSome) ∧
      (memory.runCycle outside noRule).2.newTasks = memory.newTasks.takeOut.2 := by
  have begun : ({ memory with cycles := memory.cycles + 1 } : Memory).InOrder parameters
      (fun _ => True) := inOrder.of_sameBags rfl rfl rfl
  obtain ⟨answer, buffer⟩ := begun.processNewTask_buffer outside
  obtain ⟨⟨firing, fired⟩, sameTasks⟩ := fireConcept_noRule (memory.midCycle outside) outside
  rw [runCycle_of_midCycle, fired]
  exact ⟨⟨_, rfl, answer⟩, sameTasks.trans buffer⟩

/-! ## Steps one after the other -/

/-- The memory after a number of steps, with what is held outside of it during each of them. -/
def afterSteps
    (step : Held → Memory → Memory)
    (outside : Nat → Held)
    (memory : Memory) :
    (count : Nat) → Memory
  | 0 => memory
  | count + 1 => step (outside count) (memory.afterSteps step outside count)

/-- A step that keeps memories in order and leaves the buffer with one task less. -/
def UsesUp (parameters : Parameters) (step : Held → Memory → Memory) : Prop :=
  ∀ outside memory, memory.InOrder parameters (fun _ => True) →
    (step outside memory).InOrder parameters (fun _ => True) ∧
      (step outside memory).newTasks = memory.newTasks.takeOut.2

theorem InOrder.afterSteps {step : Held → Memory → Memory}
    (inOrder : memory.InOrder parameters (fun _ => True)) (usesUp : UsesUp parameters step)
    (outside : Nat → Held) (count : Nat) :
    (memory.afterSteps step outside count).InOrder parameters (fun _ => True) ∧
      (memory.afterSteps step outside count).newTasks = memory.newTasks.afterTaking count := by
  induction count with
  | zero => exact ⟨inOrder, rfl⟩
  | succ count inductionHypothesis =>
      obtain ⟨before, buffer⟩ := inductionHypothesis
      obtain ⟨after, fewer⟩ := usesUp (outside count) _ before
      refine ⟨after, ?_⟩
      rw [buffer] at fewer
      exact fewer

/-- The memory after processing was called a number of times. -/
def afterProcessing (memory : Memory) (outside : Nat → Held) (count : Nat) : Memory :=
  memory.afterSteps (fun outside memory => (memory.processNewTask outside).2) outside count

/-- The memory after a number of cycles without a rule. -/
def afterCycles (memory : Memory) (outside : Nat → Held) (count : Nat) : Memory :=
  memory.afterSteps (fun outside memory => (memory.runCycle outside noRule).2) outside count

theorem processNewTask_usesUp : UsesUp parameters
    (fun outside memory => (memory.processNewTask outside).2) :=
  fun outside _ inOrder =>
    ⟨inOrder.processNewTask Budget.lasting_true outside,
      (inOrder.processNewTask_buffer outside).2⟩

theorem runCycle_usesUp : UsesUp parameters
    (fun outside memory => (memory.runCycle outside noRule).2) := by
  have idle : RuleInOrder parameters (fun _ => True) noRule :=
    leads_ruleInOrder fun memory _ _ _ => (Leads.here memory : Leads True memory memory)
  intro outside memory inOrder
  exact ⟨inOrder.runCycle Budget.lasting_true idle outside, (inOrder.runCycle_noRule outside).2⟩

/-- Whether a cycle reports that a waiting task was delivered; a failure reports nothing. -/
def reportsProcessed : Except Failure CycleReport → Bool
  | .ok report => report.processed
  | .error _ => false

/-- The number of those among the first cycles without a rule that report a task as delivered. -/
def processedCycles (memory : Memory) (outside : Nat → Held) (count : Nat) : Nat :=
  (List.range count).countP fun index =>
    reportsProcessed ((memory.afterCycles outside index).runCycle (outside index) noRule).1

theorem countP_range_lt (count bound : Nat) :
    (List.range count).countP (fun index => decide (index < bound)) = min count bound := by
  induction count with
  | zero => rw [List.range_zero, List.countP_nil, Nat.zero_min]
  | succ count inductionHypothesis =>
      rw [List.range_succ, List.countP_append, inductionHypothesis, List.countP_singleton]
      by_cases below : count < bound
      · rw [if_pos (decide_eq_true below)]
        omega
      · rw [if_neg (by simpa using below)]
        omega

/-- The waiting tasks of a memory are used up by processing, and by cycles without a rule: there is
one to deliver as often as there are tasks waiting, and never after that; each of them is drawn
once; and nothing that is done with them adds to those that wait. -/
structure UsedUp (outside : Nat → Held) (memory : Memory) : Prop where
  answers : ∀ count,
    ((memory.afterProcessing outside count).processNewTask (outside count)).1 =
      decide (count < memory.pendingTasks)
  buffer : ∀ count, (memory.afterProcessing outside (count + 1)).newTasks =
    (memory.afterProcessing outside count).newTasks.takeOut.2
  drawn : ((List.range memory.pendingTasks).filterMap fun count =>
      (memory.afterProcessing outside count).newTasks.takeOut.1).Perm memory.newTasks.items
  keys_nodup : (memory.newTasks.items.map Task.key).Nodup
  reports : ∀ count, ∃ report,
    ((memory.afterCycles outside count).runCycle (outside count) noRule).1 = .ok report ∧
      report.processed = decide (count < memory.pendingTasks)
  processed : ∀ count, memory.processedCycles outside count = min count memory.pendingTasks

theorem InOrder.usedUp (inOrder : memory.InOrder parameters (fun _ => True))
    (outside : Nat → Held) : UsedUp outside memory := by
  have processing := inOrder.afterSteps processNewTask_usesUp outside
  have cycling := inOrder.afterSteps runCycle_usesUp outside
  have isSome := inOrder.newTasks.takeOut_isSome
  have reports : ∀ count, ∃ report,
      ((memory.afterCycles outside count).runCycle (outside count) noRule).1 = .ok report ∧
        report.processed = decide (count < memory.pendingTasks) := by
    intro count
    obtain ⟨⟨report, returned, processed⟩, _⟩ :=
      (cycling count).1.runCycle_noRule (outside count)
    rw [(cycling count).2, isSome] at processed
    exact ⟨report, returned, processed⟩
  constructor
  case answers =>
    intro count
    rw [afterProcessing, ((processing count).1.processNewTask_buffer (outside count)).1,
      (processing count).2, isSome]
    rfl
  case buffer =>
    intro count
    rw [afterProcessing, afterProcessing, (processing (count + 1)).2, (processing count).2]
    rfl
  case drawn =>
    have sameDraws : ((List.range memory.pendingTasks).filterMap fun count =>
        (memory.afterProcessing outside count).newTasks.takeOut.1) =
          memory.newTasks.takings memory.pendingTasks := by
      unfold Bag.takings afterProcessing
      simp only [(processing _).2]
    rw [sameDraws]
    exact inOrder.newTasks.takings_all
  case keys_nodup =>
    have distinct := inOrder.newTasks.consistent.items_nodup
    apply distinct.map_on
    intro left leftMember right rightMember sameKey
    exact inOrder.newTasks.consistent.eq_of_key_eq leftMember rightMember sameKey
  case reports => exact reports
  case processed =>
    intro count
    rw [← countP_range_lt count memory.pendingTasks]
    unfold processedCycles
    apply List.countP_congr
    intro index _
    obtain ⟨report, returned, processed⟩ := reports index
    rw [returned, reportsProcessed, processed]

/-! ## The loop -/

/-- The loop processes a task in each of its rounds, until there is none. -/
theorem InOrder.processUpTo_count (inOrder : memory.InOrder parameters (fun _ => True))
    (outside : Held) (limit : Nat) :
    (memory.processUpTo outside limit).1 = min limit memory.pendingTasks ∧
      (memory.processUpTo outside limit).2.pendingTasks = memory.pendingTasks - limit := by
  induction limit generalizing memory with
  | zero => exact ⟨(Nat.zero_min _).symm, rfl⟩
  | succ limit inductionHypothesis =>
      obtain ⟨answer, buffer⟩ := inOrder.processNewTask_buffer outside
      have isSome := inOrder.newTasks.takeOut_isSome 0
      have fewer := inOrder.newTasks.size_afterTaking 1
      have after := inOrder.processNewTask Budget.lasting_true outside
      have someDrawn : (memory.processNewTask outside).1 = decide (0 < memory.pendingTasks) :=
        answer.trans isSome
      have pending : (memory.processNewTask outside).2.pendingTasks =
          memory.pendingTasks - 1 := by
        rw [pendingTasks, buffer]
        exact fewer
      rw [processUpTo]
      generalize memory.processNewTask outside = processed at after someDrawn pending ⊢
      obtain ⟨drawn, next⟩ := processed
      change next.pendingTasks = _ at pending
      cases drawn with
      | false =>
          have nothing : ¬0 < memory.pendingTasks := of_decide_eq_false someDrawn.symm
          show 0 = _ ∧ next.pendingTasks = _
          omega
      | true =>
          have something : 0 < memory.pendingTasks := of_decide_eq_true someDrawn.symm
          have nextInOrder : next.InOrder parameters (fun _ => True) := after
          obtain ⟨count, left⟩ := inductionHypothesis nextInOrder
          show (next.processUpTo outside limit).1 + 1 = _ ∧
            (next.processUpTo outside limit).2.pendingTasks = _
          omega

/-- Whatever led to a memory, and whatever its buffer draws, the waiting tasks are used up: one by
each call of processing or each cycle without a rule, until none is left. So processing all of
them ends, after as many rounds as there are tasks. -/
theorem Leads.tasks_used_up (led : Leads True (empty parameters symbols) memory)
    (draws : Draws) :
    (∀ outside, UsedUp outside (memory.drawing draws)) ∧
      ∀ outside, ((memory.drawing draws).processAll outside).1 = memory.pendingTasks ∧
        ((memory.drawing draws).processAll outside).2.pendingTasks = 0 := by
  have inOrder : (memory.drawing draws).InOrder parameters (fun _ => True) :=
    { led.withinBounds with
      newTasks := led.withinBounds.newTasks.of_sameIndexes rfl rfl rfl (Nat.le_refl _)
        (Nat.le_refl _) rfl }
  refine ⟨inOrder.usedUp, ?_⟩
  intro outside
  obtain ⟨count, left⟩ := inOrder.processUpTo_count outside
    ((memory.drawing draws).pendingTasks + 1)
  have samePending : (memory.drawing draws).pendingTasks = memory.pendingTasks := rfl
  unfold processAll
  omega

/-- The memory of those who are told of `<a --> b>` and of `<b --> c>`, without any room for
concepts. -/
def roomless : Memory :=
  (Exchange.of { conceptBagSize := 0 } .usual tellingActions).memory

theorem roomless_leads : Leads True (empty { conceptBagSize := 0 } .usual) roomless := by
  have started : Leads True (empty { conceptBagSize := 0 } .usual)
      (Exchange.start { conceptBagSize := 0 } .usual).memory := .here _
  exact started.run tellingActions

/-- Every concept is turned away, and yet each task is drawn once. -/
theorem roomless_used_up :
    let nowhere : Nat → Held := fun _ => Held.nothing
    let drawing := roomless.drawing (fun _ => 0)
    UsedUp nowhere drawing ∧ drawing.pendingTasks = 2 ∧
      (List.range 4).map (fun count =>
          ((drawing.afterProcessing nowhere count).processNewTask Held.nothing).1) =
        [true, true, false, false] ∧
      drawing.processedCycles nowhere 3 = 2 ∧
      (drawing.processAll Held.nothing).1 = 2 ∧
      (drawing.processAll Held.nothing).2.concepts.keys = [] := by
  intro nowhere drawing
  obtain ⟨usedUp, ends⟩ := roomless_leads.tasks_used_up (fun _ => 0)
  have pending : drawing.pendingTasks = 2 := by
    decide +kernel
  have ran : (List.range 4).map (fun count =>
          ((drawing.afterProcessing nowhere count).processNewTask Held.nothing).1) =
        [true, true, false, false] ∧
      (drawing.processAll Held.nothing).2.concepts.keys = [] := by
    decide +kernel
  refine ⟨usedUp nowhere, pending, ran.1, ?_, ?_, ran.2⟩
  · rw [(usedUp nowhere).processed, pending]
    rfl
  · exact (ends Held.nothing).1.trans pending

end AttentiveReasoner.Memory
