import AttentiveReasoner.Proofs.Attention.Bag.Displacement
import AttentiveReasoner.Proofs.Memory.Upkeep
import AttentiveReasoner.Reasoner

/-!
Contract: the concepts that a memory loses, and those that its cycles report as forgotten.

Owns:
- the three ways in which a cycle loses concepts: crowded out by a delivery, driven out by the
  rule, or forgotten when the fired concept is put back;
- that a cycle loses no more than these, and reports the last kind;
- the same for the counters of a reasoner.

Does not own: which concepts are lost.

A delivered task makes concepts of its content and of the two sides of it. In a full bag each
new one crowds somebody out, and no report counts that.
-/

namespace AttentiveReasoner

open AttentiveReasoner.Attention
open AttentiveReasoner.Evidence
open AttentiveReasoner.Inference
open AttentiveReasoner.Knowledge
open AttentiveReasoner.Language
open AttentiveReasoner.Numeric

namespace Memory

/-- The number of concepts that one memory has and a later one has not. -/
def lost (before after : Memory) : Nat :=
  (before.concepts.names \ after.concepts.names).card

/-- The number of concepts that the next delivery may crowd out: by how many the concepts, with
those that the task concerns, exceed the capacity. -/
def crowding (memory : Memory) : Nat :=
  match memory.newTasks.takeOut.1 with
  | none => 0
  | some task =>
      (memory.concepts.names ∪ ((targets task.content).map Term.name).toFinset).card -
        memory.concepts.capacity

/-- The number of concepts that a rule drives out while it is applied to the concept that is
drawn next. -/
def drivenOut (memory : Memory) (outside : Held) (rule : Rule) : Nat :=
  match memory.concepts.takeOut with
  | (none, _) => 0
  | (some concept, concepts) =>
      let left := { memory with concepts := concepts }
      left.lost (left.applyRule outside rule concept).2.2

variable {parameters : Parameters} {symbols : Symbols} {admits : Budget → Prop}
  {memory before middle after : Memory} {outside : Held} {concept : Concept} {task : Task}
  {rule : Rule}

theorem lost_trans (before middle after : Memory) :
    before.lost after ≤ before.lost middle + middle.lost after := by
  refine (Finset.card_le_card ?_).trans (Finset.card_union_le _ _)
  intro name member
  obtain ⟨resided, absent⟩ := Finset.mem_sdiff.mp member
  by_cases stayed : name ∈ middle.concepts.names
  · exact Finset.mem_union_right _ (Finset.mem_sdiff.mpr ⟨stayed, absent⟩)
  · exact Finset.mem_union_left _ (Finset.mem_sdiff.mpr ⟨resided, stayed⟩)

theorem lost_of_sameNames (same : after.concepts.names = before.concepts.names) :
    before.lost after = 0 := by
  rw [lost, same, Finset.sdiff_self, Finset.card_empty]

/-! ## Delivery -/

theorem names_editConcept {ρ : Type} (memory : Memory) (name : String)
    (change : Concept → Concept × List Notice × ρ) :
    (memory.editConcept name change).2.concepts.names = memory.concepts.names := by
  rw [editConcept_memory]
  exact Bag.names_edit memory.concepts name change

theorem InOrder.activate_displaces (inOrder : memory.InOrder parameters admits)
    (outside : Held) (term : Term) (budget : Budget) :
    Bag.Displaces parameters.conceptBagSize {term.name} memory.concepts.names
      (memory.activate outside term budget).2.concepts.names := by
  rcases activate_cases memory outside term budget with
    ⟨_, reinforced⟩ | ⟨_, entered⟩
  · rw [reinforced, names_editConcept]
    refine .refl _ ?_
    rw [inOrder.concepts.consistent.card_names]
    exact inOrder.concepts.size_le
  · rw [entered, (afterPlacing_keeps memory outside _).1]
    exact inOrder.concepts.put_displaces (memory.newcomer term budget)

theorem InOrder.deliver_displaces (inOrder : memory.InOrder parameters admits)
    (outside : Held) (task : Task) (term : Term) :
    Bag.Displaces parameters.conceptBagSize {term.name} memory.concepts.names
      (memory.deliver outside task term).concepts.names := by
  have activated := inOrder.activate_displaces outside term task.budget
  rcases deliver_cases memory outside task term with rejected | received
  · rw [rejected]
    exact activated
  · rw [received, names_editConcept]
    exact activated

theorem InOrder.deliverAll_displaces (inOrder : memory.InOrder parameters (fun _ => True))
    (outside : Held) (task : Task) (terms : List Term) :
    Bag.Displaces parameters.conceptBagSize (terms.map Term.name).toFinset memory.concepts.names
      (terms.foldl (fun memory term => memory.deliver outside task term)
        memory).concepts.names := by
  induction terms generalizing memory with
  | nil =>
      refine .refl _ ?_
      rw [inOrder.concepts.consistent.card_names]
      exact inOrder.concepts.size_le
  | cons term rest inductionHypothesis =>
      have delivered : (memory.deliver outside task term).InOrder parameters (fun _ => True) :=
        inOrder.deliver Budget.lasting_true trivial outside term
      rw [List.map_cons, List.toFinset_cons, Finset.insert_eq]
      exact (inOrder.deliver_displaces outside task term).trans (inductionHypothesis delivered)

/-- A delivery crowds out no more concepts than exceed the capacity. -/
theorem InOrder.processNewTask_lost (inOrder : memory.InOrder parameters (fun _ => True))
    (outside : Held) : memory.lost (memory.processNewTask outside).2 ≤ memory.crowding := by
  obtain ⟨_, left⟩ := inOrder.takeNewTask
  unfold crowding
  rcases processNewTask_cases memory outside with ⟨nothing, result⟩ | ⟨task, isTaken, result⟩
  · rw [result]
    exact (lost_of_sameNames rfl).trans_le (Nat.zero_le _)
  · rw [result, isTaken, inOrder.concepts.capacity_eq]
    exact (left.deliverAll_displaces (outside.withTerms [task.content]) task
      (targets task.content)).card_lost

/-! ## Firing -/

theorem putBackConcept_count (memory : Memory) (outside : Held) (concept : Concept) :
    (memory.putBackConcept outside concept).1 =
      if (memory.concepts.putBack concept).departed = none then 0 else 1 := by
  simp only [putBackConcept]
  cases (memory.concepts.putBack concept).departed with
  | none => rfl
  | some gone => rfl

/-- The rule is given the concept and gives back one of the same name. -/
theorem applyRule_key (memory : Memory) (outside : Held) (rule : Rule) (concept : Concept) :
    (memory.applyRule outside rule concept).2.1.key = concept.key := by
  rcases applyRule_cases memory outside rule concept with ⟨_, nothing⟩ | ⟨task, _, _, _, result⟩
  · rw [nothing]
    rfl
  · rw [result]
    rfl

theorem drivenOut_of_drawn (drawn : memory.concepts.takeOut.1 = some concept) :
    memory.drivenOut outside rule =
      lost { memory with concepts := memory.concepts.takeOut.2 }
        (({ memory with concepts := memory.concepts.takeOut.2 } : Memory).applyRule outside rule
          concept).2.2 := by
  unfold drivenOut
  revert drawn
  rcases memory.concepts.takeOut with ⟨_ | other, concepts⟩
  · exact nofun
  · intro drawn
    rw [Option.some.inj drawn]

/-- A rule that leaves the concepts alone drives nobody out. -/
theorem drivenOut_of_sameConcepts
    (same : ∀ memory outside concept task,
      (rule memory outside concept task).2.concepts = memory.concepts)
    (memory : Memory) (outside : Held) : memory.drivenOut outside rule = 0 := by
  unfold drivenOut
  rcases memory.concepts.takeOut with ⟨_ | concept, concepts⟩
  · rfl
  · refine lost_of_sameNames ?_
    rcases applyRule_cases { memory with concepts := concepts } outside rule concept with
      ⟨_, nothing⟩ | ⟨task, _, applied, isApplied, result⟩
    · rw [nothing]
    · have stayed : applied.2.concepts = concepts := by
        rw [isApplied, same]
      rw [result]
      exact congrArg Bag.names stayed

/-- A concept that was drawn is put back into a memory that others may have left meanwhile. -/
theorem lost_of_returning (before left applied after : Memory) {key : String}
    (drawn : before.concepts.names = insert key left.concepts.names) :
    before.lost after ≤ left.lost applied +
      (insert key applied.concepts.names \ after.concepts.names).card := by
  refine (Finset.card_le_card ?_).trans (Finset.card_union_le _ _)
  rw [drawn]
  intro name member
  obtain ⟨resided, absent⟩ := Finset.mem_sdiff.mp member
  by_cases stayed : name ∈ insert key applied.concepts.names
  · exact Finset.mem_union_right _ (Finset.mem_sdiff.mpr ⟨stayed, absent⟩)
  · rw [Finset.mem_insert, not_or] at stayed
    have inLeft := (Finset.mem_insert.mp resided).resolve_left stayed.1
    exact Finset.mem_union_left _ (Finset.mem_sdiff.mpr ⟨inLeft, stayed.2⟩)

/-- Firing loses what it reports as forgotten and what the rule drives out. -/
theorem InOrder.fireConcept_lost (inOrder : memory.InOrder parameters (fun _ => True))
    (ruleInOrder : RuleInOrder parameters (fun _ => True) rule) {firing : Firing}
    (fired : (memory.fireConcept outside rule).1 = .ok firing) :
    memory.lost (memory.fireConcept outside rule).2 ≤
      firing.forgotten + memory.drivenOut outside rule := by
  rcases fireConcept_cases memory outside rule with ⟨nothing, result⟩ |
    ⟨concept, drawn, applied, back, isApplied, isBack, cases⟩
  · have stayed : memory.concepts.takeOut.2.names = memory.concepts.names := by
      rw [Bag.names, (Bag.takeOut_none nothing).1, Bag.names]
    rw [result]
    exact (lost_of_sameNames stayed).trans_le (Nat.zero_le _)
  · obtain ⟨taken, left⟩ := inOrder.takeConcept
    obtain ⟨appliedInOrder, _⟩ :=
      left.applyRule Budget.lasting_true (taken concept drawn) ruleInOrder outside
    have sameKey := applyRule_key { memory with concepts := memory.concepts.takeOut.2 } outside
      rule concept
    rw [← isApplied] at appliedInOrder sameKey
    have departed := appliedInOrder.concepts.card_lost_putBack applied.2.1
    have count := putBackConcept_count applied.2.2
      (outside.withTerms ((derivedTasks applied.1).map Task.content)) applied.2.1
    rw [← isBack] at count
    have backConcepts : back.2.concepts = (applied.2.2.concepts.putBack applied.2.1).bag := by
      rw [isBack, putBackConcept_memory]
      exact (afterPlacing_keeps _ _ _).1
    -- The drawn concept counts as there until it is put back: it is lost then or not at all.
    have returned := lost_of_returning memory
      { memory with concepts := memory.concepts.takeOut.2 } applied.2.2 back.2
      (inOrder.concepts.consistent.names_takeOut drawn)
    rcases cases with ⟨failure, _, result⟩ | ⟨tasks, _, result⟩
    · rw [result] at fired
      contradiction
    · rw [result] at fired ⊢
      have forgotten : firing.forgotten = back.1 := by rw [← Except.ok.inj fired]
      have sameLost : memory.lost (back.2.inputTasks tasks) = memory.lost back.2 := by
        rw [lost, concepts_inputTasks, lost]
      have key : Item.key applied.2.1 = Item.key concept := sameKey
      rw [sameLost, drivenOut_of_drawn drawn, ← isApplied, forgotten, count]
      rw [backConcepts, ← key] at returned
      omega

/-! ## Cycles -/

/-- What a cycle loses beside what it reports. -/
def unreported (memory : Memory) (outside : Held) (rule : Rule) : Nat :=
  memory.crowding + (memory.midCycle outside).drivenOut outside rule

theorem InOrder.runCycle_lost (inOrder : memory.InOrder parameters (fun _ => True))
    (ruleInOrder : RuleInOrder parameters (fun _ => True) rule) {report : CycleReport}
    (returned : (memory.runCycle outside rule).1 = .ok report) :
    memory.lost (memory.runCycle outside rule).2 ≤
      report.forgotten + memory.unreported outside rule := by
  have begun : ({ memory with cycles := memory.cycles + 1 } : Memory).InOrder parameters
      (fun _ => True) := inOrder.of_sameBags rfl rfl rfl
  have crowded : memory.lost (memory.midCycle outside) ≤ memory.crowding :=
    begun.processNewTask_lost outside
  rw [runCycle_of_midCycle] at returned
  change memory.lost ((memory.midCycle outside).fireConcept outside rule).2 ≤ _
  cases fired : ((memory.midCycle outside).fireConcept outside rule).1 with
  | error failure =>
      rw [fired] at returned
      contradiction
  | ok firing =>
      rw [fired] at returned
      have forgotten : report.forgotten = firing.forgotten := by
        rw [← Except.ok.inj returned]
      have lostFiring :=
        (inOrder.midCycle Budget.lasting_true outside).fireConcept_lost ruleInOrder fired
      have total := lost_trans memory (memory.midCycle outside)
        ((memory.midCycle outside).fireConcept outside rule).2
      unfold unreported
      omega

end Memory

namespace Reasoner

/-- The sum over the completed cycles of a run of a number that each of them has. -/
def total
    (count : Memory → Memory → Nat)
    (reasoner : Reasoner)
    (memory : Memory)
    (outside : Held) :
    (steps : Nat) → Nat
  | 0 => 0
  | steps + 1 =>
      match reasoner.step memory outside with
      | (.error _, _, _) => 0
      | (.ok _, later, after) => count memory after + later.total count after outside steps

/-- Along a run, the counter of forgotten concepts rises by all that the cycles lose, but for
what they do not report. -/
theorem run_lost {parameters : Parameters} {symbols : Symbols} (reasoner : Reasoner)
    {memory : Memory} (led : Memory.Leads True (Memory.empty parameters symbols) memory)
    (leads : ∀ memory outside concept task,
      Memory.Leads True memory (reasoner.rule memory outside concept task).2)
    (outside : Held) (steps : Nat) :
    reasoner.counters.forgotten + reasoner.total Memory.lost memory outside steps ≤
      (reasoner.run memory outside steps).2.1.counters.forgotten +
        reasoner.total (fun memory _ => memory.unreported outside reasoner.rule) memory outside
          steps := by
  induction steps generalizing reasoner memory with
  | zero => exact Nat.le_refl _
  | succ steps inductionHypothesis =>
      have ruleInOrder : Memory.RuleInOrder parameters (fun _ => True) reasoner.rule :=
        Memory.leads_ruleInOrder leads
      have lostCycle : ∀ report, (memory.runCycle outside reasoner.rule).1 = .ok report →
          memory.lost (memory.runCycle outside reasoner.rule).2 ≤
            report.forgotten + memory.unreported outside reasoner.rule :=
        fun _ returned => led.withinBounds.runCycle_lost ruleInOrder returned
      have ledOn := led.runCycle trivial outside leads
      revert lostCycle ledOn
      simp only [run, total, step]
      rcases memory.runCycle outside reasoner.rule with ⟨failure | report, after⟩
      · intro _ _
        exact Nat.le_refl _
      · intro lostCycle ledOn
        have now : memory.lost after ≤
            report.forgotten + memory.unreported outside reasoner.rule := lostCycle report rfl
        have rest := inductionHypothesis
          { reasoner with counters := reasoner.counters.record report } ledOn leads
        have recorded : (reasoner.counters.record report).forgotten =
            reasoner.counters.forgotten + report.forgotten := rfl
        simp only at rest ⊢
        omega

/-- A cycle that completes loses no more concepts than it reports as forgotten, but for those
crowded out by its delivery and those that the rule drives out; and so does a reasoner along a
run. A rule that leaves the concepts alone drives nobody out. -/
theorem losses_beyond_forgotten {parameters : Parameters} {symbols : Symbols} {memory : Memory}
    {rule : Rule} (led : Memory.Leads True (Memory.empty parameters symbols) memory)
    (leads : ∀ memory outside concept task,
      Memory.Leads True memory (rule memory outside concept task).2)
    (outside : Held) :
    (∀ report, (memory.runCycle outside rule).1 = .ok report →
      memory.lost (memory.runCycle outside rule).2 ≤
        report.forgotten + memory.unreported outside rule) ∧
    (∀ counters steps,
      let reasoner : Reasoner := ⟨rule, counters⟩
      counters.forgotten + reasoner.total Memory.lost memory outside steps ≤
        (reasoner.run memory outside steps).2.1.counters.forgotten +
          reasoner.total (fun memory _ => memory.unreported outside rule) memory outside steps) ∧
    ((∀ memory outside concept task,
        (rule memory outside concept task).2.concepts = memory.concepts) →
      ∀ memory : Memory, memory.unreported outside rule = memory.crowding) := by
  refine ⟨?_, ?_, ?_⟩
  · intro report returned
    refine led.withinBounds.runCycle_lost ?_ returned
    exact Memory.leads_ruleInOrder leads
  · exact fun counters steps => run_lost ⟨rule, counters⟩ led leads outside steps
  · intro same memory
    rw [Memory.unreported, Memory.drivenOut_of_sameConcepts same, Nat.add_zero]

/-- Parameters for a single concept. -/
def narrow : Parameters where
  conceptBagSize := 1

/-- A memory that knows `a`, while a stronger task about `b` waits. -/
def crowded : Memory :=
  let strong : Budget := .corrected (Single.hundredths 90) (Single.hundredths 90)
    (Single.hundredths 50)
  let weak : Budget := .corrected (Single.hundredths 30) (Single.hundredths 50)
    (Single.hundredths 50)
  let told := ((Memory.empty narrow .usual).activate Held.nothing (.atom 0 "a") weak).2
  (told.inputTask ⟨⟨.atom 1 "b", .judgment, .input 1 0⟩, strong, .input⟩).2

/-- The delivery crowds `a` out, and the cycle reports no loss. -/
theorem crowded_losses_beyond_forgotten :
    let report : CycleReport := ⟨1, true, true, 0, 0⟩
    (crowded.runCycle Held.nothing noRule).1 = .ok report ∧
      crowded.lost (crowded.runCycle Held.nothing noRule).2 = 1 ∧ report.forgotten = 0 ∧
      crowded.lost (crowded.runCycle Held.nothing noRule).2 ≤
        report.forgotten + crowded.unreported Held.nothing noRule := by
  intro report
  have led : Memory.Leads True (Memory.empty narrow .usual) crowded :=
    ((Memory.Leads.here _).activate _ _ _).inputTask _
  have ran : (crowded.runCycle Held.nothing noRule).1 = .ok report ∧
      crowded.lost (crowded.runCycle Held.nothing noRule).2 = 1 := by
    decide +kernel
  exact ⟨ran.1, ran.2, rfl,
    (losses_beyond_forgotten led (fun memory _ _ _ => .here memory) Held.nothing).1 report ran.1⟩

end Reasoner

end AttentiveReasoner
