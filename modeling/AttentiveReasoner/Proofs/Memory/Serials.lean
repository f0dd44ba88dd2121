import AttentiveReasoner.Proofs.Memory.Upkeep

/-!
Contract: concepts of one memory never share what they draw.

Owns:
- the serial numbers of the bag of concepts, which every operation and every run counts up or
  leaves alone;
- that a concept created later is created with a later serial number.

Does not own: the draws. Nothing is assumed about what is supplied under two serial numbers.

A rule at work may create concepts while its own concept is away. The count goes on from there
when that concept is put back.
-/

namespace AttentiveReasoner.Memory

open AttentiveReasoner.Attention
open AttentiveReasoner.Evidence
open AttentiveReasoner.Inference
open AttentiveReasoner.Knowledge
open AttentiveReasoner.Language
open AttentiveReasoner.Numeric

variable [Arithmetic] {memory start later : Memory} {outside : Held} {rule : Rule}

/-! ## Activation and delivery -/

theorem lastSerial_editConcept {ρ : Type} (memory : Memory) (name : String)
    (change : Concept → Concept × List Notice × ρ) :
    (memory.editConcept name change).2.concepts.lastSerial = memory.concepts.lastSerial := by
  rw [editConcept_memory]
  exact Bag.lastSerial_edit memory.concepts name change

/-- A concept that is put in is given a new serial number, even if it is pushed out at once. -/
theorem lastSerial_activate_of_free {term : Term} (free : memory.concept? term.name = none)
    (outside : Held) (budget : Budget) :
    (memory.activate outside term budget).2.concepts.lastSerial =
      memory.concepts.lastSerial + 1 := by
  have placed : (memory.concepts.put (memory.newcomer term budget)).bag.lastSerial =
      memory.concepts.lastSerial + 1 :=
    Bag.lastSerial_put_of_free (Bag.find?_eq_none_iff.mp free)
  rw [activate_of_free free, (afterPlacing_keeps memory outside _).1, placed]

theorem lastSerial_le_activate (memory : Memory) (outside : Held) (term : Term)
    (budget : Budget) :
    memory.concepts.lastSerial ≤ (memory.activate outside term budget).2.concepts.lastSerial := by
  cases found : memory.concept? term.name with
  | none =>
      rw [lastSerial_activate_of_free found]
      exact Nat.le_succ _
  | some concept => rw [activate_of_resident found, lastSerial_editConcept]

theorem lastSerial_le_deliver (memory : Memory) (outside : Held) (task : Task) (term : Term) :
    memory.concepts.lastSerial ≤ (memory.deliver outside task term).concepts.lastSerial := by
  have activated := lastSerial_le_activate memory outside term task.budget
  rcases deliver_cases memory outside task term with rejected | received
  · rw [rejected]
    exact activated
  · rw [received, lastSerial_editConcept]
    exact activated

theorem lastSerial_le_deliverAll (memory : Memory) (outside : Held) (task : Task)
    (terms : List Term) :
    memory.concepts.lastSerial ≤
      (terms.foldl (fun memory term => memory.deliver outside task term)
        memory).concepts.lastSerial := by
  induction terms generalizing memory with
  | nil => exact Nat.le_refl _
  | cons term rest inductionHypothesis =>
      exact (lastSerial_le_deliver memory outside task term).trans (inductionHypothesis _)

theorem lastSerial_le_processNewTask (memory : Memory) (outside : Held) :
    memory.concepts.lastSerial ≤ (memory.processNewTask outside).2.concepts.lastSerial := by
  rcases processNewTask_cases memory outside with ⟨_, result⟩ | ⟨task, _, result⟩
  · rw [result]
  · rw [result]
    exact lastSerial_le_deliverAll { memory with newTasks := memory.newTasks.takeOut.2 } _ task _

/-! ## Firing -/

/-- A rule that gives no serial number of a concept twice. -/
def CountsUp (rule : Rule) : Prop :=
  ∀ memory outside concept task,
    memory.concepts.lastSerial ≤ (rule memory outside concept task).2.concepts.lastSerial

theorem lastSerial_le_applyRule (counts : CountsUp rule) (memory : Memory) (outside : Held)
    (concept : Concept) :
    memory.concepts.lastSerial ≤
      (memory.applyRule outside rule concept).2.2.concepts.lastSerial := by
  rcases applyRule_cases memory outside rule concept with ⟨_, nothing⟩ |
    ⟨task, _, applied, isApplied, result⟩
  · rw [nothing]
  · rw [result, isApplied]
    exact counts memory _ _ task

theorem lastSerial_le_fireConcept (counts : CountsUp rule) (memory : Memory) (outside : Held) :
    memory.concepts.lastSerial ≤ (memory.fireConcept outside rule).2.concepts.lastSerial := by
  have taken := Bag.lastSerial_takeOut memory.concepts
  rcases fireConcept_cases memory outside rule with ⟨_, nothing⟩ |
    ⟨concept, _, applied, back, isApplied, isBack, cases⟩
  · rw [nothing]
    exact Nat.le_of_eq taken.symm
  · have ruled := lastSerial_le_applyRule counts
      { memory with concepts := memory.concepts.takeOut.2 } outside concept
    rw [← isApplied] at ruled
    have returned : back.2.concepts = (applied.2.2.concepts.putBack applied.2.1).bag := by
      rw [isBack, putBackConcept_memory]
      exact (afterPlacing_keeps _ _ _).1
    have grown : memory.concepts.lastSerial ≤ back.2.concepts.lastSerial := by
      calc memory.concepts.lastSerial
          = memory.concepts.takeOut.2.lastSerial := taken.symm
        _ ≤ applied.2.2.concepts.lastSerial := ruled
        _ ≤ (applied.2.2.concepts.putBack applied.2.1).bag.lastSerial :=
            Bag.lastSerial_le_putBack _ _
        _ = back.2.concepts.lastSerial := by rw [returned]
    rcases cases with ⟨failure, _, result⟩ | ⟨tasks, _, result⟩
    · rw [result]
      exact grown
    · rw [result, concepts_inputTasks]
      exact grown

/-! ## Along a run -/

/-- No run takes back a serial number that the bag of concepts has given. -/
theorem Leads.lastSerial_le {mayFire : Prop} (led : Leads mayFire start memory) :
    start.concepts.lastSerial ≤ memory.concepts.lastSerial := by
  induction led with
  | here memory => exact Nat.le_refl _
  | aside led registry lastSerial cycles inductionHypothesis => exact inductionHypothesis
  | inputTask led task inductionHypothesis => exact inductionHypothesis
  | activate led outside term budget inductionHypothesis =>
      exact inductionHypothesis.trans (lastSerial_le_activate _ outside term budget)
  | processNewTask led outside inductionHypothesis =>
      exact inductionHypothesis.trans (lastSerial_le_processNewTask _ outside)
  | fireConcept led fires outside rule leads inductionHypothesis ruleHypothesis =>
      exact inductionHypothesis.trans (lastSerial_le_fireConcept ruleHypothesis _ outside)
  | observe led name observation inductionHypothesis =>
      rw [lastSerial_editConcept]
      exact inductionHypothesis

/-- Whatever happens after a concept was put in, the next newcomer is created with a later serial
number, and so its bag draws what is supplied to another place. -/
theorem Leads.newcomer_lt {mayFire : Prop} {term : Term} {budget : Budget}
    (free : memory.concept? term.name = none)
    (led : Leads mayFire (memory.activate outside term budget).2 later) :
    memory.concepts.lastSerial + 1 < later.concepts.lastSerial + 1 := by
  have given := led.lastSerial_le
  rw [lastSerial_activate_of_free free] at given
  exact Nat.lt_succ_of_le given

end AttentiveReasoner.Memory
