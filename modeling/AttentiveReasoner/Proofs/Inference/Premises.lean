import AttentiveReasoner.Proofs.Evidence.Stamps
import AttentiveReasoner.Proofs.Inference.Chaining

/-!
Contract: conclusions and the premises they were drawn from.

Owns:
- the conclusions of a task and a belief;
- that chaining passes over every belief that overlaps the task, as if it were not there;
- that a conclusion never meets its premises again, in either role.

Does not own: indirect premises. The base of a conclusion is bounded, so evidence of
premises further back may be lost.
-/

namespace AttentiveReasoner.Inference

open AttentiveReasoner.Evidence
open AttentiveReasoner.Knowledge
open AttentiveReasoner.Language
open AttentiveReasoner.Memory (derivedTasks)

variable {decay : Float32} {memory : Memory} {outside : Held} {concept : Concept}
  {task conclusion : Task} {belief : Sentence}

/-! ## Premises -/

/-- A task and a belief have a conclusion, and this is the task that says so. -/
structure DrawnFrom (cycle : Nat) (decay : Float32) (task : Task) (belief : Sentence)
    (conclusion : Task) : Prop where
  concludes : ∃ copula sides,
    task.content.copula? = some copula ∧ sides? task.content = some sides ∧
      (conclusionFrom? copula sides task.sentence.stamp belief).isSome = true
  conclusion_eq :
    conclusion = derivedTask cycle (decayOf decay) task belief conclusion.content

theorem drawn_of_derived
    (isDerived : conclusion ∈ derivedTasks (chaining decay memory outside concept task).1) :
    ∃ belief ∈ concept.beliefs.sentences,
      DrawnFrom memory.cycles decay task belief conclusion := by
  unfold chaining at isDerived
  split at isDerived
  · rename_i copula sides hasCopula hasSides
    split at isDerived
    · contradiction
    · rcases chainWith_derived isDerived with nothing | ⟨belief, member, content, concludes, rfl⟩
      · contradiction
      · exact ⟨belief, member, ⟨copula, sides, hasCopula, hasSides, concludes⟩, rfl⟩
  · contradiction

/-- A conclusion rests on inputs of both premises. -/
theorem DrawnFrom.overlaps {cycle : Nat} (drawn : DrawnFrom cycle decay task belief conclusion)
    (taskBased : task.sentence.stamp.base ≠ []) (beliefBased : belief.stamp.base ≠ []) :
    conclusion.sentence.stamp.overlaps task.sentence.stamp = true ∧
      conclusion.sentence.stamp.overlaps belief.stamp = true := by
  have stamped :
      conclusion.sentence.stamp = .derived task.sentence.stamp belief.stamp cycle := by
    rw [drawn.conclusion_eq]
    rfl
  rw [stamped]
  exact Stamp.derived_overlaps cycle taskBased beliefBased

/-! ## Beliefs that are passed over -/

theorem conclusionFrom?_of_overlaps {copula : Copula} {sides : Term × Term} {stamp : Stamp}
    (overlaps : belief.stamp.overlaps stamp = true) :
    conclusionFrom? copula sides stamp belief = none := by
  simp [conclusionFrom?, overlaps]

/-- Leaving out beliefs that overlap the task makes no difference to a chain: not to the
conclusions, and not to the registry. -/
theorem chainWith_filter {symbols : Symbols} {held : Held} {cycle : Nat} {copula : Copula}
    {sides : Term × Term} {beliefs : List Sentence} {derived : List Task} {registry : Registry}
    {kept : Sentence → Bool}
    (overlaps : ∀ belief ∈ beliefs, kept belief = false →
      belief.stamp.overlaps task.sentence.stamp = true) :
    chainWith symbols held cycle decay copula sides task (beliefs.filter kept) derived registry =
      chainWith symbols held cycle decay copula sides task beliefs derived registry := by
  induction beliefs generalizing derived registry with
  | nil => rfl
  | cons first rest inductionHypothesis =>
      have restOverlaps : ∀ belief ∈ rest, kept belief = false →
          belief.stamp.overlaps task.sentence.stamp = true :=
        fun belief member => overlaps belief (List.mem_cons_of_mem _ member)
      cases keptFirst : kept first with
      | true =>
          rw [List.filter_cons_of_pos keptFirst]
          simp only [chainWith, inductionHypothesis restOverlaps]
      | false =>
          rw [List.filter_cons_of_neg (by simp [keptFirst]), inductionHypothesis restOverlaps]
          have blocked : conclusionFrom? copula sides task.sentence.stamp first = none :=
            conclusionFrom?_of_overlaps (overlaps first List.mem_cons_self keptFirst)
          simp only [chainWith, blocked]

/-- The concept without its beliefs of a stamp. -/
def withoutStamp (concept : Concept) (stamp : Stamp) : Concept :=
  { concept with
    beliefs :=
      { concept.beliefs with
        sentences := concept.beliefs.sentences.filter (fun belief => belief.stamp ≠ stamp) } }

/-- A task derives nothing from beliefs of a stamp: whatever concept it is fired on, all comes
out as it does when the concept does not have them. -/
def Disregards (task : Task) (stamp : Stamp) : Prop :=
  ∀ (decay : Float32) (memory : Memory) (outside : Held) (concept : Concept),
    chaining decay memory outside concept task =
      chaining decay memory outside (withoutStamp concept stamp) task

theorem disregards_of_overlaps {stamp : Stamp}
    (overlaps : stamp.overlaps task.sentence.stamp = true) : Disregards task stamp := by
  intro decay memory outside concept
  have passedOver : ∀ belief ∈ concept.beliefs.sentences,
      decide (belief.stamp ≠ stamp) = false →
        belief.stamp.overlaps task.sentence.stamp = true := by
    intro belief _ dropped
    have same : belief.stamp = stamp := by simpa using dropped
    rw [same]
    exact overlaps
  unfold chaining
  split
  · simp only [withoutStamp, chainWith_filter passedOver]
  · rfl

/-! ## No confirmation -/

/-- A conclusion and its two premises do not meet again. Whoever bears the stamp of the
conclusion disregards both premises, and whoever bears that of a premise disregards the
conclusion. -/
structure KeptApart (task : Task) (belief : Sentence) (conclusion : Task) : Prop where
  overlaps_task : conclusion.sentence.stamp.overlaps task.sentence.stamp = true
  overlaps_belief : conclusion.sentence.stamp.overlaps belief.stamp = true
  conclusion_disregards : ∀ bearer : Task,
    bearer.sentence.stamp = conclusion.sentence.stamp →
      Disregards bearer task.sentence.stamp ∧ Disregards bearer belief.stamp
  premises_disregard : ∀ bearer : Task,
    bearer.sentence.stamp = task.sentence.stamp ∨ bearer.sentence.stamp = belief.stamp →
      Disregards bearer conclusion.sentence.stamp

/-- Every task that chaining derives was drawn from a belief of the concept, and it is kept
apart from the task and the belief that it was drawn from, provided that these rest on any
input. -/
theorem derived_keptApart
    (isDerived : conclusion ∈ derivedTasks (chaining decay memory outside concept task).1) :
    (∃ belief ∈ concept.beliefs.sentences,
        DrawnFrom memory.cycles decay task belief conclusion) ∧
      ∀ belief : Sentence, DrawnFrom memory.cycles decay task belief conclusion →
        task.sentence.stamp.base ≠ [] → belief.stamp.base ≠ [] →
          KeptApart task belief conclusion := by
  refine ⟨drawn_of_derived isDerived, ?_⟩
  intro belief drawn taskBased beliefBased
  obtain ⟨overlapsTask, overlapsBelief⟩ := drawn.overlaps taskBased beliefBased
  constructor
  case overlaps_task => exact overlapsTask
  case overlaps_belief => exact overlapsBelief
  case conclusion_disregards =>
    intro bearer same
    constructor
    · apply disregards_of_overlaps
      rw [same, Stamp.overlaps_comm]
      exact overlapsTask
    · apply disregards_of_overlaps
      rw [same, Stamp.overlaps_comm]
      exact overlapsBelief
  case premises_disregard =>
    intro bearer same
    apply disregards_of_overlaps
    rcases same with sameTask | sameBelief
    · rw [sameTask]
      exact overlapsTask
    · rw [sameBelief]
      exact overlapsBelief

/-- A judgment from a subject to a predicate, on the given inputs. -/
def resting (subject predicate : String) (base : List Nat) : Sentence where
  content := .compound 2 (Symbols.usual.statementName .inheritance subject predicate)
    (.statement .inheritance) [.atom 0 subject, .atom 1 predicate]
  punctuation := .judgment
  stamp := ⟨base, 0⟩

/-- A task on ten inputs, one of them twice. -/
def longTask : Task :=
  ⟨resting "robin" "bird" [1, 1, 2, 3, 4, 5, 6, 7, 8, 9], .standard, .input⟩

/-- A belief on ten other inputs. -/
def longBelief : Sentence :=
  resting "bird" "animal" [11, 11, 12, 13, 14, 15, 16, 17, 18, 19]

/-- The concept of `bird` with that belief. -/
def believing : Concept :=
  let concept := Concept.create (.atom 1 "bird") .standard {} 1
  { concept with beliefs := concept.beliefs.add longBelief }

/-- What the task and the belief lead to. -/
def longConclusions : List Task :=
  derivedTasks
    (chaining usualDecay (Memory.empty {} .usual) Held.nothing believing longTask).1

/-- Of eighteen inputs eight are left to the conclusion, and it is kept apart from both
premises. -/
theorem longConclusions_keptApart :
    longConclusions.map (·.sentence.stamp.base) = [[1, 11, 2, 12, 3, 13, 4, 14]] ∧
      ∀ conclusion ∈ longConclusions, KeptApart longTask longBelief conclusion := by
  refine ⟨by decide +kernel, ?_⟩
  intro conclusion isDerived
  unfold longConclusions at isDerived
  obtain ⟨⟨belief, member, drawn⟩, apart⟩ := derived_keptApart isDerived
  obtain rfl : belief = longBelief := List.mem_singleton.mp member
  exact apart longBelief drawn (by decide) (by decide)

end AttentiveReasoner.Inference
