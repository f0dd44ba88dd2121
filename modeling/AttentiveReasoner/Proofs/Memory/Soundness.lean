import AttentiveReasoner.Proofs.Memory.Runs

/-!
Contract: what holds of a memory after every run of its caller.

Owns:
- the bounds on concepts, waiting tasks, local tasks and beliefs;
- that a concept is stored under the name of its term, which the registry lists under that
  name, and that its tasks and beliefs are about it.

Does not own: how the invariant is kept.

A copy is a term that the registry does not know. A concept of a copy is stored and bounded
like any other, but it is not the listed object of its name; all that is said about
identity is said of terms that are no copies.
-/

namespace AttentiveReasoner

open AttentiveReasoner.Evidence
open AttentiveReasoner.Inference
open AttentiveReasoner.Knowledge
open AttentiveReasoner.Language
open AttentiveReasoner.Language.Term

namespace Memory

/-- A memory within its bounds, with its concepts in order. -/
structure Sound (parameters : Parameters) (copies : List ObjectId) (outside : Held)
    (memory : Memory) : Prop where
  concepts_le : memory.concepts.size ≤ parameters.conceptBagSize
  pendingTasks_le : memory.pendingTasks ≤ parameters.taskBufferSize
  stored : ∀ name concept, memory.concept? name = some concept → concept.term.name = name
  listed : ∀ concept ∈ memory.concepts.items, concept.term.object ∉ copies →
    (memory.registry.listed (memory.held outside) concept.term.name).1 = some concept.term
  tasks_le : ∀ concept ∈ memory.concepts.items,
    concept.tasks.size ≤ parameters.taskLinkBagSize
  beliefs_le : ∀ concept ∈ memory.concepts.items,
    concept.beliefs.size ≤ parameters.beliefTableSize
  judgment : ∀ concept ∈ memory.concepts.items,
    ∀ belief ∈ concept.beliefs.sentences, belief.isJudgment = true
  keys_nodup : ∀ concept ∈ memory.concepts.items,
    (concept.beliefs.sentences.map Sentence.key).Nodup
  about : ∀ concept ∈ memory.concepts.items, ∀ content ∈ concept.matters,
    Concerns content concept.term.name

variable {parameters : Parameters} {symbols : Symbols} {copies : List ObjectId}
  {others : List Term} {memory : Memory} {outside : Held} {concept : Concept}

theorem Settled.term_inside (settled : memory.Settled parameters symbols copies others)
    (member : concept ∈ memory.concepts.items) :
    ∀ term ∈ concept.contents, Inside (others ++ memory.contents) term := by
  have all := (forall_mem_contents.mp settled.holdsWithin.contents).1
  exact fun term isContent => (all concept member term isContent).inside

theorem Settled.listed_term (settled : memory.Settled parameters symbols copies others)
    (counts : outside.Counts others) (member : concept ∈ memory.concepts.items)
    (original : concept.term.object ∉ copies) :
    (memory.registry.listed (memory.held outside) concept.term.name).1 = some concept.term := by
  refine (settled.unique.listed_iff (held_counts memory counts)).mpr ⟨?_, original, rfl⟩
  exact settled.term_inside member concept.term List.mem_cons_self

theorem Settled.sound (settled : memory.Settled parameters symbols copies others)
    (counts : outside.Counts others) : memory.Sound parameters copies outside where
  concepts_le := settled.holds.concepts.size_le
  pendingTasks_le := settled.holds.newTasks.size_le
  stored := fun _ _ found => (settled.holds.concepts.consistent.mem_of_find? found).2
  listed := fun _ member => settled.listed_term counts member
  tasks_le := fun concept member => (settled.holds.resident concept member).sound.tasks.size_le
  beliefs_le := fun concept member =>
    (settled.holds.resident concept member).sound.beliefs.size_le
  judgment := fun concept member =>
    (settled.holds.resident concept member).sound.beliefs.judgment
  keys_nodup := fun concept member =>
    (settled.holds.resident concept member).sound.beliefs.keys_nodup
  about := fun concept member => (settled.holds.resident concept member).sound.about

/-- Without copies a content is about the very term of the concept. -/
theorem Settled.about_term (settled : memory.Settled parameters symbols [] others)
    (member : concept ∈ memory.concepts.items) {content : Term}
    (isMatter : content ∈ concept.matters) :
    content = concept.term ∨ content.subject? = some concept.term ∨
      content.predicate? = some concept.term := by
  have contentInside := settled.term_inside member content (List.mem_cons_of_mem _ isMatter)
  have termInside := settled.term_inside member concept.term List.mem_cons_self
  obtain ⟨term, named, isAbout⟩ := (settled.holds.resident concept member).sound.about content
    isMatter
  have inside : Inside (others ++ memory.contents) term := by
    rcases isAbout with rfl | hasSubject | hasPredicate
    · exact contentInside
    · exact contentInside.component (Construction.subject?_mem hasSubject)
    · exact contentInside.component (Construction.predicate?_mem hasPredicate)
  have same : term = concept.term :=
    settled.unique.eq_of_name_eq inside termInside List.not_mem_nil List.not_mem_nil named
  rw [same] at isAbout
  rcases isAbout with isTerm | side
  · exact .inl isTerm.symm
  · exact .inr side

end Memory

namespace Exchange

theorem copies_eq_nil {exchange : Exchange} {actions : List Action}
    (noCopy : ∀ place, .build (.copy place) ∉ actions) : exchange.copies actions = [] := by
  induction actions generalizing exchange with
  | nil => rfl
  | cons action rest inductionHypothesis =>
      have nothing : exchange.copied action = [] := by
        cases action with
        | build request =>
            cases request with
            | copy place => exact absurd List.mem_cons_self (noCopy place)
            | _ => rfl
        | _ => rfl
      rw [copies, nothing, List.nil_append]
      exact inductionHypothesis fun place member => noCopy place (List.mem_cons_of_mem _ member)

/-- After every run the memory is sound, whatever its bags draw. If the caller made no copies,
every concept has the listed term of its name, and its tasks and beliefs are about that term. -/
theorem memory_sound (parameters : Parameters) (symbols : Symbols) (actions : List Action) :
    let exchange := of parameters symbols actions
    exchange.memory.Sound parameters ((start parameters symbols).copies actions)
        exchange.outside ∧
      ((∀ place, .build (.copy place) ∉ actions) →
        ∀ concept ∈ exchange.memory.concepts.items,
          (exchange.memory.registry.listed (exchange.memory.held exchange.outside)
              concept.term.name).1 = some concept.term ∧
            ∀ content ∈ concept.matters,
              content = concept.term ∨ content.subject? = some concept.term ∨
                content.predicate? = some concept.term) := by
  intro exchange
  have settled := of_settled parameters symbols actions
  refine ⟨Memory.Settled.sound settled exchange.outside_counts, ?_⟩
  intro noCopy concept member
  have noCopies : (start parameters symbols).copies actions = [] := copies_eq_nil noCopy
  rw [noCopies] at settled
  exact ⟨Memory.Settled.listed_term settled exchange.outside_counts member List.not_mem_nil,
    fun content isMatter => Memory.Settled.about_term settled member isMatter⟩

/-- The actions that tell a memory of `<a --> b>`, and have it reason with a rule that fails. -/
def teachingActions : List Action :=
  [.build (.word "a"), .build (.word "b"), .build (.statement .inheritance 0 1),
    .inputTask 2 .judgment (.input 1 0) .standard .input,
    .cycle (.ofFailure (.reductionTooDeep "a" 64)), .cycle (.ofDecay usualDecay)]

/-- Three concepts are served by one task, though a rule fails. -/
theorem taught_memory_sound :
    let exchange := of {} {} teachingActions
    exchange.memory.concepts.size = 3 ∧ exchange.memory.Sound {} [] exchange.outside ∧
      ∀ concept ∈ exchange.memory.concepts.items,
        (exchange.memory.registry.listed (exchange.memory.held exchange.outside)
          concept.term.name).1 = some concept.term := by
  have sound := memory_sound {} {} teachingActions
  have noCopy : ∀ place, Action.build (.copy place) ∉ teachingActions := by
    intro place member
    simp [teachingActions] at member
  have noCopies : (start {} {}).copies teachingActions = [] := copies_eq_nil noCopy
  rw [noCopies] at sound
  exact ⟨by decide +kernel, sound.1, fun concept member => (sound.2 noCopy concept member).1⟩

end Exchange

end AttentiveReasoner
