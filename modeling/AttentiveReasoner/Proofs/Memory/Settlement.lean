import AttentiveReasoner.Proofs.Language.Failures
import AttentiveReasoner.Proofs.Memory.Exchanges
import AttentiveReasoner.Proofs.Memory.Holdings

/-!
Contract: the registry of a memory along every run.

Owns:
- the invariant between a memory, its registry and what is held outside: entries and terms
  are formed, and every held term that is no copy is listed, one under each name;
- that every operation keeps it, also while a concept is out of its bag and a rule chains;
- that every action of a caller keeps it, and hence every run.

Does not own: whether a rule fails.

An operation that only moves terms keeps the invariant because it comes by no new term. The
registry changes in three places: a forgotten concept releases its entry, chaining makes
conclusions, and the caller builds. In each of them what counts as held are exactly the
terms outside and the contents of the memory.
-/

namespace AttentiveReasoner

open AttentiveReasoner.Attention
open AttentiveReasoner.Evidence
open AttentiveReasoner.Inference
open AttentiveReasoner.Knowledge
open AttentiveReasoner.Language
open AttentiveReasoner.Language.Term

namespace Memory

/-! ## Parts of given terms -/

/-- A formed part of given terms. -/
structure Within (symbols : Symbols) (given : List Term) (term : Term) : Prop where
  inside : Inside given term
  formed : term.Formed symbols

variable {parameters : Parameters} {symbols : Symbols} {copies : List ObjectId}
  {others : List Term} {memory : Memory} {outside : Held} {concept : Concept}

/-- A formed content concerns exactly its targets, and they are its parts. -/
theorem target_concerned {content target : Term} (formed : content.Formed symbols)
    (member : target ∈ targets content) :
    PartOf target content ∧ Concerns content target.name := by
  have whole : PartOf content content ∧ Concerns content content.name :=
    ⟨.whole, content, rfl, .inl rfl⟩
  unfold targets at member
  split at member
  · rename_i isStatement
    rcases List.mem_append.mp member with isSide | isWhole
    · refine ⟨.component isSide .whole, target, rfl, .inr ?_⟩
      obtain ⟨copula, hasCopula⟩ := Option.isSome_iff_exists.mp isStatement
      obtain ⟨subject, predicate, sides, _⟩ := formed.normalForm.statement copula hasCopula
      rw [sides] at isSide
      simp only [subject?, predicate?, isStatement, ↓reduceIte, sides]
      rcases List.mem_cons.mp isSide with rfl | isPredicate
      · exact .inl rfl
      · exact .inr (by rw [List.mem_singleton.mp isPredicate]; rfl)
    · rw [List.mem_singleton.mp isWhole]
      exact whole
  · rw [List.mem_singleton.mp member]
    exact whole

/-! ## The invariant -/

/-- The registry lists what is held in the memory and by others, and everything is formed
and in its place. -/
structure Settled (parameters : Parameters) (symbols : Symbols) (copies : List ObjectId)
    (others : List Term) (memory : Memory) : Prop where
  symbols_eq : memory.symbols = symbols
  entries : memory.registry.Formed symbols
  unique : memory.registry.Unique copies (others ++ memory.contents)
  outer : ∀ term ∈ others, term.Formed symbols
  holds : memory.Holds parameters (Term.Formed symbols)

theorem empty_settled (parameters : Parameters) (symbols : Symbols) :
    (empty parameters symbols).Settled parameters symbols [] [] where
  symbols_eq := rfl
  entries := fun _ member => nomatch member
  unique := Registry.empty_unique
  outer := fun _ member => nomatch member
  holds := empty_holds parameters symbols

theorem held_counts (memory : Memory) (counts : outside.Counts others) :
    (memory.held outside).Counts (others ++ memory.contents) :=
  counts.withTerms memory.contents

theorem Settled.formed {term : Term} (settled : memory.Settled parameters symbols copies others)
    (inside : Inside (others ++ memory.contents) term) : term.Formed symbols := by
  obtain ⟨whole, member, isPart⟩ := inside
  rcases List.mem_append.mp member with outer | inner
  · exact (settled.outer whole outer).ofPart isPart
  · exact (settled.holds.contents whole inner).ofPart isPart

theorem Settled.within {term : Term} (settled : memory.Settled parameters symbols copies others)
    (inside : Inside (others ++ memory.contents) term) :
    Within symbols (others ++ memory.contents) term :=
  ⟨inside, settled.formed inside⟩

/-- The memory holds nothing but its own contents. -/
theorem Settled.holdsWithin (settled : memory.Settled parameters symbols copies others) :
    memory.Holds parameters (Within symbols (others ++ memory.contents)) :=
  settled.holds.of_contents fun _ member =>
    settled.within (.of_mem (List.mem_append_right _ member))

/-- Moving terms keeps the invariant. -/
theorem Settled.move {after : Memory} {remaining : List Term}
    (settled : memory.Settled parameters symbols copies others)
    (sameSymbols : after.symbols = memory.symbols)
    (sameRegistry : after.registry = memory.registry)
    (holds : after.Holds parameters (Within symbols (others ++ memory.contents)))
    (covered : ∀ term ∈ remaining, Inside (others ++ memory.contents) term) :
    after.Settled parameters symbols copies remaining where
  symbols_eq := sameSymbols.trans settled.symbols_eq
  entries := sameRegistry ▸ settled.entries
  unique := by
    rw [sameRegistry]
    refine settled.unique.mono ?_
    intro term member
    rcases List.mem_append.mp member with outer | inner
    · exact covered term outer
    · exact (holds.contents term inner).inside
  outer := fun term member => settled.formed (covered term member)
  holds := holds.of_contents fun term member => (holds.contents term member).formed

theorem inside_others {term : Term} (member : term ∈ others) :
    Inside (others ++ memory.contents) term :=
  .of_mem (List.mem_append_left _ member)

/-- Others may let go of terms. -/
theorem Settled.drop {remaining : List Term}
    (settled : memory.Settled parameters symbols copies others)
    (covered : ∀ term ∈ remaining, term ∈ others) :
    memory.Settled parameters symbols copies remaining :=
  settled.move rfl rfl settled.holdsWithin fun term member => inside_others (covered term member)

/-! ## Inputs -/

theorem Settled.inputTask {task : Task}
    (settled : memory.Settled parameters symbols copies others)
    (inside : Inside (others ++ memory.contents) task.content) :
    (memory.inputTask task).2.Settled parameters symbols copies others :=
  settled.move rfl rfl (settled.holdsWithin.inputTask (settled.within inside))
    fun _ member => inside_others member

theorem Settled.inputTasks {tasks : List Task}
    (settled : memory.Settled parameters symbols copies others)
    (given : ∀ task ∈ tasks, task.content ∈ others) :
    (memory.inputTasks tasks).Settled parameters symbols copies others := by
  induction tasks generalizing memory with
  | nil => exact settled
  | cons first rest inductionHypothesis =>
      refine inductionHypothesis (settled.inputTask ?_) ?_
      · exact inside_others (given first List.mem_cons_self)
      · exact fun task member => given task (List.mem_cons_of_mem _ member)

/-! ## Concepts -/

/-- A forgotten concept releases its entry only if nobody holds the term any more. -/
theorem Settled.forgetConcept (settled : memory.Settled parameters symbols copies others)
    (counts : outside.Counts others) (concept : Concept) :
    (memory.forgetConcept outside concept).Settled parameters symbols copies others where
  symbols_eq := settled.symbols_eq
  entries := by
    change (memory.registry.release _ _).2.Formed symbols
    rw [Registry.release_registry, Registry.listed_eq]
    split
    · exact settled.entries
    · exact settled.entries.remove _
  unique := settled.unique.release (held_counts memory counts) concept.key
  outer := settled.outer
  holds := settled.holds.of_sameBags rfl rfl rfl

theorem Settled.afterPlacing {placement : Placement Concept Notice}
    {within : List Term}
    (settled : memory.Settled parameters symbols copies within)
    (counts : outside.Counts others)
    (kept : ∀ term ∈ others, Inside (within ++ memory.contents) term)
    (sound : placement.bag.Sound parameters.conceptBagSize)
    (resident : ∀ concept ∈ placement.bag.items,
      concept.Holds parameters (Within symbols (within ++ memory.contents))) :
    (memory.afterPlacing outside placement).Settled parameters symbols copies others := by
  have placed : ({ memory with concepts := placement.bag }.tell placement.notices).Settled
      parameters symbols copies others :=
    settled.move rfl rfl
      ((settled.holdsWithin.withConcepts sound resident).of_sameBags rfl rfl rfl) kept
  simp only [Memory.afterPlacing]
  split
  · exact placed
  · exact placed.forgetConcept counts _

theorem Settled.activate {term : Term} (settled : memory.Settled parameters symbols copies others)
    (counts : outside.Counts others) (inside : Inside (others ++ memory.contents) term)
    (budget : Budget) :
    (memory.activate outside term budget).2.Settled parameters symbols copies others := by
  have holds := settled.holdsWithin
  rcases activate_cases memory outside term budget with
    ⟨_, reinforced⟩ | ⟨_, entered⟩
  · rw [reinforced]
    refine settled.move ?_ ?_ ?_ fun _ member => inside_others member
    · rw [editConcept_memory]
      rfl
    · rw [editConcept_memory]
      rfl
    · exact holds.editConcept (fun _ => rfl)
        (fun _ conceptHolds _ => reinforce_holds conceptHolds _)
  · rw [entered]
    have created : (memory.newcomer term budget).Holds parameters
        (Within symbols (others ++ memory.contents)) := by
      rw [newcomer, holds.parameters_eq]
      exact create_holds (settled.within inside) budget _
    refine settled.afterPlacing counts (fun _ member => inside_others member)
      (holds.concepts.put _) ?_
    intro concept member
    exact (Concept.stable_holds memory.concepts.forgetCycles parameters _).put
      holds.concepts.consistent holds.resident created concept (.inl member)

/-- A concept that was out of its bag comes back, or is forgotten. -/
theorem Settled.putBackConcept
    (settled : memory.Settled parameters symbols copies (others ++ concept.contents))
    (counts : outside.Counts others)
    (sound : concept.Sound parameters) :
    (memory.putBackConcept outside concept).2.Settled parameters symbols copies others := by
  have holds := settled.holdsWithin
  have within : ∀ term ∈ concept.contents,
      Within symbols (others ++ concept.contents ++ memory.contents) term :=
    fun term member => settled.within (inside_others (List.mem_append_right _ member))
  have conceptHolds : concept.Holds parameters
      (Within symbols (others ++ concept.contents ++ memory.contents)) :=
    { sound := sound
      term := within concept.term List.mem_cons_self
      matters := fun content member => within content (List.mem_cons_of_mem _ member) }
  rw [putBackConcept_memory]
  refine settled.afterPlacing counts
    (fun _ member => inside_others (List.mem_append_left _ member)) (holds.concepts.putBack _) ?_
  intro other member
  exact (Concept.stable_holds memory.concepts.forgetCycles parameters _).putBack
    holds.concepts.consistent holds.resident conceptHolds other (.inl member)

/-! ## Delivery -/

theorem Settled.deliver {task : Task} {term : Term}
    (settled : memory.Settled parameters symbols copies others)
    (counts : outside.Counts others) (given : task.content ∈ others)
    (target : term ∈ targets task.content) :
    (memory.deliver outside task term).Settled parameters symbols copies others := by
  obtain ⟨isPart, concerns⟩ := target_concerned (settled.outer _ given) target
  have activated : (memory.activate outside term task.budget).2.Settled parameters symbols copies
      others :=
    settled.activate counts ((inside_others given).ofPart isPart) task.budget
  rcases deliver_cases memory outside task term with rejected | received
  · rw [rejected]
    exact activated
  · rw [received]
    refine activated.move ?_ ?_ ?_ fun _ member => inside_others member
    · rw [editConcept_memory]
      rfl
    · rw [editConcept_memory]
      rfl
    · refine activated.holdsWithin.editConcept (fun _ => rfl) ?_
      intro concept conceptHolds named
      refine receive_holds conceptHolds (activated.within (inside_others given)) ?_
      rw [named]
      exact concerns

theorem Settled.deliverAll {task : Task} {terms : List Term}
    (settled : memory.Settled parameters symbols copies others)
    (counts : outside.Counts others) (given : task.content ∈ others)
    (targeted : ∀ term ∈ terms, term ∈ targets task.content) :
    (terms.foldl (fun memory term => memory.deliver outside task term) memory).Settled
      parameters symbols copies others := by
  induction terms generalizing memory with
  | nil => exact settled
  | cons first rest inductionHypothesis =>
      refine inductionHypothesis
        (settled.deliver counts given (targeted first List.mem_cons_self)) ?_
      exact fun term member => targeted term (List.mem_cons_of_mem _ member)

theorem Settled.processNewTask (settled : memory.Settled parameters symbols copies others)
    (counts : outside.Counts others) :
    (memory.processNewTask outside).2.Settled parameters symbols copies others := by
  obtain ⟨taken, left⟩ := settled.holdsWithin.takeNewTask
  rcases processNewTask_cases memory outside with ⟨_, same⟩ | ⟨task, isTaken, delivered⟩
  · rw [same]
    exact settled.move rfl rfl left fun _ member => inside_others member
  · rw [delivered]
    -- The task in hand holds its content until it is delivered.
    have inHand : ({ memory with newTasks := memory.newTasks.takeOut.2 } : Memory).Settled
        parameters symbols copies (others ++ [task.content]) := by
      refine settled.move rfl rfl left ?_
      intro term member
      rcases List.mem_append.mp member with outer | content
      · exact inside_others outer
      · rw [List.mem_singleton.mp content]
        exact (taken task isTaken).inside
    have all := inHand.deliverAll (counts.withTerms [task.content])
      (List.mem_append_right _ List.mem_cons_self) (fun _ member => member)
    exact all.drop fun _ member => List.mem_append_left _ member

end Memory

end AttentiveReasoner
