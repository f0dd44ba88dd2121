import AttentiveReasoner.Proofs.Inference.Chaining
import AttentiveReasoner.Proofs.Memory.Settlement

/-!
Contract: rules at work, cycles, and whole runs of a caller.

Owns:
- that a known rule keeps the registry, with what it derives held besides, and that
  chaining fails only possibly;
- firing and cycles, with the concept and its task out of their bags;
- the invariant along every run of a caller.

Does not own: what follows from the invariant.
-/

namespace AttentiveReasoner

open AttentiveReasoner.Evidence
open AttentiveReasoner.Inference
open AttentiveReasoner.Knowledge
open AttentiveReasoner.Language
open AttentiveReasoner.Language.Term

namespace Memory

variable {parameters : Parameters} {symbols : Symbols} {copies : List ObjectId}
  {others : List Term} {memory : Memory} {outside : Held} {concept : Concept} {task : Task}

/-! ## Rules -/

theorem Settled.derivesNothing {outcome : Except Failure (List Task)}
    (settled : memory.Settled parameters symbols copies others)
    (nothing : derivedTasks outcome = []) :
    memory.Settled parameters symbols copies
      (others ++ (derivedTasks outcome).map Task.content) := by
  rw [nothing, List.map_nil, List.append_nil]
  exact settled

/-- Chaining is given a concept and a task that are held outside of the memory. -/
theorem Settled.chaining (settled : memory.Settled parameters symbols copies others)
    (counts : outside.Counts others) (decay : Float32)
    (taskGiven : task.content ∈ others)
    (conceptGiven : ∀ term ∈ concept.contents, term ∈ others) :
    (chaining decay memory outside concept task).2.Settled parameters symbols copies
        (others ++
          (derivedTasks (chaining decay memory outside concept task).1).map Task.content) ∧
      FailsPossibly symbols (chaining decay memory outside concept task).1 := by
  unfold Inference.chaining
  split
  · rename_i copula sides hasCopula hasSides
    split
    · exact ⟨settled.derivesNothing rfl, .ok []⟩
    · obtain ⟨subjectMember, predicateMember⟩ := sides?_mem hasSides
      have taskInside : Inside (others ++ memory.contents) task.content := inside_others taskGiven
      have beliefsInside : ∀ belief ∈ concept.beliefs.sentences,
          Inside (others ++ memory.contents) belief.content := by
        intro belief member
        refine inside_others (conceptGiven belief.content ?_)
        exact List.mem_cons_of_mem _
          (List.mem_append_right _ (List.mem_map.mpr ⟨belief, member, rfl⟩))
      have derives : Derives symbols copies (others ++ memory.contents)
          (chainWith memory.symbols (memory.held outside) memory.cycles (decayOf decay) copula
            sides task concept.beliefs.sentences [] memory.registry) := by
        rw [settled.symbols_eq]
        refine chainWith_derives (held_counts memory counts)
          (fun term member => settled.formed (.of_mem member))
          ⟨taskInside.component subjectMember, taskInside.component predicateMember⟩
          beliefsInside settled.entries ?_ (fun _ member => (nomatch member))
        rw [List.map_nil, List.append_nil]
        exact settled.unique
      refine ⟨?_, derives.fails⟩
      exact
        { symbols_eq := settled.symbols_eq
          entries := derives.entries
          unique := by
            refine derives.unique.mono ?_
            intro term member
            refine .of_mem ?_
            simp only [List.mem_append] at member ⊢
            rcases member with (outer | new) | inner
            · exact .inl (.inl outer)
            · exact .inr new
            · exact .inl (.inr inner)
          outer := by
            intro term member
            rcases List.mem_append.mp member with outer | new
            · exact settled.outer term outer
            · obtain ⟨conclusion, isDerived, rfl⟩ := List.mem_map.mp new
              exact derives.derived conclusion isDerived
          holds := settled.holds.of_sameBags rfl rfl rfl }
  · exact ⟨settled.derivesNothing rfl, .ok []⟩

theorem Settled.infer (settled : memory.Settled parameters symbols copies others)
    (counts : outside.Counts others) (rule : KnownRule)
    (taskGiven : task.content ∈ others)
    (conceptGiven : ∀ term ∈ concept.contents, term ∈ others) :
    (rule.rule memory outside concept task).2.Settled parameters symbols copies
      (others ++
        (derivedTasks (rule.rule memory outside concept task).1).map Task.content) := by
  rcases rule.known memory outside concept task with nothing | ⟨decay, chains⟩ | ⟨failure, fails⟩
  · rw [nothing]
    exact settled.derivesNothing rfl
  · rw [chains]
    exact (settled.chaining counts decay taskGiven conceptGiven).1
  · rw [fails]
    exact settled.derivesNothing rfl

/-! ## Firing -/

/-- A concept out of its bag, and the task it is to be applied to. -/
theorem Settled.takeTask
    (settled : memory.Settled parameters symbols copies (others ++ concept.contents))
    (sound : concept.Sound parameters) :
    concept.takeTask.2.Holds parameters (· ∈ concept.contents) ∧
      ∀ task, concept.takeTask.1 = some task →
        Concerns task.content concept.key ∧
          memory.Settled parameters symbols copies
            (others ++ (task.content :: concept.takeTask.2.contents)) := by
  have ownHolds : concept.Holds parameters (· ∈ concept.contents) :=
    { sound := sound
      term := List.mem_cons_self
      matters := fun _ member => List.mem_cons_of_mem _ member }
  obtain ⟨taken, leftHolds⟩ := takeTask_holds ownHolds
  refine ⟨leftHolds, ?_⟩
  intro task isTaken
  obtain ⟨taskInside, concerns⟩ := taken task isTaken
  refine ⟨concerns, settled.drop ?_⟩
  intro term member
  rcases List.mem_append.mp member with outer | inner
  · exact List.mem_append_left _ outer
  · refine List.mem_append_right _ ?_
    rcases List.mem_cons.mp inner with rfl | left
    · exact taskInside
    · exact leftHolds.contents term left

/-- A concept out of its bag has a rule applied to it. -/
theorem Settled.applyRule
    (settled : memory.Settled parameters symbols copies (others ++ concept.contents))
    (counts : outside.Counts others) (sound : concept.Sound parameters) (rule : KnownRule) :
    (memory.applyRule outside rule.rule concept).2.2.Settled parameters symbols copies
        (others ++
          (derivedTasks (memory.applyRule outside rule.rule concept).1).map Task.content ++
          (memory.applyRule outside rule.rule concept).2.1.contents) ∧
      (memory.applyRule outside rule.rule concept).2.1.Sound parameters := by
  obtain ⟨leftHolds, taken⟩ := settled.takeTask sound
  rcases applyRule_cases memory outside rule.rule concept with ⟨_, nothing⟩ |
    ⟨task, isTaken, applied, isApplied, result⟩
  · rw [nothing]
    refine ⟨settled.drop ?_, leftHolds.sound⟩
    intro term member
    simp only [derivedTasks, List.map_nil, List.append_nil] at member
    rcases List.mem_append.mp member with outer | left
    · exact List.mem_append_left _ outer
    · exact List.mem_append_right _ (leftHolds.contents term left)
  · obtain ⟨concerns, inHand⟩ := taken task isTaken
    have inferred := inHand.infer
      (counts.withTerms (task.content :: concept.takeTask.2.contents)) rule
      (List.mem_append_right _ List.mem_cons_self)
      (fun term member => List.mem_append_right _ (List.mem_cons_of_mem _ member))
    rw [← isApplied] at inferred
    have handHolds : concept.takeTask.2.Holds parameters
        (· ∈ task.content :: concept.takeTask.2.contents) :=
      { sound := leftHolds.sound
        term := List.mem_cons_of_mem _ List.mem_cons_self
        matters := fun _ member => List.mem_cons_of_mem _ (List.mem_cons_of_mem _ member) }
    have backHolds := putBackTask_holds handHolds List.mem_cons_self concerns
    rw [result]
    refine ⟨inferred.move rfl rfl (inferred.holdsWithin.of_sameBags rfl rfl rfl) ?_,
      backHolds.sound⟩
    intro term member
    refine inside_others ?_
    rcases List.mem_append.mp member with known | back
    · rcases List.mem_append.mp known with outer | new
      · exact List.mem_append_left _ (List.mem_append_left _ outer)
      · exact List.mem_append_right _ new
    · exact List.mem_append_left _ (List.mem_append_right _ (backHolds.contents term back))

theorem Settled.takeConcept (settled : memory.Settled parameters symbols copies others)
    (isTaken : memory.concepts.takeOut.1 = some concept) :
    ({ memory with concepts := memory.concepts.takeOut.2 } : Memory).Settled parameters symbols
        copies (others ++ concept.contents) ∧
      concept.Sound parameters := by
  obtain ⟨taken, left⟩ := settled.holdsWithin.takeConcept
  have conceptHolds := taken concept isTaken
  refine ⟨settled.move rfl rfl left ?_, conceptHolds.sound⟩
  intro term member
  rcases List.mem_append.mp member with outer | inner
  · exact inside_others outer
  · exact (conceptHolds.contents term inner).inside

theorem Settled.fireConcept (settled : memory.Settled parameters symbols copies others)
    (counts : outside.Counts others) (rule : KnownRule) :
    (memory.fireConcept outside rule.rule).2.Settled parameters symbols copies others := by
  rcases fireConcept_cases memory outside rule.rule with ⟨_, nothing⟩ |
    ⟨concept, isTaken, applied, back, isApplied, isBack, cases⟩
  · rw [nothing]
    exact settled.move rfl rfl settled.holdsWithin.takeConcept.2
      fun _ member => inside_others member
  · obtain ⟨out, sound⟩ := settled.takeConcept isTaken
    obtain ⟨appliedSettled, backSound⟩ := out.applyRule counts sound rule
    rw [← isApplied] at appliedSettled backSound
    have returned := appliedSettled.putBackConcept
      (counts.withTerms ((derivedTasks applied.1).map Task.content)) backSound
    rw [← isBack] at returned
    rcases cases with ⟨failure, _, result⟩ | ⟨tasks, succeeded, result⟩
    · rw [result]
      exact returned.drop fun _ member => List.mem_append_left _ member
    · rw [result]
      have entered : (back.2.inputTasks tasks).Settled parameters symbols copies
          (others ++ (derivedTasks applied.1).map Task.content) := by
        refine returned.inputTasks ?_
        intro task member
        refine List.mem_append_right _ (List.mem_map.mpr ⟨task, ?_, rfl⟩)
        rw [succeeded]
        exact member
      exact entered.drop fun _ member => List.mem_append_left _ member

/-! ## Cycles -/

/-- The memory between the delivery and the firing of a cycle. -/
theorem Settled.midCycle (settled : memory.Settled parameters symbols copies others)
    (counts : outside.Counts others) :
    (({ memory with cycles := memory.cycles + 1 } : Memory).processNewTask outside).2.Settled
      parameters symbols copies others := by
  have begun : ({ memory with cycles := memory.cycles + 1 } : Memory).Settled parameters symbols
      copies others :=
    settled.move rfl rfl (settled.holdsWithin.of_sameBags rfl rfl rfl)
      fun _ member => inside_others member
  exact begun.processNewTask counts

theorem Settled.runCycle (settled : memory.Settled parameters symbols copies others)
    (counts : outside.Counts others) (rule : KnownRule) :
    (memory.runCycle outside rule.rule).2.Settled parameters symbols copies others :=
  (settled.midCycle counts).fireConcept counts rule

end Memory

namespace Exchange

variable {parameters : Parameters} {symbols : Symbols} {made : List ObjectId}
  {exchange : Exchange}

/-! ## Runs -/

/-- A settled exchange: its memory is, and what the caller holds besides. -/
def Settled (parameters : Parameters) (symbols : Symbols) (made : List ObjectId)
    (exchange : Exchange) : Prop :=
  exchange.memory.Settled parameters symbols made exchange.session.terms

theorem outside_counts (exchange : Exchange) : exchange.outside.Counts exchange.session.terms :=
  exchange.session.held_counts

/-- What the caller can see of a settled exchange is formed. -/
theorem Settled.session_formed (settled : exchange.Settled parameters symbols made) :
    exchange.session.Formed symbols :=
  ⟨settled.entries, settled.outer⟩

theorem memory_held_counts (exchange : Exchange) :
    (exchange.memory.held Held.nothing).Counts exchange.memory.contents :=
  Held.nothing_counts.withTerms exchange.memory.contents

theorem Settled.answer_settles (settled : exchange.Settled parameters symbols made)
    (request : Request) :
    Settles (made ++ exchange.session.copied request)
      (exchange.memory.contents ++ exchange.session.terms) exchange.memory.registry
      (exchange.answer request) := by
  unfold Exchange.answer
  rw [settled.symbols_eq]
  refine Session.answer_settles settled.session_formed (settled.unique.mono ?_)
    exchange.memory_held_counts request
  intro term member
  refine .of_mem ?_
  rw [List.mem_append] at member ⊢
  exact member.symm

theorem Settled.build (settled : exchange.Settled parameters symbols made) (request : Request) :
    (exchange.perform (.build request)).Settled parameters symbols
      (made ++ exchange.session.copied request) := by
  have received :
      (exchange.session.receive request (exchange.answer request)).registry.Unique
        (made ++ exchange.session.copied request)
        (exchange.memory.contents ++
          (exchange.session.receive request (exchange.answer request)).terms) :=
    Session.receive_unique (settled.answer_settles request)
  have forms : Forms symbols (exchange.answer request) := by
    unfold Exchange.answer
    rw [settled.symbols_eq]
    exact settled.session_formed.answer _ request
  have receivedFormed :
      (exchange.session.receive request (exchange.answer request)).Formed symbols :=
    settled.session_formed.receive forms
  exact
    { symbols_eq := settled.symbols_eq
      entries := receivedFormed.registry
      unique := by
        refine received.mono ?_
        intro term member
        refine .of_mem ?_
        rw [List.mem_append] at member ⊢
        exact member.symm
      outer := receivedFormed.terms
      holds := settled.holds.of_sameBags rfl rfl rfl }

/-- What is at a place is held by the caller. -/
theorem inside_of_result? {place : Nat} {term : Term}
    (result : exchange.session.result? place = some term) :
    Inside (exchange.session.terms ++ exchange.memory.contents) term :=
  .of_mem (List.mem_append_left _ (Session.result?_mem result))

theorem Settled.perform (settled : exchange.Settled parameters symbols made)
    (action : Action) :
    (exchange.perform action).Settled parameters symbols (made ++ exchange.copied action) := by
  have noCopy : exchange.copied action = [] → made ++ exchange.copied action = made := by
    intro none
    rw [none, List.append_nil]
  cases action with
  | build request => exact settled.build request
  | newTask place punctuation =>
      rw [noCopy rfl]
      simp only [Exchange.perform]
      split
      · exact settled.move rfl rfl (settled.holdsWithin.of_sameBags rfl rfl rfl)
          fun _ member => Memory.inside_others member
      · exact settled
  | inputTask place punctuation stamp budget origin =>
      rw [noCopy rfl]
      simp only [Exchange.perform]
      split
      · rename_i term result
        exact Memory.Settled.inputTask settled (inside_of_result? result)
      · exact settled
  | activate place budget =>
      rw [noCopy rfl]
      simp only [Exchange.perform]
      split
      · rename_i term result
        exact Memory.Settled.activate settled exchange.outside_counts (inside_of_result? result)
          budget
      · exact settled
  | processNewTask =>
      rw [noCopy rfl]
      exact Memory.Settled.processNewTask settled exchange.outside_counts
  | fire rule =>
      rw [noCopy rfl]
      exact Memory.Settled.fireConcept settled exchange.outside_counts rule
  | cycle rule =>
      rw [noCopy rfl]
      exact Memory.Settled.runCycle settled exchange.outside_counts rule

theorem Settled.run (settled : exchange.Settled parameters symbols made)
    (actions : List Action) :
    (exchange.run actions).Settled parameters symbols (made ++ exchange.copies actions) := by
  induction actions generalizing exchange made with
  | nil =>
      rw [Exchange.copies, List.append_nil]
      exact settled
  | cons action rest inductionHypothesis =>
      rw [Exchange.copies, ← List.append_assoc]
      exact inductionHypothesis (settled.perform action)

/-- Every exchange is settled, but for the copies that its run made. -/
theorem of_settled (parameters : Parameters) (symbols : Symbols) (actions : List Action) :
    (of parameters symbols actions).Settled parameters symbols
      ((start parameters symbols).copies actions) := by
  have nothing : (start parameters symbols).Settled parameters symbols [] :=
    Memory.empty_settled parameters symbols
  exact nothing.run actions

end Exchange

end AttentiveReasoner
