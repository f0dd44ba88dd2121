import AttentiveReasoner.Inference.Chaining
import AttentiveReasoner.Memory.Cycle
import AttentiveReasoner.Proofs.Language.Failures
import AttentiveReasoner.Proofs.Language.Identity

/-!
Contract: what structural chaining makes of the registry.

Owns:
- that a conclusion is built from sides of the premises;
- what a derived task looks like;
- that chaining keeps the registry, with the derived contents held besides, and fails only
  possibly.

Does not own: the memory around the rule.

What was derived is held while the chain goes on. So the registry is kept at every belief
for the terms held so far and the contents derived so far.
-/

namespace AttentiveReasoner.Inference

open AttentiveReasoner.Evidence
open AttentiveReasoner.Knowledge
open AttentiveReasoner.Language
open AttentiveReasoner.Language.Term
open AttentiveReasoner.Memory (derivedTasks)
open AttentiveReasoner.Numeric

variable [Arithmetic]

/-! ## Conclusions -/

omit [Arithmetic] in
theorem sides?_mem {term : Term} {sides : Term × Term} (hasSides : sides? term = some sides) :
    sides.1 ∈ term.components ∧ sides.2 ∈ term.components := by
  unfold sides? at hasSides
  split at hasSides
  · rename_i subject predicate hasSubject hasPredicate
    rw [← Option.some.inj hasSides]
    exact ⟨Construction.subject?_mem hasSubject, Construction.predicate?_mem hasPredicate⟩
  · contradiction

omit [Arithmetic] in
/-- A conclusion has the sides of its premises. -/
theorem conclusion?_sides {copula : Copula} {task belief : Term × Term} {conclusion : Conclusion}
    {good : Term → Prop} (concludes : conclusion? copula task belief = some conclusion)
    (taskGood : good task.1 ∧ good task.2) (beliefGood : good belief.1 ∧ good belief.2) :
    good conclusion.subject ∧ good conclusion.predicate := by
  unfold conclusion? at concludes
  split at concludes
  · rw [← Option.some.inj concludes]
    exact ⟨taskGood.1, beliefGood.2⟩
  · split at concludes
    · rw [← Option.some.inj concludes]
      exact ⟨beliefGood.1, taskGood.2⟩
    · split at concludes
      · obtain ⟨symmetric, _, rfl⟩ := Option.map_eq_some_iff.mp concludes
        exact ⟨beliefGood.2, taskGood.2⟩
      · contradiction

omit [Arithmetic] in
theorem conclusionFrom?_inside {terms : List Term} {copula : Copula} {sides : Term × Term}
    {stamp : Stamp} {belief : Sentence} {conclusion : Conclusion}
    (concludes : conclusionFrom? copula sides stamp belief = some conclusion)
    (sidesInside : Inside terms sides.1 ∧ Inside terms sides.2)
    (beliefInside : Inside terms belief.content) :
    Inside terms conclusion.subject ∧ Inside terms conclusion.predicate := by
  unfold conclusionFrom? at concludes
  split at concludes
  · contradiction
  · obtain ⟨beliefSides, hasSides, concludes⟩ := Option.bind_eq_some_iff.mp concludes
    obtain ⟨subjectMember, predicateMember⟩ := sides?_mem hasSides
    exact conclusion?_sides concludes sidesInside
      ⟨beliefInside.component subjectMember, beliefInside.component predicateMember⟩

/-! ## Derived tasks -/

/-- The task that a task and a belief lead to, once the content is made. -/
def derivedTask (cycle : Nat) (decay : Float32) (task : Task) (belief : Sentence)
    (content : Term) : Task :=
  ⟨⟨content, .judgment, .derived task.sentence.stamp belief.stamp cycle⟩,
    conclusionBudget decay task.budget, .derived⟩

/-- Every task that a chain derives comes from one of the beliefs and is a conclusion of it. -/
theorem chainWith_derived {symbols : Symbols} {held : Held} {cycle : Nat} {decay : Float32}
    {copula : Copula} {sides : Term × Term} {task : Task} {beliefs : List Sentence}
    {derived : List Task} {registry : Registry} {conclusion : Task}
    (isDerived : conclusion ∈ derivedTasks
      (chainWith symbols held cycle decay copula sides task beliefs derived registry).1) :
    conclusion ∈ derived ∨
      ∃ belief ∈ beliefs, ∃ content,
        (conclusionFrom? copula sides task.sentence.stamp belief).isSome = true ∧
          conclusion = derivedTask cycle decay task belief content := by
  induction beliefs generalizing derived registry with
  | nil => exact .inl isDerived
  | cons first rest inductionHypothesis =>
      have later : (∃ belief ∈ rest, ∃ content,
          (conclusionFrom? copula sides task.sentence.stamp belief).isSome = true ∧
            conclusion = derivedTask cycle decay task belief content) →
          ∃ belief ∈ first :: rest, ∃ content,
            (conclusionFrom? copula sides task.sentence.stamp belief).isSome = true ∧
              conclusion = derivedTask cycle decay task belief content := by
        rintro ⟨belief, member, isConclusion⟩
        exact ⟨belief, List.mem_cons_of_mem _ member, isConclusion⟩
      rw [chainWith] at isDerived
      split at isDerived
      · exact (inductionHypothesis isDerived).imp_right later
      · rename_i found concludes
        split at isDerived
        · contradiction
        · exact (inductionHypothesis isDerived).imp_right later
        · rename_i content _ _
          rcases inductionHypothesis isDerived with before | fromRest
          · rcases List.mem_append.mp before with old | new
            · exact .inl old
            · refine .inr ⟨first, List.mem_cons_self, content, ?_, List.mem_singleton.mp new⟩
              rw [concludes, Option.isSome_some]
          · exact .inr (later fromRest)

/-- Chaining leaves everything but the registry as it is, and derives tasks with the budget of a
conclusion. -/
theorem chaining_budgets (decay : Float32) (memory : Memory) (outside : Held)
    (concept : Concept) (task : Task) :
    (∃ registry, (chaining decay memory outside concept task).2 =
        { memory with registry := registry }) ∧
      ∀ conclusion ∈ derivedTasks (chaining decay memory outside concept task).1,
        conclusion.budget = conclusionBudget (decayOf decay) task.budget := by
  unfold chaining
  split
  · split
    · exact ⟨⟨memory.registry, rfl⟩, fun _ member => nomatch member⟩
    · refine ⟨⟨_, rfl⟩, ?_⟩
      intro conclusion isDerived
      rcases chainWith_derived isDerived with nothing | ⟨belief, _, content, _, rfl⟩
      · contradiction
      · rfl
  · exact ⟨⟨memory.registry, rfl⟩, fun _ member => nomatch member⟩

/-! ## Chaining -/

/-- An inference that keeps the registry, with what was derived held besides. -/
structure Derives (symbols : Symbols) (copies : List ObjectId) (terms : List Term)
    (inferred : Except Failure (List Task) × Registry) : Prop where
  entries : inferred.2.Formed symbols
  unique : inferred.2.Unique copies (terms ++ (derivedTasks inferred.1).map Task.content)
  derived : ∀ task ∈ derivedTasks inferred.1, task.content.Formed symbols
  fails : FailsPossibly symbols inferred.1

variable {symbols : Symbols} {copies : List ObjectId} {terms : List Term} {held : Held}

theorem chainWith_derives {cycle : Nat} {decay : Float32} {copula : Copula}
    {sides : Term × Term} {task : Task} {beliefs : List Sentence} {derived : List Task}
    {registry : Registry}
    (counts : held.Counts terms)
    (formed : ∀ term ∈ terms, term.Formed symbols)
    (sidesInside : Inside terms sides.1 ∧ Inside terms sides.2)
    (beliefsInside : ∀ belief ∈ beliefs, Inside terms belief.content)
    (entries : registry.Formed symbols)
    (unique : registry.Unique copies (terms ++ derived.map Task.content))
    (derivedFormed : ∀ task ∈ derived, task.content.Formed symbols) :
    Derives symbols copies terms
      (chainWith symbols held cycle decay copula sides task beliefs derived registry) := by
  -- Every belief may add a derived task and entries, so both vary.
  induction beliefs generalizing derived registry with
  | nil => exact ⟨entries, unique, derivedFormed, .ok derived⟩
  | cons belief rest inductionHypothesis =>
      have restInside : ∀ other ∈ rest, Inside terms other.content :=
        fun other member => beliefsInside other (List.mem_cons_of_mem _ member)
      rw [chainWith]
      split
      · exact inductionHypothesis restInside entries unique derivedFormed
      · rename_i conclusion concludes
        obtain ⟨subjectInside, predicateInside⟩ := conclusionFrom?_inside concludes sidesInside
          (beliefsInside belief List.mem_cons_self)
        have insideFormed : ∀ {term : Term}, Inside terms term → term.Formed symbols := by
          rintro term ⟨whole, member, isPart⟩
          exact (formed whole member).ofPart isPart
        have more : ∀ {term : Term}, Inside terms term →
            ∀ other ∈ some term, Inside (terms ++ derived.map Task.content) other := by
          rintro term inside other ⟨⟩
          exact inside_append.mpr (.inl inside)
        have stillFormed : ∀ {term : Term}, Inside terms term →
            ∀ other ∈ some term, other.Formed symbols := by
          rintro term inside other ⟨⟩
          exact insideFormed inside
        have forms : Forms symbols (Construction.statement symbols
            (held.withTerms (derived.map Task.content)) conclusion.copula
            (some conclusion.subject) (some conclusion.predicate) registry) :=
          Construction.statement_forms entries (stillFormed subjectInside)
            (stillFormed predicateInside)
        have registers : Registers copies (terms ++ derived.map Task.content) registry
            (Construction.statement symbols (held.withTerms (derived.map Task.content))
              conclusion.copula (some conclusion.subject) (some conclusion.predicate)
              registry) :=
          Construction.statement_registers unique
            (counts.withTerms (derived.map Task.content)) (more subjectInside)
            (more predicateInside) (stillFormed predicateInside)
        have fails : FailsPossibly symbols (Construction.statement symbols
            (held.withTerms (derived.map Task.content)) conclusion.copula
            (some conclusion.subject) (some conclusion.predicate) registry).1 :=
          Construction.statement_fails entries (stillFormed subjectInside)
            (stillFormed predicateInside)
        split
        · rename_i failure left made
          rw [made] at forms registers fails
          refine ⟨forms.registry, registers.kept.mono ?_, fun _ member => (nomatch member), ?_⟩
          · intro term member
            refine .of_mem (List.mem_append_left _ ?_)
            simpa [derivedTasks] using member
          · rintro other ⟨⟩
            exact fails failure rfl
        · rename_i left made
          rw [made] at forms registers
          exact inductionHypothesis restInside forms.registry registers.kept derivedFormed
        · rename_i content left made
          rw [made] at forms registers
          refine inductionHypothesis restInside forms.registry ?_ ?_
          · refine (registers.made content rfl).mono ?_
            intro term member
            refine .of_mem ?_
            rw [List.map_append, ← List.append_assoc] at member
            rcases List.mem_append.mp member with old | new
            · exact List.mem_cons_of_mem _ old
            · rw [List.mem_singleton.mp new]
              exact List.mem_cons_self
          · intro other member
            rcases List.mem_append.mp member with old | new
            · exact derivedFormed other old
            · rw [List.mem_singleton.mp new]
              exact forms.term content rfl

end AttentiveReasoner.Inference
