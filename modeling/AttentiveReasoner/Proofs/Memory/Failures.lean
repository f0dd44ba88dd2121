import AttentiveReasoner.Proofs.Memory.Runs

/-!
Contract: that ordinary use brings about no failure.

Owns:
- that a cycle with chaining, or without a rule, fails only possibly after any run;
- that no constructor and no such cycle fails under the usual symbols;
- that no constructor fails for want of steps under any symbols.

Does not own: rules other than these. A rule that fails makes its cycle fail.
-/

namespace AttentiveReasoner

open AttentiveReasoner.Evidence
open AttentiveReasoner.Inference
open AttentiveReasoner.Knowledge
open AttentiveReasoner.Language
open AttentiveReasoner.Language.Term

namespace Memory

variable {parameters : Parameters} {symbols : Symbols} {copies : List ObjectId}
  {others : List Term} {memory : Memory} {outside : Held} {concept : Concept}
  {rule : Rule}

/-! ## Cycles -/

/-- A rule in ordinary use: it derives nothing, or chains. -/
def IsOrdinary (rule : Rule) : Prop :=
  rule = noRule ∨ ∃ decay, rule = chaining decay

theorem Settled.applyRule_fails
    (settled : memory.Settled parameters symbols copies (others ++ concept.contents))
    (counts : outside.Counts others) (sound : concept.Sound parameters)
    (ordinary : IsOrdinary rule) :
    FailsPossibly symbols (memory.applyRule outside rule concept).1 := by
  obtain ⟨_, taken⟩ := settled.takeTask sound
  rcases applyRule_cases memory outside rule concept with ⟨_, nothing⟩ |
    ⟨task, isTaken, applied, isApplied, result⟩
  · rw [nothing]
    exact .ok []
  · obtain ⟨_, inHand⟩ := taken task isTaken
    rw [result, isApplied]
    rcases ordinary with rfl | ⟨decay, rfl⟩
    · exact .ok []
    · have chained := inHand.chaining
        (counts.withTerms (task.content :: concept.takeTask.2.contents)) decay
        (List.mem_append_right _ List.mem_cons_self)
        (fun term member => List.mem_append_right _ (List.mem_cons_of_mem _ member))
      exact chained.2

theorem Settled.fireConcept_fails (settled : memory.Settled parameters symbols copies others)
    (counts : outside.Counts others) (ordinary : IsOrdinary rule) :
    FailsPossibly symbols (memory.fireConcept outside rule).1 := by
  rcases fireConcept_cases memory outside rule with ⟨_, nothing⟩ |
    ⟨concept, isTaken, applied, back, isApplied, _, cases⟩
  · rw [nothing]
    exact .ok ({} : Firing)
  · obtain ⟨out, sound⟩ := settled.takeConcept isTaken
    have appliedFails := out.applyRule_fails counts sound ordinary
    rw [← isApplied] at appliedFails
    rcases cases with ⟨failure, failed, result⟩ | ⟨tasks, _, result⟩
    · rw [result]
      rintro other ⟨⟩
      exact appliedFails failure failed
    · rw [result]
      exact .ok _

theorem Settled.runCycle_fails (settled : memory.Settled parameters symbols copies others)
    (counts : outside.Counts others) (ordinary : IsOrdinary rule) :
    FailsPossibly symbols (memory.runCycle outside rule).1 := by
  have fired := (settled.midCycle counts).fireConcept_fails counts ordinary
  obtain ⟨processed, isProcessed, result⟩ := runCycle_eq memory outside rule
  rw [← isProcessed] at fired
  rw [result]
  intro failure failed
  cases outcome : (processed.2.fireConcept outside rule).1 with
  | ok firing => simp [outcome, Except.map] at failed
  | error other =>
      have same : other = failure := by simpa [outcome, Except.map] using failed
      rw [← same]
      exact fired other outcome

end Memory

namespace Exchange

/-! ## Ordinary use -/

/-- The constructors that a caller uses fail only possibly. -/
theorem answer_fails (parameters : Parameters) (symbols : Symbols) (actions : List Action)
    (request : Request) :
    FailsPossibly symbols ((of parameters symbols actions).answer request).1 := by
  have settled := of_settled parameters symbols actions
  unfold Exchange.answer
  rw [settled.symbols_eq]
  exact Session.answer_fails settled.session_formed _ request

theorem runCycle_fails (parameters : Parameters) (symbols : Symbols) (actions : List Action)
    {rule : Rule} (ordinary : Memory.IsOrdinary rule) :
    FailsPossibly symbols
      ((of parameters symbols actions).memory.runCycle (of parameters symbols actions).outside
        rule).1 :=
  Memory.Settled.runCycle_fails (of_settled parameters symbols actions)
    (of parameters symbols actions).outside_counts ordinary

/-- No constructor fails under the usual symbols, also on the registry of a memory after any
run, and no cycle without a rule or with chaining does. Under any symbols none of them fails
for want of steps: no implication that was built has an implication as its predicate, so
that one step does what any number of steps does. -/
theorem failures_unreachable :
    (∀ (requests : List Request) (request : Request), ∃ made,
      ((Session.of .usual requests).answer .usual Held.nothing request).1 = .ok made) ∧
    (∀ (parameters : Parameters) (actions : List Action),
      let exchange := of parameters .usual actions
      (∀ request, ∃ made, (exchange.answer request).1 = .ok made) ∧
        ∀ rule, Memory.IsOrdinary rule → ∃ report,
          (exchange.memory.runCycle exchange.outside rule).1 = .ok report) ∧
    (∀ (symbols : Symbols) (requests : List Request),
      let session := Session.of symbols requests
      (∀ request, Shallow (session.answer symbols Held.nothing request).1) ∧
        (∀ term predicate, Inside session.terms term → term.isImplication = true →
          term.predicate? = some predicate → predicate.isImplication = false) ∧
        ∀ steps held copula subject registry, ∀ predicate ∈ session.terms,
          Construction.statementWithin symbols (steps + 1) held copula subject (some predicate)
              registry =
            Construction.statementWithin symbols 1 held copula subject (some predicate)
              registry) ∧
    ∀ (symbols : Symbols) (parameters : Parameters) (actions : List Action),
      let exchange := of parameters symbols actions
      (∀ request, Shallow (exchange.answer request).1) ∧
        ∀ rule, Memory.IsOrdinary rule →
          Shallow (exchange.memory.runCycle exchange.outside rule).1 := by
  refine ⟨?_, ?_, ?_, ?_⟩
  · intro requests request
    exact (Session.answer_fails (Session.of_formed .usual requests) _ request).returns
  · intro parameters actions exchange
    exact ⟨fun request => (answer_fails parameters .usual actions request).returns,
      fun rule ordinary => (runCycle_fails parameters .usual actions ordinary).returns⟩
  · intro symbols requests session
    have formed := Session.of_formed symbols requests
    refine ⟨?_, ?_, ?_⟩
    · exact fun request => (Session.answer_fails formed Held.nothing request).shallow
    · rintro term predicate ⟨whole, member, isPart⟩ implication hasPredicate
      have termFormed := (formed.terms whole member).ofPart isPart
      exact Construction.predicate_isImplication termFormed implication hasPredicate
    · intro steps held copula subject registry predicate member
      refine Construction.statementWithin_steps ?_ steps
      rintro term ⟨⟩
      exact formed.terms _ member
  · intro symbols parameters actions exchange
    exact ⟨fun request => (answer_fails parameters symbols actions request).shallow,
      fun rule ordinary => (runCycle_fails parameters symbols actions ordinary).shallow⟩

/-- The actions that tell a memory of `<a --> b>` and `<b --> c>`, and have it reason. -/
def chainingActions : List Action :=
  [.build (.word "a"), .build (.word "b"), .build (.word "c"),
    .build (.statement .inheritance 0 1), .build (.statement .inheritance 1 2),
    .inputTask 3 .judgment (.input 1 0) .standard .input,
    .inputTask 4 .judgment (.input 2 0) .standard .input,
    .cycle (.ofDecay usualDecay), .cycle (.ofDecay usualDecay), .cycle (.ofDecay usualDecay)]

/-- The next cycle draws the conclusion. -/
theorem chained_cycle_returns :
    let exchange := of { seed := some 0 } .usual chainingActions
    ∃ report, (exchange.memory.runCycle exchange.outside (chaining usualDecay)).1 = .ok report ∧
      report.derived = 1 := by
  intro exchange
  obtain ⟨report, returned⟩ :=
    (failures_unreachable.2.1 { seed := some 0 } chainingActions).2 (chaining usualDecay)
      (.inr ⟨usualDecay, rfl⟩)
  have derived :
      (exchange.memory.runCycle exchange.outside (chaining usualDecay)).1.toOption.map
        (·.derived) = some 1 := by
    decide +kernel
  refine ⟨report, returned, ?_⟩
  rw [returned] at derived
  simpa [Except.toOption] using derived

end Exchange

end AttentiveReasoner
