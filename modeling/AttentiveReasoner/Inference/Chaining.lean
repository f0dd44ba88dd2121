import AttentiveReasoner.Inference.Rule

/-!
Contract: structural chaining, inference from two statements with a term in
common.

Owns:
- the conclusions that two statements of one copula admit by their form;
- the budget and the stamp of a conclusion;
- the rule that chains a task with every belief of a concept.

Does not own: degrees of truth. A conclusion is derived from two judgments with
disjoint evidential bases, or not at all.

From `s` to `m` and from `m` to `p` the conclusion leads from `s` to `p`. Two
statements with the subject in common make their predicates alike: similar where
the copula is inheritance, equivalent where it is an implication.
-/

namespace AttentiveReasoner.Inference

open AttentiveReasoner.Attention
open AttentiveReasoner.Evidence
open AttentiveReasoner.Knowledge
open AttentiveReasoner.Language
open AttentiveReasoner.Numeric

variable [Arithmetic]

/-- The symmetric copula that a shared subject speaks for. -/
def symmetricOf? : Copula → Option Copula
  | .inheritance => some .similarity
  | .implication _ => some .equivalence
  | .similarity | .equivalence => none

/-- Subject and predicate of a statement. -/
def sides? (term : Term) : Option (Term × Term) :=
  match term.subject?, term.predicate? with
  | some subject, some predicate => some (subject, predicate)
  | _, _ => none

/-- What a conclusion is to be built from. -/
structure Conclusion where
  copula : Copula
  subject : Term
  predicate : Term

/-- The conclusion from the sides of a task's statement and those of a belief's,
both with the given copula. The first pattern that fits decides. -/
def conclusion? (copula : Copula) (task belief : Term × Term) : Option Conclusion :=
  if task.2.name = belief.1.name then
    some ⟨copula, task.1, belief.2⟩
  else if belief.2.name = task.1.name then
    some ⟨copula, belief.1, task.2⟩
  else if task.1.name = belief.1.name && task.2.name ≠ belief.2.name then
    (symmetricOf? copula).map (fun symmetric => ⟨symmetric, belief.2, task.2⟩)
  else
    none

/-- The conclusion from a task's statement and a belief, if the belief is a
statement with the same copula and rests on other inputs. -/
def conclusionFrom?
    (copula : Copula)
    (sides : Term × Term)
    (stamp : Stamp)
    (belief : Sentence) :
    Option Conclusion :=
  if belief.stamp.overlaps stamp || belief.content.copula? ≠ some copula then
    none
  else
    (sides? belief.content).bind (conclusion? copula sides)

/-- The usual factor for priority and durability. -/
def usualDecay : Float32 := Single.hundredths 80

/-- A factor within the unit interval; what is not a number stays as it is. -/
def decayOf (decay : Float32) : Float32 :=
  if Single.isNaN decay then decay else Single.clampUnit decay

/-- The budget of a conclusion: priority and durability of the premise by a
factor, and its quality. -/
def conclusionBudget (decay : Float32) (premise : Budget) : Budget :=
  Budget.corrected (Arithmetic.product premise.priority decay)
    (Arithmetic.product premise.durability decay) premise.quality

/-- Chain a task with beliefs, in their order. A conclusion that makes no term is
passed over; a failure ends the inference. What was derived is held meanwhile. -/
def chainWith
    (symbols : Symbols)
    (held : Held)
    (cycle : Nat)
    (decay : Float32)
    (copula : Copula)
    (sides : Term × Term)
    (task : Task) :
    (beliefs : List Sentence) →
    (derived : List Task) →
    Registry →
    Except Failure (List Task) × Registry
  | [], derived, registry => (.ok derived, registry)
  | belief :: rest, derived, registry =>
      match conclusionFrom? copula sides task.sentence.stamp belief with
      | none =>
          chainWith symbols held cycle decay copula sides task rest derived registry
      | some conclusion =>
          match Construction.statement symbols
              (held.withTerms (derived.map Task.content))
              conclusion.copula conclusion.subject conclusion.predicate registry with
          | (.error failure, registry) => (.error failure, registry)
          | (.ok none, registry) =>
              chainWith symbols held cycle decay copula sides task rest derived registry
          | (.ok (some content), registry) =>
              let stamp := Stamp.derived task.sentence.stamp belief.stamp cycle
              let conclusionTask : Task :=
                ⟨⟨content, .judgment, stamp⟩, conclusionBudget decay task.budget, .derived⟩
              chainWith symbols held cycle decay copula sides task rest
                (derived ++ [conclusionTask]) registry

/-- Structural chaining with a factor for the budgets of conclusions. It applies
to judgments on statements whose copula is not symmetric. -/
def chaining (decay : Float32) : Rule :=
  fun memory outside concept task =>
    match task.content.copula?, sides? task.content with
    | some copula, some sides =>
        if !task.sentence.isJudgment || copula.isSymmetric then
          (.ok [], memory)
        else
          let chained :=
            chainWith memory.symbols (memory.held outside) memory.cycles (decayOf decay)
              copula sides task concept.beliefs.sentences [] memory.registry
          (chained.1, { memory with registry := chained.2 })
    | _, _ => (.ok [], memory)

end AttentiveReasoner.Inference
