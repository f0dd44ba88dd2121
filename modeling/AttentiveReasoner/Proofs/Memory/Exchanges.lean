import AttentiveReasoner.Inference.Chaining
import AttentiveReasoner.Memory.Cycle
import AttentiveReasoner.Proofs.Language.Identity

/-!
Contract: a memory and the caller who uses it.

Owns:
- the rules whose inferences are known: they derive nothing, chain, or fail;
- the actions of a caller as data, and their runs;
- the copies that a run makes.

Does not own: what the actions keep.

The caller builds terms on the registry of the memory and refers to them by place, as in a
session. A task is put in with any punctuation, stamp, budget and origin; those of a new
task of the memory are among them. What the caller has got and not dropped is held while
the memory works.

What a law says for all parameters, it says for all that the bags of a memory without a seed may
draw: the parameters tell that too, for every bag by itself.
-/

namespace AttentiveReasoner

open AttentiveReasoner.Attention
open AttentiveReasoner.Evidence
open AttentiveReasoner.Inference
open AttentiveReasoner.Language
open AttentiveReasoner.Numeric

variable [Arithmetic]

namespace Inference

/-- A rule that derives nothing, chains, or fails and changes nothing; which of them may
depend on the occasion. -/
structure KnownRule where
  rule : Rule
  known : ∀ memory outside concept task,
    rule memory outside concept task = noRule memory outside concept task ∨
      (∃ decay,
        rule memory outside concept task = chaining decay memory outside concept task) ∨
      ∃ failure, rule memory outside concept task = (.error failure, memory)

/-- The rule that derives nothing is known. -/
def KnownRule.nothing : KnownRule where
  rule := noRule
  known := fun _ _ _ _ => .inl rfl

/-- Chaining is known. -/
def KnownRule.ofDecay (decay : Float32) : KnownRule where
  rule := chaining decay
  known := fun _ _ _ _ => .inr (.inl ⟨decay, rfl⟩)

/-- A rule that always fails is known. -/
def KnownRule.ofFailure (failure : Failure) : KnownRule where
  rule := fun memory _ _ _ => (.error failure, memory)
  known := fun _ _ _ _ => .inr (.inr ⟨failure, rfl⟩)

end Inference

/-- What a caller does with a memory. -/
inductive Action where
  | build (request : Request)
  | newTask (place : Nat) (punctuation : Punctuation)
  | inputTask
      (place : Nat)
      (punctuation : Punctuation)
      (stamp : Stamp)
      (budget : Budget)
      (origin : Origin)
  | activate (place : Nat) (budget : Budget)
  | processNewTask
  | fire (rule : KnownRule)
  | cycle (rule : KnownRule)

/-- A memory and the results that its caller got. -/
structure Exchange where
  memory : Memory
  results : List (Option Term) := []

namespace Exchange

/-- The caller's side: the registry of the memory with the results. -/
def session (exchange : Exchange) : Session :=
  ⟨exchange.memory.registry, exchange.results⟩

/-- What the caller holds. -/
def outside (exchange : Exchange) : Held :=
  exchange.session.held

/-- The answer of the memory's registry to a request of the caller. -/
def answer (exchange : Exchange) (request : Request) : Outcome × Registry :=
  exchange.session.answer exchange.memory.symbols (exchange.memory.held Held.nothing) request

/-- The exchange after an action. An action on a place without a term comes to nothing. -/
def perform (exchange : Exchange) : Action → Exchange
  | .build request =>
      let received := exchange.session.receive request (exchange.answer request)
      ⟨{ exchange.memory with registry := received.registry }, received.results⟩
  | .newTask place punctuation =>
      match exchange.session.result? place with
      | some term => { exchange with memory := (exchange.memory.newTask term punctuation).2 }
      | none => exchange
  | .inputTask place punctuation stamp budget origin =>
      match exchange.session.result? place with
      | some term =>
          let task : Task := ⟨⟨term, punctuation, stamp⟩, budget, origin⟩
          { exchange with memory := (exchange.memory.inputTask task).2 }
      | none => exchange
  | .activate place budget =>
      match exchange.session.result? place with
      | some term =>
          { exchange with memory := (exchange.memory.activate exchange.outside term budget).2 }
      | none => exchange
  | .processNewTask =>
      { exchange with memory := (exchange.memory.processNewTask exchange.outside).2 }
  | .fire rule =>
      { exchange with memory := (exchange.memory.fireConcept exchange.outside rule.rule).2 }
  | .cycle rule =>
      { exchange with memory := (exchange.memory.runCycle exchange.outside rule.rule).2 }

/-- The exchange after actions one after the other. -/
def run (exchange : Exchange) : List Action → Exchange
  | [] => exchange
  | action :: rest => run (exchange.perform action) rest

/-- An empty memory, whose caller has nothing. -/
def start (parameters : Parameters) (symbols : Symbols) : Exchange where
  memory := Memory.empty parameters symbols

/-- The exchange that starts from an empty memory. -/
def of (parameters : Parameters) (symbols : Symbols) (actions : List Action) : Exchange :=
  run (start parameters symbols) actions

/-- The objects of the copy that an action makes. -/
def copied (exchange : Exchange) : Action → List ObjectId
  | .build request => exchange.session.copied request
  | _ => []

/-- The objects of all copies that actions make. -/
def copies (exchange : Exchange) : List Action → List ObjectId
  | [] => []
  | action :: rest => exchange.copied action ++ copies (exchange.perform action) rest

end Exchange

end AttentiveReasoner
