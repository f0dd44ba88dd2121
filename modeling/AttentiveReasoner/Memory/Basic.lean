import AttentiveReasoner.Knowledge.Concept
import AttentiveReasoner.Language.Construction

/-!
Contract: the state of a memory, and how concepts enter and leave it.

Owns:
- the registry, the concepts, the buffer of new tasks, the serial numbers and the
  cycles of a memory, and the displays of the observers of its concepts;
- what a memory holds;
- new stamps and input tasks;
- activating a concept, creating it if need be, and forgetting one.

Does not own: what is held outside the memory, by the caller or by a rule at
work. Operations that may drop an entry of the registry are told.

A concept that leaves the memory loses its observer, and its entry in the
registry if nobody holds the term any more.
-/

namespace AttentiveReasoner

open AttentiveReasoner.Attention
open AttentiveReasoner.Evidence
open AttentiveReasoner.Knowledge
open AttentiveReasoner.Language
open AttentiveReasoner.Numeric

/-- All that a reasoner remembers. -/
structure Memory where
  parameters : Parameters
  symbols : Symbols
  registry : Registry := {}
  concepts : ConceptBag
  newTasks : TaskBag
  /-- The serial number of the latest input. -/
  lastSerial : Nat := 0
  /-- The number of cycles begun. -/
  cycles : Nat := 0
  displays : Displays := {}

namespace Memory

variable [Arithmetic]

/-- A memory without concepts and tasks. -/
def empty (parameters : Parameters) (symbols : Symbols) : Memory where
  parameters := parameters
  symbols := symbols
  concepts := Bag.empty parameters.conceptBagConfig (parameters.draws .concepts)
  newTasks := parameters.taskBuffer

/-! ## What is held -/

/-- The terms that the concepts and the waiting tasks of a memory hold. -/
def contents (memory : Memory) : List Term :=
  memory.concepts.items.flatMap Concept.contents ++ TaskBag.contents memory.newTasks

/-- What is held in a memory and outside of it. -/
def held (memory : Memory) (outside : Held) : Held :=
  outside.withTerms memory.contents

/-! ## Inputs -/

/-- The stamp of a new input. -/
def newStamp (memory : Memory) : Stamp × Memory :=
  let serial := memory.lastSerial + 1
  (Stamp.input serial memory.cycles, { memory with lastSerial := serial })

/-- An input task with a new stamp and the usual budget of its punctuation. -/
def newTask
    (memory : Memory)
    (content : Term)
    (punctuation : Punctuation) :
    Task × Memory :=
  let stamped := memory.newStamp
  (⟨⟨content, punctuation, stamped.1⟩, memory.parameters.inputBudget punctuation, .input⟩,
    stamped.2)

/-- Put a task into the buffer of new tasks. The task that left it, if one did, is
returned. -/
def inputTask (memory : Memory) (task : Task) : Option Task × Memory :=
  let placed := memory.newTasks.put task
  (placed.departed, { memory with newTasks := placed.bag })

/-- The number of tasks that wait to be processed. -/
def pendingTasks (memory : Memory) : Nat :=
  memory.newTasks.size

/-! ## Concepts -/

/-- The resident concept of a name. -/
def concept? (memory : Memory) (name : String) : Option Concept :=
  memory.concepts.find? name

/-- Pass notices to the observers. -/
def tell (memory : Memory) (notices : List Notice) : Memory :=
  { memory with displays := memory.displays.receiveAll notices }

/-- Change the resident concept of a name. The change gives notices and may tell
something about it. -/
def editConcept
    {ρ : Type}
    (memory : Memory)
    (name : String)
    (change : Concept → Concept × List Notice × ρ) :
    Option ρ × Memory :=
  match memory.concepts.edit name change with
  | (none, concepts) => (none, { memory with concepts := concepts })
  | (some told, concepts) =>
      (some told.2, { memory with concepts := concepts }.tell told.1)

/-- Let go of a concept that has left the bag. -/
def forgetConcept (memory : Memory) (outside : Held) (concept : Concept) : Memory :=
  let memory := memory.tell concept.detach.2
  { memory with
    registry := (memory.registry.release (memory.held outside) concept.key).2 }

/-- A new concept of a term. It is created with the serial number that it will get in the bag,
which gives none twice. -/
def newcomer (memory : Memory) (term : Term) (budget : Budget) : Concept :=
  .create term budget memory.parameters (memory.concepts.lastSerial + 1)

/-- Activate the concept of a term with a budget. A resident concept takes the
larger budget; otherwise a new one is put in, which may push out the weakest
concept or be pushed out itself. Tells whether the concept is resident. -/
def activate
    (memory : Memory)
    (outside : Held)
    (term : Term)
    (budget : Budget) :
    Bool × Memory :=
  let reinforce (concept : Concept) : Concept × List Notice × Unit :=
    let refreshed := { concept with budget := concept.budget.merge budget }.refresh
    (refreshed.1, refreshed.2, ())
  match memory.editConcept term.name reinforce with
  | (some _, memory) => (true, memory)
  | (none, memory) =>
      let placed := memory.concepts.put (memory.newcomer term budget)
      let memory := { memory with concepts := placed.bag }.tell placed.notices
      match placed.departed with
      | none => (true, memory)
      | some departed =>
          (departed.key ≠ term.name, memory.forgetConcept outside departed)

end Memory

end AttentiveReasoner
