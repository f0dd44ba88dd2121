import AttentiveReasoner.Evidence.Task

/-!
Contract: the parameters of a memory.

Owns:
- the sizes, forgetting cycles and default budgets, with their usual values;
- the bags of a memory, and the configuration and the draws of each;
- the budgets of inputs about which nothing is said.

Does not own: the file that parameters are read from, and what the system supplies to a
memory without a seed. That is any sequence of words for each bag, and nothing is assumed
about it.
-/

namespace AttentiveReasoner

open AttentiveReasoner.Attention
open AttentiveReasoner.Chance
open AttentiveReasoner.Evidence
open AttentiveReasoner.Numeric

/-- The bags of a memory. Those of the tasks of concepts are told apart by the serial number
that the concept is created with. -/
inductive BagPlace where
  | concepts
  | buffer
  | links (serial : Nat)
deriving DecidableEq, Repr

/-- What the system supplies: draws for every bag, each its own. -/
abbrev Entropy := BagPlace → Draws

/-- The parameters of a memory. -/
structure Parameters where
  taskBufferSize : Nat := 10
  taskForgettingCycle : Nat := 10
  newTaskForgettingCycle : Nat := 10
  conceptBagSize : Nat := 1000
  conceptForgettingCycle : Nat := 10
  taskLinkBagSize : Nat := 20
  taskLinkForgettingCycle : Nat := 20
  bagLevels : Nat := 10
  priorityFloor : Float32 := Single.hundredths 1
  beliefTableSize : Nat := 7
  judgmentPriority : Float32 := Single.hundredths 80
  judgmentDurability : Float32 := Single.hundredths 80
  questionPriority : Float32 := Single.hundredths 90
  questionDurability : Float32 := Single.hundredths 90
  seed : Option UInt64 := none
  /-- What the bags draw if there is no seed. No file tells it. -/
  entropy : Entropy := fun _ _ => 0

namespace Parameters

/-- The draws of a bag. With a seed, each bag draws its own copy of the sequence of the seed;
without one, it draws what the system supplies to it. -/
def draws (parameters : Parameters) (place : BagPlace) : Draws :=
  match parameters.seed with
  | some seed => Draws.ofSeed seed
  | none => parameters.entropy place

/-- A bag of the given capacity and forgetting cycles, with the levels and the
floor that all bags share. -/
def bagConfig (parameters : Parameters) (capacity forgetCycles : Nat) : BagConfig where
  capacity := capacity
  forgetCycles := forgetCycles
  levels := parameters.bagLevels
  floor := parameters.priorityFloor

/-- The buffer of new tasks. -/
def taskBuffer (parameters : Parameters) : TaskBag :=
  Bag.empty
    { parameters.bagConfig parameters.taskBufferSize parameters.taskForgettingCycle with
      defaultForgetCycles := parameters.newTaskForgettingCycle }
    (parameters.draws .buffer)

/-- The bag of the tasks of a concept that is created with a serial number. -/
def taskLinks (parameters : Parameters) (serial : Nat) : TaskBag :=
  Bag.empty
    (parameters.bagConfig parameters.taskLinkBagSize parameters.taskLinkForgettingCycle)
    (parameters.draws (.links serial))

/-- The configuration of the bag of concepts. -/
def conceptBagConfig (parameters : Parameters) : BagConfig :=
  parameters.bagConfig parameters.conceptBagSize parameters.conceptForgettingCycle

/-- The budget of a judgment that is put in without one. -/
def judgmentBudget (parameters : Parameters) : Budget :=
  Budget.corrected parameters.judgmentPriority parameters.judgmentDurability
    (Single.hundredths 50)

/-- The budget of a question or a goal that is put in without one. -/
def questionBudget (parameters : Parameters) : Budget :=
  Budget.corrected parameters.questionPriority parameters.questionDurability
    (Single.hundredths 50)

/-- The budget of an input with the given punctuation. -/
def inputBudget (parameters : Parameters) (punctuation : Punctuation) : Budget :=
  match punctuation with
  | .judgment => parameters.judgmentBudget
  | .question | .goal => parameters.questionBudget

end Parameters

end AttentiveReasoner
