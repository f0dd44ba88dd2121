import AttentiveReasoner.Knowledge.Beliefs
import AttentiveReasoner.Knowledge.Display
import AttentiveReasoner.Parameters.Basic

/-!
Contract: concepts, all that a memory knows about one term.

Owns:
- the term, the budget, the tasks and the beliefs of a concept, and its observer;
- the activity that follows from the priority;
- the text of a concept;
- accepting tasks, and absorbing another concept of the same term;
- the notices that its observer is given.

Does not own: the bag that a concept lives in, and what its observer makes of a
notice. Every operation that concerns the observer returns the notices to give,
in their order.

The activity and the shown text follow the priority only when the concept is
refreshed.
-/

namespace AttentiveReasoner.Knowledge

open AttentiveReasoner.Attention
open AttentiveReasoner.Evidence
open AttentiveReasoner.Language
open AttentiveReasoner.Numeric

/-- How lively a concept is. -/
inductive Activity where
  | active
  | dormant
  | fading
deriving DecidableEq, Repr

namespace Activity

/-- The activity of a priority: active above a half, dormant above a fifth. -/
def ofPriority (priority : Float32) : Activity :=
  if Single.less (Single.hundredths 50) priority then .active
  else if Single.less (Single.hundredths 20) priority then .dormant
  else .fading

/-- The name of an activity in texts. -/
def label : Activity → String
  | .active => "Ativo"
  | .dormant => "Dormente"
  | .fading => "Esmaecendo"

end Activity

/-- All that is known about a term. -/
structure Concept where
  term : Term
  budget : Budget
  activity : Activity
  tasks : TaskBag
  beliefs : Beliefs
  observer : Option Observer := none

namespace Concept

variable [Arithmetic]

/-- A concept without tasks and beliefs. The serial number tells which draws its tasks are
selected by. -/
def create
    (term : Term)
    (budget : Budget)
    (parameters : Parameters)
    (serial : Nat) :
    Concept where
  term := term
  budget := budget
  activity := .ofPriority budget.priority
  tasks := parameters.taskLinks serial
  beliefs := { capacity := parameters.beliefTableSize }

/-- The name of the term. -/
def key (concept : Concept) : String :=
  concept.term.name

/-- The terms that a concept holds. -/
def contents (concept : Concept) : List Term :=
  concept.term ::
    (TaskBag.contents concept.tasks ++ concept.beliefs.sentences.map (·.content))

/-- The text of a concept, line by line: its budget and activity, its beliefs, and
the keys of its tasks from the strongest to the weakest. -/
def text (concept : Concept) : String :=
  let budget := concept.budget
  let lines :=
    [concept.key ++ " $" ++ FixedPoint.twoDecimals budget.priority ++ ";" ++
        FixedPoint.twoDecimals budget.durability ++ ";" ++
        FixedPoint.twoDecimals budget.quality ++ "$ [" ++ concept.activity.label ++ "]",
      "--- Crenças (" ++ toString concept.beliefs.size ++ ") ---"] ++
    concept.beliefs.sentences.map (·.text) ++
    ["--- Tasks (" ++ toString concept.tasks.size ++ ") ---"] ++
    concept.tasks.keys
  String.join (lines.map (· ++ "\n"))

/-! ## Refreshing and observing -/

/-- The notices for an observer, if there is one. -/
def tell (concept : Concept) (notice : Observer → Notice) : List Notice :=
  (concept.observer.map notice).toList

/-- Let the activity follow the priority, and refresh the observer. -/
def refresh (concept : Concept) : Concept × List Notice :=
  let concept := { concept with activity := .ofPriority concept.budget.priority }
  (concept, concept.tell (.refresh · concept.text))

/-- Drop the observer. -/
def detach (concept : Concept) : Concept × List Notice :=
  ({ concept with observer := none }, concept.tell .detach)

/-- Begin a live display. An earlier observer is dropped. -/
def startPlay (concept : Concept) (observer : Observer) : Concept × List Notice :=
  ({ concept with observer := some observer },
    concept.tell .detach ++ [.start observer concept.key concept.text])

/-- Show the text to the observer. -/
def play (concept : Concept) : List Notice :=
  concept.tell (.post · concept.text)

/-- End the live display; the observer stays. -/
def stop (concept : Concept) : List Notice :=
  concept.tell .stop

/-! ## Tasks and beliefs -/

/-- Accept a task about the term. A judgment becomes a belief, every task goes
into the bag of tasks, and the priority rises to that of the task. The task that
left the bag, if one did, is returned. -/
def accept (concept : Concept) (task : Task) : Concept × Option Task × List Notice :=
  let beliefs :=
    if task.sentence.isJudgment then concept.beliefs.add task.sentence
    else concept.beliefs
  let budget :=
    if Single.less concept.budget.priority task.priority then
      concept.budget.withPriority task.priority
    else
      concept.budget
  let placed := concept.tasks.put task
  let refreshed :=
    { concept with
      beliefs := beliefs
      budget := budget
      tasks := placed.bag }.refresh
  (refreshed.1, placed.departed, refreshed.2)

/-- Take out a task. -/
def takeTask (concept : Concept) : Option Task × Concept :=
  let taken := concept.tasks.takeOut
  (taken.1, { concept with tasks := taken.2 })

/-- Put a task back, with forgetting; the task that left is returned. -/
def putBackTask (concept : Concept) (task : Task) : Option Task × Concept :=
  let placed := concept.tasks.putBack task
  (placed.departed, { concept with tasks := placed.bag })

/-- Absorb another concept of the term. Its beliefs are entered from the oldest to
the latest and its tasks put in; its observer comes along if there is none here,
else it is dropped. -/
def absorb (concept other : Concept) : Concept × List Notice :=
  let beliefs := other.beliefs.sentences.reverse.foldl Beliefs.add concept.beliefs
  let tasks :=
    other.tasks.drain.1.foldl (fun (bag : TaskBag) task => (bag.put task).bag)
      concept.tasks
  let dropped :=
    if concept.observer.isSome then other.tell .detach else []
  let refreshed :=
    { concept with
      beliefs := beliefs
      tasks := tasks
      observer := concept.observer.or other.observer }.refresh
  (refreshed.1, dropped ++ refreshed.2)

end Concept

instance [Arithmetic] : Item Concept Notice where
  key := Concept.key
  budget := Concept.budget
  withBudget := fun concept budget => { concept with budget := budget }
  policy := fun _ => .merge
  absorb := Concept.absorb

/-- A bag of concepts. -/
abbrev ConceptBag := Bag Concept

end AttentiveReasoner.Knowledge
