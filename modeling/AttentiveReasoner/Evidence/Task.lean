import AttentiveReasoner.Evidence.Sentence
import AttentiveReasoner.Attention.Bag.Selection
import AttentiveReasoner.Attention.Bag.Placement
import AttentiveReasoner.Numeric.FixedPoint

/-!
Contract: tasks, sentences that await processing.

Owns:
- the origin of a task and the policy that follows from it;
- tasks as items of a bag.

Does not own: what processing a task means.

An input is new evidence and replaces a waiting task of its key. A conclusion
drawn again only reinforces the waiting one, which stays as it is but for its
budget. Tasks give no notices.
-/

namespace AttentiveReasoner.Evidence

open AttentiveReasoner.Attention
open AttentiveReasoner.Language
open AttentiveReasoner.Numeric

/-- Where a task comes from. -/
inductive Origin where
  | input
  | derived
deriving DecidableEq, Repr

/-- A sentence with the attention it asks for. -/
structure Task where
  sentence : Sentence
  budget : Budget
  origin : Origin

namespace Task

/-- The term that the task is about. -/
def content (task : Task) : Term :=
  task.sentence.content

/-- The key of the sentence. -/
def key (task : Task) : String :=
  task.sentence.key

/-- The priority of the task. -/
def priority (task : Task) : Float32 :=
  task.budget.priority

/-- The policy of an arriving task. -/
def policy (task : Task) : MergePolicy :=
  match task.origin with
  | .input => .replace
  | .derived => .merge

/-- The written form: the priority and the sentence. -/
def text (task : Task) : String :=
  "$" ++ FixedPoint.twoDecimals task.priority ++ "$ " ++ task.sentence.text

end Task

instance : Item Task Empty where
  key := Task.key
  budget := Task.budget
  withBudget := fun task budget => { task with budget := budget }
  policy := Task.policy
  absorb := fun task _ => (task, [])

/-- A bag of tasks. -/
abbrev TaskBag := Bag Task

/-- The contents of the tasks of a bag. -/
def TaskBag.contents (bag : TaskBag) : List Term :=
  bag.items.map Task.content

end AttentiveReasoner.Evidence
