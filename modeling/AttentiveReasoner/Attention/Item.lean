import AttentiveReasoner.Attention.Budget

/-!
Contract: what a bag asks of its items.

Owns: the key and the budget of an item, the policy by which it meets a resident
of its key, and the absorption of one item by another.

Does not own: what an item means. Absorbing may have to be announced to somebody
outside; the announcements are values, and what becomes of them is not decided
here.
-/

namespace AttentiveReasoner.Attention

/-- What happens when an item arrives under the key of a resident. -/
inductive MergePolicy where
  /-- The resident stays, with the larger budget, and absorbs the arrival. -/
  | merge
  /-- The arrival takes the resident's place. -/
  | replace
deriving DecidableEq, Repr

/-- Values that can live in a bag, and the notices they give. -/
class Item (α : Type) (ν : outParam Type) where
  /-- The key, unique inside a bag. -/
  key : α → String
  /-- The budget of attention. -/
  budget : α → Budget
  /-- The item with another budget. -/
  withBudget : α → Budget → α
  /-- The policy of an arriving item. -/
  policy : α → MergePolicy
  /-- The first item after it took in the second one, and the notices to give.
  The budgets have been merged before. -/
  absorb : α → α → α × List ν

namespace Item

variable {α ν : Type} [Item α ν]

/-- The priority of an item. -/
def priority (item : α) : Float32 :=
  (Item.budget item).priority

/-- The item with its budget changed. -/
def mapBudget (change : Budget → Budget) (item : α) : α :=
  Item.withBudget item (change (Item.budget item))

end Item

end AttentiveReasoner.Attention
