import AttentiveReasoner.Attention.Budget
import AttentiveReasoner.Proofs.Numeric.Order

/-!
Contract: the ranges of budgets, and what everything that is done to a budget keeps.

Owns:
- budgets in their ranges, and that a corrected budget is one;
- properties of budgets that placing, merging and any new priority keep, hence fading;
- that being in range is one of them;
- budgets of the same values.

Does not own: who changes a budget.

A priority is only ever replaced by a clamped number. So a budget stays in range whatever the
product is by which it fades, and also if there is none.
-/

namespace AttentiveReasoner.Attention.Budget

open AttentiveReasoner.Numeric

variable {budget other : Budget} {admits : Budget → Prop}

/-! ## Ranges -/

/-- A budget in its ranges: each of the three is a number and within its bounds. -/
structure InRange (budget : Budget) : Prop where
  priority : Single.Between Single.zero Single.one budget.priority
  durability : Single.Between Single.zero durabilityLimit budget.durability
  quality : Single.Between Single.zero Single.one budget.quality

instance (budget : Budget) : Decidable budget.InRange :=
  decidable_of_iff
    (Single.Between Single.zero Single.one budget.priority ∧
      Single.Between Single.zero durabilityLimit budget.durability ∧
      Single.Between Single.zero Single.one budget.quality)
    ⟨fun all => ⟨all.1, all.2.1, all.2.2⟩,
      fun inRange => ⟨inRange.priority, inRange.durability, inRange.quality⟩⟩

theorem durability_inRange (number : Float32) :
    Single.Between Single.zero durabilityLimit
      (Single.smaller (Single.clampUnit number) durabilityLimit) := by
  have limitAbove : Single.atMost Single.zero durabilityLimit = true := by decide
  exact (Single.clampUnit_between number).smaller limitAbove

/-- Whatever a budget is made of, it is in range when it is corrected. -/
theorem corrected_inRange (priority durability quality : Float32) :
    (corrected priority durability quality).InRange where
  priority := Single.clampUnit_between priority
  durability := durability_inRange durability
  quality := Single.clampUnit_between quality

/-! ## Lasting properties -/

/-- A property of budgets that lasts: a bag may place or merge them, and the priority may be
set to any number. -/
structure Lasting (admits : Budget → Prop) : Prop where
  placed : ∀ (budget : Budget) (clock : Nat), admits budget → admits (budget.placedAt clock)
  merged : ∀ budget other : Budget, admits budget → admits other → admits (budget.merge other)
  reprioritized : ∀ (budget : Budget) (number : Float32),
    admits budget → admits (budget.withPriority number)

/-- Fading sets the priority to a product, or leaves the budget alone. -/
theorem Lasting.faded [Arithmetic] (lasting : Lasting admits) (budget : Budget) (cycles clock : Nat)
    (admitted : admits budget) : admits (budget.fade cycles clock) := by
  unfold fade
  split
  · exact admitted
  · exact lasting.reprioritized budget _ admitted

theorem lasting_true : Lasting (fun _ => True) :=
  ⟨fun _ _ _ => trivial, fun _ _ _ _ => trivial, fun _ _ _ => trivial⟩

theorem lasting_inRange : Lasting InRange where
  placed := fun _ _ inRange => ⟨inRange.priority, inRange.durability, inRange.quality⟩
  merged := fun _ _ inRange otherInRange =>
    { priority := inRange.priority.larger otherInRange.priority
      durability := inRange.durability.larger otherInRange.durability
      quality := inRange.quality.larger otherInRange.quality }
  reprioritized := fun _ number inRange =>
    ⟨Single.clampUnit_between number, inRange.durability, inRange.quality⟩

/-! ## Values -/

/-- Two budgets of the same values, whenever they were placed. -/
structure SameValues (budget other : Budget) : Prop where
  priority : Single.Same budget.priority other.priority
  durability : Single.Same budget.durability other.durability
  quality : Single.Same budget.quality other.quality

end AttentiveReasoner.Attention.Budget
