import AttentiveReasoner.Numeric.Power

/-!
Contract: the arithmetic by which budgets are scaled and levels are found.

Owns: the product and the power of 32-bit numbers as operations that may be exchanged, and the
two that run.

Does not own: what holds of the two that run. What holds of every product and every power
takes an arithmetic as a parameter; everything else is about the one that runs.
-/

namespace AttentiveReasoner.Numeric

/-- A product and a power of 32-bit numbers, any two operations. -/
class Arithmetic where
  product : Float32 → Float32 → Float32
  power : Float32 → Float32 → Float32

/-- The arithmetic that runs. -/
instance Arithmetic.running : Arithmetic where
  product := fun left right => left * right
  power := Single.power

end AttentiveReasoner.Numeric
