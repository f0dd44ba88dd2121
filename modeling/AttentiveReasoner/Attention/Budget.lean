import AttentiveReasoner.Numeric.Arithmetic

/-!
Contract: the budget of attention that an item of a bag carries.

Owns:
- priority, durability and quality, and the logical time of the last placement;
- budgets from arbitrary numbers, corrected into their ranges;
- the merge of two budgets and the decay of a priority;
- the factor by which a priority fades over a number of ticks.

Does not own: when a budget is merged, decays or is placed.

A corrected budget has priority and quality between zero and one and durability
between zero and ninety-nine hundredths. A budget may also be taken over as it
is; nothing here assumes that it was corrected.
-/

namespace AttentiveReasoner.Attention

open AttentiveReasoner.Numeric

/-- How much attention an item deserves. -/
structure Budget where
  /-- The chance to be selected now. -/
  priority : Float32
  /-- How slowly the priority fades. -/
  durability : Float32
  /-- How far the horizon of forgetting extends. -/
  quality : Float32
  /-- The bag's clock when the item was last placed. -/
  lastUpdate : Nat := 0

namespace Budget

variable [Arithmetic]

/-- The largest durability; with more an item would never be forgotten. -/
def durabilityLimit : Float32 := Single.hundredths 99

/-- A budget of three numbers, each corrected into its range. -/
def corrected (priority durability quality : Float32) : Budget where
  priority := Single.clampUnit priority
  durability := Single.smaller (Single.clampUnit durability) durabilityLimit
  quality := Single.clampUnit quality

/-- The budget of an item about which nothing is said. -/
def standard : Budget :=
  corrected (Single.hundredths 50) (Single.hundredths 50) (Single.hundredths 50)

/-- The budget with another priority, corrected into its range. -/
def withPriority (budget : Budget) (priority : Float32) : Budget :=
  { budget with priority := Single.clampUnit priority }

/-- The budget with its priority multiplied by a factor. -/
def decay (budget : Budget) (factor : Float32) : Budget :=
  budget.withPriority (Arithmetic.product budget.priority factor)

/-- The budget with the larger of the two priorities, durabilities and
qualities; the time of placement stays. -/
def merge (budget other : Budget) : Budget :=
  { budget with
    priority := Single.larger budget.priority other.priority
    durability := Single.larger budget.durability other.durability
    quality := Single.larger budget.quality other.quality }

/-- The budget with the time of placement. -/
def placedAt (budget : Budget) (clock : Nat) : Budget :=
  { budget with lastUpdate := clock }

/-- The ticks since the last placement, at least one. -/
def elapsed (budget : Budget) (clock : Nat) : Nat :=
  max (clock - budget.lastUpdate) 1

/-- The factor by which a priority fades: the durability to the power of the
elapsed ticks over the horizon, where the quality extends the given cycles. -/
def fadingFactor (budget : Budget) (cycles clock : Nat) : Float32 :=
  let horizon := Arithmetic.product (Single.ofNat cycles) (Single.one + budget.quality)
  Arithmetic.power budget.durability (Single.ofNat (budget.elapsed clock) / horizon)

/-- The budget after the ticks since its last placement; without cycles of
forgetting it does not fade. -/
def fade (budget : Budget) (cycles clock : Nat) : Budget :=
  if cycles = 0 then budget else budget.decay (budget.fadingFactor cycles clock)

end Budget

end AttentiveReasoner.Attention
