import AttentiveReasoner.Attention.Item
import AttentiveReasoner.Chance.Draws

/-!
Contract: the state of a bag and the upkeep of its indexes.

Owns:
- residents by key, with the level they queue in and their serial number;
- the queue and the mass of every priority level;
- the ranking of the residents from the weakest to the strongest;
- placing an item under a key and removing it again, in all four places.

Does not own: which items are placed or removed, and when.

A level's queue lists keys in the order of placement. The mass of a level is the
running sum of its residents' priorities and suffers from rounding; it is exactly
zero while the queue is empty. Residents of one priority rank by their serial
number, the oldest first.
-/

namespace AttentiveReasoner.Attention

open AttentiveReasoner.Numeric
open AttentiveReasoner.Chance

/-- The parameters of a bag. -/
structure BagConfig where
  capacity : Nat
  /-- Cycles of forgetting at the start; zero for none. -/
  forgetCycles : Nat
  /-- Cycles of forgetting after a reset. -/
  defaultForgetCycles : Nat := forgetCycles
  /-- Number of priority levels; none count as one. -/
  levels : Nat := 10
  /-- The priority below which an item is not put back. -/
  floor : Float32 := Single.hundredths 1

/-- A resident with the level it queues in and its serial number. -/
structure Slot (α : Type) where
  item : α
  level : Nat
  serial : Nat

/-- A level: the keys of its residents in the order of placement and the sum of
their priorities. -/
structure Level where
  queue : List String := []
  mass : Float := 0

/-- The rank of a resident. -/
structure Rank where
  weight : Nat
  serial : Nat
  key : String
deriving DecidableEq, Repr

/-- A bag of items. -/
structure Bag (α : Type) where
  capacity : Nat
  forgetCycles : Nat
  defaultForgetCycles : Nat
  floor : Float32
  /-- Residents under their keys. -/
  slots : List (String × Slot α) := []
  /-- Levels from the weakest to the strongest. -/
  levels : List Level
  /-- Ranks from the weakest to the strongest. -/
  ranking : List Rank := []
  /-- The number of items taken out so far. -/
  clock : Nat := 0
  /-- The serial number given last. -/
  lastSerial : Nat := 0
  draws : Draws
  /-- The number of draws made so far. -/
  drawn : Nat := 0

namespace Bag

variable {α ν : Type}

/-- A bag without items. -/
def empty (config : BagConfig) (draws : Draws) : Bag α where
  capacity := config.capacity
  forgetCycles := config.forgetCycles
  defaultForgetCycles := config.defaultForgetCycles
  floor := config.floor
  levels := List.replicate (max config.levels 1) {}
  draws := draws

/-! ## Level and rank of a priority -/

/-- The level of a priority among `count` levels: the whole part of the product,
at most the last level. -/
def levelOf [Arithmetic] (count : Nat) (priority : Float32) : Nat :=
  min (Single.truncate (Arithmetic.product priority (Single.ofNat count))) (count - 1)

/-- The encoding of a priority above zero, which grows with the priority; zero
for the others. -/
def weightOf (priority : Float32) : Nat :=
  if Single.atMost priority Single.zero then 0 else priority.toBits.toNat

/-- Whether a rank comes before another one: by weight, then by serial number. -/
def ranksBefore (left right : Rank) : Bool :=
  left.weight < right.weight ||
    (left.weight = right.weight && left.serial < right.serial)

/-- Put a rank at its place in a ranking. -/
def insertRank (rank : Rank) : List Rank → List Rank
  | [] => [rank]
  | first :: rest =>
      if ranksBefore first rank then first :: insertRank rank rest
      else rank :: first :: rest

/-! ## Residents -/

/-- The slot of a key. -/
def slot? (bag : Bag α) (key : String) : Option (Slot α) :=
  bag.slots.lookup key

/-- The resident of a key. -/
def find? (bag : Bag α) (key : String) : Option α :=
  (bag.slot? key).map (·.item)

/-- Whether a key has a resident. -/
def contains (bag : Bag α) (key : String) : Bool :=
  (bag.slot? key).isSome

/-- The residents, in no particular order. -/
def items (bag : Bag α) : List α :=
  bag.slots.map (·.2.item)

/-- The number of residents. -/
def size (bag : Bag α) : Nat :=
  bag.slots.length

/-- The keys from the strongest to the weakest resident; of equally strong ones
the youngest comes first. -/
def keys (bag : Bag α) : List String :=
  (bag.ranking.map (·.key)).reverse

/-- The mean priority of the residents, zero for none. -/
def averagePriority (bag : Bag α) : Float32 :=
  if bag.slots.isEmpty then
    Single.zero
  else
    Double.toSingle
      (bag.levels.foldl (fun total level => total + level.mass) 0 /
        Double.ofNat bag.size)

/-! ## Upkeep -/

section Upkeep

variable [Arithmetic] [Item α ν]

/-- Place an item under a free key, with a serial number. It is placed at the
time of the clock and joins the end of its level's queue. -/
def place (bag : Bag α) (key : String) (item : α) (serial : Nat) : Bag α :=
  let item := Item.mapBudget (·.placedAt bag.clock) item
  let priority := Item.priority item
  let level := levelOf bag.levels.length priority
  { bag with
    slots := bag.slots ++ [(key, ⟨item, level, serial⟩)]
    levels :=
      bag.levels.modify level (fun entry =>
        ⟨entry.queue ++ [key], entry.mass + Single.toDouble priority⟩)
    ranking := insertRank ⟨weightOf priority, serial, key⟩ bag.ranking }

/-- A level without one of its keys. An empty level has no mass; otherwise the
priority is taken off, and no mass is negative. -/
def Level.without (level : Level) (key : String) (priority : Float32) : Level :=
  let queue := level.queue.erase key
  ⟨queue,
    if queue.isEmpty then 0
    else Double.positivePart (level.mass - Single.toDouble priority)⟩

/-- Remove the resident of a key. -/
def remove (bag : Bag α) (key : String) : Option (Slot α) × Bag α :=
  match bag.slot? key with
  | none => (none, bag)
  | some slot =>
      let priority := Item.priority slot.item
      let weight := weightOf priority
      (some slot,
        { bag with
          slots := bag.slots.filter (·.1 ≠ key)
          levels :=
            bag.levels.modify slot.level (fun level => Level.without level key priority)
          ranking :=
            bag.ranking.filter (fun rank =>
              !(rank.weight = weight && rank.serial = slot.serial)) })

end Upkeep

end Bag

end AttentiveReasoner.Attention
