import AttentiveReasoner.Attention.Bag.Basic

/-!
Contract: the selection of an item by its priority.

Owns:
- the occupied levels and their masses;
- the choice of a level by a draw, in proportion to the masses;
- taking out the item that has queued longest in the chosen level.

Does not own: where the draws come from. A bag is selected from by whatever
sequence of words it carries.

A level is chosen for every bag that has residents, whatever rounding the masses
have suffered: where the masses are used up before the draw, and where they are
negligible, it is the highest occupied one.
-/

namespace AttentiveReasoner.Attention

open AttentiveReasoner.Numeric
open AttentiveReasoner.Chance

namespace Bag

variable {α ν : Type}

/-- The occupied levels, from the weakest up, each with its mass. -/
def occupied (bag : Bag α) : List (Nat × Float) :=
  bag.levels.zipIdx.filterMap (fun entry =>
    if entry.1.queue.isEmpty then none
    else some (entry.2, Double.positivePart entry.1.mass))

/-- The first level whose mass exceeds what the levels before it leave of a
draw. -/
def levelAt (draw : Float) : List (Nat × Float) → Option Nat
  | [] => none
  | (level, mass) :: rest =>
      if draw < mass then some level else levelAt (draw - mass) rest

/-- The level to select from, and the number of draws made up to then. A draw is
made unless the total mass is negligible. -/
def chooseLevel (bag : Bag α) : Option Nat × Nat :=
  let levels := bag.occupied
  let highest := levels.getLast?.map (·.1)
  let total := levels.foldl (fun total level => total + level.2) 0
  if levels.isEmpty || total ≤ Double.epsilon then
    (highest, bag.drawn)
  else
    let draw := unitNumber (bag.draws bag.drawn) * total + 0
    ((levelAt draw levels).or highest, bag.drawn + 1)

/-- The key at the head of a level's queue. -/
def front? (bag : Bag α) (level : Nat) : Option String :=
  (bag.levels[level]?).bind (·.queue.head?)

/-- Take out an item. The clock counts the items taken out. -/
def takeOut [Item α ν] (bag : Bag α) : Option α × Bag α :=
  if bag.slots.isEmpty then
    (none, bag)
  else
    let choice := bag.chooseLevel
    let bag := { bag with drawn := choice.2 }
    match choice.1.bind bag.front? with
    | none => (none, bag)
    | some key =>
        let removed := { bag with clock := bag.clock + 1 }.remove key
        (removed.1.map (·.item), removed.2)

end Bag

end AttentiveReasoner.Attention
