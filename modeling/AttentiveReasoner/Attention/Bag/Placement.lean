import AttentiveReasoner.Attention.Bag.Basic

/-!
Contract: how items enter and leave a bag other than by selection.

Owns:
- putting an item in, merging it with the resident of its key, and making room;
- putting an item back, with forgetting;
- picking an item by key, changing a resident in place, and emptying the bag;
- the rate of forgetting, which can be changed while the bag is in use.

Does not own: the announcements that merging brings about; they are handed on.

A bag never holds more than its capacity: an item that would exceed it pushes out
the weakest resident, which may be the item itself.
-/

namespace AttentiveReasoner.Attention

open AttentiveReasoner.Numeric

/-- What came of putting an item into a bag: the bag, the item that left it, if
one did, and the notices to give. -/
structure Placement (α ν : Type) where
  bag : Bag α
  departed : Option α := none
  notices : List ν := []

namespace Bag

variable {α ν : Type} [Arithmetic] [Item α ν]

/-- The bag after a new serial number was given. -/
def nextSerial (bag : Bag α) : Bag α :=
  { bag with lastSerial := bag.lastSerial + 1 }

/-- Place an item under a free key with a new serial number. -/
def placeNew (bag : Bag α) (key : String) (item : α) : Bag α :=
  bag.nextSerial.place key item (bag.lastSerial + 1)

/-- Remove the weakest resident. -/
def removeWeakest (bag : Bag α) : Option α × Bag α :=
  match bag.ranking.head? with
  | none => (none, bag)
  | some rank =>
      let removed := bag.remove rank.key
      (removed.1.map (·.item), removed.2)

/-- Put an item in.

Under the key of a resident the policy of the arrival decides: it takes the
resident's place as a new item, or the resident takes the larger budget, absorbs
the arrival and keeps its serial number. Under a new key the item is placed, and
the weakest resident leaves if there are too many. -/
def put (bag : Bag α) (item : α) : Placement α ν :=
  let key := Item.key item
  match bag.remove key with
  | (some slot, bag) =>
      match Item.policy item with
      | .replace => { bag := bag.placeNew key item }
      | .merge =>
          let resident := Item.mapBudget (·.merge (Item.budget item)) slot.item
          let absorbed := Item.absorb resident item
          { bag := bag.place key absorbed.1 slot.serial
            notices := absorbed.2 }
  | (none, bag) =>
      let bag := bag.placeNew key item
      if bag.capacity < bag.size then
        let removed := bag.removeWeakest
        { bag := removed.2, departed := removed.1 }
      else
        { bag := bag }

/-- An item as the bag forgets it: its priority fades over the ticks since it was
placed. -/
def forget (bag : Bag α) (item : α) : α :=
  Item.mapBudget (·.fade bag.forgetCycles bag.clock) item

/-- Put an item back. Its priority fades; below the floor the item is not put in
and leaves. -/
def putBack (bag : Bag α) (item : α) : Placement α ν :=
  let item := bag.forget item
  if Single.less (Item.priority item) bag.floor then
    { bag := bag, departed := some item }
  else
    bag.put item

/-- Remove the resident of a key. -/
def pick (bag : Bag α) (key : String) : Option α × Bag α :=
  let removed := bag.remove key
  (removed.1.map (·.item), removed.2)

/-- Change the resident of a key. It keeps its serial number and joins the end of
the queue of its level, which may be another one; the change may tell something
about it. -/
def edit
    {ρ : Type}
    (bag : Bag α)
    (key : String)
    (change : α → α × ρ) :
    Option ρ × Bag α :=
  match bag.remove key with
  | (none, bag) => (none, bag)
  | (some slot, bag) =>
      let changed := change slot.item
      (some changed.2, bag.place key changed.1 slot.serial)

/-- Remove every resident. -/
def drain (bag : Bag α) : List α × Bag α :=
  (bag.items,
    (bag.slots.map (·.1)).foldl (fun bag key => (bag.remove key).2) bag)

/-- Set the cycles of forgetting. -/
def setForgetCycles (bag : Bag α) (cycles : Nat) : Bag α :=
  { bag with forgetCycles := cycles }

/-- Return to the default cycles of forgetting. -/
def resetForgetCycles (bag : Bag α) : Bag α :=
  { bag with forgetCycles := bag.defaultForgetCycles }

end Bag

end AttentiveReasoner.Attention
