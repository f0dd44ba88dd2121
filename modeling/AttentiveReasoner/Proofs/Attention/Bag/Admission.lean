import AttentiveReasoner.Proofs.Attention.Bag.Displacement
import AttentiveReasoner.Proofs.Numeric.Order
import Mathlib.Data.Finset.Option

/-!
Contract: all that putting an item in does to a bag.

Owns:
- the order of the weights of priorities, which is the numeric one;
- what an operation spares: the slots of other keys, and their order in every queue;
- the residents before and after an operation, up to their order;
- which resident is the weakest, and that it is what making room removes;
- the four cases of putting in, and what all of them leave alone.

Does not own: masses, and draws. Neither decides anything when an item is put in.

A newcomer contends with the residents for the places of a full bag. It has the youngest serial
number, and so it gives way to nobody of its own weight: among equals the oldest resident leaves.
-/

namespace AttentiveReasoner.Attention

open AttentiveReasoner.Chance
open AttentiveReasoner.Evidence
open AttentiveReasoner.Knowledge
open AttentiveReasoner.Language
open AttentiveReasoner.Numeric

/-! ## Weights -/

namespace Bag

variable {left right : Float32}

/-- A priority as it counts in a ranking: a negative one counts as zero. -/
def counted (priority : Float32) : Float32 :=
  Single.larger priority Single.zero

theorem signedMagnitude_zero : Single.signedMagnitude Single.zero = 0 := by
  decide

theorem isNaN_counted (isNumber : Single.isNaN left = false) :
    Single.isNaN (counted left) = false := by
  unfold counted Single.larger
  rw [if_neg (by simp [Single.isNaN_zero])]
  split
  · exact isNumber
  · exact Single.isNaN_zero

theorem signedMagnitude_counted (isNumber : Single.isNaN left = false) :
    Single.signedMagnitude (counted left) = max (Single.signedMagnitude left) 0 := by
  rw [counted, Single.signedMagnitude_larger isNumber Single.isNaN_zero, signedMagnitude_zero]

/-- The weight of a number is its magnitude, and nothing for a negative number. -/
theorem weightOf_eq (isNumber : Single.isNaN left = false) :
    (weightOf left : Int) = max (Single.signedMagnitude left) 0 := by
  unfold weightOf
  split
  · rename_i notPositive
    have below := ((Single.atMost_iff _ _).mp notPositive).2.2
    rw [signedMagnitude_zero] at below
    omega
  · rename_i positive
    have above : 0 < Single.signedMagnitude left := by
      rw [Single.atMost_iff, signedMagnitude_zero] at positive
      exact Int.not_le.mp fun below => positive ⟨isNumber, Single.isNaN_zero, below⟩
    -- A positive magnitude has no sign bit, so that the encoding is the magnitude.
    unfold Single.signedMagnitude at above ⊢
    split at above
    · omega
    · rename_i notNegative
      rw [if_neg notNegative]
      have small : left.toBits.toNat < BinaryFormat.single.signWeight := by
        simpa [Single.isNegative] using notNegative
      rw [Single.magnitude, Nat.mod_eq_of_lt small]
      omega

/-- Weights are in the numeric order of what counts of the priorities. -/
theorem weightOf_le_iff (leftNumber : Single.isNaN left = false)
    (rightNumber : Single.isNaN right = false) :
    weightOf left ≤ weightOf right ↔ Single.atMost (counted left) (counted right) = true := by
  have leftWeight := weightOf_eq leftNumber
  have rightWeight := weightOf_eq rightNumber
  rw [Single.atMost_iff, signedMagnitude_counted leftNumber, signedMagnitude_counted rightNumber]
  constructor
  · intro atMost
    exact ⟨isNaN_counted leftNumber, isNaN_counted rightNumber, by omega⟩
  · rintro ⟨_, _, atMost⟩
    omega

end Bag

/-! ## Absorbing -/

/-- Items that absorb others without a change of their own budget, which has been merged by
then. -/
class KeepsBudget (α : Type) {ν : Type} [Item α ν] : Prop where
  budget_absorb : ∀ resident other : α,
    Item.budget (Item.absorb resident other).1 = Item.budget resident

instance : KeepsBudget Task where
  budget_absorb := fun _ _ => rfl

instance : KeepsBudget Concept where
  budget_absorb := fun _ _ => rfl

namespace Bag

variable {α ν : Type} [Item α ν] {bag middle after : Bag α} {key other : String}
  {slot otherSlot : Slot α} {item : α} {serial capacity : Nat} {keys others : Finset String}

/-! ## What is spared -/

/-- Whoever is under another key keeps the slot, and those keys keep their order in the
queues. -/
structure Spares (keys : Finset String) (bag after : Bag α) : Prop where
  slot?_eq : ∀ key, key ∉ keys → after.slot? key = bag.slot? key
  queueAt_eq : ∀ level,
    (after.queueAt level).filter (· ∉ keys) = (bag.queueAt level).filter (· ∉ keys)

theorem Spares.trans (first : Spares keys bag middle) (second : Spares keys middle after) :
    Spares keys bag after where
  slot?_eq := fun key spared => (second.slot?_eq key spared).trans (first.slot?_eq key spared)
  queueAt_eq := fun level => (second.queueAt_eq level).trans (first.queueAt_eq level)

theorem Spares.mono (spares : Spares keys bag after) (covered : keys ⊆ others) :
    Spares others bag after where
  slot?_eq := fun key spared => spares.slot?_eq key fun member => spared (covered member)
  queueAt_eq := by
    intro level
    have twice : ∀ queue : List String,
        queue.filter (· ∉ others) = (queue.filter (· ∉ keys)).filter (· ∉ others) := by
      intro queue
      rw [List.filter_filter]
      refine List.filter_congr ?_
      intro name _
      by_cases outside : name ∈ others
      · simp [outside]
      · have spared : name ∉ keys := fun member => outside (covered member)
        simp [outside, spared]
    rw [twice, spares.queueAt_eq, ← twice]

theorem spares_remove (bag : Bag α) (key : String) : Spares {key} bag (bag.remove key).2 where
  slot?_eq := by
    intro other spared
    rw [slot?_remove, if_neg (by simpa using spared)]
  queueAt_eq := by
    intro level
    cases resident : bag.slot? key with
    | none => rw [remove_of_free resident]
    | some slot =>
        rw [queueAt_remove resident]
        split
        · rw [← List.erase_filter, List.erase_of_not_mem (by simp)]
        · rfl

theorem spares_place (free : bag.slot? key = none) (positive : 0 < bag.levels.length) :
    Spares {key} bag (bag.place key item serial) where
  slot?_eq := by
    intro other spared
    rw [slot?_place free, if_neg (by simpa using spared)]
  queueAt_eq := by
    intro level
    rw [queueAt_place level positive]
    split
    · have newcomer : [key].filter (· ∉ ({key} : Finset String)) = [] := by simp
      rw [List.filter_append, newcomer, List.append_nil]
    · rfl

theorem Consistent.spares_placeNew (consistent : bag.Consistent) (free : bag.slot? key = none) :
    Spares {key} bag (bag.placeNew key item) := by
  have freeNext : bag.nextSerial.slot? key = none := free
  have placed : Spares {key} bag.nextSerial
      (bag.nextSerial.place key item (bag.lastSerial + 1)) :=
    spares_place freeNext consistent.levels_pos
  exact ⟨placed.slot?_eq, placed.queueAt_eq⟩

/-! ## A resident makes place -/

theorem placedSlot_remove (bag : Bag α) (key : String) (item : α) (serial : Nat) :
    (bag.remove key).2.placedSlot item serial = bag.placedSlot item serial := by
  cases resident : bag.slot? key with
  | none => rw [remove_of_free resident]
  | some slot =>
      rw [remove_of_resident resident]
      simp only [placedSlot, withoutSlot, List.length_modify]

theorem names_remove (bag : Bag α) (key : String) :
    (bag.remove key).2.names = bag.names.erase key := by
  ext other
  rw [Finset.mem_erase, mem_names, mem_names, find?_remove]
  by_cases same : other = key <;> simp [same]

theorem slot?_placeNew (free : bag.slot? key = none) (other : String) :
    (bag.placeNew key item).slot? other =
      if other = key then some (bag.placedSlot item (bag.lastSerial + 1))
      else bag.slot? other := by
  have freeNext : bag.nextSerial.slot? key = none := free
  exact slot?_place freeNext other

/-- A resident is removed, and something is placed under its key. -/
theorem slot?_replace (other : String) :
    ((bag.remove key).2.place key item serial).slot? other =
      if other = key then some (bag.placedSlot item serial) else bag.slot? other := by
  have free : (bag.remove key).2.slot? key = none := by
    rw [slot?_remove, if_pos rfl]
  rw [slot?_place free, slot?_remove, placedSlot_remove]
  split
  · rfl
  · rfl

theorem Consistent.spares_replace (consistent : bag.Consistent) :
    Spares {key} bag ((bag.remove key).2.place key item serial) := by
  have free : (bag.remove key).2.slot? key = none := by
    rw [slot?_remove, if_pos rfl]
  exact (spares_remove bag key).trans (spares_place free (consistent.remove key).levels_pos)

/-! ## The weakest resident -/

/-- Making room removes the resident whose rank comes before all others. -/
theorem Consistent.removeWeakest_eq (consistent : bag.Consistent)
    (occupied : bag.slot? key = some slot) :
    ∃ weakest leaving, bag.slot? weakest = some leaving ∧
      bag.removeWeakest = (some leaving.item, (bag.remove weakest).2) ∧
      ∀ other otherSlot, bag.slot? other = some otherSlot → other ≠ weakest →
        ranksBefore (rankOf weakest leaving) (rankOf other otherSlot) = true := by
  have sorted := consistent.ranking_sorted
  rcases ranked : bag.ranking with _ | ⟨first, rest⟩
  · have member := consistent.rank_mem occupied
    rw [ranked] at member
    contradiction
  · rw [ranked, List.pairwise_cons] at sorted
    obtain ⟨leaving, resident, isFirst⟩ :=
      (consistent.mem_ranking first).mp (by rw [ranked]; exact List.mem_cons_self)
    refine ⟨first.key, leaving, resident, ?_, ?_⟩
    · simp only [Bag.removeWeakest, ranked, List.head?_cons, remove_of_resident resident]
      rfl
    · intro other otherSlot otherResident different
      have member := consistent.rank_mem otherResident
      rw [ranked] at member
      rcases List.mem_cons.mp member with same | behind
      · exact absurd (congrArg Rank.key same) different
      · rw [← isFirst]
        exact sorted.1 _ behind

/-! ## Residents up to their order -/

theorem items_place (bag : Bag α) (key : String) (item : α) (serial : Nat) :
    (bag.place key item serial).items = bag.items ++ [bag.placed item] := by
  simp only [items, place, List.map_append]
  rfl

/-- Who is removed, and the others, are all that were there. -/
theorem Consistent.items_remove (consistent : bag.Consistent)
    (occupied : bag.slot? key = some slot) :
    bag.items.Perm (slot.item :: (bag.remove key).2.items) := by
  obtain ⟨member, keyed⟩ := consistent.mem_items_of_slot? occupied
  have absent : slot.item ∉ (bag.remove key).2.items :=
    fun stays => (consistent.mem_items_remove.mp stays).2 keyed
  refine (List.perm_ext_iff_of_nodup consistent.items_nodup
    (List.nodup_cons.mpr ⟨absent, (consistent.remove key).items_nodup⟩)).mpr ?_
  intro other
  rw [List.mem_cons, consistent.mem_items_remove]
  constructor
  · intro resides
    by_cases same : Item.key other = key
    · exact .inl (consistent.eq_of_key_eq resides member (same.trans keyed.symm))
    · exact .inr ⟨resides, same⟩
  · rintro (rfl | ⟨resides, _⟩)
    · exact member
    · exact resides

/-- Another item takes the place of a resident. -/
theorem Consistent.items_replace (consistent : bag.Consistent)
    (occupied : bag.slot? key = some slot) (item : α) (serial : Nat) :
    ∃ others, bag.items.Perm (slot.item :: others) ∧
      ((bag.remove key).2.place key item serial).items.Perm (bag.placed item :: others) := by
  refine ⟨(bag.remove key).2.items, consistent.items_remove occupied, ?_⟩
  have samePlaced : (bag.remove key).2.placed item = bag.placed item := by
    rw [remove_of_resident occupied]
    rfl
  rw [items_place, samePlaced]
  exact List.perm_append_singleton _ _

/-- A changed resident takes its own place. -/
theorem Consistent.items_edit {ρ : Type} {change : α → α × ρ} (consistent : bag.Consistent)
    (found : bag.find? key = some item) :
    ∃ others, bag.items.Perm (item :: others) ∧
      (bag.edit key change).2.items.Perm (bag.placed (change item).1 :: others) := by
  obtain ⟨slot, occupied, rfl⟩ := slot?_eq_some_of_find? found
  have removed : bag.remove key = (some slot, (bag.remove key).2) := by
    rw [remove_of_resident occupied]
  simp only [edit]
  rw [removed]
  exact consistent.items_replace occupied (change slot.item).1 slot.serial

/-! ## The cases -/

/-- The key of the item that left, if one did. -/
def departedNames (placement : Placement α ν) : Finset String :=
  (placement.departed.map Item.key).toFinset

/-- Whoever contends for a place: the residents, and the newcomer as it would be placed. -/
def Contends (bag : Bag α) (item : α) (key : String) (slot : Slot α) : Prop :=
  bag.slot? key = some slot ∨
    key = Item.key item ∧ slot = bag.placedSlot item (bag.lastSerial + 1)

/-- A resident has taken in an item under its own serial number, with the larger priority,
durability and quality. -/
structure MergedWith (clock : Nat) (resident : Slot α) (item : α) (merged : Slot α) : Prop where
  serial : merged.serial = resident.serial
  priority : (Item.budget merged.item).priority =
    Single.larger (Item.budget resident.item).priority (Item.budget item).priority
  durability : (Item.budget merged.item).durability =
    Single.larger (Item.budget resident.item).durability (Item.budget item).durability
  quality : (Item.budget merged.item).quality =
    Single.larger (Item.budget resident.item).quality (Item.budget item).quality
  absorbed : merged.item =
    Item.mapBudget (·.placedAt clock)
      (Item.absorb (Item.mapBudget (·.merge (Item.budget item)) resident.item) item).1

/-- An item is in a bag with its own budget, and is the youngest there. -/
structure Newest (clock : Nat) (item : α) (after : Bag α) (slot : Slot α) : Prop where
  resides : after.slot? (Item.key item) = some slot
  item_eq : slot.item = Item.mapBudget (·.placedAt clock) item
  budget_eq : Item.budget slot.item = (Item.budget item).placedAt clock
  youngest : ∀ other otherSlot, after.slot? other = some otherSlot → other ≠ Item.key item →
    otherSlot.serial < slot.serial

/-- Among those who contend for a place one is the weakest: it has the least weight, and of that
weight the least serial number. So of numbers its priority is the least, a negative one counting
as zero, and of those of that priority it has been there longest. -/
structure Weakest (bag : Bag α) (item : α) (key : String) (slot : Slot α) : Prop where
  contends : bag.Contends item key slot
  least : ∀ other otherSlot, bag.Contends item other otherSlot → other ≠ key →
    weightOf (Item.priority slot.item) < weightOf (Item.priority otherSlot.item) ∨
      weightOf (Item.priority slot.item) = weightOf (Item.priority otherSlot.item) ∧
        slot.serial < otherSlot.serial
  minimal : ∀ other otherSlot, bag.Contends item other otherSlot → other ≠ key →
    Single.isNaN (Item.priority slot.item) = false →
    Single.isNaN (Item.priority otherSlot.item) = false →
      Single.atMost (counted (Item.priority slot.item))
        (counted (Item.priority otherSlot.item)) = true
  oldest : ∀ other otherSlot, bag.Contends item other otherSlot → other ≠ key →
    Single.isNaN (Item.priority slot.item) = false →
    Single.isNaN (Item.priority otherSlot.item) = false →
    Single.Same (counted (Item.priority slot.item)) (counted (Item.priority otherSlot.item)) →
      slot.serial < otherSlot.serial

/-- All that putting an item in does, by whether its key has a resident, by its policy, and by
whether there is room. -/
structure Puts (bag : Bag α) (item : α) (placement : Placement α ν) : Prop where
  merges : ∀ resident, bag.slot? (Item.key item) = some resident → Item.policy item = .merge →
    placement.departed = none ∧
      ∃ merged, placement.bag.slot? (Item.key item) = some merged ∧
        MergedWith bag.clock resident item merged
  replaces : ∀ resident, bag.slot? (Item.key item) = some resident →
    Item.policy item = .replace →
      placement.departed = none ∧ ∃ slot, Newest bag.clock item placement.bag slot
  stores : bag.slot? (Item.key item) = none → bag.size < bag.capacity →
    placement.departed = none ∧ ∃ slot, Newest bag.clock item placement.bag slot
  evicts : bag.slot? (Item.key item) = none → bag.capacity ≤ bag.size →
    ∃ key slot, placement.departed = some slot.item ∧ Item.key slot.item = key ∧
      bag.Weakest item key slot ∧
      ∀ other otherSlot, placement.bag.slot? other = some otherSlot ↔
        bag.Contends item other otherSlot ∧ other ≠ key
  names_eq : insert (Item.key item) bag.names = placement.bag.names ∪ departedNames placement
  spares : Spares (insert (Item.key item) (departedNames placement)) bag placement.bag

/-- Weights decide who is the weakest. -/
theorem Weakest.of_least (contends : bag.Contends item key slot)
    (least : ∀ other otherSlot, bag.Contends item other otherSlot → other ≠ key →
      ranksBefore (rankOf key slot) (rankOf other otherSlot) = true) :
    bag.Weakest item key slot where
  contends := contends
  least := fun other otherSlot contending different =>
    (ranksBefore_iff _ _).mp (least other otherSlot contending different)
  minimal := by
    intro other otherSlot contending different isNumber otherNumber
    refine (weightOf_le_iff isNumber otherNumber).mp ?_
    rcases (ranksBefore_iff _ _).mp (least other otherSlot contending different) with
      less | ⟨same, _⟩
    · exact Nat.le_of_lt less
    · exact Nat.le_of_eq same
  oldest := by
    intro other otherSlot contending different isNumber otherNumber same
    have notLess := (weightOf_le_iff otherNumber isNumber).mpr same.2
    rcases (ranksBefore_iff _ _).mp (least other otherSlot contending different) with
      less | ⟨_, older⟩
    · exact absurd less (Nat.not_lt.mpr notLess)
    · exact older

/-! ## Putting in -/

theorem put_merging (resident : bag.slot? (Item.key item) = some slot)
    (policy : Item.policy item = .merge) :
    bag.put item =
      { bag := (bag.remove (Item.key item)).2.place (Item.key item)
          (Item.absorb (Item.mapBudget (·.merge (Item.budget item)) slot.item) item).1 slot.serial
        notices :=
          (Item.absorb (Item.mapBudget (·.merge (Item.budget item)) slot.item) item).2 } := by
  have removed : bag.remove (Item.key item) = (some slot, (bag.remove (Item.key item)).2) := by
    rw [remove_of_resident resident]
  simp only [put]
  rw [removed, policy]

theorem put_replacing (resident : bag.slot? (Item.key item) = some slot)
    (policy : Item.policy item = .replace) :
    bag.put item =
      { bag := (bag.remove (Item.key item)).2.placeNew (Item.key item) item } := by
  have removed : bag.remove (Item.key item) = (some slot, (bag.remove (Item.key item)).2) := by
    rw [remove_of_resident resident]
  simp only [put]
  rw [removed, policy]

theorem put_of_full (free : bag.slot? (Item.key item) = none) (full : bag.capacity ≤ bag.size) :
    bag.put item =
      { bag := (bag.placeNew (Item.key item) item).removeWeakest.2
        departed := (bag.placeNew (Item.key item) item).removeWeakest.1 } := by
  have oneMore : (bag.placeNew (Item.key item) item).size = bag.size + 1 := size_place
  have sameCapacity : (bag.placeNew (Item.key item) item).capacity = bag.capacity := rfl
  simp only [put, remove_of_free free]
  rw [if_pos (by omega)]

/-- A resident that absorbs an item stays, and nobody leaves. -/
theorem Consistent.items_put_merging (consistent : bag.Consistent) {resident : α}
    (found : bag.find? (Item.key item) = some resident) (policy : Item.policy item = .merge) :
    ∃ others, bag.items.Perm (resident :: others) ∧
      (bag.put item).departed = none ∧
      (bag.put item).notices =
        (Item.absorb (Item.mapBudget (·.merge (Item.budget item)) resident) item).2 ∧
      (bag.put item).bag.items.Perm
        (bag.placed (Item.absorb (Item.mapBudget (·.merge (Item.budget item)) resident) item).1 ::
          others) := by
  obtain ⟨slot, occupied, rfl⟩ := slot?_eq_some_of_find? found
  obtain ⟨others, before, after⟩ := consistent.items_replace occupied
    (Item.absorb (Item.mapBudget (·.merge (Item.budget item)) slot.item) item).1 slot.serial
  rw [put_merging occupied policy]
  exact ⟨others, before, rfl, rfl, after⟩

/-- Under a new key, whoever leaves and whoever is there afterwards are the newcomer and those who
were there. -/
theorem Consistent.items_put_free [LawfulItem α] (consistent : bag.Consistent)
    (free : bag.find? (Item.key item) = none) :
    (bag.put item).notices = [] ∧
      ((bag.put item).departed.toList ++ (bag.put item).bag.items).Perm
        (bag.placed item :: bag.items) := by
  have unoccupied := find?_eq_none_iff.mp free
  have placedConsistent := consistent.placeNew unoccupied rfl
  have grown : (bag.placeNew (Item.key item) item).items.Perm (bag.placed item :: bag.items) := by
    have placed : (bag.placeNew (Item.key item) item).items =
        bag.items ++ [bag.placed item] := items_place bag.nextSerial _ _ _
    rw [placed]
    exact List.perm_append_singleton _ _
  by_cases room : bag.size < bag.capacity
  · rw [put_of_free free room]
    exact ⟨rfl, grown⟩
  · obtain ⟨weakest, leaving, resides, removed, _⟩ :=
      placedConsistent.removeWeakest_eq ((slot?_placeNew unoccupied _).trans (if_pos rfl))
    rw [put_of_full unoccupied (Nat.not_lt.mp room), removed]
    exact ⟨rfl, (placedConsistent.items_remove resides).symm.trans grown⟩

/-- A resident that took in an item has its own budget merged with that of the item. -/
theorem budget_merged [LawfulItem α] [KeepsBudget α] (bag : Bag α) (resident item : α)
    (serial : Nat) :
    Item.budget (bag.placedSlot
      (Item.absorb (Item.mapBudget (·.merge (Item.budget item)) resident) item).1 serial).item =
      ((Item.budget resident).merge (Item.budget item)).placedAt bag.clock := by
  rw [placedSlot, Item.budget_mapBudget, KeepsBudget.budget_absorb, Item.budget_mapBudget]

theorem merged_mergedWith [LawfulItem α] [KeepsBudget α] (bag : Bag α) (resident : Slot α)
    (item : α) :
    MergedWith bag.clock resident item
      (bag.placedSlot
        (Item.absorb (Item.mapBudget (·.merge (Item.budget item)) resident.item) item).1
        resident.serial) := by
  have budget := budget_merged bag resident.item item resident.serial
  constructor
  case serial => rfl
  case priority => rw [budget]; rfl
  case durability => rw [budget]; rfl
  case quality => rw [budget]; rfl
  case absorbed => rfl

/-- What gets a new serial number is the youngest. -/
theorem newest_of_slot? [LawfulItem α] (consistent : bag.Consistent)
    (slot?_eq : ∀ other, after.slot? other =
      if other = Item.key item then some (bag.placedSlot item (bag.lastSerial + 1))
      else bag.slot? other) :
    Newest bag.clock item after (bag.placedSlot item (bag.lastSerial + 1)) where
  resides := by rw [slot?_eq, if_pos rfl]
  item_eq := rfl
  budget_eq := by rw [placedSlot, Item.budget_mapBudget]
  youngest := by
    intro other otherSlot resides different
    rw [slot?_eq, if_neg different] at resides
    exact Nat.lt_succ_of_le (consistent.serial_le other otherSlot resides)

/-- The residents after a newcomer was placed are those who contend. -/
theorem slot?_placeNew_iff (free : bag.slot? (Item.key item) = none) :
    (bag.placeNew (Item.key item) item).slot? other = some otherSlot ↔
      bag.Contends item other otherSlot := by
  rw [slot?_placeNew free, Contends]
  by_cases same : other = Item.key item
  · rw [if_pos same, same, free]
    constructor
    · intro isPlaced
      exact .inr ⟨rfl, (Option.some.inj isPlaced).symm⟩
    · rintro (resides | ⟨_, rfl⟩)
      · contradiction
      · rfl
  · rw [if_neg same]
    constructor
    · exact .inl
    · rintro (resides | ⟨sameKey, _⟩)
      · exact resides
      · exact absurd sameKey same

variable {resident : Slot α}

theorem departedNames_of_none {placement : Placement α ν} (stays : placement.departed = none) :
    departedNames placement = ∅ := by
  rw [departedNames, stays]
  rfl

/-- Under the key of a resident nobody leaves, and the names stay. -/
theorem put_resident_names [LawfulItem α] (resides : bag.slot? (Item.key item) = some resident) :
    departedNames (bag.put item) = ∅ ∧
      insert (Item.key item) bag.names =
        (bag.put item).bag.names ∪ departedNames (bag.put item) := by
  have room : bag.HasRoom (Item.key item) :=
    .inl (mem_names.mpr ⟨resident.item, by rw [find?, resides]; rfl⟩)
  have nobodyLeft := departedNames_of_none (find?_put room).1
  refine ⟨nobodyLeft, ?_⟩
  rw [nobodyLeft, Finset.union_empty, names_put room]

/-- Putting in under the key of a resident that takes the item in. -/
theorem Sound.put_merging_puts [LawfulItem α] [KeepsBudget α] (sound : bag.Sound capacity)
    (resides : bag.slot? (Item.key item) = some resident) (policy : Item.policy item = .merge) :
    Puts bag item (bag.put item) := by
  obtain ⟨nobodyLeft, names⟩ := put_resident_names resides
  have result := put_merging resides policy
  constructor
  case merges =>
    intro slot found _
    obtain rfl : resident = slot := Option.some.inj (resides.symm.trans found)
    rw [result]
    refine ⟨rfl, _, ?_, merged_mergedWith bag resident item⟩
    rw [slot?_replace, if_pos rfl]
  case replaces =>
    intro _ _ otherPolicy
    rw [policy] at otherPolicy
    contradiction
  case stores => intro free; rw [resides] at free; contradiction
  case evicts => intro free; rw [resides] at free; contradiction
  case names_eq => exact names
  case spares =>
    rw [nobodyLeft, result]
    exact sound.consistent.spares_replace

/-- Putting in under the key of a resident that is replaced by the item. -/
theorem Sound.put_replacing_puts [LawfulItem α] (sound : bag.Sound capacity)
    (resides : bag.slot? (Item.key item) = some resident) (policy : Item.policy item = .replace) :
    Puts bag item (bag.put item) := by
  obtain ⟨nobodyLeft, names⟩ := put_resident_names resides
  have result := put_replacing resides policy
  have removedFree : (bag.remove (Item.key item)).2.slot? (Item.key item) = none := by
    rw [slot?_remove, if_pos rfl]
  constructor
  case merges =>
    intro _ _ otherPolicy
    rw [policy] at otherPolicy
    contradiction
  case replaces =>
    intro _ _ _
    rw [result]
    refine ⟨rfl, _, newest_of_slot? sound.consistent ?_⟩
    intro other
    rw [slot?_placeNew removedFree, placedSlot_remove, lastSerial_remove, slot?_remove]
    split
    · rfl
    · rfl
  case stores => intro free; rw [resides] at free; contradiction
  case evicts => intro free; rw [resides] at free; contradiction
  case names_eq => exact names
  case spares =>
    rw [nobodyLeft, result]
    exact (spares_remove bag _).trans
      ((sound.consistent.remove _).spares_placeNew removedFree)

/-- Putting in under a free key while there is room. -/
theorem Sound.put_storing_puts [LawfulItem α] (sound : bag.Sound capacity)
    (free : bag.slot? (Item.key item) = none) (room : bag.size < bag.capacity) :
    Puts bag item (bag.put item) := by
  have result := put_of_free (find?_eq_none_iff.mpr free) room
  have noResident : ∀ {slot}, bag.slot? (Item.key item) ≠ some slot := by
    intro slot found
    rw [free] at found
    contradiction
  constructor
  case merges => intro _ found; exact absurd found noResident
  case replaces => intro _ found; exact absurd found noResident
  case stores =>
    intro _ _
    rw [result]
    exact ⟨rfl, _, newest_of_slot? sound.consistent (slot?_placeNew free)⟩
  case evicts => intro _ full; omega
  case names_eq =>
    rw [departedNames_of_none (find?_put (.inr room)).1, Finset.union_empty,
      names_put (.inr room)]
  case spares =>
    rw [departedNames_of_none (find?_put (.inr room)).1, result]
    exact sound.consistent.spares_placeNew free

/-- Putting in under a free key while the bag is full. -/
theorem Sound.put_evicting_puts [LawfulItem α] (sound : bag.Sound capacity)
    (free : bag.slot? (Item.key item) = none) (full : bag.capacity ≤ bag.size) :
    Puts bag item (bag.put item) := by
  have placedConsistent := sound.consistent.placeNew free rfl
  have noResident : ∀ {slot}, bag.slot? (Item.key item) ≠ some slot := by
    intro slot found
    rw [free] at found
    contradiction
  have result := put_of_full free full
  obtain ⟨weakest, leaving, resides, removed, least⟩ :=
    placedConsistent.removeWeakest_eq ((slot?_placeNew free _).trans (if_pos rfl))
  have keyed : Item.key leaving.item = weakest :=
    placedConsistent.key_item weakest leaving resides
  rw [removed] at result
  have departed : (bag.put item).departed = some leaving.item := by rw [result]
  have left : (bag.put item).bag =
      ((bag.placeNew (Item.key item) item).remove weakest).2 := by rw [result]
  have gone : departedNames (bag.put item) = {weakest} := by
    rw [departedNames, departed, Option.map_some, keyed]
    rfl
  constructor
  case merges => intro _ found; exact absurd found noResident
  case replaces => intro _ found; exact absurd found noResident
  case stores => intro _ room; exact absurd room (Nat.not_lt.mpr full)
  case evicts =>
    intro _ _
    refine ⟨weakest, leaving, departed, keyed, ?_, ?_⟩
    · refine Weakest.of_least ((slot?_placeNew_iff free).mp resides) ?_
      intro other otherSlot contends different
      exact least other otherSlot ((slot?_placeNew_iff free).mpr contends) different
    · intro other otherSlot
      rw [left, slot?_remove, ← slot?_placeNew_iff free]
      by_cases same : other = weakest
      · simp [same]
      · simp [same]
  case names_eq =>
    have placedNames : (bag.placeNew (Item.key item) item).names =
        insert (Item.key item) bag.names := names_placeNew (find?_eq_none_iff.mpr free)
    have isName : weakest ∈ (bag.placeNew (Item.key item) item).names :=
      mem_names.mpr ⟨leaving.item, by rw [find?, resides]; rfl⟩
    rw [gone, left, ← placedNames, names_remove, Finset.union_comm, ← Finset.insert_eq,
      Finset.insert_erase isName]
  case spares =>
    rw [gone, left, Finset.insert_eq]
    have both : Spares ({Item.key item} ∪ {weakest}) bag
        (bag.placeNew (Item.key item) item) :=
      (sound.consistent.spares_placeNew free).mono Finset.subset_union_left
    exact both.trans ((spares_remove _ weakest).mono Finset.subset_union_right)

theorem Sound.put_puts [LawfulItem α] [KeepsBudget α] (sound : bag.Sound capacity) (item : α) :
    Puts bag item (bag.put item) := by
  cases found : bag.slot? (Item.key item) with
  | none =>
      by_cases room : bag.size < bag.capacity
      · exact sound.put_storing_puts found room
      · exact sound.put_evicting_puts found (Nat.not_lt.mp room)
  | some resident =>
      cases policy : Item.policy item with
      | merge => exact sound.put_merging_puts found policy
      | replace => exact sound.put_replacing_puts found policy

/-- What putting an item in does to a bag that was made for any capacity, after any
operations and whatever was drawn. -/
theorem run_put_puts [LawfulItem α] [KeepsBudget α] (config : BagConfig) (draws : Draws)
    (operations : List (Operation α)) (item : α) :
    Puts ((Bag.empty config draws).run operations) item
      (((Bag.empty config draws).run operations).put item) :=
  ((empty_sound config draws).run operations).put_puts item

/-- Of two equally strong tasks in a full bag the one that was there longer leaves for a third. -/
theorem crowded_put_puts :
    let judgment := fun (name : String) =>
      (⟨⟨Term.atom 0 name, .judgment, .input 1 0⟩,
        .corrected (Single.hundredths 30) Single.one Single.zero, .derived⟩ : Task)
    let bag := (Bag.empty { capacity := 2, forgetCycles := 0 } (fun _ => 0)).run
      [.put (judgment "b"), .put (judgment "a"), .put (judgment "a")]
    Puts bag (judgment "c") (bag.put (judgment "c")) ∧
      ((bag.put (judgment "c")).departed.map Item.key,
        (bag.put (judgment "c")).bag.keys) = (some "b.", ["c.", "a."]) :=
  ⟨run_put_puts { capacity := 2, forgetCycles := 0 } _ _ _, by decide +kernel⟩

end Bag

end AttentiveReasoner.Attention
