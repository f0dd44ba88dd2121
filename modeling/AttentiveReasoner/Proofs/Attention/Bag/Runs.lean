import AttentiveReasoner.Knowledge.Concept
import AttentiveReasoner.Proofs.Attention.Bag.Indexes

/-!
Contract: consistency and the capacity bound along every run of a bag.

Owns:
- the operations of a bag as data, and their runs;
- the invariant of a run: the indexes agree and nobody exceeds the capacity;
- that an empty bag has it, that every operation keeps it, and hence every run;
- that tasks and concepts obey the laws of an item type.

Does not own: what an operation returns. A run is one of arbitrary calls; the items
that enter need not be the ones that left before.

The invariant does not depend on the draws. A bag made for any sequence of words
has it after any number of selections.
-/

namespace AttentiveReasoner.Attention

open AttentiveReasoner.Chance
open AttentiveReasoner.Evidence
open AttentiveReasoner.Knowledge
open AttentiveReasoner.Language
open AttentiveReasoner.Numeric

instance : LawfulItem Task where
  key_withBudget := fun _ _ => rfl
  budget_withBudget := fun _ _ => rfl
  key_absorb := fun _ _ => rfl

instance [Arithmetic] : LawfulItem Concept where
  key_withBudget := fun _ _ => rfl
  budget_withBudget := fun _ _ => rfl
  key_absorb := fun _ _ => rfl

namespace Bag

section AnyArithmetic

variable {α ν : Type} [Arithmetic] [Item α ν] {bag : Bag α} {key : String} {slot : Slot α}

/-! ## Operations -/

/-- An operation that may change a bag. A change made in place keeps the key. -/
inductive Operation (α : Type) {ν : Type} [Item α ν] where
  | put (item : α)
  | takeOut
  | putBack (item : α)
  | pick (key : String)
  | edit
      (key : String)
      (change : α → α)
      (keepsKey : ∀ item, Item.key (change item) = Item.key item)
  | drain
  | setForgetCycles (cycles : Nat)
  | resetForgetCycles

/-- The bag after an operation. -/
def perform (bag : Bag α) : Operation α → Bag α
  | .put item => (bag.put item).bag
  | .takeOut => bag.takeOut.2
  | .putBack item => (bag.putBack item).bag
  | .pick key => (bag.pick key).2
  | .edit key change _ => (bag.edit key (fun item => (change item, ()))).2
  | .drain => bag.drain.2
  | .setForgetCycles cycles => bag.setForgetCycles cycles
  | .resetForgetCycles => bag.resetForgetCycles

/-- The bag after operations one after the other. -/
def run (bag : Bag α) : List (Operation α) → Bag α
  | [] => bag
  | operation :: rest => run (bag.perform operation) rest

/-- The invariant of a bag made for a capacity. -/
structure Sound (capacity : Nat) (bag : Bag α) : Prop where
  consistent : bag.Consistent
  capacity_eq : bag.capacity = capacity
  size_le : bag.size ≤ capacity

/-! ## Upkeep -/

/-- Consistency depends on the indexes, and on the clock and the serial number
given last only as upper bounds. -/
theorem Consistent.of_sameIndexes {other : Bag α} (consistent : bag.Consistent)
    (slots : other.slots = bag.slots)
    (levels : other.levels = bag.levels)
    (ranking : other.ranking = bag.ranking)
    (serials : bag.lastSerial ≤ other.lastSerial)
    (clock : bag.clock ≤ other.clock) :
    other.Consistent := by
  have sameSlot : other.slot? = bag.slot? := by funext key; simp [slot?, slots]
  have sameQueue : other.queueAt = bag.queueAt := by funext index; simp [queueAt, levels]
  constructor
  case levels_pos => rw [levels]; exact consistent.levels_pos
  case keys_nodup => rw [slots]; exact consistent.keys_nodup
  case key_item => rw [sameSlot]; exact consistent.key_item
  case queue_nodup => rw [sameQueue]; exact consistent.queue_nodup
  case mem_queueAt => rw [sameQueue, sameSlot]; exact consistent.mem_queueAt
  case level_lt => rw [sameSlot, levels]; exact consistent.level_lt
  case level_eq => rw [sameSlot, levels]; exact consistent.level_eq
  case mass_of_unqueued => rw [levels]; exact consistent.mass_of_unqueued
  case mem_ranking => rw [sameSlot, ranking]; exact consistent.mem_ranking
  case ranking_sorted => rw [ranking]; exact consistent.ranking_sorted
  case serial_injective => rw [sameSlot]; exact consistent.serial_injective
  case serial_le =>
    rw [sameSlot]
    exact fun key slot resident =>
      Nat.le_trans (consistent.serial_le key slot resident) serials
  case lastUpdate_le =>
    rw [sameSlot]
    exact fun key slot resident =>
      Nat.le_trans (consistent.lastUpdate_le key slot resident) clock

omit [Arithmetic] in
theorem capacity_remove (bag : Bag α) (key : String) :
    (bag.remove key).2.capacity = bag.capacity := by
  unfold remove
  split <;> rfl

theorem Sound.remove {capacity : Nat} (sound : bag.Sound capacity) (key : String) :
    (bag.remove key).2.Sound capacity where
  consistent := sound.consistent.remove key
  capacity_eq := (capacity_remove bag key).trans sound.capacity_eq
  size_le := Nat.le_trans (size_remove_le bag key) sound.size_le

/-- A removed resident may be placed again, changed, under its serial number. -/
theorem Sound.replace [LawfulItem α] {capacity : Nat} {item : α}
    (sound : bag.Sound capacity)
    (resident : bag.slot? key = some slot)
    (keyed : Item.key item = key) :
    ((bag.remove key).2.place key item slot.serial).Sound capacity where
  consistent := by
    refine (sound.consistent.remove key).place ?_ keyed ?_ ?_
    · simp [slot?_remove]
    · intro other otherSlot left sameSerial
      rw [slot?_remove] at left
      split at left
      · contradiction
      · exact ‹¬other = key›
          (sound.consistent.serial_injective _ _ _ _ left resident sameSerial)
    · rw [remove_of_resident resident]
      exact sound.consistent.serial_le key slot resident
  capacity_eq := (capacity_remove bag key).trans sound.capacity_eq
  size_le := by
    have smaller := size_remove_lt resident
    have bound := sound.size_le
    rw [size_place]
    omega

theorem Consistent.placeNew [LawfulItem α] {item : α}
    (consistent : bag.Consistent)
    (free : bag.slot? key = none)
    (keyed : Item.key item = key) :
    (bag.placeNew key item).Consistent := by
  have next : bag.nextSerial.Consistent :=
    consistent.of_sameIndexes rfl rfl rfl (Nat.le_succ _) (Nat.le_refl _)
  refine next.place free keyed ?_ (Nat.le_refl _)
  intro other slot resident sameSerial
  have given := consistent.serial_le other slot resident
  omega

/-- Making room removes a resident, unless there is none. -/
theorem removeWeakest_of_occupied (consistent : bag.Consistent)
    (occupied : bag.slot? key = some slot) :
    ∃ weakest leaving, bag.slot? weakest = some leaving ∧
      bag.removeWeakest.2 = (bag.remove weakest).2 := by
  unfold removeWeakest
  split
  · rename_i unranked
    have ranked := consistent.rank_mem occupied
    rw [List.head?_eq_none_iff.mp unranked] at ranked
    contradiction
  · rename_i rank first
    obtain ⟨leaving, resident, _⟩ :=
      (consistent.mem_ranking rank).mp (List.mem_of_mem_head? first)
    exact ⟨rank.key, leaving, resident, rfl⟩

theorem size_removeWeakest_lt (consistent : bag.Consistent) (occupied : bag.slot? key = some slot) :
    bag.removeWeakest.2.size < bag.size := by
  obtain ⟨_, _, resident, result⟩ := removeWeakest_of_occupied consistent occupied
  rw [result]
  exact size_remove_lt resident

omit [Arithmetic] in
theorem capacity_removeWeakest (bag : Bag α) :
    bag.removeWeakest.2.capacity = bag.capacity := by
  unfold removeWeakest
  split
  · rfl
  · exact capacity_remove bag _

theorem Consistent.removeWeakest (consistent : bag.Consistent) :
    bag.removeWeakest.2.Consistent := by
  unfold Bag.removeWeakest
  split
  · exact consistent
  · exact consistent.remove _

/-! ## One operation -/

theorem Sound.of_sameIndexes {other : Bag α} {capacity : Nat} (sound : bag.Sound capacity)
    (slots : other.slots = bag.slots)
    (levels : other.levels = bag.levels)
    (ranking : other.ranking = bag.ranking)
    (serials : bag.lastSerial ≤ other.lastSerial)
    (clock : bag.clock ≤ other.clock)
    (sameCapacity : other.capacity = bag.capacity) :
    other.Sound capacity where
  consistent := sound.consistent.of_sameIndexes slots levels ranking serials clock
  capacity_eq := sameCapacity.trans sound.capacity_eq
  size_le := by
    have bound := sound.size_le
    unfold size at bound ⊢
    rwa [slots]

/-- An item under a new key finds room, or somebody leaves. -/
theorem Sound.put_free [LawfulItem α] {capacity : Nat} {item : α}
    (sound : bag.Sound capacity) (free : bag.slot? (Item.key item) = none) :
    (bag.put item).bag.Sound capacity := by
  have placed := sound.consistent.placeNew free rfl
  have sameCapacity : (bag.placeNew (Item.key item) item).capacity = bag.capacity := rfl
  have oneMore : (bag.placeNew (Item.key item) item).size = bag.size + 1 := size_place
  have bound := sound.size_le
  simp only [put, remove_of_free free]
  split
  · rename_i crowded
    have resident : (bag.placeNew (Item.key item) item).slot? (Item.key item) =
        some (bag.nextSerial.placedSlot item (bag.lastSerial + 1)) := by
      have freeNext : bag.nextSerial.slot? (Item.key item) = none := free
      rw [placeNew, slot?_place freeNext, if_pos rfl]
    have smaller := size_removeWeakest_lt placed resident
    exact
      { consistent := placed.removeWeakest
        capacity_eq := by rw [capacity_removeWeakest, sameCapacity, sound.capacity_eq]
        size_le := by
          change (bag.placeNew (Item.key item) item).removeWeakest.2.size ≤ capacity
          omega }
  · rename_i roomy
    rw [sameCapacity, sound.capacity_eq] at roomy
    exact
      { consistent := placed
        capacity_eq := sameCapacity.trans sound.capacity_eq
        size_le := Nat.not_lt.mp roomy }

/-- An item under the key of a resident takes its place or is absorbed. -/
theorem Sound.put_resident [LawfulItem α] {capacity : Nat} {item : α}
    (sound : bag.Sound capacity) (resident : bag.slot? (Item.key item) = some slot) :
    (bag.put item).bag.Sound capacity := by
  have removed : bag.remove (Item.key item) = (some slot, (bag.remove (Item.key item)).2) := by
    rw [remove_of_resident resident]
  simp only [put]
  rw [removed]
  cases Item.policy item with
  | replace =>
      have free : (bag.remove (Item.key item)).2.slot? (Item.key item) = none := by
        simp [slot?_remove]
      have smaller := size_remove_lt resident
      have bound := sound.size_le
      exact
        { consistent := (sound.consistent.remove _).placeNew free rfl
          capacity_eq := (capacity_remove bag _).trans sound.capacity_eq
          size_le := by
            have oneMore :
                ((bag.remove (Item.key item)).2.placeNew (Item.key item) item).size =
                  (bag.remove (Item.key item)).2.size + 1 := size_place
            change ((bag.remove (Item.key item)).2.placeNew (Item.key item) item).size ≤ capacity
            omega }
  | merge =>
      refine sound.replace resident ?_
      rw [LawfulItem.key_absorb, Item.key_mapBudget]
      exact sound.consistent.key_item _ slot resident

theorem Sound.put [LawfulItem α] {capacity : Nat} (sound : bag.Sound capacity) (item : α) :
    (bag.put item).bag.Sound capacity := by
  cases resident : bag.slot? (Item.key item) with
  | none => exact sound.put_free resident
  | some slot => exact sound.put_resident resident

theorem Sound.putBack [LawfulItem α] {capacity : Nat} (sound : bag.Sound capacity) (item : α) :
    (bag.putBack item).bag.Sound capacity := by
  simp only [Bag.putBack]
  split
  · exact sound
  · exact sound.put _

/-- Whatever the choice of a level, taking out only counts and removes. -/
theorem Sound.takeOut {capacity : Nat} (sound : bag.Sound capacity) :
    bag.takeOut.2.Sound capacity := by
  simp only [Bag.takeOut]
  split
  · exact sound
  · split
    · exact sound.of_sameIndexes rfl rfl rfl (Nat.le_refl _) (Nat.le_refl _) rfl
    · have counted :
          ({ bag with drawn := bag.chooseLevel.2, clock := bag.clock + 1 } : Bag α).Sound
            capacity :=
        sound.of_sameIndexes rfl rfl rfl (Nat.le_refl _) (Nat.le_succ _) rfl
      exact counted.remove _

theorem Sound.edit [LawfulItem α] {ρ : Type} {capacity : Nat}
    (sound : bag.Sound capacity)
    (key : String)
    (change : α → α × ρ)
    (keepsKey : ∀ item, Item.key (change item).1 = Item.key item) :
    (bag.edit key change).2.Sound capacity := by
  cases resident : bag.slot? key with
  | none =>
      simp only [Bag.edit, remove_of_free resident]
      exact sound
  | some slot =>
      have removed : bag.remove key = (some slot, (bag.remove key).2) := by
        rw [remove_of_resident resident]
      simp only [Bag.edit]
      rw [removed]
      refine sound.replace resident ?_
      rw [keepsKey]
      exact sound.consistent.key_item key slot resident

theorem Sound.drain {capacity : Nat} (sound : bag.Sound capacity) :
    bag.drain.2.Sound capacity := by
  simp only [Bag.drain]
  generalize bag.slots.map (·.1) = keys
  induction keys generalizing bag with
  | nil => exact sound
  | cons key rest inductionHypothesis => exact inductionHypothesis (sound.remove key)

/-- Every operation keeps the invariant. -/
theorem Sound.perform [LawfulItem α] {capacity : Nat} (sound : bag.Sound capacity)
    (operation : Operation α) : (bag.perform operation).Sound capacity := by
  cases operation with
  | put item => exact sound.put item
  | takeOut => exact sound.takeOut
  | putBack item => exact sound.putBack item
  | pick key => exact sound.remove key
  | edit key change keepsKey => exact sound.edit key _ keepsKey
  | drain => exact sound.drain
  | setForgetCycles cycles =>
      exact sound.of_sameIndexes rfl rfl rfl (Nat.le_refl _) (Nat.le_refl _) rfl
  | resetForgetCycles =>
      exact sound.of_sameIndexes rfl rfl rfl (Nat.le_refl _) (Nat.le_refl _) rfl

/-! ## Runs -/

theorem empty_sound (config : BagConfig) (draws : Draws) :
    (Bag.empty config draws : Bag α).Sound config.capacity where
  consistent := by
    have noQueue : ∀ index, (Bag.empty config draws : Bag α).queueAt index = [] := by
      intro index
      simp only [queueAt, Bag.empty, List.getElem?_replicate]
      split <;> rfl
    constructor
    case levels_pos => simp only [Bag.empty, List.length_replicate]; omega
    case queue_nodup => intro index; rw [noQueue]; exact List.nodup_nil
    case mem_queueAt => intro index key; rw [noQueue]; simp [slot?, Bag.empty]
    case mass_of_unqueued =>
      intro level member _
      rw [List.eq_of_mem_replicate member]
    all_goals simp [slot?, Bag.empty]
  capacity_eq := rfl
  size_le := Nat.zero_le _

theorem Sound.run [LawfulItem α] {capacity : Nat} (sound : bag.Sound capacity)
    (operations : List (Operation α)) : (bag.run operations).Sound capacity := by
  induction operations generalizing bag with
  | nil => exact sound
  | cons operation rest inductionHypothesis =>
      exact inductionHypothesis (sound.perform operation)

/-- Whatever a bag was made for, whatever is done to it and whatever is drawn, its
indexes agree and it holds no more than its capacity. -/
theorem run_sound [LawfulItem α]
    (config : BagConfig)
    (draws : Draws)
    (operations : List (Operation α)) :
    ((Bag.empty config draws).run operations).Sound config.capacity :=
  (empty_sound config draws).run operations

end AnyArithmetic

/-- In a bag for one task the stronger of two stays, is taken out and put back, and
is weakened in place. -/
theorem crowded_run_sound :
    let judgment := fun (name : String) (percent : Nat) =>
      (⟨⟨Term.atom 0 name, .judgment, .input 1 0⟩,
        .corrected (Single.hundredths percent) Single.one Single.zero, .derived⟩ : Task)
    let bag := (Bag.empty { capacity := 1, forgetCycles := 0 } (fun _ => 0)).run
      [.put (judgment "a" 30), .put (judgment "b" 70), .takeOut, .putBack (judgment "b" 70),
        .edit "b." (Item.mapBudget (·.withPriority (Single.hundredths 10))) (fun _ => rfl)]
    bag.Sound 1 ∧ bag.keys = ["b."] :=
  ⟨run_sound { capacity := 1, forgetCycles := 0 } _ _, by decide +kernel⟩

end Bag

end AttentiveReasoner.Attention
