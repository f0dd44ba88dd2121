import AttentiveReasoner.Proofs.Attention.Bag.Runs

/-!
Contract: who resides in a bag after an operation.

Owns:
- the residents of a consistent bag as the items of its slots, one under each key;
- who is there after removing, placing, putting in, selecting, putting back and
  changing in place;
- properties of items that every such operation keeps, and so does a run;
- the cycles of forgetting, which none of them changes;
- the serial numbers, which are counted up and never down.

Does not own: levels, ranks and masses. Which resident leaves a crowded bag, or is
selected, is not said here.

An item that is put in may be merged with a resident. What enters is then neither the
one nor the other, and it is this entering item that the laws are about.
-/

namespace AttentiveReasoner.Attention.Bag

open AttentiveReasoner.Numeric

variable {α ν : Type} [Arithmetic] [Item α ν] {bag : Bag α} {key : String} {slot : Slot α}

/-! ## Residents and slots -/

omit [Arithmetic] in
theorem lookup_of_mem {slots : List (String × Slot α)} (nodup : (slots.map (·.1)).Nodup)
    (member : (key, slot) ∈ slots) : slots.lookup key = some slot := by
  induction slots with
  | nil => contradiction
  | cons entry rest inductionHypothesis =>
      obtain ⟨own, first⟩ := entry
      obtain ⟨absent, restNodup⟩ := List.nodup_cons.mp nodup
      rcases List.mem_cons.mp member with same | inRest
      · obtain ⟨rfl, rfl⟩ := Prod.mk.inj same
        simp
      · have different : key ≠ own := by
          rintro rfl
          exact absent (List.mem_map.mpr ⟨_, inRest, rfl⟩)
        rw [List.lookup_cons, beq_eq_false_iff_ne.mpr different]
        exact inductionHypothesis restNodup inRest

/-- A resident is the item of the slot under its own key. -/
theorem Consistent.mem_items_iff {item : α} (consistent : bag.Consistent) :
    item ∈ bag.items ↔ ∃ slot, bag.slot? (Item.key item) = some slot ∧ slot.item = item := by
  constructor
  · intro member
    obtain ⟨⟨own, slot⟩, slotMember, rfl⟩ := List.mem_map.mp member
    have resident : bag.slot? own = some slot := lookup_of_mem consistent.keys_nodup slotMember
    refine ⟨slot, ?_, rfl⟩
    rwa [consistent.key_item own slot resident]
  · rintro ⟨slot, resident, rfl⟩
    obtain ⟨before, after, split, _⟩ := List.lookup_eq_some_iff.mp resident
    refine List.mem_map.mpr ⟨(Item.key slot.item, slot), ?_, rfl⟩
    rw [split]
    simp

theorem Consistent.mem_items_of_slot? (consistent : bag.Consistent)
    (resident : bag.slot? key = some slot) :
    slot.item ∈ bag.items ∧ Item.key slot.item = key := by
  have keyed := consistent.key_item key slot resident
  refine ⟨consistent.mem_items_iff.mpr ⟨slot, ?_, rfl⟩, keyed⟩
  rwa [keyed]

theorem Consistent.eq_of_key_eq {left right : α} (consistent : bag.Consistent)
    (leftMember : left ∈ bag.items) (rightMember : right ∈ bag.items)
    (sameKey : Item.key left = Item.key right) : left = right := by
  obtain ⟨leftSlot, leftResident, rfl⟩ := consistent.mem_items_iff.mp leftMember
  obtain ⟨rightSlot, rightResident, rfl⟩ := consistent.mem_items_iff.mp rightMember
  rw [sameKey, rightResident] at leftResident
  rw [Option.some.inj leftResident]

theorem Consistent.mem_of_find? {item : α} (consistent : bag.Consistent)
    (found : bag.find? key = some item) : item ∈ bag.items ∧ Item.key item = key := by
  obtain ⟨slot, resident, rfl⟩ := Option.map_eq_some_iff.mp found
  exact consistent.mem_items_of_slot? resident

/-! ## Removing and placing -/

theorem Consistent.mem_items_remove {item : α} (consistent : bag.Consistent) :
    item ∈ (bag.remove key).2.items ↔ item ∈ bag.items ∧ Item.key item ≠ key := by
  rw [(consistent.remove key).mem_items_iff, consistent.mem_items_iff, slot?_remove]
  by_cases same : Item.key item = key <;> simp [same]

/-- An item as it is placed. -/
def placed (bag : Bag α) (item : α) : α :=
  Item.mapBudget (·.placedAt bag.clock) item

omit [Arithmetic] in
theorem budget_placed [LawfulItem α] (bag : Bag α) (item : α) :
    Item.budget (bag.placed item) = (Item.budget item).placedAt bag.clock :=
  LawfulItem.budget_withBudget _ _

omit [Arithmetic] in
theorem priority_placed [LawfulItem α] (bag : Bag α) (item : α) :
    Item.priority (bag.placed item) = Item.priority item := by
  rw [Item.priority, budget_placed]
  rfl

theorem mem_items_place {item other : α} {serial : Nat} :
    other ∈ (bag.place key item serial).items ↔ other = bag.placed item ∨ other ∈ bag.items := by
  have grown : (bag.place key item serial).items = bag.items ++ [bag.placed item] := by
    simp only [items, place, List.map_append]
    rfl
  rw [grown, List.mem_append, List.mem_singleton, or_comm]

/-! ## Putting in -/

/-- What putting an item in comes to. Something enters under the key of the item: the item
itself, which may replace the resident of the key, or that resident after it absorbed the
item. Afterwards it is there, with all others; in a crowded bag one of them has left. -/
structure Admits (bag : Bag α) (item entering : α) (placement : Placement α ν) : Prop where
  origin : (entering = item ∧ placement.notices = [] ∧
      (Item.policy item = .replace ∨ ∀ other ∈ bag.items, Item.key other ≠ Item.key item)) ∨
    ∃ resident ∈ bag.items, Item.key resident = Item.key item ∧
      Item.absorb (Item.mapBudget (·.merge (Item.budget item)) resident) item =
        (entering, placement.notices)
  mem_iff : ∀ other, (other ∈ placement.bag.items ∨ placement.departed = some other) ↔
    other = bag.placed entering ∨ other ∈ bag.items ∧ Item.key other ≠ Item.key item

theorem removeWeakest_cases (consistent : bag.Consistent) (other : α) :
    other ∈ bag.removeWeakest.2.items ∨ bag.removeWeakest.1 = some other ↔
      other ∈ bag.items := by
  unfold removeWeakest
  split
  · simp
  · rename_i rank first
    obtain ⟨slot, resident, _⟩ :=
      (consistent.mem_ranking rank).mp (List.mem_of_mem_head? first)
    obtain ⟨member, keyed⟩ := consistent.mem_items_of_slot? resident
    have removed : (bag.remove rank.key).1 = some slot := by rw [remove_of_resident resident]
    simp only [consistent.mem_items_remove, removed, Option.map_some, Option.some.injEq]
    constructor
    · rintro (⟨stays, _⟩ | rfl)
      · exact stays
      · exact member
    · intro otherMember
      by_cases same : Item.key other = rank.key
      · exact .inr (consistent.eq_of_key_eq member otherMember (by rw [keyed, same]))
      · exact .inl ⟨otherMember, same⟩

theorem Consistent.put_admits [LawfulItem α] (consistent : bag.Consistent) (item : α) :
    ∃ entering, Admits bag item entering (bag.put item) := by
  have others : ∀ other, other ∈ (bag.remove (Item.key item)).2.items ↔
      other ∈ bag.items ∧ Item.key other ≠ Item.key item :=
    fun other => consistent.mem_items_remove
  have samePlaced : ∀ entering, (bag.remove (Item.key item)).2.placed entering =
      bag.placed entering := by
    intro entering
    unfold Bag.placed Bag.remove
    split <;> rfl
  cases resident : bag.slot? (Item.key item) with
  | some slot =>
      obtain ⟨member, keyed⟩ := consistent.mem_items_of_slot? resident
      have removed : bag.remove (Item.key item) = (some slot, (bag.remove (Item.key item)).2) := by
        rw [remove_of_resident resident]
      simp only [put]
      rw [removed]
      cases policy : Item.policy item with
      | replace =>
          refine ⟨item, .inl ⟨rfl, rfl, .inl policy⟩, ?_⟩
          intro other
          have entered :
              other ∈ ((bag.remove (Item.key item)).2.placeNew (Item.key item) item).items ↔
                other = (bag.remove (Item.key item)).2.placed item ∨
                  other ∈ (bag.remove (Item.key item)).2.items := mem_items_place
          simp only [entered, samePlaced, others, reduceCtorEq, or_false]
      | merge =>
          refine ⟨(Item.absorb (Item.mapBudget (·.merge (Item.budget item)) slot.item) item).1,
            .inr ⟨slot.item, member, keyed, rfl⟩, ?_⟩
          intro other
          simp only [mem_items_place, samePlaced, others, reduceCtorEq, or_false]
  | none =>
      have free : ∀ other ∈ bag.items, Item.key other ≠ Item.key item := by
        intro other member sameKey
        obtain ⟨slot, occupied, _⟩ := consistent.mem_items_iff.mp member
        rw [sameKey, resident] at occupied
        contradiction
      have entered : ∀ other, other ∈ (bag.placeNew (Item.key item) item).items ↔
          other = bag.placed item ∨ other ∈ bag.items := fun other => mem_items_place
      have keptApart : ∀ other, (other = bag.placed item ∨ other ∈ bag.items) ↔
          other = bag.placed item ∨ other ∈ bag.items ∧ Item.key other ≠ Item.key item :=
        fun other => or_congr_right ⟨fun member => ⟨member, free other member⟩, And.left⟩
      simp only [put, remove_of_free resident]
      split
      · refine ⟨item, .inl ⟨rfl, rfl, .inr free⟩, ?_⟩
        intro other
        rw [← keptApart, ← entered]
        exact removeWeakest_cases (consistent.placeNew resident rfl) other
      · refine ⟨item, .inl ⟨rfl, rfl, .inr free⟩, ?_⟩
        intro other
        rw [← keptApart, ← entered]
        simp

/-- Putting back is putting in what has faded, unless that is too weak. -/
theorem putBack_cases (bag : Bag α) (item : α) :
    (bag.putBack item = { bag := bag, departed := some (bag.forget item) }) ∨
      bag.putBack item = bag.put (bag.forget item) := by
  simp only [putBack]
  split
  · exact .inl rfl
  · exact .inr rfl

/-! ## Selecting and changing -/

theorem Consistent.takeOut_cases (consistent : bag.Consistent) :
    (bag.takeOut.1 = none ∧ bag.takeOut.2.items = bag.items) ∨
      ∃ item ∈ bag.items, bag.takeOut.1 = some item ∧
        ∀ other, other ∈ bag.takeOut.2.items ↔
          other ∈ bag.items ∧ Item.key other ≠ Item.key item := by
  simp only [takeOut]
  split
  · exact .inl ⟨rfl, rfl⟩
  · split
    · exact .inl ⟨rfl, rfl⟩
    · rename_i key _
      have counted :
          ({ bag with drawn := bag.chooseLevel.2, clock := bag.clock + 1 } : Bag α).Consistent :=
        consistent.of_sameIndexes rfl rfl rfl (Nat.le_refl _) (Nat.le_succ _)
      cases resident :
          ({ bag with drawn := bag.chooseLevel.2, clock := bag.clock + 1 } : Bag α).slot? key with
      | none =>
          rw [remove_of_free resident]
          exact .inl ⟨rfl, rfl⟩
      | some slot =>
          obtain ⟨member, keyed⟩ := counted.mem_items_of_slot? resident
          refine .inr ⟨slot.item, member, ?_, ?_⟩
          · rw [remove_of_resident resident]
            rfl
          · intro other
            rw [counted.mem_items_remove, keyed]
            rfl

omit [Arithmetic] in
/-- When nothing can be selected, the residents and their ranking stay. -/
theorem takeOut_none (nothing : bag.takeOut.1 = none) :
    bag.takeOut.2.slots = bag.slots ∧ bag.takeOut.2.ranking = bag.ranking := by
  revert nothing
  simp only [takeOut]
  split
  · exact fun _ => ⟨rfl, rfl⟩
  · split
    · exact fun _ => ⟨rfl, rfl⟩
    · rename_i key _
      cases resident :
          ({ bag with drawn := bag.chooseLevel.2, clock := bag.clock + 1 } : Bag α).slot? key with
      | none =>
          rw [remove_of_free resident]
          exact fun _ => ⟨rfl, rfl⟩
      | some slot =>
          rw [remove_of_resident resident]
          intro nothing
          contradiction

theorem Consistent.edit_cases {ρ : Type} (consistent : bag.Consistent) (key : String)
    (change : α → α × ρ) :
    (bag.find? key = none ∧ bag.edit key change = (none, bag)) ∨
      ∃ item ∈ bag.items, Item.key item = key ∧ bag.find? key = some item ∧
        (bag.edit key change).1 = some (change item).2 ∧
        ∀ other, other ∈ (bag.edit key change).2.items ↔
          other = bag.placed (change item).1 ∨ other ∈ bag.items ∧ Item.key other ≠ key := by
  cases resident : bag.slot? key with
  | none =>
      refine .inl ⟨by rw [find?, resident]; rfl, ?_⟩
      simp only [edit, remove_of_free resident]
  | some slot =>
      obtain ⟨member, keyed⟩ := consistent.mem_items_of_slot? resident
      have removed : bag.remove key = (some slot, (bag.remove key).2) := by
        rw [remove_of_resident resident]
      have samePlaced : (bag.remove key).2.placed (change slot.item).1 =
          bag.placed (change slot.item).1 := by
        rw [remove_of_resident resident]
        rfl
      refine .inr ⟨slot.item, member, keyed, by rw [find?, resident]; rfl, ?_, ?_⟩
      · simp only [edit]
        rw [removed]
      · intro other
        simp only [edit]
        rw [removed]
        simp only [mem_items_place, samePlaced, consistent.mem_items_remove]

/-! ## What items keep -/

/-- A property of items that placing, merging under one key, and fading over the given
cycles of forgetting keep. -/
structure Stable (cycles : Nat) (holds : α → Prop) : Prop where
  placed : ∀ (item : α) (clock : Nat), holds item →
    holds (Item.mapBudget (·.placedAt clock) item)
  merged : ∀ resident arrival : α, holds resident → holds arrival →
    Item.key resident = Item.key arrival →
      holds (Item.absorb
        (Item.mapBudget (·.merge (Item.budget arrival)) resident) arrival).1
  faded : ∀ (item : α) (clock : Nat), holds item →
    holds (Item.mapBudget (·.fade cycles clock) item)

variable {cycles : Nat} {holds : α → Prop}

theorem Stable.entering {item entering : α} {placement : Placement α ν}
    (stable : Stable cycles holds) (all : ∀ item ∈ bag.items, holds item) (given : holds item)
    (admits : Admits bag item entering placement) : holds entering := by
  rcases admits.origin with ⟨rfl, _, _⟩ | ⟨resident, member, sameKey, absorbed⟩
  · exact given
  · have merged := stable.merged resident item (all resident member) given sameKey
    rwa [absorbed] at merged

theorem Stable.admits {item entering : α} {placement : Placement α ν}
    (stable : Stable cycles holds) (all : ∀ item ∈ bag.items, holds item) (given : holds item)
    (admits : Admits bag item entering placement) :
    ∀ other, other ∈ placement.bag.items ∨ placement.departed = some other → holds other := by
  intro other present
  rcases (admits.mem_iff other).mp present with rfl | ⟨member, _⟩
  · exact stable.placed entering bag.clock (stable.entering all given admits)
  · exact all other member

theorem Stable.put [LawfulItem α] {item : α} (stable : Stable cycles holds)
    (consistent : bag.Consistent) (all : ∀ item ∈ bag.items, holds item) (given : holds item) :
    ∀ other, other ∈ (bag.put item).bag.items ∨ (bag.put item).departed = some other →
      holds other := by
  obtain ⟨entering, admits⟩ := consistent.put_admits item
  exact stable.admits all given admits

theorem Stable.putBack [LawfulItem α] {item : α} (stable : Stable bag.forgetCycles holds)
    (consistent : bag.Consistent) (all : ∀ item ∈ bag.items, holds item) (given : holds item) :
    ∀ other, other ∈ (bag.putBack item).bag.items ∨ (bag.putBack item).departed = some other →
      holds other := by
  have faded : holds (bag.forget item) := stable.faded item bag.clock given
  intro other present
  rcases putBack_cases bag item with tooWeak | put
  · rw [tooWeak] at present
    rcases present with member | departed
    · exact all other member
    · rw [← Option.some.inj departed]
      exact faded
  · rw [put] at present
    exact stable.put consistent all faded other present

theorem Consistent.takeOut_all (consistent : bag.Consistent)
    (all : ∀ item ∈ bag.items, holds item) :
    (∀ item, bag.takeOut.1 = some item → holds item) ∧
      ∀ item ∈ bag.takeOut.2.items, holds item := by
  rcases consistent.takeOut_cases with ⟨nothing, same⟩ | ⟨taken, member, isTaken, others⟩
  · rw [nothing, same]
    exact ⟨fun _ nobody => (nomatch nobody), all⟩
  · refine ⟨?_, fun item stays => all item ((others item).mp stays).1⟩
    intro item isItem
    rw [isTaken] at isItem
    rw [← Option.some.inj isItem]
    exact all taken member

theorem Stable.edit {ρ : Type} {change : α → α × ρ} (stable : Stable cycles holds)
    (consistent : bag.Consistent) (all : ∀ item ∈ bag.items, holds item)
    (changed : ∀ item, holds item → Item.key item = key → holds (change item).1) :
    ∀ item ∈ (bag.edit key change).2.items, holds item := by
  rcases consistent.edit_cases key change with ⟨_, unchanged⟩ |
    ⟨edited, member, keyed, _, _, others⟩
  · rw [unchanged]
    exact all
  · intro item stays
    rcases (others item).mp stays with rfl | ⟨other, _⟩
    · exact stable.placed _ bag.clock (changed edited (all edited member) keyed)
    · exact all item other

/-- An operation that brings in nothing but items of a property. -/
def Operation.Keeps (holds : α → Prop) : Operation α → Prop
  | .put item | .putBack item => holds item
  | .edit _ change _ => ∀ item, holds item → holds (change item)
  | .takeOut | .pick _ | .drain | .setForgetCycles _ | .resetForgetCycles => True

theorem Consistent.remove_all (consistent : bag.Consistent) (all : ∀ item ∈ bag.items, holds item)
    (key : String) : ∀ item ∈ (bag.remove key).2.items, holds item :=
  fun item stays => all item (consistent.mem_items_remove.mp stays).1

theorem Consistent.perform_all [LawfulItem α] {operation : Operation α}
    (consistent : bag.Consistent) (stable : ∀ cycles, Stable cycles holds)
    (all : ∀ item ∈ bag.items, holds item) (keeps : operation.Keeps holds) :
    ∀ item ∈ (bag.perform operation).items, holds item := by
  cases operation with
  | put item =>
      exact fun other member =>
        (stable bag.forgetCycles).put consistent all keeps other (.inl member)
  | takeOut => exact (consistent.takeOut_all all).2
  | putBack item =>
      exact fun other member =>
        (stable bag.forgetCycles).putBack consistent all keeps other (.inl member)
  | pick key => exact consistent.remove_all all key
  | edit key change keepsKey =>
      exact (stable bag.forgetCycles).edit consistent all fun item given _ => keeps item given
  | drain =>
      simp only [perform, drain]
      generalize bag.slots.map (·.1) = keys
      induction keys generalizing bag with
      | nil => exact all
      | cons key rest inductionHypothesis =>
          exact inductionHypothesis (consistent.remove key) (consistent.remove_all all key)
  | setForgetCycles cycles => exact all
  | resetForgetCycles => exact all

/-- A property that items keep holds of the residents of a bag to which no others were brought. -/
theorem Sound.run_all [LawfulItem α] {capacity : Nat} {operations : List (Operation α)}
    (sound : bag.Sound capacity) (stable : ∀ cycles, Stable cycles holds)
    (all : ∀ item ∈ bag.items, holds item)
    (keeps : ∀ operation ∈ operations, operation.Keeps holds) :
    ∀ item ∈ (bag.run operations).items, holds item := by
  induction operations generalizing bag with
  | nil => exact all
  | cons operation rest inductionHypothesis =>
      rw [List.forall_mem_cons] at keeps
      exact inductionHypothesis (sound.perform operation)
        (sound.consistent.perform_all stable all keeps.1) keeps.2

/-! ## What putting in leaves alone -/

/-- Putting in is made of removing, counting and placing: a relation that these steps respect and
that can be chained relates the bags before and after. -/
theorem put_related (related : Bag α → Bag α → Prop)
    (chains : ∀ {first second third : Bag α},
      related first second → related second third → related first third)
    (removes : ∀ (bag : Bag α) (key : String), related bag (bag.remove key).2)
    (counts : ∀ bag : Bag α, related bag bag.nextSerial)
    (places : ∀ (bag : Bag α) (key : String) (item : α) (serial : Nat),
      related bag (bag.place key item serial))
    (bag : Bag α) (item : α) : related bag (bag.put item).bag := by
  have remaining := removes bag (Item.key item)
  have placesNew : ∀ bag : Bag α, related bag (bag.placeNew (Item.key item) item) :=
    fun bag => chains (counts bag) (places bag.nextSerial _ _ _)
  simp only [put]
  split
  · rename_i slot left removed
    rw [removed] at remaining
    cases Item.policy item with
    | replace => exact chains remaining (placesNew left)
    | merge => exact chains remaining (places left _ _ _)
  · rename_i left removed
    rw [removed] at remaining
    have entered := chains remaining (placesNew left)
    split
    · simp only [removeWeakest]
      split
      · exact entered
      · exact chains entered (removes _ _)
    · exact entered

/-- Putting in leaves alone whatever counting, placing and removing leave alone. -/
theorem put_keeps {β : Type} {reading : Bag α → β}
    (removes : ∀ (bag : Bag α) (key : String), reading (bag.remove key).2 = reading bag)
    (counts : ∀ bag : Bag α, reading bag.nextSerial = reading bag)
    (places : ∀ (bag : Bag α) (key : String) (item : α) (serial : Nat),
      reading (bag.place key item serial) = reading bag)
    (bag : Bag α) (item : α) : reading (bag.put item).bag = reading bag :=
  put_related (fun bag after => reading after = reading bag)
    (fun earlier later => later.trans earlier) removes counts places bag item

theorem clock_put (bag : Bag α) (item : α) : (bag.put item).bag.clock = bag.clock := by
  refine put_keeps ?_ (fun _ => rfl) (fun _ _ _ _ => rfl) bag item
  intro bag key
  unfold remove
  split <;> rfl

/-! ## The cycles of forgetting -/

omit [Arithmetic] in
theorem forgetCycles_remove (bag : Bag α) (key : String) :
    (bag.remove key).2.forgetCycles = bag.forgetCycles := by
  unfold remove
  split <;> rfl

theorem forgetCycles_put (bag : Bag α) (item : α) :
    (bag.put item).bag.forgetCycles = bag.forgetCycles :=
  put_keeps forgetCycles_remove (fun _ => rfl) (fun _ _ _ _ => rfl) bag item

theorem forgetCycles_putBack (bag : Bag α) (item : α) :
    (bag.putBack item).bag.forgetCycles = bag.forgetCycles := by
  rcases putBack_cases bag item with tooWeak | put
  · rw [tooWeak]
  · rw [put, forgetCycles_put]

omit [Arithmetic] in
theorem forgetCycles_takeOut (bag : Bag α) :
    bag.takeOut.2.forgetCycles = bag.forgetCycles := by
  simp only [takeOut]
  split
  · rfl
  · split
    · rfl
    · rw [forgetCycles_remove]

theorem forgetCycles_edit {ρ : Type} (bag : Bag α) (key : String) (change : α → α × ρ) :
    (bag.edit key change).2.forgetCycles = bag.forgetCycles := by
  have remaining := forgetCycles_remove bag key
  simp only [edit]
  split
  · rename_i left removed
    rw [removed] at remaining
    exact remaining
  · rename_i slot left removed
    rw [removed] at remaining
    exact remaining

/-! ## Serial numbers -/

omit [Arithmetic] in
theorem lastSerial_remove (bag : Bag α) (key : String) :
    (bag.remove key).2.lastSerial = bag.lastSerial := by
  unfold remove
  split <;> rfl

/-- Serial numbers are only ever counted up. -/
theorem lastSerial_le_put (bag : Bag α) (item : α) :
    bag.lastSerial ≤ (bag.put item).bag.lastSerial :=
  put_related (fun bag after => bag.lastSerial ≤ after.lastSerial) Nat.le_trans
    (fun bag key => Nat.le_of_eq (lastSerial_remove bag key).symm)
    (fun bag => Nat.le_succ bag.lastSerial)
    (fun _ _ _ _ => Nat.le_refl _) bag item

/-- A newcomer is given a new one, even if it is pushed out at once. -/
theorem lastSerial_put_of_free {item : α} (free : bag.slot? (Item.key item) = none) :
    (bag.put item).bag.lastSerial = bag.lastSerial + 1 := by
  simp only [put, remove_of_free free]
  split
  · simp only [removeWeakest]
    split
    · rfl
    · exact lastSerial_remove _ _
  · rfl

theorem lastSerial_le_putBack (bag : Bag α) (item : α) :
    bag.lastSerial ≤ (bag.putBack item).bag.lastSerial := by
  rcases putBack_cases bag item with tooWeak | put
  · exact Nat.le_of_eq (by rw [tooWeak])
  · rw [put]
    exact lastSerial_le_put bag (bag.forget item)

omit [Arithmetic] in
theorem lastSerial_takeOut (bag : Bag α) : bag.takeOut.2.lastSerial = bag.lastSerial := by
  simp only [takeOut]
  split
  · rfl
  · split
    · rfl
    · rw [lastSerial_remove]

theorem lastSerial_edit {ρ : Type} (bag : Bag α) (key : String) (change : α → α × ρ) :
    (bag.edit key change).2.lastSerial = bag.lastSerial := by
  have remaining := lastSerial_remove bag key
  simp only [edit]
  split
  · rename_i left removed
    rw [removed] at remaining
    exact remaining
  · rename_i slot left removed
    rw [removed] at remaining
    exact remaining

end AttentiveReasoner.Attention.Bag
