import AttentiveReasoner.Attention.Bag.Placement
import AttentiveReasoner.Attention.Bag.Selection

/-!
Contract: the agreement between the four indexes of a bag.

Owns:
- the laws of an item type;
- the queue of a level and the rank of a resident as views of a bag;
- consistency: slots, queues, masses and ranking tell the same story;
- placing under a free key and removing keep a bag consistent.

Does not own: the operations that are made of placing and removing, and the bound
on the number of residents, which does not hold between two such steps.

Consistency is stated on views only (the slot of a key, the queue of a level, the
ranking), so the laws below read the same for every operation: what the slot of a
key is afterwards decides what every queue and the ranking hold.
-/

namespace AttentiveReasoner.Attention

open AttentiveReasoner.Numeric

/-- The laws of an item type. A budget is read back as it was written, and
neither writing a budget nor absorbing another item changes the key. -/
class LawfulItem (α : Type) {ν : Type} [Item α ν] : Prop where
  key_withBudget : ∀ (item : α) (budget : Budget),
    Item.key (Item.withBudget item budget) = Item.key item
  budget_withBudget : ∀ (item : α) (budget : Budget),
    Item.budget (Item.withBudget item budget) = budget
  key_absorb : ∀ resident other : α,
    Item.key (Item.absorb resident other).1 = Item.key resident

namespace Item

variable {α ν : Type} [Item α ν] [LawfulItem α]

@[simp] theorem key_mapBudget (change : Budget → Budget) (item : α) :
    key (mapBudget change item) = key item :=
  LawfulItem.key_withBudget _ _

@[simp] theorem budget_mapBudget (change : Budget → Budget) (item : α) :
    budget (mapBudget change item) = change (budget item) :=
  LawfulItem.budget_withBudget _ _

end Item

namespace Bag

variable {α ν : Type} [Arithmetic] [Item α ν] {bag : Bag α} {key : String} {slot : Slot α}

/-! ## Views -/

/-- The keys that queue at a level, the first to be served in front; none queue
at a level that does not exist. -/
def queueAt (bag : Bag α) (index : Nat) : List String :=
  (bag.levels[index]?.map (·.queue)).getD []

/-- The rank of a slot under a key. -/
def rankOf (key : String) (slot : Slot α) : Rank :=
  ⟨weightOf (Item.priority slot.item), slot.serial, key⟩

/-- The slot that an item gets when it is placed. -/
def placedSlot (bag : Bag α) (item : α) (serial : Nat) : Slot α :=
  let item := Item.mapBudget (·.placedAt bag.clock) item
  ⟨item, levelOf bag.levels.length (Item.priority item), serial⟩

/-! ## Consistency -/

/-- Slots, queues, masses and ranking agree. -/
structure Consistent (bag : Bag α) : Prop where
  /-- There is a level for every priority. -/
  levels_pos : 0 < bag.levels.length
  /-- A key has one slot. -/
  keys_nodup : (bag.slots.map (·.1)).Nodup
  /-- A resident has the key of its slot. -/
  key_item : ∀ key slot, bag.slot? key = some slot → Item.key slot.item = key
  /-- No key queues twice at a level. -/
  queue_nodup : ∀ index, (bag.queueAt index).Nodup
  /-- A key queues at a level exactly if its slot names the level. -/
  mem_queueAt : ∀ index key, key ∈ bag.queueAt index ↔
    ∃ slot, bag.slot? key = some slot ∧ slot.level = index
  /-- A slot names an existing level. -/
  level_lt : ∀ key slot, bag.slot? key = some slot → slot.level < bag.levels.length
  /-- A slot names the level of its item's priority. -/
  level_eq : ∀ key slot, bag.slot? key = some slot →
    slot.level = levelOf bag.levels.length (Item.priority slot.item)
  /-- A level without a queue has no mass. -/
  mass_of_unqueued : ∀ level ∈ bag.levels, level.queue = [] → level.mass = 0
  /-- The ranking holds the rank of every slot and nothing else. -/
  mem_ranking : ∀ rank, rank ∈ bag.ranking ↔
    ∃ slot, bag.slot? rank.key = some slot ∧ rank = rankOf rank.key slot
  /-- Every rank comes strictly before the ones behind it. -/
  ranking_sorted : bag.ranking.Pairwise (fun left right => ranksBefore left right)
  /-- No two residents share a serial number. -/
  serial_injective : ∀ key other slot otherSlot,
    bag.slot? key = some slot → bag.slot? other = some otherSlot →
      slot.serial = otherSlot.serial → key = other
  /-- No serial number is greater than the one given last. -/
  serial_le : ∀ key slot, bag.slot? key = some slot → slot.serial ≤ bag.lastSerial
  /-- Every resident was placed at some time up to now. -/
  lastUpdate_le : ∀ key slot, bag.slot? key = some slot →
    (Item.budget slot.item).lastUpdate ≤ bag.clock

theorem levelOf_lt {count : Nat} (positive : 0 < count) (priority : Float32) :
    levelOf count priority < count := by
  unfold levelOf
  omega

/-- The rank of a resident is in the ranking. -/
theorem Consistent.rank_mem (consistent : bag.Consistent)
    (resident : bag.slot? key = some slot) : rankOf key slot ∈ bag.ranking :=
  (consistent.mem_ranking _).mpr ⟨slot, resident, rfl⟩

/-! ## Rankings -/

omit [Arithmetic] in
theorem ranksBefore_iff (left right : Rank) :
    ranksBefore left right = true ↔
      left.weight < right.weight ∨
        left.weight = right.weight ∧ left.serial < right.serial := by
  simp [ranksBefore]

omit [Arithmetic] in
theorem mem_insertRank {rank other : Rank} {ranking : List Rank} :
    other ∈ insertRank rank ranking ↔ other = rank ∨ other ∈ ranking := by
  induction ranking with
  | nil => simp [insertRank]
  | cons first rest inductionHypothesis =>
      unfold insertRank
      split
      · rw [List.mem_cons, inductionHypothesis, List.mem_cons]
        exact or_left_comm
      · simp only [List.mem_cons]

omit [Arithmetic] in
/-- A rank whose serial number is new keeps its place in a sorted ranking. -/
theorem insertRank_sorted {rank : Rank} {ranking : List Rank}
    (sorted : ranking.Pairwise (fun left right => ranksBefore left right))
    (newSerial : ∀ other ∈ ranking, other.serial ≠ rank.serial) :
    (insertRank rank ranking).Pairwise (fun left right => ranksBefore left right) := by
  induction ranking with
  | nil => simp [insertRank]
  | cons first rest inductionHypothesis =>
      have firstNew := newSerial first (by simp)
      obtain ⟨firstBefore, restSorted⟩ := List.pairwise_cons.mp sorted
      unfold insertRank
      split
      · rename_i before
        refine List.pairwise_cons.mpr ⟨?_, inductionHypothesis restSorted ?_⟩
        · intro other member
          rcases mem_insertRank.mp member with rfl | member
          · exact before
          · exact firstBefore other member
        · intro other member
          exact newSerial other (by simp [member])
      · rename_i notBefore
        have before : ranksBefore rank first = true := by
          rw [ranksBefore_iff] at notBefore ⊢
          omega
        refine List.pairwise_cons.mpr ⟨?_, sorted⟩
        intro other member
        rcases List.mem_cons.mp member with rfl | member
        · exact before
        · have later := firstBefore other member
          rw [ranksBefore_iff] at before later ⊢
          omega

/-! ## Placing -/

section Placing

variable {item : α} {serial : Nat}

theorem slot?_place (free : bag.slot? key = none) (other : String) :
    (bag.place key item serial).slot? other =
      if other = key then some (bag.placedSlot item serial) else bag.slot? other := by
  change (bag.slots ++ [(key, bag.placedSlot item serial)]).lookup other = _
  rw [List.lookup_append]
  by_cases same : other = key
  · subst same
    have absent : bag.slots.lookup other = none := free
    simp [absent]
  · simp [List.lookup_cons, beq_eq_false_iff_ne.mpr same, same, slot?]

theorem size_place : (bag.place key item serial).size = bag.size + 1 := by
  simp [size, place]

theorem queueAt_place (index : Nat) (positive : 0 < bag.levels.length) :
    (bag.place key item serial).queueAt index =
      if (bag.placedSlot item serial).level = index then bag.queueAt index ++ [key]
      else bag.queueAt index := by
  have bound : (bag.placedSlot item serial).level < bag.levels.length :=
    levelOf_lt positive _
  change ((bag.levels.modify (bag.placedSlot item serial).level _)[index]?.map _).getD [] = _
  rw [List.getElem?_modify]
  by_cases same : (bag.placedSlot item serial).level = index
  · subst same
    simp [queueAt, bound]
  · simp [queueAt, same]

/-- Placing an item under its free key, with a serial number that no resident has
and that was given before, keeps the indexes in agreement. -/
theorem Consistent.place [LawfulItem α] (consistent : bag.Consistent)
    (free : bag.slot? key = none)
    (keyed : Item.key item = key)
    (newSerial : ∀ other slot, bag.slot? other = some slot → slot.serial ≠ serial)
    (given : serial ≤ bag.lastSerial) :
    (bag.place key item serial).Consistent := by
  have slotAfter : ∀ other, (bag.place key item serial).slot? other =
      if other = key then some (bag.placedSlot item serial) else bag.slot? other :=
    slot?_place free
  have queueAfter : ∀ index, (bag.place key item serial).queueAt index =
      if (bag.placedSlot item serial).level = index then bag.queueAt index ++ [key]
      else bag.queueAt index :=
    fun index => queueAt_place index consistent.levels_pos
  have levelCount : (bag.place key item serial).levels.length = bag.levels.length := by
    simp [Bag.place]
  have unqueued : ∀ index, key ∉ bag.queueAt index := by
    intro index member
    obtain ⟨slot, resident, _⟩ := (consistent.mem_queueAt index key).mp member
    rw [free] at resident
    contradiction
  -- A slot afterwards is the new one under the key, or an old one under another key.
  have slotCases : ∀ {other slot}, (bag.place key item serial).slot? other = some slot →
      other = key ∧ slot = bag.placedSlot item serial ∨
        other ≠ key ∧ bag.slot? other = some slot := by
    intro other slot resident
    rw [slotAfter] at resident
    split at resident
    · exact .inl ⟨‹_›, (Option.some.inj resident).symm⟩
    · exact .inr ⟨‹_›, resident⟩
  constructor
  case levels_pos => rw [levelCount]; exact consistent.levels_pos
  case keys_nodup =>
    change ((bag.slots ++ [(key, bag.placedSlot item serial)]).map (·.1)).Nodup
    rw [List.map_append, List.nodup_append]
    refine ⟨consistent.keys_nodup, by simp, ?_⟩
    rintro other member _ (_ | ⟨_, ⟨⟩⟩)
    rintro rfl
    obtain ⟨entry, entryMember, rfl⟩ := List.mem_map.mp member
    have absent := List.lookup_eq_none_iff.mp free entry entryMember
    simp at absent
  case key_item =>
    intro other slot resident
    rcases slotCases resident with ⟨rfl, rfl⟩ | ⟨_, resident⟩
    · simpa [placedSlot] using keyed
    · exact consistent.key_item other slot resident
  case queue_nodup =>
    intro index
    rw [queueAfter]
    split
    · rw [List.nodup_append]
      refine ⟨consistent.queue_nodup index, by simp, ?_⟩
      rintro other member _ (_ | ⟨_, ⟨⟩⟩) rfl
      exact unqueued index member
    · exact consistent.queue_nodup index
  case mem_queueAt =>
    intro index other
    rw [queueAfter, slotAfter]
    by_cases same : other = key
    · subst same
      have absent := unqueued index
      by_cases here : (bag.placedSlot item serial).level = index <;> simp [here, absent]
    · have others := consistent.mem_queueAt index other
      by_cases here : (bag.placedSlot item serial).level = index <;> simp [here, same, others]
  case level_lt =>
    intro other slot resident
    rw [levelCount]
    rcases slotCases resident with ⟨_, rfl⟩ | ⟨_, resident⟩
    · exact levelOf_lt consistent.levels_pos _
    · exact consistent.level_lt other slot resident
  case level_eq =>
    intro other slot resident
    rw [levelCount]
    rcases slotCases resident with ⟨_, rfl⟩ | ⟨_, resident⟩
    · rfl
    · exact consistent.level_eq other slot resident
  case mass_of_unqueued =>
    intro level member empty
    obtain ⟨index, bound, rfl⟩ := List.mem_iff_getElem.mp member
    simp only [Bag.place, List.getElem_modify] at empty ⊢
    split at empty
    · simp at empty
    · rw [if_neg ‹_›]
      exact consistent.mass_of_unqueued _ (List.getElem_mem _) empty
  case mem_ranking =>
    intro rank
    change rank ∈ insertRank (rankOf key (bag.placedSlot item serial)) bag.ranking ↔ _
    rw [mem_insertRank, consistent.mem_ranking, slotAfter]
    by_cases same : rank.key = key
    · simp [same, free]
    · have different : rank ≠ rankOf key (bag.placedSlot item serial) := by
        rintro rfl
        exact same rfl
      simp [same, different]
  case ranking_sorted =>
    refine insertRank_sorted consistent.ranking_sorted ?_
    intro other member
    obtain ⟨slot, resident, equal⟩ := (consistent.mem_ranking other).mp member
    rw [equal]
    exact newSerial _ _ resident
  case serial_injective =>
    intro first second firstSlot secondSlot firstResident secondResident sameSerial
    rcases slotCases firstResident with ⟨rfl, rfl⟩ | ⟨_, firstOld⟩ <;>
      rcases slotCases secondResident with ⟨rfl, rfl⟩ | ⟨_, secondOld⟩
    · rfl
    · exact absurd sameSerial.symm (newSerial _ _ secondOld)
    · exact absurd sameSerial (newSerial _ _ firstOld)
    · exact consistent.serial_injective _ _ _ _ firstOld secondOld sameSerial
  case serial_le =>
    intro other slot resident
    rcases slotCases resident with ⟨_, rfl⟩ | ⟨_, resident⟩
    · exact given
    · exact consistent.serial_le other slot resident
  case lastUpdate_le =>
    intro other slot resident
    rcases slotCases resident with ⟨_, rfl⟩ | ⟨_, resident⟩
    · simp [placedSlot, Budget.placedAt, Bag.place]
    · exact consistent.lastUpdate_le other slot resident

end Placing

/-! ## Removing -/

omit [Arithmetic] in
theorem remove_of_free (free : bag.slot? key = none) : bag.remove key = (none, bag) := by
  simp [remove, free]

/-- The bag without the entries that a slot has under its key. -/
def withoutSlot (bag : Bag α) (key : String) (slot : Slot α) : Bag α :=
  { bag with
    slots := bag.slots.filter (·.1 ≠ key)
    levels :=
      bag.levels.modify slot.level (fun level =>
        Level.without level key (Item.priority slot.item))
    ranking :=
      bag.ranking.filter (fun rank =>
        !(rank.weight = (rankOf key slot).weight && rank.serial = slot.serial)) }

omit [Arithmetic] in
theorem remove_of_resident (resident : bag.slot? key = some slot) :
    bag.remove key = (some slot, bag.withoutSlot key slot) := by
  simp only [remove, resident]
  rfl

omit [Arithmetic] in
theorem lookup_filter_ne {κ β : Type} [BEq κ] [LawfulBEq κ] [DecidableEq κ]
    (entries : List (κ × β)) (key other : κ) :
    (entries.filter (·.1 ≠ key)).lookup other =
      if other = key then none else entries.lookup other := by
  induction entries with
  | nil => simp
  | cons entry rest inductionHypothesis =>
      obtain ⟨own, value⟩ := entry
      by_cases removed : own = key
      · subst removed
        rw [List.filter_cons_of_neg (by simp), inductionHypothesis, List.lookup_cons]
        by_cases same : other = own
        · simp [same]
        · simp [same, beq_eq_false_iff_ne.mpr same]
      · rw [List.filter_cons_of_pos (by simp [removed]), List.lookup_cons, List.lookup_cons,
          inductionHypothesis]
        by_cases same : other = key
        · simp [same, beq_eq_false_iff_ne.mpr (Ne.symm removed)]
        · simp [same]

omit [Arithmetic] in
theorem slot?_remove (bag : Bag α) (key other : String) :
    (bag.remove key).2.slot? other = if other = key then none else bag.slot? other := by
  cases resident : bag.slot? key with
  | none =>
      rw [remove_of_free resident]
      split
      · subst other; exact resident
      · rfl
  | some slot =>
      rw [remove_of_resident resident]
      exact lookup_filter_ne bag.slots key other

omit [Arithmetic] in
theorem size_remove_lt (resident : bag.slot? key = some slot) :
    (bag.remove key).2.size < bag.size := by
  rw [remove_of_resident resident]
  obtain ⟨before, after, split, _⟩ := List.lookup_eq_some_iff.mp resident
  refine List.length_filter_lt_length_iff_exists.mpr ⟨(key, slot), ?_, by simp⟩
  simp [split]

omit [Arithmetic] in
theorem size_remove_le (bag : Bag α) (key : String) :
    (bag.remove key).2.size ≤ bag.size := by
  cases resident : bag.slot? key with
  | none => simp [remove_of_free resident]
  | some slot => exact Nat.le_of_lt (size_remove_lt resident)

omit [Arithmetic] in
theorem queueAt_remove (resident : bag.slot? key = some slot) (index : Nat) :
    (bag.remove key).2.queueAt index =
      if slot.level = index then (bag.queueAt index).erase key else bag.queueAt index := by
  rw [remove_of_resident resident]
  change ((bag.levels.modify slot.level _)[index]?.map _).getD [] = _
  rw [List.getElem?_modify]
  by_cases same : slot.level = index
  · subst same
    cases found : bag.levels[slot.level]? <;> simp [queueAt, Level.without, found]
  · simp [queueAt, same]

/-- Removing a key keeps the indexes in agreement. -/
theorem Consistent.remove (consistent : bag.Consistent) (key : String) :
    (bag.remove key).2.Consistent := by
  cases resident : bag.slot? key with
  | none =>
      rw [remove_of_free resident]
      exact consistent
  | some slot =>
      have slotAfter := slot?_remove bag key
      have queueAfter := queueAt_remove resident
      rw [remove_of_resident resident] at slotAfter queueAfter ⊢
      -- Whoever is left was there before, under another key.
      have slotCases : ∀ {other otherSlot},
          (bag.withoutSlot key slot).slot? other = some otherSlot →
            other ≠ key ∧ bag.slot? other = some otherSlot := by
        intro other otherSlot left
        rw [slotAfter] at left
        split at left
        · contradiction
        · exact ⟨‹_›, left⟩
      have levelCount : (bag.withoutSlot key slot).levels.length = bag.levels.length :=
        List.length_modify ..
      constructor
      case levels_pos => rw [levelCount]; exact consistent.levels_pos
      case keys_nodup => exact consistent.keys_nodup.sublist (List.filter_sublist.map _)
      case key_item =>
        intro other otherSlot left
        exact consistent.key_item other otherSlot (slotCases left).2
      case queue_nodup =>
        intro index
        rw [queueAfter]
        split
        · exact (consistent.queue_nodup index).erase key
        · exact consistent.queue_nodup index
      case mem_queueAt =>
        intro index other
        rw [queueAfter, slotAfter]
        have others := consistent.mem_queueAt index other
        by_cases here : slot.level = index
        · rw [if_pos here, (consistent.queue_nodup index).mem_erase_iff, others]
          by_cases same : other = key <;> simp [same]
        · rw [if_neg here, others]
          by_cases same : other = key
          · subst same
            simp [resident, here]
          · simp [same]
      case level_lt =>
        intro other otherSlot left
        rw [levelCount]
        exact consistent.level_lt other otherSlot (slotCases left).2
      case level_eq =>
        intro other otherSlot left
        rw [levelCount]
        exact consistent.level_eq other otherSlot (slotCases left).2
      case mass_of_unqueued =>
        intro level member empty
        obtain ⟨index, bound, rfl⟩ := List.mem_iff_getElem.mp member
        simp only [withoutSlot, List.getElem_modify] at empty ⊢
        split at empty
        · rw [if_pos ‹_›]
          simp only [Level.without] at empty ⊢
          simp [empty]
        · rw [if_neg ‹_›]
          exact consistent.mass_of_unqueued _ (List.getElem_mem _) empty
      case mem_ranking =>
        intro rank
        rw [slotAfter]
        simp only [withoutSlot]
        rw [List.mem_filter, consistent.mem_ranking]
        by_cases same : rank.key = key
        · rw [same, resident]
          simp +contextual [rankOf]
        · have kept : ∀ other, bag.slot? rank.key = some other → other.serial ≠ slot.serial :=
            fun other found sameSerial =>
              same (consistent.serial_injective _ _ _ _ found resident sameSerial)
          simp only [same, if_false]
          constructor
          · exact fun both => both.1
          · rintro ⟨other, found, equal⟩
            refine ⟨⟨other, found, equal⟩, ?_⟩
            have different := kept other found
            rw [equal]
            simp [rankOf, different]
      case ranking_sorted => exact consistent.ranking_sorted.sublist List.filter_sublist
      case serial_injective =>
        intro first second firstSlot secondSlot firstLeft secondLeft sameSerial
        exact consistent.serial_injective _ _ _ _ (slotCases firstLeft).2
          (slotCases secondLeft).2 sameSerial
      case serial_le =>
        intro other otherSlot left
        exact consistent.serial_le other otherSlot (slotCases left).2
      case lastUpdate_le =>
        intro other otherSlot left
        exact consistent.lastUpdate_le other otherSlot (slotCases left).2

end Bag

end AttentiveReasoner.Attention
