import AttentiveReasoner.Proofs.Attention.Bag.Rotation
import AttentiveReasoner.Proofs.Attention.Budgets
import AttentiveReasoner.Proofs.Numeric.Extended
import Mathlib.Data.List.Sort

/-!
Contract: items that come under the key of a resident reinforce it, in whatever order they come.

Owns:
- the greatest priority, durability and quality among budgets;
- items that reinforce a resident, and putting in one item after the other;
- that the resident stays under its serial number with the greatest of all values, that nobody
  leaves, and that nobody else is concerned;
- that neither the order nor the repetition of the items counts, for the level and for the list of
  keys as little as for the values.

Does not own: what the resident takes in besides, and the masses. Both may depend on the order.

Of a positive and a negative zero the later one stays. So the encodings of the greatest values are
not determined, and everything here is said about values.
-/

namespace AttentiveReasoner.Attention

open AttentiveReasoner.Chance
open AttentiveReasoner.Evidence
open AttentiveReasoner.Language
open AttentiveReasoner.Numeric

/-! ## The greatest values -/

namespace Budget

variable {budget other : Budget} {budgets : Set Budget} {read : Budget → Float32}
  {number : Float32}

/-- The values that are read from budgets. -/
def values (read : Budget → Float32) (budgets : Set Budget) : Set ExtendedRational :=
  (fun budget => Single.extended (read budget)) '' budgets

/-- The priority, the durability and the quality of a budget are the greatest among budgets. -/
structure Greatest (budgets : Set Budget) (budget : Budget) : Prop where
  priority : IsGreatest (values Budget.priority budgets) (Single.extended budget.priority)
  durability : IsGreatest (values Budget.durability budgets) (Single.extended budget.durability)
  quality : IsGreatest (values Budget.quality budgets) (Single.extended budget.quality)

theorem isGreatest_values_singleton (read : Budget → Float32) (budget : Budget) :
    IsGreatest (values read {budget}) (Single.extended (read budget)) := by
  rw [values, Set.image_singleton]
  exact isGreatest_singleton

theorem greatest_singleton (budget : Budget) : Greatest {budget} budget where
  priority := isGreatest_values_singleton Budget.priority budget
  durability := isGreatest_values_singleton Budget.durability budget
  quality := isGreatest_values_singleton Budget.quality budget

/-- With one more budget the greatest value is the larger of two. -/
theorem isGreatest_values_insert
    (greatest : IsGreatest (values read budgets) (Single.extended number))
    (isNumber : Single.isNaN number = false) (otherNumber : Single.isNaN (read other) = false) :
    IsGreatest (values read (insert other budgets))
      (Single.extended (Single.larger number (read other))) := by
  rw [values, Set.image_insert_eq, Single.extended_larger isNumber otherNumber, max_comm]
  exact greatest.insert _

/-- Merging keeps the greatest values. -/
theorem Greatest.merge (greatest : Greatest budgets budget) (inRange : budget.InRange)
    (otherInRange : other.InRange) : Greatest (insert other budgets) (budget.merge other) where
  priority := isGreatest_values_insert greatest.priority inRange.priority.isNumber
    otherInRange.priority.isNumber
  durability := isGreatest_values_insert greatest.durability inRange.durability.isNumber
    otherInRange.durability.isNumber
  quality := isGreatest_values_insert greatest.quality inRange.quality.isNumber
    otherInRange.quality.isNumber

/-- There is one greatest value, though it may have two encodings. -/
theorem Greatest.sameValues (greatest : Greatest budgets budget)
    (otherGreatest : Greatest budgets other) (inRange : budget.InRange)
    (otherInRange : other.InRange) : budget.SameValues other where
  priority :=
    (Single.same_iff_extended inRange.priority.isNumber otherInRange.priority.isNumber).mpr
      (greatest.priority.unique otherGreatest.priority)
  durability :=
    (Single.same_iff_extended inRange.durability.isNumber otherInRange.durability.isNumber).mpr
      (greatest.durability.unique otherGreatest.durability)
  quality :=
    (Single.same_iff_extended inRange.quality.isNumber otherInRange.quality.isNumber).mpr
      (greatest.quality.unique otherGreatest.quality)

end Budget

namespace Bag

/-! ## Level and weight of a value -/

section Values

variable {left right : Float32}

/-- The two zeros belong to one level. -/
theorem levelOf_eq_of_same (count : Nat) (same : Single.Same left right) :
    levelOf count left = levelOf count right := by
  rcases same.eq_or_zeros with rfl | ⟨leftZero, rightZero⟩
  · rfl
  · have wholePart (number : Float32) (isZero : Single.magnitude number = 0) :
        Single.truncate (Arithmetic.product number (Single.ofNat count)) = 0 :=
      Single.truncate_zero_mul _ isZero
    rw [levelOf, levelOf, wholePart left leftZero, wholePart right rightZero]

/-- The two zeros have one weight. -/
theorem weightOf_eq_of_same (same : Single.Same left right) : weightOf left = weightOf right := by
  obtain ⟨leftNumber, rightNumber, sameMagnitude⟩ := Single.same_iff.mp same
  have leftWeight := weightOf_eq leftNumber
  have rightWeight := weightOf_eq rightNumber
  omega

end Values

variable {α ν : Type} [Item α ν] {bag middle after otherAfter : Bag α} {key : String}
  {slot resident : Slot α} {item : α} {items : List α} {budgets : Set Budget}
  {capacity otherCapacity : Nat}

/-! ## One item -/

/-- An item that reinforces the resident of a key: it comes under this key, it is to be taken in by
the resident, and its budget is in range. -/
structure Reinforces (key : String) (item : α) : Prop where
  key_eq : Item.key item = key
  policy : Item.policy item = .merge
  inRange : (Item.budget item).InRange

/-- A resident that was reinforced: it has its serial number, and the greatest values among the
budgets that were merged. -/
structure Strengthened (resident : Slot α) (budgets : Set Budget) (slot : Slot α) : Prop where
  serial : slot.serial = resident.serial
  inRange : (Item.budget slot.item).InRange
  greatest : (Item.budget slot.item).Greatest budgets

/-- A bag in which one resident was reinforced. The others have their slots, with item, level and
serial number, and their places in the queues, and nobody was added or has left. -/
structure Reinforced (bag : Bag α) (key : String) (resident : Slot α) (budgets : Set Budget)
    (after : Bag α) : Prop where
  resides : ∃ slot, after.slot? key = some slot ∧ Strengthened resident budgets slot
  spares : Spares {key} bag after
  names_eq : after.names = bag.names
  size_eq : after.size = bag.size
  levels_length : after.levels.length = bag.levels.length

theorem levels_length_put (bag : Bag α) (item : α) :
    (bag.put item).bag.levels.length = bag.levels.length :=
  @put_keeps α ν _ _ Nat (fun bag => bag.levels.length) levels_length_remove (fun _ => rfl)
    (fun _ _ _ _ => List.length_modify ..) bag item

/-- To begin with the resident has the greatest values among its own. -/
theorem reinforced_self (resides : bag.slot? key = some resident)
    (inRange : (Item.budget resident.item).InRange) :
    Reinforced bag key resident {Item.budget resident.item} bag where
  resides := ⟨resident, resides, rfl, inRange, Budget.greatest_singleton _⟩
  spares := ⟨fun _ _ => rfl, fun _ => rfl⟩
  names_eq := rfl
  size_eq := rfl
  levels_length := rfl

theorem Strengthened.merged [LawfulItem α] [KeepsBudget α]
    (strengthened : Strengthened resident budgets slot) (inRange : (Item.budget item).InRange)
    (bag : Bag α) :
    Strengthened resident (insert (Item.budget item) budgets)
      (bag.placedSlot
        (Item.absorb (Item.mapBudget (·.merge (Item.budget item)) slot.item) item).1
        slot.serial) := by
  have lasting := Budget.lasting_inRange
  have greatest := strengthened.greatest.merge strengthened.inRange inRange
  have budget := budget_merged bag slot.item item slot.serial
  constructor
  case serial => exact strengthened.serial
  case inRange =>
    rw [budget]
    exact lasting.placed _ _ (lasting.merged _ _ strengthened.inRange inRange)
  case greatest =>
    rw [budget]
    exact ⟨greatest.priority, greatest.durability, greatest.quality⟩

/-- One more item reinforces the resident, and nobody leaves. -/
theorem Reinforced.put [LawfulItem α] [KeepsBudget α]
    (reinforced : Reinforced bag key resident budgets middle) (sound : middle.Sound capacity)
    (reinforces : Reinforces key item) :
    (middle.put item).departed = none ∧
      Reinforced bag key resident (insert (Item.budget item) budgets) (middle.put item).bag := by
  obtain ⟨slot, resides, strengthened⟩ := reinforced.resides
  obtain ⟨rfl, policy, inRange⟩ := reinforces
  have result := put_merging resides policy
  obtain ⟨nobodyLeft, names⟩ := put_resident_names resides
  rw [nobodyLeft, Finset.union_empty, Finset.insert_eq_of_mem
    (mem_names.mpr ⟨slot.item, by rw [find?, resides, Option.map_some]⟩)] at names
  have sameNames := names.symm.trans reinforced.names_eq
  refine ⟨by rw [result], ?_⟩
  constructor
  case resides =>
    refine ⟨_, ?_, strengthened.merged inRange middle⟩
    rw [result, slot?_replace, if_pos rfl]
  case spares =>
    rw [result]
    exact reinforced.spares.trans sound.consistent.spares_replace
  case names_eq => exact sameNames
  case size_eq =>
    rw [← (sound.put item).consistent.card_names, ← names, sound.consistent.card_names]
    exact reinforced.size_eq
  case levels_length => exact (levels_length_put middle item).trans reinforced.levels_length

/-! ## Items one after the other -/

/-- Put in items one after the other: the items that leave, and the bag afterwards. -/
def putAll (bag : Bag α) : List α → List α × Bag α
  | [] => ([], bag)
  | item :: rest =>
      let placement := bag.put item
      let later := placement.bag.putAll rest
      (placement.departed.toList ++ later.1, later.2)

theorem Sound.putAll [LawfulItem α] (sound : bag.Sound capacity) (items : List α) :
    (bag.putAll items).2.Sound capacity := by
  induction items generalizing bag with
  | nil => exact sound
  | cons item rest inductionHypothesis => exact inductionHypothesis (sound.put item)

/-- All items reinforce the resident, one after the other. -/
theorem Reinforced.putAll [LawfulItem α] [KeepsBudget α]
    (reinforced : Reinforced bag key resident budgets middle) (sound : middle.Sound capacity)
    (reinforce : ∀ item ∈ items, Reinforces key item) :
    (middle.putAll items).1 = [] ∧
      Reinforced bag key resident (budgets ∪ Item.budget '' {item | item ∈ items})
        (middle.putAll items).2 := by
  -- The greatest values so far are among those of the budgets so far; each item adds its own.
  induction items generalizing middle budgets with
  | nil =>
      have sameBudgets : budgets ∪ Item.budget '' {item : α | item ∈ []} = budgets := by
        simp
      exact ⟨rfl, sameBudgets.symm ▸ reinforced⟩
  | cons item rest inductionHypothesis =>
      rw [List.forall_mem_cons] at reinforce
      obtain ⟨stays, once⟩ := reinforced.put sound reinforce.1
      obtain ⟨stay, all⟩ := inductionHypothesis once (sound.put item) reinforce.2
      have members : {other | other ∈ item :: rest} = insert item {other | other ∈ rest} := by
        ext other
        simp
      rw [Set.insert_union, ← Set.union_insert, ← Set.image_insert_eq, ← members] at all
      refine ⟨?_, all⟩
      rw [Bag.putAll, stays, stay]
      rfl

/-! ## The order does not count -/

instance : Std.Irrefl (fun left right : Rank => ranksBefore left right = true) where
  irrefl := by
    intro rank before
    rw [ranksBefore_iff] at before
    omega

instance : Std.Antisymm (fun left right : Rank => ranksBefore left right = true) where
  antisymm := by
    intro left right before behind
    rw [ranksBefore_iff] at before behind
    omega

/-- What is ranked under a key is the rank of its slot. -/
theorem Consistent.mem_ranking_iff (consistent : bag.Consistent) (rank : Rank) :
    rank ∈ bag.ranking ↔ (bag.slot? rank.key).map (rankOf rank.key) = some rank := by
  rw [consistent.mem_ranking, Option.map_eq_some_iff]
  simp only [eq_comm]

/-- Rankings of the same ranks are equal. -/
theorem Consistent.ranking_eq (consistent : after.Consistent)
    (otherConsistent : otherAfter.Consistent)
    (same : ∀ key, (after.slot? key).map (rankOf key) = (otherAfter.slot? key).map (rankOf key)) :
    after.ranking = otherAfter.ranking := by
  refine consistent.ranking_sorted.eq_of_mem_iff otherConsistent.ranking_sorted ?_
  intro rank
  rw [consistent.mem_ranking_iff, otherConsistent.mem_ranking_iff, same]

/-- Two bags that do not differ in what counts for a resident: its slot has the same values, the
same level and the same serial number, and the keys are listed in the same order. -/
structure AlikeAt (key : String) (bag other : Bag α) : Prop where
  resides : ∃ slot otherSlot, bag.slot? key = some slot ∧ other.slot? key = some otherSlot ∧
    (Item.budget slot.item).SameValues (Item.budget otherSlot.item) ∧
      slot.level = otherSlot.level ∧ slot.serial = otherSlot.serial
  keys_eq : bag.keys = other.keys

/-- The same greatest values give the same level and the same rank. -/
theorem Reinforced.alikeAt (reinforced : Reinforced bag key resident budgets after)
    (otherReinforced : Reinforced bag key resident budgets otherAfter)
    (consistent : after.Consistent) (otherConsistent : otherAfter.Consistent) :
    AlikeAt key after otherAfter := by
  obtain ⟨slot, resides, strengthened⟩ := reinforced.resides
  obtain ⟨otherSlot, otherResides, otherStrengthened⟩ := otherReinforced.resides
  have sameValues := strengthened.greatest.sameValues otherStrengthened.greatest
    strengthened.inRange otherStrengthened.inRange
  have sameSerial := strengthened.serial.trans otherStrengthened.serial.symm
  have sameRank : rankOf key slot = rankOf key otherSlot := by
    rw [rankOf, rankOf, sameSerial, Item.priority, Item.priority,
      weightOf_eq_of_same sameValues.priority]
  constructor
  case resides =>
    refine ⟨slot, otherSlot, resides, otherResides, sameValues, ?_, sameSerial⟩
    rw [consistent.level_eq key slot resides, otherConsistent.level_eq key otherSlot otherResides,
      reinforced.levels_length, otherReinforced.levels_length]
    exact levelOf_eq_of_same _ sameValues.priority
  case keys_eq =>
    rw [keys, keys, consistent.ranking_eq otherConsistent]
    intro name
    by_cases same : name = key
    · rw [same, resides, otherResides, Option.map_some, Option.map_some, sameRank]
    · have spared : name ∉ ({key} : Finset String) := by simpa using same
      rw [reinforced.spares.slot?_eq name spared, otherReinforced.spares.slot?_eq name spared]

/-- Whatever a bag was made for, whatever was done to it and whatever was drawn, items in range that
come under the key of a resident in range, to be taken in by it, reinforce this resident: nobody
leaves, the others are as they were, and the resident has its serial number and the greatest
priority, durability and quality among its own and those of the items. In another order, and with
repetitions, the items lead to the same values, to the same level and to the same list of keys. -/
theorem run_reinforced [LawfulItem α] [KeepsBudget α] (config : BagConfig) (draws : Draws)
    (operations : List (Operation α))
    (resides : ((Bag.empty config draws).run operations).slot? key = some resident)
    (inRange : (Item.budget resident.item).InRange)
    (reinforce : ∀ item ∈ items, Reinforces key item) :
    let bag := (Bag.empty config draws).run operations
    (bag.putAll items).1 = [] ∧
      Reinforced bag key resident
        ({Item.budget resident.item} ∪ Item.budget '' {item | item ∈ items})
        (bag.putAll items).2 ∧
      ∀ others : List α, (∀ item, item ∈ others ↔ item ∈ items) →
        AlikeAt key (bag.putAll items).2 (bag.putAll others).2 := by
  intro bag
  have sound : bag.Sound config.capacity := (empty_sound config draws).run operations
  have start := reinforced_self resides inRange
  obtain ⟨stay, reinforced⟩ := start.putAll sound reinforce
  refine ⟨stay, reinforced, fun others sameItems => ?_⟩
  have othersReinforced := (start.putAll sound
    fun item member => reinforce item ((sameItems item).mp member)).2
  have sameMembers : {item | item ∈ others} = {item | item ∈ items} := Set.ext sameItems
  rw [sameMembers] at othersReinforced
  exact reinforced.alikeAt othersReinforced (sound.putAll items).consistent
    (sound.putAll others).consistent

/-- Two tasks whose priorities are the two zeros. In one order the resident is left with the negative
zero, and in the other order, one of them twice, with the positive one. All else is the same. -/
theorem zeros_run_reinforced :
    let judgment := fun (name : String) (priority durability quality : Float32) =>
      (⟨⟨Term.atom 0 name, .judgment, .input 1 0⟩, .corrected priority durability quality,
        .derived⟩ : Task)
    let bag := (Bag.empty { capacity := 3, forgetCycles := 0 } (fun _ => 0)).run
      [.put (judgment "b" Single.zero Single.one Single.one),
        .put (judgment "a" Single.zero Single.zero (Single.hundredths 20))]
    let positive := judgment "a" Single.zero (Single.hundredths 90) Single.zero
    let negative := judgment "a" (Float32.ofBits 0x80000000) Single.zero (Single.hundredths 80)
    let forth := bag.putAll [positive, negative]
    let back := bag.putAll [negative, positive, positive]
    (forth.1 = [] ∧ AlikeAt "a." forth.2 back.2) ∧
      forth.2.keys = ["a.", "b."] ∧
      (forth.2.find? "a.").map (fun task => task.budget.priority.toBits) = some 0x80000000 ∧
      (back.2.find? "a.").map (fun task => task.budget.priority.toBits) = some 0 := by
  intro judgment bag positive negative forth back
  have reinforces : ∀ priority durability quality,
      Reinforces "a." (judgment "a" priority durability quality) :=
    fun _ _ _ => ⟨rfl, rfl, Budget.corrected_inRange _ _ _⟩
  have occupied : (bag.slot? "a.").isSome = true := by decide +kernel
  have inRange : ∀ occupied : (bag.slot? "a.").isSome = true,
      (Item.budget ((bag.slot? "a.").get occupied).item).InRange := by decide +kernel
  have law := @run_reinforced Task Empty _ "a." ((bag.slot? "a.").get occupied) [positive, negative]
    _ _ { capacity := 3, forgetCycles := 0 } (fun _ => 0) _ (Option.some_get occupied).symm
    (inRange occupied) (by simp [positive, negative, reinforces])
  refine ⟨⟨law.1, law.2.2 [negative, positive, positive] ?_⟩, by decide +kernel, by decide +kernel,
    by decide +kernel⟩
  intro item
  simp [or_comm]

end Bag

end AttentiveReasoner.Attention
