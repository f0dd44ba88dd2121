import AttentiveReasoner.Proofs.Attention.Bag.Admission
import AttentiveReasoner.Proofs.Numeric.Extended

/-!
Contract: the keys of a bag are listed by priority, and the last one listed is the first to leave.

Owns:
- the standing of a priority: its value, a negative one counting as zero;
- that weights are in the order of the standings;
- the list of the keys: everybody once, from the strongest to the weakest, and of equally strong
  residents the youngest first;
- who leaves a full bag: the last one listed, or a newcomer who is weaker than everybody.

Does not own: what else happens when an item is put in.

The order is that of numbers, of which weights are encodings. What is not a number has a weight as
well, greater than all others. So a newcomer without a priority is not weak, and the last one
listed leaves for it too; but residents are listed by their standings only if all have one.
-/

namespace AttentiveReasoner.Attention.Bag

open AttentiveReasoner.Chance
open AttentiveReasoner.Evidence
open AttentiveReasoner.Language
open AttentiveReasoner.Numeric

/-! ## Standings -/

section Standings

variable {left right : Float32}

/-- How a priority counts: its value, but zero for a negative one. -/
def standing (priority : Float32) : ExtendedRational :=
  max (Single.extended priority) 0

theorem extended_counted (isNumber : Single.isNaN left = false) :
    Single.extended (counted left) = standing left := by
  rw [counted, Single.extended_larger isNumber Single.isNaN_zero, Single.extended_zero, standing]

/-- Weights are in the order of the standings, with infinities, subnormal numbers and both
zeros. -/
theorem weightOf_le_iff_standing (leftNumber : Single.isNaN left = false)
    (rightNumber : Single.isNaN right = false) :
    weightOf left ≤ weightOf right ↔ standing left ≤ standing right := by
  rw [weightOf_le_iff leftNumber rightNumber,
    Single.atMost_iff_extended (isNaN_counted leftNumber) (isNaN_counted rightNumber),
    extended_counted leftNumber, extended_counted rightNumber]

theorem weightOf_lt_iff_standing (leftNumber : Single.isNaN left = false)
    (rightNumber : Single.isNaN right = false) :
    weightOf left < weightOf right ↔ standing left < standing right := by
  rw [← Nat.not_le, weightOf_le_iff_standing rightNumber leftNumber, not_le]

theorem weightOf_eq_iff_standing (leftNumber : Single.isNaN left = false)
    (rightNumber : Single.isNaN right = false) :
    weightOf left = weightOf right ↔ standing left = standing right := by
  rw [Nat.le_antisymm_iff, weightOf_le_iff_standing leftNumber rightNumber,
    weightOf_le_iff_standing rightNumber leftNumber, le_antisymm_iff]

/-- The weight of no number is greater than those of all numbers. -/
theorem weightOf_lt_of_isNaN (leftNumber : Single.isNaN left = false)
    (rightNothing : Single.isNaN right = true) : weightOf left < weightOf right := by
  have most := (Single.signedMagnitude_bounds leftNumber).2
  have weight := weightOf_eq leftNumber
  have beyond : BinaryFormat.single.infinity < Single.magnitude right :=
    of_decide_eq_true rightNothing
  have within : Single.magnitude right ≤ right.toBits.toNat := Nat.mod_le _ _
  have isEncoding : weightOf right = right.toBits.toNat := by
    unfold weightOf
    rw [if_neg]
    simp [Single.atMost, rightNothing]
  omega

end Standings

variable {α ν : Type} [Item α ν] {bag : Bag α} {key : String} {slot : Slot α} {item : α}
  {capacity : Nat}

/-! ## The list of the keys -/

theorem Consistent.mem_keys_iff (consistent : bag.Consistent) :
    key ∈ bag.keys ↔ ∃ slot, bag.slot? key = some slot := by
  rw [keys, List.mem_reverse, List.mem_map]
  constructor
  · rintro ⟨rank, ranked, rfl⟩
    obtain ⟨slot, resides, _⟩ := (consistent.mem_ranking rank).mp ranked
    exact ⟨slot, resides⟩
  · rintro ⟨slot, resides⟩
    exact ⟨rankOf key slot, consistent.rank_mem resides, rfl⟩

/-- Of two keys the one that is listed first ranks behind the other. -/
theorem Consistent.keys_pairwise (consistent : bag.Consistent) :
    bag.keys.Pairwise fun first later => ∀ slot laterSlot,
      bag.slot? first = some slot → bag.slot? later = some laterSlot →
        ranksBefore (rankOf later laterSlot) (rankOf first slot) = true := by
  rw [keys, List.pairwise_reverse, List.pairwise_map]
  apply consistent.ranking_sorted.imp_of_mem
  intro later first laterRanked firstRanked before slot laterSlot resides laterResides
  obtain ⟨ownSlot, ownResides, isFirst⟩ := (consistent.mem_ranking first).mp firstRanked
  obtain ⟨otherSlot, otherResides, isLater⟩ := (consistent.mem_ranking later).mp laterRanked
  obtain rfl := Option.some.inj (ownResides.symm.trans resides)
  obtain rfl := Option.some.inj (otherResides.symm.trans laterResides)
  rwa [isFirst, isLater] at before

theorem Consistent.nodup_keys (consistent : bag.Consistent) : bag.keys.Nodup := by
  apply consistent.keys_pairwise.imp_of_mem
  intro first later member _ before same
  obtain ⟨slot, resides⟩ := consistent.mem_keys_iff.mp member
  have itself := (ranksBefore_iff _ _).mp (before slot slot resides (same ▸ resides))
  rw [same] at itself
  omega

/-- The last one listed is whoever ranks before all others. -/
theorem Consistent.getLast?_keys (consistent : bag.Consistent)
    (resides : bag.slot? key = some slot)
    (least : ∀ other otherSlot, bag.slot? other = some otherSlot → other ≠ key →
      ranksBefore (rankOf key slot) (rankOf other otherSlot) = true) :
    bag.keys.getLast? = some key := by
  have ranked := consistent.rank_mem resides
  have sorted := consistent.ranking_sorted
  rw [keys, List.getLast?_reverse, List.head?_map]
  rcases isRanking : bag.ranking with _ | ⟨first, rest⟩
  · rw [isRanking] at ranked
    contradiction
  · rw [isRanking] at ranked sorted
    rcases List.mem_cons.mp ranked with isFirst | behind
    · rw [← isFirst]
      rfl
    · -- Somebody else would rank before the one who ranks before all others.
      obtain ⟨firstSlot, firstResides, isFirst⟩ :=
        (consistent.mem_ranking first).mp (by rw [isRanking]; exact List.mem_cons_self)
      have before := (List.pairwise_cons.mp sorted).1 _ behind
      by_contra different
      have firstKey : first.key ≠ key := fun same => different (congrArg some same)
      have after := least first.key firstSlot firstResides firstKey
      rw [isFirst, ranksBefore_iff] at before
      rw [ranksBefore_iff] at after
      omega

/-! ## Who leaves -/

/-- A newcomer is weaker than a resident: it has a priority, and one of a lower standing. -/
def Weaker (newcomer resident : α) : Prop :=
  Single.isNaN (Item.priority newcomer) = false ∧
    standing (Item.priority newcomer) < standing (Item.priority resident)

/-- The weight of a weaker newcomer is less. -/
theorem weaker_iff {newcomer resident : α}
    (isNumber : Single.isNaN (Item.priority resident) = false) :
    Weaker newcomer resident ↔
      weightOf (Item.priority newcomer) < weightOf (Item.priority resident) := by
  unfold Weaker
  cases newcomerNumber : Single.isNaN (Item.priority newcomer) with
  | false => rw [weightOf_lt_iff_standing newcomerNumber isNumber]; simp
  | true =>
      have greater := weightOf_lt_of_isNaN isNumber newcomerNumber
      exact iff_of_false nofun (by omega)

/-- Whoever leaves a full bag is the newcomer or a resident, and ranks before everybody else. -/
theorem Sound.put_full_cases [LawfulItem α] (sound : bag.Sound capacity)
    (free : bag.slot? (Item.key item) = none) (full : bag.capacity ≤ bag.size) :
    ((bag.put item).departed = some (bag.placed item) ∧
        ∀ other otherSlot, bag.slot? other = some otherSlot →
          weightOf (Item.priority item) < weightOf (Item.priority otherSlot.item)) ∨
      ∃ key slot, bag.slot? key = some slot ∧ (bag.put item).departed = some slot.item ∧
        bag.keys.getLast? = some key ∧
          weightOf (Item.priority slot.item) ≤ weightOf (Item.priority item) := by
  have samePriority : Item.priority (bag.placedSlot item (bag.lastSerial + 1)).item =
      Item.priority item := priority_placed bag item
  have different : ∀ other otherSlot, bag.slot? other = some otherSlot →
      other ≠ Item.key item := by
    rintro other otherSlot resides rfl
    rw [free] at resides
    contradiction
  obtain ⟨key, slot, departed, _, weakest, _⟩ := (sound.put_evicting_puts free full).evicts free full
  rcases weakest.contends with resides | ⟨rfl, rfl⟩
  · have least : ∀ other otherSlot, bag.slot? other = some otherSlot → other ≠ key →
        ranksBefore (rankOf key slot) (rankOf other otherSlot) = true :=
      fun other otherSlot otherResides apart =>
        (ranksBefore_iff _ _).mpr (weakest.least other otherSlot (.inl otherResides) apart)
    have newcomer := weakest.least _ _ (.inr ⟨rfl, rfl⟩) (different key slot resides).symm
    rw [samePriority] at newcomer
    exact .inr ⟨key, slot, resides, departed, sound.consistent.getLast?_keys resides least,
      by omega⟩
  · refine .inl ⟨departed, ?_⟩
    intro other otherSlot resides
    have below := weakest.least other otherSlot (.inl resides) (different other otherSlot resides)
    have given := sound.consistent.serial_le other otherSlot resides
    have newest : (bag.placedSlot item (bag.lastSerial + 1)).serial = bag.lastSerial + 1 := rfl
    rw [samePriority] at below
    omega

/-- The keys are listed by priority. Everybody is listed once, the stronger before the weaker, and
of equally strong residents the one with the greater serial number first. When an item under a new
key is put into a full bag with residents, the last one listed leaves; but the newcomer does if it
is weaker than everybody. -/
structure ListsByPriority (bag : Bag α) : Prop where
  nodup : bag.keys.Nodup
  mem_iff : ∀ key, key ∈ bag.keys ↔ ∃ slot, bag.slot? key = some slot
  descending : bag.keys.Pairwise fun first later => ∀ slot laterSlot,
    bag.slot? first = some slot → bag.slot? later = some laterSlot →
      standing (Item.priority laterSlot.item) ≤ standing (Item.priority slot.item) ∧
        (standing (Item.priority laterSlot.item) = standing (Item.priority slot.item) →
          laterSlot.serial < slot.serial)
  evictsLast : ∀ item, bag.slot? (Item.key item) = none → bag.capacity ≤ bag.size →
    (∃ resident ∈ bag.items, ¬Weaker item resident) →
      ∃ last resident, bag.keys.getLast? = some last ∧ bag.find? last = some resident ∧
        (bag.put item).departed = some resident
  rejects : ∀ item, bag.slot? (Item.key item) = none → bag.capacity ≤ bag.size →
    (∀ resident ∈ bag.items, Weaker item resident) →
      (bag.put item).departed = some (bag.placed item)

theorem Sound.listsByPriority [LawfulItem α] (sound : bag.Sound capacity)
    (numbers : ∀ item ∈ bag.items, Single.isNaN (Item.priority item) = false) :
    bag.ListsByPriority := by
  have consistent := sound.consistent
  have isNumber : ∀ key slot, bag.slot? key = some slot →
      Single.isNaN (Item.priority slot.item) = false :=
    fun key slot resides => numbers _ (consistent.mem_items_of_slot? resides).1
  constructor
  case nodup => exact consistent.nodup_keys
  case mem_iff => exact fun _ => consistent.mem_keys_iff
  case descending =>
    apply consistent.keys_pairwise.imp
    intro first later before slot laterSlot resides laterResides
    have firstNumber := isNumber first slot resides
    have laterNumber := isNumber later laterSlot laterResides
    rw [← weightOf_le_iff_standing laterNumber firstNumber,
      ← weightOf_eq_iff_standing laterNumber firstNumber]
    rcases (ranksBefore_iff _ _).mp (before slot laterSlot resides laterResides) with
      less | ⟨same, older⟩
    · exact ⟨Nat.le_of_lt less, fun same => absurd same (Nat.ne_of_lt less)⟩
    · exact ⟨Nat.le_of_eq same, fun _ => older⟩
  case evictsLast =>
    rintro item free full ⟨resident, member, notWeaker⟩
    rw [weaker_iff (numbers resident member)] at notWeaker
    rcases sound.put_full_cases free full with ⟨_, weakest⟩ | ⟨key, slot, resides, departed, last, _⟩
    · obtain ⟨slot, resides, rfl⟩ := consistent.mem_items_iff.mp member
      exact absurd (weakest _ slot resides) notWeaker
    · exact ⟨key, slot.item, last, by rw [find?, resides, Option.map_some], departed⟩
  case rejects =>
    intro item free full weaker
    rcases sound.put_full_cases free full with ⟨departed, _⟩ | ⟨key, slot, resides, _, _, atMost⟩
    · exact departed
    · have below := (weaker_iff (isNumber key slot resides)).mp
        (weaker slot.item (consistent.mem_items_of_slot? resides).1)
      omega

/-- Weights are in the order of the standings; hence, whatever a bag was made for, whatever is done
to it and whatever is drawn, its keys are listed by priority if all priorities are numbers. -/
theorem run_listsByPriority [LawfulItem α] :
    (∀ left right : Float32, Single.isNaN left = false → Single.isNaN right = false →
      (weightOf left ≤ weightOf right ↔
        max (Single.extended left) 0 ≤ max (Single.extended right) 0)) ∧
      ∀ (config : BagConfig) (draws : Draws) (operations : List (Operation α)),
        (∀ item ∈ ((Bag.empty config draws).run operations).items,
          Single.isNaN (Item.priority item) = false) →
            ((Bag.empty config draws).run operations).ListsByPriority :=
  ⟨fun _ _ => weightOf_le_iff_standing,
    fun config draws operations => ((empty_sound config draws).run operations).listsByPriority⟩

/-- A negative priority and the negative zero count for the same, and the least positive number for
more. So the eldest of the two weak tasks is listed last, and leaves for a third one. -/
theorem signed_listsByPriority :
    let negativeZero := Float32.ofBits 0x80000000
    let leastPositive := Float32.ofBits 1
    let judgment := fun (name : String) (priority : Float32) =>
      (⟨⟨Term.atom 0 name, .judgment, .input 1 0⟩, ⟨priority, Single.one, Single.zero, 0⟩,
        .derived⟩ : Task)
    let bag := (Bag.empty { capacity := 3, forgetCycles := 0 } (fun _ => 0)).run
      [.put (judgment "a" (Float32.ofBits 0xBF800000)), .put (judgment "b" negativeZero),
        .put (judgment "c" leastPositive)]
    (weightOf negativeZero ≤ weightOf leastPositive ↔
        max (Single.extended negativeZero) 0 ≤ max (Single.extended leastPositive) 0) ∧
      bag.ListsByPriority ∧ bag.keys = ["c.", "b.", "a."] ∧
        (bag.put (judgment "d" Single.zero)).departed.map Item.key = some "a." := by
  intro negativeZero leastPositive judgment bag
  have law := @run_listsByPriority Task Empty _ _
  exact ⟨law.1 negativeZero leastPositive (by decide) (by decide),
    law.2 { capacity := 3, forgetCycles := 0 } _ _ (by decide +kernel), by decide +kernel⟩

end AttentiveReasoner.Attention.Bag
