import AttentiveReasoner.Proofs.Attention.Bag.Rotation
import Mathlib.Data.List.Dedup

/-!
Contract: the two ages of a resident, and which of them decides when it is served.

Owns:
- the placements of a run, and the keys in the order of their last ones;
- that the queues are in the order of the last placements;
- that the serial numbers are in the order in which the stays began;
- who is served, and what must have happened to an older resident that is passed over.

Does not own: which level is chosen.

A stay begins when an item is placed under a free key or replaces the resident. It goes on when the
resident is changed in place or absorbs another item. Then it keeps its serial number and joins the
end of its queue all the same, whatever the change was. So the two orders agree on two residents of
a level exactly as long as this has not happened to the older one since the younger one came.
-/

namespace AttentiveReasoner.Attention.Bag

open AttentiveReasoner.Chance
open AttentiveReasoner.Evidence
open AttentiveReasoner.Language
open AttentiveReasoner.Numeric

variable {α ν : Type} [Item α ν] {bag after : Bag α} {key other : String} {slot otherSlot : Slot α}
  {item : α} {capacity serial level : Nat}

/-! ## The record of a run -/

/-- A placement: under which key it was, and whether a stay began with it. -/
structure Posting where
  key : String
  begins : Bool
deriving DecidableEq

/-- Whether a stay begins when an item is put in: nobody is there to absorb it. -/
def beginsStay (bag : Bag α) (item : α) : Bool :=
  match bag.find? (Item.key item) with
  | none => true
  | some _ =>
      match Item.policy item with
      | .replace => true
      | .merge => false

/-- The placement that an operation makes, if it makes one. -/
def posting (bag : Bag α) : Operation α → Option Posting
  | .put item => some ⟨Item.key item, bag.beginsStay item⟩
  | .putBack item =>
      if Single.less (Item.priority (bag.forget item)) bag.floor then none
      else some ⟨Item.key item, bag.beginsStay (bag.forget item)⟩
  | .edit key _ _ => (bag.find? key).map fun _ => ⟨key, false⟩
  | .takeOut | .pick _ | .drain | .setForgetCycles _ | .resetForgetCycles => none

/-- The placements that operations make, one after the other. -/
def record (bag : Bag α) : List (Operation α) → List Posting
  | [] => []
  | operation :: rest => (bag.posting operation).toList ++ (bag.perform operation).record rest

/-- The keys in the order of their last placements. -/
def lastPlaced (history : List Posting) : List String :=
  (history.map Posting.key).dedup

/-- The keys in the order in which their last stays began. -/
def lastBegun (history : List Posting) : List String :=
  ((history.filter Posting.begins).map Posting.key).dedup

variable {history earlier later : List Posting} {keys : List String}

/-- Who occurs once more occurs last. -/
theorem dedup_concat (keys : List String) (key : String) :
    (keys ++ [key]).dedup = keys.dedup.filter (· ≠ key) ++ [key] := by
  induction keys with
  | nil => rfl
  | cons first rest inductionHypothesis =>
      rw [List.cons_append, List.dedup_cons, List.dedup_cons, inductionHypothesis]
      by_cases same : first = key
      · subst same
        rw [if_pos (by simp)]
        split
        · rfl
        · rw [List.filter_cons_of_neg (by simp)]
      · by_cases again : first ∈ rest
        · rw [if_pos (by simp [again]), if_pos again]
        · rw [if_neg (by simp [again, same]), if_neg again,
            List.filter_cons_of_pos (by simp [same]), List.cons_append]

/-- Of two keys the one that occurs last of all is behind the other. -/
theorem dedup_append_split {first second : String} (earlier later : List String)
    (isEarlier : first ∈ earlier) (notLater : first ∉ later) (isLater : second ∈ later) :
    ∃ front back, (earlier ++ later).dedup = front ++ back ∧ first ∈ front ∧ second ∈ back := by
  obtain ⟨front, _, split⟩ := List.sublist_suffix_of_union earlier later.dedup
  refine ⟨front, later.dedup, by rw [List.dedup_append, split], ?_, List.mem_dedup.mpr isLater⟩
  have occurs : first ∈ front ++ later.dedup := by
    rw [split, ← List.dedup_append, List.mem_dedup]
    exact List.mem_append_left _ isEarlier
  exact (List.mem_append.mp occurs).resolve_right fun last => notLater (List.mem_dedup.mp last)

theorem lastPlaced_concat (history : List Posting) (posting : Posting) :
    lastPlaced (history ++ [posting]) =
      (lastPlaced history).filter (· ≠ posting.key) ++ [posting.key] := by
  unfold lastPlaced
  rw [List.map_append]
  exact dedup_concat _ _

theorem lastBegun_begins (history : List Posting) (key : String) :
    lastBegun (history ++ [⟨key, true⟩]) = (lastBegun history).filter (· ≠ key) ++ [key] := by
  unfold lastBegun
  rw [List.filter_append, List.map_append]
  exact dedup_concat _ _

theorem lastBegun_continues (history : List Posting) (key : String) :
    lastBegun (history ++ [⟨key, false⟩]) = lastBegun history := by
  simp only [lastBegun, List.filter_append, List.filter_singleton, cond_false, List.append_nil]

theorem mem_begun :
    key ∈ (history.filter Posting.begins).map Posting.key ↔ ⟨key, true⟩ ∈ history := by
  rw [List.mem_map]
  constructor
  · rintro ⟨⟨own, begins⟩, member, rfl⟩
    obtain ⟨isPosting, rfl⟩ := List.mem_filter.mp member
    exact isPosting
  · intro member
    exact ⟨⟨key, true⟩, List.mem_filter.mpr ⟨member, rfl⟩, rfl⟩

/-! ## Levels of the residents -/

theorem level?_remove (bag : Bag α) (key other : String) :
    (bag.remove key).2.level? other = if other = key then none else bag.level? other := by
  rw [level?, slot?_remove]
  split
  · rfl
  · rfl

/-- A key leaves the queue in which it is, if it is in one. -/
theorem Consistent.queueAt_remove (consistent : bag.Consistent) (key : String) (level : Nat) :
    (bag.remove key).2.queueAt level = (bag.queueAt level).filter (· ≠ key) := by
  have elsewhere : bag.level? key ≠ some level →
      (bag.queueAt level).filter (· ≠ key) = bag.queueAt level := by
    intro absent
    apply List.filter_eq_self.mpr
    intro name member
    have different : name ≠ key := by
      rintro rfl
      exact absent (consistent.mem_queueAt_iff.mp member)
    simpa using different
  cases resides : bag.slot? key with
  | none =>
      have absent : bag.level? key ≠ some level := by simp [level?, resides]
      rw [remove_of_free resides, elsewhere absent]
  | some slot =>
      rw [Bag.queueAt_remove resides]
      split
      · rw [(consistent.queue_nodup level).erase_eq_filter]
        apply List.filter_congr
        intro other _
        by_cases same : other = key <;> simp [same]
      · rename_i notHere
        have absent : bag.level? key ≠ some level := by simpa [level?, resides] using notHere
        rw [elsewhere absent]

/-! ## The order of the queues -/

/-- Every queue lists its keys in the order in which they are listed. -/
def QueuesBy (keys : List String) (bag : Bag α) : Prop :=
  ∀ level, bag.queueAt level = bag.atLevel level keys

theorem QueuesBy.remove (queues : QueuesBy keys bag) (consistent : bag.Consistent)
    (key : String) : QueuesBy keys (bag.remove key).2 := by
  intro level
  rw [consistent.queueAt_remove, queues]
  unfold atLevel
  rw [List.filter_filter]
  apply List.filter_congr
  intro other _
  rw [level?_remove]
  by_cases same : other = key <;> simp [same]

/-- Who is placed under a free key is behind everybody. -/
theorem QueuesBy.place (queues : QueuesBy keys bag) (positive : 0 < bag.levels.length)
    (free : bag.slot? key = none) :
    QueuesBy (keys.filter (· ≠ key) ++ [key]) (bag.place key item serial) := by
  intro level
  have others : bag.atLevel level keys =
      (bag.place key item serial).atLevel level (keys.filter (· ≠ key)) := by
    unfold atLevel
    rw [List.filter_filter]
    apply List.filter_congr
    intro other _
    rw [level?, level?, slot?_place free]
    by_cases same : other = key
    · simp [same, free]
    · simp [same]
  have newcomer : (bag.place key item serial).atLevel level [key] =
      if (bag.placedSlot item serial).level = level then [key] else [] := by
    simp [atLevel, level?, slot?_place free, List.filter_cons]
  rw [queueAt_place level positive, queues, others]
  unfold atLevel at newcomer ⊢
  rw [List.filter_append, newcomer]
  split
  · rfl
  · rw [List.append_nil]

/-! ## The order of the serial numbers -/

/-- Every resident is listed, and the listed residents have ascending serial numbers. -/
structure AgesBy (keys : List String) (bag : Bag α) : Prop where
  listed : ∀ key slot, bag.slot? key = some slot → key ∈ keys
  serial_lt : keys.Pairwise fun first second => ∀ slot otherSlot,
    bag.slot? first = some slot → bag.slot? second = some otherSlot →
      slot.serial < otherSlot.serial

/-- Nobody else comes, and those who stay keep their serial numbers. -/
theorem AgesBy.of_slots (ages : AgesBy keys bag)
    (slots : ∀ key slot, after.slot? key = some slot →
      ∃ before, bag.slot? key = some before ∧ before.serial = slot.serial) :
    AgesBy keys after where
  listed := by
    intro key slot resides
    obtain ⟨before, resided, _⟩ := slots key slot resides
    exact ages.listed key before resided
  serial_lt := by
    apply ages.serial_lt.imp
    intro first second ascending slot otherSlot resides otherResides
    obtain ⟨before, resided, same⟩ := slots first slot resides
    obtain ⟨otherBefore, otherResided, otherSame⟩ := slots second otherSlot otherResides
    rw [← same, ← otherSame]
    exact ascending before otherBefore resided otherResided

theorem AgesBy.remove (ages : AgesBy keys bag) (key : String) :
    AgesBy keys (bag.remove key).2 := by
  apply ages.of_slots
  intro other slot resides
  rw [slot?_remove] at resides
  split at resides
  · contradiction
  · exact ⟨slot, resides, rfl⟩

/-- A new serial number is greater than all that were given before. -/
theorem AgesBy.placeNew (ages : AgesBy keys bag) (consistent : bag.Consistent)
    (free : bag.slot? key = none) :
    AgesBy (keys.filter (· ≠ key) ++ [key]) (bag.placeNew key item) where
  listed := by
    intro other slot resides
    rw [slot?_placeNew free] at resides
    by_cases same : other = key
    · simp [same]
    · rw [if_neg same] at resides
      simp [same, ages.listed other slot resides]
  serial_lt := by
    apply List.pairwise_append.mpr
    refine ⟨?_, List.pairwise_singleton _ _, ?_⟩
    · apply (ages.serial_lt.filter _).imp_of_mem
      intro first second isOther otherIsOther ascending slot otherSlot resides otherResides
      have different : first ≠ key := by simpa using (List.mem_filter.mp isOther).2
      have otherDifferent : second ≠ key := by simpa using (List.mem_filter.mp otherIsOther).2
      rw [slot?_placeNew free, if_neg different] at resides
      rw [slot?_placeNew free, if_neg otherDifferent] at otherResides
      exact ascending slot otherSlot resides otherResides
    · intro first isOther newcomer isNewcomer slot otherSlot resides otherResides
      have different : first ≠ key := by simpa using (List.mem_filter.mp isOther).2
      rw [List.mem_singleton.mp isNewcomer, slot?_placeNew free, if_pos rfl] at otherResides
      rw [slot?_placeNew free, if_neg different] at resides
      rw [← Option.some.inj otherResides]
      exact Nat.lt_succ_of_le (consistent.serial_le first slot resides)

/-! ## Both orders -/

/-- The queues are in the order of the last placements, and the serial numbers are in the order in
which the stays began. -/
structure Reflects (history : List Posting) (bag : Bag α) : Prop where
  queues : QueuesBy (lastPlaced history) bag
  ages : AgesBy (lastBegun history) bag

theorem Reflects.of_same (reflects : Reflects history bag) (slots : after.slots = bag.slots)
    (levels : after.levels = bag.levels) : Reflects history after := by
  have sameSlots : after.slot? = bag.slot? := by
    funext key
    simp only [slot?, slots]
  have sameLevels : after.level? = bag.level? := by
    funext key
    simp only [level?, sameSlots]
  have sameQueues : after.queueAt = bag.queueAt := by
    funext level
    simp only [queueAt, levels]
  constructor
  case queues =>
    intro level
    rw [sameQueues, reflects.queues]
    simp only [atLevel, sameLevels]
  case ages =>
    apply reflects.ages.of_slots
    intro key slot resides
    exact ⟨slot, by rw [← sameSlots, resides], rfl⟩

theorem Reflects.remove (reflects : Reflects history bag) (consistent : bag.Consistent)
    (key : String) : Reflects history (bag.remove key).2 :=
  ⟨reflects.queues.remove consistent key, reflects.ages.remove key⟩

/-- A stay begins. -/
theorem Reflects.placeNew (reflects : Reflects history bag) (consistent : bag.Consistent)
    (free : bag.slot? key = none) :
    Reflects (history ++ [⟨key, true⟩]) (bag.placeNew key item) where
  queues := by
    have next : QueuesBy (lastPlaced history) bag.nextSerial := reflects.queues
    have freeNext : bag.nextSerial.slot? key = none := free
    rw [lastPlaced_concat]
    exact next.place consistent.levels_pos freeNext
  ages := by
    rw [lastBegun_begins]
    exact reflects.ages.placeNew consistent free

/-- A stay goes on, and the resident queues once more. -/
theorem Reflects.replace (reflects : Reflects history bag) (consistent : bag.Consistent)
    (resides : bag.slot? key = some slot) :
    Reflects (history ++ [⟨key, false⟩]) ((bag.remove key).2.place key item slot.serial) where
  queues := by
    have free : (bag.remove key).2.slot? key = none := by rw [slot?_remove, if_pos rfl]
    have removed := reflects.queues.remove consistent key
    rw [lastPlaced_concat]
    exact removed.place (consistent.remove key).levels_pos free
  ages := by
    rw [lastBegun_continues]
    apply reflects.ages.of_slots
    intro other otherSlot left
    rw [slot?_replace] at left
    split at left
    · rename_i same
      exact ⟨slot, by rw [same, resides], by rw [← Option.some.inj left]; rfl⟩
    · exact ⟨otherSlot, left, rfl⟩

theorem Reflects.removeWeakest (reflects : Reflects history bag) (consistent : bag.Consistent) :
    Reflects history bag.removeWeakest.2 := by
  unfold Bag.removeWeakest
  split
  · exact reflects
  · exact reflects.remove consistent _

/-! ## One operation -/

theorem Reflects.put [LawfulItem α] (reflects : Reflects history bag) (consistent : bag.Consistent)
    (item : α) :
    Reflects (history ++ [⟨Item.key item, bag.beginsStay item⟩]) (bag.put item).bag := by
  unfold beginsStay
  cases found : bag.find? (Item.key item) with
  | none =>
      have free := find?_eq_none_iff.mp found
      have placed : Reflects (history ++ [⟨Item.key item, true⟩])
          (bag.placeNew (Item.key item) item) := reflects.placeNew consistent free
      by_cases room : bag.size < bag.capacity
      · rw [put_of_free found room]
        exact placed
      · rw [put_of_full free (Nat.not_lt.mp room)]
        exact placed.removeWeakest (consistent.placeNew free rfl)
  | some resident =>
      obtain ⟨slot, resides, _⟩ := slot?_eq_some_of_find? found
      cases policy : Item.policy item with
      | replace =>
          have free : (bag.remove (Item.key item)).2.slot? (Item.key item) = none := by
            rw [slot?_remove, if_pos rfl]
          have removed := reflects.remove consistent (Item.key item)
          rw [put_replacing resides policy]
          exact removed.placeNew (consistent.remove _) free
      | merge =>
          rw [put_merging resides policy]
          exact reflects.replace consistent resides

theorem Reflects.takeOut (reflects : Reflects history bag) (consistent : bag.Consistent) :
    Reflects history bag.takeOut.2 := by
  simp only [Bag.takeOut]
  split
  · exact reflects
  · split
    · exact reflects.of_same rfl rfl
    · have ticked : Reflects history bag.ticked := reflects.of_same rfl rfl
      exact ticked.remove consistent.ticked _

theorem Reflects.edit {change : α → α} (reflects : Reflects history bag)
    (consistent : bag.Consistent) :
    Reflects (history ++ ((bag.find? key).map fun _ => (⟨key, false⟩ : Posting)).toList)
      (bag.edit key fun item => (change item, ())).2 := by
  cases found : bag.find? key with
  | none =>
      rw [edit_of_free found, Option.map_none, Option.toList_none, List.append_nil]
      exact reflects
  | some resident =>
      obtain ⟨slot, resides, _⟩ := slot?_eq_some_of_find? found
      have removed : bag.remove key = (some slot, (bag.remove key).2) := by
        rw [remove_of_resident resides]
      simp only [Bag.edit]
      rw [removed]
      exact reflects.replace consistent resides

theorem Reflects.drain (reflects : Reflects history bag) (consistent : bag.Consistent) :
    Reflects history bag.drain.2 := by
  simp only [Bag.drain]
  generalize bag.slots.map (·.1) = keys
  induction keys generalizing bag with
  | nil => exact reflects
  | cons key rest inductionHypothesis =>
      exact inductionHypothesis (reflects.remove consistent key) (consistent.remove key)

/-- What an operation places is added to the record, and nothing else about the orders changes. -/
theorem Reflects.perform [LawfulItem α] (reflects : Reflects history bag)
    (consistent : bag.Consistent) (operation : Operation α) :
    Reflects (history ++ (bag.posting operation).toList) (bag.perform operation) := by
  have nothingPlaced : Reflects (history ++ []) bag := by
    rw [List.append_nil]
    exact reflects
  cases operation with
  | put item => exact reflects.put consistent item
  | takeOut => exact nothingPlaced.takeOut consistent
  | putBack item =>
      simp only [posting, Bag.perform, Bag.putBack]
      split
      · exact nothingPlaced
      · have sameKey : Item.key (bag.forget item) = Item.key item := Item.key_mapBudget _ _
        rw [← sameKey]
        exact reflects.put consistent (bag.forget item)
  | pick key => exact nothingPlaced.remove consistent key
  | edit key change keepsKey => exact reflects.edit consistent
  | drain => exact nothingPlaced.drain consistent
  | setForgetCycles cycles => exact nothingPlaced.of_same rfl rfl
  | resetForgetCycles => exact nothingPlaced.of_same rfl rfl

/-! ## Runs -/

theorem empty_reflects (config : BagConfig) (draws : Draws) :
    Reflects [] (Bag.empty config draws : Bag α) where
  queues := by
    intro level
    simp only [queueAt, Bag.empty, List.getElem?_replicate]
    split <;> rfl
  ages :=
    { listed := fun _ _ resides => absurd resides (by simp [slot?, Bag.empty])
      serial_lt := .nil }

theorem Reflects.run [LawfulItem α] {operations : List (Operation α)}
    (reflects : Reflects history bag) (sound : bag.Sound capacity) :
    Reflects (history ++ bag.record operations) (bag.run operations) := by
  induction operations generalizing bag history with
  | nil =>
      show Reflects (history ++ []) bag
      rw [List.append_nil]
      exact reflects
  | cons operation rest inductionHypothesis =>
      have first := reflects.perform sound.consistent operation
      have whole := inductionHypothesis first (sound.perform operation)
      rw [List.append_assoc] at whole
      exact whole

/-! ## Placed again -/

/-- The operations with which a stay goes on remove the resident and place it again, changed, under
its serial number. -/
theorem perform_of_continues [LawfulItem α] {operation : Operation α}
    (continues : bag.posting operation = some ⟨key, false⟩) (resides : bag.slot? key = some slot) :
    ∃ changed, bag.perform operation = (bag.remove key).2.place key changed slot.serial := by
  have merging : ∀ item, Item.key item = key → bag.beginsStay item = false →
      ∃ changed, (bag.put item).bag = (bag.remove key).2.place key changed slot.serial := by
    intro item sameKey absorbed
    subst sameKey
    have found : bag.find? (Item.key item) = some slot.item := by
      rw [find?, resides, Option.map_some]
    simp only [beginsStay, found] at absorbed
    cases policy : Item.policy item with
    | replace =>
        rw [policy] at absorbed
        contradiction
    | merge =>
        rw [put_merging resides policy]
        exact ⟨_, rfl⟩
  cases operation with
  | put item =>
      obtain ⟨sameKey, absorbed⟩ := Posting.mk.inj (Option.some.inj continues)
      exact merging item sameKey absorbed
  | putBack item =>
      simp only [posting] at continues
      simp only [Bag.perform, Bag.putBack]
      split at continues
      · contradiction
      · rename_i strong
        obtain ⟨sameKey, absorbed⟩ := Posting.mk.inj (Option.some.inj continues)
        rw [if_neg strong]
        exact merging (bag.forget item) ((Item.key_mapBudget _ _).trans sameKey) absorbed
  | edit name change keepsKey =>
      obtain ⟨_, _, same⟩ := Option.map_eq_some_iff.mp continues
      obtain ⟨rfl, _⟩ := Posting.mk.inj same
      have removed : bag.remove name = (some slot, (bag.remove name).2) := by
        rw [remove_of_resident resides]
      simp only [Bag.perform, Bag.edit]
      rw [removed]
      exact ⟨_, rfl⟩
  | takeOut => contradiction
  | pick name => contradiction
  | drain => contradiction
  | setForgetCycles cycles => contradiction
  | resetForgetCycles => contradiction

/-- A resident that is placed again keeps its serial number and is behind everybody else. -/
theorem Consistent.requeued (consistent : bag.Consistent) (key : String) (item : α)
    (serial : Nat) :
    ∃ changed, ((bag.remove key).2.place key item serial).slot? key = some changed ∧
      changed.serial = serial ∧
        ((bag.remove key).2.place key item serial).queueAt changed.level =
          (bag.queueAt changed.level).filter (· ≠ key) ++ [key] := by
  refine ⟨bag.placedSlot item serial, ?_, rfl, ?_⟩
  · rw [slot?_replace, if_pos rfl]
  · rw [queueAt_place _ (consistent.remove key).levels_pos, placedSlot_remove, if_pos rfl,
      consistent.queueAt_remove]

/-! ## Who is served -/

theorem Consistent.taken_front (consistent : bag.Consistent)
    (isTaken : bag.takeOut.1 = some item) :
    ∃ slot waiting, bag.slot? (Item.key item) = some slot ∧
      bag.queueAt slot.level = Item.key item :: waiting := by
  rcases consistent.takeOut_takes with ⟨_, result⟩ | ⟨level, taken, found, takes⟩
  · rw [result] at isTaken
    contradiction
  · obtain rfl := Option.some.inj (found.symm.trans isTaken)
    obtain ⟨key, waiting, slot, queued, resides, rfl, rfl, _⟩ := takes.front
    rw [consistent.key_item key slot resides]
    exact ⟨slot, waiting, resides, queued⟩

/-- If somebody of a level is listed in front, then so is whoever is first in its queue. -/
theorem QueuesBy.front_mem {front back waiting : List String}
    (queues : QueuesBy (front ++ back) bag) (queued : bag.queueAt level = key :: waiting)
    (otherHere : bag.level? other = some level) (inFront : other ∈ front) : key ∈ front := by
  have whole := queues level
  have occurs : other ∈ bag.atLevel level front :=
    List.mem_filter.mpr ⟨inFront, by simpa using otherHere⟩
  unfold atLevel at whole occurs
  rw [queued, List.filter_append] at whole
  obtain ⟨first, others, isFront⟩ := List.exists_cons_of_ne_nil (List.ne_nil_of_mem occurs)
  rw [isFront, List.cons_append] at whole
  rw [(List.cons.inj whole).1]
  exact (List.mem_filter.mp (isFront ▸ List.mem_cons_self)).1

/-- Whoever is first in a queue has not been placed for longer than all others there. -/
theorem Reflects.placed_after (reflects : Reflects history bag) (consistent : bag.Consistent)
    {waiting : List String} (queued : bag.queueAt level = key :: waiting)
    (otherHere : bag.level? other = some level) (different : other ≠ key) {posting : Posting}
    (placed : history = earlier ++ posting :: later) (ofKey : posting.key = key) :
    ∃ again ∈ later, again.key = other := by
  by_contra never
  have notLater : other ∉ (posting :: later).map Posting.key := by
    intro member
    obtain ⟨again, isLater, ofOther⟩ := List.mem_map.mp member
    rcases List.mem_cons.mp isLater with rfl | isLater
    · exact different (ofOther.symm.trans ofKey)
    · exact never ⟨again, isLater, ofOther⟩
  have isEarlier : other ∈ earlier.map Posting.key := by
    have queues := consistent.mem_queueAt_iff.mpr otherHere
    rw [reflects.queues] at queues
    have occurs := List.mem_dedup.mp (List.mem_filter.mp queues).1
    rw [placed, List.map_append] at occurs
    exact (List.mem_append.mp occurs).resolve_right notLater
  have isLater : key ∈ (posting :: later).map Posting.key :=
    List.mem_map.mpr ⟨posting, List.mem_cons_self, ofKey⟩
  obtain ⟨front, back, split, inFront, inBack⟩ :=
    dedup_append_split _ _ isEarlier notLater isLater
  have listed : lastPlaced history = front ++ back := by
    rw [← split, lastPlaced, placed, List.map_append]
  have queues : QueuesBy (front ++ back) bag := by
    rw [← listed]
    exact reflects.queues
  have distinct : (front ++ back).Nodup := by
    rw [← split]
    exact List.nodup_dedup _
  exact (List.nodup_append.mp distinct).2.2 key (queues.front_mem queued otherHere inFront) key
    inBack rfl

/-- Somewhere in a record is the last placement of a kind. -/
theorem exists_last {kind : Posting → Prop} (somewhere : ∃ posting ∈ history, kind posting) :
    ∃ earlier posting later, history = earlier ++ posting :: later ∧ kind posting ∧
      ∀ other ∈ later, ¬kind other := by
  induction history with
  | nil => simp at somewhere
  | cons first rest inductionHypothesis =>
      by_cases again : ∃ posting ∈ rest, kind posting
      · obtain ⟨earlier, posting, later, rfl, isKind, last⟩ := inductionHypothesis again
        exact ⟨first :: earlier, posting, later, rfl, isKind, last⟩
      · obtain ⟨posting, member, isKind⟩ := somewhere
        rcases List.mem_cons.mp member with rfl | member
        · refine ⟨[], posting, rest, rfl, isKind, ?_⟩
          intro other isLater otherKind
          exact again ⟨other, isLater, otherKind⟩
        · exact absurd ⟨posting, member, isKind⟩ again

/-- Whoever has the lower serial number began its stay first. -/
theorem Reflects.not_begun_after (reflects : Reflects history bag)
    (resides : bag.slot? key = some slot) (otherResides : bag.slot? other = some otherSlot)
    (older : otherSlot.serial < slot.serial)
    (begun : history = earlier ++ ⟨key, true⟩ :: later) (last : ⟨key, true⟩ ∉ later) :
    ⟨other, true⟩ ∉ later := by
  intro again
  have isEarlier : (⟨key, true⟩ : Posting) ∈ earlier ++ [⟨key, true⟩] := by simp
  obtain ⟨front, back, split, inFront, inBack⟩ :=
    dedup_append_split _ _ (mem_begun.mpr isEarlier) (mt mem_begun.mp last) (mem_begun.mpr again)
  have listed : lastBegun history = front ++ back := by
    rw [← split, lastBegun, begun, ← List.map_append, ← List.filter_append, List.append_assoc,
      List.singleton_append]
  have ascending := reflects.ages.serial_lt
  rw [listed, List.pairwise_append] at ascending
  have younger := ascending.2.2 key inFront other inBack slot otherSlot resides otherResides
  omega

/-- Who is served is decided by the last placements.

Every queue is in their order. So the one that is taken out has not been placed for longer than all
others of its level. A resident that is changed in place or absorbs an item keeps its serial number,
and goes behind everybody else. If an older resident of the level is passed over, then this has
happened to it since the last stay of the other one began. -/
structure ServesByPlacement (history : List Posting) (bag : Bag α) : Prop where
  queueAt_eq : ∀ level, bag.queueAt level = bag.atLevel level (lastPlaced history)
  requeues : ∀ operation key slot,
    bag.posting operation = some ⟨key, false⟩ → bag.slot? key = some slot →
      ∃ changed, (bag.perform operation).slot? key = some changed ∧
        changed.serial = slot.serial ∧
          (bag.perform operation).queueAt changed.level =
            (bag.queueAt changed.level).filter (· ≠ key) ++ [key]
  placedEarliest : ∀ item other, bag.takeOut.1 = some item → other ≠ Item.key item →
    bag.level? other = bag.level? (Item.key item) →
      ∃ earlier later, history = earlier ++ later ∧
        (∀ posting ∈ later, posting.key ≠ Item.key item) ∧ ∃ posting ∈ later, posting.key = other
  passedOver : ∀ item slot other otherSlot, bag.takeOut.1 = some item →
    bag.slot? (Item.key item) = some slot → bag.slot? other = some otherSlot →
      otherSlot.level = slot.level → otherSlot.serial < slot.serial →
        ∃ earlier later, history = earlier ++ ⟨Item.key item, true⟩ :: later ∧
          ⟨Item.key item, true⟩ ∉ later ∧ ⟨other, true⟩ ∉ later ∧ ⟨other, false⟩ ∈ later

theorem Reflects.servesByPlacement [LawfulItem α] (reflects : Reflects history bag)
    (consistent : bag.Consistent) : ServesByPlacement history bag where
  queueAt_eq := reflects.queues
  requeues := by
    intro operation key slot continues resides
    obtain ⟨changed, result⟩ := perform_of_continues continues resides
    rw [result]
    exact consistent.requeued key changed slot.serial
  placedEarliest := by
    intro item other isTaken different sameLevel
    obtain ⟨slot, waiting, resides, queued⟩ := consistent.taken_front isTaken
    have here : bag.level? (Item.key item) = some slot.level := by
      rw [level?, resides, Option.map_some]
    have occurs : Item.key item ∈ lastPlaced history := by
      have queues := consistent.mem_queueAt_iff.mpr here
      rw [reflects.queues] at queues
      exact (List.mem_filter.mp queues).1
    obtain ⟨earlier, posting, later, split, ofItem, last⟩ :=
      exists_last (List.mem_map.mp (List.mem_dedup.mp occurs))
    rw [here] at sameLevel
    refine ⟨earlier ++ [posting], later, by rw [split, List.append_cons], last, ?_⟩
    exact reflects.placed_after consistent queued sameLevel different split ofItem
  passedOver := by
    intro item slot other otherSlot isTaken resides otherResides sameLevel older
    obtain ⟨ownSlot, waiting, ownResides, queued⟩ := consistent.taken_front isTaken
    obtain rfl := Option.some.inj (ownResides.symm.trans resides)
    have begun : ∃ posting ∈ history, posting = ⟨Item.key item, true⟩ :=
      ⟨_, mem_begun.mp (List.mem_dedup.mp (reflects.ages.listed _ _ resides)), rfl⟩
    obtain ⟨earlier, _, later, split, rfl, last⟩ := exists_last begun
    have lastStay : ⟨Item.key item, true⟩ ∉ later := fun again => last _ again rfl
    have notBegun := reflects.not_begun_after resides otherResides older split lastStay
    have otherHere : bag.level? other = some ownSlot.level := by
      rw [level?, otherResides, Option.map_some, sameLevel]
    have different : other ≠ Item.key item := by
      rintro rfl
      rw [Option.some.inj (otherResides.symm.trans resides)] at older
      omega
    obtain ⟨⟨_, begins⟩, again, rfl⟩ :=
      reflects.placed_after consistent queued otherHere different split rfl
    cases begins with
    | true => contradiction
    | false => exact ⟨earlier, later, split, lastStay, notBegun, again⟩

/-- Whatever a bag was made for, whatever is done to it and whatever is drawn. -/
theorem run_servesByPlacement [LawfulItem α] (config : BagConfig) (draws : Draws)
    (operations : List (Operation α)) :
    ServesByPlacement ((Bag.empty config draws : Bag α).record operations)
      ((Bag.empty config draws).run operations) := by
  have reflects : Reflects ([] ++ (Bag.empty config draws : Bag α).record operations)
      ((Bag.empty config draws).run operations) :=
    (empty_reflects config draws).run (empty_sound config draws)
  rw [List.nil_append] at reflects
  exact reflects.servesByPlacement ((empty_sound config draws).run operations).consistent

/-- The elder of two equal tasks is looked at in place and left as it is. After that the younger one
is taken out before it. -/
theorem revisited_servesByPlacement :
    let judgment := fun (name : String) =>
      (⟨⟨Term.atom 0 name, .judgment, .input 1 0⟩,
        .corrected (Single.hundredths 50) Single.one Single.zero, .derived⟩ : Task)
    let start : Bag Task :=
      Bag.empty { capacity := 4, forgetCycles := 0, levels := 1 } (fun _ => 0)
    let operations : List (Operation Task) :=
      [.put (judgment "a"), .put (judgment "b"), .edit "a." (fun task => task) (fun _ => rfl)]
    let bag := start.run operations
    ServesByPlacement (start.record operations) bag ∧
      start.record operations = [⟨"a.", true⟩, ⟨"b.", true⟩, ⟨"a.", false⟩] ∧
        ((bag.slot? "a.").map (·.serial), (bag.slot? "b.").map (·.serial)) = (some 1, some 2) ∧
          bag.takeOut.1.map Item.key = some "b." :=
  ⟨run_servesByPlacement { capacity := 4, forgetCycles := 0, levels := 1 } _ _, by decide +kernel⟩

end AttentiveReasoner.Attention.Bag
