import AttentiveReasoner.Proofs.Attention.Bag.Residents
import Mathlib.Data.Finset.Card
import Mathlib.Data.Finset.Dedup

/-!
Contract: what is found under a key after an operation, and when nobody leaves.

Owns:
- the set of the names of a bag;
- what is found after placing, removing, selecting, changing in place and putting in;
- that selection finds somebody in every bag that has residents;
- that nobody leaves a bag in which there is room;
- what putting back does with an item that was taken out.

Does not own: which resident is selected, or leaves a crowded bag.

What enters when an item is put in is fixed by the item and the resident of its key. So the
laws are equations for what is found under every key.
-/

namespace AttentiveReasoner.Attention.Bag

open AttentiveReasoner.Numeric

variable {α ν : Type} [Arithmetic] [Item α ν] {bag : Bag α} {key other : String} {slot : Slot α}
  {item resident : α} {serial : Nat}

/-! ## Names -/

/-- The keys of the residents. -/
def names (bag : Bag α) : Finset String :=
  (bag.slots.map (·.1)).toFinset

omit [Arithmetic] in
theorem slot?_eq_some_of_find? (found : bag.find? key = some item) :
    ∃ slot, bag.slot? key = some slot ∧ slot.item = item :=
  Option.map_eq_some_iff.mp found

omit [Arithmetic] in
theorem find?_eq_none_iff : bag.find? key = none ↔ bag.slot? key = none :=
  Option.map_eq_none_iff

omit [Arithmetic] in
theorem not_mem_names : key ∉ bag.names ↔ bag.find? key = none := by
  rw [find?_eq_none_iff, slot?, List.lookup_eq_none_iff, names, List.mem_toFinset, List.mem_map]
  constructor
  · intro absent entry member
    rw [bne_iff_ne]
    rintro rfl
    exact absent ⟨entry, member, rfl⟩
  · rintro absent ⟨entry, member, rfl⟩
    exact bne_iff_ne.mp (absent entry member) rfl

omit [Arithmetic] in
theorem mem_names : key ∈ bag.names ↔ ∃ item, bag.find? key = some item := by
  rw [← not_iff_not, not_mem_names]
  cases bag.find? key <;> simp

theorem Consistent.card_names (consistent : bag.Consistent) : bag.names.card = bag.size := by
  rw [names, List.toFinset_card_of_nodup consistent.keys_nodup, List.length_map, size]

/-- A resident is found under its key, and nothing else is. -/
theorem Consistent.find?_eq_some_iff (consistent : bag.Consistent) :
    bag.find? key = some item ↔ item ∈ bag.items ∧ Item.key item = key := by
  constructor
  · exact consistent.mem_of_find?
  · rintro ⟨member, rfl⟩
    obtain ⟨slot, occupied, rfl⟩ := consistent.mem_items_iff.mp member
    rw [find?, occupied, Option.map_some]

theorem Consistent.items_nodup (consistent : bag.Consistent) : bag.items.Nodup := by
  refine List.Nodup.of_map Item.key ?_
  have keyed : bag.items.map Item.key = bag.slots.map (·.1) := by
    rw [items, List.map_map]
    refine List.map_congr_left ?_
    intro entry member
    exact consistent.key_item entry.1 entry.2 (lookup_of_mem consistent.keys_nodup member)
  rw [keyed]
  exact consistent.keys_nodup

/-! ## Placing and removing -/

theorem find?_place (free : bag.slot? key = none) (other : String) :
    (bag.place key item serial).find? other =
      if other = key then some (bag.placed item) else bag.find? other := by
  rw [find?, slot?_place free]
  split
  · rfl
  · rfl

omit [Arithmetic] in
theorem find?_remove (bag : Bag α) (key other : String) :
    (bag.remove key).2.find? other = if other = key then none else bag.find? other := by
  rw [find?, slot?_remove]
  split
  · rfl
  · rfl

/-- A resident is removed, and something is placed under its key. -/
theorem find?_replace (other : String) :
    ((bag.remove key).2.place key item serial).find? other =
      if other = key then some (bag.placed item) else bag.find? other := by
  have free : (bag.remove key).2.slot? key = none := by
    rw [slot?_remove, if_pos rfl]
  have samePlaced : (bag.remove key).2.placed item = bag.placed item := by
    unfold placed remove
    split <;> rfl
  rw [find?_place free, find?_remove, samePlaced]
  split
  · rfl
  · rfl

theorem Consistent.size_remove (consistent : bag.Consistent)
    (occupied : bag.slot? key = some slot) : (bag.remove key).2.size + 1 = bag.size := by
  have erased : (bag.remove key).2.names = bag.names.erase key := by
    ext other
    rw [Finset.mem_erase, mem_names, mem_names, find?_remove]
    by_cases same : other = key <;> simp [same]
  have isName : key ∈ bag.names := mem_names.mpr ⟨slot.item, by rw [find?, occupied]; rfl⟩
  rw [← (consistent.remove key).card_names, ← consistent.card_names, erased]
  exact Finset.card_erase_add_one isName

/-! ## Changing in place -/

theorem find?_edit {ρ : Type} {change : α → α × ρ} (found : bag.find? key = some item) :
    (bag.edit key change).1 = some (change item).2 ∧
      ∀ other, (bag.edit key change).2.find? other =
        if other = key then some (bag.placed (change item).1) else bag.find? other := by
  obtain ⟨slot, occupied, rfl⟩ := slot?_eq_some_of_find? found
  have removed : bag.remove key = (some slot, (bag.remove key).2) := by
    rw [remove_of_resident occupied]
  simp only [edit]
  rw [removed]
  exact ⟨rfl, find?_replace⟩

theorem edit_of_free {ρ : Type} {change : α → α × ρ} (free : bag.find? key = none) :
    bag.edit key change = (none, bag) := by
  simp only [edit, remove_of_free (find?_eq_none_iff.mp free)]

/-! ## Putting in -/

/-- What enters a bag when an item is put in: the item itself, or the resident of its key
after it absorbed the item. -/
def entering (bag : Bag α) (item : α) : α :=
  match bag.find? (Item.key item) with
  | none => item
  | some resident =>
      match Item.policy item with
      | .replace => item
      | .merge =>
          (Item.absorb (Item.mapBudget (·.merge (Item.budget item)) resident) item).1

/-- Putting in under a key makes nobody leave: the key has a resident, or there is room for one
more. -/
def HasRoom (bag : Bag α) (key : String) : Prop :=
  key ∈ bag.names ∨ bag.size < bag.capacity

/-- An item under a free key finds room. -/
theorem put_of_free (free : bag.find? (Item.key item) = none) (room : bag.size < bag.capacity) :
    bag.put item = { bag := bag.placeNew (Item.key item) item } := by
  have oneMore : (bag.placeNew (Item.key item) item).size = bag.size + 1 := size_place
  have sameCapacity : (bag.placeNew (Item.key item) item).capacity = bag.capacity := rfl
  simp only [put, remove_of_free (find?_eq_none_iff.mp free)]
  rw [if_neg (by omega)]

theorem find?_placeNew (free : bag.find? key = none) (other : String) :
    (bag.placeNew key item).find? other =
      if other = key then some (bag.placed item) else bag.find? other := by
  have freeNext : bag.nextSerial.slot? key = none := find?_eq_none_iff.mp free
  exact find?_place freeNext other

/-- Putting in where there is room. -/
theorem find?_put (room : bag.HasRoom (Item.key item)) :
    (bag.put item).departed = none ∧
      ∀ other, (bag.put item).bag.find? other =
        if other = Item.key item then some (bag.placed (bag.entering item))
        else bag.find? other := by
  cases found : bag.find? (Item.key item) with
  | none =>
      have free : bag.size < bag.capacity :=
        room.resolve_left (not_mem_names.mpr found)
      rw [put_of_free found free, entering, found]
      exact ⟨rfl, find?_placeNew found⟩
  | some resident =>
      obtain ⟨slot, occupied, rfl⟩ := slot?_eq_some_of_find? found
      have removed : bag.remove (Item.key item) = (some slot, (bag.remove (Item.key item)).2) := by
        rw [remove_of_resident occupied]
      simp only [put, entering, found]
      rw [removed]
      cases Item.policy item with
      | replace =>
          refine ⟨rfl, fun other => ?_⟩
          have replaced : ∀ serial,
              ((bag.remove (Item.key item)).2.nextSerial.place (Item.key item) item
                serial).find? other =
                if other = Item.key item then some (bag.placed item) else bag.find? other := by
            intro serial
            exact find?_replace other
          exact replaced _
      | merge => exact ⟨rfl, find?_replace⟩

theorem names_put (room : bag.HasRoom (Item.key item)) :
    (bag.put item).bag.names = insert (Item.key item) bag.names := by
  ext name
  rw [Finset.mem_insert, mem_names, mem_names, (find?_put room).2]
  by_cases same : name = Item.key item <;> simp [same]

/-! ## Selecting -/

omit [Arithmetic] in
theorem mem_occupied {level : Nat} {mass : Float} (member : (level, mass) ∈ bag.occupied) :
    ∃ entry, bag.levels[level]? = some entry ∧ entry.queue ≠ [] := by
  obtain ⟨⟨entry, index⟩, isEntry, isOccupied⟩ := List.mem_filterMap.mp member
  rw [List.mem_zipIdx_iff_getElem?] at isEntry
  split at isOccupied
  · contradiction
  · rename_i queues
    obtain ⟨rfl, _⟩ := Prod.mk.inj (Option.some.inj isOccupied)
    exact ⟨entry, isEntry, by simpa using queues⟩

theorem Consistent.occupied_ne_nil (consistent : bag.Consistent)
    (resides : bag.slot? key = some slot) : bag.occupied ≠ [] := by
  have queues : key ∈ bag.queueAt slot.level :=
    (consistent.mem_queueAt _ _).mpr ⟨slot, resides, rfl⟩
  have bound := consistent.level_lt _ _ resides
  simp only [queueAt, List.getElem?_eq_getElem bound, Option.map_some, Option.getD_some] at queues
  intro nobody
  have member : (slot.level, Double.positivePart bag.levels[slot.level].mass) ∈ bag.occupied := by
    refine List.mem_filterMap.mpr ⟨(bag.levels[slot.level], slot.level), ?_, ?_⟩
    · rw [List.mem_zipIdx_iff_getElem?]
      exact List.getElem?_eq_getElem bound
    · rw [if_neg]
      simpa using List.ne_nil_of_mem queues
  rw [nobody] at member
  contradiction

omit [Arithmetic] in
theorem levelAt_mem {draw : Float} {levels : List (Nat × Float)} {level : Nat}
    (chosen : levelAt draw levels = some level) : ∃ mass, (level, mass) ∈ levels := by
  induction levels generalizing draw with
  | nil => contradiction
  | cons first rest inductionHypothesis =>
      obtain ⟨own, mass⟩ := first
      unfold levelAt at chosen
      split at chosen
      · obtain rfl := Option.some.inj chosen
        exact ⟨mass, List.mem_cons_self⟩
      · obtain ⟨mass, member⟩ := inductionHypothesis chosen
        exact ⟨mass, List.mem_cons_of_mem _ member⟩

omit [Arithmetic] in
/-- Whatever is drawn, an occupied level is chosen. -/
theorem chooseLevel_occupied (occupied : bag.occupied ≠ []) :
    ∃ level mass, bag.chooseLevel.1 = some level ∧ (level, mass) ∈ bag.occupied := by
  have isLast := List.getLast?_eq_some_getLast occupied
  have lastMember := List.getLast_mem occupied
  revert isLast lastMember
  generalize bag.occupied.getLast occupied = last
  intro isLast lastMember
  simp only [chooseLevel, isLast, Option.map_some]
  split
  · exact ⟨last.1, last.2, rfl, lastMember⟩
  · cases chosen : levelAt _ bag.occupied with
    | none => exact ⟨last.1, last.2, rfl, lastMember⟩
    | some level =>
        obtain ⟨mass, member⟩ := levelAt_mem chosen
        exact ⟨level, mass, rfl, member⟩

/-- The bag in which an item has been selected, and is not removed yet. -/
def ticked (bag : Bag α) : Bag α :=
  { bag with drawn := bag.chooseLevel.2, clock := bag.clock + 1 }

/-- Selecting takes out the resident in front of the chosen level, unless there is none. -/
theorem Consistent.takeOut_eq (consistent : bag.Consistent) :
    (bag.slots = [] ∧ bag.takeOut = (none, bag)) ∨
      ∃ level key waiting slot, bag.chooseLevel.1 = some level ∧
        bag.queueAt level = key :: waiting ∧ bag.slot? key = some slot ∧ slot.level = level ∧
        bag.takeOut = (some slot.item, bag.ticked.withoutSlot key slot) := by
  cases residents : bag.slots with
  | nil =>
      refine .inl ⟨rfl, ?_⟩
      simp [takeOut, residents]
  | cons first rest =>
      have firstResides : bag.slot? first.1 = some first.2 := by
        rw [slot?, residents]
        exact List.lookup_cons_self
      obtain ⟨level, mass, chosen, member⟩ :=
        chooseLevel_occupied (consistent.occupied_ne_nil firstResides)
      obtain ⟨entry, isEntry, queues⟩ := mem_occupied member
      obtain ⟨key, waiting, isQueue⟩ := List.exists_cons_of_ne_nil queues
      have queued : bag.queueAt level = key :: waiting := by
        simp [queueAt, isEntry, isQueue]
      obtain ⟨slot, resides, isLevel⟩ :=
        (consistent.mem_queueAt level key).mp (by rw [queued]; exact List.mem_cons_self)
      have isFront :
          ({ bag with drawn := bag.chooseLevel.2 } : Bag α).front? level = some key := by
        simp [front?, isEntry, isQueue]
      refine .inr ⟨level, key, waiting, slot, chosen, queued, resides, isLevel, ?_⟩
      have counted : bag.ticked.slot? key = some slot := resides
      have removed := remove_of_resident counted
      rw [ticked] at removed
      simp only [takeOut, residents, List.isEmpty_cons, chosen, Option.bind_some]
      rw [if_neg Bool.false_ne_true, ← residents]
      simp only [isFront, removed]
      rfl

theorem Consistent.ticked (consistent : bag.Consistent) : bag.ticked.Consistent :=
  consistent.of_sameIndexes rfl rfl rfl (Nat.le_refl _) (Nat.le_succ _)

theorem Consistent.takeOut_none_iff (consistent : bag.Consistent) :
    bag.takeOut.1 = none ↔ bag.size = 0 := by
  rcases consistent.takeOut_eq with ⟨nobody, result⟩ | ⟨_, key, _, slot, _, _, resides, _, result⟩
  · simp [result, size, nobody]
  · have smaller := consistent.size_remove resides
    rw [result]
    simp only [reduceCtorEq, false_iff]
    omega

/-- Who is taken out was there and is there no more; all others stay. -/
theorem Consistent.find?_takeOut (consistent : bag.Consistent)
    (isTaken : bag.takeOut.1 = some item) :
    bag.find? (Item.key item) = some item ∧
      bag.takeOut.2.size + 1 = bag.size ∧
      ∀ other, bag.takeOut.2.find? other =
        if other = Item.key item then none else bag.find? other := by
  rcases consistent.takeOut_eq with ⟨_, result⟩ | ⟨_, key, _, slot, _, _, resides, _, result⟩
  · rw [result] at isTaken
    contradiction
  · rw [result] at isTaken ⊢
    obtain rfl := Option.some.inj isTaken
    have keyed := consistent.key_item key slot resides
    have counted : bag.ticked.slot? key = some slot := resides
    have smaller := consistent.ticked.size_remove counted
    have others := find?_remove bag.ticked key
    rw [remove_of_resident counted] at smaller others
    rw [keyed]
    exact ⟨by rw [find?, resides, Option.map_some], smaller, others⟩

/-- Who is taken out, and the others, are all that were there. -/
theorem Sound.items_takeOut {capacity : Nat} (sound : bag.Sound capacity)
    (isTaken : bag.takeOut.1 = some item) : bag.items.Perm (item :: bag.takeOut.2.items) := by
  rcases sound.consistent.takeOut_cases with ⟨nothing, _⟩ | ⟨taken, member, isItem, others⟩
  · rw [nothing] at isTaken
    contradiction
  · obtain rfl := Option.some.inj (isItem.symm.trans isTaken)
    have absent : taken ∉ bag.takeOut.2.items := fun stays => ((others taken).mp stays).2 rfl
    refine (List.perm_ext_iff_of_nodup sound.consistent.items_nodup
      (List.nodup_cons.mpr ⟨absent, sound.takeOut.consistent.items_nodup⟩)).mpr ?_
    intro other
    rw [List.mem_cons, others]
    by_cases same : Item.key other = Item.key taken
    · constructor
      · exact fun resides => .inl (sound.consistent.eq_of_key_eq resides member same)
      · rintro (rfl | ⟨_, different⟩)
        · exact member
        · exact absurd same different
    · constructor
      · exact fun resides => .inr ⟨resides, same⟩
      · rintro (rfl | ⟨resides, _⟩)
        · exact absurd rfl same
        · exact resides

/-! ## Putting back -/

/-- An item that finds room is back as the bag forgets it, unless it has become too weak; then it
is what leaves. -/
theorem putBack_of_room (free : bag.find? (Item.key item) = none)
    (room : bag.size < bag.capacity) [LawfulItem α] :
    bag.putBack item =
      if Single.less (Item.priority (bag.forget item)) bag.floor then
        { bag := bag, departed := some (bag.forget item) }
      else
        { bag := bag.placeNew (Item.key item) (bag.forget item) } := by
  have sameKey : Item.key (bag.forget item) = Item.key item := Item.key_mapBudget _ _
  simp only [putBack]
  split
  · rfl
  · rw [put_of_free (by rwa [sameKey]) room, sameKey]

/-- Who returns when an item is put back: the item as the bag forgets it, unless that is below
the floor. -/
def returning (bag : Bag α) (item : α) : Option α :=
  if Single.less (Item.priority (bag.forget item)) bag.floor then none
  else some (bag.placed (bag.forget item))

/-- An item that was taken out is put back, changed perhaps. It returns, or it leaves; nobody else
does either. -/
theorem Sound.find?_putBack_takeOut [LawfulItem α] {capacity : Nat}
    (sound : bag.Sound capacity) (isTaken : bag.takeOut.1 = some item) (changed : α)
    (sameKey : Item.key changed = Item.key item) :
    (bag.takeOut.2.putBack changed).departed =
        (if bag.takeOut.2.returning changed = none then some (bag.takeOut.2.forget changed)
          else none) ∧
      ∀ key, (bag.takeOut.2.putBack changed).bag.find? key =
        if key = Item.key item then bag.takeOut.2.returning changed else bag.find? key := by
  obtain ⟨_, smaller, others⟩ := sound.consistent.find?_takeOut isTaken
  have free : bag.takeOut.2.find? (Item.key changed) = none := by
    rw [others, sameKey, if_pos rfl]
  have room : bag.takeOut.2.size < bag.takeOut.2.capacity := by
    have bound := sound.size_le
    have sameCapacity := sound.takeOut.capacity_eq
    omega
  rw [putBack_of_room free room]
  unfold returning
  split
  · refine ⟨rfl, fun key => ?_⟩
    rw [others]
  · refine ⟨rfl, fun key => ?_⟩
    rw [find?_placeNew free, others, sameKey]
    split
    · rfl
    · rfl

end AttentiveReasoner.Attention.Bag
