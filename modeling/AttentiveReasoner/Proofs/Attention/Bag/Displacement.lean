import AttentiveReasoner.Proofs.Attention.Bag.Lookup

/-!
Contract: who is displaced from a bag.

Owns:
- the names of a bag after changing in place, selecting, putting in and putting back;
- how entrants displace residents: nobody leaves before the bag is full, and then it stays
  full;
- how many residents entrants can displace, and that putting back displaces at most one.

Does not own: which resident leaves.
-/

namespace AttentiveReasoner.Attention.Bag

variable {α ν : Type} [Item α ν] {bag : Bag α} {key name : String} {item : α} {capacity : Nat}

/-! ## Names -/

theorem Consistent.mem_names_iff (consistent : bag.Consistent) :
    name ∈ bag.names ↔ ∃ item ∈ bag.items, Item.key item = name := by
  rw [mem_names]
  exact exists_congr fun _ => consistent.find?_eq_some_iff

/-- Changing a resident in place displaces nobody. -/
theorem names_edit {ρ : Type} (bag : Bag α) (key : String) (change : α → α × ρ) :
    (bag.edit key change).2.names = bag.names := by
  cases found : bag.find? key with
  | none => rw [edit_of_free found]
  | some item =>
      ext name
      rw [mem_names, mem_names, (find?_edit found).2]
      by_cases same : name = key
      · simp [same, found]
      · simp [same]

/-- Selecting takes one name out. -/
theorem Consistent.names_takeOut (consistent : bag.Consistent)
    (isTaken : bag.takeOut.1 = some item) :
    bag.names = insert (Item.key item) bag.takeOut.2.names := by
  obtain ⟨found, _, others⟩ := consistent.find?_takeOut isTaken
  ext name
  rw [Finset.mem_insert, mem_names, mem_names, others]
  by_cases same : name = Item.key item
  · simp [same, found]
  · simp [same]

/-! ## Displacement -/

/-- Entrants displace residents: whoever is there was there or is an entrant, the number of
residents does not fall, and all residents stay unless the bag has become full. -/
structure Displaces (capacity : Nat) (entrants before after : Finset String) : Prop where
  subset : after ⊆ before ∪ entrants
  card_le : before.card ≤ after.card
  stay_or_full : before ⊆ after ∨ after.card = capacity
  bound : after.card ≤ capacity

variable {entrants others before middle after : Finset String}

theorem Displaces.refl (entrants : Finset String) (bound : before.card ≤ capacity) :
    Displaces capacity entrants before before where
  subset := Finset.subset_union_left
  card_le := Nat.le_refl _
  stay_or_full := .inl (Finset.Subset.refl _)
  bound := bound

/-- A full bag stays full. -/
theorem Displaces.trans (first : Displaces capacity entrants before middle)
    (second : Displaces capacity others middle after) :
    Displaces capacity (entrants ∪ others) before after where
  subset := by
    rw [← Finset.union_assoc]
    exact second.subset.trans (Finset.union_subset_union_left first.subset)
  card_le := first.card_le.trans second.card_le
  stay_or_full := by
    rcases second.stay_or_full with stay | full
    · rcases first.stay_or_full with stayed | full
      · exact .inl (stayed.trans stay)
      · have grown := second.card_le
        have bound := second.bound
        exact .inr (by omega)
    · exact .inr full
  bound := second.bound

/-- Entrants displace no more residents than exceed the capacity together with them. -/
theorem Displaces.card_lost (displaces : Displaces capacity entrants before after) :
    (before \ after).card ≤ (before ∪ entrants).card - capacity := by
  rcases displaces.stay_or_full with stay | full
  · rw [Finset.sdiff_eq_empty_iff_subset.mpr stay, Finset.card_empty]
    exact Nat.zero_le _
  · calc (before \ after).card
        ≤ ((before ∪ entrants) \ after).card :=
          Finset.card_le_card (Finset.sdiff_subset_sdiff Finset.subset_union_left
            (Finset.Subset.refl _))
      _ = (before ∪ entrants).card - capacity := by
          rw [Finset.card_sdiff_of_subset displaces.subset, full]

/-! ## Putting in -/

theorem Consistent.size_removeWeakest {slot : Slot α} (consistent : bag.Consistent)
    (occupied : bag.slot? key = some slot) : bag.removeWeakest.2.size + 1 = bag.size := by
  obtain ⟨_, _, resident, result⟩ := removeWeakest_of_occupied consistent occupied
  rw [result]
  exact consistent.size_remove resident

theorem names_removeWeakest (bag : Bag α) : bag.removeWeakest.2.names ⊆ bag.names := by
  intro name member
  unfold removeWeakest at member
  split at member
  · exact member
  · obtain ⟨item, found⟩ := mem_names.mp member
    rw [find?_remove] at found
    split at found
    · contradiction
    · exact mem_names.mpr ⟨item, found⟩

theorem names_placeNew (free : bag.find? key = none) :
    (bag.placeNew key item).names = insert key bag.names := by
  ext name
  rw [Finset.mem_insert, mem_names, mem_names, find?_placeNew free]
  by_cases same : name = key <;> simp [same]

/-- Whoever enters where there is no room makes room in a full bag. -/
theorem put_of_noRoom (noRoom : ¬bag.HasRoom (Item.key item)) :
    bag.find? (Item.key item) = none ∧ bag.capacity ≤ bag.size ∧
      (bag.put item).bag = (bag.placeNew (Item.key item) item).removeWeakest.2 := by
  obtain ⟨absent, full⟩ := not_or.mp noRoom
  have free : bag.find? (Item.key item) = none := not_mem_names.mp absent
  have oneMore : (bag.placeNew (Item.key item) item).size = bag.size + 1 := size_place
  have sameCapacity : (bag.placeNew (Item.key item) item).capacity = bag.capacity := rfl
  refine ⟨free, Nat.not_lt.mp full, ?_⟩
  simp only [Bag.put, remove_of_free (find?_eq_none_iff.mp free)]
  rw [if_pos (by omega)]

theorem Sound.put_displaces [LawfulItem α] (sound : bag.Sound capacity) (item : α) :
    Displaces capacity {Item.key item} bag.names (bag.put item).bag.names := by
  have afterwards := sound.put item
  have bound : (bag.put item).bag.names.card ≤ capacity := by
    rw [afterwards.consistent.card_names]
    exact afterwards.size_le
  by_cases room : bag.HasRoom (Item.key item)
  · have entered : (bag.put item).bag.names = bag.names ∪ {Item.key item} := by
      rw [names_put room, Finset.union_comm, ← Finset.insert_eq]
    have stay : bag.names ⊆ (bag.put item).bag.names := by
      rw [entered]
      exact Finset.subset_union_left
    exact ⟨entered.subset, Finset.card_le_card stay, .inl stay, bound⟩
  · obtain ⟨free, full, crowded⟩ := put_of_noRoom room
    have placed : (bag.placeNew (Item.key item) item).Consistent :=
      sound.consistent.placeNew (find?_eq_none_iff.mp free) rfl
    obtain ⟨slot, occupied, _⟩ := slot?_eq_some_of_find?
      ((find?_placeNew free (Item.key item)).trans (if_pos rfl))
    have oneMore : (bag.placeNew (Item.key item) item).size = bag.size + 1 := size_place
    have oneLess := placed.size_removeWeakest occupied
    have sameSize : (bag.put item).bag.names.card = bag.names.card := by
      rw [afterwards.consistent.card_names, sound.consistent.card_names, crowded]
      omega
    have atCapacity : bag.names.card = capacity := by
      have within := sound.size_le
      have declared := sound.capacity_eq
      rw [sound.consistent.card_names]
      omega
    refine ⟨?_, sameSize.ge, .inr (sameSize.trans atCapacity), bound⟩
    rw [crowded, Finset.union_comm, ← Finset.insert_eq, ← names_placeNew free]
    exact names_removeWeakest _

/-- Whoever was there, or was put in, is there or has left. -/
theorem Sound.put_departs [LawfulItem α] (sound : bag.Sound capacity) (item : α)
    (expected : name ∈ insert (Item.key item) bag.names) :
    name ∈ (bag.put item).bag.names ∨
      ∃ gone, (bag.put item).departed = some gone ∧ Item.key gone = name := by
  obtain ⟨entering, admits⟩ := sound.consistent.put_admits item
  have enteringKey : Item.key (bag.placed entering) = Item.key item := by
    unfold placed
    rw [Item.key_mapBudget]
    rcases admits.origin with ⟨rfl, _, _⟩ | ⟨resident, _, sameKey, absorbed⟩
    · rfl
    · have merged : entering =
          (Item.absorb (Item.mapBudget (·.merge (Item.budget item)) resident) item).1 := by
        rw [absorbed]
      rw [merged, LawfulItem.key_absorb, Item.key_mapBudget]
      exact sameKey
  have present : ∃ other, (other = bag.placed entering ∨
      other ∈ bag.items ∧ Item.key other ≠ Item.key item) ∧ Item.key other = name := by
    by_cases same : name = Item.key item
    · exact ⟨bag.placed entering, .inl rfl, enteringKey.trans same.symm⟩
    · obtain ⟨other, member, keyed⟩ := sound.consistent.mem_names_iff.mp
        ((Finset.mem_insert.mp expected).resolve_left same)
      exact ⟨other, .inr ⟨member, by rwa [keyed]⟩, keyed⟩
  obtain ⟨other, entered, keyed⟩ := present
  rcases (admits.mem_iff other).mpr entered with member | departed
  · exact .inl ((sound.put item).consistent.mem_names_iff.mpr ⟨other, member, keyed⟩)
  · exact .inr ⟨other, departed, keyed⟩

/-- Putting back displaces at most one, which it returns. -/
theorem Sound.card_lost_putBack [LawfulItem α] (sound : bag.Sound capacity) (item : α) :
    (insert (Item.key item) bag.names \ (bag.putBack item).bag.names).card ≤
      if (bag.putBack item).departed = none then 0 else 1 := by
  have left : ∀ name ∈ insert (Item.key item) bag.names, name ∈ (bag.putBack item).bag.names ∨
      ∃ gone, (bag.putBack item).departed = some gone ∧ Item.key gone = name := by
    intro name expected
    have sameKey : Item.key (bag.forget item) = Item.key item := Item.key_mapBudget _ _
    rcases putBack_cases bag item with tooWeak | put
    · rw [tooWeak]
      rcases Finset.mem_insert.mp expected with rfl | resides
      · exact .inr ⟨bag.forget item, rfl, sameKey⟩
      · exact .inl resides
    · rw [put]
      exact sound.put_departs (bag.forget item) (by rwa [sameKey])
  cases departed : (bag.putBack item).departed with
  | none =>
      rw [if_pos rfl, Nat.le_zero, Finset.card_eq_zero, Finset.sdiff_eq_empty_iff_subset]
      intro name expected
      rcases left name expected with stays | ⟨gone, isGone, _⟩
      · exact stays
      · rw [departed] at isGone
        contradiction
  | some gone =>
      rw [if_neg nofun, ← Finset.card_singleton (Item.key gone)]
      refine Finset.card_le_card ?_
      intro name member
      obtain ⟨expected, absent⟩ := Finset.mem_sdiff.mp member
      obtain ⟨other, isOther, keyed⟩ := (left name expected).resolve_left absent
      rw [departed] at isOther
      rw [Finset.mem_singleton, ← keyed, Option.some.inj isOther]

end AttentiveReasoner.Attention.Bag
