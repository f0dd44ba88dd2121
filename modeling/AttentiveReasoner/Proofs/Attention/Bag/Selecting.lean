import AttentiveReasoner.Proofs.Attention.Bag.Admission

/-!
Contract: all that taking an item out does to a bag.

Owns:
- the highest occupied level;
- which item is taken out of a bag with residents, and what is left alone;
- when a draw is made;
- taking out again and again: how often there is somebody to take out, and that the items
  taken out are those that were there.

Does not own: which of the occupied levels a draw chooses, and what the masses are. Everything here
holds for all masses, whatever rounding they have suffered, and for all draws.
-/

namespace AttentiveReasoner.Attention.Bag

open AttentiveReasoner.Numeric

variable {α ν : Type} [Item α ν] {bag after : Bag α} {key : String} {slot : Slot α} {item : α}
  {capacity level : Nat}

/-! ## The highest level -/

/-- The sum of the masses of the occupied levels. -/
def totalMass (bag : Bag α) : Float :=
  bag.occupied.foldl (fun total level => total + level.2) 0

/-- The occupied levels are listed from the weakest up. -/
theorem occupied_sorted (bag : Bag α) : (bag.occupied.map (·.1)).Pairwise (· < ·) := by
  have indexes : (bag.levels.zipIdx.map Prod.snd).Pairwise (· < ·) := by
    rw [List.zipIdx_map_snd]
    exact List.pairwise_lt_range'
  have isSublist : (bag.occupied.map (·.1)).Sublist (bag.levels.zipIdx.map Prod.snd) := by
    unfold occupied
    generalize bag.levels.zipIdx = entries
    induction entries with
    | nil => exact .slnil
    | cons first rest inductionHypothesis =>
        rw [List.filterMap_cons, List.map_cons]
        split
        · exact inductionHypothesis.cons _
        · rename_i level isOccupied
          split at isOccupied
          · contradiction
          · rw [← Option.some.inj isOccupied]
            exact inductionHypothesis.cons_cons _
  exact indexes.sublist isSublist

/-- A level where somebody queues is occupied. -/
theorem mem_occupied_of_queued (queues : bag.queueAt level ≠ []) :
    level ∈ bag.occupied.map (·.1) := by
  unfold queueAt at queues
  cases isLevel : bag.levels[level]? with
  | none =>
      rw [isLevel] at queues
      contradiction
  | some entry =>
      rw [isLevel] at queues
      have occupies : entry.queue.isEmpty = false := by simpa using queues
      apply List.mem_map.mpr
      refine ⟨(level, Double.positivePart entry.mass), ?_, rfl⟩
      apply List.mem_filterMap.mpr
      refine ⟨(entry, level), List.mem_zipIdx_iff_getElem?.mpr isLevel, ?_⟩
      simp [occupies]

/-- Nobody queues above the last of the occupied levels. -/
theorem le_highest {highest : Nat} (isLast : bag.occupied.getLast?.map (·.1) = some highest)
    (queues : bag.queueAt level ≠ []) : level ≤ highest := by
  have member := mem_occupied_of_queued queues
  have sorted := bag.occupied_sorted
  rw [← List.getLast?_map] at isLast
  generalize bag.occupied.map (·.1) = levels at member sorted isLast
  obtain ⟨lower, rfl⟩ := List.getLast?_eq_some_iff.mp isLast
  rcases List.mem_append.mp member with isLower | isHighest
  · have below := (List.pairwise_append.mp sorted).2.2 level isLower highest List.mem_cons_self
    exact Nat.le_of_lt below
  · exact Nat.le_of_eq (List.mem_singleton.mp isHighest)

/-! ## Taking out -/

/-- An item has been taken out of a bag: the resident in front of the queue of a level. The clock
has advanced by one, and nobody else has changed the slot, or the place among those behind. The
level is the highest one where anybody queues, if the total mass is negligible; a draw is made if
it is not. -/
structure Takes (bag : Bag α) (level : Nat) (item : α) (after : Bag α) : Prop where
  front : ∃ key waiting slot, bag.queueAt level = key :: waiting ∧
    bag.slot? key = some slot ∧ slot.item = item ∧ slot.level = level ∧
    (∀ other, after.slot? other = if other = key then none else bag.slot? other) ∧
    ∀ index, after.queueAt index = if index = level then waiting else bag.queueAt index
  removed : bag.items.Perm (item :: after.items)
  clock : after.clock = bag.clock + 1
  highest : bag.totalMass ≤ Double.epsilon →
    (∀ other, bag.queueAt other ≠ [] → other ≤ level) ∧ after.drawn = bag.drawn
  drawn : ¬bag.totalMass ≤ Double.epsilon → after.drawn = bag.drawn + 1
  settings : after.capacity = bag.capacity ∧ after.forgetCycles = bag.forgetCycles ∧
    after.defaultForgetCycles = bag.defaultForgetCycles ∧ after.floor = bag.floor ∧
    after.lastSerial = bag.lastSerial ∧ after.draws = bag.draws

theorem Takes.size_succ (takes : Takes bag level item after) : after.size + 1 = bag.size := by
  have fewer := takes.removed.length_eq
  rw [items, items, List.length_cons, List.length_map, List.length_map] at fewer
  exact fewer.symm

/-- Without a draw the highest occupied level is chosen. -/
theorem chooseLevel_of_negligible (negligible : bag.totalMass ≤ Double.epsilon) :
    bag.chooseLevel = (bag.occupied.getLast?.map (·.1), bag.drawn) := by
  have isNegligible : decide (bag.totalMass ≤ Double.epsilon) = true := decide_eq_true negligible
  unfold totalMass at isNegligible
  simp only [chooseLevel, isNegligible, Bool.or_true, if_true]

/-- A draw is counted. -/
theorem drawn_of_considerable (occupied : bag.occupied ≠ [])
    (considerable : ¬bag.totalMass ≤ Double.epsilon) :
    bag.chooseLevel.2 = bag.drawn + 1 := by
  have isConsiderable : decide (bag.totalMass ≤ Double.epsilon) = false :=
    decide_eq_false considerable
  have isOccupied : bag.occupied.isEmpty = false := by simpa using occupied
  unfold totalMass at isConsiderable
  simp only [chooseLevel, isConsiderable, isOccupied, Bool.or_false, Bool.false_eq_true, if_false]

/-- Nothing is taken out of an empty bag, and nothing is changed. Out of any other bag the item in
front of some level is taken. -/
theorem Consistent.takeOut_takes (consistent : bag.Consistent) :
    (bag.size = 0 ∧ bag.takeOut = (none, bag)) ∨
      ∃ level item, bag.takeOut.1 = some item ∧ Takes bag level item bag.takeOut.2 := by
  rcases consistent.takeOut_eq with ⟨nobody, result⟩ |
    ⟨level, key, waiting, slot, chosen, queued, resides, isLevel, result⟩
  · exact .inl ⟨by rw [size, nobody, List.length_nil], result⟩
  · have counted : bag.ticked.slot? key = some slot := resides
    have removed := remove_of_resident counted
    have slots := slot?_remove bag.ticked key
    have queues := queueAt_remove counted
    have items := consistent.ticked.items_remove counted
    rw [removed] at slots queues items
    refine .inr ⟨level, slot.item, by rw [result], ?_⟩
    rw [result]
    constructor
    case front =>
      refine ⟨key, waiting, slot, queued, resides, rfl, isLevel, slots, ?_⟩
      intro index
      have queuedTicked : bag.ticked.queueAt level = key :: waiting := queued
      rw [queues, isLevel]
      by_cases here : level = index
      · subst here
        rw [if_pos rfl, if_pos rfl, queuedTicked, List.erase_cons_head]
      · rw [if_neg here, if_neg (Ne.symm here)]
        rfl
    case removed => exact items
    case clock => rfl
    case highest =>
      intro negligible
      have choice := chooseLevel_of_negligible negligible
      rw [choice] at chosen
      refine ⟨fun other => le_highest chosen, ?_⟩
      change bag.chooseLevel.2 = bag.drawn
      rw [choice]
    case drawn => exact drawn_of_considerable (consistent.occupied_ne_nil resides)
    case settings => exact ⟨rfl, rfl, rfl, rfl, rfl, rfl⟩

/-! ## Taking out again and again -/

/-- The bag after items have been taken out a number of times. -/
def afterTaking (bag : Bag α) : (count : Nat) → Bag α
  | 0 => bag
  | count + 1 => (bag.afterTaking count).takeOut.2

/-- The items that are taken out one after the other. -/
def takings (bag : Bag α) (count : Nat) : List α :=
  (List.range count).filterMap fun index => (bag.afterTaking index).takeOut.1

theorem takings_succ (bag : Bag α) (count : Nat) :
    bag.takings (count + 1) =
      bag.takings count ++ (bag.afterTaking count).takeOut.1.toList := by
  unfold takings
  rw [List.range_succ, List.filterMap_append]
  cases taken : (bag.afterTaking count).takeOut.1 <;> simp [taken]

theorem Sound.afterTaking (sound : bag.Sound capacity) (count : Nat) :
    (bag.afterTaking count).Sound capacity := by
  induction count with
  | zero => exact sound
  | succ count inductionHypothesis => exact inductionHypothesis.takeOut

/-- Each time there is one less, until there is none. -/
theorem Sound.size_afterTaking (sound : bag.Sound capacity) (count : Nat) :
    (bag.afterTaking count).size = bag.size - count := by
  induction count with
  | zero => rfl
  | succ count inductionHypothesis =>
      show (bag.afterTaking count).takeOut.2.size = _
      rcases (sound.afterTaking count).consistent.takeOut_takes with
        ⟨nobody, result⟩ | ⟨level, item, _, takes⟩
      · rw [result]
        show (bag.afterTaking count).size = _
        omega
      · have fewer := takes.size_succ
        omega

/-- There is somebody to take out as often as there are residents. -/
theorem Sound.takeOut_isSome (sound : bag.Sound capacity) (count : Nat) :
    (bag.afterTaking count).takeOut.1.isSome = decide (count < bag.size) := by
  have size := sound.size_afterTaking count
  rcases (sound.afterTaking count).consistent.takeOut_takes with
    ⟨nobody, result⟩ | ⟨level, item, taken, takes⟩
  · have used : ¬count < bag.size := by omega
    rw [result, Option.isSome_none, decide_eq_false used]
  · have fewer := takes.size_succ
    have left : count < bag.size := by omega
    rw [taken, Option.isSome_some, decide_eq_true left]

/-- Who has been taken out, and who is still there, are all that were there. -/
theorem Sound.items_takings (sound : bag.Sound capacity) (count : Nat) :
    bag.items.Perm (bag.takings count ++ (bag.afterTaking count).items) := by
  induction count with
  | zero => exact .refl _
  | succ count inductionHypothesis =>
      rw [takings_succ, List.append_assoc]
      apply inductionHypothesis.trans
      apply List.Perm.append_left
      show (bag.afterTaking count).items.Perm
        ((bag.afterTaking count).takeOut.1.toList ++ (bag.afterTaking count).takeOut.2.items)
      rcases (sound.afterTaking count).consistent.takeOut_takes with
        ⟨_, result⟩ | ⟨level, item, taken, takes⟩
      · rw [result]
        exact .refl _
      · rw [taken]
        exact takes.removed

/-- Taking out as often as there are residents takes each of them once. -/
theorem Sound.takings_all (sound : bag.Sound capacity) :
    (bag.takings bag.size).Perm bag.items := by
  have all := sound.items_takings bag.size
  have empty : (bag.afterTaking bag.size).items = [] := by
    have size := sound.size_afterTaking bag.size
    unfold items
    rw [List.map_eq_nil_iff, ← List.length_eq_zero_iff]
    unfold Bag.size at size ⊢
    omega
  rw [empty, List.append_nil] at all
  exact all.symm

end AttentiveReasoner.Attention.Bag
