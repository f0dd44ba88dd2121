import AttentiveReasoner.Proofs.Attention.Bag.Selecting

/-!
Contract: turns, in which an item is taken out and put back at once, serve the residents of a level
one after the other.

Owns:
- the level of a key, and turns one after the other with the keys that are served;
- what a turn keeps: the residents, their levels and the values of their budgets;
- that a turn moves the key in front of one queue to its end;
- that what a level has served and its queue read the same from both ends, over any number of turns;
- the round robin that follows.

Does not own: which level has its turn. Everything here holds for all draws.

Nobody leaves as long as the bag does not forget and no resident is below the floor.
-/

namespace AttentiveReasoner.Attention.Bag

open AttentiveReasoner.Chance
open AttentiveReasoner.Evidence
open AttentiveReasoner.Language
open AttentiveReasoner.Numeric

variable {α ν : Type} [Item α ν] {bag middle after : Bag α} {key other : String} {slot : Slot α}
  {item : α} {capacity level count : Nat}

/-! ## Turns -/

/-- The level at which the resident of a key queues. -/
def level? (bag : Bag α) (key : String) : Option Nat :=
  (bag.slot? key).map (·.level)

/-- One turn: an item is taken out and put back at once. -/
def turn (bag : Bag α) : Placement α ν :=
  match bag.takeOut with
  | (none, bag) => { bag := bag }
  | (some item, bag) => bag.putBack item

/-- The bag after a number of turns. -/
def afterTurns (bag : Bag α) : (count : Nat) → Bag α
  | 0 => bag
  | count + 1 => bag.turn.bag.afterTurns count

/-- The keys that are served in a number of turns. -/
def turnKeys (bag : Bag α) : (count : Nat) → List String
  | 0 => []
  | count + 1 => (bag.takeOut.1.map Item.key).toList ++ bag.turn.bag.turnKeys count

/-- The bag does not forget, and no resident is below the floor. -/
structure Lasting (bag : Bag α) : Prop where
  noForgetting : bag.forgetCycles = 0
  aboveFloor : ∀ item ∈ bag.items, Single.less (Item.priority item) bag.floor = false

/-! ## What a turn keeps -/

/-- The same keys have residents, at the same levels and with the same budgets but for the times of
their placement. -/
structure Keeps (bag after : Bag α) : Prop where
  level?_eq : ∀ key, after.level? key = bag.level? key
  budget_eq : ∀ key slot, after.slot? key = some slot → ∃ earlier clock,
    bag.slot? key = some earlier ∧
      Item.budget slot.item = (Item.budget earlier.item).placedAt clock
  levels_length : after.levels.length = bag.levels.length
  forgetCycles_eq : after.forgetCycles = bag.forgetCycles
  floor_eq : after.floor = bag.floor

theorem Keeps.refl (bag : Bag α) : Keeps bag bag where
  level?_eq := fun _ => rfl
  budget_eq := fun _ slot resides => ⟨slot, (Item.budget slot.item).lastUpdate, resides, rfl⟩
  levels_length := rfl
  forgetCycles_eq := rfl
  floor_eq := rfl

theorem Keeps.trans (first : Keeps bag middle) (second : Keeps middle after) :
    Keeps bag after where
  level?_eq := fun key => (second.level?_eq key).trans (first.level?_eq key)
  budget_eq := by
    intro key slot resides
    obtain ⟨between, clock, residesBetween, budget⟩ := second.budget_eq key slot resides
    obtain ⟨earlier, _, residesEarlier, budgetBetween⟩ :=
      first.budget_eq key between residesBetween
    refine ⟨earlier, clock, residesEarlier, ?_⟩
    rw [budget, budgetBetween]
    rfl
  levels_length := second.levels_length.trans first.levels_length
  forgetCycles_eq := second.forgetCycles_eq.trans first.forgetCycles_eq
  floor_eq := second.floor_eq.trans first.floor_eq

theorem Keeps.lasting (keeps : Keeps bag after) (lasting : bag.Lasting)
    (consistent : bag.Consistent) (afterConsistent : after.Consistent) : after.Lasting where
  noForgetting := keeps.forgetCycles_eq.trans lasting.noForgetting
  aboveFloor := by
    intro item member
    obtain ⟨slot, resides, rfl⟩ := afterConsistent.mem_items_iff.mp member
    obtain ⟨earlier, clock, residesEarlier, budget⟩ := keeps.budget_eq _ slot resides
    have samePriority : Item.priority slot.item = Item.priority earlier.item := by
      unfold Item.priority
      rw [budget]
      rfl
    rw [samePriority, keeps.floor_eq]
    exact lasting.aboveFloor _ (consistent.mem_items_of_slot? residesEarlier).1

/-! ## One turn -/

theorem levels_length_remove (bag : Bag α) (key : String) :
    (bag.remove key).2.levels.length = bag.levels.length := by
  unfold remove
  split
  · rfl
  · exact List.length_modify ..

theorem levels_length_takeOut (bag : Bag α) :
    bag.takeOut.2.levels.length = bag.levels.length := by
  simp only [takeOut]
  split
  · rfl
  · split
    · rfl
    · exact levels_length_remove _ _

theorem placedSlot_level [LawfulItem α] (bag : Bag α) (item : α) (serial : Nat) :
    (bag.placedSlot item serial).level = levelOf bag.levels.length (Item.priority item) := by
  simp only [placedSlot, Item.priority, Item.budget_mapBudget]
  rfl

/-- A bag that does not forget returns an item with the budget that it had. -/
theorem budget_forget [LawfulItem α] (noForgetting : bag.forgetCycles = 0) (item : α) :
    Item.budget (bag.forget item) = Item.budget item := by
  rw [forget, Item.budget_mapBudget, noForgetting]
  rfl

theorem priority_forget [LawfulItem α] (noForgetting : bag.forgetCycles = 0) (item : α) :
    Item.priority (bag.forget item) = Item.priority item :=
  congrArg Budget.priority (budget_forget noForgetting item)

/-- What was taken out comes back, and nobody leaves for it. -/
theorem Sound.turn_eq [LawfulItem α] (sound : bag.Sound capacity) (lasting : bag.Lasting)
    (isTaken : bag.takeOut.1 = some item) (takes : Takes bag level item bag.takeOut.2) :
    bag.turn =
      { bag := bag.takeOut.2.placeNew (Item.key item) (bag.takeOut.2.forget item) } := by
  obtain ⟨found, _, others⟩ := sound.consistent.find?_takeOut isTaken
  obtain ⟨_, forgetCycles, _, floor, _⟩ := takes.settings
  have free : bag.takeOut.2.find? (Item.key item) = none := by rw [others, if_pos rfl]
  have room : bag.takeOut.2.size < bag.takeOut.2.capacity := by
    have fewer := takes.size_succ
    have bound := sound.size_le
    have sameCapacity := sound.takeOut.capacity_eq
    omega
  have strong : ¬Single.less (Item.priority (bag.takeOut.2.forget item)) bag.takeOut.2.floor =
      true := by
    rw [priority_forget (forgetCycles.trans lasting.noForgetting), floor, Bool.not_eq_true]
    exact lasting.aboveFloor item (sound.consistent.mem_of_find? found).1
  have returns : bag.turn = bag.takeOut.2.putBack item := by
    unfold turn
    rw [← Prod.eta bag.takeOut, isTaken]
  rw [returns, putBack_of_room free room, if_neg strong]

/-- In a turn the key in front of the queue of a level is served and moves to the end of the queue.
Nobody else moves, and nobody leaves. -/
structure Serves (bag : Bag α) (key : String) (level : Nat) (placement : Placement α ν) : Prop where
  level?_eq : bag.level? key = some level
  queue_eq : ∃ waiting, bag.queueAt level = key :: waiting ∧
    ∀ index, placement.bag.queueAt index =
      if index = level then waiting ++ [key] else bag.queueAt index
  departed : placement.departed = none
  keeps : Keeps bag placement.bag

/-- A resident that was removed is placed again, with the priority that it had. It returns to its
level. -/
theorem Consistent.placeNew_serves [LawfulItem α] {remaining : Bag α} {waiting : List String}
    (consistent : bag.Consistent) (resides : bag.slot? key = some slot)
    (queued : bag.queueAt slot.level = key :: waiting)
    (slots : ∀ other, remaining.slot? other = if other = key then none else bag.slot? other)
    (queues : ∀ index,
      remaining.queueAt index = if index = slot.level then waiting else bag.queueAt index)
    (levelCount : remaining.levels.length = bag.levels.length)
    (forgetCycles : remaining.forgetCycles = bag.forgetCycles)
    (floor : remaining.floor = bag.floor)
    (sameBudget : Item.budget item = Item.budget slot.item) :
    Serves bag key slot.level { bag := remaining.placeNew key item } := by
  have free : remaining.slot? key = none := by rw [slots, if_pos rfl]
  have placedLevel : (remaining.placedSlot item (remaining.lastSerial + 1)).level = slot.level := by
    have samePriority : Item.priority item = Item.priority slot.item :=
      congrArg Budget.priority sameBudget
    rw [placedSlot_level, levelCount, samePriority]
    exact (consistent.level_eq key slot resides).symm
  have slotsAfter : ∀ other, (remaining.placeNew key item).slot? other =
      if other = key then some (remaining.placedSlot item (remaining.lastSerial + 1))
      else remaining.slot? other := slot?_placeNew free
  constructor
  case level?_eq => rw [level?, resides, Option.map_some]
  case queue_eq =>
    refine ⟨waiting, queued, fun index => ?_⟩
    have positive : 0 < remaining.nextSerial.levels.length := by
      show 0 < remaining.levels.length
      rw [levelCount]
      exact consistent.levels_pos
    have placed : (remaining.placeNew key item).queueAt index =
        if slot.level = index then remaining.queueAt index ++ [key]
        else remaining.queueAt index := by
      rw [← placedLevel]
      exact queueAt_place index positive
    rw [placed, queues]
    by_cases here : index = slot.level
    · simp [here]
    · simp [here, Ne.symm here]
  case departed => rfl
  case keeps =>
    constructor
    case level?_eq =>
      intro other
      simp only [level?, slotsAfter, slots]
      by_cases same : other = key
      · rw [if_pos same, same, resides, Option.map_some, Option.map_some, placedLevel]
      · rw [if_neg same, if_neg same]
    case budget_eq =>
      intro other otherSlot resident
      rw [slotsAfter] at resident
      by_cases same : other = key
      · rw [if_pos same] at resident
        refine ⟨slot, remaining.clock, by rw [same, resides], ?_⟩
        rw [← Option.some.inj resident, placedSlot, Item.budget_mapBudget, sameBudget]
      · rw [if_neg same, slots, if_neg same] at resident
        exact ⟨otherSlot, (Item.budget otherSlot.item).lastUpdate, resident, rfl⟩
    case levels_length =>
      rw [← levelCount]
      exact List.length_modify ..
    case forgetCycles_eq => exact forgetCycles
    case floor_eq => exact floor

/-- A turn serves somebody, unless nobody is there. -/
theorem Sound.turn_serves [LawfulItem α] (sound : bag.Sound capacity) (lasting : bag.Lasting) :
    (bag.size = 0 ∧ bag.takeOut.1 = none ∧ bag.turn = { bag := bag }) ∨
      ∃ key level, bag.takeOut.1.map Item.key = some key ∧ Serves bag key level bag.turn := by
  rcases sound.consistent.takeOut_takes with ⟨nobody, result⟩ | ⟨level, item, isTaken, takes⟩
  · left
    simp [turn, result, nobody]
  · right
    have returned := sound.turn_eq lasting isTaken takes
    obtain ⟨key, waiting, slot, queued, resides, rfl, rfl, slots, queues⟩ := takes.front
    obtain ⟨_, forgetCycles, _, floor, _⟩ := takes.settings
    have keyed : Item.key slot.item = key := sound.consistent.key_item key slot resides
    refine ⟨key, slot.level, by rw [isTaken, Option.map_some, keyed], ?_⟩
    rw [returned, keyed]
    apply sound.consistent.placeNew_serves resides queued slots queues
      (levels_length_takeOut bag) forgetCycles floor
    exact budget_forget (forgetCycles.trans lasting.noForgetting) slot.item

theorem Sound.turn [LawfulItem α] (sound : bag.Sound capacity) :
    bag.turn.bag.Sound capacity := by
  have left := sound.takeOut
  unfold Bag.turn
  split
  · rename_i remaining result
    rw [result] at left
    exact left
  · rename_i item remaining result
    rw [result] at left
    exact left.putBack item

/-! ## Turns one after the other -/

/-- The keys of a level among those that are listed. -/
def atLevel (bag : Bag α) (level : Nat) (keys : List String) : List String :=
  keys.filter (fun key => bag.level? key = some level)

theorem Keeps.atLevel (keeps : Keeps bag after) : after.atLevel = bag.atLevel := by
  funext level keys
  simp only [Bag.atLevel, keeps.level?_eq]

/-- What turns keep from one to the next. -/
theorem Sound.turn_keeps [LawfulItem α] (sound : bag.Sound capacity) (lasting : bag.Lasting) :
    Keeps bag bag.turn.bag ∧ bag.turn.bag.Lasting ∧ bag.turn.departed = none := by
  rcases sound.turn_serves lasting with ⟨_, _, result⟩ | ⟨key, level, _, serves⟩
  · rw [result]
    exact ⟨.refl bag, lasting, rfl⟩
  · exact ⟨serves.keeps, serves.keeps.lasting lasting sound.consistent sound.turn.consistent,
      serves.departed⟩

theorem Sound.afterTurns [LawfulItem α] (sound : bag.Sound capacity) (lasting : bag.Lasting)
    (count : Nat) :
    (bag.afterTurns count).Sound capacity ∧ (bag.afterTurns count).Lasting ∧
      Keeps bag (bag.afterTurns count) := by
  induction count generalizing bag with
  | zero => exact ⟨sound, lasting, .refl bag⟩
  | succ count inductionHypothesis =>
      obtain ⟨keeps, stillLasting, _⟩ := sound.turn_keeps lasting
      obtain ⟨later, laterLasting, keepsLater⟩ := inductionHypothesis sound.turn stillLasting
      exact ⟨later, laterLasting, keeps.trans keepsLater⟩

theorem Consistent.size_eq_zero_iff (consistent : bag.Consistent) :
    bag.size = 0 ↔ ∀ key, bag.level? key = none := by
  have nobody : bag.size = 0 ↔ ∀ key, key ∉ bag.names := by
    rw [← consistent.card_names, Finset.card_eq_zero, Finset.eq_empty_iff_forall_notMem]
  rw [nobody]
  apply forall_congr'
  intro key
  rw [not_mem_names, find?_eq_none_iff, level?, Option.map_eq_none_iff]

/-- Every turn serves exactly one, unless nobody is there. -/
theorem Sound.turnKeys_length [LawfulItem α] (sound : bag.Sound capacity) (lasting : bag.Lasting)
    (occupied : bag.size ≠ 0) (count : Nat) : (bag.turnKeys count).length = count := by
  induction count generalizing bag with
  | zero => rfl
  | succ count inductionHypothesis =>
      rcases sound.turn_serves lasting with ⟨nobody, _⟩ | ⟨key, level, isTaken, serves⟩
      · exact absurd nobody occupied
      · obtain ⟨keeps, stillLasting, _⟩ := sound.turn_keeps lasting
        have stillOccupied : bag.turn.bag.size ≠ 0 := by
          rw [Ne, sound.turn.consistent.size_eq_zero_iff]
          intro nobody
          have resides := keeps.level?_eq key
          rw [nobody, serves.level?_eq] at resides
          contradiction
        unfold turnKeys
        rw [isTaken, Option.toList_some, List.singleton_append, List.length_cons,
          inductionHypothesis sound.turn stillLasting stillOccupied]

/-- The keys that a level serves come out of its queue in front and join it behind. So the queue
followed by what was served is what was served followed by the later queue. -/
theorem Sound.queueAt_append_served [LawfulItem α] (sound : bag.Sound capacity)
    (lasting : bag.Lasting) (level count : Nat) :
    bag.queueAt level ++ bag.atLevel level (bag.turnKeys count) =
      bag.atLevel level (bag.turnKeys count) ++ (bag.afterTurns count).queueAt level := by
  induction count generalizing bag with
  | zero =>
      show bag.queueAt level ++ [] = bag.queueAt level
      exact List.append_nil _
  | succ count inductionHypothesis =>
      obtain ⟨_, stillLasting, _⟩ := sound.turn_keeps lasting
      have later := inductionHypothesis sound.turn stillLasting
      show bag.queueAt level ++ bag.atLevel level (bag.turnKeys (count + 1)) =
        bag.atLevel level (bag.turnKeys (count + 1)) ++
          (bag.turn.bag.afterTurns count).queueAt level
      unfold turnKeys
      rcases sound.turn_serves lasting with ⟨_, nobody, result⟩ | ⟨key, served, isTaken, serves⟩
      · rw [result] at later ⊢
        rw [nobody]
        exact later
      · obtain ⟨waiting, queued, queues⟩ := serves.queue_eq
        rw [serves.keeps.atLevel, queues] at later
        rw [isTaken, Option.toList_some, List.singleton_append]
        by_cases here : level = served
        · subst here
          have first : bag.atLevel level (key :: bag.turn.bag.turnKeys count) =
              key :: bag.atLevel level (bag.turn.bag.turnKeys count) := by
            simp [Bag.atLevel, serves.level?_eq]
          rw [if_pos rfl, List.append_assoc, List.singleton_append] at later
          rw [first, queued, List.cons_append, later, List.cons_append]
        · have notHere : bag.atLevel level (key :: bag.turn.bag.turnKeys count) =
              bag.atLevel level (bag.turn.bag.turnKeys count) := by
            simp [Bag.atLevel, serves.level?_eq, Ne.symm here]
          rw [if_neg here] at later
          rw [notHere, later]

/-! ## Stretches of turns -/

theorem turnKeys_add (bag : Bag α) (first second : Nat) :
    bag.turnKeys (first + second) =
      bag.turnKeys first ++ (bag.afterTurns first).turnKeys second := by
  induction first generalizing bag with
  | zero => rw [Nat.zero_add]; rfl
  | succ first inductionHypothesis =>
      rw [Nat.succ_add]
      show (bag.takeOut.1.map Item.key).toList ++ bag.turn.bag.turnKeys (first + second) = _
      rw [inductionHypothesis, ← List.append_assoc]
      rfl

/-- Whoever is served resides in the bag, before as afterwards. -/
theorem Sound.level?_of_served [LawfulItem α] (sound : bag.Sound capacity) (lasting : bag.Lasting)
    (served : key ∈ bag.turnKeys count) : ∃ level, bag.level? key = some level := by
  induction count generalizing bag with
  | zero => contradiction
  | succ count inductionHypothesis =>
      obtain ⟨keeps, stillLasting, _⟩ := sound.turn_keeps lasting
      rcases List.mem_append.mp served with first | later
      · rcases sound.turn_serves lasting with ⟨_, nobody, _⟩ | ⟨front, level, isTaken, serves⟩
        · rw [nobody] at first
          contradiction
        · rw [isTaken, Option.toList_some, List.mem_singleton] at first
          exact ⟨level, by rw [first, serves.level?_eq]⟩
      · obtain ⟨level, isLevel⟩ := inductionHypothesis sound.turn stillLasting later
        exact ⟨level, by rw [← keeps.level?_eq, isLevel]⟩

/-- A stretch of turns may be cut behind any of the keys that were served. -/
theorem Sound.turnKeys_split [LawfulItem α] (sound : bag.Sound capacity) (lasting : bag.Lasting)
    {earlier later : List String} (served : bag.turnKeys count = earlier ++ later) :
    ∃ rest, bag.turnKeys earlier.length = earlier ∧
      (bag.afterTurns earlier.length).turnKeys rest = later := by
  cases earlier with
  | nil => exact ⟨count, rfl, served⟩
  | cons first others =>
      have firstServed : first ∈ bag.turnKeys count := by
        rw [served]
        exact List.mem_append_left _ List.mem_cons_self
      have occupied : bag.size ≠ 0 := by
        obtain ⟨level, isLevel⟩ := sound.level?_of_served lasting firstServed
        rw [Ne, sound.consistent.size_eq_zero_iff]
        intro nobody
        rw [nobody] at isLevel
        contradiction
      have lengths := sound.turnKeys_length lasting occupied
      have total : count = (first :: others).length + later.length := by
        rw [← lengths count, served, List.length_append]
      have split := turnKeys_add bag (first :: others).length later.length
      rw [← total, served] at split
      obtain ⟨same, rest⟩ := List.append_inj split (lengths _).symm
      exact ⟨later.length, same.symm, rest.symm⟩

theorem Consistent.mem_queueAt_iff (consistent : bag.Consistent) :
    key ∈ bag.queueAt level ↔ bag.level? key = some level := by
  rw [consistent.mem_queueAt, level?, Option.map_eq_some_iff]

/-- After its turn a key is the last one of its queue. -/
theorem Sound.served_last [LawfulItem α] (sound : bag.Sound capacity) (lasting : bag.Lasting)
    {earlier : List String} (served : bag.turnKeys count = earlier ++ [key])
    (isLevel : bag.level? key = some level) :
    ∃ waiting, (bag.afterTurns count).queueAt level = waiting ++ [key] := by
  obtain ⟨laterSound, _, keeps⟩ := sound.afterTurns lasting count
  have queues : (bag.afterTurns count).queueAt level ≠ [] := by
    apply List.ne_nil_of_mem (laterSound.consistent.mem_queueAt_iff.mpr _)
    · exact key
    · rw [keeps.level?_eq, isLevel]
  have servedHere : bag.atLevel level (earlier ++ [key]) = bag.atLevel level earlier ++ [key] := by
    simp [Bag.atLevel, isLevel]
  have turns := sound.queueAt_append_served lasting level count
  rw [served, servedHere, ← List.append_assoc] at turns
  have lasts := congrArg List.getLast? turns
  rw [List.getLast?_concat, List.getLast?_append_of_ne_nil _ queues] at lasts
  exact List.getLast?_eq_some_iff.mp lasts.symm

/-- What stands before the first occurrence is determined. -/
theorem before_first_unique {before after otherBefore otherAfter : List String}
    (same : before ++ key :: after = otherBefore ++ key :: otherAfter)
    (first : key ∉ before) (otherFirst : key ∉ otherBefore) : before = otherBefore := by
  have upToKey := congrArg (List.takeWhile (fun other => other ≠ key)) same
  rw [List.takeWhile_append_of_pos, List.takeWhile_append_of_pos] at upToKey
  · simpa using upToKey
  · intro other member
    exact decide_eq_true fun isKey => otherFirst (isKey ▸ member)
  · intro other member
    exact decide_eq_true fun isKey => first (isKey ▸ member)

/-- Between two turns of a key, one after the other, everybody else of its level has one turn. -/
theorem Sound.count_between [LawfulItem α] (sound : bag.Sound capacity) (lasting : bag.Lasting)
    {earlier between later : List String}
    (served : bag.turnKeys count = earlier ++ key :: (between ++ key :: later))
    (consecutive : key ∉ between) (different : other ≠ key)
    (sameLevel : bag.level? other = bag.level? key) : between.count other = 1 := by
  have keyServed : key ∈ bag.turnKeys count := by simp [served]
  obtain ⟨level, isLevel⟩ := sound.level?_of_served lasting keyServed
  rw [isLevel] at sameLevel
  have cut : bag.turnKeys count = (earlier ++ [key]) ++ (between ++ key :: later) := by
    simp [served]
  obtain ⟨rest, firstTurns, laterTurns⟩ := sound.turnKeys_split lasting cut
  obtain ⟨waiting, isQueue⟩ := sound.served_last lasting firstTurns isLevel
  obtain ⟨middleSound, middleLasting, keeps⟩ := sound.afterTurns lasting (earlier ++ [key]).length
  generalize bag.afterTurns (earlier ++ [key]).length = middle at *
  have keyHere : middle.level? key = some level := by rw [keeps.level?_eq, isLevel]
  have otherHere : middle.level? other = some level := by rw [keeps.level?_eq, sameLevel]
  have distinct := middleSound.consistent.queue_nodup level
  rw [isQueue, List.nodup_append] at distinct
  -- Up to its next turn those that wait before the key are served, in this order.
  have isServed : waiting = middle.atLevel level between := by
    have servedNext : middle.atLevel level (between ++ key :: later) =
        middle.atLevel level between ++ key :: middle.atLevel level later := by
      simp [Bag.atLevel, keyHere]
    have turns := middleSound.queueAt_append_served middleLasting level rest
    rw [laterTurns, isQueue, servedNext] at turns
    simp only [List.append_assoc, List.cons_append, List.nil_append] at turns
    apply before_first_unique turns
    · exact fun waits => distinct.2.2 key waits key (by simp) rfl
    · exact fun member => consecutive (List.mem_filter.mp member).1
  have otherWaits : other ∈ waiting := by
    have queues := middleSound.consistent.mem_queueAt_iff.mpr otherHere
    rw [isQueue] at queues
    simpa [different] using queues
  calc
    between.count other = (middle.atLevel level between).count other :=
      (List.count_filter (by simpa using otherHere)).symm
    _ = waiting.count other := by rw [isServed]
    _ = 1 := List.count_eq_one_of_mem distinct.1 otherWaits

/-! ## A single level -/

/-- Everybody queues at the only level. -/
theorem Consistent.queueAt_single (consistent : bag.Consistent) (single : bag.levels.length = 1) :
    (bag.queueAt 0).Perm (bag.slots.map (·.1)) := by
  apply (List.perm_ext_iff_of_nodup (consistent.queue_nodup 0) consistent.keys_nodup).mpr
  intro key
  have isName : key ∈ bag.slots.map (·.1) ↔ ∃ item, bag.find? key = some item := by
    rw [← mem_names, names, List.mem_toFinset]
  rw [consistent.mem_queueAt, isName]
  constructor
  · rintro ⟨slot, resides, _⟩
    exact ⟨slot.item, by rw [find?, resides, Option.map_some]⟩
  · rintro ⟨item, found⟩
    obtain ⟨slot, resides, _⟩ := slot?_eq_some_of_find? found
    have bound := consistent.level_lt key slot resides
    exact ⟨slot, resides, by omega⟩

/-- As many turns as there are residents serve the queue of the only level, and restore it. -/
theorem Sound.turns_single [LawfulItem α] (sound : bag.Sound capacity) (lasting : bag.Lasting)
    (single : bag.levels.length = 1) :
    bag.turnKeys bag.size = bag.queueAt 0 ∧
      (bag.afterTurns bag.size).queueAt 0 = bag.queueAt 0 := by
  have wholeQueue : (bag.queueAt 0).length = bag.size := by
    rw [(sound.consistent.queueAt_single single).length_eq, List.length_map, size]
  have wholeStretch : (bag.turnKeys bag.size).length = bag.size := by
    by_cases occupied : bag.size = 0
    · rw [occupied]
      rfl
    · exact sound.turnKeys_length lasting occupied bag.size
  have allServed : bag.atLevel 0 (bag.turnKeys bag.size) = bag.turnKeys bag.size := by
    apply List.filter_eq_self.mpr
    intro key served
    obtain ⟨level, isLevel⟩ := sound.level?_of_served lasting served
    obtain ⟨slot, resides, sameLevel⟩ := Option.map_eq_some_iff.mp isLevel
    have bound := sound.consistent.level_lt key slot resides
    have onlyLevel : level = 0 := by omega
    simp [isLevel, onlyLevel]
  have turns := sound.queueAt_append_served lasting 0 bag.size
  rw [allServed] at turns
  obtain ⟨served, restored⟩ := List.append_inj turns (wholeQueue.trans wholeStretch.symm)
  exact ⟨served.symm, by rw [← restored, served]⟩

/-! ## Round robin -/

/-- Turns serve the residents of every level by rotation. In each turn somebody is served, nobody
leaves, and nobody changes the level or the budget but for the time of placement. Between two turns
of a key, one after the other, everybody else of its level is served once. If there is only one
level, as many turns as there are residents serve everybody once, in the order of the queue, and
restore the queue. -/
structure RoundRobin (bag : Bag α) : Prop where
  serves : bag.size ≠ 0 → ∀ count, (bag.turnKeys count).length = count
  departed : ∀ count, (bag.afterTurns count).turn.departed = none
  keeps : ∀ count, Keeps bag (bag.afterTurns count)
  rotates : ∀ count level,
    bag.queueAt level ++ bag.atLevel level (bag.turnKeys count) =
      bag.atLevel level (bag.turnKeys count) ++ (bag.afterTurns count).queueAt level
  between : ∀ count earlier between later key,
    bag.turnKeys count = earlier ++ key :: (between ++ key :: later) → key ∉ between →
      ∀ other, other ≠ key → bag.level? other = bag.level? key → between.count other = 1
  single : bag.levels.length = 1 →
    bag.turnKeys bag.size = bag.queueAt 0 ∧
      (bag.turnKeys bag.size).Perm (bag.slots.map (·.1)) ∧
        (bag.afterTurns bag.size).queueAt 0 = bag.queueAt 0

theorem Sound.roundRobin [LawfulItem α] (sound : bag.Sound capacity) (lasting : bag.Lasting) :
    bag.RoundRobin where
  serves := sound.turnKeys_length lasting
  departed := by
    intro count
    obtain ⟨laterSound, laterLasting, _⟩ := sound.afterTurns lasting count
    exact (laterSound.turn_keeps laterLasting).2.2
  keeps := fun count => (sound.afterTurns lasting count).2.2
  rotates := fun count level => sound.queueAt_append_served lasting level count
  between := fun _ _ _ _ _ served consecutive _ different sameLevel =>
    sound.count_between lasting served consecutive different sameLevel
  single := by
    intro single
    obtain ⟨served, restored⟩ := sound.turns_single lasting single
    refine ⟨served, ?_, restored⟩
    rw [served]
    exact sound.consistent.queueAt_single single

/-- Whatever a bag was made for, whatever has been done to it, and whatever is drawn: if it does not
forget and nobody in it is below the floor, its turns go round. -/
theorem run_roundRobin [LawfulItem α] (config : BagConfig) (draws : Draws)
    (operations : List (Operation α))
    (lasting : ((Bag.empty config draws).run operations).Lasting) :
    ((Bag.empty config draws).run operations).RoundRobin :=
  ((empty_sound config draws).run operations).roundRobin lasting

/-- In a full bag of two levels the weaker task is drawn at every third turn. The two others, of one
level, have the turns between in alternation. -/
theorem alternating_roundRobin :
    let judgment := fun (name : String) (percent : Nat) =>
      (⟨⟨Term.atom 0 name, .judgment, .input 1 0⟩,
        .corrected (Single.hundredths percent) Single.one Single.zero, .derived⟩ : Task)
    let bag := (Bag.empty { capacity := 3, forgetCycles := 0, levels := 2 }
      (fun drawn => if drawn % 3 = 0 then 0 else 0xFFFFFFFFFFFFFFFF)).run
        [.put (judgment "a" 30), .put (judgment "b" 70), .put (judgment "c" 90)]
    bag.Lasting ∧ bag.RoundRobin ∧
      bag.turnKeys 7 = ["a.", "b.", "c.", "a.", "b.", "c.", "a."] :=
  ⟨⟨rfl, by decide +kernel⟩, run_roundRobin { capacity := 3, forgetCycles := 0, levels := 2 } _ _
    ⟨rfl, by decide +kernel⟩, by decide +kernel⟩

end AttentiveReasoner.Attention.Bag
