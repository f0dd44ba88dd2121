import AttentiveReasoner.Proofs.Attention.Bag.Lookup
import AttentiveReasoner.Proofs.Attention.Fading

/-!
Contract: what becomes of a priority while items are taken out of a bag and put back.

Owns:
- what putting an item back under a free key comes to;
- a bag in use, with the items that are out of it, and its runs;
- that nobody is pushed out of a bag by those who return: a key is gone only if its priority fell
  below the floor;
- that the priority of a key never rises along such a run, until the key is gone.

Does not own: items that are put in, picked or changed by anybody else.

Nothing is assumed of the rate of forgetting, which may be changed on the way, nor of the clock,
which every item that is taken out moves on for all the others.
-/

namespace AttentiveReasoner.Attention

open AttentiveReasoner.Chance
open AttentiveReasoner.Evidence
open AttentiveReasoner.Knowledge
open AttentiveReasoner.Language
open AttentiveReasoner.Numeric

namespace Budget

/-- What becomes of the budget of a key: it is gone, or it was lowered. What is gone stays so. -/
inductive Falls : Option Budget → Option Budget → Prop
  | gone (before : Option Budget) : Falls before none
  | lowered {budget later : Budget} (lowers : budget.InRange → LoweredFrom budget later) :
      Falls (some budget) (some later)

theorem Falls.refl (before : Option Budget) : Falls before before := by
  cases before with
  | none => exact .gone none
  | some budget => exact .lowered .refl

theorem Falls.trans {before middle after : Option Budget} (first : Falls before middle)
    (second : Falls middle after) : Falls before after := by
  cases second with
  | gone => exact .gone before
  | lowered further =>
      cases first with
      | lowered lowers =>
          refine .lowered fun inRange => ?_
          have middleLowered := lowers inRange
          exact middleLowered.trans (further middleLowered.inRange)

end Budget

namespace Bag

variable {α ν : Type} [Item α ν] {bag : Bag α} {item : α} {capacity : ℕ} {key : String}

/-! ## Putting back -/

theorem budget_forgotten [LawfulItem α] (bag : Bag α) (item : α) :
    Item.budget (bag.forget item) =
      (Item.budget item).fade bag.forgetCycles bag.clock :=
  LawfulItem.budget_withBudget _ _

theorem key_forget [LawfulItem α] (bag : Bag α) (item : α) :
    Item.key (bag.forget item) = Item.key item :=
  Item.key_mapBudget _ _

theorem forget_lowers [LawfulItem α] (bag : Bag α) (inRange : (Item.budget item).InRange) :
    Budget.LoweredFrom (Item.budget item) (Item.budget (bag.forget item)) := by
  rw [budget_forgotten]
  exact inRange.fade_lowers _ _

theorem placed_forget_lowers [LawfulItem α] (bag : Bag α) (inRange : (Item.budget item).InRange) :
    Budget.LoweredFrom (Item.budget item) (Item.budget (bag.placed (bag.forget item))) := by
  rw [budget_placed]
  exact (forget_lowers bag inRange).placedAt _

/-- What putting an item back comes to. It is lowered, and left alone without cycles of forgetting.
Below the floor it leaves and the bag is as it was; otherwise it is put in. Wherever it is
afterwards, its priority is not above the one before. -/
structure PutsBack (bag : Bag α) (item : α) : Prop where
  key_eq : Item.key (bag.forget item) = Item.key item
  lowered : Budget.LoweredFrom (Item.budget item) (Item.budget (bag.forget item))
  unchanged : bag.forgetCycles = 0 → Item.budget (bag.forget item) = Item.budget item
  outcome : bag.putBack item =
    if Single.less (Item.priority (bag.forget item)) bag.floor then
      { bag := bag, departed := some (bag.forget item) }
    else bag.put (bag.forget item)
  remains : ∀ other,
    other ∈ (bag.putBack item).bag.items ∨ (bag.putBack item).departed = some other →
      Item.key other = Item.key item →
        Budget.LoweredFrom (Item.budget item) (Item.budget other)

theorem Consistent.putsBack [LawfulItem α] (consistent : bag.Consistent)
    (free : bag.find? (Item.key item) = none) (inRange : (Item.budget item).InRange) :
    PutsBack bag item where
  key_eq := key_forget bag item
  lowered := forget_lowers bag inRange
  unchanged := by
    intro noForgetting
    rw [budget_forgotten, noForgetting]
    rfl
  outcome := rfl
  remains := by
    have keysDiffer : ∀ other ∈ bag.items, Item.key other ≠ Item.key item := by
      intro other member sameKey
      obtain ⟨slot, resides, _⟩ := consistent.mem_items_iff.mp member
      rw [sameKey, find?_eq_none_iff.mp free] at resides
      contradiction
    intro other remains sameKey
    rcases putBack_cases bag item with isResult | isResult
    · rw [isResult] at remains
      rcases remains with member | departs
      · exact absurd sameKey (keysDiffer other member)
      · obtain rfl := Option.some.inj departs
        exact forget_lowers bag inRange
    · rw [isResult] at remains
      obtain ⟨entering, admits⟩ := consistent.put_admits (bag.forget item)
      rcases admits.origin with ⟨rfl, _⟩ | ⟨resident, member, residentKey, _⟩
      · rcases (admits.mem_iff other).mp remains with rfl | ⟨member, _⟩
        · exact placed_forget_lowers bag inRange
        · exact absurd sameKey (keysDiffer other member)
      · rw [key_forget] at residentKey
        exact absurd residentKey (keysDiffer resident member)

end Bag

/-! ## A bag in use -/

/-- A bag, and the items that were taken out of it and are not back. -/
structure Circulation (α : Type) where
  bag : Bag α
  away : List α := []

/-- A step of using a bag. Whoever holds an item may put it back at any time; the rate of forgetting
may be changed. -/
inductive Use where
  | takeOut
  | putBack (key : String)
  | setForgetCycles (cycles : ℕ)
  | resetForgetCycles

namespace Circulation

variable {α ν : Type} [Item α ν] {state : Circulation α} {item : α} {capacity : ℕ}
  {key other : String}

/-- The item of a key that is away. -/
def away? (state : Circulation α) (key : String) : Option α :=
  state.away.find? (fun item => Item.key item = key)

/-- The item of a key, in the bag or away. -/
def item? (state : Circulation α) (key : String) : Option α :=
  (state.bag.find? key).or (state.away? key)

/-- The budget of a key. -/
def budget? (state : Circulation α) (key : String) : Option Budget :=
  (state.item? key).map Item.budget

/-- The bag in use after a step. Putting back under a key of which nothing is away does nothing. -/
def step (state : Circulation α) : Use → Circulation α
  | .takeOut =>
      { bag := state.bag.takeOut.2, away := state.bag.takeOut.1.toList ++ state.away }
  | .putBack key =>
      match state.away? key with
      | none => state
      | some item =>
          { bag := (state.bag.putBack item).bag
            away := state.away.filter (fun item => Item.key item ≠ key) }
  | .setForgetCycles cycles => { state with bag := state.bag.setForgetCycles cycles }
  | .resetForgetCycles => { state with bag := state.bag.resetForgetCycles }

/-- The bag in use after steps one after the other. -/
def after (state : Circulation α) (uses : List Use) : Circulation α :=
  uses.foldl step state

/-- The budgets of a key, before and after every step. -/
def course (state : Circulation α) (key : String) : List Use → List (Option Budget)
  | [] => [state.budget? key]
  | use :: rest => state.budget? key :: (state.step use).course key rest

/-- A key is in the bag or away, not both, and there is room for all who are away. -/
structure Fits (capacity : ℕ) (state : Circulation α) : Prop where
  sound : state.bag.Sound capacity
  room : state.bag.size + state.away.length ≤ capacity
  keys_nodup : (state.away.map Item.key).Nodup
  apart : ∀ item ∈ state.away, state.bag.find? (Item.key item) = none

theorem away?_spec (isAway : state.away? key = some item) :
    item ∈ state.away ∧ Item.key item = key :=
  ⟨List.mem_of_find?_eq_some isAway, by simpa using List.find?_some isAway⟩

/-! ### Taking out -/

theorem step_takeOut_none (nothing : state.bag.takeOut.1 = none) :
    state.step .takeOut = { bag := state.bag.takeOut.2, away := state.away } := by
  simp only [step, nothing]
  rfl

theorem step_takeOut_some (isTaken : state.bag.takeOut.1 = some item) :
    state.step .takeOut = { bag := state.bag.takeOut.2, away := item :: state.away } := by
  simp only [step, isTaken]
  rfl

/-- Whoever is taken out was in the bag, and is away. -/
theorem Fits.item?_takeOut (fits : Fits capacity state) (key : String) :
    (state.step .takeOut).item? key = state.item? key := by
  cases isTaken : state.bag.takeOut.1 with
  | none =>
      rw [step_takeOut_none isTaken]
      unfold item? Bag.find? Bag.slot?
      rw [(Bag.takeOut_none isTaken).1]
      rfl
  | some item =>
      obtain ⟨resides, _, others⟩ := fits.sound.consistent.find?_takeOut isTaken
      rw [step_takeOut_some isTaken]
      unfold item? away?
      rw [others, List.find?_cons]
      by_cases same : key = Item.key item
      · rw [if_pos same, same, resides]
        simp
      · have different : decide (Item.key item = key) = false :=
          decide_eq_false (Ne.symm same)
        rw [if_neg same, different]

theorem Fits.takeOut (fits : Fits capacity state) : Fits capacity (state.step .takeOut) := by
  cases isTaken : state.bag.takeOut.1 with
  | none =>
      have slots := (Bag.takeOut_none isTaken).1
      rw [step_takeOut_none isTaken]
      refine ⟨fits.sound.takeOut, ?_, fits.keys_nodup, ?_⟩
      · have room := fits.room
        unfold Bag.size at room ⊢
        rwa [slots]
      · intro item isAway
        have free := fits.apart item isAway
        unfold Bag.find? Bag.slot? at free ⊢
        rwa [slots]
  | some item =>
      obtain ⟨resides, smaller, others⟩ := fits.sound.consistent.find?_takeOut isTaken
      rw [step_takeOut_some isTaken]
      refine ⟨fits.sound.takeOut, ?_, ?_, ?_⟩
      · have room := fits.room
        show state.bag.takeOut.2.size + (state.away.length + 1) ≤ capacity
        omega
      · rw [List.map_cons, List.nodup_cons]
        refine ⟨?_, fits.keys_nodup⟩
        intro member
        obtain ⟨other, isAway, sameKey⟩ := List.mem_map.mp member
        have free := fits.apart other isAway
        rw [sameKey, resides] at free
        contradiction
      · intro other isAway
        rw [others]
        rcases List.mem_cons.mp isAway with rfl | earlier
        · exact if_pos rfl
        · rw [fits.apart other earlier, ite_self]

/-! ### Putting back -/

/-- The key of whoever is away is free, and there is room for one more. -/
theorem Fits.room_for (fits : Fits capacity state) (isAway : state.away? key = some item) :
    state.bag.find? (Item.key item) = none ∧ state.bag.size < state.bag.capacity := by
  obtain ⟨member, _⟩ := away?_spec isAway
  have bound := fits.room
  have someAway := List.length_pos_of_mem member
  have isCapacity := fits.sound.capacity_eq
  exact ⟨fits.apart item member, by omega⟩

/-- Who returns is back as the bag forgets it, unless that is below the floor. Nobody else is
touched. -/
theorem Fits.find?_putBack [LawfulItem α] (fits : Fits capacity state)
    (isAway : state.away? key = some item) (other : String) :
    (state.bag.putBack item).bag.find? other =
      if other = key then state.bag.returning item else state.bag.find? other := by
  obtain ⟨free, room⟩ := fits.room_for isAway
  obtain ⟨_, rfl⟩ := away?_spec isAway
  rw [Bag.putBack_of_room free room]
  unfold Bag.returning
  split
  · split
    · rename_i same
      rw [same, free]
    · rfl
  · exact Bag.find?_placeNew free other

theorem step_putBack_some (isAway : state.away? key = some item) :
    state.step (.putBack key) =
      { bag := (state.bag.putBack item).bag
        away := state.away.filter (fun item => Item.key item ≠ key) } := by
  simp only [step, isAway]

theorem find?_without (items : List α) (key other : String) :
    (items.filter (fun item => Item.key item ≠ key)).find? (fun item => Item.key item = other) =
      if other = key then none else items.find? (fun item => Item.key item = other) := by
  induction items with
  | nil => simp
  | cons first rest inductionHypothesis =>
      rw [List.filter_cons, List.find?_cons]
      by_cases isKey : Item.key first = key
      · rw [if_neg (by simp [isKey]), inductionHypothesis]
        split
        · rfl
        · rename_i different
          have isOther : decide (Item.key first = other) = false :=
            decide_eq_false (isKey ▸ Ne.symm different)
          rw [isOther]
      · rw [if_pos (by simp [isKey]), List.find?_cons, inductionHypothesis]
        split
        · rename_i isOther
          rw [if_neg (fun same => isKey ((of_decide_eq_true isOther).trans same))]
        · rfl

theorem Fits.item?_away (fits : Fits capacity state) (isAway : state.away? key = some item) :
    state.item? key = some item := by
  obtain ⟨free, _⟩ := fits.room_for isAway
  obtain ⟨_, rfl⟩ := away?_spec isAway
  unfold item?
  rw [free]
  exact isAway

theorem Fits.item?_putBack [LawfulItem α] (fits : Fits capacity state)
    (isAway : state.away? key = some item) (other : String) :
    (state.step (.putBack key)).item? other =
      if other = key then state.bag.returning item else state.item? other := by
  rw [step_putBack_some isAway]
  unfold item? away?
  rw [fits.find?_putBack isAway, find?_without]
  split
  · exact Option.or_none
  · rfl

theorem Fits.putBack [LawfulItem α] (fits : Fits capacity state)
    (isAway : state.away? key = some item) : Fits capacity (state.step (.putBack key)) := by
  obtain ⟨member, sameKey⟩ := away?_spec isAway
  obtain ⟨free, room⟩ := fits.room_for isAway
  rw [step_putBack_some isAway]
  refine ⟨fits.sound.putBack item, ?_, ?_, ?_⟩
  · have bound := fits.room
    have fewer : (state.away.filter (fun item => Item.key item ≠ key)).length <
        state.away.length :=
      List.length_filter_lt_length_iff_exists.mpr ⟨item, member, by simp [sameKey]⟩
    have oneMore : (state.bag.putBack item).bag.size ≤ state.bag.size + 1 := by
      rw [Bag.putBack_of_room free room]
      split
      · exact Nat.le_succ _
      · exact (Bag.size_place).le
    show (state.bag.putBack item).bag.size +
      (state.away.filter (fun item => Item.key item ≠ key)).length ≤ capacity
    omega
  · exact fits.keys_nodup.sublist (List.filter_sublist.map _)
  · intro other isOther
    obtain ⟨otherMember, different⟩ := List.mem_filter.mp isOther
    rw [fits.find?_putBack isAway, if_neg (of_decide_eq_true different)]
    exact fits.apart other otherMember

/-! ### Runs -/

theorem step_putBack_none (nobody : state.away? key = none) :
    state.step (.putBack key) = state := by
  simp only [step, nobody]

theorem Fits.step [LawfulItem α] (fits : Fits capacity state) (use : Use) :
    Fits capacity (state.step use) := by
  cases use with
  | takeOut => exact fits.takeOut
  | putBack key =>
      cases isAway : state.away? key with
      | none => rwa [step_putBack_none isAway]
      | some item => exact fits.putBack isAway
  | setForgetCycles cycles =>
      exact ⟨fits.sound.perform (.setForgetCycles cycles), fits.room, fits.keys_nodup, fits.apart⟩
  | resetForgetCycles =>
      exact ⟨fits.sound.perform .resetForgetCycles, fits.room, fits.keys_nodup, fits.apart⟩

/-- No step raises the priority of a key, or brings one back that is gone. -/
theorem Fits.falls_step [LawfulItem α] (fits : Fits capacity state) (use : Use) (key : String) :
    Budget.Falls (state.budget? key) ((state.step use).budget? key) := by
  cases use with
  | takeOut =>
      unfold budget?
      rw [fits.item?_takeOut]
      exact .refl _
  | putBack returned =>
      cases isAway : state.away? returned with
      | none =>
          rw [step_putBack_none isAway]
          exact .refl _
      | some item =>
          unfold budget?
          rw [fits.item?_putBack isAway]
          split
          · rename_i isReturned
            rw [isReturned, fits.item?_away isAway]
            unfold Bag.returning
            split
            · exact .gone _
            · exact .lowered (Bag.placed_forget_lowers state.bag)
          · exact .refl _
  | setForgetCycles cycles => exact .refl _
  | resetForgetCycles => exact .refl _

/-- Whoever is gone after a step was put back, and has become too weak. -/
theorem Fits.leaves_step [LawfulItem α] {use : Use} (fits : Fits capacity state)
    (here : state.item? key = some item) (gone : (state.step use).item? key = none) :
    use = .putBack key ∧
      Single.less (Item.priority (state.bag.forget item)) state.bag.floor = true := by
  have kept : (state.step use).item? key ≠ state.item? key := by
    rw [gone, here]
    exact Option.some_ne_none item ∘ Eq.symm
  cases use with
  | takeOut => exact absurd (fits.item?_takeOut key) kept
  | putBack returned =>
      cases isAway : state.away? returned with
      | none =>
          rw [step_putBack_none isAway] at kept
          exact absurd rfl kept
      | some other =>
          have after := fits.item?_putBack isAway key
          by_cases isReturned : key = returned
          · obtain rfl := isReturned
            obtain rfl := Option.some.inj (here.symm.trans (fits.item?_away isAway))
            rw [if_pos rfl, gone] at after
            refine ⟨rfl, ?_⟩
            by_contra strong
            rw [Bag.returning, if_neg strong] at after
            contradiction
          · rw [if_neg isReturned] at after
            exact absurd after kept
  | setForgetCycles cycles => exact absurd rfl kept
  | resetForgetCycles => exact absurd rfl kept

theorem Fits.after [LawfulItem α] (fits : Fits capacity state) (uses : List Use) :
    Fits capacity (state.after uses) := by
  induction uses generalizing state with
  | nil => exact fits
  | cons use rest inductionHypothesis => exact inductionHypothesis (fits.step use)

/-- What a step does not raise, a run does not raise either. -/
theorem Fits.falls_of_mem [LawfulItem α] {uses : List Use} {later : Option Budget}
    (fits : Fits capacity state) (member : later ∈ state.course key uses) :
    Budget.Falls (state.budget? key) later := by
  induction uses generalizing state with
  | nil =>
      obtain rfl := List.mem_singleton.mp member
      exact .refl _
  | cons use rest inductionHypothesis =>
      rcases List.mem_cons.mp member with rfl | further
      · exact .refl _
      · exact (fits.falls_step use key).trans (inductionHypothesis (fits.step use) further)

theorem Fits.course_pairwise [LawfulItem α] (fits : Fits capacity state) (key : String)
    (uses : List Use) : (state.course key uses).Pairwise Budget.Falls := by
  induction uses generalizing state with
  | nil => exact List.pairwise_singleton _ _
  | cons use rest inductionHypothesis =>
      rw [course, List.pairwise_cons]
      refine ⟨?_, inductionHypothesis (fits.step use)⟩
      intro later member
      exact (fits.falls_step use key).trans ((fits.step use).falls_of_mem member)

end Circulation

namespace Bag

variable {α ν : Type} [Item α ν] {bag : Bag α} {capacity : ℕ}

/-- How a bag forgets. An item in range that is put back under a free key is lowered, and it stays
or leaves by the floor. While items are taken out and put back, at whatever rate, the budgets of
every key fall; and whoever leaves was put back below the floor. -/
structure Forgets (bag : Bag α) : Prop where
  putsBack : ∀ item : α, bag.find? (Item.key item) = none → (Item.budget item).InRange →
    PutsBack bag item
  falls : ∀ (key : String) (uses : List Use),
    (Circulation.course { bag := bag } key uses).Pairwise Budget.Falls
  leaves : ∀ (uses : List Use) (use : Use) (key : String) (item : α) (state : Circulation α),
    state = Circulation.after { bag := bag } uses → state.item? key = some item →
      (state.step use).item? key = none →
        use = .putBack key ∧
          Single.less (Item.priority (state.bag.forget item)) state.bag.floor = true

theorem Sound.forgets [LawfulItem α] (sound : bag.Sound capacity) : Forgets bag := by
  have fits : Circulation.Fits capacity { bag := bag } :=
    ⟨sound, sound.size_le, List.nodup_nil, fun _ isAway => absurd isAway List.not_mem_nil⟩
  constructor
  case putsBack => exact fun _ free inRange => sound.consistent.putsBack free inRange
  case falls => exact fits.course_pairwise
  case leaves =>
    rintro uses use key item state rfl here gone
    exact (fits.after uses).leaves_step here gone

/-- Forgetting is monotone, and drops exactly what is below the floor, in every bag that operations
lead to. -/
theorem run_forgets [LawfulItem α] (config : BagConfig) (draws : Draws)
    (operations : List (Operation α)) : Forgets ((Bag.empty config draws).run operations) :=
  ((empty_sound config draws).run operations).forgets

/-- A task of four hundredths that loses half of its priority whenever it is put back: it falls to
two, to one, and then below the floor. -/
theorem halving_run_forgets :
    let task : Task :=
      ⟨⟨Term.atom 0 "a", .judgment, .input 1 0⟩,
        .corrected (Single.hundredths 4) (Single.hundredths 50) Single.zero, .derived⟩
    let bag := (Bag.empty { capacity := 1, forgetCycles := 1 } (fun _ => 0)).run [.put task]
    let course := Circulation.course { bag := bag } "a."
      [.takeOut, .putBack "a.", .takeOut, .putBack "a.", .takeOut, .putBack "a."]
    let hundredths := fun percent => some (Single.hundredths percent).toBits
    Forgets bag ∧ (Item.budget task).InRange ∧
      course.map (Option.map (·.priority.toBits)) =
        [hundredths 4, hundredths 4, hundredths 2, hundredths 2, hundredths 1, hundredths 1,
          none] :=
  ⟨run_forgets { capacity := 1, forgetCycles := 1 } _ _, by decide +kernel, by decide +kernel⟩

end Bag

end AttentiveReasoner.Attention
