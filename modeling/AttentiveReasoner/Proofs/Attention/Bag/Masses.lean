import AttentiveReasoner.Proofs.Attention.Bag.Selecting
import AttentiveReasoner.Proofs.Numeric.Sums

/-!
Contract: the masses of the levels stay finite, and selection always succeeds.

Owns:
- the item that an operation places, and runs in which none with an infinite priority is placed;
- the invariant of such a run: no resident has an infinite priority, and no mass is infinite;
- that every operation keeps it, and hence every run;
- selection after such a run: it takes the item in front of some level, and nothing else happens.

Does not own: how exact the masses are.

A draw is one from zero to the total mass, and there is none to an infinite total. This is where the
invariant is needed. What is not a number may be placed: it has no part above zero.
-/

namespace AttentiveReasoner.Attention.Bag

open AttentiveReasoner.Chance
open AttentiveReasoner.Evidence
open AttentiveReasoner.Language
open AttentiveReasoner.Numeric

variable {α ν : Type} [Item α ν] {bag : Bag α} {key : String} {slot : Slot α} {item : α}

/-! ## Runs without infinite priorities -/

/-- The item that an operation places: one that is put in, or put back and has not become too weak,
as it enters, or a resident after a change. -/
def placing (bag : Bag α) : Operation α → Option α
  | .put item => some (bag.entering item)
  | .putBack item =>
      if Single.less (Item.priority (bag.forget item)) bag.floor then none
      else some (bag.entering (bag.forget item))
  | .edit key change _ => (bag.find? key).map change
  | .takeOut | .pick _ | .drain | .setForgetCycles _ | .resetForgetCycles => none

/-- No item is placed with an infinite priority. -/
def NeverInfinite (bag : Bag α) : List (Operation α) → Prop
  | [] => True
  | operation :: rest =>
      (∀ item ∈ bag.placing operation, Single.isInfinite (Item.priority item) = false) ∧
        NeverInfinite (bag.perform operation) rest

instance decidableNeverInfinite (bag : Bag α) :
    (operations : List (Operation α)) → Decidable (bag.NeverInfinite operations)
  | [] => .isTrue trivial
  | operation :: rest =>
      @instDecidableAnd _ _ inferInstance (decidableNeverInfinite (bag.perform operation) rest)

/-! ## The invariant -/

/-- No resident has an infinite priority, and each mass is far from infinity or no number. -/
structure Tempered (bag : Bag α) : Prop where
  priority : ∀ key slot, bag.slot? key = some slot →
    Single.isInfinite (Item.priority slot.item) = false
  mass : ∀ level ∈ bag.levels, Double.Tame 1300 level.mass

theorem Tempered.of_same {other : Bag α} (tempered : bag.Tempered)
    (slots : other.slots = bag.slots) (levels : other.levels = bag.levels) : other.Tempered where
  priority := by
    intro key slot resident
    unfold slot? at resident
    rw [slots] at resident
    exact tempered.priority key slot resident
  mass := by
    rw [levels]
    exact tempered.mass

/-- A change of one level's mass. -/
theorem tame_modify {levels : List Level} {change : Level → Level} {index : Nat}
    (tame : ∀ level ∈ levels, Double.Tame 1300 level.mass)
    (changed : ∀ level ∈ levels, Double.Tame 1300 (change level).mass) :
    ∀ level ∈ levels.modify index change, Double.Tame 1300 level.mass := by
  intro level member
  obtain ⟨place, bound, rfl⟩ := List.mem_iff_getElem.mp member
  rw [List.getElem_modify]
  split
  · exact changed _ (List.getElem_mem _)
  · exact tame _ (List.getElem_mem _)

theorem Tempered.place [LawfulItem α] {serial : Nat} (tempered : bag.Tempered)
    (free : bag.slot? key = none) (finite : Single.isInfinite (Item.priority item) = false) :
    (bag.place key item serial).Tempered := by
  have placedFinite : Single.isInfinite (Item.priority (bag.placed item)) = false := by
    rw [priority_placed]
    exact finite
  constructor
  case priority =>
    intro other slot resident
    rw [slot?_place free] at resident
    split at resident
    · rw [← Option.some.inj resident]
      exact placedFinite
    · exact tempered.priority other slot resident
  case mass =>
    apply tame_modify tempered.mass
    intro level member
    have added := Double.toDouble_tame placedFinite
    exact (tempered.mass level member).add added (by decide) (by decide)

/-- A level that somebody leaves. Its mass becomes zero, or what is left of it. -/
theorem tame_without {level : Level} {priority : Float32} (tame : Double.Tame 1300 level.mass)
    (finite : Single.isInfinite priority = false) (key : String) :
    Double.Tame 1300 (Level.without level key priority).mass := by
  have left := tame.sub (Double.toDouble_tame finite) (by decide) (by decide)
  simp only [Level.without]
  split
  · exact .inr (Double.close_zero 1300)
  · exact .inr left.positivePart

theorem Tempered.remove (tempered : bag.Tempered) (key : String) :
    (bag.remove key).2.Tempered := by
  cases resident : bag.slot? key with
  | none =>
      rw [remove_of_free resident]
      exact tempered
  | some slot =>
      have finite := tempered.priority key slot resident
      constructor
      case priority =>
        intro other otherSlot left
        rw [slot?_remove] at left
        split at left
        · contradiction
        · exact tempered.priority other otherSlot left
      case mass =>
        rw [remove_of_resident resident]
        apply tame_modify tempered.mass
        intro level member
        exact tame_without (tempered.mass level member) finite key

/-! ## One operation -/

theorem Tempered.replace [LawfulItem α] {serial : Nat} (tempered : bag.Tempered)
    (finite : Single.isInfinite (Item.priority item) = false) :
    ((bag.remove key).2.place key item serial).Tempered := by
  apply (tempered.remove key).place _ finite
  rw [slot?_remove, if_pos rfl]

theorem Tempered.placeNew [LawfulItem α] (tempered : bag.Tempered) (free : bag.slot? key = none)
    (finite : Single.isInfinite (Item.priority item) = false) :
    (bag.placeNew key item).Tempered := by
  have next : bag.nextSerial.Tempered := tempered.of_same rfl rfl
  exact next.place free finite

theorem Tempered.removeWeakest (tempered : bag.Tempered) : bag.removeWeakest.2.Tempered := by
  unfold Bag.removeWeakest
  split
  · exact tempered
  · exact tempered.remove _

theorem Tempered.put [LawfulItem α] (tempered : bag.Tempered)
    (finite : Single.isInfinite (Item.priority (bag.entering item)) = false) :
    (bag.put item).bag.Tempered := by
  cases found : bag.find? (Item.key item) with
  | none =>
      have free := find?_eq_none_iff.mp found
      simp only [entering, found] at finite
      have placed := tempered.placeNew free finite
      simp only [Bag.put, remove_of_free free]
      split
      · exact placed.removeWeakest
      · exact placed
  | some resident =>
      obtain ⟨slot, occupied, rfl⟩ := slot?_eq_some_of_find? found
      have removed : bag.remove (Item.key item) = (some slot, (bag.remove (Item.key item)).2) := by
        rw [remove_of_resident occupied]
      simp only [entering, found] at finite
      simp only [Bag.put]
      rw [removed]
      cases policy : Item.policy item with
      | replace =>
          rw [policy] at finite
          apply (tempered.remove _).placeNew _ finite
          rw [slot?_remove, if_pos rfl]
      | merge =>
          rw [policy] at finite
          exact tempered.replace finite

theorem Tempered.takeOut (tempered : bag.Tempered) : bag.takeOut.2.Tempered := by
  simp only [Bag.takeOut]
  split
  · exact tempered
  · split
    · exact tempered.of_same rfl rfl
    · have ticked : bag.ticked.Tempered := tempered.of_same rfl rfl
      exact ticked.remove _

theorem Tempered.edit [LawfulItem α] {ρ : Type} {change : α → α × ρ} (tempered : bag.Tempered)
    (finite : ∀ item, bag.find? key = some item →
      Single.isInfinite (Item.priority (change item).1) = false) :
    (bag.edit key change).2.Tempered := by
  cases found : bag.find? key with
  | none =>
      rw [edit_of_free found]
      exact tempered
  | some resident =>
      obtain ⟨slot, occupied, rfl⟩ := slot?_eq_some_of_find? found
      have removed : bag.remove key = (some slot, (bag.remove key).2) := by
        rw [remove_of_resident occupied]
      simp only [Bag.edit]
      rw [removed]
      exact tempered.replace (finite _ found)

theorem Tempered.drain (tempered : bag.Tempered) : bag.drain.2.Tempered := by
  simp only [Bag.drain]
  generalize bag.slots.map (·.1) = keys
  induction keys generalizing bag with
  | nil => exact tempered
  | cons key rest inductionHypothesis => exact inductionHypothesis (tempered.remove key)

/-- Every operation that places nothing infinite keeps the invariant. -/
theorem Tempered.perform [LawfulItem α] {operation : Operation α} (tempered : bag.Tempered)
    (finite : ∀ item ∈ bag.placing operation, Single.isInfinite (Item.priority item) = false) :
    (bag.perform operation).Tempered := by
  cases operation with
  | put item => exact tempered.put (finite _ rfl)
  | takeOut => exact tempered.takeOut
  | putBack item =>
      simp only [placing] at finite
      simp only [Bag.perform, Bag.putBack]
      split
      · exact tempered
      · rename_i strong
        rw [if_neg strong] at finite
        exact tempered.put (finite _ rfl)
  | pick key => exact tempered.remove key
  | edit key change keepsKey =>
      apply tempered.edit
      intro item found
      apply finite
      show (bag.find? key).map change = some (change item)
      rw [found]
      rfl
  | drain => exact tempered.drain
  | setForgetCycles cycles => exact tempered.of_same rfl rfl
  | resetForgetCycles => exact tempered.of_same rfl rfl

/-! ## Runs -/

theorem empty_tempered (config : BagConfig) (draws : Draws) :
    (Bag.empty config draws : Bag α).Tempered where
  priority := by
    intro key slot resident
    contradiction
  mass := by
    intro level member
    rw [List.eq_of_mem_replicate member]
    exact .inr (Double.close_zero 1300)

theorem Tempered.run [LawfulItem α] {operations : List (Operation α)} (tempered : bag.Tempered)
    (finite : bag.NeverInfinite operations) : (bag.run operations).Tempered := by
  induction operations generalizing bag with
  | nil => exact tempered
  | cons operation rest inductionHypothesis =>
      obtain ⟨first, later⟩ := finite
      exact inductionHypothesis (tempered.perform first) later

/-! ## The total mass -/

/-- The parts above zero of the masses add up to something finite, however many levels there are. -/
theorem Tempered.totalMass_close (tempered : bag.Tempered) : Double.Close 1400 bag.totalMass := by
  have parts : ∀ level ∈ bag.occupied, Double.Close 1300 level.2 := by
    intro level member
    obtain ⟨entry, isEntry, isOccupied⟩ := List.mem_filterMap.mp member
    split at isOccupied
    · contradiction
    · rw [← Option.some.inj isOccupied]
      have existing := List.mem_of_getElem? (List.mem_zipIdx_iff_getElem?.mp isEntry)
      exact (tempered.mass _ existing).positivePart
  unfold totalMass
  have start := Double.close_zero 1400
  generalize bag.occupied = levels at parts
  generalize (0 : Float) = total at start
  induction levels generalizing total with
  | nil => exact start
  | cons level rest inductionHypothesis =>
      obtain ⟨first, others⟩ := List.forall_mem_cons.mp parts
      exact inductionHypothesis others _ (start.add first (by decide) (by decide))

/-! ## Selection -/

/-- Selecting succeeds. Nothing is taken out of an empty bag, and nothing about it changes. Out of
any other bag the item in front of some level is taken. A draw for the level is one from zero to a
finite number above it. -/
structure TakesOut (bag : Bag α) : Prop where
  none_iff : bag.takeOut.1 = none ↔ bag.size = 0
  unchanged : bag.size = 0 → bag.takeOut.2 = bag
  takes : bag.size ≠ 0 →
    ∃ level item, bag.takeOut.1 = some item ∧ Takes bag level item bag.takeOut.2
  drawable : ¬bag.totalMass ≤ Double.epsilon →
    bag.totalMass.isFinite = true ∧ 0 < bag.totalMass

theorem Tempered.takesOut (tempered : bag.Tempered) (consistent : bag.Consistent) :
    bag.TakesOut := by
  have close := tempered.totalMass_close
  have drawable : ¬bag.totalMass ≤ Double.epsilon →
      bag.totalMass.isFinite = true ∧ 0 < bag.totalMass := by
    intro considerable
    exact ⟨close.isFinite, close.pos considerable⟩
  rcases consistent.takeOut_takes with ⟨nobody, result⟩ | ⟨level, item, taken, takes⟩
  · exact
      { none_iff := by rw [result]; exact iff_of_true rfl nobody
        unchanged := by rw [result]; exact fun _ => rfl
        takes := fun somebody => absurd nobody somebody
        drawable := drawable }
  · have somebody : bag.size ≠ 0 := by
      have fewer := takes.size_succ
      omega
    exact
      { none_iff := by rw [taken]; exact iff_of_false (Option.some_ne_none item) somebody
        unchanged := fun nobody => absurd nobody somebody
        takes := fun _ => ⟨level, item, taken, takes⟩
        drawable := drawable }

/-- Whatever a bag was made for, whatever is done to it without placing anything infinite, and
whatever is drawn, selecting succeeds afterwards. -/
theorem run_takesOut [LawfulItem α] (config : BagConfig) (draws : Draws)
    (operations : List (Operation α))
    (finite : (Bag.empty config draws).NeverInfinite operations) :
    ((Bag.empty config draws).run operations).TakesOut :=
  ((empty_tempered config draws).run finite).takesOut
    ((empty_sound config draws).run operations).consistent

/-- The first of the draws is the least there is, and it takes out the weaker of two tasks. -/
theorem least_draw_takesOut :
    let judgment := fun (name : String) (percent : Nat) =>
      (⟨⟨Term.atom 0 name, .judgment, .input 1 0⟩,
        .corrected (Single.hundredths percent) Single.one Single.zero, .derived⟩ : Task)
    let bag := (Bag.empty { capacity := 2, forgetCycles := 0 } (fun _ => 0)).run
      [.put (judgment "a" 30), .put (judgment "b" 70)]
    bag.TakesOut ∧ bag.takeOut.1.map Item.key = some "a." :=
  ⟨run_takesOut { capacity := 2, forgetCycles := 0 } _ _ (by decide +kernel), by decide +kernel⟩

/-- With an infinite priority in a bag there is nothing finite to draw from. -/
example :
    let boundless : Budget :=
      { priority := Float32.ofBits 0x7F800000, durability := Single.one, quality := Single.zero }
    let judgment : Task := ⟨⟨Term.atom 0 "a", .judgment, .input 1 0⟩, boundless, .derived⟩
    let bag := (Bag.empty { capacity := 2, forgetCycles := 0 } (fun _ => 0)).run [.put judgment]
    bag.size = 1 ∧ ¬bag.totalMass ≤ Double.epsilon ∧ bag.totalMass.isFinite = false := by
  decide +kernel

end AttentiveReasoner.Attention.Bag
