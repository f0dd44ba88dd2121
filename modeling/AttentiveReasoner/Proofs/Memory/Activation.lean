import AttentiveReasoner.Proofs.Attention.Bag.Admission
import AttentiveReasoner.Proofs.Memory.Recovery
import AttentiveReasoner.Proofs.Memory.Soundness

/-!
Contract: all that activating the concept of a term does to a memory.

Owns:
- what a change in place does to the slots of a bag;
- what becomes of a concept that leaves a memory;
- the cases of an activation: the concept is there, there is room for it, or there is none;
- that the answer of an activation is whether the concept is there afterwards.

Does not own: what is delivered to a concept once it is there.

The answer is told from the key of whoever left the bag, and not from the bag. The newcomer may be
the one who leaves, and it always is where there is no room for anybody.
-/

namespace AttentiveReasoner

open AttentiveReasoner.Attention
open AttentiveReasoner.Evidence
open AttentiveReasoner.Inference
open AttentiveReasoner.Knowledge
open AttentiveReasoner.Language
open AttentiveReasoner.Numeric

namespace Attention.Bag

variable {α ν ρ : Type} [Item α ν] {bag : Bag α} {key : String} {slot : Slot α}
  {change : α → α × ρ}

theorem edit_of_resident (resides : bag.slot? key = some slot) :
    bag.edit key change =
      (some (change slot.item).2,
        (bag.remove key).2.place key (change slot.item).1 slot.serial) := by
  have removed : bag.remove key = (some slot, (bag.remove key).2) := by
    rw [remove_of_resident resides]
  simp only [edit]
  rw [removed]

theorem slot?_edit (resides : bag.slot? key = some slot) (other : String) :
    (bag.edit key change).2.slot? other =
      if other = key then some (bag.placedSlot (change slot.item).1 slot.serial)
      else bag.slot? other := by
  rw [edit_of_resident resides]
  exact slot?_replace other

theorem Consistent.spares_edit (consistent : bag.Consistent) (key : String)
    (change : α → α × ρ) : Spares {key} bag (bag.edit key change).2 := by
  cases resides : bag.slot? key with
  | none =>
      rw [edit_of_free (find?_eq_none_iff.mpr resides)]
      exact ⟨fun _ _ => rfl, fun _ => rfl⟩
  | some slot =>
      rw [edit_of_resident resides]
      exact consistent.spares_replace

theorem mem_names_iff_slot? : key ∈ bag.names ↔ ∃ slot, bag.slot? key = some slot := by
  rw [mem_names, find?]
  cases bag.slot? key <;> simp

/-- Putting an item in has made somebody leave: the weakest among the residents and the newcomer,
which is there afterwards unless it is the one. -/
structure Evicts (bag : Bag α) (item : α) (placement : Placement α ν) (key : String)
    (slot : Slot α) : Prop where
  departed : placement.departed = some slot.item
  keyed : Item.key slot.item = key
  weakest : bag.Weakest item key slot
  names_eq : placement.bag.names = (insert (Item.key item) bag.names).erase key
  newcomer : Item.key item ≠ key →
    placement.bag.slot? (Item.key item) = some (bag.placedSlot item (bag.lastSerial + 1))
  spares : Spares {Item.key item, key} bag placement.bag

theorem Sound.put_evicts [LawfulItem α] [KeepsBudget α] {capacity : Nat} {item : α}
    (sound : bag.Sound capacity) (free : bag.slot? (Item.key item) = none)
    (full : bag.capacity ≤ bag.size) : ∃ key slot, Evicts bag item (bag.put item) key slot := by
  have puts := sound.put_puts item
  obtain ⟨key, slot, departed, keyed, weakest, remaining⟩ := puts.evicts free full
  refine ⟨key, slot, ?_⟩
  constructor
  case departed => exact departed
  case keyed => exact keyed
  case weakest => exact weakest
  case names_eq =>
    ext name
    rw [Finset.mem_erase, Finset.mem_insert, mem_names_iff_slot?, mem_names_iff_slot?]
    constructor
    · rintro ⟨otherSlot, resides⟩
      obtain ⟨contends, different⟩ := (remaining name otherSlot).mp resides
      rcases contends with stayed | ⟨isNewcomer, _⟩
      · exact ⟨different, .inr ⟨otherSlot, stayed⟩⟩
      · exact ⟨different, .inl isNewcomer⟩
    · rintro ⟨different, isNewcomer | ⟨otherSlot, stayed⟩⟩
      · exact ⟨_, (remaining name _).mpr ⟨.inr ⟨isNewcomer, rfl⟩, different⟩⟩
      · exact ⟨otherSlot, (remaining name otherSlot).mpr ⟨.inl stayed, different⟩⟩
  case newcomer =>
    intro different
    exact (remaining _ _).mpr ⟨.inr ⟨rfl, rfl⟩, different⟩
  case spares =>
    have gone : departedNames (bag.put item) = {key} := by
      rw [departedNames, departed, Option.map_some, keyed]
      rfl
    have all := puts.spares
    rw [gone] at all
    exact all

end Attention.Bag

namespace Language.Registry

/-- Releasing a name lists nothing that was not listed. -/
theorem entry?_of_release {registry : Registry} {held : Held} {name other : String} {term : Term}
    (listed : entry? (registry.release held name).2 other = some term) :
    registry.entry? other = some term := by
  by_cases same : other = name
  · subst same
    revert listed
    unfold release
    split
    · exact id
    · split
      · exact id
      · intro listed
        rw [entry?_remove, if_pos rfl] at listed
        contradiction
  · rwa [(registry.entry?_release held name).2 other same] at listed

theorem entry?_of_listed {registry : Registry} {held : Held} {name : String} {term : Term}
    (isListed : (registry.listed held name).1 = some term) :
    registry.entry? name = some term := by
  revert isListed
  unfold listed
  split
  · exact nofun
  · rename_i entry found
    split
    · rw [found]
      exact id
    · exact nofun

end Language.Registry

namespace Memory

variable {parameters : Parameters} {symbols : Symbols} {admits : Budget → Prop}
  {memory after : Memory} {outside : Held} {term : Term} {budget : Budget} {concept : Concept}

/-! ## Leaving -/

/-- A memory has let go of a concept. Its observer is detached. If there is an entry of its name
left, somebody holds what is listed; so if its own term was listed and nobody holds it any more,
there is no entry. -/
structure LetsGo (outside : Held) (memory after : Memory) (concept : Concept) : Prop where
  detached : ∀ observer, concept.observer = some observer →
    (after.displays.of observer).detached = true
  listed_held : ∀ listed, after.registry.entry? concept.key = some listed →
    after.held outside listed.object = true
  unlisted : memory.registry.entry? concept.key = some concept.term →
    after.held outside concept.term.object = false →
      after.registry.entry? concept.key = none

/-- A memory lets go of whoever leaves as a concept is placed. -/
theorem afterPlacing_letsGo (memory : Memory) (outside : Held)
    {placement : Placement Concept Notice} (departed : placement.departed = some concept) :
    LetsGo outside memory (memory.afterPlacing outside placement) concept := by
  obtain ⟨detached, listedHeld, _⟩ := afterPlacing_forgets memory outside departed
  refine ⟨detached, listedHeld, ?_⟩
  intro wasListed notHeld
  cases isListed : (memory.afterPlacing outside placement).registry.entry? concept.key with
  | none => rfl
  | some listed =>
      have stillHeld := listedHeld listed isListed
      have before : memory.registry.entry? concept.key = some listed := by
        simp only [Memory.afterPlacing, departed] at isListed
        exact Registry.entry?_of_release isListed
      rw [wasListed] at before
      rw [← Option.some.inj before, notHeld] at stillHeld
      contradiction

/-! ## The cases -/

/-- The slot that a concept gets when it comes to a memory. -/
def newcomerSlot (memory : Memory) (term : Term) (budget : Budget) : Slot Concept :=
  memory.concepts.placedSlot (memory.newcomer term budget) (memory.concepts.lastSerial + 1)

/-- All that activating the concept of a term does. Its answer is whether the concept is there
afterwards; what it does is told by whether the concept was there before, and by whether there was
room for it. Whoever is not named keeps the slot and the place in the queue. -/
structure Activates (outside : Held) (term : Term) (budget : Budget) (memory : Memory)
    (answer : Bool) (after : Memory) : Prop where
  answer_iff : answer = true ↔ term.name ∈ after.concepts.names
  reinforces : ∀ slot, memory.concepts.slot? term.name = some slot →
    after.concepts.names = memory.concepts.names ∧
      after.concepts.slot? term.name =
        some (memory.concepts.placedSlot (reinforce budget slot.item).1 slot.serial) ∧
      Bag.Spares {term.name} memory.concepts after.concepts
  creates : memory.concepts.slot? term.name = none →
    memory.concepts.size < memory.concepts.capacity →
      after.concepts.names = insert term.name memory.concepts.names ∧
        after.concepts.slot? term.name = some (memory.newcomerSlot term budget) ∧
        Bag.Spares {term.name} memory.concepts after.concepts
  displaces : memory.concepts.slot? term.name = none →
    memory.concepts.capacity ≤ memory.concepts.size →
      ∃ key slot, memory.concepts.Weakest (memory.newcomer term budget) key slot ∧
        slot.item.key = key ∧
        after.concepts.names = (insert term.name memory.concepts.names).erase key ∧
        (term.name ≠ key →
          after.concepts.slot? term.name = some (memory.newcomerSlot term budget)) ∧
        Bag.Spares {term.name, key} memory.concepts after.concepts ∧
        LetsGo outside memory after slot.item
  entries : ∀ name, (name ∈ insert term.name memory.concepts.names →
      name ∈ after.concepts.names) →
    after.registry.entry? name = memory.registry.entry? name
  parameters : after.parameters = memory.parameters
  newTasks : after.newTasks = memory.newTasks
  lastSerial : after.lastSerial = memory.lastSerial
  cycles : after.cycles = memory.cycles

/-- Activating a concept that is there. -/
theorem InOrder.activate_reinforcing (inOrder : memory.InOrder parameters admits)
    {slot : Slot Concept} (resides : memory.concepts.slot? term.name = some slot)
    (outside : Held) (budget : Budget) :
    Activates outside term budget memory (memory.activate outside term budget).1
      (memory.activate outside term budget).2 := by
  have found : memory.concept? term.name = some slot.item := by
    rw [concept?, Bag.find?, resides, Option.map_some]
  have sameNames := Bag.names_edit memory.concepts term.name (Memory.reinforce budget)
  rw [activate_of_resident found, editConcept_memory]
  constructor
  case answer_iff =>
    have isThere : term.name ∈ memory.concepts.names :=
      Bag.mem_names_iff_slot?.mpr ⟨slot, resides⟩
    rw [← sameNames] at isThere
    exact iff_of_true rfl isThere
  case reinforces =>
    intro other otherResides
    obtain rfl : slot = other := Option.some.inj (resides.symm.trans otherResides)
    refine ⟨sameNames, ?_, inOrder.concepts.consistent.spares_edit term.name _⟩
    exact (Bag.slot?_edit resides term.name).trans (if_pos rfl)
  case creates => intro free; rw [resides] at free; contradiction
  case displaces => intro free; rw [resides] at free; contradiction
  case entries => exact fun _ _ => rfl
  case parameters => rfl
  case newTasks => rfl
  case lastSerial => rfl
  case cycles => rfl

/-- Activating a concept that is not there while there is room. -/
theorem InOrder.activate_creating (inOrder : memory.InOrder parameters admits)
    (free : memory.concepts.slot? term.name = none)
    (room : memory.concepts.size < memory.concepts.capacity) (outside : Held) (budget : Budget) :
    Activates outside term budget memory (memory.activate outside term budget).1
      (memory.activate outside term budget).2 := by
  have notFound : memory.concepts.find? term.name = none := Bag.find?_eq_none_iff.mpr free
  have placed : memory.concepts.put (memory.newcomer term budget) =
      { bag := memory.concepts.placeNew term.name (memory.newcomer term budget) } :=
    Bag.put_of_free notFound room
  have names : (memory.concepts.placeNew term.name (memory.newcomer term budget)).names =
      insert term.name memory.concepts.names := Bag.names_placeNew notFound
  rw [activate_of_free notFound, placed]
  constructor
  case answer_iff =>
    have isThere : term.name ∈ insert term.name memory.concepts.names :=
      Finset.mem_insert_self _ _
    rw [← names] at isThere
    exact iff_of_true rfl isThere
  case reinforces => intro slot resides; rw [free] at resides; contradiction
  case creates =>
    intro _ _
    refine ⟨names, ?_, inOrder.concepts.consistent.spares_placeNew free⟩
    exact (Bag.slot?_placeNew free term.name).trans (if_pos rfl)
  case displaces => intro _ full; exact absurd room (Nat.not_lt.mpr full)
  case entries => exact fun _ _ => rfl
  case parameters => rfl
  case newTasks => rfl
  case lastSerial => rfl
  case cycles => rfl

/-- Activating a concept that is not there while the bag is full. -/
theorem InOrder.activate_displacing (inOrder : memory.InOrder parameters admits)
    (free : memory.concepts.slot? term.name = none)
    (full : memory.concepts.capacity ≤ memory.concepts.size) (outside : Held) (budget : Budget) :
    Activates outside term budget memory (memory.activate outside term budget).1
      (memory.activate outside term budget).2 := by
  have isKey : Item.key (memory.newcomer term budget) = term.name := rfl
  have freeKey : memory.concepts.slot? (Item.key (memory.newcomer term budget)) = none := free
  obtain ⟨key, slot, evicts⟩ := inOrder.concepts.put_evicts freeKey full
  obtain ⟨departed, keyed, weakest, names, newcomer, spares⟩ := evicts
  rw [isKey] at names newcomer spares
  have sameKey : slot.item.key = key := keyed
  have letsGo := afterPlacing_letsGo memory outside departed
  obtain ⟨sameConcepts, _, sameParameters, sameTasks, sameSerial, sameCycles⟩ :=
    afterPlacing_keeps memory outside (memory.concepts.put (memory.newcomer term budget))
  rw [activate_of_free (Bag.find?_eq_none_iff.mpr free)]
  constructor
  case answer_iff =>
    rw [sameConcepts, names, departed, Option.all_some, decide_eq_true_eq, sameKey,
      Finset.mem_erase]
    constructor
    · exact fun different => ⟨different.symm, Finset.mem_insert_self _ _⟩
    · exact fun both => both.1.symm
  case reinforces => intro other resides; rw [free] at resides; contradiction
  case creates => intro _ room; exact absurd room (Nat.not_lt.mpr full)
  case displaces =>
    intro _ _
    rw [sameConcepts]
    exact ⟨key, slot, weakest, keyed, names, newcomer, spares, letsGo⟩
  case entries =>
    intro name stays
    apply entry?_afterPlacing
    intro gone isGone sameName
    have goneKey : gone.key = key := by
      rw [departed] at isGone
      rw [← Option.some.inj isGone]
      exact keyed
    have contended : name ∈ insert term.name memory.concepts.names := by
      rw [sameName, goneKey, Finset.mem_insert, Bag.mem_names_iff_slot?]
      rcases weakest.contends with resides | ⟨isNewcomer, _⟩
      · exact .inr ⟨slot, resides⟩
      · exact .inl isNewcomer
    have isThere := stays contended
    rw [sameConcepts, names, sameName, goneKey] at isThere
    exact Finset.notMem_erase key _ isThere
  case parameters => exact sameParameters
  case newTasks => exact sameTasks
  case lastSerial => exact sameSerial
  case cycles => exact sameCycles

theorem InOrder.activate_activates (inOrder : memory.InOrder parameters admits)
    (outside : Held) (term : Term) (budget : Budget) :
    Activates outside term budget memory (memory.activate outside term budget).1
      (memory.activate outside term budget).2 := by
  cases resides : memory.concepts.slot? term.name with
  | none =>
      by_cases room : memory.concepts.size < memory.concepts.capacity
      · exact inOrder.activate_creating resides room outside budget
      · exact inOrder.activate_displacing resides (Nat.not_lt.mp room) outside budget
  | some slot => exact inOrder.activate_reinforcing resides outside budget

/-- Who was there and is there no more is who was displaced. -/
theorem Activates.displaced_of_gone {answer : Bool} {name : String} {own : Slot Concept}
    (activates : Activates outside term budget memory answer after)
    (ownResides : memory.concepts.slot? name = some own) (gone : name ∉ after.concepts.names) :
    name ≠ term.name ∧ memory.concepts.Weakest (memory.newcomer term budget) name own ∧
      LetsGo outside memory after own.item := by
  have wasThere : name ∈ memory.concepts.names :=
    Bag.mem_names_iff_slot?.mpr ⟨own, ownResides⟩
  cases resides : memory.concepts.slot? term.name with
  | some slot =>
      rw [(activates.reinforces slot resides).1] at gone
      contradiction
  | none =>
      by_cases room : memory.concepts.size < memory.concepts.capacity
      · rw [(activates.creates resides room).1] at gone
        exact absurd (Finset.mem_insert_of_mem wasThere) gone
      · obtain ⟨key, slot, weakest, _, names, _, _, letsGo⟩ :=
          activates.displaces resides (Nat.not_lt.mp room)
        obtain rfl : name = key := by
          rw [names, Finset.mem_erase, not_and_or, not_not] at gone
          exact gone.resolve_right fun absent => absent (Finset.mem_insert_of_mem wasThere)
        have different : name ≠ term.name := by
          rintro rfl
          rw [resides] at ownResides
          contradiction
        obtain rfl : slot = own := by
          rcases weakest.contends with contends | ⟨isNewcomer, _⟩
          · rw [ownResides] at contends
            exact (Option.some.inj contends).symm
          · exact absurd isNewcomer different
        exact ⟨different, weakest, letsGo⟩

/-- Whatever led to a memory, activating tells whether the concept is there afterwards. Nobody
leaves if it was there before or if there was room; else the weakest of the residents and the
newcomer does, and the memory lets go of it. All others stay as they are.

The terms of the concepts that a caller has brought about are listed under their names, but for
copies. So if nobody holds the term of such a concept that is gone, the registry has no entry of
its name any more. -/
theorem Leads.activation_tells_residence (led : Leads True (empty parameters symbols) memory)
    (outside : Held) (term : Term) (budget : Budget) :
    let activated := memory.activate outside term budget
    Activates outside term budget memory activated.1 activated.2 ∧
      ∀ actions, memory = (Exchange.of parameters symbols actions).memory →
        ∀ concept ∈ memory.concepts.items,
          concept.term.object ∉ (Exchange.start parameters symbols).copies actions →
          concept.key ∉ activated.2.concepts.names →
          activated.2.held outside concept.term.object = false →
            activated.2.registry.entry? concept.key = none := by
  intro activated
  have activates := led.withinBounds.activate_activates outside term budget
  refine ⟨activates, ?_⟩
  intro actions isReached concept member original gone notHeld
  have settled := Exchange.of_settled parameters symbols actions
  have listed := Settled.listed_term settled (Exchange.outside_counts _)
    (by rw [← isReached]; exact member) original
  rw [← isReached] at listed
  obtain ⟨own, resides, rfl⟩ := led.withinBounds.concepts.consistent.mem_items_iff.mp member
  obtain ⟨_, _, letsGo⟩ := activates.displaced_of_gone resides gone
  exact letsGo.unlisted (Registry.entry?_of_listed listed) notHeld

/-- The actions that leave a memory for one concept with `a`, while the caller has `b`. -/
def lodgingActions : List Action :=
  [.build (.word "a"), .build (.word "b"),
    .activate 0 (.corrected (Single.hundredths 30) Single.one Single.zero)]

/-- The memory after the actions. -/
def lodging : Memory :=
  (Exchange.of { conceptBagSize := 1 } .usual lodgingActions).memory

theorem lodging_leads : Leads True (empty { conceptBagSize := 1 } .usual) lodging := by
  have started : Leads True (empty { conceptBagSize := 1 } .usual)
      (Exchange.start { conceptBagSize := 1 } .usual).memory := .here _
  exact started.run lodgingActions

/-- The memory after the actions, in which the concept is observed. -/
def observedLodging : Memory :=
  (lodging.editConcept "a" (Observation.startPlay (.recording "watcher")).change).2

/-- A strong newcomer takes the place of the concept, which leaves nothing behind. A weak one is
told that it is not there, and all is as it was. -/
theorem lodging_tells_residence :
    let newcomer : Term := .atom 1 "b"
    let faint : Budget := .corrected (Single.hundredths 10) Single.one Single.zero
    let strong := observedLodging.activate Held.nothing newcomer .standard
    let weak := observedLodging.activate Held.nothing newcomer faint
    Activates Held.nothing newcomer .standard observedLodging strong.1 strong.2 ∧
      Activates Held.nothing newcomer faint observedLodging weak.1 weak.2 ∧
      (observedLodging.concepts.keys, observedLodging.registry.entries.map Term.name) =
        (["a"], ["a", "b"]) ∧
      (strong.1, strong.2.concepts.keys, strong.2.registry.entries.map Term.name) =
        (true, ["b"], ["b"]) ∧
      (strong.2.displays.of (.recording "watcher")).detached = true ∧
      (weak.1, weak.2.concepts.keys) = (false, ["a"]) ∧
      (lodging.activate Held.nothing newcomer .standard).2.registry.entry? "a" = none := by
  intro newcomer faint strong weak
  have observed : Leads True (empty { conceptBagSize := 1 } .usual) observedLodging :=
    lodging_leads.observe "a" (.startPlay (.recording "watcher"))
  have ran : (observedLodging.concepts.keys, observedLodging.registry.entries.map Term.name) =
        (["a"], ["a", "b"]) ∧
      (strong.1, strong.2.concepts.keys, strong.2.registry.entries.map Term.name) =
        (true, ["b"], ["b"]) ∧
      (strong.2.displays.of (.recording "watcher")).detached = true ∧
      (weak.1, weak.2.concepts.keys) = (false, ["a"]) := by
    decide +kernel
  have resides : (lodging.concepts.find? "a").map (·.term.object) = some 0 := by
    decide +kernel
  have left : 0 ∉ (Exchange.start { conceptBagSize := 1 } .usual).copies lodgingActions ∧
      "a" ∉ (lodging.activate Held.nothing newcomer .standard).2.concepts.names ∧
      (lodging.activate Held.nothing newcomer .standard).2.held Held.nothing 0 = false := by
    decide +kernel
  obtain ⟨concept, found, isObject⟩ := Option.map_eq_some_iff.mp resides
  obtain ⟨member, keyed⟩ := lodging_leads.withinBounds.concepts.consistent.mem_of_find? found
  have sameKey : concept.key = "a" := keyed
  have unlisted := (lodging_leads.activation_tells_residence Held.nothing newcomer .standard).2
    lodgingActions rfl concept member
  rw [isObject, sameKey] at unlisted
  exact ⟨(observed.activation_tells_residence Held.nothing newcomer .standard).1,
    (observed.activation_tells_residence Held.nothing newcomer faint).1,
    ran.1, ran.2.1, ran.2.2.1, ran.2.2.2, unlisted left.1 left.2.1 left.2.2⟩

end Memory

end AttentiveReasoner
