import AttentiveReasoner.Proofs.Attention.Bag.Admission
import AttentiveReasoner.Proofs.Knowledge.Displays
import AttentiveReasoner.Proofs.Knowledge.History
import AttentiveReasoner.Proofs.Knowledge.Upkeep

/-!
Contract: a concept that is merged with the resident of its key.

Owns:
- the concepts that come to be under given parameters, and that they are in order;
- a table of beliefs after it took in another one;
- what an observer that is showing has been shown last;
- the resident after it took in another concept: its budget, activity, beliefs, tasks and observer,
  and what both observers were told.

Does not own: concepts with several tasks. They are put in one after the other, and which of them
find room depends on their order.

The budget is merged before the contents are, and the observer hears of the result only at the end.
The text that is shown is therefore that of the concept as it stays in the bag. An observer who is
dropped hears of that before, so that a recording of both concepts shows nothing any more.
-/

namespace AttentiveReasoner.Knowledge

open AttentiveReasoner.Attention
open AttentiveReasoner.Chance
open AttentiveReasoner.Evidence
open AttentiveReasoner.Language
open AttentiveReasoner.Numeric

/-! ## Concepts that come to be -/

/-- The concepts that come to be under given parameters. -/
inductive Concept.Arises (parameters : Parameters) : Concept → Prop where
  | create (term : Term) (budget : Budget) (serial : Nat) :
      Arises parameters (.create term budget parameters serial)
  | accept {concept : Concept} (task : Task) (arises : Arises parameters concept) :
      Arises parameters (concept.accept task).1
  | takeTask {concept : Concept} (arises : Arises parameters concept) :
      Arises parameters concept.takeTask.2
  | putBackTask {concept : Concept} (task : Task) (arises : Arises parameters concept) :
      Arises parameters (concept.putBackTask task).2
  | absorb {concept other : Concept} (arises : Arises parameters concept)
      (otherArises : Arises parameters other) : Arises parameters (concept.absorb other).1
  | withBudget {concept : Concept} (budget : Budget) (arises : Arises parameters concept) :
      Arises parameters { concept with budget := budget }
  | refresh {concept : Concept} (arises : Arises parameters concept) :
      Arises parameters concept.refresh.1
  | startPlay {concept : Concept} (observer : Observer) (arises : Arises parameters concept) :
      Arises parameters (concept.startPlay observer).1
  | detach {concept : Concept} (arises : Arises parameters concept) :
      Arises parameters concept.detach.1

namespace Concept

variable {parameters : Parameters} {concept : Concept}

theorem Arises.inOrder (arises : concept.Arises parameters) :
    concept.InOrder parameters (fun _ => True) := by
  induction arises with
  | create term budget serial => exact create_inOrder term trivial
  | accept task _ inOrder => exact inOrder.accept Budget.lasting_true trivial
  | takeTask _ inOrder => exact inOrder.takeTask.2
  | putBackTask task _ inOrder => exact inOrder.putBackTask Budget.lasting_true trivial
  | absorb _ _ inOrder otherInOrder => exact inOrder.absorb Budget.lasting_true otherInOrder
  | withBudget budget _ inOrder => exact inOrder.withBudget trivial
  | refresh _ inOrder => exact inOrder.refresh
  | startPlay observer _ inOrder =>
      exact ⟨inOrder.tasks, inOrder.beliefs, inOrder.budget, inOrder.taskBudgets⟩
  | detach _ inOrder =>
      exact ⟨inOrder.tasks, inOrder.beliefs, inOrder.budget, inOrder.taskBudgets⟩

/-- Residents come to be like other concepts. -/
theorem stable_arises (parameters : Parameters) (cycles : Nat) :
    Bag.Stable cycles (Arises parameters) where
  placed := fun _ _ arises => arises.withBudget _
  merged := fun _ _ arises otherArises _ => (arises.withBudget _).absorb otherArises
  faded := fun _ _ arises => arises.withBudget _

end Concept

/-! ## Beliefs -/

/-- The sentences of one list come before those of a table, as far as there is room, and replace
those of their keys. -/
theorem Beliefs.Sound.addAll_reverse {beliefs : Beliefs} {sentences : List Sentence}
    {capacity : Nat} (sound : beliefs.Sound capacity)
    (distinct : (sentences.map Sentence.key).Nodup) :
    (sentences.reverse.foldl Beliefs.add beliefs).sentences =
      (sentences ++
        beliefs.sentences.filter (·.key ∉ sentences.map Sentence.key)).take capacity := by
  have whole : beliefs =
      { capacity := capacity, sentences := beliefs.sentences.take capacity } := by
    rw [List.take_of_length_le sound.size_le, ← sound.capacity_eq]
  rw [whole, foldl_add_take sound.keys_nodup, ← whole, foldl_entered_reverse distinct]

/-! ## Showing -/

namespace Displays

/-- An observer has been shown a text last. A journal has written it to the common log. -/
def ShownLast (displays : Displays) (observer : Observer) (text : String) : Prop :=
  match observer with
  | .recording _ => (displays.of observer).shown.getLast? = some text
  | .journal _ => displays.log.getLast? = some ((displays.of observer).concept, "\n" ++ text)

theorem shownLast_post (displays : Displays) (observer : Observer) (text : String) :
    (displays.post observer text).ShownLast observer text := by
  cases observer with
  | recording name => exact shown_of_post displays name text
  | journal number =>
      change (_ ++ [_]).getLast? = _
      rw [List.getLast?_concat]
      rfl

/-- An observer that is showing after a notice to refresh was shown its text. -/
theorem shownLast_refresh {displays : Displays} {observer : Observer} {text : String}
    (showing : ((displays.receive (.refresh observer text)).of observer).showing = true) :
    (displays.receive (.refresh observer text)).ShownLast observer text := by
  rw [receive] at showing ⊢
  split at showing
  · rename_i before
    rw [if_pos before]
    exact shownLast_post displays observer text
  · contradiction

/-- A notice to refresh neither begins nor ends a display. -/
theorem refresh_effect (observer : Observer) (text : String) (display : Display) :
    (Notice.effect (.refresh observer text) display).showing = display.showing ∧
      (Notice.effect (.refresh observer text) display).detached = display.detached := by
  cases showing : display.showing with
  | true => simp [Notice.effect, Notice.shownTo, showing]
  | false => simp [Notice.effect, showing]

end Displays

/-! ## Merging -/

/-- A resident united with an incoming concept of its key, which has one task at most. -/
structure Merged (parameters : Parameters) (clock : Nat) (resident incoming united : Concept) :
    Prop where
  term_eq : united.term = resident.term
  priority : Single.Larger resident.budget.priority incoming.budget.priority united.budget.priority
  durability :
    Single.Larger resident.budget.durability incoming.budget.durability united.budget.durability
  quality : Single.Larger resident.budget.quality incoming.budget.quality united.budget.quality
  placed : united.budget.lastUpdate = clock
  activity_eq : united.activity = .ofPriority united.budget.priority
  beliefs_eq : united.beliefs =
    { capacity := parameters.beliefTableSize
      sentences := (incoming.beliefs.sentences ++ resident.beliefs.sentences.filter
        (·.key ∉ incoming.beliefs.sentences.map Sentence.key)).take parameters.beliefTableSize }
  tasks_eq : united.tasks =
    match incoming.tasks.items with
    | [] => resident.tasks
    | task :: _ => (resident.tasks.put task).bag

/-- The observer of the resident stays, or that of the incoming concept takes its place; what both,
and all others, were told. -/
structure HandsOver (resident incoming united : Concept) (displays after : Displays) : Prop where
  stays : ∀ observer, resident.observer = some observer → united.observer = some observer
  moves : resident.observer = none → united.observer = incoming.observer
  detaches : ∀ observer, resident.observer.isSome = true → incoming.observer = some observer →
    (after.of observer).detached = true ∧ (after.of observer).showing = false
  keeps : ∀ observer, (resident.observer.isSome = true → incoming.observer ≠ some observer) →
    (after.of observer).detached = (displays.of observer).detached ∧
      (after.of observer).showing = (displays.of observer).showing
  spares : ∀ observer, resident.observer ≠ some observer → incoming.observer ≠ some observer →
    after.of observer = displays.of observer
  shows : ∀ observer, united.observer = some observer →
    (after.of observer).showing = true → after.ShownLast observer united.text

/-- What putting a concept into a bag does where its key has a resident. -/
structure Merges (parameters : Parameters) (bag : ConceptBag) (resident incoming : Concept)
    (placement : Placement Concept Notice) : Prop where
  departed : placement.departed = none
  others : ∀ key, key ≠ incoming.key → placement.bag.find? key = bag.find? key
  merged : ∃ united, placement.bag.find? incoming.key = some united ∧
    Merged parameters bag.clock resident incoming united ∧
    ∀ displays : Displays,
      HandsOver resident incoming united displays (displays.receiveAll placement.notices)

namespace Concept

variable {parameters : Parameters} {concept resident incoming united : Concept}

theorem absorb_merged (inOrder : resident.InOrder parameters (fun _ => True))
    (incomingInOrder : incoming.InOrder parameters (fun _ => True))
    (few : incoming.tasks.size ≤ 1) (clock : Nat) :
    Merged parameters clock resident incoming
      (Item.mapBudget (·.placedAt clock)
        (absorb { resident with budget := resident.budget.merge incoming.budget } incoming).1) where
  term_eq := rfl
  priority := Single.larger_isLarger _ _
  durability := Single.larger_isLarger _ _
  quality := Single.larger_isLarger _ _
  placed := rfl
  activity_eq := rfl
  beliefs_eq := by
    have sentences :=
      inOrder.beliefs.addAll_reverse incomingInOrder.beliefs.keys_nodup
    have judgments : ∀ sentence ∈ incoming.beliefs.sentences.reverse,
        sentence.isJudgment = true :=
      fun sentence member =>
        incomingInOrder.beliefs.judgment sentence (List.mem_reverse.mp member)
    rw [← sentences, ← (inOrder.beliefs.addAll judgments).capacity_eq]
    rfl
  tasks_eq := by
    have atMostOne : incoming.tasks.items.length ≤ 1 := by
      rw [Bag.items, List.length_map]
      exact few
    change incoming.tasks.items.foldl (fun (bag : TaskBag) task => (bag.put task).bag)
      resident.tasks = _
    cases tasks : incoming.tasks.items with
    | nil => rfl
    | cons task rest =>
        rw [tasks, List.length_cons] at atMostOne
        have noMore : rest = [] := List.length_eq_zero_iff.mp (by omega)
        rw [noMore]
        rfl

/-- What an absorbing concept tells comes in two parts: first to an observer who is dropped, and then
to its own one. -/
theorem receiveAll_absorb (concept incoming : Concept) (displays : Displays) :
    ∃ between : Displays,
      (∀ observer, between.of observer =
        if concept.observer.isSome = true ∧ incoming.observer = some observer then
          Notice.effect (.detach observer) (displays.of observer)
        else displays.of observer) ∧
      displays.receiveAll (concept.absorb incoming).2 =
        between.receiveAll
          ((concept.absorb incoming).1.tell (.refresh · (concept.absorb incoming).1.text)) := by
  refine ⟨displays.receiveAll (if concept.observer.isSome then incoming.tell .detach else []),
    ?_, Displays.receiveAll_append _ _ _⟩
  intro observer
  cases concept.observer with
  | none => simp [Displays.receiveAll]
  | some _ =>
      have addresses : ∀ observer, (Notice.detach observer).observer = observer := fun _ => rfl
      simpa using displays.of_receiveAll_tell incoming addresses observer

theorem absorb_handsOver (same : concept.observer = resident.observer)
    (sameObserver : united.observer = (concept.absorb incoming).1.observer)
    (sameText : united.text = (concept.absorb incoming).1.text) (displays : Displays) :
    HandsOver resident incoming united displays
      (displays.receiveAll (concept.absorb incoming).2) := by
  have observes : united.observer = resident.observer.or incoming.observer := by
    rw [sameObserver, ← same]
    rfl
  have telling : (concept.absorb incoming).1.tell (.refresh · (concept.absorb incoming).1.text) =
      united.tell (.refresh · united.text) := by
    rw [tell, tell, sameObserver, sameText]
  obtain ⟨between, dropped, told⟩ := receiveAll_absorb concept incoming displays
  rw [telling] at told
  rw [same] at dropped
  have refreshed : ∀ observer,
      (displays.receiveAll (concept.absorb incoming).2).of observer =
        if united.observer = some observer then
          Notice.effect (.refresh observer united.text) (between.of observer)
        else between.of observer := by
    intro observer
    rw [told, Displays.of_receiveAll_tell _ _ (fun _ => rfl)]
  -- Whether an observer is showing and is attached is settled by then.
  have settled : ∀ observer,
      ((displays.receiveAll (concept.absorb incoming).2).of observer).showing =
          (between.of observer).showing ∧
        ((displays.receiveAll (concept.absorb incoming).2).of observer).detached =
          (between.of observer).detached := by
    intro observer
    rw [refreshed]
    split
    · exact Displays.refresh_effect observer united.text (between.of observer)
    · exact ⟨rfl, rfl⟩
  constructor
  case stays =>
    intro observer watched
    rw [observes, watched]
    rfl
  case moves =>
    intro unwatched
    rw [observes, unwatched]
    rfl
  case detaches =>
    intro observer watched comes
    rw [(settled observer).1, (settled observer).2, dropped, if_pos ⟨watched, comes⟩]
    exact ⟨rfl, rfl⟩
  case keeps =>
    intro observer undropped
    have attached : ¬(resident.observer.isSome = true ∧ incoming.observer = some observer) :=
      fun both => undropped both.1 both.2
    rw [(settled observer).1, (settled observer).2, dropped, if_neg attached]
    exact ⟨rfl, rfl⟩
  case spares =>
    intro observer notResident notIncoming
    have notUnited : united.observer ≠ some observer := by
      rw [observes]
      cases watching : resident.observer with
      | none => simpa using notIncoming
      | some other => simpa [watching] using notResident
    rw [refreshed, if_neg notUnited, dropped, if_neg (fun both => notIncoming both.2)]
  case shows =>
    intro observer watches showing
    have last : displays.receiveAll (concept.absorb incoming).2 =
        between.receive (.refresh observer united.text) := by
      rw [told, tell, watches]
      rfl
    rw [last] at showing ⊢
    exact Displays.shownLast_refresh showing

end Concept

namespace ConceptBag

variable {parameters : Parameters} {bag : ConceptBag} {resident incoming : Concept}

/-- A concept is merged with the resident of its key, if both are in order. -/
theorem put_merges (found : bag.find? incoming.key = some resident)
    (inOrder : resident.InOrder parameters (fun _ => True))
    (incomingInOrder : incoming.InOrder parameters (fun _ => True))
    (few : incoming.tasks.size ≤ 1) :
    Merges parameters bag resident incoming (bag.put incoming) := by
  obtain ⟨slot, occupied, rfl⟩ := Bag.slot?_eq_some_of_find? found
  have merges : Item.policy incoming = .merge := rfl
  have result := Bag.put_merging occupied merges
  constructor
  case departed => rw [result]
  case others =>
    intro key different
    rw [result]
    exact (Bag.find?_replace key).trans (if_neg different)
  case merged =>
    let raised : Concept :=
      { slot.item with budget := slot.item.budget.merge incoming.budget }
    have handsOver : ∀ displays : Displays,
        HandsOver slot.item incoming (bag.placed (raised.absorb incoming).1) displays
          (displays.receiveAll (raised.absorb incoming).2) := by
      intro displays
      refine Concept.absorb_handsOver ?_ ?_ ?_ displays
      · rfl
      · rfl
      · rfl
    rw [result]
    exact ⟨_, (Bag.find?_replace _).trans (if_pos rfl),
      Concept.absorb_merged inOrder incomingInOrder few bag.clock, handsOver⟩

/-- Whatever was done to a bag of concepts, and whatever was drawn: a concept with one task at most
is merged with the resident of its key. -/
theorem run_put_merges (config : BagConfig) (draws : Draws)
    {operations : List (Bag.Operation Concept)}
    (keeps : ∀ operation ∈ operations, operation.Keeps (Concept.Arises parameters))
    (arises : incoming.Arises parameters) (few : incoming.tasks.size ≤ 1)
    (found : ((Bag.empty config draws).run operations).find? incoming.key = some resident) :
    Merges parameters ((Bag.empty config draws).run operations) resident incoming
      (((Bag.empty config draws).run operations).put incoming) := by
  have residents : ∀ concept ∈ ((Bag.empty config draws).run operations).items,
      concept.Arises parameters :=
    (Bag.empty_sound config draws).run_all (Concept.stable_arises parameters)
      (fun _ member => nomatch member) keeps
  have consistent := ((Bag.empty_sound config draws).run operations).consistent
  have residentArises := residents resident (consistent.mem_of_find? found).1
  exact put_merges found residentArises.inOrder arises.inOrder few

/-- Two concepts with a recording each. The later belief of a key comes first and replaces the
earlier one, as the later task does. -/
theorem overlapping_put_merges :
    let judgment := fun (name : String) (serial : Nat) =>
      (⟨⟨.atom 0 name, .judgment, .input serial 0⟩, .standard, .input⟩ : Task)
    let parameters : Parameters := { beliefTableSize := 2 }
    let created := Concept.create (.atom 0 "a") .standard parameters 1
    let earlier := ((created.accept (judgment "a" 1)).1.accept (judgment "b" 2)).1
    let incoming := ((created.accept (judgment "a" 3)).1.startPlay (.recording "second")).1
    let bag : ConceptBag := (Bag.empty { capacity := 1, forgetCycles := 0 } (fun _ => 0)).run
      [.put (earlier.startPlay (.recording "first")).1]
    (∃ resident, bag.find? incoming.key = some resident ∧
        Merges parameters bag resident incoming (bag.put incoming)) ∧
      ((bag.put incoming).bag.find? "a").map (fun united =>
          (united.beliefs.sentences.map (fun belief => (belief.key, belief.stamp.base)),
            united.tasks.keys, united.observer)) =
        some ([("a.", [3]), ("b.", [2])], ["a.", "b."], some (.recording "first")) := by
  intro judgment parameters created earlier incoming bag
  refine ⟨?_, by decide +kernel⟩
  obtain ⟨resident, found⟩ :=
    Option.isSome_iff_exists.mp (by decide +kernel : (bag.find? incoming.key).isSome = true)
  refine ⟨resident, found, run_put_merges { capacity := 1, forgetCycles := 0 } _ ?_ ?_ ?_ found⟩
  · intro operation member
    rw [List.mem_singleton.mp member]
    exact .startPlay _ (.accept _ (.accept _ (.create _ _ _)))
  · exact .startPlay _ (.accept _ (.create _ _ _))
  · decide +kernel

end ConceptBag

end AttentiveReasoner.Knowledge
