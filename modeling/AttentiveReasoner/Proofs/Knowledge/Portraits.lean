import AttentiveReasoner.Proofs.Attention.Bag.Lookup
import AttentiveReasoner.Proofs.Knowledge.Upkeep
import Mathlib.Logic.Function.Basic

/-!
Contract: portraits of concepts, which leave out in what order a concept came to be what it is.

Owns:
- the values of budgets as integers, and the activity that follows from them;
- portraits, and what a delivered task does to them;
- that deliveries of tasks of different keys commute;
- the portrait of a concept after it is made, reinforced, and accepts a task it has room for;
- that concepts of one portrait are alike.

Does not own: concepts without room. There it does matter who came first.

The order shows in a concept: in the queues and ranks of its tasks, in the order of its beliefs,
and in which of two equal zeros became its priority. None of these is in the portrait.
-/

namespace AttentiveReasoner.Knowledge

open AttentiveReasoner.Attention
open AttentiveReasoner.Evidence
open AttentiveReasoner.Language
open AttentiveReasoner.Numeric

/-! ## Beliefs by key -/

namespace Beliefs

variable {capacity : Nat} {beliefs : Beliefs} {sentence : Sentence} {key : String}

/-- The keys of the beliefs. -/
def keys (beliefs : Beliefs) : Finset String :=
  (beliefs.sentences.map Sentence.key).toFinset

/-- The belief of a key. -/
def find? (beliefs : Beliefs) (key : String) : Option Sentence :=
  beliefs.sentences.find? (·.key = key)

/-- Entering under a key makes no belief leave: there is one of the key, or room for one more. -/
def HasRoom (beliefs : Beliefs) (key : String) : Prop :=
  key ∈ beliefs.keys ∨ beliefs.size < beliefs.capacity

theorem Sound.card_keys (sound : beliefs.Sound capacity) : beliefs.keys.card = beliefs.size := by
  rw [keys, List.toFinset_card_of_nodup sound.keys_nodup, List.length_map, size]

theorem Sound.mem_iff_find? (sound : beliefs.Sound capacity) :
    sentence ∈ beliefs.sentences ↔ beliefs.find? sentence.key = some sentence := by
  unfold find?
  have distinct := sound.keys_nodup
  revert distinct
  generalize beliefs.sentences = sentences
  intro distinct
  induction sentences with
  | nil => simp
  | cons first rest inductionHypothesis =>
      obtain ⟨absent, restDistinct⟩ := List.nodup_cons.mp distinct
      rw [List.mem_cons, List.find?_cons]
      by_cases same : first.key = sentence.key
      · simp only [same, decide_true, Option.some.injEq]
        constructor
        · rintro (rfl | inRest)
          · rfl
          · exact absurd (List.mem_map.mpr ⟨sentence, inRest, same.symm⟩) absent
        · exact fun equal => .inl equal.symm
      · simp only [same, decide_false]
        refine Iff.trans ?_ (inductionHypothesis restDistinct)
        constructor
        · rintro (rfl | inRest)
          · exact absurd rfl same
          · exact inRest
        · exact .inr

/-- Entering a belief where there is room. -/
theorem Sound.sentences_add (sound : beliefs.Sound capacity)
    (room : beliefs.HasRoom sentence.key) :
    (beliefs.add sentence).sentences =
      sentence :: beliefs.sentences.filter (·.key ≠ sentence.key) := by
  refine List.take_of_length_le ?_
  rw [List.length_cons]
  have bound := sound.size_le
  have declared := sound.capacity_eq
  unfold size at bound
  rcases room with present | free
  · obtain ⟨resident, member, sameKey⟩ := List.mem_map.mp (List.mem_toFinset.mp present)
    have fewer : (beliefs.sentences.filter (·.key ≠ sentence.key)).length <
        beliefs.sentences.length :=
      List.length_filter_lt_length_iff_exists.mpr ⟨resident, member, by simp [sameKey]⟩
    omega
  · have noMore := List.length_filter_le (fun other : Sentence => other.key ≠ sentence.key)
      beliefs.sentences
    unfold size at free
    omega

theorem Sound.find?_add (sound : beliefs.Sound capacity)
    (room : beliefs.HasRoom sentence.key) :
    (beliefs.add sentence).find? =
      Function.update beliefs.find? sentence.key (some sentence) := by
  funext key
  rw [find?, sound.sentences_add room, List.find?_cons, Function.update_apply]
  by_cases same : key = sentence.key
  · simp [same]
  · simp only [Ne.symm same, decide_false, if_neg same, List.find?_filter, find?]
    congr 1
    funext other
    grind

theorem Sound.keys_add (sound : beliefs.Sound capacity)
    (room : beliefs.HasRoom sentence.key) :
    (beliefs.add sentence).keys = insert sentence.key beliefs.keys := by
  ext key
  simp only [keys, sound.sentences_add room, List.map_cons, List.toFinset_cons,
    Finset.mem_insert, List.mem_toFinset, List.mem_map, List.mem_filter, decide_eq_true_eq]
  constructor
  · rintro (same | ⟨other, ⟨member, _⟩, keyed⟩)
    · exact .inl same
    · exact .inr ⟨other, member, keyed⟩
  · rintro (same | ⟨other, member, keyed⟩)
    · exact .inl same
    · by_cases same : key = sentence.key
      · exact .inl same
      · exact .inr ⟨other, ⟨member, by rwa [keyed]⟩, keyed⟩

end Beliefs

/-! ## Portraits -/

/-- The activity of a priority with the given signed magnitude. -/
def Activity.ofMagnitude (magnitude : Int) : Activity :=
  if Single.signedMagnitude (Single.hundredths 50) < magnitude then .active
  else if Single.signedMagnitude (Single.hundredths 20) < magnitude then .dormant
  else .fading

theorem Activity.ofPriority_eq {priority : Float32} (isNumber : Single.isNaN priority = false) :
    ofPriority priority = ofMagnitude (Single.signedMagnitude priority) := by
  have halfNumber : Single.isNaN (Single.hundredths 50) = false := by decide
  have fifthNumber : Single.isNaN (Single.hundredths 20) = false := by decide
  simp only [ofPriority, ofMagnitude, Single.less_iff, isNumber, halfNumber, fifthNumber,
    true_and]

/-- A concept without its term, its observer and all order among its tasks and beliefs, and with
the values of its budget as signed magnitudes. -/
structure Portrait where
  priority : Int
  durability : Int
  quality : Int
  activity : Activity
  /-- The clock by which its tasks are placed. -/
  clock : Nat
  tasks : String → Option Task
  beliefs : String → Option Sentence

namespace Portrait

/-- The portrait of nothing. -/
def blank : Portrait :=
  ⟨0, 0, 0, .fading, 0, fun _ => none, fun _ => none⟩

/-- The portrait with values at least those of a budget. -/
def raise (portrait : Portrait) (budget : Budget) : Portrait :=
  let priority := max portrait.priority (Single.signedMagnitude budget.priority)
  { portrait with
    priority := priority
    durability := max portrait.durability (Single.signedMagnitude budget.durability)
    quality := max portrait.quality (Single.signedMagnitude budget.quality)
    activity := .ofMagnitude priority }

/-- The task that becomes resident when a task meets the resident one of its key. -/
def meet (task : Task) : Option Task → Task
  | none => task
  | some resident =>
      match task.policy with
      | .replace => task
      | .merge => { resident with budget := resident.budget.merge task.budget }

/-- The portrait with a task entered, and its belief if it is a judgment. -/
def enter (portrait : Portrait) (task : Task) : Portrait :=
  let entering := meet task (portrait.tasks task.key)
  { portrait with
    tasks := Function.update portrait.tasks task.key
      (some { entering with budget := entering.budget.placedAt portrait.clock })
    beliefs :=
      if task.sentence.isJudgment then
        Function.update portrait.beliefs task.key (some task.sentence)
      else
        portrait.beliefs }

/-- The portrait after a delivery. -/
def receive (portrait : Portrait) (task : Task) : Portrait :=
  (portrait.raise task.budget).enter task

/-- The larger of values does not depend on their order, and tasks of different keys do not
meet. -/
theorem receive_comm {first second : Task} (different : first.key ≠ second.key)
    (portrait : Portrait) :
    (portrait.receive first).receive second = (portrait.receive second).receive first := by
  simp only [receive, raise, enter, Portrait.mk.injEq]
  refine ⟨max_right_comm _ _ _, max_right_comm _ _ _, max_right_comm _ _ _, ?_, trivial, ?_, ?_⟩
  · rw [max_right_comm]
  · rw [Function.update_of_ne different.symm, Function.update_of_ne different]
    exact Function.update_comm different _ _ _
  · split
    · split
      · exact Function.update_comm different _ _ _
      · rfl
    · rfl

end Portrait

/-- The portraits of the concepts of a memory, by name. -/
abbrev Album := String → Option Portrait

/-- The album after a task was delivered under a name. Who is not there is made. -/
def Album.deliver (album : Album) (delivery : Task × String) : Album :=
  Function.update album delivery.2
    (some (((album delivery.2).getD .blank).receive delivery.1))

/-- Two deliveries commute, under different names as well as under one, unless they are of
different tasks of one key. -/
theorem Album.deliver_comm {first second : Task × String}
    (compatible : first.1.key = second.1.key → first.1 = second.1) (album : Album) :
    (album.deliver first).deliver second = (album.deliver second).deliver first := by
  unfold deliver
  by_cases sameName : first.2 = second.2
  · by_cases sameKey : first.1.key = second.1.key
    · have same : first = second := Prod.ext (compatible sameKey) sameName
      rw [same]
    · rw [sameName]
      simp only [Function.update_self, Function.update_idem, Option.getD_some]
      rw [Portrait.receive_comm sameKey]
  · rw [Function.update_of_ne (Ne.symm sameName), Function.update_of_ne sameName]
    exact Function.update_comm sameName _ _ _

/-- Whatever the order of deliveries, the album they lead to is the same. -/
theorem Album.deliver_perm {deliveries others : List (Task × String)}
    (perm : deliveries.Perm others)
    (compatible : ∀ first ∈ deliveries, ∀ second ∈ deliveries,
      first.1.key = second.1.key → first.1 = second.1)
    (album : Album) : deliveries.foldl Album.deliver album = others.foldl Album.deliver album :=
  perm.foldl_eq'
    (fun first firstMember second secondMember album =>
      album.deliver_comm (compatible first firstMember second secondMember)) album

/-! ## Portraits of concepts -/

namespace Concept

variable {parameters : Parameters} {concept left right : Concept} {task : Task}
  {budget : Budget}

/-- The portrait of a concept. -/
def portrait (concept : Concept) : Portrait where
  priority := Single.signedMagnitude concept.budget.priority
  durability := Single.signedMagnitude concept.budget.durability
  quality := Single.signedMagnitude concept.budget.quality
  activity := concept.activity
  clock := concept.tasks.clock
  tasks := concept.tasks.find?
  beliefs := concept.beliefs.find?

theorem portrait_create {serial : Nat} (term : Term) (inRange : budget.InRange) :
    (create term budget parameters serial).portrait = Portrait.blank.raise budget := by
  have priority := inRange.priority.signedMagnitude_nonneg
  have durability := inRange.durability.signedMagnitude_nonneg
  have quality := inRange.quality.signedMagnitude_nonneg
  simp only [portrait, create, Portrait.raise, Portrait.blank, max_eq_right priority,
    max_eq_right durability, max_eq_right quality,
    Activity.ofPriority_eq inRange.priority.isNumber]
  rfl

theorem portrait_reinforce (inRange : concept.budget.InRange) (otherInRange : budget.InRange) :
    ({ concept with budget := concept.budget.merge budget } : Concept).refresh.1.portrait =
      concept.portrait.raise budget := by
  have priority := Single.signedMagnitude_larger inRange.priority.isNumber
    otherInRange.priority.isNumber
  have durability := Single.signedMagnitude_larger inRange.durability.isNumber
    otherInRange.durability.isNumber
  have quality := Single.signedMagnitude_larger inRange.quality.isNumber
    otherInRange.quality.isNumber
  have activity :
      Activity.ofPriority (Single.larger concept.budget.priority budget.priority) =
        .ofMagnitude (Single.signedMagnitude
          (Single.larger concept.budget.priority budget.priority)) :=
    Activity.ofPriority_eq (inRange.priority.larger otherInRange.priority).isNumber
  simp only [portrait, refresh, Portrait.raise, Budget.merge, activity, priority, durability,
    quality]

/-- What becomes resident among tasks is what the two of one key come to. -/
theorem placed_entering (bag : TaskBag) (task : Task) :
    bag.placed (bag.entering task) =
      { Portrait.meet task (bag.find? task.key) with
        budget := (Portrait.meet task (bag.find? task.key)).budget.placedAt bag.clock } := by
  have sameEntering : bag.entering task = Portrait.meet task (bag.find? task.key) := by
    have isKey : Item.key task = task.key := rfl
    have isPolicy : Item.policy task = task.policy := rfl
    rw [Bag.entering, isKey]
    cases bag.find? task.key with
    | none => rfl
    | some resident =>
        simp only [isPolicy, Portrait.meet]
        cases task.policy with
        | replace => rfl
        | merge => rfl
  rw [sameEntering]
  rfl

/-- A concept accepts a task for which there is room, and which is no stronger than itself. -/
theorem portrait_accept (inOrder : concept.InOrder parameters Budget.InRange)
    (fresh : concept.activity = .ofPriority concept.budget.priority)
    (notStronger : Single.less concept.budget.priority task.priority = false)
    (taskRoom : concept.tasks.HasRoom task.key)
    (beliefRoom : task.sentence.isJudgment = true → concept.beliefs.HasRoom task.key) :
    (concept.accept task).1.portrait = concept.portrait.enter task := by
  have tasks : (concept.tasks.put task).bag.find? =
      Function.update concept.tasks.find? task.key
        (some (concept.tasks.placed (concept.tasks.entering task))) := by
    funext key
    rw [Function.update_apply]
    exact (Bag.find?_put taskRoom).2 key
  have beliefs : (if task.sentence.isJudgment then concept.beliefs.add task.sentence
      else concept.beliefs).find? =
        if task.sentence.isJudgment then
          Function.update concept.beliefs.find? task.key (some task.sentence)
        else concept.beliefs.find? := by
    split
    · exact inOrder.beliefs.find?_add (beliefRoom ‹_›)
    · rfl
  simp only [accept, notStronger, refresh, portrait, Portrait.enter, tasks, beliefs, fresh,
    Bag.clock_put, placed_entering]
  rfl

/-! ## Alike -/

/-- Concepts that differ in nothing but the order in which they came to be what they are. -/
structure Alike (left right : Concept) : Prop where
  budget : left.budget.SameValues right.budget
  activity : left.activity = right.activity
  tasks : ∀ key, left.tasks.find? key = right.tasks.find? key
  beliefs : ∀ sentence, sentence ∈ left.beliefs.sentences ↔ sentence ∈ right.beliefs.sentences

theorem alike_of_portrait_eq (leftInOrder : left.InOrder parameters Budget.InRange)
    (rightInOrder : right.InOrder parameters Budget.InRange)
    (same : left.portrait = right.portrait) : left.Alike right where
  budget :=
    { priority := Single.same_iff.mpr ⟨leftInOrder.budget.priority.isNumber,
        rightInOrder.budget.priority.isNumber, congrArg Portrait.priority same⟩
      durability := Single.same_iff.mpr ⟨leftInOrder.budget.durability.isNumber,
        rightInOrder.budget.durability.isNumber, congrArg Portrait.durability same⟩
      quality := Single.same_iff.mpr ⟨leftInOrder.budget.quality.isNumber,
        rightInOrder.budget.quality.isNumber, congrArg Portrait.quality same⟩ }
  activity := congrArg Portrait.activity same
  tasks := congrFun (congrArg Portrait.tasks same)
  beliefs := by
    intro sentence
    have sameBeliefs : left.beliefs.find? = right.beliefs.find? := congrArg Portrait.beliefs same
    rw [leftInOrder.beliefs.mem_iff_find?, rightInOrder.beliefs.mem_iff_find?, sameBeliefs]

end Concept

end AttentiveReasoner.Knowledge
