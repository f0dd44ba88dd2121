import AttentiveReasoner.Proofs.Attention.Bag.Admission
import AttentiveReasoner.Proofs.Memory.Moments
import AttentiveReasoner.Proofs.Memory.Upkeep

/-!
Contract: the observers of the concepts of a memory, along every run.

Owns:
- the moments that each operation brings about;
- runs with the moments of all their operations, those of a rule at work included;
- that these moments pass over the observers of the resident concepts;
- that whoever ever started to observe observes one resident concept or is detached, and what
  it has been shown.

Does not own: texts, and which concept leaves.

The observer of a concept in hand is beside those of the residents until the concept is put back.
There the ways part: it is back with its concept, or it has come to a resident of the same
term that has none, or it is detached.
-/

namespace AttentiveReasoner

open AttentiveReasoner.Attention
open AttentiveReasoner.Evidence
open AttentiveReasoner.Inference
open AttentiveReasoner.Knowledge
open AttentiveReasoner.Language
open AttentiveReasoner.Numeric

namespace Memory

/-! ## The moments of an operation -/

/-- The moment in which the resident concept of a name is changed, if there is one. -/
def editMoments (memory : Memory) (name : String) (moment : Concept → Moment) : List Moment :=
  ((memory.concept? name).map moment).toList

/-- The moments in which a concept is put into a bag. A resident of its key absorbs it: the
observer of the concept is detached if the resident has one, and the resident is updated. Whoever
leaves the bag is detached. -/
def putMoments (concepts : ConceptBag) (concept : Concept) : List Moment :=
  match concepts.find? concept.key with
  | some resident =>
      (if resident.observer.isSome then [.observe .detach concept] else []) ++
        [.update (Concept.absorb (Item.mapBudget (·.merge concept.budget) resident) concept).1]
  | none => (concepts.put concept).departed.toList.map (.observe .detach)

/-- The moments in which a concept is put back: below the floor it is detached. -/
def putBackMoments (concepts : ConceptBag) (concept : Concept) : List Moment :=
  if Single.less (Item.priority (concepts.forget concept)) concepts.floor then
    [.observe .detach (concepts.forget concept)]
  else
    putMoments concepts (concepts.forget concept)

/-- The moments of an activation: the resident concept is updated, or a new one put in. -/
def activateMoments (memory : Memory) (term : Term) (budget : Budget) : List Moment :=
  match memory.concept? term.name with
  | some concept => [.update (reinforce budget concept).1]
  | none => putMoments memory.concepts (memory.newcomer term budget)

/-- The moments of a delivery: after the activation the concept is updated when it has accepted
the task. -/
def deliverMoments (memory : Memory) (outside : Held) (task : Task) (term : Term) :
    List Moment :=
  let activated := memory.activate outside term task.budget
  memory.activateMoments term task.budget ++
    if activated.1 then
      activated.2.editMoments term.name (fun concept => .update (receive task concept).1)
    else []

/-- The moments of deliveries one after the other. -/
def deliverAllMoments (memory : Memory) (outside : Held) (task : Task) :
    List Term → List Moment
  | [] => []
  | term :: rest =>
      memory.deliverMoments outside task term ++
        (memory.deliver outside task term).deliverAllMoments outside task rest

/-- The moments in which a waiting task is processed. -/
def processNewTaskMoments (memory : Memory) (outside : Held) : List Moment :=
  match memory.newTasks.takeOut with
  | (none, _) => []
  | (some task, newTasks) =>
      { memory with newTasks := newTasks }.deliverAllMoments
        (outside.withTerms [task.content]) task (targets task.content)

/-- The moments in which a rule is applied to a concept, given those of the rule at work: the
concept is updated when it has its task back. -/
def applyRuleMoments (concept : Concept) (inner : List Moment) : List Moment :=
  match concept.takeTask with
  | (none, _) => []
  | (some task, left) => inner ++ [.update (left.putBackTask task).2.refresh.1]

/-- The moments in which a concept is fired, given those of the rule at work. -/
def fireMoments (memory : Memory) (outside : Held) (rule : Rule) (inner : List Moment) :
    List Moment :=
  match memory.concepts.takeOut with
  | (none, _) => []
  | (some concept, concepts) =>
      let applied := { memory with concepts := concepts }.applyRule outside rule concept
      applyRuleMoments concept inner ++ putBackMoments applied.2.2.concepts applied.2.1

/-- The moments of a cycle, given those of the rule at work. -/
def cycleMoments (memory : Memory) (outside : Held) (rule : Rule) (inner : List Moment) :
    List Moment :=
  let begun := { memory with cycles := memory.cycles + 1 }
  begun.processNewTaskMoments outside ++
    (begun.processNewTask outside).2.fireMoments outside rule inner

/-! ## The moments of firing -/

theorem applyRuleMoments_idle {concept : Concept} {inner : List Moment}
    (nothing : concept.takeTask.1 = none) : applyRuleMoments concept inner = [] := by
  unfold applyRuleMoments
  rcases taken : concept.takeTask with ⟨_ | task, left⟩
  · rfl
  · rw [taken] at nothing
    contradiction

theorem applyRuleMoments_task {concept : Concept} {task : Task} {inner : List Moment}
    (isTaken : concept.takeTask.1 = some task) :
    applyRuleMoments concept inner =
      inner ++ [.update (concept.takeTask.2.putBackTask task).2.refresh.1] := by
  unfold applyRuleMoments
  rcases taken : concept.takeTask with ⟨_ | other, left⟩
  · rw [taken] at isTaken
    contradiction
  · rw [taken] at isTaken
    obtain rfl := Option.some.inj isTaken
    rfl

theorem fireMoments_idle {memory : Memory} {outside : Held} {rule : Rule} {inner : List Moment}
    (nothing : memory.concepts.takeOut.1 = none) : memory.fireMoments outside rule inner = [] := by
  unfold fireMoments
  rcases taken : memory.concepts.takeOut with ⟨_ | concept, concepts⟩
  · rfl
  · rw [taken] at nothing
    contradiction

theorem fireMoments_concept {memory : Memory} {concept : Concept} {outside : Held} {rule : Rule}
    {inner : List Moment} (isTaken : memory.concepts.takeOut.1 = some concept) :
    let applied := ({ memory with concepts := memory.concepts.takeOut.2 } : Memory).applyRule
      outside rule concept
    memory.fireMoments outside rule inner =
      applyRuleMoments concept inner ++ putBackMoments applied.2.2.concepts applied.2.1 := by
  unfold fireMoments
  rcases taken : memory.concepts.takeOut with ⟨_ | other, concepts⟩
  · rw [taken] at isTaken
    contradiction
  · rw [taken] at isTaken
    obtain rfl := Option.some.inj isTaken
    rfl

/-! ## Runs -/

/-- A memory unfolds into another one by operations on it, with all their moments. A rule may
do anything to the memory that unfolds it, and may fail. Whoever starts to observe is fresh. Beside
the memory's own operations, terms are built and stamps are made. -/
inductive Unfolds : Memory → List Moment → Memory → Prop
  | here (memory : Memory) : Unfolds memory [] memory
  | aside {start memory : Memory} {moments : List Moment} (run : Unfolds start moments memory)
      (registry : Registry) (lastSerial cycles : Nat) :
      Unfolds start moments
        { memory with registry := registry, lastSerial := lastSerial, cycles := cycles }
  | inputTask {start memory : Memory} {moments : List Moment} (run : Unfolds start moments memory)
      (task : Task) : Unfolds start moments (memory.inputTask task).2
  | activate {start memory : Memory} {moments : List Moment} (run : Unfolds start moments memory)
      (outside : Held) (term : Term) (budget : Budget) :
      Unfolds start (moments ++ memory.activateMoments term budget)
        (memory.activate outside term budget).2
  | processNewTask {start memory : Memory} {moments : List Moment}
      (run : Unfolds start moments memory) (outside : Held) :
      Unfolds start (moments ++ memory.processNewTaskMoments outside)
        (memory.processNewTask outside).2
  | fireConcept {start memory : Memory} {moments inner : List Moment}
      (run : Unfolds start moments memory) (outside : Held) (rule : Rule)
      (ruleRun : ∀ concept task, memory.concepts.takeOut.1 = some concept →
        concept.takeTask.1 = some task →
          Unfolds { memory with concepts := memory.concepts.takeOut.2 } inner
            (rule { memory with concepts := memory.concepts.takeOut.2 }
              (outside.withTerms (task.content :: concept.takeTask.2.contents))
              concept.takeTask.2 task).2) :
      Unfolds start (moments ++ memory.fireMoments outside rule inner)
        (memory.fireConcept outside rule).2
  | observe {start memory : Memory} {moments : List Moment} (run : Unfolds start moments memory)
      (name : String) (observation : Observation)
      (fresh : ∀ observer, observation = .startPlay observer →
        (memory.displays.of observer).started = 0) :
      Unfolds start (moments ++ memory.editMoments name (.observe observation))
        (memory.editConcept name observation.change).2

/-- A cycle is a delivery and a firing. -/
theorem Unfolds.runCycle {start memory : Memory} {moments inner : List Moment} {rule : Rule}
    (run : Unfolds start moments memory) (outside : Held)
    (ruleRun : ∀ (delivered : Memory) concept task,
      delivered = (({ memory with cycles := memory.cycles + 1 } : Memory).processNewTask outside).2 →
      delivered.concepts.takeOut.1 = some concept → concept.takeTask.1 = some task →
        Unfolds { delivered with concepts := delivered.concepts.takeOut.2 } inner
          (rule { delivered with concepts := delivered.concepts.takeOut.2 }
            (outside.withTerms (task.content :: concept.takeTask.2.contents))
            concept.takeTask.2 task).2) :
    Unfolds start (moments ++ memory.cycleMoments outside rule inner)
      (memory.runCycle outside rule).2 := by
  obtain ⟨processed, isProcessed, result⟩ := runCycle_eq memory outside rule
  have begun : Unfolds start moments { memory with cycles := memory.cycles + 1 } :=
    run.aside memory.registry memory.lastSerial (memory.cycles + 1)
  have delivered := begun.processNewTask outside
  have fired := delivered.fireConcept outside rule fun concept task => ruleRun _ concept task rfl
  rw [List.append_assoc] at fired
  rw [result, isProcessed]
  exact fired

/-! ## Moments account for operations -/

/-- The observers of the resident concepts. -/
def watchers (memory : Memory) : Multiset Observer :=
  Concept.watchers memory.concepts.items

/-- A memory within its bounds comes of another one, and of concepts in hand, by moments. -/
structure Moves (capacity : Nat) (hand : List Concept) (start : Memory) (moments : List Moment)
    (memory : Memory) : Prop where
  sound : memory.concepts.Sound capacity
  passes : Passes (Concept.watchers hand + start.watchers) start.displays moments
    memory.watchers memory.displays

variable {capacity : Nat} {hand : List Concept} {start memory : Memory}
  {moments more : List Moment} {outside : Held} {concept : Concept}

/-- Without concepts in hand, the observers at the start are those of the residents. -/
theorem moves_alone_iff : Moves capacity [] start moments memory ↔
    memory.concepts.Sound capacity ∧
      Passes start.watchers start.displays moments memory.watchers memory.displays := by
  have alone : Concept.watchers [] + start.watchers = start.watchers := by
    rw [Concept.watchers_nil, Multiset.zero_add]
  constructor
  · rintro ⟨sound, passes⟩
    exact ⟨sound, alone ▸ passes⟩
  · rintro ⟨sound, passes⟩
    exact ⟨sound, alone.symm ▸ passes⟩

theorem Moves.here (sound : memory.concepts.Sound capacity) :
    Moves capacity [] memory [] memory :=
  moves_alone_iff.mpr ⟨sound, .done _ _⟩

theorem Moves.trans {middle : Memory} (first : Moves capacity hand start moments middle)
    (second : Moves capacity [] middle more memory) :
    Moves capacity hand start (moments ++ more) memory :=
  ⟨second.sound, first.passes.trans (moves_alone_iff.mp second).2⟩

/-- The observers are those of the concepts. -/
theorem Moves.of_same {other : Memory} (moves : Moves capacity hand start moments memory)
    (sameConcepts : other.concepts = memory.concepts)
    (sameDisplays : other.displays = memory.displays) :
    Moves capacity hand start moments other := by
  have sameWatchers : other.watchers = memory.watchers := by
    rw [watchers, watchers, sameConcepts]
  refine ⟨sameConcepts ▸ moves.sound, ?_⟩
  rw [sameWatchers, sameDisplays]
  exact moves.passes

/-- What has neither concepts nor displays to do with it may differ at the start. -/
theorem Moves.from_same {other : Memory} (moves : Moves capacity hand start moments memory)
    (sameConcepts : other.concepts = start.concepts)
    (sameDisplays : other.displays = start.displays) :
    Moves capacity hand other moments memory := by
  have sameWatchers : other.watchers = start.watchers := by
    rw [watchers, watchers, sameConcepts]
  refine ⟨moves.sound, ?_⟩
  rw [sameWatchers, sameDisplays]
  exact moves.passes

theorem Moves.of_hand {other : Concept} (moves : Moves capacity [concept] start moments memory)
    (same : other.observer = concept.observer) :
    Moves capacity [other] start moments memory := by
  refine ⟨moves.sound, ?_⟩
  rw [Concept.watchers_congr same]
  exact moves.passes

/-! ## Changing a concept in place -/

/-- A moment stands for a change of a concept with its notices. -/
structure Marks {ρ : Type} (change : Concept → Concept × List Notice × ρ)
    (moment : Concept → Moment) : Prop where
  before : ∀ concept, (moment concept).concept.observer = concept.observer
  after : ∀ concept, (moment concept).changed.observer = (change concept).1.observer
  notices : ∀ concept, (moment concept).notices = (change concept).2.1

theorem Marks.moves {ρ : Type} {change : Concept → Concept × List Notice × ρ}
    {moment : Concept → Moment} (marks : Marks change moment)
    (sound : memory.concepts.Sound capacity) (name : String)
    (keepsKey : ∀ concept, (change concept).1.key = concept.key)
    (fresh : ∀ concept, (moment concept).Fresh memory.displays) :
    Moves capacity [] memory (memory.editMoments name moment)
      (memory.editConcept name change).2 := by
  unfold editMoments
  cases found : memory.concept? name with
  | none =>
      rw [editConcept_absent found]
      exact .here sound
  | some concept =>
      obtain ⟨others, before, after⟩ := sound.consistent.items_edit found
      have told : (memory.concepts.edit name change).1 = some (change concept).2 :=
        (Bag.find?_edit found).1
      have startWatchers : memory.watchers =
          Concept.watchers [(moment concept).concept] + Concept.watchers others := by
        rw [watchers, Concept.watchers_perm before, Concept.watchers_cons,
          Concept.watchers_congr (marks.before concept)]
      have endWatchers : (memory.editConcept name change).2.watchers =
          Concept.watchers [(moment concept).changed] + Concept.watchers others := by
        rw [editConcept_memory]
        change Concept.watchers (memory.concepts.edit name change).2.items = _
        rw [Concept.watchers_perm after, Concept.watchers_cons,
          Concept.watchers_congr (marks.after concept)]
        rfl
      have endDisplays : (memory.editConcept name change).2.displays =
          memory.displays.receiveAll (moment concept).notices := by
        rw [editConcept_memory, told, marks.notices]
        rfl
      refine moves_alone_iff.mpr ⟨?_, ?_⟩
      · rw [editConcept_memory]
        exact sound.edit name change keepsKey
      · rw [startWatchers, endWatchers, endDisplays]
        exact .single (moment concept) (fresh concept) _

/-- An update starts no observer. -/
theorem fresh_update (displays : Displays) (concept : Concept) :
    (Moment.update concept).Fresh displays :=
  fun _ _ starts => nomatch starts

theorem fresh_detach (displays : Displays) (concept : Concept) :
    (Moment.observe .detach concept).Fresh displays :=
  fun _ _ starts => nomatch starts

theorem reinforce_marks (budget : Budget) :
    Marks (reinforce budget) (fun concept => .update (reinforce budget concept).1) :=
  ⟨fun _ => rfl, fun _ => rfl, fun _ => rfl⟩

theorem receive_marks (task : Task) :
    Marks (receive task) (fun concept => .update (receive task concept).1) :=
  ⟨fun _ => rfl, fun _ => rfl, fun _ => rfl⟩

theorem observe_keepsKey (observation : Observation) (concept : Concept) :
    (observation.change concept).1.key = concept.key := by
  cases observation <;> rfl

theorem observe_marks (observation : Observation) :
    Marks observation.change (.observe observation) :=
  ⟨fun _ => rfl, fun _ => rfl, fun _ => rfl⟩

/-! ## Putting a concept in -/

theorem afterPlacing_displays (memory : Memory) (outside : Held)
    (placement : Placement Concept Notice) :
    (memory.afterPlacing outside placement).displays =
      (memory.displays.receiveAll placement.notices).receiveAll
        (placement.departed.toList.flatMap (·.detach.2)) := by
  unfold afterPlacing
  cases placement.departed with
  | none => rfl
  | some departed =>
      rw [Option.toList_some, List.flatMap_singleton]
      rfl

theorem afterPlacing_watchers (memory : Memory) (outside : Held)
    (placement : Placement Concept Notice) :
    (memory.afterPlacing outside placement).watchers =
      Concept.watchers placement.bag.items := by
  rw [watchers, (afterPlacing_keeps memory outside placement).1]

/-- Whoever is left without a place is detached. -/
theorem moves_departed (outside : Held) (placement : Placement Concept Notice)
    (sound : placement.bag.Sound capacity) (silent : placement.notices = [])
    (stay : (placement.departed.toList ++ placement.bag.items).Perm
      (concept :: memory.concepts.items)) :
    Moves capacity [concept] memory (placement.departed.toList.map (.observe .detach))
      (memory.afterPlacing outside placement) := by
  have startWatchers : Concept.watchers [concept] + memory.watchers =
      Concept.watchers placement.departed.toList + Concept.watchers placement.bag.items := by
    rw [watchers, ← Concept.watchers_cons, ← Concept.watchers_perm stay, Concept.watchers_append]
  constructor
  case sound =>
    rw [(afterPlacing_keeps memory outside placement).1]
    exact sound
  case passes =>
    rw [startWatchers, afterPlacing_watchers, afterPlacing_displays, silent]
    cases placement.departed with
    | none =>
        rw [Option.toList_none, Concept.watchers_nil, Multiset.zero_add]
        exact .done _ _
    | some departed =>
        have left : Concept.watchers [(Moment.observe .detach departed).changed] = 0 :=
          Concept.watchers_of_none rfl
        have detached := Passes.single (.observe .detach departed)
          (fresh_detach memory.displays departed) (Concept.watchers placement.bag.items)
        rw [left, Multiset.zero_add] at detached
        rw [Option.toList_some, List.flatMap_singleton]
        exact detached

/-- The observer of a concept that a resident absorbs comes along if the resident has none, else
it is detached. -/
theorem passes_absorb (displays : Displays) (resident concept : Concept)
    (others : Multiset Observer) :
    Passes (Concept.watchers [concept] + (Concept.watchers [resident] + others)) displays
      ((if resident.observer.isSome then [.observe .detach concept] else []) ++
        [.update (resident.absorb concept).1])
      (Concept.watchers [(resident.absorb concept).1] + others)
      (displays.receiveAll (resident.absorb concept).2) := by
  obtain ⟨merged, observed, absorbed⟩ := Concept.absorb_cases resident concept
  rw [absorbed]
  cases watched : resident.observer with
  | none =>
      have sameObserver : merged.refresh.1.observer = concept.observer := by
        rw [watched] at observed
        exact observed
      rw [Concept.watchers_of_none watched, Multiset.zero_add,
        ← Concept.watchers_congr sameObserver]
      exact .single (.update merged.refresh.1) (fresh_update displays _) others
  | some watching =>
      have sameObserver : merged.refresh.1.observer = resident.observer := by
        rw [watched] at observed ⊢
        exact observed
      have left : Concept.watchers [(Moment.observe .detach concept).changed] = 0 :=
        Concept.watchers_of_none rfl
      refine .next (.observe .detach concept) (fresh_detach displays concept) ?_
      rw [left, Multiset.zero_add, ← Concept.watchers_congr sameObserver,
        Displays.receiveAll_append]
      exact .single (.update merged.refresh.1) (fresh_update _ _) others

theorem put_moves (sound : memory.concepts.Sound capacity) (outside : Held) (concept : Concept) :
    Moves capacity [concept] memory (putMoments memory.concepts concept)
      (memory.afterPlacing outside (memory.concepts.put concept)) := by
  unfold putMoments
  cases found : memory.concepts.find? concept.key with
  | none =>
      have free : memory.concepts.find? (Item.key concept) = none := found
      obtain ⟨silent, stay⟩ := sound.consistent.items_put_free free
      have sameObserver : (memory.concepts.placed concept).observer = concept.observer := rfl
      exact (moves_departed outside _ (sound.put concept) silent stay).of_hand sameObserver.symm
  | some resident =>
      have resides : memory.concepts.find? (Item.key concept) = some resident := found
      obtain ⟨others, before, nobody, notices, after⟩ :=
        sound.consistent.items_put_merging resides rfl
      let reinforced : Concept := Item.mapBudget (·.merge concept.budget) resident
      have startWatchers : memory.watchers =
          Concept.watchers [reinforced] + Concept.watchers others := by
        rw [watchers, Concept.watchers_perm before, Concept.watchers_cons]
        rfl
      have endWatchers : Concept.watchers (memory.concepts.put concept).bag.items =
          Concept.watchers [(reinforced.absorb concept).1] + Concept.watchers others := by
        rw [Concept.watchers_perm after, Concept.watchers_cons]
        rfl
      constructor
      case sound =>
        rw [(afterPlacing_keeps memory outside _).1]
        exact sound.put concept
      case passes =>
        rw [startWatchers, afterPlacing_watchers, endWatchers, afterPlacing_displays, nobody,
          notices]
        exact passes_absorb memory.displays reinforced concept (Concept.watchers others)

theorem putBack_moves (sound : memory.concepts.Sound capacity) (outside : Held)
    (concept : Concept) :
    Moves capacity [concept] memory (putBackMoments memory.concepts concept)
      (memory.putBackConcept outside concept).2 := by
  have sameObserver : (memory.concepts.forget concept).observer = concept.observer := rfl
  rw [putBackConcept_memory]
  simp only [putBackMoments, Bag.putBack]
  split
  · have left : Moves capacity [memory.concepts.forget concept] memory
        [.observe .detach (memory.concepts.forget concept)] _ :=
      moves_departed outside
        { bag := memory.concepts, departed := some (memory.concepts.forget concept) } sound rfl
        (List.Perm.refl _)
    exact left.of_hand sameObserver.symm
  · exact (put_moves sound outside (memory.concepts.forget concept)).of_hand sameObserver.symm

/-! ## Delivery -/

theorem activate_moves (sound : memory.concepts.Sound capacity) (outside : Held) (term : Term)
    (budget : Budget) :
    Moves capacity [] memory (memory.activateMoments term budget)
      (memory.activate outside term budget).2 := by
  unfold activateMoments
  rcases activate_cases memory outside term budget with
    ⟨⟨concept, found⟩, reinforced⟩ | ⟨absent, entered⟩
  · have moves := (reinforce_marks budget).moves sound term.name (fun _ => rfl)
      fun _ => fresh_update _ _
    rw [editMoments, found] at moves
    rw [found, reinforced]
    exact moves
  · have moves := put_moves sound outside (memory.newcomer term budget)
    have unobserved : (memory.newcomer term budget).observer = none := rfl
    have nobody : Concept.watchers [memory.newcomer term budget] =
        Concept.watchers [] := Concept.watchers_of_none unobserved
    rw [absent, entered]
    refine ⟨moves.sound, ?_⟩
    rw [← nobody]
    exact moves.passes

theorem deliver_moves (sound : memory.concepts.Sound capacity) (outside : Held) (task : Task)
    (term : Term) :
    Moves capacity [] memory (memory.deliverMoments outside task term)
      (memory.deliver outside task term) := by
  have activated := activate_moves sound outside term task.budget
  have isReceive : (fun concept : Concept =>
      ((concept.accept task).1, (concept.accept task).2.2, ())) = receive task := rfl
  simp only [deliverMoments, deliver, isReceive]
  rcases isActivated : memory.activate outside term task.budget with ⟨_ | _, after⟩
  · rw [isActivated] at activated
    rw [if_neg Bool.false_ne_true, List.append_nil]
    exact activated
  · rw [isActivated] at activated
    rw [if_pos rfl]
    exact activated.trans ((receive_marks task).moves activated.sound term.name (fun _ => rfl)
      fun _ => fresh_update _ _)

theorem deliverAll_moves (sound : memory.concepts.Sound capacity) (outside : Held) (task : Task)
    (terms : List Term) :
    Moves capacity [] memory (memory.deliverAllMoments outside task terms)
      (terms.foldl (fun memory term => memory.deliver outside task term) memory) := by
  induction terms generalizing memory with
  | nil => exact .here sound
  | cons term rest inductionHypothesis =>
      have delivered := deliver_moves sound outside task term
      exact delivered.trans (inductionHypothesis delivered.sound)

theorem processNewTask_moves (sound : memory.concepts.Sound capacity) (outside : Held) :
    Moves capacity [] memory (memory.processNewTaskMoments outside)
      (memory.processNewTask outside).2 := by
  unfold processNewTaskMoments processNewTask
  rcases memory.newTasks.takeOut with ⟨_ | task, newTasks⟩
  · exact (Moves.here sound).of_same rfl rfl
  · have left : ({ memory with newTasks := newTasks } : Memory).concepts.Sound capacity := sound
    exact (deliverAll_moves left (outside.withTerms [task.content]) task
      (targets task.content)).from_same rfl rfl

/-- Waiting tasks are neither observed nor shown. -/
theorem inputTasks_same (memory : Memory) (tasks : List Task) :
    (memory.inputTasks tasks).concepts = memory.concepts ∧
      (memory.inputTasks tasks).displays = memory.displays := by
  induction tasks generalizing memory with
  | nil => exact ⟨rfl, rfl⟩
  | cons task rest inductionHypothesis =>
      exact inductionHypothesis (memory.inputTask task).2

/-! ## Firing -/

/-- While a rule is at work, the observer of the concept in hand is beside the others. -/
theorem applyRule_moves {inner : List Moment} {rule : Rule}
    (sound : memory.concepts.Sound capacity) (outside : Held) (concept : Concept)
    (ruleMoves : ∀ task, concept.takeTask.1 = some task →
      Moves capacity [] memory inner
        (rule memory (outside.withTerms (task.content :: concept.takeTask.2.contents))
          concept.takeTask.2 task).2) :
    let applied := memory.applyRule outside rule concept
    applied.2.2.concepts.Sound capacity ∧
      Passes (Concept.watchers [concept] + memory.watchers) memory.displays
        (applyRuleMoments concept inner)
        (Concept.watchers [applied.2.1] + applied.2.2.watchers) applied.2.2.displays := by
  intro applied
  rcases applyRule_cases memory outside rule concept with ⟨nothing, result⟩ |
    ⟨task, isTaken, inside, isInside, result⟩
  · have isApplied : applied = _ := result
    have sameObserver : concept.takeTask.2.observer = concept.observer := rfl
    rw [isApplied, applyRuleMoments_idle nothing, Concept.watchers_congr sameObserver]
    exact ⟨sound, .done _ _⟩
  · have isApplied : applied = _ := result
    obtain ⟨insideSound, insidePasses⟩ := moves_alone_iff.mp (ruleMoves task isTaken)
    rw [← isInside] at insideSound insidePasses
    have sameObserver :
        (concept.takeTask.2.putBackTask task).2.refresh.1.observer = concept.observer := rfl
    -- The rule works on the others only, so the observer of the concept stays beside them.
    have beside := insidePasses.beside (Concept.watchers [concept])
    rw [Multiset.add_comm, Multiset.add_comm inside.2.watchers,
      ← Concept.watchers_congr sameObserver] at beside
    rw [isApplied, applyRuleMoments_task isTaken, ← Concept.watchers_congr sameObserver]
    exact ⟨insideSound, beside.trans (.single
      (.update (concept.takeTask.2.putBackTask task).2.refresh.1) (fresh_update _ _) _)⟩

/-- A concept is fired: it leaves its bag, a rule is applied to it, and it is put back. -/
theorem fireConcept_moves {inner : List Moment} {rule : Rule}
    (sound : memory.concepts.Sound capacity) (outside : Held)
    (ruleMoves : ∀ concept task, memory.concepts.takeOut.1 = some concept →
      concept.takeTask.1 = some task →
        Moves capacity [] { memory with concepts := memory.concepts.takeOut.2 } inner
          (rule { memory with concepts := memory.concepts.takeOut.2 }
            (outside.withTerms (task.content :: concept.takeTask.2.contents))
            concept.takeTask.2 task).2) :
    Moves capacity [] memory (memory.fireMoments outside rule inner)
      (memory.fireConcept outside rule).2 := by
  have left : ({ memory with concepts := memory.concepts.takeOut.2 } : Memory).concepts.Sound
      capacity := sound.takeOut
  rcases fireConcept_cases memory outside rule with ⟨nothing, result⟩ |
    ⟨concept, isTaken, applied, back, isApplied, isBack, cases⟩
  · have sameWatchers :
        ({ memory with concepts := memory.concepts.takeOut.2 } : Memory).watchers =
          memory.watchers := by
      simp only [watchers, Bag.items, (Bag.takeOut_none nothing).1]
    rw [result, fireMoments_idle nothing]
    refine moves_alone_iff.mpr ⟨left, ?_⟩
    rw [sameWatchers]
    exact .done _ _
  · have startWatchers : memory.watchers = Concept.watchers [concept] +
        ({ memory with concepts := memory.concepts.takeOut.2 } : Memory).watchers := by
      rw [watchers, Concept.watchers_perm (sound.items_takeOut isTaken), Concept.watchers_cons]
      rfl
    obtain ⟨appliedSound, appliedPasses⟩ := applyRule_moves left outside concept
      fun task => ruleMoves concept task isTaken
    rw [← isApplied] at appliedSound appliedPasses
    have returned := putBack_moves appliedSound
      (outside.withTerms ((derivedTasks applied.1).map Task.content)) applied.2.1
    rw [← isBack] at returned
    have heard : memory.fireMoments outside rule inner =
        applyRuleMoments concept inner ++ putBackMoments applied.2.2.concepts applied.2.1 := by
      rw [isApplied]
      exact fireMoments_concept isTaken
    have moved : Moves capacity [] memory (memory.fireMoments outside rule inner) back.2 := by
      refine moves_alone_iff.mpr ⟨returned.sound, ?_⟩
      rw [startWatchers, heard]
      exact appliedPasses.trans returned.passes
    rcases cases with ⟨failure, _, result⟩ | ⟨tasks, _, result⟩
    · rw [result]
      exact moved
    · obtain ⟨sameConcepts, sameDisplays⟩ := inputTasks_same back.2 tasks
      rw [result]
      exact moved.of_same sameConcepts sameDisplays

/-! ## Along a run -/

/-- Every run is accounted for by its moments, wherever it starts. -/
theorem Unfolds.moves (run : Unfolds start moments memory)
    (sound : start.concepts.Sound capacity) : Moves capacity [] start moments memory := by
  induction run with
  | here => exact .here sound
  | aside _ registry lastSerial cycles inductionHypothesis =>
      exact (inductionHypothesis sound).of_same rfl rfl
  | inputTask _ task inductionHypothesis => exact (inductionHypothesis sound).of_same rfl rfl
  | activate _ outside term budget inductionHypothesis =>
      have moved := inductionHypothesis sound
      exact moved.trans (activate_moves moved.sound outside term budget)
  | processNewTask _ outside inductionHypothesis =>
      have moved := inductionHypothesis sound
      exact moved.trans (processNewTask_moves moved.sound outside)
  | fireConcept _ outside rule _ inductionHypothesis ruleHypothesis =>
      have moved := inductionHypothesis sound
      -- The run of the rule starts without the fired concept, which is in hand meanwhile.
      exact moved.trans (fireConcept_moves moved.sound outside
        fun concept task isTaken takesTask =>
          ruleHypothesis concept task isTaken takesTask moved.sound.takeOut)
  | observe _ name observation fresh inductionHypothesis =>
      have moved := inductionHypothesis sound
      exact moved.trans ((observe_marks observation).moves moved.sound name
        (observe_keepsKey observation) fun concept observer _ isStart =>
          fresh observer (Moment.observe.inj isStart).1)

/-! ## Attached or detached -/

/-- An observer observes one resident concept, and is not detached. -/
structure Attached (memory : Memory) (observer : Observer) : Prop where
  once : memory.concepts.items.countP (fun concept => concept.observer = some observer) = 1
  attached : (memory.displays.of observer).detached = false

/-- An observer is detached: it observes no resident concept and is not showing, and nothing is
shown to it any more, whatever the memory unfolds into. -/
structure Detached (memory : Memory) (observer : Observer) : Prop where
  detached : (memory.displays.of observer).detached = true
  idle : (memory.displays.of observer).showing = false
  nowhere : ∀ concept ∈ memory.concepts.items, concept.observer ≠ some observer
  silent : ∀ {later : Memory} {moments : List Moment}, Unfolds memory moments later →
    later.displays.of observer = memory.displays.of observer

/-- While observers and displays agree, whoever has started is attached or detached. -/
theorem attached_or_detached_of_started (sound : memory.concepts.Sound capacity)
    (attended : Attended memory.watchers memory.displays) {observer : Observer}
    (started : (memory.displays.of observer).started ≠ 0) :
    memory.Attached observer ∨ memory.Detached observer := by
  cases isDetached : (memory.displays.of observer).detached with
  | false =>
      have member : observer ∈ memory.watchers :=
        (attended.mem_iff observer).mpr ⟨started, isDetached⟩
      have once := Multiset.count_eq_one_of_mem attended.nodup member
      rw [watchers, Concept.count_watchers] at once
      exact .inl ⟨once, isDetached⟩
  | true =>
      refine .inr ⟨isDetached, attended.idle observer isDetached, ?_, ?_⟩
      · intro concept member observes
        exact attended.notMem_of_detached isDetached
          (Concept.mem_watchers.mpr ⟨concept, member, observes⟩)
      · intro later moments run
        exact (attended.passes (moves_alone_iff.mp (run.moves sound)).2).2 observer isDetached

/-- On every run from an empty memory, whatever its bags draw, whoever ever started to observe is
attached or detached. A recording has been shown a text whenever it started, whenever its concept
was played, and whenever its concept was updated while it was showing: the text of the concept
then. -/
theorem Unfolds.attached_or_detached {parameters : Parameters} {symbols : Symbols}
    (run : Unfolds (empty parameters symbols) moments memory) :
    (∀ observer concept, .observe (.startPlay observer) concept ∈ moments →
        memory.Attached observer ∨ memory.Detached observer) ∧
      ∀ name, (memory.displays.of (.recording name)).shown =
        Moment.gained (.recording name) false moments := by
  obtain ⟨sound, passes⟩ := moves_alone_iff.mp
    (run.moves (Bag.empty_sound parameters.conceptBagConfig (parameters.draws .concepts)))
  have nobody : (empty parameters symbols).watchers = 0 := rfl
  rw [nobody] at passes
  have attended : Attended memory.watchers memory.displays :=
    (Attended.empty.passes passes).1
  constructor
  · intro observer concept member
    exact attached_or_detached_of_started sound attended (passes.started_of_mem member)
  · intro name
    exact passes.shown_eq name

/-- Parameters for one concept at a time. -/
def solitary : Parameters where
  conceptBagSize := 1

/-- The rule that derives nothing and fails. -/
def failing : Rule :=
  fun memory _ _ _ => (.error (.reductionTooDeep "leaf" 0), memory)

/-- A memory that was told about `leaf`. -/
def toldLeaf : Memory :=
  let budget : Budget := .corrected (Single.hundredths 60) (Single.hundredths 50) Single.zero
  let told := ((empty solitary .usual).inputTask
    ⟨⟨.atom 0 "leaf", .judgment, .input 1 0⟩, budget, .input⟩).2
  (told.processNewTask Held.nothing).2

/-- The concept of `leaf` was observed, then fired in vain, then crowded out. -/
def crowdedLeaf : Memory :=
  let budget : Budget := .corrected (Single.hundredths 90) (Single.hundredths 50) Single.zero
  let observed :=
    (toldLeaf.editConcept "leaf" (Observation.startPlay (.recording "watcher")).change).2
  ((observed.fireConcept Held.nothing failing).2.activate Held.nothing (.atom 1 "stem") budget).2

/-- The observer was shown the text when it started and when the rule had failed. Then it was
detached. -/
theorem crowdedLeaf_detached :
    ∃ moments, Unfolds (empty solitary .usual) moments crowdedLeaf ∧
      (crowdedLeaf.Attached (.recording "watcher") ∨
        crowdedLeaf.Detached (.recording "watcher")) ∧
      (crowdedLeaf.displays.of (.recording "watcher")).detached = true ∧
      (crowdedLeaf.displays.of (.recording "watcher")).shown =
        Moment.gained (.recording "watcher") false moments ∧
      (crowdedLeaf.displays.of (.recording "watcher")).shown.length = 2 := by
  obtain ⟨concept, found⟩ : ∃ concept, toldLeaf.concept? "leaf" = some concept :=
    Option.isSome_iff_exists.mp (by decide +kernel)
  have fresh : ∀ observer, Observation.startPlay (.recording "watcher") = .startPlay observer →
      (toldLeaf.displays.of observer).started = 0 := by
    rintro observer ⟨⟩
    decide +kernel
  have told : Unfolds (empty solitary .usual) _ toldLeaf :=
    ((Unfolds.here _).inputTask _).processNewTask _
  have observed := told.observe "leaf" (.startPlay (.recording "watcher")) fresh
  have fired := observed.fireConcept Held.nothing failing fun _ _ _ _ => .here _
  have run : Unfolds (empty solitary .usual) _ crowdedLeaf :=
    fired.activate Held.nothing (.atom 1 "stem") _
  have starts : .observe (.startPlay (.recording "watcher")) concept ∈
      toldLeaf.editMoments "leaf" (.observe (.startPlay (.recording "watcher"))) := by
    rw [editMoments, found]
    exact List.mem_singleton_self _
  obtain ⟨attachedOrDetached, shown⟩ := run.attached_or_detached
  refine ⟨_, run, attachedOrDetached _ concept ?_, by decide +kernel, shown _, by decide +kernel⟩
  exact List.mem_append_left _ (List.mem_append_left _ (List.mem_append_right _ starts))

end Memory

end AttentiveReasoner
