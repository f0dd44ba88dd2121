import AttentiveReasoner.Proofs.Knowledge.Activity
import AttentiveReasoner.Proofs.Memory.Exchanges
import AttentiveReasoner.Proofs.Memory.Holdings

/-!
Contract: the activity of the concepts of a memory, and what their observers were shown,
along every run.

Owns:
- runs with any rules that do no more than a caller may, and with observers that come
  and go;
- that the activity of a resident concept is that of a priority of which ageing left the
  current one, and that a recording was shown last the text with such a budget;
- that both are up to date as long as nothing is forgotten.

Does not own: selection and the strength of forgetting.

Every operation that raises a priority refreshes the concept afterwards. Firing refreshes it
before it is put back, and putting back is what lowers the priority.
-/

namespace AttentiveReasoner

open AttentiveReasoner.Attention
open AttentiveReasoner.Evidence
open AttentiveReasoner.Inference
open AttentiveReasoner.Knowledge
open AttentiveReasoner.Language
open AttentiveReasoner.Numeric

/-- What may be done about the observer of a concept. -/
inductive Observation where
  | startPlay (observer : Observer)
  | play
  | stop
  | detach

/-- The change of a concept by an observation, with its notices. -/
def Observation.change : Observation → Concept → Concept × List Notice × Unit
  | .startPlay observer, concept =>
      ((concept.startPlay observer).1, (concept.startPlay observer).2, ())
  | .play, concept => (concept, concept.play, ())
  | .stop, concept => (concept, concept.stop, ())
  | .detach, concept => (concept.detach.1, concept.detach.2, ())

namespace Memory

section AnyArithmetic

variable [Arithmetic]

/-! ## Runs -/

/-- A memory leads to another one by operations on it, among them firing with any rule that
itself only leads the memory on. A run may be barred from firing. Beside the memory's
own operations, terms are built and stamps are made. -/
inductive Leads (mayFire : Prop) : Memory → Memory → Prop
  | here (memory : Memory) : Leads mayFire memory memory
  | aside {start memory : Memory} (led : Leads mayFire start memory)
      (registry : Registry) (lastSerial cycles : Nat) :
      Leads mayFire start
        { memory with registry := registry, lastSerial := lastSerial, cycles := cycles }
  | inputTask {start memory : Memory} (led : Leads mayFire start memory) (task : Task) :
      Leads mayFire start (memory.inputTask task).2
  | activate {start memory : Memory} (led : Leads mayFire start memory)
      (outside : Held) (term : Term) (budget : Budget) :
      Leads mayFire start (memory.activate outside term budget).2
  | processNewTask {start memory : Memory} (led : Leads mayFire start memory)
      (outside : Held) : Leads mayFire start (memory.processNewTask outside).2
  | fireConcept {start memory : Memory} (led : Leads mayFire start memory)
      (fires : mayFire) (outside : Held) (rule : Rule)
      (leads : ∀ memory outside concept task,
        Leads mayFire memory (rule memory outside concept task).2) :
      Leads mayFire start (memory.fireConcept outside rule).2
  | observe {start memory : Memory} (led : Leads mayFire start memory)
      (name : String) (observation : Observation) :
      Leads mayFire start (memory.editConcept name observation.change).2

variable {mayFire : Prop} {start memory : Memory} {outside : Held}

theorem Leads.runCycle {rule : Rule} (led : Leads mayFire start memory) (fires : mayFire)
    (outside : Held)
    (leads : ∀ memory outside concept task,
      Leads mayFire memory (rule memory outside concept task).2) :
    Leads mayFire start (memory.runCycle outside rule).2 := by
  obtain ⟨processed, isProcessed, result⟩ := runCycle_eq memory outside rule
  have begun : Leads mayFire start { memory with cycles := memory.cycles + 1 } :=
    led.aside memory.registry memory.lastSerial (memory.cycles + 1)
  rw [result, isProcessed]
  exact (begun.processNewTask outside).fireConcept fires outside rule leads

/-- A known rule changes no more of a memory than its registry. -/
theorem leads_of_known (rule : KnownRule) (memory : Memory) (outside : Held)
    (concept : Concept) (task : Task) :
    Leads mayFire memory (rule.rule memory outside concept task).2 := by
  rcases rule.known memory outside concept task with nothing | ⟨decay, chains⟩ | ⟨failure, fails⟩
  · rw [nothing]
    exact .here memory
  · rw [chains, chaining]
    split
    · split
      · exact .here memory
      · exact (Leads.here memory).aside _ memory.lastSerial memory.cycles
    · exact .here memory
  · rw [fails]
    exact .here memory

theorem Leads.perform {exchange : Exchange} (led : Leads True start exchange.memory)
    (action : Action) : Leads True start (exchange.perform action).memory := by
  cases action with
  | build request => exact led.aside _ exchange.memory.lastSerial exchange.memory.cycles
  | newTask place punctuation =>
      simp only [Exchange.perform]
      split
      · exact led.aside exchange.memory.registry _ exchange.memory.cycles
      · exact led
  | inputTask place punctuation stamp budget origin =>
      simp only [Exchange.perform]
      split
      · exact led.inputTask _
      · exact led
  | activate place budget =>
      simp only [Exchange.perform]
      split
      · exact led.activate _ _ _
      · exact led
  | processNewTask => exact led.processNewTask _
  | fire rule => exact led.fireConcept trivial _ _ (leads_of_known rule)
  | cycle rule => exact led.runCycle trivial _ (leads_of_known rule)

/-- Whatever a caller does, it leads the memory on. -/
theorem Leads.run {exchange : Exchange} (led : Leads True start exchange.memory)
    (actions : List Action) : Leads True start (exchange.run actions).memory := by
  induction actions generalizing exchange with
  | nil => exact led
  | cons action rest inductionHypothesis => exact inductionHypothesis (led.perform action)

/-! ## The invariant -/

/-- The concepts in a memory and at hand follow their priorities, and what is shown is
accounted for. A concept is at hand when it is out of its bag, and away when it is given
to a rule. -/
structure Faithful (parameters : Parameters) (cycles : Nat) (away hand : List Concept)
    (memory : Memory) : Prop where
  concepts : memory.concepts.Sound parameters.conceptBagSize
  forgetCycles_eq : memory.concepts.forgetCycles = parameters.conceptForgettingCycle
  follows : ∀ concept ∈ hand ++ memory.concepts.items, concept.Follows cycles
  accounted : memory.displays.Accounted cycles away (hand ++ memory.concepts.items)

variable {parameters : Parameters} {symbols : Symbols} {cycles : Nat}
  {away hand : List Concept} {concept : Concept}

theorem empty_faithful (parameters : Parameters) (symbols : Symbols) :
    (empty parameters symbols).Faithful parameters cycles away [] where
  concepts := Bag.empty_sound parameters.conceptBagConfig (parameters.draws .concepts)
  forgetCycles_eq := rfl
  follows := fun _ member => nomatch member
  accounted := fun _ showing => nomatch showing

/-- The invariant is about concepts and displays. -/
theorem Faithful.of_same {other : Memory}
    (faithful : memory.Faithful parameters cycles away hand)
    (sameConcepts : other.concepts = memory.concepts)
    (sameDisplays : other.displays = memory.displays) :
    other.Faithful parameters cycles away hand where
  concepts := sameConcepts ▸ faithful.concepts
  forgetCycles_eq := sameConcepts ▸ faithful.forgetCycles_eq
  follows := sameConcepts ▸ faithful.follows
  accounted := by
    rw [sameConcepts, sameDisplays]
    exact faithful.accounted

/-! ## Changing a concept in place -/

theorem Faithful.editConcept {ρ : Type} {change : Concept → Concept × List Notice × ρ}
    (faithful : memory.Faithful parameters cycles away []) (name : String)
    (keepsKey : ∀ concept, (change concept).1.key = concept.key)
    (follows : ∀ concept, concept.Follows cycles → (change concept).1.Follows cycles)
    (announces : ∀ concept, Announces [concept] (change concept).1 (change concept).2.1) :
    (memory.editConcept name change).2.Faithful parameters cycles away [] := by
  rw [editConcept_memory]
  exact
    { concepts := faithful.concepts.edit name change keepsKey
      forgetCycles_eq := (Bag.forgetCycles_edit _ name change).trans faithful.forgetCycles_eq
      follows := (Concept.stable_follows cycles).edit faithful.concepts.consistent
        faithful.follows fun concept holds _ => follows concept holds
      accounted := faithful.accounted.edit faithful.concepts.consistent announces }

theorem Faithful.reinforce (faithful : memory.Faithful parameters cycles away [])
    (name : String) (budget : Budget) :
    (memory.editConcept name (Memory.reinforce budget)).2.Faithful parameters cycles away [] :=
  faithful.editConcept name (fun _ => rfl) (fun _ _ => Concept.refresh_follows _)
    fun _ => Concept.refresh_announces rfl

theorem Faithful.receive (faithful : memory.Faithful parameters cycles away [])
    (name : String) (task : Task) :
    (memory.editConcept name (Memory.receive task)).2.Faithful parameters cycles away [] :=
  faithful.editConcept name (fun _ => rfl) (fun _ _ => Concept.refresh_follows _)
    fun _ => Concept.refresh_announces rfl

theorem Faithful.observe (faithful : memory.Faithful parameters cycles away [])
    (name : String) (observation : Observation) :
    (memory.editConcept name observation.change).2.Faithful parameters cycles away [] := by
  apply faithful.editConcept name
  case keepsKey => cases observation <;> exact fun _ => rfl
  case follows => cases observation <;> exact fun _ follows => follows
  case announces =>
    intro concept
    cases observation with
    | startPlay observer => exact concept.startPlay_announces observer
    | play => exact concept.play_announces
    | stop => exact concept.stop_announces
    | detach => exact concept.detach_announces

/-! ## Putting a concept in -/

/-- A concept that left its bag is detached. -/
theorem faithful_afterPlacing {placement : Placement Concept Notice}
    (sound : placement.bag.Sound parameters.conceptBagSize)
    (forgetCycles_eq : placement.bag.forgetCycles = parameters.conceptForgettingCycle)
    (follows : ∀ concept ∈ placement.bag.items, concept.Follows cycles)
    (accounted : (memory.displays.receiveAll placement.notices).Accounted cycles away
      (placement.bag.items ++ placement.departed.toList)) :
    (memory.afterPlacing outside placement).Faithful parameters cycles away [] := by
  unfold afterPlacing
  cases departed : placement.departed with
  | none =>
      rw [departed, Option.toList_none, List.append_nil] at accounted
      exact ⟨sound, forgetCycles_eq, follows, accounted⟩
  | some concept =>
      have told : ((memory.displays.receiveAll placement.notices).receiveAll
          concept.detach.2).Accounted cycles away
            (concept.detach.1 :: placement.bag.items) := by
        refine accounted.announce concept.detach_announces (fun _ member => .inr member) ?_
        intro other member
        rw [departed] at member
        exact (List.mem_append.mp member).symm
      refine ⟨sound, forgetCycles_eq, follows, told.carry ?_⟩
      intro other member observed
      rcases List.mem_cons.mp member with rfl | stays
      · contradiction
      · exact ⟨other, stays, .refl other⟩

/-- A concept at hand is put in. -/
theorem Faithful.put (faithful : memory.Faithful parameters cycles away [concept]) :
    (memory.afterPlacing outside (memory.concepts.put concept)).Faithful parameters cycles
      away [] := by
  obtain ⟨follows, others⟩ := List.forall_mem_cons.mp faithful.follows
  apply faithful_afterPlacing
  · exact faithful.concepts.put concept
  · exact (Bag.forgetCycles_put _ concept).trans faithful.forgetCycles_eq
  · intro other member
    exact (Concept.stable_follows cycles).put faithful.concepts.consistent others follows other
      (.inl member)
  · exact faithful.accounted.put faithful.concepts.consistent

/-- A concept at hand is put back. This is where it ages. -/
theorem Faithful.putBack
    (faithful : memory.Faithful parameters parameters.conceptForgettingCycle away [concept]) :
    (memory.putBackConcept outside concept).2.Faithful parameters
      parameters.conceptForgettingCycle away [] := by
  obtain ⟨follows, others⟩ := List.forall_mem_cons.mp faithful.follows
  have accounted := faithful.accounted
  rw [putBackConcept_memory]
  rw [← faithful.forgetCycles_eq] at follows others accounted ⊢
  have sameCycles := (Bag.forgetCycles_putBack memory.concepts concept).trans
    faithful.forgetCycles_eq
  apply faithful_afterPlacing
  · exact faithful.concepts.putBack concept
  · exact sameCycles
  · intro other member
    exact (Concept.stable_follows memory.concepts.forgetCycles).putBack
      faithful.concepts.consistent others follows other (.inl member)
  · exact accounted.putBack faithful.concepts.consistent

/-! ## Delivery -/

theorem Faithful.activate (faithful : memory.Faithful parameters cycles away [])
    (outside : Held) (term : Term) (budget : Budget) :
    (memory.activate outside term budget).2.Faithful parameters cycles away [] := by
  rcases activate_cases memory outside term budget with
    ⟨_, result⟩ | ⟨_, result⟩
  · rw [result]
    exact faithful.reinforce term.name budget
  · have created : memory.Faithful parameters cycles away
        [memory.newcomer term budget] :=
      { faithful with
        follows := by
          refine List.forall_mem_cons.mpr ⟨?_, faithful.follows⟩
          exact ⟨budget, .here, rfl⟩
        accounted := faithful.accounted.mono fun _ member => List.mem_cons_of_mem _ member }
    rw [result]
    exact created.put

theorem Faithful.deliver (faithful : memory.Faithful parameters cycles away [])
    (outside : Held) (task : Task) (term : Term) :
    (memory.deliver outside task term).Faithful parameters cycles away [] := by
  have activated := faithful.activate outside term task.budget
  rcases deliver_cases memory outside task term with rejected | received
  · rw [rejected]
    exact activated
  · rw [received]
    exact activated.receive term.name task

theorem Faithful.deliverAll (faithful : memory.Faithful parameters cycles away [])
    (outside : Held) (task : Task) (terms : List Term) :
    (terms.foldl (fun memory term => memory.deliver outside task term) memory).Faithful
      parameters cycles away [] := by
  induction terms generalizing memory with
  | nil => exact faithful
  | cons term rest inductionHypothesis =>
      exact inductionHypothesis (faithful.deliver outside task term)

theorem Faithful.processNewTask (faithful : memory.Faithful parameters cycles away [])
    (outside : Held) :
    (memory.processNewTask outside).2.Faithful parameters cycles away [] := by
  have taken : ({ memory with newTasks := memory.newTasks.takeOut.2 } : Memory).Faithful
      parameters cycles away [] :=
    faithful.of_same rfl rfl
  rcases processNewTask_cases memory outside with ⟨_, result⟩ | ⟨task, _, result⟩
  · rw [result]
    exact taken
  · rw [result]
    exact taken.deliverAll (outside.withTerms [task.content]) task (targets task.content)

theorem Faithful.inputTasks (faithful : memory.Faithful parameters cycles away [])
    (tasks : List Task) : (memory.inputTasks tasks).Faithful parameters cycles away [] := by
  unfold Memory.inputTasks
  induction tasks generalizing memory with
  | nil => exact faithful
  | cons task rest inductionHypothesis =>
      exact inductionHypothesis (faithful.of_same rfl rfl)

/-! ## Firing -/

/-- A concept is taken in hand. -/
theorem Faithful.takeConcept (faithful : memory.Faithful parameters cycles away []) :
    ({ memory with concepts := memory.concepts.takeOut.2 } : Memory).Faithful parameters cycles
      away memory.concepts.takeOut.1.toList := by
  have consistent := faithful.concepts.consistent
  obtain ⟨taken, left⟩ := consistent.takeOut_all faithful.follows
  constructor
  case concepts => exact faithful.concepts.takeOut
  case forgetCycles_eq => exact (Bag.forgetCycles_takeOut _).trans faithful.forgetCycles_eq
  case follows =>
    intro concept member
    rcases List.mem_append.mp member with atHand | inBag
    · exact taken concept (Option.mem_toList.mp atHand)
    · exact left concept inBag
  case accounted =>
    cases isTaken : memory.concepts.takeOut.1 with
    | some concept => exact faithful.accounted.takeOut consistent isTaken
    | none =>
        rcases consistent.takeOut_cases with ⟨_, same⟩ | ⟨concept, _, isThis, _⟩
        · refine faithful.accounted.mono ?_
          rw [← same]
          exact fun _ member => member
        · rw [isTaken] at isThis
          contradiction

/-- A rule is applied to the concept at hand, which is refreshed afterwards. -/
theorem Faithful.applyRule {rule : Rule}
    (faithful : memory.Faithful parameters cycles away [concept]) (outside : Held)
    (keeps : ∀ memory outside concept task away,
      memory.Faithful parameters cycles away [] →
        (rule memory outside concept task).2.Faithful parameters cycles away []) :
    (memory.applyRule outside rule concept).2.2.Faithful parameters cycles away
      [(memory.applyRule outside rule concept).2.1] := by
  obtain ⟨follows, others⟩ := List.forall_mem_cons.mp faithful.follows
  rcases applyRule_cases memory outside rule concept with ⟨noTask, nothing⟩ |
    ⟨task, _, applied, isApplied, result⟩
  · rw [nothing]
    refine { faithful with follows := ?_, accounted := ?_ }
    · exact List.forall_mem_cons.mpr ⟨follows, others⟩
    · refine faithful.accounted.carry ?_
      intro other member _
      rcases List.mem_cons.mp member with rfl | inBag
      · exact ⟨other.takeTask.2, List.mem_cons_self, Concept.takeTask_none noTask⟩
      · exact ⟨other, List.mem_cons_of_mem _ inBag, .refl other⟩
  · -- The rule may show the observer of this concept another one; what the recording was
    -- shown is accounted for again by the refreshing below.
    have given : memory.Faithful parameters cycles (concept :: away) [] :=
      { faithful with follows := others, accounted := faithful.accounted.leave }
    have after := keeps memory
      (outside.withTerms (task.content :: concept.takeTask.2.contents)) concept.takeTask.2 task
      (concept :: away) given
    rw [← isApplied] at after
    rw [result]
    constructor
    case concepts => exact after.concepts
    case forgetCycles_eq => exact after.forgetCycles_eq
    case follows =>
      exact List.forall_mem_cons.mpr ⟨Concept.refresh_follows _, after.follows⟩
    case accounted =>
      have announces : Announces [concept] (concept.takeTask.2.putBackTask task).2.refresh.1
          (concept.takeTask.2.putBackTask task).2.refresh.2 := Concept.refresh_announces rfl
      apply after.accounted.announce announces
      · intro other member
        rcases List.mem_cons.mp member with rfl | stillAway
        · exact .inl List.mem_cons_self
        · exact .inr stillAway
      · exact fun _ member => .inr member

theorem Faithful.fireConcept {rule : Rule}
    (faithful : memory.Faithful parameters parameters.conceptForgettingCycle away [])
    (outside : Held)
    (keeps : ∀ memory outside concept task away,
      memory.Faithful parameters parameters.conceptForgettingCycle away [] →
        (rule memory outside concept task).2.Faithful parameters
          parameters.conceptForgettingCycle away []) :
    (memory.fireConcept outside rule).2.Faithful parameters
      parameters.conceptForgettingCycle away [] := by
  have taken := faithful.takeConcept
  rcases fireConcept_cases memory outside rule with ⟨noConcept, nothing⟩ |
    ⟨concept, isTaken, applied, back, isApplied, isBack, cases⟩
  · rw [noConcept] at taken
    rw [nothing]
    exact taken
  · rw [isTaken] at taken
    have ruled := taken.applyRule outside keeps
    rw [← isApplied] at ruled
    have returned : back.2.Faithful parameters parameters.conceptForgettingCycle away [] := by
      rw [isBack]
      exact ruled.putBack
    rcases cases with ⟨failure, _, result⟩ | ⟨tasks, _, result⟩
    · rw [result]
      exact returned
    · rw [result]
      exact returned.inputTasks tasks

/-! ## Along a run -/

/-- Every run keeps the invariant, with whatever is away meanwhile. -/
theorem Leads.faithful (led : Leads mayFire start memory)
    (forgets : mayFire → cycles = parameters.conceptForgettingCycle) (away : List Concept)
    (faithful : start.Faithful parameters cycles away []) :
    memory.Faithful parameters cycles away [] := by
  -- A rule runs while its concept is away, so its own run starts with more away than this one.
  induction led generalizing away with
  | here memory => exact faithful
  | aside led registry lastSerial cycles inductionHypothesis =>
      exact (inductionHypothesis away faithful).of_same rfl rfl
  | inputTask led task inductionHypothesis =>
      exact (inductionHypothesis away faithful).of_same rfl rfl
  | activate led outside term budget inductionHypothesis =>
      exact (inductionHypothesis away faithful).activate outside term budget
  | processNewTask led outside inductionHypothesis =>
      exact (inductionHypothesis away faithful).processNewTask outside
  | fireConcept led fires outside rule leads inductionHypothesis ruleHypothesis =>
      have before := inductionHypothesis away faithful
      obtain rfl := forgets fires
      exact before.fireConcept outside fun memory outside concept task away faithful =>
        ruleHypothesis memory outside concept task away faithful
  | observe led name observation inductionHypothesis =>
      exact (inductionHypothesis away faithful).observe name observation

/-- A recording observes a resident concept and no other one, and is showing. -/
structure Watches (memory : Memory) (name : String) (concept : Concept) : Prop where
  resident : concept ∈ memory.concepts.items
  observes : concept.observer = some (.recording name)
  alone : ∀ other ∈ memory.concepts.items, other.observer = some (.recording name) →
    other = concept
  showing : (memory.displays.of (.recording name)).showing = true

/-- The activities and what recordings show lag behind the priorities by no more than
ageing. -/
structure Follows (cycles : Nat) (memory : Memory) : Prop where
  activity : ∀ concept ∈ memory.concepts.items, concept.Follows cycles
  shown : ∀ name concept, memory.Watches name concept →
    ∃ text, (memory.displays.of (.recording name)).shown.getLast? = some text ∧
      concept.Shows cycles text

/-- The activities are those of the priorities, and recordings show the present texts. -/
structure UpToDate (memory : Memory) : Prop where
  activity : ∀ concept ∈ memory.concepts.items,
    concept.activity = .ofPriority concept.budget.priority
  shown : ∀ name concept, memory.Watches name concept →
    (memory.displays.of (.recording name)).shown.getLast? = some concept.text

theorem Faithful.memory_follows (faithful : memory.Faithful parameters cycles [] []) :
    memory.Follows cycles where
  activity := faithful.follows
  shown := by
    intro name concept watches
    rcases faithful.accounted name watches.showing with ⟨_, nobody, _⟩ |
      ⟨other, member, observes, shown⟩
    · contradiction
    · rwa [watches.alone other member observes] at shown

theorem Follows.upToDate (follows : memory.Follows 0) : memory.UpToDate where
  activity := fun concept member => (follows.activity concept member).exact
  shown := by
    intro name concept watches
    obtain ⟨text, last, shows⟩ := follows.shown name concept watches
    rw [last, shows.exact]

/-- On every run from an empty memory, activities and texts shown follow the priorities, up
to ageing over the forgetting cycles of concepts. If concepts are not forgotten, or not
fired, they are up to date. -/
theorem Leads.follows_priorities
    (led : Leads mayFire (empty parameters symbols) memory) :
    memory.Follows parameters.conceptForgettingCycle ∧
      ((mayFire → parameters.conceptForgettingCycle = 0) → memory.UpToDate) := by
  constructor
  · exact (led.faithful (fun _ => rfl) [] (empty_faithful parameters symbols)).memory_follows
  · intro nothing
    have unfaded : memory.Faithful parameters 0 [] [] :=
      led.faithful (fun fires => (nothing fires).symm) [] (empty_faithful parameters symbols)
    exact unfaded.memory_follows.upToDate

end AnyArithmetic

/-- Parameters that let concepts fade fast. -/
def forgetful : Parameters where
  conceptForgettingCycle := 1

/-- A memory with an observed concept of `leaf`, after one cycle. -/
def fadedLeaf : Memory :=
  let leaf : Term := .atom 0 "leaf"
  let budget : Budget := .corrected (Single.hundredths 60) (Single.hundredths 50) Single.zero
  let activated := ((empty forgetful .usual).activate Held.nothing leaf budget).2
  let observed :=
    (activated.editConcept "leaf" (Observation.startPlay (.recording "watcher")).change).2
  (observed.runCycle Held.nothing noRule).2

/-- The cycle made the concept dormant. It is still called active, and this is what its
observer was shown last. -/
theorem fadedLeaf_follows :
    fadedLeaf.Follows 1 ∧
      fadedLeaf.concepts.items.map
        (fun concept => (concept.activity, Activity.ofPriority concept.budget.priority)) =
          [(.active, .dormant)] ∧
      (fadedLeaf.displays.of (.recording "watcher")).showing = true ∧
      ∀ concept ∈ fadedLeaf.concepts.items,
        (fadedLeaf.displays.of (.recording "watcher")).shown.getLast? ≠ some concept.text := by
  have led : Leads True (empty forgetful .usual) fadedLeaf :=
    (((Leads.here _).activate _ _ _).observe _ _).runCycle trivial _
      fun memory _ _ _ => .here memory
  exact ⟨led.follows_priorities.1, by decide +kernel, by decide +kernel, by decide +kernel⟩

end Memory

end AttentiveReasoner
