import AttentiveReasoner.Proofs.Memory.Activity
import Mathlib.Data.Multiset.AddSub
import Mathlib.Data.Multiset.ZeroCons

/-!
Contract: the moments in which a concept tells its observer something.

Owns:
- moments: what is done about the observer of a concept, and updates of a concept, each with
  the concept as it then is;
- the texts that a recording gains from moments;
- the observers of concepts, and how moments pass over them and over the displays;
- that an observer is attached from its first moment until it is detached, and is told nothing
  afterwards.

Does not own: which moments an operation brings about.

Moments pass over the observers that there are, whoever they observe. So they may be accounted
for in parts: the observers of concepts that have no moment stay beside them.
-/

namespace AttentiveReasoner

open AttentiveReasoner.Knowledge

namespace Knowledge

/-! ## Displays -/

namespace Displays

variable {displays : Displays} {observer : Observer}

/-- Beginnings of live displays are counted, and nothing lowers the count. -/
theorem started_le (displays : Displays) (notices : List Notice) (observer : Observer) :
    (displays.of observer).started ≤ ((displays.receiveAll notices).of observer).started := by
  induction notices generalizing displays with
  | nil => exact Nat.le_refl _
  | cons first rest inductionHypothesis =>
      have grown : (displays.of observer).started ≤
          ((displays.receive first).of observer).started := by
        rw [of_receive]
        split
        · cases first with
          | start => exact Nat.le_succ _
          | refresh =>
              simp only [Notice.effect]
              split
              · exact Nat.le_refl _
              · exact Nat.le_refl _
          | _ => exact Nat.le_refl _
        · exact Nat.le_refl _
      exact Nat.le_trans grown (inductionHypothesis (displays.receive first))

/-- A new observer takes the place of the one before, who is detached. -/
theorem of_receiveAll_startPlay (displays : Displays) (concept : Concept)
    (starting observer : Observer) :
    (displays.receiveAll (concept.startPlay starting).2).of observer =
      if starting = observer then
        Notice.effect (.start starting concept.key concept.text)
          ((displays.receiveAll (concept.tell .detach)).of observer)
      else (displays.receiveAll (concept.tell .detach)).of observer := by
  change (displays.receiveAll (concept.tell .detach ++ [.start starting concept.key concept.text])).of
    observer = _
  rw [receiveAll_append]
  exact of_receive _ (.start starting concept.key concept.text) observer

end Displays

namespace Concept

variable {concept : Concept} {observer : Observer}

/-! ## Watchers -/

/-- The observers of concepts, each as often as it observes one. -/
def watchers (concepts : List Concept) : Multiset Observer :=
  ↑(concepts.filterMap (·.observer))

theorem watchers_nil : watchers [] = 0 := rfl

theorem watchers_append (concepts others : List Concept) :
    watchers (concepts ++ others) = watchers concepts + watchers others := by
  simp [watchers, List.filterMap_append]

theorem watchers_cons (concept : Concept) (others : List Concept) :
    watchers (concept :: others) = watchers [concept] + watchers others :=
  watchers_append [concept] others

theorem watchers_perm {concepts others : List Concept} (perm : concepts.Perm others) :
    watchers concepts = watchers others :=
  Multiset.coe_eq_coe.mpr (perm.filterMap _)

theorem watchers_of_some (observes : concept.observer = some observer) :
    watchers [concept] = {observer} := by
  simp [watchers, observes]

theorem watchers_of_none (unobserved : concept.observer = none) : watchers [concept] = 0 := by
  simp [watchers, unobserved]

theorem watchers_congr {other : Concept} (same : concept.observer = other.observer) :
    watchers [concept] = watchers [other] := by
  simp only [watchers, List.filterMap_cons, same]

theorem mem_watchers {concepts : List Concept} :
    observer ∈ watchers concepts ↔ ∃ concept ∈ concepts, concept.observer = some observer := by
  simp [watchers]

/-- An observer is there as often as it observes a concept. -/
theorem count_watchers (observer : Observer) (concepts : List Concept) :
    (watchers concepts).count observer =
      concepts.countP (fun concept => concept.observer = some observer) := by
  induction concepts with
  | nil => rfl
  | cons concept rest inductionHypothesis =>
      rw [watchers_cons, Multiset.count_add, inductionHypothesis, List.countP_cons]
      cases observes : concept.observer with
      | none => simp [watchers_of_none observes]
      | some other =>
          rw [watchers_of_some observes, Multiset.count_singleton]
          by_cases same : observer = other
          · simp [same, Nat.add_comm]
          · simp [same, Ne.symm same]

end Concept

end Knowledge

/-! ## Moments -/

/-- Something is done about the observer of a concept, or a concept is updated. -/
inductive Moment where
  | observe (observation : Observation) (concept : Concept)
  | update (concept : Concept)

namespace Moment

/-- The concept as it is when the moment comes. -/
def concept : Moment → Concept
  | .observe _ concept => concept
  | .update concept => concept

/-- The concept as the moment leaves it. -/
def changed : Moment → Concept
  | .observe observation concept => (observation.change concept).1
  | .update concept => concept

/-- The notices that the concept gives. -/
def notices : Moment → List Notice
  | .observe observation concept => (observation.change concept).2.1
  | .update concept => concept.tell (.refresh · concept.text)

/-- Whoever starts to observe has not begun a live display before. -/
def Fresh (displays : Displays) (moment : Moment) : Prop :=
  ∀ observer concept, moment = .observe (.startPlay observer) concept →
    (displays.of observer).started = 0

/-- Whether an observer is showing after a moment, given whether it was before. Starting and
playing turn it on, stopping and detaching turn it off. -/
def showing (observer : Observer) (before : Bool) : Moment → Bool
  | .observe (.startPlay starting) concept =>
      starting = observer || (before && concept.observer ≠ some observer)
  | .observe .play concept => before || concept.observer = some observer
  | .observe .stop concept => before && concept.observer ≠ some observer
  | .observe .detach concept => before && concept.observer ≠ some observer
  | .update _ => before

/-- The texts that an observer gains in a moment, given whether it is showing: the text of the
concept when it starts, when it plays, and when the concept is updated while it is showing. -/
def texts (observer : Observer) (showing : Bool) : Moment → List String
  | .observe (.startPlay starting) concept =>
      if starting = observer then [concept.text] else []
  | .observe .play concept =>
      if concept.observer = some observer then [concept.text] else []
  | .observe .stop _ => []
  | .observe .detach _ => []
  | .update concept =>
      if concept.observer = some observer ∧ showing then [concept.text] else []

/-- The texts that an observer gains in moments one after the other. -/
def gained (observer : Observer) (showing : Bool) : List Moment → List String
  | [] => []
  | moment :: rest =>
      moment.texts observer showing ++ gained observer (moment.showing observer showing) rest

variable {observer : Observer} {displays : Displays}

/-! ## What is shown -/

/-- A recording is showing after a moment, and has gained texts, as the moment says. -/
theorem of_receiveAll_notices (displays : Displays) (moment : Moment) (name : String) :
    let before := displays.of (.recording name)
    let after := (displays.receiveAll moment.notices).of (.recording name)
    after.showing = moment.showing (.recording name) before.showing ∧
      after.shown = before.shown ++ moment.texts (.recording name) before.showing := by
  intro before after
  cases moment with
  | update concept =>
      have told : after = if concept.observer = some (.recording name) then
          (Notice.refresh (.recording name) concept.text).effect before else before :=
        displays.of_receiveAll_tell concept (fun _ => rfl) _
      rw [told, showing, texts]
      by_cases observes : concept.observer = some (.recording name)
      · cases isShowing : before.showing <;> simp [observes, Notice.effect, Notice.shownTo, isShowing]
      · simp [observes]
  | observe observation concept =>
      cases observation with
      | startPlay starting =>
          have told : after = if starting = .recording name then _ else _ :=
            displays.of_receiveAll_startPlay concept starting _
          rw [displays.of_receiveAll_tell concept (fun _ => rfl)] at told
          rw [told, showing, texts]
          by_cases starts : starting = .recording name <;>
            by_cases observes : concept.observer = some (.recording name) <;>
              simp [starts, observes, Notice.effect, Notice.shownTo, before]
      | play =>
          have told : after = if concept.observer = some (.recording name) then
              (Notice.post (.recording name) concept.text).effect before else before :=
            displays.of_receiveAll_tell concept (fun _ => rfl) _
          rw [told, showing, texts]
          by_cases observes : concept.observer = some (.recording name) <;>
            simp [observes, Notice.effect, Notice.shownTo]
      | stop =>
          have told : after = if concept.observer = some (.recording name) then
              (Notice.stop (.recording name)).effect before else before :=
            displays.of_receiveAll_tell concept (fun _ => rfl) _
          rw [told, showing, texts]
          by_cases observes : concept.observer = some (.recording name) <;>
            simp [observes, Notice.effect]
      | detach =>
          have told : after = if concept.observer = some (.recording name) then
              (Notice.detach (.recording name)).effect before else before :=
            displays.of_receiveAll_tell concept (fun _ => rfl) _
          rw [told, showing, texts]
          by_cases observes : concept.observer = some (.recording name) <;>
            simp [observes, Notice.effect]

end Moment

/-! ## Moments one after the other -/

/-- Moments pass over the observers of concepts, and over the displays. Each moment takes up a
concept as it is, beside the observers of all others, and leaves it changed. -/
inductive Passes :
    Multiset Observer → Displays → List Moment → Multiset Observer → Displays → Prop where
  | done (observers : Multiset Observer) (displays : Displays) :
      Passes observers displays [] observers displays
  | next {others after : Multiset Observer} {displays shown : Displays} {rest : List Moment}
      (moment : Moment) (fresh : moment.Fresh displays)
      (passes : Passes (Concept.watchers [moment.changed] + others)
        (displays.receiveAll moment.notices) rest after shown) :
      Passes (Concept.watchers [moment.concept] + others) displays (moment :: rest) after shown

namespace Passes

variable {observers after last others : Multiset Observer} {displays shown final : Displays}
  {moments more : List Moment}

theorem trans (first : Passes observers displays moments after shown)
    (second : Passes after shown more last final) :
    Passes observers displays (moments ++ more) last final := by
  induction first with
  | done => exact second
  | next moment fresh _ inductionHypothesis => exact .next moment fresh (inductionHypothesis second)

/-- Other observers stay beside them. -/
theorem beside (passes : Passes observers displays moments after shown)
    (others : Multiset Observer) :
    Passes (observers + others) displays moments (after + others) shown := by
  induction passes with
  | done => exact .done _ _
  | next moment fresh _ inductionHypothesis =>
      rw [Multiset.add_assoc]
      refine .next moment fresh ?_
      rw [← Multiset.add_assoc]
      exact inductionHypothesis

theorem single (moment : Moment) (fresh : moment.Fresh displays) (others : Multiset Observer) :
    Passes (Concept.watchers [moment.concept] + others) displays [moment]
      (Concept.watchers [moment.changed] + others) (displays.receiveAll moment.notices) :=
  .next moment fresh (.done _ _)

/-- What a recording is shown while moments pass are the texts that it gains in them. -/
theorem shown_eq (passes : Passes observers displays moments after shown) (name : String) :
    (shown.of (.recording name)).shown =
      (displays.of (.recording name)).shown ++
        Moment.gained (.recording name) (displays.of (.recording name)).showing moments := by
  induction passes with
  | done => exact (List.append_nil _).symm
  | @next _ _ displays _ _ moment _ _ inductionHypothesis =>
      obtain ⟨showing, gains⟩ := Moment.of_receiveAll_notices displays moment name
      rw [inductionHypothesis, showing, gains, List.append_assoc]
      rfl

theorem started_le (passes : Passes observers displays moments after shown)
    (observer : Observer) : (displays.of observer).started ≤ (shown.of observer).started := by
  induction passes with
  | done => exact Nat.le_refl _
  | next moment _ _ inductionHypothesis =>
      exact Nat.le_trans (Displays.started_le _ _ observer) inductionHypothesis

/-- Whoever starts in some moment has begun a live display. -/
theorem started_of_mem (passes : Passes observers displays moments after shown)
    {observer : Observer} {concept : Concept}
    (member : .observe (.startPlay observer) concept ∈ moments) :
    (shown.of observer).started ≠ 0 := by
  induction passes with
  | done => contradiction
  | @next _ _ displays _ _ moment _ later inductionHypothesis =>
      rcases List.mem_cons.mp member with rfl | member
      · have begun : ((displays.receiveAll (concept.startPlay observer).2).of observer).started ≠
            0 := by
          rw [Displays.of_receiveAll_startPlay, if_pos rfl]
          exact Nat.succ_ne_zero _
        have kept := later.started_le observer
        intro unstarted
        rw [unstarted, Nat.le_zero] at kept
        exact begun kept
      · exact inductionHypothesis member

end Passes

/-! ## Attached observers -/

/-- Observers are attached as the displays say: each observes one concept, they are those that
have started and are not detached, and whoever is detached shows nothing. -/
structure Attended (observers : Multiset Observer) (displays : Displays) : Prop where
  nodup : observers.Nodup
  mem_iff : ∀ observer, observer ∈ observers ↔
    (displays.of observer).started ≠ 0 ∧ (displays.of observer).detached = false
  idle : ∀ observer, (displays.of observer).detached = true →
    (displays.of observer).showing = false
  blank : ∀ observer, (displays.of observer).started = 0 →
    (displays.of observer).detached = false

namespace Attended

variable {observers others : Multiset Observer} {displays shown : Displays} {concept : Concept}

theorem empty : Attended 0 {} where
  nodup := Multiset.nodup_zero
  mem_iff := by
    intro observer
    constructor
    · exact fun member => absurd member (Multiset.notMem_zero observer)
    · rintro ⟨started, _⟩
      exact absurd rfl started
  idle := fun _ detached => nomatch detached
  blank := fun _ _ => rfl

theorem notMem_of_detached (attended : Attended observers displays) {observer : Observer}
    (detached : (displays.of observer).detached = true) : observer ∉ observers := by
  intro member
  have attached := ((attended.mem_iff observer).mp member).2
  rw [detached] at attached
  contradiction

/-- The observer of a concept among those that are attached. -/
theorem mem_of_observes (attended : Attended (Concept.watchers [concept] + others) displays)
    {observer : Observer} (observes : concept.observer = some observer) :
    (displays.of observer).started ≠ 0 ∧ (displays.of observer).detached = false := by
  refine (attended.mem_iff observer).mp ?_
  rw [Concept.watchers_of_some observes]
  exact Multiset.mem_add.mpr (.inl (Multiset.mem_singleton_self observer))

/-- A notice that neither starts nor detaches. -/
theorem quiet (attended : Attended (Concept.watchers [concept] + others) displays)
    {told : Observer → Notice} (addresses : ∀ observer, (told observer).observer = observer)
    (keeps : ∀ observer display, ((told observer).effect display).started = display.started ∧
      ((told observer).effect display).detached = display.detached) :
    Attended (Concept.watchers [concept] + others)
      (displays.receiveAll (concept.tell told)) := by
  have kept : ∀ observer,
      ((displays.receiveAll (concept.tell told)).of observer).started =
          (displays.of observer).started ∧
        ((displays.receiveAll (concept.tell told)).of observer).detached =
          (displays.of observer).detached := by
    intro observer
    rw [displays.of_receiveAll_tell concept addresses]
    split
    · exact keeps observer _
    · exact ⟨rfl, rfl⟩
  constructor
  case nodup => exact attended.nodup
  case mem_iff =>
    intro observer
    rw [(kept observer).1, (kept observer).2]
    exact attended.mem_iff observer
  case idle =>
    intro observer detached
    rw [(kept observer).2] at detached
    rw [displays.of_receiveAll_tell concept addresses, if_neg]
    · exact attended.idle observer detached
    · intro observes
      rw [(attended.mem_of_observes observes).2] at detached
      contradiction
  case blank =>
    intro observer unstarted
    rw [(kept observer).1] at unstarted
    rw [(kept observer).2]
    exact attended.blank observer unstarted

/-- One observer and its display are changed, and agree. -/
theorem of_one {after : Multiset Observer} {changing : Observer}
    (attended : Attended observers displays) (nodup : after.Nodup)
    (others_mem : ∀ observer, observer ≠ changing → (observer ∈ after ↔ observer ∈ observers))
    (others_eq : ∀ observer, observer ≠ changing → shown.of observer = displays.of observer)
    (mem_iff : changing ∈ after ↔
      (shown.of changing).started ≠ 0 ∧ (shown.of changing).detached = false)
    (idle : (shown.of changing).detached = true → (shown.of changing).showing = false)
    (begun : (shown.of changing).started ≠ 0) : Attended after shown := by
  constructor
  case nodup => exact nodup
  case mem_iff =>
    intro observer
    by_cases same : observer = changing
    · rw [same]
      exact mem_iff
    · rw [others_mem observer same, others_eq observer same]
      exact attended.mem_iff observer
  case idle =>
    intro observer
    by_cases same : observer = changing
    · rw [same]
      exact idle
    · rw [others_eq observer same]
      exact attended.idle observer
  case blank =>
    intro observer unstarted
    by_cases same : observer = changing
    · rw [same] at unstarted
      exact absurd unstarted begun
    · rw [others_eq observer same] at unstarted ⊢
      exact attended.blank observer unstarted

/-- The observer of a concept is detached. -/
theorem detach (attended : Attended (Concept.watchers [concept] + others) displays) :
    Attended others (displays.receiveAll (concept.tell .detach)) := by
  have told := displays.of_receiveAll_tell concept
    (fun observer => (rfl : (Notice.detach observer).observer = observer))
  have nodup := attended.nodup
  cases observes : concept.observer with
  | none =>
      rw [Concept.watchers_of_none observes, Multiset.zero_add] at attended
      rw [Concept.tell, observes]
      exact attended
  | some watching =>
      have started := (attended.mem_of_observes observes).1
      have others_eq : ∀ observer, observer ≠ watching →
          (displays.receiveAll (concept.tell .detach)).of observer = displays.of observer := by
        intro observer different
        rw [told, if_neg]
        rw [observes]
        exact fun same => different (Option.some.inj same).symm
      have own : (displays.receiveAll (concept.tell .detach)).of watching =
          (Notice.detach watching).effect (displays.of watching) := by
        rw [told, if_pos observes]
      rw [Concept.watchers_of_some observes, Multiset.singleton_add] at nodup attended
      obtain ⟨absent, othersNodup⟩ := Multiset.nodup_cons.mp nodup
      refine attended.of_one othersNodup ?_ others_eq ?_ ?_ ?_
      · intro observer different
        rw [Multiset.mem_cons]
        exact ⟨.inr, fun member => member.resolve_left different⟩
      · rw [own]
        constructor
        · exact fun member => absurd member absent
        · intro attached
          exact absurd attached.2.symm Bool.false_ne_true
      · rw [own]
        exact fun _ => rfl
      · rw [own]
        exact started

/-- An observer that is fresh begins. -/
theorem start (attended : Attended others displays) {starting : Observer} (name text : String)
    (fresh : (displays.of starting).started = 0) :
    Attended ({starting} + others) (displays.receive (.start starting name text)) := by
  have told := displays.of_receive (.start starting name text)
  have absent : starting ∉ others := by
    intro member
    exact ((attended.mem_iff starting).mp member).1 fresh
  have others_eq : ∀ observer, observer ≠ starting →
      (displays.receive (.start starting name text)).of observer = displays.of observer := by
    intro observer different
    rw [told, if_neg]
    exact fun same => different same.symm
  have own : (displays.receive (.start starting name text)).of starting =
      (Notice.start starting name text).effect (displays.of starting) := by
    rw [told]
    exact if_pos rfl
  have attached : (displays.of starting).detached = false := attended.blank starting fresh
  rw [Multiset.singleton_add]
  refine attended.of_one (Multiset.nodup_cons.mpr ⟨absent, attended.nodup⟩) ?_ others_eq ?_ ?_ ?_
  · intro observer different
    rw [Multiset.mem_cons]
    exact ⟨fun member => member.resolve_left different, .inr⟩
  · rw [own]
    exact ⟨fun _ => ⟨Nat.succ_ne_zero _, attached⟩, fun _ => Multiset.mem_cons_self _ _⟩
  · rw [own]
    intro detached
    exact absurd (attached.symm.trans detached) Bool.false_ne_true
  · rw [own]
    exact Nat.succ_ne_zero _

/-- A moment keeps observers and displays in agreement. -/
theorem moment {moment : Moment}
    (attended : Attended (Concept.watchers [moment.concept] + others) displays)
    (fresh : moment.Fresh displays) :
    Attended (Concept.watchers [moment.changed] + others)
      (displays.receiveAll moment.notices) := by
  cases moment with
  | update concept =>
      refine attended.quiet (fun _ => rfl) ?_
      intro observer display
      simp only [Notice.effect]
      split
      · exact ⟨rfl, rfl⟩
      · exact ⟨rfl, rfl⟩
  | observe observation concept =>
      cases observation with
      | startPlay starting =>
          have detached : Attended others (displays.receiveAll (concept.tell .detach)) :=
            attended.detach
          have stillFresh :
              ((displays.receiveAll (concept.tell .detach)).of starting).started = 0 := by
            have unstarted := fresh starting concept rfl
            rw [displays.of_receiveAll_tell concept (fun _ => rfl)]
            split
            · exact unstarted
            · exact unstarted
          have started := detached.start concept.key concept.text stillFresh
          have begun : Concept.watchers [(Moment.observe (.startPlay starting) concept).changed] =
              {starting} := Concept.watchers_of_some rfl
          change Attended _ (displays.receiveAll
            (concept.tell .detach ++ [.start starting concept.key concept.text]))
          rw [begun, Displays.receiveAll_append]
          exact started
      | play => exact attended.quiet (fun _ => rfl) fun _ _ => ⟨rfl, rfl⟩
      | stop => exact attended.quiet (fun _ => rfl) fun _ _ => ⟨rfl, rfl⟩
      | detach =>
          have detached : Attended others (displays.receiveAll (concept.tell .detach)) :=
            attended.detach
          have left : Concept.watchers [(Moment.observe .detach concept).changed] = 0 :=
            Concept.watchers_of_none rfl
          rw [left, Multiset.zero_add]
          exact detached

/-- No moment is one of an observer that is detached. -/
theorem unheard {moment : Moment}
    (attended : Attended (Concept.watchers [moment.concept] + others) displays)
    (fresh : moment.Fresh displays) {observer : Observer}
    (detached : (displays.of observer).detached = true) :
    (displays.receiveAll moment.notices).of observer = displays.of observer := by
  have notTold : moment.concept.observer ≠ some observer := by
    intro observes
    have attached := (attended.mem_of_observes observes).2
    rw [detached] at attached
    contradiction
  cases moment with
  | update concept =>
      exact (displays.of_receiveAll_tell concept (fun _ => rfl) observer).trans (if_neg notTold)
  | observe observation concept =>
      cases observation with
      | startPlay starting =>
          have different : starting ≠ observer := by
            rintro rfl
            have attached := attended.blank starting (fresh starting concept rfl)
            rw [detached] at attached
            contradiction
          refine (displays.of_receiveAll_startPlay concept starting observer).trans ?_
          rw [if_neg different, displays.of_receiveAll_tell concept (fun _ => rfl)]
          exact if_neg notTold
      | play =>
          exact (displays.of_receiveAll_tell concept (fun _ => rfl) observer).trans
            (if_neg notTold)
      | stop =>
          exact (displays.of_receiveAll_tell concept (fun _ => rfl) observer).trans
            (if_neg notTold)
      | detach =>
          exact (displays.of_receiveAll_tell concept (fun _ => rfl) observer).trans
            (if_neg notTold)

/-- While moments pass, observers and displays stay in agreement, and the display of whoever is
detached stays as it is. -/
theorem passes {after : Multiset Observer} {moments : List Moment}
    (attended : Attended observers displays)
    (passes : Passes observers displays moments after shown) :
    Attended after shown ∧ ∀ observer, (displays.of observer).detached = true →
      shown.of observer = displays.of observer := by
  induction passes with
  | done => exact ⟨attended, fun _ _ => rfl⟩
  | next moment fresh _ inductionHypothesis =>
      obtain ⟨afterwards, stays⟩ := inductionHypothesis (attended.moment fresh)
      refine ⟨afterwards, ?_⟩
      intro observer detached
      have same := attended.unheard fresh detached
      rw [stays observer (by rw [same]; exact detached), same]

end Attended

end AttentiveReasoner
