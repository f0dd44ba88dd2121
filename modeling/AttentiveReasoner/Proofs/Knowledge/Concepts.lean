import AttentiveReasoner.Proofs.Attention.Bag.Residents

/-!
Contract: what a concept knows, and what it knows it about.

Owns:
- the matters of a concept: the contents of its tasks and of its beliefs;
- that a content concerns the terms it is about;
- the soundness of a belief table and of a concept;
- that every operation on a concept keeps it sound, and adds no matter but those given.

Does not own: budgets and activities, and which concept a task is given to.

A concept is sound relative to the parameters it was made with. What its tasks and beliefs
are about is told by name, since a concept may be given copies of its term.
-/

namespace AttentiveReasoner.Knowledge

open AttentiveReasoner.Attention
open AttentiveReasoner.Evidence
open AttentiveReasoner.Language
open AttentiveReasoner.Numeric

/-! ## Matters -/

/-- A content concerns the terms of a name: it is one, or a statement about one. -/
def Concerns (content : Term) (name : String) : Prop :=
  ∃ term, term.name = name ∧
    (term = content ∨ content.subject? = some term ∨ content.predicate? = some term)

/-- What tasks are about does not change in a bag. -/
theorem stable_content [Arithmetic] (cycles : Nat) (good : Term → Prop) :
    Bag.Stable cycles (fun task : Task => good task.content) where
  placed := fun _ _ holds => holds
  merged := fun _ _ holds _ _ => holds
  faded := fun _ _ holds => holds

namespace Beliefs

/-- A table of judgments, one under each key and no more than its capacity. -/
structure Sound (capacity : Nat) (beliefs : Beliefs) : Prop where
  capacity_eq : beliefs.capacity = capacity
  size_le : beliefs.size ≤ capacity
  judgment : ∀ sentence ∈ beliefs.sentences, sentence.isJudgment = true
  keys_nodup : (beliefs.sentences.map Sentence.key).Nodup

variable {capacity : Nat} {beliefs : Beliefs} {sentence other : Sentence}

theorem mem_add (member : other ∈ (beliefs.add sentence).sentences) :
    other = sentence ∨ other ∈ beliefs.sentences := by
  rcases List.mem_cons.mp (List.mem_of_mem_take member) with same | old
  · exact .inl same
  · exact .inr (List.mem_filter.mp old).1

theorem Sound.add (sound : beliefs.Sound capacity) (judgment : sentence.isJudgment = true) :
    (beliefs.add sentence).Sound capacity where
  capacity_eq := sound.capacity_eq
  size_le := by
    rw [← sound.capacity_eq]
    exact List.length_take_le _ _
  judgment := by
    intro other member
    rcases mem_add member with rfl | old
    · exact judgment
    · exact sound.judgment other old
  keys_nodup := by
    have whole : ((sentence :: beliefs.sentences.filter (·.key ≠ sentence.key)).map
        Sentence.key).Nodup := by
      rw [List.map_cons, List.nodup_cons]
      refine ⟨?_, sound.keys_nodup.sublist (List.filter_sublist.map _)⟩
      intro member
      obtain ⟨other, otherMember, sameKey⟩ := List.mem_map.mp member
      have different := (List.mem_filter.mp otherMember).2
      simp [sameKey] at different
    exact whole.sublist ((List.take_sublist _ _).map _)

/-- Sentences entered one after the other. -/
theorem Sound.addAll {sentences : List Sentence} (sound : beliefs.Sound capacity)
    (judgments : ∀ sentence ∈ sentences, sentence.isJudgment = true) :
    (sentences.foldl Beliefs.add beliefs).Sound capacity := by
  induction sentences generalizing beliefs with
  | nil => exact sound
  | cons first rest inductionHypothesis =>
      refine inductionHypothesis (sound.add (judgments first List.mem_cons_self)) ?_
      exact fun sentence member => judgments sentence (List.mem_cons_of_mem _ member)

theorem mem_addAll {sentences : List Sentence}
    (member : other ∈ (sentences.foldl Beliefs.add beliefs).sentences) :
    other ∈ sentences ∨ other ∈ beliefs.sentences := by
  induction sentences generalizing beliefs with
  | nil => exact .inr member
  | cons first rest inductionHypothesis =>
      rcases inductionHypothesis member with inRest | added
      · exact .inl (List.mem_cons_of_mem _ inRest)
      · rcases mem_add added with rfl | old
        · exact .inl List.mem_cons_self
        · exact .inr old

end Beliefs

namespace Concept

variable [Arithmetic]

/-- What a concept knows something about: the contents of its tasks and beliefs. -/
def matters (concept : Concept) : List Term :=
  TaskBag.contents concept.tasks ++ concept.beliefs.sentences.map (·.content)

/-- A concept whose tasks and beliefs are in order, and concern its term. -/
structure Sound (parameters : Parameters) (concept : Concept) : Prop where
  tasks : concept.tasks.Sound parameters.taskLinkBagSize
  beliefs : concept.beliefs.Sound parameters.beliefTableSize
  about : ∀ content ∈ concept.matters, Concerns content concept.key

variable {parameters : Parameters} {concept other : Concept} {task : Task} {good : Term → Prop}

omit [Arithmetic] in
theorem forall_mem_matters :
    (∀ content ∈ concept.matters, good content) ↔
      (∀ task ∈ concept.tasks.items, good task.content) ∧
        ∀ belief ∈ concept.beliefs.sentences, good belief.content := by
  simp only [matters, TaskBag.contents, List.forall_mem_append, List.forall_mem_map]

/-! ## Making and accepting -/

theorem create_sound (term : Term) (budget : Budget) (parameters : Parameters) (serial : Nat) :
    (create term budget parameters serial).Sound parameters where
  tasks := Bag.empty_sound
    (parameters.bagConfig parameters.taskLinkBagSize parameters.taskLinkForgettingCycle)
    (parameters.draws (.links serial))
  beliefs := ⟨rfl, Nat.zero_le _, fun _ member => (nomatch member), List.nodup_nil⟩
  about := fun _ member => nomatch member

/-- A concept accepts no matter but that of the task. -/
theorem accept_matters (consistent : concept.tasks.Consistent)
    (all : ∀ content ∈ concept.matters, good content) (given : good task.content) :
    ∀ content ∈ (concept.accept task).1.matters, good content := by
  obtain ⟨tasksGood, beliefsGood⟩ := forall_mem_matters.mp all
  refine forall_mem_matters.mpr ⟨?_, ?_⟩
  · intro other member
    exact (stable_content concept.tasks.forgetCycles good).put consistent tasksGood given other
      (.inl member)
  · intro belief member
    have entered : belief = task.sentence ∨ belief ∈ concept.beliefs.sentences := by
      cases judgment : task.sentence.isJudgment with
      | true =>
          have added : belief ∈ (concept.beliefs.add task.sentence).sentences := by
            simpa only [accept, refresh, judgment, ↓reduceIte] using member
          exact Beliefs.mem_add added
      | false =>
          simp only [accept, refresh, judgment, Bool.false_eq_true, ↓reduceIte] at member
          exact .inr member
    rcases entered with rfl | old
    · exact given
    · exact beliefsGood belief old

theorem accept_beliefs_sound {capacity : Nat} (sound : concept.beliefs.Sound capacity) :
    (concept.accept task).1.beliefs.Sound capacity := by
  simp only [accept, refresh]
  split
  · exact sound.add ‹_›
  · exact sound

theorem Sound.accept (sound : concept.Sound parameters)
    (concerns : Concerns task.content concept.key) :
    (concept.accept task).1.Sound parameters where
  tasks := sound.tasks.put task
  beliefs := accept_beliefs_sound sound.beliefs
  about := accept_matters sound.tasks.consistent sound.about concerns

/-! ## Tasks out and back -/

theorem takeTask_matters (consistent : concept.tasks.Consistent)
    (all : ∀ content ∈ concept.matters, good content) :
    (∀ task, concept.takeTask.1 = some task → good task.content) ∧
      ∀ content ∈ concept.takeTask.2.matters, good content := by
  obtain ⟨tasksGood, beliefsGood⟩ := forall_mem_matters.mp all
  obtain ⟨takenGood, leftGood⟩ :
      (∀ task, concept.tasks.takeOut.1 = some task → good task.content) ∧
        ∀ task ∈ concept.tasks.takeOut.2.items, good task.content :=
    consistent.takeOut_all tasksGood
  exact ⟨takenGood, forall_mem_matters.mpr ⟨leftGood, beliefsGood⟩⟩

theorem Sound.takeTask (sound : concept.Sound parameters) :
    concept.takeTask.2.Sound parameters where
  tasks := sound.tasks.takeOut
  beliefs := sound.beliefs
  about := (takeTask_matters sound.tasks.consistent sound.about).2

theorem putBackTask_matters (consistent : concept.tasks.Consistent)
    (all : ∀ content ∈ concept.matters, good content) (given : good task.content) :
    ∀ content ∈ (concept.putBackTask task).2.matters, good content := by
  obtain ⟨tasksGood, beliefsGood⟩ := forall_mem_matters.mp all
  refine forall_mem_matters.mpr ⟨?_, beliefsGood⟩
  intro other member
  exact (stable_content concept.tasks.forgetCycles good).putBack consistent tasksGood given other
    (.inl member)

theorem Sound.putBackTask (sound : concept.Sound parameters)
    (concerns : Concerns task.content concept.key) :
    (concept.putBackTask task).2.Sound parameters where
  tasks := sound.tasks.putBack task
  beliefs := sound.beliefs
  about := putBackTask_matters sound.tasks.consistent sound.about concerns

/-! ## Absorbing -/

/-- Tasks put in one after the other. -/
theorem putAll_sound {capacity : Nat} {bag : TaskBag} {tasks : List Task}
    (sound : bag.Sound capacity) :
    (tasks.foldl (fun (bag : TaskBag) task => (bag.put task).bag) bag).Sound capacity := by
  induction tasks generalizing bag with
  | nil => exact sound
  | cons first rest inductionHypothesis => exact inductionHypothesis (sound.put first)

theorem putAll_all {capacity : Nat} {bag : TaskBag} {tasks : List Task} {holds : Task → Prop}
    (stable : ∀ cycles, Bag.Stable cycles holds)
    (sound : bag.Sound capacity) (all : ∀ task ∈ bag.items, holds task)
    (given : ∀ task ∈ tasks, holds task) :
    ∀ task ∈ (tasks.foldl (fun (bag : TaskBag) task => (bag.put task).bag) bag).items,
      holds task := by
  induction tasks generalizing bag with
  | nil => exact all
  | cons first rest inductionHypothesis =>
      have firstHolds := given first List.mem_cons_self
      refine inductionHypothesis (sound.put first) ?_
        (fun task member => given task (List.mem_cons_of_mem _ member))
      intro task member
      exact (stable bag.forgetCycles).put sound.consistent all firstHolds task (.inl member)

theorem absorb_matters (sound : concept.Sound parameters)
    (all : ∀ content ∈ concept.matters, good content)
    (otherAll : ∀ content ∈ other.matters, good content) :
    ∀ content ∈ (concept.absorb other).1.matters, good content := by
  obtain ⟨tasksGood, beliefsGood⟩ := forall_mem_matters.mp all
  obtain ⟨otherTasksGood, otherBeliefsGood⟩ := forall_mem_matters.mp otherAll
  refine forall_mem_matters.mpr
    ⟨putAll_all (fun cycles => stable_content cycles good) sound.tasks tasksGood otherTasksGood,
      ?_⟩
  intro belief member
  rcases Beliefs.mem_addAll member with arrived | old
  · exact otherBeliefsGood belief (List.mem_reverse.mp arrived)
  · exact beliefsGood belief old

theorem Sound.absorb (sound : concept.Sound parameters) (otherSound : other.Sound parameters)
    (sameKey : concept.key = other.key) : (concept.absorb other).1.Sound parameters where
  tasks := putAll_sound sound.tasks
  beliefs := by
    refine sound.beliefs.addAll ?_
    exact fun sentence member => otherSound.beliefs.judgment sentence (List.mem_reverse.mp member)
  about := by
    refine absorb_matters sound sound.about ?_
    have otherAbout := otherSound.about
    rwa [← sameKey] at otherAbout

/-! ## In a bag of concepts -/

theorem Sound.withBudget (sound : concept.Sound parameters) (budget : Budget) :
    ({ concept with budget := budget } : Concept).Sound parameters :=
  ⟨sound.tasks, sound.beliefs, sound.about⟩

/-- A sound concept all of whose terms are of a kind. -/
structure Holds (parameters : Parameters) (good : Term → Prop) (concept : Concept) : Prop where
  sound : concept.Sound parameters
  term : good concept.term
  matters : ∀ content ∈ concept.matters, good content

theorem Holds.contents (holds : concept.Holds parameters good) :
    ∀ term ∈ concept.contents, good term := by
  intro term member
  rcases List.mem_cons.mp member with rfl | member
  · exact holds.term
  · exact holds.matters term member

theorem stable_holds (cycles : Nat) (parameters : Parameters) (good : Term → Prop) :
    Bag.Stable cycles (Concept.Holds parameters good) where
  placed := fun _ _ holds => ⟨holds.sound.withBudget _, holds.term, holds.matters⟩
  merged := fun _ _ holds otherHolds sameKey =>
    ⟨(holds.sound.withBudget _).absorb otherHolds.sound sameKey, holds.term,
      absorb_matters (holds.sound.withBudget _) holds.matters otherHolds.matters⟩
  faded := fun _ _ holds => ⟨holds.sound.withBudget _, holds.term, holds.matters⟩

end Concept

end AttentiveReasoner.Knowledge
