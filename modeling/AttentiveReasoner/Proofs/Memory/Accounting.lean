import AttentiveReasoner.Proofs.Memory.Upkeep
import AttentiveReasoner.Reasoner
import Mathlib.Algebra.BigOperators.Group.List.Basic
import Mathlib.Algebra.GroupWithZero.Nat
import Mathlib.Algebra.Ring.Int.Defs

/-!
Contract: what a run of a reasoner adds to its counters and to the cycles of its memory.

Owns:
- the count of cycles of a memory, along deliveries, firing and whole cycles;
- completed cycles one after the other, with their reports;
- the accounts of a run: the counters grow by the sums over the completed cycles, and the memory
  counts a cycle that fails as well;
- that a run can be interrupted after any number of cycles and resumed.

Does not own: what the reports say.

The memory counts a cycle when it begins and the reasoner when it is completed, so that the two
counts drift apart by one with every run that fails. A rule is given the memory and may begin cycles
there itself. What it adds to the count is told apart from what the run adds.
-/

namespace AttentiveReasoner

open AttentiveReasoner.Attention
open AttentiveReasoner.Evidence
open AttentiveReasoner.Inference
open AttentiveReasoner.Knowledge
open AttentiveReasoner.Language

/-! ## The count of cycles -/

namespace Memory

variable {outside : Held} {rule : Rule}

theorem cycles_editConcept {ρ : Type} (memory : Memory) (name : String)
    (change : Concept → Concept × List Notice × ρ) :
    (memory.editConcept name change).2.cycles = memory.cycles := by
  rw [editConcept_memory]
  rfl

theorem cycles_activate (memory : Memory) (outside : Held) (term : Term) (budget : Budget) :
    (memory.activate outside term budget).2.cycles = memory.cycles := by
  rcases activate_cases memory outside term budget with ⟨_, reinforced⟩ | ⟨_, entered⟩
  · rw [reinforced, cycles_editConcept]
  · obtain ⟨_, _, _, _, _, cycles⟩ :=
      afterPlacing_keeps memory outside (memory.concepts.put (memory.newcomer term budget))
    rw [entered, cycles]

theorem cycles_deliver (memory : Memory) (outside : Held) (task : Task) (term : Term) :
    (memory.deliver outside task term).cycles = memory.cycles := by
  have activated := cycles_activate memory outside term task.budget
  rcases deliver_cases memory outside task term with rejected | received
  · rw [rejected, activated]
  · rw [received, cycles_editConcept, activated]

theorem cycles_deliverAll (memory : Memory) (outside : Held) (task : Task) (terms : List Term) :
    (terms.foldl (fun memory term => memory.deliver outside task term) memory).cycles =
      memory.cycles := by
  induction terms generalizing memory with
  | nil => rfl
  | cons term rest inductionHypothesis =>
      exact (inductionHypothesis _).trans (cycles_deliver memory outside task term)

theorem cycles_processNewTask (memory : Memory) (outside : Held) :
    (memory.processNewTask outside).2.cycles = memory.cycles := by
  rcases processNewTask_cases memory outside with ⟨_, result⟩ | ⟨task, _, result⟩
  · rw [result]
  · rw [result]
    exact cycles_deliverAll { memory with newTasks := memory.newTasks.takeOut.2 } _ task _

theorem cycles_putBackConcept (memory : Memory) (outside : Held) (concept : Concept) :
    (memory.putBackConcept outside concept).2.cycles = memory.cycles := by
  obtain ⟨_, _, _, _, _, cycles⟩ :=
    afterPlacing_keeps memory outside (memory.concepts.putBack concept)
  rw [putBackConcept_memory, cycles]

theorem cycles_inputTasks (memory : Memory) (tasks : List Task) :
    (memory.inputTasks tasks).cycles = memory.cycles := by
  induction tasks generalizing memory with
  | nil => rfl
  | cons task rest inductionHypothesis => exact inductionHypothesis (memory.inputTask task).2

/-- A rule that leaves the count of cycles alone. -/
def LeavesCount (rule : Rule) : Prop :=
  ∀ memory outside concept task, (rule memory outside concept task).2.cycles = memory.cycles

/-- The known rules leave it alone. -/
theorem leavesCount_of_known (rule : KnownRule) : LeavesCount rule.rule := by
  intro memory outside concept task
  rcases rule.known memory outside concept task with nothing | ⟨decay, chains⟩ | ⟨failure, fails⟩
  · rw [nothing]
    rfl
  · rw [chains, chaining]
    split
    · split <;> rfl
    · rfl
  · rw [fails]

theorem cycles_applyRule (leaves : LeavesCount rule) (memory : Memory) (outside : Held)
    (concept : Concept) : (memory.applyRule outside rule concept).2.2.cycles = memory.cycles := by
  rcases applyRule_cases memory outside rule concept with ⟨_, nothing⟩ |
    ⟨task, _, applied, isApplied, result⟩
  · rw [nothing]
  · have stayed : applied.2.cycles = memory.cycles := by rw [isApplied, leaves]
    rw [result]
    exact stayed

/-- What a rule adds to the count of cycles while it is applied to the concept that is drawn
next. -/
def addedByRule (memory : Memory) (outside : Held) (rule : Rule) : Int :=
  match memory.concepts.takeOut with
  | (none, _) => 0
  | (some concept, concepts) =>
      let left := { memory with concepts := concepts }
      (left.applyRule outside rule concept).2.2.cycles - memory.cycles

theorem addedByRule_of_leavesCount (leaves : LeavesCount rule) (memory : Memory)
    (outside : Held) : memory.addedByRule outside rule = 0 := by
  unfold addedByRule
  rcases memory.concepts.takeOut with ⟨_ | concept, concepts⟩
  · rfl
  · dsimp only
    rw [cycles_applyRule leaves]
    exact Int.sub_self _

/-- Firing counts no cycle. -/
theorem cycles_fireConcept (memory : Memory) (outside : Held) (rule : Rule) :
    ((memory.fireConcept outside rule).2.cycles : Int) =
      memory.cycles + memory.addedByRule outside rule := by
  unfold addedByRule
  rcases fireConcept_cases memory outside rule with ⟨nothing, result⟩ |
    ⟨concept, drawn, applied, back, isApplied, isBack, cases⟩
  · rw [result, ← Prod.eta memory.concepts.takeOut, nothing]
    exact (Int.add_zero _).symm
  · have returned : back.2.cycles = applied.2.2.cycles := by
      rw [isBack, cycles_putBackConcept]
    rw [← Prod.eta memory.concepts.takeOut, drawn]
    dsimp only
    rw [← isApplied, ← returned, add_sub_cancel]
    rcases cases with ⟨failure, _, result⟩ | ⟨tasks, _, result⟩
    · rw [result]
    · rw [result, cycles_inputTasks]

/-- What a rule adds to the count of cycles in a cycle that begins with a memory. -/
def addedInCycle (rule : Rule) (outside : Held) (memory : Memory) : Int :=
  (memory.midCycle outside).addedByRule outside rule

/-- A cycle counts itself, whether it fails or not. -/
theorem cycles_runCycle (memory : Memory) (outside : Held) (rule : Rule) :
    ((memory.runCycle outside rule).2.cycles : Int) =
      memory.cycles + 1 + memory.addedInCycle rule outside := by
  have begun : (memory.midCycle outside).cycles = memory.cycles + 1 :=
    cycles_processNewTask { memory with cycles := memory.cycles + 1 } outside
  rw [runCycle_of_midCycle, cycles_fireConcept, begun, addedInCycle, Int.natCast_add_one]

/-! ## Completed cycles -/

/-- A cycle that was completed: the memory with which it began, and its report. -/
structure CompletedCycle where
  before : Memory
  report : CycleReport

/-- Cycles are completed one after the other. -/
inductive Completes (rule : Rule) (outside : Held) :
    Memory → List CompletedCycle → Memory → Prop
  | here (memory : Memory) : Completes rule outside memory [] memory
  | cycle {memory middle after : Memory} {report : CycleReport} {rest : List CompletedCycle}
      (completed : memory.runCycle outside rule = (.ok report, middle))
      (later : Completes rule outside middle rest after) :
      Completes rule outside memory (⟨memory, report⟩ :: rest) after

/-- The count of cycles grew by a number, beside what the rule added to it in the cycles that began
with given memories. So it grew by this number if the rule leaves the count alone. -/
structure Counts (rule : Rule) (outside : Held) (before : Memory) (number : Nat)
    (begun : List Memory) (after : Memory) : Prop where
  exactly : (after.cycles : Int) =
    before.cycles + number + (begun.map (addedInCycle rule outside)).sum
  of_leavesCount : LeavesCount rule → after.cycles = before.cycles + number

theorem counts_of_exactly {before after : Memory} {number : Nat} {begun : List Memory}
    (exactly : (after.cycles : Int) =
      before.cycles + number + (begun.map (addedInCycle rule outside)).sum) :
    Counts rule outside before number begun after where
  exactly := exactly
  of_leavesCount := by
    intro leaves
    have nothing : (begun.map (addedInCycle rule outside)).sum = 0 := by
      refine List.sum_eq_zero ?_
      intro added isAdded
      obtain ⟨memory, _, rfl⟩ := List.mem_map.mp isAdded
      exact addedByRule_of_leavesCount leaves _ outside
    omega

/-- Completed cycles are counted. -/
theorem Completes.counts {memory after : Memory} {completed : List CompletedCycle}
    (completes : Completes rule outside memory completed after) :
    Counts rule outside memory completed.length (completed.map (·.before)) after := by
  apply counts_of_exactly
  induction completes with
  | here memory => simp
  | @cycle memory middle after report rest completed _ inductionHypothesis =>
      have counted := cycles_runCycle memory outside rule
      rw [completed] at counted
      rw [inductionHypothesis, counted]
      simp only [List.length_cons, List.map_cons, List.sum_cons]
      omega

/-- A further cycle is counted however it ends. -/
theorem Completes.counts_runCycle {memory middle : Memory} {completed : List CompletedCycle}
    (completes : Completes rule outside memory completed middle) :
    Counts rule outside memory (completed.length + 1) (completed.map (·.before) ++ [middle])
      (middle.runCycle outside rule).2 := by
  apply counts_of_exactly
  rw [cycles_runCycle, completes.counts.exactly, List.map_append, List.sum_append]
  simp only [List.map_cons, List.map_nil, List.sum_singleton]
  omega

end Memory

/-! ## Runs -/

/-- Counters grew by the sums over the reports of completed cycles. -/
structure Counters.Grow (before : Counters) (reports : List CycleReport) (after : Counters) :
    Prop where
  cycles : after.cycles = before.cycles + reports.length
  processed : after.processed = before.processed + (reports.map (·.processed.toNat)).sum
  fired : after.fired = before.fired + (reports.map (·.fired.toNat)).sum
  derived : after.derived = before.derived + (reports.map (·.derived)).sum
  forgotten : after.forgotten = before.forgotten + (reports.map (·.forgotten)).sum

theorem Counters.grow_refl (counters : Counters) : counters.Grow [] counters :=
  ⟨rfl, rfl, rfl, rfl, rfl⟩

/-- What is recorded of a cycle comes before what is recorded of later ones. -/
theorem Counters.Grow.cons {before after : Counters} {report : CycleReport}
    {reports : List CycleReport} (grow : (before.record report).Grow reports after) :
    before.Grow (report :: reports) after := by
  obtain ⟨cycles, processed, fired, derived, forgotten⟩ := grow
  simp only [Counters.record] at cycles processed fired derived forgotten
  constructor
  all_goals simp only [List.length_cons, List.map_cons, List.sum_cons]
  all_goals omega

namespace Reasoner

/-- The accounts of a run of a number of cycles, with the cycles that it completes and the memory
after these. The counters grow by what the completed cycles report. A run returns its counters
after as many cycles as it was to have; otherwise it fails as the next cycle does, in the memory
that this cycle leaves. -/
structure Accounts (reasoner : Reasoner) (memory : Memory) (outside : Held) (steps : Nat)
    (completed : List Memory.CompletedCycle) (middle : Memory)
    (result : Except Failure Counters × Reasoner × Memory) : Prop where
  completes : Memory.Completes reasoner.rule outside memory completed middle
  rule_eq : result.2.1.rule = reasoner.rule
  grow : reasoner.counters.Grow (completed.map (·.report)) result.2.1.counters
  returns : ∀ counters, result.1 = .ok counters →
    completed.length = steps ∧ counters = result.2.1.counters ∧ result.2.2 = middle ∧
      Memory.Counts reasoner.rule outside memory completed.length (completed.map (·.before))
        result.2.2
  fails : ∀ failure, result.1 = .error failure →
    completed.length < steps ∧
      middle.runCycle outside reasoner.rule = (.error failure, result.2.2) ∧
      Memory.Counts reasoner.rule outside memory (completed.length + 1)
        (completed.map (·.before) ++ [middle]) result.2.2

theorem accounts_zero (reasoner : Reasoner) (memory : Memory) (outside : Held) :
    Accounts reasoner memory outside 0 [] memory (reasoner.run memory outside 0) where
  completes := .here memory
  rule_eq := rfl
  grow := reasoner.counters.grow_refl
  returns := by
    rintro counters ⟨⟩
    exact ⟨rfl, rfl, rfl, (Memory.Completes.here memory).counts⟩
  fails := nofun

variable {reasoner : Reasoner} {memory after : Memory} {outside : Held} {steps : Nat}

/-- A run ends with the first cycle that fails. -/
theorem run_of_failure {failure : Failure}
    (failed : memory.runCycle outside reasoner.rule = (.error failure, after)) :
    reasoner.run memory outside (steps + 1) = (.error failure, reasoner, after) := by
  simp only [run, step, failed]

/-- A run goes on after a cycle that is completed. -/
theorem run_of_report {report : CycleReport}
    (completed : memory.runCycle outside reasoner.rule = (.ok report, after)) :
    reasoner.run memory outside (steps + 1) =
      ({ reasoner with counters := reasoner.counters.record report } : Reasoner).run after outside
        steps := by
  simp only [run, step, completed]

/-- A cycle that fails is counted by the memory only. -/
theorem accounts_of_failure {failure : Failure}
    (failed : memory.runCycle outside reasoner.rule = (.error failure, after)) :
    Accounts reasoner memory outside (steps + 1) [] memory (.error failure, reasoner, after) where
  completes := .here memory
  rule_eq := rfl
  grow := reasoner.counters.grow_refl
  returns := nofun
  fails := by
    rintro _ ⟨⟩
    have counted := (@Memory.Completes.here reasoner.rule outside memory).counts_runCycle
    rw [failed] at counted
    exact ⟨Nat.succ_pos steps, failed, counted⟩

/-- A completed cycle comes before those of the rest of the run. -/
theorem Accounts.cons {report : CycleReport} {completed : List Memory.CompletedCycle}
    {middle : Memory} {result : Except Failure Counters × Reasoner × Memory}
    (ran : memory.runCycle outside reasoner.rule = (.ok report, after))
    (accounts : Accounts { reasoner with counters := reasoner.counters.record report } after outside
      steps completed middle result) :
    Accounts reasoner memory outside (steps + 1) (⟨memory, report⟩ :: completed) middle result := by
  have completes := Memory.Completes.cycle ran accounts.completes
  constructor
  case completes => exact completes
  case rule_eq => exact accounts.rule_eq
  case grow => exact accounts.grow.cons
  case returns =>
    intro counters returned
    obtain ⟨all, isResult, isMiddle, _⟩ := accounts.returns counters returned
    refine ⟨congrArg (· + 1) all, isResult, isMiddle, ?_⟩
    rw [isMiddle]
    exact completes.counts
  case fails =>
    intro failure failed
    obtain ⟨fewer, next, _⟩ := accounts.fails failure failed
    have counted := completes.counts_runCycle
    rw [next] at counted
    exact ⟨Nat.succ_lt_succ fewer, next, counted⟩

/-- Every run has its accounts. -/
theorem exists_accounts (reasoner : Reasoner) (memory : Memory) (outside : Held) (steps : Nat) :
    ∃ completed middle, Accounts reasoner memory outside steps completed middle
      (reasoner.run memory outside steps) := by
  -- The rest of a run begins with other counters, so the reasoner is generalized.
  induction steps generalizing reasoner memory with
  | zero => exact ⟨[], memory, accounts_zero reasoner memory outside⟩
  | succ steps inductionHypothesis =>
      rcases ran : memory.runCycle outside reasoner.rule with ⟨failure | report, after⟩
      · rw [run_of_failure ran]
        exact ⟨[], memory, accounts_of_failure ran⟩
      · rw [run_of_report ran]
        obtain ⟨completed, middle, accounts⟩ :=
          inductionHypothesis { reasoner with counters := reasoner.counters.record report } after
        exact ⟨_, middle, accounts.cons ran⟩

/-- A run that returned is resumed where it was interrupted. -/
theorem run_add {counters : Counters}
    (returned : (reasoner.run memory outside steps).1 = .ok counters) (more : Nat) :
    reasoner.run memory outside (steps + more) =
      (reasoner.run memory outside steps).2.1.run (reasoner.run memory outside steps).2.2 outside
        more := by
  induction steps generalizing reasoner memory with
  | zero =>
      rw [Nat.zero_add]
      rfl
  | succ steps inductionHypothesis =>
      rw [Nat.add_right_comm]
      rcases ran : memory.runCycle outside reasoner.rule with ⟨failure | report, after⟩
      · rw [run_of_failure ran] at returned
        contradiction
      · rw [run_of_report ran] at returned ⊢
        rw [run_of_report ran, inductionHypothesis returned]

/-- Whatever the rule does, a run has its accounts, and a run that returns and is followed by
another one comes to the same as a single run of all the cycles. -/
theorem run_accounts (reasoner : Reasoner) (memory : Memory) (outside : Held) (steps : Nat) :
    let first := reasoner.run memory outside steps
    (∃ completed middle, Accounts reasoner memory outside steps completed middle first) ∧
      ∀ counters, first.1 = .ok counters → ∀ more,
        first.2.1.run first.2.2 outside more = reasoner.run memory outside (steps + more) :=
  ⟨exists_accounts reasoner memory outside steps,
    fun _ returned more => (run_add returned more).symm⟩

/-- A rule that fails in one cycle of a memory, and derives nothing in the others. -/
def failingAt (cycle : Nat) (failure : Failure) : KnownRule where
  rule memory _ _ _ := (if memory.cycles = cycle then .error failure else .ok [], memory)
  known := by
    intro memory outside concept task
    by_cases now : memory.cycles = cycle
    · exact .inr (.inr ⟨failure, by rw [if_pos now]⟩)
    · exact .inl (by rw [if_neg now]; rfl)

/-- A reasoner whose second cycle fails. -/
def interrupted : Reasoner where
  rule := (failingAt 2 (.reductionTooDeep "a" 0)).rule

/-- A memory in which a task about `a` waits. -/
def informed : Memory :=
  ((Memory.empty {} .usual).inputTask
    ⟨⟨.atom 0 "a", .judgment, .input 1 0⟩, .standard, .input⟩).2

/-- One cycle is completed and one fails, so that the reasoner counts one and the memory two. In two
parts the run comes to the same. -/
theorem interrupted_run_accounts :
    (∃ completed middle, Accounts interrupted informed Held.nothing 3 completed middle
      (interrupted.run informed Held.nothing 3)) ∧
    Memory.LeavesCount interrupted.rule ∧
    (interrupted.run informed Held.nothing 1).2.1.run
        (interrupted.run informed Held.nothing 1).2.2 Held.nothing 2 =
      interrupted.run informed Held.nothing 3 ∧
    (interrupted.run informed Held.nothing 1).1 = .ok ⟨1, 1, 1, 0, 0⟩ ∧
    (interrupted.run informed Held.nothing 3).1 = .error (.reductionTooDeep "a" 0) ∧
    (interrupted.run informed Held.nothing 3).2.1.counters = ⟨1, 1, 1, 0, 0⟩ ∧
    (interrupted.run informed Held.nothing 3).2.2.cycles = 2 := by
  have ran : (interrupted.run informed Held.nothing 1).1 = .ok ⟨1, 1, 1, 0, 0⟩ ∧
      (interrupted.run informed Held.nothing 3).1 = .error (.reductionTooDeep "a" 0) ∧
      (interrupted.run informed Held.nothing 3).2.1.counters = ⟨1, 1, 1, 0, 0⟩ ∧
      (interrupted.run informed Held.nothing 3).2.2.cycles = 2 := by
    decide +kernel
  exact ⟨(run_accounts interrupted informed Held.nothing 3).1, Memory.leavesCount_of_known _,
    (run_accounts interrupted informed Held.nothing 1).2 _ ran.1 2, ran⟩

/-- A reasoner whose rule has the memory run a cycle without rule, and derives nothing. -/
def cycling : Reasoner where
  rule memory outside _ _ := (.ok [], (memory.runCycle outside noRule).2)

/-- A run of one cycle returns, and the memory counts two. So the count of the memory does not grow
by the completed cycles of a run alone, unless the rule leaves it to the run. -/
theorem cycling_run_counts_more :
    (cycling.run informed Held.nothing 1).1 = .ok ⟨1, 1, 1, 0, 0⟩ ∧
      (cycling.run informed Held.nothing 1).2.2.cycles = 2 ∧
      ¬∀ (reasoner : Reasoner) (memory : Memory) (outside : Held) (steps : Nat)
        (counters : Counters), (reasoner.run memory outside steps).1 = .ok counters →
          (reasoner.run memory outside steps).2.2.cycles = memory.cycles + steps := by
  have returned : (cycling.run informed Held.nothing 1).1 = .ok ⟨1, 1, 1, 0, 0⟩ := by
    decide +kernel
  have counted : (cycling.run informed Held.nothing 1).2.2.cycles = 2 := by
    decide +kernel
  refine ⟨returned, counted, ?_⟩
  intro grows
  have alone : (cycling.run informed Held.nothing 1).2.2.cycles = 0 + 1 :=
    grows cycling informed Held.nothing 1 _ returned
  omega

end Reasoner

end AttentiveReasoner
