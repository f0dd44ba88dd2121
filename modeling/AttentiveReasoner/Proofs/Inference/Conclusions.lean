import AttentiveReasoner.Proofs.Language.Expressions
import AttentiveReasoner.Proofs.Memory.Runs

/-!
Contract: what structural chaining concludes, by the form of its premises, under the usual
symbols.

Owns:
- the links between two statements of one copula, and the statement that each speaks for;
- which task and belief admit a conclusion, and what that conclusion is;
- that built premises never make a conclusion that is absorbed or has the key of a premise;
- that chaining draws one conclusion from each belief that admits one, in their order, and
  nothing else, and does not fail.

Does not own: what becomes of conclusions, and which beliefs a concept has.

A link is a matter of names alone. The normal form of the premises does the rest: a side of
an implication is no implication, and the sides of a statement differ.
-/

namespace AttentiveReasoner.Inference

open AttentiveReasoner.Evidence
open AttentiveReasoner.Knowledge
open AttentiveReasoner.Language
open AttentiveReasoner.Language.Construction
open AttentiveReasoner.Language.Expression (Fits Returns fits_self statement_returns)
open AttentiveReasoner.Language.Term

/-! ## Links -/

/-- The symmetric copula that two statements with a common subject speak for. -/
inductive Likens : Copula → Copula → Prop where
  | inheritance : Likens .inheritance .similarity
  | implication (order : TemporalOrder) : Likens (.implication order) .equivalence

/-- How a statement between `subject` and `predicate` links to another one with the same
copula, and the copula and the sides of the statement that the link speaks for. A link only
counts if no earlier one fits. -/
inductive Links (copula : Copula) (subject predicate otherSubject otherPredicate : Term) :
    Copula → Term → Term → Prop where
  | onward (shared : predicate.name = otherSubject.name) :
      Links copula subject predicate otherSubject otherPredicate copula subject otherPredicate
  | backward (notOnward : predicate.name ≠ otherSubject.name)
      (shared : otherPredicate.name = subject.name) :
      Links copula subject predicate otherSubject otherPredicate copula otherSubject predicate
  | alike {kind : Copula} {left right : Term} (notOnward : predicate.name ≠ otherSubject.name)
      (notBackward : otherPredicate.name ≠ subject.name)
      (shared : subject.name = otherSubject.name) (likens : Likens copula kind)
      (sides : left = predicate ∧ right = otherPredicate ∨
        left = otherPredicate ∧ right = predicate)
      (ordered : left.name < right.name) :
      Links copula subject predicate otherSubject otherPredicate kind left right

variable {copula kind : Copula} {subject predicate otherSubject otherPredicate left right : Term}
  {conclusion : Conclusion}

theorem likens_iff : Likens copula kind ↔ symmetricOf? copula = some kind := by
  constructor
  · rintro (_ | _) <;> rfl
  · intro symmetric
    cases copula with
    | inheritance => exact Option.some.inj symmetric ▸ .inheritance
    | implication order => exact Option.some.inj symmetric ▸ .implication order
    | similarity | equivalence => contradiction

theorem Likens.isSymmetric (likens : Likens copula kind) : kind.isSymmetric = true := by
  cases likens <;> rfl

theorem orderSides_of_plain (notSymmetric : copula.isSymmetric = false) (first second : Term) :
    orderSides copula first second = (first, second) :=
  orderSides_of_unordered (by rw [notSymmetric, Bool.false_and])

theorem conclusion?_of_links (notSymmetric : copula.isSymmetric = false)
    (links : Links copula subject predicate otherSubject otherPredicate kind left right) :
    ∃ conclusion, conclusion? copula (subject, predicate) (otherSubject, otherPredicate) =
        some conclusion ∧
      conclusion.copula = kind ∧
      orderSides conclusion.copula conclusion.subject conclusion.predicate = (left, right) := by
  have unordered := orderSides_of_plain notSymmetric
  cases links with
  | onward shared =>
      exact ⟨⟨copula, subject, otherPredicate⟩, by simp [conclusion?, shared], rfl,
        unordered _ _⟩
  | backward notOnward shared =>
      exact ⟨⟨copula, otherSubject, predicate⟩, by simp [conclusion?, notOnward, shared], rfl,
        unordered _ _⟩
  | alike notOnward notBackward shared likens sides ordered =>
      have different : predicate.name ≠ otherPredicate.name := by
        rcases sides with ⟨rfl, rfl⟩ | ⟨rfl, rfl⟩
        · exact String.ne_of_lt ordered
        · exact (String.ne_of_lt ordered).symm
      refine ⟨⟨kind, otherPredicate, predicate⟩, ?_, rfl, ?_⟩
      · rw [conclusion?, if_neg notOnward, if_neg notBackward, if_pos (by simp [shared, different]),
          likens_iff.mp likens]
        rfl
      · rcases sides with ⟨rfl, rfl⟩ | ⟨rfl, rfl⟩
        · simp [orderSides, likens.isSymmetric, ordered]
        · simp [orderSides, likens.isSymmetric, String.lt_asymm ordered]

theorem links_of_conclusion? (notSymmetric : copula.isSymmetric = false)
    (concludes : conclusion? copula (subject, predicate) (otherSubject, otherPredicate) =
      some conclusion) :
    let sides := orderSides conclusion.copula conclusion.subject conclusion.predicate
    Links copula subject predicate otherSubject otherPredicate conclusion.copula sides.1
      sides.2 := by
  intro sides
  have unordered := orderSides_of_plain notSymmetric
  unfold conclusion? at concludes
  split at concludes
  · rename_i onward
    obtain rfl := Option.some.inj concludes
    simp only [sides, unordered]
    exact .onward onward
  · rename_i notOnward
    split at concludes
    · rename_i backward
      obtain rfl := Option.some.inj concludes
      simp only [sides, unordered]
      exact .backward notOnward backward
    · rename_i notBackward
      split at concludes
      · rename_i alike
        obtain ⟨shared, different⟩ : subject.name = otherSubject.name ∧
            predicate.name ≠ otherPredicate.name := by
          simpa using alike
        obtain ⟨kind, isKind, rfl⟩ := Option.map_eq_some_iff.mp concludes
        have likens := likens_iff.mpr isKind
        by_cases less : predicate.name < otherPredicate.name
        · have sorted : sides = (predicate, otherPredicate) := by
            simp [sides, orderSides, likens.isSymmetric, less]
          rw [sorted]
          exact .alike notOnward notBackward shared likens (.inl ⟨rfl, rfl⟩) less
        · have greater : otherPredicate.name < predicate.name := by
            refine Classical.byContradiction fun notGreater => different ?_
            exact String.le_antisymm (String.not_lt.mp notGreater) (String.not_lt.mp less)
          have sorted : sides = (otherPredicate, predicate) := by
            simp [sides, orderSides, likens.isSymmetric, less]
          rw [sorted]
          exact .alike notOnward notBackward shared likens (.inr ⟨rfl, rfl⟩) greater
      · contradiction

/-! ## Premises that admit a conclusion -/

/-- A term is a statement with a copula and sides. -/
structure States (term : Term) (copula : Copula) (subject predicate : Term) : Prop where
  copula : term.copula? = some copula
  subject : term.subject? = some subject
  predicate : term.predicate? = some predicate

/-- A task's sentence and a belief rest on different inputs, they are linked, and the copula
that the link speaks for joins the sides that it speaks for. -/
structure Admits (task belief : Sentence) (kind : Copula) (left right : Term) : Prop where
  apart : ∀ serial ∈ belief.stamp.base, serial ∉ task.stamp.base
  linked : ∃ copula subject predicate otherSubject otherPredicate,
    States task.content copula subject predicate ∧
      States belief.content copula otherSubject otherPredicate ∧
      Links copula subject predicate otherSubject otherPredicate kind left right
  joins : Joins kind left right

variable {task belief : Sentence} {cycle : Nat} {decay : Float32}

theorem States.sides?_eq {term : Term} (states : States term copula subject predicate) :
    sides? term = some (subject, predicate) := by
  rw [sides?, states.subject, states.predicate]

theorem states_of_sides? {term : Term} {sides : Term × Term}
    (hasCopula : term.copula? = some copula) (hasSides : sides? term = some sides) :
    States term copula sides.1 sides.2 := by
  unfold sides? at hasSides
  split at hasSides
  · rename_i subject predicate isSubject isPredicate
    rw [← Option.some.inj hasSides]
    exact ⟨hasCopula, isSubject, isPredicate⟩
  · contradiction

theorem apart_iff : (∀ serial ∈ belief.stamp.base, serial ∉ task.stamp.base) ↔
    belief.stamp.overlaps task.stamp = false := by
  simp [Stamp.overlaps]

theorem conclusionFrom?_linked {stamp : Stamp}
    (concludes : conclusionFrom? copula (subject, predicate) stamp belief = some conclusion) :
    belief.stamp.overlaps stamp = false ∧ ∃ otherSubject otherPredicate,
      States belief.content copula otherSubject otherPredicate ∧
        conclusion? copula (subject, predicate) (otherSubject, otherPredicate) =
          some conclusion := by
  unfold conclusionFrom? at concludes
  split at concludes
  · contradiction
  · rename_i passes
    obtain ⟨apart, hasCopula⟩ : belief.stamp.overlaps stamp = false ∧
        belief.content.copula? = some copula := by
      simpa using passes
    obtain ⟨sides, hasSides, concludes⟩ := Option.bind_eq_some_iff.mp concludes
    exact ⟨apart, sides.1, sides.2, states_of_sides? hasCopula hasSides, concludes⟩

/-- What is admitted is what the rule tries to build, if the copula joins it. -/
theorem admits_iff (states : States task.content copula subject predicate)
    (notSymmetric : copula.isSymmetric = false) :
    Admits task belief kind left right ↔
      ∃ conclusion, conclusionFrom? copula (subject, predicate) task.stamp belief =
          some conclusion ∧
        conclusion.copula = kind ∧
        orderSides conclusion.copula conclusion.subject conclusion.predicate = (left, right) ∧
        Joins kind left right := by
  constructor
  · rintro ⟨apart, ⟨_, first, second, otherSubject, otherPredicate, taskStates, beliefStates,
      links⟩, joins⟩
    obtain rfl := Option.some.inj (states.copula.symm.trans taskStates.copula)
    obtain rfl := Option.some.inj (states.subject.symm.trans taskStates.subject)
    obtain rfl := Option.some.inj (states.predicate.symm.trans taskStates.predicate)
    obtain ⟨conclusion, concludes, isKind, sides⟩ := conclusion?_of_links notSymmetric links
    refine ⟨conclusion, ?_, isKind, sides, joins⟩
    rw [conclusionFrom?, apart_iff.mp apart, beliefStates.copula, beliefStates.sides?_eq,
      ← concludes]
    simp
  · rintro ⟨conclusion, concludes, rfl, sides, joins⟩
    obtain ⟨apart, otherSubject, otherPredicate, beliefStates, linked⟩ :=
      conclusionFrom?_linked concludes
    have links := links_of_conclusion? notSymmetric linked
    rw [sides] at links
    exact
      { apart := apart_iff.mpr apart
        linked := ⟨copula, subject, predicate, otherSubject, otherPredicate, states, beliefStates,
          links⟩
        joins := joins }

/-! ## Conclusions -/

/-- A conclusion from a task and a belief: a derived judgment with the given copula and
sides, on the inputs of both, under a key of its own. -/
structure Concludes (cycle : Nat) (decay : Float32) (task : Task) (belief : Sentence)
    (kind : Copula) (left right : Term) (conclusion : Task) : Prop where
  copula : conclusion.content.copula? = some kind
  left : conclusion.content.subject?.map bare = some left.bare
  right : conclusion.content.predicate?.map bare = some right.bare
  judgment : conclusion.sentence.punctuation = .judgment
  origin : conclusion.origin = .derived
  stamp : conclusion.sentence.stamp = .derived task.sentence.stamp belief.stamp cycle
  budget : conclusion.budget = conclusionBudget decay task.budget
  newKey : conclusion.key ≠ task.key ∧ conclusion.key ≠ belief.key

/-- The tasks that are concluded from beliefs, in their order: one from every belief that
admits a conclusion with the task. -/
inductive Draws (cycle : Nat) (decay : Float32) (task : Task) :
    List Sentence → List Task → Prop where
  | nil : Draws cycle decay task [] []
  | pass {belief : Sentence} {beliefs : List Sentence} {conclusions : List Task}
      (admitsNone : ∀ kind left right, ¬Admits task.sentence belief kind left right)
      (draws : Draws cycle decay task beliefs conclusions) :
      Draws cycle decay task (belief :: beliefs) conclusions
  | draw {belief : Sentence} {kind : Copula} {left right : Term} {conclusion : Task}
      {beliefs : List Sentence} {conclusions : List Task}
      (admits : Admits task.sentence belief kind left right)
      (concludes : Concludes cycle decay task belief kind left right conclusion)
      (draws : Draws cycle decay task beliefs conclusions) :
      Draws cycle decay task (belief :: beliefs) (conclusion :: conclusions)

/-- The sides of a built statement. -/
theorem States.sides {term : Term} (states : States term copula subject predicate)
    (formed : term.Formed .usual) :
    subject.Formed .usual ∧ predicate.Formed .usual ∧ Joins copula subject predicate := by
  obtain ⟨_, subjectFormed, predicateFormed, joins, _⟩ :=
    formed.between states.copula states.subject states.predicate
  exact ⟨subjectFormed, predicateFormed, joins⟩

/-- The name of a statement tells the copula and the names of the sides. -/
theorem States.of_name_eq {term content : Term} (states : States term copula subject predicate)
    (formed : term.Formed .usual) (contentFormed : content.Formed .usual)
    (hasKind : content.copula? = some kind)
    (isLeft : content.subject?.map bare = some left.bare)
    (isRight : content.predicate?.map bare = some right.bare)
    (sameName : content.name = term.name) :
    kind = copula ∧ left.name = subject.name ∧ right.name = predicate.name := by
  obtain ⟨sameCopula, sameSubject, samePredicate⟩ :=
    statement_of_bare_eq (contentFormed.bare_eq formed sameName)
  rw [sameCopula, states.copula] at hasKind
  rw [sameSubject, states.subject] at isLeft
  rw [samePredicate, states.predicate] at isRight
  exact ⟨(Option.some.inj hasKind).symm, name_eq_of_bare_eq (Option.some.inj isLeft).symm,
    name_eq_of_bare_eq (Option.some.inj isRight).symm⟩

/-- The conclusion of a link has the name of neither premise. -/
theorem Links.name_ne {first second content : Term}
    (links : Links copula subject predicate otherSubject otherPredicate kind left right)
    (firstFormed : first.Formed .usual) (secondFormed : second.Formed .usual)
    (contentFormed : content.Formed .usual)
    (firstStates : States first copula subject predicate)
    (secondStates : States second copula otherSubject otherPredicate)
    (hasKind : content.copula? = some kind)
    (isLeft : content.subject?.map bare = some left.bare)
    (isRight : content.predicate?.map bare = some right.bare) :
    content.name ≠ first.name ∧ content.name ≠ second.name := by
  have sides := (firstStates.sides firstFormed).2.2.distinct
  have otherSides := (secondStates.sides secondFormed).2.2.distinct
  have asFirst := firstStates.of_name_eq firstFormed contentFormed hasKind isLeft isRight
  have asSecond := secondStates.of_name_eq secondFormed contentFormed hasKind isLeft isRight
  cases links with
  | onward shared =>
      constructor
      · intro same
        exact otherSides (shared.symm.trans (asFirst same).2.2.symm)
      · intro same
        exact sides ((asSecond same).2.1.trans shared.symm)
  | backward _ shared =>
      constructor
      · intro same
        exact otherSides ((asFirst same).2.1.trans shared.symm)
      · intro same
        exact sides (shared.symm.trans (asSecond same).2.2.symm)
  | alike _ _ _ likens _ _ =>
      have notKind : kind ≠ copula := by
        cases likens <;> exact Copula.noConfusion
      exact ⟨fun same => notKind (asFirst same).1, fun same => notKind (asSecond same).1⟩

/-! ## What is built -/

/-- What is built from sides that are not absorbed: nothing if the copula does not join them,
else the statement between them. -/
theorem statement_built (held : Held) {registry : Registry} (formed : registry.Formed .usual)
    (subjectFormed : subject.Formed .usual) (predicateFormed : predicate.Formed .usual)
    (notAbsorbed : absorbs kind predicate = false) :
    ∃ value after, statement .usual held kind (some subject) (some predicate) registry =
        (.ok value, after) ∧
      after.Formed .usual ∧
      let sides := orderSides kind subject predicate
      (value.isSome ↔ Joins kind sides.1 sides.2) ∧
      ∀ content, value = some content → content.Formed .usual ∧
        content.copula? = some kind ∧ content.subject?.map bare = some sides.1.bare ∧
        content.predicate?.map bare = some sides.2.bare := by
  have returns : Returns (statement .usual held kind (some subject) (some predicate) registry)
      (Fits (statementContent kind subject predicate)) :=
    statement_returns formed (fits_self subjectFormed) (fits_self predicateFormed)
  obtain ⟨value, after, stated, afterFormed, sameContent, valueFormed⟩ := returns
  have accepted_iff := accepted_iff_joins subjectFormed predicateFormed notAbsorbed
  refine ⟨value, after, stated, afterFormed, ?_⟩
  intro sides
  simp only [statementContent, directContent, notAbsorbed] at sameContent
  cases accepted : refuses kind subject predicate with
  | true =>
      have notJoined : ¬Joins kind sides.1 sides.2 := by
        rw [← accepted_iff, accepted]
        exact Bool.noConfusion
      simp only [accepted] at sameContent
      obtain rfl : value = none := Option.map_eq_none_iff.mp sameContent
      exact ⟨iff_of_false Bool.noConfusion notJoined, by simp⟩
  | false =>
      simp only [accepted] at sameContent
      obtain ⟨term, rfl, sameBare⟩ := Option.map_eq_some_iff.mp sameContent
      refine ⟨iff_of_true rfl (accepted_iff.mp accepted), ?_⟩
      rintro content ⟨⟩
      exact ⟨valueFormed term rfl, statement_of_bare_eq sameBare⟩

/-- What is concluded from premises in normal form is not absorbed. -/
theorem conclusion?_notAbsorbed
    (concludes : conclusion? copula (subject, predicate) (otherSubject, otherPredicate) =
      some conclusion)
    (joins : Joins copula subject predicate) (otherJoins : Joins copula otherSubject otherPredicate) :
    absorbs conclusion.copula conclusion.predicate = false := by
  have notAbsorbed := absorbs_of_joins joins
  have otherNotAbsorbed := absorbs_of_joins otherJoins
  unfold conclusion? at concludes
  split at concludes
  · rwa [← Option.some.inj concludes]
  · split at concludes
    · rwa [← Option.some.inj concludes]
    · split at concludes
      · obtain ⟨kind, isKind, rfl⟩ := Option.map_eq_some_iff.mp concludes
        cases likens_iff.mpr isKind <;> rfl
      · contradiction

/-! ## Chains -/

/-- A judgment over a built term. -/
def Built (sentence : Sentence) : Prop :=
  sentence.isJudgment = true ∧ sentence.content.Formed .usual

theorem key_ne_of_name_ne {sentence other : Sentence} (judgment : sentence.isJudgment = true)
    (otherJudgment : other.isJudgment = true)
    (different : sentence.content.name ≠ other.content.name) : sentence.key ≠ other.key := by
  have samePunctuation : sentence.punctuation = other.punctuation := by
    simp only [Sentence.isJudgment, decide_eq_true_eq] at judgment otherJudgment
    rw [judgment, otherJudgment]
  intro same
  refine different ?_
  simpa [Sentence.key, samePunctuation] using same

variable {premise : Task} {registry : Registry}

/-- A belief that the rule concludes something from: the conclusion makes no term if the belief
admits none, and else the term of one that it admits. -/
theorem conclusion_built (held : Held) (cycle : Nat) (decay : Float32)
    (states : States premise.content copula subject predicate)
    (notSymmetric : copula.isSymmetric = false) (premiseBuilt : Built premise.sentence)
    (beliefBuilt : Built belief) (formed : registry.Formed .usual)
    (concludes : conclusionFrom? copula (subject, predicate) premise.sentence.stamp belief =
      some conclusion) :
    ∃ value after, statement .usual held conclusion.copula (some conclusion.subject)
        (some conclusion.predicate) registry = (.ok value, after) ∧
      after.Formed .usual ∧
      (value = none → ∀ kind left right, ¬Admits premise.sentence belief kind left right) ∧
      ∀ content, value = some content → ∃ kind left right,
        Admits premise.sentence belief kind left right ∧
          Concludes cycle decay premise belief kind left right
            (derivedTask cycle decay premise belief content) := by
  obtain ⟨_, otherSubject, otherPredicate, beliefStates, linked⟩ :=
    conclusionFrom?_linked concludes
  obtain ⟨subjectFormed, predicateFormed, joins⟩ := states.sides premiseBuilt.2
  obtain ⟨otherFormed, otherPredicateFormed, otherJoins⟩ := beliefStates.sides beliefBuilt.2
  have sidesFormed : conclusion.subject.Formed .usual ∧ conclusion.predicate.Formed .usual :=
    conclusion?_sides linked ⟨subjectFormed, predicateFormed⟩ ⟨otherFormed, otherPredicateFormed⟩
  obtain ⟨value, after, isValue, afterFormed, isSome_iff, isContent⟩ :=
    statement_built held formed sidesFormed.1 sidesFormed.2
      (conclusion?_notAbsorbed linked joins otherJoins)
  refine ⟨value, after, isValue, afterFormed, ?_, ?_⟩
  · rintro rfl kind left right admits
    obtain ⟨own, isOwn, isKind, sides, joins⟩ := (admits_iff states notSymmetric).mp admits
    obtain rfl := Option.some.inj (concludes.symm.trans isOwn)
    rw [sides, isKind] at isSome_iff
    exact Bool.noConfusion (isSome_iff.mpr joins)
  · rintro content rfl
    have joins := isSome_iff.mp rfl
    obtain ⟨contentFormed, hasKind, isLeft, isRight⟩ := isContent content rfl
    have links := links_of_conclusion? notSymmetric linked
    obtain ⟨notFirst, notSecond⟩ := links.name_ne premiseBuilt.2 beliefBuilt.2 contentFormed
      states beliefStates hasKind isLeft isRight
    have admits := (admits_iff states notSymmetric).mpr ⟨conclusion, concludes, rfl, rfl, joins⟩
    refine ⟨_, _, _, admits, ?_⟩
    exact
      { copula := hasKind
        left := isLeft
        right := isRight
        judgment := rfl
        origin := rfl
        stamp := rfl
        budget := rfl
        newKey := ⟨key_ne_of_name_ne rfl premiseBuilt.1 notFirst,
          key_ne_of_name_ne rfl beliefBuilt.1 notSecond⟩ }

/-- A chain draws the conclusions of its beliefs, whatever it derived before. -/
theorem chainWith_draws {held : Held} {beliefs : List Sentence} {derived : List Task}
    (states : States premise.content copula subject predicate)
    (notSymmetric : copula.isSymmetric = false) (premiseBuilt : Built premise.sentence)
    (beliefsBuilt : ∀ belief ∈ beliefs, Built belief) (formed : registry.Formed .usual) :
    ∃ conclusions, (chainWith .usual held cycle decay copula (subject, predicate) premise beliefs
        derived registry).1 = .ok (derived ++ conclusions) ∧
      Draws cycle decay premise beliefs conclusions := by
  -- Every belief may add a conclusion and entries, so both vary.
  induction beliefs generalizing derived registry with
  | nil => exact ⟨[], by rw [List.append_nil]; rfl, .nil⟩
  | cons belief rest inductionHypothesis =>
      rw [List.forall_mem_cons] at beliefsBuilt
      obtain ⟨beliefBuilt, restBuilt⟩ := beliefsBuilt
      rw [chainWith]
      cases concludes :
        conclusionFrom? copula (subject, predicate) premise.sentence.stamp belief with
      | none =>
          obtain ⟨conclusions, chained, draws⟩ := inductionHypothesis restBuilt formed
          refine ⟨conclusions, chained, .pass ?_ draws⟩
          intro kind left right admits
          obtain ⟨conclusion, isConclusion, _⟩ := (admits_iff states notSymmetric).mp admits
          rw [concludes] at isConclusion
          contradiction
      | some conclusion =>
          obtain ⟨value, after, made, afterFormed, admitsNone, admitsOne⟩ :=
            conclusion_built (held.withTerms (derived.map Task.content)) cycle decay states
              notSymmetric premiseBuilt beliefBuilt formed concludes
          simp only [made]
          cases value with
          | none =>
              obtain ⟨conclusions, chained, draws⟩ := inductionHypothesis restBuilt afterFormed
              exact ⟨conclusions, chained, .pass (admitsNone rfl) draws⟩
          | some content =>
              obtain ⟨kind, left, right, admits, isConclusion⟩ := admitsOne content rfl
              obtain ⟨conclusions, chained, draws⟩ := inductionHypothesis restBuilt afterFormed
              rw [List.append_assoc] at chained
              exact ⟨_, chained, .draw admits isConclusion draws⟩

/-! ## Chaining -/

/-- The judgments that chaining applies to: an inheritance, or an implication of any order. -/
def Chains (sentence : Sentence) : Prop :=
  sentence.punctuation = .judgment ∧
    (sentence.content.copula? = some .inheritance ∨
      ∃ order, sentence.content.copula? = some (.implication order))

theorem chaining_of_not_chains {memory : Memory} {outside : Held} {concept : Concept}
    (notChains : ¬Chains premise.sentence) :
    (chaining decay memory outside concept premise).1 = .ok [] := by
  unfold chaining
  split
  · rename_i copula sides hasCopula hasSides
    split
    · rfl
    · rename_i applies
      obtain ⟨judgment, notSymmetric⟩ : premise.sentence.isJudgment = true ∧
          copula.isSymmetric = false := by
        simpa using applies
      refine absurd ⟨by simpa [Sentence.isJudgment] using judgment, ?_⟩ notChains
      cases copula with
      | inheritance => exact .inl hasCopula
      | implication order => exact .inr ⟨order, hasCopula⟩
      | similarity | equivalence => contradiction
  · rfl

theorem chaining_of_chains {memory : Memory} {outside : Held} {concept : Concept}
    (usual : memory.symbols = .usual) (formed : memory.registry.Formed .usual)
    (beliefsBuilt : ∀ belief ∈ concept.beliefs.sentences, Built belief)
    (premiseFormed : premise.content.Formed .usual) (chains : Chains premise.sentence) :
    ∃ conclusions, (chaining decay memory outside concept premise).1 = .ok conclusions ∧
      Draws memory.cycles (decayOf decay) premise concept.beliefs.sentences conclusions := by
  obtain ⟨judgment, copulas⟩ := chains
  have isJudgment : premise.sentence.isJudgment = true := by
    rw [Sentence.isJudgment, judgment]
    rfl
  obtain ⟨copula, hasCopula, notSymmetric⟩ : ∃ copula,
      premise.content.copula? = some copula ∧ copula.isSymmetric = false := by
    rcases copulas with inheritance | ⟨order, implication⟩
    · exact ⟨_, inheritance, rfl⟩
    · exact ⟨_, implication, rfl⟩
  obtain ⟨subject, predicate, isSubject, isPredicate, _⟩ := premiseFormed.sides hasCopula
  have states : States premise.content copula subject predicate :=
    ⟨hasCopula, isSubject, isPredicate⟩
  obtain ⟨conclusions, chained, draws⟩ : ∃ conclusions,
      (chainWith .usual (memory.held outside) memory.cycles (decayOf decay) copula
        (subject, predicate) premise concept.beliefs.sentences [] memory.registry).1 =
          .ok ([] ++ conclusions) ∧
        Draws memory.cycles (decayOf decay) premise concept.beliefs.sentences conclusions :=
    chainWith_draws states notSymmetric ⟨isJudgment, premiseFormed⟩ beliefsBuilt formed
  refine ⟨conclusions, ?_, draws⟩
  simp only [chaining, hasCopula, states.sides?_eq, isJudgment, notSymmetric, usual]
  exact chained

/-- Whatever the rest of the memory holds, chaining on built premises draws what the beliefs
admit, in their order, and nothing where it does not apply. In a memory that a caller gets,
everything is built. -/
theorem chaining_draws :
    (∀ (decay : Float32) (memory : Memory) (outside : Held) (concept : Concept) (task : Task),
      memory.symbols = .usual → memory.registry.Formed .usual →
      (∀ belief ∈ concept.beliefs.sentences, Built belief) → task.content.Formed .usual →
      ∃ conclusions, (chaining decay memory outside concept task).1 = .ok conclusions ∧
        (¬Chains task.sentence → conclusions = []) ∧
        (Chains task.sentence →
          Draws memory.cycles (decayOf decay) task concept.beliefs.sentences conclusions)) ∧
    ∀ (parameters : Parameters) (actions : List Action),
      let memory := (Exchange.of parameters .usual actions).memory
      memory.symbols = .usual ∧ memory.registry.Formed .usual ∧
        ∀ concept ∈ memory.concepts.items,
          (∀ belief ∈ concept.beliefs.sentences, Built belief) ∧
            ∀ task ∈ concept.tasks.items, task.content.Formed .usual := by
  constructor
  · intro decay memory outside concept task usual formed beliefsBuilt taskFormed
    by_cases chains : Chains task.sentence
    · obtain ⟨conclusions, chained, draws⟩ :=
        chaining_of_chains usual formed beliefsBuilt taskFormed chains
      exact ⟨conclusions, chained, (absurd chains ·), fun _ => draws⟩
    · exact ⟨[], chaining_of_not_chains chains, fun _ => rfl, (absurd · chains)⟩
  · intro parameters actions memory
    have settled : memory.Settled _ _ _ _ := Exchange.of_settled parameters .usual actions
    refine ⟨settled.symbols_eq, settled.entries, ?_⟩
    intro concept member
    have holds := settled.holds.resident concept member
    obtain ⟨tasks, beliefs⟩ := Concept.forall_mem_matters.mp holds.matters
    refine ⟨fun belief isBelief => ⟨?_, beliefs belief isBelief⟩, tasks⟩
    exact holds.sound.beliefs.judgment belief isBelief

/-- The actions that tell a memory of `<a =/> b>`, `<c =/> a>` and `<a =/> d>`. -/
def linkedActions : List Action :=
  [.build (.word "a"), .build (.word "b"), .build (.word "c"), .build (.word "d"),
    .build (.statement (.implication .forward) 0 1),
    .build (.statement (.implication .forward) 2 0),
    .build (.statement (.implication .forward) 0 3),
    .inputTask 4 .judgment (.input 1 0) .standard .input,
    .inputTask 5 .judgment (.input 2 0) .standard .input,
    .inputTask 6 .judgment (.input 3 0) .standard .input,
    .processNewTask, .processNewTask, .processNewTask]

/-- At the concept of `a`, the first of them has its subject in common with the third, and the
second leads to that subject. -/
theorem linked_chaining_draws :
    let memory := (Exchange.of {} .usual linkedActions).memory
    let concept := (memory.concepts.items.find? (·.key = "a")).get (by decide +kernel)
    let task := (concept.tasks.items.find? (·.key = "<a =/> b>.")).get (by decide +kernel)
    ∃ conclusions, (chaining usualDecay memory Held.nothing concept task).1 = .ok conclusions ∧
      conclusions.map Task.key = ["<b <=> d>.", "<c =/> b>."] ∧
      Draws memory.cycles (decayOf usualDecay) task concept.beliefs.sentences conclusions := by
  intro memory concept task
  obtain ⟨usual, formed, built⟩ := chaining_draws.2 {} linkedActions
  have resident : concept ∈ memory.concepts.items :=
    List.mem_of_find?_eq_some (Option.some_get _).symm
  have waiting : task ∈ concept.tasks.items :=
    List.mem_of_find?_eq_some (Option.some_get _).symm
  obtain ⟨beliefsBuilt, tasksFormed⟩ := built concept resident
  obtain ⟨conclusions, chained, _, draws⟩ := chaining_draws.1 usualDecay memory Held.nothing
    concept task usual formed beliefsBuilt (tasksFormed task waiting)
  have evaluated :
      (chaining usualDecay memory Held.nothing concept task).1.toOption.map (·.map Task.key) =
          some ["<b <=> d>.", "<c =/> b>."] ∧
        task.sentence.punctuation = .judgment ∧
        task.content.copula? = some (.implication .forward) := by
    decide +kernel
  obtain ⟨keys, judgment, implication⟩ := evaluated
  rw [chained] at keys
  exact ⟨conclusions, chained, Option.some.inj keys, draws ⟨judgment, .inr ⟨_, implication⟩⟩⟩

end AttentiveReasoner.Inference
