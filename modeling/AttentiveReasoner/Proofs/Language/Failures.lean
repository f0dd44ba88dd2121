import AttentiveReasoner.Proofs.Language.Expressions

/-!
Contract: which failures a construction can have.

Owns:
- the failures that are possible under a table of symbols: none under the usual one, and
  a clash of forms under any other;
- that a statement absorbs at most once, so that more steps change nothing;
- that every construction on formed entries, and every answer to a request of a session,
  has no failure but a possible one.

Does not own: the failures of rules.

Two results carry this: under the usual symbols every construction yields its content, and
under any symbols the consequent of a formed implication is no implication.
-/

namespace AttentiveReasoner.Language

/-- A failure that can occur: the entry of a name has another form. Under the usual
symbols a name tells the form. -/
def Failure.Possible (symbols : Symbols) : Failure → Prop
  | .kindMismatch _ _ _ => symbols ≠ .usual
  | .reductionTooDeep _ _ => False

/-- An outcome whose failure, if it is one, is possible. -/
def FailsPossibly {Value : Type} (symbols : Symbols) (outcome : Except Failure Value) : Prop :=
  ∀ failure, outcome = .error failure → failure.Possible symbols

/-- An outcome that does not fail for want of steps. -/
def Shallow {Value : Type} (outcome : Except Failure Value) : Prop :=
  ∀ name depth, outcome ≠ .error (.reductionTooDeep name depth)

variable {symbols : Symbols} {held : Held} {registry : Registry}

theorem shallow_ok {Value : Type} (value : Value) :
    Shallow (.ok value : Except Failure Value) :=
  fun _ _ failed => nomatch failed

theorem FailsPossibly.ok {Value : Type} (value : Value) :
    FailsPossibly symbols (.ok value : Except Failure Value) :=
  fun _ failed => nomatch failed

theorem FailsPossibly.returns {Value : Type} {outcome : Except Failure Value}
    (possibly : FailsPossibly .usual outcome) : ∃ value, outcome = .ok value := by
  cases outcome with
  | ok value => exact ⟨value, rfl⟩
  | error failure =>
      have possible := possibly failure rfl
      cases failure with
      | kindMismatch name expected found => exact absurd rfl possible
      | reductionTooDeep name depth => exact possible.elim

theorem FailsPossibly.shallow {Value : Type} {outcome : Except Failure Value}
    (possibly : FailsPossibly symbols outcome) : Shallow outcome :=
  fun _ _ failed => possibly _ failed

/-- To fail only possibly is to be shallow, and not to fail under the usual symbols. -/
theorem failsPossibly_of {Value : Type} {outcome : Except Failure Value}
    (shallow : Shallow outcome)
    (usual : symbols = .usual → ∃ value, outcome = .ok value) :
    FailsPossibly symbols outcome := by
  rintro failure rfl
  cases failure with
  | kindMismatch name expected found =>
      intro isUsual
      obtain ⟨value, returned⟩ := usual isUsual
      contradiction
  | reductionTooDeep name depth => exact shallow name depth rfl

namespace Construction

/-! ## Steps -/

theorem obtain_shallow (make : ObjectId → Term) : Shallow (registry.obtain held make).1 := by
  intro name depth
  simp only [Registry.obtain]
  cases registry.live? held (make registry.free).name with
  | none => exact fun failed => nomatch failed
  | some existing =>
      simp only [Registry.checkKind]
      split <;> simp [Except.map]

theorem word_shallow (written : String) : Shallow (word held written registry).1 := by
  rw [word_eq]
  split
  · exact obtain_shallow _
  · exact shallow_ok none

theorem conjunctionOf_shallow (members : List Term) :
    Shallow (conjunctionOf symbols held members registry).1 := by
  rw [conjunctionOf_eq]
  split
  · exact shallow_ok none
  · exact shallow_ok (some _)
  · exact obtain_shallow _

theorem conjunction_shallow (left right : Option Term) :
    Shallow (conjunction symbols held left right registry).1 := by
  unfold conjunction
  split
  · exact conjunctionOf_shallow _
  · exact shallow_ok none

/-- A statement that absorbs nothing takes no step. -/
theorem statementWithin_of_notAbsorbed {copula : Copula} {predicate : Term}
    (notAbsorbed : absorbs copula predicate = false) (steps others : Nat)
    (subject : Option Term) :
    statementWithin symbols steps held copula subject (some predicate) registry =
      statementWithin symbols others held copula subject (some predicate) registry := by
  rcases subject with _ | subject
  · rw [statementWithin_missing (.inl rfl), statementWithin_missing (.inl rfl)]
  · cases accepted : refuses copula subject predicate with
    | true => rw [statementWithin_refused accepted, statementWithin_refused accepted]
    | false =>
        rw [statementWithin_direct accepted notAbsorbed,
          statementWithin_direct accepted notAbsorbed]

/-- One step is enough: what is absorbed has no implication as its consequent. -/
theorem statementWithin_steps {copula : Copula} {subject predicate : Option Term}
    (predicateFormed : ∀ term ∈ predicate, term.Formed symbols) (steps : Nat) :
    statementWithin symbols (steps + 1) held copula subject predicate registry =
      statementWithin symbols 1 held copula subject predicate registry := by
  rcases predicate with _ | predicate
  · rw [statementWithin_missing (.inr rfl), statementWithin_missing (.inr rfl)]
  cases absorbed : absorbs copula predicate with
  | false => exact statementWithin_of_notAbsorbed absorbed _ _ subject
  | true =>
      rcases subject with _ | subject
      · rw [statementWithin_missing (.inl rfl), statementWithin_missing (.inl rfl)]
      cases accepted : refuses copula subject predicate with
      | true => rw [statementWithin_refused accepted, statementWithin_refused accepted]
      | false =>
          obtain ⟨condition, consequent, hasCondition, hasConsequent, _, _, _, firstOrder⟩ :=
            implication_sides (predicateFormed predicate rfl)
              (Bool.and_eq_true_iff.mp absorbed).2
          have notAgain := absorbs_of_firstOrder firstOrder (.implication .eternal)
          rw [statementWithin_absorbing accepted absorbed hasCondition hasConsequent,
            ← Nat.zero_add 1,
            statementWithin_absorbing accepted absorbed hasCondition hasConsequent]
          simp only [statementWithin_of_notAbsorbed notAgain steps 0]

/-- No implication that was built has an implication as its predicate. -/
theorem predicate_isImplication {term predicate : Term} (formed : term.Formed symbols)
    (implication : term.isImplication = true) (hasPredicate : term.predicate? = some predicate) :
    predicate.isImplication = false := by
  obtain ⟨_, consequent, _, hasConsequent, _, _, _, firstOrder⟩ :=
    implication_sides formed implication
  rw [hasPredicate] at hasConsequent
  rw [Option.some.inj hasConsequent]
  rw [isHigherOrder_eq, Bool.or_eq_false_iff] at firstOrder
  exact firstOrder.1

theorem lookup_shallow {name : String} {kind : TermKind} {next : Registry → Outcome × Registry}
    (nextShallow : ∀ left : Registry, Shallow (next left).1) :
    Shallow
      (match registry.lookup held name kind with
        | (.error failure, registry) => (.error failure, registry)
        | (.ok (some existing), registry) => (.ok (some existing), registry)
        | (.ok none, registry) => next registry : Outcome × Registry).1 := by
  rw [Registry.lookup_eq]
  cases registry.live? held name with
  | none => exact nextShallow _
  | some existing =>
      by_cases expected : existing.kind = kind
      · simp only [Registry.checkKind, expected, ↓reduceIte]
        exact shallow_ok (some existing)
      · simp only [Registry.checkKind, expected, ↓reduceIte]
        exact fun _ _ => by simp [Except.map]

/-- A statement is shallow if it is wherever an implication is absorbed. -/
theorem shallow_of_absorbed {steps : Nat} {copula : Copula} {subject predicate : Option Term}
    (absorbedShallow : ∀ left ∈ subject, ∀ right ∈ predicate,
      refuses copula left right = false → absorbs copula right = true →
        Shallow (statementWithin symbols steps held copula (some left) (some right) registry).1) :
    Shallow (statementWithin symbols steps held copula subject predicate registry).1 := by
  rcases subject with _ | subject
  · rw [statementWithin_missing (.inl rfl)]
    exact shallow_ok none
  rcases predicate with _ | predicate
  · rw [statementWithin_missing (.inr rfl)]
    exact shallow_ok none
  cases accepted : refuses copula subject predicate with
  | true =>
      rw [statementWithin_refused accepted]
      exact shallow_ok none
  | false =>
      cases absorbed : absorbs copula predicate with
      | true => exact absorbedShallow subject rfl predicate rfl accepted absorbed
      | false =>
          rw [statementWithin_direct accepted absorbed]
          exact obtain_shallow _

theorem statement_shallow {copula : Copula} {subject predicate : Option Term}
    (predicateFormed : ∀ term ∈ predicate, term.Formed symbols) :
    Shallow (statement symbols held copula subject predicate registry).1 := by
  refine shallow_of_absorbed ?_
  intro left _ right rightIs accepted absorbed
  obtain ⟨condition, consequent, hasCondition, hasConsequent, _, _, _, firstOrder⟩ :=
    implication_sides (predicateFormed right rightIs) (Bool.and_eq_true_iff.mp absorbed).2
  rw [show absorptionLimit = 63 + 1 from rfl,
    statementWithin_absorbing accepted absorbed hasCondition hasConsequent]
  refine lookup_shallow ?_
  intro remaining
  split
  · exact shallow_ok none
  · have conjoinedShallow : Shallow
        (conjunction symbols held (some left) (some condition) remaining).1 :=
      conjunction_shallow _ _
    rcases conjoined : conjunction symbols held (some left) (some condition) remaining with
      ⟨failure | joined, remaining⟩
    · rw [conjoined] at conjoinedShallow
      exact conjoinedShallow
    · refine shallow_of_absorbed ?_
      rintro _ _ _ ⟨⟩ _ again
      rw [absorbs_of_firstOrder firstOrder] at again
      contradiction

/-! ## Constructions fail only possibly -/

theorem returns_of_yields {result : Outcome × Registry} {content : Option Term}
    (yields : Yields result content) : ∃ made, result.1 = .ok made := by
  obtain ⟨made, returned, _⟩ := yields
  exact ⟨made, returned⟩

theorem word_fails (written : String) (formed : registry.Formed symbols) :
    FailsPossibly symbols (word held written registry).1 := by
  refine failsPossibly_of (word_shallow written) ?_
  rintro rfl
  exact returns_of_yields (word_yields written formed)

theorem conjunctionOf_fails {members : List Term} (formed : registry.Formed symbols)
    (membersFormed : ∀ term ∈ members, term.Formed symbols) :
    FailsPossibly symbols (conjunctionOf symbols held members registry).1 := by
  refine failsPossibly_of (conjunctionOf_shallow members) ?_
  rintro rfl
  exact returns_of_yields (conjunctionOf_yields formed membersFormed)

theorem conjunction_fails {left right : Option Term} (formed : registry.Formed symbols)
    (leftFormed : ∀ term ∈ left, term.Formed symbols)
    (rightFormed : ∀ term ∈ right, term.Formed symbols) :
    FailsPossibly symbols (conjunction symbols held left right registry).1 := by
  refine failsPossibly_of (conjunction_shallow left right) ?_
  rintro rfl
  rcases left with _ | left
  · exact ⟨none, rfl⟩
  rcases right with _ | right
  · exact ⟨none, rfl⟩
  · exact returns_of_yields
      (conjunction_yields formed (leftFormed left rfl) (rightFormed right rfl))

theorem statement_fails {copula : Copula} {subject predicate : Option Term}
    (formed : registry.Formed symbols)
    (subjectFormed : ∀ term ∈ subject, term.Formed symbols)
    (predicateFormed : ∀ term ∈ predicate, term.Formed symbols) :
    FailsPossibly symbols (statement symbols held copula subject predicate registry).1 := by
  refine failsPossibly_of (statement_shallow predicateFormed) ?_
  rintro rfl
  rcases subject with _ | subject
  · exact ⟨none, by rw [statement, statementWithin_missing (.inl rfl)]⟩
  rcases predicate with _ | predicate
  · exact ⟨none, by rw [statement, statementWithin_missing (.inr rfl)]⟩
  · exact returns_of_yields
      (statement_yields formed (subjectFormed subject rfl) (predicateFormed predicate rfl))

end Construction

/-- Every answer to a request on formed terms fails only possibly. -/
theorem Session.answer_fails {session : Session} (formed : session.Formed symbols)
    (outside : Held) (request : Request) :
    FailsPossibly symbols (session.answer symbols outside request).1 := by
  cases request with
  | word written =>
      rw [Session.answer]
      exact Construction.word_fails written formed.registry
  | statement copula subject predicate =>
      rw [Session.answer]
      exact Construction.statement_fails formed.registry formed.result formed.result
  | conjunction left right =>
      rw [Session.answer]
      exact Construction.conjunction_fails formed.registry formed.result formed.result
  | conjunctionFrom members =>
      simp only [Session.answer]
      cases found : members.mapM session.result? with
      | none => exact .ok none
      | some terms =>
          exact Construction.conjunctionOf_fails formed.registry
            (fun term member => formed.terms term (members_mem found term member))
  | copy place =>
      simp only [Session.answer]
      cases session.result? place with
      | none => exact .ok none
      | some term => exact .ok (some _)
  | component | drop | listed | release | purge => exact .ok _

end AttentiveReasoner.Language
