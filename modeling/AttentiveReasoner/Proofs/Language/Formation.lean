import AttentiveReasoner.Proofs.Language.Interning

/-!
Contract: constructions form terms.

Owns:
- the order and the members of a list of terms sorted by name;
- atoms, conjunctions and statements as terms to find or make;
- that the sides a statement is made of are joined by its copula;
- that every construction from formed operands, over formed entries, forms a term
  if it has one as its result, and leaves formed entries.

Does not own: when a construction has a result.

Nothing here depends on what is held. The symbols are arbitrary: a name may be found
where another term is meant, but what is found is formed.
-/

namespace AttentiveReasoner.Language

namespace Construction

variable {symbols : Symbols} {held : Held} {registry : Registry}

/-! ## Sorting by name -/

theorem mem_of_mem_insertByName {term other : Term} {terms : List Term}
    (member : other ∈ insertByName term terms) : other = term ∨ other ∈ terms := by
  induction terms with
  | nil => exact .inl (List.mem_singleton.mp member)
  | cons first rest inductionHypothesis =>
      unfold insertByName at member
      split at member
      · exact List.mem_cons.mp member
      · split at member
        · rcases List.mem_cons.mp member with same | member
          · exact .inl same
          · exact .inr (List.mem_cons_of_mem _ member)
        · rcases List.mem_cons.mp member with rfl | member
          · exact .inr List.mem_cons_self
          · rcases inductionHypothesis member with same | member
            · exact .inl same
            · exact .inr (List.mem_cons_of_mem _ member)

theorem mem_of_mem_sortByName {terms : List Term} :
    ∀ {term : Term}, term ∈ sortByName terms → term ∈ terms := by
  induction terms with
  | nil => exact fun member => member
  | cons first rest inductionHypothesis =>
      intro term member
      rcases mem_of_mem_insertByName member with rfl | member
      · exact List.mem_cons_self
      · exact List.mem_cons_of_mem _ (inductionHypothesis member)

theorem insertByName_increasing {term : Term} {terms : List Term}
    (increasing : (terms.map (·.name)).Pairwise (· < ·)) :
    ((insertByName term terms).map (·.name)).Pairwise (· < ·) := by
  induction terms with
  | nil => simp [insertByName]
  | cons first rest inductionHypothesis =>
      rw [List.map_cons, List.pairwise_cons] at increasing
      obtain ⟨firstLess, restIncreasing⟩ := increasing
      unfold insertByName
      split
      · rename_i less
        simp only [List.map_cons, List.pairwise_cons]
        refine ⟨?_, firstLess, restIncreasing⟩
        intro name member
        rcases List.mem_cons.mp member with rfl | member
        · exact less
        · exact String.lt_trans less (firstLess name member)
      · split
        · rename_i same
          rw [List.map_cons, List.pairwise_cons, same]
          exact ⟨firstLess, restIncreasing⟩
        · rename_i notLess different
          have greater : first.name < term.name := by
            refine Classical.byContradiction fun notGreater => different ?_
            exact String.le_antisymm (String.not_lt.mp notGreater) (String.not_lt.mp notLess)
          rw [List.map_cons, List.pairwise_cons]
          refine ⟨?_, inductionHypothesis restIncreasing⟩
          intro name member
          obtain ⟨other, otherMember, rfl⟩ := List.mem_map.mp member
          rcases mem_of_mem_insertByName otherMember with rfl | otherMember
          · exact greater
          · exact firstLess _ (List.mem_map_of_mem otherMember)

theorem sortByName_increasing (terms : List Term) :
    ((sortByName terms).map (·.name)).Pairwise (· < ·) := by
  induction terms with
  | nil => exact List.Pairwise.nil
  | cons first rest inductionHypothesis =>
      exact insertByName_increasing inductionHypothesis

/-! ## Atoms and conjunctions -/

theorem word_eq (written : String) :
    word held written registry =
      if isAtomName (atomName written) then
        registry.obtain held
          (fun object => Term.atom object (String.ofList (atomName written)))
      else (.ok none, registry) := by
  simp only [word]
  split
  · rw [← Registry.intern_obtain]
  · rfl

/-- The conjunction of several components in a given object. -/
def makeConjunction (symbols : Symbols) (components : List Term) (object : ObjectId) : Term :=
  Term.compound object (symbols.conjunctionName (components.map (·.name)))
    .conjunction components

theorem conjunctionOf_eq (terms : List Term) :
    conjunctionOf symbols held terms registry =
      match sortByName terms with
      | [] => (.ok none, registry)
      | [term] => (.ok (some term), registry)
      | components => registry.obtain held (makeConjunction symbols components) := by
  unfold conjunctionOf
  rcases sortByName terms with _ | ⟨first, _ | ⟨second, rest⟩⟩
  · rfl
  · rfl
  · exact Registry.lookup_intern_obtain (fun _ => rfl) (fun _ => rfl)

theorem word_forms (written : String) (formed : registry.Formed symbols) :
    Forms symbols (word held written registry) := by
  rw [word_eq]
  split
  · rename_i admissible
    refine .obtain formed (.atom _ ?_)
    rwa [String.toList_ofList]
  · exact .nothing (fun _ => by simp) formed

theorem conjunctionOf_forms {terms : List Term} (formed : registry.Formed symbols)
    (termsFormed : ∀ term ∈ terms, term.Formed symbols) :
    Forms symbols (conjunctionOf symbols held terms registry) := by
  have sortedFormed : ∀ term ∈ sortByName terms, term.Formed symbols :=
    fun term member => termsFormed term (mem_of_mem_sortByName member)
  have increasing := sortByName_increasing terms
  rw [conjunctionOf_eq]
  generalize sortByName terms = components at sortedFormed increasing ⊢
  rcases components with _ | ⟨first, _ | ⟨second, rest⟩⟩
  · exact .nothing (fun _ => by simp) formed
  · exact .single formed (sortedFormed first List.mem_cons_self)
  · exact .obtain formed (.conjunction _ sortedFormed (by simp) increasing)

theorem conjuncts_formed {term : Term} (formed : term.Formed symbols) :
    ∀ conjunct ∈ conjuncts term, conjunct.Formed symbols := by
  unfold conjuncts
  split
  · exact formed.component
  · intro conjunct member
    rw [List.mem_singleton.mp member]
    exact formed

theorem conjunction_forms {left right : Option Term} (formed : registry.Formed symbols)
    (leftFormed : ∀ term ∈ left, term.Formed symbols)
    (rightFormed : ∀ term ∈ right, term.Formed symbols) :
    Forms symbols (conjunction symbols held left right registry) := by
  unfold conjunction
  split
  · rename_i left right
    refine conjunctionOf_forms formed ?_
    intro term member
    rcases List.mem_append.mp member with member | member
    · exact conjuncts_formed (leftFormed left rfl) term member
    · exact conjuncts_formed (rightFormed right rfl) term member
  · exact .nothing (fun _ => by simp) formed

/-! ## Statements -/

theorem hasComponent_iff {term other : Term} :
    term.hasComponent other = true ↔ other.name ∈ term.components.map (·.name) := by
  simp [Term.hasComponent]

/-- A formed term encloses the terms that it has as components. -/
theorem encloses_iff {container other : Term} (formed : container.Formed symbols) :
    encloses container other = true ↔ other.name ∈ container.components.map (·.name) := by
  rw [← hasComponent_iff]
  cases atomic : container.isAtomic with
  | false => simp [encloses, atomic]
  | true =>
      have noComponents := (formed.normalForm.atom atomic).2
      simp [encloses, atomic, Term.hasComponent, noComponents]

theorem areConverse_iff {left right : Term} :
    areConverse left right = true ↔
      ∃ first second,
        left.sideNames? = some (first, second) ∧ right.sideNames? = some (second, first) := by
  unfold areConverse Term.sideNames?
  rcases left.subject? with _ | leftSubject <;> rcases left.predicate? with _ | leftPredicate <;>
    rcases right.subject? with _ | rightSubject <;>
      rcases right.predicate? with _ | rightPredicate <;>
        simp only [Bool.and_eq_true, decide_eq_true_eq, Option.some.injEq, Prod.mk.injEq,
          Bool.false_eq_true, reduceCtorEq, false_and, and_false, exists_const]
  constructor
  · rintro ⟨sameFirst, sameSecond⟩
    exact ⟨_, _, ⟨rfl, rfl⟩, sameSecond.symm, sameFirst.symm⟩
  · rintro ⟨_, _, ⟨rfl, rfl⟩, sameSecond, sameFirst⟩
    exact ⟨sameFirst.symm, sameSecond.symm⟩

theorem areConverse_comm (left right : Term) :
    areConverse left right = areConverse right left := by
  rw [Bool.eq_iff_iff, areConverse_iff, areConverse_iff]
  constructor
  · rintro ⟨first, second, leftSides, rightSides⟩
    exact ⟨second, first, rightSides, leftSides⟩
  · rintro ⟨first, second, rightSides, leftSides⟩
    exact ⟨second, first, leftSides, rightSides⟩

theorem areDegenerate_iff {left right : Term} :
    areDegenerate left right = true ↔
      left.name = right.name ∨ (left.isVariable ∧ right.isVariable) ∨
        encloses left right ∨ encloses right left ∨ areConverse left right := by
  simp only [areDegenerate, Bool.or_eq_true, Bool.and_eq_true, decide_eq_true_eq, or_assoc]

theorem areDegenerate_comm (left right : Term) :
    areDegenerate left right = areDegenerate right left := by
  have oneWay : ∀ left right : Term,
      areDegenerate left right = true → areDegenerate right left = true := by
    intro left right degenerate
    rw [areDegenerate_iff] at degenerate ⊢
    rcases degenerate with sameName | ⟨leftVariable, rightVariable⟩ | leftEncloses |
      rightEncloses | converse
    · exact .inl sameName.symm
    · exact .inr (.inl ⟨rightVariable, leftVariable⟩)
    · exact .inr (.inr (.inr (.inl leftEncloses)))
    · exact .inr (.inr (.inl rightEncloses))
    · rw [areConverse_comm] at converse
      exact .inr (.inr (.inr (.inr converse)))
  rw [Bool.eq_iff_iff]
  exact ⟨oneWay left right, oneWay right left⟩

theorem isHigherOrder_eq (term : Term) :
    term.isHigherOrder = (term.isImplication || term.isEquivalence) := by
  unfold Term.isHigherOrder Term.isImplication Term.isEquivalence
  rcases term.copula? with _ | _ | _ | _ | _ <;> rfl

theorem orderSides_of_unordered {copula : Copula} {subject predicate : Term}
    (unordered : (copula.isSymmetric && decide (predicate.name < subject.name)) = false) :
    orderSides copula subject predicate = (subject, predicate) := by
  simp only [orderSides, unordered]
  rfl

/-- Only a symmetric copula exchanges its sides. -/
theorem orderSides_of_implication {copula : Copula} (implication : copula.isImplication)
    (subject predicate : Term) :
    orderSides copula subject predicate = (subject, predicate) := by
  refine orderSides_of_unordered ?_
  cases copula <;> first | rfl | contradiction

theorem admits_comm {copula : Copula} (symmetric : copula.isSymmetric) (left right : Term) :
    admits copula left right = admits copula right left := by
  cases copula with
  | similarity => rfl
  | equivalence => simp only [admits, Bool.and_comm]
  | inheritance | implication _ => contradiction

/-- The copula joins admitted sides in their order, unless it absorbs the predicate. -/
theorem joins_of_ordered {copula : Copula} {subject predicate : Term}
    (subjectFormed : subject.Formed symbols) (predicateFormed : predicate.Formed symbols)
    (admitted : admits copula subject predicate = true)
    (notDegenerate : areDegenerate subject predicate = false)
    (notAbsorbed : (copula.isImplication && predicate.isImplication) = false)
    (ordered : copula.isSymmetric → subject.name < predicate.name) :
    Joins copula subject predicate := by
  rw [← Bool.not_eq_true, areDegenerate_iff] at notDegenerate
  simp only [not_or] at notDegenerate
  obtain ⟨distinct, notVariables, notInPredicate, notInSubject, notConverse⟩ := notDegenerate
  rw [encloses_iff subjectFormed] at notInPredicate
  rw [encloses_iff predicateFormed] at notInSubject
  refine ⟨distinct, notVariables, notInSubject, notInPredicate, ?_, ordered, ?_⟩
  · intro first second subjectSides predicateSides
    exact notConverse (areConverse_iff.mpr ⟨first, second, subjectSides, predicateSides⟩)
  · intro higherOrder
    rw [isHigherOrder_eq predicate]
    cases copula with
    | inheritance | similarity => contradiction
    | implication order =>
        have noImplication : predicate.isImplication = false := notAbsorbed
        simpa [admits, noImplication] using admitted
    | equivalence => simpa [admits, isHigherOrder_eq] using admitted

theorem joins_of_admitted {copula : Copula} {subject predicate : Term}
    (subjectFormed : subject.Formed symbols) (predicateFormed : predicate.Formed symbols)
    (admitted : admits copula subject predicate = true)
    (notDegenerate : areDegenerate subject predicate = false)
    (notAbsorbed : (copula.isImplication && predicate.isImplication) = false) :
    Joins copula (orderSides copula subject predicate).1
      (orderSides copula subject predicate).2 := by
  have distinct : subject.name ≠ predicate.name := by
    intro sameName
    rw [areDegenerate_iff.mpr (.inl sameName)] at notDegenerate
    contradiction
  cases exchanged : copula.isSymmetric && decide (predicate.name < subject.name) with
  | false =>
      rw [orderSides_of_unordered exchanged]
      refine joins_of_ordered subjectFormed predicateFormed admitted notDegenerate notAbsorbed ?_
      intro symmetric
      have notLess : ¬predicate.name < subject.name := by simpa [symmetric] using exchanged
      refine Classical.byContradiction fun notGreater => distinct ?_
      exact String.le_antisymm (String.not_lt.mp notLess) (String.not_lt.mp notGreater)
  | true =>
      obtain ⟨symmetric, less⟩ : copula.isSymmetric = true ∧ predicate.name < subject.name := by
        simpa using exchanged
      have sides : orderSides copula subject predicate = (predicate, subject) := by
        simp [orderSides, symmetric, less]
      have notImplication : copula.isImplication = false := by
        cases copula <;> first | rfl | contradiction
      rw [admits_comm symmetric] at admitted
      rw [areDegenerate_comm] at notDegenerate
      rw [sides]
      exact joins_of_ordered predicateFormed subjectFormed admitted notDegenerate
        (by rw [notImplication, Bool.false_and]) (fun _ => less)

/-- The statement with a copula between two sides in a given object. -/
def makeStatement (symbols : Symbols) (copula : Copula) (subject predicate : Term)
    (object : ObjectId) : Term :=
  Term.compound object (symbols.statementName copula subject.name predicate.name)
    (.statement copula) [subject, predicate]

/-- Sides that a copula does not admit, or that make no statement, are refused. -/
def refuses (copula : Copula) (subject predicate : Term) : Bool :=
  !admits copula subject predicate || areDegenerate subject predicate

/-- An implication absorbs a predicate that is an implication. -/
def absorbs (copula : Copula) (predicate : Term) : Bool :=
  copula.isImplication && predicate.isImplication

theorem refuses_comm {copula : Copula} (symmetric : copula.isSymmetric) (left right : Term) :
    refuses copula left right = refuses copula right left := by
  rw [refuses, refuses, admits_comm symmetric, areDegenerate_comm]

/-- Joined sides are accepted. -/
theorem accepted_of_joins {copula : Copula} {subject predicate : Term}
    (subjectFormed : subject.Formed symbols) (predicateFormed : predicate.Formed symbols)
    (joins : Joins copula subject predicate) : refuses copula subject predicate = false := by
  have admitted : admits copula subject predicate = true := by
    cases copula with
    | inheritance | similarity => rfl
    | implication order =>
        obtain ⟨subjectFirst, predicateFirst⟩ := joins.firstOrder rfl
        rw [isHigherOrder_eq predicate, Bool.or_eq_true, not_or] at predicateFirst
        simp [admits, subjectFirst, predicateFirst.2]
    | equivalence =>
        obtain ⟨subjectFirst, predicateFirst⟩ := joins.firstOrder rfl
        simp [admits, subjectFirst, predicateFirst]
  have notDegenerate : areDegenerate subject predicate = false := by
    rw [← Bool.not_eq_true, areDegenerate_iff, encloses_iff subjectFormed,
      encloses_iff predicateFormed, areConverse_iff]
    rintro (sameName | areVariables | predicateInside | subjectInside | converse)
    · exact joins.distinct sameName
    · exact joins.notVariables areVariables
    · exact joins.predicateOutside predicateInside
    · exact joins.subjectOutside subjectInside
    · obtain ⟨first, second, subjectSides, predicateSides⟩ := converse
      exact joins.notConverse first second subjectSides predicateSides
  rw [refuses, admitted, notDegenerate]
  rfl

/-- Sides of which nothing is absorbed are accepted if and only if the copula joins them, in
their order. -/
theorem accepted_iff_joins {copula : Copula} {subject predicate : Term}
    (subjectFormed : subject.Formed symbols) (predicateFormed : predicate.Formed symbols)
    (notAbsorbed : absorbs copula predicate = false) :
    refuses copula subject predicate = false ↔
      Joins copula (orderSides copula subject predicate).1
        (orderSides copula subject predicate).2 := by
  constructor
  · intro accepted
    obtain ⟨refused, notDegenerate⟩ := Bool.or_eq_false_iff.mp accepted
    have admitted : admits copula subject predicate = true := by simpa using refused
    exact joins_of_admitted subjectFormed predicateFormed admitted notDegenerate notAbsorbed
  · intro joins
    unfold orderSides at joins
    split at joins
    · rename_i exchanged
      obtain ⟨symmetric, _⟩ := Bool.and_eq_true_iff.mp exchanged
      rw [refuses_comm symmetric]
      exact accepted_of_joins predicateFormed subjectFormed joins
    · exact accepted_of_joins subjectFormed predicateFormed joins

/-- Accepted sides make a formed statement, unless the copula absorbs the predicate. -/
theorem makeStatement_formed {copula : Copula} {subject predicate : Term}
    (subjectFormed : subject.Formed symbols) (predicateFormed : predicate.Formed symbols)
    (accepted : refuses copula subject predicate = false)
    (notAbsorbed : absorbs copula predicate = false)
    (object : ObjectId) :
    (makeStatement symbols copula (orderSides copula subject predicate).1
      (orderSides copula subject predicate).2 object).Formed symbols := by
  have joins := (accepted_iff_joins subjectFormed predicateFormed notAbsorbed).mp accepted
  have sidesFormed : (orderSides copula subject predicate).1.Formed symbols ∧
      (orderSides copula subject predicate).2.Formed symbols := by
    unfold orderSides
    split
    · exact ⟨predicateFormed, subjectFormed⟩
    · exact ⟨subjectFormed, predicateFormed⟩
  exact .statement object sidesFormed.1 sidesFormed.2 joins

theorem statementWithin_missing {steps : Nat} {copula : Copula} {subject predicate : Option Term}
    (missing : subject = none ∨ predicate = none) :
    statementWithin symbols steps held copula subject predicate registry =
      (.ok none, registry) := by
  unfold statementWithin
  rcases missing with rfl | rfl
  · rfl
  · cases subject <;> rfl

theorem statementWithin_refused {steps : Nat} {copula : Copula} {subject predicate : Term}
    (refused : refuses copula subject predicate = true) :
    statementWithin symbols steps held copula (some subject) (some predicate) registry =
      (.ok none, registry) := by
  unfold refuses at refused
  unfold statementWithin
  simp only [refused, ↓reduceIte]

theorem absorbs_ordered (copula : Copula) (subject predicate : Term) :
    (copula.isImplication && (orderSides copula subject predicate).2.isImplication) =
      absorbs copula predicate := by
  unfold absorbs
  cases implication : copula.isImplication with
  | false => rw [Bool.false_and, Bool.false_and]
  | true => rw [orderSides_of_implication implication]

theorem statementWithin_direct {steps : Nat} {copula : Copula} {subject predicate : Term}
    (accepted : refuses copula subject predicate = false)
    (notAbsorbed : absorbs copula predicate = false) :
    statementWithin symbols steps held copula (some subject) (some predicate) registry =
      registry.obtain held
        (makeStatement symbols copula (orderSides copula subject predicate).1
          (orderSides copula subject predicate).2) := by
  unfold refuses at accepted
  unfold statementWithin
  simp only [accepted, absorbs_ordered, notAbsorbed, Bool.false_eq_true, ↓reduceIte]
  exact Registry.lookup_intern_obtain (fun _ => rfl) (fun _ => rfl)

theorem statementWithin_absorbing {steps : Nat} {copula : Copula} {subject predicate : Term}
    {condition consequent : Term}
    (accepted : refuses copula subject predicate = false)
    (absorbed : absorbs copula predicate = true)
    (hasCondition : predicate.subject? = some condition)
    (hasConsequent : predicate.predicate? = some consequent) :
    statementWithin symbols (steps + 1) held copula (some subject) (some predicate) registry =
      match registry.lookup held (symbols.statementName copula subject.name predicate.name)
        (.statement copula) with
      | (.error failure, registry) => (.error failure, registry)
      | (.ok (some existing), registry) => (.ok (some existing), registry)
      | (.ok none, registry) =>
          if condition.isConjunction && condition.hasComponent subject then
            (.ok none, registry)
          else
            match conjunction symbols held (some subject) (some condition) registry with
            | (.error failure, registry) => (.error failure, registry)
            | (.ok joined, registry) =>
                statementWithin symbols steps (held.withTerms joined.toList)
                  (.implication .eternal) joined (some consequent) registry := by
  obtain ⟨implication, absorbable⟩ := Bool.and_eq_true_iff.mp absorbed
  unfold refuses at accepted
  have unfolded := statementWithin.eq_def symbols (steps + 1) held copula (some subject)
    (some predicate) registry
  simp only [accepted, orderSides_of_implication implication, implication, absorbable,
    Bool.and_self, Bool.false_eq_true, ↓reduceIte, hasCondition, hasConsequent] at unfolded
  exact unfolded

/-- What is neither an implication nor an equivalence is not absorbed. -/
theorem absorbs_of_firstOrder {term : Term} (firstOrder : term.isHigherOrder = false)
    (copula : Copula) : absorbs copula term = false := by
  rw [isHigherOrder_eq, Bool.or_eq_false_iff] at firstOrder
  rw [absorbs, firstOrder.1, Bool.and_false]

/-- Nothing of what a copula joins is absorbed. -/
theorem absorbs_of_joins {copula : Copula} {subject predicate : Term}
    (joins : Joins copula subject predicate) : absorbs copula predicate = false := by
  cases copula with
  | inheritance | similarity | equivalence => rfl
  | implication order =>
      have firstOrder : predicate.isHigherOrder = false := by simpa using (joins.firstOrder rfl).2
      exact absorbs_of_firstOrder firstOrder _

theorem statementWithin_exhausted {copula : Copula} {subject predicate : Term}
    (accepted : refuses copula subject predicate = false)
    (absorbed : absorbs copula predicate = true) :
    statementWithin symbols 0 held copula (some subject) (some predicate) registry =
      match registry.lookup held (symbols.statementName copula subject.name predicate.name)
        (.statement copula) with
      | (.error failure, registry) => (.error failure, registry)
      | (.ok (some existing), registry) => (.ok (some existing), registry)
      | (.ok none, registry) =>
          (.error (.reductionTooDeep predicate.name absorptionLimit), registry) := by
  obtain ⟨implication, absorbable⟩ := Bool.and_eq_true_iff.mp absorbed
  unfold refuses at accepted
  have unfolded := statementWithin.eq_def symbols 0 held copula (some subject)
    (some predicate) registry
  simp only [accepted, orderSides_of_implication implication, implication, absorbable,
    Bool.and_self, Bool.false_eq_true, ↓reduceIte] at unfolded
  exact unfolded

/-- The sides of a formed implication: no consequent is an implication again. -/
theorem implication_sides {term : Term} (formed : term.Formed symbols)
    (implication : term.isImplication = true) :
    ∃ condition consequent,
      term.subject? = some condition ∧ term.predicate? = some consequent ∧
        condition.Formed symbols ∧ consequent.Formed symbols ∧
        condition.isHigherOrder = false ∧ consequent.isHigherOrder = false := by
  cases formed with
  | atom => simp [Term.isImplication, Term.atom_copula?] at implication
  | conjunction => contradiction
  | @statement object copula subject predicate subjectFormed predicateFormed joins =>
      have higherOrder : copula.isHigherOrder := by
        cases copula <;> first | rfl | contradiction
      obtain ⟨subjectFirst, predicateFirst⟩ := joins.firstOrder higherOrder
      exact ⟨subject, predicate, rfl, rfl, subjectFormed, predicateFormed,
        by simpa using subjectFirst, by simpa using predicateFirst⟩

/-- Looking a name up forms a term if what follows an empty look does. -/
theorem forms_lookup {name : String} {kind : TermKind} {next : Registry → Outcome × Registry}
    (formed : registry.Formed symbols)
    (nextForms : ∀ left : Registry, left.Formed symbols → Forms symbols (next left)) :
    Forms symbols
      (match registry.lookup held name kind with
        | (.error failure, registry) => (.error failure, registry)
        | (.ok (some existing), registry) => (.ok (some existing), registry)
        | (.ok none, registry) => next registry) := by
  rw [Registry.lookup_eq]
  cases live : registry.live? held name with
  | none => exact nextForms _ (formed.remove name)
  | some existing =>
      by_cases expected : existing.kind = kind
      · simp only [Registry.checkKind, expected, ↓reduceIte]
        exact .single formed (formed.live live)
      · simp only [Registry.checkKind, expected, ↓reduceIte]
        exact .nothing (fun _ => by simp) formed

/-- A statement is formed if it is wherever an implication is absorbed. -/
theorem forms_of_absorbed {steps : Nat} {copula : Copula} {subject predicate : Option Term}
    (formed : registry.Formed symbols)
    (subjectFormed : ∀ term ∈ subject, term.Formed symbols)
    (predicateFormed : ∀ term ∈ predicate, term.Formed symbols)
    (absorbedForms : ∀ left ∈ subject, ∀ right ∈ predicate,
      refuses copula left right = false → absorbs copula right = true →
        Forms symbols
          (statementWithin symbols steps held copula (some left) (some right) registry)) :
    Forms symbols (statementWithin symbols steps held copula subject predicate registry) := by
  rcases subject with _ | subject
  · rw [statementWithin_missing (.inl rfl)]
    exact .nothing (fun _ => by simp) formed
  rcases predicate with _ | predicate
  · rw [statementWithin_missing (.inr rfl)]
    exact .nothing (fun _ => by simp) formed
  have subjectFormed := subjectFormed subject rfl
  have predicateFormed := predicateFormed predicate rfl
  cases accepted : refuses copula subject predicate with
  | true =>
      rw [statementWithin_refused accepted]
      exact .nothing (fun _ => by simp) formed
  | false =>
      cases absorbed : absorbs copula predicate with
      | true => exact absorbedForms subject rfl predicate rfl accepted absorbed
      | false =>
          rw [statementWithin_direct accepted absorbed]
          exact .obtain formed
            (makeStatement_formed subjectFormed predicateFormed accepted absorbed _)

theorem statementWithin_forms (steps : Nat) :
    ∀ {held : Held} {copula : Copula} {subject predicate : Option Term} {registry : Registry},
      registry.Formed symbols →
      (∀ term ∈ subject, term.Formed symbols) →
      (∀ term ∈ predicate, term.Formed symbols) →
      Forms symbols (statementWithin symbols steps held copula subject predicate registry) := by
  -- Every absorption goes on with other operands and another registry, so all of them vary.
  induction steps with
  | zero =>
      intro held copula subject predicate registry formed subjectFormed predicateFormed
      refine forms_of_absorbed formed subjectFormed predicateFormed ?_
      intro left _ right _ accepted absorbed
      rw [statementWithin_exhausted accepted absorbed]
      refine forms_lookup formed ?_
      exact fun left leftFormed => .nothing (fun _ => by simp) leftFormed
  | succ steps inductionHypothesis =>
      intro held copula subject predicate registry formed subjectFormed predicateFormed
      refine forms_of_absorbed formed subjectFormed predicateFormed ?_
      intro left leftIs right rightIs accepted absorbed
      obtain ⟨condition, consequent, hasCondition, hasConsequent, conditionFormed,
        consequentFormed, _⟩ := implication_sides (predicateFormed right rightIs)
          (Bool.and_eq_true_iff.mp absorbed).2
      rw [statementWithin_absorbing accepted absorbed hasCondition hasConsequent]
      refine forms_lookup formed ?_
      intro remaining remainingFormed
      split
      · exact .nothing (fun _ => by simp) remainingFormed
      · have joinedForms : Forms symbols
            (conjunction symbols held (some left) (some condition) remaining) :=
          conjunction_forms remainingFormed
            (fun _ same => Option.some.inj same ▸ subjectFormed left leftIs)
            (fun _ same => Option.some.inj same ▸ conditionFormed)
        rcases conjoined : conjunction symbols held (some left) (some condition) remaining with
          ⟨_ | joined, remaining⟩
        · rw [conjoined] at joinedForms
          exact .nothing (fun _ => by simp) joinedForms.registry
        · rw [conjoined] at joinedForms
          refine inductionHypothesis joinedForms.registry ?_ ?_
          · exact fun term same => joinedForms.term term (congrArg _ same)
          · exact fun _ same => Option.some.inj same ▸ consequentFormed

theorem statement_forms {copula : Copula} {subject predicate : Option Term}
    (formed : registry.Formed symbols)
    (subjectFormed : ∀ term ∈ subject, term.Formed symbols)
    (predicateFormed : ∀ term ∈ predicate, term.Formed symbols) :
    Forms symbols (statement symbols held copula subject predicate registry) :=
  statementWithin_forms absorptionLimit formed subjectFormed predicateFormed

end Construction

end AttentiveReasoner.Language
