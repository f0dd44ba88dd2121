import AttentiveReasoner.Proofs.Language.Absorption

/-!
Contract: subjects that add no condition to an implication, under the usual symbols.

Owns:
- terms all of whose conjuncts a condition has already;
- which of them an implication refuses: those of higher order, its condition and its
  consequent, and nothing else;
- which of the others absorption turns down: the components of a conjunctive condition;
- that the rest are absorbed without a trace, up to the temporal order.

Does not own: absorption of subjects that add a condition.

A single term that is no conjunction is always turned down. Several conditions at once are
not, unless their conjunction happens to be the whole condition or a member of it: what
comes out is the implication as it was.
-/

namespace AttentiveReasoner.Language

open Term

namespace Construction

/-- Every conjunct of the subject is one of the condition. -/
def Redundant (subject condition : Term) : Prop :=
  ∀ name ∈ (conjuncts subject).map (·.name), name ∈ (conjuncts condition).map (·.name)

instance (subject condition : Term) : Decidable (Redundant subject condition) :=
  inferInstanceAs (Decidable (∀ _ ∈ _, _))

variable {subject implication condition consequent : Term} {order : TemporalOrder}

/-! ## Nothing is inside of itself -/

theorem sizeOf_lt_of_named {part whole : Term} (partFormed : part.Formed .usual)
    (wholeFormed : whole.Formed .usual) (named : part.name ∈ whole.components.map (·.name)) :
    sizeOf part.bare < sizeOf whole.bare := by
  obtain ⟨component, member, sameName⟩ := List.mem_map.mp named
  rw [← (wholeFormed.component component member).bare_eq partFormed sameName]
  exact sizeOf_component_lt member

theorem sizeOf_conjunct_le {conjunct : Term} (member : conjunct ∈ conjuncts condition) :
    sizeOf conjunct.bare ≤ sizeOf condition.bare := by
  cases conjunction : condition.isConjunction with
  | true =>
      rw [conjuncts_of_conjunction conjunction] at member
      exact Nat.le_of_lt (sizeOf_component_lt member)
  | false =>
      rw [conjuncts_of_other conjunction] at member
      rw [List.mem_singleton.mp member]

theorem mem_conjuncts_of_other (other : subject.isConjunction = false) :
    subject ∈ conjuncts subject := by
  rw [conjuncts_of_other other]
  exact List.mem_cons_self

/-- A name fixes the content: a conjunct of the name is the conjunct. -/
theorem Redundant.contents (redundant : Redundant subject condition)
    (subjectFormed : subject.Formed .usual) (conditionFormed : condition.Formed .usual) :
    ∀ content ∈ (conjuncts subject).map bare, content ∈ (conjuncts condition).map bare := by
  intro content among
  obtain ⟨conjunct, member, rfl⟩ := List.mem_map.mp among
  obtain ⟨own, ownMember, sameName⟩ :=
    List.mem_map.mp (redundant conjunct.name (List.mem_map_of_mem member))
  rw [← (conjuncts_formed conditionFormed own ownMember).bare_eq
    (conjuncts_formed subjectFormed conjunct member) sameName]
  exact List.mem_map_of_mem ownMember

/-- A conjunct of a redundant subject is no larger than the condition. -/
theorem Redundant.sizeOf_le {conjunct : Term} (redundant : Redundant subject condition)
    (subjectFormed : subject.Formed .usual) (conditionFormed : condition.Formed .usual)
    (member : conjunct ∈ conjuncts subject) : sizeOf conjunct.bare ≤ sizeOf condition.bare := by
  obtain ⟨own, ownMember, sameContent⟩ := List.mem_map.mp
    (redundant.contents subjectFormed conditionFormed conjunct.bare (List.mem_map_of_mem member))
  rw [← sameContent]
  exact sizeOf_conjunct_le ownMember

/-- A statement is neither a conjunction nor a variable. -/
theorem forms_of_statement {term : Term} (statement : term.isStatement = true) :
    term.isConjunction = false ∧ term.isVariable = false := by
  unfold isStatement copula? at statement
  unfold isConjunction isVariable
  cases kind : term.kind <;> simp [kind] at statement ⊢

theorem sides_of_sideNames {term : Term} {first second : String}
    (sides : term.sideNames? = some (first, second)) :
    term.isStatement = true ∧ second ∈ term.components.map (·.name) := by
  unfold sideNames? at sides
  cases isSubject : term.subject? with
  | none => simp [isSubject] at sides
  | some subject =>
      cases isPredicate : term.predicate? with
      | none => simp [isSubject, isPredicate] at sides
      | some predicate =>
          obtain ⟨-, rfl⟩ : subject.name = first ∧ predicate.name = second := by
            simpa [isSubject, isPredicate] using sides
          refine ⟨?_, List.mem_map_of_mem (predicate?_mem isPredicate)⟩
          by_contra noStatement
          simp [predicate?, noStatement] at isPredicate

/-- A redundant subject that is no conjunction is a conjunct of the condition. -/
theorem Redundant.name_mem (redundant : Redundant subject condition)
    (other : subject.isConjunction = false) :
    subject.name ∈ (conjuncts condition).map (·.name) :=
  redundant subject.name (List.mem_map_of_mem (mem_conjuncts_of_other other))

/-- What a redundant subject consists of is smaller than an implication with the condition. -/
theorem Redundant.sizeOf_lt {part : Term} (redundant : Redundant subject condition)
    (formed : implication.Formed .usual) (isCondition : implication.subject? = some condition)
    (subjectFormed : subject.Formed .usual) (partFormed : part.Formed .usual)
    (named : part.name ∈ subject.components.map (·.name)) :
    sizeOf part.bare < sizeOf implication.bare := by
  have conditionFormed := formed.component condition (subject?_mem isCondition)
  have conditionSmaller : sizeOf condition.bare < sizeOf implication.bare :=
    sizeOf_component_lt (subject?_mem isCondition)
  obtain ⟨component, member, sameName⟩ := List.mem_map.mp named
  rw [← (subjectFormed.component component member).bare_eq partFormed sameName]
  cases conjunction : subject.isConjunction with
  | true =>
      have contributed : component ∈ conjuncts subject := by
        rwa [conjuncts_of_conjunction conjunction]
      exact Nat.lt_of_le_of_lt (redundant.sizeOf_le subjectFormed conditionFormed contributed)
        conditionSmaller
  | false =>
      calc sizeOf component.bare
          < sizeOf subject.bare := sizeOf_component_lt member
        _ ≤ sizeOf condition.bare := redundant.sizeOf_le subjectFormed conditionFormed
            (mem_conjuncts_of_other conjunction)
        _ < sizeOf implication.bare := conditionSmaller

/-! ## What an implication refuses -/

/-- With an implication that has its conjuncts in the condition, a subject is degenerate only
as one of the sides. -/
theorem areDegenerate_redundant_iff (subjectFormed : subject.Formed .usual)
    (formed : implication.Formed .usual)
    (isImplication : implication.copula? = some (.implication order))
    (isCondition : implication.subject? = some condition)
    (isConsequent : implication.predicate? = some consequent)
    (redundant : Redundant subject condition) :
    areDegenerate subject implication = true ↔
      subject.name = condition.name ∨ subject.name = consequent.name := by
  have isStatement : implication.isStatement = true := by
    rw [isStatement, isImplication]
    rfl
  have conditionFormed := formed.component condition (subject?_mem isCondition)
  have conditionSmaller : sizeOf condition.bare < sizeOf implication.bare :=
    sizeOf_component_lt (subject?_mem isCondition)
  have smallSubject : subject.isStatement = true → sizeOf subject.bare ≤ sizeOf condition.bare :=
    fun statement => redundant.sizeOf_le subjectFormed conditionFormed
      (mem_conjuncts_of_other (forms_of_statement statement).1)
  have encloses_iff_side : encloses implication subject = true ↔
      subject.name = condition.name ∨ subject.name = consequent.name := by
    obtain ⟨components, _⟩ := formed.between isImplication isCondition isConsequent
    rw [encloses_iff formed, components]
    simp
  rw [areDegenerate_iff, encloses_iff_side]
  constructor
  · -- All but the sides would be inside of themselves.
    rintro (sameName | areVariables | enclosed | side | converse)
    · have sameContent := subjectFormed.bare_eq formed sameName
      have sameCopula := (statement_of_bare_eq sameContent).1
      have small := smallSubject (by rwa [Term.isStatement, sameCopula])
      rw [sameContent] at small
      omega
    · rw [(forms_of_statement isStatement).2] at areVariables
      exact Bool.noConfusion areVariables.2
    · rw [encloses_iff subjectFormed] at enclosed
      exact absurd (redundant.sizeOf_lt formed isCondition subjectFormed formed enclosed)
        (Nat.lt_irrefl _)
    · exact side
    · obtain ⟨first, second, subjectSides, sides⟩ := areConverse_iff.mp converse
      rw [sideNames?, isCondition, isConsequent] at sides
      obtain ⟨rfl, -⟩ : condition.name = second ∧ consequent.name = first := by simpa using sides
      obtain ⟨statement, named⟩ := sides_of_sideNames subjectSides
      have inside := sizeOf_lt_of_named conditionFormed subjectFormed named
      exact absurd (smallSubject statement) (Nat.not_le.mpr inside)
  · exact fun side => .inr (.inr (.inr (.inl side)))

theorem refuses_redundant_iff (newOrder : TemporalOrder) (subjectFormed : subject.Formed .usual)
    (formed : implication.Formed .usual)
    (isImplication : implication.copula? = some (.implication order))
    (isCondition : implication.subject? = some condition)
    (isConsequent : implication.predicate? = some consequent)
    (redundant : Redundant subject condition) :
    refuses (.implication newOrder) subject implication = true ↔
      subject.isHigherOrder = true ∨ subject.name = condition.name ∨
        subject.name = consequent.name := by
  have noEquivalence : implication.isEquivalence = false := by
    rw [isEquivalence, isImplication]
    rfl
  rw [refuses, Bool.or_eq_true, areDegenerate_redundant_iff subjectFormed formed isImplication
    isCondition isConsequent redundant]
  simp [admits, noEquivalence]

/-! ## What absorption makes of the rest -/

/-- Joined to the condition, a redundant subject leaves no trace. -/
theorem absorbed_without_trace (subjectFormed : subject.Formed .usual)
    (formed : implication.Formed .usual)
    (isImplication : implication.copula? = some (.implication order))
    (isCondition : implication.subject? = some condition)
    (isConsequent : implication.predicate? = some consequent)
    (redundant : Redundant subject condition) :
    ∃ whole, (conjunctionContent (conjuncts subject ++ conjuncts condition)).bind
        (directContent (.implication .eternal) · consequent) = some whole ∧
      Implies whole .eternal [condition] consequent := by
  obtain ⟨_, conditionFormed, consequentFormed, joins, _⟩ :=
    formed.between isImplication isCondition isConsequent
  have bothFormed : ∀ part ∈ [subject, condition], part.Formed .usual := by
    simp [subjectFormed, conditionFormed]
  obtain ⟨joined, isJoined⟩ : ∃ joined,
      conjunctionContent (flattened [subject, condition]) = some joined :=
    conjunctionContent_flattened_isSome subjectFormed
  have joinedFormed := conjunctionContent_formed (flattened_formed bothFormed) isJoined
  have sameCondition : joined.bare = condition.bare := by
    refine (unites_of_content bothFormed isJoined).bare_eq joinedFormed conditionFormed
      (unites_self condition) ?_
    intro content
    rw [List.exists_mem_cons_iff]
    exact or_iff_right_of_imp fun inSubject => ⟨condition, List.mem_cons_self,
      redundant.contents subjectFormed conditionFormed content inSubject⟩
  have joinedJoins : Joins (.implication .eternal) joined consequent := by
    rw [← joins_bare, sameCondition, joins_bare]
    exact joins_reorder .eternal joins
  have accepted := accepted_of_joins joinedFormed consequentFormed joinedJoins
  obtain ⟨whole, isWhole⟩ : ∃ whole,
      directContent (.implication .eternal) joined consequent = some whole := by
    rw [directContent, accepted]
    exact ⟨_, rfl⟩
  obtain ⟨copula, isSubject, isPredicate⟩ := directContent_sides isWhole
  refine ⟨whole, ?_, copula, ⟨joined, isSubject, ?_⟩, consequent, isPredicate, rfl⟩
  · rw [← flattened_pair, isJoined]
    exact isWhole
  · exact (unites_self condition).congr sameCondition.symm

/-- Among the redundant subjects, the sides are refused and the conjuncts of the condition are
turned down. -/
theorem turnsDown_redundant_iff (newOrder : TemporalOrder)
    (subjectFormed : subject.Formed .usual) (formed : implication.Formed .usual)
    (isImplication : implication.copula? = some (.implication order))
    (isCondition : implication.subject? = some condition)
    (isConsequent : implication.predicate? = some consequent)
    (redundant : Redundant subject condition) :
    (refuses (.implication newOrder) subject implication = true ∨
        (condition.isConjunction && condition.hasComponent subject) = true) ↔
      subject.name = condition.name ∨ subject.name = consequent.name ∨
        subject.name ∈ (conjuncts condition).map (·.name) := by
  rw [refuses_redundant_iff newOrder subjectFormed formed isImplication isCondition isConsequent
    redundant, Bool.and_eq_true, hasComponent_iff]
  constructor
  · rintro ((higherOrder | side) | ⟨conjunction, component⟩)
    · have statement : subject.isStatement = true := by
        unfold isHigherOrder at higherOrder
        unfold isStatement
        cases hasCopula : subject.copula? <;> simp [hasCopula] at higherOrder ⊢
      exact .inr (.inr (redundant.name_mem (forms_of_statement statement).1))
    · exact or_assoc.mp (.inl side)
    · rw [conjuncts_of_conjunction conjunction]
      exact .inr (.inr component)
  · rintro (isCondition | isConsequent | conjunct)
    · exact .inl (.inr (.inl isCondition))
    · exact .inl (.inr (.inr isConsequent))
    · cases conjunction : condition.isConjunction with
      | true =>
          rw [conjuncts_of_conjunction conjunction] at conjunct
          exact .inr ⟨rfl, conjunct⟩
      | false =>
          rw [conjuncts_of_other conjunction] at conjunct
          exact .inl (.inr (.inl (List.mem_singleton.mp conjunct)))

/-- A redundant subject gives no term if it is of the implication's sides, or a conjunct of the
condition. If it gives one, at most the temporal order has changed. -/
theorem statementContent_redundant (newOrder : TemporalOrder)
    (subjectFormed : subject.Formed .usual) (formed : implication.Formed .usual)
    (isImplication : implication.copula? = some (.implication order))
    (isCondition : implication.subject? = some condition)
    (isConsequent : implication.predicate? = some consequent)
    (redundant : Redundant subject condition) :
    (statementContent (.implication newOrder) subject implication = none ↔
        subject.name = condition.name ∨ subject.name = consequent.name ∨
          subject.name ∈ (conjuncts condition).map (·.name)) ∧
      ∀ whole, statementContent (.implication newOrder) subject implication = some whole →
        Implies whole .eternal [condition] consequent := by
  obtain ⟨whole, isWhole, implies⟩ := absorbed_without_trace subjectFormed formed isImplication
    isCondition isConsequent redundant
  have content : statementContent (.implication newOrder) subject implication =
      if refuses (.implication newOrder) subject implication ∨
          (condition.isConjunction && condition.hasComponent subject) then none
      else some whole := by
    have absorbed : absorbs (.implication newOrder) implication = true :=
      isImplication_iff.mpr ⟨order, isImplication⟩
    simp only [statementContent, absorbed, absorbedContent, isCondition, isConsequent, isWhole]
    cases refuses (.implication newOrder) subject implication <;> simp
  have turnedDown_iff := turnsDown_redundant_iff newOrder subjectFormed formed isImplication
    isCondition isConsequent redundant
  rw [content]
  split
  · rename_i turnedDown
    exact ⟨iff_of_true rfl (turnedDown_iff.mp turnedDown), by simp⟩
  · rename_i accepted
    refine ⟨iff_of_false (by simp) (accepted ∘ turnedDown_iff.mpr), ?_⟩
    intro other same
    rwa [← Option.some.inj same]

end Construction

namespace Session

open Construction
open Expression (Fits Returns fits_self statement_returns)

/-- Between held terms, an implication whose subject adds no condition to the predicate gives
no term in three cases: the subject is the predicate's condition, or its consequent, or a
conjunct of that condition, as it always is unless it is a conjunction itself. In all other
cases the predicate comes back, in eternal order. -/
theorem redundant_conditions (requests : List Request)
    {subject implication condition consequent : Term} {order : TemporalOrder}
    (isImplication : implication.copula? = some (.implication order))
    (isCondition : implication.subject? = some condition)
    (isConsequent : implication.predicate? = some consequent)
    (subjectHeld : Inside (of .usual requests).terms subject)
    (implicationHeld : Inside (of .usual requests).terms implication)
    (redundant : Redundant subject condition) (newOrder : TemporalOrder) :
    let session := of .usual requests
    ∃ value,
      (statement .usual session.held (.implication newOrder) (some subject) (some implication)
        session.registry).1 = .ok value ∧
      (value = none ↔ subject.name = condition.name ∨ subject.name = consequent.name ∨
        subject.name ∈ (conjuncts condition).map (·.name)) ∧
      (subject.isConjunction = false → value = none) ∧
      ∀ whole, value = some whole →
        Implies whole .eternal [condition] consequent ∧
          (order = .eternal → implication.object ∉ copies .usual {} requests →
            whole = implication) := by
  intro session
  have formed := of_formed .usual requests
  have unique := of_unique .usual requests
  have subjectFormed := formed.inside subjectHeld
  have implicationFormed := formed.inside implicationHeld
  obtain ⟨none_iff, implies⟩ := statementContent_redundant newOrder subjectFormed
    implicationFormed isImplication isCondition isConsequent redundant
  have returns : Returns (statement .usual session.held (.implication newOrder) (some subject)
      (some implication) session.registry)
      (Fits (statementContent (.implication newOrder) subject implication)) :=
    statement_returns formed.registry (fits_self subjectFormed) (fits_self implicationFormed)
  obtain ⟨value, after, stated, _, sameContent, valueFormed⟩ := returns
  rw [stated]
  have valueNone_iff : value = none ↔
      statementContent (.implication newOrder) subject implication = none := by
    rw [← Option.map_eq_none_iff, sameContent, Option.map_eq_none_iff]
  refine ⟨value, rfl, valueNone_iff.trans none_iff, ?_, ?_⟩
  · intro other
    exact valueNone_iff.mpr (none_iff.mpr (.inr (.inr (redundant.name_mem other))))
  · rintro whole rfl
    obtain ⟨content, isContent, sameBare⟩ := Option.map_eq_some_iff.mp sameContent.symm
    have wholeImplies := (implies content isContent).congr sameBare
    refine ⟨wholeImplies, ?_⟩
    rintro rfl original
    have own : Implies implication .eternal [condition] consequent :=
      { copula := isImplication
        condition := ⟨condition, isCondition, unites_self condition⟩
        consequent := ⟨consequent, isConsequent, rfl⟩ }
    have sameImplication : whole.bare = implication.bare :=
      wholeImplies.bare_eq (valueFormed whole rfl) implicationFormed own (fun _ => Iff.rfl) rfl
    rw [Option.map_some, sameImplication] at sameContent
    have finds := statement_finds formed.registry unique (held_counts session) subjectHeld
      implicationHeld subjectFormed implicationFormed implicationHeld original sameContent.symm
    rw [stated] at finds
    exact Option.some.inj (Except.ok.inj finds)

/-- The requests for `(&&,a,b)` and `<(&&,a,b,c) ==> d>`. -/
def coveredRequests : List Request :=
  [.word "a", .word "b", .word "c", .word "d", .conjunction 0 1, .conjunction 4 2,
    .statement (.implication .eternal) 5 3]

/-- `<(&&,a,b) ==> <(&&,a,b,c) ==> d>>` is `<(&&,a,b,c) ==> d>` itself. -/
theorem covered_subject_returns :
    let session := of .usual coveredRequests
    let subject := (session.result? 4).get (by decide +kernel)
    let implication := (session.result? 6).get (by decide +kernel)
    implication.name = "<(&&,a,b,c) ==> d>" ∧
      (statement .usual session.held (.implication .eternal) (some subject) (some implication)
        session.registry).1 = .ok (some implication) := by
  intro session subject implication
  refine ⟨by decide +kernel, ?_⟩
  let condition := implication.subject?.get (by decide +kernel)
  let consequent := implication.predicate?.get (by decide +kernel)
  have isImplication : implication.copula? = some (.implication .eternal) := by decide +kernel
  have isCondition : implication.subject? = some condition := (Option.some_get _).symm
  have isConsequent : implication.predicate? = some consequent := (Option.some_get _).symm
  have redundant : Redundant subject condition := by decide +kernel
  have original : implication.object ∉ copies .usual {} coveredRequests := List.not_mem_nil
  obtain ⟨value, isValue, none_iff, _, comesBack⟩ :=
    redundant_conditions coveredRequests isImplication isCondition isConsequent
      (.of_mem (get_result?_mem _)) (.of_mem (get_result?_mem _)) redundant .eternal
  have notNone : value ≠ none := by
    rw [ne_eq, none_iff]
    decide +kernel
  obtain ⟨whole, rfl⟩ := Option.ne_none_iff_exists'.mp notNone
  rw [isValue, (comesBack whole rfl).2 rfl original]

end Session

end AttentiveReasoner.Language
