import AttentiveReasoner.Proofs.Language.Decoding

/-!
Contract: what a construction means without a registry, under the usual symbols.

Owns:
- the content of an atom, a conjunction and a statement, as functions of the operands
  alone;
- that contents do not depend on the objects of the operands;
- that every construction on formed entries has the result that its content says, and
  no failure.

Does not own: evaluation of nested expressions.

A held entry of the wanted name has the wanted content, because a name fixes it. The
name of an implication that is going to be absorbed is never found: a formed term of
that name would have an implication as its predicate. What an implication absorbs has
no implication as its consequent, so that one absorption is enough.
-/

namespace AttentiveReasoner.Language

/-- A result is no failure and has a given content, or is no term where none is
given. -/
def Yields (result : Outcome × Registry) (content : Option Term) : Prop :=
  ∃ made, result.1 = .ok made ∧ made.map Term.bare = content.map Term.bare

theorem Yields.congr {result : Outcome × Registry} {content other : Option Term}
    (yields : Yields result content) (same : content.map Term.bare = other.map Term.bare) :
    Yields result other := by
  obtain ⟨made, outcome, madeContent⟩ := yields
  exact ⟨made, outcome, madeContent.trans same⟩

namespace Construction

/-! ## Contents -/

/-- The atom of a written name. -/
def wordContent (written : String) : Option Term :=
  if isAtomName (atomName written) then
    some (Term.atom 0 (String.ofList (atomName written)))
  else
    none

/-- The conjunction of a list of terms. -/
def conjunctionContent (terms : List Term) : Option Term :=
  match sortByName terms with
  | [] => none
  | [term] => some term
  | components => some (makeConjunction .usual components 0)

/-- The statement between two sides as they are. -/
def directContent (copula : Copula) (subject predicate : Term) : Option Term :=
  if refuses copula subject predicate then
    none
  else
    let sides := orderSides copula subject predicate
    some (makeStatement .usual copula sides.1 sides.2 0)

/-- The implication that is left when one with an implication as its predicate absorbs
it. -/
def absorbedContent (subject predicate : Term) : Option Term :=
  match predicate.subject?, predicate.predicate? with
  | some condition, some consequent =>
      if condition.isConjunction && condition.hasComponent subject then
        none
      else
        (conjunctionContent (conjuncts subject ++ conjuncts condition)).bind
          (directContent (.implication .eternal) · consequent)
  | _, _ => none

/-- The statement between two sides. -/
def statementContent (copula : Copula) (subject predicate : Term) : Option Term :=
  if refuses copula subject predicate then
    none
  else if absorbs copula predicate then
    absorbedContent subject predicate
  else
    directContent copula subject predicate

/-! ## Objects do not matter -/

open Term

theorem insertByName_bare (term : Term) (terms : List Term) :
    insertByName term.bare (terms.map bare) = (insertByName term terms).map bare := by
  induction terms with
  | nil => rfl
  | cons first rest inductionHypothesis =>
      simp only [List.map_cons, insertByName, bare_name]
      split
      · rfl
      · split
        · rfl
        · rw [inductionHypothesis, List.map_cons]

theorem sortByName_bare (terms : List Term) :
    sortByName (terms.map bare) = (sortByName terms).map bare := by
  induction terms with
  | nil => rfl
  | cons first rest inductionHypothesis =>
      have tail : (rest.map bare).foldr insertByName [] =
          (rest.foldr insertByName []).map bare := inductionHypothesis
      simp only [List.map_cons, sortByName, List.foldr_cons]
      rw [tail, insertByName_bare]

theorem conjuncts_bare (term : Term) : conjuncts term.bare = (conjuncts term).map bare := by
  unfold conjuncts
  rw [bare_isConjunction, bare_components]
  split <;> rfl

theorem makeConjunction_bare (components : List Term) (object : ObjectId) :
    (makeConjunction .usual components object).bare =
      makeConjunction .usual (components.map bare) 0 := by
  rw [makeConjunction, bare_compound, makeConjunction, names_map_bare]

theorem conjunctionContent_bare (terms : List Term) :
    conjunctionContent (terms.map bare) = (conjunctionContent terms).map bare := by
  unfold conjunctionContent
  rw [sortByName_bare]
  rcases sortByName terms with _ | ⟨first, _ | ⟨second, rest⟩⟩
  · rfl
  · rfl
  · simp only [List.map_cons, Option.map_some, makeConjunction_bare]

theorem hasComponent_bare (container component : Term) :
    container.bare.hasComponent component.bare = container.hasComponent component := by
  rw [Bool.eq_iff_iff, hasComponent_iff, hasComponent_iff]
  simp

theorem areConverse_bare (left right : Term) :
    areConverse left.bare right.bare = areConverse left right := by
  rw [Bool.eq_iff_iff, areConverse_iff, areConverse_iff]
  simp only [bare_sideNames?]

theorem bare_isImplication (term : Term) : term.bare.isImplication = term.isImplication := by
  unfold isImplication
  rw [bare_copula?]

theorem bare_isEquivalence (term : Term) : term.bare.isEquivalence = term.isEquivalence := by
  unfold isEquivalence
  rw [bare_copula?]

theorem refuses_bare (copula : Copula) (subject predicate : Term) :
    refuses copula subject.bare predicate.bare = refuses copula subject predicate := by
  simp only [refuses, admits, areDegenerate, encloses, bare_isHigherOrder, bare_isEquivalence,
    bare_name, bare_isVariable, bare_isAtomic, hasComponent_bare, areConverse_bare]

theorem absorbs_bare (copula : Copula) (predicate : Term) :
    absorbs copula predicate.bare = absorbs copula predicate := by
  rw [absorbs, absorbs, bare_isImplication]

theorem orderSides_bare (copula : Copula) (subject predicate : Term) :
    orderSides copula subject.bare predicate.bare =
      ((orderSides copula subject predicate).1.bare,
        (orderSides copula subject predicate).2.bare) := by
  unfold orderSides
  rw [bare_name, bare_name]
  split <;> rfl

theorem makeStatement_bare (copula : Copula) (subject predicate : Term) (object : ObjectId) :
    (makeStatement .usual copula subject predicate object).bare =
      makeStatement .usual copula subject.bare predicate.bare 0 := by
  rw [makeStatement, bare_compound, makeStatement, bare_name, bare_name]
  rfl

theorem directContent_bare (copula : Copula) (subject predicate : Term) :
    directContent copula subject.bare predicate.bare =
      (directContent copula subject predicate).map bare := by
  unfold directContent
  rw [refuses_bare, orderSides_bare]
  split
  · rfl
  · simp only [Option.map_some, makeStatement_bare]

theorem absorbedContent_bare (subject predicate : Term) :
    absorbedContent subject.bare predicate.bare = (absorbedContent subject predicate).map bare := by
  unfold absorbedContent
  rw [bare_subject?, bare_predicate?]
  rcases predicate.subject? with _ | condition
  · rfl
  rcases predicate.predicate? with _ | consequent
  · rfl
  simp only [Option.map_some, bare_isConjunction, hasComponent_bare]
  split
  · rfl
  · rw [conjuncts_bare, conjuncts_bare, ← List.map_append, conjunctionContent_bare]
    rcases conjunctionContent (conjuncts subject ++ conjuncts condition) with _ | joined
    · rfl
    · exact directContent_bare _ joined consequent

theorem statementContent_bare (copula : Copula) (subject predicate : Term) :
    statementContent copula subject.bare predicate.bare =
      (statementContent copula subject predicate).map bare := by
  unfold statementContent
  rw [refuses_bare, absorbs_bare, absorbedContent_bare, directContent_bare]
  split
  · rfl
  · split <;> rfl

theorem directContent_congr {copula : Copula} {subject predicate : Term}
    {other otherPredicate : Term} (same : subject.bare = other.bare)
    (samePredicate : predicate.bare = otherPredicate.bare) :
    (directContent copula subject predicate).map bare =
      (directContent copula other otherPredicate).map bare := by
  rw [← directContent_bare, same, samePredicate, directContent_bare]

theorem statementContent_congr {copula : Copula} {subject predicate : Term}
    {other otherPredicate : Term} (same : subject.bare = other.bare)
    (samePredicate : predicate.bare = otherPredicate.bare) :
    (statementContent copula subject predicate).map bare =
      (statementContent copula other otherPredicate).map bare := by
  rw [← statementContent_bare, same, samePredicate, statementContent_bare]

theorem conjunctionContent_congr {terms others : List Term}
    (same : terms.map bare = others.map bare) :
    (conjunctionContent terms).map bare = (conjunctionContent others).map bare := by
  rw [← conjunctionContent_bare, same, conjunctionContent_bare]

/-! ## Constructions yield their contents -/

variable {held : Held} {registry : Registry}

theorem yields_none (registry : Registry) : Yields (.ok none, registry) none :=
  ⟨none, rfl, rfl⟩

/-- Whether a term is found or made does not matter to its content. -/
theorem obtain_yields {make : ObjectId → Term} {content : Term}
    (formed : registry.Formed .usual)
    (made : (make registry.free).Formed .usual)
    (same : (make registry.free).bare = content.bare) :
    Yields (registry.obtain held make) (some content) := by
  simp only [Registry.obtain]
  cases live : registry.live? held (make registry.free).name with
  | none => exact ⟨_, rfl, congrArg some same⟩
  | some existing =>
      have sameContent : existing.bare = (make registry.free).bare :=
        (formed.live live).bare_eq made (Registry.mem_of_live? live).2
      have sameKind : existing.kind = (make registry.free).kind := by
        rw [← bare_kind existing, sameContent, bare_kind]
      simp only [Registry.checkKind, sameKind, ↓reduceIte]
      exact ⟨_, rfl, congrArg some (sameContent.trans same)⟩

theorem word_yields (written : String) (formed : registry.Formed .usual) :
    Yields (word held written registry) (wordContent written) := by
  rw [word_eq]
  unfold wordContent
  split
  · rename_i admissible
    refine obtain_yields formed (.atom _ ?_) ?_
    · rwa [String.toList_ofList]
    · rw [bare_atom, bare_atom]
  · exact yields_none registry

theorem conjunctionOf_yields {terms : List Term} (formed : registry.Formed .usual)
    (termsFormed : ∀ term ∈ terms, term.Formed .usual) :
    Yields (conjunctionOf .usual held terms registry) (conjunctionContent terms) := by
  have sortedFormed : ∀ term ∈ sortByName terms, term.Formed .usual :=
    fun term member => termsFormed term (mem_of_mem_sortByName member)
  have increasing := sortByName_increasing terms
  rw [conjunctionOf_eq]
  unfold conjunctionContent
  generalize sortByName terms = components at sortedFormed increasing ⊢
  rcases components with _ | ⟨first, _ | ⟨second, rest⟩⟩
  · exact yields_none registry
  · exact ⟨_, rfl, rfl⟩
  · refine obtain_yields formed (.conjunction _ sortedFormed (by simp) increasing) ?_
    rw [makeConjunction_bare, makeConjunction_bare]

theorem conjunction_yields {left right : Term} (formed : registry.Formed .usual)
    (leftFormed : left.Formed .usual) (rightFormed : right.Formed .usual) :
    Yields (conjunction .usual held (some left) (some right) registry)
      (conjunctionContent (conjuncts left ++ conjuncts right)) := by
  refine conjunctionOf_yields formed ?_
  intro term member
  rcases List.mem_append.mp member with member | member
  · exact conjuncts_formed leftFormed term member
  · exact conjuncts_formed rightFormed term member

theorem statementWithin_direct_yields {steps : Nat} {copula : Copula} {subject predicate : Term}
    (formed : registry.Formed .usual)
    (subjectFormed : subject.Formed .usual) (predicateFormed : predicate.Formed .usual)
    (notAbsorbed : absorbs copula predicate = false) :
    Yields (statementWithin .usual steps held copula (some subject) (some predicate) registry)
      (directContent copula subject predicate) := by
  unfold directContent
  cases accepted : refuses copula subject predicate with
  | true =>
      rw [statementWithin_refused accepted]
      exact yields_none registry
  | false =>
      rw [statementWithin_direct accepted notAbsorbed]
      refine obtain_yields formed
        (makeStatement_formed subjectFormed predicateFormed accepted notAbsorbed _) ?_
      rw [makeStatement_bare, makeStatement_bare]

/-- No entry has the name of an implication with an implication as its predicate. -/
theorem live?_absorbed {copula : Copula} {subject predicate : Term}
    (formed : registry.Formed .usual)
    (subjectFormed : subject.Formed .usual) (predicateFormed : predicate.Formed .usual)
    (absorbed : absorbs copula predicate = true) :
    registry.live? held (Symbols.usual.statementName copula subject.name predicate.name) =
      none := by
  obtain ⟨implication, absorbable⟩ := Bool.and_eq_true_iff.mp absorbed
  refine Option.eq_none_iff_forall_ne_some.mpr ?_
  intro existing live
  -- The entry would be the very statement that no formed term is.
  have existingFormed := formed.live live
  have decodes : (makeStatement .usual copula subject predicate 0).Decodes :=
    statement_decodes subjectFormed.decodes predicateFormed.decodes
  obtain ⟨sameContent, _⟩ := decodes existingFormed bounded_nil bounded_nil
    (by rw [(Registry.mem_of_live? live).2]; rfl)
  have wholeFormed := existingFormed.of_bare_eq _ sameContent
  obtain ⟨_, _, components, joins, _⟩ := wholeFormed.normalForm.statement copula rfl
  obtain ⟨rfl, last⟩ := List.cons.inj components
  obtain ⟨rfl, _⟩ := List.cons.inj last
  have higherOrder : copula.isHigherOrder := by
    cases copula <;> first | rfl | contradiction
  refine (joins.firstOrder higherOrder).2 ?_
  rw [isHigherOrder_eq, absorbable, Bool.true_or]

/-- One absorption is enough. -/
theorem absorbed_yields {steps : Nat} {copula : Copula} {subject predicate : Term}
    (formed : registry.Formed .usual)
    (subjectFormed : subject.Formed .usual) (predicateFormed : predicate.Formed .usual)
    (accepted : refuses copula subject predicate = false)
    (absorbed : absorbs copula predicate = true) :
    Yields
      (statementWithin .usual (steps + 1) held copula (some subject) (some predicate) registry)
      (absorbedContent subject predicate) := by
  obtain ⟨condition, consequent, hasCondition, hasConsequent, conditionFormed,
    consequentFormed, _, consequentFirst⟩ := implication_sides predicateFormed
      (Bool.and_eq_true_iff.mp absorbed).2
  rw [statementWithin_absorbing accepted absorbed hasCondition hasConsequent,
    Registry.lookup_eq, live?_absorbed formed subjectFormed predicateFormed absorbed]
  simp only [absorbedContent, hasCondition, hasConsequent]
  generalize Symbols.usual.statementName copula subject.name predicate.name = name
  have remainingFormed := formed.remove name
  split
  · exact yields_none _
  · have joinedForms : Forms .usual
        (conjunction .usual held (some subject) (some condition) (registry.remove name)) :=
      conjunction_forms remainingFormed
        (fun _ same => Option.some.inj same ▸ subjectFormed)
        (fun _ same => Option.some.inj same ▸ conditionFormed)
    have joinedYields : Yields
        (conjunction .usual held (some subject) (some condition) (registry.remove name))
        (conjunctionContent (conjuncts subject ++ conjuncts condition)) :=
      conjunction_yields remainingFormed subjectFormed conditionFormed
    obtain ⟨joined, outcome, sameContent⟩ := joinedYields
    rcases conjoined :
      conjunction .usual held (some subject) (some condition) (registry.remove name) with
      ⟨made, remaining⟩
    rw [conjoined] at joinedForms outcome
    obtain rfl : made = .ok joined := outcome
    generalize conjunctionContent (conjuncts subject ++ conjuncts condition) = content
      at sameContent ⊢
    rcases content with _ | whole
    · obtain rfl : joined = none := Option.map_eq_none_iff.mp sameContent
      simp only [statementWithin_missing (.inl rfl), Option.bind_none]
      exact yields_none _
    · obtain ⟨joined, rfl, sameJoined⟩ := Option.map_eq_some_iff.mp sameContent
      -- The second round absorbs nothing: the consequent is no implication.
      have notAbsorbed := absorbs_of_firstOrder consequentFirst (.implication .eternal)
      exact (statementWithin_direct_yields joinedForms.registry (joinedForms.term joined rfl)
        consequentFormed notAbsorbed).congr (directContent_congr sameJoined rfl)

theorem statement_yields {copula : Copula} {subject predicate : Term}
    (formed : registry.Formed .usual)
    (subjectFormed : subject.Formed .usual) (predicateFormed : predicate.Formed .usual) :
    Yields (statement .usual held copula (some subject) (some predicate) registry)
      (statementContent copula subject predicate) := by
  rw [statement, show absorptionLimit = 63 + 1 from rfl]
  unfold statementContent
  cases accepted : refuses copula subject predicate with
  | true =>
      rw [statementWithin_refused accepted]
      exact yields_none registry
  | false =>
      cases absorbed : absorbs copula predicate with
      | true => exact absorbed_yields formed subjectFormed predicateFormed accepted absorbed
      | false => exact statementWithin_direct_yields formed subjectFormed predicateFormed absorbed

end Construction

end AttentiveReasoner.Language
