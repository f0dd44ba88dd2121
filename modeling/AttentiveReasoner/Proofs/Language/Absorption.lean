import AttentiveReasoner.Proofs.Language.Semilattice

/-!
Contract: implications whose predicate is an implication, under the usual symbols.

Owns:
- the conditions and the consequent that a term brings into an implication;
- what an accepted implication leads from and to: the subject together with the conditions
  of the predicate, and its consequent;
- statements made in the course of a run: their contents, and that they are no copies;
- that a statement of the content of a held one is that very term;
- the exchange of two conditions that are put in front of a goal one after the other.

Does not own: conditions that the predicate has already, and chains of implications that a
rule draws conclusions from.

Absorption unites conditions, and union forgets in which order they came. It forgets the
temporal orders too: that of the absorbed implication, and that of the absorbing one.
-/

namespace AttentiveReasoner.Language

open Term

namespace Term

/-- The conditions that a term brings into an implication: its own, if it is one. -/
def conditions (term : Term) : List Term :=
  if term.isImplication then term.subject?.toList else []

/-- What is left of the predicate of an implication: its own consequent, if it has one. -/
def consequent (term : Term) : Term :=
  if term.isImplication then term.predicate?.getD term else term

variable {symbols : Symbols} {term other : Term}

theorem consequent_partOf (term : Term) : PartOf term.consequent term := by
  unfold consequent
  split
  · cases isLast : term.predicate? with
    | none => exact .whole
    | some last => exact .component (Construction.predicate?_mem isLast) .whole
  · exact .whole

theorem isImplication_iff : term.isImplication = true ↔
    ∃ order, term.copula? = some (.implication order) := by
  unfold isImplication
  rcases term.copula? with _ | _ | _ | order | _ <;> simp [Copula.isImplication]

theorem conditions_of_implication {condition : Term} (implication : term.isImplication = true)
    (isCondition : term.subject? = some condition) : term.conditions = [condition] := by
  rw [conditions, implication, isCondition]
  rfl

theorem consequent_of_implication {last : Term} (implication : term.isImplication = true)
    (isLast : term.predicate? = some last) : term.consequent = last := by
  rw [consequent, implication, isLast]
  rfl

theorem conditions_of_other (other : term.isImplication = false) : term.conditions = [] := by
  rw [conditions, other]
  rfl

theorem consequent_of_other (other : term.isImplication = false) : term.consequent = term := by
  rw [consequent, other]
  rfl

/-- Formed statements are alike if their copulas and the contents of their sides are. -/
theorem Formed.bare_eq_of_sides {copula : Copula} (formed : term.Formed .usual)
    (otherFormed : other.Formed .usual) (hasCopula : term.copula? = some copula)
    (otherCopula : other.copula? = some copula)
    (sameSubject : term.subject?.map bare = other.subject?.map bare)
    (samePredicate : term.predicate?.map bare = other.predicate?.map bare) :
    term.bare = other.bare := by
  obtain ⟨subject, predicate, isSubject, isPredicate, _, _, _, _, named⟩ :=
    formed.sides hasCopula
  obtain ⟨otherSubject, otherPredicate, isOtherSubject, isOtherPredicate, _, _, _, _, otherNamed⟩ :=
    otherFormed.sides otherCopula
  rw [isSubject, isOtherSubject] at sameSubject
  rw [isPredicate, isOtherPredicate] at samePredicate
  have sameSubjectName : subject.name = otherSubject.name :=
    name_eq_of_bare_eq (Option.some.inj sameSubject)
  have samePredicateName : predicate.name = otherPredicate.name :=
    name_eq_of_bare_eq (Option.some.inj samePredicate)
  apply formed.bare_eq otherFormed
  rw [named, otherNamed, sameSubjectName, samePredicateName]

end Term

namespace Construction

open AttentiveReasoner.Language.Composition (returns_congr returns_term)
open Expression (Fits Returns conjunction_returns fits_self statement_returns)

/-! ## What an implication leads from and to -/

/-- The temporal order does not matter to which sides an implication joins. -/
theorem joins_reorder {order : TemporalOrder} (other : TemporalOrder) {subject predicate : Term}
    (joins : Joins (.implication order) subject predicate) :
    Joins (.implication other) subject predicate := by
  rw [joins_iff] at joins ⊢
  exact joins

/-- A term is an implication of the given order, from what the parts contribute together to
a consequent. -/
structure Implies (implication : Term) (order : TemporalOrder) (parts : List Term)
    (consequent : Term) : Prop where
  copula : implication.copula? = some (.implication order)
  condition : ∃ condition, implication.subject? = some condition ∧ Unites condition parts
  consequent : ∃ last, implication.predicate? = some last ∧ last.bare = consequent.bare

variable {implication other : Term} {order : TemporalOrder} {parts otherParts : List Term}
  {consequent otherConsequent : Term}

theorem Implies.congr (implies : Implies implication order parts consequent)
    (same : implication.bare = other.bare) : Implies other order parts consequent := by
  obtain ⟨copula, ⟨condition, isCondition, unites⟩, last, isLast, sameLast⟩ := implies
  obtain ⟨sameCopula, sameSubject, samePredicate⟩ := statement_of_bare_eq same
  rw [isCondition, Option.map_some, eq_comm] at sameSubject
  rw [isLast, Option.map_some, eq_comm] at samePredicate
  obtain ⟨otherCondition, isOther, sameCondition⟩ := Option.map_eq_some_iff.mp sameSubject
  obtain ⟨otherLast, isOtherLast, sameOther⟩ := Option.map_eq_some_iff.mp samePredicate
  exact
    { copula := sameCopula.symm.trans copula
      condition := ⟨otherCondition, isOther, unites.congr sameCondition.symm⟩
      consequent := ⟨otherLast, isOtherLast, sameOther.trans sameLast⟩ }

/-- Formed implications from the same to the same have the same content. -/
theorem Implies.bare_eq (formed : implication.Formed .usual) (otherFormed : other.Formed .usual)
    (implies : Implies implication order parts consequent)
    (otherImplies : Implies other order otherParts otherConsequent)
    (sameParts : ∀ content, (∃ part ∈ parts, content ∈ (conjuncts part).map bare) ↔
      ∃ part ∈ otherParts, content ∈ (conjuncts part).map bare)
    (sameConsequent : consequent.bare = otherConsequent.bare) :
    implication.bare = other.bare := by
  obtain ⟨copula, ⟨condition, isCondition, unites⟩, last, isLast, sameLast⟩ := implies
  obtain ⟨otherCopula, ⟨otherCondition, isOther, otherUnites⟩, otherLast, isOtherLast,
    sameOther⟩ := otherImplies
  have conditionFormed := formed.component condition (subject?_mem isCondition)
  have otherConditionFormed := otherFormed.component otherCondition (subject?_mem isOther)
  apply formed.bare_eq_of_sides otherFormed copula otherCopula
  · rw [isCondition, isOther, Option.map_some, Option.map_some,
      unites.bare_eq conditionFormed otherConditionFormed otherUnites sameParts]
  · rw [isLast, isOtherLast, Option.map_some, Option.map_some, sameLast, sameConsequent,
      sameOther]

theorem Implies.isImplication (implies : Implies implication order parts consequent) :
    implication.isImplication = true :=
  isImplication_iff.mpr ⟨order, implies.copula⟩

/-- What leads from an implication's condition leads from the parts of that condition. -/
theorem Implies.nest {whole subject : Term} {innerOrder : TemporalOrder}
    (outer : Implies whole order (subject :: implication.conditions) implication.consequent)
    (inner : Implies implication innerOrder parts consequent) :
    Implies whole order (subject :: parts) consequent := by
  have isImplication := inner.isImplication
  obtain ⟨_, ⟨condition, isCondition, unites⟩, last, isLast, sameLast⟩ := inner
  obtain ⟨copula, ⟨outerCondition, isOuter, outerUnites⟩, outerLast, isOuterLast, sameOuter⟩ :=
    outer
  rw [conditions_of_implication isImplication isCondition] at outerUnites
  rw [consequent_of_implication isImplication isLast] at sameOuter
  exact
    { copula
      condition := ⟨outerCondition, isOuter, outerUnites.nest (unites_self subject) unites⟩
      consequent := ⟨outerLast, isOuterLast, sameOuter.trans sameLast⟩ }

/-! ## Contents of implications -/

/-- What different terms contribute together is a conjunction. -/
theorem isConjunction_of_different {terms : List Term} {whole left right : Term}
    (formed : ∀ term ∈ terms, term.Formed .usual)
    (content : conjunctionContent (flattened terms) = some whole) (leftMember : left ∈ terms)
    (rightMember : right ∈ terms) (different : left.name ≠ right.name) :
    whole.isConjunction = true := by
  unfold conjunctionContent at content
  rcases sorted : sortByName (flattened terms) with _ | ⟨first, _ | ⟨second, rest⟩⟩
  · rw [sorted] at content
    contradiction
  · -- If a single conjunct remained, both terms would be it.
    have single : ∀ term ∈ terms, term.name = first.name := by
      intro term member
      have among : ∀ conjunct ∈ conjuncts term, conjunct ∈ flattened terms :=
        fun conjunct inTerm => mem_flattened.mpr ⟨term, member, inTerm⟩
      have ownConjuncts := conjuncts_of_sorted_single (formed term member) among sorted
      have termAmong : term ∈ flattened terms := among term (by rw [ownConjuncts]; simp)
      have named := name_mem_sortByName termAmong
      rw [sorted] at named
      exact List.mem_singleton.mp named
    exact absurd ((single left leftMember).trans (single right rightMember).symm) different
  · rw [sorted] at content
    rw [← Option.some.inj content]
    rfl

/-- A formed statement is the content of a statement between its own sides. -/
theorem statementContent_sides {copula : Copula} {statement subject predicate : Term}
    (formed : statement.Formed .usual) (hasCopula : statement.copula? = some copula)
    (isSubject : statement.subject? = some subject)
    (isPredicate : statement.predicate? = some predicate) :
    (statementContent copula subject predicate).map bare = some statement.bare := by
  obtain ⟨_, subjectFormed, predicateFormed, joins, named⟩ :=
    formed.between hasCopula isSubject isPredicate
  have accepted := accepted_of_joins subjectFormed predicateFormed joins
  have notAbsorbed := absorbs_of_joins joins
  have ordered : orderSides copula subject predicate = (subject, predicate) := by
    refine orderSides_of_unordered ?_
    rw [Bool.and_eq_false_iff, decide_eq_false_iff_not]
    by_cases symmetric : copula.isSymmetric = true
    · exact .inr fun greater =>
        String.lt_irrefl _ (String.lt_trans (joins.ordered symmetric) greater)
    · exact .inl (Bool.eq_false_of_not_eq_true symmetric)
  have made := makeStatement_formed subjectFormed predicateFormed accepted notAbsorbed 0
  simp only [statementContent, directContent, accepted, notAbsorbed, ordered] at made ⊢
  exact congrArg some (made.bare_eq formed named.symm)

/-- An implication is the content of the implication from a term that unites the same as its
condition to a term like its consequent. -/
theorem Implies.statementContent_eq {subject : Term}
    (implies : Implies implication order parts consequent)
    (formed : implication.Formed .usual) (subjectFormed : subject.Formed .usual)
    (unites : Unites subject parts) :
    (statementContent (.implication order) subject consequent).map bare =
      some implication.bare := by
  obtain ⟨copula, ⟨condition, isCondition, conditionUnites⟩, last, isLast, sameLast⟩ := implies
  have conditionFormed := formed.component condition (subject?_mem isCondition)
  have sameCondition : subject.bare = condition.bare :=
    unites.bare_eq subjectFormed conditionFormed conditionUnites fun _ => Iff.rfl
  rw [statementContent_congr sameCondition sameLast.symm]
  exact statementContent_sides formed copula isCondition isLast

theorem directContent_sides {subject predicate whole : Term}
    (content : directContent (.implication order) subject predicate = some whole) :
    whole.copula? = some (.implication order) ∧ whole.subject? = some subject ∧
      whole.predicate? = some predicate := by
  unfold directContent at content
  split at content
  · contradiction
  · rw [orderSides_of_implication rfl] at content
    rw [← Option.some.inj content]
    exact ⟨rfl, rfl, rfl⟩

/-- The implication that absorbs another one has a conjunction as its condition. -/
theorem absorbedContent_implies {subject predicate whole : Term}
    (subjectFormed : subject.Formed .usual) (predicateFormed : predicate.Formed .usual)
    (isImplication : predicate.isImplication = true)
    (accepted : refuses (.implication order) subject predicate = false)
    (content : absorbedContent subject predicate = some whole) :
    Implies whole .eternal (subject :: predicate.conditions) predicate.consequent ∧
      ∀ condition, whole.subject? = some condition → condition.isConjunction = true := by
  obtain ⟨condition, last, isCondition, isLast, conditionFormed, _⟩ :=
    implication_sides predicateFormed isImplication
  have bothFormed : ∀ part ∈ [subject, condition], part.Formed .usual := by
    simp [subjectFormed, conditionFormed]
  have different : subject.name ≠ condition.name := by
    intro sameName
    have notDegenerate : areDegenerate subject predicate = false :=
      (Bool.or_eq_false_iff.mp accepted).2
    have enclosed : encloses predicate subject = true := by
      rw [encloses_iff predicateFormed, sameName]
      exact List.mem_map_of_mem (subject?_mem isCondition)
    rw [areDegenerate_iff.mpr (.inr (.inr (.inr (.inl enclosed))))] at notDegenerate
    contradiction
  simp only [absorbedContent, isCondition, isLast] at content
  split at content
  · contradiction
  · obtain ⟨joined, isJoined, direct⟩ := Option.bind_eq_some_iff.mp content
    rw [← flattened_pair] at isJoined
    have unites := unites_of_content bothFormed isJoined
    have isConjunction : joined.isConjunction = true :=
      isConjunction_of_different bothFormed isJoined (by simp) (by simp) different
    obtain ⟨copula, isSubject, isPredicate⟩ := directContent_sides direct
    constructor
    · rw [conditions_of_implication isImplication isCondition,
        consequent_of_implication isImplication isLast]
      exact
        { copula
          condition := ⟨joined, isSubject, unites⟩
          consequent := ⟨last, isPredicate, rfl⟩ }
    · intro outer isOuter
      rwa [← Option.some.inj (isSubject.symm.trans isOuter)]

/-- An implication leads from its subject and the conditions of its predicate to the
consequent of that. Absorbing, it loses its order and gets a conjunction as its condition. -/
theorem statementContent_implies {subject predicate whole : Term}
    (subjectFormed : subject.Formed .usual) (predicateFormed : predicate.Formed .usual)
    (content : statementContent (.implication order) subject predicate = some whole) :
    Implies whole (if predicate.isImplication then .eternal else order)
        (subject :: predicate.conditions) predicate.consequent ∧
      (predicate.isImplication = true →
        ∀ condition, whole.subject? = some condition → condition.isConjunction = true) := by
  unfold statementContent at content
  split at content
  · contradiction
  · rename_i notRefused
    split at content
    · rename_i absorbed
      have isImplication : predicate.isImplication = true :=
        (Bool.and_eq_true_iff.mp absorbed).2
      obtain ⟨implies, isConjunction⟩ := absorbedContent_implies subjectFormed predicateFormed
        isImplication (Bool.eq_false_of_not_eq_true notRefused) content
      rw [if_pos isImplication]
      exact ⟨implies, fun _ => isConjunction⟩
    · rename_i notAbsorbed
      have other : predicate.isImplication = false := by
        simpa [absorbs, Copula.isImplication] using notAbsorbed
      obtain ⟨copula, isSubject, isPredicate⟩ := directContent_sides content
      rw [conditions_of_other other, consequent_of_other other, other]
      refine ⟨?_, Bool.noConfusion⟩
      exact
        { copula
          condition := ⟨subject, isSubject, unites_self subject⟩
          consequent := ⟨predicate, isPredicate, rfl⟩ }

/-- The conjunction of two held terms unites them and may be held as well, even if it is a copy. -/
theorem conjunction_unites {registry : Registry} {held : Held} {terms : List Term}
    {made : List ObjectId} {left right : Term} (formed : registry.Formed .usual)
    (unique : registry.Unique made terms) (counts : held.Counts terms)
    (leftInside : Inside terms left) (rightInside : Inside terms right)
    (leftFormed : left.Formed .usual) (rightFormed : right.Formed .usual) :
    ∃ joined after,
      conjunction .usual held (some left) (some right) registry = (.ok (some joined), after) ∧
        after.Formed .usual ∧ after.Unique made (terms ++ [joined]) ∧
        joined.Formed .usual ∧ Unites joined [left, right] := by
  have bothFormed : ∀ part ∈ [left, right], part.Formed .usual := by
    simp [leftFormed, rightFormed]
  have settles : Settles made terms registry
      (conjunction .usual held (some left) (some right) registry) := by
    refine conjunction_settles unique counts ?_ ?_
    · exact fun _ same => Option.some.inj same ▸ leftInside
    · exact fun _ same => Option.some.inj same ▸ rightInside
  have returns : Returns (conjunction .usual held (some left) (some right) registry)
      (Fits (conjunctionContent (conjuncts left ++ conjuncts right))) :=
    conjunction_returns formed (fits_self leftFormed) (fits_self rightFormed)
  obtain ⟨content, isContent⟩ : ∃ content,
      conjunctionContent (flattened [left, right]) = some content :=
    conjunctionContent_flattened_isSome leftFormed
  rw [← flattened_pair, isContent] at returns
  obtain ⟨joined, after, conjoined, afterFormed, sameBare⟩ := returns_term returns
  have contentFormed := conjunctionContent_formed (flattened_formed bothFormed) isContent
  rw [conjoined] at settles
  refine ⟨joined, after, conjoined, afterFormed, ?_, contentFormed.of_bare_eq joined sameBare, ?_⟩
  · refine (settles.made joined rfl).mono ?_
    exact fun term member => .of_mem (by simpa [or_comm] using member)
  · exact (unites_of_content bothFormed isContent).congr sameBare.symm

/-- A statement of the content of a held term that is no copy is that very term, even if
its sides are copies. -/
theorem statement_finds {registry : Registry} {held : Held} {terms : List Term}
    {made : List ObjectId} {copula : Copula} {subject predicate found : Term}
    (formed : registry.Formed .usual) (unique : registry.Unique made terms)
    (counts : held.Counts terms)
    (subjectInside : Inside terms subject) (predicateInside : Inside terms predicate)
    (subjectFormed : subject.Formed .usual) (predicateFormed : predicate.Formed .usual)
    (foundInside : Inside terms found) (foundOriginal : found.object ∉ made)
    (content : (statementContent copula subject predicate).map bare = some found.bare) :
    (statement .usual held copula (some subject) (some predicate) registry).1 =
      .ok (some found) := by
  have registers : Registers made terms registry
      (statement .usual held copula (some subject) (some predicate) registry) := by
    refine statement_registers unique counts ?_ ?_ ?_
    · exact fun _ same => Option.some.inj same ▸ subjectInside
    · exact fun _ same => Option.some.inj same ▸ predicateInside
    · exact fun _ same => Option.some.inj same ▸ predicateFormed
  have returns : Returns (statement .usual held copula (some subject) (some predicate) registry)
      (Fits (some found)) :=
    returns_congr (statement_returns formed (fits_self subjectFormed) (fits_self predicateFormed))
      content
  obtain ⟨term, after, stated, _, sameBare⟩ := returns_term returns
  rw [stated] at registers ⊢
  have sameName : term.name = found.name := name_eq_of_bare_eq sameBare
  have same : term = found :=
    (registers.made term rfl).eq_of_name_eq (.of_mem List.mem_cons_self)
      (inside_cons.mpr (.inr foundInside)) (registers.original term rfl) foundOriginal sameName
  rw [same]

end Construction

namespace Session

open AttentiveReasoner.Language.Composition Construction

variable {session : Session} {made : List ObjectId} {requests : List Request}

/-! ## Statements in the course of a run -/

/-- At some request of a run, two results of that time are joined to a statement. -/
def Stated (requests : List Request) (copula : Copula) (subject predicate statement : Term) :
    Prop :=
  ∃ before left right after,
    requests = before ++ .statement copula left right :: after ∧
      (of .usual before).result? left = some subject ∧
      (of .usual before).result? right = some predicate ∧
      ((of .usual before).answer .usual Held.nothing (.statement copula left right)).1 =
        .ok (some statement)

variable {copula : Copula} {subject predicate statement : Term}

theorem Stated.formed (stated : Stated requests copula subject predicate statement) :
    subject.Formed .usual ∧ predicate.Formed .usual ∧ statement.Formed .usual := by
  obtain ⟨before, left, right, after, _, isSubject, isPredicate, answered⟩ := stated
  have formed := of_formed .usual before
  exact ⟨formed.result subject isSubject, formed.result predicate isPredicate,
    (formed.answer Held.nothing (.statement copula left right)).term statement answered⟩

theorem Stated.content (stated : Stated requests copula subject predicate statement) :
    (statementContent copula subject predicate).map bare = some statement.bare := by
  obtain ⟨before, left, right, after, _, isSubject, isPredicate, answered⟩ := stated
  have formed := of_formed .usual before
  have yields : Yields (Construction.statement .usual (of .usual before).held copula (some subject)
      (some predicate) (of .usual before).registry) (statementContent copula subject predicate) :=
    statement_yields formed.registry (formed.result subject isSubject)
      (formed.result predicate isPredicate)
  obtain ⟨value, isValue, sameContent⟩ := yields
  rw [answer, isSubject, isPredicate] at answered
  obtain rfl : value = some statement := Except.ok.inj (isValue.symm.trans answered)
  exact sameContent.symm

/-- Nothing that is stated is a copy, of any time of the run. -/
theorem Stated.original (stated : Stated requests copula subject predicate statement) :
    statement.object ∉ copies .usual {} requests := by
  obtain ⟨before, left, right, after, rfl, isSubject, isPredicate, answered⟩ := stated
  have formed := of_formed .usual before
  have unique := of_unique .usual before
  have registers : Registers (copies .usual {} before) (of .usual before).terms
      (of .usual before).registry
      ((of .usual before).answer .usual Held.nothing (.statement copula left right)) :=
    statement_registers unique (held_counts (of .usual before))
      (fun term isTerm => .of_mem (result?_mem isTerm))
      (fun term isTerm => .of_mem (result?_mem isTerm)) formed.result
  have originalBefore : statement.object ∉ copies .usual {} before :=
    registers.original statement answered
  let afterwards := (of .usual before).perform .usual (.statement copula left right)
  have afterwardsFormed : afterwards.Formed .usual := formed.perform _
  have afterwardsUnique :
      afterwards.registry.Unique (copies .usual {} before) afterwards.terms := by
    have performed := (perform_settles formed unique (.statement copula left right)).1
    rwa [copied.eq_def, List.append_nil] at performed
  have inside : Inside afterwards.terms statement := .of_mem (mem_terms_perform answered)
  rw [copies_append]
  exact not_mem_copies_of_inside afterwardsFormed afterwardsUnique inside originalBefore after

theorem Stated.implies {order : TemporalOrder}
    (stated : Stated requests (.implication order) subject predicate statement) :
    Implies statement (if predicate.isImplication then .eternal else order)
        (subject :: predicate.conditions) predicate.consequent ∧
      (predicate.isImplication = true →
        ∀ condition, statement.subject? = some condition → condition.isConjunction = true) := by
  obtain ⟨subjectFormed, predicateFormed, _⟩ := stated.formed
  obtain ⟨whole, isWhole, sameBare⟩ := Option.map_eq_some_iff.mp stated.content
  obtain ⟨implies, isConjunction⟩ :=
    statementContent_implies subjectFormed predicateFormed isWhole
  refine ⟨implies.congr sameBare, ?_⟩
  intro isImplication condition isCondition
  have sameSubject : whole.subject?.map bare = some condition.bare := by
    rw [(statement_of_bare_eq sameBare).2.1, isCondition, Option.map_some]
  obtain ⟨own, isOwn, sameCondition⟩ := Option.map_eq_some_iff.mp sameSubject
  rw [← bare_isConjunction, ← sameCondition, bare_isConjunction]
  exact isConjunction isImplication own isOwn

/-- In a run that drops nothing, the places of a statement and its sides tell what was
stated. -/
theorem stated_of_results (place left right : Nat) (keeps : ∀ dropped, .drop dropped ∉ requests)
    (asks : requests[place]? = some (.statement copula left right))
    (leftBefore : left < place) (rightBefore : right < place)
    (isSubject : (of .usual requests).result? left = some subject)
    (isPredicate : (of .usual requests).result? right = some predicate)
    (isStatement : (of .usual requests).result? place = some statement) :
    Stated requests copula subject predicate statement := by
  obtain ⟨within, isRequest⟩ := List.getElem?_eq_some_iff.mp asks
  obtain ⟨before, after, rfl, rfl⟩ : ∃ before after,
      requests = before ++ .statement copula left right :: after ∧ before.length = place := by
    refine ⟨requests.take place, requests.drop (place + 1), ?_,
      List.length_take_of_le (Nat.le_of_lt within)⟩
    rw [← isRequest, List.getElem_cons_drop, List.take_append_drop]
  obtain ⟨earlier, answer⟩ := result?_of_split keeps
  rw [earlier left leftBefore] at isSubject
  rw [earlier right rightBefore] at isPredicate
  rw [answer] at isStatement
  refine ⟨before, left, right, after, rfl, isSubject, isPredicate, ?_⟩
  rcases given : ((of .usual before).answer .usual Held.nothing
    (.statement copula left right)).1 with failure | value
  · rw [given] at isStatement
    contradiction
  · rw [given] at isStatement
    exact congrArg Except.ok isStatement

/-! ## The exchange of conditions -/

/-- What an implication absorbs was an implication that may have absorbed one before. -/
theorem Stated.implies_twice {left right goal inner outer : Term} {innerOrder order : TemporalOrder}
    (isInner : Stated requests (.implication innerOrder) right goal inner)
    (isOuter : Stated requests (.implication order) left inner outer) :
    Implies outer .eternal (left :: right :: goal.conditions) goal.consequent ∧
      ∀ condition, outer.subject? = some condition → condition.isConjunction = true := by
  have innerImplies := isInner.implies.1
  have isImplication := innerImplies.isImplication
  obtain ⟨outerImplies, isConjunction⟩ := isOuter.implies
  rw [if_pos isImplication] at outerImplies
  exact ⟨outerImplies.nest innerImplies, isConjunction isImplication⟩

/-- The implication from a conjunction of held terms, evaluated while an implication from
both to the same goal is held. -/
theorem evaluate_conjoined {left right goal whole : Term} (formed : session.Formed .usual)
    (unique : session.registry.Unique made session.terms)
    (held : ∀ term ∈ [left, right, goal], Inside session.terms term)
    (wholeHeld : Inside session.terms whole) (original : whole.object ∉ made)
    (implies : Implies whole .eternal [left, right] goal) :
    let both : Composition := .conjunction (.operand rfl left) (.operand rfl right)
    let atOnce : Composition := .statement (.implication .eternal) both (.operand rfl goal)
    (atOnce.evaluate .usual session.held session.registry).1 = .ok (some whole) := by
  intro both atOnce
  rw [List.forall_mem_cons, List.forall_mem_cons, List.forall_mem_singleton] at held
  obtain ⟨leftHeld, rightHeld, goalHeld⟩ := held
  have pairCounts : ((session.held.withTerms [left]).withTerms [right]).Counts session.terms := by
    refine ((held_counts session).withInside ?_).withInside ?_
    · simpa using leftHeld
    · simpa using rightHeld
  obtain ⟨joined, after, conjoined, afterFormed, afterUnique, joinedFormed, unites⟩ :=
    conjunction_unites formed.registry unique pairCounts leftHeld rightHeld
      (formed.inside leftHeld) (formed.inside rightHeld)
  have more : ∀ {term}, Inside session.terms term → Inside (session.terms ++ [joined]) term :=
    fun inside => inside_append.mpr (.inl inside)
  have wholeCounts : ((session.held.withTerms [joined]).withTerms [goal]).Counts
      (session.terms ++ [joined]) := by
    refine ((held_counts session).withTerms [joined]).withInside ?_
    simpa using more goalHeld
  have bothEvaluated : both.evaluate .usual session.held session.registry =
      (.ok (some joined), after) :=
    conjoined
  rw [Expression.evaluate, bothEvaluated]
  have joinedHeld : Inside (session.terms ++ [joined]) joined := .of_mem (by simp)
  exact statement_finds afterFormed afterUnique wholeCounts joinedHeld (more goalHeld) joinedFormed
    (formed.inside goalHeld) (more wholeHeld) original
    (implies.statementContent_eq (formed.inside wholeHeld) joinedFormed unites)

/-- Two conditions that are put in front of a goal one after the other may be exchanged: the
same object comes out, in eternal order. It leads from the conjunction of both conditions,
and of the goal's own if it has one, to the goal or what the goal leads to. A goal that is
no implication may as well get the conjunction of both as its condition at once. -/
theorem conditions_exchange {left right goal inner outer otherInner otherOuter : Term}
    {innerOrder outerOrder otherInnerOrder otherOuterOrder : TemporalOrder}
    (isInner : Stated requests (.implication innerOrder) right goal inner)
    (isOuter : Stated requests (.implication outerOrder) left inner outer)
    (isOtherInner : Stated requests (.implication otherInnerOrder) left goal otherInner)
    (isOtherOuter : Stated requests (.implication otherOuterOrder) right otherInner otherOuter)
    (outerHeld : Inside (of .usual requests).terms outer)
    (otherOuterHeld : Inside (of .usual requests).terms otherOuter) :
    let session := of .usual requests
    otherOuter = outer ∧
      Implies outer .eternal (left :: right :: goal.conditions) goal.consequent ∧
      (∀ condition, outer.subject? = some condition → condition.isConjunction = true) ∧
      (∀ last, outer.predicate? = some last → Inside session.terms goal →
        last.object ∉ copies .usual {} requests →
        goal.consequent.object ∉ copies .usual {} requests → last = goal.consequent) ∧
      (goal.isImplication = false →
        (∀ term ∈ [left, right, goal], Inside session.terms term) →
          let both : Composition := .conjunction (.operand rfl left) (.operand rfl right)
          let atOnce : Composition :=
            .statement (.implication .eternal) both (.operand rfl goal)
          (atOnce.evaluate .usual session.held session.registry).1 = .ok (some outer)) := by
  intro session
  have unique := of_unique .usual requests
  obtain ⟨implies, isConjunction⟩ := isInner.implies_twice isOuter
  obtain ⟨otherImplies, _⟩ := isOtherInner.implies_twice isOtherOuter
  have outerFormed := isOuter.formed.2.2
  have sameBare : otherOuter.bare = outer.bare := by
    refine otherImplies.bare_eq isOtherOuter.formed.2.2 outerFormed implies ?_ rfl
    intro content
    simp only [List.exists_mem_cons_iff]
    exact or_left_comm
  have sameName : otherOuter.name = outer.name := name_eq_of_bare_eq sameBare
  refine ⟨?_, implies, isConjunction, ?_, ?_⟩
  · exact unique.eq_of_name_eq otherOuterHeld outerHeld isOtherOuter.original isOuter.original
      sameName
  · intro last isLast goalHeld lastOriginal goalOriginal
    obtain ⟨_, _, own, isOwn, sameLast⟩ := implies
    obtain rfl := Option.some.inj (isLast.symm.trans isOwn)
    have sameLastName : last.name = goal.consequent.name := name_eq_of_bare_eq sameLast
    exact unique.eq_of_name_eq (outerHeld.component (predicate?_mem isLast))
      (goalHeld.ofPart goal.consequent_partOf) lastOriginal goalOriginal sameLastName
  · intro noImplication held
    rw [conditions_of_other noImplication, consequent_of_other noImplication] at implies
    exact evaluate_conjoined (of_formed .usual requests) unique held outerHeld isOuter.original
      implies

/-- The requests for `<(&&,a,b) ==> <(&&,b,c) ==> d>>` and for the same with its conditions
exchanged, in different orders. -/
def exchangeRequests : List Request :=
  [.word "a", .word "b", .word "c", .word "d", .conjunction 0 1, .conjunction 1 2,
    .statement (.implication .concurrent) 5 3, .statement (.implication .forward) 4 6,
    .statement (.implication .backward) 4 3, .statement (.implication .eternal) 5 8]

/-- Both ways end at `<(&&,a,b,c) ==> d>`. -/
theorem overlapping_conditions_exchange :
    let session := of .usual exchangeRequests
    let left := (session.result? 4).get (by decide +kernel)
    let right := (session.result? 5).get (by decide +kernel)
    let goal := (session.result? 3).get (by decide +kernel)
    let outer := (session.result? 7).get (by decide +kernel)
    let otherOuter := (session.result? 9).get (by decide +kernel)
    let atOnce : Composition := .statement (.implication .eternal)
      (.conjunction (.operand rfl left) (.operand rfl right)) (.operand rfl goal)
    outer.name = "<(&&,a,b,c) ==> d>" ∧ otherOuter = outer ∧
      Implies outer .eternal [left, right] goal ∧
      (atOnce.evaluate .usual session.held session.registry).1 = .ok (some outer) := by
  intro session left right goal outer otherOuter atOnce
  have keeps : ∀ dropped, .drop dropped ∉ exchangeRequests := by simp [exchangeRequests]
  have placed : ∀ {place} (isTerm : (session.result? place).isSome),
      session.result? place = some ((session.result? place).get isTerm) :=
    fun isTerm => (Option.some_get isTerm).symm
  have isInner : Stated exchangeRequests (.implication .concurrent) right goal
      ((session.result? 6).get (by decide +kernel)) :=
    stated_of_results 6 5 3 keeps rfl (by decide) (by decide) (placed _) (placed _) (placed _)
  have isOuter : Stated exchangeRequests (.implication .forward) left
      ((session.result? 6).get (by decide +kernel)) outer :=
    stated_of_results 7 4 6 keeps rfl (by decide) (by decide) (placed _) (placed _) (placed _)
  have isOtherInner : Stated exchangeRequests (.implication .backward) left goal
      ((session.result? 8).get (by decide +kernel)) :=
    stated_of_results 8 4 3 keeps rfl (by decide) (by decide) (placed _) (placed _) (placed _)
  have isOtherOuter : Stated exchangeRequests (.implication .eternal) right
      ((session.result? 8).get (by decide +kernel)) otherOuter :=
    stated_of_results 9 5 8 keeps rfl (by decide) (by decide) (placed _) (placed _) (placed _)
  obtain ⟨same, implies, _, _, direct⟩ := conditions_exchange isInner isOuter isOtherInner
    isOtherOuter (.of_mem (get_result?_mem _)) (.of_mem (get_result?_mem _))
  have noImplication : goal.isImplication = false := by decide +kernel
  rw [conditions_of_other noImplication, consequent_of_other noImplication] at implies
  refine ⟨by decide +kernel, same, implies, direct noImplication ?_⟩
  rw [List.forall_mem_cons, List.forall_mem_cons, List.forall_mem_singleton]
  exact ⟨.of_mem (get_result?_mem _), .of_mem (get_result?_mem _), .of_mem (get_result?_mem _)⟩

end Session
end AttentiveReasoner.Language
