import AttentiveReasoner.Proofs.Language.Flattening

/-!
Contract: conjunction as an operation on objects, under the usual symbols.

Owns:
- what terms contribute to a conjunction together, and that a formed term is fixed by what
  it contributes;
- compositions of operands by conjunction alone, and that such a composition contributes
  what its operands contribute;
- compositions that coincide: the value of one is the value of each of them, as long as it
  is held;
- that conjunction is idempotent, commutative and associative in this sense.

Does not own: conjunctions of a whole list at once, which do not flatten.

All laws come from one: order, grouping and repetition of the operands do not change what
they contribute together.
-/

namespace AttentiveReasoner.Language

open Term

namespace Construction

/-! ## What terms contribute together -/

/-- A term contributes to a conjunction what the parts contribute together. -/
def Unites (whole : Term) (parts : List Term) : Prop :=
  ∀ content, content ∈ (conjuncts whole).map bare ↔
    ∃ part ∈ parts, content ∈ (conjuncts part).map bare

theorem mem_contents_flattened {parts : List Term} {content : Term} :
    content ∈ (flattened parts).map bare ↔
      ∃ part ∈ parts, content ∈ (conjuncts part).map bare := by
  induction parts with
  | nil => simp [flattened]
  | cons first rest inductionHypothesis =>
      change content ∈ (conjuncts first ++ flattened rest).map bare ↔ _
      rw [List.map_append, List.mem_append, inductionHypothesis]
      simp only [List.exists_mem_cons_iff]

theorem flattened_pair (left right : Term) :
    flattened [left, right] = conjuncts left ++ conjuncts right := by
  simp [flattened]

theorem mem_contents_sortByName {terms : List Term} {content : Term}
    (formed : ∀ term ∈ terms, term.Formed .usual) :
    content ∈ (sortByName terms).map bare ↔ content ∈ terms.map bare := by
  constructor
  · intro member
    obtain ⟨term, termMember, rfl⟩ := List.mem_map.mp member
    exact List.mem_map_of_mem (mem_of_mem_sortByName termMember)
  · intro member
    obtain ⟨term, termMember, rfl⟩ := List.mem_map.mp member
    -- Another term of the name may have stayed, but a name fixes the content.
    obtain ⟨stayed, stayedMember, sameName⟩ := List.mem_map.mp (name_mem_sortByName termMember)
    rw [← (formed stayed (mem_of_mem_sortByName stayedMember)).bare_eq (formed term termMember)
      sameName]
    exact List.mem_map_of_mem stayedMember

theorem unites_self (term : Term) : Unites term [term] := by
  intro content
  simp

theorem Unites.congr {whole other : Term} {parts : List Term} (unites : Unites whole parts)
    (same : whole.bare = other.bare) : Unites other parts := by
  intro content
  rw [← conjuncts_bare, ← same, conjuncts_bare]
  exact unites content

/-- A part that unites others may be replaced by them. -/
theorem Unites.nest {whole left right : Term} {leftParts rightParts : List Term}
    (unites : Unites whole [left, right]) (leftUnites : Unites left leftParts)
    (rightUnites : Unites right rightParts) : Unites whole (leftParts ++ rightParts) := by
  intro content
  rw [unites content, List.exists_mem_cons_iff, List.exists_mem_cons_iff, leftUnites content,
    rightUnites content]
  simp [or_and_right, exists_or]

/-- The conjunction of what terms contribute unites them. -/
theorem unites_of_content {parts : List Term} {whole : Term}
    (formed : ∀ part ∈ parts, part.Formed .usual)
    (content : conjunctionContent (flattened parts) = some whole) : Unites whole parts := by
  intro conjunct
  rw [conjuncts_of_flattened formed content, mem_contents_sortByName (flattened_formed formed),
    mem_contents_flattened]

/-- Formed terms that unite the same contents have the same content. -/
theorem Unites.bare_eq {whole other : Term} {parts otherParts : List Term}
    (formed : whole.Formed .usual) (otherFormed : other.Formed .usual)
    (unites : Unites whole parts) (otherUnites : Unites other otherParts)
    (same : ∀ content, (∃ part ∈ parts, content ∈ (conjuncts part).map bare) ↔
      ∃ part ∈ otherParts, content ∈ (conjuncts part).map bare) :
    whole.bare = other.bare := by
  have sameContents : ∀ content, content ∈ (conjuncts whole).map bare ↔
      content ∈ (conjuncts other).map bare :=
    fun content => (unites content).trans ((same content).trans (otherUnites content).symm)
  have sameNames : ∀ name, name ∈ (conjuncts whole).map (·.name) ↔
      name ∈ (conjuncts other).map (·.name) := by
    intro name
    rw [← names_map_bare, ← names_map_bare (conjuncts other), List.mem_map, List.mem_map]
    simp only [sameContents]
  have sameConjunction := conjunctionContent_of_names (conjuncts_formed formed)
    (conjuncts_formed otherFormed) sameNames
  rw [conjunctionContent_conjuncts formed, conjunctionContent_conjuncts otherFormed]
    at sameConjunction
  exact Option.some.inj sameConjunction

end Construction

namespace Composition

open Construction
open Expression (meaning operands)

/-! ## Joins of operands -/

/-- A composition of operands by conjunction alone. -/
inductive IsJoin : Composition → Prop where
  | operand (term : Term) : IsJoin (.operand rfl term)
  | conjunction {left right : Composition} (leftJoin : IsJoin left) (rightJoin : IsJoin right) :
      IsJoin (.conjunction left right)

theorem isJoin_conjunction {left right : Composition} :
    IsJoin (.conjunction left right) ↔ left.IsJoin ∧ right.IsJoin := by
  constructor
  · rintro (_ | ⟨leftJoin, rightJoin⟩)
    exact ⟨leftJoin, rightJoin⟩
  · rintro ⟨leftJoin, rightJoin⟩
    exact .conjunction leftJoin rightJoin

/-- However its operands are grouped, a join means a term that unites them. -/
theorem IsJoin.meaning_unites {composition : Composition} (join : composition.IsJoin)
    (formed : ∀ operand ∈ composition.operands, operand.Formed .usual) :
    ∃ whole, composition.meaning = some whole ∧ whole.Formed .usual ∧
      Unites whole composition.operands := by
  induction join with
  | operand term => exact ⟨term, rfl, formed term List.mem_cons_self, unites_self term⟩
  | @conjunction left right _ _ leftMeaning rightMeaning =>
      rw [operands, List.forall_mem_append] at formed
      obtain ⟨first, isFirst, firstFormed, firstUnites⟩ := leftMeaning formed.1
      obtain ⟨second, isSecond, secondFormed, secondUnites⟩ := rightMeaning formed.2
      have bothFormed : ∀ part ∈ [first, second], part.Formed .usual := by
        simp [firstFormed, secondFormed]
      obtain ⟨whole, isWhole⟩ : ∃ whole,
          conjunctionContent (flattened [first, second]) = some whole :=
        conjunctionContent_flattened_isSome firstFormed
      refine ⟨whole, ?_, conjunctionContent_formed (flattened_formed bothFormed) isWhole, ?_⟩
      · rw [meaning, isFirst, isSecond, ← isWhole, flattened_pair]
        rfl
      · exact (unites_of_content bothFormed isWhole).nest firstUnites secondUnites

/-- Joins whose operands contribute the same mean the same. -/
theorem IsJoin.meaning_eq {composition other : Composition} (join : composition.IsJoin)
    (otherJoin : other.IsJoin)
    (formed : ∀ operand ∈ composition.operands, operand.Formed .usual)
    (otherFormed : ∀ operand ∈ other.operands, operand.Formed .usual)
    (same : ∀ content, (∃ part ∈ composition.operands, content ∈ (conjuncts part).map bare) ↔
      ∃ part ∈ other.operands, content ∈ (conjuncts part).map bare) :
    composition.meaning.map bare = other.meaning.map bare := by
  obtain ⟨whole, isWhole, wholeFormed, unites⟩ := join.meaning_unites formed
  obtain ⟨otherWhole, isOther, otherWholeFormed, otherUnites⟩ :=
    otherJoin.meaning_unites otherFormed
  rw [isWhole, isOther, Option.map_some, Option.map_some,
    unites.bare_eq wholeFormed otherWholeFormed otherUnites same]

end Composition

namespace Session

open AttentiveReasoner.Language.Composition Construction

variable {session : Session} {made : List ObjectId}

/-! ## Compositions that coincide -/

/-- Each composition has a value now, which unites the parts; and this very object is the
value of all the compositions later on, after any requests that leave it and the operands
held. -/
def Coincide (session : Session) (compositions : List Composition) (parts : List Term) : Prop :=
  ∀ composition ∈ compositions,
    let evaluated := composition.evaluate .usual session.held session.registry
    ∃ value, evaluated.1 = .ok (some value) ∧ Unites value parts ∧
      ∀ (more : List Request) (other : Composition), other ∈ compositions →
        let later := (session.record evaluated.2 (some value)).run .usual more
        Inside later.terms value → (∀ operand ∈ other.operands, Inside later.terms operand) →
          (other.evaluate .usual later.held later.registry).1 = .ok (some value)

/-- Joins of the same registered operands coincide. -/
theorem coincide_of_joins {compositions : List Composition} {parts : List Term}
    (formed : session.Formed .usual) (unique : session.registry.Unique made session.terms)
    (registered : ∀ part ∈ parts, Registered made session.terms part)
    (joins : ∀ composition ∈ compositions, composition.IsJoin)
    (covers : ∀ composition ∈ compositions, ∀ term, term ∈ composition.operands ↔ term ∈ parts) :
    session.Coincide compositions parts := by
  have operandsRegistered : ∀ composition ∈ compositions, ∀ operand ∈ composition.operands,
      Registered made session.terms operand :=
    fun composition member operand isOperand =>
      registered operand ((covers composition member operand).mp isOperand)
  have operandsFormed : ∀ composition ∈ compositions, ∀ operand ∈ composition.operands,
      operand.Formed .usual :=
    fun composition member operand isOperand =>
      (operandsRegistered composition member operand isOperand).formed
  intro composition member evaluated
  obtain ⟨whole, isWhole, _, unites⟩ :=
    (joins composition member).meaning_unites (operandsFormed composition member)
  obtain ⟨value, _, isEvaluated, fits, _⟩ :=
    composition.evaluate_keeps formed.registry unique (held_counts session)
      (operandsRegistered composition member)
  rw [isWhole] at fits
  obtain ⟨value, rfl, sameBare⟩ := Option.map_eq_some_iff.mp fits.content
  have isValue : evaluated.1 = .ok (some value) := congrArg Prod.fst isEvaluated
  refine ⟨value, isValue, ?_, ?_⟩
  · intro content
    rw [unites.congr sameBare.symm content]
    simp only [covers composition member]
  · intro more other otherMember later valueHeld operandsHeld
    have sameMeaning : other.meaning.map bare = composition.meaning.map bare := by
      refine (joins other otherMember).meaning_eq (joins composition member)
        (operandsFormed other otherMember) (operandsFormed composition member) ?_
      simp only [covers other otherMember, covers composition member, implies_true]
    exact evaluate_alike formed unique (operandsRegistered composition member)
      (operandsRegistered other otherMember) sameMeaning isValue operandsHeld valueHeld

/-- After any requests, conjunction makes a semilattice of the registered terms that are held:
joining a term to itself gives that very term, and neither order nor grouping makes a
difference to the object. What results contributes what its operands contribute. -/
theorem conjunction_semilattice (requests : List Request) {first second third : Term}
    (given : ∀ term ∈ [first, second, third], Inside (of .usual requests).terms term ∧
      term.object ∉ copies .usual {} requests) :
    let session := of .usual requests
    let a : Composition := .operand rfl first
    let b : Composition := .operand rfl second
    let c : Composition := .operand rfl third
    ((a.conjunction a).evaluate .usual session.held session.registry).1 = .ok (some first) ∧
      session.Coincide [a.conjunction b, b.conjunction a] [first, second] ∧
      session.Coincide [a.conjunction (b.conjunction c), (a.conjunction b).conjunction c]
        [first, second, third] := by
  intro session a b c
  have formed := of_formed .usual requests
  have unique := of_unique .usual requests
  have registered : ∀ term ∈ [first, second, third],
      Registered (copies .usual {} requests) session.terms term := by
    intro term member
    obtain ⟨inside, original⟩ := given term member
    exact ⟨inside, original, formed.inside inside⟩
  have join : ∀ term, IsJoin (.operand rfl term) := IsJoin.operand
  refine ⟨?_, ?_, ?_⟩
  · have firstRegistered := registered first List.mem_cons_self
    have operandsFirst : ∀ operand ∈ (a.conjunction a).operands, operand = first := by
      simp [a, Expression.operands]
    have sameMeaning : (a.conjunction a).meaning.map bare = a.meaning.map bare := by
      refine IsJoin.meaning_eq (.conjunction (join first) (join first)) (join first) ?_ ?_ ?_
      · exact fun operand member => operandsFirst operand member ▸ firstRegistered.formed
      · exact fun operand member => List.mem_singleton.mp member ▸ firstRegistered.formed
      · simp [a, Expression.operands]
    refine evaluate_eq_of_meaning formed.registry unique (held_counts session) ?_
      firstRegistered sameMeaning
    exact fun operand member => operandsFirst operand member ▸ firstRegistered
  · refine coincide_of_joins formed unique ?_ ?_ ?_
    · rw [List.forall_mem_cons, List.forall_mem_cons] at registered
      simp [registered]
    · simp [a, b, isJoin_conjunction, join]
    · simp [a, b, Expression.operands, or_comm]
  · refine coincide_of_joins formed unique registered ?_ ?_
    · simp [a, b, c, isJoin_conjunction, join]
    · simp [a, b, c, Expression.operands]

/-- The requests for `a`, `b`, `(&&,a,b)` and `(&&,(&&,a,b),c)`, whose first component is a
conjunction. -/
def nestedRequests : List Request :=
  [.word "a", .word "b", .word "c", .conjunction 0 1, .conjunctionFrom [3, 2]]

/-- With `(&&,(&&,a,b),c)`, `a` and `b`, whose conjunction is a component of the first. -/
theorem nested_semilattice :
    let session := of .usual nestedRequests
    let nested := (session.result? 4).get (by decide +kernel)
    let left := (session.result? 0).get (by decide +kernel)
    let right := (session.result? 1).get (by decide +kernel)
    let a : Composition := .operand rfl nested
    let b : Composition := .operand rfl left
    let c : Composition := .operand rfl right
    nested.name = "(&&,(&&,a,b),c)" ∧
      ((a.conjunction a).evaluate .usual session.held session.registry).1 = .ok (some nested) ∧
      session.Coincide [a.conjunction b, b.conjunction a] [nested, left] ∧
      session.Coincide [a.conjunction (b.conjunction c), (a.conjunction b).conjunction c]
        [nested, left, right] := by
  intro session nested left right a b c
  refine ⟨by decide +kernel, conjunction_semilattice nestedRequests ?_⟩
  have noCopies : copies .usual {} nestedRequests = [] := rfl
  rw [noCopies, List.forall_mem_cons, List.forall_mem_cons, List.forall_mem_singleton]
  exact ⟨⟨.of_mem (get_result?_mem _), List.not_mem_nil⟩,
    ⟨.of_mem (get_result?_mem _), List.not_mem_nil⟩,
    ⟨.of_mem (get_result?_mem _), List.not_mem_nil⟩⟩

end Session

end AttentiveReasoner.Language
