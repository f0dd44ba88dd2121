import AttentiveReasoner.Language.Construction
import AttentiveReasoner.Proofs.Language.Trees
import Mathlib.Tactic.MkIffOfInductiveProp

/-!
Contract: the normal form of constructed terms.

Owns:
- the pairs of sides that a copula joins;
- the normal form of one term: its components and its name, by its form;
- the formation of terms from atoms by joined pairs and increasing lists, and that
  every part of a formed term is in normal form;
- that formation does not depend on object numbers.

Does not own: that constructions only form terms.

Formation is the working notion: it is an induction principle, and it fixes all of
a term but its object. The normal form reads the same facts off a given term.
-/

namespace AttentiveReasoner.Language

/-- The names of both sides of a statement. -/
def Term.sideNames? (term : Term) : Option (String × String) :=
  match term.subject?, term.predicate? with
  | some subject, some predicate => some (subject.name, predicate.name)
  | _, _ => none

/-- A copula joins two sides, in this order. -/
@[mk_iff]
structure Joins (copula : Copula) (subject predicate : Term) : Prop where
  /-- The sides have different names. -/
  distinct : subject.name ≠ predicate.name
  /-- At most one side is a variable. -/
  notVariables : ¬(subject.isVariable ∧ predicate.isVariable)
  /-- The subject is no component of the predicate. -/
  subjectOutside : subject.name ∉ predicate.components.map (·.name)
  /-- The predicate is no component of the subject. -/
  predicateOutside : predicate.name ∉ subject.components.map (·.name)
  /-- The sides are no statements with each other's sides exchanged. -/
  notConverse : ∀ first second,
    subject.sideNames? = some (first, second) → predicate.sideNames? ≠ some (second, first)
  /-- The sides of a symmetric copula are in the order of their names. -/
  ordered : copula.isSymmetric → subject.name < predicate.name
  /-- No side of an implication or equivalence is an implication or equivalence. -/
  firstOrder : copula.isHigherOrder → ¬subject.isHigherOrder ∧ ¬predicate.isHigherOrder

/-- The normal form of a term under a table of symbols. -/
structure NormalForm (symbols : Symbols) (term : Term) : Prop where
  /-- An atom has a name for atoms and no components. -/
  atom : term.isAtomic →
    Construction.isAtomName term.name.toList ∧ term.components = []
  /-- A conjunction has at least two components with increasing names, and its name
  is derived from theirs. -/
  conjunction : term.isConjunction →
    2 ≤ term.components.length ∧
      (term.components.map (·.name)).Pairwise (· < ·) ∧
      term.name = symbols.conjunctionName (term.components.map (·.name))
  /-- A statement has two sides that its copula joins, and its name is derived from
  theirs. -/
  statement : ∀ copula, term.copula? = some copula →
    ∃ subject predicate,
      term.components = [subject, predicate] ∧
        Joins copula subject predicate ∧
        term.name = symbols.statementName copula subject.name predicate.name

namespace Term

/-! ## Formation -/

/-- The terms formed under a table of symbols. -/
inductive Formed (symbols : Symbols) : Term → Prop where
  | atom
      (object : ObjectId)
      {name : String}
      (admissible : Construction.isAtomName name.toList) :
      Formed symbols (Term.atom object name)
  | statement
      (object : ObjectId)
      {copula : Copula}
      {subject predicate : Term}
      (subjectFormed : Formed symbols subject)
      (predicateFormed : Formed symbols predicate)
      (joins : Joins copula subject predicate) :
      Formed symbols
        (Term.compound object
          (symbols.statementName copula subject.name predicate.name)
          (.statement copula) [subject, predicate])
  | conjunction
      (object : ObjectId)
      {components : List Term}
      (componentsFormed : ∀ component ∈ components, Formed symbols component)
      (several : 2 ≤ components.length)
      (increasing : (components.map (·.name)).Pairwise (· < ·)) :
      Formed symbols
        (Term.compound object
          (symbols.conjunctionName (components.map (·.name)))
          .conjunction components)

variable {symbols : Symbols} {term part : Term}

theorem Formed.component (formed : Formed symbols term) :
    ∀ component ∈ term.components, Formed symbols component := by
  cases formed with
  | atom => simp
  | statement _ subjectFormed predicateFormed _ =>
      intro component member
      rcases List.mem_cons.mp member with rfl | member
      · exact subjectFormed
      · rw [List.mem_singleton.mp member]
        exact predicateFormed
  | conjunction _ componentsFormed _ _ => exact componentsFormed

theorem Formed.ofPart (formed : Formed symbols term) (inside : PartOf part term) :
    Formed symbols part := by
  induction inside with
  | whole => exact formed
  | component member _ inductionHypothesis =>
      exact inductionHypothesis (formed.component _ member)

theorem Formed.normalForm (formed : Formed symbols term) : NormalForm symbols term := by
  cases formed with
  | atom object admissible =>
      constructor
      case atom => exact fun _ => by simpa using admissible
      case conjunction => simp [atom_isConjunction]
      case statement => simp [atom_copula?]
  | @statement object copula subject predicate _ _ joins =>
      constructor
      case atom => intro atomic; contradiction
      case conjunction => intro conjunction; contradiction
      case statement =>
        intro other same
        obtain rfl : copula = other := Option.some.inj same
        exact ⟨subject, predicate, rfl, joins, rfl⟩
  | conjunction object _ several increasing =>
      constructor
      case atom => intro atomic; contradiction
      case conjunction => exact fun _ => ⟨several, increasing, rfl⟩
      case statement => intro copula same; contradiction

/-- The sides of a formed statement. -/
theorem Formed.sides {copula : Copula} (formed : Formed symbols term)
    (hasCopula : term.copula? = some copula) :
    ∃ subject predicate,
      term.subject? = some subject ∧ term.predicate? = some predicate ∧
        term.components = [subject, predicate] ∧ Formed symbols subject ∧
        Formed symbols predicate ∧ Joins copula subject predicate ∧
        term.name = symbols.statementName copula subject.name predicate.name := by
  obtain ⟨subject, predicate, components, joins, named⟩ :=
    formed.normalForm.statement copula hasCopula
  have isStatement : term.isStatement = true := by simp [isStatement, hasCopula]
  have sidesFormed := formed.component
  rw [components, List.forall_mem_cons, List.forall_mem_singleton] at sidesFormed
  exact ⟨subject, predicate, by simp [subject?, isStatement, components],
    by simp [predicate?, isStatement, components], components, sidesFormed.1, sidesFormed.2, joins,
    named⟩

/-- A formed statement joins the sides that it is known to have. -/
theorem Formed.between {copula : Copula} {subject predicate : Term}
    (formed : Formed symbols term) (hasCopula : term.copula? = some copula)
    (isSubject : term.subject? = some subject) (isPredicate : term.predicate? = some predicate) :
    term.components = [subject, predicate] ∧ Formed symbols subject ∧
      Formed symbols predicate ∧ Joins copula subject predicate ∧
      term.name = symbols.statementName copula subject.name predicate.name := by
  obtain ⟨first, second, isFirst, isSecond, sides⟩ := formed.sides hasCopula
  obtain rfl := Option.some.inj (isSubject.symm.trans isFirst)
  obtain rfl := Option.some.inj (isPredicate.symm.trans isSecond)
  exact sides

/-! ## Objects do not matter -/

@[simp] theorem bare_isHigherOrder (term : Term) :
    term.bare.isHigherOrder = term.isHigherOrder := by
  cases term; rfl

@[simp] theorem bare_subject? (term : Term) : term.bare.subject? = term.subject?.map bare := by
  unfold subject? isStatement
  rw [bare_copula?, bare_components, List.getElem?_map]
  split <;> rfl

@[simp] theorem bare_predicate? (term : Term) :
    term.bare.predicate? = term.predicate?.map bare := by
  unfold predicate? isStatement
  rw [bare_copula?, bare_components, List.getElem?_map]
  split <;> rfl

/-- Terms of the same content have the same copula, if any, and sides of the same content. -/
theorem statement_of_bare_eq {left right : Term} (same : left.bare = right.bare) :
    left.copula? = right.copula? ∧ left.subject?.map bare = right.subject?.map bare ∧
      left.predicate?.map bare = right.predicate?.map bare := by
  rw [← bare_copula? left, ← bare_subject? left, ← bare_predicate? left, same]
  exact ⟨bare_copula? right, bare_subject? right, bare_predicate? right⟩

@[simp] theorem bare_sideNames? (term : Term) : term.bare.sideNames? = term.sideNames? := by
  unfold sideNames?
  rw [bare_subject?, bare_predicate?]
  cases term.subject? <;> cases term.predicate? <;> simp

/-- Whether a copula joins two sides does not depend on their objects. -/
theorem joins_bare {copula : Copula} {subject predicate : Term} :
    Joins copula subject.bare predicate.bare ↔ Joins copula subject predicate := by
  rw [joins_iff, joins_iff]
  simp

/-- Whether a term is formed does not depend on its objects. -/
theorem Formed.of_bare_eq (formed : Formed symbols term) :
    ∀ other : Term, other.bare = term.bare → Formed symbols other := by
  -- The other term has the shape of the formed one; only its components are to be shown.
  induction formed with
  | atom object admissible =>
      intro other same
      rw [eq_atom_of_bare_eq same]
      exact .atom _ admissible
  | @statement object copula subject predicate _ _ joins subjectOther predicateOther =>
      intro other same
      obtain ⟨shape, sameComponents⟩ := eq_compound_of_bare_eq same
      obtain ⟨otherSubject, rest, components, sameSubject, sameRest⟩ :=
        List.map_eq_cons_iff.mp sameComponents
      obtain ⟨otherPredicate, none, rfl, samePredicate, noRest⟩ :=
        List.map_eq_cons_iff.mp sameRest
      obtain rfl := List.map_eq_nil_iff.mp noRest
      have otherJoins : Joins copula otherSubject otherPredicate := by
        rw [← joins_bare, sameSubject, samePredicate, joins_bare]
        exact joins
      rw [shape, components, ← name_eq_of_bare_eq sameSubject, ← name_eq_of_bare_eq samePredicate]
      exact .statement _ (subjectOther _ sameSubject) (predicateOther _ samePredicate) otherJoins
  | @conjunction object parts _ several increasing componentsOther =>
      intro other same
      obtain ⟨shape, sameComponents⟩ := eq_compound_of_bare_eq same
      have sameNames : parts.map (·.name) = other.components.map (·.name) := by
        rw [← names_map_bare parts, ← sameComponents, names_map_bare]
      have sameLength : parts.length = other.components.length := by
        simpa using (congrArg List.length sameComponents).symm
      rw [shape, sameNames]
      rw [sameNames] at increasing
      rw [sameLength] at several
      refine .conjunction _ ?_ several increasing
      intro component member
      have image : component.bare ∈ parts.map bare := by
        rw [← sameComponents]
        exact List.mem_map_of_mem member
      obtain ⟨part, partMember, samePart⟩ := List.mem_map.mp image
      exact componentsOther part partMember component samePart.symm

/-- Copies of formed terms are formed. -/
theorem Formed.copy (formed : Formed symbols term) (free : ObjectId) :
    Formed symbols (term.copy free).1 :=
  formed.of_bare_eq _ (copy_bare free term)

end Term

end AttentiveReasoner.Language
