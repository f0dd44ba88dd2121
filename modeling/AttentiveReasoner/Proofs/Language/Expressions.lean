import AttentiveReasoner.Proofs.Language.Contents
import Mathlib.Data.List.Forall2

/-!
Contract: nested expressions, and what their values depend on.

Owns:
- expressions over the constructions, with missing operands, and with terms and copies
  as far as they are allowed;
- their evaluation on a registry, the operands from left to right;
- the meaning of an expression, which no registry enters;
- that a registry with a history, and copies of operands, make no difference to the
  value of a closed expression under the usual symbols.

Does not own: which object a value is. A registry decides that.

Every operand is held until the expression around it is evaluated. Whatever else is
held, and whatever the registry lists, evaluation yields the meaning.
-/

namespace AttentiveReasoner.Language

/-- An expression over the constructions. It may have terms as operands where it is over terms, and
copies of what it consists of where it is with copies. -/
inductive Expression (overTerms withCopies : Bool) where
  | operand (allowed : overTerms = true) (term : Term)
  | missing
  | word (written : String)
  | statement (copula : Copula) (subject predicate : Expression overTerms withCopies)
  | conjunction (left right : Expression overTerms withCopies)
  | conjunctionFrom (members : List (Expression overTerms withCopies))
  | copy (allowed : withCopies = true) (copied : Expression overTerms withCopies)

/-- An expression over no terms, with copies. -/
abbrev ClosedExpression := Expression false true

namespace Expression

open Construction

variable {overTerms withCopies : Bool}

/-! ## Evaluation -/

/-- Go on from a result and the registry it leaves; a failure ends the evaluation. -/
def andThen {Value Next : Type}
    (evaluated : Except Failure Value × Registry)
    (next : Value → Registry → Except Failure Next × Registry) :
    Except Failure Next × Registry :=
  match evaluated with
  | (.error failure, registry) => (.error failure, registry)
  | (.ok value, registry) => next value registry

theorem andThen_ok {Value Next : Type} (value : Value) (registry : Registry)
    (next : Value → Registry → Except Failure Next × Registry) :
    andThen (.ok value, registry) next = next value registry :=
  rfl

mutual

/-- The terms that an expression is over. -/
def operands : Expression overTerms withCopies → List Term
  | .operand _ term => [term]
  | .missing | .word _ => []
  | .statement _ subject predicate => subject.operands ++ predicate.operands
  | .conjunction left right => left.operands ++ right.operands
  | .conjunctionFrom members => operandsOf members
  | .copy _ copied => copied.operands

/-- The terms that expressions are over. -/
def operandsOf : List (Expression overTerms withCopies) → List Term
  | [] => []
  | expression :: rest => expression.operands ++ operandsOf rest

end

mutual

/-- The value of an expression on a registry. Values are held until the expression around
them has its own. -/
def evaluate (symbols : Symbols) (held : Held) :
    Expression overTerms withCopies → Registry → Outcome × Registry
  | .operand _ term, registry => (.ok (some term), registry)
  | .missing, registry => (.ok none, registry)
  | .word written, registry => Construction.word held written registry
  | .statement copula subject predicate, registry =>
      andThen (subject.evaluate symbols held registry) fun left registry =>
        andThen (predicate.evaluate symbols (held.withTerms left.toList) registry)
          fun right registry =>
            Construction.statement symbols
              ((held.withTerms left.toList).withTerms right.toList) copula left right registry
  | .conjunction left right, registry =>
      andThen (left.evaluate symbols held registry) fun left registry =>
        andThen (right.evaluate symbols (held.withTerms left.toList) registry)
          fun right registry =>
            Construction.conjunction symbols
              ((held.withTerms left.toList).withTerms right.toList) left right registry
  | .conjunctionFrom members, registry =>
      andThen (evaluateAll symbols held members registry) fun values registry =>
        match values.mapM id with
        | some terms => conjunctionOf symbols (held.withTerms terms) terms registry
        | none => (.ok none, registry)
  | .copy _ copied, registry =>
      andThen (copied.evaluate symbols held registry) fun value registry =>
        match value with
        | some term =>
            let copied := registry.copy term
            (.ok (some copied.1), copied.2)
        | none => (.ok none, registry)

/-- The values of expressions one after the other. -/
def evaluateAll (symbols : Symbols) (held : Held) :
    List (Expression overTerms withCopies) → Registry →
      Except Failure (List (Option Term)) × Registry
  | [], registry => (.ok [], registry)
  | expression :: rest, registry =>
      andThen (expression.evaluate symbols held registry) fun value registry =>
        andThen (evaluateAll symbols (held.withTerms value.toList) rest registry)
          fun values registry => (.ok (value :: values), registry)

end

mutual

/-- The expression with what was copied in place of every copy. -/
def withoutCopies : Expression overTerms withCopies → Expression overTerms false
  | .operand allowed term => .operand allowed term
  | .missing => .missing
  | .word written => .word written
  | .statement copula subject predicate =>
      .statement copula subject.withoutCopies predicate.withoutCopies
  | .conjunction left right => .conjunction left.withoutCopies right.withoutCopies
  | .conjunctionFrom members => .conjunctionFrom (withoutCopiesAll members)
  | .copy _ copied => copied.withoutCopies

/-- The expressions with what was copied in place of every copy. -/
def withoutCopiesAll :
    List (Expression overTerms withCopies) → List (Expression overTerms false)
  | [] => []
  | expression :: rest => expression.withoutCopies :: withoutCopiesAll rest

end

/-! ## Meaning -/

mutual

/-- The meaning of an expression: its operands, and the contents of its constructions. -/
def meaning : Expression overTerms withCopies → Option Term
  | .operand _ term => some term
  | .missing => none
  | .word written => wordContent written
  | .statement copula subject predicate =>
      subject.meaning.bind fun subject =>
        predicate.meaning.bind fun predicate => statementContent copula subject predicate
  | .conjunction left right =>
      left.meaning.bind fun left =>
        right.meaning.bind fun right => conjunctionContent (conjuncts left ++ conjuncts right)
  | .conjunctionFrom members =>
      ((meanings members).mapM id).bind conjunctionContent
  | .copy _ copied => copied.meaning

/-- The meanings of expressions. -/
def meanings : List (Expression overTerms withCopies) → List (Option Term)
  | [] => []
  | expression :: rest => expression.meaning :: meanings rest

end

mutual

/-- Copies do not enter the meaning. -/
theorem withoutCopies_meaning : ∀ expression : Expression overTerms withCopies,
    expression.withoutCopies.meaning = expression.meaning
  | .operand _ term => rfl
  | .missing => rfl
  | .word written => rfl
  | .statement copula subject predicate => by
      simp only [withoutCopies, meaning, withoutCopies_meaning subject,
        withoutCopies_meaning predicate]
  | .conjunction left right => by
      simp only [withoutCopies, meaning, withoutCopies_meaning left, withoutCopies_meaning right]
  | .conjunctionFrom members => by
      simp only [withoutCopies, meaning, withoutCopies_meanings members]
  | .copy _ copied => by
      simp only [withoutCopies, meaning, withoutCopies_meaning copied]

theorem withoutCopies_meanings : ∀ expressions : List (Expression overTerms withCopies),
    meanings (withoutCopiesAll expressions) = meanings expressions
  | [] => rfl
  | expression :: rest => by
      simp only [withoutCopiesAll, meanings, withoutCopies_meaning expression,
        withoutCopies_meanings rest]

end

/-! ## Evaluation yields the meaning -/

/-- A value has a given content, and is formed. -/
structure Fits (content value : Option Term) : Prop where
  content : value.map Term.bare = content.map Term.bare
  formed : ∀ term ∈ value, term.Formed .usual

theorem fits_self {term : Term} (formed : term.Formed .usual) : Fits (some term) (some term) :=
  ⟨rfl, fun _ same => Option.some.inj same ▸ formed⟩

/-- An evaluation has a value as expected, and leaves formed entries. -/
def Returns {Value : Type}
    (evaluated : Except Failure Value × Registry)
    (expected : Value → Prop) : Prop :=
  ∃ value registry,
    evaluated = (.ok value, registry) ∧ registry.Formed .usual ∧ expected value

theorem Returns.andThen {Value Next : Type} {evaluated : Except Failure Value × Registry}
    {next : Value → Registry → Except Failure Next × Registry}
    {expected : Value → Prop} {nextExpected : Next → Prop}
    (returns : Returns evaluated expected)
    (nextReturns : ∀ value (registry : Registry), registry.Formed .usual → expected value →
      Returns (next value registry) nextExpected) :
    Returns (Expression.andThen evaluated next) nextExpected := by
  obtain ⟨value, registry, rfl, formed, fits⟩ := returns
  exact nextReturns value registry formed fits

theorem returns_of_yields {result : Outcome × Registry} {content : Option Term}
    (forms : Forms .usual result) (yields : Yields result content) :
    Returns result (Fits content) := by
  obtain ⟨made, outcome, sameContent⟩ := yields
  refine ⟨made, result.2, Prod.ext outcome rfl, forms.registry, sameContent, ?_⟩
  intro term isMade
  obtain rfl := isMade
  exact forms.term term outcome

theorem returns_missing {registry : Registry} (formed : registry.Formed .usual) :
    Returns (.ok none, registry) (Fits none) :=
  ⟨none, registry, rfl, formed, rfl, fun _ none => nomatch none⟩

/-- A construction from two operands has the value that its contents have, if it has
none without both operands. -/
theorem binary_returns {result : Outcome × Registry} {combine : Term → Term → Option Term}
    {left right leftContent rightContent : Option Term}
    (leftFits : Fits leftContent left) (rightFits : Fits rightContent right)
    (forms : Forms .usual result)
    (missing : left = none ∨ right = none → Yields result none)
    (both : ∀ first second, left = some first → right = some second →
      Yields result (combine first second))
    (congr : ∀ {first second otherFirst otherSecond : Term},
      first.bare = otherFirst.bare → second.bare = otherSecond.bare →
        (combine first second).map Term.bare = (combine otherFirst otherSecond).map Term.bare) :
    Returns result (Fits (leftContent.bind fun first => rightContent.bind (combine first))) := by
  refine returns_of_yields forms ?_
  rcases left with _ | first
  · obtain rfl := Option.map_eq_none_iff.mp leftFits.content.symm
    exact missing (.inl rfl)
  rcases right with _ | second
  · obtain rfl := Option.map_eq_none_iff.mp rightFits.content.symm
    cases leftContent <;> exact missing (.inr rfl)
  obtain ⟨firstContent, rfl, sameFirst⟩ := Option.map_eq_some_iff.mp leftFits.content.symm
  obtain ⟨secondContent, rfl, sameSecond⟩ := Option.map_eq_some_iff.mp rightFits.content.symm
  exact (both first second rfl rfl).congr (congr sameFirst.symm sameSecond.symm)

theorem statement_returns {held : Held} {registry : Registry} {copula : Copula}
    {left right leftContent rightContent : Option Term}
    (formed : registry.Formed .usual)
    (leftFits : Fits leftContent left) (rightFits : Fits rightContent right) :
    Returns (Construction.statement .usual held copula left right registry)
      (Fits (leftContent.bind fun subject =>
        rightContent.bind fun predicate => statementContent copula subject predicate)) := by
  refine binary_returns leftFits rightFits
    (statement_forms formed leftFits.formed rightFits.formed) ?_ ?_ statementContent_congr
  · intro missing
    rw [Construction.statement, statementWithin_missing missing]
    exact yields_none registry
  · rintro subject predicate rfl rfl
    exact statement_yields formed (leftFits.formed _ rfl) (rightFits.formed _ rfl)

theorem conjunction_returns {held : Held} {registry : Registry}
    {left right leftContent rightContent : Option Term}
    (formed : registry.Formed .usual)
    (leftFits : Fits leftContent left) (rightFits : Fits rightContent right) :
    Returns (Construction.conjunction .usual held left right registry)
      (Fits (leftContent.bind fun left =>
        rightContent.bind fun right =>
          conjunctionContent (conjuncts left ++ conjuncts right))) := by
  refine binary_returns leftFits rightFits
    (conjunction_forms formed leftFits.formed rightFits.formed) ?_ ?_ ?_
  · rintro (rfl | rfl)
    · exact yields_none registry
    · cases left <;> exact yields_none registry
  · rintro left right rfl rfl
    exact conjunction_yields formed (leftFits.formed _ rfl) (rightFits.formed _ rfl)
  · intro left right otherLeft otherRight sameLeft sameRight
    refine conjunctionContent_congr ?_
    rw [List.map_append, List.map_append, ← conjuncts_bare, ← conjuncts_bare, ← conjuncts_bare,
      ← conjuncts_bare, sameLeft, sameRight]

/-- Either some value is missing, and its content too, or all are terms of the
contents. -/
theorem members_fit {contents values : List (Option Term)}
    (fit : List.Forall₂ Fits contents values) :
    (values.mapM id = none ∧ contents.mapM id = none) ∨
      ∃ terms given,
        values.mapM id = some terms ∧ contents.mapM id = some given ∧
          terms.map Term.bare = given.map Term.bare ∧ ∀ term ∈ terms, term.Formed .usual := by
  induction fit with
  | nil => exact .inr ⟨[], [], rfl, rfl, rfl, fun _ member => nomatch member⟩
  | @cons content value contents values fits _ inductionHypothesis =>
      rcases value with _ | term
      · obtain rfl := Option.map_eq_none_iff.mp fits.content.symm
        exact .inl ⟨by simp, by simp⟩
      obtain ⟨content, rfl, sameContent⟩ := Option.map_eq_some_iff.mp fits.content.symm
      rcases inductionHypothesis with ⟨missing, contentMissing⟩ |
        ⟨terms, given, found, contentsFound, sameContents, termsFormed⟩
      · exact .inl ⟨by simp [missing], by simp [contentMissing]⟩
      · refine .inr ⟨term :: terms, content :: given, by simp [found], by simp [contentsFound],
          by simp [sameContent, sameContents], ?_⟩
        intro other member
        rcases List.mem_cons.mp member with rfl | member
        · exact fits.formed _ rfl
        · exact termsFormed other member

mutual

/-- On formed entries an expression over formed terms has the value that it means. -/
theorem evaluate_returns :
    ∀ (expression : Expression overTerms withCopies) (held : Held) (registry : Registry),
      (∀ operand ∈ expression.operands, operand.Formed .usual) → registry.Formed .usual →
        Returns (expression.evaluate .usual held registry) (Fits expression.meaning)
  | .operand _ term, held, registry, given, formed =>
      ⟨some term, registry, rfl, formed, fits_self (given term List.mem_cons_self)⟩
  | .missing, held, registry, _, formed => returns_missing formed
  | .word written, held, registry, _, formed =>
      returns_of_yields (word_forms written formed) (word_yields written formed)
  | .statement copula subject predicate, held, registry, given, formed => by
      rw [operands, List.forall_mem_append] at given
      rw [evaluate, meaning]
      refine (evaluate_returns subject held registry given.1 formed).andThen ?_
      intro left leftRegistry leftFormed leftFits
      refine (evaluate_returns predicate _ leftRegistry given.2 leftFormed).andThen ?_
      intro right rightRegistry rightFormed rightFits
      exact statement_returns rightFormed leftFits rightFits
  | .conjunction left right, held, registry, given, formed => by
      rw [operands, List.forall_mem_append] at given
      rw [evaluate, meaning]
      refine (evaluate_returns left held registry given.1 formed).andThen ?_
      intro left leftRegistry leftFormed leftFits
      refine (evaluate_returns right _ leftRegistry given.2 leftFormed).andThen ?_
      intro right rightRegistry rightFormed rightFits
      exact conjunction_returns rightFormed leftFits rightFits
  | .conjunctionFrom members, held, registry, given, formed => by
      rw [evaluate, meaning]
      refine (evaluateAll_returns members held registry given formed).andThen ?_
      intro values valuesRegistry valuesFormed fit
      rcases members_fit fit with ⟨missing, contentMissing⟩ |
        ⟨terms, given, found, contentsFound, sameContents, termsFormed⟩
      · rw [missing, contentMissing]
        exact returns_missing valuesFormed
      · rw [found, contentsFound]
        exact returns_of_yields (conjunctionOf_forms valuesFormed termsFormed)
          ((conjunctionOf_yields valuesFormed termsFormed).congr
            (conjunctionContent_congr sameContents))
  | .copy _ copied, held, registry, given, formed => by
      rw [evaluate, meaning]
      refine (evaluate_returns copied held registry given formed).andThen ?_
      intro value valueRegistry valueFormed fits
      rcases value with _ | term
      · obtain none := Option.map_eq_none_iff.mp fits.content.symm
        rw [none]
        exact returns_missing valueFormed
      · refine ⟨_, _, rfl, valueFormed, ?_, ?_⟩
        · rw [← fits.content]
          exact congrArg some (Term.copy_bare _ term)
        · intro other same
          obtain rfl := Option.some.inj same
          exact (fits.formed term rfl).copy _

theorem evaluateAll_returns :
    ∀ (expressions : List (Expression overTerms withCopies)) (held : Held)
      (registry : Registry),
      (∀ operand ∈ operandsOf expressions, operand.Formed .usual) → registry.Formed .usual →
        Returns (evaluateAll .usual held expressions registry)
          (List.Forall₂ Fits (meanings expressions))
  | [], held, registry, _, formed => ⟨[], registry, rfl, formed, .nil⟩
  | expression :: rest, held, registry, given, formed => by
      rw [operandsOf, List.forall_mem_append] at given
      rw [evaluateAll, meanings]
      refine (evaluate_returns expression held registry given.1 formed).andThen ?_
      intro value valueRegistry valueFormed fits
      refine (evaluateAll_returns rest _ valueRegistry given.2 valueFormed).andThen ?_
      intro values valuesRegistry valuesFormed fit
      exact ⟨_, _, rfl, valuesFormed, .cons fits fit⟩

end

mutual

theorem operands_closed : ∀ expression : Expression false withCopies, expression.operands = []
  | .missing | .word _ => rfl
  | .statement _ subject predicate => by
      rw [operands, operands_closed subject, operands_closed predicate]
      rfl
  | .conjunction left right => by
      rw [operands, operands_closed left, operands_closed right]
      rfl
  | .conjunctionFrom members => operandsOf_closed members
  | .copy _ copied => operands_closed copied

theorem operandsOf_closed : ∀ expressions : List (Expression false withCopies),
    operandsOf expressions = []
  | [] => rfl
  | expression :: rest => by
      rw [operandsOf, operands_closed expression, operandsOf_closed rest]
      rfl

end

/-- Over no terms, nothing is asked of the operands. -/
theorem closed_returns (expression : Expression false withCopies) (held : Held)
    (registry : Registry) (formed : registry.Formed .usual) :
    Returns (expression.evaluate .usual held registry) (Fits expression.meaning) := by
  refine evaluate_returns expression held registry ?_ formed
  rw [operands_closed]
  exact fun _ member => nomatch member

/-- After any requests an expression has a value, and it has the content of the value
on an empty registry, also if operands are copies on one side and not on the other. -/
theorem evaluate_bare_eq (requests : List Request) {expression other : ClosedExpression}
    (same : expression.withoutCopies = other.withoutCopies) :
    ∃ value otherValue : Option Term,
      (expression.evaluate .usual (Session.of .usual requests).held
          (Session.of .usual requests).registry).1 = .ok value ∧
        (other.evaluate .usual Held.nothing {}).1 = .ok otherValue ∧
        value.map Term.bare = otherValue.map Term.bare := by
  obtain ⟨value, _, evaluated, _, fits⟩ :=
    expression.closed_returns (Session.of .usual requests).held
      (Session.of .usual requests).registry (Session.of_formed .usual requests).registry
  obtain ⟨otherValue, _, otherEvaluated, _, otherFits⟩ :=
    other.closed_returns Held.nothing {} (Session.of_formed .usual []).registry
  have sameMeaning : expression.meaning = other.meaning := by
    rw [← withoutCopies_meaning, same, withoutCopies_meaning]
  refine ⟨value, otherValue, by rw [evaluated], by rw [otherEvaluated], ?_⟩
  rw [fits.content, otherFits.content, sameMeaning]

/-- The implication from a subject to `<b ==> c>`. -/
def toImplication (subject : ClosedExpression) : ClosedExpression :=
  .statement (.implication .eternal) subject
    (.statement (.implication .eternal) (.word "b") (.word "c"))

/-- A copied subject, after the absorbed implication was made, dropped and purged. -/
theorem copied_evaluate_bare_eq :
    ∃ value otherValue : Option Term,
      ((toImplication (.copy rfl (.word "a"))).evaluate .usual
          (Session.of .usual (Session.absorbingRequests ++ [.drop 4, .purge])).held
          (Session.of .usual (Session.absorbingRequests ++ [.drop 4, .purge])).registry).1 =
          .ok value ∧
        ((toImplication (.word "a")).evaluate .usual Held.nothing {}).1 = .ok otherValue ∧
        value.map Term.bare = otherValue.map Term.bare :=
  evaluate_bare_eq _ rfl

end Expression

end AttentiveReasoner.Language
