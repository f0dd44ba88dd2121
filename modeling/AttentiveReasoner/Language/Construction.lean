import AttentiveReasoner.Language.Registry
import AttentiveReasoner.Language.Symbols
import AttentiveReasoner.Text.Blank
import AttentiveReasoner.Text.Canonical

/-!
Contract: the construction of terms in canonical form.

Owns:
- atoms from written names;
- conjunctions: sorted by name, without repetitions, a single component standing
  for itself;
- statements: the pairs of sides a copula admits, the order of the sides of a
  symmetric copula, and the absorption of an implication that is the predicate of
  an implication;
- the use of the registry, so that a name that is held is not made again.

Does not own: the registry's entries and the symbols of the notation.

Every operation has three outcomes: a term, no term (a component is missing or
the components do not go together), or a failure of the registry. Each leaves a
registry behind. Operands are held while an operation runs; the caller says so.

Absorption turns `<s ==> <c ==> p>>` into an implication from the conjunction of
`s` and `c` to `p`. It forgets the temporal orders of both implications, and it
yields no term where `c` is a conjunction that has `s` as a component.
-/

namespace AttentiveReasoner.Language

/-- The result of a construction. -/
abbrev Outcome := Except Failure (Option Term)

namespace Construction

/-! ## Atoms -/

/-- The characters that the notation reserves; no atom's name has one. -/
def reserved : List Char :=
  ['<', '>', '(', ')', ',', ' ', '\t', '\n', '&', '|', '=']

/-- A written name without the white space around it, in composed canonical
form. -/
def atomName (written : String) : List Char :=
  Text.canonical (Text.trim written.toList)

/-- The name without the character that marks a variable. -/
def atomBody (name : List Char) : List Char :=
  match VariableKind.ofName? name with
  | some _ => name.tail
  | none => name

/-- Whether a name can be an atom's: something remains of it without the mark of
a variable, and that has no reserved character. -/
def isAtomName (name : List Char) : Bool :=
  let body := atomBody name
  !body.isEmpty && !body.any reserved.contains

/-- The word or variable of a written name. -/
def word
    (held : Held)
    (written : String)
    (registry : Registry) :
    Outcome × Registry :=
  let name := atomName written
  if isAtomName name then
    let interned :=
      registry.intern held (fun object => Term.atom object (String.ofList name))
    (interned.1.map some, interned.2)
  else
    (.ok none, registry)

/-! ## Conjunctions -/

/-- Put a term in front of terms with increasing names, at its place; it takes
the place of a term with the same name. -/
def insertByName (term : Term) : List Term → List Term
  | [] => [term]
  | first :: rest =>
      if term.name < first.name then term :: first :: rest
      else if term.name = first.name then term :: rest
      else first :: insertByName term rest

/-- The terms with increasing names; of terms with the same name the first one
remains. -/
def sortByName (terms : List Term) : List Term :=
  terms.foldr insertByName []

/-- The conjunction of a list of terms. None give no term, a single one stands
for itself. -/
def conjunctionOf
    (symbols : Symbols)
    (held : Held)
    (terms : List Term)
    (registry : Registry) :
    Outcome × Registry :=
  match sortByName terms with
  | [] => (.ok none, registry)
  | [term] => (.ok (some term), registry)
  | components =>
      let name := symbols.conjunctionName (components.map (·.name))
      match registry.lookup held name .conjunction with
      | (.error failure, registry) => (.error failure, registry)
      | (.ok (some existing), registry) => (.ok (some existing), registry)
      | (.ok none, registry) =>
          let interned :=
            registry.intern held
              (fun object => Term.compound object name .conjunction components)
          (interned.1.map some, interned.2)

/-- What a term contributes to a conjunction: its components if it is one, else
itself. -/
def conjuncts (term : Term) : List Term :=
  if term.isConjunction then term.components else [term]

/-- The conjunction of two terms. -/
def conjunction
    (symbols : Symbols)
    (held : Held)
    (left right : Option Term)
    (registry : Registry) :
    Outcome × Registry :=
  match left, right with
  | some left, some right =>
      conjunctionOf symbols held (conjuncts left ++ conjuncts right) registry
  | _, _ => (.ok none, registry)

/-! ## Statements -/

/-- Whether a copula admits the forms of two sides. The subject of an implication
is neither an implication nor an equivalence, its predicate is no equivalence; an
equivalence has neither on either side. -/
def admits (copula : Copula) (subject predicate : Term) : Bool :=
  match copula with
  | .implication _ => !subject.isHigherOrder && !predicate.isEquivalence
  | .equivalence => !subject.isHigherOrder && !predicate.isHigherOrder
  | .inheritance | .similarity => true

/-- Whether a compound side has the other side as a component. -/
def encloses (container component : Term) : Bool :=
  !container.isAtomic && container.hasComponent component

/-- Whether two statements have each other's sides exchanged. -/
def areConverse (left right : Term) : Bool :=
  match left.subject?, left.predicate?, right.subject?, right.predicate? with
  | some leftSubject, some leftPredicate, some rightSubject, some rightPredicate =>
      leftSubject.name = rightPredicate.name && leftPredicate.name = rightSubject.name
  | _, _, _, _ => false

/-- Whether two sides make no statement under any copula: they are equal, or both
variables, or one encloses the other, or they are converse statements. -/
def areDegenerate (subject predicate : Term) : Bool :=
  subject.name = predicate.name ||
    (subject.isVariable && predicate.isVariable) ||
    encloses subject predicate ||
    encloses predicate subject ||
    areConverse subject predicate

/-- The sides of a statement: in the order of their names if the copula is
symmetric, else as they are. -/
def orderSides (copula : Copula) (subject predicate : Term) : Term × Term :=
  if copula.isSymmetric && predicate.name < subject.name then
    (predicate, subject)
  else
    (subject, predicate)

/-- How many implications a single construction may absorb. -/
def absorptionLimit : Nat := 64

/-- A statement, absorbing at most `steps` implications. -/
def statementWithin
    (symbols : Symbols)
    (steps : Nat)
    (held : Held)
    (copula : Copula)
    (subject predicate : Option Term)
    (registry : Registry) :
    Outcome × Registry :=
  match subject, predicate with
  | some subject, some predicate =>
      if !admits copula subject predicate || areDegenerate subject predicate then
        (.ok none, registry)
      else
        let sides := orderSides copula subject predicate
        let name := symbols.statementName copula sides.1.name sides.2.name
        match registry.lookup held name (.statement copula) with
        | (.error failure, registry) => (.error failure, registry)
        | (.ok (some existing), registry) => (.ok (some existing), registry)
        | (.ok none, registry) =>
            if copula.isImplication && sides.2.isImplication then
              match steps with
              | 0 =>
                  (.error (.reductionTooDeep sides.2.name absorptionLimit), registry)
              | steps + 1 =>
                  match sides.2.subject?, sides.2.predicate? with
                  | some condition, some consequent =>
                      if condition.isConjunction && condition.hasComponent sides.1 then
                        (.ok none, registry)
                      else
                        match conjunction symbols held sides.1 condition registry with
                        | (.error failure, registry) => (.error failure, registry)
                        | (.ok joined, registry) =>
                            statementWithin symbols steps
                              (held.withTerms joined.toList)
                              (.implication .eternal) joined consequent registry
                  | _, _ => (.ok none, registry)
            else
              let interned :=
                registry.intern held (fun object =>
                  Term.compound object name (.statement copula) [sides.1, sides.2])
              (interned.1.map some, interned.2)
  | _, _ => (.ok none, registry)

/-- The statement with a copula between two sides. -/
def statement
    (symbols : Symbols)
    (held : Held)
    (copula : Copula)
    (subject predicate : Option Term)
    (registry : Registry) :
    Outcome × Registry :=
  statementWithin symbols absorptionLimit held copula subject predicate registry

end Construction

end AttentiveReasoner.Language
