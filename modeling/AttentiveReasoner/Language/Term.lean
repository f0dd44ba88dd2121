import AttentiveReasoner.Language.Copula
import Std.Data.HashSet

/-!
Contract: terms, the expressions of the language.

Owns:
- atoms and compounds with their canonical names;
- the object identity of a term, which tells two equal terms apart;
- complexity and constancy, fixed when a term is made;
- the objects that a term consists of, and the copy of a term in new objects.

Does not own: canonical names of compounds, the admissible combinations of
components, or which terms are registered.

Two terms mean the same when their names agree. Their object numbers tell whether
they were made by the same act of construction; a component keeps its number in
every compound it occurs in.
-/

namespace AttentiveReasoner.Language

/-- The number of an act of construction. -/
abbrev ObjectId := Nat

/-- The kinds of variables, told apart by the first character of the name. -/
inductive VariableKind where
  | independent
  | dependent
  | query
deriving DecidableEq, Repr

/-- The variable kind that a name's first character marks, if it marks one. -/
def VariableKind.ofName? (name : List Char) : Option VariableKind :=
  match name with
  | '$' :: _ => some .independent
  | '#' :: _ => some .dependent
  | '?' :: _ => some .query
  | _ => none

/-- The form of a term. -/
inductive TermKind where
  | word
  | variable (kind : VariableKind)
  | statement (copula : Copula)
  | conjunction
deriving DecidableEq, Repr

/-- The name of a form in messages. -/
def TermKind.label : TermKind → String
  | .word => "Word"
  | .variable _ => "Variable"
  | .statement copula => copula.label
  | .conjunction => "Conjunction"

/-- A term: an atom without components, a statement with a subject and a
predicate, or a conjunction. -/
structure Term where
  object : ObjectId
  name : String
  kind : TermKind
  components : List Term
  complexity : Nat
  constant : Bool

namespace Term

/-- The largest complexity; a larger term has this one. -/
def complexityLimit : Nat := 65535

/-- An atom: a variable if the name is marked as one, else a word. -/
def atom (object : ObjectId) (name : String) : Term :=
  match VariableKind.ofName? name.toList with
  | some kind => ⟨object, name, .variable kind, [], 1, false⟩
  | none => ⟨object, name, .word, [], 1, true⟩

/-- A compound. Its complexity is one more than those of its components
together, up to the limit; it is constant if every component is. -/
def compound
    (object : ObjectId)
    (name : String)
    (kind : TermKind)
    (components : List Term) :
    Term where
  object := object
  name := name
  kind := kind
  components := components
  complexity :=
    components.foldl
      (fun total component => min (total + component.complexity) complexityLimit) 1
  constant := components.all (·.constant)

/-! ## Form -/

/-- Whether a term has no components by its form. -/
def isAtomic (term : Term) : Bool :=
  match term.kind with
  | .word | .variable _ => true
  | .statement _ | .conjunction => false

/-- Whether a term is a variable. -/
def isVariable (term : Term) : Bool :=
  match term.kind with
  | .variable _ => true
  | .word | .statement _ | .conjunction => false

/-- The copula of a statement. -/
def copula? (term : Term) : Option Copula :=
  match term.kind with
  | .statement copula => some copula
  | .word | .variable _ | .conjunction => none

/-- Whether a term is a statement. -/
def isStatement (term : Term) : Bool :=
  term.copula?.isSome

/-- Whether a term is an implication, of whatever temporal order. -/
def isImplication (term : Term) : Bool :=
  term.copula?.any Copula.isImplication

/-- Whether a term is an equivalence. -/
def isEquivalence (term : Term) : Bool :=
  term.copula? = some .equivalence

/-- Whether a term is a conjunction. -/
def isConjunction (term : Term) : Bool :=
  term.kind = .conjunction

/-- Whether a term is an implication or an equivalence. -/
def isHigherOrder (term : Term) : Bool :=
  term.copula?.any Copula.isHigherOrder

/-! ## Parts -/

/-- The subject of a statement. -/
def subject? (term : Term) : Option Term :=
  if term.isStatement then term.components[0]? else none

/-- The predicate of a statement. -/
def predicate? (term : Term) : Option Term :=
  if term.isStatement then term.components[1]? else none

/-- Whether a term has a component of the other term's name. Components of
components do not count. -/
def hasComponent (term component : Term) : Bool :=
  term.components.any (·.name = component.name)

/-! ## Objects -/

mutual

/-- The objects a term consists of: its own and those of its components, of
their components, and so on. -/
def objects : Term → List ObjectId
  | ⟨object, _, _, components, _, _⟩ => object :: objectsOf components

/-- The objects of a list of terms. -/
def objectsOf : List Term → List ObjectId
  | [] => []
  | term :: rest => term.objects ++ objectsOf rest

end

mutual

/-- Whether an object is among those a term consists of. -/
def consistsOf (object : ObjectId) : Term → Bool
  | ⟨own, _, _, components, _, _⟩ => own == object || anyConsistsOf object components

/-- Whether an object is among those of a list of terms. -/
def anyConsistsOf (object : ObjectId) : List Term → Bool
  | [] => false
  | term :: rest => term.consistsOf object || anyConsistsOf object rest

end

mutual

/-- A set of objects with those of a term added. The components of an object that
is in the set already have been added with it. -/
def gather (objects : Std.HashSet ObjectId) : Term → Std.HashSet ObjectId
  | ⟨object, _, _, components, _, _⟩ =>
      if objects.contains object then objects
      else gatherAll (objects.insert object) components

/-- A set of objects with those of a list of terms added. -/
def gatherAll (objects : Std.HashSet ObjectId) : List Term → Std.HashSet ObjectId
  | [] => objects
  | term :: rest => gatherAll (term.gather objects) rest

end

mutual

/-- A copy of a term in new objects, numbered from the given one on, and the
next number that is free. -/
def copy (free : ObjectId) : Term → Term × ObjectId
  | ⟨_, name, kind, components, complexity, constant⟩ =>
      let copied := copyAll (free + 1) components
      (⟨free, name, kind, copied.1, complexity, constant⟩, copied.2)

/-- Copies of a list of terms in new objects, and the next free number. -/
def copyAll (free : ObjectId) : List Term → List Term × ObjectId
  | [] => ([], free)
  | term :: rest =>
      let first := term.copy free
      let others := copyAll first.2 rest
      (first.1 :: others.1, others.2)

end

end Term

end AttentiveReasoner.Language
