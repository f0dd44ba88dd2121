/-!
Contract: the relations that join a subject and a predicate.

Owns: the copulas, the temporal orders of implication, and the two properties of
a copula that construction depends on.

Does not own: the symbols that write a copula.
-/

namespace AttentiveReasoner.Language

/-- When the predicate of an implication happens, as seen from its subject. -/
inductive TemporalOrder where
  | eternal
  | forward
  | concurrent
  | backward
deriving DecidableEq, Repr

/-- The relation between the subject and the predicate of a statement. The
temporal order of an implication belongs to its identity. -/
inductive Copula where
  | inheritance
  | similarity
  | implication (order : TemporalOrder)
  | equivalence
deriving DecidableEq, Repr

namespace Copula

/-- Whether subject and predicate may be exchanged. -/
def isSymmetric : Copula → Bool
  | .similarity | .equivalence => true
  | .inheritance | .implication _ => false

/-- Whether the copula relates statements as wholes. -/
def isHigherOrder : Copula → Bool
  | .implication _ | .equivalence => true
  | .inheritance | .similarity => false

/-- Whether the copula is an implication, of whatever order. -/
def isImplication : Copula → Bool
  | .implication _ => true
  | .inheritance | .similarity | .equivalence => false

/-- The name of a copula in messages; it does not tell temporal orders apart. -/
def label : Copula → String
  | .inheritance => "Inheritance"
  | .similarity => "Similarity"
  | .implication _ => "Implication"
  | .equivalence => "Equivalence"

end Copula

end AttentiveReasoner.Language
