import AttentiveReasoner.Language.Term

/-!
Contract: the ways in which a construction or an inference can fail.

Owns: the causes and the message of each. A combination of components that makes
no term is not among them; it has no term as its result.
-/

namespace AttentiveReasoner.Language

/-- Why a step could not be carried out. -/
inductive Failure where
  /-- The registry lists a term of another form under the name. -/
  | kindMismatch (name : String) (expected found : TermKind)
  /-- Reducing a term took too many steps. -/
  | reductionTooDeep (name : String) (depth : Nat)
deriving DecidableEq, Repr

/-- What a failure reports. -/
def Failure.message : Failure → String
  | .kindMismatch name expected found =>
      "termo '" ++ name ++ "' deveria ser " ++ expected.label ++
        ", mas o registro contém " ++ found.label
  | .reductionTooDeep name depth =>
      "redução de '" ++ name ++ "' excedeu a profundidade máxima (" ++
        toString depth ++ ")"

end AttentiveReasoner.Language
