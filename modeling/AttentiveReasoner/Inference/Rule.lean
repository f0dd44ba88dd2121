import AttentiveReasoner.Memory.Basic

/-!
Contract: rules of inference, as a memory applies them.

Owns: the form of a rule, and the rule that derives nothing.

Does not own: any particular inference. A rule is given the memory while the
concept it is applied to is out of its bag, and may change the memory; it derives
tasks or fails.
-/

namespace AttentiveReasoner.Inference

open AttentiveReasoner.Evidence
open AttentiveReasoner.Knowledge
open AttentiveReasoner.Language

/-- A rule: from a memory, what is held outside of it, a concept and one of its
tasks to the derived tasks, in their order, and the memory afterwards. -/
abbrev Rule :=
  Memory → Held → Concept → Task → Except Failure (List Task) × Memory

/-- The rule that derives nothing. -/
def noRule : Rule :=
  fun memory _ _ _ => (.ok [], memory)

end AttentiveReasoner.Inference
