import AttentiveReasoner.Proofs.Language.Sessions

/-!
Contract: what a term says about its tree.

Owns:
- the nodes of a tree, each counted as often as it occurs;
- that the complexity of a constructed term is the number of nodes of its tree, up to the
  largest complexity there is, and that it is constant exactly if no node is a variable;
- that this holds of every answer, of its parts, and of their copies.

Does not own: how large the names of such terms are, or whether objects are shared. The tree of
a term with shared components may have many more nodes than the term has objects.

A complexity is a sum of complexities, each of them cut off at the limit, and the sum is cut off
after every summand. Cutting off at the end is enough, because a summand that was cut off takes
every sum to the limit.
-/

namespace AttentiveReasoner.Language

namespace Term

/-! ## Nodes -/

mutual

/-- The forms of the nodes of a tree, the root first. -/
def Tree.forms : Tree → List TermKind
  | .node kind _ components => kind :: formsOf components

/-- The forms of the nodes of trees. -/
def Tree.formsOf : List Tree → List TermKind
  | [] => []
  | tree :: rest => tree.forms ++ formsOf rest

end

theorem Tree.formsOf_eq_flatMap (trees : List Tree) : Tree.formsOf trees = trees.flatMap forms := by
  induction trees with
  | nil => rfl
  | cons tree rest inductionHypothesis =>
      rw [Tree.formsOf, inductionHypothesis, List.flatMap_cons]

/-- A term is a node, and its components have the others. -/
theorem forms_tree (term : Term) :
    term.tree.forms = term.kind :: term.components.flatMap (·.tree.forms) := by
  rw [tree_eq, Tree.forms, Tree.formsOf_eq_flatMap, List.flatMap_map]

/-- A term knows the size of its tree, up to the limit, and whether there is a variable in it. -/
structure Measured (term : Term) : Prop where
  complexity_eq : term.complexity = min 65535 term.tree.forms.length
  constant_iff : term.constant = true ↔
    ∀ form ∈ term.tree.forms, ∀ kind, form ≠ .variable kind

/-- Adding up to the limit summand by summand is adding and cutting off at the end. -/
theorem foldl_complexity {components : List Term}
    (measured : ∀ component ∈ components, Measured component) (total : Nat) :
    components.foldl (fun total component => min (total + component.complexity) complexityLimit)
        (min complexityLimit total) =
      min complexityLimit (total + (components.flatMap (·.tree.forms)).length) := by
  induction components generalizing total with
  | nil => simp
  | cons component rest inductionHypothesis =>
      rw [List.forall_mem_cons] at measured
      have next : min (min complexityLimit total + component.complexity) complexityLimit =
          min complexityLimit (total + component.tree.forms.length) := by
        rw [measured.1.complexity_eq, complexityLimit]
        omega
      rw [List.foldl_cons, next, inductionHypothesis measured.2, List.flatMap_cons,
        List.length_append, Nat.add_assoc]

theorem compound_measured {kind : TermKind} {components : List Term} (object : ObjectId)
    (name : String) (noVariable : ∀ marked, kind ≠ .variable marked)
    (measured : ∀ component ∈ components, Measured component) :
    Measured (Term.compound object name kind components) where
  complexity_eq := by
    have sum := foldl_complexity measured 1
    rw [forms_tree, List.length_cons, Nat.add_comm]
    exact sum
  constant_iff := by
    have allConstant : (Term.compound object name kind components).constant = true ↔
        ∀ component ∈ components, component.constant = true := by
      simp [Term.compound]
    rw [forms_tree, allConstant, List.forall_mem_cons]
    simp only [Term.compound, List.mem_flatMap]
    constructor
    · intro constants
      refine ⟨noVariable, ?_⟩
      rintro form ⟨component, member, inTree⟩
      exact (measured component member).constant_iff.mp (constants component member) form inTree
    · rintro ⟨_, noneInside⟩ component member
      exact (measured component member).constant_iff.mpr
        fun form inTree => noneInside form ⟨component, member, inTree⟩

theorem atom_measured (object : ObjectId) (name : String) : Measured (Term.atom object name) := by
  have single : (Term.atom object name).tree.forms = [(Term.atom object name).kind] := by
    rw [forms_tree, atom_components, List.flatMap_nil]
  constructor
  case complexity_eq =>
    rw [single, Term.atom]
    split <;> rfl
  case constant_iff =>
    rw [single, Term.atom]
    split <;> simp

theorem Formed.measured {symbols : Symbols} {term : Term} (formed : Formed symbols term) :
    Measured term := by
  induction formed with
  | atom object _ => exact atom_measured object _
  | statement object _ _ _ subjectMeasured predicateMeasured =>
      refine compound_measured object _ (fun _ => by simp) ?_
      rw [List.forall_mem_cons, List.forall_mem_singleton]
      exact ⟨subjectMeasured, predicateMeasured⟩
  | conjunction object _ _ _ componentsMeasured =>
      exact compound_measured object _ (fun _ => by simp) componentsMeasured

end Term

namespace Session

open Term

/-- Whatever is answered after any requests, whoever holds terms besides: every part of it and
every copy of one has the complexity and the constancy of its tree, and a copy has the same
tree. -/
theorem answered_measured (symbols : Symbols) (requests : List Request) (outside : Held)
    (request : Request) {term part : Term}
    (answered : ((of symbols requests).answer symbols outside request).1 = .ok (some term))
    (inside : PartOf part term) :
    Measured part ∧ ∀ free,
      Measured (part.copy free).1 ∧ (part.copy free).1.tree = part.tree := by
  have formed : part.Formed symbols :=
    (((of_formed symbols requests).answer outside request).term term answered).ofPart inside
  refine ⟨formed.measured, fun free => ⟨(formed.copy free).measured, ?_⟩⟩
  rw [← tree_bare, copy_bare, tree_bare]

/-- A copy of the implication that absorption makes: five nodes, none of them a variable. -/
theorem copied_implication_measured :
    let answer := (of {} absorbingRequests).answer {} Held.nothing (.copy 4)
    let term := answer.1.toOption.join.get (by decide +kernel)
    (term.name = "<(&&,a,b) ==> c>" ∧ term.complexity = 5 ∧ term.constant = true) ∧
      Measured term := by
  intro answer term
  refine ⟨by decide +kernel, ?_⟩
  have answered : answer.1 = .ok (some term) := by
    have isTerm : answer.1.toOption.join = some term := (Option.some_get _).symm
    cases outcome : answer.1 with
    | error failure => simp [outcome, Except.toOption] at isTerm
    | ok made => simpa [outcome, Except.toOption] using isTerm
  exact (answered_measured {} absorbingRequests Held.nothing (.copy 4) answered .whole).1

end Session

end AttentiveReasoner.Language
