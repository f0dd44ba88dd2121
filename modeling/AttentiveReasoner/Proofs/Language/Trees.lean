import AttentiveReasoner.Language.Term

/-!
Contract: terms as trees.

Owns:
- induction over a term by way of its components;
- the parts of a term: itself, its components, their components, and so on;
- a term without its object numbers, which is all of a term but its identity;
- the tree of a term, which has names at the atoms only;
- that a copy in new objects has the same content.

Does not own: which trees are those of constructed terms.
-/

namespace AttentiveReasoner.Language

namespace Term

/-! ## Fields of made terms -/

@[simp] theorem atom_name (object : ObjectId) (name : String) :
    (atom object name).name = name := by
  unfold atom
  split <;> rfl

@[simp] theorem atom_components (object : ObjectId) (name : String) :
    (atom object name).components = [] := by
  unfold atom
  split <;> rfl

theorem atom_copula? (object : ObjectId) (name : String) :
    (atom object name).copula? = none := by
  unfold atom
  split <;> rfl

theorem atom_isConjunction (object : ObjectId) (name : String) :
    (atom object name).isConjunction = false := by
  unfold atom
  split <;> rfl

/-! ## Induction and parts -/

/-- A property holds of every term if it passes from the components of a term to
the term. -/
theorem componentInduction {motive : Term → Prop}
    (step : ∀ term, (∀ component ∈ term.components, motive component) → motive term)
    (term : Term) : motive term := by
  refine @Term.rec motive (fun components => ∀ component ∈ components, motive component)
    ?_ ?_ ?_ term
  case refine_1 =>
    intro object name kind components complexity constant inductionHypothesis
    exact step _ inductionHypothesis
  case refine_2 =>
    intro component member
    contradiction
  case refine_3 =>
    intro first rest firstHolds restHold component member
    rcases List.mem_cons.mp member with rfl | member
    · exact firstHolds
    · exact restHold component member

/-- A term is a part of a term if it is the term itself or a part of one of its
components. -/
inductive PartOf (part : Term) : Term → Prop where
  | whole : PartOf part part
  | component {term component : Term}
      (member : component ∈ term.components)
      (inside : PartOf part component) :
      PartOf part term

/-! ## Content -/

mutual

/-- The term with every object number forgotten. -/
def bare : Term → Term
  | ⟨_, name, kind, components, complexity, constant⟩ =>
      ⟨0, name, kind, bareAll components, complexity, constant⟩

/-- The terms with every object number forgotten. -/
def bareAll : List Term → List Term
  | [] => []
  | term :: rest => term.bare :: bareAll rest

end

theorem bareAll_eq_map (terms : List Term) : bareAll terms = terms.map bare := by
  induction terms with
  | nil => rfl
  | cons first rest inductionHypothesis => rw [bareAll, inductionHypothesis, List.map_cons]

@[simp] theorem bare_object (term : Term) : term.bare.object = 0 := by
  cases term; rfl

@[simp] theorem bare_name (term : Term) : term.bare.name = term.name := by
  cases term; rfl

theorem name_eq_of_bare_eq {left right : Term} (same : left.bare = right.bare) :
    left.name = right.name := by
  rw [← bare_name left, same, bare_name]

@[simp] theorem bare_kind (term : Term) : term.bare.kind = term.kind := by
  cases term; rfl

@[simp] theorem bare_components (term : Term) :
    term.bare.components = term.components.map bare := by
  cases term; exact bareAll_eq_map _

@[simp] theorem bare_complexity (term : Term) : term.bare.complexity = term.complexity := by
  cases term; rfl

@[simp] theorem bare_constant (term : Term) : term.bare.constant = term.constant := by
  cases term; rfl

@[simp] theorem bare_isAtomic (term : Term) : term.bare.isAtomic = term.isAtomic := by
  cases term; rfl

@[simp] theorem bare_copula? (term : Term) : term.bare.copula? = term.copula? := by
  cases term; rfl

@[simp] theorem bare_isVariable (term : Term) : term.bare.isVariable = term.isVariable := by
  cases term; rfl

@[simp] theorem bare_isConjunction (term : Term) :
    term.bare.isConjunction = term.isConjunction := by
  cases term; rfl

@[simp] theorem names_map_bare (terms : List Term) :
    (terms.map bare).map (·.name) = terms.map (·.name) := by
  simp [Function.comp_def]

/-- Terms have the same content if they agree in everything but the objects. -/
theorem bare_eq_iff (left right : Term) :
    left.bare = right.bare ↔
      left.name = right.name ∧ left.kind = right.kind ∧
        left.components.map bare = right.components.map bare ∧
        left.complexity = right.complexity ∧ left.constant = right.constant := by
  cases left
  cases right
  simp [bare, bareAll_eq_map]

/-- An atom's content is its name. -/
theorem bare_atom (object : ObjectId) (name : String) :
    (atom object name).bare = atom 0 name := by
  unfold atom
  split <;> rfl

/-- A compound's content is made of the contents of its components. -/
theorem bare_compound (object : ObjectId) (name : String) (kind : TermKind)
    (components : List Term) :
    (compound object name kind components).bare =
      compound 0 name kind (components.map bare) := by
  simp only [compound, bare, bareAll_eq_map, List.foldl_map, bare_complexity, List.all_map]
  simp [Function.comp_def]

theorem eq_of_bare_eq {left right : Term}
    (same : left.bare = right.bare)
    (sameObject : left.object = right.object)
    (sameComponents : left.components = right.components) :
    left = right := by
  obtain ⟨sameName, sameKind, _, sameComplexity, sameConstant⟩ :=
    (bare_eq_iff left right).mp same
  cases left
  cases right
  simp_all

/-- Whatever has the content of an atom is an atom. -/
theorem eq_atom_of_bare_eq {term : Term} {object : ObjectId} {name : String}
    (same : term.bare = (atom object name).bare) :
    term = atom term.object name := by
  have sameComponents : term.components = [] := by
    simpa using congrArg components same
  refine eq_of_bare_eq ?_ ?_ ?_
  · rw [same, bare_atom, bare_atom]
  · unfold atom; split <;> rfl
  · rw [sameComponents, atom_components]

/-- Whatever has the content of a compound is a compound of such components. -/
theorem eq_compound_of_bare_eq {term : Term} {object : ObjectId} {name : String}
    {kind : TermKind} {parts : List Term}
    (same : term.bare = (compound object name kind parts).bare) :
    term = compound term.object name kind term.components ∧
      term.components.map bare = parts.map bare := by
  have sameComponents : term.components.map bare = parts.map bare := by
    simpa [compound] using congrArg components same
  refine ⟨eq_of_bare_eq ?_ rfl rfl, sameComponents⟩
  rw [same, bare_compound, bare_compound, sameComponents]

/-! ## Trees -/

/-- A tree of forms. An atom has its name besides. -/
inductive Tree where
  | node (kind : TermKind) (atomName : Option String) (components : List Tree)

mutual

/-- The tree of a term. -/
def tree : Term → Tree
  | ⟨_, name, kind, components, _, _⟩ =>
      .node kind
        (match kind with
          | .word | .variable _ => some name
          | .statement _ | .conjunction => none)
        (treeAll components)

/-- The trees of terms. -/
def treeAll : List Term → List Tree
  | [] => []
  | term :: rest => term.tree :: treeAll rest

end

theorem treeAll_eq_map (terms : List Term) : treeAll terms = terms.map tree := by
  induction terms with
  | nil => rfl
  | cons first rest inductionHypothesis => rw [treeAll, inductionHypothesis, List.map_cons]

theorem tree_eq (term : Term) :
    term.tree =
      .node term.kind (if term.isAtomic then some term.name else none)
        (term.components.map tree) := by
  obtain ⟨object, name, kind, components, complexity, constant⟩ := term
  cases kind <;> simp [tree, treeAll_eq_map, isAtomic]

/-- The tree of a term is part of its content. -/
theorem tree_bare (term : Term) : term.bare.tree = term.tree := by
  induction term using componentInduction with
  | step term inductionHypothesis =>
      have trees : (term.components.map bare).map tree = term.components.map tree := by
        rw [List.map_map]
        exact List.map_congr_left inductionHypothesis
      rw [tree_eq term.bare, tree_eq term, bare_components, trees, bare_kind, bare_isAtomic,
        bare_name]

/-! ## Copies -/

mutual

theorem copy_bare (free : ObjectId) : ∀ term : Term, (term.copy free).1.bare = term.bare
  | ⟨_, name, kind, components, complexity, constant⟩ => by
      simp only [copy, bare, copyAll_bare (free + 1) components]

theorem copyAll_bare (free : ObjectId) :
    ∀ terms : List Term, bareAll (copyAll free terms).1 = bareAll terms
  | [] => rfl
  | term :: rest => by
      simp only [copyAll, bareAll, copy_bare free term, copyAll_bare _ rest]

end

end Term

end AttentiveReasoner.Language
