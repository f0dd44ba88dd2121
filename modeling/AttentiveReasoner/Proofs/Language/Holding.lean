import AttentiveReasoner.Language.Registry
import AttentiveReasoner.Proofs.Language.Trees

/-!
Contract: what it means that terms hold objects.

Owns:
- the parts of a list of terms;
- the objects of a term as those of its parts;
- a predicate of held objects that counts exactly the parts of given terms;
- the objects of a copy: all new, and all below the next free number.

Does not own: which terms somebody holds, and what a registry lists.

A term keeps all its parts alive. What is held is therefore always read off a list of
terms, and two lists with the same parts hold the same.
-/

namespace AttentiveReasoner.Language

namespace Term

/-! ## Parts -/

theorem partOf_iff {part term : Term} :
    PartOf part term ↔ part = term ∨ ∃ component ∈ term.components, PartOf part component := by
  constructor
  · intro inside
    cases inside with
    | whole => exact .inl rfl
    | component member inside => exact .inr ⟨_, member, inside⟩
  · rintro (rfl | ⟨component, member, inside⟩)
    · exact .whole
    · exact .component member inside

theorem PartOf.trans {part middle term : Term} (inside : PartOf part middle)
    (middleInside : PartOf middle term) : PartOf part term := by
  induction middleInside with
  | whole => exact inside
  | component member _ inductionHypothesis => exact .component member inductionHypothesis

/-- A term is a part of one of the given terms. -/
def Inside (terms : List Term) (part : Term) : Prop :=
  ∃ term ∈ terms, PartOf part term

theorem Inside.of_mem {terms : List Term} {term : Term} (member : term ∈ terms) :
    Inside terms term :=
  ⟨term, member, .whole⟩

theorem Inside.component {terms : List Term} {term component : Term} (inside : Inside terms term)
    (member : component ∈ term.components) : Inside terms component := by
  obtain ⟨whole, wholeMember, insideWhole⟩ := inside
  exact ⟨whole, wholeMember, (PartOf.component member .whole).trans insideWhole⟩

theorem Inside.ofPart {terms : List Term} {term part : Term} (inside : Inside terms term)
    (partInside : PartOf part term) : Inside terms part := by
  obtain ⟨whole, wholeMember, insideWhole⟩ := inside
  exact ⟨whole, wholeMember, partInside.trans insideWhole⟩

/-- Terms inside other terms have no parts but theirs. -/
theorem Inside.mono {terms others : List Term} {part : Term}
    (covered : ∀ term ∈ terms, Inside others term) (inside : Inside terms part) :
    Inside others part := by
  obtain ⟨term, member, partInside⟩ := inside
  exact (covered term member).ofPart partInside

theorem inside_append {left right : List Term} {part : Term} :
    Inside (left ++ right) part ↔ Inside left part ∨ Inside right part := by
  simp only [Inside, List.mem_append, or_and_right, exists_or]

theorem inside_cons {first : Term} {rest : List Term} {part : Term} :
    Inside (first :: rest) part ↔ PartOf part first ∨ Inside rest part := by
  simp [Inside]

/-! ## Objects -/

theorem mem_objectsOf {object : ObjectId} {terms : List Term} :
    object ∈ objectsOf terms ↔ ∃ term ∈ terms, object ∈ term.objects := by
  induction terms with
  | nil => simp [objectsOf]
  | cons first rest inductionHypothesis => simp [objectsOf, inductionHypothesis]

theorem mem_objects_iff {object : ObjectId} {term : Term} :
    object ∈ term.objects ↔ ∃ part, PartOf part term ∧ part.object = object := by
  induction term using componentInduction with
  | step term inductionHypothesis =>
      have unfolded : term.objects = term.object :: objectsOf term.components := by
        cases term
        rfl
      rw [unfolded, List.mem_cons, mem_objectsOf]
      constructor
      · rintro (rfl | ⟨component, member, inComponent⟩)
        · exact ⟨term, .whole, rfl⟩
        · obtain ⟨part, inside, same⟩ := (inductionHypothesis component member).mp inComponent
          exact ⟨part, .component member inside, same⟩
      · rintro ⟨part, inside, rfl⟩
        rcases partOf_iff.mp inside with rfl | ⟨component, member, inside⟩
        · exact .inl rfl
        · exact .inr ⟨component, member,
            (inductionHypothesis component member).mpr ⟨part, inside, rfl⟩⟩

theorem anyConsistsOf_eq_any (object : ObjectId) (terms : List Term) :
    anyConsistsOf object terms = terms.any (consistsOf object) := by
  induction terms with
  | nil => rfl
  | cons first rest inductionHypothesis =>
      rw [anyConsistsOf, inductionHypothesis, List.any_cons]

theorem consistsOf_iff {object : ObjectId} {term : Term} :
    term.consistsOf object = true ↔ ∃ part, PartOf part term ∧ part.object = object := by
  rw [← mem_objects_iff]
  induction term using componentInduction with
  | step term inductionHypothesis =>
      obtain ⟨own, name, kind, components, complexity, constant⟩ := term
      rw [consistsOf, objects, Bool.or_eq_true, anyConsistsOf_eq_any, List.any_eq_true,
        List.mem_cons, mem_objectsOf, beq_iff_eq]
      apply or_congr eq_comm
      apply exists_congr
      intro component
      exact and_congr_right (inductionHypothesis component)

/-! ## Copies -/

mutual

/-- The objects of a copy are numbered from the first free one on. -/
theorem copy_objects (free : ObjectId) : ∀ term : Term,
    free < (term.copy free).2 ∧
      ∀ object ∈ (term.copy free).1.objects, free ≤ object ∧ object < (term.copy free).2
  | ⟨_, name, kind, components, complexity, constant⟩ => by
      obtain ⟨grown, between⟩ := copyAll_objects (free + 1) components
      rw [copy]
      refine ⟨grown, ?_⟩
      intro object member
      rcases List.mem_cons.mp member with rfl | member
      · exact ⟨Nat.le_refl _, grown⟩
      · have bounds := between object member
        exact ⟨Nat.le_of_succ_le bounds.1, bounds.2⟩

theorem copyAll_objects (free : ObjectId) : ∀ terms : List Term,
    free ≤ (copyAll free terms).2 ∧
      ∀ object ∈ objectsOf (copyAll free terms).1,
        free ≤ object ∧ object < (copyAll free terms).2
  | [] => ⟨Nat.le_refl _, fun _ member => nomatch member⟩
  | term :: rest => by
      obtain ⟨firstGrown, firstBetween⟩ := copy_objects free term
      obtain ⟨restGrown, restBetween⟩ := copyAll_objects (term.copy free).2 rest
      refine ⟨Nat.le_trans (Nat.le_of_lt firstGrown) restGrown, ?_⟩
      intro object member
      rcases List.mem_append.mp member with member | member
      · have bounds := firstBetween object member
        exact ⟨bounds.1, Nat.lt_of_lt_of_le bounds.2 restGrown⟩
      · have bounds := restBetween object member
        exact ⟨Nat.le_trans (Nat.le_of_lt firstGrown) bounds.1, bounds.2⟩

end

end Term

/-! ## What is held -/

namespace Held

open Term

/-- Exactly the objects of the terms are held. -/
def Counts (held : Held) (terms : List Term) : Prop :=
  ∀ object, held object = true ↔ ∃ part, Inside terms part ∧ part.object = object

variable {held : Held} {terms : List Term}

theorem nothing_counts : nothing.Counts [] := by
  intro object
  simp [nothing, Inside]

theorem Counts.withTerms (counts : held.Counts terms) (more : List Term) :
    (held.withTerms more).Counts (terms ++ more) := by
  intro object
  have holdsMore : anyConsistsOf object more = true ↔
      ∃ part, Inside more part ∧ part.object = object := by
    rw [anyConsistsOf_eq_any, List.any_eq_true]
    simp only [consistsOf_iff, Inside]
    constructor
    · rintro ⟨term, member, part, inside, same⟩
      exact ⟨part, ⟨term, member, inside⟩, same⟩
    · rintro ⟨part, ⟨term, member, inside⟩, same⟩
      exact ⟨term, member, part, inside, same⟩
  rw [Held.withTerms, Bool.or_eq_true, counts object, holdsMore]
  simp only [inside_append, or_and_right, exists_or]

/-- Lists with the same parts hold the same objects. -/
theorem Counts.congr {others : List Term} (counts : held.Counts terms)
    (covered : ∀ term ∈ terms, Inside others term)
    (covers : ∀ term ∈ others, Inside terms term) :
    held.Counts others := by
  intro object
  rw [counts object]
  constructor
  · rintro ⟨part, inside, same⟩
    exact ⟨part, inside.mono covered, same⟩
  · rintro ⟨part, inside, same⟩
    exact ⟨part, inside.mono covers, same⟩

/-- Terms that are inside of what is held already add nothing to it. -/
theorem Counts.withInside (counts : held.Counts terms) {more : List Term}
    (inside : ∀ term ∈ more, Inside terms term) : (held.withTerms more).Counts terms := by
  refine (counts.withTerms more).congr ?_ ?_
  · intro term member
    rcases List.mem_append.mp member with old | new
    · exact .of_mem old
    · exact inside term new
  · exact fun term member => .of_mem (List.mem_append_left _ member)

end Held

end AttentiveReasoner.Language
