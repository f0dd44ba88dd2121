import AttentiveReasoner.Proofs.Language.Compositions
import Mathlib.Data.List.MinMax
import Mathlib.Data.List.Sort

/-!
Contract: the two ways to the conjunction of a list of terms, under the usual symbols.

Owns:
- both ways as compositions: the whole list at once, and one term after the other;
- that the content of a conjunction depends on the names of the listed terms alone;
- that one after the other, members that are conjunctions give their components, and at
  once they become components themselves;
- the lists for which both ways end at one object, and for which the result is flat.

Does not own: what is inside of the components.

One side of the comparison needs an argument about all members together. A member that is
a conjunction may well be a component of another member, and then it is among the
flattened terms as well. The largest such member is not: what it were a component of would
be larger.
-/

namespace AttentiveReasoner.Language

open Term

/-! ## Flat conjunctions -/

/-- What terms contribute to a conjunction. -/
def Construction.flattened (terms : List Term) : List Term :=
  terms.flatMap conjuncts

/-- Terms of which none is a conjunction, or which all have the same name. -/
def Construction.Plain (terms : List Term) : Prop :=
  (∀ term ∈ terms, term.isConjunction = false) ∨
    ∀ left ∈ terms, ∀ right ∈ terms, left.name = right.name

/-- A term that contributes no conjunction to a conjunction: if it is one itself, none of
its components is. -/
def Term.IsFlat (term : Term) : Prop :=
  ∀ conjunct ∈ Construction.conjuncts term, conjunct.isConjunction = false

instance (terms : List Term) : Decidable (Construction.Plain terms) :=
  inferInstanceAs (Decidable (_ ∨ _))

instance (term : Term) : Decidable term.IsFlat :=
  inferInstanceAs (Decidable (∀ _ ∈ _, _))

namespace Construction

theorem mem_flattened {terms : List Term} {conjunct : Term} :
    conjunct ∈ flattened terms ↔ ∃ term ∈ terms, conjunct ∈ conjuncts term :=
  List.mem_flatMap

theorem conjuncts_of_conjunction {term : Term} (conjunction : term.isConjunction = true) :
    conjuncts term = term.components :=
  if_pos conjunction

theorem conjuncts_of_other {term : Term} (other : term.isConjunction = false) :
    conjuncts term = [term] := by
  rw [conjuncts, other]
  rfl

theorem flattened_eq_self {terms : List Term}
    (noConjunction : ∀ term ∈ terms, term.isConjunction = false) : flattened terms = terms := by
  induction terms with
  | nil => rfl
  | cons first rest inductionHypothesis =>
      have firstOther := conjuncts_of_other (noConjunction first List.mem_cons_self)
      have restSame := inductionHypothesis fun term member =>
        noConjunction term (List.mem_cons_of_mem _ member)
      change conjuncts first ++ flattened rest = first :: rest
      rw [firstOther, restSame]
      rfl

theorem flattened_formed {terms : List Term} (formed : ∀ term ∈ terms, term.Formed .usual) :
    ∀ conjunct ∈ flattened terms, conjunct.Formed .usual := by
  intro conjunct member
  obtain ⟨term, termMember, among⟩ := mem_flattened.mp member
  exact conjuncts_formed (formed term termMember) conjunct among

theorem isFlat_congr {term other : Term} (same : term.bare = other.bare) (flat : term.IsFlat) :
    other.IsFlat := by
  have sameConjuncts : (conjuncts term).map bare = (conjuncts other).map bare := by
    rw [← conjuncts_bare, ← conjuncts_bare, same]
  intro conjunct member
  have image : conjunct.bare ∈ (conjuncts term).map bare := by
    rw [sameConjuncts]
    exact List.mem_map_of_mem member
  obtain ⟨original, originalMember, sameContent⟩ := List.mem_map.mp image
  rw [← bare_isConjunction, ← sameContent, bare_isConjunction]
  exact flat original originalMember

/-! ## Names decide -/

theorem mem_names_sortByName {terms : List Term} {name : String} :
    name ∈ (sortByName terms).map (·.name) ↔ name ∈ terms.map (·.name) := by
  constructor
  · intro member
    obtain ⟨term, termMember, rfl⟩ := List.mem_map.mp member
    exact List.mem_map_of_mem (mem_of_mem_sortByName termMember)
  · intro member
    obtain ⟨term, termMember, rfl⟩ := List.mem_map.mp member
    exact name_mem_sortByName termMember

/-- Terms with increasing names are sorted already. -/
theorem sortByName_of_increasing {terms : List Term}
    (increasing : (terms.map (·.name)).Pairwise (· < ·)) : sortByName terms = terms := by
  induction terms with
  | nil => rfl
  | cons first rest inductionHypothesis =>
      rw [List.map_cons, List.pairwise_cons] at increasing
      obtain ⟨firstLess, restIncreasing⟩ := increasing
      change insertByName first (sortByName rest) = first :: rest
      rw [inductionHypothesis restIncreasing]
      cases rest with
      | nil => rfl
      | cons second others => exact if_pos (firstLess second.name List.mem_cons_self)

theorem bare_eq_of_names_eq {terms others : List Term}
    (formed : ∀ term ∈ terms, term.Formed .usual)
    (othersFormed : ∀ term ∈ others, term.Formed .usual)
    (same : terms.map (·.name) = others.map (·.name)) : terms.map bare = others.map bare := by
  induction terms generalizing others with
  | nil => rw [List.map_eq_nil_iff.mp same.symm]
  | cons first rest inductionHypothesis =>
      obtain ⟨other, others, rfl, sameName, sameNames⟩ := List.map_eq_cons_iff.mp same.symm
      rw [List.forall_mem_cons] at formed othersFormed
      rw [List.map_cons, List.map_cons, formed.1.bare_eq othersFormed.1 sameName.symm,
        inductionHypothesis formed.2 othersFormed.2 sameNames.symm]

/-- The content of a conjunction depends on which names are listed, not on their order or
how often they are. -/
theorem conjunctionContent_of_names {terms others : List Term}
    (formed : ∀ term ∈ terms, term.Formed .usual)
    (othersFormed : ∀ term ∈ others, term.Formed .usual)
    (same : ∀ name, name ∈ terms.map (·.name) ↔ name ∈ others.map (·.name)) :
    (conjunctionContent terms).map bare = (conjunctionContent others).map bare := by
  have sameNames : (sortByName terms).map (·.name) = (sortByName others).map (·.name) := by
    have notBoth : ∀ left right : String, left < right → right < left → left = right :=
      fun left right less greater => absurd (String.lt_trans less greater) (String.lt_irrefl left)
    refine List.Perm.eq_of_pairwise (fun left right _ _ => notBoth left right)
      (sortByName_increasing terms) (sortByName_increasing others) ?_
    refine (List.perm_ext_iff_of_nodup ?_ ?_).mpr ?_
    · exact (sortByName_increasing terms).imp String.ne_of_lt
    · exact (sortByName_increasing others).imp String.ne_of_lt
    · intro name
      rw [mem_names_sortByName, mem_names_sortByName]
      exact same name
  have sameSorted : (sortByName terms).map bare = (sortByName others).map bare :=
    bare_eq_of_names_eq (fun term member => formed term (mem_of_mem_sortByName member))
      (fun term member => othersFormed term (mem_of_mem_sortByName member)) sameNames
  rw [← conjunctionContent_bare, ← conjunctionContent_bare, conjunctionContent,
    conjunctionContent, sortByName_bare, sortByName_bare, sameSorted]

/-- The conjunction of what a term contributes is the term. -/
theorem conjunctionContent_conjuncts {term : Term} (formed : term.Formed .usual) :
    (conjunctionContent (conjuncts term)).map bare = some term.bare := by
  cases conjunction : term.isConjunction with
  | false =>
      rw [conjuncts_of_other conjunction]
      rfl
  | true =>
      cases formed with
      | atom => rw [atom_isConjunction] at conjunction; contradiction
      | statement => contradiction
      | @conjunction object components _ several increasing =>
          rw [conjuncts_of_conjunction conjunction]
          change (conjunctionContent components).map bare = _
          rw [conjunctionContent, sortByName_of_increasing increasing]
          match components, several with
          | first :: second :: rest, _ =>
              change some (makeConjunction .usual (first :: second :: rest) 0).bare =
                some (makeConjunction .usual (first :: second :: rest) object).bare
              rw [makeConjunction_bare, makeConjunction_bare]

theorem conjunctionContent_formed {terms : List Term} {whole : Term}
    (formed : ∀ term ∈ terms, term.Formed .usual)
    (content : conjunctionContent terms = some whole) : whole.Formed .usual := by
  have sortedFormed : ∀ term ∈ sortByName terms, term.Formed .usual :=
    fun term member => formed term (mem_of_mem_sortByName member)
  have increasing := sortByName_increasing terms
  unfold conjunctionContent at content
  generalize sortByName terms = components at sortedFormed increasing content
  rcases components with _ | ⟨first, _ | ⟨second, rest⟩⟩
  · contradiction
  · rw [← Option.some.inj content]
    exact sortedFormed first List.mem_cons_self
  · rw [← Option.some.inj content]
    exact .conjunction _ sortedFormed (by simp) increasing

theorem conjunctionContent_isSome {terms : List Term} {term : Term} (member : term ∈ terms) :
    ∃ whole, conjunctionContent terms = some whole := by
  have named := name_mem_sortByName member
  unfold conjunctionContent
  generalize sortByName terms = components at named
  rcases components with _ | ⟨first, _ | ⟨second, rest⟩⟩
  · contradiction
  · exact ⟨_, rfl⟩
  · exact ⟨_, rfl⟩

/-- A formed term contributes something. -/
theorem conjunctionContent_flattened_isSome {first : Term} {rest : List Term}
    (formed : first.Formed .usual) :
    ∃ whole, conjunctionContent (flattened (first :: rest)) = some whole := by
  obtain ⟨conjunct, contributed⟩ : ∃ conjunct, conjunct ∈ conjuncts first := by
    refine List.exists_mem_of_ne_nil _ ?_
    intro none
    have content := conjunctionContent_conjuncts formed
    rw [none] at content
    contradiction
  exact conjunctionContent_isSome (mem_flattened.mpr ⟨first, List.mem_cons_self, contributed⟩)

/-! ## What the conjunction of a list contributes -/

/-- The conjunction of several different terms has their sorted list as components. -/
theorem conjunctionContent_of_several {terms : List Term} {whole left right : Term}
    (content : conjunctionContent terms = some whole) (leftMember : left ∈ terms)
    (rightMember : right ∈ terms) (different : left.name ≠ right.name) :
    whole.isConjunction = true ∧ whole.components = sortByName terms := by
  have leftNamed := name_mem_sortByName leftMember
  have rightNamed := name_mem_sortByName rightMember
  unfold conjunctionContent at content
  rcases sorted : sortByName terms with _ | ⟨first, _ | ⟨second, rest⟩⟩
  · rw [sorted] at leftNamed
    contradiction
  · rw [sorted] at leftNamed rightNamed
    have leftName : left.name = first.name := List.mem_singleton.mp leftNamed
    have rightName : right.name = first.name := List.mem_singleton.mp rightNamed
    exact absurd (leftName.trans rightName.symm) different
  · rw [sorted] at content
    rw [← Option.some.inj content]
    exact ⟨rfl, rfl⟩

/-- The conjunction of flattened terms contributes those terms. -/
theorem conjuncts_of_flattened {terms : List Term} {whole : Term}
    (formed : ∀ term ∈ terms, term.Formed .usual)
    (content : conjunctionContent (flattened terms) = some whole) :
    conjuncts whole = sortByName (flattened terms) := by
  unfold conjunctionContent at content
  rcases sorted : sortByName (flattened terms) with _ | ⟨first, _ | ⟨second, rest⟩⟩
  · rw [sorted] at content
    contradiction
  · rw [sorted] at content
    obtain rfl := Option.some.inj content
    -- A single term remains only if nothing was flattened.
    have among : first ∈ flattened terms :=
      mem_of_mem_sortByName (by rw [sorted]; exact List.mem_cons_self)
    obtain ⟨term, member, contributed⟩ := mem_flattened.mp among
    have ownConjuncts : conjuncts term = [term] :=
      conjuncts_of_sorted_single (formed term member)
        (fun conjunct inTerm => mem_flattened.mpr ⟨term, member, inTerm⟩) sorted
    rw [ownConjuncts, List.mem_singleton] at contributed
    rw [contributed, ownConjuncts]
  · rw [sorted] at content
    rw [← Option.some.inj content]
    rfl

theorem flattened_append (terms : List Term) (last : Term) :
    flattened (terms ++ [last]) = flattened terms ++ conjuncts last := by
  rw [flattened, flattened, List.flatMap_append, List.flatMap_singleton]

/-- One more term joined to a flattened conjunction. -/
theorem conjunctionContent_flattened_append {terms : List Term} {whole last : Term}
    (formed : ∀ term ∈ terms, term.Formed .usual) (lastFormed : last.Formed .usual)
    (content : conjunctionContent (flattened terms) = some whole) :
    (conjunctionContent (conjuncts whole ++ conjuncts last)).map bare =
      (conjunctionContent (flattened (terms ++ [last]))).map bare := by
  have wholeFormed := conjunctionContent_formed (flattened_formed formed) content
  rw [flattened_append]
  refine conjunctionContent_of_names ?_ ?_ ?_
  · rw [List.forall_mem_append]
    exact ⟨conjuncts_formed wholeFormed, conjuncts_formed lastFormed⟩
  · rw [List.forall_mem_append]
    exact ⟨flattened_formed formed, conjuncts_formed lastFormed⟩
  · intro name
    rw [List.map_append, List.map_append, List.mem_append, List.mem_append,
      conjuncts_of_flattened formed content, mem_names_sortByName]

/-! ## Where both ways part -/

theorem sizeOf_component_lt {term component : Term} (member : component ∈ term.components) :
    sizeOf component.bare < sizeOf term.bare := by
  have image : component.bare ∈ term.bare.components := by
    rw [bare_components]
    exact List.mem_map_of_mem member
  have inComponents := List.sizeOf_lt_of_mem image
  cases whole : term.bare with
  | mk object name kind components complexity constant =>
      rw [whole] at inComponents
      change sizeOf component.bare < sizeOf components at inComponents
      simp only [Term.mk.sizeOf_spec]
      omega

/-- If some members are conjunctions, the largest of them is not among the flattened
terms. -/
theorem exists_not_flattened {terms : List Term} {conjunction : Term}
    (formed : ∀ term ∈ terms, term.Formed .usual) (member : conjunction ∈ terms)
    (isConjunction : conjunction.isConjunction = true) :
    ∃ term ∈ terms, term.name ∉ (flattened terms).map (·.name) := by
  let size := fun term : Term => sizeOf term.bare
  have among : conjunction ∈ terms.filter (·.isConjunction) :=
    List.mem_filter.mpr ⟨member, isConjunction⟩
  obtain ⟨largest, isLargest⟩ :
      ∃ largest, (terms.filter (·.isConjunction)).argmax size = some largest := by
    refine Option.ne_none_iff_exists'.mp ?_
    intro none
    rw [List.argmax_eq_none.mp none] at among
    contradiction
  obtain ⟨largestMember, largestConjunction⟩ :=
    List.mem_filter.mp (List.argmax_mem (Option.mem_def.mpr isLargest))
  refine ⟨largest, largestMember, ?_⟩
  intro named
  obtain ⟨conjunct, conjunctMember, sameName⟩ := List.mem_map.mp named
  obtain ⟨term, termMember, contributed⟩ := mem_flattened.mp conjunctMember
  have sameContent : conjunct.bare = largest.bare :=
    (flattened_formed formed conjunct conjunctMember).bare_eq (formed largest largestMember)
      sameName
  have conjunctConjunction : conjunct.isConjunction = true := by
    rw [← bare_isConjunction, sameContent, bare_isConjunction]
    exact largestConjunction
  cases whole : term.isConjunction with
  | false =>
      rw [conjuncts_of_other whole, List.mem_singleton] at contributed
      rw [← contributed, conjunctConjunction] at whole
      contradiction
  | true =>
      rw [conjuncts_of_conjunction whole] at contributed
      have smaller : size conjunct < size term := sizeOf_component_lt contributed
      have notLarger : size term ≤ size largest :=
        List.le_of_mem_argmax (List.mem_filter.mpr ⟨termMember, whole⟩)
          (Option.mem_def.mpr isLargest)
      have sameSize : size conjunct = size largest := congrArg sizeOf sameContent
      omega

/-- Flattening changes nothing about plain terms. -/
theorem Plain.content_eq {terms : List Term} (plain : Plain terms)
    (formed : ∀ term ∈ terms, term.Formed .usual) :
    (conjunctionContent terms).map bare = (conjunctionContent (flattened terms)).map bare := by
  rcases plain with noConjunction | sameNames
  · rw [flattened_eq_self noConjunction]
  · cases terms with
    | nil => rfl
    | cons first rest =>
        have firstFormed := formed first List.mem_cons_self
        have sameContent : ∀ term ∈ first :: rest, term.bare = first.bare :=
          fun term member => (formed term member).bare_eq firstFormed
            (sameNames term member first List.mem_cons_self)
        have asFirst : (conjunctionContent (first :: rest)).map bare =
            (conjunctionContent [first]).map bare := by
          refine conjunctionContent_of_names formed (by simpa using firstFormed) ?_
          intro name
          constructor
          · intro named
            obtain ⟨term, member, rfl⟩ := List.mem_map.mp named
            simpa using sameNames term member first List.mem_cons_self
          · intro named
            exact List.mem_cons.mpr (.inl (List.mem_singleton.mp named))
        have flattenedAsFirst : (conjunctionContent (flattened (first :: rest))).map bare =
            (conjunctionContent (conjuncts first)).map bare := by
          refine conjunctionContent_of_names (flattened_formed formed)
            (conjuncts_formed firstFormed) ?_
          intro name
          constructor
          · intro named
            obtain ⟨conjunct, conjunctMember, rfl⟩ := List.mem_map.mp named
            obtain ⟨term, member, contributed⟩ := mem_flattened.mp conjunctMember
            rw [← names_map_bare, ← conjuncts_bare, ← sameContent term member, conjuncts_bare,
              names_map_bare]
            exact List.mem_map_of_mem contributed
          · intro named
            obtain ⟨conjunct, conjunctMember, rfl⟩ := List.mem_map.mp named
            exact List.mem_map_of_mem
              (mem_flattened.mpr ⟨first, List.mem_cons_self, conjunctMember⟩)
        rw [asFirst, flattenedAsFirst, conjunctionContent_conjuncts firstFormed]
        rfl

theorem Plain.of_not_different {terms : List Term}
    (plain : ∀ conjunction ∈ terms, conjunction.isConjunction = true →
      ∀ left ∈ terms, ∀ right ∈ terms, left.name = right.name) : Plain terms := by
  by_cases noConjunction : ∀ term ∈ terms, term.isConjunction = false
  · exact .inl noConjunction
  · push Not at noConjunction
    obtain ⟨conjunction, member, isConjunction⟩ := noConjunction
    exact .inr (plain conjunction member (Bool.eq_true_of_not_eq_false isConjunction))

/-- The conjunction of a list has the name of the flattened one if and only if the list is
plain. -/
theorem name_eq_iff_plain {terms : List Term} {whole flat : Term}
    (formed : ∀ term ∈ terms, term.Formed .usual)
    (isWhole : conjunctionContent terms = some whole)
    (isFlat : conjunctionContent (flattened terms) = some flat) :
    flat.name = whole.name ↔ Plain terms := by
  constructor
  · intro sameName
    refine Plain.of_not_different ?_
    intro conjunction member isConjunction left leftMember right rightMember
    refine Classical.byContradiction fun different => ?_
    obtain ⟨outside, outsideMember, notFlattened⟩ :=
      exists_not_flattened formed member isConjunction
    obtain ⟨wholeConjunction, wholeComponents⟩ :=
      conjunctionContent_of_several isWhole leftMember rightMember different
    have sameContent : whole.bare = flat.bare :=
      (conjunctionContent_formed formed isWhole).bare_eq
        (conjunctionContent_formed (flattened_formed formed) isFlat) sameName.symm
    have sameNames : (sortByName terms).map (·.name) =
        (sortByName (flattened terms)).map (·.name) := by
      rw [← wholeComponents, ← conjuncts_of_conjunction wholeConjunction,
        ← conjuncts_of_flattened formed isFlat, ← names_map_bare, ← conjuncts_bare, sameContent,
        conjuncts_bare, names_map_bare]
    have named := name_mem_sortByName outsideMember
    rw [sameNames, mem_names_sortByName] at named
    exact notFlattened named
  · intro plain
    have sameContent := plain.content_eq formed
    rw [isWhole, isFlat] at sameContent
    exact (name_eq_of_bare_eq (Option.some.inj sameContent)).symm

/-- What is made of flat terms by flattening is flat. -/
theorem isFlat_of_flattened {terms : List Term} {flat : Term}
    (formed : ∀ term ∈ terms, term.Formed .usual) (flatTerms : ∀ term ∈ terms, term.IsFlat)
    (content : conjunctionContent (flattened terms) = some flat) : flat.IsFlat := by
  intro conjunct member
  rw [conjuncts_of_flattened formed content] at member
  obtain ⟨term, termMember, contributed⟩ := mem_flattened.mp (mem_of_mem_sortByName member)
  exact flatTerms term termMember conjunct contributed

/-- What is made of flat terms without flattening is flat if and only if they are plain. -/
theorem isFlat_iff_plain {terms : List Term} {whole : Term}
    (formed : ∀ term ∈ terms, term.Formed .usual) (flatTerms : ∀ term ∈ terms, term.IsFlat)
    (content : conjunctionContent terms = some whole) : whole.IsFlat ↔ Plain terms := by
  constructor
  · intro wholeFlat
    refine Plain.of_not_different ?_
    intro conjunction member isConjunction left leftMember right rightMember
    refine Classical.byContradiction fun different => ?_
    obtain ⟨wholeConjunction, wholeComponents⟩ :=
      conjunctionContent_of_several content leftMember rightMember different
    obtain ⟨component, componentMember, sameName⟩ :=
      List.mem_map.mp (name_mem_sortByName member)
    have sameContent : component.bare = conjunction.bare :=
      (formed component (mem_of_mem_sortByName componentMember)).bare_eq
        (formed conjunction member) sameName
    have notConjunction : component.isConjunction = false := by
      refine wholeFlat component ?_
      rwa [conjuncts_of_conjunction wholeConjunction, wholeComponents]
    rw [← bare_isConjunction, sameContent, bare_isConjunction, isConjunction] at notConjunction
    contradiction
  · intro plain
    cases terms with
    | nil => contradiction
    | cons first rest =>
        have sameContent := plain.content_eq formed
        obtain ⟨flat, isFlat⟩ : ∃ flat, conjunctionContent (flattened (first :: rest)) = some flat :=
          conjunctionContent_flattened_isSome (formed first List.mem_cons_self)
        rw [content, isFlat] at sameContent
        exact isFlat_congr (Option.some.inj sameContent).symm
          (isFlat_of_flattened formed flatTerms isFlat)

/-- Terms with the contents of both ways. -/
theorem contents_meet {terms : List Term} {whole flat atOnce oneByOne : Term}
    (formed : ∀ term ∈ terms, term.Formed .usual)
    (isWhole : conjunctionContent terms = some whole)
    (isFlat : conjunctionContent (flattened terms) = some flat)
    (sameWhole : atOnce.bare = whole.bare) (sameFlat : oneByOne.bare = flat.bare) :
    (oneByOne.name = atOnce.name ↔ Plain terms) ∧
      ((∀ term ∈ terms, term.IsFlat) → oneByOne.IsFlat ∧ (atOnce.IsFlat ↔ Plain terms)) := by
  constructor
  · rw [name_eq_of_bare_eq sameFlat, name_eq_of_bare_eq sameWhole]
    exact name_eq_iff_plain formed isWhole isFlat
  · intro flatTerms
    have wholeFlat_iff := isFlat_iff_plain formed flatTerms isWhole
    refine ⟨isFlat_congr sameFlat.symm (isFlat_of_flattened formed flatTerms isFlat), ?_⟩
    constructor
    · exact fun atOnceFlat => wholeFlat_iff.mp (isFlat_congr sameWhole atOnceFlat)
    · exact fun plain => isFlat_congr sameWhole.symm (wholeFlat_iff.mpr plain)

end Construction

namespace Composition

open Construction
open Expression (Fits Returns meaning meanings operands operandsOf)

/-! ## Contents of values -/

/-- What returns a content that is a term returns a term of that content. -/
theorem returns_term {result : Outcome × Registry} {content : Term}
    (returns : Returns result (Fits (some content))) :
    ∃ term registry, result = (.ok (some term), registry) ∧ registry.Formed .usual ∧
      term.bare = content.bare := by
  obtain ⟨value, registry, evaluated, formed, fits⟩ := returns
  obtain ⟨term, rfl, same⟩ := Option.map_eq_some_iff.mp fits.content
  exact ⟨term, registry, evaluated, formed, same⟩

theorem returns_congr {result : Outcome × Registry} {content other : Option Term}
    (returns : Returns result (Fits content)) (same : content.map bare = other.map bare) :
    Returns result (Fits other) := by
  obtain ⟨value, registry, evaluated, formed, fits⟩ := returns
  exact ⟨value, registry, evaluated, formed, fits.content.trans same, fits.formed⟩

/-! ## Both ways as compositions -/

/-- The conjunction of a list of terms at once. -/
def listed (terms : List Term) : Composition :=
  .conjunctionFrom (terms.map (.operand rfl))

/-- The conjunction of a first term with others, one after the other. -/
def joined (first : Term) (rest : List Term) : Composition :=
  rest.foldl (fun before term => .conjunction before (.operand rfl term)) (.operand rfl first)

theorem operandsOf_operand (terms : List Term) :
    operandsOf (terms.map (.operand rfl) : List Composition) = terms := by
  induction terms with
  | nil => rfl
  | cons first rest inductionHypothesis =>
      rw [List.map_cons, operandsOf, inductionHypothesis]
      rfl

theorem listed_operands (terms : List Term) : (listed terms).operands = terms :=
  operandsOf_operand terms

theorem joined_append (first : Term) (rest : List Term) (last : Term) :
    joined first (rest ++ [last]) = .conjunction (joined first rest) (.operand rfl last) := by
  rw [joined, List.foldl_append]
  rfl

theorem joined_operands (first : Term) (rest : List Term) :
    (joined first rest).operands = first :: rest := by
  induction rest using List.reverseRecOn with
  | nil => rfl
  | append_singleton rest last inductionHypothesis =>
      rw [joined_append, operands, inductionHypothesis]
      rfl

theorem mapM_id_some (terms : List Term) : (terms.map some).mapM id = some terms := by
  induction terms with
  | nil => rfl
  | cons first rest inductionHypothesis =>
      rw [List.map_cons, List.mapM_cons, inductionHypothesis]
      rfl

theorem meanings_operand (terms : List Term) :
    meanings (terms.map (.operand rfl) : List Composition) = terms.map some := by
  induction terms with
  | nil => rfl
  | cons first rest inductionHypothesis =>
      rw [List.map_cons, meanings, inductionHypothesis]
      rfl

theorem listed_meaning (terms : List Term) :
    (listed terms).meaning = conjunctionContent terms := by
  rw [listed, meaning, meanings_operand, mapM_id_some]
  rfl

/-- One after the other, the members are flattened: each join flattens the one before it
and the next member. -/
theorem joined_meaning {first : Term} {rest : List Term}
    (termsFormed : ∀ term ∈ first :: rest, term.Formed .usual) :
    (joined first rest).meaning.map bare =
      (conjunctionContent (flattened (first :: rest))).map bare := by
  induction rest using List.reverseRecOn with
  | nil =>
      have firstFormed := termsFormed first List.mem_cons_self
      rw [flattened, List.flatMap_singleton, conjunctionContent_conjuncts firstFormed]
      rfl
  | append_singleton rest last inductionHypothesis =>
      rw [← List.cons_append, List.forall_mem_append] at termsFormed
      obtain ⟨beforeFormed, lastFormed⟩ := termsFormed
      have lastFormed := lastFormed last List.mem_cons_self
      obtain ⟨before, isBefore⟩ : ∃ before,
          conjunctionContent (flattened (first :: rest)) = some before :=
        conjunctionContent_flattened_isSome (beforeFormed first List.mem_cons_self)
      have sameMeaning := inductionHypothesis beforeFormed
      rw [isBefore] at sameMeaning
      obtain ⟨meant, isMeant, sameBare⟩ := Option.map_eq_some_iff.mp sameMeaning
      rw [joined_append, meaning, isMeant, ← List.cons_append,
        ← conjunctionContent_flattened_append beforeFormed lastFormed isBefore]
      apply conjunctionContent_congr
      rw [List.map_append, List.map_append, ← conjuncts_bare, ← conjuncts_bare, ← conjuncts_bare,
        sameBare]

variable {registry : Registry}

theorem listed_returns (held : Held) {terms : List Term} (formed : registry.Formed .usual)
    (termsFormed : ∀ term ∈ terms, term.Formed .usual) :
    Returns ((listed terms).evaluate .usual held registry) (Fits (conjunctionContent terms)) := by
  rw [← listed_meaning]
  refine (listed terms).evaluate_returns held registry ?_ formed
  rwa [listed_operands]

theorem joined_returns (held : Held) {first : Term} {rest : List Term}
    (formed : registry.Formed .usual) (termsFormed : ∀ term ∈ first :: rest, term.Formed .usual) :
    Returns ((joined first rest).evaluate .usual held registry)
      (Fits (conjunctionContent (flattened (first :: rest)))) := by
  refine returns_congr ((joined first rest).evaluate_returns held registry ?_ formed)
    (joined_meaning termsFormed)
  rwa [joined_operands]

end Composition

namespace Session

open AttentiveReasoner.Language.Composition Construction

variable {session : Session} {made : List ObjectId}

/-- Two compositions of registered operands, evaluated one after the other while the first
value is held, have one object as their value if both values have the same name. -/
theorem evaluated_eq_iff (composition other : Composition) {first second : Term}
    (formed : session.Formed .usual) (unique : session.registry.Unique made session.terms)
    (registered : ∀ operand ∈ composition.operands, Registered made session.terms operand)
    (otherRegistered : ∀ operand ∈ other.operands, Registered made session.terms operand)
    (evaluated :
      (composition.evaluate .usual session.held session.registry).1 = .ok (some first)) :
    let recorded := session.record
      (composition.evaluate .usual session.held session.registry).2 (some first)
    (other.evaluate .usual recorded.held recorded.registry).1 = .ok (some second) →
    (second = first ↔ second.name = first.name) := by
  intro recorded otherEvaluated
  obtain ⟨recordedTerms, recordedFormed, recordedUnique, firstRegistered, _⟩ :=
    record_evaluated formed unique registered evaluated
  have stillRegistered : ∀ operand ∈ other.operands,
      Registered made recorded.terms operand := by
    intro operand member
    refine (otherRegistered operand member).mono ?_
    rw [recordedTerms]
    exact fun _ old => List.mem_append_left _ old
  obtain ⟨value, last, isEvaluated, _, _, lastUnique, valueRegistered⟩ :=
    other.evaluate_keeps recordedFormed.registry recordedUnique (held_counts recorded)
      stillRegistered
  rw [isEvaluated] at otherEvaluated
  obtain rfl : value = some second := Except.ok.inj otherEvaluated
  have secondRegistered := valueRegistered second List.mem_cons_self
  constructor
  · intro same
    rw [same]
  · intro sameName
    exact lastUnique.eq_of_name_eq secondRegistered.inside
      (inside_append.mpr (.inl firstRegistered.inside)) secondRegistered.original
      firstRegistered.original sameName

/-- After any requests, held terms have a conjunction made at once and one made term after
term. These are one object, or have one name if copies are among the terms, if and only if
no term is a conjunction or all have the same name. Made of flat terms, the second is flat,
and the first is flat in the same cases. -/
theorem listed_meets_joined_iff (requests : List Request) (first : Term) (rest : List Term)
    (areHeld : ∀ term ∈ first :: rest, Inside (of .usual requests).terms term) :
    let session := of .usual requests
    let listing := (listed (first :: rest)).evaluate .usual session.held session.registry
    ∃ atOnce oneByOne,
      let later := session.record listing.2 (some atOnce)
      listing.1 = .ok (some atOnce) ∧
        ((joined first rest).evaluate .usual later.held later.registry).1 =
          .ok (some oneByOne) ∧
        (oneByOne.name = atOnce.name ↔ Plain (first :: rest)) ∧
        ((∀ term ∈ first :: rest, term.object ∉ copies .usual {} requests) →
          (oneByOne = atOnce ↔ Plain (first :: rest))) ∧
        ((∀ term ∈ first :: rest, term.IsFlat) →
          oneByOne.IsFlat ∧ (atOnce.IsFlat ↔ Plain (first :: rest))) := by
  intro session listing
  have formed := of_formed .usual requests
  have unique := of_unique .usual requests
  have termsFormed : ∀ term ∈ first :: rest, term.Formed .usual := by
    intro term member
    obtain ⟨whole, wholeMember, isPart⟩ := areHeld term member
    exact (formed.terms whole wholeMember).ofPart isPart
  obtain ⟨whole, isWhole⟩ := conjunctionContent_isSome (List.mem_cons_self (a := first) (l := rest))
  obtain ⟨flat, isFlat⟩ : ∃ flat, conjunctionContent (flattened (first :: rest)) = some flat :=
    conjunctionContent_flattened_isSome (termsFormed first List.mem_cons_self)
  have listedReturns := listed_returns session.held formed.registry termsFormed
  rw [isWhole] at listedReturns
  obtain ⟨atOnce, listedRegistry, listedEvaluated, listedFormed, sameWhole⟩ :=
    returns_term listedReturns
  have isListing : listing = (.ok (some atOnce), listedRegistry) := listedEvaluated
  have laterFormed : (session.record listing.2 (some atOnce)).registry.Formed .usual := by
    rw [isListing]
    exact listedFormed
  have joinedReturns :=
    joined_returns (session.record listing.2 (some atOnce)).held laterFormed termsFormed
  rw [isFlat] at joinedReturns
  obtain ⟨oneByOne, joinedRegistry, joinedEvaluated, _, sameFlat⟩ := returns_term joinedReturns
  obtain ⟨sameName_iff, flatness⟩ := contents_meet termsFormed isWhole isFlat sameWhole sameFlat
  refine ⟨atOnce, oneByOne, ?_, ?_, sameName_iff, ?_, flatness⟩
  · rw [isListing]
  · rw [joinedEvaluated]
  · intro originals
    have registered : ∀ term ∈ first :: rest,
        Registered (copies .usual {} requests) session.terms term :=
      fun term member => ⟨areHeld term member, originals term member, termsFormed term member⟩
    rw [← sameName_iff]
    refine evaluated_eq_iff (listed (first :: rest)) (joined first rest) formed unique ?_ ?_ ?_ ?_
    · rw [listed_operands]
      exact registered
    · rw [joined_operands]
      exact registered
    · exact congrArg Prod.fst isListing
    · exact congrArg Prod.fst joinedEvaluated

/-- The requests for `a`, `b`, `c` and `(&&,b,c)`. -/
def nestingRequests : List Request :=
  [.word "a", .word "b", .word "c", .conjunction 1 2]

/-- At once, `a` and `(&&,b,c)` become `(&&,(&&,b,c),a)`, where one after the other they
become `(&&,a,b,c)`. -/
theorem nested_conjunctions_part :
    let session := of .usual nestingRequests
    let atom := (session.result? 0).get (by decide +kernel)
    let pair := (session.result? 3).get (by decide +kernel)
    let listing := (listed [atom, pair]).evaluate .usual session.held session.registry
    ∃ atOnce oneByOne,
      let later := session.record listing.2 (some atOnce)
      listing.1 = .ok (some atOnce) ∧
        ((joined atom [pair]).evaluate .usual later.held later.registry).1 =
          .ok (some oneByOne) ∧
        oneByOne ≠ atOnce ∧ oneByOne.name ≠ atOnce.name ∧ oneByOne.IsFlat ∧ ¬atOnce.IsFlat := by
  intro session atom pair listing
  have atomPlaced : session.result? 0 = some atom := (Option.some_get (by decide +kernel)).symm
  have pairPlaced : session.result? 3 = some pair := (Option.some_get (by decide +kernel)).symm
  have notPlain : ¬Plain [atom, pair] := by decide +kernel
  have areHeld : ∀ term ∈ [atom, pair], Inside session.terms term := by
    intro term member
    rcases List.mem_cons.mp member with rfl | member
    · exact .of_mem (result?_mem atomPlaced)
    · rw [List.mem_singleton.mp member]
      exact .of_mem (result?_mem pairPlaced)
  obtain ⟨atOnce, oneByOne, isAtOnce, isOneByOne, sameName_iff, same_iff, flat⟩ :=
    listed_meets_joined_iff nestingRequests atom [pair] areHeld
  have noCopies : ∀ term ∈ [atom, pair], term.object ∉ copies .usual {} nestingRequests :=
    fun _ _ => List.not_mem_nil
  obtain ⟨oneByOneFlat, atOnceFlat_iff⟩ := flat (by decide +kernel)
  exact ⟨atOnce, oneByOne, isAtOnce, isOneByOne,
    fun same => notPlain ((same_iff noCopies).mp same),
    fun sameName => notPlain (sameName_iff.mp sameName),
    oneByOneFlat, fun atOnceFlat => notPlain (atOnceFlat_iff.mp atOnceFlat)⟩

end Session

end AttentiveReasoner.Language
