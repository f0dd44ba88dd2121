import AttentiveReasoner.Proofs.Language.Sessions

/-!
Contract: reading a term off its name, under the usual symbols.

Owns:
- the characters of atoms, statements and conjunctions;
- that a name in front of a reserved character, or of nothing, fixes where it ends
  and what its term is made of;
- that obtained terms have the same name exactly if they have the same tree.

Does not own: other tables. With clashing symbols two terms may share a name.

A name is read from the left. Its first character tells an atom, a statement and a
conjunction apart, and every name inside a compound stands in front of a reserved
character, which no atom has.
-/

namespace AttentiveReasoner.Language

/-- The usual symbols. -/
abbrev Symbols.usual : Symbols := {}

/-! ## Characters -/

/-- Characters that may follow a name: none, or a reserved one first. -/
def Bounded (rest : List Char) : Prop :=
  ∀ first ∈ rest.head?, first ∈ Construction.reserved

theorem bounded_nil : Bounded [] := fun _ none => nomatch none

theorem bounded_cons {first : Char} (reserved : first ∈ Construction.reserved)
    (rest : List Char) : Bounded (first :: rest) := by
  intro other same
  obtain rfl := Option.some.inj same
  exact reserved

/-- An atom's name is not empty and has no reserved character. -/
theorem unreserved_of_isAtomName {name : List Char} (admissible : Construction.isAtomName name) :
    name ≠ [] ∧ ∀ char ∈ name, char ∉ Construction.reserved := by
  simp only [Construction.isAtomName, Bool.and_eq_true, Bool.not_eq_true',
    List.isEmpty_eq_false_iff, List.any_eq_false, List.contains_iff_mem] at admissible
  obtain ⟨nonempty, unreserved⟩ := admissible
  unfold Construction.atomBody at nonempty unreserved
  split at nonempty
  case h_1 kind marked =>
      rw [marked] at unreserved
      rcases name with _ | ⟨mark, body⟩
      · contradiction
      refine ⟨List.cons_ne_nil _ _, ?_⟩
      intro char member
      rcases List.mem_cons.mp member with rfl | member
      · unfold VariableKind.ofName? at marked
        split at marked <;> simp_all [Construction.reserved]
      · exact unreserved char member
  case h_2 unmarked =>
      rw [unmarked] at unreserved
      exact ⟨nonempty, unreserved⟩

/-- No atom's name starts like a compound's. -/
theorem first_unreserved {name rest tail : List Char} {first : Char}
    (admissible : Construction.isAtomName name) (split : name ++ rest = first :: tail) :
    first ∉ Construction.reserved := by
  obtain ⟨nonempty, unreserved⟩ := unreserved_of_isAtomName admissible
  rcases name with _ | ⟨char, name⟩
  · contradiction
  · obtain rfl := (List.cons.inj split).1
    exact unreserved char List.mem_cons_self

theorem takeWhile_unreserved {name rest : List Char}
    (unreserved : ∀ char ∈ name, char ∉ Construction.reserved) (bounded : Bounded rest) :
    (name ++ rest).takeWhile (fun char => !Construction.reserved.contains char) = name := by
  rw [List.takeWhile_append_of_pos (by simpa using unreserved)]
  rcases rest with _ | ⟨first, rest⟩
  · simp
  · have reserved := bounded first rfl
    simp [reserved]

theorem statementName_toList (copula : Copula) (subject predicate : String) :
    (Symbols.usual.statementName copula subject predicate).toList =
      '<' :: (subject.toList ++ ' ' :: ((Symbols.usual.copula copula).toList ++
        ' ' :: (predicate.toList ++ ['>']))) := by
  simp [Symbols.statementName]

theorem conjunctionName_toList (names : List String) :
    (Symbols.usual.conjunctionName names).toList =
      '(' :: '&' :: '&' :: (names.flatMap (fun name => ',' :: name.toList) ++ [')']) := by
  simp [Symbols.conjunctionName, String.toList_join, List.flatMap_map]

theorem copula_length (copula : Copula) :
    (Symbols.usual.copula copula).toList.length = 3 := by
  rcases copula with _ | _ | (_ | _ | _ | _) | _ <;> rfl

theorem copula_injective {left right : Copula}
    (same : Symbols.usual.copula left = Symbols.usual.copula right) : left = right := by
  rcases left with _ | _ | (_ | _ | _ | _) | _ <;>
    rcases right with _ | _ | (_ | _ | _ | _) | _ <;>
      first
      | rfl
      | exact absurd same (by decide)

/-- The symbols of copulas in front of a name fix where they end. -/
theorem copula_append_injective {left right : Copula} {leftRest rightRest : List Char}
    (same : (Symbols.usual.copula left).toList ++ leftRest =
      (Symbols.usual.copula right).toList ++ rightRest) :
    left = right ∧ leftRest = rightRest := by
  have sameLength : (Symbols.usual.copula left).toList.length =
      (Symbols.usual.copula right).toList.length := by
    rw [copula_length, copula_length]
  obtain ⟨sameSymbol, sameRest⟩ := List.append_inj same sameLength
  exact ⟨copula_injective (String.toList_inj.mp sameSymbol), sameRest⟩

/-! ## Decoding -/

namespace Term

/-- A term's name, wherever it stands in front of a reserved character, fixes its end
and the term's content. -/
def Decodes (term : Term) : Prop :=
  ∀ {other : Term} {rest otherRest : List Char},
    other.Formed .usual → Bounded rest → Bounded otherRest →
      term.name.toList ++ rest = other.name.toList ++ otherRest →
        term.bare = other.bare ∧ rest = otherRest

/-- What stands behind the connector of a conjunction. -/
theorem bounded_members (terms : List Term) (rest : List Char) :
    Bounded ((terms.map (·.name)).flatMap (fun name => ',' :: name.toList) ++ ')' :: rest) := by
  rcases terms with _ | ⟨first, others⟩
  · exact bounded_cons (by decide) _
  · exact bounded_cons (by decide) _

/-- The members of a conjunction, up to the closing bracket, fix their contents. -/
theorem members_decode {terms others : List Term} {rest otherRest : List Char}
    (decode : ∀ term ∈ terms, term.Decodes)
    (othersFormed : ∀ term ∈ others, term.Formed .usual)
    (same :
      (terms.map (·.name)).flatMap (fun name => ',' :: name.toList) ++ ')' :: rest =
        (others.map (·.name)).flatMap (fun name => ',' :: name.toList) ++ ')' :: otherRest) :
    terms.map bare = others.map bare ∧ rest = otherRest := by
  induction terms generalizing others with
  | nil =>
      rcases others with _ | ⟨other, others⟩
      · exact ⟨rfl, (List.cons.inj same).2⟩
      · exact absurd (List.cons.inj same).1 (by decide)
  | cons term terms inductionHypothesis =>
      rcases others with _ | ⟨other, others⟩
      · exact absurd (List.cons.inj same).1 (by decide)
      · have sameNames := (List.cons.inj same).2
        simp only [List.append_eq, List.append_assoc] at sameNames
        obtain ⟨sameTerm, sameMembers⟩ :=
          decode term List.mem_cons_self (othersFormed other List.mem_cons_self)
            (bounded_members terms rest) (bounded_members others otherRest) sameNames
        obtain ⟨sameTerms, sameRest⟩ :=
          inductionHypothesis (fun _ member => decode _ (List.mem_cons_of_mem _ member))
            (fun _ member => othersFormed _ (List.mem_cons_of_mem _ member)) sameMembers
        exact ⟨by rw [List.map_cons, List.map_cons, sameTerm, sameTerms], sameRest⟩

theorem statement_decodes {object : ObjectId} {copula : Copula} {subject predicate : Term}
    (subjectDecodes : subject.Decodes) (predicateDecodes : predicate.Decodes) :
    (Construction.makeStatement .usual copula subject predicate object).Decodes := by
  intro other rest otherRest otherFormed bounded otherBounded same
  simp only [Construction.makeStatement, compound, statementName_toList, List.cons_append,
    List.append_assoc, List.nil_append] at same
  cases otherFormed with
  | atom otherObject otherAdmissible =>
      rw [atom_name] at same
      exact absurd (by decide) (first_unreserved otherAdmissible same.symm)
  | @statement otherObject otherCopula otherSubject otherPredicate subjectFormed
      predicateFormed _ =>
      simp only [compound, statementName_toList, List.cons_append, List.append_assoc,
        List.nil_append, List.cons.injEq, true_and] at same
      -- The subject ends at the first space, and the predicate at the closing bracket.
      obtain ⟨sameSubject, same⟩ :=
        subjectDecodes subjectFormed (bounded_cons (by decide) _) (bounded_cons (by decide) _) same
      obtain ⟨sameCopula, same⟩ := copula_append_injective (List.cons.inj same).2
      obtain ⟨samePredicate, same⟩ :=
        predicateDecodes predicateFormed (bounded_cons (by decide) _)
          (bounded_cons (by decide) _) (List.cons.inj same).2
      refine ⟨?_, (List.cons.inj same).2⟩
      rw [Construction.makeStatement, bare_compound, bare_compound, sameCopula,
        name_eq_of_bare_eq sameSubject, name_eq_of_bare_eq samePredicate]
      simp only [List.map_cons, List.map_nil, sameSubject, samePredicate]
  | conjunction =>
      simp only [compound, conjunctionName_toList, List.cons_append] at same
      exact absurd (List.cons.inj same).1 (by decide)

theorem conjunction_decodes {object : ObjectId} {components : List Term}
    (componentsDecode : ∀ component ∈ components, component.Decodes) :
    (Construction.makeConjunction .usual components object).Decodes := by
  intro other rest otherRest otherFormed bounded otherBounded same
  simp only [Construction.makeConjunction, compound, conjunctionName_toList, List.cons_append,
    List.append_assoc, List.nil_append] at same
  cases otherFormed with
  | atom otherObject otherAdmissible =>
      rw [atom_name] at same
      exact absurd (by decide) (first_unreserved otherAdmissible same.symm)
  | statement =>
      simp only [compound, statementName_toList, List.cons_append] at same
      exact absurd (List.cons.inj same).1 (by decide)
  | @conjunction otherObject others othersFormed _ _ =>
      simp only [compound, conjunctionName_toList, List.cons_append, List.append_assoc,
        List.nil_append, List.cons.injEq, true_and] at same
      obtain ⟨sameComponents, sameRest⟩ := members_decode componentsDecode othersFormed same
      refine ⟨?_, sameRest⟩
      have sameNames : components.map (·.name) = others.map (·.name) := by
        rw [← names_map_bare components, sameComponents, names_map_bare]
      rw [Construction.makeConjunction, bare_compound, bare_compound, sameNames, sameComponents]

theorem atom_decodes {object : ObjectId} {name : String}
    (admissible : Construction.isAtomName name.toList) : (atom object name).Decodes := by
  intro other rest otherRest otherFormed bounded otherBounded same
  rw [atom_name] at same
  cases otherFormed with
  | @atom otherObject otherName otherAdmissible =>
      rw [atom_name] at same
      have sameName : name.toList = otherName.toList := by
        rw [← takeWhile_unreserved (unreserved_of_isAtomName admissible).2 bounded, same,
          takeWhile_unreserved (unreserved_of_isAtomName otherAdmissible).2 otherBounded]
      rw [sameName] at same
      obtain rfl := String.toList_inj.mp sameName
      exact ⟨by rw [bare_atom, bare_atom], List.append_cancel_left same⟩
  | statement =>
      simp only [compound, statementName_toList, List.cons_append] at same
      exact absurd (by decide) (first_unreserved admissible same)
  | conjunction =>
      simp only [compound, conjunctionName_toList, List.cons_append] at same
      exact absurd (by decide) (first_unreserved admissible same)

theorem Formed.decodes {term : Term} (formed : term.Formed .usual) : term.Decodes := by
  induction formed with
  | atom object admissible => exact atom_decodes admissible
  | statement object _ _ _ subjectDecodes predicateDecodes =>
      exact statement_decodes subjectDecodes predicateDecodes
  | conjunction object _ _ _ componentsDecode => exact conjunction_decodes componentsDecode

/-- Formed terms with the same name have the same content. -/
theorem Formed.bare_eq {term other : Term} (formed : term.Formed .usual)
    (otherFormed : other.Formed .usual) (sameName : term.name = other.name) :
    term.bare = other.bare :=
  (formed.decodes otherFormed bounded_nil bounded_nil (by rw [sameName])).1

/-! ## Trees fix names -/

theorem names_eq_of_trees_eq {terms others : List Term}
    (each : ∀ term ∈ terms, ∀ other ∈ others, term.tree = other.tree → term.name = other.name)
    (same : terms.map tree = others.map tree) :
    terms.map (·.name) = others.map (·.name) := by
  induction terms generalizing others with
  | nil => rw [List.map_eq_nil_iff.mp same.symm]
  | cons term terms inductionHypothesis =>
      obtain ⟨other, others, rfl, sameTree, sameTrees⟩ := List.map_eq_cons_iff.mp same.symm
      rw [List.map_cons, List.map_cons,
        each term List.mem_cons_self other List.mem_cons_self sameTree.symm,
        inductionHypothesis
          (fun _ member _ otherMember =>
            each _ (List.mem_cons_of_mem _ member) _ (List.mem_cons_of_mem _ otherMember))
          sameTrees.symm]

/-- A compound's name follows from its form and the names of its components. -/
theorem compoundName_eq {symbols : Symbols} {term other : Term}
    (normal : NormalForm symbols term) (otherNormal : NormalForm symbols other)
    (compound : term.isAtomic = false) (sameKind : term.kind = other.kind)
    (sameNames : term.components.map (·.name) = other.components.map (·.name)) :
    term.name = other.name := by
  cases kind : term.kind with
  | word | «variable» _ => simp [isAtomic, kind] at compound
  | conjunction =>
      have conjunction : term.isConjunction = true := by simp [isConjunction, kind]
      have otherConjunction : other.isConjunction = true := by
        simp [isConjunction, ← sameKind, kind]
      rw [(normal.conjunction conjunction).2.2, (otherNormal.conjunction otherConjunction).2.2,
        sameNames]
  | statement copula =>
      have hasCopula : term.copula? = some copula := by simp [copula?, kind]
      have otherCopula : other.copula? = some copula := by simp [copula?, ← sameKind, kind]
      obtain ⟨subject, predicate, components, _, named⟩ := normal.statement copula hasCopula
      obtain ⟨otherSubject, otherPredicate, otherComponents, _, otherNamed⟩ :=
        otherNormal.statement copula otherCopula
      simp only [components, otherComponents, List.map_cons, List.map_nil, List.cons.injEq,
        and_true] at sameNames
      rw [named, otherNamed, sameNames.1, sameNames.2]

/-- Terms formed under one table have the same name if they have the same tree. -/
theorem Formed.name_eq {symbols : Symbols} {term : Term} :
    ∀ {other : Term}, term.Formed symbols → other.Formed symbols → term.tree = other.tree →
      term.name = other.name := by
  induction term using componentInduction with
  | step term inductionHypothesis =>
      intro other formed otherFormed sameTree
      rw [tree_eq, tree_eq other, Tree.node.injEq] at sameTree
      obtain ⟨sameKind, sameAtomName, sameTrees⟩ := sameTree
      have sameAtomic : term.isAtomic = other.isAtomic := by simp [isAtomic, sameKind]
      cases atomic : term.isAtomic with
      | true =>
          rw [← sameAtomic] at sameAtomName
          simpa [atomic] using sameAtomName
      | false =>
          refine compoundName_eq formed.normalForm otherFormed.normalForm atomic sameKind ?_
          refine names_eq_of_trees_eq ?_ sameTrees
          intro component member otherComponent otherMember
          exact inductionHypothesis component member (formed.component _ member)
            (otherFormed.component _ otherMember)

end Term

namespace Session

/-- Terms that callers got, of one registry or of two, have the same name exactly if
they have the same tree. -/
theorem name_eq_iff_tree_eq {requests otherRequests : List Request} {term other : Term}
    (obtained : term ∈ (of .usual requests).terms)
    (otherObtained : other ∈ (of .usual otherRequests).terms) :
    term.name = other.name ↔ term.tree = other.tree := by
  have formed := (of_formed .usual requests).terms term obtained
  have otherFormed := (of_formed .usual otherRequests).terms other otherObtained
  constructor
  · intro sameName
    rw [← Term.tree_bare term, formed.bare_eq otherFormed sameName, Term.tree_bare]
  · exact formed.name_eq otherFormed

/-- The requests for `<(&&,a,b) ==> c>` without an absorption. -/
def directRequests : List Request :=
  [.word "c", .word "b", .word "a", .conjunction 1 2,
    .statement (.implication .eternal) 3 0]

/-- An absorbed implication has the tree of the implication made directly. -/
theorem absorbed_tree_eq :
    (((of .usual absorbingRequests).result? 4).get (by decide +kernel)).tree =
      (((of .usual directRequests).result? 4).get (by decide +kernel)).tree :=
  (name_eq_iff_tree_eq (get_result?_mem _) (get_result?_mem _)).mp (by decide +kernel)

end Session

end AttentiveReasoner.Language
