import AttentiveReasoner.Proofs.Language.Formation
import AttentiveReasoner.Proofs.Language.Holding
import Mathlib.Data.List.Nodup

/-!
Contract: one object for each name.

Owns:
- the invariant of a registry, relative to the copies that were made and to all terms
  that somebody holds;
- that the entry of a name is held exactly if a held term of that name is no copy;
- looking up, releasing, purging and copying under the invariant;
- that every construction from held operands keeps it, with its result held besides.

Does not own: who holds what, and in which order terms come and go.

The invariant says that whatever is held and no copy is listed. An entry that nobody
holds may be dropped at any time; one that is held never is, because the part that
holds it is the entry itself. The symbols are arbitrary.
-/

namespace AttentiveReasoner.Language

open Term

namespace Registry

variable {registry : Registry} {copies : List ObjectId} {terms : List Term} {held : Held}

/-- The registry lists every held term that is no copy, and one under each name. -/
structure Unique (registry : Registry) (copies : List ObjectId) (terms : List Term) : Prop where
  names_nodup : (registry.entries.map (·.name)).Nodup
  objects_nodup : (registry.entries.map (·.object)).Nodup
  entry_lt : ∀ entry ∈ registry.entries, entry.object < registry.free
  copy_lt : ∀ object ∈ copies, object < registry.free
  entry_original : ∀ entry ∈ registry.entries, entry.object ∉ copies
  listed : ∀ part, Inside terms part → part.object ∉ copies → part ∈ registry.entries

theorem empty_unique : ({} : Registry).Unique [] [] where
  names_nodup := List.nodup_nil
  objects_nodup := List.nodup_nil
  entry_lt := fun _ member => nomatch member
  copy_lt := fun _ member => nomatch member
  entry_original := fun _ member => nomatch member
  listed := fun _ inside => by simp [Inside] at inside

/-! ## Entries -/

theorem Unique.entry?_eq {entry : Term} (unique : registry.Unique copies terms)
    (member : entry ∈ registry.entries) : registry.entry? entry.name = some entry := by
  have present : Option.isSome <| registry.entry? entry.name := by
    unfold entry?
    rw [List.find?_isSome]
    exact ⟨entry, member, by simp⟩
  obtain ⟨found, isFound⟩ := Option.isSome_iff_exists.mp present
  have foundName : found.name = entry.name := by simpa using List.find?_some isFound
  have same : found = entry :=
    List.inj_on_of_nodup_map unique.names_nodup (List.mem_of_find?_eq_some isFound) member
      foundName
  rw [isFound, same]

/-- A held entry is held as itself. -/
theorem Unique.inside_of_held {entry : Term} (unique : registry.Unique copies terms)
    (counts : held.Counts terms) (member : entry ∈ registry.entries)
    (isHeld : held entry.object = true) : Inside terms entry := by
  obtain ⟨part, inside, sameObject⟩ := (counts entry.object).mp isHeld
  have original : part.object ∉ copies := by
    rw [sameObject]
    exact unique.entry_original entry member
  have partMember := unique.listed part inside original
  have same : part = entry :=
    List.inj_on_of_nodup_map unique.objects_nodup partMember member sameObject
  rw [← same]
  exact inside

/-- A name's entry is held exactly if a held term of the name is no copy; it is that
term. -/
theorem Unique.live?_iff {name : String} {term : Term} (unique : registry.Unique copies terms)
    (counts : held.Counts terms) :
    registry.live? held name = some term ↔
      Inside terms term ∧ term.object ∉ copies ∧ term.name = name := by
  constructor
  · intro live
    obtain ⟨member, named⟩ := mem_of_live? live
    have isHeld : held term.object = true := (Option.filter_eq_some_iff.mp live).2
    exact ⟨unique.inside_of_held counts member isHeld, unique.entry_original term member, named⟩
  · rintro ⟨inside, original, rfl⟩
    have member := unique.listed term inside original
    rw [live?, unique.entry?_eq member, Option.filter_eq_some_iff]
    exact ⟨rfl, (counts term.object).mpr ⟨term, inside, rfl⟩⟩

/-! ## Holding and dropping -/

theorem Unique.mono {others : List Term} (unique : registry.Unique copies terms)
    (covered : ∀ term ∈ others, Inside terms term) : registry.Unique copies others :=
  { unique with
    listed := fun part inside original => unique.listed part (inside.mono covered) original }

/-- Entries may go as long as nobody holds them. -/
theorem Unique.filter {keep : Term → Bool} (unique : registry.Unique copies terms)
    (kept : ∀ entry ∈ registry.entries, Inside terms entry → keep entry = true) :
    ({ registry with entries := registry.entries.filter keep } : Registry).Unique
      copies terms where
  names_nodup := unique.names_nodup.sublist (List.filter_sublist.map _)
  objects_nodup := unique.objects_nodup.sublist (List.filter_sublist.map _)
  entry_lt := fun entry member => unique.entry_lt entry (List.mem_filter.mp member).1
  copy_lt := unique.copy_lt
  entry_original := fun entry member => unique.entry_original entry (List.mem_filter.mp member).1
  listed := by
    intro part inside original
    have member := unique.listed part inside original
    exact List.mem_filter.mpr ⟨member, kept part member inside⟩

theorem Unique.remove {name : String} (unique : registry.Unique copies terms)
    (counts : held.Counts terms) (dead : registry.live? held name = none) :
    (registry.remove name).Unique copies terms := by
  refine unique.filter ?_
  intro entry member inside
  have different : entry.name ≠ name := by
    intro named
    have live := (unique.live?_iff counts).mpr
      ⟨inside, unique.entry_original entry member, named⟩
    rw [dead] at live
    contradiction
  simpa using different

/-- Looking a name up leaves what releasing it leaves. -/
theorem release_registry (registry : Registry) (held : Held) (name : String) :
    (registry.release held name).2 = (registry.listed held name).2 := by
  unfold release listed
  cases registry.entry? name with
  | none => rfl
  | some term => cases isHeld : held term.object <;> simp [isHeld]

theorem Unique.lookedUp (unique : registry.Unique copies terms) (counts : held.Counts terms)
    (name : String) : (registry.listed held name).2.Unique copies terms := by
  rw [listed_eq]
  cases live : registry.live? held name with
  | none => exact unique.remove counts live
  | some term => exact unique

theorem Unique.release (unique : registry.Unique copies terms) (counts : held.Counts terms)
    (name : String) : (registry.release held name).2.Unique copies terms := by
  rw [release_registry]
  exact unique.lookedUp counts name

theorem Unique.purge (unique : registry.Unique copies terms) (counts : held.Counts terms) :
    (registry.purge held).2.Unique copies terms := by
  refine unique.filter ?_
  intro entry _ inside
  exact (counts entry.object).mpr ⟨entry, inside, rfl⟩

/-- The objects of a copy are new, so that no entry becomes a copy's. -/
theorem Unique.copy {term : Term} (unique : registry.Unique copies terms) :
    (registry.copy term).2.Unique (copies ++ (registry.copy term).1.objects)
      ((registry.copy term).1 :: terms) := by
  obtain ⟨grown, between⟩ := copy_objects registry.free term
  constructor
  case names_nodup => exact unique.names_nodup
  case objects_nodup => exact unique.objects_nodup
  case entry_lt =>
    intro entry member
    exact Nat.lt_trans (unique.entry_lt entry member) grown
  case copy_lt =>
    intro object member
    rcases List.mem_append.mp member with old | new
    · exact Nat.lt_trans (unique.copy_lt object old) grown
    · exact (between object new).2
  case entry_original =>
    intro entry member copied
    rcases List.mem_append.mp copied with old | new
    · exact unique.entry_original entry member old
    · exact absurd (between entry.object new).1 (Nat.not_le.mpr (unique.entry_lt entry member))
  case listed =>
    intro part inside original
    rw [List.mem_append, not_or] at original
    rcases inside_cons.mp inside with insideCopy | inside
    · exact absurd (mem_objects_iff.mpr ⟨part, insideCopy, rfl⟩) original.2
    · exact unique.listed part inside original.1

/-! ## Obtaining -/

/-- A new term over held components may be entered where its name has no held entry. -/
theorem Unique.enter {term : Term} (unique : registry.Unique copies terms)
    (counts : held.Counts terms)
    (numbered : term.object = registry.free)
    (componentsInside : ∀ component ∈ term.components, Inside terms component)
    (dead : registry.live? held term.name = none) :
    (registry.enter term).Unique copies (term :: terms) := by
  have remaining := unique.remove counts dead
  have newObject : ∀ entry ∈ (registry.remove term.name).entries, entry.object ≠ term.object := by
    intro entry member same
    have bound := remaining.entry_lt entry member
    rw [same, numbered] at bound
    exact Nat.lt_irrefl _ bound
  constructor
  case names_nodup =>
    rw [Registry.enter, List.map_append, List.nodup_append]
    refine ⟨remaining.names_nodup, by simp, ?_⟩
    rintro name member other (_ | ⟨_, ⟨⟩⟩) rfl
    obtain ⟨entry, entryMember, named⟩ := List.mem_map.mp member
    have different := (List.mem_filter.mp entryMember).2
    simp [named] at different
  case objects_nodup =>
    rw [Registry.enter, List.map_append, List.nodup_append]
    refine ⟨remaining.objects_nodup, by simp, ?_⟩
    rintro object member other (_ | ⟨_, ⟨⟩⟩) rfl
    obtain ⟨entry, entryMember, same⟩ := List.mem_map.mp member
    exact newObject entry entryMember same
  case entry_lt =>
    intro entry member
    rcases List.mem_append.mp member with old | new
    · exact Nat.lt_succ_of_lt (remaining.entry_lt entry old)
    · rw [List.mem_singleton.mp new, numbered]
      exact Nat.lt_succ_self _
  case copy_lt =>
    intro object member
    exact Nat.lt_succ_of_lt (unique.copy_lt object member)
  case entry_original =>
    intro entry member
    rcases List.mem_append.mp member with old | new
    · exact remaining.entry_original entry old
    · rw [List.mem_singleton.mp new, numbered]
      exact fun copied => Nat.lt_irrefl _ (unique.copy_lt _ copied)
  case listed =>
    intro part inside original
    have fromTerms : Inside terms part → part ∈ (registry.enter term).entries :=
      fun inside => List.mem_append_left _ (remaining.listed part inside original)
    rcases inside_cons.mp inside with insideTerm | inside
    · rcases partOf_iff.mp insideTerm with rfl | ⟨component, member, insideComponent⟩
      · exact List.mem_append_right _ List.mem_cons_self
      · exact fromTerms ((componentsInside component member).ofPart insideComponent)
    · exact fromTerms inside

end Registry

/-- A construction that starts from a registry keeps the invariant, with its result held
besides, and gives no object number back. -/
structure Settles (copies : List ObjectId) (terms : List Term) (registry : Registry)
    (result : Outcome × Registry) : Prop where
  kept : result.2.Unique copies terms
  made : ∀ term, result.1 = .ok (some term) → result.2.Unique copies (term :: terms)
  grown : registry.free ≤ result.2.free

/-- A construction that settles, and whose result is no copy. -/
structure Registers (copies : List ObjectId) (terms : List Term) (registry : Registry)
    (result : Outcome × Registry) : Prop extends Settles copies terms registry result where
  original : ∀ term, result.1 = .ok (some term) → term.object ∉ copies

variable {copies : List ObjectId} {terms : List Term} {registry : Registry} {held : Held}

theorem Registers.nothing {outcome : Outcome} (unique : registry.Unique copies terms)
    (noTerm : ∀ term, outcome ≠ .ok (some term)) :
    Registers copies terms registry (outcome, registry) where
  kept := unique
  made := fun term given => absurd given (noTerm term)
  grown := Nat.le_refl _
  original := fun term given => absurd given (noTerm term)

theorem Settles.single {term : Term} (unique : registry.Unique copies terms)
    (inside : Inside terms term) :
    Settles copies terms registry (.ok (some term), registry) where
  kept := unique
  made := by
    intro other given
    obtain rfl : term = other := by simpa using given
    refine unique.mono ?_
    intro member isMember
    rcases List.mem_cons.mp isMember with rfl | isMember
    · exact inside
    · exact .of_mem isMember
  grown := Nat.le_refl _

theorem Registers.single {term : Term} (unique : registry.Unique copies terms)
    (inside : Inside terms term) (original : term.object ∉ copies) :
    Registers copies terms registry (.ok (some term), registry) where
  toSettles := .single unique inside
  original := by
    intro other given
    obtain rfl : term = other := by simpa using given
    exact original

/-- What was settled while more was held, and from a later registry, is settled. -/
theorem Settles.mono {others : List Term} {later : Registry} {result : Outcome × Registry}
    (settles : Settles copies others later result)
    (covered : ∀ term ∈ terms, Inside others term) (grown : registry.free ≤ later.free) :
    Settles copies terms registry result where
  kept := settles.kept.mono covered
  made := by
    intro term given
    refine (settles.made term given).mono ?_
    intro member isMember
    rcases List.mem_cons.mp isMember with rfl | isMember
    · exact .of_mem List.mem_cons_self
    · exact (covered member isMember).mono fun other isOther =>
        .of_mem (List.mem_cons_of_mem _ isOther)
  grown := Nat.le_trans grown settles.grown

theorem Registers.mono {others : List Term} {later : Registry} {result : Outcome × Registry}
    (registers : Registers copies others later result)
    (covered : ∀ term ∈ terms, Inside others term) (grown : registry.free ≤ later.free) :
    Registers copies terms registry result where
  toSettles := registers.toSettles.mono covered grown
  original := registers.original

/-- Obtaining a term over held components registers it. -/
theorem Registers.obtain {make : ObjectId → Term} (unique : registry.Unique copies terms)
    (counts : held.Counts terms)
    (numbered : (make registry.free).object = registry.free)
    (componentsInside : ∀ component ∈ (make registry.free).components, Inside terms component) :
    Registers copies terms registry (registry.obtain held make) := by
  simp only [Registry.obtain]
  cases live : registry.live? held (make registry.free).name with
  | none =>
      have entered := unique.enter counts numbered componentsInside live
      have isNew : (make registry.free).object ∉ copies :=
        entered.entry_original _ (List.mem_append_right _ List.mem_cons_self)
      constructor
      case toSettles =>
        refine ⟨entered.mono fun term member => .of_mem (List.mem_cons_of_mem _ member), ?_,
          Nat.le_succ _⟩
        intro term given
        obtain rfl : make registry.free = term := by simpa using given
        exact entered
      case original =>
        intro term given
        obtain rfl : make registry.free = term := by simpa using given
        exact isNew
  | some existing =>
      obtain ⟨inside, original, _⟩ := (unique.live?_iff counts).mp live
      simp only [Registry.checkKind]
      split
      · exact .single unique inside original
      · exact .nothing unique (fun _ => by simp [Except.map])

/-- Looking a name up registers if what follows an empty look does. -/
theorem Registers.lookup {name : String} {kind : TermKind}
    {next : Registry → Outcome × Registry} (unique : registry.Unique copies terms)
    (counts : held.Counts terms)
    (nextRegisters : registry.live? held name = none →
      Registers copies terms (registry.remove name) (next (registry.remove name))) :
    Registers copies terms registry
      (match registry.lookup held name kind with
        | (.error failure, registry) => (.error failure, registry)
        | (.ok (some existing), registry) => (.ok (some existing), registry)
        | (.ok none, registry) => next registry) := by
  rw [Registry.lookup_eq]
  cases live : registry.live? held name with
  | none => exact (nextRegisters live).mono (fun _ member => .of_mem member) (Nat.le_refl _)
  | some existing =>
      obtain ⟨inside, original, _⟩ := (unique.live?_iff counts).mp live
      by_cases expected : existing.kind = kind
      · simp only [Registry.checkKind, expected, ↓reduceIte]
        exact .single unique inside original
      · simp only [Registry.checkKind, expected, ↓reduceIte]
        exact .nothing unique (fun _ => by simp)

namespace Construction

variable {symbols : Symbols}

theorem word_registers (written : String) (unique : registry.Unique copies terms)
    (counts : held.Counts terms) :
    Registers copies terms registry (word held written registry) := by
  rw [word_eq]
  split
  · refine .obtain unique counts ?_ ?_
    · unfold Term.atom
      split <;> rfl
    · simp
  · exact .nothing unique (fun _ => by simp)

/-! ## Conjunctions -/

theorem conjunctionOf_settles {members : List Term} (unique : registry.Unique copies terms)
    (counts : held.Counts terms) (inside : ∀ member ∈ members, Inside terms member) :
    Settles copies terms registry (conjunctionOf symbols held members registry) := by
  have sortedInside : ∀ member ∈ sortByName members, Inside terms member :=
    fun member isMember => inside member (mem_of_mem_sortByName isMember)
  rw [conjunctionOf_eq]
  generalize sortByName members = components at sortedInside ⊢
  rcases components with _ | ⟨first, _ | ⟨second, rest⟩⟩
  · exact (Registers.nothing unique (fun _ => by simp)).toSettles
  · exact .single unique (sortedInside first List.mem_cons_self)
  · exact (Registers.obtain unique counts rfl sortedInside).toSettles

/-- A conjunction is no copy unless it is a single member that is one. -/
theorem conjunctionOf_registers {members : List Term} (unique : registry.Unique copies terms)
    (counts : held.Counts terms) (inside : ∀ member ∈ members, Inside terms member)
    (original : ∀ member, sortByName members = [member] → member.object ∉ copies) :
    Registers copies terms registry (conjunctionOf symbols held members registry) := by
  have sortedInside : ∀ member ∈ sortByName members, Inside terms member :=
    fun member isMember => inside member (mem_of_mem_sortByName isMember)
  rw [conjunctionOf_eq]
  generalize sortByName members = components at sortedInside original ⊢
  rcases components with _ | ⟨first, _ | ⟨second, rest⟩⟩
  · exact .nothing unique (fun _ => by simp)
  · exact .single unique (sortedInside first List.mem_cons_self) (original first rfl)
  · exact .obtain unique counts rfl sortedInside

theorem conjuncts_inside {term : Term} (inside : Inside terms term) :
    ∀ conjunct ∈ conjuncts term, Inside terms conjunct := by
  unfold conjuncts
  split
  · exact fun conjunct member => inside.component member
  · intro conjunct member
    rw [List.mem_singleton.mp member]
    exact inside

theorem bothConjuncts_inside {left right : Term} (leftInside : Inside terms left)
    (rightInside : Inside terms right) :
    ∀ term ∈ conjuncts left ++ conjuncts right, Inside terms term := by
  intro term member
  rcases List.mem_append.mp member with member | member
  · exact conjuncts_inside leftInside term member
  · exact conjuncts_inside rightInside term member

theorem name_mem_insertByName {term : Term} {terms : List Term} {name : String} :
    name = term.name ∨ name ∈ terms.map (·.name) →
      name ∈ (insertByName term terms).map (·.name) := by
  induction terms with
  | nil => simp [insertByName]
  | cons first rest inductionHypothesis =>
      intro either
      unfold insertByName
      split
      · simpa using either
      · split
        · rename_i same
          simp only [List.map_cons, List.mem_cons, ← same] at either ⊢
          rcases either with named | named | inRest
          · exact .inl named
          · exact .inl named
          · exact .inr inRest
        · rw [List.map_cons, List.mem_cons] at either ⊢
          rcases either with named | named | inRest
          · exact .inr (inductionHypothesis (.inl named))
          · exact .inl named
          · exact .inr (inductionHypothesis (.inr inRest))

/-- Sorting loses no name. -/
theorem name_mem_sortByName {term : Term} {members : List Term} (member : term ∈ members) :
    term.name ∈ (sortByName members).map (·.name) := by
  induction members with
  | nil => contradiction
  | cons first rest inductionHypothesis =>
      apply name_mem_insertByName
      rcases List.mem_cons.mp member with rfl | member
      · exact .inl rfl
      · exact .inr (inductionHypothesis member)

/-- A formed conjunction has two names among its conjuncts, so whatever they are sorted
with, more than one remains. -/
theorem conjuncts_of_sorted_single {term single : Term} {members : List Term}
    (formed : term.Formed symbols)
    (among : ∀ conjunct ∈ conjuncts term, conjunct ∈ members)
    (sorted : sortByName members = [single]) : conjuncts term = [term] := by
  have sameName : ∀ conjunct ∈ conjuncts term, conjunct.name = single.name := by
    intro conjunct member
    have named := name_mem_sortByName (among conjunct member)
    rw [sorted] at named
    simpa using named
  by_cases conjunction : term.isConjunction = true
  · obtain ⟨several, increasing, _⟩ := formed.normalForm.conjunction conjunction
    simp only [conjuncts, conjunction, ↓reduceIte] at sameName
    rcases components : term.components with _ | ⟨first, _ | ⟨second, rest⟩⟩
    · simp [components] at several
    · simp [components] at several
    · rw [components] at increasing sameName
      have less : first.name < second.name := by
        have pairs := List.pairwise_cons.mp increasing
        exact pairs.1 second.name (by simp)
      rw [sameName first (by simp), sameName second (by simp)] at less
      exact absurd less (String.lt_irrefl _)
  · simp [conjuncts, conjunction]

theorem conjunction_settles {left right : Option Term} (unique : registry.Unique copies terms)
    (counts : held.Counts terms)
    (leftInside : ∀ term ∈ left, Inside terms term)
    (rightInside : ∀ term ∈ right, Inside terms term) :
    Settles copies terms registry (conjunction symbols held left right registry) := by
  unfold conjunction
  split
  · rename_i left right
    exact conjunctionOf_settles unique counts
      (bothConjuncts_inside (leftInside left rfl) (rightInside right rfl))
  · exact (Registers.nothing unique (fun _ => by simp)).toSettles

/-- A single conjunct of two terms is one of them. -/
theorem conjunction_registers {left right : Option Term} (unique : registry.Unique copies terms)
    (counts : held.Counts terms)
    (leftInside : ∀ term ∈ left, Inside terms term)
    (rightInside : ∀ term ∈ right, Inside terms term)
    (leftFormed : ∀ term ∈ left, term.Formed symbols)
    (rightFormed : ∀ term ∈ right, term.Formed symbols)
    (leftOriginal : ∀ term ∈ left, term.object ∉ copies)
    (rightOriginal : ∀ term ∈ right, term.object ∉ copies) :
    Registers copies terms registry (conjunction symbols held left right registry) := by
  unfold conjunction
  split
  · rename_i left right
    refine conjunctionOf_registers unique counts
      (bothConjuncts_inside (leftInside left rfl) (rightInside right rfl)) ?_
    intro single sorted
    have leftConjuncts : conjuncts left = [left] :=
      conjuncts_of_sorted_single (leftFormed left rfl)
        (fun _ member => List.mem_append_left _ member) sorted
    have rightConjuncts : conjuncts right = [right] :=
      conjuncts_of_sorted_single (rightFormed right rfl)
        (fun _ member => List.mem_append_right _ member) sorted
    have member : single ∈ conjuncts left ++ conjuncts right :=
      mem_of_mem_sortByName (by rw [sorted]; exact List.mem_cons_self)
    rw [leftConjuncts, rightConjuncts] at member
    rcases List.mem_append.mp member with isLeft | isRight
    · rw [List.mem_singleton.mp isLeft]
      exact leftOriginal left rfl
    · rw [List.mem_singleton.mp isRight]
      exact rightOriginal right rfl
  · exact .nothing unique (fun _ => by simp)

/-! ## Statements -/

theorem orderSides_inside (copula : Copula) {subject predicate : Term}
    (subjectInside : Inside terms subject) (predicateInside : Inside terms predicate) :
    Inside terms (orderSides copula subject predicate).1 ∧
      Inside terms (orderSides copula subject predicate).2 := by
  unfold orderSides
  split
  · exact ⟨predicateInside, subjectInside⟩
  · exact ⟨subjectInside, predicateInside⟩

theorem subject?_mem {term subject : Term} (hasSubject : term.subject? = some subject) :
    subject ∈ term.components := by
  unfold Term.subject? at hasSubject
  split at hasSubject
  · exact List.mem_of_getElem? hasSubject
  · contradiction

theorem predicate?_mem {term predicate : Term} (hasPredicate : term.predicate? = some predicate) :
    predicate ∈ term.components := by
  unfold Term.predicate? at hasPredicate
  split at hasPredicate
  · exact List.mem_of_getElem? hasPredicate
  · contradiction

/-- A statement is registered if it is wherever an implication is absorbed. -/
theorem registers_of_absorbed {steps : Nat} {copula : Copula} {subject predicate : Option Term}
    (unique : registry.Unique copies terms) (counts : held.Counts terms)
    (subjectInside : ∀ term ∈ subject, Inside terms term)
    (predicateInside : ∀ term ∈ predicate, Inside terms term)
    (absorbedRegisters : ∀ left ∈ subject, ∀ right ∈ predicate,
      refuses copula left right = false → absorbs copula right = true →
        Registers copies terms registry
          (statementWithin symbols steps held copula (some left) (some right) registry)) :
    Registers copies terms registry
      (statementWithin symbols steps held copula subject predicate registry) := by
  rcases subject with _ | subject
  · rw [statementWithin_missing (.inl rfl)]
    exact .nothing unique (fun _ => by simp)
  rcases predicate with _ | predicate
  · rw [statementWithin_missing (.inr rfl)]
    exact .nothing unique (fun _ => by simp)
  cases accepted : refuses copula subject predicate with
  | true =>
      rw [statementWithin_refused accepted]
      exact .nothing unique (fun _ => by simp)
  | false =>
      cases absorbed : absorbs copula predicate with
      | true => exact absorbedRegisters subject rfl predicate rfl accepted absorbed
      | false =>
          obtain ⟨firstInside, secondInside⟩ :=
            orderSides_inside copula (subjectInside subject rfl) (predicateInside predicate rfl)
          rw [statementWithin_direct accepted absorbed]
          refine .obtain unique counts rfl ?_
          intro component member
          rcases List.mem_cons.mp member with rfl | member
          · exact firstInside
          · rw [List.mem_singleton.mp member]
            exact secondInside

theorem statementWithin_registers (steps : Nat) :
    ∀ {held : Held} {copula : Copula} {subject predicate : Option Term} {registry : Registry}
      {terms : List Term},
      registry.Unique copies terms → held.Counts terms →
      (∀ term ∈ subject, Inside terms term) →
      (∀ term ∈ predicate, Inside terms term) →
      (∀ term ∈ predicate, term.Formed symbols) →
      Registers copies terms registry
        (statementWithin symbols steps held copula subject predicate registry) := by
  -- Every absorption goes on with another registry and one more held term.
  induction steps with
  | zero =>
      intro held copula subject predicate registry terms unique counts subjectInside
        predicateInside _
      refine registers_of_absorbed unique counts subjectInside predicateInside ?_
      intro left _ right _ accepted absorbed
      rw [statementWithin_exhausted accepted absorbed]
      refine .lookup unique counts ?_
      exact fun dead => .nothing (unique.remove counts dead) (fun _ => by simp)
  | succ steps inductionHypothesis =>
      intro held copula subject predicate registry terms unique counts subjectInside
        predicateInside predicateFormed
      refine registers_of_absorbed unique counts subjectInside predicateInside ?_
      intro left leftIs right rightIs accepted absorbed
      obtain ⟨condition, consequent, hasCondition, hasConsequent, _, consequentFormed, _⟩ :=
        implication_sides (predicateFormed right rightIs) (Bool.and_eq_true_iff.mp absorbed).2
      have conditionInside := (predicateInside right rightIs).component (subject?_mem hasCondition)
      have consequentInside :=
        (predicateInside right rightIs).component (predicate?_mem hasConsequent)
      rw [statementWithin_absorbing accepted absorbed hasCondition hasConsequent]
      refine .lookup unique counts ?_
      intro dead
      generalize symbols.statementName copula left.name right.name = name at dead ⊢
      have remaining := unique.remove counts dead
      split
      · exact .nothing remaining (fun _ => by simp)
      · have joinedSettles : Settles copies terms (registry.remove name)
            (conjunction symbols held (some left) (some condition) (registry.remove name)) :=
          conjunction_settles remaining counts
            (fun _ same => Option.some.inj same ▸ subjectInside left leftIs)
            (fun _ same => Option.some.inj same ▸ conditionInside)
        rcases conjoined :
          conjunction symbols held (some left) (some condition) (registry.remove name) with
          ⟨_ | joined, left⟩
        · rw [conjoined] at joinedSettles
          exact (Registers.nothing joinedSettles.kept (fun _ => by simp)).mono
            (fun _ member => .of_mem member) joinedSettles.grown
        · rw [conjoined] at joinedSettles
          have joinedUnique : left.Unique copies (terms ++ joined.toList) := by
            rcases joined with _ | joined
            · simpa using joinedSettles.kept
            · refine (joinedSettles.made joined rfl).mono ?_
              intro term member
              refine .of_mem ?_
              simpa [or_comm] using member
          have insideMore : ∀ term, Inside terms term → Inside (terms ++ joined.toList) term :=
            fun _ inside => inside_append.mpr (.inl inside)
          refine (inductionHypothesis joinedUnique (counts.withTerms _) ?_ ?_ ?_).mono ?_
            joinedSettles.grown
          · intro term same
            refine inside_append.mpr (.inr (.of_mem ?_))
            simpa using same
          · exact fun _ same => Option.some.inj same ▸ insideMore _ consequentInside
          · exact fun _ same => Option.some.inj same ▸ consequentFormed
          · exact fun term member => insideMore term (.of_mem member)

theorem statement_registers {copula : Copula} {subject predicate : Option Term}
    (unique : registry.Unique copies terms) (counts : held.Counts terms)
    (subjectInside : ∀ term ∈ subject, Inside terms term)
    (predicateInside : ∀ term ∈ predicate, Inside terms term)
    (predicateFormed : ∀ term ∈ predicate, term.Formed symbols) :
    Registers copies terms registry (statement symbols held copula subject predicate registry) :=
  statementWithin_registers absorptionLimit unique counts subjectInside predicateInside
    predicateFormed

end Construction

end AttentiveReasoner.Language
