import AttentiveReasoner.Proofs.Language.Identity

/-!
Contract: expressions over terms that a caller has, and the object they yield.

Owns:
- compositions, the expressions over terms that a caller has;
- that a composition of registered operands has a value with the content it means, and
  that this value is registered;
- what a registry says about the terms of a session, for any symbols;
- that a composition evaluated again yields the same object as long as it is held.

Does not own: expressions with copies inside. A copy is a new object every time.

The second evaluation cannot tell how often the first result was dropped and made
again in between. It only finds what is held, and under each name that is one object.
-/

namespace AttentiveReasoner.Language

open Term

/-- An expression over terms that a caller has, without copies. -/
abbrev Composition := Expression true false

namespace Composition

open Construction
open Expression (andThen andThen_ok evaluate evaluateAll meaning meanings operands operandsOf)

/-! ## Values are registered -/

/-- A term that is held, listed and formed. -/
structure Registered (copies : List ObjectId) (terms : List Term) (term : Term) : Prop where
  inside : Inside terms term
  original : term.object ∉ copies
  formed : term.Formed .usual

theorem Registered.mono {copies : List ObjectId} {terms others : List Term} {term : Term}
    (registered : Registered copies terms term) (covered : ∀ other ∈ terms, other ∈ others) :
    Registered copies others term :=
  { registered with
    inside := registered.inside.mono (fun other member => .of_mem (covered other member)) }

/-- An evaluation has values with given contents, holds them besides what was held, and
keeps the registry. -/
def Keeps {Value : Type} (copies : List ObjectId) (terms : List Term)
    (valueTerms : Value → List Term) (expected : Value → Prop)
    (evaluated : Except Failure Value × Registry) : Prop :=
  ∃ value registry,
    evaluated = (.ok value, registry) ∧ expected value ∧ registry.Formed .usual ∧
      registry.Unique copies (terms ++ valueTerms value) ∧
      ∀ term ∈ valueTerms value, Registered copies (terms ++ valueTerms value) term

variable {copies : List ObjectId} {terms : List Term} {registry : Registry} {held : Held}

/-- A construction that returns a value and registers it keeps what was held before. -/
theorem keeps_of_registers {result : Outcome × Registry} {content : Option Term}
    (start : Registry) (more : List Term)
    (returns : Expression.Returns result (Expression.Fits content))
    (registers : Registers copies (terms ++ more) start result) :
    Keeps copies terms Option.toList (Expression.Fits content) result := by
  obtain ⟨value, after, rfl, formed, fits⟩ := returns
  refine ⟨value, after, rfl, fits, formed, ?_⟩
  rcases value with _ | term
  · refine ⟨registers.kept.mono ?_, fun _ member => nomatch member⟩
    intro term member
    rw [Option.toList, List.append_nil] at member
    exact .of_mem (List.mem_append_left _ member)
  · refine ⟨(registers.made term rfl).mono ?_, ?_⟩
    · intro other member
      refine .of_mem ?_
      rcases List.mem_append.mp member with old | new
      · exact List.mem_cons_of_mem _ (List.mem_append_left _ old)
      · rw [List.mem_singleton.mp new]
        exact List.mem_cons_self
    · intro other member
      rw [Option.toList, List.mem_singleton] at member
      subst member
      exact
        { inside := .of_mem (List.mem_append_right _ (by simp))
          original := registers.original other rfl
          formed := fits.formed other rfl }

/-- Two values one after the other, and a construction from both. -/
theorem Keeps.both {leftContent content : Option Term} (rightContent : Option Term)
    {leftEvaluated : Outcome × Registry}
    {rightEvaluate : Option Term → Registry → Outcome × Registry}
    {construct : Option Term → Option Term → Registry → Outcome × Registry}
    (leftKeeps : Keeps copies terms Option.toList (Expression.Fits leftContent) leftEvaluated)
    (rightKeeps : ∀ left (registry : Registry), registry.Formed .usual →
      registry.Unique copies (terms ++ left.toList) →
        Keeps copies (terms ++ left.toList) Option.toList (Expression.Fits rightContent)
          (rightEvaluate left registry))
    (constructs : ∀ left right (registry : Registry) (held : List Term),
      Expression.Fits leftContent left → Expression.Fits rightContent right →
      held = terms ++ left.toList ++ right.toList →
      registry.Formed .usual → registry.Unique copies held →
      (∀ term ∈ left, Registered copies held term) →
      (∀ term ∈ right, Registered copies held term) →
        Expression.Returns (construct left right registry) (Expression.Fits content) ∧
          Registers copies held registry (construct left right registry)) :
    Keeps copies terms Option.toList (Expression.Fits content)
      (andThen leftEvaluated fun left registry =>
        andThen (rightEvaluate left registry) fun right registry =>
          construct left right registry) := by
  obtain ⟨left, leftRegistry, rfl, leftFits, leftFormed, leftUnique, leftRegistered⟩ := leftKeeps
  obtain ⟨right, rightRegistry, rightEvaluated, rightFits, rightFormed, rightUnique,
    rightRegistered⟩ := rightKeeps left leftRegistry leftFormed leftUnique
  rw [andThen_ok, rightEvaluated, andThen_ok]
  obtain ⟨returns, registers⟩ :=
    constructs left right rightRegistry _ leftFits rightFits rfl rightFormed rightUnique
      (fun term isLeft => (leftRegistered term (Option.mem_toList.mpr isLeft)).mono
        fun _ old => List.mem_append_left _ old)
      (fun term isRight => rightRegistered term (Option.mem_toList.mpr isRight))
  rw [List.append_assoc] at registers
  exact keeps_of_registers rightRegistry (left.toList ++ right.toList) returns registers

theorem keeps_none (formed : registry.Formed .usual) (unique : registry.Unique copies terms) :
    Keeps copies terms Option.toList (Expression.Fits none) (.ok none, registry) := by
  refine ⟨none, registry, rfl, ⟨rfl, fun _ none => nomatch none⟩, formed, ?_, ?_⟩
  · simpa using unique
  · exact fun _ member => nomatch member

/-- The terms among values are those that the values give together. -/
theorem mapM_id_eq {values : List (Option Term)} {found : List Term}
    (isFound : values.mapM id = some found) : values.filterMap id = found := by
  induction values generalizing found with
  | nil =>
      obtain rfl : [] = found := by simpa using isFound
      rfl
  | cons value rest inductionHypothesis =>
      simp only [List.mapM_cons, Option.bind_eq_bind, Option.bind_eq_some_iff,
        Option.pure_def, Option.some.injEq, id_eq] at isFound
      obtain ⟨term, rfl, others, othersFound, rfl⟩ := isFound
      rw [← inductionHypothesis othersFound]
      rfl

mutual

/-- A composition of registered operands has a registered value of its content. -/
theorem evaluate_keeps :
    ∀ (composition : Composition) {held : Held} {registry : Registry} {terms : List Term},
      registry.Formed .usual → registry.Unique copies terms → held.Counts terms →
      (∀ operand ∈ composition.operands, Registered copies terms operand) →
      Keeps copies terms Option.toList (Expression.Fits composition.meaning)
        (composition.evaluate .usual held registry)
  | .operand _ term, held, registry, terms, formed, unique, _, registered => by
      have given := registered term List.mem_cons_self
      refine ⟨some term, registry, rfl, ⟨rfl, ?_⟩, formed, unique.mono ?_, ?_⟩
      · intro other same
        rw [← Option.some.inj same]
        exact given.formed
      · intro other member
        rcases List.mem_append.mp member with old | new
        · exact .of_mem old
        · rw [List.mem_singleton.mp new]
          exact given.inside
      · intro other member
        rw [List.mem_singleton.mp member]
        exact given.mono fun _ old => List.mem_append_left _ old
  | .missing, held, registry, terms, formed, unique, _, _ => keeps_none formed unique
  | .word written, held, registry, terms, formed, unique, counts, _ => by
      refine keeps_of_registers registry []
        (Expression.returns_of_yields (word_forms written formed) (word_yields written formed))
        ?_
      rw [List.append_nil]
      exact word_registers written unique counts
  | .statement copula subject predicate, held, registry, terms, formed, unique, counts,
      registered => by
      rw [operands, List.forall_mem_append] at registered
      refine Keeps.both predicate.meaning
        (evaluate_keeps subject formed unique counts registered.1) ?_ ?_
      · intro left leftRegistry leftFormed leftUnique
        exact evaluate_keeps predicate leftFormed leftUnique (counts.withTerms left.toList)
          (fun operand member => (registered.2 operand member).mono
            fun _ old => List.mem_append_left _ old)
      · rintro left right bothRegistry _ leftFits rightFits rfl bothFormed bothUnique
          leftRegistered rightRegistered
        refine ⟨Expression.statement_returns bothFormed leftFits rightFits, ?_⟩
        exact statement_registers bothUnique ((counts.withTerms _).withTerms _)
          (fun term isLeft => (leftRegistered term isLeft).inside)
          (fun term isRight => (rightRegistered term isRight).inside)
          rightFits.formed
  | .conjunction left right, held, registry, terms, formed, unique, counts, registered => by
      rw [operands, List.forall_mem_append] at registered
      refine Keeps.both right.meaning (evaluate_keeps left formed unique counts registered.1) ?_ ?_
      · intro first firstRegistry firstFormed firstUnique
        exact evaluate_keeps right firstFormed firstUnique (counts.withTerms first.toList)
          (fun operand member => (registered.2 operand member).mono
            fun _ old => List.mem_append_left _ old)
      · rintro first second bothRegistry _ firstFits secondFits rfl bothFormed bothUnique
          firstRegistered secondRegistered
        refine ⟨Expression.conjunction_returns bothFormed firstFits secondFits, ?_⟩
        exact conjunction_registers bothUnique ((counts.withTerms _).withTerms _)
          (fun term isFirst => (firstRegistered term isFirst).inside)
          (fun term isSecond => (secondRegistered term isSecond).inside)
          firstFits.formed secondFits.formed
          (fun term isFirst => (firstRegistered term isFirst).original)
          (fun term isSecond => (secondRegistered term isSecond).original)
  | .conjunctionFrom members, held, registry, terms, formed, unique, counts, registered => by
      obtain ⟨values, after, evaluated, fit, afterFormed, afterUnique, valuesRegistered⟩ :=
        evaluateAll_keeps members formed unique counts registered
      rw [evaluate, meaning, evaluated, andThen_ok]
      rcases Expression.members_fit fit with ⟨missing, contentMissing⟩ |
        ⟨found, given, isFound, contentsFound, sameContents, foundFormed⟩
      · rw [missing, contentMissing]
        exact keeps_none afterFormed
          (afterUnique.mono fun _ member => .of_mem (List.mem_append_left _ member))
      · rw [isFound, contentsFound]
        simp only [mapM_id_eq isFound] at afterUnique valuesRegistered
        refine keeps_of_registers after found
          (Expression.returns_of_yields (conjunctionOf_forms afterFormed foundFormed)
            ((conjunctionOf_yields afterFormed foundFormed).congr
              (conjunctionContent_congr sameContents))) ?_
        refine conjunctionOf_registers afterUnique (counts.withTerms found) ?_ ?_
        · exact fun term member => (valuesRegistered term member).inside
        · intro single sorted
          refine (valuesRegistered single ?_).original
          exact mem_of_mem_sortByName (by rw [sorted]; exact List.mem_cons_self)

theorem evaluateAll_keeps :
    ∀ (compositions : List Composition) {held : Held} {registry : Registry} {terms : List Term},
      registry.Formed .usual → registry.Unique copies terms → held.Counts terms →
      (∀ operand ∈ operandsOf compositions, Registered copies terms operand) →
      Keeps copies terms (·.filterMap id) (List.Forall₂ Expression.Fits (meanings compositions))
        (evaluateAll .usual held compositions registry)
  | [], held, registry, terms, formed, unique, _, _ => by
      refine ⟨[], registry, rfl, .nil, formed, ?_, fun _ member => nomatch member⟩
      simpa using unique
  | composition :: rest, held, registry, terms, formed, unique, counts, registered => by
      rw [operandsOf, List.forall_mem_append] at registered
      obtain ⟨value, valueRegistry, valueEvaluated, valueFits, valueFormed, valueUnique,
        valueRegistered⟩ := evaluate_keeps composition formed unique counts registered.1
      obtain ⟨values, after, evaluated, fit, afterFormed, afterUnique, valuesRegistered⟩ :=
        evaluateAll_keeps rest valueFormed valueUnique (counts.withTerms value.toList)
          (fun operand member => (registered.2 operand member).mono
            fun _ old => List.mem_append_left _ old)
      rw [evaluateAll, valueEvaluated, andThen_ok, evaluated, andThen_ok]
      have allTerms : terms ++ (value :: values).filterMap id =
          terms ++ value.toList ++ values.filterMap id := by
        rw [List.append_assoc]
        cases value <;> rfl
      refine ⟨value :: values, after, rfl, .cons valueFits fit, afterFormed, ?_, ?_⟩
      · rw [allTerms]
        exact afterUnique
      · rw [allTerms]
        intro term member
        have split : term ∈ value.toList ∨ term ∈ values.filterMap id := by
          cases value <;> simpa using member
        rcases split with inValue | inValues
        · exact (valueRegistered term inValue).mono fun _ old => List.mem_append_left _ old
        · exact valuesRegistered term inValues

end

/-- A composition that means the content of a registered term has that very term as its
value. -/
theorem evaluate_eq_of_meaning {composition : Composition} {term : Term}
    (formed : registry.Formed .usual) (unique : registry.Unique copies terms)
    (counts : held.Counts terms)
    (registered : ∀ operand ∈ composition.operands, Registered copies terms operand)
    (termRegistered : Registered copies terms term)
    (meant : composition.meaning.map bare = some term.bare) :
    (composition.evaluate .usual held registry).1 = .ok (some term) := by
  obtain ⟨value, after, evaluated, fits, _, afterUnique, valueRegistered⟩ :=
    composition.evaluate_keeps formed unique counts registered
  obtain ⟨found, rfl, sameBare⟩ := Option.map_eq_some_iff.mp (fits.content.trans meant)
  have sameName : found.name = term.name := name_eq_of_bare_eq sameBare
  have foundRegistered := valueRegistered found List.mem_cons_self
  have same : found = term :=
    afterUnique.eq_of_name_eq foundRegistered.inside
      (inside_append.mpr (.inl termRegistered.inside)) foundRegistered.original
      termRegistered.original sameName
  rw [evaluated, same]

end Composition

namespace Session

/-! ## Sessions -/

/-- A session whose registry lists one object for each name: the terms that are held and
are no copies, and whatever of the others has not been dropped. -/
structure OneForEachName (session : Session) (copies : List ObjectId) : Prop where
  same : ∀ left right, Inside session.terms left → Inside session.terms right →
    left.object ∉ copies → right.object ∉ copies → left.name = right.name → left = right
  listed_iff : ∀ name term, (session.registry.listed session.held name).1 = some term ↔
    Inside session.terms term ∧ term.object ∉ copies ∧ term.name = name
  release_keeps : ∀ name term, Inside session.terms term → term.object ∉ copies →
    term ∈ (session.registry.release session.held name).2.entries
  purge_keeps : ∀ term, Inside session.terms term → term.object ∉ copies →
    term ∈ (session.registry.purge session.held).2.entries
  release_iff : ∀ name, (session.registry.release session.held name).1 = true ↔
    ∃ entry ∈ session.registry.entries,
      entry.name = name ∧ session.held entry.object = false
  purge_count : (session.registry.purge session.held).1 =
    session.registry.size - session.registry.heldSize session.held
  purge_size : (session.registry.purge session.held).2.size =
    (session.registry.purge session.held).2.heldSize session.held

theorem of_oneForEachName (symbols : Symbols) (requests : List Request) :
    (of symbols requests).OneForEachName (copies symbols {} requests) where
  same := fun _ _ leftInside rightInside =>
    (of_unique symbols requests).eq_of_name_eq leftInside rightInside
  listed_iff := fun _ _ => (of_unique symbols requests).listed_iff (held_counts _)
  release_keeps := fun name =>
    ((of_unique symbols requests).release (held_counts _) name).listed
  purge_keeps := ((of_unique symbols requests).purge (held_counts _)).listed
  release_iff := fun _ => (of_unique symbols requests).release_iff
  purge_count := Registry.purge_count _ _
  purge_size := by rw [Registry.size_purge, Registry.heldSize_purge]

variable {session : Session} {made : List ObjectId}

/-- A registered term that is still held after a run is still registered. -/
theorem registered_later {term : Term} {requests : List Request} (formed : session.Formed .usual)
    (unique : session.registry.Unique made session.terms)
    (registered : Composition.Registered made session.terms term)
    (stillHeld : Inside (session.run .usual requests).terms term) :
    Composition.Registered (made ++ copies .usual session requests)
      (session.run .usual requests).terms term where
  inside := stillHeld
  original := not_mem_copies_of_inside formed unique registered.inside registered.original requests
  formed := registered.formed

/-- A session that records the value of a composition of registered operands. -/
theorem record_evaluated {composition : Composition} {value : Term}
    (formed : session.Formed .usual)
    (unique : session.registry.Unique made session.terms)
    (registered : ∀ operand ∈ composition.operands,
      Composition.Registered made session.terms operand)
    (evaluated :
      (composition.evaluate .usual session.held session.registry).1 = .ok (some value)) :
    let recorded := session.record
      (composition.evaluate .usual session.held session.registry).2 (some value)
    recorded.terms = session.terms ++ [value] ∧ recorded.Formed .usual ∧
      recorded.registry.Unique made recorded.terms ∧
      Composition.Registered made recorded.terms value ∧
      composition.meaning.map bare = some value.bare := by
  intro recorded
  obtain ⟨found, after, isEvaluated, fits, afterFormed, afterUnique, foundRegistered⟩ :=
    composition.evaluate_keeps formed.registry unique (held_counts session) registered
  rw [isEvaluated] at evaluated
  obtain rfl : found = some value := Except.ok.inj evaluated
  have recordedTerms : recorded.terms = session.terms ++ [value] := terms_record _ _ _
  have recordedRegistry : recorded.registry = after := by
    change (composition.evaluate .usual session.held session.registry).2 = after
    rw [isEvaluated]
  have valueRegistered : Composition.Registered made (session.terms ++ [value]) value :=
    foundRegistered value List.mem_cons_self
  refine ⟨recordedTerms, formed.record ?_ valueRegistered.formed, ?_, ?_, fits.content.symm⟩
  · rw [isEvaluated]
    exact afterFormed
  · rw [recordedRegistry, recordedTerms]
    exact afterUnique
  · rw [recordedTerms]
    exact valueRegistered

/-- A composition that means what another one meant has its value, if that is still held. -/
theorem evaluate_alike {composition other : Composition} {first : Term} {more : List Request}
    (formed : session.Formed .usual)
    (unique : session.registry.Unique made session.terms)
    (registered : ∀ operand ∈ composition.operands,
      Composition.Registered made session.terms operand)
    (otherRegistered : ∀ operand ∈ other.operands,
      Composition.Registered made session.terms operand)
    (sameMeaning : other.meaning.map bare = composition.meaning.map bare)
    (evaluated :
      (composition.evaluate .usual session.held session.registry).1 = .ok (some first)) :
    let recorded := session.record
      (composition.evaluate .usual session.held session.registry).2 (some first)
    (∀ operand ∈ other.operands, Inside (recorded.run .usual more).terms operand) →
    Inside (recorded.run .usual more).terms first →
    (other.evaluate .usual (recorded.run .usual more).held
      (recorded.run .usual more).registry).1 = .ok (some first) := by
  intro recorded operandsStillHeld firstStillHeld
  obtain ⟨recordedTerms, recordedFormed, recordedUnique, firstRegistered, firstMeant⟩ :=
    record_evaluated formed unique registered evaluated
  have stillRegistered : ∀ operand ∈ other.operands,
      Composition.Registered (made ++ copies .usual recorded more)
        (recorded.run .usual more).terms operand := by
    intro operand member
    refine registered_later recordedFormed recordedUnique ?_ (operandsStillHeld operand member)
    refine (otherRegistered operand member).mono ?_
    rw [recordedTerms]
    exact fun _ old => List.mem_append_left _ old
  exact Composition.evaluate_eq_of_meaning (recordedFormed.run more).registry
    (run_unique recordedFormed recordedUnique more) (held_counts _) stillRegistered
    (registered_later recordedFormed recordedUnique firstRegistered firstStillHeld)
    (sameMeaning.trans firstMeant)

/-- A composition whose first value is still held has it again. -/
theorem evaluate_again {composition : Composition} {first : Term} {more : List Request}
    (formed : session.Formed .usual)
    (unique : session.registry.Unique made session.terms)
    (registered : ∀ operand ∈ composition.operands,
      Composition.Registered made session.terms operand)
    (evaluated :
      (composition.evaluate .usual session.held session.registry).1 = .ok (some first)) :
    let recorded := session.record
      (composition.evaluate .usual session.held session.registry).2 (some first)
    (∀ operand ∈ composition.operands, Inside (recorded.run .usual more).terms operand) →
    Inside (recorded.run .usual more).terms first →
    (composition.evaluate .usual (recorded.run .usual more).held
      (recorded.run .usual more).registry).1 = .ok (some first) :=
  evaluate_alike formed unique registered registered rfl evaluated

/-- After any requests one object is registered for each name, under any symbols; under
the usual ones a composition of registered operands evaluated again, its first value being
still held, has that very object as its value. -/
theorem one_object_for_each_name (requests : List Request) :
    (∀ symbols, (of symbols requests).OneForEachName (copies symbols {} requests)) ∧
      ∀ (composition : Composition) (first : Term) (more : List Request),
        let session := of .usual requests
        let evaluated := composition.evaluate .usual session.held session.registry
        let later := (session.record evaluated.2 (some first)).run .usual more
        (∀ operand ∈ composition.operands,
          Inside session.terms operand ∧ operand.object ∉ copies .usual {} requests) →
        evaluated.1 = .ok (some first) →
        (∀ operand ∈ composition.operands, Inside later.terms operand) →
        Inside later.terms first →
        (composition.evaluate .usual later.held later.registry).1 = .ok (some first) := by
  refine ⟨fun symbols => of_oneForEachName symbols requests, ?_⟩
  intro composition first more session evaluated later operandsHeld isFirst
  have formed := of_formed .usual requests
  refine evaluate_again formed (of_unique .usual requests) ?_ isFirst
  intro operand member
  obtain ⟨⟨term, termMember, isPart⟩, original⟩ := operandsHeld operand member
  exact ⟨⟨term, termMember, isPart⟩, original, (formed.terms term termMember).ofPart isPart⟩

/-- An absorbing implication between terms of a session, made again after its first maker
dropped it and everything unheld was purged. -/
theorem absorbed_again :
    let session := of .usual absorbingRequests
    let composition : Composition := .statement (.implication .eternal)
      (.operand rfl ((session.result? 0).get (by decide +kernel)))
      (.operand rfl ((session.result? 3).get (by decide +kernel)))
    let evaluated := composition.evaluate .usual session.held session.registry
    let first := evaluated.1.toOption.join.get (by decide +kernel)
    let later := (session.record evaluated.2 (some first)).run .usual [.drop 4, .drop 1, .purge]
    first.name = "<(&&,a,b) ==> c>" ∧
      (composition.evaluate .usual later.held later.registry).1 = .ok (some first) := by
  intro session composition evaluated first later
  refine ⟨by decide +kernel, ?_⟩
  have subjectPlaced : session.result? 0 = some _ := (Option.some_get (by decide +kernel)).symm
  have predicatePlaced : session.result? 3 = some _ := (Option.some_get (by decide +kernel)).symm
  have isFirst : evaluated.1 = .ok (some first) := by
    have value : evaluated.1.toOption.join = some first := (Option.some_get _).symm
    cases outcome : evaluated.1 with
    | error failure => simp [outcome, Except.toOption] at value
    | ok made => simpa [outcome, Except.toOption] using value
  have noCopies : copies .usual {} absorbingRequests = [] := rfl
  have stays : ∀ {place term}, session.result? place = some term →
      (∀ dropped, .drop dropped ∈ [Request.drop 4, .drop 1, .purge] → dropped ≠ place) →
        Inside later.terms term :=
    fun placed notDropped =>
      .of_mem (result?_mem (result?_run (result?_append placed _ _) notDropped))
  refine (one_object_for_each_name absorbingRequests).2 composition first
    [.drop 4, .drop 1, .purge] ?_ isFirst ?_ ?_
  · intro operand member
    rw [noCopies]
    refine ⟨?_, List.not_mem_nil⟩
    rcases List.mem_cons.mp member with rfl | member
    · exact .of_mem (result?_mem subjectPlaced)
    · rw [List.mem_singleton.mp member]
      exact .of_mem (result?_mem predicatePlaced)
  · intro operand member
    rcases List.mem_cons.mp member with rfl | member
    · exact stays subjectPlaced (by simp)
    · rw [List.mem_singleton.mp member]
      exact stays predicatePlaced (by simp)
  · have placed := result?_record session evaluated.2 (some first)
    have length : session.results.length = 5 := by decide +kernel
    rw [length] at placed
    exact .of_mem (result?_mem (result?_run placed (by simp)))

end Session

end AttentiveReasoner.Language
