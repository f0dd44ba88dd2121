import AttentiveReasoner.Proofs.Language.Identity

/-!
Contract: statements whose sides may be exchanged.

Owns:
- the order of the sides, which does not depend on the order they come in;
- that what is obtained is obtained again as long as it is held;
- that a symmetric copula makes the same of two operands in either order, on any registry
  and along every run of requests.

Does not own: which operands make a statement.

The sides are checked before they are put in order, so every check has to agree with its
converse. Sides of one name have no order, but they are refused.
-/

namespace AttentiveReasoner.Language

open Term

namespace Registry

variable {registry : Registry} {held : Held} {make : ObjectId → Term} {value : Term}

/-! ## Obtaining again -/

theorem entry?_enter (registry : Registry) (term : Term) :
    Registry.entry? (registry.enter term) term.name = some term := by
  have unlisted : (registry.remove term.name).entries.find? (·.name = term.name) = none :=
    (entry?_remove registry term.name term.name).trans (if_pos rfl)
  unfold entry? enter
  rw [List.find?_append, unlisted]
  simp

/-- What is obtained is the held entry of the name, or what is made and listed. -/
theorem obtain_cases (obtained : (registry.obtain held make).1 = .ok (some value)) :
    (registry.live? held (make registry.free).name = some value ∧
        value.kind = (make registry.free).kind ∧ (registry.obtain held make).2 = registry) ∨
      (value = make registry.free ∧ (registry.obtain held make).2 = registry.enter value) := by
  simp only [obtain] at obtained ⊢
  cases live : registry.live? held (make registry.free).name with
  | none =>
      have isMade : make registry.free = value := by simpa [live] using obtained
      exact .inr ⟨isMade.symm, by rw [isMade]⟩
  | some existing =>
      by_cases alike : existing.kind = (make registry.free).kind
      · have isExisting : existing = value := by
          simpa [live, checkKind, alike, Except.map] using obtained
        rw [isExisting] at alike
        exact .inl ⟨by rw [isExisting], alike, rfl⟩
      · simp [live, checkKind, alike, Except.map] at obtained

/-- What is obtained has the name and the form of what would be made. -/
theorem alike_of_obtain (obtained : (registry.obtain held make).1 = .ok (some value)) :
    value.name = (make registry.free).name ∧ value.kind = (make registry.free).kind := by
  rcases obtain_cases obtained with ⟨live, sameKind, _⟩ | ⟨isMade, _⟩
  · exact ⟨(mem_of_live? live).2, sameKind⟩
  · rw [isMade]
    exact ⟨rfl, rfl⟩

/-- What is obtained is listed. -/
theorem entry?_of_obtain (obtained : (registry.obtain held make).1 = .ok (some value)) :
    Registry.entry? (registry.obtain held make).2 value.name = some value := by
  rcases obtain_cases obtained with ⟨live, _, unchanged⟩ | ⟨_, entered⟩
  · rw [unchanged, (mem_of_live? live).2]
    exact (Option.filter_eq_some_iff.mp live).1
  · rw [entered]
    exact entry?_enter registry value

/-- A held term is obtained in place of one that has its name and its form. -/
theorem obtain_of_live (live : registry.live? held value.name = some value)
    (sameName : value.name = (make registry.free).name)
    (sameKind : value.kind = (make registry.free).kind) :
    registry.obtain held make = (.ok (some value), registry) := by
  simp only [obtain, ← sameName, live, checkKind, sameKind]
  rfl

end Registry

namespace Construction

variable {symbols : Symbols} {held : Held} {copula : Copula} {registry : Registry}

/-! ## Sides -/

/-- A symmetric copula orders sides of different names, in whichever order they come. -/
theorem orderSides_comm (symmetric : copula.isSymmetric = true) {left right : Term}
    (distinct : left.name ≠ right.name) :
    orderSides copula left right = orderSides copula right left := by
  simp only [orderSides, symmetric, Bool.true_and, decide_eq_true_eq]
  by_cases increasing : left.name < right.name
  · have notDecreasing : ¬right.name < left.name := String.lt_asymm increasing
    simp [increasing, notDecreasing]
  · have decreasing : right.name < left.name := by
      refine Classical.byContradiction fun notDecreasing => distinct ?_
      exact String.le_antisymm (String.not_lt.mp notDecreasing) (String.not_lt.mp increasing)
    simp [increasing, decreasing]

theorem distinct_of_accepted {left right : Term} (accepted : refuses copula left right = false) :
    left.name ≠ right.name := by
  intro sameName
  have degenerate : areDegenerate left right = true := areDegenerate_iff.mpr (.inl sameName)
  simp [refuses, degenerate] at accepted

theorem not_absorbs_of_symmetric (symmetric : copula.isSymmetric = true) (predicate : Term) :
    absorbs copula predicate = false := by
  cases copula with
  | inheritance | implication order => contradiction
  | similarity | equivalence => rfl

/-! ## Statements -/

/-- A statement under a symmetric copula is refused or obtained. -/
theorem statement_of_symmetric (symmetric : copula.isSymmetric = true) (left right : Term)
    (held : Held) (registry : Registry) :
    statement symbols held copula (some left) (some right) registry =
      if refuses copula left right then (.ok none, registry)
      else registry.obtain held
        (makeStatement symbols copula (orderSides copula left right).1
          (orderSides copula left right).2) := by
  cases refused : refuses copula left right with
  | true => exact statementWithin_refused refused
  | false => exact statementWithin_direct refused (not_absorbs_of_symmetric symmetric right)

/-- Exchanged operands have the same outcome and leave the same registry. -/
theorem statement_comm (symmetric : copula.isSymmetric = true) (left right : Option Term) :
    statement symbols held copula left right registry =
      statement symbols held copula right left registry := by
  cases left with
  | none =>
      rw [statement, statement, statementWithin_missing (.inl rfl),
        statementWithin_missing (.inr rfl)]
  | some left =>
      cases right with
      | none =>
          rw [statement, statement, statementWithin_missing (.inr rfl),
            statementWithin_missing (.inl rfl)]
      | some right =>
          rw [statement_of_symmetric symmetric, statement_of_symmetric symmetric,
            refuses_comm symmetric right left]
          cases refused : refuses copula left right with
          | true => rfl
          | false => rw [orderSides_comm symmetric (distinct_of_accepted refused)]

/-- Where a statement under a symmetric copula is made, the same one is obtained on every
registry. -/
theorem obtains_of_made (symmetric : copula.isSymmetric = true) {left right : Option Term}
    {value : Term}
    (made : (statement symbols held copula left right registry).1 = .ok (some value)) :
    ∃ make : ObjectId → Term,
      (∀ object, (make object).name = value.name ∧ (make object).kind = value.kind) ∧
        ∀ (other : Held) (later : Registry),
          statement symbols other copula left right later = later.obtain other make := by
  cases left with
  | none => simp [statement, statementWithin_missing (.inl rfl)] at made
  | some left =>
      cases right with
      | none => simp [statement, statementWithin_missing (.inr rfl)] at made
      | some right =>
          cases refused : refuses copula left right with
          | true => simp [statement_of_symmetric symmetric, refused] at made
          | false =>
              have obtains : ∀ (other : Held) (later : Registry),
                  statement symbols other copula (some left) (some right) later =
                    later.obtain other
                      (makeStatement symbols copula (orderSides copula left right).1
                        (orderSides copula left right).2) := by
                intro other later
                rw [statement_of_symmetric symmetric, refused]
                rfl
              rw [obtains] at made
              -- The name and the form do not depend on the object.
              obtain ⟨sameName, sameKind⟩ := Registry.alike_of_obtain made
              exact ⟨makeStatement symbols copula _ _,
                fun _ => ⟨sameName.symm, sameKind.symm⟩, obtains⟩

/-- The two orders of the operands of a statement come to the same: on one registry in the
outcome, the name of the term included, and in what is listed afterwards; on different ones in
the name. What one order made, the other order finds, at once and after any requests, as long
as it is held. -/
structure Commutes (symbols : Symbols) (copula : Copula) (left right : Option Term) : Prop where
  alike : ∀ (held : Held) (registry : Registry),
    statement symbols held copula left right registry =
      statement symbols held copula right left registry
  same_name : ∀ (held other : Held) (registry later : Registry) (first second : Term),
    (statement symbols held copula left right registry).1 = .ok (some first) →
    (statement symbols other copula right left later).1 = .ok (some second) →
      first.name = second.name
  at_once : ∀ (held other : Held) (registry : Registry) (first : Term),
    let made := statement symbols held copula left right registry
    made.1 = .ok (some first) → other first.object = true →
      statement symbols other copula right left made.2 = (.ok (some first), made.2)
  along_runs : ∀ (requests more : List Request) (first : Term),
    let session := Session.of symbols requests
    let made := statement symbols session.held copula left right session.registry
    let later := (session.record made.2 (some first)).run symbols more
    (∀ term ∈ left, Inside session.terms term) →
    (∀ term ∈ right, Inside session.terms term) →
    made.1 = .ok (some first) →
    Inside later.terms first →
      statement symbols later.held copula right left later.registry =
        (.ok (some first), later.registry)

end Construction

namespace Session

open Construction

variable {symbols : Symbols} {session : Session} {made : List ObjectId}

/-- A session that records what a construction registered. -/
theorem record_registered {result : Outcome × Registry} {value : Term}
    (formed : session.Formed symbols) (forms : Forms symbols result)
    (registers : Registers made session.terms session.registry result)
    (isValue : result.1 = .ok (some value)) :
    (session.record result.2 (some value)).Formed symbols ∧
      (session.record result.2 (some value)).registry.Unique made
        (session.record result.2 (some value)).terms := by
  refine ⟨formed.record forms.registry (forms.term value isValue), ?_⟩
  rw [terms_record]
  refine (registers.made value isValue).mono ?_
  intro term member
  refine .of_mem ?_
  rw [List.mem_append, List.mem_singleton] at member
  exact List.mem_cons.mpr member.symm

/-- What a statement under a symmetric copula made is found again after any requests, as long
as it is held. -/
theorem statement_later {copula : Copula} (symmetric : copula.isSymmetric = true)
    {left right : Option Term} {first : Term} (formed : session.Formed symbols)
    (unique : session.registry.Unique made session.terms)
    (leftInside : ∀ term ∈ left, Inside session.terms term)
    (rightInside : ∀ term ∈ right, Inside session.terms term) :
    let result := statement symbols session.held copula left right session.registry
    result.1 = .ok (some first) → ∀ more : List Request,
      let later := (session.record result.2 (some first)).run symbols more
      Inside later.terms first →
        statement symbols later.held copula left right later.registry =
          (.ok (some first), later.registry) := by
  intro result isFirst more later stillHeld
  have rightFormed : ∀ term ∈ right, term.Formed symbols :=
    fun term isRight => formed.inside (rightInside term isRight)
  have leftFormed : ∀ term ∈ left, term.Formed symbols :=
    fun term isLeft => formed.inside (leftInside term isLeft)
  have registers : Registers made session.terms session.registry result :=
    statement_registers unique (held_counts session) leftInside rightInside rightFormed
  have recorded := record_registered formed
    (statement_forms formed.registry leftFormed rightFormed) registers isFirst
  have firstInside : Inside (session.record result.2 (some first)).terms first :=
    .of_mem (by simp [terms_record])
  have original := not_mem_copies_of_inside recorded.1 recorded.2 firstInside
    (registers.original first isFirst) more
  have live : later.registry.live? later.held first.name = some first :=
    ((run_unique recorded.1 recorded.2 more).live?_iff (held_counts later)).mpr
      ⟨stillHeld, original, rfl⟩
  obtain ⟨make, alike, obtains⟩ := obtains_of_made symmetric isFirst
  rw [obtains]
  exact Registry.obtain_of_live live (alike _).1.symm (alike _).2.symm

end Session

namespace Construction

variable {copula : Copula}

/-- Symmetric copulas commute, whatever the symbols and the operands are. -/
theorem symmetric_commutes (symbols : Symbols) (symmetric : copula.isSymmetric = true)
    (left right : Option Term) : Commutes symbols copula left right := by
  constructor
  case alike => exact fun _ _ => statement_comm symmetric left right
  case same_name =>
    intro held other registry later first second isFirst isSecond
    obtain ⟨make, alike, obtains⟩ := obtains_of_made symmetric isFirst
    rw [statement_comm symmetric, obtains] at isSecond
    rw [(Registry.alike_of_obtain isSecond).1, (alike _).1]
  case at_once =>
    intro held other registry first made isFirst stillHeld
    obtain ⟨make, alike, obtains⟩ := obtains_of_made symmetric isFirst
    have listed : Registry.entry? made.2 first.name = some first := by
      simp only [made, obtains] at isFirst ⊢
      exact Registry.entry?_of_obtain isFirst
    have live : made.2.live? other first.name = some first :=
      Option.filter_eq_some_iff.mpr ⟨listed, stillHeld⟩
    rw [statement_comm symmetric, obtains]
    exact Registry.obtain_of_live live (alike _).1.symm (alike _).2.symm
  case along_runs =>
    intro requests more first session made later leftInside rightInside isFirst stillHeld
    rw [statement_comm symmetric]
    exact Session.statement_later symmetric (Session.of_formed symbols requests)
      (Session.of_unique symbols requests) leftInside rightInside isFirst more stillHeld

/-- An equivalence whose sides come in the wrong order, one of them a variable, has them in
the order of their names. -/
theorem equivalence_commutes :
    (statement .usual Held.nothing .equivalence (some (.atom 0 "rain")) (some (.atom 1 "#1"))
        ⟨[.atom 0 "rain", .atom 1 "#1"], 2⟩).1.map (·.map (·.name)) =
        .ok (some "<#1 <=> rain>") ∧
      Commutes .usual .equivalence (some (.atom 0 "rain")) (some (.atom 1 "#1")) :=
  ⟨by decide +kernel, symmetric_commutes .usual rfl _ _⟩

end Construction

end AttentiveReasoner.Language
