import AttentiveReasoner.Proofs.Language.Formation

/-!
Contract: the terms that a caller gets from one registry.

Owns:
- the requests of a caller as data, and their runs;
- what a caller holds: the terms it got and did not drop;
- the invariant of a run: the entries and the results are formed;
- that every part of every result is in normal form, whatever the symbols.

Does not own: which request has a result, or that results with the same name are
the same.

Every request adds one result, which may be no term. Requests refer to earlier
results by their place; a place without a term is a missing operand.
-/

namespace AttentiveReasoner.Language

/-- What a caller asks of a registry. -/
inductive Request where
  | word (written : String)
  | statement (copula : Copula) (subject predicate : Nat)
  | conjunction (left right : Nat)
  | conjunctionFrom (members : List Nat)
  | component (place index : Nat)
  | copy (place : Nat)
  | drop (place : Nat)
  | listed (name : String)
  | release (name : String)
  | purge

/-- A registry and the results that a caller got from it. -/
structure Session where
  registry : Registry := {}
  results : List (Option Term) := []

namespace Session

/-- The terms that the caller did not drop. -/
def terms (session : Session) : List Term :=
  session.results.filterMap id

/-- What the caller holds: its terms and all that they consist of. -/
def held (session : Session) : Held :=
  Held.nothing.withTerms session.terms

/-- The result at a place, if it is a term. -/
def result? (session : Session) (place : Nat) : Option Term :=
  session.results[place]?.join

/-- The session with a new registry and a further result. -/
def record (session : Session) (registry : Registry) (result : Option Term) : Session :=
  ⟨registry, session.results ++ [result]⟩

/-- The outcome of a request and the registry that it leaves, where something is held
outside of the session. -/
def answer (symbols : Symbols) (outside : Held) (session : Session) :
    Request → Outcome × Registry
  | .word written =>
      Construction.word (outside.withTerms session.terms) written session.registry
  | .statement copula subject predicate =>
      Construction.statement symbols (outside.withTerms session.terms) copula
        (session.result? subject) (session.result? predicate) session.registry
  | .conjunction left right =>
      Construction.conjunction symbols (outside.withTerms session.terms)
        (session.result? left) (session.result? right) session.registry
  | .conjunctionFrom members =>
      match members.mapM session.result? with
      | some terms =>
          Construction.conjunctionOf symbols (outside.withTerms session.terms) terms
            session.registry
      | none => (.ok none, session.registry)
  | .component place index =>
      (.ok ((session.result? place).bind (·.components[index]?)), session.registry)
  | .copy place =>
      match session.result? place with
      | some term =>
          let copied := session.registry.copy term
          (.ok (some copied.1), copied.2)
      | none => (.ok none, session.registry)
  | .drop _ => (.ok none, session.registry)
  | .listed name =>
      let found := session.registry.listed (outside.withTerms session.terms) name
      (.ok found.1, found.2)
  | .release name =>
      (.ok none, (session.registry.release (outside.withTerms session.terms) name).2)
  | .purge =>
      (.ok none, (session.registry.purge (outside.withTerms session.terms)).2)

/-- The session with the answer to a request; a failure is no result. -/
def receive (session : Session) (request : Request) (answer : Outcome × Registry) : Session :=
  let results :=
    match request with
    | .drop place => session.results.set place none
    | _ => session.results
  ⟨answer.2, results ++ [answer.1.toOption.join]⟩

/-- The session after a request under a table of symbols. Nothing else is held. -/
def perform (symbols : Symbols) (session : Session) (request : Request) : Session :=
  session.receive request (session.answer symbols Held.nothing request)

/-- The session after requests one after the other. -/
def run (symbols : Symbols) (session : Session) : List Request → Session
  | [] => session
  | request :: rest => run symbols (session.perform symbols request) rest

/-- The session that starts from an empty registry. -/
def of (symbols : Symbols) (requests : List Request) : Session :=
  run symbols {} requests

/-- The invariant of a session: the entries and the results are formed terms. -/
structure Formed (symbols : Symbols) (session : Session) : Prop where
  registry : session.registry.Formed symbols
  terms : ∀ term ∈ session.terms, term.Formed symbols

variable {symbols : Symbols} {session : Session}

/-! ## Steps -/

theorem result?_mem {place : Nat} {term : Term} (result : session.result? place = some term) :
    term ∈ session.terms := by
  obtain ⟨entry, placed, rfl⟩ := Option.bind_eq_some_iff.mp result
  exact List.mem_filterMap.mpr ⟨some term, List.mem_of_getElem? placed, rfl⟩

theorem get_result?_mem {place : Nat} (isTerm : (session.result? place).isSome) :
    (session.result? place).get isTerm ∈ session.terms :=
  result?_mem (Option.some_get isTerm).symm

theorem Formed.result {place : Nat} (formed : session.Formed symbols) :
    ∀ term ∈ session.result? place, term.Formed symbols :=
  fun term result => formed.terms term (result?_mem result)

/-- Members that are all terms are terms of the session. -/
theorem members_mem {members : List Nat} {terms : List Term}
    (found : members.mapM session.result? = some terms) :
    ∀ term ∈ terms, term ∈ session.terms := by
  induction members generalizing terms with
  | nil =>
      obtain rfl : [] = terms := by simpa using found
      exact fun _ member => absurd member List.not_mem_nil
  | cons place rest inductionHypothesis =>
      simp only [List.mapM_cons, Option.bind_eq_bind, Option.bind_eq_some_iff,
        Option.pure_def, Option.some.injEq] at found
      obtain ⟨first, firstFound, others, othersFound, rfl⟩ := found
      intro term member
      rcases List.mem_cons.mp member with rfl | member
      · exact result?_mem firstFound
      · exact inductionHypothesis othersFound term member

/-- The terms after an answer are those before, some of them dropped, and the one
received. -/
theorem mem_terms_receive {request : Request} {answer : Outcome × Registry} {term : Term}
    (member : term ∈ (session.receive request answer).terms) :
    term ∈ session.terms ∨ answer.1 = .ok (some term) := by
  obtain ⟨entry, entryMember, rfl⟩ := List.mem_filterMap.mp member
  rcases List.mem_append.mp entryMember with old | new
  · have kept : some term ∈ session.results := by
      cases request with
      | drop place =>
          rcases List.mem_or_eq_of_mem_set old with kept | dropped
          · exact kept
          · contradiction
      | _ => exact old
    exact .inl (List.mem_filterMap.mpr ⟨_, kept, rfl⟩)
  · have received := List.mem_singleton.mp new
    rcases outcome : answer.1 with failure | _ | other
    · simp [outcome, Except.toOption] at received
    · simp [outcome, Except.toOption] at received
    · simp only [outcome, Except.toOption, Option.join_some] at received
      exact .inr (by rw [received])

/-- The term that answers a request is one of the session's terms after it. -/
theorem mem_terms_perform {request : Request} {term : Term}
    (answered : (session.answer symbols Held.nothing request).1 = .ok (some term)) :
    term ∈ (session.perform symbols request).terms := by
  have received : some term ∈ (session.perform symbols request).results := by
    rw [perform]
    simp [Session.receive, answered, Except.toOption]
  exact List.mem_filterMap.mpr ⟨some term, received, rfl⟩

/-- Every answer is formed, and leaves formed entries. -/
theorem Formed.answer (formed : session.Formed symbols) (outside : Held) (request : Request) :
    Forms symbols (session.answer symbols outside request) := by
  cases request with
  | word written =>
      rw [Session.answer]
      exact Construction.word_forms written formed.registry
  | statement copula subject predicate =>
      rw [Session.answer]
      exact Construction.statement_forms formed.registry formed.result formed.result
  | conjunction left right =>
      rw [Session.answer]
      exact Construction.conjunction_forms formed.registry formed.result formed.result
  | conjunctionFrom members =>
      simp only [Session.answer]
      cases found : members.mapM session.result? with
      | none => exact .nothing (fun _ => by simp) formed.registry
      | some terms =>
          exact Construction.conjunctionOf_forms formed.registry
            (fun term member => formed.terms term (members_mem found term member))
  | component place index =>
      refine ⟨?_, formed.registry⟩
      intro component found
      obtain ⟨term, result, placed⟩ := Option.bind_eq_some_iff.mp (Except.ok.inj found)
      exact (formed.result term result).component component (List.mem_of_getElem? placed)
  | copy place =>
      simp only [Session.answer]
      cases result : session.result? place with
      | none => exact .nothing (fun _ => by simp) formed.registry
      | some term => exact .single formed.registry ((formed.result term result).copy _)
  | drop place => exact .nothing (fun _ => by simp) formed.registry
  | listed name =>
      simp only [Session.answer, Registry.listed_eq]
      cases live : session.registry.live? (outside.withTerms session.terms) name with
      | none => exact .nothing (fun _ => by simp) (formed.registry.remove name)
      | some term => exact .single formed.registry (formed.registry.live live)
  | release name =>
      refine .nothing (fun _ => by simp) ?_
      unfold Registry.release
      split
      · exact formed.registry
      · split
        · exact formed.registry
        · exact formed.registry.remove name
  | purge =>
      refine .nothing (fun _ => by simp) ?_
      exact fun entry member => formed.registry entry (List.mem_filter.mp member).1

theorem Formed.receive {request : Request} {answer : Outcome × Registry}
    (formed : session.Formed symbols) (forms : Forms symbols answer) :
    (session.receive request answer).Formed symbols where
  registry := forms.registry
  terms := by
    intro term member
    rcases mem_terms_receive member with old | received
    · exact formed.terms term old
    · exact forms.term term received

theorem terms_record (session : Session) (registry : Registry) (term : Term) :
    (session.record registry (some term)).terms = session.terms ++ [term] := by
  simp [record, Session.terms]

theorem Formed.record {registry : Registry} {term : Term} (formed : session.Formed symbols)
    (registryFormed : registry.Formed symbols) (termFormed : term.Formed symbols) :
    (session.record registry (some term)).Formed symbols where
  registry := registryFormed
  terms := by
    intro other member
    rw [terms_record] at member
    rcases List.mem_append.mp member with old | new
    · exact formed.terms other old
    · rw [List.mem_singleton.mp new]
      exact termFormed

/-- Every request keeps the entries and the results formed. -/
theorem Formed.perform (formed : session.Formed symbols) (request : Request) :
    (session.perform symbols request).Formed symbols :=
  formed.receive (formed.answer Held.nothing request)

/-! ## Runs -/

theorem run_append (symbols : Symbols) (session : Session) (requests more : List Request) :
    session.run symbols (requests ++ more) = (session.run symbols requests).run symbols more := by
  induction requests generalizing session with
  | nil => rfl
  | cons request rest inductionHypothesis =>
      exact inductionHypothesis (session.perform symbols request)

/-- Every request adds its answer to the results; only a drop changes the ones before. -/
theorem results_perform {request : Request} (keeps : ∀ place, request ≠ .drop place) :
    (session.perform symbols request).results =
      session.results ++ [(session.answer symbols Held.nothing request).1.toOption.join] := by
  rw [perform]
  cases request with
  | drop place => exact absurd rfl (keeps place)
  | _ => rfl

theorem results_run {requests : List Request} (keeps : ∀ place, .drop place ∉ requests) :
    ∃ more, more.length = requests.length ∧
      (session.run symbols requests).results = session.results ++ more := by
  induction requests generalizing session with
  | nil => exact ⟨[], rfl, (List.append_nil _).symm⟩
  | cons request rest inductionHypothesis =>
      have performed : (session.perform symbols request).results = _ :=
        results_perform fun place same => keeps place (same ▸ List.mem_cons_self)
      have restKeeps : ∀ place, .drop place ∉ rest :=
        fun place member => keeps place (List.mem_cons_of_mem _ member)
      obtain ⟨more, sameLength, results⟩ : ∃ more, more.length = rest.length ∧
          ((session.perform symbols request).run symbols rest).results =
            (session.perform symbols request).results ++ more :=
        inductionHypothesis restKeeps
      rw [performed, List.append_assoc] at results
      exact ⟨_, by rw [List.length_append, sameLength, List.length_cons, Nat.add_comm]; rfl,
        results⟩

/-- In a run that drops nothing, a request in the middle leaves its answer at its place, and
the results before it stay as they were. -/
theorem result?_of_split {before after : List Request} {request : Request}
    (keeps : ∀ dropped, .drop dropped ∉ before ++ request :: after) :
    let whole := of symbols (before ++ request :: after)
    (∀ place < before.length, whole.result? place = (of symbols before).result? place) ∧
      whole.result? before.length =
        ((of symbols before).answer symbols Held.nothing request).1.toOption.join := by
  intro whole
  obtain ⟨earlier, earlierLength, results⟩ : ∃ earlier, earlier.length = before.length ∧
      (of symbols before).results = ({} : Session).results ++ earlier :=
    results_run fun dropped member => keeps dropped (List.mem_append_left _ member)
  have sameLength : (of symbols before).results.length = before.length := by
    rw [results, List.length_append, earlierLength]
    exact Nat.zero_add before.length
  have keepsHere : ∀ dropped, request ≠ .drop dropped := by
    rintro dropped rfl
    exact keeps dropped (by simp)
  obtain ⟨later, _, wholeResults⟩ : ∃ later, later.length = after.length ∧
      (((of symbols before).perform symbols request).run symbols after).results =
        ((of symbols before).perform symbols request).results ++ later :=
    results_run fun dropped member =>
      keeps dropped (List.mem_append_right _ (List.mem_cons_of_mem _ member))
  have split : whole.results = (of symbols before).results ++
      ((of symbols before).answer symbols Held.nothing request).1.toOption.join :: later := by
    rw [results_perform keepsHere, List.append_assoc] at wholeResults
    rw [← List.singleton_append, ← wholeResults]
    exact congrArg Session.results (run_append symbols {} before (request :: after))
  constructor
  · intro place within
    rw [result?, split, List.getElem?_append_left (sameLength ▸ within)]
    rfl
  · rw [result?, split, ← sameLength, List.getElem?_append_right (Nat.le_refl _), Nat.sub_self]
    rfl

theorem Formed.run (formed : session.Formed symbols) (requests : List Request) :
    (session.run symbols requests).Formed symbols := by
  induction requests generalizing session with
  | nil => exact formed
  | cons request rest inductionHypothesis => exact inductionHypothesis (formed.perform request)

theorem of_formed (symbols : Symbols) (requests : List Request) :
    (of symbols requests).Formed symbols :=
  Formed.run ⟨fun _ member => absurd member List.not_mem_nil,
    fun _ member => absurd member List.not_mem_nil⟩ requests

/-- Every term a caller gets, and every part of it, is in normal form. -/
theorem part_normalForm {symbols : Symbols} {requests : List Request} {term part : Term}
    (obtained : term ∈ (of symbols requests).terms)
    (inside : Term.PartOf part term) :
    NormalForm symbols part :=
  (((of_formed symbols requests).terms term obtained).ofPart inside).normalForm

/-- The requests for `<a ==> <b ==> c>>`, which becomes `<(&&,a,b) ==> c>`. -/
def absorbingRequests : List Request :=
  [.word "a", .word "b", .word "c",
    .statement (.implication .eternal) 1 2, .statement (.implication .eternal) 0 3]

/-- The conjunction that absorption makes is in normal form. -/
theorem absorbed_subject_normalForm :
    ((of {} absorbingRequests).result? 4).map (·.name) = some "<(&&,a,b) ==> c>" ∧
      NormalForm {}
        ((((of {} absorbingRequests).result? 4).bind (·.components[0]?)).get
          (by decide +kernel)) := by
  refine ⟨by decide +kernel, ?_⟩
  obtain ⟨term, result, placed⟩ :=
    Option.bind_eq_some_iff.mp
      (Option.some_get
        (x := ((of {} absorbingRequests).result? 4).bind (·.components[0]?))
        (by decide +kernel)).symm
  exact part_normalForm (result?_mem result)
    (.component (List.mem_of_getElem? placed) .whole)

end Session

end AttentiveReasoner.Language
