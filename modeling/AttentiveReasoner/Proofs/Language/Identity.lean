import AttentiveReasoner.Proofs.Language.Expressions
import AttentiveReasoner.Proofs.Language.Uniqueness

/-!
Contract: one registered object for each name, along every run of requests.

Owns:
- the objects of the copies that a run makes;
- that every answer to a request settles, whatever is held outside of the session;
- what a session finds, releases and purges, in terms of what is held;
- compositions, expressions over terms that a caller has;
- that a composition evaluated again yields the same object as long as it is held.

Does not own: which outcome a request has.

Only copies are exempt. Their objects are new, so that what is registered at one time
is no copy at any later time.
-/

namespace AttentiveReasoner.Language

open Term

namespace Registry

variable {registry : Registry} {made : List ObjectId} {terms : List Term} {held : Held}

/-! ## What a registry says -/

/-- Two held terms of one name that are no copies are the same object. -/
theorem Unique.eq_of_name_eq {left right : Term} (unique : registry.Unique made terms)
    (leftInside : Inside terms left) (rightInside : Inside terms right)
    (leftOriginal : left.object ∉ made) (rightOriginal : right.object ∉ made)
    (sameName : left.name = right.name) : left = right :=
  List.inj_on_of_nodup_map unique.names_nodup (unique.listed left leftInside leftOriginal)
    (unique.listed right rightInside rightOriginal) sameName

theorem Unique.listed_iff {name : String} {term : Term} (unique : registry.Unique made terms)
    (counts : held.Counts terms) :
    (registry.listed held name).1 = some term ↔
      Inside terms term ∧ term.object ∉ made ∧ term.name = name := by
  rw [← unique.live?_iff counts, listed_eq]
  cases registry.live? held name <;> simp

theorem Unique.release_iff {name : String} (unique : registry.Unique made terms) :
    (registry.release held name).1 = true ↔
      ∃ entry ∈ registry.entries, entry.name = name ∧ held entry.object = false := by
  constructor
  · intro released
    unfold Registry.release at released
    split at released
    · contradiction
    · rename_i entry listed
      split at released
      · contradiction
      · rename_i dead
        have named : entry.name = name := by simpa using List.find?_some listed
        exact ⟨entry, List.mem_of_find?_eq_some listed, named, by simpa using dead⟩
  · rintro ⟨entry, member, rfl, dead⟩
    simp [Registry.release, unique.entry?_eq member, dead]

theorem purge_count (registry : Registry) (held : Held) :
    (registry.purge held).1 = registry.size - registry.heldSize held := by
  rw [heldSize, List.countP_eq_length_filter]
  rfl

theorem size_purge (registry : Registry) (held : Held) :
    (registry.purge held).2.size = registry.heldSize held := by
  rw [heldSize, List.countP_eq_length_filter]
  rfl

theorem heldSize_purge (registry : Registry) (held : Held) :
    (registry.purge held).2.heldSize held = registry.heldSize held := by
  simp only [heldSize, purge, List.countP_filter, Bool.and_self]

end Registry

namespace Session

/-! ## Copies -/

/-- The objects of the copy that a request makes. -/
def copied (session : Session) : Request → List ObjectId
  | .copy place =>
      match session.result? place with
      | some term => (session.registry.copy term).1.objects
      | none => []
  | _ => []

/-- The objects of all copies that requests make. -/
def copies (symbols : Symbols) (session : Session) : List Request → List ObjectId
  | [] => []
  | request :: rest =>
      session.copied request ++ copies symbols (session.perform symbols request) rest

theorem copies_append (symbols : Symbols) (session : Session) (requests more : List Request) :
    copies symbols session (requests ++ more) =
      copies symbols session requests ++
        copies symbols (session.run symbols requests) more := by
  induction requests generalizing session with
  | nil => rfl
  | cons request rest inductionHypothesis =>
      rw [List.cons_append, copies, copies, inductionHypothesis, List.append_assoc]
      rfl

theorem le_of_mem_copied {session : Session} {request : Request} {object : ObjectId}
    (member : object ∈ session.copied request) : session.registry.free ≤ object := by
  cases request with
  | copy place =>
      simp only [copied] at member
      split at member
      · rename_i term _
        have between := (copy_objects session.registry.free term).2
        exact (between object member).1
      · contradiction
  | _ => contradiction

variable {symbols : Symbols} {session : Session} {outside : Held} {others : List Term}
  {made : List ObjectId}

/-! ## Answers -/

/-- Every answer settles, with the copy that was made, if one was, exempt. -/
theorem answer_settles (formed : session.Formed symbols)
    (unique : session.registry.Unique made (others ++ session.terms))
    (counts : outside.Counts others) (request : Request) :
    Settles (made ++ session.copied request) (others ++ session.terms) session.registry
      (session.answer symbols outside request) := by
  have allCounts : (outside.withTerms session.terms).Counts (others ++ session.terms) :=
    counts.withTerms session.terms
  have resultInside : ∀ place, ∀ term ∈ session.result? place,
      Inside (others ++ session.terms) term :=
    fun place term result => .of_mem (List.mem_append_right _ (result?_mem result))
  have sameCopies : session.copied request = [] → made ++ session.copied request = made := by
    intro noCopy
    rw [noCopy, List.append_nil]
  have nothing : ∀ {registry : Registry}, session.registry.free ≤ registry.free →
      registry.Unique made (others ++ session.terms) →
      Settles made (others ++ session.terms) session.registry (.ok none, registry) :=
    fun grown kept =>
      ((Registers.nothing kept (fun _ => by simp)).toSettles).mono
        (fun _ member => .of_mem member) grown
  cases request with
  | word written =>
      rw [sameCopies rfl, Session.answer]
      exact (Construction.word_registers written unique allCounts).toSettles
  | statement copula subject predicate =>
      rw [sameCopies rfl, Session.answer]
      exact (Construction.statement_registers unique allCounts (resultInside subject)
        (resultInside predicate) formed.result).toSettles
  | conjunction left right =>
      rw [sameCopies rfl, Session.answer]
      exact Construction.conjunction_settles unique allCounts (resultInside left)
        (resultInside right)
  | conjunctionFrom members =>
      rw [sameCopies rfl]
      simp only [Session.answer]
      cases found : members.mapM session.result? with
      | none => exact nothing (Nat.le_refl _) unique
      | some terms =>
          refine Construction.conjunctionOf_settles unique allCounts ?_
          intro term member
          exact .of_mem (List.mem_append_right _ (members_mem found term member))
  | component place index =>
      rw [sameCopies rfl, Session.answer]
      cases found : (session.result? place).bind (·.components[index]?) with
      | none => exact nothing (Nat.le_refl _) unique
      | some component =>
          obtain ⟨term, result, placed⟩ := Option.bind_eq_some_iff.mp found
          have inside := resultInside place term result
          exact .single unique (inside.component (List.mem_of_getElem? placed))
  | copy place =>
      simp only [Session.answer, copied]
      cases result : session.result? place with
      | none =>
          rw [List.append_nil]
          exact nothing (Nat.le_refl _) unique
      | some term =>
          have copiedUnique : (session.registry.copy term).2.Unique
              (made ++ (session.registry.copy term).1.objects)
              ((session.registry.copy term).1 :: (others ++ session.terms)) :=
            unique.copy
          have grown := (copy_objects session.registry.free term).1
          exact
            { kept := copiedUnique.mono fun _ member => .of_mem (List.mem_cons_of_mem _ member)
              made := by
                intro other given
                obtain rfl : (session.registry.copy term).1 = other := by simpa using given
                exact copiedUnique
              grown := Nat.le_of_lt grown }
  | drop place =>
      rw [sameCopies rfl, Session.answer]
      exact nothing (Nat.le_refl _) unique
  | listed name =>
      rw [sameCopies rfl, Session.answer]
      simp only [Registry.listed_eq]
      cases live : session.registry.live? (outside.withTerms session.terms) name with
      | none => exact nothing (Nat.le_refl _) (unique.remove allCounts live)
      | some term => exact .single unique ((unique.live?_iff allCounts).mp live).1
  | release name =>
      rw [sameCopies rfl, Session.answer]
      refine nothing ?_ (unique.release allCounts name)
      rw [Registry.release_registry, Registry.listed_eq]
      cases session.registry.live? (outside.withTerms session.terms) name <;> exact Nat.le_refl _
  | purge =>
      rw [sameCopies rfl, Session.answer]
      exact nothing (Nat.le_refl _) (unique.purge allCounts)

/-- A settled answer may be received. -/
theorem receive_unique {request : Request} {answer : Outcome × Registry}
    (settles : Settles made (others ++ session.terms) session.registry answer) :
    (session.receive request answer).registry.Unique made
      (others ++ (session.receive request answer).terms) := by
  by_cases received : ∃ term, answer.1 = .ok (some term)
  · obtain ⟨term, isTerm⟩ := received
    refine (settles.made term isTerm).mono ?_
    intro other member
    refine .of_mem ?_
    rcases List.mem_append.mp member with outer | inner
    · exact List.mem_cons_of_mem _ (List.mem_append_left _ outer)
    · rcases mem_terms_receive inner with old | new
      · exact List.mem_cons_of_mem _ (List.mem_append_right _ old)
      · obtain rfl : term = other := by simpa [isTerm] using new
        exact List.mem_cons_self
  · refine settles.kept.mono ?_
    intro other member
    refine .of_mem ?_
    rcases List.mem_append.mp member with outer | inner
    · exact List.mem_append_left _ outer
    · rcases mem_terms_receive inner with old | new
      · exact List.mem_append_right _ old
      · exact absurd ⟨other, new⟩ received

/-! ## Runs -/

/-- A session of its own: nothing else is held. -/
theorem perform_settles (formed : session.Formed symbols)
    (unique : session.registry.Unique made session.terms) (request : Request) :
    (session.perform symbols request).registry.Unique (made ++ session.copied request)
        (session.perform symbols request).terms ∧
      session.registry.free ≤ (session.perform symbols request).registry.free := by
  have settles : Settles (made ++ session.copied request) ([] ++ session.terms) session.registry
      (session.answer symbols Held.nothing request) :=
    answer_settles formed unique Held.nothing_counts request
  have received : (session.receive request
      (session.answer symbols Held.nothing request)).registry.Unique
        (made ++ session.copied request)
        ([] ++ (session.receive request (session.answer symbols Held.nothing request)).terms) :=
    receive_unique settles
  rw [perform]
  exact ⟨received, settles.grown⟩

theorem run_unique (formed : session.Formed symbols)
    (unique : session.registry.Unique made session.terms) (requests : List Request) :
    (session.run symbols requests).registry.Unique (made ++ session.copies symbols requests)
      (session.run symbols requests).terms := by
  induction requests generalizing session made with
  | nil => simpa [copies, run] using unique
  | cons request rest inductionHypothesis =>
      have performed := (perform_settles formed unique request).1
      rw [copies, run, ← List.append_assoc]
      exact inductionHypothesis (formed.perform request) performed

/-- No object from before a run belongs to a copy that the run makes. -/
theorem le_of_mem_copies (formed : session.Formed symbols)
    (unique : session.registry.Unique made session.terms) {requests : List Request}
    {object : ObjectId} (member : object ∈ session.copies symbols requests) :
    session.registry.free ≤ object := by
  induction requests generalizing session made with
  | nil => contradiction
  | cons request rest inductionHypothesis =>
      obtain ⟨performed, grown⟩ := perform_settles formed unique request
      rcases List.mem_append.mp member with now | later
      · exact le_of_mem_copied now
      · exact Nat.le_trans grown (inductionHypothesis (formed.perform request) performed later)

/-- What is listed before a run is no copy that the run makes. -/
theorem not_mem_copies_of_inside {term : Term} (formed : session.Formed symbols)
    (unique : session.registry.Unique made session.terms)
    (inside : Inside session.terms term) (original : term.object ∉ made)
    (requests : List Request) :
    term.object ∉ made ++ session.copies symbols requests := by
  intro member
  rcases List.mem_append.mp member with old | new
  · exact original old
  · have below := unique.entry_lt term (unique.listed term inside original)
    have above := le_of_mem_copies formed unique new
    exact absurd below (Nat.not_lt.mpr above)

theorem of_unique (symbols : Symbols) (requests : List Request) :
    (of symbols requests).registry.Unique (copies symbols {} requests)
      (of symbols requests).terms := by
  have fromEmpty := run_unique (of_formed symbols []) Registry.empty_unique requests
  rwa [List.nil_append] at fromEmpty

theorem held_counts (session : Session) : session.held.Counts session.terms :=
  Held.nothing_counts.withTerms session.terms

/-- All that the terms of a session consist of is formed. -/
theorem Formed.inside {term : Term} (formed : session.Formed symbols)
    (inside : Inside session.terms term) : term.Formed symbols := by
  obtain ⟨whole, member, isPart⟩ := inside
  exact (formed.terms whole member).ofPart isPart

/-! ## Results stay -/

theorem result?_append {place : Nat} {term : Term} (result : session.result? place = some term)
    (registry : Registry) (more : List (Option Term)) :
    (⟨registry, session.results ++ more⟩ : Session).result? place = some term := by
  obtain ⟨entry, placed, rfl⟩ := Option.bind_eq_some_iff.mp result
  have within : place < session.results.length := (List.getElem?_eq_some_iff.mp placed).1
  rw [result?, List.getElem?_append_left within, placed]
  rfl

theorem result?_record (session : Session) (registry : Registry) (result : Option Term) :
    (session.record registry result).result? session.results.length = result := by
  rw [result?, record, List.getElem?_concat_length]
  rfl

/-- A result stays at its place until it is dropped. -/
theorem result?_perform {place : Nat} {term : Term} {request : Request}
    (result : session.result? place = some term)
    (notDropped : ∀ dropped, request = .drop dropped → dropped ≠ place) :
    (session.perform symbols request).result? place = some term := by
  rw [perform]
  cases request with
  | drop dropped =>
      have different : dropped ≠ place := notDropped dropped rfl
      have stays : (⟨session.registry, session.results.set dropped none⟩ : Session).result? place =
          some term := by
        rw [← result, result?, result?, List.getElem?_set_ne different]
      exact result?_append stays _ _
  | _ => exact result?_append result _ _

/-- What is at a place that no request drops is held after a run. -/
theorem result?_run {place : Nat} {term : Term} {requests : List Request}
    (result : session.result? place = some term)
    (notDropped : ∀ dropped, .drop dropped ∈ requests → dropped ≠ place) :
    (session.run symbols requests).result? place = some term := by
  induction requests generalizing session with
  | nil => exact result
  | cons request rest inductionHypothesis =>
      have notDroppedFirst : ∀ dropped, request = .drop dropped → dropped ≠ place := by
        rintro dropped rfl
        exact notDropped dropped List.mem_cons_self
      have notDroppedLater : ∀ dropped, .drop dropped ∈ rest → dropped ≠ place :=
        fun dropped member => notDropped dropped (List.mem_cons_of_mem _ member)
      exact inductionHypothesis (result?_perform result notDroppedFirst) notDroppedLater

end Session

end AttentiveReasoner.Language
