import AttentiveReasoner.Proofs.Language.NormalForm

/-!
Contract: finding or making a term by its name.

Owns:
- the entry of a name that somebody holds;
- what looking up and interning do, in terms of that entry;
- the constructions as finding or making one term: atoms, conjunctions of several
  components, and statements that absorb nothing;
- what finding or making keeps of the registry.

Does not own: which components a construction finds or makes a term of.

A construction looks its name up before it makes the term, and interning looks it
up again. Nothing is made in between, so the second look never finds anything.
-/

namespace AttentiveReasoner.Language

namespace Registry

variable {registry : Registry} {held : Held}

/-! ## Held entries -/

/-- The entry of a name, if somebody holds it. -/
def live? (registry : Registry) (held : Held) (name : String) : Option Term :=
  Option.filter (held ·.object) <| registry.entry? name

/-- The registry with a term listed under its name in place of what was listed
there. -/
def enter (registry : Registry) (term : Term) : Registry :=
  ⟨(registry.remove term.name).entries ++ [term], registry.free + 1⟩

/-- The held term listed under the name of a new term, if it has the form of the
new term, else the new term, which is then listed. -/
def obtain
    (registry : Registry)
    (held : Held)
    (make : ObjectId → Term) :
    Outcome × Registry :=
  let term := make registry.free
  match registry.live? held term.name with
  | some existing => ((checkKind existing term.kind).map some, registry)
  | none => (.ok (some term), registry.enter term)

theorem mem_of_live? {name : String} {term : Term}
    (live : registry.live? held name = some term) :
    term ∈ registry.entries ∧ term.name = name := by
  have entry := (Option.filter_eq_some_iff.mp live).1
  exact ⟨List.mem_of_find?_eq_some entry, by simpa using List.find?_some entry⟩

theorem remove_of_unlisted {name : String} (unlisted : registry.entry? name = none) :
    registry.remove name = registry := by
  unfold remove
  rw [List.filter_eq_self.mpr]
  intro entry member
  simpa using List.find?_eq_none.mp unlisted entry member

theorem entry?_remove (registry : Registry) (name other : String) :
    Registry.entry? (registry.remove name) other =
      if other = name then none else registry.entry? other := by
  unfold entry? remove
  rw [List.find?_filter]
  split
  · rename_i same
    simp [same]
  · rename_i different
    congr 1
    funext term
    grind

theorem live?_remove_self (registry : Registry) (held : Held) (name : String) :
    (registry.remove name).live? held name = none := by
  rw [live?, entry?_remove, if_pos rfl, Option.filter_none]

theorem remove_remove (registry : Registry) (name : String) :
    (registry.remove name).remove name = registry.remove name := by
  simp [remove]

/-! ## Looking up and interning -/

theorem listed_eq (registry : Registry) (held : Held) (name : String) :
    registry.listed held name =
      match registry.live? held name with
      | some term => (some term, registry)
      | none => (none, registry.remove name) := by
  unfold listed live?
  cases entry : registry.entry? name with
  | none => simp [remove_of_unlisted entry]
  | some term => cases isHeld : held term.object <;> simp [Option.filter, isHeld]

theorem lookup_eq (registry : Registry) (held : Held) (name : String) (expected : TermKind) :
    registry.lookup held name expected =
      match registry.live? held name with
      | some term => ((checkKind term expected).map some, registry)
      | none => (.ok none, registry.remove name) := by
  rw [lookup, listed_eq]
  cases registry.live? held name <;> rfl

theorem intern_eq (registry : Registry) (held : Held) (make : ObjectId → Term) :
    registry.intern held make =
      match registry.live? held (make registry.free).name with
      | some existing => (checkKind existing (make registry.free).kind, registry)
      | none => (.ok (make registry.free), registry.enter (make registry.free)) := by
  simp only [intern]
  rw [listed_eq]
  cases registry.live? held (make registry.free).name <;> rfl

/-- Interning is obtaining. -/
theorem intern_obtain (registry : Registry) (held : Held) (make : ObjectId → Term) :
    ((registry.intern held make).1.map some, (registry.intern held make).2) =
      registry.obtain held make := by
  rw [intern_eq, obtain]
  cases registry.live? held (make registry.free).name <;> rfl

/-- Looking a name up and then, without a find, interning a term of the name and
the form looked for, is obtaining the term. -/
theorem lookup_intern_obtain {name : String} {kind : TermKind} {make : ObjectId → Term}
    (named : ∀ object, (make object).name = name)
    (formed : ∀ object, (make object).kind = kind) :
    (match registry.lookup held name kind with
      | (.error failure, registry) => (.error failure, registry)
      | (.ok (some existing), registry) => (.ok (some existing), registry)
      | (.ok none, registry) =>
          ((registry.intern held make).1.map some, (registry.intern held make).2)) =
      registry.obtain held make := by
  have renamed := named registry.free
  have reformed := formed registry.free
  rw [lookup_eq]
  simp only [obtain, renamed, reformed]
  cases live : registry.live? held name with
  | some existing =>
      cases checked : checkKind existing kind <;> simp [checked, Except.map]
  | none =>
      have freed : (registry.remove name).free = registry.free := rfl
      have entered : (registry.remove name).enter (make registry.free) =
          registry.enter (make registry.free) := by
        simp [enter, renamed, remove_remove, freed]
      simp only [intern_eq, freed, renamed, live?_remove_self, entered]
      rfl

/-! ## What is kept -/

/-- Every entry is a formed term. -/
def Formed (symbols : Symbols) (registry : Registry) : Prop :=
  ∀ entry ∈ registry.entries, entry.Formed symbols

variable {symbols : Symbols}

theorem Formed.remove (formed : registry.Formed symbols) (name : String) :
    (registry.remove name).Formed symbols :=
  fun entry member => formed entry (List.mem_filter.mp member).1

theorem Formed.enter {term : Term} (formed : registry.Formed symbols)
    (new : term.Formed symbols) : (registry.enter term).Formed symbols := by
  intro entry member
  rcases List.mem_append.mp member with old | added
  · exact formed.remove _ entry old
  · rw [List.mem_singleton.mp added]
    exact new

theorem Formed.live {name : String} {term : Term} (formed : registry.Formed symbols)
    (live : registry.live? held name = some term) : term.Formed symbols :=
  formed term (mem_of_live? live).1

end Registry

/-- A construction that has a term as its result has a formed one, and leaves formed
entries. -/
structure Forms (symbols : Symbols) (result : Outcome × Registry) : Prop where
  term : ∀ term, result.1 = .ok (some term) → term.Formed symbols
  registry : result.2.Formed symbols

variable {symbols : Symbols} {registry : Registry} {held : Held}

theorem Forms.nothing {outcome : Outcome} (noTerm : ∀ term, outcome ≠ .ok (some term))
    (formed : registry.Formed symbols) : Forms symbols (outcome, registry) where
  term := fun term given => absurd given (noTerm term)
  registry := formed

theorem Forms.single {term : Term} (formed : registry.Formed symbols)
    (termFormed : term.Formed symbols) : Forms symbols (.ok (some term), registry) where
  term := fun other given => by
    obtain rfl : term = other := by simpa using given
    exact termFormed
  registry := formed

/-- Obtaining a term that would be formed forms one. -/
theorem Forms.obtain {make : ObjectId → Term} (formed : registry.Formed symbols)
    (made : (make registry.free).Formed symbols) :
    Forms symbols (registry.obtain held make) := by
  simp only [Registry.obtain]
  cases live : registry.live? held (make registry.free).name with
  | none => exact .single (formed.enter made) made
  | some existing =>
      simp only [Registry.checkKind]
      split
      · exact .single formed (formed.live live)
      · exact .nothing (fun _ => by simp [Except.map]) formed

end AttentiveReasoner.Language
