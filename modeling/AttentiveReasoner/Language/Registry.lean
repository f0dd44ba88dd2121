import AttentiveReasoner.Language.Failure

/-!
Contract: the registry of terms, which lists one object under each name.

Owns:
- the list of registered terms and the supply of object numbers;
- looking a name up, with and without an expected form;
- interning a new term, or finding the one listed under its name;
- dropping entries that nobody holds.

Does not own: what is held. Every operation is told, by a predicate on objects,
which ones somebody holds while it runs.

An entry does not keep its term: it counts only as long as the object is held.
A listed object that is not held is as good as gone, but its entry stays until
the name is looked up, released or purged.
-/

namespace AttentiveReasoner.Language

/-- Which objects somebody holds. -/
abbrev Held := ObjectId → Bool

namespace Held

/-- Nothing is held. -/
def nothing : Held := fun _ => false

/-- What is held when terms are held besides. -/
def withTerms (held : Held) (terms : List Term) : Held :=
  fun object => held object || Term.anyConsistsOf object terms

/-- What is held when nothing but terms is held. The predicate looks objects up
in a set, for callers that ask about many. -/
def bySet (terms : List Term) : Held :=
  let objects := Term.gatherAll ∅ terms
  fun object => objects.contains object

end Held

/-- The listed terms and the next free object number. -/
structure Registry where
  entries : List Term := []
  free : ObjectId := 0

namespace Registry

/-- The entry of a name, held or not. -/
def entry? (registry : Registry) (name : String) : Option Term :=
  registry.entries.find? (·.name = name)

/-- The registry without an entry for the name. -/
def remove (registry : Registry) (name : String) : Registry :=
  { registry with entries := registry.entries.filter (·.name ≠ name) }

/-- The term listed under a name, if it is held. An entry found not to be held
is dropped. -/
def listed
    (registry : Registry)
    (held : Held)
    (name : String) :
    Option Term × Registry :=
  match registry.entry? name with
  | none => (none, registry)
  | some term =>
      if held term.object then (some term, registry)
      else (none, registry.remove name)

/-- A listed term, provided that it has the expected form. -/
def checkKind (term : Term) (expected : TermKind) : Except Failure Term :=
  if term.kind = expected then
    .ok term
  else
    .error (.kindMismatch term.name expected term.kind)

/-- The term listed under a name, if it is held; it is a failure if it has
another form than expected. -/
def lookup
    (registry : Registry)
    (held : Held)
    (name : String)
    (expected : TermKind) :
    Except Failure (Option Term) × Registry :=
  match registry.listed held name with
  | (none, registry) => (.ok none, registry)
  | (some term, registry) => ((checkKind term expected).map some, registry)

/-- The held term listed under the name of a new term, or the new term itself,
which is then listed. The new term is made for the next free object number. -/
def intern
    (registry : Registry)
    (held : Held)
    (make : ObjectId → Term) :
    Except Failure Term × Registry :=
  let term := make registry.free
  match registry.listed held term.name with
  | (some existing, registry) => (checkKind existing term.kind, registry)
  | (none, registry) =>
      (.ok term, ⟨registry.entries ++ [term], registry.free + 1⟩)

/-- Drop the entry of a name unless it is held; tells whether one was dropped. -/
def release
    (registry : Registry)
    (held : Held)
    (name : String) :
    Bool × Registry :=
  match registry.entry? name with
  | none => (false, registry)
  | some term =>
      if held term.object then (false, registry)
      else (true, registry.remove name)

/-- The number of entries, held or not. -/
def size (registry : Registry) : Nat :=
  registry.entries.length

/-- The number of entries that are held. -/
def heldSize (registry : Registry) (held : Held) : Nat :=
  registry.entries.countP (held ·.object)

/-- Drop every entry that is not held; tells how many were dropped. -/
def purge (registry : Registry) (held : Held) : Nat × Registry :=
  let kept := registry.entries.filter (held ·.object)
  (registry.size - kept.length, { registry with entries := kept })

/-- A copy of a term in new objects that the registry does not list. -/
def copy (registry : Registry) (term : Term) : Term × Registry :=
  let copied := term.copy registry.free
  (copied.1, { registry with free := copied.2 })

end Registry

end AttentiveReasoner.Language
