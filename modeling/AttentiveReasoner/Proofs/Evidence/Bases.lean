import AttentiveReasoner.Proofs.Evidence.Stamps
import Mathlib.Data.Finset.Card
import Mathlib.Data.List.Induction

/-!
Contract: the base of a conclusion, as a list.

Owns:
- two bases by turns in closed form, and that no serial number is lost or added there;
- that serial numbers added one after the other leave their first occurrences, as many as there is
  room for;
- the base of a conclusion from any two stamps, and whom it overlaps where nothing is cut off.

Does not own: the bases of the premises. They may be empty, longer than a conclusion's, and repeat
serial numbers.

Adding skips what is there already and stops when the base is full. Whether a base is full when a
serial number comes depends on how many were skipped before, so the limit is not one on the number
of turns. Both are done at once as well as one after the other: without repetitions first, and cut
off only then.
-/

namespace AttentiveReasoner.Evidence.Stamp

variable {serial : Nat}

/-! ## By turns -/

/-- The members of two lists in pairs, then what is left of the longer one. -/
def byTurns (left right : List Nat) : List Nat :=
  (left.zip right).flatMap (fun pair => [pair.1, pair.2]) ++
    (left.drop right.length ++ right.drop left.length)

theorem interleave_eq (left right : List Nat) : interleave left right = byTurns left right := by
  induction left generalizing right with
  | nil => simp [interleave, byTurns]
  | cons first left inductionHypothesis =>
      cases right with
      | nil => simp [interleave, byTurns]
      | cons second right => simp [interleave, inductionHypothesis, byTurns]

theorem mem_byTurns {left right : List Nat} :
    serial ∈ byTurns left right ↔ serial ∈ left ∨ serial ∈ right := by
  rw [← interleave_eq]
  induction left generalizing right with
  | nil => simp [interleave]
  | cons first left inductionHypothesis =>
      cases right with
      | nil => simp [interleave]
      | cons second right =>
          simp only [interleave, List.mem_cons, inductionHypothesis]
          tauto

/-! ## First occurrences -/

theorem eraseDups_concat (serials : List Nat) (serial : Nat) :
    (serials ++ [serial]).eraseDups =
      if serial ∈ serials then serials.eraseDups else serials.eraseDups ++ [serial] := by
  by_cases known : serial ∈ serials
  · simp [List.eraseDups_append, List.removeAll, known]
  · simp [List.eraseDups_append, List.removeAll, known, List.eraseDups_cons]

theorem eraseDups_nodup (serials : List Nat) : serials.eraseDups.Nodup := by
  induction serials using List.reverseRecOn with
  | nil => simp
  | append_singleton serials serial inductionHypothesis =>
      rw [eraseDups_concat]
      split
      · exact inductionHypothesis
      · rename_i new
        have absent : serial ∉ serials.eraseDups := by simpa using new
        rw [← List.concat_eq_append]
        exact inductionHypothesis.concat absent

theorem length_eraseDups (serials : List Nat) :
    serials.eraseDups.length = serials.toFinset.card := by
  rw [← List.toFinset_card_of_nodup (eraseDups_nodup serials)]
  congr 1
  ext serial
  simp

/-! ## Adding serial numbers -/

/-- A serial number is added to a list that is cut off, or the list is cut off afterwards. -/
theorem addSerial_take (serials : List Nat) (serial : Nat) :
    addSerial (serials.take baseLimit) serial =
      (if serial ∈ serials then serials else serials ++ [serial]).take baseLimit := by
  by_cases room : serials.length < baseLimit
  · have whole : serials.take baseLimit = serials := List.take_of_length_le (by omega)
    by_cases known : serial ∈ serials
    · simp [addSerial, whole, known]
    · have oneMore : (serials ++ [serial]).length ≤ baseLimit := by
        simp only [List.length_append, List.length_singleton]
        omega
      simp [addSerial, whole, room, known, List.take_of_length_le oneMore]
  · -- The base is full, and what comes behind it is cut off.
    have full : (serials.take baseLimit).length = baseLimit := by
      rw [List.length_take]
      omega
    have behind : (serials ++ [serial]).take baseLimit = serials.take baseLimit :=
      List.take_append_of_le_length (by omega)
    have unchanged : addSerial (serials.take baseLimit) serial = serials.take baseLimit := by
      simp [addSerial, full]
    rw [unchanged]
    split
    · rfl
    · exact behind.symm

theorem foldl_addSerial (serials : List Nat) :
    serials.foldl addSerial [] = serials.eraseDups.take baseLimit := by
  induction serials using List.reverseRecOn with
  | nil => rfl
  | append_singleton serials serial inductionHypothesis =>
      rw [List.foldl_append, inductionHypothesis, List.foldl_cons, List.foldl_nil,
        addSerial_take, eraseDups_concat]
      simp only [List.mem_eraseDups]

/-! ## Conclusions -/

/-- The base of a conclusion from two premises: the first occurrences of their serial numbers by
turns, of which eight are kept. Where both have no more than eight together, none is lost, and the
conclusion overlaps whom one of its premises overlaps. -/
structure Concludes (first second conclusion : Stamp) : Prop where
  base_eq : conclusion.base = (byTurns first.base second.base).eraseDups.take 8
  nodup : conclusion.base.Nodup
  length_le : conclusion.base.length ≤ 8
  from_premises : ∀ serial ∈ conclusion.base, serial ∈ first.base ∨ serial ∈ second.base
  overlaps_iff : (first.base ++ second.base).toFinset.card ≤ 8 → ∀ other : Stamp,
    conclusion.overlaps other = true ↔
      first.overlaps other = true ∨ second.overlaps other = true

theorem base_derived (first second : Stamp) (cycle : Nat) :
    (derived first second cycle).base =
      (byTurns first.base second.base).eraseDups.take baseLimit := by
  rw [derived, foldl_addSerial, interleave_eq]

/-- Where a base has room for all serial numbers of the premises, it has all of them. -/
theorem mem_derived_iff {first second : Stamp} {cycle : Nat}
    (few : (first.base ++ second.base).toFinset.card ≤ baseLimit) :
    serial ∈ (derived first second cycle).base ↔
      serial ∈ first.base ∨ serial ∈ second.base := by
  have sameSerials : (byTurns first.base second.base).toFinset =
      (first.base ++ second.base).toFinset := by
    ext serial
    simp [mem_byTurns]
  have fits : (byTurns first.base second.base).eraseDups.length ≤ baseLimit := by
    rw [length_eraseDups, sameSerials]
    exact few
  rw [base_derived, List.take_of_length_le fits, List.mem_eraseDups, mem_byTurns]

/-- Whatever the bases of two stamps are, and whenever the conclusion is drawn. -/
theorem derived_concludes (first second : Stamp) (cycle : Nat) :
    Concludes first second (derived first second cycle) := by
  have isBase := base_derived first second cycle
  constructor
  case base_eq => exact isBase
  case nodup =>
    rw [isBase]
    exact (eraseDups_nodup _).sublist (List.take_sublist _ _)
  case length_le =>
    rw [isBase]
    exact List.length_take_le _ _
  case from_premises =>
    intro serial member
    rw [isBase] at member
    exact mem_byTurns.mp (List.mem_eraseDups.mp (List.mem_of_mem_take member))
  case overlaps_iff =>
    intro few other
    simp only [overlaps_iff, mem_derived_iff few]
    constructor
    · rintro ⟨serial, inFirst | inSecond, inOther⟩
      · exact .inl ⟨serial, inFirst, inOther⟩
      · exact .inr ⟨serial, inSecond, inOther⟩
    · rintro (⟨serial, inFirst, inOther⟩ | ⟨serial, inSecond, inOther⟩)
      · exact ⟨serial, .inl inFirst, inOther⟩
      · exact ⟨serial, .inr inSecond, inOther⟩

/-- Of nine serial numbers one is lost: the last of those that the longer base has left. -/
example : (derived ⟨[1, 1, 2, 3, 4, 5], 0⟩ ⟨[6, 7, 1, 8, 9], 0⟩ 3) =
    ⟨[1, 6, 7, 2, 3, 8, 4, 9], 3⟩ := by
  decide

end AttentiveReasoner.Evidence.Stamp
