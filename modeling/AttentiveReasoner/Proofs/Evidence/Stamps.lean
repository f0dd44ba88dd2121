import AttentiveReasoner.Evidence.Stamp

/-!
Contract: the overlap of evidential bases, and what a derived base keeps of its premises.

Owns:
- overlap as a serial number in common, and hence its symmetry;
- that adding serial numbers to a base drops none that is there;
- that a derived base keeps the first serial number of either premise.

Does not own: which serial numbers are lost where a base is full.

The premises are taken in turn, so the first serial number of either comes among the first two,
long before a base is full. Whatever is lost later, a conclusion overlaps both premises.
-/

namespace AttentiveReasoner.Evidence.Stamp

variable {base serials : List Nat} {serial : Nat} {first second : Stamp}

/-! ## Overlap -/

theorem overlaps_iff (left right : Stamp) :
    left.overlaps right = true ↔ ∃ serial ∈ left.base, serial ∈ right.base := by
  simp only [overlaps, List.any_eq_true, List.contains_iff_mem]

theorem overlaps_comm (left right : Stamp) : left.overlaps right = right.overlaps left := by
  rw [Bool.eq_iff_iff, overlaps_iff, overlaps_iff]
  constructor
  · rintro ⟨serial, inLeft, inRight⟩
    exact ⟨serial, inRight, inLeft⟩
  · rintro ⟨serial, inRight, inLeft⟩
    exact ⟨serial, inLeft, inRight⟩

/-! ## Adding serial numbers -/

theorem mem_addSerial_of_mem (member : serial ∈ base) (other : Nat) :
    serial ∈ addSerial base other := by
  unfold addSerial
  split
  · exact List.mem_append_left [other] member
  · exact member

theorem mem_addSerial_self (room : base.length < baseLimit) (serial : Nat) :
    serial ∈ addSerial base serial := by
  by_cases known : serial ∈ base
  · exact mem_addSerial_of_mem known serial
  · simp [addSerial, room, known]

theorem length_addSerial_le (base : List Nat) (serial : Nat) :
    (addSerial base serial).length ≤ base.length + 1 := by
  unfold addSerial
  split
  · simp
  · omega

theorem mem_addSerials_of_mem (member : serial ∈ base) (serials : List Nat) :
    serial ∈ serials.foldl addSerial base := by
  induction serials generalizing base with
  | nil => exact member
  | cons other rest inductionHypothesis =>
      exact inductionHypothesis (mem_addSerial_of_mem member other)

/-! ## Derived bases -/

/-- The first serial numbers of both premises are in the base of a conclusion. -/
theorem heads_mem_derived {left right : Nat} {leftRest rightRest : List Nat} (cycle : Nat)
    (firstBase : first.base = left :: leftRest) (secondBase : second.base = right :: rightRest) :
    left ∈ (derived first second cycle).base ∧ right ∈ (derived first second cycle).base := by
  have inTurn : (derived first second cycle).base =
      (interleave leftRest rightRest).foldl addSerial (addSerial (addSerial [] left) right) := by
    simp only [derived, firstBase, secondBase, interleave, List.foldl_cons]
  have leftFits : left ∈ addSerial [] left := mem_addSerial_self (by decide) left
  have rightFits : right ∈ addSerial (addSerial [] left) right := by
    apply mem_addSerial_self
    have atMostOne := length_addSerial_le [] left
    have limit : baseLimit = 8 := rfl
    rw [List.length_nil] at atMostOne
    omega
  rw [inTurn]
  exact ⟨mem_addSerials_of_mem (mem_addSerial_of_mem leftFits right) _,
    mem_addSerials_of_mem rightFits _⟩

/-- A conclusion overlaps both of its premises, however long their bases are. -/
theorem derived_overlaps (cycle : Nat) (firstBased : first.base ≠ [])
    (secondBased : second.base ≠ []) :
    (derived first second cycle).overlaps first = true ∧
      (derived first second cycle).overlaps second = true := by
  obtain ⟨left, leftRest, firstBase⟩ := List.exists_cons_of_ne_nil firstBased
  obtain ⟨right, rightRest, secondBase⟩ := List.exists_cons_of_ne_nil secondBased
  obtain ⟨leftKept, rightKept⟩ := heads_mem_derived cycle firstBase secondBase
  rw [overlaps_iff, overlaps_iff]
  constructor
  · exact ⟨left, leftKept, by rw [firstBase]; exact List.mem_cons_self⟩
  · exact ⟨right, rightKept, by rw [secondBase]; exact List.mem_cons_self⟩

end AttentiveReasoner.Evidence.Stamp
