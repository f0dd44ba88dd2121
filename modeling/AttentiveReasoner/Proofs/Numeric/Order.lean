import AttentiveReasoner.Numeric.Single

/-!
Contract: the numeric order of 32-bit numbers.

Owns:
- comparisons as comparisons of signed magnitudes;
- numbers that are numerically the same;
- intervals, and that extrema and the clamp stay in them;
- the larger of two numbers, and its signed magnitude.

Does not own: sums, products and powers. Nothing here depends on what they give: the clamp
takes every operand into the unit interval, what is not a number included.
-/

namespace AttentiveReasoner.Numeric.Single

variable {left right lower upper number : Float32}

/-! ## Comparisons -/

theorem less_iff (left right : Float32) :
    less left right = true ↔
      isNaN left = false ∧ isNaN right = false ∧
        signedMagnitude left < signedMagnitude right := by
  simp [less, and_assoc]

theorem atMost_iff (left right : Float32) :
    atMost left right = true ↔
      isNaN left = false ∧ isNaN right = false ∧
        signedMagnitude left ≤ signedMagnitude right := by
  simp [atMost, and_assoc]

theorem atMost_self (isNumber : isNaN number = false) : atMost number number = true :=
  (atMost_iff _ _).mpr ⟨isNumber, isNumber, Int.le_refl _⟩

/-- Of two numbers, one is at most the other unless that one is less. -/
theorem atMost_of_not_less (leftNumber : isNaN left = false) (rightNumber : isNaN right = false)
    (notLess : ¬ less right left = true) : atMost left right = true := by
  rw [less_iff] at notLess
  rw [atMost_iff]
  refine ⟨leftNumber, rightNumber, Int.not_lt.mp ?_⟩
  exact fun below => notLess ⟨rightNumber, leftNumber, below⟩

theorem less_eq_false (above : signedMagnitude right ≤ signedMagnitude left) :
    less left right = false := by
  rw [Bool.eq_false_iff, Ne, less_iff]
  omega

/-- Two numbers are numerically the same. The two zeros are; what is not a number is not even
the same as itself. -/
def Same (left right : Float32) : Prop :=
  atMost left right = true ∧ atMost right left = true

theorem same_iff :
    Same left right ↔
      isNaN left = false ∧ isNaN right = false ∧
        signedMagnitude left = signedMagnitude right := by
  unfold Same
  rw [atMost_iff, atMost_iff]
  constructor
  · rintro ⟨⟨leftNumber, rightNumber, below⟩, _, _, above⟩
    exact ⟨leftNumber, rightNumber, by omega⟩
  · rintro ⟨leftNumber, rightNumber, equal⟩
    exact ⟨⟨leftNumber, rightNumber, by omega⟩, rightNumber, leftNumber, by omega⟩

/-! ## Intervals -/

/-- A number between two others, which may be one of them. -/
structure Between (lower upper number : Float32) : Prop where
  lower_atMost : atMost lower number = true
  atMost_upper : atMost number upper = true

instance (lower upper number : Float32) : Decidable (Between lower upper number) :=
  decidable_of_iff (atMost lower number = true ∧ atMost number upper = true)
    ⟨fun both => ⟨both.1, both.2⟩, fun between => ⟨between.1, between.2⟩⟩

/-- What is not a number lies between no others. -/
theorem Between.isNumber (between : Between lower upper number) : isNaN number = false :=
  ((atMost_iff _ _).mp between.lower_atMost).2.1

/-- A number of an interval from zero has no negative magnitude. -/
theorem Between.signedMagnitude_nonneg (between : Between zero upper number) :
    0 ≤ signedMagnitude number := by
  have atLeast := ((atMost_iff _ _).mp between.lower_atMost).2.2
  have origin : signedMagnitude zero = 0 := by decide
  rwa [origin] at atLeast

theorem zero_atMost_one : atMost zero one = true := by
  decide

theorem isNaN_zero : isNaN zero = false := by
  decide

theorem isNaN_one : isNaN one = false := by
  decide

/-- Whatever is clamped lies between zero and one. -/
theorem clampUnit_between (number : Float32) : Between zero one (clampUnit number) := by
  have zeroIn : Between zero one zero := ⟨by decide, zero_atMost_one⟩
  have oneIn : Between zero one one := ⟨zero_atMost_one, by decide⟩
  unfold clampUnit
  split
  · exact zeroIn
  · rename_i isNumber
    rw [Bool.not_eq_true] at isNumber
    split
    · exact zeroIn
    · rename_i notBelow
      split
      · exact oneIn
      · rename_i notAbove
        exact ⟨atMost_of_not_less isNaN_zero isNumber notBelow,
          atMost_of_not_less isNumber isNaN_one notAbove⟩

theorem Between.larger (leftBetween : Between lower upper left)
    (rightBetween : Between lower upper right) :
    Between lower upper (Single.larger left right) := by
  unfold Single.larger
  split
  · exact leftBetween
  · split
    · exact leftBetween
    · exact rightBetween

/-- The smaller of a number of an interval and a new upper bound. -/
theorem Between.smaller {limit : Float32} (between : Between lower upper number)
    (limitAbove : atMost lower limit = true) :
    Between lower limit (Single.smaller number limit) := by
  obtain ⟨_, limitNumber, _⟩ := (atMost_iff _ _).mp limitAbove
  have limitItself : atMost limit limit = true := atMost_self limitNumber
  unfold Single.smaller
  split
  · rename_i isNaN
    rw [limitNumber] at isNaN
    contradiction
  · split
    · rename_i below
      obtain ⟨isNumber, _, lessThan⟩ := (less_iff _ _).mp below
      exact ⟨between.lower_atMost,
        (atMost_iff _ _).mpr ⟨isNumber, limitNumber, Int.le_of_lt lessThan⟩⟩
    · exact ⟨limitAbove, limitItself⟩

/-! ## The larger number -/

/-- The larger of two: one of them, and at least each of them that is a number. -/
structure Larger (left right number : Float32) : Prop where
  eq_or_eq : number = left ∨ number = right
  left_atMost : isNaN left = false → atMost left number = true
  right_atMost : isNaN right = false → atMost right number = true

theorem larger_isLarger (left right : Float32) : Larger left right (larger left right) := by
  unfold larger
  cases rightNumber : isNaN right with
  | true =>
      simp only [if_true]
      refine ⟨.inl rfl, atMost_self, ?_⟩
      intro isNumber
      rw [rightNumber] at isNumber
      contradiction
  | false =>
      rw [if_neg (by simp)]
      split
      · rename_i below
        obtain ⟨_, leftNumber, lessThan⟩ := (less_iff _ _).mp below
        exact ⟨.inl rfl, atMost_self,
          fun _ => (atMost_iff _ _).mpr ⟨rightNumber, leftNumber, Int.le_of_lt lessThan⟩⟩
      · rename_i notBelow
        exact ⟨.inr rfl, fun leftNumber => atMost_of_not_less leftNumber rightNumber notBelow,
          atMost_self⟩

theorem signedMagnitude_larger (leftNumber : isNaN left = false)
    (rightNumber : isNaN right = false) :
    signedMagnitude (larger left right) = max (signedMagnitude left) (signedMagnitude right) := by
  unfold larger
  rw [if_neg (by simp [rightNumber])]
  split
  · rename_i below
    have lessThan := ((less_iff _ _).mp below).2.2
    omega
  · rename_i notBelow
    have atLeast := ((atMost_iff _ _).mp
      (atMost_of_not_less leftNumber rightNumber notBelow)).2.2
    omega

end AttentiveReasoner.Numeric.Single
