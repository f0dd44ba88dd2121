import AttentiveReasoner.Proofs.Numeric.Values
import Mathlib.Order.WithBot

/-!
Contract: the values of 32-bit numbers among the rationals and the two infinities.

Owns:
- the extended value of a number: the rational that it means, or an infinity;
- that comparisons are those of the extended values;
- that the larger of two numbers has the larger value;
- numbers of one value: they have one encoding, or are the two zeros.

Does not own: sums and products. Of these only a product with a zero is looked at, as a level
cannot tell the two zeros apart.

What is not a number has no value. It is given that of zero, and every law about an order leaves
it out.
-/

namespace AttentiveReasoner.Numeric

open Float.Model (UnpackedFloat Format)
open Float.Model.UnpackedFloat
open Binary

/-- A rational, or one of the two infinities. -/
abbrev ExtendedRational := WithBot (WithTop ℚ)

/-! ## Encodings of the infinities -/

namespace Binary

variable {format : Format}

/-- The value of a number, infinite or not. -/
def extendedValue : UnpackedFloat → ExtendedRational
  | .notANumber => 0
  | .infinity .positive => ⊤
  | .infinity .negative => ⊥
  | .zero _ => 0
  | .finite sign mantissa exponent _ =>
      (((sign.apply mantissa : ℤ) * 2 ^ exponent : ℚ) : WithTop ℚ)

theorem Denotes.extendedValue_eq {number : UnpackedFloat} {exact : ℚ}
    (denotes : Denotes format number exact) : extendedValue number = (exact : WithTop ℚ) := by
  cases denotes with
  | zero sign => rfl
  | finite sign mantissa exponent positive canonical fits => rfl

/-- The magnitude of infinity stands for an infinity of either sign. -/
theorem unpack_infinite {bits : BitVec format.numBits}
    (infinite : magnitudeOf bits = (encoding format).infinity) :
    unpack format bits = .infinity (signOf bits) := by
  have field := field_magnitudeOf bits
  have fraction := fraction_magnitudeOf bits
  rw [infinite, infinity_encoding] at field fraction
  rw [Nat.mul_div_cancel _ (Nat.two_pow_pos _)] at field
  rw [Nat.mul_mod_left] at fraction
  have allOnes : unpackExponent bits = -1#_ := by
    apply BitVec.eq_of_toNat_eq
    rw [BitVec.neg_one_eq_allOnes, BitVec.toNat_allOnes, ← field]
  have noFraction : unpackMantissa bits = 0#_ :=
    BitVec.eq_of_toNat_eq (by simpa using fraction.symm)
  simp only [unpack, if_pos allOnes, if_pos noFraction]
  rfl

end Binary

namespace Single

variable {left right number : Float32} {exact : ℚ}

/-! ## Extended values -/

/-- The value of a 32-bit number, infinite or not. -/
def extended (number : Float32) : ExtendedRational :=
  extendedValue number.toModel.unpack

theorem Means.extended_eq (means : Means number exact) :
    extended number = (exact : WithTop ℚ) :=
  Denotes.extendedValue_eq means

theorem extended_zero : extended zero = 0 :=
  means_zero.extended_eq

theorem extended_infinite (infinite : isInfinite number = true) :
    extended number = if isNegative number then ⊥ else ⊤ := by
  have isMagnitude : @magnitudeOf .binary32 number.toModel.toBits.toBitVec =
      (encoding .binary32).infinity := of_decide_eq_true infinite
  have unpacked : number.toModel.unpack =
      .infinity (@signOf .binary32 number.toModel.toBits.toBitVec) := unpack_infinite isMagnitude
  have isSign := isNegative_eq_false_iff number
  unfold extended
  rw [unpacked]
  cases sign : @signOf .binary32 number.toModel.toBits.toBitVec with
  | positive => rw [isSign.mpr sign, if_neg Bool.false_ne_true]; rfl
  | negative =>
      rw [sign] at isSign
      have negative : isNegative number = true := by
        rw [← Bool.not_eq_false]
        exact fun clear => nomatch isSign.mp clear
      rw [negative, if_pos rfl]
      rfl

/-- A number is finite or infinite. -/
theorem means_or_infinite (isNumber : isNaN number = false) :
    (∃ exact, Means number exact) ∨ isInfinite number = true := by
  have atMost : magnitude number ≤ BinaryFormat.single.infinity :=
    Nat.not_lt.mp (of_decide_eq_false isNumber)
  rcases atMost.lt_or_eq with finite | infinite
  · exact .inl ⟨_, (means_iff number _).mpr ⟨finite, rfl⟩⟩
  · exact .inr (decide_eq_true infinite)

/-! ## Order -/

theorem signedMagnitude_infinite (infinite : isInfinite number = true) :
    signedMagnitude number =
      if isNegative number then -(BinaryFormat.single.infinity : ℤ)
      else BinaryFormat.single.infinity := by
  rw [signedMagnitude, of_decide_eq_true infinite]

/-- Nothing is beyond the infinities. -/
theorem signedMagnitude_bounds (isNumber : isNaN number = false) :
    -(BinaryFormat.single.infinity : ℤ) ≤ signedMagnitude number ∧
      signedMagnitude number ≤ BinaryFormat.single.infinity := by
  have atMost : magnitude number ≤ BinaryFormat.single.infinity :=
    Nat.not_lt.mp (of_decide_eq_false isNumber)
  unfold signedMagnitude
  split <;> omega

theorem Means.signedMagnitude_bounds (means : Means number exact) :
    -(BinaryFormat.single.infinity : ℤ) < signedMagnitude number ∧
      signedMagnitude number < BinaryFormat.single.infinity := by
  have finite := ((means_iff _ _).mp means).1
  unfold signedMagnitude
  split <;> omega

/-- Numbers are compared as their values, the infinities included. -/
theorem atMost_iff_extended (leftNumber : isNaN left = false) (rightNumber : isNaN right = false) :
    atMost left right = true ↔ extended left ≤ extended right := by
  have leftBounds := signedMagnitude_bounds leftNumber
  have rightBounds := signedMagnitude_bounds rightNumber
  rcases means_or_infinite leftNumber with ⟨leftExact, leftMeans⟩ | leftInfinite
  · rcases means_or_infinite rightNumber with ⟨rightExact, rightMeans⟩ | rightInfinite
    · rw [leftMeans.atMost_iff rightMeans, leftMeans.extended_eq, rightMeans.extended_eq,
        WithBot.coe_le_coe, WithTop.coe_le_coe]
    · have inside := leftMeans.signedMagnitude_bounds
      rw [Single.atMost_iff, signedMagnitude_infinite rightInfinite, leftMeans.extended_eq,
        extended_infinite rightInfinite]
      split
      · exact iff_of_false (by omega) (WithBot.not_coe_le_bot _)
      · exact iff_of_true ⟨leftNumber, rightNumber, by omega⟩ le_top
  · rw [Single.atMost_iff, signedMagnitude_infinite leftInfinite, extended_infinite leftInfinite]
    split
    · exact iff_of_true ⟨leftNumber, rightNumber, by omega⟩ bot_le
    · rw [top_le_iff]
      rcases means_or_infinite rightNumber with ⟨rightExact, rightMeans⟩ | rightInfinite
      · have inside := rightMeans.signedMagnitude_bounds
        rw [rightMeans.extended_eq]
        refine iff_of_false (by omega) ?_
        exact fun isTop => WithTop.coe_ne_top (WithBot.coe_injective isTop)
      · rw [signedMagnitude_infinite rightInfinite, extended_infinite rightInfinite]
        split
        · have positive : (0 : ℤ) < BinaryFormat.single.infinity := by decide
          exact iff_of_false (by omega) bot_ne_top
        · exact iff_of_true ⟨leftNumber, rightNumber, le_rfl⟩ rfl

theorem less_iff_extended (leftNumber : isNaN left = false) (rightNumber : isNaN right = false) :
    less left right = true ↔ extended left < extended right := by
  rw [← not_le, ← atMost_iff_extended rightNumber leftNumber, less_iff, Single.atMost_iff]
  simp [leftNumber, rightNumber]

/-- The larger of two numbers has the larger value. -/
theorem extended_larger (leftNumber : isNaN left = false) (rightNumber : isNaN right = false) :
    extended (larger left right) = max (extended left) (extended right) := by
  unfold larger
  rw [if_neg (by simp [rightNumber])]
  split
  · rename_i below
    exact (max_eq_left ((less_iff_extended rightNumber leftNumber).mp below).le).symm
  · rename_i notBelow
    have atMost := atMost_of_not_less leftNumber rightNumber notBelow
    exact (max_eq_right ((atMost_iff_extended leftNumber rightNumber).mp atMost)).symm

/-! ## Numbers of one value -/

/-- Numbers are the same if they have one value. -/
theorem same_iff_extended (leftNumber : isNaN left = false) (rightNumber : isNaN right = false) :
    Same left right ↔ extended left = extended right := by
  rw [Same, atMost_iff_extended leftNumber rightNumber, atMost_iff_extended rightNumber leftNumber,
    le_antisymm_iff]

/-- An encoding is made of its sign and its magnitude. -/
theorem eq_of_parts (sameSign : isNegative left = isNegative right)
    (sameMagnitude : magnitude left = magnitude right) : left = right := by
  obtain ⟨⟨leftBits, leftValid⟩⟩ := left
  obtain ⟨⟨rightBits, rightValid⟩⟩ := right
  have leftLimit := leftBits.toNat_lt
  have rightLimit := rightBits.toNat_lt
  have weight : BinaryFormat.single.signWeight = 2 ^ 31 := by decide
  simp only [isNegative, magnitude, Float32.toBits, weight, decide_eq_decide]
    at sameSign sameMagnitude
  obtain rfl : leftBits = rightBits := UInt32.toNat_inj.mp (by omega)
  rfl

/-- Two numbers of one value are one number, or both are zeros. -/
theorem Same.eq_or_zeros (same : Same left right) :
    left = right ∨ magnitude left = 0 ∧ magnitude right = 0 := by
  have sameMagnitude := (same_iff.mp same).2.2
  unfold signedMagnitude at sameMagnitude
  cases leftSign : isNegative left <;> cases rightSign : isNegative right
  all_goals simp only [leftSign, rightSign, if_true, Bool.false_eq_true, if_false] at sameMagnitude
  · exact .inl (eq_of_parts (by rw [leftSign, rightSign]) (by omega))
  · exact .inr (by omega)
  · exact .inr (by omega)
  · exact .inl (eq_of_parts (by rw [leftSign, rightSign]) (by omega))

/-- A product with a zero is a zero, or no number. -/
theorem zero_mul_cases (factor : Float32) (isZero : magnitude number = 0) :
    (∃ sign, number * factor = .ofModel (.pack (.zero sign))) ∨
      number * factor = .ofModel (.pack .notANumber) := by
  have isEncoded : number = ofMagnitude (isNegative number) 0 := by
    apply eq_of_parts
    · cases isNegative number <;> decide
    · rw [isZero]
      cases isNegative number <;> decide
  have unpacked : ∃ sign, number.toModel.unpack = .zero sign := by
    rw [isEncoded]
    cases isNegative number
    · exact ⟨.positive, rfl⟩
    · exact ⟨.negative, rfl⟩
  obtain ⟨sign, isUnpacked⟩ := unpacked
  have product : number * factor =
      .ofModel (.pack (UnpackedFloat.mul .binary32 number.toModel.unpack factor.toModel.unpack)) :=
    rfl
  rw [product, isUnpacked]
  cases factor.toModel.unpack with
  | notANumber => exact .inr rfl
  | infinity => exact .inr rfl
  | zero other => exact .inl ⟨sign * other, rfl⟩
  | finite other => exact .inl ⟨sign * other, rfl⟩

/-- The whole part of a product cannot tell the two zeros apart. -/
theorem truncate_zero_mul (factor : Float32) (isZero : magnitude number = 0) :
    truncate (number * factor) = 0 := by
  rcases zero_mul_cases factor isZero with ⟨sign, product⟩ | product
  · rw [product]
    cases sign <;> decide
  · rw [product]
    decide

end Single

end AttentiveReasoner.Numeric
