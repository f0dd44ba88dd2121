import Mathlib
import AttentiveReasoner.Numeric.Double

/-!
Contract: how far from zero a rounded sum of two 64-bit numbers is.

Owns:
- numbers within a power of two from zero;
- what cutting off the lowest places of a mantissa, and rounding it, adds to it;
- that a number which exceeds a power of two by less than half of a place is rounded to the power;
- that a sum, or a difference, with something fifty-four places smaller stays within the same
  power of two.

Does not own: encodings. The numbers here are mantissas with a binary exponent, which may be out
of range.

The last law is what makes running sums safe. However many small numbers are added one after the
other, the sum comes to rest at the power of two from which each of them is too small to lift it.
-/

namespace AttentiveReasoner.Numeric.Double

open Float.Model (UnpackedFloat Format totalExponent)
open Float.Model.UnpackedFloat

variable {mantissa places bound smaller : Nat} {left right number : UnpackedFloat}

/-- A number that is no further from zero than `2 ^ bound` times the least positive one. Binary
places are counted from the place of that one. -/
def Within (bound : Nat) : UnpackedFloat → Prop
  | .infinity _ => False
  | .notANumber => False
  | .zero _ => True
  | .finite _ mantissa exponent _ =>
      ∃ places : Nat, exponent = places - 1074 ∧ mantissa * 2 ^ places ≤ 2 ^ bound

theorem Within.mono (within : Within smaller number) (le : smaller ≤ bound) :
    Within bound number := by
  cases number with
  | infinity => exact within
  | notANumber => exact within
  | zero => exact within
  | finite sign mantissa exponent positive =>
      obtain ⟨places, isExponent, bounded⟩ := within
      exact ⟨places, isExponent, bounded.trans (Nat.pow_le_pow_right (by decide) le)⟩

theorem Within.neg (within : Within bound number) : Within bound number.neg := by
  cases number <;> exact within

theorem Within.isFinite (within : Within bound number) : number.isFinite = true := by
  cases number with
  | infinity => exact within.elim
  | notANumber => exact within.elim
  | zero => rfl
  | finite => rfl

/-! ## Cutting off places -/

/-- A mantissa without its lowest places, with what is remembered of them. -/
def cutOff (mantissa count : Nat) : ExtendedMantissa :=
  (⟨mantissa, false, false⟩ : ExtendedMantissa) >>> count

theorem cutOff_succ (mantissa count : Nat) :
    cutOff mantissa (count + 1) = (cutOff mantissa count).shiftRightOne :=
  rfl

theorem mantissa_cutOff (mantissa count : Nat) :
    (cutOff mantissa count).mantissa = mantissa / 2 ^ count := by
  induction count with
  | zero => exact (Nat.div_one _).symm
  | succ count inductionHypothesis =>
      show (cutOff mantissa count).mantissa / 2 = _
      rw [inductionHypothesis, Nat.div_div_eq_div_mul, Nat.pow_succ]

/-- The round bit stands for one half of the last place that is kept. -/
theorem roundBit_cutOff (mantissa count : Nat) :
    2 * (cutOff mantissa count).mantissa * 2 ^ count +
      (cutOff mantissa count).roundBit.toNat * 2 ^ count ≤ 2 * mantissa := by
  induction count with
  | zero => simp [cutOff, HShiftRight.hShiftRight, Nat.repeat]
  | succ count inductionHypothesis =>
      rw [cutOff_succ]
      generalize cutOff mantissa count = kept at inductionHypothesis
      have halves : 2 * (kept.mantissa / 2) + (kept.mantissa % 2 != 0).toNat = kept.mantissa := by
        rcases Nat.mod_two_eq_zero_or_one kept.mantissa with even | odd
        · rw [even]
          show 2 * (kept.mantissa / 2) + 0 = _
          omega
        · rw [odd]
          show 2 * (kept.mantissa / 2) + 1 = _
          omega
      calc
        2 * (kept.mantissa / 2) * 2 ^ (count + 1) +
            (kept.mantissa % 2 != 0).toNat * 2 ^ (count + 1)
          = (2 * (kept.mantissa / 2) + (kept.mantissa % 2 != 0).toNat) * 2 ^ (count + 1) := by
            ring
        _ = 2 * kept.mantissa * 2 ^ count := by
            rw [halves]
            ring
        _ ≤ 2 * mantissa := Nat.le_of_add_right_le inductionHypothesis

theorem roundedMantissa_le (extended : ExtendedMantissa) :
    extended.roundedMantissa ≤ extended.mantissa + extended.roundBit.toNat := by
  obtain ⟨mantissa, roundBit, stickyBit⟩ := extended
  cases roundBit <;> cases stickyBit <;>
    simp [ExtendedMantissa.roundedMantissa, ExtendedMantissa.accuracy,
      Accuracy.roundToNearestEven]
  omega

/-- Rounding adds at most one to what is kept of a mantissa. -/
theorem rounded_le (mantissa count : Nat) :
    (cutOff mantissa count).roundedMantissa ≤ mantissa / 2 ^ count + 1 := by
  have rounded := roundedMantissa_le (cutOff mantissa count)
  have single := Bool.toNat_le (cutOff mantissa count).roundBit
  rw [mantissa_cutOff] at rounded
  omega

/-- Rounding adds at most half of the last place that is kept. -/
theorem rounded_half (mantissa count : Nat) :
    2 * (cutOff mantissa count).roundedMantissa * 2 ^ count ≤ 2 * mantissa + 2 ^ count := by
  have isRoundBit := roundBit_cutOff mantissa count
  generalize cutOff mantissa count = kept at isRoundBit
  have single : kept.roundBit.toNat * 2 ^ count ≤ 2 ^ count :=
    Nat.le_trans (Nat.mul_le_mul_right _ (Bool.toNat_le _)) (Nat.le_of_eq (Nat.one_mul _))
  calc
    2 * kept.roundedMantissa * 2 ^ count
      ≤ 2 * (kept.mantissa + kept.roundBit.toNat) * 2 ^ count :=
        Nat.mul_le_mul_right _ (Nat.mul_le_mul_left _ (roundedMantissa_le kept))
    _ = 2 * kept.mantissa * 2 ^ count + kept.roundBit.toNat * 2 ^ count +
          kept.roundBit.toNat * 2 ^ count := by
        ring
    _ ≤ 2 * mantissa + 2 ^ count := Nat.add_le_add isRoundBit single

/-! ## The last place -/

/-- The last place that is kept of a number, which has fifty-three places. -/
def lastPlace (mantissa places : Nat) : Nat :=
  mantissa.log2 + 1 + places - 53

theorem targetExponent_eq (mantissa places : Nat) :
    Format.binary64.targetExponent (totalExponent mantissa (places - 1074)) =
      lastPlace mantissa places - 1074 := by
  have least : Format.binary64.minExponent = -1074 := by decide
  have count : Format.binary64.mantissaBits = 53 := by decide
  unfold Format.targetExponent totalExponent lastPlace
  rw [least, count]
  omega

theorem shiftToTargetExponent_eq (mantissa places : Nat) :
    shiftToTargetExponent .binary64 mantissa (places - 1074) .exact =
      (cutOff mantissa (lastPlace mantissa places - places),
        ((max places (lastPlace mantissa places) : Nat) : Int) - 1074) := by
  have amount : ((lastPlace mantissa places : Int) - 1074 - (places - 1074)).toNat =
      lastPlace mantissa places - places := by
    omega
  simp only [shiftToTargetExponent, shiftToExponent, targetExponent_eq, amount]
  refine Prod.ext rfl ?_
  show (places : Int) - 1074 + (lastPlace mantissa places - places : Nat) = _
  omega

/-! ## Rounding -/

/-- A number that exceeds a power of two by less than half of a place is rounded to the power, or
to less. -/
theorem rounded_le_pow (positive : 0 < mantissa) (kept : places ≤ lastPlace mantissa places)
    (large : 54 ≤ bound) (bounded : mantissa * 2 ^ places ≤ 2 ^ bound + 2 ^ (bound - 54)) :
    (cutOff mantissa (lastPlace mantissa places - places)).roundedMantissa *
      2 ^ lastPlace mantissa places ≤ 2 ^ bound := by
  have atMost := rounded_le mantissa (lastPlace mantissa places - places)
  have half := rounded_half mantissa (lastPlace mantissa places - places)
  generalize (cutOff mantissa (lastPlace mantissa places - places)).roundedMantissa = rounded
    at atMost half ⊢
  have order : mantissa.log2 + places ≤ bound := by
    have leading : 2 ^ (mantissa.log2 + places) ≤ 2 ^ bound + 2 ^ (bound - 54) := by
      rw [Nat.pow_add]
      exact (Nat.mul_le_mul_right _ (Nat.log2_self_le positive.ne')).trans bounded
    have less : 2 ^ (bound - 54) < 2 ^ bound := Nat.pow_lt_pow_right (by decide) (by omega)
    have below : 2 ^ (mantissa.log2 + places) < 2 ^ (bound + 1) := by
      rw [Nat.pow_succ]
      omega
    exact Nat.le_of_lt_succ ((Nat.pow_lt_pow_iff_right (by decide)).mp below)
  have range : lastPlace mantissa places ≤ bound - 53 ∨ lastPlace mantissa places = bound - 52 := by
    unfold lastPlace
    omega
  rcases range with low | high
  · -- Fifty-three places are enough here, even after a carry.
    have digits : mantissa / 2 ^ (lastPlace mantissa places - places) < 2 ^ 53 := by
      rw [Nat.div_lt_iff_lt_mul (Nat.two_pow_pos _), ← Nat.pow_add]
      apply Nat.lt_log2_self.trans_le
      apply Nat.pow_le_pow_right (by decide)
      unfold lastPlace
      omega
    calc
      rounded * 2 ^ lastPlace mantissa places ≤ 2 ^ 53 * 2 ^ (bound - 53) :=
        Nat.mul_le_mul (by omega) (Nat.pow_le_pow_right (by decide) low)
      _ = 2 ^ bound := by
        rw [← Nat.pow_add]
        congr 1
        omega
  · -- The number is the power and a little more, and the little is less than half a place.
    obtain ⟨rest, rfl⟩ := Nat.exists_eq_add_of_le' large
    have isPlace : lastPlace mantissa places = rest + 2 := by omega
    rw [isPlace] at kept half ⊢
    obtain ⟨count, isCount⟩ := Nat.exists_eq_add_of_le kept
    have amount : rest + 2 - places = count := by omega
    rw [amount] at half
    have scaled : 2 * rounded * 2 ^ (rest + 2) ≤ 2 * (mantissa * 2 ^ places) + 2 ^ (rest + 2) := by
      rw [isCount]
      calc
        2 * rounded * 2 ^ (places + count) = 2 * rounded * 2 ^ count * 2 ^ places := by ring
        _ ≤ (2 * mantissa + 2 ^ count) * 2 ^ places := Nat.mul_le_mul_right _ half
        _ = 2 * (mantissa * 2 ^ places) + 2 ^ (places + count) := by ring
    have together := scaled.trans
      (Nat.add_le_add_right (Nat.mul_le_mul_left 2 bounded) (2 ^ (rest + 2)))
    rw [Nat.add_sub_cancel] at together
    have units : 8 * rounded * 2 ^ rest ≤ (2 ^ 55 + 6) * 2 ^ rest := by
      calc
        8 * rounded * 2 ^ rest = 2 * rounded * 2 ^ (rest + 2) := by ring
        _ ≤ 2 * (2 ^ (rest + 54) + 2 ^ rest) + 2 ^ (rest + 2) := together
        _ = (2 ^ 55 + 6) * 2 ^ rest := by ring
    have few := Nat.le_of_mul_le_mul_right units (Nat.two_pow_pos rest)
    calc
      rounded * 2 ^ (rest + 2) ≤ 2 ^ 52 * 2 ^ (rest + 2) := Nat.mul_le_mul_right _ (by omega)
      _ = 2 ^ (rest + 54) := by ring

theorem roundWithAccuracy_within (sign : Sign) (positive : 0 < mantissa)
    (kept : places ≤ lastPlace mantissa places) (large : 54 ≤ bound)
    (bounded : mantissa * 2 ^ places ≤ 2 ^ bound + 2 ^ (bound - 54)) :
    Within bound (roundWithAccuracy .binary64 sign mantissa (places - 1074) .exact) := by
  have within := rounded_le_pow positive kept large bounded
  simp only [roundWithAccuracy, shiftToTargetExponent_eq, Nat.max_eq_right kept]
  split
  · trivial
  · -- After a carry the mantissa may have a place too many, which is cut off again.
    refine ⟨_, rfl, ?_⟩
    generalize (cutOff mantissa (lastPlace mantissa places - places)).roundedMantissa = rounded
      at within ⊢
    generalize lastPlace mantissa places = last at within ⊢
    have again : max last (lastPlace rounded last) = (lastPlace rounded last - last) + last := by
      omega
    rw [mantissa_cutOff, again, Nat.pow_add, ← Nat.mul_assoc]
    exact (Nat.mul_le_mul_right _ (Nat.div_mul_le_self _ _)).trans within

theorem log2_mul_pow (positive : 0 < mantissa) (count : Nat) :
    (mantissa * 2 ^ count).log2 = mantissa.log2 + count := by
  rw [Nat.log2_eq_iff (Nat.mul_pos positive (Nat.two_pow_pos _)).ne', Nat.add_right_comm,
    Nat.pow_add, Nat.pow_add]
  exact ⟨Nat.mul_le_mul_right _ (Nat.log2_self_le positive.ne'),
    Nat.mul_lt_mul_of_pos_right Nat.lt_log2_self (Nat.two_pow_pos _)⟩

theorem round_within (sign : Sign) (positive : 0 < mantissa) (large : 54 ≤ bound)
    (bounded : mantissa * 2 ^ places ≤ 2 ^ bound + 2 ^ (bound - 54)) :
    Within bound (UnpackedFloat.round .binary64 sign mantissa (places - 1074)) := by
  have amount : ((places : Int) - 1074 - (lastPlace mantissa places - 1074)).toNat =
      places - lastPlace mantissa places := by
    omega
  have lower : ((places : Int) - 1074 - (places - lastPlace mantissa places : Nat)) =
      (min places (lastPlace mantissa places) : Nat) - 1074 := by
    omega
  simp only [UnpackedFloat.round, decreaseExponent, targetExponent_eq, amount, lower,
    Nat.shiftLeft_eq]
  apply roundWithAccuracy_within sign (Nat.mul_pos positive (Nat.two_pow_pos _)) _ large
  · have same : places - lastPlace mantissa places + min places (lastPlace mantissa places) =
        places := by
      omega
    rw [Nat.mul_assoc, ← Nat.pow_add, same]
    exact bounded
  · have order := log2_mul_pow positive (places - lastPlace mantissa places)
    unfold lastPlace at order ⊢
    rw [order]
    omega

theorem normalize_within (zeroSign : Sign) (sum : Int) (large : 54 ≤ bound)
    (bounded : sum.natAbs * 2 ^ places ≤ 2 ^ bound + 2 ^ (bound - 54)) :
    Within bound (UnpackedFloat.normalize .binary64 sum (places - 1074) zeroSign) := by
  unfold UnpackedFloat.normalize
  split
  · rename_i isLess
    have negative : sum < 0 := Int.compare_eq_lt.mp isLess
    have same : (-sum).toNat = sum.natAbs := by omega
    rw [same]
    exact round_within _ (by omega) large bounded
  · trivial
  · rename_i isGreater
    have positive : 0 < sum := Int.compare_eq_gt.mp isGreater
    have same : sum.toNat = sum.natAbs := by omega
    rw [same]
    exact round_within _ (by omega) large bounded

/-! ## Sums -/

theorem natAbs_apply (sign : Sign) (mantissa : Nat) : (sign.apply mantissa).natAbs = mantissa := by
  cases sign
  · exact Int.natAbs_neg _
  · rfl

/-- Two mantissas are aligned at the lower one of their places. -/
theorem aligned_le {otherMantissa otherPlaces : Nat}
    (bounded : mantissa * 2 ^ places ≤ 2 ^ bound)
    (otherBounded : otherMantissa * 2 ^ otherPlaces ≤ 2 ^ smaller) :
    (mantissa * 2 ^ (places - min places otherPlaces) +
        otherMantissa * 2 ^ (otherPlaces - min places otherPlaces)) * 2 ^ min places otherPlaces ≤
      2 ^ bound + 2 ^ smaller := by
  rw [Nat.add_mul, Nat.mul_assoc, Nat.mul_assoc, ← Nat.pow_add, ← Nat.pow_add,
    Nat.sub_add_cancel (Nat.min_le_left _ _), Nat.sub_add_cancel (Nat.min_le_right _ _)]
  exact Nat.add_le_add bounded otherBounded

/-- What is added to a number and is fifty-four places smaller does not lift it above the power of
two that it is within. -/
theorem add_within (leftWithin : Within bound left) (rightWithin : Within smaller right)
    (minor : smaller + 54 ≤ bound) : Within bound (add .binary64 left right) := by
  cases left with
  | infinity => exact leftWithin.elim
  | notANumber => exact leftWithin.elim
  | zero leftSign =>
      cases right with
      | infinity => exact rightWithin.elim
      | notANumber => exact rightWithin.elim
      | zero rightSign => cases leftSign <;> cases rightSign <;> trivial
      | finite => exact rightWithin.mono (by omega)
  | finite leftSign leftMantissa leftExponent leftPositive =>
      cases right with
      | infinity => exact rightWithin.elim
      | notANumber => exact rightWithin.elim
      | zero => exact leftWithin
      | finite rightSign rightMantissa rightExponent rightPositive =>
          obtain ⟨leftPlaces, rfl, leftBounded⟩ := leftWithin
          obtain ⟨rightPlaces, rfl, rightBounded⟩ := rightWithin
          have lower : min ((leftPlaces : Int) - 1074) (rightPlaces - 1074) =
              (min leftPlaces rightPlaces : Nat) - 1074 := by
            omega
          have leftAmount : ((leftPlaces : Int) - 1074 -
              ((min leftPlaces rightPlaces : Nat) - 1074)).toNat =
                leftPlaces - min leftPlaces rightPlaces := by
            omega
          have rightAmount : ((rightPlaces : Int) - 1074 -
              ((min leftPlaces rightPlaces : Nat) - 1074)).toNat =
                rightPlaces - min leftPlaces rightPlaces := by
            omega
          have little : 2 ^ smaller ≤ 2 ^ (bound - 54) :=
            Nat.pow_le_pow_right (by decide) (by omega)
          have aligned := (aligned_le leftBounded rightBounded).trans
            (Nat.add_le_add_left little _)
          simp only [add, decreaseExponent, lower, leftAmount, rightAmount, Nat.shiftLeft_eq]
          apply normalize_within _ _ (by omega)
          apply le_trans _ aligned
          apply Nat.mul_le_mul_right
          apply (Int.natAbs_add_le _ _).trans
          rw [natAbs_apply, natAbs_apply]

/-- A difference is the sum with the opposite. -/
theorem sub_eq_add_neg (left right : UnpackedFloat) :
    sub .binary64 left right = add .binary64 left right.neg := by
  cases left with
  | notANumber => cases right <;> rfl
  | infinity => cases right <;> rfl
  | zero => cases right <;> rfl
  | finite leftSign leftMantissa leftExponent leftPositive =>
      cases right with
      | notANumber => rfl
      | infinity => rfl
      | zero => rfl
      | finite rightSign rightMantissa rightExponent rightPositive =>
          cases rightSign with
          | positive => rfl
          | negative => simp only [sub, add, UnpackedFloat.neg, Sign.apply, Int.sub_neg]

end AttentiveReasoner.Numeric.Double
