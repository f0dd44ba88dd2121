import AttentiveReasoner.Numeric.Power
import AttentiveReasoner.Proofs.Numeric.Enclosures

/-!
Contract: powers of a base between zero and ninety-nine hundredths.

Owns:
- that the logarithm of such a base is not positive;
- that the exponential of what is not positive is, once it is rounded, between zero and one;
- that the power of such a base is between zero and one, unless the exponent is negative or no
  number.

Does not own: how near the power is to the exact one.

The bounds do not come from the power that is approximated, but from the tables and the order of the
operations. They hold of every base and every exponent, of those too for which the last place is
wrong.
-/

namespace AttentiveReasoner.Numeric.Single

open Float.Model (Format)
open Binary
open Double (Lies Brackets)

/-! ## The logarithm -/

section Logarithm

variable {r base : Float} {low high : ℤ}

/-- The logarithm from the remainder and the logarithm of the point of the table. -/
def logarithmSum (r base : Float) : Float :=
  (logarithmCoefficient 5 * r + logarithmCoefficient 4) * (r * r * (r * r)) +
    ((logarithmCoefficient 3 * r + logarithmCoefficient 2) * (r * r) +
      (logarithmCoefficient 1 * r + base))

/-- A remainder between minus one and one thirty-second leaves the sum to its linear part. -/
theorem logarithmSum_lies (rLies : Lies (-2 ^ 40) (2 ^ 35) r)
    (linear : Lies (-2 ^ 49) 0 (logarithmCoefficient 1 * r + base)) :
    Lies (-2 ^ 50) 0 (logarithmSum r base) := by
  have fifth : Lies 0 (2 ^ 39) (logarithmCoefficient 5) :=
    Brackets.lies (by decide +kernel)
  have fourth : Lies (-2 ^ 40) (-2 ^ 38) (logarithmCoefficient 4) :=
    Brackets.lies (by decide +kernel)
  have third : Lies 0 (2 ^ 39) (logarithmCoefficient 3) :=
    Brackets.lies (by decide +kernel)
  have second : Lies (-2 ^ 40) (-2 ^ 39) (logarithmCoefficient 2) :=
    Brackets.lies (by decide +kernel)
  have square : Lies 0 (2 ^ 40) (r * r) :=
    (rLies.mono (by decide) (by decide)).square
  have high : Lies (-2 ^ 41) 0 (logarithmCoefficient 5 * r + logarithmCoefficient 4) := by
    have product : Lies (-2 ^ 39) (2 ^ 34) (logarithmCoefficient 5 * r) :=
      fifth.mul rLies (by decide) (by decide) (by decide)
    exact (product.add fourth (by decide) (by decide)).mono (by decide) (by decide)
  have middle : Lies (-2 ^ 41) 0 (logarithmCoefficient 3 * r + logarithmCoefficient 2) := by
    have product : Lies (-2 ^ 39) (2 ^ 34) (logarithmCoefficient 3 * r) :=
      third.mul rLies (by decide) (by decide) (by decide)
    exact (product.add second (by decide) (by decide)).mono (by decide) (by decide)
  have fourthPower : Lies 0 (2 ^ 40) (r * r * (r * r)) :=
    square.mul square (by decide) (by decide) (by decide)
  have upper : Lies (-2 ^ 41) 0
      ((logarithmCoefficient 5 * r + logarithmCoefficient 4) * (r * r * (r * r))) :=
    high.mul fourthPower (by decide) (by decide) (by decide)
  have lower : Lies (-2 ^ 41) 0
      ((logarithmCoefficient 3 * r + logarithmCoefficient 2) * (r * r)) :=
    middle.mul square (by decide) (by decide) (by decide)
  have rest := lower.add linear (by decide) (by decide)
  exact (upper.add rest (by decide) (by decide)).mono (by decide) (by decide)

/-- The linear part is not positive: either neither of its summands is, or the remainder is too
small for the logarithm of the point of the table. -/
theorem linear_lies (rLies : Lies (-2 ^ 40) high r) (baseLies : Lies (-2 ^ 48) low base)
    (either : high ≤ 0 ∧ low ≤ 0 ∨ high ≤ 2 ^ 35 ∧ low ≤ -105 * 2 ^ 29) :
    Lies (-2 ^ 49) 0 (logarithmCoefficient 1 * r + base) := by
  have first : Lies (2 ^ 40) (1478 * 2 ^ 30) (logarithmCoefficient 1) :=
    Brackets.lies (by decide +kernel)
  rcases either with ⟨highNonpos, lowNonpos⟩ | ⟨highSmall, lowSmall⟩
  · have product : Lies (-2 ^ 41) 0 (logarithmCoefficient 1 * r) :=
      first.mul (rLies.mono le_rfl highNonpos) (by decide) (by decide) (by decide)
    have baseNonpos : Lies (-2 ^ 48) 0 base := baseLies.mono le_rfl lowNonpos
    exact (product.add baseNonpos (by decide) (by decide)).mono (by decide) (by decide)
  · have product : Lies (-2 ^ 41) (1478 * 2 ^ 25) (logarithmCoefficient 1 * r) :=
      first.mul (rLies.mono le_rfl highSmall) (by decide) (by decide) (by decide)
    have baseSmall : Lies (-2 ^ 48) (-105 * 2 ^ 29) base := baseLies.mono le_rfl lowSmall
    exact (product.add baseSmall (by decide) (by decide)).mono (by decide) (by decide)

/-- The product of the numbers that two encodings stand for is at most a bound. -/
def Bounds (limit : ℕ) (bits : UInt64) (high : ℕ) : Prop :=
  limit < BinaryFormat.single.infinity ∧ bits.toNat < BinaryFormat.double.infinity ∧
    (BinaryFormat.single.value limit).numerator * (BinaryFormat.double.value bits.toNat).numerator *
        2 ^ 40 ≤
      high * ((BinaryFormat.single.value limit).denominator *
        (BinaryFormat.double.value bits.toNat).denominator) ∧ high ≤ 2 ^ 52

instance (limit : ℕ) (bits : UInt64) (high : ℕ) : Decidable (Bounds limit bits high) :=
  inferInstanceAs (Decidable (_ ∧ _ ∧ _ ∧ _))

/-- The remainder of a number that is not above a limit. -/
theorem remainder_lies {magnitude limit high : ℕ} {bits : UInt64} (bounds : Bounds limit bits high)
    (atMost : magnitude ≤ limit) :
    Lies (-2 ^ 40) (high - 2 ^ 40)
      (toDouble (ofMagnitude false magnitude) * Float.ofBits bits - 1) := by
  obtain ⟨limitFinite, bitsFinite, product, fits⟩ := bounds
  have scaleNonneg := valueOf_nonneg .binary64 bits.toNat
  have nonneg := valueOf_nonneg .binary32 magnitude
  have reduced := (means_ofMagnitude false (atMost.trans_lt limitFinite)).toDouble
  rw [signedValue, if_neg Bool.false_ne_true] at reduced
  have scale := Double.means_ofBits_upright bitsFinite
  have scaledMost : valueOf .binary32 limit * valueOf .binary64 bits.toNat * 2 ^ 40 ≤ high := by
    have positive : (0 : ℚ) < (BinaryFormat.single.value limit).denominator *
        (BinaryFormat.double.value bits.toNat).denominator := by
      exact_mod_cast Nat.mul_pos (Nat.two_pow_pos _) (Nat.two_pow_pos _)
    rw [valueOf_binary32, valueOf_binary64, div_mul_div_comm, div_mul_eq_mul_div,
      div_le_iff₀ positive]
    exact_mod_cast product
  have productLies : Lies 0 high (toDouble (ofMagnitude false magnitude) * Float.ofBits bits) := by
    apply Double.lies_of_gives (reduced.mul scale) _ _ (by decide) (by omega) (by omega)
    · rw [Int.cast_zero]
      positivity
    · apply le_trans _ scaledMost
      apply mul_le_mul_of_nonneg_right _ (by positivity)
      exact mul_le_mul_of_nonneg_right (valueOf_le_iff.mpr atMost) scaleNonneg
  have one : Lies (2 ^ 40) (2 ^ 40) 1 := by
    have isOne : (1 : Float) = Float.ofBits 0x3ff0000000000000 := by decide +kernel
    rw [isOne]
    exact Brackets.lies (by decide +kernel)
  exact (productLies.sub one (by decide) (by omega)).mono (by decide) le_rfl

/-- In every interval the remainder is at most one thirty-second. -/
theorem table_bounds : ∀ interval < 16,
    Bounds (0x3f330000 + (interval + 1) * 2 ^ 19) (logarithmTable.getD interval (0, 0)).1
      (33 * 2 ^ 35) := by
  decide +kernel

theorem table_brackets : ∀ interval < 16,
    Brackets (-2 ^ 40) (2 ^ 39) (logarithmTable.getD interval (0, 0)).2 := by
  decide +kernel

theorem table_brackets_low : ∀ interval < 9,
    Brackets (-2 ^ 40) (-105 * 2 ^ 29) (logarithmTable.getD interval (0, 0)).2 := by
  decide +kernel

/-- A number below the normal range is scaled into it, so far that the field stays in its range. -/
theorem extendedMagnitude_bounds {number : Float32} (upright : isNegative number = false)
    (most : magnitude number ≤ 0x3f7d70a4) :
    -(23 * 2 ^ 23) ≤ extendedMagnitude number ∧ extendedMagnitude number ≤ 0x3f7d70a4 := by
  have isPower : powerOfTwo 23 = 2 ^ 23 := rfl
  unfold extendedMagnitude
  rw [isPower]
  split
  · rename_i small
    have isInfinity : BinaryFormat.single.infinity = 0x7f800000 := by decide
    have means := (means_iff number _).mpr ⟨by omega, rfl⟩
    have scaleMeans := @means_ofNat (2 ^ 23) (by decide)
    have scaleUpright : isNegative (ofNat (2 ^ 23)) = false := by decide
    rw [upright, signedValue, if_neg Bool.false_ne_true] at means
    have nonneg := valueOf_nonneg .binary32 (magnitude number)
    have atMost : valueOf .binary32 (magnitude number) * ((2 ^ 23 : ℕ) : ℚ) ≤ 1 := by
      have least := @valueOf_add .binary32 (2 ^ 23) 0 (by decide) (.inl rfl)
      have below : valueOf .binary32 (magnitude number) ≤ valueOf .binary32 (2 ^ 23) :=
        valueOf_le_iff.mpr small.le
      have power : Format.binary32.minExponent + (0 : ℕ) = -149 := by decide
      rw [Nat.zero_mul, Nat.add_zero, power] at least
      rw [least] at below
      push_cast at below ⊢
      norm_num at below ⊢
      linarith
    have productNonneg : 0 ≤ valueOf .binary32 (magnitude number) * ((2 ^ 23 : ℕ) : ℚ) := by
      positivity
    have moderate : Moderate .binary32
        (valueOf .binary32 (magnitude number) * ((2 ^ 23 : ℕ) : ℚ)) := by
      refine ⟨0, by decide, by decide, ?_⟩
      rw [abs_of_nonneg productNonneg, zpow_zero]
      exact atMost
    obtain ⟨rounded, rounds, product⟩ := means.mul scaleMeans moderate
    have roundedMost := rounds.le 1 means_one.onGrid atMost
    obtain ⟨_, rfl⟩ := (means_iff _ _).mp product
    rw [isNegative_mul upright scaleUpright, signedValue, if_neg Bool.false_ne_true,
      ← valueOf_one, valueOf_le_iff] at roundedMost
    omega
  · omega

/-- The parts of a magnitude that is not above ninety-nine hundredths: the exponent, and the place
in an interval from about seven tenths on. -/
theorem logarithm_parts {magnitude : ℤ} (least : -(23 * 2 ^ 23) ≤ magnitude)
    (most : magnitude ≤ 0x3f7d70a4) :
    ∃ (exponent : ℤ) (place : ℕ), -150 ≤ exponent ∧ exponent ≤ 0 ∧ place < 2 ^ 23 ∧
      (magnitude - 0x3f330000).fdiv (2 ^ 23) = exponent ∧
      (magnitude - 0x3f330000).fmod (2 ^ 23) = place ∧
      magnitude - exponent * 2 ^ 23 = 0x3f330000 + place ∧
      (exponent = 0 → place ≤ 0x3f7d70a4 - 0x3f330000) := by
  rw [Int.fdiv_eq_ediv_of_nonneg _ (by decide), Int.fmod_eq_emod_of_nonneg _ (by decide)]
  refine ⟨(magnitude - 0x3f330000) / 2 ^ 23, ((magnitude - 0x3f330000) % 2 ^ 23).toNat, ?_⟩
  omega

/-- The logarithm of a positive number that is not above ninety-nine hundredths is not positive. -/
theorem binaryLogarithm_lies {number : Float32} (upright : isNegative number = false)
    (most : magnitude number ≤ 0x3f7d70a4) : Lies (-2 ^ 50) 0 (binaryLogarithm number) := by
  obtain ⟨least, extendedMost⟩ := extendedMagnitude_bounds upright most
  have isPower : (powerOfTwo 23 : ℤ) = 2 ^ 23 := rfl
  have isWidth : powerOfTwo 19 = 2 ^ 19 := rfl
  unfold binaryLogarithm
  generalize extendedMagnitude number = magnitude at least extendedMost ⊢
  obtain ⟨exponent, place, exponentLeast, exponentMost, placeLess, isExponent, isPlace, isRest,
    whole⟩ := logarithm_parts least extendedMost
  simp only [isPower, isWidth, isExponent, isPlace, isRest, Int.toNat_natCast]
  have interval : place / 2 ^ 19 < 16 := by omega
  have isReduced : ((0x3f330000 : ℤ) + place).toNat = 0x3f330000 + place := by omega
  rw [isReduced]
  have exponentLies := Double.lies_whole exponentLeast exponentMost
  have remainder := remainder_lies (table_bounds _ interval)
    (show 0x3f330000 + place ≤ 0x3f330000 + (place / 2 ^ 19 + 1) * 2 ^ 19 by omega)
  apply logarithmSum_lies (remainder.mono le_rfl (by decide))
  rcases exponentMost.lt_or_eq with negative | rfl
  · -- The exponent outweighs the logarithm of the point.
    have point := (table_brackets _ interval).lies
    have base := point.add exponentLies (by omega) (by omega)
    exact linear_lies remainder (base.mono (by omega) (show _ ≤ -2 ^ 39 by omega))
      (.inr ⟨by decide, by decide⟩)
  · have placeMost := whole rfl
    rcases Nat.lt_or_ge (place / 2 ^ 19) 9 with lower | last
    · have point := (table_brackets_low _ lower).lies
      have base := point.add exponentLies (by decide) (by decide)
      exact linear_lies remainder (base.mono (by decide) le_rfl) (.inr ⟨by decide, by decide⟩)
    · -- The last interval that is reached is the one around one.
      have isLast : place / 2 ^ 19 = 9 := by omega
      have lastBounds : Bounds 0x3f7d70a4 (logarithmTable.getD 9 (0, 0)).1 (2 ^ 40) := by
        decide +kernel
      have lastBrackets : Brackets 0 0 (logarithmTable.getD 9 (0, 0)).2 := by
        decide +kernel
      rw [isLast]
      have lastRemainder := remainder_lies lastBounds
        (show 0x3f330000 + place ≤ 0x3f7d70a4 by omega)
      have base := lastBrackets.lies.add exponentLies (by decide) (by decide)
      exact linear_lies lastRemainder (base.mono (by decide) le_rfl) (.inl ⟨by decide, by decide⟩)

end Logarithm

/-! ## The exponential -/

section Exponential

variable {number : Float} {exact : ℚ}

/-- The number that is added so that thirty-seconds become the last place. -/
def shift : Float :=
  Float.ofBits 0x42e8000000000000

theorem valueOf_shift {steps : ℕ} (few : steps ≤ 2 ^ 51) :
    valueOf .binary64 (0x42e8000000000000 - steps) = (3 * 2 ^ 51 - steps) / 32 := by
  have value := @valueOf_add .binary64 (3 * 2 ^ 51 - steps) 1069 (by simp; omega)
    (.inr (show 2 ^ 52 ≤ _ by omega))
  have power : Format.binary64.minExponent + (1069 : ℕ) = -5 := by decide
  have isMagnitude : 0x42e8000000000000 - steps = 3 * 2 ^ 51 - steps +
      1069 * 2 ^ Format.binary64.mantissaBitsWithoutImplicit := by
    show _ = 3 * 2 ^ 51 - steps + 1069 * 2 ^ 52
    omega
  rw [power] at value
  rw [isMagnitude, value, Nat.cast_sub (by omega)]
  push_cast
  norm_num
  ring

theorem means_shift : Double.Means shift (3 * 2 ^ 46) := by
  have means := @Double.means_ofMagnitude 0x42e8000000000000 false (by decide)
  have value := @valueOf_shift 0 (by decide)
  rw [Nat.sub_zero] at value
  rw [signedValue, if_neg Bool.false_ne_true, value] at means
  have same : ((3 * 2 ^ 51 - (0 : ℕ)) / 32 : ℚ) = 3 * 2 ^ 46 := by norm_num
  rw [same] at means
  exact means

theorem onGrid_shift {steps : ℕ} (few : steps ≤ 2 ^ 51) :
    OnGrid .binary64 ((3 * 2 ^ 51 - steps) / 32) := by
  rw [← valueOf_shift few]
  exact onGrid_valueOf _ _

/-- The sum with the shift counts the thirty-seconds by which a number is below zero, in the last
places of its bits. Less than one thirty-second is rounded away. -/
structure Shifts (number : Float) (exact : ℚ) (steps : ℕ) : Prop where
  few : steps ≤ 4800
  bits : (number + shift).toBits.toNat = 0x42e8000000000000 - steps
  means : Double.Means (number + shift) ((3 * 2 ^ 51 - steps) / 32)
  least : -(1 / 32) ≤ exact + steps / 32
  most : exact + steps / 32 ≤ 1 / 32
  nonpos : steps = 0 → exact + steps / 32 ≤ 0

/-- A rounded sum has no other multiple of a thirty-second between it and the exact one. -/
theorem shift_near {steps : ℕ} (few : steps ≤ 4800) (nonpos : exact ≤ 0)
    (rounds : Rounds .binary64 (exact + 3 * 2 ^ 46) ((3 * 2 ^ 51 - steps) / 32)) :
    -(1 / 32) ≤ exact + steps / 32 ∧ exact + steps / 32 ≤ 1 / 32 := by
  constructor
  · by_contra below
    have further := rounds.le _ (onGrid_shift (show steps + 1 ≤ 2 ^ 51 by omega)) (by
      push_cast
      linarith)
    push_cast at further
    linarith
  · rcases steps with _ | fewer
    · push_cast
      linarith
    · by_contra above
      have further := rounds.ge _ (onGrid_shift (show fewer ≤ 2 ^ 51 by omega)) (by
        push_cast at above
        linarith)
      push_cast at further
      linarith

theorem exists_shifts (means : Double.Means number exact) (least : -150 ≤ exact)
    (nonpos : exact ≤ 0) : ∃ steps, Shifts number exact steps := by
  obtain ⟨sum, rounds, sumMeans⟩ := means.add means_shift
    (@moderate_of_abs_le _ 50 (by decide) (abs_le.mpr ⟨by linarith, by linarith⟩))
  have sumMost := rounds.le _ (onGrid_shift (Nat.zero_le _)) (by push_cast; linarith)
  have sumLeast := rounds.ge _ (onGrid_shift (show 4800 ≤ 2 ^ 51 by decide))
    (by push_cast; linarith)
  obtain ⟨finite, rfl⟩ := (Double.means_iff _ _).mp sumMeans
  have upright := upright_of_pos (show 0 < signedValue _ _ _ by push_cast at sumLeast; linarith)
  have isBits : (number + shift).toBits.toNat = Double.magnitude (number + shift) := by
    have clear := of_decide_eq_false upright
    exact (Nat.mod_eq_of_lt (Nat.lt_of_not_le clear)).symm
  rw [upright, signedValue, if_neg Bool.false_ne_true] at sumMost sumLeast sumMeans rounds
  rw [← valueOf_shift (Nat.zero_le _), valueOf_le_iff] at sumMost
  rw [← valueOf_shift (by decide), valueOf_le_iff] at sumLeast
  obtain ⟨steps, few, isMagnitude⟩ : ∃ steps ≤ 4800,
      Double.magnitude (number + shift) = 0x42e8000000000000 - steps :=
    ⟨0x42e8000000000000 - Double.magnitude (number + shift), by omega, by omega⟩
  rw [isMagnitude] at isBits
  rw [isMagnitude, valueOf_shift (by omega)] at rounds sumMeans
  obtain ⟨nearLeast, nearMost⟩ := shift_near few nonpos rounds
  refine ⟨steps, few, isBits, sumMeans, nearLeast, nearMost, ?_⟩
  rintro rfl
  push_cast
  linarith

/-- What is left of a number without its thirty-seconds. -/
theorem Shifts.remainder {steps : ℕ} (shifts : Shifts number exact steps)
    (means : Double.Means number exact) :
    ∃ remainder, Double.Means (number - (number + shift - shift)) remainder ∧
      |remainder| ≤ 1 / 32 ∧ (steps = 0 → remainder ≤ 0) := by
  have few := shifts.few
  have fewCast : (steps : ℚ) ≤ 4800 := by exact_mod_cast few
  have stepsNonneg : (0 : ℚ) ≤ steps := Nat.cast_nonneg steps
  have small := abs_le.mpr ⟨shifts.least, shifts.most⟩
  have isDifference : ((3 * 2 ^ 51 - steps) / 32 - 3 * 2 ^ 46 : ℚ) = (-steps : ℤ) / 2 ^ 5 := by
    push_cast
    ring
  have isRemainder : exact - (-steps : ℤ) / 2 ^ 5 = exact + steps / 32 := by
    push_cast
    ring
  obtain ⟨difference, differenceRounds, differenceMeans⟩ := shifts.means.sub means_shift
    (@moderate_of_abs_le _ 8 (by decide) (abs_le.mpr ⟨by linarith, by linarith⟩))
  -- A number of thirty-seconds is on the grid, so that the difference is exact.
  rw [isDifference] at differenceRounds
  rw [differenceRounds.eq_of_onGrid (onGrid_div _ _ (by omega) (by decide))] at differenceMeans
  obtain ⟨remainder, rounds, remainderMeans⟩ := means.sub differenceMeans (by
    rw [isRemainder]
    exact @moderate_of_abs_le _ 0 (by decide) (small.trans (by norm_num)))
  rw [isRemainder] at rounds
  have limit : OnGrid .binary64 (1 / 32) := by
    have onGrid := onGrid_div 1 5 (by decide) (by decide)
    norm_num at onGrid ⊢
    exact onGrid
  refine ⟨remainder, remainderMeans, abs_le.mpr ⟨?_, ?_⟩, ?_⟩
  · exact rounds.ge _ limit.neg shifts.least
  · exact rounds.le _ limit shifts.most
  · exact fun none => rounds.le _ (onGrid_zero _) (shifts.nonpos none)

/-- The exponential of a remainder. -/
def exponentialSum (r : Float) : Float :=
  (Float.ofBits 0x3fac6af84b912394 * r + Float.ofBits 0x3fcebfce50fac4f3) * (r * r) +
    (Float.ofBits 0x3fe62e42ff0c52d6 * r + 1)

/-- Bounds of the three coefficients, in multiples of `2 ^ -40`. -/
structure Coefficients (third second first : ℚ) : Prop where
  third_nonneg : 0 ≤ third
  third_le : third * 2 ^ 40 ≤ 61026870800
  le_second : 2 ^ 37 ≤ second * 2 ^ 40
  second_le : second * 2 ^ 40 ≤ 264133976600
  le_first : 2 ^ 39 ≤ first * 2 ^ 40
  first_le : first * 2 ^ 40 ≤ 762123385000

theorem exists_coefficients :
    ∃ third second first, Coefficients third second first ∧
      Double.Means (Float.ofBits 0x3fac6af84b912394) third ∧
      Double.Means (Float.ofBits 0x3fcebfce50fac4f3) second ∧
      Double.Means (Float.ofBits 0x3fe62e42ff0c52d6) first := by
  obtain ⟨third, thirdMeans, thirdLeast, thirdMost⟩ :
      Lies 0 61026870800 (Float.ofBits 0x3fac6af84b912394) :=
    Brackets.lies (by decide +kernel)
  obtain ⟨second, secondMeans, secondLeast, secondMost⟩ :
      Lies (2 ^ 37) 264133976600 (Float.ofBits 0x3fcebfce50fac4f3) :=
    Brackets.lies (by decide +kernel)
  obtain ⟨first, firstMeans, firstLeast, firstMost⟩ :
      Lies (2 ^ 39) 762123385000 (Float.ofBits 0x3fe62e42ff0c52d6) :=
    Brackets.lies (by decide +kernel)
  push_cast at thirdLeast thirdMost secondLeast secondMost firstLeast firstMost
  exact ⟨third, second, first,
    ⟨by linarith, thirdMost, secondLeast, secondMost, firstLeast, firstMost⟩,
    thirdMeans, secondMeans, firstMeans⟩

section Remainder

variable {third second first remainder : ℚ}

theorem abs_mul_le {factor bound : ℚ} (nonneg : 0 ≤ factor) (most : factor ≤ bound)
    (small : |remainder| ≤ 1 / 32) : |factor * remainder| ≤ bound / 32 := by
  rw [abs_mul, abs_of_nonneg nonneg, div_eq_mul_one_div]
  exact mul_le_mul most small (abs_nonneg _) (nonneg.trans most)

theorem pow_le_of_small (small : |remainder| ≤ 1 / 32) (count : ℕ) :
    remainder ^ count ≤ (1 / 32) ^ count := by
  apply (le_abs_self _).trans
  rw [abs_pow]
  exact pow_le_pow_left₀ (abs_nonneg _) small count

/-- The sum is the polynomial of the coefficients, up to what is rounded. -/
theorem exponentialSum_close {r : Float} (means : Double.Means r remainder)
    (small : |remainder| ≤ 1 / 32) :
    ∃ third second first sum, Coefficients third second first ∧
      Double.Means (exponentialSum r) sum ∧ 0 ≤ sum ∧
        sum ≤ 1 + first * remainder + second * remainder ^ 2 + third * remainder ^ 3 +
          1 / 2 ^ 47 := by
  obtain ⟨third, second, first, coefficients, thirdMeans, secondMeans, firstMeans⟩ :=
    exists_coefficients
  obtain ⟨thirdNonneg, thirdMost, secondLeast, secondMost, firstLeast, firstMost⟩ := coefficients
  have cubic := abs_le.mp (abs_mul_le thirdNonneg (show third ≤ 1 / 16 by linarith) small)
  have slope := abs_le.mp (abs_mul_le (show 0 ≤ first by linarith)
    (show first ≤ 1 by linarith) small)
  have squareNonneg := sq_nonneg remainder
  have squareMost := pow_le_of_small small 2
  -- Each operation is rounded by less than `2 ^ -50`.
  obtain ⟨inner, innerMeans, innerLeast, innerMost, _⟩ :=
    Double.near_of_gives (thirdMeans.mul means) (abs_le.mpr ⟨by linarith, by linarith⟩)
  obtain ⟨high, highMeans, highLeast, highMost, highNonneg⟩ :=
    Double.near_of_gives (innerMeans.add secondMeans) (abs_le.mpr ⟨by linarith, by linarith⟩)
  obtain ⟨squared, squaredMeans, squaredLeast, squaredMost, squaredNonneg⟩ :=
    Double.near_of_gives (means.mul means) (by
      rw [← sq, abs_of_nonneg squareNonneg]
      linarith)
  rw [← sq] at squaredLeast squaredMost squaredNonneg
  replace highNonneg := highNonneg (by linarith)
  replace squaredNonneg := squaredNonneg squareNonneg
  have product : high * squared ≤
      second * remainder ^ 2 + third * remainder ^ 3 + 1 / 2 ^ 49 := by
    calc
      high * squared ≤ high * (remainder ^ 2 + 1 / 2 ^ 50) :=
        mul_le_mul_of_nonneg_left squaredMost highNonneg
      _ = high * remainder ^ 2 + high * (1 / 2 ^ 50) := mul_add _ _ _
      _ ≤ (third * remainder + second + 1 / 2 ^ 49) * remainder ^ 2 + 1 * (1 / 2 ^ 50) := by
        apply add_le_add
        · exact mul_le_mul_of_nonneg_right (by linarith) squareNonneg
        · exact mul_le_mul_of_nonneg_right (by linarith) (by positivity)
      _ = second * remainder ^ 2 + third * remainder ^ 3 +
          (1 / 2 ^ 49 * remainder ^ 2 + 1 / 2 ^ 50) := by ring
      _ ≤ second * remainder ^ 2 + third * remainder ^ 3 + 1 / 2 ^ 49 := by linarith
  have productNonneg := mul_nonneg highNonneg squaredNonneg
  have productSmall : high * squared ≤ 1 * 1 :=
    mul_le_mul (by linarith) (by linarith) squaredNonneg (by decide)
  obtain ⟨upper, upperMeans, _, upperMost, upperNonneg⟩ :=
    Double.near_of_gives (highMeans.mul squaredMeans) (by
      rw [abs_of_nonneg productNonneg]
      linarith)
  obtain ⟨linear, linearMeans, linearLeast, linearMost, _⟩ :=
    Double.near_of_gives (firstMeans.mul means) (abs_le.mpr ⟨by linarith, by linarith⟩)
  obtain ⟨low, lowMeans, lowLeast, lowMost, lowNonneg⟩ :=
    Double.near_of_gives (linearMeans.add Double.means_one) (abs_le.mpr ⟨by linarith, by linarith⟩)
  replace upperNonneg := upperNonneg productNonneg
  replace lowNonneg := lowNonneg (by linarith)
  obtain ⟨sum, sumMeans, _, sumMost, sumNonneg⟩ :=
    Double.near_of_gives (upperMeans.add lowMeans) (abs_le.mpr ⟨by linarith, by linarith⟩)
  exact ⟨third, second, first, sum,
    ⟨thirdNonneg, thirdMost, secondLeast, secondMost, firstLeast, firstMost⟩, sumMeans,
    sumNonneg (by linarith), by linarith⟩

/-- Without a positive remainder the linear term outweighs the square, and the cube has its sign. -/
theorem Coefficients.polynomial_nonpos (coefficients : Coefficients third second first)
    (small : |remainder| ≤ 1 / 32) (nonpos : remainder ≤ 0) :
    first * remainder + second * remainder ^ 2 + third * remainder ^ 3 ≤ 0 := by
  have secondLeast := coefficients.le_second
  have secondMost := coefficients.second_le
  have firstLeast := coefficients.le_first
  have linear : first * remainder ≤ 1 / 2 * remainder :=
    mul_le_mul_of_nonpos_right (by linarith) nonpos
  have steep := abs_mul_le (show 0 ≤ second by linarith) (show second ≤ 1 by linarith) small
  have square : second * remainder ^ 2 ≤ 1 / 2 * -remainder := by
    calc
      second * remainder ^ 2 = -(second * remainder) * -remainder := by ring
      _ ≤ 1 / 2 * -remainder := by
        apply mul_le_mul_of_nonneg_right _ (neg_nonneg.mpr nonpos)
        linarith [(abs_le.mp steep).1]
  have cube : third * remainder ^ 3 ≤ 0 :=
    mul_nonpos_of_nonneg_of_nonpos coefficients.third_nonneg (Odd.pow_nonpos (by decide) nonpos)
  linarith

/-- The polynomial is less than it is at the end of the interval, which is less than the
thirty-second root of two. -/
theorem Coefficients.polynomial_le (coefficients : Coefficients third second first)
    (small : |remainder| ≤ 1 / 32) :
    (1 + first * remainder + second * remainder ^ 2 + third * remainder ^ 3) * 2 ^ 40 ≤
      1123587789500 := by
  obtain ⟨thirdNonneg, thirdMost, secondLeast, secondMost, firstLeast, firstMost⟩ := coefficients
  have linear : first * remainder ≤ first * (1 / 32) :=
    mul_le_mul_of_nonneg_left (abs_le.mp small).2 (by linarith)
  have square : second * remainder ^ 2 ≤ second * (1 / 32) ^ 2 :=
    mul_le_mul_of_nonneg_left (pow_le_of_small small 2) (by linarith)
  have cube : third * remainder ^ 3 ≤ third * (1 / 32) ^ 3 :=
    mul_le_mul_of_nonneg_left (pow_le_of_small small 3) thirdNonneg
  linarith

end Remainder

theorem table_sums : ∀ index < 32,
    0x3fee000000000000 ≤ (exponentialTable.getD index 0).toNat ∧
      (exponentialTable.getD index 0).toNat + index * 2 ^ 47 ≤ 0x3fff50765b6e4540 := by
  decide +kernel

/-- The bits of the scale. -/
theorem scale_bits {bits : UInt64} {steps : ℕ} (few : steps ≤ 4800)
    (isBits : bits.toNat = 0x42e8000000000000 - steps) :
    (exponentialTable.getD (bits.toNat % 32) 0 + bits <<< 47).toNat ≤
      if steps = 0 then 0x3ff0000000000000 else 0x3fef50765b6e4540 := by
  have index : bits.toNat % 32 < 32 := Nat.mod_lt _ (by decide)
  obtain ⟨entryLeast, entryMost⟩ := table_sums _ index
  rw [UInt64.toNat_add, UInt64.toNat_shiftLeft, Nat.shiftLeft_eq]
  split
  · rename_i none
    rw [none] at isBits
    simp only [isBits]
    decide +kernel
  · have shifted : (47 : UInt64).toNat % 64 = 47 := by decide
    rw [isBits] at entryMost entryLeast ⊢
    rw [shifted]
    omega

theorem binaryExponential_eq (number : Float) :
    binaryExponential number = exponentialSum (number - (number + shift - shift)) *
      Float.ofBits (exponentialTable.getD ((number + shift).toBits.toNat % 32) 0 +
        (number + shift).toBits <<< 47) :=
  rfl

/-- The exponential of what is not positive is rounded into the unit interval. -/
theorem toSingle_binaryExponential (means : Double.Means number exact) (least : -150 ≤ exact)
    (nonpos : exact ≤ 0) : Between zero one (Double.toSingle (binaryExponential number)) := by
  obtain ⟨steps, shifts⟩ := exists_shifts means least nonpos
  obtain ⟨remainder, remainderMeans, small, remainderNonpos⟩ := shifts.remainder means
  obtain ⟨third, second, first, sum, coefficients, sumMeans, sumNonneg, sumMost⟩ :=
    exponentialSum_close remainderMeans small
  have scaleMost := scale_bits shifts.few shifts.bits
  rw [binaryExponential_eq]
  generalize exponentialTable.getD ((number + shift).toBits.toNat % 32) 0 +
    (number + shift).toBits <<< 47 = bits at scaleMost ⊢
  have infinity : BinaryFormat.double.infinity = 0x7ff0000000000000 := by decide
  have scaleMeans := @Double.means_ofBits_upright bits (by split at scaleMost <;> omega)
  have scaleNonneg := valueOf_nonneg .binary64 bits.toNat
  have productNonneg := mul_nonneg sumNonneg scaleNonneg
  have productMost : sum * valueOf .binary64 bits.toNat ≤ 1 + 1 / 2 ^ 47 := by
    rcases Nat.eq_zero_or_pos steps with none | some
    · rw [if_pos none] at scaleMost
      have unit : Brackets 0 (2 ^ 40) 0x3ff0000000000000 := by decide +kernel
      have scaleUnit := unit.valueOf_le (by decide) scaleMost
      push_cast at scaleUnit
      have polynomial := coefficients.polynomial_nonpos small (remainderNonpos none)
      have product := mul_le_mul (show sum ≤ 1 + 1 / 2 ^ 47 by linarith)
        (show valueOf .binary64 bits.toNat ≤ 1 by linarith) scaleNonneg (by positivity)
      linarith
    · rw [if_neg some.ne'] at scaleMost
      have root : Brackets 0 1075951360883 0x3fef50765b6e4540 := by decide +kernel
      have scaleRoot := root.valueOf_le (by decide) scaleMost
      push_cast at scaleRoot
      have polynomial := coefficients.polynomial_le small
      have product := mul_le_mul (show sum * 2 ^ 40 ≤ 1123587789600 by linarith) scaleRoot
        (by positivity) (by decide)
      linarith
  obtain ⟨product, productMeans, _, productBelow, nonneg⟩ :=
    Double.near_of_gives (sumMeans.mul scaleMeans) (by
      rw [abs_of_nonneg productNonneg]
      linarith)
  exact productMeans.toSingle_between (nonneg productNonneg) (by linarith)

end Exponential

/-! ## The power -/

section Power

variable {base exponent : Float32}

theorem between_zero : Between zero one zero :=
  ⟨by decide, zero_atMost_one⟩

theorem between_one : Between zero one one :=
  ⟨zero_atMost_one, by decide⟩

/-- Where neither operand is exceptional, the product with the logarithm is not positive, and so
below the threshold of infinity. -/
theorem absolutePower_between (baseUpright : isNegative base = false)
    (most : magnitude base ≤ 0x3f7d70a4)
    (finite : magnitude exponent < BinaryFormat.single.infinity)
    (upright : isNegative exponent = false) : Between zero one (absolutePower base exponent) := by
  have exponentMeans := ((means_iff exponent _).mpr ⟨finite, rfl⟩).toDouble
  rw [upright, signedValue, if_neg Bool.false_ne_true] at exponentMeans
  have exponentNonneg := valueOf_nonneg .binary32 (magnitude exponent)
  have exponentMost : valueOf .binary32 (magnitude exponent) ≤ 2 ^ 128 := by
    exact_mod_cast valueOf_le_limit finite
  obtain ⟨logarithm, logarithmMeans, logarithmLeast, logarithmMost⟩ :=
    binaryLogarithm_lies baseUpright most
  push_cast at logarithmLeast logarithmMost
  have logarithmNonpos : logarithm ≤ 0 := by linarith
  have productNonpos := mul_nonpos_of_nonneg_of_nonpos exponentNonneg logarithmNonpos
  have moderate : Moderate .binary64 (valueOf .binary32 (magnitude exponent) * logarithm) := by
    apply @moderate_of_abs_le _ 138 (by decide)
    rw [abs_mul, abs_of_nonneg exponentNonneg, abs_of_nonpos logarithmNonpos]
    apply (mul_le_mul exponentMost (show -logarithm ≤ 2 ^ 10 by linarith) (by linarith)
      (by positivity)).trans_eq
    norm_num
  obtain ⟨product, rounds, productMeans⟩ := exponentMeans.mul logarithmMeans moderate
  have nonpos := rounds.le 0 (onGrid_zero _) productNonpos
  unfold absolutePower
  dsimp only
  split
  · rename_i above
    obtain ⟨threshold, thresholdMeans, thresholdLeast, _⟩ :
        Lies 0 (2 ^ 48) (Float.ofBits 0x405fffffffd1d571) :=
      Brackets.lies (by decide +kernel)
    push_cast at thresholdLeast
    rw [thresholdMeans.lt_iff productMeans] at above
    linarith
  · split
    · exact between_zero
    · rename_i notBelow
      have limitMeans := @Double.means_ofRatio 150 true (by decide)
      rw [if_pos rfl] at limitMeans
      rw [productMeans.le_iff limitMeans, not_le] at notBelow
      push_cast at notBelow
      exact toSingle_binaryExponential productMeans notBelow.le nonpos

theorem between_of_means_zero {number : Float32} (means : Means number 0) :
    Between zero one number :=
  ⟨(means_zero.atMost_iff means).mpr le_rfl, (means.atMost_iff means_one).mpr zero_le_one⟩

theorem means_zero_of_magnitude {number : Float32} (none : magnitude number = 0) :
    Means number 0 := by
  refine (means_iff number 0).mpr ⟨by rw [none]; decide, ?_⟩
  rw [none, signedValue, valueOf_zero, neg_zero, ite_self]

theorem Means.square_zero {number : Float32} (means : Means number 0) :
    Means (number * number) 0 := by
  obtain ⟨rounded, rounds, squareMeans⟩ := means.mul means ⟨0, by decide, by decide, by norm_num⟩
  rw [mul_zero] at rounds
  rwa [rounds.eq_of_onGrid (onGrid_zero _)] at squareMeans

/-- The power of a base of up to ninety-nine hundredths is of the unit interval for every number as
exponent that has no sign. -/
theorem power_between (between : Between zero (hundredths 99) base)
    (isNumber : isNaN exponent = false) (upright : isNegative exponent = false) :
    Between zero one (power base exponent) := by
  have isLimit : magnitude (hundredths 99) = 0x3f7d70a4 := by decide
  have isOne : magnitude one = 0x3f800000 := by decide
  have most := between.magnitude_le (by decide)
  rw [isLimit] at most
  unfold power
  rw [between.isNumber, isNumber, upright, isOne]
  split
  · exact between_one
  · split
    · exact between_one
    · rw [if_neg (by decide)]
      split
      · -- An infinite exponent takes a base below one to zero.
        rw [if_neg (by omega), if_pos (by simp; omega)]
        exact between_zero
      · rename_i notInfinite
        have finite : magnitude exponent < BinaryFormat.single.infinity := by
          have atMost := Nat.le_of_not_lt (of_decide_eq_false isNumber)
          have other : magnitude exponent ≠ BinaryFormat.single.infinity := by
            simpa [isInfinite] using notInfinite
          omega
        have baseFinite : isInfinite base = false := by
          have isInfinity : BinaryFormat.single.infinity = 0x7f800000 := by decide
          unfold isInfinite
          rw [isInfinity]
          exact decide_eq_false (by omega)
        rw [baseFinite, Bool.or_false]
        split
        · rename_i none
          have baseMeans := means_zero_of_magnitude (of_decide_eq_true none)
          have square := baseMeans.square_zero
          rw [if_neg Bool.false_ne_true]
          split
          · have opposite := square.neg
            rw [neg_zero] at opposite
            exact between_of_means_zero opposite
          · exact between_of_means_zero square
        · rename_i some
          have baseUpright : isNegative base = false := by
            have nonneg := between.signedMagnitude_nonneg
            rw [Bool.eq_false_iff]
            intro negative
            unfold signedMagnitude at nonneg
            rw [if_pos negative] at nonneg
            simp at some
            omega
          rw [baseUpright, if_neg Bool.false_ne_true]
          exact absolutePower_between baseUpright most finite upright

/-- What is no number as exponent makes one or no number. -/
theorem power_of_isNaN (isNothing : isNaN exponent = true) :
    power base exponent = one ∨ power base exponent = notANumber := by
  unfold power
  split
  · exact .inl rfl
  · split
    · exact .inl rfl
    · rw [isNothing, Bool.or_true, if_pos rfl]
      exact .inr rfl

end Power

end AttentiveReasoner.Numeric.Single
