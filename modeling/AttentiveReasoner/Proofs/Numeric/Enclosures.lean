import AttentiveReasoner.Proofs.Numeric.Values

/-!
Contract: bounds of what 64-bit arithmetic gives.

Owns:
- how far a rounded result is from the exact one;
- that a ratio near one is rounded to one;
- enclosures of numbers, and those of sums, differences and products;
- enclosures of numbers that are given by their bits.

Does not own: the functions that are evaluated in that arithmetic.

The bounds of an enclosure are multiples of `2 ^ -40`. There is a number for every such bound up to
`2 ^ 13`, so that rounding does not lead out of an enclosure.
-/

namespace AttentiveReasoner.Numeric

open Float.Model (Format)
open Binary

/-! ## Distances -/

namespace Binary

variable {exact rounded : ℚ} {numerator denominator : ℕ}

theorem onGrid_div (count : ℤ) (places : ℕ) (digits : count.natAbs < 2 ^ 53)
    (few : places ≤ 1000) : OnGrid .binary64 (count / 2 ^ places) := by
  have least : Format.binary64.minExponent = -1074 := by decide
  refine ⟨count, -places, digits, by omega, ?_⟩
  rw [zpow_neg, zpow_natCast, div_eq_mul_inv]

theorem moderate_of_abs_le {places : ℕ} (few : places ≤ 900) (small : |exact| ≤ 2 ^ places) :
    Moderate .binary64 exact := by
  have least : Format.binary64.minExponent = -1074 := by decide
  have most : maxExponent .binary64 = 971 := by decide
  refine ⟨places, by omega, by omega, ?_⟩
  rwa [zpow_natCast]

/-- A small result is rounded up by less than `2 ^ -50`. -/
theorem Rounds.le_add (rounds : Rounds .binary64 exact rounded) (small : |exact| ≤ 4) :
    rounded ≤ exact + 1 / 2 ^ 50 := by
  obtain ⟨least, most⟩ := abs_le.mp small
  have scale : (0 : ℚ) < 2 ^ 50 := by positivity
  have above := Int.le_ceil (exact * 2 ^ 50)
  have aboveLess := Int.ceil_lt_add_one (exact * 2 ^ 50)
  have ceilingMost : ⌈exact * 2 ^ 50⌉ ≤ 2 ^ 52 := by
    apply Int.ceil_le.mpr
    push_cast
    linarith
  have ceilingLeast : -(2 ^ 52) ≤ ⌈exact * 2 ^ 50⌉ := by
    have bound : (((-(2 ^ 52) : ℤ)) : ℚ) ≤ ⌈exact * 2 ^ 50⌉ := by
      push_cast
      linarith
    exact_mod_cast bound
  calc rounded ≤ ⌈exact * 2 ^ 50⌉ / 2 ^ 50 :=
        rounds.le _ (onGrid_div _ 50 (by omega) (by decide)) ((le_div_iff₀ scale).mpr above)
    _ ≤ (exact * 2 ^ 50 + 1) / 2 ^ 50 := by gcongr
    _ = exact + 1 / 2 ^ 50 := by rw [add_div, mul_div_cancel_right₀ _ scale.ne']

theorem Rounds.close (rounds : Rounds .binary64 exact rounded) (small : |exact| ≤ 4) :
    |rounded - exact| ≤ 1 / 2 ^ 50 := by
  have upper := rounds.le_add small
  have lower := rounds.neg.le_add ((abs_neg exact).trans_le small)
  rw [abs_le]
  constructor <;> linarith

theorem roundHalfEven_le_of_lt_half {bound : ℕ}
    (less : 2 * numerator < (2 * bound + 1) * denominator) :
    roundHalfEven numerator denominator ≤ bound := by
  have split := Nat.div_add_mod numerator denominator
  have positive : 0 < denominator := by
    rcases Nat.eq_zero_or_pos denominator with rfl | positive
    · omega
    · exact positive
  have least : numerator / denominator ≤ bound := by
    apply Nat.le_of_lt_succ
    rw [Nat.div_lt_iff_lt_mul positive, Nat.succ_eq_add_one]
    have twice : (2 * bound + 1) * denominator ≤ 2 * ((bound + 1) * denominator) := by
      rw [← Nat.mul_assoc]
      exact Nat.mul_le_mul_right _ (by omega)
    omega
  rcases least.lt_or_eq with fewer | isBound
  · unfold roundHalfEven
    dsimp only
    split
    · omega
    · split
      · omega
      · split <;> omega
  · -- At the bound less than half of the denominator is left over.
    rw [isBound] at split
    have whole : (2 * bound + 1) * denominator = 2 * (denominator * bound) + denominator := by
      ring
    unfold roundHalfEven
    dsimp only
    rw [if_pos (by omega), isBound]

theorem valueOf_one : valueOf .binary32 (127 * 2 ^ 23) = 1 := by
  have value := @valueOf_add .binary32 (2 ^ 23) 126 (by decide) (.inr le_rfl)
  have power : Format.binary32.minExponent + (126 : ℕ) = -23 := by decide
  rw [power] at value
  have isMagnitude : 127 * 2 ^ 23 =
      2 ^ 23 + 126 * 2 ^ Format.binary32.mantissaBitsWithoutImplicit := by
    decide
  rw [isMagnitude, value]
  norm_num

/-- The order of a ratio between one and two. -/
theorem binaryOrder_eq_zero (nonzero : numerator ≠ 0) (positive : 0 < denominator)
    (least : 1 ≤ (numerator : ℚ) / denominator) (most : (numerator : ℚ) / denominator < 2) :
    binaryOrder numerator denominator = 0 := by
  obtain ⟨orderLe, orderLt⟩ := binaryOrder_spec (Nat.pos_of_ne_zero nonzero) positive
  have below : (2 : ℚ) ^ binaryOrder numerator denominator < 2 ^ (1 : ℤ) := by
    rw [zpow_one]
    exact orderLe.trans_lt most
  have above : (2 : ℚ) ^ (0 : ℤ) < 2 ^ (binaryOrder numerator denominator + 1) := by
    rw [zpow_zero]
    exact least.trans_lt orderLt
  rw [zpow_lt_zpow_iff_right₀ one_lt_two] at below above
  omega

/-- A ratio is rounded to one if it is greater by less than half of the last place. -/
theorem encode_le_one (positive : 0 < denominator)
    (near : (numerator : ℚ) / denominator ≤ 1 + 1 / 2 ^ 25) :
    valueOf .binary32 (BinaryFormat.single.encode numerator denominator) ≤ 1 := by
  have bottom : (0 : ℚ) < denominator := by exact_mod_cast positive
  rcases le_or_gt ((numerator : ℚ) / denominator) 1 with atMost | above
  · have moderate : Moderate .binary32 ((numerator : ℚ) / denominator) := by
      refine ⟨0, by decide, by decide, ?_⟩
      rw [abs_of_nonneg (by positivity), zpow_zero]
      exact atMost
    have onGrid : OnGrid .binary32 1 := by
      exact_mod_cast @onGrid_whole .binary32 1 (by decide)
    exact (encode_rounds positive moderate).1.le 1 onGrid atMost
  · have nonzero : numerator ≠ 0 := by
      rintro rfl
      rw [Nat.cast_zero, zero_div] at above
      exact absurd above (by norm_num)
    have place : ratioPlace .binary32 numerator denominator = -23 := by
      rw [ratioPlace, binaryOrder_eq_zero nonzero positive above.le (by linarith)]
      decide
    have mantissa : ratioMantissa .binary32 numerator denominator ≤ 2 ^ 23 := by
      unfold ratioMantissa
      rw [place]
      apply roundHalfEven_le_of_lt_half
      rw [div_le_iff₀ bottom] at near
      have scaled : (2 : ℚ) * (numerator * 2 ^ 23) < (2 * 2 ^ 23 + 1) * denominator := by
        linarith
      have whole : 2 * (numerator * 2 ^ 23) < (2 * 2 ^ 23 + 1) * denominator := by
        exact_mod_cast scaled
      simpa using whole
    rw [← valueOf_one, valueOf_le_iff]
    have isEncoding := @encode_eq .binary32 numerator denominator nonzero
    rw [place, encoding_binary32] at isEncoding
    rw [isEncoding]
    apply (Nat.min_le_left _ _).trans
    have steps : (-23 - Format.binary32.minExponent).toNat = 126 := by decide
    rw [steps]
    show _ + 126 * 2 ^ 23 ≤ 127 * 2 ^ 23
    omega

end Binary

/-- A number that is not above one by more than the rounding is rounded into the unit interval. -/
theorem Double.Means.toSingle_between {number : Float} {exact : ℚ}
    (means : Double.Means number exact) (nonneg : 0 ≤ exact) (near : exact ≤ 1 + 1 / 2 ^ 25) :
    Single.Between Single.zero Single.one (Double.toSingle number) := by
  have moderate : Moderate .binary32 exact := by
    refine ⟨1, by decide, by decide, ?_⟩
    rw [abs_of_nonneg nonneg]
    apply near.trans
    norm_num
  obtain ⟨rounded, rounds, singleMeans⟩ := means.toSingle moderate
  have least := rounds.ge 0 (onGrid_zero _) nonneg
  have most : rounded ≤ 1 := by
    rcases le_or_gt exact 1 with atMost | above
    · exact rounds.le 1 Single.means_one.onGrid atMost
    · -- Above one the number has no sign, and its encoding is that of one.
      obtain ⟨finite, rfl⟩ := (Double.means_iff _ _).mp means
      have upright := upright_of_pos (zero_lt_one.trans above)
      rw [upright, signedValue, if_neg Bool.false_ne_true, valueOf_binary64] at near
      have encodedMost := encode_le_one (Nat.two_pow_pos _) near
      rw [Double.toSingle_eq finite, upright] at singleMeans
      have encodedFinite : BinaryFormat.single.encode
          (BinaryFormat.double.value (Double.magnitude number)).numerator
          (BinaryFormat.double.value (Double.magnitude number)).denominator <
            BinaryFormat.single.infinity := by
        rw [← valueOf_one, valueOf_le_iff] at encodedMost
        exact encodedMost.trans_lt (by decide)
      have encodedMeans := Single.means_ofMagnitude false encodedFinite
      rw [signedValue, if_neg Bool.false_ne_true] at encodedMeans
      rwa [Denotes.unique singleMeans encodedMeans]
  exact ⟨(Single.means_zero.atMost_iff singleMeans).mpr least,
    (singleMeans.atMost_iff Single.means_one).mpr most⟩

/-! ## Enclosures -/

namespace Double

variable {first second : Float} {low high otherLow otherHigh : ℤ}

/-- A small result is near the exact one, and has no other sign. -/
theorem near_of_gives {exact : ℚ} (gives : Moderate .binary64 exact → Gives first exact)
    (small : |exact| ≤ 4) :
    ∃ rounded, Means first rounded ∧ exact - 1 / 2 ^ 50 ≤ rounded ∧
      rounded ≤ exact + 1 / 2 ^ 50 ∧ (0 ≤ exact → 0 ≤ rounded) := by
  have moderate : Moderate .binary64 exact :=
    @moderate_of_abs_le exact 2 (by decide) (small.trans_eq (by norm_num))
  obtain ⟨rounded, rounds, means⟩ := gives moderate
  obtain ⟨least, most⟩ := abs_le.mp (rounds.close small)
  exact ⟨rounded, means, by linarith, by linarith, rounds.ge 0 (onGrid_zero _)⟩

theorem means_one : Means 1 1 := by
  have isOne : (1 : Float) = ofRatio false 1 1 := by decide +kernel
  rw [isOne]
  exact_mod_cast @means_ofRatio 1 false (by decide)

/-- A number between two multiples of `2 ^ -40`. -/
def Lies (low high : ℤ) (number : Float) : Prop :=
  ∃ exact, Means number exact ∧ low ≤ exact * 2 ^ 40 ∧ exact * 2 ^ 40 ≤ high

theorem Lies.mono (lies : Lies low high first) (lower : otherLow ≤ low)
    (higher : high ≤ otherHigh) : Lies otherLow otherHigh first := by
  obtain ⟨exact, means, above, below⟩ := lies
  have lowerCast : (otherLow : ℚ) ≤ low := by exact_mod_cast lower
  have higherCast : (high : ℚ) ≤ otherHigh := by exact_mod_cast higher
  exact ⟨exact, means, lowerCast.trans above, below.trans higherCast⟩

/-- A result keeps to the bounds of the exact one. -/
theorem lies_of_gives {exact : ℚ} (gives : Moderate .binary64 exact → Gives first exact)
    (above : low ≤ exact * 2 ^ 40) (below : exact * 2 ^ 40 ≤ high)
    (lowFits : -(2 ^ 52) ≤ low) (highFits : high ≤ 2 ^ 52) (ordered : low ≤ high) :
    Lies low high first := by
  have unit : (0 : ℚ) < 2 ^ 40 := by positivity
  have lowCast : (((-(2 ^ 52) : ℤ)) : ℚ) ≤ low := by exact_mod_cast lowFits
  have highCast : (high : ℚ) ≤ ((2 ^ 52 : ℤ) : ℚ) := by exact_mod_cast highFits
  push_cast at lowCast highCast
  have moderate : Moderate .binary64 exact :=
    @moderate_of_abs_le exact 12 (by decide) (abs_le.mpr ⟨by linarith, by linarith⟩)
  obtain ⟨rounded, rounds, means⟩ := gives moderate
  refine ⟨rounded, means, ?_, ?_⟩
  · rw [← div_le_iff₀ unit] at above ⊢
    exact rounds.ge _ (onGrid_div low 40 (by omega) (by decide)) above
  · rw [← le_div_iff₀ unit] at below ⊢
    exact rounds.le _ (onGrid_div high 40 (by omega) (by decide)) below

theorem Lies.add (firstLies : Lies low high first) (secondLies : Lies otherLow otherHigh second)
    (lowFits : -(2 ^ 52) ≤ low + otherLow) (highFits : high + otherHigh ≤ 2 ^ 52) :
    Lies (low + otherLow) (high + otherHigh) (first + second) := by
  obtain ⟨left, leftMeans, leftAbove, leftBelow⟩ := firstLies
  obtain ⟨right, rightMeans, rightAbove, rightBelow⟩ := secondLies
  have firstOrdered : low ≤ high := by exact_mod_cast leftAbove.trans leftBelow
  have secondOrdered : otherLow ≤ otherHigh := by exact_mod_cast rightAbove.trans rightBelow
  apply lies_of_gives (leftMeans.add rightMeans) _ _ lowFits highFits (by omega)
  · push_cast
    linarith
  · push_cast
    linarith

theorem Lies.sub (firstLies : Lies low high first) (secondLies : Lies otherLow otherHigh second)
    (lowFits : -(2 ^ 52) ≤ low - otherHigh) (highFits : high - otherLow ≤ 2 ^ 52) :
    Lies (low - otherHigh) (high - otherLow) (first - second) := by
  obtain ⟨left, leftMeans, leftAbove, leftBelow⟩ := firstLies
  obtain ⟨right, rightMeans, rightAbove, rightBelow⟩ := secondLies
  have firstOrdered : low ≤ high := by exact_mod_cast leftAbove.trans leftBelow
  have secondOrdered : otherLow ≤ otherHigh := by exact_mod_cast rightAbove.trans rightBelow
  apply lies_of_gives (leftMeans.sub rightMeans) _ _ lowFits highFits (by omega)
  · push_cast
    linarith
  · push_cast
    linarith

/-- A product of two numbers of intervals is not above the largest product of their ends. -/
theorem mul_le_of_corners {left right leftLow leftHigh rightLow rightHigh bound : ℚ}
    (leftAbove : leftLow ≤ left) (leftBelow : left ≤ leftHigh)
    (rightAbove : rightLow ≤ right) (rightBelow : right ≤ rightHigh)
    (corners : leftLow * rightLow ≤ bound ∧ leftLow * rightHigh ≤ bound ∧
      leftHigh * rightLow ≤ bound ∧ leftHigh * rightHigh ≤ bound) : left * right ≤ bound := by
  obtain ⟨lowLow, lowHigh, highLow, highHigh⟩ := corners
  rcases le_total 0 right with rightNonneg | rightNonpos
  · apply (mul_le_mul_of_nonneg_right leftBelow rightNonneg).trans
    rcases le_total 0 leftHigh with nonneg | nonpos
    · exact (mul_le_mul_of_nonneg_left rightBelow nonneg).trans highHigh
    · exact (mul_le_mul_of_nonpos_left rightAbove nonpos).trans highLow
  · apply (mul_le_mul_of_nonpos_right leftAbove rightNonpos).trans
    rcases le_total 0 leftLow with nonneg | nonpos
    · exact (mul_le_mul_of_nonneg_left rightBelow nonneg).trans lowHigh
    · exact (mul_le_mul_of_nonpos_left rightAbove nonpos).trans lowLow

theorem Lies.mul {lower higher : ℤ} (firstLies : Lies low high first)
    (secondLies : Lies otherLow otherHigh second)
    (corners : ∀ corner ∈ [low * otherLow, low * otherHigh, high * otherLow, high * otherHigh],
      lower * 2 ^ 40 ≤ corner ∧ corner ≤ higher * 2 ^ 40)
    (lowFits : -(2 ^ 52) ≤ lower) (highFits : higher ≤ 2 ^ 52) :
    Lies lower higher (first * second) := by
  obtain ⟨left, leftMeans, leftAbove, leftBelow⟩ := firstLies
  obtain ⟨right, rightMeans, rightAbove, rightBelow⟩ := secondLies
  have unit : (0 : ℚ) < 2 ^ 40 := by positivity
  simp only [List.mem_cons, List.not_mem_nil, or_false, forall_eq_or_imp, forall_eq] at corners
  obtain ⟨lowLow, lowHigh, highLow, highHigh⟩ := corners
  have most : left * 2 ^ 40 * (right * 2 ^ 40) ≤ higher * 2 ^ 40 := by
    apply mul_le_of_corners leftAbove leftBelow rightAbove rightBelow
    exact ⟨by exact_mod_cast lowLow.2, by exact_mod_cast lowHigh.2, by exact_mod_cast highLow.2,
      by exact_mod_cast highHigh.2⟩
  have least : -(left * 2 ^ 40) * (right * 2 ^ 40) ≤ -(lower * 2 ^ 40) := by
    apply mul_le_of_corners (neg_le_neg leftBelow) (neg_le_neg leftAbove) rightAbove rightBelow
    simp only [neg_mul, neg_le_neg_iff]
    exact ⟨by exact_mod_cast highLow.1, by exact_mod_cast highHigh.1, by exact_mod_cast lowLow.1,
      by exact_mod_cast lowHigh.1⟩
  apply lies_of_gives (leftMeans.mul rightMeans) _ _ lowFits highFits (by omega)
  · apply le_of_mul_le_mul_right _ unit
    linarith
  · apply le_of_mul_le_mul_right _ unit
    linarith

/-- A square is not negative. -/
theorem Lies.square (lies : Lies (-2 ^ 40) (2 ^ 40) first) : Lies 0 (2 ^ 40) (first * first) := by
  obtain ⟨exact, means, above, below⟩ := lies
  push_cast at above below
  have small : |exact| ≤ 1 := abs_le.mpr ⟨by linarith, by linarith⟩
  have squareSmall : exact * exact ≤ 1 := by
    rw [← abs_mul_abs_self]
    exact mul_le_one₀ small (abs_nonneg _) small
  apply lies_of_gives (means.mul means) _ _ (by decide) (by decide) (by decide)
  · rw [Int.cast_zero]
    exact mul_nonneg (mul_self_nonneg exact) (by positivity)
  · push_cast
    linarith

/-- The exponent of a logarithm is a whole number. -/
theorem lies_whole {exponent : ℤ} (low : -150 ≤ exponent) (nonpos : exponent ≤ 0) :
    Lies (exponent * 2 ^ 40) (exponent * 2 ^ 40) (ofRatio (exponent < 0) exponent.natAbs 1) := by
  have means := means_ofRatio (exponent < 0) (show exponent.natAbs < 2 ^ 53 by omega)
  have isExponent : (if decide (exponent < 0) = true then -(exponent.natAbs : ℚ)
      else exponent.natAbs) = exponent := by
    rw [Nat.cast_natAbs, abs_of_nonpos nonpos]
    rcases nonpos.lt_or_eq with negative | rfl
    · rw [if_pos (decide_eq_true negative), Int.cast_neg, neg_neg]
    · simp
  rw [isExponent] at means
  refine ⟨exponent, means, ?_, ?_⟩
  · push_cast
    exact le_rfl
  · push_cast
    exact le_rfl

/-! ## Bits -/

/-- The number that bits stand for lies between two multiples of `2 ^ -40`. -/
def Brackets (low high : ℤ) (bits : UInt64) : Prop :=
  bits.toNat % BinaryFormat.double.signWeight < BinaryFormat.double.infinity ∧
    let value := BinaryFormat.double.value (bits.toNat % BinaryFormat.double.signWeight)
    let numerator : ℤ :=
      if BinaryFormat.double.signWeight ≤ bits.toNat then -value.numerator else value.numerator
    low * value.denominator ≤ numerator * 2 ^ 40 ∧ numerator * 2 ^ 40 ≤ high * value.denominator

instance (low high : ℤ) (bits : UInt64) : Decidable (Brackets low high bits) :=
  inferInstanceAs (Decidable (_ ∧ _ ∧ _))

theorem means_ofBits {bits : UInt64}
    (finite : bits.toNat % BinaryFormat.double.signWeight < BinaryFormat.double.infinity) :
    Means (Float.ofBits bits)
      (signedValue .binary64 (BinaryFormat.double.signWeight ≤ bits.toNat)
        (bits.toNat % BinaryFormat.double.signWeight)) := by
  have means := means_ofMagnitude (BinaryFormat.double.signWeight ≤ bits.toNat) finite
  have whole : BinaryFormat.double.signWeight * 2 = 2 ^ 64 := by decide
  have same : (if decide (BinaryFormat.double.signWeight ≤ bits.toNat) = true then
      BinaryFormat.double.signWeight + bits.toNat % BinaryFormat.double.signWeight
    else bits.toNat % BinaryFormat.double.signWeight) = bits.toNat := by
    have limit := bits.toNat_lt
    rw [← whole] at limit
    simp only [decide_eq_true_eq]
    split
    · rename_i set
      rw [Nat.mod_eq_sub_mod set, Nat.mod_eq_of_lt (by omega)]
      omega
    · rename_i clear
      exact Nat.mod_eq_of_lt (Nat.lt_of_not_le clear)
  unfold ofMagnitude at means
  rw [same, UInt64.ofNat_toNat] at means
  exact means

/-- Bits without a sign. -/
theorem means_ofBits_upright {bits : UInt64} (finite : bits.toNat < BinaryFormat.double.infinity) :
    Means (Float.ofBits bits) (valueOf .binary64 bits.toNat) := by
  have means := means_ofMagnitude false finite
  rw [signedValue, if_neg Bool.false_ne_true] at means
  have same : ofMagnitude false bits.toNat = Float.ofBits bits := by
    show Float.ofBits (UInt64.ofNat bits.toNat) = _
    rw [UInt64.ofNat_toNat]
  rwa [same] at means

theorem Brackets.lies {bits : UInt64} (brackets : Brackets low high bits) :
    Lies low high (Float.ofBits bits) := by
  obtain ⟨finite, above, below⟩ := brackets
  refine ⟨_, means_ofBits finite, ?_⟩
  have isRatio := valueOf_binary64 (bits.toNat % BinaryFormat.double.signWeight)
  generalize BinaryFormat.double.value (bits.toNat % BinaryFormat.double.signWeight) = value at *
  have positive : (0 : ℚ) < value.denominator := by
    exact_mod_cast Nat.two_pow_pos _
  have isNumerator : signedValue .binary64 (BinaryFormat.double.signWeight ≤ bits.toNat)
      (bits.toNat % BinaryFormat.double.signWeight) * value.denominator =
        ((if BinaryFormat.double.signWeight ≤ bits.toNat then -value.numerator
          else value.numerator : ℤ) : ℚ) := by
    unfold signedValue
    rw [isRatio]
    simp only [decide_eq_true_eq]
    split
    · push_cast
      rw [neg_mul, div_mul_cancel₀ _ positive.ne']
    · push_cast
      rw [div_mul_cancel₀ _ positive.ne']
  constructor
  · apply le_of_mul_le_mul_right _ positive
    rw [mul_right_comm, isNumerator]
    exact_mod_cast above
  · apply le_of_mul_le_mul_right _ positive
    rw [mul_right_comm, isNumerator]
    exact_mod_cast below

/-- Whatever has less bits than a bracketed number is below its bound. -/
theorem Brackets.valueOf_le {bits : UInt64} {magnitude : ℕ} (brackets : Brackets low high bits)
    (finite : bits.toNat < BinaryFormat.double.infinity) (atMost : magnitude ≤ bits.toNat) :
    valueOf .binary64 magnitude * 2 ^ 40 ≤ high := by
  obtain ⟨exact, means, _, below⟩ := brackets.lies
  rw [Denotes.unique means (means_ofBits_upright finite)] at below
  apply le_trans _ below
  exact mul_le_mul_of_nonneg_right (valueOf_le_iff.mpr atMost) (by positivity)

end Double

end AttentiveReasoner.Numeric
