import AttentiveReasoner.Proofs.Numeric.Grid
import AttentiveReasoner.Proofs.Numeric.Sums

/-!
Contract: the encodings of the numbers of a binary format.

Owns:
- the fields of an encoding, and the number that they stand for;
- that packing a number and unpacking it again gives the number back;
- that the order of the magnitudes is the order of the values;
- the encoding of a ratio, which is rounded.

Does not own: conversions between two formats.
-/

namespace AttentiveReasoner.Numeric

open Float.Model (UnpackedFloat Format)
open Float.Model.UnpackedFloat

/-- The rational that a dyadic number is. -/
def Dyadic.toRat (value : Dyadic) : ℚ :=
  value.coefficient * 2 ^ value.exponent

theorem powerOfTwo_eq (exponent : ℕ) : powerOfTwo exponent = 2 ^ exponent :=
  rfl

theorem zpow_eq_div (exponent : ℤ) :
    (2 : ℚ) ^ exponent = 2 ^ exponent.toNat / 2 ^ (-exponent).toNat := by
  rcases le_or_gt 0 exponent with nonneg | negative
  · have none : (-exponent).toNat = 0 := by omega
    rw [none, pow_zero, div_one, ← zpow_natCast, Int.toNat_of_nonneg nonneg]
  · have none : exponent.toNat = 0 := by omega
    rw [none, pow_zero, one_div, ← zpow_natCast, Int.toNat_of_nonneg (by omega), zpow_neg, inv_inv]

theorem Dyadic.numerator_div_denominator (value : Dyadic) :
    (value.numerator : ℚ) / value.denominator = value.toRat := by
  unfold numerator denominator toRat
  rw [powerOfTwo_eq, powerOfTwo_eq, zpow_eq_div]
  push_cast
  rw [mul_div_assoc]

namespace Binary

variable {format : Format} {magnitude other numerator denominator : ℕ} {number : UnpackedFloat}
  {exact : ℚ}

/-- The fields that encode the numbers of a format. -/
def encoding (format : Format) : BinaryFormat :=
  ⟨format.mantissaBitsWithoutImplicit, format.exponentBits⟩

/-- The value of a magnitude. -/
def valueOf (format : Format) (magnitude : ℕ) : ℚ :=
  ((encoding format).value magnitude).toRat

theorem leastExponent_encoding (format : Format) :
    (encoding format).leastExponent = format.minExponent := by
  unfold BinaryFormat.leastExponent Format.minExponent Format.mantissaBits encoding
  rw [powerOfTwo_eq]
  push_cast
  ring

theorem value_encoding (format : Format) (magnitude : ℕ) :
    (encoding format).value magnitude =
      if magnitude / 2 ^ format.mantissaBitsWithoutImplicit = 0 then
        ⟨magnitude % 2 ^ format.mantissaBitsWithoutImplicit, format.minExponent⟩
      else
        ⟨2 ^ format.mantissaBitsWithoutImplicit +
            magnitude % 2 ^ format.mantissaBitsWithoutImplicit,
          format.minExponent +
            (magnitude / 2 ^ format.mantissaBitsWithoutImplicit - 1 : ℕ)⟩ := by
  simp only [BinaryFormat.value, leastExponent_encoding]
  rfl

/-! ## Magnitudes -/

/-- A magnitude counts the mantissas in canonical form. -/
theorem magnitude_parts (format : Format) (magnitude : ℕ) :
    ∃ mantissa steps : ℕ,
      magnitude = mantissa + steps * 2 ^ format.mantissaBitsWithoutImplicit ∧
        Canonical format mantissa (format.minExponent + steps) ∧
          (encoding format).value magnitude = ⟨mantissa, format.minExponent + steps⟩ := by
  have split := Nat.mod_add_div' magnitude (2 ^ format.mantissaBitsWithoutImplicit)
  have fraction := Nat.mod_lt magnitude (Nat.two_pow_pos format.mantissaBitsWithoutImplicit)
  have digits : 2 ^ (format.mantissaBitsWithoutImplicit + 1) =
      2 ^ format.mantissaBitsWithoutImplicit + 2 ^ format.mantissaBitsWithoutImplicit := by
    rw [Nat.pow_succ]
    ring
  rw [value_encoding]
  cases field : magnitude / 2 ^ format.mantissaBitsWithoutImplicit with
  | zero =>
      rw [field, Nat.zero_mul, Nat.add_zero] at split
      refine ⟨magnitude, 0, by rw [Nat.zero_mul, Nat.add_zero], ?_, ?_⟩
      · exact ⟨by omega, by simp, .inl (by simp)⟩
      · rw [if_pos rfl, split, Nat.cast_zero, add_zero]
  | succ steps =>
      rw [field, Nat.succ_mul] at split
      refine ⟨2 ^ format.mantissaBitsWithoutImplicit +
        magnitude % 2 ^ format.mantissaBitsWithoutImplicit, steps, by omega, ?_, ?_⟩
      · exact ⟨by omega, by omega, .inr (Nat.le_add_right _ _)⟩
      · rw [if_neg (Nat.succ_ne_zero steps), Nat.succ_sub_one]

/-- The order of the magnitudes is the order of the values. -/
theorem valueOf_lt (less : magnitude < other) :
    valueOf format magnitude < valueOf format other := by
  obtain ⟨mantissa, steps, isMagnitude, canonical, isValue⟩ := magnitude_parts format magnitude
  obtain ⟨otherMantissa, otherSteps, isOther, otherCanonical, isOtherValue⟩ :=
    magnitude_parts format other
  unfold valueOf Dyadic.toRat
  rw [isValue, isOtherValue]
  dsimp only
  rcases lt_trichotomy steps otherSteps with fewer | rfl | more
  · exact canonical.lt_of_exponent_lt otherCanonical (by omega)
  · apply mul_lt_mul_of_pos_right _ (two_zpow_pos _)
    have mantissaLess : mantissa < otherMantissa := by omega
    exact_mod_cast mantissaLess
  · -- More steps and a leading place make the greater magnitude.
    have leads := canonical.leading.resolve_left (by omega)
    have digits := otherCanonical.mantissa_lt
    rw [Nat.pow_succ] at digits
    have above : (otherSteps + 1) * 2 ^ format.mantissaBitsWithoutImplicit ≤
        steps * 2 ^ format.mantissaBitsWithoutImplicit := Nat.mul_le_mul_right _ more
    rw [Nat.succ_mul] at above
    omega

theorem valueOf_le_iff : valueOf format magnitude ≤ valueOf format other ↔ magnitude ≤ other := by
  constructor
  · intro le
    by_contra greater
    exact absurd le (not_le.mpr (valueOf_lt (Nat.lt_of_not_le greater)))
  · intro le
    rcases le.lt_or_eq with less | rfl
    · exact (valueOf_lt less).le
    · exact le_rfl

theorem onGrid_valueOf (format : Format) (magnitude : ℕ) :
    OnGrid format (valueOf format magnitude) := by
  obtain ⟨mantissa, steps, _, canonical, isValue⟩ := magnitude_parts format magnitude
  refine ⟨mantissa, format.minExponent + steps, canonical.mantissa_lt, canonical.least_le, ?_⟩
  unfold valueOf Dyadic.toRat
  rw [isValue]
  simp

theorem valueOf_zero (format : Format) : valueOf format 0 = 0 := by
  unfold valueOf Dyadic.toRat
  rw [value_encoding]
  simp

theorem valueOf_nonneg (format : Format) (magnitude : ℕ) : 0 ≤ valueOf format magnitude := by
  rw [← valueOf_zero format]
  exact valueOf_le_iff.mpr (Nat.zero_le _)

/-! ## Fields -/

theorem toNat_unpackMantissa (bits : BitVec format.numBits) :
    (unpackMantissa bits).toNat = bits.toNat % 2 ^ format.mantissaBitsWithoutImplicit := by
  have width : format.mantissaBitsWithoutImplicit - 1 - 0 + 1 =
      format.mantissaBitsWithoutImplicit := by
    have positive := format.hm
    omega
  rw [unpackMantissa, BitVec.toNat_cast, BitVec.extractLsb_toNat, Nat.shiftRight_zero, width]

theorem toNat_unpackExponent (bits : BitVec format.numBits) :
    (unpackExponent bits).toNat =
      bits.toNat / 2 ^ format.mantissaBitsWithoutImplicit % 2 ^ format.exponentBits := by
  have width : format.mantissaBitsWithoutImplicit + format.exponentBits - 1 -
      format.mantissaBitsWithoutImplicit + 1 = format.exponentBits := by
    have positive := format.he
    omega
  rw [unpackExponent, BitVec.toNat_cast, BitVec.extractLsb_toNat, Nat.shiftRight_eq_div_pow, width]

theorem toNat_unpackSign (bits : BitVec format.numBits) :
    (unpackSign bits).toNat =
      bits.toNat / 2 ^ (format.mantissaBitsWithoutImplicit + format.exponentBits) % 2 := by
  have width : format.mantissaBitsWithoutImplicit + format.exponentBits -
      (format.mantissaBitsWithoutImplicit + format.exponentBits) + 1 = 1 := by
    omega
  rw [unpackSign, BitVec.toNat_cast, BitVec.extractLsb_toNat, Nat.shiftRight_eq_div_pow, width,
    pow_one]

/-- The bits without the sign. -/
def magnitudeOf (bits : BitVec format.numBits) : ℕ :=
  bits.toNat % (encoding format).signWeight

/-- The sign of the number that bits stand for. -/
def signOf (bits : BitVec format.numBits) : Sign :=
  Sign.ofBitVec (unpackSign bits)

theorem signWeight_encoding (format : Format) :
    (encoding format).signWeight =
      2 ^ format.mantissaBitsWithoutImplicit * 2 ^ format.exponentBits := by
  rw [← Nat.pow_add, Nat.add_comm]
  rfl

theorem infinity_encoding (format : Format) :
    (encoding format).infinity =
      (2 ^ format.exponentBits - 1) * 2 ^ format.mantissaBitsWithoutImplicit :=
  rfl

theorem signOf_eq (bits : BitVec format.numBits) :
    signOf bits =
      if (encoding format).signWeight ≤ bits.toNat then .negative else .positive := by
  have limit := bits.isLt
  have top := toNat_unpackSign bits
  have weight : (encoding format).signWeight =
      2 ^ (format.mantissaBitsWithoutImplicit + format.exponentBits) := by
    rw [signWeight_encoding, Nat.pow_add]
  have whole : 2 ^ format.numBits =
      2 ^ (format.mantissaBitsWithoutImplicit + format.exponentBits) * 2 := by
    rw [← Nat.pow_succ]
    congr 1
    show 1 + format.exponentBits + format.mantissaBitsWithoutImplicit = _
    omega
  rw [whole] at limit
  rw [weight]
  unfold signOf Sign.ofBitVec
  split
  · rename_i clear
    rw [clear, Nat.mod_eq_of_lt (Nat.div_lt_of_lt_mul limit)] at top
    have below := Nat.lt_of_div_eq_zero (Nat.two_pow_pos _) top.symm
    rw [if_neg (Nat.not_le.mpr below)]
  · rename_i set
    have notBelow : ¬bits.toNat <
        2 ^ (format.mantissaBitsWithoutImplicit + format.exponentBits) := by
      intro below
      apply set
      apply BitVec.eq_of_toNat_eq
      rw [top, Nat.div_eq_of_lt below]
      rfl
    rw [if_pos (Nat.le_of_not_lt notBelow)]

/-- Bits that are made of a sign and a magnitude. -/
theorem parts_ofNat (negative : Bool) (less : magnitude < (encoding format).signWeight) :
    magnitudeOf (BitVec.ofNat format.numBits
        (if negative then (encoding format).signWeight + magnitude else magnitude)) = magnitude ∧
      signOf (BitVec.ofNat format.numBits
        (if negative then (encoding format).signWeight + magnitude else magnitude)) =
          if negative then .negative else .positive := by
  have whole : 2 ^ format.numBits = (encoding format).signWeight * 2 := by
    rw [signWeight_encoding, ← Nat.pow_add, ← Nat.pow_succ]
    congr 1
    show 1 + format.exponentBits + format.mantissaBitsWithoutImplicit = _
    omega
  rw [signOf_eq, magnitudeOf, BitVec.toNat_ofNat, whole]
  cases negative with
  | false =>
      have fits : magnitude < (encoding format).signWeight * 2 := by omega
      simp only [Bool.false_eq_true, if_false, Nat.mod_eq_of_lt fits]
      exact ⟨Nat.mod_eq_of_lt less, if_neg (Nat.not_le.mpr less)⟩
  | true =>
      have fits : (encoding format).signWeight + magnitude <
          (encoding format).signWeight * 2 := by
        omega
      simp only [if_true, Nat.mod_eq_of_lt fits, Nat.add_mod_left]
      exact ⟨Nat.mod_eq_of_lt less, if_pos (Nat.le_add_right _ _)⟩

theorem field_magnitudeOf (bits : BitVec format.numBits) :
    magnitudeOf bits / 2 ^ format.mantissaBitsWithoutImplicit = (unpackExponent bits).toNat := by
  rw [toNat_unpackExponent, magnitudeOf, signWeight_encoding, Nat.mod_mul_right_div_self]

theorem fraction_magnitudeOf (bits : BitVec format.numBits) :
    magnitudeOf bits % 2 ^ format.mantissaBitsWithoutImplicit = (unpackMantissa bits).toNat := by
  rw [toNat_unpackMantissa, magnitudeOf, signWeight_encoding, Nat.mod_mul_right_mod]

/-- The largest exponent, as an exponent field. -/
theorem maxExponent_eq (format : Format) :
    maxExponent format = format.minExponent + 2 ^ format.exponentBits - 3 := by
  have bias : (1 : ℕ) ≤ 2 ^ (format.exponentBits - 1) := Nat.one_le_two_pow
  have twice : (2 : ℤ) ^ format.exponentBits = 2 * 2 ^ (format.exponentBits - 1) := by
    rw [← pow_succ', Nat.sub_add_cancel format.he]
  unfold maxExponent Format.minExponent Format.exponentBias Format.mantissaBits
  rw [Nat.cast_sub bias, twice]
  push_cast
  ring

theorem minExponent_eq (format : Format) :
    format.minExponent = 1 - (format.exponentBias + format.mantissaBitsWithoutImplicit) := by
  have bias : (1 : ℕ) ≤ 2 ^ (format.exponentBits - 1) := Nat.one_le_two_pow
  unfold Format.minExponent Format.exponentBias Format.mantissaBits
  rw [Nat.cast_sub bias]
  push_cast
  ring

/-- A finite number has the value of the magnitude that has its parts. -/
theorem denotes_of_value {mantissa : ℕ} {exponent : ℤ} (sign : Sign) (positive : 0 < mantissa)
    (isValue : (encoding format).value magnitude = ⟨mantissa, exponent⟩)
    (fits : exponent ≤ maxExponent format) :
    Denotes format (.finite sign mantissa exponent positive)
      ((sign.apply 1 : ℤ) * valueOf format magnitude) := by
  obtain ⟨sameMantissa, steps, _, canonical, same⟩ := magnitude_parts format magnitude
  obtain ⟨rfl, rfl⟩ := Dyadic.mk.inj (isValue.symm.trans same)
  have denotes := Denotes.finite sign mantissa _ positive canonical fits
  rw [apply_cast, Int.cast_natCast, mul_assoc] at denotes
  unfold valueOf Dyadic.toRat
  rw [isValue]
  exact denotes

/-- The value of bits that stand for a number. -/
def bitsValue (bits : BitVec format.numBits) : ℚ :=
  ((signOf bits).apply 1 : ℤ) * valueOf format (magnitudeOf bits)

/-- The number that bits stand for if the exponent field is not all ones. -/
theorem unpack_of_finite {bits : BitVec format.numBits}
    (finite : (unpackExponent bits).toNat < 2 ^ format.exponentBits - 1) :
    unpack format bits =
      if unpackExponent bits = 0#_ then
        if positive : (unpackMantissa bits).toNat = 0 then .zero (signOf bits)
        else
          .finite (signOf bits) (unpackMantissa bits).toNat format.minExponent
            (Nat.pos_of_ne_zero positive)
      else
        .finite (signOf bits)
          (2 ^ format.mantissaBitsWithoutImplicit + (unpackMantissa bits).toNat)
          (format.minExponent + ((unpackExponent bits).toNat - 1 : ℕ))
          (Nat.add_pos_left (Nat.two_pow_pos _) _) := by
  have least := minExponent_eq format
  have notAll : unpackExponent bits ≠ -1#_ := by
    intro all
    rw [all, BitVec.neg_one_eq_allOnes, BitVec.toNat_allOnes] at finite
    exact absurd finite (lt_irrefl _)
  simp only [unpack, if_neg notAll]
  split
  · rename_i noField
    have exponent : ((unpackExponent bits).toNat : ℤ) -
        (format.exponentBias + format.mantissaBitsWithoutImplicit) + 1 = format.minExponent := by
      rw [noField, BitVec.toNat_ofNat, Nat.zero_mod]
      omega
    by_cases isZero : unpackMantissa bits = 0#_
    · have none : (unpackMantissa bits).toNat = 0 := by
        rw [isZero, BitVec.toNat_ofNat, Nat.zero_mod]
      rw [dif_pos isZero, dif_pos none]
      rfl
    · have some : (unpackMantissa bits).toNat ≠ 0 := by
        intro none
        exact isZero (BitVec.eq_of_toNat_eq (by simpa using none))
      rw [dif_neg isZero, dif_neg some]
      simp only [exponent]
      rfl
  · rename_i someField
    have some : (unpackExponent bits).toNat ≠ 0 := fun none =>
      someField (BitVec.eq_of_toNat_eq (by simpa using none))
    have exponent : ((unpackExponent bits).toNat : ℤ) -
        (format.exponentBias + format.mantissaBitsWithoutImplicit) =
          format.minExponent + ((unpackExponent bits).toNat - 1 : ℕ) := by
      omega
    simp only [exponent, Double.toNat_leading]
    rfl

/-- Bits whose magnitude is less than infinity stand for a number. -/
theorem unpack_denotes (wide : 2 ≤ format.exponentBits) (bits : BitVec format.numBits)
    (finite : magnitudeOf bits < (encoding format).infinity) :
    Denotes format (unpack format bits) (bitsValue bits) := by
  have isField := field_magnitudeOf bits
  have isFraction := fraction_magnitudeOf bits
  have isValue := value_encoding format (magnitudeOf bits)
  have fieldLess : (unpackExponent bits).toNat < 2 ^ format.exponentBits - 1 := by
    rw [← isField]
    rw [infinity_encoding, Nat.mul_comm] at finite
    exact Nat.div_lt_of_lt_mul finite
  have fits : ∀ field : ℕ, field < 2 ^ format.exponentBits - 1 →
      format.minExponent + (field - 1 : ℕ) ≤ maxExponent format := by
    intro field less
    have fields : 2 ^ 2 ≤ 2 ^ format.exponentBits := Nat.pow_le_pow_right (by decide) wide
    have largest := maxExponent_eq format
    have cast : ((2 ^ format.exponentBits : ℕ) : ℤ) = 2 ^ format.exponentBits := by push_cast; rfl
    omega
  rw [isField, isFraction] at isValue
  rw [unpack_of_finite fieldLess]
  unfold bitsValue
  split
  · rename_i noField
    have none : (unpackExponent bits).toNat = 0 := by
      rw [noField, BitVec.toNat_ofNat, Nat.zero_mod]
    rw [if_pos none] at isValue
    split
    · rename_i noFraction
      have isZero : magnitudeOf bits = 0 := by
        have split := Nat.mod_add_div' (magnitudeOf bits) (2 ^ format.mantissaBitsWithoutImplicit)
        rw [isField, isFraction, none, noFraction] at split
        simpa using split.symm
      rw [isZero, valueOf_zero, mul_zero]
      exact .zero _
    · rename_i someFraction
      have least := fits _ fieldLess
      rw [none, Nat.cast_zero, add_zero] at least
      exact denotes_of_value _ _ isValue least
  · rename_i someField
    have some : (unpackExponent bits).toNat ≠ 0 := fun none =>
      someField (BitVec.eq_of_toNat_eq (by simpa using none))
    rw [if_neg some] at isValue
    exact denotes_of_value _ _ isValue (fits _ fieldLess)

theorem Denotes.unique {other : ℚ} (denotes : Denotes format number exact)
    (otherDenotes : Denotes format number other) : exact = other := by
  cases denotes <;> cases otherDenotes <;> rfl

/-- The bits of a number. -/
theorem Denotes.of_bits (wide : 2 ≤ format.exponentBits) {bits : BitVec format.numBits}
    (denotes : Denotes format (unpack format bits) exact) :
    magnitudeOf bits < (encoding format).infinity ∧ exact = bitsValue bits := by
  have finite : magnitudeOf bits < (encoding format).infinity := by
    by_contra infinite
    -- The exponent field is all ones, which no number has.
    have field := field_magnitudeOf bits
    have limit := (unpackExponent bits).isLt
    have most : 2 ^ format.exponentBits - 1 ≤ (unpackExponent bits).toNat := by
      rw [← field, Nat.le_div_iff_mul_le (Nat.two_pow_pos _), ← infinity_encoding]
      exact Nat.le_of_not_lt infinite
    have all : unpackExponent bits = -1#_ := by
      apply BitVec.eq_of_toNat_eq
      rw [BitVec.neg_one_eq_allOnes, BitVec.toNat_allOnes]
      omega
    simp only [unpack, if_pos all] at denotes
    split at denotes
    · cases denotes
    · cases denotes
  exact ⟨finite, denotes.unique (unpack_denotes wide bits finite)⟩

/-! ## Packing -/

theorem signOf_packComponents (sign : Sign) (exponent : BitVec format.exponentBits)
    (mantissa : BitVec format.mantissaBitsWithoutImplicit) :
    signOf (packComponents format sign exponent mantissa) = sign := by
  have same : unpackSign (packComponents format sign exponent mantissa) = sign.toBitVec := by
    ext index bound
    obtain rfl : index = 0 := by omega
    simp [unpackSign, packComponents, BitVec.getLsbD_append, BitVec.getElem_append]
  rw [signOf, same]
  cases sign <;> rfl

/-- The fields of a number below the largest exponent are those it was packed from. -/
theorem unpack_packComponents (sign : Sign) (field : BitVec format.exponentBits)
    (fraction : BitVec format.mantissaBitsWithoutImplicit)
    (finite : field.toNat < 2 ^ format.exponentBits - 1) :
    unpack format (packComponents format sign field fraction) =
      if field = 0#_ then
        if positive : fraction.toNat = 0 then .zero sign
        else .finite sign fraction.toNat format.minExponent (Nat.pos_of_ne_zero positive)
      else
        .finite sign (2 ^ format.mantissaBitsWithoutImplicit + fraction.toNat)
          (format.minExponent + (field.toNat - 1 : ℕ))
          (Nat.add_pos_left (Nat.two_pow_pos _) _) := by
  have unpacked := @unpack_of_finite format (packComponents format sign field fraction)
    (by rwa [unpackExponent_packComponents])
  simpa only [unpackExponent_packComponents, unpackMantissa_packComponents,
    signOf_packComponents] using unpacked

/-- A mantissa with a leading place is that place and the fraction behind it. -/
theorem leading_add_toNat {mantissa places : ℕ} (leading : 2 ^ places ≤ mantissa)
    (digits : mantissa < 2 ^ (places + 1)) :
    2 ^ places + (BitVec.ofNat places mantissa).toNat = mantissa := by
  rw [Nat.pow_succ] at digits
  rw [BitVec.toNat_ofNat, Nat.mod_eq_sub_mod leading, Nat.mod_eq_of_lt (by omega)]
  omega

/-- Packing a number loses nothing. -/
theorem Denotes.unpack_pack (denotes : Denotes format number exact) :
    unpack format (pack format number) = number := by
  have fields : 2 ^ 1 ≤ 2 ^ format.exponentBits := Nat.pow_le_pow_right (by decide) format.he
  have noField : (BitVec.ofNat format.exponentBits 0).toNat = 0 := by
    rw [BitVec.toNat_ofNat, Nat.zero_mod]
  cases denotes with
  | zero sign =>
      simp only [pack, packedZero]
      have unpacked := unpack_packComponents sign (BitVec.ofNat format.exponentBits 0)
        (BitVec.ofNat format.mantissaBitsWithoutImplicit 0) (by omega)
      rw [if_pos rfl, dif_pos (by rw [BitVec.toNat_ofNat, Nat.zero_mod])] at unpacked
      exact unpacked
  | finite sign mantissa exponent positive canonical fits =>
      obtain ⟨digits, leastLe, leading⟩ := canonical
      have least := minExponent_eq format
      have largest := maxExponent_eq format
      have cast : ((2 ^ format.exponentBits : ℕ) : ℤ) = 2 ^ format.exponentBits := by push_cast; rfl
      obtain ⟨steps, isSteps⟩ := Int.eq_ofNat_of_zero_le (Int.sub_nonneg.mpr leastLe)
      have biased : (exponent + format.exponentBias +
          format.mantissaBitsWithoutImplicit).toNat = steps + 1 := by
        omega
      have isNormal : mantissa.log2 + 1 = format.mantissaBits ↔
          2 ^ format.mantissaBitsWithoutImplicit ≤ mantissa := by
        rw [← Nat.le_log2 positive.ne', Format.mantissaBits]
        have order := (Nat.log2_lt positive.ne').mpr digits
        omega
      simp only [pack, biased, isNormal]
      rw [if_neg (by omega)]
      split
      · rename_i normal
        have isField : (BitVec.ofNat format.exponentBits (steps + 1)).toNat = steps + 1 := by
          rw [BitVec.toNat_ofNat, Nat.mod_eq_of_lt (by omega)]
        have isFraction := leading_add_toNat normal digits
        have someField : BitVec.ofNat format.exponentBits (steps + 1) ≠ 0#_ := by
          intro none
          rw [none, noField] at isField
          omega
        rw [unpack_packComponents _ _ _ (by omega), if_neg someField]
        have isExponent : format.minExponent + ((steps + 1 : ℕ) - 1 : ℕ) = exponent := by omega
        simp only [isFraction, isField, isExponent]
      · rename_i subnormal
        have isFraction : (BitVec.ofNat format.mantissaBitsWithoutImplicit mantissa).toNat =
            mantissa := by
          rw [BitVec.toNat_ofNat, Nat.mod_eq_of_lt (by omega)]
        rw [unpack_packComponents _ _ _ (by omega), if_pos rfl, dif_neg (by omega)]
        simp only [isFraction, leading.resolve_right subnormal]

/-! ## Ratios -/

/-- The parts of a ratio that is measured in units of a power of two. -/
theorem scaled_ratio (numerator denominator : ℕ) (place : ℤ) :
    ((numerator * 2 ^ (-place).toNat : ℕ) : ℚ) / ((denominator * 2 ^ place.toNat : ℕ) : ℚ) =
      numerator / denominator / 2 ^ place := by
  rw [zpow_eq_div place]
  push_cast
  field_simp

theorem scaled_lt_iff (positive : 0 < denominator) (place : ℤ) :
    numerator * 2 ^ (-place).toNat < denominator * 2 ^ place.toNat ↔
      (numerator : ℚ) / denominator < 2 ^ place := by
  rw [← div_lt_one (two_zpow_pos place), ← scaled_ratio, div_lt_one]
  · exact_mod_cast Iff.rfl
  · exact_mod_cast Nat.mul_pos positive (Nat.two_pow_pos _)

theorem log2_bounds {count : ℕ} (positive : 0 < count) :
    (2 : ℚ) ^ (count.log2 : ℤ) ≤ count ∧ (count : ℚ) < 2 ^ ((count.log2 : ℤ) + 1) := by
  constructor
  · exact_mod_cast Nat.log2_self_le positive.ne'
  · exact_mod_cast @Nat.lt_log2_self count

/-- The binary order of a ratio is the exponent of the greatest power of two that it is not less
than. -/
theorem binaryOrder_spec (numeratorPositive : 0 < numerator)
    (denominatorPositive : 0 < denominator) :
    (2 : ℚ) ^ binaryOrder numerator denominator ≤ numerator / denominator ∧
      (numerator : ℚ) / denominator < 2 ^ (binaryOrder numerator denominator + 1) := by
  have bottom : (0 : ℚ) < denominator := by exact_mod_cast denominatorPositive
  obtain ⟨topLeast, topLess⟩ := log2_bounds numeratorPositive
  obtain ⟨bottomLeast, bottomLess⟩ := log2_bounds denominatorPositive
  unfold binaryOrder
  dsimp only
  generalize isEstimate : Int.ofNat numerator.log2 - Int.ofNat denominator.log2 = estimate
  have isSum : (numerator.log2 : ℤ) = estimate + denominator.log2 := by
    rw [← isEstimate]
    simp
  have less := @scaled_lt_iff numerator denominator denominatorPositive estimate
  rw [powerOfTwo_eq, powerOfTwo_eq]
  split
  · rename_i below
    refine ⟨?_, ?_⟩
    · rw [le_div_iff₀ bottom]
      apply le_trans _ topLeast
      rw [isSum]
      calc
        (2 : ℚ) ^ (estimate - 1) * denominator
          ≤ 2 ^ (estimate - 1) * 2 ^ ((denominator.log2 : ℤ) + 1) :=
            mul_le_mul_of_nonneg_left bottomLess.le (two_zpow_pos _).le
        _ = 2 ^ (estimate + denominator.log2) := by
            rw [← zpow_add₀ two_ne_zero]
            congr 1
            ring
    · rw [Int.sub_add_cancel]
      exact less.mp below
  · rename_i notBelow
    refine ⟨not_lt.mp (mt less.mpr notBelow), ?_⟩
    rw [div_lt_iff₀ bottom]
    apply topLess.trans_le
    rw [isSum]
    calc
      (2 : ℚ) ^ (estimate + denominator.log2 + 1) =
          2 ^ (estimate + 1) * 2 ^ (denominator.log2 : ℤ) := by
        rw [← zpow_add₀ two_ne_zero]
        congr 1
        ring
      _ ≤ 2 ^ (estimate + 1) * denominator :=
        mul_le_mul_of_nonneg_left bottomLeast (two_zpow_pos _).le

theorem roundHalfEven_le_of_le {bound : ℕ} (positive : 0 < denominator)
    (le : numerator ≤ bound * denominator) : roundHalfEven numerator denominator ≤ bound := by
  have split := Nat.div_add_mod numerator denominator
  have least : numerator / denominator ≤ bound := by
    rw [Nat.div_le_iff_le_mul_add_pred positive]
    have same := Nat.mul_comm bound denominator
    omega
  unfold roundHalfEven
  dsimp only
  rcases least.lt_or_eq with less | isBound
  · split
    · omega
    · split
      · omega
      · split <;> omega
  · -- The bound is met, so that nothing is left over.
    have exactly : numerator % denominator = 0 := by
      have same := Nat.mul_comm bound denominator
      rw [isBound] at split
      omega
    rw [exactly, if_pos (by omega), isBound]

theorem le_roundHalfEven_of_le {bound : ℕ} (positive : 0 < denominator)
    (le : bound * denominator ≤ numerator) : bound ≤ roundHalfEven numerator denominator := by
  have least : bound ≤ numerator / denominator := (Nat.le_div_iff_mul_le positive).mpr le
  unfold roundHalfEven
  dsimp only
  split
  · exact least
  · split
    · omega
    · split <;> omega

/-- The value of a magnitude that is given by a mantissa, which may have a place too many, and a
number of steps from the least exponent. -/
theorem valueOf_add {mantissa steps : ℕ}
    (digits : mantissa ≤ 2 ^ (format.mantissaBitsWithoutImplicit + 1))
    (leading : steps = 0 ∨ 2 ^ format.mantissaBitsWithoutImplicit ≤ mantissa) :
    valueOf format (mantissa + steps * 2 ^ format.mantissaBitsWithoutImplicit) =
      mantissa * 2 ^ (format.minExponent + steps) := by
  have places := Nat.two_pow_pos format.mantissaBitsWithoutImplicit
  have normal : ∀ {fraction field : ℕ}, fraction < 2 ^ format.mantissaBitsWithoutImplicit →
      valueOf format (fraction + (field + 1) * 2 ^ format.mantissaBitsWithoutImplicit) =
        (2 ^ format.mantissaBitsWithoutImplicit + fraction) *
          2 ^ (format.minExponent + field) := by
    intro fraction field less
    unfold valueOf Dyadic.toRat
    rw [value_encoding, Nat.add_mul_div_right _ _ places, Nat.add_mul_mod_self_right,
      Nat.div_eq_of_lt less, Nat.mod_eq_of_lt less, if_neg (by omega)]
    simp
  rw [Nat.pow_succ] at digits
  rcases Nat.lt_or_ge mantissa (2 ^ format.mantissaBitsWithoutImplicit) with subnormal | atLeast
  · rw [leading.resolve_right (Nat.not_le.mpr subnormal)]
    unfold valueOf Dyadic.toRat
    rw [value_encoding, Nat.zero_mul, Nat.add_zero, Nat.div_eq_of_lt subnormal,
      Nat.mod_eq_of_lt subnormal, if_pos rfl]
    simp
  · obtain ⟨fraction, rfl⟩ := Nat.exists_eq_add_of_le atLeast
    rcases Nat.lt_or_ge fraction (2 ^ format.mantissaBitsWithoutImplicit) with less | carry
    · have same : 2 ^ format.mantissaBitsWithoutImplicit + fraction +
          steps * 2 ^ format.mantissaBitsWithoutImplicit =
            fraction + (steps + 1) * 2 ^ format.mantissaBitsWithoutImplicit := by
        ring
      rw [same, normal less]
      push_cast
      rfl
    · obtain rfl : fraction = 2 ^ format.mantissaBitsWithoutImplicit := by omega
      have same : 2 ^ format.mantissaBitsWithoutImplicit +
          2 ^ format.mantissaBitsWithoutImplicit +
            steps * 2 ^ format.mantissaBitsWithoutImplicit =
              0 + (steps + 1 + 1) * 2 ^ format.mantissaBitsWithoutImplicit := by
        ring
      rw [same, normal places]
      push_cast
      rw [← add_assoc, zpow_add₀ two_ne_zero _ 1]
      ring

/-- Infinity is encoded as the power of two behind the largest numbers. -/
theorem valueOf_infinity (format : Format) :
    valueOf format (encoding format).infinity =
      2 ^ (maxExponent format + 1 + format.mantissaBitsWithoutImplicit) := by
  have fields : 2 ^ 1 ≤ 2 ^ format.exponentBits := Nat.pow_le_pow_right (by decide) format.he
  obtain ⟨steps, isSteps⟩ := Nat.exists_eq_add_of_le fields
  have cast : (2 : ℤ) ^ format.exponentBits = 2 ^ 1 + steps := by exact_mod_cast isSteps
  have isInfinity : (encoding format).infinity = 2 ^ format.mantissaBitsWithoutImplicit +
      steps * 2 ^ format.mantissaBitsWithoutImplicit := by
    have count : 2 ^ format.exponentBits - 1 = steps + 1 := by omega
    rw [infinity_encoding, count, Nat.succ_mul, Nat.add_comm]
  have exponent : format.minExponent + (steps : ℤ) = maxExponent format + 1 := by
    rw [maxExponent_eq, cast]
    ring
  have digits : 2 ^ format.mantissaBitsWithoutImplicit ≤
      2 ^ (format.mantissaBitsWithoutImplicit + 1) :=
    Nat.pow_le_pow_right (by decide) (Nat.le_succ _)
  rw [isInfinity, valueOf_add digits (.inr le_rfl), exponent,
    zpow_add₀ two_ne_zero (maxExponent format + 1), zpow_natCast]
  push_cast
  ring

/-- The place at which a ratio is rounded. -/
def ratioPlace (format : Format) (numerator denominator : ℕ) : ℤ :=
  max (binaryOrder numerator denominator - format.mantissaBitsWithoutImplicit) format.minExponent

/-- The mantissa of a ratio at the place at which it is rounded. -/
def ratioMantissa (format : Format) (numerator denominator : ℕ) : ℕ :=
  roundHalfEven (numerator * 2 ^ (-ratioPlace format numerator denominator).toNat)
    (denominator * 2 ^ (ratioPlace format numerator denominator).toNat)

theorem encode_eq (nonzero : numerator ≠ 0) :
    (encoding format).encode numerator denominator =
      min (ratioMantissa format numerator denominator +
          (ratioPlace format numerator denominator - format.minExponent).toNat *
            2 ^ format.mantissaBitsWithoutImplicit)
        (encoding format).infinity := by
  simp only [BinaryFormat.encode, if_neg nonzero, leastExponent_encoding]
  rfl

theorem ratioMantissa_le {bound : ℕ} (positive : 0 < denominator)
    (atMost : (numerator : ℚ) / denominator ≤
      bound * 2 ^ ratioPlace format numerator denominator) :
    ratioMantissa format numerator denominator ≤ bound := by
  have unit := Nat.mul_pos positive
    (Nat.two_pow_pos (ratioPlace format numerator denominator).toNat)
  apply roundHalfEven_le_of_le unit
  rw [← div_le_iff₀ (two_zpow_pos _), ← scaled_ratio, div_le_iff₀ (by exact_mod_cast unit)]
    at atMost
  exact_mod_cast atMost

theorem le_ratioMantissa {bound : ℕ} (positive : 0 < denominator)
    (atLeast : (bound : ℚ) * 2 ^ ratioPlace format numerator denominator ≤
      numerator / denominator) :
    bound ≤ ratioMantissa format numerator denominator := by
  have unit := Nat.mul_pos positive
    (Nat.two_pow_pos (ratioPlace format numerator denominator).toNat)
  apply le_roundHalfEven_of_le unit
  rw [← le_div_iff₀ (two_zpow_pos _), ← scaled_ratio, le_div_iff₀ (by exact_mod_cast unit)]
    at atLeast
  exact_mod_cast atLeast

/-- A ratio has a leading place, unless it is rounded at the least exponent. -/
theorem ratioPlace_leading (nonzero : numerator ≠ 0) (positive : 0 < denominator) :
    ratioPlace format numerator denominator = format.minExponent ∨
      (2 : ℚ) ^ format.mantissaBitsWithoutImplicit *
        2 ^ ratioPlace format numerator denominator ≤ numerator / denominator := by
  obtain ⟨orderLe, _⟩ := binaryOrder_spec (Nat.pos_of_ne_zero nonzero) positive
  rcases max_choice (binaryOrder numerator denominator - format.mantissaBitsWithoutImplicit)
    format.minExponent with isOrder | isLeast
  · right
    have whole : format.mantissaBitsWithoutImplicit + ratioPlace format numerator denominator =
        binaryOrder numerator denominator := by
      rw [ratioPlace, isOrder]
      ring
    rw [← zpow_natCast, ← zpow_add₀ two_ne_zero, whole]
    exact orderLe
  · exact .inl isLeast

theorem ratioMantissa_digits (nonzero : numerator ≠ 0) (positive : 0 < denominator) :
    ratioMantissa format numerator denominator ≤ 2 ^ (format.mantissaBitsWithoutImplicit + 1) := by
  obtain ⟨_, orderLt⟩ := binaryOrder_spec (Nat.pos_of_ne_zero nonzero) positive
  have order := le_max_left (binaryOrder numerator denominator - format.mantissaBitsWithoutImplicit)
    format.minExponent
  apply ratioMantissa_le positive
  apply orderLt.le.trans
  rw [Nat.cast_pow, Nat.cast_ofNat, ← zpow_natCast, ← zpow_add₀ two_ne_zero, ratioPlace]
  apply zpow_le_zpow_right₀ one_le_two
  push_cast
  linarith

/-- The mantissa of a ratio keeps to the places of the format, and is rounded. -/
theorem ratio_rounds (nonzero : numerator ≠ 0) (positive : 0 < denominator) :
    Rounds format ((numerator : ℚ) / denominator)
        (valueOf format (ratioMantissa format numerator denominator +
          (ratioPlace format numerator denominator - format.minExponent).toNat *
            2 ^ format.mantissaBitsWithoutImplicit)) := by
  have digits := @ratioMantissa_digits format _ _ nonzero positive
  have leading := @ratioPlace_leading format _ _ nonzero positive
  have placeLeast : format.minExponent ≤ ratioPlace format numerator denominator :=
    le_max_right _ _
  have steps : format.minExponent +
      ((ratioPlace format numerator denominator - format.minExponent).toNat : ℤ) =
        ratioPlace format numerator denominator := by
    omega
  have stepsLeading : (ratioPlace format numerator denominator - format.minExponent).toNat = 0 ∨
      2 ^ format.mantissaBitsWithoutImplicit ≤ ratioMantissa format numerator denominator := by
    apply leading.imp
    · intro least
      omega
    · intro leads
      apply le_ratioMantissa positive
      exact_mod_cast leads
  rw [valueOf_add digits stepsLeading, steps]
  exact rounds_of_place leading (fun _ => ratioMantissa_le positive)
    (fun _ => le_ratioMantissa positive) (by positivity)

/-- A ratio of moderate size is encoded by the magnitude of its rounded value. -/
theorem encode_rounds (positive : 0 < denominator)
    (moderate : Moderate format ((numerator : ℚ) / denominator)) :
    Rounds format ((numerator : ℚ) / denominator)
        (valueOf format ((encoding format).encode numerator denominator)) ∧
      (encoding format).encode numerator denominator < (encoding format).infinity := by
  obtain ⟨bound, boundLeast, boundFits, bounded⟩ := moderate
  have nonneg : (0 : ℚ) ≤ numerator / denominator := by positivity
  rw [abs_of_nonneg nonneg] at bounded
  have finite : ∀ magnitude,
      Rounds format ((numerator : ℚ) / denominator) (valueOf format magnitude) →
        magnitude < (encoding format).infinity := by
    intro magnitude rounds
    apply Nat.lt_of_not_le
    intro infinite
    have within := rounds.le _ (onGrid_pow boundLeast) bounded
    have beyond := (valueOf_le_iff.mpr infinite).trans within
    rw [valueOf_infinity, zpow_le_zpow_iff_right₀ one_lt_two] at beyond
    omega
  rcases eq_or_ne numerator 0 with rfl | nonzero
  · have isZero : (encoding format).encode 0 denominator = 0 := rfl
    have rounds := Rounds.refl format ((0 : ℕ) / (denominator : ℚ))
    have same : ((0 : ℕ) : ℚ) / denominator = valueOf format 0 := by
      rw [valueOf_zero, Nat.cast_zero, zero_div]
    rw [isZero]
    rw [same] at rounds finite ⊢
    exact ⟨rounds, finite 0 rounds⟩
  · have rounds := @ratio_rounds format _ _ nonzero positive
    have less := finite _ rounds
    rw [encode_eq nonzero, Nat.min_eq_left less.le]
    exact ⟨rounds, less⟩

end Binary

end AttentiveReasoner.Numeric
