import AttentiveReasoner.Proofs.Numeric.Rounding

/-!
Contract: running sums of 32-bit numbers in the 64-bit format are finite.

Owns:
- how far from zero an encoding is, and that packing a number does not move it away;
- 64-bit numbers that are close to zero, and those that are if they are numbers at all;
- their sums, differences and positive parts;
- that a 32-bit number which is not infinite is close to zero in the 64-bit format;
- that a finite number which is not negligible is positive.

Does not own: how exact a sum is.
-/

namespace AttentiveReasoner.Numeric.Double

open Float.Model (UnpackedFloat Format)
open Float.Model.UnpackedFloat

variable {bound smaller field magnitude : Nat} {left right number : UnpackedFloat}
  {first second : Float}

/-! ## Encodings -/

theorem toNat_leading {width : Nat} (digits : BitVec width) :
    (1#1 ++ digits).toNat = 2 ^ width + digits.toNat := by
  rw [BitVec.toNat_append, Nat.shiftLeft_eq, Nat.mul_comm,
    ← Nat.two_pow_add_eq_or_of_lt digits.isLt]
  congr 1
  exact Nat.mul_one _

/-- How far from zero a number is, read off its encoding. -/
theorem unpack_within (bits : BitVec Format.binary64.numBits)
    (finite : unpackExponent bits ≠ -1#_)
    (small : unpackExponent bits = 0#_ → (unpackMantissa bits).toNat ≤ 2 ^ bound)
    (normal : unpackExponent bits ≠ 0#_ →
      (2 ^ 52 + (unpackMantissa bits).toNat) * 2 ^ ((unpackExponent bits).toNat - 1) ≤
        2 ^ bound) :
    Within bound (unpack .binary64 bits) := by
  have bias : ((Format.binary64.exponentBias : Int) +
      Format.binary64.mantissaBitsWithoutImplicit) = 1075 := by
    decide
  simp only [unpack, if_neg finite, bias]
  split
  · rename_i least
    split
    · trivial
    · refine ⟨0, by rw [least]; rfl, ?_⟩
      rw [Nat.pow_zero, Nat.mul_one]
      exact small least
  · rename_i notLeast
    have atLeast : (unpackExponent bits).toNat ≠ 0 := fun isZero =>
      notLeast (BitVec.eq_of_toNat_eq isZero)
    refine ⟨(unpackExponent bits).toNat - 1, by omega, ?_⟩
    rw [toNat_leading]
    exact normal notLeast

/-- The exponent field bounds the distance from zero. -/
theorem unpack_within_of_field (bits : BitVec Format.binary64.numBits)
    (isField : (unpackExponent bits).toNat ≤ field) (finite : field < 2047) :
    Within (field + 52) (unpack .binary64 bits) := by
  have digits := (unpackMantissa bits).isLt
  apply unpack_within
  · intro all
    rw [all] at isField
    exact absurd isField (Nat.not_le.mpr finite)
  · intro _
    apply digits.le.trans
    exact Nat.pow_le_pow_right (by decide) (Nat.le_add_left _ _)
  · intro notLeast
    have atLeast : (unpackExponent bits).toNat ≠ 0 := fun isZero =>
      notLeast (BitVec.eq_of_toNat_eq isZero)
    have leading : 2 ^ 52 + (unpackMantissa bits).toNat ≤ 2 ^ 53 :=
      Nat.add_le_add_left digits.le (2 ^ 52)
    calc
      (2 ^ 52 + (unpackMantissa bits).toNat) * 2 ^ ((unpackExponent bits).toNat - 1)
        ≤ 2 ^ 53 * 2 ^ (field - 1) :=
          Nat.mul_le_mul leading (Nat.pow_le_pow_right (by decide) (by omega))
      _ = 2 ^ (field + 52) := by
          rw [← Nat.pow_add]
          congr 1
          omega

/-- The numbers that are packed here are far from infinity: their exponents fit. -/
theorem unpack_pack_within (within : Within bound number) (moderate : bound ≤ 2045) :
    Within bound (unpack .binary64 (pack .binary64 number)) := by
  cases number with
  | infinity => exact within.elim
  | notANumber => exact within.elim
  | zero sign =>
      show Within bound (unpack .binary64 (packedZero .binary64 sign))
      rw [unpack_packedZero]
      trivial
  | finite sign mantissa exponent positive =>
      obtain ⟨places, isExponent, bounded⟩ := within
      have few : places ≤ bound := by
        have alone := (Nat.le_mul_of_pos_left (2 ^ places) positive).trans bounded
        exact (Nat.pow_le_pow_iff_right (by decide)).mp alone
      have least : mantissa ≤ 2 ^ bound :=
        (Nat.le_mul_of_pos_right mantissa (Nat.two_pow_pos places)).trans bounded
      have field : (exponent + Format.binary64.exponentBias +
          Format.binary64.mantissaBitsWithoutImplicit).toNat = places + 1 := by
        have bias : Format.binary64.exponentBias = 1023 := by decide
        have width : Format.binary64.mantissaBitsWithoutImplicit = 52 := rfl
        rw [isExponent, bias, width]
        omega
      have fits : ¬2 ^ Format.binary64.exponentBits ≤ places + 1 + 1 := by
        show ¬2 ^ 11 ≤ places + 1 + 1
        omega
      simp only [pack, field, if_neg fits]
      split
      · rename_i normal
        have digits : mantissa.log2 = 52 := by
          have count : Format.binary64.mantissaBits = 53 := by decide
          omega
        obtain ⟨lower, upper⟩ := (Nat.log2_eq_iff positive.ne').mp digits
        have isField : (BitVec.ofNat 11 (places + 1)).toNat = places + 1 :=
          Nat.mod_eq_of_lt (by omega)
        have isMantissa : 2 ^ 52 + (BitVec.ofNat 52 mantissa).toNat = mantissa := by
          rw [BitVec.toNat_ofNat]
          omega
        apply unpack_within
        all_goals rw [unpackExponent_packComponents]
        · intro all
          have most : (BitVec.ofNat 11 (places + 1)).toNat = 2047 := congrArg BitVec.toNat all
          omega
        · intro none
          have zero : (BitVec.ofNat 11 (places + 1)).toNat = 0 := congrArg BitVec.toNat none
          omega
        · intro _
          rw [unpackMantissa_packComponents, isMantissa, isField]
          exact bounded
      · apply unpack_within
        all_goals rw [unpackExponent_packComponents]
        · decide
        · intro _
          rw [unpackMantissa_packComponents]
          exact (Nat.mod_le _ _).trans least
        · intro different
          contradiction

/-! ## Sums -/

/-- A 64-bit number is finite, and no further from zero than `2 ^ bound` times the least positive
one. -/
def Close (bound : Nat) (number : Float) : Prop :=
  Within bound number.toModel.unpack

/-- What is close to zero if it is a number. -/
def Tame (bound : Nat) (number : Float) : Prop :=
  number.toModel.unpack = .notANumber ∨ Close bound number

theorem Close.isFinite (close : Close bound first) : first.isFinite = true :=
  Within.isFinite close

theorem Close.add (firstClose : Close bound first) (secondClose : Close smaller second)
    (minor : smaller + 54 ≤ bound) (moderate : bound ≤ 2045) : Close bound (first + second) :=
  unpack_pack_within (add_within firstClose secondClose minor) moderate

/-- What is not a number is handed on by a sum. -/
theorem unpack_pack_add_tame (leftTame : left = .notANumber ∨ Within bound left)
    (rightTame : right = .notANumber ∨ Within smaller right) (minor : smaller + 54 ≤ bound)
    (moderate : bound ≤ 2045) :
    unpack .binary64 (pack .binary64 (add .binary64 left right)) = .notANumber ∨
      Within bound (unpack .binary64 (pack .binary64 (add .binary64 left right))) := by
  rcases leftTame with rfl | leftWithin
  · exact .inl unpack_packedNaN
  · rcases rightTame with rfl | rightWithin
    · have absorbed : add .binary64 left .notANumber = .notANumber := by cases left <;> rfl
      rw [absorbed]
      exact .inl unpack_packedNaN
    · exact .inr (unpack_pack_within (add_within leftWithin rightWithin minor) moderate)

theorem Tame.add (firstTame : Tame bound first) (secondTame : Tame smaller second)
    (minor : smaller + 54 ≤ bound) (moderate : bound ≤ 2045) : Tame bound (first + second) :=
  unpack_pack_add_tame firstTame secondTame minor moderate

theorem unpack_sub (first second : Float) :
    (first - second).toModel.unpack =
      unpack .binary64 (pack .binary64
        (add .binary64 first.toModel.unpack second.toModel.unpack.neg)) := by
  rw [← sub_eq_add_neg]
  rfl

theorem Tame.sub (firstTame : Tame bound first) (secondTame : Tame smaller second)
    (minor : smaller + 54 ≤ bound) (moderate : bound ≤ 2045) : Tame bound (first - second) := by
  unfold Tame Close
  rw [unpack_sub]
  apply unpack_pack_add_tame firstTame _ minor moderate
  rcases secondTame with isNot | close
  · left
    rw [isNot]
    rfl
  · exact .inr close.neg

/-! ## Comparisons -/

theorem lt_iff (first second : Float) :
    first < second ↔ first.toModel.unpack.compare second.toModel.unpack = some .lt := by
  show (Float.lt first second = true) ↔ _
  simp only [Float.lt, decide_eq_true_eq]
  exact beq_iff_eq

theorem le_iff (first second : Float) :
    first ≤ second ↔
      (first.toModel.unpack.compare second.toModel.unpack).any (·.isLE) = true := by
  show (Float.le first second = true) ↔ _
  simp only [Float.le, decide_eq_true_eq]
  rfl

theorem unpack_zero : (0 : Float).toModel.unpack = .zero .positive := by
  have bits : (0 : Float).toModel.toBits = 0 := by decide +kernel
  show unpack .binary64 (0 : Float).toModel.toBits.toBitVec = _
  rw [bits]
  rfl

theorem unpack_epsilon :
    epsilon.toModel.unpack = .finite .positive (2 ^ 52) (-104) (Nat.two_pow_pos 52) := by
  have bits : epsilon.toModel.toBits = 0x3CB0000000000000 := by decide +kernel
  show unpack .binary64 epsilon.toModel.toBits.toBitVec = _
  rw [bits]
  rfl

theorem close_zero (bound : Nat) : Close bound 0 := by
  unfold Close
  rw [unpack_zero]
  trivial

/-- What is not a number has no part above zero. -/
theorem Tame.positivePart (tame : Tame bound first) : Close bound (positivePart first) := by
  unfold Double.positivePart
  split
  · rename_i positive
    apply tame.resolve_left
    intro isNot
    rw [lt_iff, isNot, unpack_zero] at positive
    contradiction
  · exact close_zero bound

/-- A finite number that is not negligible is positive. -/
theorem Close.pos (close : Close bound first) (considerable : ¬first ≤ epsilon) : 0 < first := by
  rw [le_iff, unpack_epsilon] at considerable
  rw [lt_iff, unpack_zero]
  unfold Close at close
  generalize first.toModel.unpack = unpacked at close considerable
  cases unpacked with
  | infinity => exact close.elim
  | notANumber => exact close.elim
  | zero => exact absurd rfl considerable
  | finite sign =>
      cases sign with
      | negative => exact absurd rfl considerable
      | positive => rfl

/-! ## Conversions -/

theorem roundHalfEven_le (numerator denominator : Nat) :
    roundHalfEven numerator denominator ≤ numerator / denominator + 1 := by
  unfold roundHalfEven
  dsimp only
  split
  · exact Nat.le_succ _
  · split
    · exact Nat.le_refl _
    · split
      · exact Nat.le_succ _
      · exact Nat.le_refl _

/-- The binary order of a ratio is the difference of those of its parts, or one less. -/
theorem binaryOrder_bounds (numerator denominator : Nat) :
    (numerator.log2 : Int) - denominator.log2 - 1 ≤ binaryOrder numerator denominator ∧
      binaryOrder numerator denominator ≤ (numerator.log2 : Int) - denominator.log2 := by
  unfold binaryOrder
  simp only [Int.ofNat_eq_natCast]
  split <;> constructor <;> omega

/-- A ratio that is scaled to its last place has at most fifty-four binary digits. -/
theorem coefficient_le {numerator denominator : Nat} {place : Int} (positive : 0 < denominator)
    (isPlace : binaryOrder numerator denominator - 52 ≤ place) :
    roundHalfEven (numerator * powerOfTwo (-place).toNat) (denominator * powerOfTwo place.toNat) ≤
      2 ^ 54 := by
  have order := (binaryOrder_bounds numerator denominator).1
  have scaledPositive : 0 < denominator * powerOfTwo place.toNat :=
    Nat.mul_pos positive (Nat.two_pow_pos _)
  apply (roundHalfEven_le _ _).trans
  apply Nat.succ_le_of_lt
  rw [Nat.div_lt_iff_lt_mul scaledPositive]
  calc
    numerator * 2 ^ (-place).toNat
      < 2 ^ (numerator.log2 + 1) * 2 ^ (-place).toNat :=
        Nat.mul_lt_mul_of_pos_right Nat.lt_log2_self (Nat.two_pow_pos _)
    _ = 2 ^ (numerator.log2 + 1 + (-place).toNat) := (Nat.pow_add _ _ _).symm
    _ ≤ 2 ^ (54 + (denominator.log2 + place.toNat)) :=
        Nat.pow_le_pow_right (by decide) (by omega)
    _ = 2 ^ 54 * (2 ^ denominator.log2 * 2 ^ place.toNat) := by rw [Nat.pow_add, Nat.pow_add]
    _ ≤ 2 ^ 54 * (denominator * 2 ^ place.toNat) :=
        Nat.mul_le_mul_left _ (Nat.mul_le_mul_right _ (Nat.log2_self_le positive.ne'))

/-- A ratio less than `2 ^ 128` has a small encoding. -/
theorem encode_le {numerator denominator : Nat} (below : numerator < 2 ^ 128)
    (positive : 0 < denominator) :
    BinaryFormat.double.encode numerator denominator ≤ 1153 * 2 ^ 52 := by
  unfold BinaryFormat.encode
  split
  · exact Nat.zero_le _
  · rename_i nonzero
    have least : BinaryFormat.double.leastExponent = -1074 := by decide
    have width : (BinaryFormat.double.fractionBits : Int) = 52 := rfl
    have order := (binaryOrder_bounds numerator denominator).2
    have digits : numerator.log2 < 128 := (Nat.log2_lt nonzero).mpr below
    dsimp only
    apply (Nat.min_le_left _ _).trans
    rw [least]
    generalize isPlace : max (binaryOrder numerator denominator -
      BinaryFormat.double.fractionBits) (-1074) = place
    have coefficient := @coefficient_le numerator denominator place positive (by omega)
    have places : (place - -1074).toNat ≤ 1149 := by omega
    calc
      roundHalfEven (numerator * powerOfTwo (-place).toNat) (denominator * powerOfTwo place.toNat) +
          (place - -1074).toNat * powerOfTwo BinaryFormat.double.fractionBits
        ≤ 2 ^ 54 + 1149 * 2 ^ 52 := Nat.add_le_add coefficient (Nat.mul_le_mul_right _ places)
      _ = 1153 * 2 ^ 52 := by decide

/-- A finite 32-bit number is less than `2 ^ 128`. -/
theorem numerator_lt (finite : magnitude < BinaryFormat.single.infinity) :
    (BinaryFormat.single.value magnitude).numerator < 2 ^ 128 := by
  have infinity : BinaryFormat.single.infinity = 255 * 2 ^ 23 := by decide
  have least : BinaryFormat.single.leastExponent = -149 := by decide
  have field : magnitude / powerOfTwo BinaryFormat.single.fractionBits < 255 := by
    show magnitude / 2 ^ 23 < 255
    omega
  have fraction : magnitude % powerOfTwo BinaryFormat.single.fractionBits < 2 ^ 23 :=
    Nat.mod_lt _ (by decide)
  unfold BinaryFormat.value Dyadic.numerator
  dsimp only
  split
  · show _ * 2 ^ (BinaryFormat.single.leastExponent).toNat < _
    rw [least]
    exact (Nat.mul_one _).trans_lt (fraction.trans (by decide))
  · rw [least]
    have leading : powerOfTwo BinaryFormat.single.fractionBits +
        magnitude % powerOfTwo BinaryFormat.single.fractionBits < 2 ^ 24 :=
      Nat.add_lt_add_left fraction (2 ^ 23)
    calc
      _ < 2 ^ 24 * 2 ^ (-149 + ((magnitude / powerOfTwo BinaryFormat.single.fractionBits - 1 : Nat)
            : Int)).toNat := Nat.mul_lt_mul_of_pos_right leading (Nat.two_pow_pos _)
      _ ≤ 2 ^ 24 * 2 ^ 104 :=
        Nat.mul_le_mul_left _ (Nat.pow_le_pow_right (by decide) (by omega))
      _ = 2 ^ 128 := by decide

/-- The exponent field of a magnitude, whatever the sign. -/
theorem field_of_magnitude (negative : Bool) (below : magnitude < (field + 1) * 2 ^ 52)
    (fits : field < 2047) :
    (@unpackExponent .binary64 (UInt64.ofNat
      (if negative then BinaryFormat.double.signWeight + magnitude
        else magnitude)).toBitVec).toNat ≤ field := by
  have sign : BinaryFormat.double.signWeight = 2 ^ 63 := by decide
  have isField : ∀ bits : BitVec 64,
      (@unpackExponent .binary64 bits).toNat = bits.toNat / 2 ^ 52 % 2 ^ 11 := by
    intro bits
    show (bits.extractLsb 62 52).toNat = _
    rw [BitVec.extractLsb_toNat, Nat.shiftRight_eq_div_pow]
  rw [isField]
  show UInt64.toNat _ / 2 ^ 52 % 2 ^ 11 ≤ field
  rw [UInt64.toNat_ofNat', sign]
  cases negative with
  | false =>
      simp only [Bool.false_eq_true, if_false]
      omega
  | true =>
      simp only [if_true]
      omega

/-- What a 32-bit encoding of no number is converted to stands for no number either. -/
theorem unpack_notANumber (negative : Bool) :
    unpack .binary64 (UInt64.ofNat
      (if negative then
        BinaryFormat.double.signWeight + (BinaryFormat.double.infinity + powerOfTwo 51)
      else BinaryFormat.double.infinity + powerOfTwo 51)).toBitVec = .notANumber := by
  cases negative
  all_goals
    unfold unpack
    dsimp only
    rw [if_pos (by decide +kernel), if_neg (by decide +kernel)]

/-- A 32-bit number that is not infinite is close to zero in the 64-bit format. -/
theorem toDouble_tame {number : Float32} (notInfinite : Single.isInfinite number = false) :
    Tame 1205 (Single.toDouble number) := by
  cases isNumber : Single.isNaN number with
  | true =>
      left
      simp only [Single.toDouble, isNumber, if_true]
      show unpack .binary64 (pack .binary64 (unpack .binary64 _)) = _
      rw [unpack_notANumber]
      exact unpack_packedNaN
  | false =>
      right
      have finite : Single.magnitude number < BinaryFormat.single.infinity := by
        have different := of_decide_eq_false notInfinite
        have notAbove := of_decide_eq_false isNumber
        omega
      have positive : 0 < (BinaryFormat.single.value (Single.magnitude number)).denominator :=
        Nat.two_pow_pos _
      have encoded := encode_le (numerator_lt finite) positive
      simp only [Single.toDouble, isNumber, Single.finiteValue?, finite, if_true,
        Bool.false_eq_true, if_false]
      apply unpack_pack_within _ (by decide)
      exact unpack_within_of_field _ (field_of_magnitude _ (by omega) (by decide)) (by decide)

end AttentiveReasoner.Numeric.Double
