import AttentiveReasoner.Proofs.Numeric.Encodings
import AttentiveReasoner.Proofs.Numeric.Order

/-!
Contract: the values of 32-bit and of 64-bit numbers.

Owns:
- what it is for a number to mean a rational;
- sums, differences, products and comparisons of numbers in terms of what they mean;
- numbers that are given by their encoding, or by a ratio;
- conversions between the two formats;
- products within the unit interval;
- that products and quotients of numbers without a sign have none.

Does not own: how far a rounded result is from the exact one.
-/

namespace AttentiveReasoner.Numeric

open Float.Model (UnpackedFloat Format)
open Float.Model.UnpackedFloat
open Binary

/-! ## Signs -/

namespace Binary

variable {format : Format} {magnitude : ℕ}

/-- The value of a magnitude with a sign. -/
def signedValue (format : Format) (negative : Bool) (magnitude : ℕ) : ℚ :=
  if negative then -valueOf format magnitude else valueOf format magnitude

theorem upright_of_pos {negative : Bool} (positive : 0 < signedValue format negative magnitude) :
    negative = false := by
  have nonneg := valueOf_nonneg format magnitude
  cases negative with
  | false => rfl
  | true =>
      rw [signedValue, if_pos rfl] at positive
      linarith

theorem bitsValue_eq (bits : BitVec format.numBits) :
    bitsValue bits =
      signedValue format ((encoding format).signWeight ≤ bits.toNat) (magnitudeOf bits) := by
  rw [bitsValue, signOf_eq, signedValue]
  simp only [decide_eq_true_eq]
  split
  · simp [Sign.apply]
  · simp [Sign.apply]

/-- A number that is given by its sign and its magnitude. -/
theorem denotes_parts (wide : 2 ≤ format.exponentBits) (negative : Bool)
    (finite : magnitude < (encoding format).infinity) :
    Denotes format
      (unpack format (pack format (unpack format (BitVec.ofNat format.numBits
        (if negative then (encoding format).signWeight + magnitude else magnitude)))))
      (signedValue format negative magnitude) := by
  have most : (encoding format).infinity ≤ (encoding format).signWeight := by
    rw [infinity_encoding, signWeight_encoding, Nat.mul_comm]
    exact Nat.mul_le_mul_left _ (Nat.sub_le _ _)
  obtain ⟨isMagnitude, isSign⟩ := @parts_ofNat format magnitude negative (finite.trans_le most)
  have denotes := unpack_denotes wide (BitVec.ofNat format.numBits
    (if negative then (encoding format).signWeight + magnitude else magnitude))
    (by rwa [isMagnitude])
  rw [denotes.unpack_pack]
  rw [bitsValue, isMagnitude, isSign] at denotes
  cases negative with
  | false => simpa [Sign.apply, signedValue] using denotes
  | true => simpa [Sign.apply, signedValue] using denotes

theorem Rounds.signedValue {exact : ℚ} (rounds : Rounds format exact (valueOf format magnitude))
    (negative : Bool) :
    Rounds format (if negative then -exact else exact)
      (signedValue format negative magnitude) := by
  cases negative with
  | false => exact rounds
  | true => exact rounds.neg

end Binary

/-! ## 64-bit numbers -/

namespace Double

variable {first second : Float} {exact left right : ℚ}

/-- A 64-bit number means a rational. -/
def Means (number : Float) (exact : ℚ) : Prop :=
  Denotes .binary64 number.toModel.unpack exact

/-- A number is the rounded result. -/
def Gives (number : Float) (exact : ℚ) : Prop :=
  ∃ rounded, Rounds .binary64 exact rounded ∧ Means number rounded

theorem gives_of_yields {number : UnpackedFloat} (yields : Yields .binary64 number exact) :
    Gives (.ofModel (.pack number)) exact := by
  obtain ⟨rounded, rounds, denotes⟩ := yields
  refine ⟨rounded, rounds, ?_⟩
  show Denotes .binary64 (unpack .binary64 (pack .binary64 number)) rounded
  rw [denotes.unpack_pack]
  exact denotes

theorem Means.add (firstMeans : Means first left) (secondMeans : Means second right)
    (moderate : Moderate .binary64 (left + right)) : Gives (first + second) (left + right) :=
  gives_of_yields (add_yields firstMeans secondMeans moderate)

theorem Means.mul (firstMeans : Means first left) (secondMeans : Means second right)
    (moderate : Moderate .binary64 (left * right)) : Gives (first * second) (left * right) :=
  gives_of_yields (mul_yields firstMeans secondMeans moderate)

theorem Means.sub (firstMeans : Means first left) (secondMeans : Means second right)
    (moderate : Moderate .binary64 (left - right)) : Gives (first - second) (left - right) := by
  have isSum : left - right = left + -right := by ring
  rw [isSum] at moderate ⊢
  have yields := add_yields firstMeans secondMeans.neg moderate
  rw [← sub_eq_add_neg] at yields
  exact gives_of_yields yields

theorem Means.lt_iff (firstMeans : Means first left) (secondMeans : Means second right) :
    first < second ↔ left < right := by
  rw [Double.lt_iff, firstMeans.compare_eq secondMeans, ← compare_lt_iff_lt, Option.some_inj]

theorem Means.le_iff (firstMeans : Means first left) (secondMeans : Means second right) :
    first ≤ second ↔ left ≤ right := by
  rw [Double.le_iff, firstMeans.compare_eq secondMeans, ← compare_le_iff_le]
  generalize compare left right = order
  cases order <;> decide

/-- The number of a sign and a magnitude. -/
theorem means_iff (number : Float) (exact : ℚ) :
    Means number exact ↔ magnitude number < BinaryFormat.double.infinity ∧
      exact = signedValue .binary64 (isNegative number) (magnitude number) := by
  have isValue := @bitsValue_eq .binary64 number.toModel.toBits.toBitVec
  constructor
  · intro means
    obtain ⟨finite, rfl⟩ := means.of_bits (by decide)
    exact ⟨finite, isValue⟩
  · rintro ⟨finite, rfl⟩
    exact isValue ▸ unpack_denotes (by decide) _ finite

theorem means_ofMagnitude {magnitude : ℕ} (negative : Bool)
    (finite : magnitude < BinaryFormat.double.infinity) :
    Means (ofMagnitude negative magnitude) (signedValue .binary64 negative magnitude) :=
  @denotes_parts .binary64 magnitude (by decide) negative finite

end Double

/-! ## 32-bit numbers -/

namespace Single

variable {first second : Float32} {exact left right : ℚ}

/-- A 32-bit number means a rational. -/
def Means (number : Float32) (exact : ℚ) : Prop :=
  Denotes .binary32 number.toModel.unpack exact

/-- A number is the rounded result. -/
def Gives (number : Float32) (exact : ℚ) : Prop :=
  ∃ rounded, Rounds .binary32 exact rounded ∧ Means number rounded

theorem gives_of_yields {number : UnpackedFloat} (yields : Yields .binary32 number exact) :
    Gives (.ofModel (.pack number)) exact := by
  obtain ⟨rounded, rounds, denotes⟩ := yields
  refine ⟨rounded, rounds, ?_⟩
  show Denotes .binary32 (unpack .binary32 (pack .binary32 number)) rounded
  rw [denotes.unpack_pack]
  exact denotes

theorem Means.add (firstMeans : Means first left) (secondMeans : Means second right)
    (moderate : Moderate .binary32 (left + right)) : Gives (first + second) (left + right) :=
  gives_of_yields (add_yields firstMeans secondMeans moderate)

theorem Means.mul (firstMeans : Means first left) (secondMeans : Means second right)
    (moderate : Moderate .binary32 (left * right)) : Gives (first * second) (left * right) :=
  gives_of_yields (mul_yields firstMeans secondMeans moderate)

theorem Means.neg (means : Means first exact) : Means (-first) (-exact) := by
  have denotes := Denotes.neg means
  show Denotes .binary32 (unpack .binary32 (pack .binary32 first.toModel.unpack.neg)) (-exact)
  rw [denotes.unpack_pack]
  exact denotes

/-- The number of a sign and a magnitude. -/
theorem means_iff (number : Float32) (exact : ℚ) :
    Means number exact ↔ magnitude number < BinaryFormat.single.infinity ∧
      exact = signedValue .binary32 (isNegative number) (magnitude number) := by
  have isValue := @bitsValue_eq .binary32 number.toModel.toBits.toBitVec
  constructor
  · intro means
    obtain ⟨finite, rfl⟩ := means.of_bits (by decide)
    exact ⟨finite, isValue⟩
  · rintro ⟨finite, rfl⟩
    exact isValue ▸ unpack_denotes (by decide) _ finite

theorem Means.isNegative_eq_false (means : Means first exact) (positive : 0 < exact) :
    isNegative first = false := by
  obtain ⟨_, rfl⟩ := (means_iff _ _).mp means
  exact upright_of_pos positive

theorem means_ofMagnitude {magnitude : ℕ} (negative : Bool)
    (finite : magnitude < BinaryFormat.single.infinity) :
    Means (ofMagnitude negative magnitude) (signedValue .binary32 negative magnitude) :=
  @denotes_parts .binary32 magnitude (by decide) negative finite

/-- Numbers are compared as what they mean. -/
theorem Means.atMost_iff (firstMeans : Means first left) (secondMeans : Means second right) :
    atMost first second = true ↔ left ≤ right := by
  obtain ⟨firstFinite, rfl⟩ := (means_iff _ _).mp firstMeans
  obtain ⟨secondFinite, rfl⟩ := (means_iff _ _).mp secondMeans
  have firstNumber : isNaN first = false := decide_eq_false (Nat.not_lt.mpr firstFinite.le)
  have secondNumber : isNaN second = false := decide_eq_false (Nat.not_lt.mpr secondFinite.le)
  have firstNonneg := valueOf_nonneg .binary32 (magnitude first)
  have secondNonneg := valueOf_nonneg .binary32 (magnitude second)
  have zero : ∀ magnitude, valueOf .binary32 magnitude ≤ 0 ↔ magnitude ≤ 0 := by
    intro magnitude
    have order := @valueOf_le_iff .binary32 magnitude 0
    rwa [valueOf_zero] at order
  rw [Single.atMost_iff]
  unfold signedMagnitude signedValue
  simp only [firstNumber, secondNumber, true_and]
  split
  · split
    · rw [neg_le_neg_iff, neg_le_neg_iff, valueOf_le_iff]
      omega
    · exact iff_of_true (by omega) (by linarith)
  · split
    · have apart : valueOf .binary32 (magnitude first) ≤ -valueOf .binary32 (magnitude second) ↔
          valueOf .binary32 (magnitude first) ≤ 0 ∧ valueOf .binary32 (magnitude second) ≤ 0 := by
        constructor
        · intro atMost
          constructor <;> linarith
        · rintro ⟨_, _⟩
          linarith
      rw [apart, zero, zero]
      omega
    · rw [valueOf_le_iff]
      omega

end Single

/-! ## Whole numbers -/

theorem onGrid_whole {format : Format} {count : ℕ}
    (digits : count < 2 ^ (format.mantissaBitsWithoutImplicit + 1)) : OnGrid format count :=
  ⟨count, 0, digits, minExponent_nonpos format, by simp⟩

/-- A whole number that the format has room for is encoded as it is. -/
theorem encode_whole {format : Format} {count : ℕ}
    (digits : count < 2 ^ (format.mantissaBitsWithoutImplicit + 1))
    (moderate : Moderate format (count : ℚ)) :
    valueOf format ((encoding format).encode count 1) = count ∧
      (encoding format).encode count 1 < (encoding format).infinity := by
  have whole : ((count : ℕ) : ℚ) / (1 : ℕ) = count := by simp
  rw [← whole] at moderate
  obtain ⟨rounds, finite⟩ := encode_rounds Nat.one_pos moderate
  rw [whole] at rounds
  exact ⟨rounds.eq_of_onGrid (onGrid_whole digits), finite⟩

theorem moderate_whole {format : Format} {count places : ℕ} (below : count < 2 ^ places)
    (fits : (places : ℤ) ≤ maxExponent format) : Moderate format (count : ℚ) := by
  refine ⟨places, (minExponent_nonpos format).trans (Int.natCast_nonneg _), fits, ?_⟩
  rw [abs_of_nonneg (Nat.cast_nonneg _)]
  exact_mod_cast below.le

theorem Single.means_ofNat {count : ℕ} (digits : count < 2 ^ 24) :
    Single.Means (Single.ofNat count) count := by
  obtain ⟨isWhole, finite⟩ := @encode_whole .binary32 count digits
    (moderate_whole digits (by decide))
  have means := Single.means_ofMagnitude false finite
  rwa [signedValue, if_neg Bool.false_ne_true, isWhole] at means

theorem Double.means_ofRatio {count : ℕ} (negative : Bool) (digits : count < 2 ^ 53) :
    Double.Means (Double.ofRatio negative count 1) (if negative then -count else count) := by
  obtain ⟨isWhole, finite⟩ := @encode_whole .binary64 count digits
    (moderate_whole digits (by decide))
  have means := Double.means_ofMagnitude negative finite
  rwa [signedValue, isWhole] at means

theorem Single.means_zero : Single.Means Single.zero 0 := by
  have means := @Single.means_ofMagnitude 0 false (by decide)
  rwa [signedValue, if_neg Bool.false_ne_true, valueOf_zero] at means

theorem Single.means_one : Single.Means Single.one 1 := by
  exact_mod_cast @Single.means_ofNat 1 (by decide)

/-! ## The unit interval -/

namespace Single

variable {number factor : Float32}

/-- A number from zero up has no greater magnitude than the end of its interval. -/
theorem Between.magnitude_le {limit : Float32} (between : Between zero limit number)
    (limitUpright : isNegative limit = false) : magnitude number ≤ magnitude limit := by
  have nonneg := between.signedMagnitude_nonneg
  have most := ((atMost_iff _ _).mp between.atMost_upper).2.2
  unfold signedMagnitude at nonneg most
  rw [limitUpright, if_neg Bool.false_ne_true] at most
  by_cases negative : isNegative number = true
  · rw [if_pos negative] at nonneg
    omega
  · rw [if_neg negative] at most
    omega

/-- A number of the unit interval means a rational of it. -/
theorem Between.means (between : Between zero one number) :
    ∃ exact, Means number exact ∧ 0 ≤ exact ∧ exact ≤ 1 := by
  have finite : magnitude number < BinaryFormat.single.infinity :=
    (between.magnitude_le (by decide)).trans_lt (by decide)
  have means := (means_iff number _).mpr ⟨finite, rfl⟩
  exact ⟨_, means, (means_zero.atMost_iff means).mp between.lower_atMost,
    (means.atMost_iff means_one).mp between.atMost_upper⟩

/-- A factor of the unit interval does not enlarge a number of it. -/
theorem Between.mul (between : Between zero one number) (factorBetween : Between zero one factor) :
    Between zero number (number * factor) := by
  obtain ⟨exact, means, nonneg, atMost⟩ := between.means
  obtain ⟨factorExact, factorMeans, factorNonneg, factorAtMost⟩ := factorBetween.means
  have productNonneg : 0 ≤ exact * factorExact := mul_nonneg nonneg factorNonneg
  have productAtMost : exact * factorExact ≤ exact := mul_le_of_le_one_right nonneg factorAtMost
  have moderate : Moderate .binary32 (exact * factorExact) := by
    refine ⟨0, by decide, by decide, ?_⟩
    rw [abs_of_nonneg productNonneg, zpow_zero]
    exact productAtMost.trans atMost
  obtain ⟨rounded, rounds, productMeans⟩ := means.mul factorMeans moderate
  constructor
  · exact (means_zero.atMost_iff productMeans).mpr (rounds.ge 0 (onGrid_zero _) productNonneg)
  · exact (productMeans.atMost_iff means).mpr (rounds.le exact means.onGrid productAtMost)

end Single

/-! ## Numbers without a sign -/

namespace Binary

variable {format : Format} {left right : UnpackedFloat}

/-- The sign is not set. What is not a number has none. -/
def Upright : UnpackedFloat → Prop
  | .notANumber => True
  | .infinity sign => sign = .positive
  | .zero sign => sign = .positive
  | .finite sign _ _ _ => sign = .positive

theorem upright_unpack {bits : BitVec format.numBits} (positive : signOf bits = .positive) :
    Upright (unpack format bits) := by
  unfold signOf at positive
  unfold unpack
  dsimp only
  rw [positive]
  split
  · split
    · rfl
    · trivial
  · split
    · split
      · rfl
      · rfl
    · rfl

theorem Upright.signOf_pack {number : UnpackedFloat} (upright : Upright number) :
    signOf (pack format number) = .positive := by
  cases number with
  | notANumber => exact signOf_packComponents ..
  | infinity sign =>
      obtain rfl : sign = .positive := upright
      exact signOf_packComponents ..
  | zero sign =>
      obtain rfl : sign = .positive := upright
      exact signOf_packComponents ..
  | finite sign mantissa exponent positive =>
      obtain rfl : sign = .positive := upright
      unfold pack
      dsimp only
      split
      · exact signOf_packComponents ..
      · split
        · exact signOf_packComponents ..
        · exact signOf_packComponents ..

theorem upright_roundWithAccuracy (mantissa : ℕ) (exponent : ℤ) (accuracy : Accuracy) :
    Upright (roundWithAccuracy format .positive mantissa exponent accuracy) := by
  unfold roundWithAccuracy
  dsimp only
  split
  · rfl
  · rfl

theorem Upright.mul (leftUpright : Upright left) (rightUpright : Upright right) :
    Upright (UnpackedFloat.mul format left right) := by
  cases left <;> cases right <;> try trivial
  all_goals
    obtain rfl := leftUpright
    obtain rfl := rightUpright
    first
    | rfl
    | exact upright_roundWithAccuracy _ _ _

theorem Upright.div (leftUpright : Upright left) (rightUpright : Upright right) :
    Upright (UnpackedFloat.div format left right) := by
  cases left <;> cases right <;> try trivial
  all_goals
    obtain rfl := leftUpright
    obtain rfl := rightUpright
    first
    | rfl
    | exact upright_roundWithAccuracy _ _ _

end Binary

namespace Single

variable {left right : Float32}

theorem isNegative_eq_false_iff (number : Float32) :
    isNegative number = false ↔
      @signOf .binary32 number.toModel.toBits.toBitVec = .positive := by
  have isSign := @signOf_eq .binary32 number.toModel.toBits.toBitVec
  rw [isSign]
  unfold isNegative
  rw [decide_eq_false_iff_not]
  constructor
  · exact fun clear => if_neg clear
  · intro positive set
    have negative := if_pos set ▸ positive
    contradiction

theorem isNegative_ofMagnitude {magnitude : ℕ} (fits : magnitude ≤ BinaryFormat.single.infinity) :
    isNegative (ofMagnitude false magnitude) = false := by
  have less : magnitude < (encoding .binary32).signWeight := fits.trans_lt (by decide)
  obtain ⟨_, isSign⟩ := @parts_ofNat .binary32 magnitude false less
  rw [isNegative_eq_false_iff]
  exact (upright_unpack isSign).signOf_pack

theorem isNegative_ofNat (count : ℕ) : isNegative (ofNat count) = false := by
  apply isNegative_ofMagnitude
  unfold BinaryFormat.encode
  split
  · exact Nat.zero_le _
  · exact Nat.min_le_right _ _

/-- What is not a number makes a product that is not one. -/
theorem isNaN_mul {factor : Float32} (number : Float32)
    (isNothing : factor.toModel.unpack = .notANumber) : isNaN (number * factor) = true := by
  have product : number * factor = .ofModel (.pack .notANumber) := by
    show Float32.ofModel (.pack (UnpackedFloat.mul .binary32 number.toModel.unpack
      factor.toModel.unpack)) = _
    rw [isNothing]
    cases number.toModel.unpack <;> rfl
  rw [product]
  decide

theorem isNegative_mul (leftClear : isNegative left = false)
    (rightClear : isNegative right = false) : isNegative (left * right) = false := by
  rw [isNegative_eq_false_iff] at leftClear rightClear ⊢
  exact ((upright_unpack leftClear).mul (upright_unpack rightClear)).signOf_pack

theorem isNegative_div (leftClear : isNegative left = false)
    (rightClear : isNegative right = false) : isNegative (left / right) = false := by
  rw [isNegative_eq_false_iff] at leftClear rightClear ⊢
  exact ((upright_unpack leftClear).div (upright_unpack rightClear)).signOf_pack

end Single

/-! ## Conversions -/

theorem onGrid_widen {exact : ℚ} (onGrid : OnGrid .binary32 exact) : OnGrid .binary64 exact := by
  obtain ⟨mantissa, exponent, digits, least, rfl⟩ := onGrid
  have smaller : Format.binary64.minExponent ≤ Format.binary32.minExponent := by decide
  exact ⟨mantissa, exponent, digits.trans (by decide), smaller.trans least, rfl⟩

theorem encoding_binary32 : encoding .binary32 = .single :=
  rfl

theorem encoding_binary64 : encoding .binary64 = .double :=
  rfl

theorem valueOf_binary32 (magnitude : ℕ) :
    valueOf .binary32 magnitude = ((BinaryFormat.single.value magnitude).numerator : ℚ) /
      (BinaryFormat.single.value magnitude).denominator :=
  (Dyadic.numerator_div_denominator _).symm

theorem valueOf_binary64 (magnitude : ℕ) :
    valueOf .binary64 magnitude = ((BinaryFormat.double.value magnitude).numerator : ℚ) /
      (BinaryFormat.double.value magnitude).denominator :=
  (Dyadic.numerator_div_denominator _).symm

theorem valueOf_le_limit {magnitude : ℕ} (finite : magnitude < BinaryFormat.single.infinity) :
    valueOf .binary32 magnitude ≤ 2 ^ (128 : ℤ) := by
  have isInfinity := valueOf_infinity .binary32
  have power : maxExponent .binary32 + 1 +
      (Format.binary32.mantissaBitsWithoutImplicit : ℤ) = 128 := by
    decide
  rw [power] at isInfinity
  rw [← isInfinity]
  exact (valueOf_lt finite).le

/-- A 32-bit number means the same in the 64-bit format. -/
theorem Single.Means.toDouble {number : Float32} {exact : ℚ} (means : Single.Means number exact) :
    Double.Means (Single.toDouble number) exact := by
  obtain ⟨finite, rfl⟩ := (Single.means_iff _ _).mp means
  have isNumber : Single.isNaN number = false := decide_eq_false (Nat.not_lt.mpr finite.le)
  have isRatio := valueOf_binary32 (Single.magnitude number)
  have positive : 0 < (BinaryFormat.single.value (Single.magnitude number)).denominator :=
    Nat.two_pow_pos _
  have bounded : |valueOf .binary32 (Single.magnitude number)| ≤ 2 ^ (128 : ℤ) := by
    rw [abs_of_nonneg (valueOf_nonneg _ _)]
    exact valueOf_le_limit finite
  have moderate : Moderate .binary64
      ((BinaryFormat.single.value (Single.magnitude number)).numerator /
        (BinaryFormat.single.value (Single.magnitude number)).denominator) := by
    rw [← isRatio]
    exact ⟨128, by decide, by decide, bounded⟩
  obtain ⟨rounds, wideFinite⟩ := encode_rounds positive moderate
  rw [← isRatio] at rounds
  rw [encoding_binary64] at rounds wideFinite
  have same := rounds.eq_of_onGrid (onGrid_widen (onGrid_valueOf .binary32 _))
  have wide := Double.means_ofMagnitude (Single.isNegative number) wideFinite
  unfold signedValue at wide ⊢
  rw [same] at wide
  have isDouble : Single.toDouble number = Double.ofMagnitude (Single.isNegative number)
      (BinaryFormat.double.encode (BinaryFormat.single.value (Single.magnitude number)).numerator
        (BinaryFormat.single.value (Single.magnitude number)).denominator) := by
    unfold Single.toDouble Single.finiteValue? Double.ofMagnitude
    simp only [isNumber, Bool.false_eq_true, if_false, if_pos finite]
  rw [isDouble]
  exact wide

theorem Double.toSingle_eq {number : Float}
    (finite : Double.magnitude number < BinaryFormat.double.infinity) :
    Double.toSingle number = Single.ofMagnitude (Double.isNegative number)
      (BinaryFormat.single.encode (BinaryFormat.double.value (Double.magnitude number)).numerator
        (BinaryFormat.double.value (Double.magnitude number)).denominator) := by
  unfold Double.toSingle
  dsimp only
  rw [if_neg (Nat.not_lt.mpr finite.le), if_neg finite.ne]

/-- The nearest 32-bit number is a rounded one. -/
theorem Double.Means.toSingle {number : Float} {exact : ℚ} (means : Double.Means number exact)
    (moderate : Moderate .binary32 exact) : Single.Gives (Double.toSingle number) exact := by
  obtain ⟨finite, rfl⟩ := (Double.means_iff _ _).mp means
  have isRatio := valueOf_binary64 (Double.magnitude number)
  have positive : 0 < (BinaryFormat.double.value (Double.magnitude number)).denominator :=
    Nat.two_pow_pos _
  have ratioModerate : Moderate .binary32
      ((BinaryFormat.double.value (Double.magnitude number)).numerator /
        (BinaryFormat.double.value (Double.magnitude number)).denominator) := by
    obtain ⟨exponent, least, most, bounded⟩ := moderate
    refine ⟨exponent, least, most, ?_⟩
    rw [← isRatio]
    unfold signedValue at bounded
    split at bounded
    · rwa [abs_neg] at bounded
    · exact bounded
  obtain ⟨rounds, narrowFinite⟩ := encode_rounds positive ratioModerate
  rw [← isRatio] at rounds
  rw [encoding_binary32] at rounds narrowFinite
  refine ⟨_, rounds.signedValue (Double.isNegative number), ?_⟩
  have narrow := Single.means_ofMagnitude (Double.isNegative number) narrowFinite
  rw [Double.toSingle_eq finite]
  exact narrow

end AttentiveReasoner.Numeric
