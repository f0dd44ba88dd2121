import AttentiveReasoner.Proofs.Numeric.Rounding

/-!
Contract: the numbers of a binary format, their exact values, and results that are rounded to them.

Owns:
- mantissas in canonical form, and the rational that a number of a format denotes;
- what it is to be rounded: whatever has a mantissa of the format and bounds the exact result bounds
  the rounded one;
- products and sums of numbers, which are rounded;
- comparisons of numbers, which are those of the rationals.

Does not own: encodings, and by how much a result is changed when it is rounded.

Nothing here is about the nearest number. It is enough that rounding does not cross a number of the
format, because the bounds of interest are such numbers: zero, one, an operand.
-/

namespace AttentiveReasoner.Numeric.Binary

open Float.Model (UnpackedFloat Format totalExponent)
open Float.Model.UnpackedFloat
open Double (cutOff mantissa_cutOff rounded_half)

variable {format : Format} {mantissa otherMantissa count rounded : ℕ}
  {exponent otherExponent place : ℤ} {exact result bound : ℚ} {sign : Sign}

/-! ## Numbers -/

/-- The largest exponent that has an encoding. -/
def maxExponent (format : Format) : ℤ :=
  2 ^ format.exponentBits - 2 - (format.exponentBias + format.mantissaBitsWithoutImplicit)

/-- The mantissa has no more places than the format, and all of them unless the exponent is the
least one. -/
structure Canonical (format : Format) (mantissa : ℕ) (exponent : ℤ) : Prop where
  mantissa_lt : mantissa < 2 ^ (format.mantissaBitsWithoutImplicit + 1)
  least_le : format.minExponent ≤ exponent
  leading : exponent = format.minExponent ∨ 2 ^ format.mantissaBitsWithoutImplicit ≤ mantissa

/-- A number of a format denotes a rational. What is infinite, or not a number, denotes nothing. -/
inductive Denotes (format : Format) : UnpackedFloat → ℚ → Prop
  | zero (sign : Sign) : Denotes format (.zero sign) 0
  | finite (sign : Sign) (mantissa : ℕ) (exponent : ℤ) (positive : 0 < mantissa)
      (canonical : Canonical format mantissa exponent) (fits : exponent ≤ maxExponent format) :
      Denotes format (.finite sign mantissa exponent positive)
        ((sign.apply mantissa : ℤ) * 2 ^ exponent)

/-- What can be written with a mantissa of the format. -/
def OnGrid (format : Format) (bound : ℚ) : Prop :=
  ∃ mantissa exponent : ℤ, mantissa.natAbs < 2 ^ (format.mantissaBitsWithoutImplicit + 1) ∧
    format.minExponent ≤ exponent ∧ bound = mantissa * 2 ^ exponent

theorem OnGrid.neg (onGrid : OnGrid format bound) : OnGrid format (-bound) := by
  obtain ⟨mantissa, exponent, digits, least, rfl⟩ := onGrid
  refine ⟨-mantissa, exponent, by rwa [Int.natAbs_neg], least, ?_⟩
  rw [Int.cast_neg, neg_mul]

theorem onGrid_zero (format : Format) : OnGrid format 0 :=
  ⟨0, format.minExponent, Nat.two_pow_pos _, le_rfl, by simp⟩

theorem onGrid_pow (least : format.minExponent ≤ exponent) : OnGrid format (2 ^ exponent) := by
  refine ⟨1, exponent, ?_, least, by simp⟩
  exact Nat.one_lt_two_pow (Nat.succ_ne_zero _)

theorem Denotes.onGrid {number : UnpackedFloat} (denotes : Denotes format number exact) :
    OnGrid format exact := by
  cases denotes with
  | zero sign => exact onGrid_zero format
  | finite sign mantissa exponent positive canonical fits =>
      refine ⟨sign.apply mantissa, exponent, ?_, canonical.least_le, rfl⟩
      rw [Double.natAbs_apply]
      exact canonical.mantissa_lt

theorem Denotes.neg {number : UnpackedFloat} (denotes : Denotes format number exact) :
    Denotes format number.neg (-exact) := by
  cases denotes with
  | zero sign =>
      rw [neg_zero]
      exact .zero _
  | finite sign mantissa exponent positive canonical fits =>
      have opposite : (((-sign).apply mantissa : ℤ) : ℚ) = -((sign.apply mantissa : ℤ) : ℚ) := by
        cases sign
        · exact (congrArg Int.cast (Int.neg_neg (mantissa : ℤ)).symm).trans (Int.cast_neg _)
        · exact Int.cast_neg _
      have denotes := Denotes.finite (-sign) mantissa exponent positive canonical fits
      rw [opposite, neg_mul] at denotes
      exact denotes

/-! ## Rounding -/

/-- Whatever is on the grid and bounds the exact result bounds the rounded one. -/
structure Rounds (format : Format) (exact rounded : ℚ) : Prop where
  le : ∀ bound, OnGrid format bound → exact ≤ bound → rounded ≤ bound
  ge : ∀ bound, OnGrid format bound → bound ≤ exact → bound ≤ rounded

theorem Rounds.refl (format : Format) (exact : ℚ) : Rounds format exact exact :=
  ⟨fun _ _ atMost => atMost, fun _ _ atLeast => atLeast⟩

/-- A result that is on the grid is not changed. -/
theorem Rounds.eq_of_onGrid (rounds : Rounds format exact result) (onGrid : OnGrid format exact) :
    result = exact :=
  le_antisymm (rounds.le exact onGrid le_rfl) (rounds.ge exact onGrid le_rfl)

theorem Rounds.neg (rounds : Rounds format exact result) : Rounds format (-exact) (-result) where
  le := by
    intro bound onGrid atMost
    exact neg_le.mp (rounds.ge (-bound) onGrid.neg (neg_le.mp atMost))
  ge := by
    intro bound onGrid atLeast
    exact le_neg.mp (rounds.le (-bound) onGrid.neg (le_neg.mp atLeast))

theorem apply_cast (sign : Sign) (count : ℤ) :
    ((sign.apply count : ℤ) : ℚ) = (sign.apply 1 : ℤ) * count := by
  cases sign with
  | negative => simp [Sign.apply]
  | positive => simp [Sign.apply]

theorem Rounds.signed (rounds : Rounds format exact result) (sign : Sign) :
    Rounds format ((sign.apply 1 : ℤ) * exact) ((sign.apply 1 : ℤ) * result) := by
  cases sign with
  | negative => simpa [Sign.apply] using rounds.neg
  | positive => simpa [Sign.apply] using rounds

theorem two_zpow_pos (exponent : ℤ) : (0 : ℚ) < 2 ^ exponent :=
  zpow_pos two_pos exponent

theorem zpow_add_toNat (le : place ≤ exponent) :
    (2 : ℚ) ^ exponent = 2 ^ (exponent - place).toNat * 2 ^ place := by
  rw [← zpow_natCast, Int.toNat_of_nonneg (Int.sub_nonneg.mpr le),
    ← zpow_add₀ (two_ne_zero), Int.sub_add_cancel]

/-- A mantissa of the format at a lower place is less than the leading place. -/
theorem lt_leading_place (digits : mantissa < 2 ^ (format.mantissaBitsWithoutImplicit + 1))
    (lower : exponent < place) :
    (mantissa : ℚ) * 2 ^ exponent < 2 ^ format.mantissaBitsWithoutImplicit * 2 ^ place := by
  calc
    (mantissa : ℚ) * 2 ^ exponent
      < 2 ^ (format.mantissaBitsWithoutImplicit + 1) * 2 ^ exponent := by
        apply mul_lt_mul_of_pos_right _ (two_zpow_pos _)
        exact_mod_cast digits
    _ = 2 ^ format.mantissaBitsWithoutImplicit * 2 ^ (exponent + 1) := by
        rw [zpow_add₀ two_ne_zero, pow_succ]
        ring
    _ ≤ 2 ^ format.mantissaBitsWithoutImplicit * 2 ^ place := by
        apply mul_le_mul_of_nonneg_left _ (by positivity)
        exact zpow_le_zpow_right₀ one_le_two lower

/-- A mantissa is rounded at a place. Numbers with all their places there, and with more, are kept
apart by the places; those with fewer are below everything that has a leading place. -/
theorem rounds_of_place
    (leading : place = format.minExponent ∨
      2 ^ format.mantissaBitsWithoutImplicit * 2 ^ place ≤ exact)
    (above : ∀ bound : ℕ, exact ≤ bound * 2 ^ place → rounded ≤ bound)
    (below : ∀ bound : ℕ, bound * 2 ^ place ≤ exact → bound ≤ rounded)
    (nonneg : 0 ≤ exact) : Rounds format exact (rounded * 2 ^ place) := by
  have places := two_zpow_pos place
  have roundedNonneg : (0 : ℚ) ≤ rounded * 2 ^ place := by positivity
  -- A bound that is not negative is a multiple of the place, or less than the leading place.
  have cases : ∀ bound, OnGrid format bound → 0 ≤ bound →
      (∃ count : ℕ, bound = count * 2 ^ place) ∨
        format.minExponent < place ∧
          bound < 2 ^ format.mantissaBitsWithoutImplicit * 2 ^ place := by
    rintro bound ⟨mantissa, exponent, digits, exponentLeast, rfl⟩ boundNonneg
    have mantissaNonneg : 0 ≤ mantissa := by
      exact_mod_cast nonneg_of_mul_nonneg_left boundNonneg (two_zpow_pos exponent)
    obtain ⟨mantissa, rfl⟩ := Int.eq_ofNat_of_zero_le mantissaNonneg
    rcases le_or_gt place exponent with isMultiple | isLess
    · left
      refine ⟨mantissa * 2 ^ (exponent - place).toNat, ?_⟩
      rw [zpow_add_toNat isMultiple]
      push_cast
      ring
    · right
      refine ⟨exponentLeast.trans_lt isLess, ?_⟩
      exact lt_leading_place (by exact_mod_cast digits) isLess
  constructor
  case le =>
    intro bound onGrid atMost
    rcases cases bound onGrid (nonneg.trans atMost) with ⟨count, rfl⟩ | ⟨notLeast, isLess⟩
    · apply mul_le_mul_of_nonneg_right _ places.le
      exact_mod_cast above count atMost
    · have leads := leading.resolve_left (ne_of_gt notLeast)
      exact absurd (leads.trans atMost) (not_le.mpr isLess)
  case ge =>
    intro bound onGrid atLeast
    rcases le_or_gt 0 bound with boundNonneg | negative
    · rcases cases bound onGrid boundNonneg with ⟨count, rfl⟩ | ⟨notLeast, isLess⟩
      · apply mul_le_mul_of_nonneg_right _ places.le
        exact_mod_cast below count atLeast
      · have leads := leading.resolve_left (ne_of_gt notLeast)
        have kept := below (2 ^ format.mantissaBitsWithoutImplicit) (by exact_mod_cast leads)
        apply isLess.le.trans
        apply mul_le_mul_of_nonneg_right _ places.le
        exact_mod_cast kept
    · exact negative.le.trans roundedNonneg

/-! ## Cutting off places -/

theorem rounded_le_of_le {bound : ℕ} (le : mantissa ≤ bound * 2 ^ count) :
    (cutOff mantissa count).roundedMantissa ≤ bound := by
  have half := rounded_half mantissa count
  have less : 2 * (cutOff mantissa count).roundedMantissa * 2 ^ count <
      (2 * bound + 2) * 2 ^ count := by
    calc
      2 * (cutOff mantissa count).roundedMantissa * 2 ^ count ≤ 2 * mantissa + 2 ^ count := half
      _ ≤ 2 * (bound * 2 ^ count) + 2 ^ count := by omega
      _ < (2 * bound + 2) * 2 ^ count := by
        have places := Nat.two_pow_pos count
        linarith
  have fewer := Nat.lt_of_mul_lt_mul_right less
  omega

theorem mantissa_le_rounded (extended : ExtendedMantissa) :
    extended.mantissa ≤ extended.roundedMantissa := by
  obtain ⟨mantissa, roundBit, stickyBit⟩ := extended
  cases roundBit <;> cases stickyBit <;>
    simp [ExtendedMantissa.roundedMantissa, ExtendedMantissa.accuracy,
      Accuracy.roundToNearestEven]

theorem le_rounded_of_le {bound : ℕ} (le : bound * 2 ^ count ≤ mantissa) :
    bound ≤ (cutOff mantissa count).roundedMantissa := by
  apply le_trans _ (mantissa_le_rounded _)
  rw [mantissa_cutOff]
  exact (Nat.le_div_iff_mul_le (Nat.two_pow_pos _)).mpr le

/-- The last place that the format keeps of a number. -/
def lastPlace (format : Format) (mantissa : ℕ) (exponent : ℤ) : ℤ :=
  format.targetExponent (totalExponent mantissa exponent)

theorem lastPlace_eq (format : Format) (mantissa : ℕ) (exponent : ℤ) :
    lastPlace format mantissa exponent =
      max (mantissa.log2 + exponent - format.mantissaBitsWithoutImplicit) format.minExponent := by
  unfold lastPlace Format.targetExponent totalExponent Format.mantissaBits
  congr 1
  omega

theorem shiftToTargetExponent_eq (format : Format) (mantissa : ℕ) (exponent : ℤ) :
    shiftToTargetExponent format mantissa exponent .exact =
      (cutOff mantissa (lastPlace format mantissa exponent - exponent).toNat,
        exponent + (lastPlace format mantissa exponent - exponent).toNat) :=
  rfl

/-- Where all the places of the format are used, a number is at least as large as its leading
place. -/
theorem leading_le (positive : 0 < mantissa)
    (kept : exponent ≤ lastPlace format mantissa exponent) :
    lastPlace format mantissa exponent = format.minExponent ∨
      2 ^ format.mantissaBitsWithoutImplicit *
        2 ^ (lastPlace format mantissa exponent - exponent).toNat ≤ mantissa := by
  rcases eq_or_ne (lastPlace format mantissa exponent) format.minExponent with least | notLeast
  · exact .inl least
  · right
    have isPlace := lastPlace_eq format mantissa exponent
    rw [← Nat.pow_add]
    apply le_trans (Nat.pow_le_pow_right (by decide) _) (Nat.log2_self_le positive.ne')
    omega

/-- A mantissa is rounded where the places of the format end. -/
theorem rounds_cutOff (positive : 0 < mantissa)
    (kept : exponent ≤ lastPlace format mantissa exponent) :
    Rounds format (mantissa * 2 ^ exponent)
      ((cutOff mantissa (lastPlace format mantissa exponent - exponent).toNat).roundedMantissa *
        2 ^ lastPlace format mantissa exponent) := by
  have places := two_zpow_pos exponent
  have leading := leading_le positive kept
  have scale := zpow_add_toNat kept
  generalize (lastPlace format mantissa exponent - exponent).toNat = count at leading scale ⊢
  have scaled : ∀ bound : ℕ, (bound : ℚ) * 2 ^ lastPlace format mantissa exponent =
      ((bound * 2 ^ count : ℕ) : ℚ) * 2 ^ exponent := by
    intro bound
    rw [scale]
    push_cast
    ring
  apply rounds_of_place
  · apply leading.imp_right
    intro leads
    have whole := scaled (2 ^ format.mantissaBitsWithoutImplicit)
    push_cast at whole
    rw [whole]
    apply mul_le_mul_of_nonneg_right _ places.le
    exact_mod_cast leads
  · intro bound atMost
    rw [scaled] at atMost
    apply rounded_le_of_le
    exact_mod_cast le_of_mul_le_mul_right atMost places
  · intro bound atLeast
    rw [scaled] at atLeast
    apply le_rounded_of_le
    exact_mod_cast le_of_mul_le_mul_right atLeast places
  · positivity

/-- Rounding may bring about one place more than the format has. It is a zero, and is cut off
again. -/
theorem shift_rounded (digits : rounded ≤ 2 ^ (format.mantissaBitsWithoutImplicit + 1))
    (least : format.minExponent ≤ place)
    (leading : place = format.minExponent ∨ 2 ^ format.mantissaBitsWithoutImplicit ≤ rounded) :
    ∃ extended exponent, shiftToTargetExponent format rounded place .exact = (extended, exponent) ∧
      Canonical format extended.mantissa exponent ∧
        (extended.mantissa : ℚ) * 2 ^ exponent = rounded * 2 ^ place := by
  have isPlace := lastPlace_eq format rounded place
  refine ⟨_, _, shiftToTargetExponent_eq format rounded place, ?_⟩
  rw [mantissa_cutOff]
  rcases digits.lt_or_eq with fewer | rfl
  · have kept : (lastPlace format rounded place - place).toNat = 0 := by
      rcases Nat.eq_zero_or_pos rounded with rfl | positive
      · rw [Nat.log2_zero] at isPlace
        omega
      · have order := (Nat.log2_lt positive.ne').mpr fewer
        omega
    rw [kept, Nat.pow_zero, Nat.div_one, Nat.cast_zero, add_zero]
    exact ⟨⟨fewer, least, leading⟩, rfl⟩
  · rw [Nat.log2_two_pow] at isPlace
    have again : (lastPlace format (2 ^ (format.mantissaBitsWithoutImplicit + 1)) place -
        place).toNat = 1 := by
      omega
    have half : 2 ^ (format.mantissaBitsWithoutImplicit + 1) / 2 ^ 1 =
        2 ^ format.mantissaBitsWithoutImplicit := by
      rw [pow_one, Nat.pow_succ, Nat.mul_div_cancel _ two_pos]
    rw [again, half, Nat.cast_one]
    refine ⟨⟨Nat.pow_lt_pow_right (by decide) (Nat.lt_succ_self _), by omega, .inr le_rfl⟩, ?_⟩
    rw [zpow_add₀ two_ne_zero]
    push_cast
    ring

/-! ## Results -/

/-- What is within a power of two that the format has. -/
def Moderate (format : Format) (exact : ℚ) : Prop :=
  ∃ exponent, format.minExponent ≤ exponent ∧ exponent ≤ maxExponent format ∧
    |exact| ≤ 2 ^ exponent

/-- A number is the rounded result. -/
def Yields (format : Format) (number : UnpackedFloat) (exact : ℚ) : Prop :=
  ∃ rounded, Rounds format exact rounded ∧ Denotes format number rounded

theorem Denotes.yields {number : UnpackedFloat} (denotes : Denotes format number exact) :
    Yields format number exact :=
  ⟨exact, .refl format exact, denotes⟩

theorem abs_apply (sign : Sign) (mantissa : ℕ) (exponent : ℤ) :
    |((sign.apply mantissa : ℤ) : ℚ) * 2 ^ exponent| = mantissa * 2 ^ exponent := by
  rw [abs_mul, abs_of_pos (two_zpow_pos exponent), ← Int.cast_abs, ← Int.natCast_natAbs,
    Double.natAbs_apply, Int.cast_natCast]

theorem roundWithAccuracy_yields (sign : Sign) (positive : 0 < mantissa)
    (kept : exponent ≤ lastPlace format mantissa exponent)
    (moderate : Moderate format ((sign.apply mantissa : ℤ) * 2 ^ exponent)) :
    Yields format (roundWithAccuracy format sign mantissa exponent .exact)
      ((sign.apply mantissa : ℤ) * 2 ^ exponent) := by
  have rounds := rounds_cutOff positive kept
  have isPlace := lastPlace_eq format mantissa exponent
  have isCount : exponent + (lastPlace format mantissa exponent - exponent).toNat =
      lastPlace format mantissa exponent := by
    omega
  have digits : (cutOff mantissa
      (lastPlace format mantissa exponent - exponent).toNat).roundedMantissa ≤
        2 ^ (format.mantissaBitsWithoutImplicit + 1) := by
    apply rounded_le_of_le
    apply Nat.lt_log2_self.le.trans
    rw [← Nat.pow_add]
    exact Nat.pow_le_pow_right (by decide) (by omega)
  have leading := (leading_le positive kept).imp_right le_rounded_of_le
  obtain ⟨extended, lastExponent, shifted, canonical, same⟩ :=
    shift_rounded digits (by omega) leading
  obtain ⟨bound, boundLeast, boundFits, bounded⟩ := moderate
  rw [abs_apply] at bounded
  have fits := rounds.le _ (onGrid_pow boundLeast) bounded
  rw [← same] at rounds fits
  have signed := rounds.signed sign
  have applied : ∀ count : ℕ, ((sign.apply count : ℤ) : ℚ) = (sign.apply 1 : ℤ) * count := by
    intro count
    rw [apply_cast, Int.cast_natCast]
  refine ⟨(sign.apply extended.mantissa : ℤ) * 2 ^ lastExponent, ?_, ?_⟩
  · rw [applied, applied, mul_assoc, mul_assoc]
    exact signed
  · unfold roundWithAccuracy
    rw [shiftToTargetExponent_eq]
    dsimp only
    rw [isCount, shifted]
    dsimp only
    split
    · rename_i isZero
      rw [isZero, applied, Nat.cast_zero, mul_zero, zero_mul]
      exact .zero sign
    · rename_i nonzero
      apply Denotes.finite sign extended.mantissa lastExponent (Nat.pos_of_ne_zero nonzero)
        canonical
      have atLeastOne : (1 : ℚ) ≤ extended.mantissa := by
        exact_mod_cast Nat.pos_of_ne_zero nonzero
      have powers : (2 : ℚ) ^ lastExponent ≤ 2 ^ bound :=
        (le_mul_of_one_le_left (two_zpow_pos _).le atLeastOne).trans fits
      exact ((zpow_le_zpow_iff_right₀ one_lt_two).mp powers).trans boundFits

/-! ## Sums and products -/

/-- Places may be added to a mantissa. -/
theorem decreased_value (mantissa count : ℕ) (exponent : ℤ) :
    ((mantissa * 2 ^ count : ℕ) : ℚ) * 2 ^ (exponent - count) = mantissa * 2 ^ exponent := by
  rw [zpow_sub₀ two_ne_zero, zpow_natCast]
  push_cast
  field_simp

theorem round_yields (sign : Sign) (positive : 0 < mantissa)
    (moderate : Moderate format ((sign.apply mantissa : ℤ) * 2 ^ exponent)) :
    Yields format (UnpackedFloat.round format sign mantissa exponent)
      ((sign.apply mantissa : ℤ) * 2 ^ exponent) := by
  have isPlace := lastPlace_eq format mantissa exponent
  have amount : (exponent - format.targetExponent (totalExponent mantissa exponent)).toNat =
      (exponent - lastPlace format mantissa exponent).toNat := rfl
  simp only [UnpackedFloat.round, decreaseExponent, Nat.shiftLeft_eq, amount]
  generalize isCount : (exponent - lastPlace format mantissa exponent).toNat = count
  have same : ((sign.apply (mantissa * 2 ^ count : ℕ) : ℤ) : ℚ) * 2 ^ (exponent - count) =
      (sign.apply mantissa : ℤ) * 2 ^ exponent := by
    rw [apply_cast, apply_cast _ mantissa, mul_assoc, mul_assoc, Int.cast_natCast,
      Int.cast_natCast, decreased_value]
  have kept : exponent - count ≤ lastPlace format (mantissa * 2 ^ count) (exponent - count) := by
    have order := Double.log2_mul_pow positive count
    have shifted := lastPlace_eq format (mantissa * 2 ^ count) (exponent - count)
    omega
  rw [← same] at moderate ⊢
  exact roundWithAccuracy_yields sign (Nat.mul_pos positive (Nat.two_pow_pos _)) kept moderate

theorem normalize_yields (zeroSign : Sign) (sum exponent : ℤ)
    (moderate : Moderate format (sum * 2 ^ exponent)) :
    Yields format (UnpackedFloat.normalize format sum exponent zeroSign) (sum * 2 ^ exponent) := by
  unfold UnpackedFloat.normalize
  split
  · rename_i isLess
    have negative : sum < 0 := Int.compare_eq_lt.mp isLess
    have same : sum = Sign.negative.apply (-sum).toNat := by
      show sum = -((-sum).toNat : ℤ)
      omega
    have yields := @round_yields format (-sum).toNat exponent .negative (by omega)
    rw [← same] at yields
    exact yields moderate
  · rename_i isZero
    rw [Int.compare_eq_eq.mp isZero, Int.cast_zero, zero_mul]
    exact (Denotes.zero zeroSign).yields
  · rename_i isGreater
    have positive : 0 < sum := Int.compare_eq_gt.mp isGreater
    have same : sum = Sign.positive.apply sum.toNat := by
      show sum = (sum.toNat : ℤ)
      omega
    have yields := @round_yields format sum.toNat exponent .positive (by omega)
    rw [← same] at yields
    exact yields moderate

variable {left right : UnpackedFloat} {first second : ℚ}

theorem add_yields (leftDenotes : Denotes format left first)
    (rightDenotes : Denotes format right second) (moderate : Moderate format (first + second)) :
    Yields format (add format left right) (first + second) := by
  cases leftDenotes with
  | zero leftSign =>
      rw [zero_add]
      cases rightDenotes with
      | zero rightSign =>
          have isZero : ∃ sign, add format (.zero leftSign) (.zero rightSign) = .zero sign := by
            cases leftSign <;> cases rightSign <;> exact ⟨_, rfl⟩
          obtain ⟨sign, isZero⟩ := isZero
          rw [isZero]
          exact (Denotes.zero sign).yields
      | finite rightSign rightMantissa rightExponent rightPositive canonical fits =>
          exact (Denotes.finite rightSign _ _ rightPositive canonical fits).yields
  | finite leftSign leftMantissa leftExponent leftPositive leftCanonical leftFits =>
      cases rightDenotes with
      | zero rightSign =>
          rw [add_zero]
          exact (Denotes.finite leftSign _ _ leftPositive leftCanonical leftFits).yields
      | finite rightSign rightMantissa rightExponent rightPositive rightCanonical rightFits =>
          simp only [add, decreaseExponent, Nat.shiftLeft_eq]
          generalize isLower : min leftExponent rightExponent = lower
          have aligned : ∀ (sign : Sign) (mantissa : ℕ) (exponent : ℤ), lower ≤ exponent →
              ((sign.apply (mantissa * 2 ^ (exponent - lower).toNat : ℕ) : ℤ) : ℚ) * 2 ^ lower =
                (sign.apply mantissa : ℤ) * 2 ^ exponent := by
            intro sign mantissa exponent above
            have same : exponent - (exponent - lower).toNat = lower := by omega
            have value := decreased_value mantissa (exponent - lower).toNat exponent
            rw [same] at value
            rw [apply_cast, apply_cast _ mantissa, mul_assoc, mul_assoc, Int.cast_natCast,
              Int.cast_natCast, value]
          have sum : ((leftSign.apply leftMantissa : ℤ) : ℚ) * 2 ^ leftExponent +
              (rightSign.apply rightMantissa : ℤ) * 2 ^ rightExponent =
                ((leftSign.apply (leftMantissa * 2 ^ (leftExponent - lower).toNat : ℕ) +
                  rightSign.apply (rightMantissa * 2 ^ (rightExponent - lower).toNat : ℕ) : ℤ)
                    : ℚ) * 2 ^ lower := by
            rw [Int.cast_add, add_mul, aligned _ _ _ (by omega), aligned _ _ _ (by omega)]
          rw [sum] at moderate ⊢
          exact normalize_yields _ _ _ moderate

/-- The sign of a product is the product of the signs. -/
theorem apply_mul (leftSign rightSign : Sign) (leftMantissa rightMantissa : ℕ) :
    (leftSign * rightSign).apply ((leftMantissa * rightMantissa : ℕ) : ℤ) =
      leftSign.apply leftMantissa * rightSign.apply rightMantissa := by
  push_cast
  cases leftSign <;> cases rightSign
  · exact (Int.neg_mul_neg _ _).symm
  · exact (Int.neg_mul _ _).symm
  · exact (Int.mul_neg _ _).symm
  · rfl

theorem minExponent_nonpos (format : Format) : format.minExponent ≤ 0 := by
  have digits := format.hm
  have fields : (1 : ℤ) ≤ 2 ^ (format.exponentBits - 1) := one_le_pow₀ (by decide)
  unfold Format.minExponent Format.mantissaBits
  omega

theorem mul_yields (leftDenotes : Denotes format left first)
    (rightDenotes : Denotes format right second) (moderate : Moderate format (first * second)) :
    Yields format (mul format left right) (first * second) := by
  cases leftDenotes with
  | zero leftSign =>
      rw [zero_mul]
      cases rightDenotes <;> exact (Denotes.zero _).yields
  | finite leftSign leftMantissa leftExponent leftPositive leftCanonical leftFits =>
      cases rightDenotes with
      | zero rightSign =>
          rw [mul_zero]
          exact (Denotes.zero _).yields
      | finite rightSign rightMantissa rightExponent rightPositive rightCanonical rightFits =>
          have product : ((leftSign.apply leftMantissa : ℤ) : ℚ) * 2 ^ leftExponent *
              ((rightSign.apply rightMantissa : ℤ) * 2 ^ rightExponent) =
                (((leftSign * rightSign).apply (leftMantissa * rightMantissa : ℕ) : ℤ) : ℚ) *
                  2 ^ (leftExponent + rightExponent) := by
            rw [apply_mul, zpow_add₀ two_ne_zero, Int.cast_mul]
            ring
          rw [product] at moderate ⊢
          have positive : 0 < leftMantissa * rightMantissa := Nat.mul_pos leftPositive rightPositive
          apply roundWithAccuracy_yields _ positive _ moderate
          -- Either factor has its leading place, or both are among the least numbers.
          rw [lastPlace_eq]
          have orders : ∀ {some whole : ℕ}, 0 < whole → some ∣ whole →
              2 ^ format.mantissaBitsWithoutImplicit ≤ some →
                format.mantissaBitsWithoutImplicit ≤ whole.log2 := by
            intro some whole wholePositive divides leads
            apply (Nat.le_log2 wholePositive.ne').mpr
            exact leads.trans (Nat.le_of_dvd wholePositive divides)
          have nonpos := minExponent_nonpos format
          rcases leftCanonical.leading with leftLeast | leftLeads
          · rcases rightCanonical.leading with rightLeast | rightLeads
            · omega
            · have order := orders positive (Nat.dvd_mul_left _ _) rightLeads
              omega
          · have order := orders positive (Nat.dvd_mul_right _ _) leftLeads
            omega

/-! ## Comparisons -/

/-- In canonical form a greater exponent makes a greater number. -/
theorem Canonical.lt_of_exponent_lt (canonical : Canonical format mantissa exponent)
    (otherCanonical : Canonical format otherMantissa otherExponent)
    (less : exponent < otherExponent) :
    (mantissa : ℚ) * 2 ^ exponent < otherMantissa * 2 ^ otherExponent := by
  have leads := otherCanonical.leading.resolve_left (canonical.least_le.trans_lt less).ne'
  apply (lt_leading_place canonical.mantissa_lt less).trans_le
  apply mul_le_mul_of_nonneg_right _ (two_zpow_pos _).le
  exact_mod_cast leads

theorem Canonical.compare_eq (canonical : Canonical format mantissa exponent)
    (otherCanonical : Canonical format otherMantissa otherExponent) :
    (compare exponent otherExponent).then (compare mantissa otherMantissa) =
      compare ((mantissa : ℚ) * 2 ^ exponent) (otherMantissa * 2 ^ otherExponent) := by
  rcases lt_trichotomy exponent otherExponent with less | rfl | greater
  · rw [compare_lt_iff_lt.mpr less,
      compare_lt_iff_lt.mpr (canonical.lt_of_exponent_lt otherCanonical less)]
    rfl
  · rw [compare_eq_iff_eq.mpr rfl]
    have places := two_zpow_pos exponent
    rcases lt_trichotomy mantissa otherMantissa with less | rfl | greater
    · rw [compare_lt_iff_lt.mpr less, compare_lt_iff_lt.mpr]
      · rfl
      · exact mul_lt_mul_of_pos_right (by exact_mod_cast less) places
    · rw [compare_eq_iff_eq.mpr rfl, compare_eq_iff_eq.mpr rfl]
      rfl
    · rw [compare_gt_iff_gt.mpr greater, compare_gt_iff_gt.mpr]
      · rfl
      · exact mul_lt_mul_of_pos_right (by exact_mod_cast greater) places
  · rw [compare_gt_iff_gt.mpr greater,
      compare_gt_iff_gt.mpr (otherCanonical.lt_of_exponent_lt canonical greater)]
    rfl

theorem compare_neg (first second : ℚ) :
    compare (-first) (-second) = (compare first second).swap := by
  rcases lt_trichotomy first second with less | rfl | greater
  · rw [compare_lt_iff_lt.mpr less, compare_gt_iff_gt.mpr (neg_lt_neg less)]
    rfl
  · rw [compare_eq_iff_eq.mpr rfl, compare_eq_iff_eq.mpr rfl]
    rfl
  · rw [compare_gt_iff_gt.mpr greater, compare_lt_iff_lt.mpr (neg_lt_neg greater)]
    rfl

theorem Denotes.compare_eq (leftDenotes : Denotes format left first)
    (rightDenotes : Denotes format right second) :
    left.compare right = some (compare first second) := by
  have magnitude : ∀ {mantissa : ℕ} (exponent : ℤ), 0 < mantissa →
      (0 : ℚ) < mantissa * 2 ^ exponent := by
    intro mantissa exponent positive
    have places := two_zpow_pos exponent
    positivity
  have negative : ∀ (mantissa : ℕ) (exponent : ℤ),
      ((Sign.negative.apply mantissa : ℤ) : ℚ) * 2 ^ exponent = -(mantissa * 2 ^ exponent) := by
    intro mantissa exponent
    simp [Sign.apply]
  have positive : ∀ (mantissa : ℕ) (exponent : ℤ),
      ((Sign.positive.apply mantissa : ℤ) : ℚ) * 2 ^ exponent = mantissa * 2 ^ exponent := by
    intro mantissa exponent
    simp [Sign.apply]
  cases leftDenotes with
  | zero leftSign =>
      cases rightDenotes with
      | zero rightSign => rw [compare_eq_iff_eq.mpr rfl]; rfl
      | finite rightSign rightMantissa rightExponent rightPositive _ _ =>
          have above := magnitude rightExponent rightPositive
          cases rightSign with
          | negative => rw [negative, compare_gt_iff_gt.mpr (neg_lt_zero.mpr above)]; rfl
          | positive => rw [positive, compare_lt_iff_lt.mpr above]; rfl
  | finite leftSign leftMantissa leftExponent leftPositive leftCanonical _ =>
      have leftAbove := magnitude leftExponent leftPositive
      cases rightDenotes with
      | zero rightSign =>
          cases leftSign with
          | negative => rw [negative, compare_lt_iff_lt.mpr (neg_lt_zero.mpr leftAbove)]; rfl
          | positive => rw [positive, compare_gt_iff_gt.mpr leftAbove]; rfl
      | finite rightSign rightMantissa rightExponent rightPositive rightCanonical _ =>
          have rightAbove := magnitude rightExponent rightPositive
          have magnitudes := leftCanonical.compare_eq rightCanonical
          cases leftSign with
          | negative =>
              rw [negative]
              cases rightSign with
              | negative => rw [negative, compare_neg, ← magnitudes]; rfl
              | positive =>
                  rw [positive,
                    compare_lt_iff_lt.mpr ((neg_lt_zero.mpr leftAbove).trans rightAbove)]
                  rfl
          | positive =>
              rw [positive]
              cases rightSign with
              | negative =>
                  rw [negative,
                    compare_gt_iff_gt.mpr ((neg_lt_zero.mpr rightAbove).trans leftAbove)]
                  rfl
              | positive => rw [positive, ← magnitudes]; rfl

end AttentiveReasoner.Numeric.Binary
