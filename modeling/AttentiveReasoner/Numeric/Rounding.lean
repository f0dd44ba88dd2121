/-!
Contract: exact rounding of non-negative rationals to binary interchange
formats, ties to the even neighbour.

Owns:
- the powers of two and of ten that scale numbers;
- the half-even quotient of two naturals;
- the two binary formats, as a number of fraction and exponent bits;
- the encoding of a rational as a magnitude (the encoding without its sign bit)
  and the exact value of a finite magnitude.

Does not own: signs, not-a-number encodings, or arithmetic on encoded values.

The encoding of a magnitude is a linear function of its coefficient inside one
binade and continues into the next binade without a gap, so the order of
magnitudes is the order of the naturals that encode them.
-/

namespace AttentiveReasoner.Numeric

/-- Two to the power of `exponent`. -/
def powerOfTwo (exponent : Nat) : Nat :=
  Nat.pow 2 exponent

/-- Ten to the power of `exponent`. -/
def powerOfTen (exponent : Nat) : Nat :=
  Nat.pow 10 exponent

/-- The natural nearest to `numerator / denominator`; of two equally near ones
the even one. -/
def roundHalfEven (numerator denominator : Nat) : Nat :=
  let quotient := numerator / denominator
  let twice := 2 * (numerator % denominator)
  if twice < denominator then quotient
  else if denominator < twice then quotient + 1
  else if quotient % 2 = 0 then quotient
  else quotient + 1

/-- A binary interchange format. -/
structure BinaryFormat where
  fractionBits : Nat
  exponentBits : Nat
deriving DecidableEq, Repr

namespace BinaryFormat

/-- The 32-bit format. -/
def single : BinaryFormat := ⟨23, 8⟩

/-- The 64-bit format. -/
def double : BinaryFormat := ⟨52, 11⟩

/-- The exponent of the last place of the smallest numbers of the format. -/
def leastExponent (format : BinaryFormat) : Int :=
  2 - (powerOfTwo (format.exponentBits - 1) : Int) - format.fractionBits

/-- The magnitude that stands for infinity; larger ones are not numbers. -/
def infinity (format : BinaryFormat) : Nat :=
  (powerOfTwo format.exponentBits - 1) * powerOfTwo format.fractionBits

/-- The place of the sign bit. -/
def signWeight (format : BinaryFormat) : Nat :=
  powerOfTwo (format.exponentBits + format.fractionBits)

end BinaryFormat

/-- The value `coefficient * 2 ^ exponent`. -/
structure Dyadic where
  coefficient : Nat
  exponent : Int
deriving DecidableEq, Repr

namespace Dyadic

/-- Numerator of the value as a fraction of naturals. -/
def numerator (value : Dyadic) : Nat :=
  value.coefficient * powerOfTwo value.exponent.toNat

/-- Denominator of the value as a fraction of naturals. -/
def denominator (value : Dyadic) : Nat :=
  powerOfTwo (-value.exponent).toNat

end Dyadic

/-- The exponent of the largest power of two not above
`numerator / denominator`, for two positive naturals. -/
def binaryOrder (numerator denominator : Nat) : Int :=
  let estimate : Int := Int.ofNat numerator.log2 - Int.ofNat denominator.log2
  if numerator * powerOfTwo (-estimate).toNat < denominator * powerOfTwo estimate.toNat then
    estimate - 1
  else
    estimate

namespace BinaryFormat

/-- The magnitude nearest to `numerator / denominator`; a value beyond the
largest finite one becomes infinity. -/
def encode (format : BinaryFormat) (numerator denominator : Nat) : Nat :=
  if numerator = 0 then
    0
  else
    let least := format.leastExponent
    let place := max (binaryOrder numerator denominator - format.fractionBits) least
    let coefficient :=
      roundHalfEven
        (numerator * powerOfTwo (-place).toNat)
        (denominator * powerOfTwo place.toNat)
    min
      (coefficient + (place - least).toNat * powerOfTwo format.fractionBits)
      format.infinity

/-- The exact value of a finite magnitude. -/
def value (format : BinaryFormat) (magnitude : Nat) : Dyadic :=
  let field := magnitude / powerOfTwo format.fractionBits
  let fraction := magnitude % powerOfTwo format.fractionBits
  if field = 0 then
    ⟨fraction, format.leastExponent⟩
  else
    ⟨powerOfTwo format.fractionBits + fraction, format.leastExponent + (field - 1 : Nat)⟩

end BinaryFormat

end AttentiveReasoner.Numeric
