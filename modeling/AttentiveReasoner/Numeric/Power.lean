import AttentiveReasoner.Numeric.Double

/-!
Contract: the power of two 32-bit numbers, evaluated in 64-bit arithmetic.

Owns:
- the binary logarithm of a positive number: a table of sixteen reciprocals and
  logarithms and a polynomial of degree five in the remainder;
- the binary exponential: a table of thirty-two fractional powers and a cubic in
  the remainder;
- the exceptional operands (zeros, infinities, what is not a number, negative
  bases).

Does not own: correct rounding of the last place. The value is within one unit of
the last place of the exact power; which of the two neighbours it takes is fixed
by the tables and the order of the operations below.
-/

namespace AttentiveReasoner.Numeric.Single

/-- Reciprocals of sixteen points of an interval around one, each with the
binary logarithm of its point, as encodings. -/
def logarithmTable : Array (UInt64 × UInt64) :=
  #[
    (0x3ff661ec79f8f3be, 0xbfdefec65b963019),
    (0x3ff571ed4aaf883d, 0xbfdb0b6832d4fca4),
    (0x3ff49539f0f010b0, 0xbfd7418b0a1fb77b),
    (0x3ff3c995b0b80385, 0xbfd39de91a6dcf7b),
    (0x3ff30d190c8864a5, 0xbfd01d9bf3f2b631),
    (0x3ff25e227b0b8ea0, 0xbfc97c1d1b3b7af0),
    (0x3ff1bb4a4a1a343f, 0xbfc2f9e393af3c9f),
    (0x3ff12358f08ae5ba, 0xbfb960cbbf788d5c),
    (0x3ff0953f419900a7, 0xbfaa6f9db6475fce),
    (0x3ff0000000000000, 0x0000000000000000),
    (0x3fee608cfd9a47ac, 0x3fb338ca9f24f53d),
    (0x3feca4b31f026aa0, 0x3fc476a9543891ba),
    (0x3feb2036576afce6, 0x3fce840b4ac4e4d2),
    (0x3fe9c2d163a1aa2d, 0x3fd40645f0c6651c),
    (0x3fe886e6037841ed, 0x3fd88e9c2c1b9ff8),
    (0x3fe767dcf5534862, 0x3fdce0a44eb17bcc)]

/-- Coefficients of the logarithm of `1 + r`, from the fifth power down to the
first. -/
def logarithmCoefficient (power : Nat) : Float :=
  match power with
  | 5 => Float.ofBits 0x3fd27616c9496e0b
  | 4 => Float.ofBits 0xbfd71969a075c67a
  | 3 => Float.ofBits 0x3fdec70a6ca7badd
  | 2 => Float.ofBits 0xbfe7154748bef6c8
  | _ => Float.ofBits 0x3ff71547652ab82b

/-- The magnitude of a finite non-zero number with an unbounded exponent field:
a number below the normal range is scaled into it and the field lowered. -/
def extendedMagnitude (number : Float32) : Int :=
  if magnitude number < powerOfTwo 23 then
    (magnitude (number * ofNat (powerOfTwo 23)) : Int) - 23 * powerOfTwo 23
  else
    magnitude number

/-- The binary logarithm of the absolute value of a finite non-zero number. -/
def binaryLogarithm (number : Float32) : Float :=
  let magnitude := extendedMagnitude number
  let offset := magnitude - 0x3f330000
  let exponent := offset.fdiv (powerOfTwo 23)
  let interval := (offset.fmod (powerOfTwo 23)).toNat / powerOfTwo 19
  let reduced := toDouble (ofMagnitude false (magnitude - exponent * powerOfTwo 23).toNat)
  let entry := logarithmTable.getD interval (0, 0)
  let r := reduced * Float.ofBits entry.1 - 1
  let base := Float.ofBits entry.2 + Double.ofRatio (exponent < 0) exponent.natAbs 1
  let r2 := r * r
  let high := logarithmCoefficient 5 * r + logarithmCoefficient 4
  let middle := logarithmCoefficient 3 * r + logarithmCoefficient 2
  let r4 := r2 * r2
  let low := middle * r2 + (logarithmCoefficient 1 * r + base)
  high * r4 + low

/-- Encodings of `2 ^ (i / 32)`, each lowered by `i` places of the exponent
field's last five bits. -/
def exponentialTable : Array UInt64 :=
  #[
    0x3ff0000000000000, 0x3fefd9b0d3158574, 0x3fefb5586cf9890f,
    0x3fef9301d0125b51, 0x3fef72b83c7d517b, 0x3fef54873168b9aa,
    0x3fef387a6e756238, 0x3fef1e9df51fdee1, 0x3fef06fe0a31b715,
    0x3feef1a7373aa9cb, 0x3feedea64c123422, 0x3feece086061892d,
    0x3feebfdad5362a27, 0x3feeb42b569d4f82, 0x3feeab07dd485429,
    0x3feea47eb03a5585, 0x3feea09e667f3bcd, 0x3fee9f75e8ec5f74,
    0x3feea11473eb0187, 0x3feea589994cce13, 0x3feeace5422aa0db,
    0x3feeb737b0cdc5e5, 0x3feec49182a3f090, 0x3feed503b23e255d,
    0x3feee89f995ad3ad, 0x3feeff76f2fb5e47, 0x3fef199bdd85529c,
    0x3fef3720dcef9069, 0x3fef5818dcfba487, 0x3fef7c97337b9b5f,
    0x3fefa4afa2a490da, 0x3fefd0765b6e4540]

/-- The binary exponential of a number between `-150` and `128`. -/
def binaryExponential (number : Float) : Float :=
  let shift := Float.ofBits 0x42e8000000000000
  let rounded := number + shift
  let thirtySeconds := rounded.toBits
  let r := number - (rounded - shift)
  let scale :=
    Float.ofBits
      (exponentialTable.getD (thirtySeconds.toNat % 32) 0 + thirtySeconds <<< 47)
  let high := Float.ofBits 0x3fac6af84b912394 * r + Float.ofBits 0x3fcebfce50fac4f3
  let low := Float.ofBits 0x3fe62e42ff0c52d6 * r + 1
  (high * (r * r) + low) * scale

/-- How a finite number relates to the integers. -/
inductive Parity where
  | fractional
  | odd
  | even
deriving DecidableEq, Repr

/-- The parity of a finite number; an infinite one counts as even. -/
def parity (number : Float32) : Parity :=
  match finiteValue? number with
  | none => .even
  | some value =>
      if value.numerator % value.denominator ≠ 0 then .fractional
      else if value.numerator / value.denominator % 2 = 1 then .odd
      else .even

/-- The encoding that stands for no number. -/
def notANumber : Float32 :=
  ofMagnitude false (BinaryFormat.single.infinity + powerOfTwo 22)

/-- The power of a finite non-zero base to a finite non-zero exponent, without
regard to the sign of the base. -/
def absolutePower (base exponent : Float32) : Float32 :=
  let product := toDouble exponent * binaryLogarithm base
  if Float.ofBits 0x405fffffffd1d571 < product then
    ofMagnitude false BinaryFormat.single.infinity
  else if product ≤ Double.ofRatio true 150 1 then
    zero
  else
    Double.toSingle (binaryExponential product)

/-- The power `base ^ exponent`.

A zero exponent and a base of one give one whatever the other operand is; a
negative base has a power only for integral exponents. -/
def power (base exponent : Float32) : Float32 :=
  if magnitude exponent = 0 then one
  else if base.toBits = one.toBits then one
  else if isNaN base || isNaN exponent then notANumber
  else if isInfinite exponent then
    if magnitude base = magnitude one then one
    else if decide (magnitude base < magnitude one) = !isNegative exponent then zero
    else ofMagnitude false BinaryFormat.single.infinity
  else if magnitude base = 0 || isInfinite base then
    let square := base * base
    let signed := if isNegative base && parity exponent = .odd then -square else square
    if isNegative exponent then one / signed else signed
  else if isNegative base then
    match parity exponent with
    | .fractional => notANumber
    | .odd => -absolutePower base exponent
    | .even => absolutePower base exponent
  else
    absolutePower base exponent

end AttentiveReasoner.Numeric.Single
