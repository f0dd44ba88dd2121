import AttentiveReasoner.Numeric.Rounding

/-!
Contract: order, extrema and conversions of 32-bit floating-point numbers,
stated on their encodings.

Owns:
- the signed magnitude of a number and the numeric comparisons it decides;
- the larger and the smaller of two numbers, where a not-a-number operand gives
  way to the other one, and the clamp to the unit interval;
- conversion from ratios and naturals, to naturals and to 64-bit numbers.

Does not own: sums, products and quotients, which are those of `Float32`.

A comparison with a not-a-number operand is false, and the two zeros compare
equal. Between numbers the signed magnitude is an integer whose order is the
numeric one, so every law about comparisons is a law about integers.
-/

namespace AttentiveReasoner.Numeric.Single

/-- The encoding without its sign bit. -/
def magnitude (number : Float32) : Nat :=
  number.toBits.toNat % BinaryFormat.single.signWeight

/-- Whether the sign bit is set; it is for the negative zero. -/
def isNegative (number : Float32) : Bool :=
  BinaryFormat.single.signWeight ≤ number.toBits.toNat

/-- Whether the encoding stands for no number. -/
def isNaN (number : Float32) : Bool :=
  BinaryFormat.single.infinity < magnitude number

/-- Whether the encoding stands for one of the infinities. -/
def isInfinite (number : Float32) : Bool :=
  magnitude number = BinaryFormat.single.infinity

/-- The magnitude with the sign: an integer in the numeric order. -/
def signedMagnitude (number : Float32) : Int :=
  if isNegative number then -(magnitude number : Int) else magnitude number

/-- Numeric `<`; false when either operand is not a number. -/
def less (left right : Float32) : Bool :=
  !isNaN left && !isNaN right && signedMagnitude left < signedMagnitude right

/-- Numeric `≤`; false when either operand is not a number. -/
def atMost (left right : Float32) : Bool :=
  !isNaN left && !isNaN right && signedMagnitude left ≤ signedMagnitude right

/-- The larger of two numbers, the right one of two equal ones, as the zeros
are. An operand that is not a number gives way to the other. -/
def larger (left right : Float32) : Float32 :=
  if isNaN right then left
  else if less right left then left
  else right

/-- The smaller of two numbers, the right one of two equal ones, as the zeros
are. An operand that is not a number gives way to the other. -/
def smaller (left right : Float32) : Float32 :=
  if isNaN right then left
  else if less left right then left
  else right

/-- The number with the given sign and magnitude. -/
def ofMagnitude (negative : Bool) (magnitude : Nat) : Float32 :=
  Float32.ofBits
    (UInt32.ofNat
      (if negative then BinaryFormat.single.signWeight + magnitude else magnitude))

/-- The number nearest to `numerator / denominator`, with the given sign. -/
def ofRatio (negative : Bool) (numerator denominator : Nat) : Float32 :=
  ofMagnitude negative (BinaryFormat.single.encode numerator denominator)

/-- The number nearest to a natural. -/
def ofNat (count : Nat) : Float32 :=
  ofRatio false count 1

/-- The positive zero. -/
def zero : Float32 := ofMagnitude false 0

/-- The number one. -/
def one : Float32 := ofNat 1

/-- The number nearest to `percent / 100`. -/
def hundredths (percent : Nat) : Float32 :=
  ofRatio false percent 100

/-- The nearest number of the unit interval; zero for what is not a number.
A number of the interval is kept as it is, the negative zero included. -/
def clampUnit (number : Float32) : Float32 :=
  if isNaN number then zero
  else if less number zero then zero
  else if less one number then one
  else number

/-- The exact value of the number without its sign, if it is finite. -/
def finiteValue? (number : Float32) : Option Dyadic :=
  if magnitude number < BinaryFormat.single.infinity then
    some (BinaryFormat.single.value (magnitude number))
  else
    none

/-- The whole part of a number as a 64-bit count: zero below one and for what is
not a number, the largest count beyond the range. -/
def truncate (number : Float32) : Nat :=
  if isNaN number || isNegative number then 0
  else
    match finiteValue? number with
    | none => powerOfTwo 64 - 1
    | some value => min (value.numerator / value.denominator) (powerOfTwo 64 - 1)

/-- The same number in the 64-bit format; the conversion is exact. -/
def toDouble (number : Float32) : Float :=
  let magnitude :=
    if isNaN number then
      BinaryFormat.double.infinity + powerOfTwo 51
    else
      match finiteValue? number with
      | none => BinaryFormat.double.infinity
      | some value =>
          BinaryFormat.double.encode value.numerator value.denominator
  Float.ofBits
    (UInt64.ofNat
      (if isNegative number then BinaryFormat.double.signWeight + magnitude
      else magnitude))

end AttentiveReasoner.Numeric.Single
