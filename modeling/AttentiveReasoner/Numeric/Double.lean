import AttentiveReasoner.Numeric.Single

/-!
Contract: conversions of 64-bit floating-point numbers, stated on their
encodings.

Owns:
- the nearest 64-bit number of a ratio and of a decimal numeral;
- the nearest 32-bit number of a 64-bit one;
- the part of a number above zero.

Does not own: comparisons, sums, products and quotients, which are those of
`Float`.
-/

namespace AttentiveReasoner.Numeric.Double

/-- The number with the given sign and magnitude. -/
def ofMagnitude (negative : Bool) (magnitude : Nat) : Float :=
  Float.ofBits
    (UInt64.ofNat
      (if negative then BinaryFormat.double.signWeight + magnitude else magnitude))

/-- The number nearest to `numerator / denominator`, with the given sign. -/
def ofRatio (negative : Bool) (numerator denominator : Nat) : Float :=
  ofMagnitude negative (BinaryFormat.double.encode numerator denominator)

/-- The number nearest to a natural. -/
def ofNat (count : Nat) : Float :=
  ofRatio false count 1

/-- The number nearest to `digits * 10 ^ exponent`, with the given sign.

Decimals above `10 ^ 400` are infinite and those below `10 ^ -400` are zero
before any power is computed. -/
def ofDecimal (negative : Bool) (digits : Nat) (exponent : Int) : Float :=
  if digits = 0 || exponent + (digits.log2 / 3 + 1 : Nat) < -400 then
    ofMagnitude negative 0
  else if 400 < exponent then
    ofMagnitude negative BinaryFormat.double.infinity
  else
    ofRatio negative (digits * powerOfTen exponent.toNat)
      (powerOfTen (-exponent).toNat)

/-- The encoding without its sign bit. -/
def magnitude (number : Float) : Nat :=
  number.toBits.toNat % BinaryFormat.double.signWeight

/-- Whether the sign bit is set; it is for the negative zero. -/
def isNegative (number : Float) : Bool :=
  BinaryFormat.double.signWeight ≤ number.toBits.toNat

/-- The nearest 32-bit number. -/
def toSingle (number : Float) : Float32 :=
  let bits := magnitude number
  Single.ofMagnitude (isNegative number)
    (if BinaryFormat.double.infinity < bits then
      BinaryFormat.single.infinity + powerOfTwo 22
    else if bits = BinaryFormat.double.infinity then
      BinaryFormat.single.infinity
    else
      let value := BinaryFormat.double.value bits
      BinaryFormat.single.encode value.numerator value.denominator)

/-- The part of a number above zero: zero for a number that is not positive and
for what is not a number. -/
def positivePart (number : Float) : Float :=
  if 0 < number then number else 0

/-- The distance from one to the next larger number. -/
def epsilon : Float :=
  ofRatio false 1 (powerOfTwo 52)

end AttentiveReasoner.Numeric.Double
