import AttentiveReasoner.Numeric.Double

/-!
Contract: the numerals of JSON texts and the numbers they stand for.

Owns:
- a numeral as its sign, its digits and its exponent;
- the whole number of a numeral without fraction and exponent;
- the 64-bit floating-point number of a numeral.

Does not own: where a numeral begins and ends in a text.

A numeral becomes a floating-point number through a significand of at most 64
bits. Digits are taken up as long as the significand has room; of the whole part
the digits left over raise the decimal exponent, of the fraction they are dropped.
The significand is then scaled by one power of ten, or by several where the
exponent is below `-308`. For up to fifteen digits and exponents up to twenty-two
this is the nearest number.
-/

namespace AttentiveReasoner.Json

open AttentiveReasoner.Numeric

/-- A numeral, with the digits of each part as numbers below ten. -/
structure Numeral where
  negative : Bool := false
  whole : List Nat := []
  fraction : Option (List Nat) := none
  exponent : Option (Bool × List Nat) := none
deriving DecidableEq, Repr

/-- A number as a numeral denotes it: exactly, or in floating point. -/
inductive Number where
  | integer (value : Int)
  | floating (value : Float)

namespace Numeral

/-- The natural with the given decimal digits. -/
def ofDigits (digits : List Nat) : Nat :=
  digits.foldl (fun value digit => value * 10 + digit) 0

/-- Take up digits into a significand while it fits in 64 bits; the digits left
over come second. -/
def takeUp (significand : Nat) : (digits : List Nat) → Nat × List Nat
  | [] => (significand, [])
  | digit :: rest =>
      if significand * 10 + digit < powerOfTwo 64 then
        takeUp (significand * 10 + digit) rest
      else
        (significand, digit :: rest)

/-- The number `value * 10 ^ exponent` by multiplication or division; nothing if
it is beyond the largest finite number. -/
def scale (value : Float) (exponent : Int) : Option Float :=
  if exponent.natAbs ≤ 308 then
    let power := Double.ofNat (powerOfTen exponent.natAbs)
    if 0 ≤ exponent then
      let scaled := value * power
      if scaled.isInf then none else some scaled
    else
      some (value / power)
  else if value == 0 then
    some value
  else if 0 ≤ exponent then
    none
  else
    scale (value / Double.ofNat (powerOfTen 308)) (exponent + 308)
termination_by (-exponent).toNat
decreasing_by omega

/-- The largest exponent that is read as a number; a longer one is only compared
with zero. -/
def exponentLimit : Nat := powerOfTwo 31 - 1

/-- The absolute value of a numeral in floating point; nothing if it is beyond
the largest finite number. -/
def absoluteDouble? (numeral : Numeral) : Option Float :=
  let whole := takeUp 0 numeral.whole
  let digits := numeral.fraction.getD []
  let taken := takeUp whole.1 digits
  let place : Int := Int.ofNat whole.2.length - Int.ofNat (digits.length - taken.2.length)
  let significand := taken.1
  match numeral.exponent with
  | none => scale (Double.ofNat significand) place
  | some (lowers, exponentDigits) =>
      let exponent := ofDigits exponentDigits
      if exponentLimit < exponent then
        if significand ≠ 0 && !lowers then none else some 0
      else
        scale (Double.ofNat significand)
          (if lowers then place - exponent else place + exponent)

/-- The number of a numeral; nothing if it is beyond the largest finite number.

A numeral without fraction and exponent is a whole number as long as it fits in
64 bits, with a sign where it is negative; the negative zero does not. -/
def number? (numeral : Numeral) : Option Number :=
  let floating :=
    numeral.absoluteDouble?.map
      (fun value => Number.floating (if numeral.negative then -value else value))
  if numeral.fraction.isNone && numeral.exponent.isNone then
    let value := ofDigits numeral.whole
    if numeral.negative then
      if value ≠ 0 && value ≤ powerOfTwo 63 then some (.integer (-(value : Int))) else floating
    else if value < powerOfTwo 64 then
      some (.integer value)
    else
      floating
  else
    floating

/-- The 64-bit number nearest to a numeral; infinity beyond the largest one. -/
def nearestDouble (numeral : Numeral) : Float :=
  let fraction := numeral.fraction.getD []
  let exponent : Int :=
    match numeral.exponent with
    | none => 0
    | some (lowers, digits) =>
        if lowers then -(ofDigits digits : Int) else ofDigits digits
  Double.ofDecimal numeral.negative
    (ofDigits (numeral.whole ++ fraction))
    (exponent - fraction.length)

end Numeral

end AttentiveReasoner.Json
