import AttentiveReasoner.Numeric.Single

/-!
Contract: the written form of 32-bit numbers with a fixed number of decimals.

Owns:
- the layout of a whole number of hundredths;
- the choice of that number: the nearest to the exact value, a half going to the
  even neighbour;
- the texts of the values that have no decimal form.

Does not own: reading such texts back. A negative number keeps its sign, also
where it rounds to zero.
-/

namespace AttentiveReasoner.Numeric.FixedPoint

/-- `count / 100` with two decimals. -/
def layout (count : Nat) : String :=
  let fraction := count % 100
  toString (count / 100) ++ "." ++ (if fraction < 10 then "0" else "") ++ toString fraction

/-- The hundredths nearest to an exact value, a half going to the even ones. -/
def hundredths (value : Dyadic) : Nat :=
  roundHalfEven (value.numerator * 100) value.denominator

/-- The number with two decimals. -/
def twoDecimals (number : Float32) : String :=
  if Single.isNaN number then
    "NaN"
  else
    (if Single.isNegative number then "-" else "") ++
      match Single.finiteValue? number with
      | none => "inf"
      | some value => layout (hundredths value)

end AttentiveReasoner.Numeric.FixedPoint
