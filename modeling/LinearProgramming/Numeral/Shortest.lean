/-
This file finds the fewest decimal digits that identify a floating-point number.

The real numbers that round to a given floating-point number fill an interval around it, whose
ends belong to it exactly when the significand is even. For one, two and more digits the search
tries the two neighbours of the number on the grid of decimals with that many digits, and takes
the first that lies in the interval, or of two the nearer.
-/

import LinearProgramming.Numeral.Binary64
import LinearProgramming.Numeral.Fixed

namespace LinearProgramming.Numeral

/-- A decimal number `digits * 10 ^ exponent`. -/
structure Decimal where
  digits : Nat
  exponent : Int
  deriving DecidableEq

namespace Decimal

/-- The numerator of the number as a fraction of natural numbers. -/
def numerator (number : Decimal) : Nat := number.digits * Nat.pow 10 number.exponent.toNat

/-- The denominator of the number as a fraction of natural numbers. -/
def denominator (number : Decimal) : Nat := Nat.pow 10 (-number.exponent).toNat

end Decimal

namespace Dyadic

/-- The end of the rounding interval below: half a step down, or a quarter where the numbers
below are twice as dense. -/
def lowerEnd (magnitude : Dyadic) : Dyadic :=
  if magnitude.significand = Nat.pow 2 52 ∧ -1074 < magnitude.exponent then
    ⟨4 * magnitude.significand - 1, magnitude.exponent - 2⟩
  else ⟨2 * magnitude.significand - 1, magnitude.exponent - 1⟩

/-- The end of the rounding interval above: half a step up. -/
def upperEnd (magnitude : Dyadic) : Dyadic :=
  ⟨2 * magnitude.significand + 1, magnitude.exponent - 1⟩

/-- A decimal number reads back as the magnitude when it lies between the two ends, which belong
to the interval exactly when the significand is even. -/
def readsBack (magnitude : Dyadic) (number : Decimal) : Bool :=
  let low := magnitude.lowerEnd
  let high := magnitude.upperEnd
  let fromLow := low.numerator * number.denominator
  let fromHigh := number.numerator * high.denominator
  let reached := number.numerator * low.denominator
  let limit := high.numerator * number.denominator
  if magnitude.significand % 2 = 0 then fromLow ≤ reached && fromHigh ≤ limit
  else fromLow < reached && fromHigh < limit

/-- The least `scale` from the given one on with the magnitude below `10 ^ scale`. -/
def scaleFrom (magnitude : Dyadic) : Nat → Int → Int
  | 0, scale => scale
  | steps + 1, scale =>
    if magnitude.numerator * Nat.pow 10 (-scale).toNat <
        magnitude.denominator * Nat.pow 10 scale.toNat then
      scale
    else magnitude.scaleFrom steps (scale + 1)

/-- The number of decimal places before the point, negative for leading zeros after it. The
estimate from the binary length is at most a few units too small. -/
def scale (magnitude : Dyadic) : Int :=
  let binary := (Nat.log2 magnitude.significand : Int) + magnitude.exponent
  magnitude.scaleFrom 8 (binary * 30103 / 100000 - 2)

/-- The greatest multiple of `10 ^ exponent` that is not above the magnitude. -/
def below (magnitude : Dyadic) (exponent : Int) : Decimal :=
  ⟨magnitude.numerator * Nat.pow 10 (-exponent).toNat /
    (magnitude.denominator * Nat.pow 10 exponent.toNat), exponent⟩

/-- Whether the upper of two neighbours on a grid is the nearer, the even one on a tie. -/
def nearerAbove (magnitude : Dyadic) (number : Decimal) : Bool :=
  let middle : Decimal := ⟨2 * number.digits + 1, number.exponent⟩
  let twice := 2 * magnitude.numerator * middle.denominator
  let bound := middle.numerator * magnitude.denominator
  bound < twice || (bound == twice && number.digits % 2 == 1)

/-- The neighbour on the grid of multiples of `10 ^ exponent` that reads back, if there is one. -/
def onGrid? (magnitude : Dyadic) (exponent : Int) : Option Decimal :=
  let low := magnitude.below exponent
  let high : Decimal := ⟨low.digits + 1, exponent⟩
  match magnitude.readsBack low, magnitude.readsBack high with
  | true, true => some (if magnitude.nearerAbove low then high else low)
  | true, false => some low
  | false, true => some high
  | false, false => none

/-- The first of the finer and finer grids with a number that reads back. -/
def searchGrids (magnitude : Dyadic) : Nat → Int → Decimal
  | 0, exponent => magnitude.below exponent
  | grids + 1, exponent =>
    match magnitude.onGrid? exponent with
    | some number => number
    | none => magnitude.searchGrids grids (exponent - 1)

/-- The decimal number with the fewest digits that reads back as the magnitude. Seventeen digits
always suffice. -/
def shortest (magnitude : Dyadic) : Decimal :=
  if magnitude.significand = 0 then ⟨0, 0⟩
  else magnitude.searchGrids 17 (magnitude.scale - 1)

end Dyadic

end LinearProgramming.Numeral
