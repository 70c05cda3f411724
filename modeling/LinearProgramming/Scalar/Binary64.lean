/-
This file makes the 64-bit binary floating-point numbers a scalar.

Arithmetic and comparison are those of the format, so a comparison with an undefined result is
false and an overflow is an infinity. Text is written from the exact value of a number: a whole
number by the fewest digits that identify it, filled up with zeros.
-/

import LinearProgramming.Numeral.Shortest
import LinearProgramming.Scalar

namespace LinearProgramming

/-- The text of a number that is not finite. -/
def nonFiniteText (number : Float) : String :=
  if number.isNaN then "NaN" else if number < 0 then "-inf" else "inf"

/-- A whole number in positional notation, by the fewest digits that identify it. -/
def wholeFloatText (number : Float) : String :=
  let unsigned := (Numeral.Dyadic.ofFloat number).shortest
  let digits := Numeral.digits unsigned.digits ++ List.replicate unsigned.exponent.toNat '0'
  String.ofList (if Numeral.signBit number then '-' :: digits else digits)

instance : Scalar Float where
  decidableLT := inferInstance
  decidableLE := inferInstance
  abs := Float.abs
  floor := Float.floor
  ceil := Float.ceil
  round := Float.round
  isFinite := Float.isFinite
  isInfinite := Float.isInf
  wholeText number := if number.isFinite then wholeFloatText number else nonFiniteText number
  fixedText places number :=
    if number.isFinite then
      let magnitude := Numeral.Dyadic.ofFloat number
      Numeral.fixedText places (Numeral.signBit number) magnitude.numerator magnitude.denominator
    else nonFiniteText number

end LinearProgramming
