/-
This file makes the rational numbers a scalar: every operation is exact, every number is finite,
and decimal text is cut from the exact fraction.
-/

import LinearProgramming.Numeral.Fixed
import LinearProgramming.Scalar

namespace LinearProgramming

/-- The nearest whole number, a half going away from zero. -/
def roundRational (number : Rat) : Rat :=
  if number < 0 then ((number - 1 / 2).ceil : Rat) else ((number + 1 / 2).floor : Rat)

instance : Scalar Rat where
  toZero := @Zero.ofOfNat0 Rat Rat.instOfNat
  toOne := @One.ofOfNat1 Rat Rat.instOfNat
  decidableLT := inferInstance
  decidableLE := inferInstance
  abs number := if number < 0 then -number else number
  floor number := (number.floor : Rat)
  ceil number := (number.ceil : Rat)
  round := roundRational
  isFinite _ := true
  isInfinite _ := false
  wholeText number := toString number.floor
  fixedText places number :=
    Numeral.fixedText places (number < 0) number.num.natAbs number.den

end LinearProgramming
