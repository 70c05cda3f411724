/-
This file reads a floating-point number as the exact number it denotes.

A finite number of the 64-bit binary format is a sign and a dyadic magnitude, a natural number
times a power of two. Everything that writes such a number in decimal starts from this value,
and not from a rounded one.
-/

namespace LinearProgramming.Numeral

/-- A magnitude `significand * 2 ^ exponent`. -/
structure Dyadic where
  significand : Nat
  exponent : Int

namespace Dyadic

/-- The numerator of the magnitude as a fraction of natural numbers. -/
def numerator (magnitude : Dyadic) : Nat :=
  magnitude.significand * Nat.pow 2 magnitude.exponent.toNat

/-- The denominator of the magnitude as a fraction of natural numbers. -/
def denominator (magnitude : Dyadic) : Nat := Nat.pow 2 (-magnitude.exponent).toNat

/-- The magnitude a floating-point number denotes. An exponent field of zero marks the numbers
below the normal range, which have no hidden leading bit. -/
def ofFloat (number : Float) : Dyadic :=
  let bits := number.toBits.toNat
  let fraction : Nat := bits % Nat.pow 2 52
  let field : Nat := bits / Nat.pow 2 52 % Nat.pow 2 11
  if field = 0 then ⟨fraction, -1074⟩ else ⟨fraction + Nat.pow 2 52, Int.ofNat field - 1075⟩

end Dyadic

/-- The sign bit of a floating-point number, which a zero carries too. -/
def signBit (number : Float) : Bool := number.toBits.toNat / Nat.pow 2 63 % 2 == 1

end LinearProgramming.Numeral
