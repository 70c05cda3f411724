/-
This file writes non-negative fractions with a fixed number of decimal places.

The fraction is exact, so the text depends on the value alone: it is the multiple of the last
place that is nearest, and of two equally near ones the even one.
-/

namespace LinearProgramming.Numeral

/-- The quotient of two natural numbers to the nearest natural number, a half going to the even
neighbour. -/
def roundHalfEven (numerator denominator : Nat) : Nat :=
  let quotient := numerator / denominator
  let twice := 2 * (numerator % denominator)
  if twice < denominator ∨ (twice = denominator ∧ quotient % 2 = 0) then quotient
  else quotient + 1

/-- The decimal digits of a natural number, most significant first. -/
def digits (number : Nat) : List Char := Nat.toDigits 10 number

/-- Digits filled up with zeros on the left to a given length. -/
def padded (length : Nat) (characters : List Char) : List Char :=
  List.replicate (length - characters.length) '0' ++ characters

/-- A number of units of the last of `places` decimal places, with the point put in. -/
def pointed (places units : Nat) : List Char :=
  if places = 0 then digits units
  else digits (units / Nat.pow 10 places) ++
    '.' :: padded places (digits (units % Nat.pow 10 places))

/-- The text of a fraction with `places` digits after the point. The sign is written whenever it
is asked for, also before zeros. -/
def fixedText (places : Nat) (negative : Bool) (numerator denominator : Nat) : String :=
  let unsigned := pointed places (roundHalfEven (numerator * Nat.pow 10 places) denominator)
  String.ofList (if negative then '-' :: unsigned else unsigned)

/-- A list without the copies of one element at its end. -/
def dropTrailing (last : Char) (characters : List Char) : List Char :=
  (characters.reverse.dropWhile (· == last)).reverse

/-- Decimal text without the zeros at its end, and then without a point at its end. -/
def trimmed (text : String) : String :=
  String.ofList (dropTrailing '.' (dropTrailing '0' text.toList))

end LinearProgramming.Numeral
