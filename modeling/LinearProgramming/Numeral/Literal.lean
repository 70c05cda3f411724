/-
This file gives a decimal literal its floating-point value, in two ways.

The nearest value reads the literal as the exact number it denotes and rounds once. The scaled
value keeps as many leading digits as a 64-bit word holds and multiplies or divides them by one
power of ten: it is faster, and in its last bits it can differ from the nearest value.
-/

namespace LinearProgramming.Numeral

/-- A decimal literal as it is written: the digits before the point, the digits after it if
there is a point, and the sign and digits of the exponent if there is one. -/
structure Literal where
  negative : Bool
  whole : List Char
  fraction : Option (List Char)
  exponent : Option (Bool × List Char)
  deriving DecidableEq

/-- The value of a decimal digit. -/
def digitValue (digit : Char) : Nat := digit.toNat - '0'.toNat

/-- The number that decimal digits denote, continuing one that is already read. -/
def readDigits (start : Nat) (digits : List Char) : Nat :=
  digits.foldl (fun number digit => 10 * number + digitValue digit) start

/-- The negative of a number, if asked for. -/
def withSign (negative : Bool) (number : Float) : Float := if negative then -number else number

/-- The largest number a 64-bit word holds. -/
def wordLimit : Nat := Nat.pow 2 64 - 1

/-- The largest exponent that is scaled by; beyond it a number is out of range or zero. -/
def exponentLimit : Nat := Nat.pow 2 31 - 1

/-- Reads digits as long as the number fits a 64-bit word, and returns the digits left over. -/
def readFitting : Nat → List Char → Nat × List Char
  | number, [] => (number, [])
  | number, digit :: rest =>
    let next := 10 * number + digitValue digit
    if next ≤ wordLimit then readFitting next rest else (number, digit :: rest)

/-- Multiplies or divides by a power of ten. Below the range of the powers the division is
repeated until it is within range or nothing is left; a product that is infinite, or an exponent
above the range, has no value. -/
def scaleByTen : Nat → Float → Int → Option Float
  | 0, _, _ => some 0
  | steps + 1, number, exponent =>
    if exponent.natAbs ≤ 308 then
      let power := Float.ofScientific 1 false exponent.natAbs
      if 0 ≤ exponent then
        let product := number * power
        if product.isInf then none else some product
      else some (number / power)
    else if number == 0 then some number
    else if 0 ≤ exponent then none
    else scaleByTen steps (number / 1e308) (exponent + 308)

namespace Literal

/-- Whether the literal is written without point and exponent. -/
def isInteger (literal : Literal) : Bool := literal.fraction.isNone && literal.exponent.isNone

/-- The natural number a literal without sign, point and exponent denotes. -/
def natural? (literal : Literal) : Option Nat :=
  if literal.isInteger && !literal.negative then some (readDigits 0 literal.whole) else none

/-- The exponent of the literal as a number. -/
def exponentValue (literal : Literal) : Int :=
  match literal.exponent with
  | none => 0
  | some (true, digits) => -(readDigits 0 digits : Int)
  | some (false, digits) => readDigits 0 digits

/-- The floating-point number nearest to the exact value of the literal. Values beyond the range
on either side are settled before a power of ten is formed. -/
def nearest (literal : Literal) : Float :=
  let fraction := literal.fraction.getD []
  let significand := readDigits (readDigits 0 literal.whole) fraction
  let exponent := literal.exponentValue - fraction.length
  let size := ((Nat.toDigits 10 significand).length : Int) + exponent
  withSign literal.negative <|
    if significand = 0 then 0
    else if 400 < size then 1 / 0
    else if size < -400 then 0
    else if 0 ≤ exponent then Float.ofScientific significand false exponent.toNat
    else Float.ofScientific significand true (-exponent).toNat

/-- The value of the literal by one scaling of its leading digits, or none where the number is
out of range. Digits before the point that do not fit count as powers of ten; digits after it
that do not fit are dropped. -/
def scaled? (literal : Literal) : Option Float :=
  let (leading, dropped) := readFitting 0 literal.whole
  let (significand, places) :=
    match literal.fraction with
    | none => (leading, 0)
    | some digits =>
      let (number, rest) := readFitting leading digits
      (number, digits.length - rest.length)
  let written := literal.exponentValue
  let magnitude :=
    if exponentLimit < written.natAbs then
      if significand ≠ 0 ∧ 0 < written then none else some 0
    else scaleByTen exponentLimit (Float.ofNat significand) (dropped.length - places + written)
  magnitude.map (withSign literal.negative)

end Literal

end LinearProgramming.Numeral
