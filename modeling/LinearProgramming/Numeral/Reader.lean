/-
This file reads the parts of decimal literals from characters.

Each function takes a part from the front and returns it with the characters behind it. The
grammars that use them differ in which parts may be missing.
-/

import LinearProgramming.Numeral.Literal

namespace LinearProgramming.Numeral

/-- The longest run of digits, which must not be empty. -/
def readRun (characters : List Char) : Option (List Char × List Char) :=
  match characters.span Char.isDigit with
  | ([], _) => none
  | run => some run

/-- A sign, if there is one: true for a minus sign. -/
def readSign : List Char → Bool × List Char
  | '-' :: rest => (true, rest)
  | '+' :: rest => (false, rest)
  | characters => (false, characters)

/-- The sign and the digits of an exponent, if there is one. -/
def readExponent : List Char → Option (Option (Bool × List Char) × List Char)
  | [] => some (none, [])
  | character :: rest =>
    if character = 'e' ∨ character = 'E' then
      let (negative, digits) := readSign rest
      (readRun digits).map fun run => (some (negative, run.1), run.2)
    else some (none, character :: rest)

/-- A whole text as a decimal literal. A sign may stand in front, and digits may be missing on
one side of the point. -/
def decimal? (text : List Char) : Option Literal := do
  let (negative, unsigned) := readSign text
  let (whole, afterWhole) := unsigned.span Char.isDigit
  let (fraction, afterFraction) := match afterWhole with
    | '.' :: rest =>
      let (digits, rest) := rest.span Char.isDigit
      (some digits, rest)
    | rest => (none, rest)
  if whole.isEmpty && (fraction.getD []).isEmpty then none
  else
    let (exponent, rest) ← readExponent afterFraction
    if rest.isEmpty then some ⟨negative, whole, fraction, exponent⟩ else none

/-- A whole text as a natural number that fits a 64-bit word. A plus sign may stand in front. -/
def word? (text : List Char) : Option Nat :=
  let digits := match text with
    | '+' :: rest => rest
    | _ => text
  if digits.isEmpty || !digits.all Char.isDigit then none
  else
    let number := readDigits 0 digits
    if number ≤ wordLimit then some number else none

end LinearProgramming.Numeral
