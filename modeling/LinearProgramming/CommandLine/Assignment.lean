/-
This file reads assignments such as `2=15`, which name an item by its number and give it a value.
-/

import LinearProgramming.Numeral.Reader

namespace LinearProgramming.CommandLine

/-- White space by the property of that name: the ASCII blanks, the line separators and the
spaces of other widths. -/
def isBlank (character : Char) : Bool :=
  let code := character.toNat
  (0x9 ≤ code && code ≤ 0xD) || code == 0x20 || code == 0x85 || code == 0xA0 || code == 0x1680 ||
    (0x2000 ≤ code && code ≤ 0x200A) || code == 0x2028 || code == 0x2029 || code == 0x202F ||
    code == 0x205F || code == 0x3000

/-- The characters without the white space around them. -/
def trim (characters : List Char) : List Char :=
  ((characters.dropWhile isBlank).reverse.dropWhile isBlank).reverse

/-- An assignment as an index counted from zero and a finite value. The text numbers its items
from one, the first equals sign divides it, and white space around both parts is ignored. -/
def assignment? (text : String) : Option (Nat × Float) :=
  match text.toList.span (· != '=') with
  | (index, _ :: value) => do
    let index ← Numeral.word? (trim index)
    let literal ← Numeral.decimal? (trim value)
    let value := literal.nearest
    if index = 0 || !value.isFinite then none else some (index - 1, value)
  | (_, []) => none

end LinearProgramming.CommandLine
