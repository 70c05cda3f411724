/-
This file reads JSON text.

The reader follows the grammar of the format: one value with white space around it, no comments,
no trailing commas, no leading zeros. Each function takes the characters that are left and
returns its result with the characters behind it, or nothing when the text is malformed.
-/

import LinearProgramming.Json
import LinearProgramming.Numeral.Reader

namespace LinearProgramming.Json

/-! ### White space, digits and literals -/

/-- The white space of the format: space, tab, line feed and carriage return. -/
def isBlank (character : Char) : Bool :=
  character == ' ' || character == '\t' || character == '\n' || character == '\r'

/-- The characters from the first one on that is no white space. -/
def skipBlank (characters : List Char) : List Char := characters.dropWhile isBlank

/-- The characters after a given word. -/
def expect : List Char → List Char → Option (List Char)
  | [], rest => some rest
  | wanted :: word, character :: rest => if wanted = character then expect word rest else none
  | _ :: _, [] => none

/-- The digits before the point: a single zero or a run that does not start with one. -/
def readWhole : List Char → Option (List Char × List Char)
  | '0' :: rest =>
    match rest with
    | next :: _ => if next.isDigit then none else some (['0'], rest)
    | [] => some (['0'], [])
  | characters => Numeral.readRun characters

/-- The digits after the point, if there is a point. -/
def readFraction : List Char → Option (Option (List Char) × List Char)
  | '.' :: rest => (Numeral.readRun rest).map fun run => (some run.1, run.2)
  | characters => some (none, characters)

/-- A number without its sign. -/
def readUnsigned (negative : Bool) (characters : List Char) :
    Option (Numeral.Literal × List Char) := do
  let (whole, afterWhole) ← readWhole characters
  let (fraction, afterFraction) ← readFraction afterWhole
  let (exponent, rest) ← Numeral.readExponent afterFraction
  return (⟨negative, whole, fraction, exponent⟩, rest)

/-- A number. -/
def readNumber : List Char → Option (Numeral.Literal × List Char)
  | '-' :: rest => readUnsigned true rest
  | characters => readUnsigned false characters

/-! ### Text -/

/-- The value of a hexadecimal digit. -/
def hexValue? (character : Char) : Option Nat :=
  if character.isDigit then some (character.toNat - '0'.toNat)
  else if 'a' ≤ character ∧ character ≤ 'f' then some (character.toNat - 'a'.toNat + 10)
  else if 'A' ≤ character ∧ character ≤ 'F' then some (character.toNat - 'A'.toNat + 10)
  else none

/-- The 16-bit unit of four hexadecimal digits. -/
def unitValue? (a b c d : Char) : Option Nat := do
  let first ← hexValue? a
  let second ← hexValue? b
  let third ← hexValue? c
  let fourth ← hexValue? d
  return ((first * 16 + second) * 16 + third) * 16 + fourth

/-- The character of an escape of one letter. -/
def simpleEscape? : Char → Option Char
  | '"' => some '"'
  | '\\' => some '\\'
  | '/' => some '/'
  | 'b' => some '\x08'
  | 'f' => some '\x0c'
  | 'n' => some '\n'
  | 'r' => some '\r'
  | 't' => some '\t'
  | _ => none

/-- A piece of a text: a character, or one 16-bit unit that was written as an escape. -/
inductive Piece where
  | character (value : Char)
  | unit (value : Nat)

/-- The pieces of a text up to its closing quote. A control character is refused. -/
def readPieces (pieces : List Piece) : List Char → Option (List Piece × List Char)
  | [] => none
  | '"' :: rest => some (pieces.reverse, rest)
  | '\\' :: 'u' :: a :: b :: c :: d :: rest =>
    match unitValue? a b c d with
    | some value => readPieces (.unit value :: pieces) rest
    | none => none
  | '\\' :: letter :: rest =>
    match simpleEscape? letter with
    | some value => readPieces (.character value :: pieces) rest
    | none => none
  | value :: rest =>
    if value = '\\' ∨ value.toNat < 0x20 then none
    else readPieces (.character value :: pieces) rest

/-- The characters of a text. Two units that form a surrogate pair are one character; half a
pair on its own is none. -/
def join : List Piece → Option (List Char)
  | [] => some []
  | .character value :: rest => (join rest).map (value :: ·)
  | .unit high :: rest =>
    if 0xD800 ≤ high ∧ high < 0xDC00 then
      match rest with
      | .unit low :: rest =>
        if 0xDC00 ≤ low ∧ low < 0xE000 then
          (join rest).map (Char.ofNat (0x10000 + (high - 0xD800) * 0x400 + (low - 0xDC00)) :: ·)
        else none
      | _ => none
    else if 0xDC00 ≤ high ∧ high < 0xE000 then none
    else (join rest).map (Char.ofNat high :: ·)

/-- A text after its opening quote. -/
def readText (characters : List Char) : Option (Option String × List Char) :=
  (readPieces [] characters).map fun run => ((join run.1).map String.ofList, run.2)

/-! ### Values -/

mutual

/-- One value, with white space in front of it. The fuel bounds the number of nested calls. -/
def readValue (fuel : Nat) (characters : List Char) : Option (Json × List Char) :=
  match fuel with
  | 0 => none
  | fuel + 1 =>
    match skipBlank characters with
    | [] => none
    | '"' :: rest => (readText rest).map fun run => (.text run.1, run.2)
    | '[' :: rest =>
      match skipBlank rest with
      | ']' :: rest => some (.array [], rest)
      | _ => readElements fuel [] rest
    | '{' :: rest =>
      match skipBlank rest with
      | '}' :: rest => some (.object [], rest)
      | _ => readMembers fuel [] rest
    | 'n' :: rest => (expect ['u', 'l', 'l'] rest).map fun rest => (.null, rest)
    | 't' :: rest => (expect ['r', 'u', 'e'] rest).map fun rest => (.boolean true, rest)
    | 'f' :: rest => (expect ['a', 'l', 's', 'e'] rest).map fun rest => (.boolean false, rest)
    | rest => (readNumber rest).map fun run => (.number run.1, run.2)

/-- The elements of an array up to its closing bracket. -/
def readElements (fuel : Nat) (elements : List Json) (characters : List Char) :
    Option (Json × List Char) :=
  match fuel with
  | 0 => none
  | fuel + 1 =>
    match readValue fuel characters with
    | none => none
    | some (element, rest) =>
      match skipBlank rest with
      | ',' :: rest => readElements fuel (element :: elements) rest
      | ']' :: rest => some (.array (element :: elements).reverse, rest)
      | _ => none

/-- The members of an object up to its closing brace. -/
def readMembers (fuel : Nat) (members : List (Option String × Json)) (characters : List Char) :
    Option (Json × List Char) :=
  match fuel with
  | 0 => none
  | fuel + 1 =>
    match skipBlank characters with
    | '"' :: rest =>
      match readText rest with
      | none => none
      | some (name, rest) =>
        match skipBlank rest with
        | ':' :: rest =>
          match readValue fuel rest with
          | none => none
          | some (value, rest) =>
            match skipBlank rest with
            | ',' :: rest => readMembers fuel ((name, value) :: members) rest
            | '}' :: rest => some (.object ((name, value) :: members).reverse, rest)
            | _ => none
        | _ => none
    | _ => none

end

/-- The value a text denotes, or none when the text is not one value. Every nested call takes
at least one character, so twice the length is fuel enough. -/
def read? (text : String) : Option Json :=
  let characters := text.toList
  match readValue (2 * characters.length + 2) characters with
  | some (value, rest) => if (skipBlank rest).isEmpty then some value else none
  | none => none

end LinearProgramming.Json
