/-
This file writes JSON documents.

A document is a value whose numbers are counts or measured quantities. Quantities are written by
the fewest digits that identify them, always with a point or an exponent, and those that are not
finite are written as null.
-/

import LinearProgramming.Numeral.Shortest

namespace LinearProgramming

/-- A value to be written. The members of a record keep their order. -/
inductive Document where
  | null
  | boolean (value : Bool)
  | count (number : Nat)
  | quantity (number : Float)
  | text (characters : String)
  | list (elements : List Document)
  | record (members : List (String × Document))

namespace Document

/-- The document, or null where there is none. -/
def orNull (document : Option Document) : Document := document.getD .null

/-! ### Order -/

mutual

/-- The document with the members of every record in alphabetical order. -/
def sorted : Document → Document
  | .list elements => .list (sortedElements elements)
  | .record members =>
    .record ((sortedMembers members).mergeSort fun left right => left.1 ≤ right.1)
  | document => document

/-- The elements of a list, each sorted. -/
def sortedElements : List Document → List Document
  | [] => []
  | element :: rest => sorted element :: sortedElements rest

/-- The members of a record, each sorted, in the order they have. -/
def sortedMembers : List (String × Document) → List (String × Document)
  | [] => []
  | (name, value) :: rest => (name, sorted value) :: sortedMembers rest

end

/-! ### Numbers -/

/-- The digits of a positive number with its point put in. Up to sixteen places before the point
and four zeros after it are written out; beyond them the number has an exponent. -/
def layOut (number : Numeral.Decimal) : List Char :=
  let digits := Numeral.digits number.digits
  let point : Int := number.exponent + digits.length
  if 0 ≤ number.exponent ∧ point ≤ 16 then
    digits ++ List.replicate number.exponent.toNat '0' ++ ['.', '0']
  else if 0 < point ∧ point ≤ 16 then
    digits.take point.toNat ++ '.' :: digits.drop point.toNat
  else if -5 < point ∧ point ≤ 0 then
    '0' :: '.' :: List.replicate (-point).toNat '0' ++ digits
  else
    let exponent := point - 1
    let tail := 'e' :: (if exponent < 0 then ['-'] else []) ++ Numeral.digits exponent.natAbs
    match digits with
    | [single] => single :: tail
    | first :: rest => first :: '.' :: rest ++ tail
    | [] => tail

/-- A quantity. -/
def quantityText (number : Float) : String :=
  if number.isFinite then
    let sign := if Numeral.signBit number then "-" else ""
    if number == 0 then sign ++ "0.0"
    else sign ++ String.ofList (layOut (Numeral.Dyadic.ofFloat number).shortest)
  else "null"

/-! ### Text -/

/-- The hexadecimal digits of a number below 256. -/
def hexPair (number : Nat) : List Char :=
  Numeral.padded 2 (Nat.toDigits 16 number)

/-- A character as it stands in a text: quotes, backslashes and control characters are
escaped. -/
def escape (character : Char) : List Char :=
  match character with
  | '"' => ['\\', '"']
  | '\\' => ['\\', '\\']
  | '\x08' => ['\\', 'b']
  | '\x0c' => ['\\', 'f']
  | '\n' => ['\\', 'n']
  | '\r' => ['\\', 'r']
  | '\t' => ['\\', 't']
  | _ =>
    if character.toNat < 0x20 then ['\\', 'u', '0', '0'] ++ hexPair character.toNat
    else [character]

/-- A text in quotes. -/
def quoted (characters : String) : String :=
  "\"" ++ String.ofList (characters.toList.flatMap escape) ++ "\""

/-! ### Layout -/

/-- A line feed and two spaces for each level of nesting. -/
def newLine (depth : Nat) : String := "\n" ++ String.ofList (List.replicate (2 * depth) ' ')

/-- Items on lines of their own between brackets. Without items the brackets touch. -/
def block (depth : Nat) (opening closing : String) (items : List String) : String :=
  if items.isEmpty then opening ++ closing
  else
    opening ++ newLine (depth + 1) ++
      String.intercalate ("," ++ newLine (depth + 1)) items ++ newLine depth ++ closing

mutual

/-- The document with its elements and members on lines of their own. -/
def pretty (depth : Nat) : Document → String
  | .null => "null"
  | .boolean value => if value then "true" else "false"
  | .count number => toString number
  | .quantity number => quantityText number
  | .text characters => quoted characters
  | .list elements => block depth "[" "]" (prettyElements (depth + 1) elements)
  | .record members => block depth "\x7b" "\x7d" (prettyMembers (depth + 1) members)

/-- The elements of a list, each written as a document. -/
def prettyElements (depth : Nat) : List Document → List String
  | [] => []
  | element :: rest => pretty depth element :: prettyElements depth rest

/-- The members of a record, each with its name in front. -/
def prettyMembers (depth : Nat) : List (String × Document) → List String
  | [] => []
  | (name, value) :: rest =>
    (quoted name ++ ": " ++ pretty depth value) :: prettyMembers depth rest

end

end Document

end LinearProgramming
