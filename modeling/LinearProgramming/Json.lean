/-
This file holds the values of the JSON format, as far as a problem file needs them.

Numbers keep their digits, so that a reader can decide how to round them. A text can come
without characters: an escape for half of a surrogate pair is well formed but denotes no
character, and only a reader that uses the text has to refuse it.
-/

import LinearProgramming.Numeral.Literal

namespace LinearProgramming

/-- A JSON value. The members of an object keep their order, and a name may occur twice. -/
inductive Json where
  | null
  | boolean (value : Bool)
  | number (literal : Numeral.Literal)
  | text (characters : Option String)
  | array (elements : List Json)
  | object (members : List (Option String × Json))

namespace Json

/-- The members of an object with a given name, in order. -/
def membersNamed (name : String) (members : List (Option String × Json)) : List Json :=
  members.filterMap fun member => if member.1 == some name then some member.2 else none

end Json

end LinearProgramming
