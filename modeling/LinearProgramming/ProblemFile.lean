/-
This file reads problems from JSON files.

A file is an object with the members `variables`, `objective`, `minimize`, `integer` and
`constraints`, of which the second and the last are required. A constraint has the members
`name`, `coefficients`, `op` and `rhs`. Members with other names are passed over, a member that
occurs twice is refused, and an object may also be written as the array of all its members in
order. Numbers must lie in the range of floating-point numbers.
-/

import LinearProgramming.Json.Reader
import LinearProgramming.Problem

namespace LinearProgramming

/-- A problem as it stands in a file: names and the marks of integral variables can be left
out. -/
structure ProblemFile where
  variableNames : Option (List String)
  objective : List Float
  sense : Sense
  integral : Option (List Bool)
  constraints : List (Constraint Float)

namespace ProblemFile

/-! ### Members -/

/-- The members of a value in the order of the given names. An array must have one element for
each; an object may lack some, but none of the names may occur twice. -/
def membersOf (names : List String) : Json → Option (List (Option Json))
  | .array elements =>
    if elements.length = names.length then some (elements.map some) else none
  | .object members =>
    if members.all fun member => member.1.isSome then
      names.mapM fun name =>
        match Json.membersNamed name members with
        | [] => some none
        | [value] => some (some value)
        | _ => none
    else none
  | _ => none

/-- A list of values, each read in the same way. -/
def listOf {β : Type} (read : Json → Option β) : Json → Option (List β)
  | .array elements => elements.mapM read
  | _ => none

/-- A value that may be null or missing. -/
def optional {β : Type} (read : Json → Option β) : Option Json → Option (Option β)
  | none | some .null => some none
  | some value => (read value).map some

/-- A text. -/
def text : Json → Option String
  | .text characters => characters
  | _ => none

/-- A truth value. -/
def boolean : Json → Option Bool
  | .boolean value => some value
  | _ => none

/-- A number within range. -/
def number : Json → Option Float
  | .number literal => literal.scaled?
  | _ => none

/-- A relation by one of its spellings. -/
def relationNamed : String → Option Relation
  | "<=" | "le" | "≤" => some .atMost
  | ">=" | "ge" | "≥" => some .atLeast
  | "=" | "eq" | "==" => some .equal
  | _ => none

/-- A relation: its spelling, or an object whose only member has that name and the value null. -/
def relation : Json → Option Relation
  | .text (some name) => relationNamed name
  | .object [(some name, .null)] => relationNamed name
  | _ => none

/-! ### Problems -/

/-- A constraint at a position counted from zero, by which it is named if it has no name. -/
def constraintAt (position : Nat) (value : Json) : Option (Constraint Float) := do
  match ← membersOf ["name", "coefficients", "op", "rhs"] value with
  | [name, some coefficients, some op, some rhs] =>
    let name ← optional text name
    let coefficients ← listOf number coefficients
    let relation ← relation op
    let rhs ← number rhs
    return ⟨name.getD (Problem.defaultName position), coefficients, relation, rhs⟩
  | _ => none

/-- The constraints of a file, each named by its position if it has no name. -/
def constraintList : Json → Option (List (Constraint Float))
  | .array elements => elements.zipIdx.mapM fun element => constraintAt element.2 element.1
  | _ => none

/-- The sense, which is to maximize where nothing is said. -/
def senseOf : Option Json → Option Sense
  | none => some .maximize
  | some value => (boolean value).map fun minimize => if minimize then .minimize else .maximize

/-- The content of a file as a problem, or none where it is not one. -/
def ofJson? (value : Json) : Option ProblemFile := do
  let members ← membersOf ["variables", "objective", "minimize", "integer", "constraints"] value
  match members with
  | [names, some objective, minimize, integer, some constraints] =>
    let variableNames ← optional (listOf text) names
    let objective ← listOf number objective
    let sense ← senseOf minimize
    let integral ← optional (listOf boolean) integer
    let constraints ← constraintList constraints
    return { variableNames, objective, sense, integral, constraints }
  | _ => none

/-- The text of a file as a problem. -/
def read? (text : String) : Option ProblemFile := (Json.read? text).bind ofJson?

/-- Which variables must be integral: all of them where nothing is said. -/
def integralMask (file : ProblemFile) : List Bool :=
  file.integral.getD (List.replicate file.objective.length true)

/-- The problem of the file. Variables without names are numbered; with names there must be one
for each objective coefficient. -/
def toProblem? (file : ProblemFile) : Option (Problem Float) :=
  let names := file.variableNames.getD (Problem.numberedNames file.objective.length)
  if names.length = file.objective.length then
    some ⟨names, file.objective, file.sense, file.constraints⟩
  else none

end ProblemFile

end LinearProgramming
