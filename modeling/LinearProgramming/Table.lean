/-
This file holds matrices whose shape is only known when a program runs.

They are what a caller hands over as a list of rows. A table answers a question about a place
outside of it with nothing. As a list of rows a table without columns is empty, however many rows
it has.
-/

import LinearProgramming.DenseMatrix

namespace LinearProgramming

/-- A matrix together with its shape. -/
structure Table (α : Type) where
  rowCount : Nat
  columnCount : Nat
  entries : DenseMatrix α rowCount columnCount

namespace Table

variable {α : Type}

/-- The table with given rows. They must all be as long as the first. -/
def ofLists? (rows : List (List α)) : Option (Table α) :=
  let columnCount := (rows.head?.map List.length).getD 0
  match rows.mapM (vectorOf? columnCount) with
  | some vectors => some ⟨vectors.length, columnCount, ⟨vectors.toArray, by simp⟩⟩
  | none => none

/-- The rows as lists, none where there are no columns. -/
def toLists (table : Table α) : List (List α) :=
  if table.columnCount = 0 then [] else table.entries.toLists

/-- The entry at a place inside the table. -/
def get? (table : Table α) (i j : Nat) : Option α :=
  if inRows : i < table.rowCount then
    if inColumns : j < table.columnCount then
      some (table.entries.get ⟨i, inRows⟩ ⟨j, inColumns⟩)
    else none
  else none

/-- The table with the entry at a place inside it replaced. -/
def set? (table : Table α) (i j : Nat) (entry : α) : Option (Table α) :=
  if inRows : i < table.rowCount then
    if inColumns : j < table.columnCount then
      some { table with entries := table.entries.set ⟨i, inRows⟩ ⟨j, inColumns⟩ entry }
    else none
  else none

/-- A row. Without columns every row is empty, also one that is not there. -/
def row? (table : Table α) (i : Nat) : Option (List α) :=
  if table.columnCount = 0 then some []
  else if inRows : i < table.rowCount then some (table.entries.row ⟨i, inRows⟩).toList
  else none

/-- A column. Without rows every column is empty, also one that is not there. -/
def column? (table : Table α) (j : Nat) : Option (List α) :=
  if table.rowCount = 0 then some []
  else if inColumns : j < table.columnCount then
    some (table.entries.column ⟨j, inColumns⟩).toList
  else none

variable [Scalar α]

/-- The table of zeros of a given shape. -/
def zero (rowCount columnCount : Nat) : Table α := ⟨rowCount, columnCount, .zero⟩

/-- The square table with ones on the diagonal. -/
def identity (count : Nat) : Table α := ⟨count, count, .identity⟩

/-- The table with one row multiplied by a factor. -/
def scaleRow? (table : Table α) (i : Nat) (factor : α) : Option (Table α) :=
  if table.columnCount = 0 then some table
  else if inRows : i < table.rowCount then
    some { table with entries := table.entries.mapRow ⟨i, inRows⟩ (· * factor) }
  else none

/-- The table times a list with one number per column. -/
def mulList? (table : Table α) (numbers : List α) : Option (List α) :=
  if numbers.length = table.columnCount then
    some (table.toLists.map fun row => Scalar.dot row numbers)
  else none

/-- The table times a column of another table, which has one row per column of the first. -/
def mulColumn? (table other : Table α) (j : Nat) : Option (List α) :=
  if other.rowCount = table.columnCount then
    if table.toLists.isEmpty then some []
    else (other.column? j).bind table.mulList?
  else none

/-- Two tables of one shape with equal entries. -/
def agrees (left right : Table α) : Bool :=
  left.rowCount == right.rowCount && left.columnCount == right.columnCount &&
    left.entries.toLists == right.entries.toLists

end Table

end LinearProgramming
