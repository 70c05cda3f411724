/-
This file holds matrices whose shape is part of their type, stored entry by entry.

An entry is reached by indices that are in range by their types. A matrix is made from a
function of the indices, and `get_ofFn` with `ext_get` says that it is that function: proofs see
entries, and programs evaluate each entry once.
-/

import LinearProgramming.Scalar

namespace LinearProgramming

/-- A list as a vector of a given length, if it has that length. -/
def vectorOf? {β : Type} (length : Nat) (list : List β) : Option (Vector β length) :=
  if same : list.length = length then some ⟨list.toArray, by simpa using same⟩ else none

@[simp] theorem get_vectorOfFn {β : Type} {n : Nat} (entry : Fin n → β) (i : Fin n) :
    (Vector.ofFn entry).get i = entry i :=
  Vector.getElem_ofFn i.isLt

/-- A vector with one entry replaced. -/
def replaceEntry {β : Type} {n : Nat} (vector : Vector β n) (i : Fin n) (entry : β) :
    Vector β n :=
  vector.set i entry i.isLt

@[simp] theorem get_replaceEntry {β : Type} {n : Nat} (vector : Vector β n) (i j : Fin n)
    (entry : β) : (replaceEntry vector i entry).get j = if j = i then entry else vector.get j := by
  by_cases same : j = i
  · subst same
    rw [if_pos rfl]
    exact Vector.getElem_set_self j.isLt
  · rw [if_neg same]
    exact Vector.getElem_set_ne i.isLt j.isLt fun equal => same (Fin.ext equal.symm)

/-- A matrix with `m` rows and `n` columns. -/
structure DenseMatrix (α : Type) (m n : Nat) where
  rows : Vector (Vector α n) m
  deriving BEq, DecidableEq

namespace DenseMatrix

variable {α : Type} {m n k : Nat}

/-- The entry in a row and a column. -/
def get (matrix : DenseMatrix α m n) (i : Fin m) (j : Fin n) : α :=
  (matrix.rows.get i).get j

/-- The matrix with given entries. -/
def ofFn (entry : Fin m → Fin n → α) : DenseMatrix α m n :=
  ⟨Vector.ofFn fun i => Vector.ofFn fun j => entry i j⟩

@[simp] theorem get_ofFn (entry : Fin m → Fin n → α) (i : Fin m) (j : Fin n) :
    (ofFn entry).get i j = entry i j := by
  simp [get, ofFn]

theorem ext_get {left right : DenseMatrix α m n}
    (same : ∀ i j, left.get i j = right.get i j) : left = right := by
  obtain ⟨left⟩ := left
  obtain ⟨right⟩ := right
  refine congrArg DenseMatrix.mk (Vector.ext fun i inRows => Vector.ext fun j inColumns => ?_)
  exact same ⟨i, inRows⟩ ⟨j, inColumns⟩

/-- A row as a vector. -/
def row (matrix : DenseMatrix α m n) (i : Fin m) : Vector α n := matrix.rows.get i

@[simp] theorem get_row (matrix : DenseMatrix α m n) (i : Fin m) (j : Fin n) :
    (matrix.row i).get j = matrix.get i j := rfl

/-- A column as a vector. -/
def column (matrix : DenseMatrix α m n) (j : Fin n) : Vector α m :=
  Vector.ofFn fun i => matrix.get i j

@[simp] theorem get_column (matrix : DenseMatrix α m n) (i : Fin m) (j : Fin n) :
    (matrix.column j).get i = matrix.get i j := by
  simp [column]

/-- The rows as lists. -/
def toLists (matrix : DenseMatrix α m n) : List (List α) := matrix.rows.toList.map Vector.toList

/-- The matrix with one entry replaced. -/
def set (matrix : DenseMatrix α m n) (i : Fin m) (j : Fin n) (entry : α) : DenseMatrix α m n :=
  ofFn fun row column => if row = i ∧ column = j then entry else matrix.get row column

@[simp] theorem get_set (matrix : DenseMatrix α m n) (i row : Fin m) (j column : Fin n)
    (entry : α) : (matrix.set i j entry).get row column =
      if row = i ∧ column = j then entry else matrix.get row column := by
  simp [set]

/-- The matrix with a function applied to the entries of one row. -/
def mapRow (matrix : DenseMatrix α m n) (i : Fin m) (change : α → α) : DenseMatrix α m n :=
  ofFn fun row column =>
    if row = i then change (matrix.get row column) else matrix.get row column

@[simp] theorem get_mapRow (matrix : DenseMatrix α m n) (i row : Fin m) (column : Fin n)
    (change : α → α) : (matrix.mapRow i change).get row column =
      if row = i then change (matrix.get row column) else matrix.get row column := by
  simp [mapRow]

variable [Scalar α]

/-- The matrix of zeros. -/
def zero : DenseMatrix α m n := ofFn fun _ _ => 0

@[simp] theorem get_zero (i : Fin m) (j : Fin n) : (zero : DenseMatrix α m n).get i j = 0 := by
  simp [zero]

/-- The square matrix with ones on the diagonal. -/
def identity : DenseMatrix α n n := ofFn fun i j => if i = j then 1 else 0

@[simp] theorem get_identity (i j : Fin n) :
    (identity : DenseMatrix α n n).get i j = if i = j then 1 else 0 := by
  simp [identity]

/-- The matrix times a vector. -/
def mulVec (matrix : DenseMatrix α m n) (vector : Vector α n) : Vector α m :=
  Vector.ofFn fun i => Scalar.dot (matrix.row i).toList vector.toList

@[simp] theorem get_mulVec (matrix : DenseMatrix α m n) (vector : Vector α n) (i : Fin m) :
    (matrix.mulVec vector).get i = Scalar.dot (matrix.row i).toList vector.toList := by
  simp [mulVec]

end DenseMatrix

end LinearProgramming
