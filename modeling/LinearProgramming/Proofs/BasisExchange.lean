/-
This file is about exchanging one column of a basis, as linear algebra.

A basis lists one column of a matrix for each row, and its columns form a square matrix. When one
column is replaced, one operation on rows turns the old inverse into the new one. The tableau
method applies the operation to every row of its tableau and the revised method applies it to the
inverse alone, so both rest on the two statements here: the operation commutes with products from
the right, and it produces the inverse of the matrix with the new column.
-/

import Mathlib
import LinearProgramming.Revised.Inverse
import LinearProgramming.Proofs.BigM.Order

namespace LinearProgramming

variable {m n k : Nat}

/-- The columns of a matrix that a basis lists, as a square matrix. -/
def basisMatrix (a : Matrix (Fin m) (Fin n) Rat) (basis : Vector (Fin n) m) :
    Matrix (Fin m) (Fin m) Rat :=
  Matrix.of fun i position => a i (basis.get position)

@[simp] theorem basisMatrix_apply (a : Matrix (Fin m) (Fin n) Rat) (basis : Vector (Fin n) m)
    (i position : Fin m) : basisMatrix a basis i position = a i (basis.get position) := rfl

/-- A product with the matrix of a basis has the basic columns of the product. -/
theorem mul_basisMatrix_apply (inverse : Matrix (Fin m) (Fin m) Rat)
    (a : Matrix (Fin m) (Fin n) Rat) (basis : Vector (Fin n) m) (i position : Fin m) :
    (inverse * basisMatrix a basis) i position = (inverse * a) i (basis.get position) := rfl

/-- The matrix of a basis with one entry replaced has one column replaced. -/
theorem updateCol_basisMatrix (a : Matrix (Fin m) (Fin n) Rat) (basis : Vector (Fin n) m)
    (row : Fin m) (entering : Fin n) :
    (basisMatrix a basis).updateCol row (fun i => a i entering) =
      basisMatrix a (replaceEntry basis row entering) := by
  ext i position
  rw [Matrix.updateCol_apply, basisMatrix_apply, basisMatrix_apply, get_replaceEntry]
  split <;> rfl

/-- A basis whose matrix has an inverse lists no column twice. -/
theorem injective_of_inverts {inverse : Matrix (Fin m) (Fin m) Rat}
    {a : Matrix (Fin m) (Fin n) Rat} {basis : Vector (Fin n) m}
    (inverts : inverse * basisMatrix a basis = 1) : Function.Injective basis.get := by
  intro first second same
  have diagonal : (inverse * basisMatrix a basis) first first = 1 := by
    rw [inverts, Matrix.one_apply_eq]
  rw [mul_basisMatrix_apply, same, ← mul_basisMatrix_apply, inverts] at diagonal
  by_contra different
  rw [Matrix.one_apply_ne different] at diagonal
  exact zero_ne_one diagonal

/-! ### The operation on rows -/

/-- The rows after one of them is divided by its entry of a direction, and multiples of it are
taken from the others. -/
def exchangeRows (direction : Fin m → Rat) (row : Fin m) (rows : Matrix (Fin m) (Fin k) Rat) :
    Matrix (Fin m) (Fin k) Rat :=
  Matrix.of fun i j =>
    if i = row then rows row j / direction row
    else rows i j - direction i * (rows row j / direction row)

theorem exchangeRows_apply_self (direction : Fin m → Rat) (row : Fin m)
    (rows : Matrix (Fin m) (Fin k) Rat) (j : Fin k) :
    exchangeRows direction row rows row j = rows row j / direction row := if_pos rfl

theorem exchangeRows_apply_of_ne (direction : Fin m → Rat) {row i : Fin m} (other : i ≠ row)
    (rows : Matrix (Fin m) (Fin k) Rat) (j : Fin k) :
    exchangeRows direction row rows i j =
      rows i j - direction i * (rows row j / direction row) := if_neg other

/-- The operation commutes with products from the right. -/
theorem exchangeRows_mul (direction : Fin m → Rat) (row : Fin m)
    (left : Matrix (Fin m) (Fin m) Rat) (right : Matrix (Fin m) (Fin k) Rat) :
    exchangeRows direction row left * right = exchangeRows direction row (left * right) := by
  ext i j
  by_cases same : i = row
  · subst same
    rw [exchangeRows_apply_self]
    simp only [Matrix.mul_apply, exchangeRows_apply_self, Finset.sum_div]
    exact Finset.sum_congr rfl fun position _ => by ring
  · rw [exchangeRows_apply_of_ne direction same]
    simp only [Matrix.mul_apply, exchangeRows_apply_of_ne direction same, Finset.sum_div,
      Finset.mul_sum, ← Finset.sum_sub_distrib]
    exact Finset.sum_congr rfl fun position _ => by ring

/-- Applied to the inverse of a matrix, with the product of the inverse and a column as direction,
the operation gives the inverse of the matrix with that column in place of the row's. -/
theorem exchangeRows_mul_updateCol {inverse matrix : Matrix (Fin m) (Fin m) Rat}
    (inverts : inverse * matrix = 1) (column : Fin m → Rat) (row : Fin m)
    (pivot : inverse.mulVec column row ≠ 0) :
    exchangeRows (inverse.mulVec column) row inverse * matrix.updateCol row column = 1 := by
  -- times the new matrix the inverse is the identity but for one column, which is the direction
  rw [exchangeRows_mul, Matrix.mul_updateCol, inverts]
  ext i position
  by_cases inRow : i = row
  · subst inRow
    rw [exchangeRows_apply_self, Matrix.updateCol_apply]
    by_cases same : position = i
    · rw [if_pos same, same, div_self pivot, Matrix.one_apply_eq]
    · rw [if_neg same, Matrix.one_apply_ne (Ne.symm same), zero_div]
  · rw [exchangeRows_apply_of_ne _ inRow, Matrix.updateCol_apply, Matrix.updateCol_apply]
    by_cases same : position = row
    · rw [if_pos same, if_pos same, div_self pivot, mul_one, sub_self, same,
        Matrix.one_apply_ne inRow]
    · rw [if_neg same, if_neg same, Matrix.one_apply_ne (Ne.symm same), zero_div, mul_zero,
        sub_zero]

/-- The same for the inverse of a basis and a column that enters it. -/
theorem exchangeRows_inverts {inverse : Matrix (Fin m) (Fin m) Rat}
    {a : Matrix (Fin m) (Fin n) Rat} {basis : Vector (Fin n) m}
    (inverts : inverse * basisMatrix a basis = 1) (entering : Fin n) (row : Fin m)
    (pivot : (inverse * a) row entering ≠ 0) :
    exchangeRows (fun i => (inverse * a) i entering) row inverse *
      basisMatrix a (replaceEntry basis row entering) = 1 := by
  rw [← updateCol_basisMatrix]
  exact exchangeRows_mul_updateCol inverts (fun i => a i entering) row pivot

/-- The costs of the basic columns, weighed by the rows of a column, after an exchange: the
entering column's own shortfall is taken away in proportion to the row that it enters in. -/
theorem sum_exchangeRows_smul (direction : Fin m → Rat) (row : Fin m)
    (pivot : direction row ≠ 0) (rows : Matrix (Fin m) (Fin k) Rat) (basicCosts : Fin m → BigM Rat)
    (cost : BigM Rat) (j : Fin k) :
    ∑ i, exchangeRows direction row rows i j • (if i = row then cost else basicCosts i) =
      ∑ i, rows i j • basicCosts i -
        (rows row j / direction row) • (∑ i, direction i • basicCosts i - cost) := by
  have entrywise : ∀ i, exchangeRows direction row rows i j •
      (if i = row then cost else basicCosts i) =
        rows i j • basicCosts i - (rows row j / direction row) • (direction i • basicCosts i) +
          if i = row then (rows row j / direction row) • cost else 0 := by
    intro i
    by_cases same : i = row
    · subst same
      rw [exchangeRows_apply_self, if_pos rfl, if_pos rfl, smul_smul,
        div_mul_cancel₀ _ pivot, sub_self, zero_add]
    · rw [exchangeRows_apply_of_ne direction same, if_neg same, if_neg same, add_zero, smul_smul,
        sub_smul, mul_comm (direction i)]
  simp only [entrywise, Finset.sum_add_distrib, Finset.sum_sub_distrib, Finset.sum_ite_eq',
    Finset.mem_univ, if_true, ← Finset.smul_sum, smul_sub]
  abel

/-- The update of the revised method is this operation. -/
theorem toMatrix_updateInverse (inverse : DenseMatrix Rat m m) (direction : Vector Rat m)
    (row : Fin m) :
    (updateInverse inverse direction row).toMatrix =
      exchangeRows direction.get row inverse.toMatrix := by
  ext i j
  rw [DenseMatrix.toMatrix_apply, updateInverse, DenseMatrix.get_ofFn]
  by_cases same : i = row
  · subst same
    rw [exchangeRows_apply_self, if_pos rfl, get_vectorOfFn, DenseMatrix.toMatrix_apply]
  · rw [exchangeRows_apply_of_ne _ same, if_neg same, get_vectorOfFn]
    by_cases zero : direction.get i = 0
    · simp [zero]
    · simp [zero]

/-- The update of the revised method keeps the inverse. Where the inverse times a column is not zero
in a row, the update with that direction gives the two-sided inverse of the matrix in which the
column takes the place of the row's. -/
theorem updateInverse_inverts (inverse : DenseMatrix Rat m m) (matrix : Matrix (Fin m) (Fin m) Rat)
    (inverts : inverse.toMatrix * matrix = 1) (column : Vector Rat m) (row : Fin m)
    (pivot : (inverse.mulVec column).get row ≠ 0) :
    (updateInverse inverse (inverse.mulVec column) row).toMatrix *
        matrix.updateCol row column.get = 1 ∧
      matrix.updateCol row column.get *
        (updateInverse inverse (inverse.mulVec column) row).toMatrix = 1 := by
  have direction : (inverse.mulVec column).get = inverse.toMatrix.mulVec column.get :=
    funext fun i => inverse.get_mulVec_eq column i
  have updated : (updateInverse inverse (inverse.mulVec column) row).toMatrix *
      matrix.updateCol row column.get = 1 := by
    rw [toMatrix_updateInverse, direction]
    rw [direction] at pivot
    exact exchangeRows_mul_updateCol inverts column.get row pivot
  exact ⟨updated, mul_eq_one_comm.1 updated⟩

/-- The statement at a direction with a zero, whose row of the inverse is left as it is. -/
theorem updateInverse_inverts_sparseDirection :
    ∃ (inverse : DenseMatrix Rat 3 3) (matrix : Matrix (Fin 3) (Fin 3) Rat) (column : Vector Rat 3),
      inverse.toMatrix * matrix = 1 ∧ (inverse.mulVec column).get 2 ≠ 0 ∧
        (inverse.mulVec column).get 1 = 0 ∧
        (updateInverse inverse (inverse.mulVec column) 2).toMatrix *
          matrix.updateCol 2 column.get = 1 ∧
        matrix.updateCol 2 column.get *
          (updateInverse inverse (inverse.mulVec column) 2).toMatrix = 1 ∧
        updateInverse inverse (inverse.mulVec column) 2 =
          ⟨#v[#v[1, 1 / 3, -1 / 3], #v[0, 1 / 2, 0], #v[0, -1 / 3, 1 / 3]]⟩ := by
  let inverse : DenseMatrix Rat 3 3 := ⟨#v[#v[1, 0, 0], #v[0, 1 / 2, 0], #v[0, -1, 1]]⟩
  let matrix : Matrix (Fin 3) (Fin 3) Rat := !![1, 0, 0; 0, 2, 0; 0, 2, 1]
  let column : Vector Rat 3 := #v[1, 0, 3]
  have inverts : inverse.toMatrix * matrix = 1 := by decide +kernel
  have pivot : (inverse.mulVec column).get 2 ≠ 0 := by decide +kernel
  obtain ⟨left, right⟩ := updateInverse_inverts inverse matrix inverts column 2 pivot
  exact ⟨inverse, matrix, column, inverts, pivot, by decide +kernel, left, right,
    by decide +kernel⟩

end LinearProgramming
