/-
This file reads the sums of the solvers over the exact rationals as sums over index types.

The solvers add from left to right along lists and vectors. Over the rationals the order does not
matter, so every scalar product is a finite sum and a matrix of the solvers acts as a matrix of
linear algebra.
-/

import Mathlib
import LinearProgramming.DenseMatrix
import LinearProgramming.Scalar.Exact

namespace LinearProgramming

/-! ### Lists of a known length -/

/-- The entries of two lists of one length combined are the combined entries by index. -/
theorem zipWith_eq_ofFn {β γ δ : Type} (combine : β → γ → δ) (left : List β) (right : List γ)
    (count : Nat) (leftLength : left.length = count) (rightLength : right.length = count) :
    List.zipWith combine left right = List.ofFn fun i : Fin count =>
      combine (left.get (i.cast leftLength.symm)) (right.get (i.cast rightLength.symm)) := by
  refine List.ext_get (by simp [leftLength, rightLength]) fun position inLeft inRight => ?_
  simp

theorem vector_toList_get {β : Type} {n : Nat} (vector : Vector β n) (i : Fin n) :
    vector.toList.get (i.cast vector.length_toList.symm) = vector.get i := by
  simp [Vector.get]

/-- The entries of two vectors combined are the combined entries by index. -/
theorem zipWith_toList {β γ δ : Type} {n : Nat} (combine : β → γ → δ) (left : Vector β n)
    (right : Vector γ n) :
    List.zipWith combine left.toList right.toList =
      List.ofFn fun i => combine (left.get i) (right.get i) := by
  rw [zipWith_eq_ofFn combine _ _ n left.length_toList right.length_toList]
  simp only [vector_toList_get]

theorem vector_ext_get {β : Type} {n : Nat} {left right : Vector β n}
    (same : ∀ i, left.get i = right.get i) : left = right :=
  Vector.ext fun i inRange => same ⟨i, inRange⟩

/-! ### Sums and products -/

theorem Scalar.sum_eq (terms : List Rat) : Scalar.sum terms = terms.sum := by
  have negated : (-0 : Rat) = 0 := neg_zero
  unfold Scalar.sum
  rw [List.sum_eq_foldl]
  exact congrArg (fun start => terms.foldl (· + ·) start) negated

/-- The product of two lists of one length as a sum over their indices. -/
theorem Scalar.dot_eq_sum (left right : List Rat) (count : Nat) (leftLength : left.length = count)
    (rightLength : right.length = count) :
    Scalar.dot left right = ∑ i : Fin count,
      left.get (i.cast leftLength.symm) * right.get (i.cast rightLength.symm) := by
  unfold Scalar.dot
  rw [Scalar.sum_eq]
  refine Eq.trans (congrArg List.sum
    (zipWith_eq_ofFn (· * ·) left right count leftLength rightLength)) ?_
  exact List.sum_ofFn

/-- The product of two vectors as a sum over their indices. -/
theorem Scalar.dot_toList {n : Nat} (left right : Vector Rat n) :
    Scalar.dot left.toList right.toList = ∑ i, left.get i * right.get i := by
  rw [Scalar.dot_eq_sum _ _ n left.length_toList right.length_toList]
  simp only [vector_toList_get]

namespace DenseMatrix

variable {m n : Nat}

/-- The matrix as a matrix of linear algebra. -/
def toMatrix (matrix : DenseMatrix Rat m n) : Matrix (Fin m) (Fin n) Rat := Matrix.of matrix.get

@[simp] theorem toMatrix_apply (matrix : DenseMatrix Rat m n) (i : Fin m) (j : Fin n) :
    matrix.toMatrix i j = matrix.get i j := rfl

@[simp] theorem toMatrix_identity : (identity : DenseMatrix Rat n n).toMatrix = 1 := by
  ext i j
  rw [toMatrix_apply, get_identity, Matrix.one_apply]

/-- Multiplying by a vector is the product of linear algebra. -/
theorem get_mulVec_eq (matrix : DenseMatrix Rat m n) (vector : Vector Rat n) (i : Fin m) :
    (matrix.mulVec vector).get i = (matrix.toMatrix.mulVec vector.get) i := by
  rw [get_mulVec, Scalar.dot_toList]
  rfl

end DenseMatrix

end LinearProgramming
