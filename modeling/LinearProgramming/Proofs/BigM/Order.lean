/-
This file makes the numbers with a symbolic penalty, over the exact rationals, an ordered vector
space.

The order looks at penalties first and at values among equal penalties. At tolerance zero the
comparisons of the solvers are exactly this order, so what a simplex method decides by them can
be argued about with sums and inequalities.
-/

import Mathlib
import LinearProgramming.BigM
import LinearProgramming.Proofs.ExactSums

namespace LinearProgramming.BigM

theorem ext_parts {left right : BigM Rat} (values : left.value = right.value)
    (penalties : left.penalty = right.penalty) : left = right := by
  obtain ⟨value, penalty⟩ := left
  obtain ⟨value', penalty'⟩ := right
  exact congrArg₂ BigM.mk values penalties

/-! ### Parts of sums and multiples -/

@[simp] theorem value_zero : (0 : BigM Rat).value = 0 := rfl

@[simp] theorem penalty_zero : (0 : BigM Rat).penalty = 0 := rfl

@[simp] theorem value_add (left right : BigM Rat) :
    (left + right).value = left.value + right.value := rfl

@[simp] theorem penalty_add (left right : BigM Rat) :
    (left + right).penalty = left.penalty + right.penalty := rfl

@[simp] theorem value_sub (left right : BigM Rat) :
    (left - right).value = left.value - right.value := rfl

@[simp] theorem penalty_sub (left right : BigM Rat) :
    (left - right).penalty = left.penalty - right.penalty := rfl

@[simp] theorem value_neg (number : BigM Rat) : (-number).value = -number.value := rfl

@[simp] theorem penalty_neg (number : BigM Rat) : (-number).penalty = -number.penalty := rfl

@[simp] theorem value_ofScalar (value : Rat) : (ofScalar value).value = value := rfl

@[simp] theorem penalty_ofScalar (value : Rat) : (ofScalar value).penalty = 0 := rfl

@[simp] theorem value_penaltyUnit : (penaltyUnit : BigM Rat).value = 0 := rfl

@[simp] theorem penalty_penaltyUnit : (penaltyUnit : BigM Rat).penalty = 1 := rfl

@[simp] theorem ofScalar_zero : ofScalar (0 : Rat) = 0 := rfl

/-! ### The vector space -/

instance : AddCommGroup (BigM Rat) where
  add_assoc first second third := ext_parts (add_assoc _ _ _) (add_assoc _ _ _)
  zero_add number := ext_parts (zero_add _) (zero_add _)
  add_zero number := ext_parts (add_zero _) (add_zero _)
  nsmul := nsmulRec
  zsmul := zsmulRec
  neg_add_cancel number := ext_parts (neg_add_cancel _) (neg_add_cancel _)
  add_comm left right := ext_parts (add_comm _ _) (add_comm _ _)
  sub_eq_add_neg left right := ext_parts (sub_eq_add_neg _ _) (sub_eq_add_neg _ _)

instance : SMul Rat (BigM Rat) := ⟨fun factor number => number.scale factor⟩

@[simp] theorem value_smul (factor : Rat) (number : BigM Rat) :
    (factor • number).value = factor * number.value := mul_comm _ _

@[simp] theorem penalty_smul (factor : Rat) (number : BigM Rat) :
    (factor • number).penalty = factor * number.penalty := mul_comm _ _

instance : Module Rat (BigM Rat) where
  one_smul number := ext_parts (by simp) (by simp)
  mul_smul first second number := ext_parts (by simp [mul_assoc]) (by simp [mul_assoc])
  smul_zero factor := ext_parts (by simp) (by simp)
  smul_add factor left right := ext_parts (by simp [mul_add]) (by simp [mul_add])
  add_smul first second number := ext_parts (by simp [add_mul]) (by simp [add_mul])
  zero_smul number := ext_parts (by simp) (by simp)

/-- The value part as a linear map. -/
def valuePart : BigM Rat →ₗ[Rat] Rat where
  toFun number := number.value
  map_add' := value_add
  map_smul' := value_smul

/-- The penalty part as a linear map. -/
def penaltyPart : BigM Rat →ₗ[Rat] Rat where
  toFun number := number.penalty
  map_add' := penalty_add
  map_smul' := penalty_smul

theorem value_sum {ι : Type} (indices : Finset ι) (terms : ι → BigM Rat) :
    (∑ i ∈ indices, terms i).value = ∑ i ∈ indices, (terms i).value :=
  map_sum valuePart terms indices

theorem penalty_sum {ι : Type} (indices : Finset ι) (terms : ι → BigM Rat) :
    (∑ i ∈ indices, terms i).penalty = ∑ i ∈ indices, (terms i).penalty :=
  map_sum penaltyPart terms indices

/-- The product of costs and levels as a sum over their indices. -/
theorem dot_toList {n : Nat} (costs : Vector (BigM Rat) n) (levels : Vector Rat n) :
    dot costs.toList levels.toList = ∑ i, levels.get i • costs.get i := by
  unfold dot
  rw [zipWith_toList, ← List.sum_eq_foldl, List.sum_ofFn]
  rfl

/-! ### The order -/

instance : LinearOrder (BigM Rat) :=
  LinearOrder.lift' (fun number : BigM Rat => toLex (number.penalty, number.value))
    fun left right same => by
      have parts : (left.penalty, left.value) = (right.penalty, right.value) := same
      exact ext_parts (congrArg Prod.snd parts) (congrArg Prod.fst parts)

theorem lt_iff {left right : BigM Rat} :
    left < right ↔ left.penalty < right.penalty ∨
      left.penalty = right.penalty ∧ left.value < right.value :=
  Prod.Lex.toLex_lt_toLex

theorem le_iff {left right : BigM Rat} :
    left ≤ right ↔ left.penalty < right.penalty ∨
      left.penalty = right.penalty ∧ left.value ≤ right.value :=
  Prod.Lex.toLex_le_toLex

instance : IsOrderedAddMonoid (BigM Rat) where
  add_le_add_left left right below number := by
    rw [le_iff] at below ⊢
    rcases below with penalties | ⟨penalties, values⟩
    · exact Or.inl (by simpa using penalties)
    · exact Or.inr ⟨by simpa using penalties, by simpa using values⟩

instance : PosSMulMono Rat (BigM Rat) where
  smul_le_smul_of_nonneg_left factor nonneg left right below := by
    rw [le_iff] at below ⊢
    rcases below with penalties | ⟨penalties, values⟩
    · rcases eq_or_lt_of_le nonneg with zero | positive
      · exact Or.inr ⟨by simp [← zero], by simp [← zero]⟩
      · exact Or.inl (by simpa using mul_lt_mul_of_pos_left penalties positive)
    · exact Or.inr ⟨by simp [penalties], by simpa using mul_le_mul_of_nonneg_left values nonneg⟩

theorem penalty_le_of_le {left right : BigM Rat} (below : left ≤ right) :
    left.penalty ≤ right.penalty := by
  rcases le_iff.1 below with penalties | ⟨penalties, _⟩
  · exact penalties.le
  · exact penalties.le

/-- Without penalties the order is that of the values. -/
theorem ofScalar_le_iff {left right : Rat} : ofScalar left ≤ ofScalar right ↔ left ≤ right := by
  rw [le_iff]
  simp

/-! ### Comparisons without tolerance -/

theorem abs_le_zero_iff (number : Rat) : Scalar.abs number ≤ 0 ↔ number = 0 := by
  show (if number < 0 then -number else number) ≤ 0 ↔ number = 0
  split
  · rename_i negative
    constructor
    · intro small
      linarith
    · intro zero
      rw [zero, neg_zero]
  · rename_i nonneg
    exact ⟨fun small => le_antisymm small (not_lt.1 nonneg), fun zero => zero.le⟩

theorem lessWithin_zero_iff (left right : BigM Rat) :
    lessWithin 0 left right = true ↔ left < right := by
  unfold lessWithin
  rw [lt_iff]
  by_cases same : left.penalty = right.penalty
  · have close : ¬ (0 : Rat) < Scalar.abs (left.penalty - right.penalty) :=
      not_lt.2 ((abs_le_zero_iff _).2 (sub_eq_zero.2 same))
    rw [if_neg close]
    simp [same]
  · have apart : (0 : Rat) < Scalar.abs (left.penalty - right.penalty) :=
      not_le.1 fun small => same (sub_eq_zero.1 ((abs_le_zero_iff _).1 small))
    rw [if_pos apart]
    simp [same]

theorem isNegativeWithin_zero_iff (number : BigM Rat) :
    number.isNegativeWithin 0 = true ↔ number < 0 := by
  unfold isNegativeWithin
  rw [lt_iff]
  by_cases zero : number.penalty = 0
  · rw [if_pos ((abs_le_zero_iff _).2 zero)]
    simp [zero]
  · rw [if_neg fun small => zero ((abs_le_zero_iff _).1 small)]
    simp [zero]

theorem isZeroWithin_zero_iff (number : BigM Rat) :
    number.isZeroWithin 0 = true ↔ number = 0 := by
  unfold isZeroWithin
  rw [Bool.and_eq_true, decide_eq_true_iff, decide_eq_true_iff, abs_le_zero_iff, abs_le_zero_iff]
  constructor
  · rintro ⟨penalty, value⟩
    exact ext_parts value penalty
  · rintro rfl
    exact ⟨rfl, rfl⟩

end LinearProgramming.BigM
