/-
This file says when a point is integral, and how a search sees that without tolerance.

A value is fractional exactly when it is not a whole number, and rounding a whole number leaves it
as it is. A branching loses no integral point: the value of the point at the branching variable is
whole, so it is at or below the fractional value rounded down or at or above that value rounded
up.
-/

import Mathlib
import LinearProgramming.BranchAndBound
import LinearProgramming.Proofs.Feasibility

namespace LinearProgramming

/-- The masked entries of a point are whole numbers. -/
def IntegralOn (mask : List Bool) (point : List Rat) : Prop :=
  ∀ j : Nat, mask[j]? = some true → ∀ level, point[j]? = some level → ∃ whole : Int, level = whole

/-! ### Whole numbers -/

theorem floor_le (value : Rat) : Scalar.floor value ≤ value := Rat.floor_le value

theorem floor_lt {value : Rat} (notWhole : ¬ ∃ whole : Int, value = whole) :
    Scalar.floor value < value := by
  refine lt_of_le_of_ne (floor_le value) fun same => notWhole ⟨value.floor, same.symm⟩

theorem lt_floor_add_one (value : Rat) : value < Scalar.floor value + 1 := by
  have above := Rat.lt_floor_add_one value
  push_cast at above
  exact above

/-- Rounding leaves a whole number as it is. -/
theorem round_whole (whole : Int) : Scalar.round (whole : Rat) = whole := by
  show roundRational whole = whole
  unfold roundRational
  split
  · have ceil : ((whole : Rat) - 1 / 2).ceil = whole := by
      refine le_antisymm (Rat.ceil_le_iff.2 (by linarith)) ?_
      refine Int.le_of_sub_one_lt (Rat.lt_ceil_iff.2 ?_)
      push_cast
      linarith
    rw [ceil]
  · have floor : ((whole : Rat) + 1 / 2).floor = whole := by
      refine le_antisymm (Int.lt_add_one_iff.1 (Rat.floor_lt_iff.2 ?_))
        (Rat.le_floor_iff.2 (by linarith))
      push_cast
      linarith
    rw [floor]

namespace BranchAndBound

/-- Without tolerance exactly the values between whole numbers are fractional. -/
theorem isFractional_zero_iff {value : Rat} :
    isFractional 0 value = true ↔ ¬ ∃ whole : Int, value = whole := by
  unfold isFractional
  constructor
  · rintro fractional ⟨whole, rfl⟩
    have positive := of_decide_eq_true ((Bool.and_eq_true _ _).mp fractional).1
    have same : Scalar.floor (whole : Rat) = whole := congrArg Int.cast (Rat.floor_intCast whole)
    rw [same, sub_self] at positive
    exact lt_irrefl _ positive
  · intro notWhole
    have below := floor_lt notWhole
    have above := lt_floor_add_one value
    refine (Bool.and_eq_true _ _).mpr ⟨decide_eq_true ?_, decide_eq_true ?_⟩
    · exact sub_pos.2 below
    · linarith

/-! ### The branching variable -/

variable {k : Nat} {integral : Vector Bool k} {values : List Rat}

theorem getElem?_mask (integral : Vector Bool k) (j : Fin k) :
    integral.toList[j.val]? = some (integral.get j) := by
  simp [Vector.get]

theorem fractional_of_fractionalVariable?_eq_some {tolerance : Rat} {j : Fin k} {value : Rat}
    (found : fractionalVariable? tolerance integral values = some (j, value)) :
    values[j.val]? = some value ∧ integral.get j = true ∧ isFractional tolerance value = true := by
  obtain ⟨position, _, chosen⟩ := List.exists_of_findSome?_eq_some found
  split at chosen
  · rename_i level present
    split at chosen
    · rename_i accepted
      cases chosen
      exact ⟨present, (Bool.and_eq_true _ _).mp accepted⟩
    · cases chosen
  · cases chosen

/-- Without a fractional variable, no masked value is fractional. -/
theorem not_isFractional_of_fractionalVariable?_eq_none {tolerance : Rat}
    (none : fractionalVariable? tolerance integral values = none) {j : Fin k}
    (masked : integral.get j = true) {value : Rat} (present : values[j.val]? = some value) :
    isFractional tolerance value = false := by
  have skipped := List.findSome?_eq_none_iff.1 none j (List.mem_finRange j)
  by_contra fractional
  simp [present, masked, Bool.not_eq_false _ ▸ fractional] at skipped

/-- Without a fractional variable, a point is integral on the mask. -/
theorem integralOn_of_fractionalVariable?_eq_none
    (none : fractionalVariable? 0 integral values = none) :
    IntegralOn integral.toList values := by
  intro position masked level present
  obtain ⟨inRange, _⟩ := List.getElem?_eq_some_iff.1 masked
  have isMasked : integral.get ⟨position, by simpa using inRange⟩ = true := by
    rw [getElem?_mask integral ⟨position, by simpa using inRange⟩] at masked
    exact Option.some.inj masked
  by_contra notWhole
  have whole := not_isFractional_of_fractionalVariable?_eq_none none isMasked present
  rw [isFractional_zero_iff.2 notWhole] at whole
  cases whole

/-- Rounding the masked entries of an integral point leaves it as it is. -/
theorem roundedValues_eq (whole : IntegralOn integral.toList values) (length : values.length = k) :
    roundedValues integral values = values := by
  unfold roundedValues
  refine List.ext_getElem (by simp [length]) fun position inRounded inValues => ?_
  rw [List.getElem_zipWith]
  split
  · rename_i masked
    obtain ⟨number, same⟩ := whole position
      (List.getElem?_eq_some_iff.2 ⟨by simpa [length] using inValues, masked⟩) _
      (List.getElem?_eq_getElem inValues)
    rw [same]
    exact round_whole number
  · rfl

/-! ### The bounds of a branching -/

/-- The row of one variable reads off its level. -/
theorem dot_unitRow {problem : Problem Rat} {point : List Rat}
    (length : point.length = problem.numVars) (j : Fin problem.numVars) :
    Scalar.dot (unitRow j) point = Problem.levelAt length j := by
  have unitLength : (unitRow j : List Rat).length = problem.numVars := by simp [unitRow]
  have entries : ∀ i : Fin problem.numVars,
      (unitRow j : List Rat).get (i.cast unitLength.symm) = if i = j then 1 else 0 := by
    intro i
    simp only [unitRow, List.get_eq_getElem, List.getElem_map, List.getElem_finRange]
    rfl
  rw [Scalar.dot_eq_sum _ _ _ unitLength length]
  simp only [entries, ite_mul, one_mul, zero_mul, Finset.sum_ite_eq', Finset.mem_univ, if_true]
  rfl

theorem holds_boundAbove_iff {problem : Problem Rat} {point : List Rat}
    (length : point.length = problem.numVars) (j : Fin problem.numVars) (value : Rat) :
    (boundAbove problem j value).Holds point ↔
      Problem.levelAt length j ≤ Scalar.floor value := by
  show Scalar.dot (unitRow j) point ≤ Scalar.floor value ↔ _
  rw [dot_unitRow length]

theorem holds_boundBelow_iff {problem : Problem Rat} {point : List Rat}
    (length : point.length = problem.numVars) (j : Fin problem.numVars) (value : Rat) :
    (boundBelow problem j value).Holds point ↔
      Scalar.ceil value ≤ Problem.levelAt length j := by
  show Scalar.ceil value ≤ Scalar.dot (unitRow j) point ↔ _
  rw [dot_unitRow length]

/-- Every point that is integral at the branching variable keeps one of the two bounds. -/
theorem holds_bound {problem : Problem Rat} {integral : Vector Bool problem.numVars}
    {point : List Rat} (length : point.length = problem.numVars)
    (whole : IntegralOn integral.toList point) {j : Fin problem.numVars}
    (masked : integral.get j = true) (value : Rat) :
    (boundAbove problem j value).Holds point ∨ (boundBelow problem j value).Holds point := by
  rw [holds_boundAbove_iff length, holds_boundBelow_iff length]
  obtain ⟨number, same⟩ := whole j ((getElem?_mask integral j).trans (congrArg some masked))
    (Problem.levelAt length j) (List.getElem?_eq_getElem _)
  rw [same]
  rcases le_or_gt (number : Rat) value with below | above
  · exact Or.inl (Rat.intCast_le_intCast.2 (Rat.le_floor_iff.2 below))
  · exact Or.inr (Rat.intCast_le_intCast.2 (Rat.ceil_le_iff.2 above.le))

end BranchAndBound

end LinearProgramming
