/-
This file compares a rational number with the whole number that it is rounded to.

A half goes away from zero. That decides only between two whole numbers that are equally near, so
none is nearer than the one that is taken, whichever side of zero the number is on.
-/

import Mathlib
import LinearProgramming.Scalar.Exact

namespace LinearProgramming

/-- Rounding moves a value to a whole number at a distance of a half at most. -/
theorem exists_whole_round (value : Rat) :
    ∃ whole : Int, Scalar.round value = whole ∧ |(whole : Rat) - value| ≤ 1 / 2 := by
  show ∃ whole : Int, roundRational value = whole ∧ _
  unfold roundRational
  split
  · have above : value - 1 / 2 ≤ (value - 1 / 2).ceil := Rat.le_ceil
    have below : ((value - 1 / 2).ceil : Rat) < value - 1 / 2 + 1 := Rat.ceil_lt
    exact ⟨_, rfl, abs_le.2 ⟨by linarith, by linarith⟩⟩
  · have below := Rat.floor_le (value + 1 / 2)
    have above := Rat.lt_floor_add_one (value + 1 / 2)
    push_cast at above
    exact ⟨_, rfl, abs_le.2 ⟨by linarith, by linarith⟩⟩

/-- No whole number is nearer to a value than its rounding. -/
theorem abs_round_sub_le_abs_sub (value : Rat) (other : Int) :
    |Scalar.round value - value| ≤ |(other : Rat) - value| := by
  obtain ⟨whole, rounded, close⟩ := exists_whole_round value
  rw [rounded]
  by_cases same : other = whole
  · rw [same]
  · have apart : (1 : Rat) ≤ |(other : Rat) - whole| := by
      exact_mod_cast Int.one_le_abs (sub_ne_zero.2 same)
    have path := abs_sub_le (other : Rat) value whole
    rw [abs_sub_comm value] at path
    linarith

theorem round_nonneg {value : Rat} (nonneg : 0 ≤ value) : 0 ≤ Scalar.round value := by
  show 0 ≤ roundRational value
  unfold roundRational
  rw [if_neg (not_lt.2 nonneg)]
  exact_mod_cast Rat.le_floor_iff.2 (by push_cast; linarith)

end LinearProgramming
