/-
This file says which numbers an interval of an analysis encloses.

An interval starts without ends and is narrowed by one bound after another. A bound at
`-level / slope` lets exactly those moves through that leave `level + slope * move` not negative, so
the narrowed interval encloses the moves that leave nothing below zero. Shifting an interval and
reflecting it at zero move the enclosed numbers along.
-/

import Mathlib
import LinearProgramming.Proofs.BigM.Order
import LinearProgramming.Sensitivity

namespace LinearProgramming

namespace Extended

theorem isReachedBy_finite (bound number : Rat) :
    (finite bound).isReachedBy 0 number = true ↔ bound ≤ number := by
  refine decide_eq_true_iff.trans (?_ : bound - 0 ≤ number ↔ _)
  rw [sub_zero]

theorem isReachedDownBy_finite (bound number : Rat) :
    (finite bound).isReachedDownBy 0 number = true ↔ number ≤ bound := by
  refine decide_eq_true_iff.trans (?_ : number ≤ bound + 0 ↔ _)
  rw [add_zero]

/-- A raised end is reached where the old end and the candidate are. -/
theorem isReachedBy_raiseTo (lower : Extended Rat) (candidate number : Rat) :
    (lower.raiseTo candidate).isReachedBy 0 number = true ↔
      lower.isReachedBy 0 number = true ∧ candidate ≤ number := by
  cases lower with
  | negInf =>
    have raised : (negInf : Extended Rat).raiseTo candidate = finite candidate :=
      if_pos (le_refl candidate)
    rw [raised, isReachedBy_finite]
    exact ⟨fun reached => ⟨rfl, reached⟩, And.right⟩
  | posInf => exact iff_of_false Bool.false_ne_true fun both => Bool.false_ne_true both.1
  | finite bound =>
    rw [isReachedBy_finite]
    by_cases above : bound < candidate
    · have raised : (finite bound).raiseTo candidate = finite candidate := if_pos above
      rw [raised, isReachedBy_finite]
      exact ⟨fun reached => ⟨above.le.trans reached, reached⟩, And.right⟩
    · have kept : (finite bound).raiseTo candidate = finite bound := if_neg above
      rw [kept, isReachedBy_finite]
      exact ⟨fun reached => ⟨reached, (not_lt.1 above).trans reached⟩, And.left⟩

/-- A lowered end is reached where the old end and the candidate are. -/
theorem isReachedDownBy_lowerTo (upper : Extended Rat) (candidate number : Rat) :
    (upper.lowerTo candidate).isReachedDownBy 0 number = true ↔
      upper.isReachedDownBy 0 number = true ∧ number ≤ candidate := by
  cases upper with
  | negInf => exact iff_of_false Bool.false_ne_true fun both => Bool.false_ne_true both.1
  | posInf =>
    have lowered : (posInf : Extended Rat).lowerTo candidate = finite candidate :=
      if_pos (le_refl candidate)
    rw [lowered, isReachedDownBy_finite]
    exact ⟨fun reached => ⟨rfl, reached⟩, And.right⟩
  | finite bound =>
    rw [isReachedDownBy_finite]
    by_cases below : candidate < bound
    · have lowered : (finite bound).lowerTo candidate = finite candidate := if_pos below
      rw [lowered, isReachedDownBy_finite]
      exact ⟨fun reached => ⟨reached.trans below.le, reached⟩, And.right⟩
    · have kept : (finite bound).lowerTo candidate = finite bound := if_neg below
      rw [kept, isReachedDownBy_finite]
      exact ⟨fun reached => ⟨reached, reached.trans (not_lt.1 below)⟩, And.left⟩

theorem isReachedBy_shift (offset : Rat) (lower : Extended Rat) (number : Rat) :
    (lower.shift offset).isReachedBy 0 number = lower.isReachedBy 0 (number - offset) := by
  cases lower with
  | negInf | posInf => rfl
  | finite bound =>
    refine Bool.eq_iff_iff.2 ((isReachedBy_finite _ _).trans (Iff.trans ?_
      (isReachedBy_finite _ _).symm))
    exact le_sub_iff_add_le'.symm

theorem isReachedDownBy_shift (offset : Rat) (upper : Extended Rat) (number : Rat) :
    (upper.shift offset).isReachedDownBy 0 number = upper.isReachedDownBy 0 (number - offset) := by
  cases upper with
  | negInf | posInf => rfl
  | finite bound =>
    refine Bool.eq_iff_iff.2 ((isReachedDownBy_finite _ _).trans (Iff.trans ?_
      (isReachedDownBy_finite _ _).symm))
    exact sub_le_iff_le_add'.symm

theorem isReachedBy_negate (upper : Extended Rat) (number : Rat) :
    upper.negate.isReachedBy 0 number = upper.isReachedDownBy 0 (-number) := by
  cases upper with
  | negInf | posInf => rfl
  | finite bound =>
    refine Bool.eq_iff_iff.2 ((isReachedBy_finite _ _).trans (Iff.trans ?_
      (isReachedDownBy_finite _ _).symm))
    exact neg_le

theorem isReachedDownBy_negate (lower : Extended Rat) (number : Rat) :
    lower.negate.isReachedDownBy 0 number = lower.isReachedBy 0 (-number) := by
  cases lower with
  | negInf | posInf => rfl
  | finite bound =>
    refine Bool.eq_iff_iff.2 ((isReachedDownBy_finite _ _).trans (Iff.trans ?_
      (isReachedBy_finite _ _).symm))
    exact le_neg

end Extended

namespace Sensitivity

/-- A number lies between the ends of an interval, which it may reach. -/
def Encloses (interval : Extended Rat × Extended Rat) (number : Rat) : Prop :=
  interval.1.isReachedBy 0 number = true ∧ interval.2.isReachedDownBy 0 number = true

theorem encloses_unbounded (number : Rat) : Encloses (.negInf, .posInf) number := ⟨rfl, rfl⟩

theorem encloses_shift (offset : Rat) (interval : Extended Rat × Extended Rat) (number : Rat) :
    Encloses (interval.1.shift offset, interval.2.shift offset) number ↔
      Encloses interval (number - offset) := by
  unfold Encloses
  rw [Extended.isReachedBy_shift, Extended.isReachedDownBy_shift]

theorem encloses_reflected (interval : Extended Rat × Extended Rat) (number : Rat) :
    Encloses (reflected interval) number ↔ Encloses interval (-number) := by
  unfold Encloses reflected
  rw [Extended.isReachedBy_negate, Extended.isReachedDownBy_negate]
  exact and_comm

/-- A bound lets through the moves that leave the level it comes from not negative. -/
theorem encloses_narrow {level slope : Rat} (sloped : slope ≠ 0)
    (interval : Extended Rat × Extended Rat) (move : Rat) :
    Encloses (narrow level slope interval) move ↔
      Encloses interval move ∧ 0 ≤ level + slope * move := by
  unfold Encloses narrow
  split
  · rename_i positive
    rw [Extended.isReachedBy_raiseTo, div_le_iff₀' positive, neg_le_iff_add_nonneg', and_right_comm]
  · rename_i notPositive
    have negative : slope < 0 := lt_of_le_of_ne (not_lt.1 notPositive) sloped
    rw [Extended.isReachedDownBy_lowerTo, le_div_iff_of_neg' negative, neg_le_iff_add_nonneg',
      and_assoc]

/-- Held at zero, an interval lets no other move through. -/
theorem encloses_pinned (interval : Extended Rat × Extended Rat) (move : Rat) :
    Encloses (interval.1.raiseTo 0, interval.2.lowerTo 0) move ↔
      Encloses interval move ∧ move = 0 := by
  unfold Encloses
  rw [Extended.isReachedBy_raiseTo, Extended.isReachedDownBy_lowerTo, and_and_and_comm,
    and_comm (a := 0 ≤ move), ← le_antisymm_iff]

/-- Where each entry of a list narrows an interval to the moves it allows, an interval narrowed by
all entries encloses the moves that it enclosed and that every entry allows. -/
theorem encloses_foldl_iff {ι : Type}
    {narrowed : Extended Rat × Extended Rat → ι → Extended Rat × Extended Rat}
    (allows : ι → Rat → Prop)
    (each : ∀ interval entry move, Encloses (narrowed interval entry) move ↔
      Encloses interval move ∧ allows entry move)
    (entries : List ι) (interval : Extended Rat × Extended Rat) (move : Rat) :
    Encloses (entries.foldl narrowed interval) move ↔
      Encloses interval move ∧ ∀ entry ∈ entries, allows entry move := by
  induction entries generalizing interval with
  | nil => exact (and_iff_left fun _ impossible => absurd impossible List.not_mem_nil).symm
  | cons first rest inductionHypothesis =>
    rw [List.foldl_cons, inductionHypothesis, each, List.forall_mem_cons, and_assoc]

/-- Narrowed by one bound after another, an interval encloses the moves that it enclosed and that
each bound lets through. Levels without slope give no bound. -/
theorem encloses_narrowed_iff {ι : Type} (slope level : ι → Rat) (entries : List ι)
    (interval : Extended Rat × Extended Rat) (move : Rat) :
    Encloses (entries.foldl (fun interval entry =>
        if Scalar.abs (slope entry) ≤ 0 then interval
        else narrow (level entry) (slope entry) interval) interval) move ↔
      Encloses interval move ∧
        ∀ entry ∈ entries, slope entry ≠ 0 → 0 ≤ level entry + slope entry * move := by
  refine encloses_foldl_iff (fun entry move =>
    slope entry ≠ 0 → 0 ≤ level entry + slope entry * move) (fun interval entry move => ?_) _ _ _
  by_cases flat : slope entry = 0
  · rw [if_pos ((BigM.abs_le_zero_iff _).2 flat)]
    exact (and_iff_left fun sloped => absurd flat sloped).symm
  · rw [if_neg fun small => flat ((BigM.abs_le_zero_iff _).1 small), encloses_narrow flat]
    exact and_congr_right fun _ => ⟨fun bound _ => bound, fun bound => bound flat⟩

end Sensitivity

end LinearProgramming
