/-
This file compares what an analysis reports about a right-hand side with what it answers when
another one is tried.

Moving one right-hand side turns the levels of the basic columns along a column of the inverse.
The reported interval is cut from these levels one by one, while the question prices all
right-hand sides again. Both ask that no level is negative and that the artificial ones stay zero,
so they agree. What the basic columns cost moves with the levels, and per unit of the right-hand
side it moves by the price that the inverse gives to the row. That is the shadow price of an
inequality.
-/

import Mathlib
import LinearProgramming.Proofs.Sensitivity.ObjectiveRanges
import LinearProgramming.Proofs.Sensitivity.ShadowPrices

namespace LinearProgramming

theorem Sense.orient_add_mul (sense : Sense) (start factor slope : Rat) :
    sense.orient (start + factor * slope) = sense.orient start + sense.orient slope * factor := by
  cases sense with
  | maximize => exact congrArg (start + ·) (mul_comm factor slope)
  | minimize =>
    show -(start + factor * slope) = -start + -slope * factor
    ring

/-- A number lies in the reported interval of a right-hand side. -/
def RhsRange.Contains (range : RhsRange Rat) (number : Rat) : Prop :=
  Sensitivity.Encloses (range.lower, range.upper) number

namespace Sensitivity

/-! ### The answer about a right-hand side -/

section Asked

variable (analysis : Sensitivity Rat) (row : Fin analysis.form.numRows) (number : Rat)

/-- The levels of the basic columns after one right-hand side is replaced. -/
def levelsAfter : Vector Rat analysis.form.numRows :=
  analysis.price (replaceEntry analysis.rightHandSides row number)

theorem rowIndex_val : analysis.rowIndex row = .ok row :=
  dif_pos (row.isLt.trans_eq analysis.numRows_eq)

/-- Where the new levels are feasible, the basis is preserved at them. -/
theorem changeRhs_of_feasible
    (feasible : analysis.isFeasible (analysis.levelsAfter row number) = true) :
    ∃ steps message, analysis.changeRhs row number =
      .ok (preserve (analysis.problem.setRhs row number) steps message
        (analysis.objectiveAt (analysis.levelsAfter row number))
        (analysis.valuesAt (analysis.levelsAfter row number))) := by
  unfold changeRhs
  rw [rowIndex_val]
  simp only [bind, Except.bind]
  exact ⟨_, _, if_pos feasible⟩

theorem changeRhs_of_not_feasible
    (infeasible : ¬ analysis.isFeasible (analysis.levelsAfter row number) = true) :
    ∃ steps reason, analysis.changeRhs row number =
      analysis.resolve (analysis.problem.setRhs row number) steps reason := by
  unfold changeRhs
  rw [rowIndex_val]
  simp only [bind, Except.bind]
  exact ⟨_, _, if_neg infeasible⟩

/-- Another right-hand side preserves the basis exactly when the new levels are feasible. -/
theorem preserves_changeRhs_iff :
    Preserves (analysis.changeRhs row number) ↔
      analysis.isFeasible (analysis.levelsAfter row number) = true := by
  by_cases feasible : analysis.isFeasible (analysis.levelsAfter row number) = true
  · obtain ⟨steps, message, asked⟩ := analysis.changeRhs_of_feasible row number feasible
    rw [asked]
    exact iff_of_true (preserves_preserve _ _ _ _ _) feasible
  · obtain ⟨steps, reason, asked⟩ := analysis.changeRhs_of_not_feasible row number feasible
    rw [asked]
    exact iff_of_false (not_preserves_resolve _ _ _ _) feasible

end Asked

end Sensitivity

/-! ### The levels after a move -/

namespace Problem

variable (problem : Problem Rat) (i : Fin problem.numRows) (number : Rat)

/-- How far a right-hand side moves, with the sign of its row in the standard form. -/
def rhsMove : Rat := problem.rowSign i * (number - (problem.row i).rhs)

/-- The signed right-hand sides after one of them is replaced. -/
theorem signed_update_rhs :
    problem.signed (Function.update (fun k => (problem.row k).rhs) i number) =
      problem.signed (fun k => (problem.row k).rhs) + Pi.single i (problem.rhsMove i number) := by
  funext k
  rw [Pi.add_apply]
  unfold signed rhsMove
  by_cases same : k = i
  · subst same
    rw [Function.update_self, Pi.single_eq_same]
    ring
  · rw [Function.update_of_ne same, Pi.single_eq_of_ne same, add_zero]

end Problem

namespace OptimalBasis

open Sensitivity

variable {problem : Problem Rat} (basis : OptimalBasis problem)

/-- The level of a row after the right-hand side of a row moves, along the column of the inverse
that belongs to it. -/
def movedLevel (i : Fin problem.numRows) (move : Rat) (row : Fin problem.numRows) : Rat :=
  basis.tableau.rhs row + basis.inverse row i * move

theorem mulVec_signed_update (i : Fin problem.numRows) (number : Rat) :
    basis.inverse.mulVec
        (problem.signed (Function.update (fun k => (problem.row k).rhs) i number)) =
      basis.movedLevel i (problem.rhsMove i number) := by
  have old : basis.tableau.rhs =
      basis.inverse.mulVec (problem.signed fun k => (problem.row k).rhs) := basis.keeps.levels_eq
  funext row
  rw [problem.signed_update_rhs, Matrix.mulVec_add, ← old, Matrix.mulVec_single]
  rfl

theorem get_levelsAfter (i : Fin problem.numRows) (number : Rat) :
    (basis.analysis.levelsAfter i number).get = basis.movedLevel i (problem.rhsMove i number) := by
  rw [← basis.mulVec_signed_update, ← basis.get_replaceEntry_rightHandSides]
  exact funext fun row => basis.get_price _ row

/-- A level allows a move when it does not become negative, and stays zero where artificial. -/
def AllowsMove (i row : Fin problem.numRows) (move : Rat) : Prop :=
  0 ≤ basis.movedLevel i move row ∧
    ((problem.columnVector.get (basis.tableau.basis.get row)).isArtificial = true →
      basis.movedLevel i move row = 0)

theorem isFeasible_levelsAfter_iff (i : Fin problem.numRows) (number : Rat) :
    basis.analysis.isFeasible (basis.analysis.levelsAfter i number) = true ↔
      ∀ row, basis.AllowsMove i row (problem.rhsMove i number) := by
  refine (basis.isFeasible_iff _).trans (forall_congr' fun row => ?_)
  unfold AllowsMove
  rw [← basis.get_levelsAfter]
  exact Iff.rfl

/-! ### The reported interval -/

/-- The level interval of a row encloses the moves that every level allows. -/
theorem encloses_levelInterval_iff (i : Fin problem.numRows) (move : Rat) :
    Encloses (basis.analysis.levelInterval i) move ↔ ∀ row, basis.AllowsMove i row move := by
  have exact : basis.analysis.tolerance = 0 := basis.exact
  unfold levelInterval
  rw [exact]
  refine (encloses_foldl_iff (basis.AllowsMove i)
    (fun interval (row : Fin problem.numRows) move => ?_) _ _ move).trans
    ((and_iff_right (encloses_unbounded move)).trans
      ⟨fun all row => all row (List.mem_finRange row), fun all row _ => all row⟩)
  have slope : basis.analysis.inverse.get row i = basis.inverse row i :=
    congrFun (congrFun basis.toMatrix_inverse row) i
  have level : basis.analysis.levels.get row = basis.tableau.rhs row :=
    congrFun basis.get_levels row
  unfold AllowsMove movedLevel
  dsimp only
  rw [slope, level]
  by_cases flat : basis.inverse row i = 0
  · -- the move does not reach this level
    rw [if_pos ((BigM.abs_le_zero_iff _).2 flat), flat, zero_mul, add_zero]
    exact (and_iff_left ⟨basis.rhs_nonneg row, basis.artificial row⟩).symm
  · rw [if_neg fun small => flat ((BigM.abs_le_zero_iff _).1 small)]
    split
    · rename_i artificial
      rw [encloses_pinned, basis.artificial row artificial, zero_add, mul_eq_zero,
        or_iff_right flat]
      refine and_congr_right fun _ => ⟨?_, fun allowed => allowed.2 artificial⟩
      rintro rfl
      exact ⟨(mul_zero _).ge, fun _ => rfl⟩
    · rename_i notArtificial
      rw [encloses_narrow flat]
      exact and_congr_right fun _ =>
        (and_iff_left fun artificial => absurd artificial notArtificial).symm

/-- The reported interval contains the numbers whose signed move is in the level interval: that of
a negated row is reflected. -/
theorem contains_rhsRange_iff (i : Fin problem.numRows) (number : Rat) :
    (basis.analysis.rhsRange i).Contains number ↔
      Encloses (basis.analysis.levelInterval i) (problem.rhsMove i number) := by
  have sign : basis.analysis.form.rowSigns.get i = problem.rowSign i := get_vectorOfFn _ i
  unfold RhsRange.Contains rhsRange Problem.rhsMove
  dsimp only
  rw [encloses_shift, sign]
  rcases problem.rowSign_cases i with ⟨_, negative, _⟩ | ⟨_, positive, _⟩
  · rw [negative, if_pos (by norm_num), encloses_reflected, neg_one_mul]
    exact Iff.rfl
  · rw [positive, if_neg (by norm_num), one_mul]
    exact Iff.rfl

theorem contains_rhsRange_iff_preserves (i : Fin problem.numRows) (number : Rat) :
    (basis.analysis.rhsRange i).Contains number ↔
      Preserves (basis.analysis.changeRhs i number) :=
  (basis.contains_rhsRange_iff i number).trans
    ((basis.encloses_levelInterval_iff i _).trans
      ((basis.isFeasible_levelsAfter_iff i number).symm.trans
        (preserves_changeRhs_iff basis.analysis i number).symm))

theorem getElem?_rhsRanges (i : Fin problem.numRows) :
    basis.analysis.rhsRanges[i.val]? = some (basis.analysis.rhsRange i) := by
  have listed : (List.finRange problem.numRows)[i.val]? = some i := by simp
  unfold rhsRanges
  rw [List.getElem?_map]
  exact congrArg (Option.map basis.analysis.rhsRange) listed

/-- The present right-hand side is contained, because the present levels are feasible. -/
theorem contains_rhsRange_self (i : Fin problem.numRows) :
    (basis.analysis.rhsRange i).Contains (problem.row i).rhs := by
  rw [basis.contains_rhsRange_iff, basis.encloses_levelInterval_iff]
  intro row
  unfold AllowsMove movedLevel Problem.rhsMove
  rw [sub_self, mul_zero, mul_zero, add_zero]
  exact ⟨basis.rhs_nonneg row, basis.artificial row⟩

/-! ### The objective after a move -/

/-- What the basic columns cost moves along the price of the row. -/
theorem sum_movedLevel_smul (i : Fin problem.numRows) (number : Rat) :
    ∑ row, basis.movedLevel i (problem.rhsMove i number) row • basis.basicCost row =
      ∑ row, basis.tableau.rhs row • basis.basicCost row +
        (number - (problem.row i).rhs) • problem.rowPrice basis.inverse basis.basicCost i := by
  have moved : ∀ row, basis.movedLevel i (problem.rhsMove i number) row • basis.basicCost row =
      basis.tableau.rhs row • basis.basicCost row +
        problem.rhsMove i number • basis.inverse row i • basis.basicCost row := by
    intro row
    rw [movedLevel, add_smul, smul_smul, mul_comm (basis.inverse row i)]
  rw [Finset.sum_congr rfl fun row _ => moved row, Finset.sum_add_distrib, ← Finset.smul_sum,
    Problem.rowPrice, smul_smul, Problem.rhsMove, mul_comm (problem.rowSign i)]

/-- The objective moves along the price of the row, in the author's sense. -/
theorem objectiveAt_levelsAfter (i : Fin problem.numRows) (number : Rat) :
    basis.analysis.objectiveAt (basis.analysis.levelsAfter i number) =
      basis.analysis.objectiveValue +
        problem.sense.orient (problem.rowPrice basis.inverse basis.basicCost i).value *
          (number - (problem.row i).rhs) := by
  have spent := basis.sum_movedLevel_smul i number
  rw [← basis.get_levelsAfter] at spent
  rw [basis.objectiveValue_eq, ← Sense.orient_add_mul, ← BigM.value_smul, ← BigM.value_add, ← spent]
  exact basis.objectiveAt_eq _

theorem getElem?_shadowPrices (i : Fin problem.numRows) :
    basis.analysis.shadowPrices[i.val]? =
      some ⟨i, (problem.row i).name, basis.analysis.shadowPrice i⟩ := by
  rw [basis.shadowPrices_eq, List.getElem?_ofFn, dif_pos i.isLt]

end OptimalBasis

namespace Sensitivity

/-! ### Both sides of a report -/

/-- The interval of a right-hand side against the question about it. When an analysis is from a run
without tolerance, every constraint has an interval with its present right-hand side, and the
interval contains exactly the numbers that preserve the basis, the present one among them. -/
theorem rhsRanges_agree (problem : Problem Rat) (analysis : Sensitivity Rat)
    (made : OfExactRun problem analysis) (i : Nat) (constraint : Constraint Rat)
    (listed : problem.constraints[i]? = some constraint) :
    ∃ range, analysis.rhsRanges[i]? = some range ∧ range.row = i ∧
      range.current = constraint.rhs ∧
      (∀ number, range.Contains number ↔ Preserves (analysis.changeRhs i number)) ∧
      range.Contains constraint.rhs := by
  obtain ⟨basis, rfl⟩ := made.exists_basis
  obtain ⟨inRange, rfl⟩ := List.getElem?_eq_some_iff.1 listed
  exact ⟨_, basis.getElem?_rhsRanges ⟨i, inRange⟩, rfl, rfl,
    basis.contains_rhsRange_iff_preserves ⟨i, inRange⟩, basis.contains_rhsRange_self ⟨i, inRange⟩⟩

/-- A problem whose first two constraints leave an artificial column basic at zero, and whose last
constraint has a negative right-hand side. -/
def heldRowProblem : Problem Rat :=
  (((((Problem.withVariables 2).setObjective [1, 2] .maximize).constrain [1, 0] .atMost
    1).constrain [1, 0] .equal 1).constrain [0, 1] .atMost 5).constrain [-1, -1] .atMost (-2)

/-- The statement at a row that moves a basic artificial column and at a negated row, which keeps
the basis also with a positive right-hand side. -/
theorem rhsRanges_agree_heldRowProblem :
    ∃ (analysis : Sensitivity Rat) (held turned : RhsRange Rat),
      OfExactRun heldRowProblem analysis ∧
      heldRowProblem.constraints[0]? = some ⟨"c1", [1, 0], .atMost, 1⟩ ∧
      heldRowProblem.constraints[3]? = some ⟨"c4", [-1, -1], .atMost, -2⟩ ∧
      analysis.tableau.basis.toList.any analysis.form.isArtificial = true ∧
      analysis.rhsRanges[0]? = some held ∧ analysis.rhsRanges[3]? = some turned ∧
      (held.lower, held.upper) = (.finite 1, .finite 1) ∧
      (turned.lower, turned.upper) = (.finite (-6), .posInf) ∧
      (∀ number, held.Contains number ↔ Preserves (analysis.changeRhs 0 number)) ∧
      (∀ number, turned.Contains number ↔ Preserves (analysis.changeRhs 3 number)) ∧
      Preserves (analysis.changeRhs 3 3) := by
  have inspected : (analyze heldRowProblem { tolerance := 0 }).map (fun analysis =>
      (analysis.tableau.basis.toList.any analysis.form.isArtificial,
        analysis.rhsRanges.map fun range => (range.lower, range.upper))) =
      .ok (true, [(.finite 1, .finite 1), (.finite 1, .finite 1), (.finite 1, .posInf),
        (.finite (-6), .posInf)]) := by
    decide +kernel
  cases analyzed : analyze heldRowProblem { tolerance := 0 } with
  | error fault =>
    rw [analyzed] at inspected
    cases inspected
  | ok analysis =>
    rw [analyzed] at inspected
    have made := ofExactRun_of_analyze rfl analyzed
    have first : heldRowProblem.constraints[0]? = some ⟨"c1", [1, 0], .atMost, 1⟩ := by
      decide +kernel
    have last : heldRowProblem.constraints[3]? = some ⟨"c4", [-1, -1], .atMost, -2⟩ := by
      decide +kernel
    obtain ⟨held, foundHeld, _, _, agreesHeld, _⟩ :=
      rhsRanges_agree heldRowProblem analysis made 0 _ first
    obtain ⟨turned, foundTurned, _, _, agreesTurned, _⟩ :=
      rhsRanges_agree heldRowProblem analysis made 3 _ last
    obtain ⟨artificial, ends⟩ := Prod.mk.inj (Except.ok.inj inspected)
    have endsHeld := congrArg (·[0]?) ends
    have endsTurned := congrArg (·[3]?) ends
    simp only [List.getElem?_map, foundHeld, foundTurned] at endsHeld endsTurned
    refine ⟨analysis, held, turned, made, first, last, artificial, foundHeld, foundTurned,
      Option.some.inj endsHeld, Option.some.inj endsTurned, agreesHeld, agreesTurned,
      (agreesTurned 3).1 ?_⟩
    obtain ⟨lower, upper⟩ := Prod.mk.inj (Option.some.inj endsTurned)
    unfold RhsRange.Contains
    rw [lower, upper]
    exact ⟨(Extended.isReachedBy_finite _ _).2 (by norm_num), rfl⟩

/-- Shadow prices are realised. When an analysis is from a run without tolerance and preserves the
basis under another right-hand side of an inequality, the answer is about the problem with that
right-hand side, and its objective differs from that of the analysis by the shadow price times the
change. -/
theorem shadowPrices_realised (problem : Problem Rat) (analysis : Sensitivity Rat)
    (made : OfExactRun problem analysis) (i : Nat) (constraint : Constraint Rat)
    (listed : problem.constraints[i]? = some constraint)
    (inequality : constraint.relation ≠ .equal) (number : Rat)
    (preserved : Preserves (analysis.changeRhs i number)) :
    ∃ answer objective price, analysis.changeRhs i number = .ok answer ∧
      answer.problem = problem.setRhs i number ∧
      answer.objectiveValue = some (.finite objective) ∧
      analysis.shadowPrices[i]? = some price ∧
      objective - analysis.objectiveValue = price.value * (number - constraint.rhs) := by
  obtain ⟨basis, rfl⟩ := made.exists_basis
  obtain ⟨inRange, rfl⟩ := List.getElem?_eq_some_iff.1 listed
  have feasible := (preserves_changeRhs_iff basis.analysis ⟨i, inRange⟩ number).1 preserved
  obtain ⟨steps, message, asked⟩ :=
    changeRhs_of_feasible basis.analysis ⟨i, inRange⟩ number feasible
  refine ⟨_, _, _, asked, rfl, rfl, basis.getElem?_shadowPrices ⟨i, inRange⟩, ?_⟩
  have priced := basis.shadowPrice_eq (i := ⟨i, inRange⟩) inequality
  refine (congrArg (· - basis.analysis.objectiveValue)
    (basis.objectiveAt_levelsAfter ⟨i, inRange⟩ number)).trans ?_
  rw [add_sub_cancel_left, ← priced]
  rfl

/-- The statement at a negated row of a problem that is made small. -/
theorem shadowPrices_realised_coverProblem :
    ∃ (analysis : Sensitivity Rat) (answer : WhatIfAnswer Rat) (price : ShadowPrice Rat),
      OfExactRun coverProblem analysis ∧
      coverProblem.constraints[0]? = some ⟨"c1", [-1, -1], .atMost, -4⟩ ∧
      Relation.atMost ≠ .equal ∧ Preserves (analysis.changeRhs 0 (-5)) ∧
      analysis.objectiveValue = 9 ∧ analysis.changeRhs 0 (-5) = .ok answer ∧
      answer.objectiveValue = some (.finite (21 / 2)) ∧
      analysis.shadowPrices[0]? = some price ∧
      (21 / 2 : Rat) - 9 = price.value * (-5 - -4) := by
  have inspected : (analyze coverProblem { tolerance := 0 }).map (fun analysis =>
      (analysis.objectiveValue, (analysis.changeRhs 0 (-5)).map WhatIfAnswer.isPreserved,
        (analysis.changeRhs 0 (-5)).map WhatIfAnswer.objectiveValue)) =
      .ok (9, .ok true, .ok (some (.finite (21 / 2)))) := by
    decide +kernel
  cases analyzed : analyze coverProblem { tolerance := 0 } with
  | error fault =>
    rw [analyzed] at inspected
    cases inspected
  | ok analysis =>
    rw [analyzed] at inspected
    have made := ofExactRun_of_analyze rfl analyzed
    have listed : coverProblem.constraints[0]? = some ⟨"c1", [-1, -1], .atMost, -4⟩ := by
      decide +kernel
    have inequality : Relation.atMost ≠ .equal := nofun
    obtain ⟨old, preserved, new⟩ := by simpa only [Prod.mk.injEq] using Except.ok.inj inspected
    obtain ⟨answer, objective, price, asked, _, found, priced, realised⟩ :=
      shadowPrices_realised coverProblem analysis made 0 _ listed inequality (-5) preserved
    rw [asked] at new
    have same : answer.objectiveValue = some (.finite (21 / 2)) := Except.ok.inj new
    rw [found] at same
    cases same
    rw [old] at realised
    exact ⟨analysis, answer, price, made, listed, inequality, preserved, old, asked, found, priced,
      realised⟩

end Sensitivity

end LinearProgramming
