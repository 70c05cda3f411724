/-
This file compares the analysis of a problem with that of the problem in which a constraint is
negated.

Both have one tableau, and their forms differ in the sign of that row. The sign undoes itself where
an answer is about the constraint as its author wrote it: its price is negated, the interval of its
right-hand side is reflected at zero, and another right-hand side is the negated one in the other
problem. When that question is answered by a fresh run, the changed problems are again a problem and
its negated row, provided the new right-hand side is not zero.
-/

import Mathlib
import LinearProgramming.Proofs.NegatedRow
import LinearProgramming.Proofs.Sensitivity.SharedForm

namespace LinearProgramming

/-! ### Negated answers -/

theorem Sense.orient_neg (sense : Sense) (number : Rat) :
    sense.orient (-number) = -sense.orient number := by
  cases sense <;> rfl

/-- The interval reflected at zero, of the right-hand side with the other sign. -/
def RhsRange.negated (range : RhsRange Rat) : RhsRange Rat :=
  { range with
    current := -range.current
    lower := range.upper.negate
    upper := range.lower.negate }

theorem Extended.shift_neg_negate (number : Extended Rat) (offset : Rat) :
    number.negate.shift (-offset) = (number.shift offset).negate := by
  cases number with
  | negInf | posInf => rfl
  | finite number => exact congrArg Extended.finite (neg_add offset number).symm

namespace Sensitivity

theorem reflected_reflected (interval : Extended Rat × Extended Rat) :
    reflected (reflected interval) = interval :=
  Prod.ext interval.1.negate_negate interval.2.negate_negate

/-- Exactly one of two opposite signs is negative, and reflects an interval. -/
theorem reflected_of_neg {sign : Rat} (nonzero : sign ≠ 0)
    (interval : Extended Rat × Extended Rat) :
    (if -sign < 0 then reflected interval else interval) =
      reflected (if sign < 0 then reflected interval else interval) := by
  rcases lt_or_gt_of_ne nonzero with negative | positive
  · rw [if_pos negative, if_neg (not_lt.2 (neg_nonneg.2 negative.le)), reflected_reflected]
  · rw [if_neg (not_lt.2 positive.le), if_pos (neg_lt_zero.2 positive)]

end Sensitivity

/-- The negated interval is the reflected one around the negated number. -/
theorem RhsRange.negated_shift (row : Nat) (name : String) (current : Rat)
    (interval : Extended Rat × Extended Rat) :
    RhsRange.negated ⟨row, name, current, interval.1.shift current, interval.2.shift current⟩ =
      ⟨row, name, -current, (Sensitivity.reflected interval).1.shift (-current),
        (Sensitivity.reflected interval).2.shift (-current)⟩ :=
  congrArg₂ (RhsRange.mk row name (-current)) (interval.2.shift_neg_negate current).symm
    (interval.1.shift_neg_negate current).symm

/-- A listing by index in which one entry is changed. -/
theorem map_finRange_modify {β : Type} {count number : Nat} {entry other : Fin count → β}
    {change : β → β}
    (changed : ∀ i, other i = if number = i.val then change (entry i) else entry i) :
    (List.finRange count).map other = ((List.finRange count).map entry).modify number change := by
  refine List.ext_getElem (by simp) fun position _ _ => ?_
  rw [List.getElem_map, List.getElem_modify, List.getElem_map, changed]
  simp

/-- Where two columns differ in the sign of one entry, so they do after that entry is replaced. -/
theorem get_replaceEntry_neg {count : Nat} {column other : Vector Rat count} (row : Fin count)
    (negated : ∀ i, other.get i = if row.val = i.val then -column.get i else column.get i)
    (entry : Rat) (i : Fin count) :
    (replaceEntry other row (-entry)).get i =
      if row.val = i.val then -(replaceEntry column row entry).get i
      else (replaceEntry column row entry).get i := by
  rw [get_replaceEntry, get_replaceEntry]
  by_cases own : i = row
  · rw [if_pos own, if_pos own, if_pos (congrArg Fin.val own.symm)]
  · have other : row.val ≠ i.val := fun same => own (Fin.ext same.symm)
    rw [if_neg own, if_neg own, if_neg other, negated, if_neg other]

/-- What an answer says about the optimum: whether the old basis is still optimal, the objective and
the values of the variables. -/
def WhatIfAnswer.report (answer : WhatIfAnswer Rat) : Bool × Option (Extended Rat) × List Rat :=
  (answer.isPreserved, answer.objectiveValue, answer.values)

namespace Problem

/-- Another right-hand side in a negated constraint is the negated one in the constraint. -/
theorem setRhs_negateRow (problem : Problem Rat) (number : Nat) (rhs : Rat) :
    (problem.negateRow number).setRhs number (-rhs) =
      (problem.setRhs number rhs).negateRow number := by
  unfold setRhs negateRow
  refine congrArg problem.withConstraints ?_
  show (problem.constraints.modify number Constraint.negated).modify number _ =
    (problem.constraints.modify number _).modify number Constraint.negated
  rw [List.modify_modify_eq, List.modify_modify_eq]
  rfl

theorem turnable_setRhs {problem : Problem Rat} {number : Nat} (inRange : number < problem.numRows)
    {rhs : Rat} (nonzero : rhs ≠ 0) : Turnable (problem.setRhs number rhs).constraints number := by
  have inList : number < problem.constraints.length := inRange
  refine ⟨{ problem.constraints[number] with rhs }, ?_, nonzero⟩
  show (problem.constraints.modify number _)[number]? = _
  rw [List.getElem?_modify_eq, List.getElem?_eq_getElem inList]
  rfl

end Problem

namespace Sensitivity

/-! ### The turned analysis -/

/-- The analysis of the problem with a constraint negated, from the same tableau. -/
def turned (number : Nat) (analysis : Sensitivity Rat) : Sensitivity Rat where
  problem := analysis.problem.negateRow number
  valid := analysis.valid.negateRow number
  solver := analysis.solver
  form := analysis.form.turned number
  tableau := analysis.tableau
  numVars_eq := analysis.numVars_eq
  numRows_eq := analysis.numRows_eq.trans (analysis.problem.numRows_negateRow number).symm

/-- Both problems are refused for one reason, or make an analysis and the turned one. -/
theorem analyze_negateRow {problem : Problem Rat} {number : Nat}
    (turnable : Turnable problem.constraints number) (solver : Solver Rat) :
    analyze (problem.negateRow number) solver = (analyze problem solver).map (turned number) := by
  unfold analyze
  rw [solver.start_negateRow turnable]
  cases checked : problem.validate with
  | error fault =>
    unfold Solver.start
    rw [checked]
    rfl
  | ok evidence =>
    rw [solver.start_eq evidence.down]
    show ofRun (problem.negateRow number) ((Run.initial solver problem.sense
      (.ofProblem problem evidence.down)).turned number).complete = (ofRun problem _).map _
    rw [Run.complete_turned, ofRun_eq (evidence.down.negateRow number)
      (StandardForm.ofProblem_negateRow turnable evidence.down), ofRun_eq evidence.down rfl]
    show ite ((Run.initial solver problem.sense (.ofProblem problem evidence.down)).complete.status =
      some .optimal) _ _ = _
    split <;> rfl

variable (analysis : Sensitivity Rat) {number : Nat}

theorem constraint_turned (row : Fin analysis.form.numRows) :
    (analysis.turned number).constraint row =
      if number = row.val then (analysis.constraint row).negated else analysis.constraint row :=
  Problem.row_negateRow _

theorem get_rowSigns_turned (row : Fin analysis.form.numRows) :
    (analysis.turned number).form.rowSigns.get row =
      if number = row.val then -analysis.form.rowSigns.get row
      else analysis.form.rowSigns.get row :=
  get_vectorOfFn _ row

/-! ### Prices and intervals -/

theorem shadowPrice_turned (row : Fin analysis.form.numRows) :
    (analysis.turned number).shadowPrice row =
      if number = row.val then -analysis.shadowPrice row else analysis.shadowPrice row := by
  have slack : (analysis.turned number).form.slackOf.get row = analysis.form.slackOf.get row := rfl
  unfold shadowPrice
  rw [slack]
  cases analysis.form.slackOf.get row with
  | none => simp
  | some column =>
    show analysis.problem.sense.orient ((analysis.tableau.objectiveEntry column).value *
      (analysis.form.columns.get column).slackSign *
        (analysis.turned number).form.rowSigns.get row) = _
    rw [get_rowSigns_turned]
    split
    · rw [mul_neg, Sense.orient_neg]
    · rfl

theorem shadowPrices_turned :
    (analysis.turned number).shadowPrices =
      analysis.shadowPrices.modify number ShadowPrice.negated := by
  refine map_finRange_modify fun (row : Fin analysis.form.numRows) => ?_
  rw [shadowPrice_turned, constraint_turned]
  split <;> rfl

/-- An objective coefficient does not know of the signs of the rows. -/
theorem objectiveRange_turned (j : Fin analysis.problem.numVars) :
    (analysis.turned number).objectiveRange j = analysis.objectiveRange j := by
  have basicRow : (analysis.turned number).tableau.basicRow? j = analysis.tableau.basicRow? j := rfl
  unfold objectiveRange
  rw [basicRow]
  cases analysis.tableau.basicRow? j <;> rfl

theorem objectiveRanges_turned :
    (analysis.turned number).objectiveRanges = analysis.objectiveRanges :=
  List.map_congr_left fun j _ => analysis.objectiveRange_turned j

theorem rhsRange_turned (signed : ∀ row, analysis.form.rowSigns.get row ≠ 0)
    (row : Fin analysis.form.numRows) :
    (analysis.turned number).rhsRange row =
      if number = row.val then (analysis.rhsRange row).negated else analysis.rhsRange row := by
  have interval : (analysis.turned number).levelInterval row = analysis.levelInterval row := rfl
  unfold rhsRange
  dsimp only
  rw [interval, get_rowSigns_turned, constraint_turned]
  split
  · rw [reflected_of_neg (signed row)]
    exact (RhsRange.negated_shift row.val (analysis.constraint row).name _ _).symm
  · rfl

theorem rhsRanges_turned (signed : ∀ row, analysis.form.rowSigns.get row ≠ 0) :
    (analysis.turned number).rhsRanges = analysis.rhsRanges.modify number RhsRange.negated :=
  map_finRange_modify fun row => analysis.rhsRange_turned signed row

/-! ### Another right-hand side -/

theorem map_report_resolve (changed : Problem Rat) (steps : List (Remark Rat)) (reason : String) :
    (analysis.resolve changed steps reason).map WhatIfAnswer.report =
      (analysis.solver.solve changed).map fun solution =>
        (false, solution.outcome.objectiveValue, solution.outcome.values) := by
  unfold resolve
  cases analysis.solver.solve changed <;> rfl

/-- What another right-hand side does: the old basis is still optimal when it is feasible at the
levels that the right-hand sides then give, and otherwise there is a fresh run. -/
theorem map_report_changeRhs (row : Fin analysis.form.numRows) (rhs : Rat) :
    (analysis.changeRhs row rhs).map WhatIfAnswer.report =
      if analysis.isFeasible (analysis.price (replaceEntry analysis.rightHandSides row rhs)) then
        .ok (true,
          some (.finite (analysis.objectiveAt
            (analysis.price (replaceEntry analysis.rightHandSides row rhs)))),
          analysis.valuesAt (analysis.price (replaceEntry analysis.rightHandSides row rhs)))
      else
        (analysis.solver.solve (analysis.problem.setRhs row rhs)).map fun solution =>
          (false, solution.outcome.objectiveValue, solution.outcome.values) := by
  have found : analysis.rowIndex row = .ok row :=
    dif_pos (row.isLt.trans_eq analysis.numRows_eq)
  unfold changeRhs
  rw [found]
  simp only [bind, Except.bind]
  split
  · rfl
  · exact analysis.map_report_resolve _ _ _

theorem get_oriented (column : Vector Rat analysis.form.numRows)
    (i : Fin analysis.form.numRows) :
    (analysis.oriented column).get i = column.get i * analysis.form.rowSigns.get i :=
  Vector.getElem_zipWith i.isLt

theorem get_rightHandSides_turned (i : Fin analysis.form.numRows) :
    (analysis.turned number).rightHandSides.get i =
      if number = i.val then -analysis.rightHandSides.get i else analysis.rightHandSides.get i := by
  have here : analysis.rightHandSides.get i = (analysis.constraint i).rhs := get_vectorOfFn _ i
  refine (get_vectorOfFn _ i).trans ?_
  rw [constraint_turned, here]
  split <;> rfl

/-- The negated right-hand side with the turned sign makes the same column. -/
theorem oriented_turned (row : Fin analysis.form.numRows) (rhs : Rat) :
    (analysis.turned row).oriented (replaceEntry (analysis.turned row).rightHandSides row (-rhs)) =
      analysis.oriented (replaceEntry analysis.rightHandSides row rhs) := by
  have entry : ∀ i : Fin analysis.form.numRows,
      ((analysis.turned row).oriented
          (replaceEntry (analysis.turned row).rightHandSides row (-rhs))).get i =
        (analysis.oriented (replaceEntry analysis.rightHandSides row rhs)).get i := by
    intro i
    have replaced := get_replaceEntry_neg row analysis.get_rightHandSides_turned rhs i
    refine ((analysis.turned row).get_oriented _ i).trans (Eq.trans ?_
      (analysis.get_oriented _ i).symm)
    rw [get_rowSigns_turned]
    refine (congrArg (· * _) replaced).trans ?_
    split
    · exact neg_mul_neg _ _
    · rfl
  exact Vector.ext fun position inRange => entry ⟨position, inRange⟩

theorem changeRhs_turned (row : Fin analysis.form.numRows) {rhs : Rat} (nonzero : rhs ≠ 0) :
    ((analysis.turned row).changeRhs row (-rhs)).map WhatIfAnswer.report =
      (analysis.changeRhs row rhs).map WhatIfAnswer.report := by
  have levels : (analysis.turned row).price
      (replaceEntry (analysis.turned row).rightHandSides row (-rhs)) =
        analysis.price (replaceEntry analysis.rightHandSides row rhs) :=
    congrArg analysis.inverse.mulVec (analysis.oriented_turned row rhs)
  have solved : analysis.solver.solve ((analysis.problem.negateRow row).setRhs row (-rhs)) =
      (analysis.solver.solve (analysis.problem.setRhs row rhs)).map
        fun solution => solution.turned row := by
    rw [Problem.setRhs_negateRow]
    exact analysis.solver.solve_negateRow
      (Problem.turnable_setRhs (row.isLt.trans_eq analysis.numRows_eq) nonzero)
  refine ((analysis.turned row).map_report_changeRhs row (-rhs)).trans
    (Eq.trans ?_ (analysis.map_report_changeRhs row rhs).symm)
  rw [levels]
  refine if_congr Iff.rfl rfl ?_
  refine (congrArg (Except.map _) solved).trans ?_
  cases analysis.solver.solve (analysis.problem.setRhs row rhs) <;> rfl

theorem rowSigns_ne_zero {problem : Problem Rat} {form : StandardForm Rat}
    (made : ∃ valid : problem.Valid, form = .ofProblem problem valid) (row : Fin form.numRows) :
    form.rowSigns.get row ≠ 0 := by
  obtain ⟨valid, rfl⟩ := made
  have sign : (StandardForm.ofProblem problem valid).rowSigns.get row = problem.rowSign row :=
    get_vectorOfFn _ row
  rw [sign]
  rcases problem.rowSign_cases row with ⟨_, sign, _⟩ | ⟨_, sign, _⟩
  · rw [sign]
    decide
  · rw [sign]
    decide

theorem form_of_analyze {problem : Problem Rat} {solver : Solver Rat}
    {analysis : Sensitivity Rat} (made : analyze problem solver = .ok analysis) :
    analysis.form.numRows = problem.numRows ∧
      ∃ valid : problem.Valid, analysis.form = .ofProblem problem valid := by
  unfold analyze at made
  cases started : solver.start problem with
  | error fault =>
    rw [started] at made
    cases made
  | ok begun =>
    rw [started] at made
    obtain ⟨_, valid, _, sameRows, form, rfl⟩ := ofRun_eq_ok made
    exact ⟨sameRows, valid, form⟩

/-- The answers about a problem and those about its negated row. -/
theorem turned_of_analyze {problem : Problem Rat} {solver : Solver Rat}
    {analysis : Sensitivity Rat} (made : analyze problem solver = .ok analysis)
    (i : Fin problem.numRows) :
    (analysis.turned i).shadowPrices = analysis.shadowPrices.modify i ShadowPrice.negated ∧
      (analysis.turned i).rhsRanges = analysis.rhsRanges.modify i RhsRange.negated ∧
      (analysis.turned i).objectiveRanges = analysis.objectiveRanges ∧
      ∀ rhs ≠ 0, ((analysis.turned i).changeRhs i (-rhs)).map WhatIfAnswer.report =
        (analysis.changeRhs i rhs).map WhatIfAnswer.report := by
  obtain ⟨rows, form⟩ := form_of_analyze made
  exact ⟨analysis.shadowPrices_turned, analysis.rhsRanges_turned (rowSigns_ne_zero form),
    analysis.objectiveRanges_turned,
    fun rhs nonzero => analysis.changeRhs_turned (i.cast rows.symm) nonzero⟩

end Sensitivity

/-- It does not matter which way round a constraint with a right-hand side other than zero is
written. With any settings and any mask the two problems are refused for one reason, or the tableau
method takes the same steps however it is driven, the revised method starts from the same data, and
the search lists the same nodes with the constraint negated and keeps the same incumbent. An
analysis is made of both or of none. It has the price of the constraint negated, the interval of its
right-hand side reflected, and all else the same; and another right-hand side, if it is not zero,
gets the answer that the negated one gets. -/
theorem Problem.negateRow_agrees (problem : Problem Rat) (i : Fin problem.numRows)
    (nonzero : (problem.row i).rhs ≠ 0) (solver : Solver Rat) (settings : BranchAndBound Rat)
    (mask : List Bool) :
    solver.start (problem.negateRow i) =
        (solver.start problem).map (fun started => ⟨started.1.turned i, started.2.turned i⟩) ∧
      (∀ (form : StandardForm Rat) (run : Run form) (calls : List Run.Call),
        (run.turned i).drive calls = (run.drive calls).turned i) ∧
      solver.solve (problem.negateRow i) =
        (solver.solve problem).map (fun solution => solution.turned i) ∧
      RevisedSimplex.ofProblem (problem.negateRow i) = RevisedSimplex.ofProblem problem ∧
      settings.solveMixed (problem.negateRow i) mask =
        (settings.solveMixed problem mask).map (SearchTree.turned i) ∧
      Sensitivity.analyze (problem.negateRow i) solver =
        (Sensitivity.analyze problem solver).map (Sensitivity.turned i) ∧
      ∀ analysis, Sensitivity.analyze problem solver = .ok analysis →
        (analysis.turned i).shadowPrices = analysis.shadowPrices.modify i ShadowPrice.negated ∧
          (analysis.turned i).rhsRanges = analysis.rhsRanges.modify i RhsRange.negated ∧
          (analysis.turned i).objectiveRanges = analysis.objectiveRanges ∧
          ∀ rhs ≠ 0, ((analysis.turned i).changeRhs i (-rhs)).map WhatIfAnswer.report =
            (analysis.changeRhs i rhs).map WhatIfAnswer.report := by
  have turnable : Turnable problem.constraints i :=
    ⟨problem.row i, List.getElem?_eq_getElem i.isLt, nonzero⟩
  exact ⟨solver.start_negateRow turnable, fun form run calls => run.drive_turned i calls,
    solver.solve_negateRow turnable, RevisedSimplex.ofProblem_negateRow turnable,
    settings.solveMixed_negateRow turnable mask, Sensitivity.analyze_negateRow turnable solver,
    fun analysis made => Sensitivity.turned_of_analyze made i⟩

/-- The statement at a constraint whose right-hand side is negative. -/
theorem Problem.negateRow_agrees_mixedProblem :
    (mixedProblem.row ⟨2, by decide⟩).rhs ≠ 0 ∧
      ∃ analysis, Sensitivity.analyze mixedProblem {} = .ok analysis ∧
        Sensitivity.analyze (mixedProblem.negateRow 2) {} = .ok (analysis.turned 2) ∧
        (analysis.turned 2).shadowPrices = analysis.shadowPrices.modify 2 ShadowPrice.negated ∧
        (analysis.turned 2).rhsRanges = analysis.rhsRanges.modify 2 RhsRange.negated ∧
        ((analysis.turned 2).changeRhs 2 2).map WhatIfAnswer.report =
          (analysis.changeRhs 2 (-2)).map WhatIfAnswer.report := by
  have nonzero : (mixedProblem.row ⟨2, by decide⟩).rhs ≠ 0 := by decide +kernel
  have accepted : (Sensitivity.analyze mixedProblem {}).toBool = true := by decide +kernel
  obtain ⟨_, _, _, _, _, analyzed, answers⟩ :=
    mixedProblem.negateRow_agrees ⟨2, by decide⟩ nonzero {} {} [true, true]
  cases made : Sensitivity.analyze mixedProblem {} with
  | error fault =>
    rw [made] at accepted
    cases accepted
  | ok analysis =>
    rw [made] at analyzed
    obtain ⟨prices, ranges, _, asked⟩ := answers analysis made
    have raised := asked (-2) (neg_ne_zero.2 two_ne_zero)
    rw [neg_neg] at raised
    exact ⟨nonzero, analysis, rfl, analyzed, prices, ranges, raised⟩

end LinearProgramming
