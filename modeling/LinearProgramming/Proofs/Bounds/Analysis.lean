/-
This file makes analyses and reports on lists and tables of any size.

A bare analysis keeps the problem, its form, the optimal tableau, the inverse and the levels, and
nothing says that they belong together. An analysis is only made of a run whose form has as many
variables and rows as the problem and agrees with its form. So the shadow prices and the intervals
find a constraint for each row, a coefficient and a name for each variable, and the entries of the
tableau under every column they look at.
-/

import LinearProgramming.Sensitivity.WhatIf
import LinearProgramming.Proofs.Bounds.Run

namespace LinearProgramming

variable {α : Type} [Scalar α]

namespace Bare

/-- Two forms have the same shape and the same entries throughout. -/
def Form.agrees (left right : Form α) : Bool :=
  left.numVars == right.numVars && left.columns == right.columns && left.names == right.names &&
    left.a.rowCount == right.a.rowCount && left.a.columnCount == right.a.columnCount &&
    left.a.entries.toLists == right.a.entries.toLists && left.b == right.b &&
    left.costs == right.costs && left.initialBasis == right.initialBasis &&
    left.rowSigns == right.rowSigns && left.slackOf == right.slackOf &&
    left.artificialOf == right.artificialOf

/-- The parts of an analysis. -/
structure Analysis (α : Type) [Scalar α] where
  problem : Problem α
  solver : Solver α
  form : Form α
  tableau : Tableau α
  inverse : Table α
  levels : List α

namespace Analysis

/-! ### Making an analysis -/

/-- The parts read off the tableau of a run. -/
def make? (problem : Problem α) (run : Run α) : Option (Analysis α) := do
  let inverse ← Table.ofReads? run.form.a.rowCount run.form.a.rowCount fun i k => do
    run.tableau.entryAt? i (← run.form.initialBasis[k]?)
  let levels ← (List.range run.form.a.rowCount).mapM run.tableau.rhs?
  return ⟨problem, run.solver, run.form, run.tableau, inverse, levels⟩

/-- The analysis of a problem from a run. -/
def ofRun? (problem : Problem α) (run : Run α) : Option (Except ProblemError (Analysis α)) :=
  if run.status = some .optimal then
    match problem.validate with
    | .error fault => some (.error fault)
    | .ok _ =>
      if run.form.numVars = problem.numVars then
        if run.form.a.rowCount = problem.numRows then do
          if run.form.agrees (← Form.ofProblem? problem) then return .ok (← make? problem run)
          else return .error .problemMismatch
        else
          some (.error (.dimension .solvedConstraints problem.numRows run.form.a.rowCount))
      else some (.error (.dimension .solvedVariables problem.numVars run.form.numVars))
  else some (.error (.notOptimal (run.status.getD .notConverged)))

/-- The analysis of a problem from a run to the end. -/
def analyze? (problem : Problem α) (solver : Solver α) :
    Option (Except ProblemError (Analysis α)) := do
  match ← start? solver problem with
  | .error fault => return .error fault
  | .ok run => ofRun? problem (← run.complete?)

/-! ### The basis -/

/-- The tolerance of the comparisons. -/
def tolerance (analysis : Analysis α) : α := analysis.solver.tolerance

/-- The costs of the basic columns. -/
def basicCosts? (analysis : Analysis α) : Option (List (BigM α)) :=
  analysis.tableau.basis.mapM fun basic => analysis.form.costs[basic]?

/-- The column with a given number is basic in some row. -/
def isBasic (analysis : Analysis α) (number : Nat) : Bool :=
  (analysis.tableau.basicRow? number).isSome

/-- The columns that a change may bring into the basis. -/
def candidates? (analysis : Analysis α) : Option (List Nat) :=
  (List.range analysis.form.columns.length).filterM fun column => do
    if analysis.isBasic column then return false
    else return !(← analysis.form.isArtificial? column)

/-- The values of the variables when the basic unknowns have given levels. -/
def valuesAt? (analysis : Analysis α) (levels : List α) : Option (List α) :=
  (List.range analysis.form.numVars).mapM fun number =>
    match analysis.tableau.basicRow? number with
    | some row => levels[row]?
    | none => some 0

/-- The values of the variables at the optimum. -/
def values? (analysis : Analysis α) : Option (List α) := analysis.valuesAt? analysis.levels

/-- The optimal objective in the author's sense. -/
def objectiveValue? (analysis : Analysis α) : Option α := do
  return analysis.problem.sense.orient (← analysis.tableau.objective?).value

/-! ### Reports -/

/-- The shadow price of a row. -/
def shadowPrice? (analysis : Analysis α) (row : Nat) : Option α := do
  match ← analysis.form.slackOf[row]? with
  | some column =>
    let key ← analysis.form.columns[column]?
    let price ← analysis.tableau.objectiveEntryAt? column
    return analysis.problem.sense.orient
      (price.value * (if key.1 = 2 then -1 else 1) * (← analysis.form.rowSigns[row]?))
  | none => return 0

/-- The shadow prices of all constraints. -/
def shadowPrices? (analysis : Analysis α) : Option (List (ShadowPrice α)) :=
  (List.range analysis.form.a.rowCount).mapM fun row => do
    let price ← analysis.shadowPrice? row
    return ⟨row, (← analysis.problem.constraints[row]?).name, price⟩

/-- How far the cost of the basic column of a row can move. -/
def costInterval? (analysis : Analysis α) (row : Nat) : Option (Extended α × Extended α) := do
  (← analysis.candidates?).foldlM (fun interval column => do
    let slope ← analysis.tableau.entryAt? row column
    if Scalar.abs slope ≤ analysis.tolerance then return interval
    else
      let entry ← analysis.tableau.objectiveEntryAt? column
      return Sensitivity.narrow entry.value slope interval) (.negInf, .posInf)

/-- Whether a variable is basic and how far its cost can be from zero. -/
def costRange? (analysis : Analysis α) (number : Nat) (cost : α) :
    Option (Bool × Extended α × Extended α) :=
  match analysis.tableau.basicRow? number with
  | none => do
    let entry ← analysis.tableau.objectiveEntryAt? number
    return (false, .negInf, .finite (cost + entry.value))
  | some row => do
    let interval ← analysis.costInterval? row
    return (true, interval.1.shift cost, interval.2.shift cost)

/-- The interval of the objective coefficient of a variable. -/
def objectiveRange? (analysis : Analysis α) (number : Nat) : Option (ObjectiveRange α) := do
  let cost ← analysis.problem.maxObjective[number]?
  let (basic, interval) ← analysis.costRange? number cost
  let interval := match analysis.problem.sense with
    | .maximize => interval
    | .minimize => Sensitivity.reflected interval
  let name ← analysis.problem.variableNames[number]?
  let current ← analysis.problem.objective[number]?
  return ⟨number, name, basic, current, interval.1, interval.2⟩

/-- The intervals of all objective coefficients. -/
def objectiveRanges? (analysis : Analysis α) : Option (List (ObjectiveRange α)) :=
  (List.range analysis.form.numVars).mapM analysis.objectiveRange?

/-- How far the right-hand side of a row can move, with its sign in the form. -/
def levelInterval? (analysis : Analysis α) (row : Nat) : Option (Extended α × Extended α) :=
  (List.range analysis.levels.length).foldlM (fun interval basicRow => do
    let slope ← analysis.inverse.get? basicRow row
    if Scalar.abs slope ≤ analysis.tolerance then return interval
    else if ← analysis.form.isArtificial? (← analysis.tableau.basis[basicRow]?) then
      return (interval.1.raiseTo 0, interval.2.lowerTo 0)
    else return Sensitivity.narrow (← analysis.levels[basicRow]?) slope interval)
    (.negInf, .posInf)

/-- The interval of the right-hand side of a constraint. -/
def rhsRange? (analysis : Analysis α) (row : Nat) : Option (RhsRange α) := do
  let interval ← analysis.levelInterval? row
  let sign ← analysis.form.rowSigns[row]?
  let interval := if sign < 0 then Sensitivity.reflected interval else interval
  let constraint ← analysis.problem.constraints[row]?
  return ⟨row, constraint.name, constraint.rhs, interval.1.shift constraint.rhs,
    interval.2.shift constraint.rhs⟩

/-- The intervals of all right-hand sides. -/
def rhsRanges? (analysis : Analysis α) : Option (List (RhsRange α)) :=
  (List.range analysis.form.a.rowCount).mapM analysis.rhsRange?

end Analysis

end Bare

theorem StandardForm.agrees_bare (left right : StandardForm α) :
    left.bare.agrees right.bare = left.agrees right := rfl

namespace Sensitivity

/-- The parts of an analysis. -/
def bare (analysis : Sensitivity α) : Bare.Analysis α where
  problem := analysis.problem
  solver := analysis.solver
  form := analysis.form.bare
  tableau := analysis.tableau.bare analysis.form.names
  inverse := ⟨_, _, analysis.inverse⟩
  levels := analysis.levels.toList

/-! ### Making an analysis -/

theorem make?_bare (problem : Problem α) (valid : problem.Valid) {form : StandardForm α}
    (run : Run form) (sameVars : form.numVars = problem.numVars)
    (sameRows : form.numRows = problem.numRows) :
    Bare.Analysis.make? problem run.bare =
      some (bare ⟨problem, valid, run.solver, form, run.tableau, sameVars, sameRows⟩) := by
  have inverse : Table.ofReads? form.numRows form.numRows (fun i k => do
      run.bare.tableau.entryAt? i (← run.bare.form.initialBasis[k]?)) =
      some ⟨form.numRows, form.numRows, DenseMatrix.ofFn fun i k =>
        run.tableau.entry i (form.initialBasis.get k)⟩ :=
    Table.ofReads?_eq fun i k => by
      simp only [Run.form_bare, Run.tableau_bare, StandardForm.getElem?_initialBasis,
        Option.bind_eq_bind, Option.bind_some, Tableau.entryAt?_bare]
  have levels : (List.range form.numRows).mapM run.bare.tableau.rhs? =
      some (Vector.ofFn run.tableau.rhs).toList := by
    rw [Vector.toList_ofFn]
    exact mapM_range fun row => Tableau.rhs?_bare form.names run.tableau row
  rw [Bare.Analysis.make?]
  show (Table.ofReads? form.numRows form.numRows _).bind _ = _
  rw [inverse, Option.bind_some]
  show Option.bind ((List.range form.numRows).mapM _) _ = _
  rw [levels]
  rfl

theorem ofRun?_bare (problem : Problem α) {form : StandardForm α} (run : Run form) :
    Bare.Analysis.ofRun? problem run.bare = some ((ofRun problem run).map bare) := by
  rw [Bare.Analysis.ofRun?, ofRun]
  show (if run.status = some .optimal then _ else _) = _
  split
  · cases problem.validate with
    | error fault => rfl
    | ok evidence =>
      obtain ⟨valid⟩ := evidence
      show (if form.numVars = problem.numVars then _ else _) = some (Except.map bare
        (if sameVars : form.numVars = problem.numVars then _ else _))
      by_cases sameVars : form.numVars = problem.numVars
      · rw [if_pos sameVars, dif_pos sameVars]
        show (if form.numRows = problem.numRows then _ else _) = _
        by_cases sameRows : form.numRows = problem.numRows
        · rw [if_pos sameRows, dif_pos sameRows, StandardForm.ofProblem?_bare problem valid,
            Option.bind_eq_bind, Option.bind_some, Run.form_bare, StandardForm.agrees_bare,
            make?_bare problem valid run sameVars sameRows]
          cases form.agrees (StandardForm.ofProblem problem valid) <;> rfl
        · rw [if_neg sameRows, dif_neg sameRows]
          rfl
      · rw [if_neg sameVars, dif_neg sameVars]
        rfl
  · rfl

theorem analyze?_bare (problem : Problem α) (solver : Solver α) :
    Bare.Analysis.analyze? problem solver = some ((analyze problem solver).map bare) := by
  rw [Bare.Analysis.analyze?, Solver.start?_bare, analyze]
  cases solver.start problem with
  | error fault => rfl
  | ok started =>
    show started.2.bare.complete?.bind _ = _
    rw [Run.complete?_bare, Option.bind_some, ofRun?_bare]
    rfl

/-! ### Reads that succeed -/

section Reads

variable (analysis : Sensitivity α)

@[simp] theorem form_bare : analysis.bare.form = analysis.form.bare := rfl

@[simp] theorem tableau_bare :
    analysis.bare.tableau = analysis.tableau.bare analysis.form.names := rfl

@[simp] theorem tolerance_bare : analysis.bare.tolerance = analysis.tolerance := rfl

@[simp] theorem isBasic_bare (number : Nat) :
    analysis.bare.isBasic number = analysis.tableau.isBasic number := by
  rw [Bare.Analysis.isBasic, tableau_bare, Tableau.basicRow?_bare, Tableau.isBasic,
    Option.isSome_map]

@[simp] theorem getElem?_constraints (row : Fin analysis.form.numRows) :
    analysis.bare.problem.constraints[row.val]? = some (analysis.constraint row) :=
  List.getElem?_eq_getElem (row.cast analysis.numRows_eq).isLt

@[simp] theorem getElem?_variableNames (j : Fin analysis.problem.numVars) :
    analysis.bare.problem.variableNames[j.val]? = some (analysis.problem.variableName j) :=
  List.getElem?_eq_getElem j.isLt

@[simp] theorem getElem?_objective (j : Fin analysis.problem.numVars) :
    analysis.bare.problem.objective[j.val]? =
      some (analysis.problem.objectiveCoefficient analysis.valid j) :=
  List.getElem?_eq_getElem (j.isLt.trans_eq analysis.valid.objective_length.symm)

@[simp] theorem getElem?_levels (row : Fin analysis.form.numRows) :
    analysis.bare.levels[row.val]? = some (analysis.levels.get row) :=
  getElem?_toList analysis.levels row

@[simp] theorem get?_inverse (i k : Fin analysis.form.numRows) :
    analysis.bare.inverse.get? i k = some (analysis.inverse.get i k) :=
  Table.get?_entries analysis.inverse i k

@[simp] theorem getElem?_rowSigns (row : Fin analysis.form.numRows) :
    analysis.bare.form.rowSigns[row.val]? = some (analysis.form.rowSigns.get row) :=
  getElem?_toList analysis.form.rowSigns row

@[simp] theorem objectiveEntryAt?_variable (j : Fin analysis.problem.numVars) :
    analysis.bare.tableau.objectiveEntryAt? j =
      some (analysis.tableau.objectiveEntry (analysis.variableColumn j)) :=
  Tableau.objectiveEntryAt?_bare analysis.form.names analysis.tableau (analysis.variableColumn j)

end Reads

/-! ### Reports that succeed -/

theorem basicCosts?_bare (analysis : Sensitivity α) :
    analysis.bare.basicCosts? = some analysis.basicCosts.toList := by
  rw [Bare.Analysis.basicCosts?]
  show (analysis.tableau.basis.toList.map Fin.val).mapM _ = _
  rw [List.mapM_map, basicCosts, Vector.toList_map]
  exact mapM_of_reads fun basic _ => analysis.form.getElem?_costs basic

theorem candidates?_bare (analysis : Sensitivity α) :
    analysis.bare.candidates? = some (analysis.candidates.map Fin.val) := by
  rw [Bare.Analysis.candidates?, form_bare, StandardForm.numColumns_bare]
  refine filterM_range fun column => ?_
  rw [isBasic_bare, StandardForm.isArtificial?_bare]
  cases analysis.tableau.isBasic column <;> rfl

theorem valuesAt?_bare (analysis : Sensitivity α) (levels : Vector α analysis.form.numRows) :
    analysis.bare.valuesAt? levels.toList = some (analysis.valuesAt levels) := by
  refine mapM_of_reads fun number _ => ?_
  rw [tableau_bare, Tableau.basicRow?_bare]
  cases analysis.tableau.basicRow? number with
  | none => rfl
  | some row => exact getElem?_toList levels row

theorem values?_bare (analysis : Sensitivity α) :
    analysis.bare.values? = some analysis.values :=
  analysis.valuesAt?_bare analysis.levels

theorem objectiveValue?_bare (analysis : Sensitivity α) :
    analysis.bare.objectiveValue? = some analysis.objectiveValue := by
  rw [Bare.Analysis.objectiveValue?, tableau_bare, Tableau.objective?_bare]
  rfl

theorem shadowPrice?_bare (analysis : Sensitivity α) (row : Fin analysis.form.numRows) :
    analysis.bare.shadowPrice? row = some (analysis.shadowPrice row) := by
  have slack : analysis.bare.form.slackOf[row.val]? =
      some ((analysis.form.slackOf.get row).map Fin.val) :=
    getElem?_map_toList (Option.map Fin.val) analysis.form.slackOf row
  rw [Bare.Analysis.shadowPrice?, slack, Option.bind_eq_bind, Option.bind_some, shadowPrice]
  cases analysis.form.slackOf.get row with
  | none => rfl
  | some column =>
    have key : analysis.bare.form.columns[column.val]? =
        some (analysis.form.columns.get column).key :=
      getElem?_map_toList Column.key analysis.form.columns column
    have sign : (analysis.form.columns.get column).slackSign =
        if (analysis.form.columns.get column).key.1 = 2 then (-1 : α) else 1 := by
      cases analysis.form.columns.get column <;> rfl
    simp only [Option.map_some, key, tableau_bare, Tableau.objectiveEntryAt?_bare,
      getElem?_rowSigns, sign, Option.bind_eq_bind, Option.bind_some, Option.pure_def]
    rfl

theorem shadowPrices?_bare (analysis : Sensitivity α) :
    analysis.bare.shadowPrices? = some analysis.shadowPrices := by
  rw [shadowPrices, ← List.ofFn_eq_map]
  refine mapM_range fun (row : Fin analysis.form.numRows) => ?_
  rw [shadowPrice?_bare, getElem?_constraints]
  rfl

theorem costInterval?_bare (analysis : Sensitivity α) (row : Fin analysis.form.numRows) :
    analysis.bare.costInterval? row = some (analysis.costInterval row) := by
  rw [Bare.Analysis.costInterval?, candidates?_bare]
  refine foldlM_indices id (fun interval column => ?_) analysis.candidates _
  rw [tableau_bare, Tableau.entryAt?_bare, Tableau.objectiveEntryAt?_bare, tolerance_bare]
  exact (apply_ite some ..).symm

theorem objectiveRange?_bare (analysis : Sensitivity α) (j : Fin analysis.problem.numVars) :
    analysis.bare.objectiveRange? j = some (analysis.objectiveRange j) := by
  have cost : analysis.bare.problem.maxObjective[j.val]? =
      some (analysis.problem.sense.orient
        (analysis.problem.objectiveCoefficient analysis.valid j)) := by
    rw [Problem.maxObjective, List.getElem?_map, getElem?_objective]
    rfl
  rw [Bare.Analysis.objectiveRange?, cost, Option.bind_eq_bind, Option.bind_some,
    Bare.Analysis.costRange?, tableau_bare, Tableau.basicRow?_bare, getElem?_variableNames,
    getElem?_objective, objectiveRange]
  cases analysis.tableau.basicRow? j with
  | none =>
    rw [Option.map_none, ← tableau_bare, objectiveEntryAt?_variable]
    rfl
  | some row =>
    simp only [Option.map_some, costInterval?_bare]
    rfl

theorem objectiveRanges?_bare (analysis : Sensitivity α) :
    analysis.bare.objectiveRanges? = some analysis.objectiveRanges := by
  rw [objectiveRanges, ← List.ofFn_eq_map, Bare.Analysis.objectiveRanges?]
  -- the loop runs over the variables of the form, which are those of the problem
  show (List.range analysis.form.numVars).mapM _ = _
  rw [analysis.numVars_eq]
  exact mapM_range analysis.objectiveRange?_bare

theorem levelInterval?_bare (analysis : Sensitivity α) (row : Fin analysis.form.numRows) :
    analysis.bare.levelInterval? row = some (analysis.levelInterval row) := by
  have rows : analysis.bare.levels.length = analysis.form.numRows := analysis.levels.length_toList
  rw [Bare.Analysis.levelInterval?, rows]
  refine foldlM_range id (fun interval basicRow => ?_) _
  rw [get?_inverse, tableau_bare, Tableau.getElem?_basis, getElem?_levels, tolerance_bare,
    form_bare]
  simp only [Option.bind_eq_bind, Option.bind_some, StandardForm.isArtificial?_bare, id]
  split
  · rfl
  · cases analysis.form.isArtificial (analysis.tableau.basis.get basicRow) <;> rfl

theorem rhsRange?_bare (analysis : Sensitivity α) (row : Fin analysis.form.numRows) :
    analysis.bare.rhsRange? row = some (analysis.rhsRange row) := by
  rw [Bare.Analysis.rhsRange?, levelInterval?_bare, getElem?_rowSigns, getElem?_constraints]
  rfl

theorem rhsRanges?_bare (analysis : Sensitivity α) :
    analysis.bare.rhsRanges? = some analysis.rhsRanges := by
  rw [rhsRanges, ← List.ofFn_eq_map]
  exact mapM_range analysis.rhsRange?_bare

end Sensitivity

end LinearProgramming
