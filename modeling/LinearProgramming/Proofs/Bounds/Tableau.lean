/-
This file starts and pivots tableaux that are tables and lists of any size.

A bare tableau looks up every cell, cost, name and basic column by its number. On the parts of a
tableau whose shape is in its type all of these are there, whatever the scalars compute: the basic
columns stay numbers of columns, the chosen column is one of them, and the chosen row has a ratio.
-/

import LinearProgramming.PivotRule
import LinearProgramming.Tableau.Pivot
import LinearProgramming.Proofs.Bounds.Form
import LinearProgramming.Proofs.RunTrace

namespace LinearProgramming

variable {α : Type} {m n : Nat}

namespace Bare

/-- The parts of a tableau with the names that stand around it. -/
structure Tableau (α : Type) where
  cells : Table (BigM α)
  rowHeaders : List String
  columnHeaders : List String
  basis : List Nat

namespace Tableau

/-! ### Reading a tableau -/

/-- The number of constraint rows. -/
def numRows (tableau : Tableau α) : Nat := tableau.cells.rowCount - 1

/-- The number of columns before the right-hand sides. -/
def numColumns (tableau : Tableau α) : Nat := tableau.cells.columnCount - 1

/-- The entry of the objective row under a column. -/
def objectiveEntryAt? (tableau : Tableau α) (column : Nat) : Option (BigM α) :=
  tableau.cells.get? 0 column

/-- The value of the objective in the form that is made large. -/
def objective? (tableau : Tableau α) : Option (BigM α) :=
  tableau.cells.get? 0 tableau.numColumns

/-- The entry of a constraint row under a column. -/
def entryAt? (tableau : Tableau α) (row column : Nat) : Option α :=
  (tableau.cells.get? (row + 1) column).map BigM.value

/-- The right-hand side of a constraint row. -/
def rhs? (tableau : Tableau α) (row : Nat) : Option α :=
  (tableau.cells.get? (row + 1) tableau.numColumns).map BigM.value

/-- The first row in which a column is basic. -/
def basicRow? (tableau : Tableau α) (number : Nat) : Option Nat :=
  tableau.basis.findIdx? fun basic => basic == number

/-- The value of the unknown of a column at the basis. -/
def valueOf? [Zero α] (tableau : Tableau α) (number : Nat) : Option α :=
  match tableau.basicRow? number with
  | some row => tableau.rhs? row
  | none => some 0

variable [Scalar α]

/-! ### The start -/

/-- A constraint row of a form with its right-hand side at the end. -/
def equation? (form : Form α) (i : Nat) : Option (List α) := do
  let entries ← (List.range form.columns.length).mapM fun j => form.a.get? i j
  return entries ++ [← form.b[i]?]

/-- The objective row with a constraint row added times the cost of the basic column of the row. -/
def eliminate? (form : Form α) (equations : List (List α)) (objective : List (BigM α)) (i : Nat) :
    Option (List (BigM α)) := do
  let basic ← form.initialBasis[i]?
  let cost ← form.costs[basic]?
  if cost.isZero then return objective
  let equation ← equations[i]?
  (List.range (form.columns.length + 1)).mapM fun j => do
    return (← objective[j]?) + cost.scale (← equation[j]?)

/-- The tableau of the first basis of a form. -/
def initial? (form : Form α) : Option (Tableau α) := do
  let costs ← (List.range form.columns.length).mapM fun j => form.costs[j]?
  let equations ← (List.range form.a.rowCount).mapM (equation? form)
  let objective ← (List.range form.a.rowCount).foldlM (eliminate? form equations)
    (costs.map (fun cost => -cost) ++ [0])
  let cells ← Table.ofReads? (form.a.rowCount + 1) (form.columns.length + 1) fun i j =>
    match i with
    | 0 => objective[j]?
    | i + 1 => do return .ofScalar (← (← equations[i]?)[j]?)
  let headers ← form.initialBasis.mapM fun basic => form.names[basic]?
  return ⟨cells, "Z" :: headers, form.names ++ ["RHS"], form.initialBasis⟩

/-! ### Choosing a pivot -/

/-- The column that enters the basis. -/
def entering? (rule : PivotRule) (tolerance : α) (tableau : Tableau α) : Option (Option Nat) :=
  match rule with
  | .dantzig => do
    let entries ← (List.range tableau.numColumns).mapM fun j => do
      return (j, ← tableau.objectiveEntryAt? j)
    return (BigM.leastNegative tolerance entries).map Prod.fst
  | .bland => (List.range tableau.numColumns).findM? fun j => do
    return (← tableau.objectiveEntryAt? j).isNegativeWithin tolerance

/-- The ratios of the rows with a positive entry in a column. -/
def ratios? (tolerance : α) (tableau : Tableau α) (column : Nat) : Option (List (Option α)) :=
  (List.range tableau.numRows).mapM fun row => do
    let coefficient ← tableau.entryAt? row column
    if tolerance < coefficient then return some ((← tableau.rhs? row) / coefficient)
    else return none

/-- Whether a row with a ratio is preferred to the row found so far. -/
def prefers? (rule : PivotRule) (tolerance : α) (basis : List Nat) (row : Nat) (ratio : α) :
    Option (Nat × α) → Option Bool
  | none => some true
  | some (found, least) =>
    if ratio < least - tolerance then some true
    else
      match rule with
      | .dantzig => some (ratio < least)
      | .bland =>
        if Scalar.abs (ratio - least) ≤ tolerance then do
          return (← basis[row]?) < (← basis[found]?)
        else some false

/-- The row found so far after one more row is looked at. -/
def consider? (rule : PivotRule) (tolerance : α) (basis : List Nat) (ratios : List (Option α))
    (found : Option (Nat × α)) (row : Nat) : Option (Option (Nat × α)) := do
  match ← ratios[row]? with
  | none => return found
  | some ratio =>
    if ← prefers? rule tolerance basis row ratio found then return some (row, ratio)
    else return found

/-- The row that leaves the basis. -/
def leaving? (rule : PivotRule) (tolerance : α) (basis : List Nat) (ratios : List (Option α)) :
    Option (Option Nat) := do
  let found ← (List.range ratios.length).foldlM (consider? rule tolerance basis ratios) none
  return found.map Prod.fst

/-! ### Pivoting -/

/-- The pivot row divided by the pivot. -/
def pivotRow? (tableau : Tableau α) (row column : Nat) : Option (List (BigM α)) := do
  let pivot ← tableau.entryAt? row column
  (List.range (tableau.numColumns + 1)).mapM fun j => do
    if j = column then return .ofScalar 1
    else return (← tableau.cells.get? (row + 1) j).divide pivot

/-- The tableau after a column enters the basis in a row. -/
def pivot? (tolerance : α) (tableau : Tableau α) (row column : Nat) : Option (Tableau α) := do
  let pivotRow ← tableau.pivotRow? row column
  let cells ← Table.ofReads? (tableau.numRows + 1) (tableau.numColumns + 1) fun i j => do
    let cell ← tableau.cells.get? i j
    let factor ← tableau.cells.get? i column
    if i = row + 1 then pivotRow[j]?
    else if factor.isZeroWithin tolerance then return cell
    else if j = column then return 0
    else return cell - factor.scale (← pivotRow[j]?).value
  let rowHeaders ← setAt? tableau.rowHeaders (row + 1) (← tableau.columnHeaders[column]?)
  let basis ← setAt? tableau.basis row column
  return { tableau with cells, rowHeaders, basis }

/-- The name of a row: `Z` for the objective, or `R` with a number counted from one. -/
def label (row : Nat) : String := if row = 0 then "Z" else s!"R{row}"

/-- The row operations that a pivot consists of, as assignments. -/
def operations? (tolerance : α) (tableau : Tableau α) (row column : Nat) :
    Option (List String) := do
  let pivot ← tableau.cells.get? (row + 1) column
  let others ← (List.range (tableau.numRows + 1)).mapM fun i => do
    let factor ← tableau.cells.get? i column
    return if i = row + 1 ∨ factor.isZeroWithin tolerance then none
      else some (label i ++ " ← " ++ label i ++ " - (" ++ factor.text ++ ") × " ++ label (row + 1))
  return (label (row + 1) ++ " ← " ++ label (row + 1) ++ " / " ++ pivot.text) ::
    others.reduceOption

end Tableau

end Bare

namespace Tableau

/-- The parts of a tableau with the names that stand around it. -/
def bare (names : Vector String n) (tableau : Tableau α m n) : Bare.Tableau α where
  cells := ⟨_, _, tableau.cells⟩
  rowHeaders := tableau.rowHeaders names
  columnHeaders := columnHeaders names
  basis := tableau.basis.toList.map Fin.val

/-! ### Reads that succeed -/

section Reads

variable (names : Vector String n) (tableau : Tableau α m n)

@[simp] theorem objectiveEntryAt?_bare (column : Fin n) :
    (tableau.bare names).objectiveEntryAt? column = some (tableau.objectiveEntry column) :=
  Table.get?_entries tableau.cells 0 column.castSucc

@[simp] theorem objective?_bare : (tableau.bare names).objective? = some tableau.objective :=
  Table.get?_entries tableau.cells 0 (Fin.last n)

theorem get?_cells (i : Fin (m + 1)) (j : Fin (n + 1)) :
    (tableau.bare names).cells.get? i j = some (tableau.cells.get i j) :=
  Table.get?_entries tableau.cells i j

theorem get?_cells_column (i : Fin (m + 1)) (column : Fin n) :
    (tableau.bare names).cells.get? i column = some (tableau.cells.get i column.castSucc) :=
  Table.get?_entries tableau.cells i column.castSucc

@[simp] theorem entryAt?_bare (row : Fin m) (column : Fin n) :
    (tableau.bare names).entryAt? row column = some (tableau.entry row column) :=
  congrArg (Option.map BigM.value) (Table.get?_entries tableau.cells row.succ column.castSucc)

@[simp] theorem rhs?_bare (row : Fin m) :
    (tableau.bare names).rhs? row = some (tableau.rhs row) :=
  congrArg (Option.map BigM.value) (Table.get?_entries tableau.cells row.succ (Fin.last n))

@[simp] theorem getElem?_basis (row : Fin m) :
    (tableau.bare names).basis[row.val]? = some (tableau.basis.get row).val :=
  getElem?_map_toList Fin.val tableau.basis row

@[simp] theorem basicRow?_bare (number : Nat) :
    (tableau.bare names).basicRow? number = (tableau.basicRow? number).map Fin.val :=
  findIdx?_map_toList Fin.val tableau.basis fun basic => basic == number

@[simp] theorem valueOf?_bare [Zero α] (number : Nat) :
    (tableau.bare names).valueOf? number = some (tableau.valueOf number) := by
  rw [Bare.Tableau.valueOf?, basicRow?_bare, valueOf]
  cases tableau.basicRow? number with
  | none => rfl
  | some row => exact rhs?_bare names tableau row

@[simp] theorem numRows_bare : (tableau.bare names).numRows = m := rfl

@[simp] theorem numColumns_bare : (tableau.bare names).numColumns = n := rfl

theorem getElem?_columnHeaders (column : Fin n) :
    (tableau.bare names).columnHeaders[column.val]? = some (names.get column) := by
  show (names.toList ++ ["RHS"])[column.val]? = _
  rw [List.getElem?_append_left (by simp), getElem?_toList]

end Reads

variable [Scalar α]

/-! ### Choices that succeed -/

theorem entering?_bare (names : Vector String n) (rule : PivotRule) (tolerance : α)
    (tableau : Tableau α m n) :
    (tableau.bare names).entering? rule tolerance =
      some ((rule.entering tolerance tableau.objectiveRow).map Fin.val) := by
  cases rule with
  | dantzig =>
    have entries : (List.range n).mapM (fun j => do
        return (j, ← (tableau.bare names).objectiveEntryAt? j)) =
        some (((List.finRange n).map fun j => (j, tableau.objectiveEntry j)).map
          (Prod.map Fin.val id)) := by
      rw [mapM_range fun j => by rw [objectiveEntryAt?_bare]; rfl, List.map_map, List.ofFn_eq_map]
      rfl
    rw [Bare.Tableau.entering?]
    simp only [numColumns_bare, entries]
    show some ((BigM.leastNegative tolerance _).map Prod.fst) = _
    rw [BigM.leastNegative_map, PivotRule.entering]
    simp only [objectiveRow, get_vectorOfFn, Option.map_map]
    rfl
  | bland =>
    rw [Bare.Tableau.entering?]
    simp only [numColumns_bare]
    rw [findM?_range fun j => by rw [objectiveEntryAt?_bare]; rfl, PivotRule.entering]
    simp only [objectiveRow, get_vectorOfFn]

theorem ratios?_bare (names : Vector String n) (tolerance : α) (tableau : Tableau α m n)
    (column : Fin n) :
    (tableau.bare names).ratios? tolerance column =
      some (tableau.ratios tolerance column).toList := by
  rw [Bare.Tableau.ratios?, ratios, Vector.toList_ofFn]
  refine mapM_range fun (row : Fin m) => ?_
  rw [entryAt?_bare, rhs?_bare]
  exact (apply_ite some ..).symm

theorem prefers?_bare (rule : PivotRule) (tolerance : α) (basis : Vector (Fin n) m) (row : Fin m)
    (ratio : α) (found : Option (Fin m × α)) :
    Bare.Tableau.prefers? rule tolerance (basis.toList.map Fin.val) row ratio
      (found.map (Prod.map Fin.val id)) =
      some (rule.prefers tolerance basis row ratio found) := by
  cases found with
  | none => rfl
  | some found =>
    show (if ratio < found.2 - tolerance then some true else _) =
      some (if ratio < found.2 - tolerance then true else _)
    split
    · rfl
    · cases rule with
      | dantzig => rfl
      | bland =>
        show (if Scalar.abs (ratio - found.2) ≤ tolerance then
          (do return decide ((← (basis.toList.map Fin.val)[row.val]?) <
            (← (basis.toList.map Fin.val)[found.1.val]?))) else some false) = _
        rw [getElem?_map_toList, getElem?_map_toList]
        split
        · rename_i close
          simp [close]
        · rename_i apart
          simp [apart]

theorem leaving?_bare (rule : PivotRule) (tolerance : α) (basis : Vector (Fin n) m)
    (ratios : Vector (Option α) m) :
    Bare.Tableau.leaving? rule tolerance (basis.toList.map Fin.val) ratios.toList =
      some ((rule.leaving tolerance basis ratios).map Fin.val) := by
  have follows (found : Option (Fin m × α)) (row : Fin m) :
      Bare.Tableau.consider? rule tolerance (basis.toList.map Fin.val) ratios.toList
        (found.map (Prod.map Fin.val id)) row =
        some (Option.map (Prod.map Fin.val id) (match ratios.get row with
          | none => found
          | some ratio =>
            if rule.prefers tolerance basis row ratio found then some (row, ratio)
            else found)) := by
    rw [Bare.Tableau.consider?, getElem?_toList, Option.bind_eq_bind, Option.bind_some]
    cases ratios.get row with
    | none => rfl
    | some ratio =>
      show (Bare.Tableau.prefers? .. >>= _) = some (Option.map (Prod.map Fin.val id)
        (if rule.prefers tolerance basis row ratio found then some (row, ratio) else found))
      rw [prefers?_bare]
      cases rule.prefers tolerance basis row ratio found <;> rfl
  rw [Bare.Tableau.leaving?, Vector.length_toList]
  have scanned := foldlM_range (Option.map (Prod.map Fin.val id)) follows none
  rw [Option.map_none] at scanned
  rw [scanned, PivotRule.leaving, Option.map_map]
  show some (Option.map Prod.fst (Option.map _ _)) = _
  rw [Option.map_map]
  rfl

-- A tie is broken by the basic columns of both rows, so a basis that is too short is noticed.
example : Bare.Tableau.leaving? .bland (0 : Rat) [0] [some 1, some 1] = none := by
  decide +kernel

/-! ### Pivots that succeed -/

theorem pivotRow?_bare (names : Vector String n) (tableau : Tableau α m n) (row : Fin m)
    (column : Fin n) :
    (tableau.bare names).pivotRow? row column = some (tableau.pivotRow row column).toList := by
  rw [Bare.Tableau.pivotRow?, entryAt?_bare, numColumns_bare, pivotRow, Vector.toList_ofFn]
  refine mapM_range fun j => ?_
  have cell : (tableau.bare names).cells.get? (row + 1) j = some (tableau.cells.get row.succ j) :=
    get?_cells names tableau row.succ j
  have inColumn : j.val = column ↔ j = column.castSucc := by rw [Fin.ext_iff, Fin.val_castSucc]
  simp only [cell, inColumn, Option.bind_eq_bind, Option.bind_some, Option.pure_def]
  exact (apply_ite some ..).symm

/-- The cells after a pivot, each computed from the cells before it. -/
theorem ofReads?_pivot (names : Vector String n) (tolerance : α) (tableau : Tableau α m n)
    (row : Fin m) (column : Fin n) :
    Table.ofReads? (m + 1) (n + 1) (fun i j => do
      let cell ← (tableau.bare names).cells.get? i j
      let factor ← (tableau.bare names).cells.get? i column
      if i = row + 1 then (tableau.pivotRow row column).toList[j]?
      else if factor.isZeroWithin tolerance then return cell
      else if j = column then return 0
      else return cell - factor.scale (← (tableau.pivotRow row column).toList[j]?).value) =
      some ⟨m + 1, n + 1, (tableau.pivot tolerance row column).cells⟩ := by
  refine Table.ofReads?_eq fun i j => ?_
  have inRow : i.val = row + 1 ↔ i = row.succ := by rw [Fin.ext_iff, Fin.val_succ]
  have inColumn : j.val = column ↔ j = column.castSucc := by rw [Fin.ext_iff, Fin.val_castSucc]
  simp only [get?_cells, get?_cells_column, getElem?_toList, inRow, inColumn, Option.bind_eq_bind,
    Option.bind_some, Option.pure_def]
  simp only [← apply_ite some]

theorem pivot?_bare (names : Vector String n) (tolerance : α) (tableau : Tableau α m n)
    (row : Fin m) (column : Fin n) :
    (tableau.bare names).pivot? tolerance row column =
      some ((tableau.pivot tolerance row column).bare names) := by
  have rowHeaders : setAt? (tableau.bare names).rowHeaders (row + 1) (names.get column) =
      some ((tableau.pivot tolerance row column).rowHeaders names) := by
    rw [rowHeaders_pivot]
    exact if_pos (by simp [bare, Tableau.rowHeaders])
  have basis : setAt? (tableau.bare names).basis row column =
      some ((tableau.pivot tolerance row column).basis.toList.map Fin.val) :=
    setAt?_map Fin.val tableau.basis row column
  rw [Bare.Tableau.pivot?, pivotRow?_bare, numRows_bare, numColumns_bare, Option.bind_eq_bind,
    Option.bind_some, ofReads?_pivot]
  simp only [getElem?_columnHeaders, rowHeaders, basis, Option.bind_eq_bind, Option.bind_some]
  rfl

theorem operations?_bare (names : Vector String n) (tolerance : α) (tableau : Tableau α m n)
    (row : Fin m) (column : Fin n) :
    (tableau.bare names).operations? tolerance row column =
      some ((tableau.pivotOperations tolerance row column).map RowOperation.text) := by
  have pivot : (tableau.bare names).cells.get? (row + 1) column =
      some (tableau.cells.get row.succ column.castSucc) :=
    get?_cells_column names tableau row.succ column
  have others : (List.range (m + 1)).mapM (fun i => do
      let factor ← (tableau.bare names).cells.get? i column
      return if i = row + 1 ∨ factor.isZeroWithin tolerance then none
        else some (Bare.Tableau.label i ++ " ← " ++ Bare.Tableau.label i ++ " - (" ++
          factor.text ++ ") × " ++ Bare.Tableau.label (row + 1))) =
      some (List.ofFn fun i : Fin (m + 1) =>
        (if i = row.succ ∨ (tableau.cells.get i column.castSucc).isZeroWithin tolerance then none
          else some (.eliminate i (tableau.cells.get i column.castSucc) row)).map
            RowOperation.text) := by
    refine mapM_range fun i => ?_
    have inRow : i.val = row + 1 ↔ i = row.succ := by rw [Fin.ext_iff, Fin.val_succ]
    simp only [get?_cells_column, inRow, Option.bind_eq_bind, Option.bind_some, Option.pure_def]
    refine congrArg some ?_
    split <;> rfl
  rw [Bare.Tableau.operations?, pivot, numRows_bare, Option.bind_eq_bind, Option.bind_some, others]
  refine congrArg some ?_
  rw [pivotOperations, List.map_cons, List.map_filterMap, List.ofFn_eq_map, List.reduceOption,
    List.filterMap_map]
  rfl

/-! ### The start -/

omit [Scalar α] in
theorem equation?_bare (form : StandardForm α) (i : Fin form.numRows) :
    Bare.Tableau.equation? form.bare i = some (equation form i).toList := by
  have entries : (List.range form.numColumns).mapM (fun j => form.bare.a.get? i j) =
      some (form.a.row i).toList := by
    rw [toList_eq_ofFn]
    exact mapM_range fun j => Table.get?_entries form.a i j
  have last : form.bare.b[i.val]? = some (form.b.get i) := getElem?_toList form.b i
  rw [Bare.Tableau.equation?, form.numColumns_bare, entries, last, equation, Vector.toList_push]
  rfl

theorem eliminate?_bare (form : StandardForm α)
    (objective : Vector (BigM α) (form.numColumns + 1)) (row : Fin form.numRows) :
    Bare.Tableau.eliminate? form.bare (Vector.ofFn fun i => (equation form i).toList).toList
      objective.toList row =
      some (Vector.toList (
        let cost := form.costs.get (form.initialBasis.get row)
        if cost.isZero then objective
        else Vector.zipWith (fun entry coefficient => entry + cost.scale coefficient) objective
          (equation form row))) := by
  rw [Bare.Tableau.eliminate?, form.getElem?_initialBasis, form.numColumns_bare]
  simp only [Option.bind_eq_bind, Option.bind_some, StandardForm.getElem?_costs, getElem?_toList,
    get_vectorOfFn, Option.pure_def]
  split
  · rfl
  · rw [Vector.toList_zipWith, zipWith_toList]
    refine mapM_range fun j => ?_
    simp only [getElem?_toList, Option.bind_some]

theorem initial?_bare (form : StandardForm α) :
    Bare.Tableau.initial? form.bare = some ((initial form).bare form.names) := by
  have costs : (List.range form.numColumns).mapM (fun j => form.bare.costs[j]?) =
      some form.costs.toList := by
    rw [toList_eq_ofFn]
    exact mapM_range form.getElem?_costs
  have equations : (List.range form.numRows).mapM (Bare.Tableau.equation? form.bare) =
      some (Vector.ofFn fun i => (equation form i).toList).toList := by
    rw [Vector.toList_ofFn]
    exact mapM_range (equation?_bare form)
  have objective := foldlM_range Vector.toList (eliminate?_bare form) (negatedCosts form)
  have cells : Table.ofReads? (form.numRows + 1) (form.numColumns + 1) (fun i j =>
      match i with
      | 0 => (startingObjective form).toList[j]?
      | i + 1 => do
        return .ofScalar (← (← (Vector.ofFn fun i => (equation form i).toList).toList[i]?)[j]?)) =
      some ⟨_, _, (initial form).cells⟩ := by
    refine Table.ofReads?_eq fun i j => ?_
    cases i using Fin.cases with
    | zero => exact getElem?_toList (startingObjective form) j
    | succ row =>
      simp only [Fin.val_succ, getElem?_toList, get_vectorOfFn, Option.bind_eq_bind,
        Option.bind_some, Option.pure_def, Fin.cases_succ]
  have headers : form.bare.initialBasis.mapM (fun basic => form.bare.names[basic]?) =
      some (form.initialBasis.toList.map form.names.get) := by
    rw [StandardForm.bare, List.mapM_map]
    exact mapM_of_reads fun basic _ => form.getElem?_names basic
  have start : form.costs.toList.map (fun cost => -cost) ++ [0] = (negatedCosts form).toList := by
    rw [negatedCosts, Vector.toList_push, Vector.toList_map]
  rw [Bare.Tableau.initial?]
  simp only [StandardForm.rowCount_bare, StandardForm.numColumns_bare, costs, start, equations,
    objective, Option.bind_eq_bind, Option.bind_some]
  refine (congrArg (Option.bind · _) cells).trans ?_
  rw [Option.bind_some, headers]
  rfl

end Tableau

end LinearProgramming
