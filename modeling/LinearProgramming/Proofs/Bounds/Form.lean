/-
This file builds standard forms out of lists and tables of any size.

A bare form has the parts of a standard form without the evidence that they fit together, and it is
built from a problem of which nothing is known, by reads and writes that may miss. On a valid
problem none of them does, and the outcome is the standard form of the problem.
-/

import LinearProgramming.Proofs.Bounds.Lookup
import LinearProgramming.Proofs.Sensitivity.Analysis

namespace LinearProgramming

namespace Bare

/-- The parts of a standard form. A column is given by its key and found by its number. -/
structure Form (α : Type) where
  numVars : Nat
  columns : List (Nat × Nat)
  names : List String
  a : Table α
  b : List α
  costs : List (BigM α)
  initialBasis : List Nat
  rowSigns : List α
  slackOf : List (Option Nat)
  artificialOf : List (Option Nat)

/-- The column with a given number is an artificial one. -/
def Form.isArtificial? {α : Type} (form : Form α) (column : Nat) : Option Bool :=
  form.columns[column]?.map fun key => key.1 == 3

/-! ### Columns -/

variable {α : Type} [Scalar α]

/-- The sign that makes the right-hand side of a constraint non-negative. -/
def signOf (constraint : Constraint α) : α := if constraint.rhs < 0 then -1 else 1

/-- The relation of a constraint after it is multiplied by its sign. -/
def relationOf (constraint : Constraint α) : Relation :=
  if constraint.rhs < 0 then constraint.relation.flipped else constraint.relation

/-- The key of the slack or surplus column of the constraint at a place. -/
def slackKey? (constraint : Constraint α) (i : Nat) : Option (Nat × Nat) :=
  match relationOf constraint with
  | .atMost => some (1, i)
  | .atLeast => some (2, i)
  | .equal => none

/-- The key of the artificial column of the constraint at a place. -/
def artificialKey? (constraint : Constraint α) (i : Nat) : Option (Nat × Nat) :=
  match relationOf constraint with
  | .atMost => none
  | .atLeast | .equal => some (3, i)

/-- The keys of the slack and surplus columns in order. -/
def slackKeys (problem : Problem α) : List (Nat × Nat) :=
  problem.constraints.zipIdx.filterMap fun numbered => slackKey? numbered.1 numbered.2

/-- The keys of the artificial columns in order. -/
def artificialKeys (problem : Problem α) : List (Nat × Nat) :=
  problem.constraints.zipIdx.filterMap fun numbered => artificialKey? numbered.1 numbered.2

/-- The keys of all columns in order. -/
def keys (problem : Problem α) : List (Nat × Nat) :=
  (List.range problem.numVars).map (fun j => (0, j)) ++ slackKeys problem ++ artificialKeys problem

/-- The names of all columns in order. -/
def columnNames (problem : Problem α) : List String :=
  problem.variableNames ++ (slackKeys problem).map (fun key => s!"s{key.2 + 1}") ++
    (artificialKeys problem).map fun key => s!"a{key.2 + 1}"

/-! ### Reads and writes -/

/-- For each row the column among those with given keys that belongs to it, written row by row. -/
def columnOf? (problem : Problem α) (own : List (Nat × Nat)) : Option (List (Option Nat)) :=
  setAll? (List.replicate problem.numRows none)
    (own.map fun key => (key.2, (keys problem).idxOf? key))

/-- The writes that enter the coefficients of all constraints with the signs of their rows. -/
def coefficientWrites? (problem : Problem α) (rowSigns : List α) :
    Option (List ((Nat × Nat) × α)) := do
  let rows ← problem.constraints.zipIdx.mapM fun numbered => do
    let sign ← rowSigns[numbered.2]?
    return numbered.1.coefficients.zipIdx.map fun entry =>
      ((numbered.2, entry.2), sign * entry.1)
  return rows.flatten

/-- The write that enters the one number of a slack, surplus or artificial column. -/
def unitWrite? (key : Nat × Nat) (column : Nat) : Option ((Nat × Nat) × α) :=
  match key.1 with
  | 0 => none
  | 2 => some ((key.2, column), -1)
  | _ => some ((key.2, column), 1)

/-- The writes that enter the numbers of all slack, surplus and artificial columns. -/
def unitWrites (problem : Problem α) : List ((Nat × Nat) × α) :=
  (keys problem).zipIdx.filterMap fun numbered => unitWrite? numbered.1 numbered.2

/-- The right-hand sides with the signs of their rows. -/
def rightHandSides? (problem : Problem α) (rowSigns : List α) : Option (List α) :=
  problem.constraints.zipIdx.mapM fun numbered => do
    return (← rowSigns[numbered.2]?) * numbered.1.rhs

/-- The costs of all columns. -/
def columnCosts? (problem : Problem α) : Option (List (BigM α)) :=
  (keys problem).mapM fun key =>
    match key.1 with
    | 0 => problem.maxObjective[key.2]?.map .ofScalar
    | 3 => some (-.penaltyUnit)
    | _ => some 0

/-- The basic columns at the start: the artificial column of each row, or else its slack column. -/
def startBasis? (numRows : Nat) (slackOf artificialOf : List (Option Nat)) :
    Option (List Nat) :=
  (List.range numRows).mapM fun i => do
    let artificial ← artificialOf[i]?
    let slack ← slackOf[i]?
    return (artificial.or slack).getD 0

/-- The form of a problem, as far as its lists are long enough. -/
def Form.ofProblem? (problem : Problem α) : Option (Form α) := do
  let rowSigns := problem.constraints.map signOf
  let slackOf ← columnOf? problem (slackKeys problem)
  let artificialOf ← columnOf? problem (artificialKeys problem)
  let coefficients ← coefficientWrites? problem rowSigns
  let a ← (Table.zero problem.numRows (keys problem).length).setAll?
    (coefficients ++ unitWrites problem)
  return {
    numVars := problem.numVars
    columns := keys problem
    names := columnNames problem
    a
    b := ← rightHandSides? problem rowSigns
    costs := ← columnCosts? problem
    initialBasis := ← startBasis? problem.numRows slackOf artificialOf
    rowSigns
    slackOf
    artificialOf }

end Bare

variable {α : Type} [Scalar α]

omit [Scalar α] in
/-- The parts of a standard form without the evidence that they fit together. -/
def StandardForm.bare (form : StandardForm α) : Bare.Form α where
  numVars := form.numVars
  columns := form.columns.toList.map Column.key
  names := form.names.toList
  a := ⟨_, _, form.a⟩
  b := form.b.toList
  costs := form.costs.toList
  initialBasis := form.initialBasis.toList.map Fin.val
  rowSigns := form.rowSigns.toList
  slackOf := form.slackOf.toList.map (Option.map Fin.val)
  artificialOf := form.artificialOf.toList.map (Option.map Fin.val)

namespace StandardForm

/-! ### Reads that succeed -/

section Reads

variable {α : Type} (form : StandardForm α)

@[simp] theorem rowCount_bare : form.bare.a.rowCount = form.numRows := rfl

@[simp] theorem numColumns_bare : form.bare.columns.length = form.numColumns := by simp [bare]

@[simp] theorem getElem?_names (column : Fin form.numColumns) :
    form.bare.names[column.val]? = some (form.names.get column) :=
  getElem?_toList form.names column

@[simp] theorem getElem?_costs (column : Fin form.numColumns) :
    form.bare.costs[column.val]? = some (form.costs.get column) :=
  getElem?_toList form.costs column

@[simp] theorem getElem?_initialBasis (row : Fin form.numRows) :
    form.bare.initialBasis[row.val]? = some (form.initialBasis.get row).val :=
  getElem?_map_toList Fin.val form.initialBasis row

@[simp] theorem isArtificial?_bare (column : Fin form.numColumns) :
    form.bare.isArtificial? column = some (form.isArtificial column) := by
  rw [Bare.Form.isArtificial?, bare, List.getElem?_map, getElem?_toList, isArtificial]
  cases form.columns.get column <;> rfl

end Reads

end StandardForm

namespace Problem

variable (problem : Problem α)

/-! ### The columns by key -/

omit [Scalar α] in
theorem zipIdx_constraints : problem.constraints.zipIdx =
    (List.finRange problem.numRows).map fun i => (problem.row i, i.val) := by
  refine List.ext_getElem (by simp [numRows]) fun i inRange _ => ?_
  simp only [List.getElem_zipIdx, List.getElem_map, List.getElem_finRange, Nat.zero_add]
  rfl

variable {problem} in
theorem slackColumn?_key {i : Fin problem.numRows}
    {column : Column problem.numVars problem.numRows}
    (closes : problem.slackColumn? i = some column) :
    column.key.2 = i ∧ problem.columnName column = s!"s{i.val + 1}" := by
  unfold slackColumn? at closes
  split at closes <;> cases closes <;> exact ⟨rfl, rfl⟩

variable {problem} in
theorem artificialColumn?_key {i : Fin problem.numRows}
    {column : Column problem.numVars problem.numRows}
    (added : problem.artificialColumn? i = some column) :
    column.key.2 = i ∧ problem.columnName column = s!"a{i.val + 1}" := by
  unfold artificialColumn? at added
  split at added <;> cases added <;> exact ⟨rfl, rfl⟩

theorem slackKeys_eq : Bare.slackKeys problem =
    ((List.finRange problem.numRows).filterMap problem.slackColumn?).map Column.key := by
  rw [Bare.slackKeys, zipIdx_constraints, List.filterMap_map, List.map_filterMap]
  refine List.filterMap_congr fun i _ => ?_
  show Bare.slackKey? (problem.row i) i = (problem.slackColumn? i).map Column.key
  rw [Bare.slackKey?, slackColumn?]
  show (match problem.rowRelation i with | .atMost => _ | .atLeast => _ | .equal => _) = _
  cases problem.rowRelation i <;> rfl

theorem artificialKeys_eq : Bare.artificialKeys problem =
    ((List.finRange problem.numRows).filterMap problem.artificialColumn?).map Column.key := by
  rw [Bare.artificialKeys, zipIdx_constraints, List.filterMap_map, List.map_filterMap]
  refine List.filterMap_congr fun i _ => ?_
  show Bare.artificialKey? (problem.row i) i = (problem.artificialColumn? i).map Column.key
  rw [Bare.artificialKey?, artificialColumn?]
  show (match problem.rowRelation i with | .atMost => _ | .atLeast | .equal => _) = _
  cases problem.rowRelation i <;> rfl

theorem keys_eq : Bare.keys problem = problem.columns.map Column.key := by
  rw [Bare.keys, columns, List.map_append, List.map_append, slackKeys_eq, artificialKeys_eq,
    List.map_map, ← List.map_coe_finRange_eq_range, List.map_map]
  rfl

theorem columnNames_eq : Bare.columnNames problem = problem.columns.map problem.columnName := by
  rw [Bare.columnNames, columns, List.map_append, List.map_append, slackKeys_eq,
    artificialKeys_eq, List.map_map, List.map_map, List.map_map]
  congr 1
  · congr 1
    · exact (List.map_get_finRange problem.variableNames).symm
    · refine List.map_congr_left fun column member => ?_
      obtain ⟨i, _, closes⟩ := List.mem_filterMap.1 member
      obtain ⟨place, name⟩ := slackColumn?_key closes
      show s!"s{column.key.2 + 1}" = _
      rw [place, name]
  · refine List.map_congr_left fun column member => ?_
    obtain ⟨i, _, added⟩ := List.mem_filterMap.1 member
    obtain ⟨place, name⟩ := artificialColumn?_key added
    show s!"a{column.key.2 + 1}" = _
    rw [place, name]

/-- The number of a column is that of its key among the keys. -/
theorem idxOf?_keys (column : Column problem.numVars problem.numRows) :
    (Bare.keys problem).idxOf? column.key = (problem.columns.finIdxOf? column).map Fin.val := by
  rw [keys_eq, List.idxOf?, List.findIdx?_map, ← List.idxOf?_eq_map_finIdxOf?_val, List.idxOf?]
  refine congrArg (List.findIdx? · problem.columns) (funext fun other => ?_)
  exact Bool.eq_iff_iff.2 (by simp [Column.key_injective.eq_iff])

/-- Writing the column of each row that has one, row by row, lists the columns of all rows. -/
theorem columnOf?_eq
    (columnAt : Fin problem.numRows → Option (Column problem.numVars problem.numRows))
    (own : ∀ i column, columnAt i = some column → column.key.2 = i) :
    Bare.columnOf? problem (((List.finRange problem.numRows).filterMap columnAt).map Column.key) =
      some ((Vector.ofFn fun i => (columnAt i).bind problem.columns.finIdxOf?).toList.map
        (Option.map Fin.val)) := by
  have written (i : Fin problem.numRows) (column : Column problem.numVars problem.numRows)
      (there : columnAt i = some column) :
      (column.key.2, (Bare.keys problem).idxOf? column.key) =
        (i.val, ((columnAt i).bind problem.columns.finIdxOf?).map Fin.val) := by
    rw [idxOf?_keys, own i column there, there]
    rfl
  rw [Bare.columnOf?, ← Vector.toList_replicate, ← Vector.toList_map]
  refine setAll?_eq _ _ _ (fun one member => ?_) fun i => ?_
  · obtain ⟨key, listed, rfl⟩ := List.mem_map.1 member
    obtain ⟨column, chosen, rfl⟩ := List.mem_map.1 listed
    obtain ⟨i, _, there⟩ := List.mem_filterMap.1 chosen
    exact ⟨i, by rw [written i column there, get_vectorMap, get_vectorOfFn]⟩
  · rw [get_vectorMap, get_vectorOfFn]
    cases there : columnAt i with
    | none => exact Or.inl (Vector.getElem_replicate i.isLt)
    | some column =>
      rw [← there, ← written i column there]
      exact Or.inr (List.mem_map_of_mem (List.mem_map_of_mem (List.mem_filterMap.2
        ⟨i, List.mem_finRange i, there⟩)))

/-! ### The other parts -/

theorem signs_eq : problem.constraints.map Bare.signOf =
    (Vector.ofFn problem.rowSign).toList := by
  have rows : problem.constraints = (List.finRange problem.numRows).map problem.row :=
    (List.map_get_finRange problem.constraints).symm
  rw [Vector.toList_ofFn, List.ofFn_eq_map]
  exact (congrArg (List.map Bare.signOf) rows).trans List.map_map

/-- The writes of all coefficients with the signs of their rows. -/
def coefficientWrites : List ((Nat × Nat) × α) :=
  (List.finRange problem.numRows).flatMap fun i =>
    (problem.row i).coefficients.zipIdx.map fun entry =>
      ((i.val, entry.2), problem.rowSign i * entry.1)

theorem coefficientWrites?_eq : Bare.coefficientWrites? problem
    (Vector.ofFn problem.rowSign).toList = some problem.coefficientWrites := by
  rw [Bare.coefficientWrites?, zipIdx_constraints, List.mapM_map, mapM_of_reads fun i _ => by
    show ((Vector.ofFn problem.rowSign).toList[i.val]? >>= _) = _
    rw [getElem?_toList, get_vectorOfFn]
    rfl]
  rfl

theorem rightHandSides?_eq : Bare.rightHandSides? problem (Vector.ofFn problem.rowSign).toList =
    some (Vector.ofFn fun i => problem.rowSign i * (problem.row i).rhs).toList := by
  rw [Bare.rightHandSides?, zipIdx_constraints, List.mapM_map, mapM_of_reads fun i _ => by
    show ((Vector.ofFn problem.rowSign).toList[i.val]? >>= _) = _
    rw [getElem?_toList, get_vectorOfFn]
    rfl, Vector.toList_ofFn, List.ofFn_eq_map]

theorem columnCosts?_eq (valid : problem.Valid) : Bare.columnCosts? problem =
    some (problem.columns.map (problem.cost valid)) := by
  rw [Bare.columnCosts?, keys_eq, List.mapM_map]
  refine mapM_of_reads fun column _ => ?_
  cases column with
  | decision j =>
    show problem.maxObjective[j.val]?.map BigM.ofScalar = _
    have inRange : j.val < problem.objective.length := j.isLt.trans_eq valid.objective_length.symm
    rw [maxObjective, List.getElem?_map, List.getElem?_eq_getElem inRange]
    rfl
  | slack i | surplus i | artificial i => rfl

theorem finIdxOf?_of_mem {column : Column problem.numVars problem.numRows}
    (member : column ∈ problem.columns) :
    (problem.columns.finIdxOf? column).map Fin.val = some (problem.columns.idxOf column) := by
  rw [← List.idxOf?_eq_map_finIdxOf?_val]
  exact List.findIdx?_eq_some_of_exists ⟨column, member, beq_self_eq_true column⟩

theorem startBasis?_eq : Bare.startBasis? problem.numRows
    ((Vector.ofFn fun i => (problem.slackColumn? i).bind problem.columns.finIdxOf?).toList.map
      (Option.map Fin.val))
    ((Vector.ofFn fun i => (problem.artificialColumn? i).bind problem.columns.finIdxOf?).toList.map
      (Option.map Fin.val)) =
    some (List.ofFn fun i => problem.columns.idxOf (problem.startColumn i)) := by
  refine mapM_range fun i => ?_
  have start := problem.finIdxOf?_of_mem (problem.startColumn_mem i)
  simp only [List.getElem?_map, getElem?_toList, get_vectorOfFn, Option.map_some,
    Option.bind_eq_bind, Option.bind_some, Option.pure_def]
  -- a row with an artificial column starts with it, whether or not it has a slack column too
  unfold slackColumn? artificialColumn?
  unfold startColumn at start ⊢
  cases relation : problem.rowRelation i with
  | atMost =>
    rw [relation] at start
    exact congrArg (fun number => some (number.getD 0)) start
  | atLeast | equal =>
    rw [relation] at start
    simp only [Option.bind_some, start]
    rfl

theorem unitWrites_eq : Bare.unitWrites problem =
    (List.finRange problem.numColumns).filterMap fun column =>
      Bare.unitWrite? (problem.columnVector.get column).key column := by
  have numbered : problem.columns.zipIdx = (List.finRange problem.numColumns).map fun column =>
      (problem.columnVector.get column, column.val) := by
    refine List.ext_getElem (by simp [numColumns]) fun column inRange _ => ?_
    simp only [List.getElem_zipIdx, List.getElem_map, List.getElem_finRange, Nat.zero_add]
    rfl
  rw [Bare.unitWrites, keys_eq, List.zipIdx_map, numbered, List.map_map, List.filterMap_map]
  rfl

section Writes

variable {problem} (valid : problem.Valid)

/-- On a valid problem every row has a coefficient for each variable and no other. -/
theorem mem_coefficientWrites_iff {one : (Nat × Nat) × α} : one ∈ problem.coefficientWrites ↔
    ∃ (i : Fin problem.numRows) (j : Fin problem.numVars),
      one = ((i.val, j.val), problem.rowSign i * problem.coefficient valid i j) := by
  have fits (i : Fin problem.numRows) :=
    (valid.constraints_fit _ (List.get_mem problem.constraints i)).length
  rw [coefficientWrites, List.mem_flatMap]
  constructor
  · rintro ⟨i, _, listed⟩
    obtain ⟨⟨number, j⟩, there, rfl⟩ := List.mem_map.1 listed
    obtain ⟨inRow, rfl⟩ := List.getElem?_eq_some_iff.1 (List.mk_mem_zipIdx_iff_getElem?.1 there)
    exact ⟨i, ⟨j, inRow.trans_eq (fits i)⟩, rfl⟩
  · rintro ⟨i, j, rfl⟩
    have inRow : j.val < (problem.row i).coefficients.length := j.isLt.trans_eq (fits i).symm
    exact ⟨i, List.mem_finRange i, List.mem_map.2 ⟨((problem.row i).coefficients[j.val], j.val),
      List.mk_mem_zipIdx_iff_getElem?.2 (List.getElem?_eq_getElem inRow), rfl⟩⟩

theorem mem_unitWrites_iff {one : (Nat × Nat) × α} : one ∈ Bare.unitWrites problem ↔
    ∃ column, Bare.unitWrite? (problem.columnVector.get column).key column = some one := by
  simp [unitWrites_eq]

/-- Every write enters an entry of the equations in its own place. -/
theorem entry_of_mem_writes {one : (Nat × Nat) × α}
    (member : one ∈ problem.coefficientWrites ++ Bare.unitWrites problem) :
    ∃ (i : Fin problem.numRows) (column : Fin problem.numColumns),
      one = ((i.val, column.val), problem.entry valid i (problem.columnVector.get column)) := by
  rcases List.mem_append.1 member with coefficient | unit
  · obtain ⟨i, j, rfl⟩ := (mem_coefficientWrites_iff valid).1 coefficient
    refine ⟨i, j.castLE problem.numVars_le_numColumns, ?_⟩
    rw [get_columnVector_decision]
    rfl
  · obtain ⟨column, chosen⟩ := mem_unitWrites_iff.1 unit
    cases kind : problem.columnVector.get column with
    | decision j =>
      rw [kind] at chosen
      cases chosen
    | slack k | surplus k | artificial k =>
      rw [kind] at chosen
      cases chosen
      exact ⟨k, column, by rw [kind]; exact congrArg _ (if_pos rfl).symm⟩

/-- Every entry of the equations is written or zero: a decision column is full of coefficients, and
every other column has one number. -/
theorem mem_writes_of_entry (i : Fin problem.numRows) (column : Fin problem.numColumns) :
    0 = problem.entry valid i (problem.columnVector.get column) ∨
      ((i.val, column.val), problem.entry valid i (problem.columnVector.get column)) ∈
        problem.coefficientWrites ++ Bare.unitWrites problem := by
  cases kind : problem.columnVector.get column with
  | decision j =>
    obtain rfl := problem.eq_of_get_columnVector_eq_decision kind
    exact Or.inr (List.mem_append_left _ ((mem_coefficientWrites_iff valid).2 ⟨i, j, rfl⟩))
  | slack k | surplus k | artificial k =>
    by_cases same : k = i
    · refine Or.inr (List.mem_append_right _ (mem_unitWrites_iff.2 ⟨column, ?_⟩))
      rw [kind, same]
      exact congrArg (fun number => some ((i.val, column.val), number)) (if_pos rfl).symm
    · exact Or.inl (if_neg same).symm

/-- The writes fill the table of the equations. -/
theorem setAll?_writes : (Table.zero problem.numRows (Bare.keys problem).length).setAll?
    (problem.coefficientWrites ++ Bare.unitWrites problem) =
      some ⟨problem.numRows, problem.numColumns, DenseMatrix.ofFn fun i column =>
        problem.entry valid i (problem.columnVector.get column)⟩ := by
  have size : (Bare.keys problem).length = problem.numColumns := by
    rw [keys_eq, List.length_map, numColumns]
  rw [size]
  refine Table.setAll?_eq _ _ _ (fun one member => ?_) fun i column => ?_
  · simp only [DenseMatrix.get_ofFn]
    exact entry_of_mem_writes valid member
  · rw [DenseMatrix.get_ofFn, DenseMatrix.get_zero]
    exact mem_writes_of_entry valid i column

end Writes

end Problem

/-- On a valid problem every read and write of the standard form finds its place. -/
theorem StandardForm.ofProblem?_bare (problem : Problem α) (valid : problem.Valid) :
    Bare.Form.ofProblem? problem = some (StandardForm.ofProblem problem valid).bare := by
  have slackOf := problem.columnOf?_eq problem.slackColumn? fun i column closes =>
    (Problem.slackColumn?_key closes).1
  have artificialOf := problem.columnOf?_eq problem.artificialColumn? fun i column added =>
    (Problem.artificialColumn?_key added).1
  rw [← Problem.slackKeys_eq] at slackOf
  rw [← Problem.artificialKeys_eq] at artificialOf
  rw [Bare.Form.ofProblem?, Problem.signs_eq, slackOf, artificialOf,
    Problem.coefficientWrites?_eq]
  simp only [Problem.setAll?_writes valid, Problem.rightHandSides?_eq,
    problem.columnCosts?_eq valid, Problem.startBasis?_eq, Option.bind_eq_bind, Option.bind_some,
    Option.pure_def]
  refine congrArg some ?_
  unfold bare ofProblem
  congr 1
  · exact problem.keys_eq
  · show _ = (problem.columnVector.map problem.columnName).toList
    rw [Vector.toList_map, problem.columnNames_eq]
    rfl
  · show _ = (problem.columnVector.map (problem.cost valid)).toList
    rw [Vector.toList_map]
    rfl
  · show _ = (Vector.ofFn fun i => (⟨problem.columns.idxOf (problem.startColumn i),
      List.idxOf_lt_length_of_mem (problem.startColumn_mem i)⟩ :
        Fin problem.numColumns)).toList.map Fin.val
    rw [Vector.toList_ofFn, List.map_ofFn]
    rfl

end LinearProgramming
