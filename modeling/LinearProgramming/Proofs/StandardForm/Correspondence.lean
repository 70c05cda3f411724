/-
This file shows that the standard form of a problem says neither more nor less than the problem.

Every column belongs to one variable or to one row, and the form finds it there. A point that is
not negative satisfies the constraints exactly when slack levels complete it to a solution of the
equations without artificial levels. These slack levels are forced: each row has a slack or
surplus column of its own or none, so its equation fixes the level. The costs of the completed
point are its objective.
-/

import Mathlib
import LinearProgramming.Proofs.StandardForm.Faithful

namespace LinearProgramming

/-! ### What a column belongs to -/

/-- What a column of a standard form belongs to: a variable, or a row as its slack or as its
artificial unknown. -/
inductive Owner (vars rows : Nat) where
  | decision (variableIndex : Fin vars)
  | slack (row : Fin rows)
  | artificial (row : Fin rows)

/-- The owner of a column. A surplus is the slack of a lower bound. -/
def Column.owner {vars rows : Nat} : Column vars rows → Owner vars rows
  | decision j => .decision j
  | slack i | surplus i => .slack i
  | artificial i => .artificial i

theorem Column.eq_decision_of_owner {vars rows : Nat} {column : Column vars rows} {j : Fin vars}
    (owned : column.owner = .decision j) : column = .decision j := by
  cases column <;> cases owned
  rfl

/-- The form lists a column index for an owner. -/
def StandardForm.Lists (form : StandardForm Rat) (column : Fin form.numColumns) :
    Owner form.numVars form.numRows → Prop
  | .decision j => form.decisionColumn j = column
  | .slack i => form.slackOf.get i = some column
  | .artificial i => form.artificialOf.get i = some column

namespace Problem

variable {problem : Problem Rat}

/-- A listed column is that of a variable, the slack of a row or the artificial column of a row. -/
theorem mem_columns_cases {column : Column problem.numVars problem.numRows}
    (member : column ∈ problem.columns) :
    (∃ j, column = .decision j) ∨ (∃ k, problem.slackColumn? k = some column) ∨
      ∃ k, problem.artificialColumn? k = some column := by
  rcases List.mem_append.1 member with earlier | isArtificial
  · rcases List.mem_append.1 earlier with isDecision | isSlack
    · obtain ⟨j, _, same⟩ := List.mem_map.1 isDecision
      exact Or.inl ⟨j, same.symm⟩
    · obtain ⟨k, _, closes⟩ := List.mem_filterMap.1 isSlack
      exact Or.inr (Or.inl ⟨k, closes⟩)
  · obtain ⟨k, _, added⟩ := List.mem_filterMap.1 isArtificial
    exact Or.inr (Or.inr ⟨k, added⟩)

theorem owner_of_slackColumn? {k : Fin problem.numRows}
    {column : Column problem.numVars problem.numRows}
    (closes : problem.slackColumn? k = some column) : column.owner = .slack k := by
  rcases slackColumn?_kind closes with rfl | rfl <;> rfl

theorem owner_of_artificialColumn? {k : Fin problem.numRows}
    {column : Column problem.numVars problem.numRows}
    (added : problem.artificialColumn? k = some column) : column.owner = .artificial k := by
  rw [artificialColumn?_kind added]
  rfl

/-- A listed column is the slack of a row exactly when the row owns it so. -/
theorem slackColumn?_eq_some_iff {i : Fin problem.numRows}
    {column : Column problem.numVars problem.numRows} (member : column ∈ problem.columns) :
    problem.slackColumn? i = some column ↔ column.owner = .slack i := by
  refine ⟨owner_of_slackColumn?, fun owned => ?_⟩
  rcases mem_columns_cases member with ⟨j, rfl⟩ | ⟨k, closes⟩ | ⟨k, added⟩
  · cases owned
  · obtain rfl := Owner.slack.inj ((owner_of_slackColumn? closes).symm.trans owned)
    exact closes
  · cases (owner_of_artificialColumn? added).symm.trans owned

/-- A listed column is the artificial column of a row exactly when the row owns it so. -/
theorem artificialColumn?_eq_some_iff {i : Fin problem.numRows}
    {column : Column problem.numVars problem.numRows} (member : column ∈ problem.columns) :
    problem.artificialColumn? i = some column ↔ column.owner = .artificial i := by
  refine ⟨owner_of_artificialColumn?, fun owned => ?_⟩
  rcases mem_columns_cases member with ⟨j, rfl⟩ | ⟨k, closes⟩ | ⟨k, added⟩
  · cases owned
  · cases (owner_of_slackColumn? closes).symm.trans owned
  · obtain rfl := Owner.artificial.inj ((owner_of_artificialColumn? added).symm.trans owned)
    exact added

/-- An optional column is found at the index where it is listed. -/
theorem bind_finIdxOf?_eq_some_iff
    {chosen : Option (Column problem.numVars problem.numRows)} {column : Fin problem.numColumns} :
    chosen.bind problem.columns.finIdxOf? = some column ↔
      chosen = some (problem.columnVector.get column) := by
  constructor
  · intro found
    obtain ⟨listed, rfl, position⟩ := Option.bind_eq_some_iff.1 found
    exact congrArg some (List.finIdxOf?_eq_some_iff.1 position).1.symm
  · rintro rfl
    refine List.finIdxOf?_eq_some_iff.2 ⟨rfl, fun earlier before same => ?_⟩
    exact absurd (problem.columnVector_injective same) before.ne

end Problem

namespace StandardForm

variable {problem : Problem Rat} (valid : problem.Valid)

/-- The form lists a column index for the owner of its column, and for no other. -/
theorem lists_iff (column : Fin problem.numColumns)
    (owner : Owner problem.numVars problem.numRows) :
    (ofProblem problem valid).Lists column owner ↔
      (problem.columnVector.get column).owner = owner := by
  have member : problem.columnVector.get column ∈ problem.columns := List.get_mem _ _
  cases owner with
  | decision j =>
    constructor
    · intro listed
      have first : column = j.castLE problem.numVars_le_numColumns := listed.symm
      rw [first, problem.get_columnVector_decision]
      rfl
    · intro owned
      refine (Problem.eq_of_get_columnVector_eq_decision ?_).symm
      exact Column.eq_decision_of_owner owned
  | slack i =>
    refine Iff.trans ?_ (Problem.slackColumn?_eq_some_iff member)
    refine Iff.trans ?_ Problem.bind_finIdxOf?_eq_some_iff
    exact Eq.congr_left (get_vectorOfFn _ i)
  | artificial i =>
    refine Iff.trans ?_ (Problem.artificialColumn?_eq_some_iff member)
    refine Iff.trans ?_ Problem.bind_finIdxOf?_eq_some_iff
    exact Eq.congr_left (get_vectorOfFn _ i)

/-! ### Completing a point -/

/-- Levels of the unknowns that complete a point: its entries for the variables, slack levels that
solve the equations, and nothing for the artificial unknowns. -/
structure Completes (form : StandardForm Rat) (point : List Rat)
    (levels : Fin form.numColumns → Rat) : Prop where
  solves : form.Solves levels
  point : form.pointOf levels = point
  noArtificial : form.NoArtificial levels

/-- A feasible point is completed by the distances of its rows. -/
theorem completes_levelsAt {point : List Rat} (feasible : problem.Feasible point) :
    (ofProblem problem valid).Completes point (levelsAt valid point feasible.length) where
  solves := solves_levelsAt valid feasible
  point := by
    refine List.ext_get ((pointOf_length valid _).trans feasible.length.symm)
      fun position inLevels inPoint => ?_
    have inRange : position < problem.numVars := feasible.length ▸ inPoint
    have entry := levelAt_pointOf valid (levelsAt valid point feasible.length) ⟨position, inRange⟩
    rw [← problem.get_columnVector_decision, byColumn_get] at entry
    unfold levelsAt at entry
    rw [problem.get_columnVector_decision] at entry
    exact entry
  noArtificial := noArtificial_levelsAt valid point feasible.length

/-- Whatever completes a point gives each unknown its distance at the point. -/
theorem Completes.eq_levelsAt {point : List Rat} {levels : Fin problem.numColumns → Rat}
    (completes : (ofProblem problem valid).Completes point levels) :
    ∃ length, levels = levelsAt valid point length := by
  obtain ⟨solves, rfl, noArtificial⟩ := completes
  refine ⟨pointOf_length valid levels, funext fun j => ?_⟩
  have member : problem.columnVector.get j ∈ problem.columns := List.get_mem _ _
  rw [← byColumn_get valid levels j]
  unfold levelsAt
  generalize problem.columnVector.get j = column at member
  -- the equation of the row that owns the column has no other unknown
  have equation := fun i => equation_pointOf valid solves i
  have closes := fun i => Problem.slackColumn?_eq_some_iff (i := i) member
  unfold Problem.slackColumn? at closes
  unfold Problem.closing at equation
  cases column with
  | decision k => exact (levelAt_pointOf valid levels k).symm
  | artificial i => exact byColumn_artificial valid noArtificial i
  | slack i =>
    have relation := (closes i).2 rfl
    have row := equation i
    cases same : problem.rowRelation i <;> simp only [same] at relation row
    · rw [Problem.levelAtPoint]
      linarith
    · cases relation
    · cases relation
  | surplus i =>
    have relation := (closes i).2 rfl
    have row := equation i
    cases same : problem.rowRelation i <;> simp only [same] at relation row
    · cases relation
    · rw [Problem.levelAtPoint]
      rw [byColumn_artificial valid noArtificial] at row
      linarith
    · cases relation

/-! ### The correspondence -/

/-- A form says what a problem says. It can be started from, it lists every column for exactly one
owner, and the points that the constraints allow are those that slack levels complete, in one way
and at the costs of their objective. -/
structure IsFaithful (form : StandardForm Rat) (problem : Problem Rat) : Prop where
  rhs_nonneg : ∀ i, 0 ≤ form.b.get i
  identity : ∀ i k, form.a.get i (form.initialBasis.get k) = if i = k then 1 else 0
  listed : ∀ column owner, form.Lists column owner ↔ (form.columns.get column).owner = owner
  holds_iff : ∀ point : List Rat, point.length = problem.numVars → (∀ level ∈ point, 0 ≤ level) →
    ((∀ constraint ∈ problem.constraints, constraint.Holds point) ↔
      ∃ levels, form.Completes point levels)
  unique : ∀ point levels others, form.Completes point levels → form.Completes point others →
    levels = others
  costs : ∀ point levels, form.Completes point levels →
    form.costOf levels = .ofScalar (problem.sense.orient (problem.evaluate point))

/-- The standard form of a valid problem is faithful. -/
theorem ofProblem_isFaithful (problem : Problem Rat) (valid : problem.Valid) :
    (ofProblem problem valid).IsFaithful problem where
  rhs_nonneg := (canonical_ofProblem valid).rhs_nonneg
  identity := (canonical_ofProblem valid).identity
  listed := lists_iff valid
  holds_iff point length nonneg := by
    constructor
    · intro holds
      exact ⟨_, completes_levelsAt valid ⟨length, nonneg, holds⟩⟩
    · rintro ⟨levels, solves, rfl, noArtificial⟩
      exact (feasible_pointOf valid solves noArtificial).holds
  unique point levels others completes completed := by
    obtain ⟨length, rfl⟩ := completes.eq_levelsAt valid
    obtain ⟨_, rfl⟩ := completed.eq_levelsAt valid
    rfl
  costs point levels completes := by
    obtain ⟨_, rfl, noArtificial⟩ := completes
    exact costOf_eq_pointOf valid noArtificial

/-- The statement at a problem with an equation and a negative right-hand side, for a point that
satisfies its constraints. -/
theorem ofProblem_isFaithful_mixedProblem :
    mixedProblem.Valid ∧
      (ofProblem mixedProblem mixedProblem_valid).IsFaithful mixedProblem ∧
      ∃ levels, (ofProblem mixedProblem mixedProblem_valid).Completes [3, 1] levels ∧
        (ofProblem mixedProblem mixedProblem_valid).costOf levels = .ofScalar 14 := by
  have faithful := ofProblem_isFaithful mixedProblem mixedProblem_valid
  obtain ⟨levels, completes⟩ :=
    (faithful.holds_iff [3, 1] rfl (by decide +kernel)).1 (by decide +kernel)
  refine ⟨mixedProblem_valid, faithful, levels, completes, ?_⟩
  rw [faithful.costs _ _ completes]
  decide +kernel

end StandardForm

end LinearProgramming
