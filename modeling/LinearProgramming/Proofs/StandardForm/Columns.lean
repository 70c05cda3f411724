/-
This file is about the columns of the standard form of a problem.

The columns are listed without repetition: the decision variables first, then one slack or surplus
column for each inequality, then the artificial columns. A sum over all columns is therefore a sum
over the variables and two sums over the rows, and the column basic in a row at the start is found
again at its index.
-/

import Mathlib
import LinearProgramming.StandardForm
import LinearProgramming.Proofs.ExactSums

namespace LinearProgramming.Problem

variable {α : Type} [Scalar α] {problem : Problem α}

/-! ### No column twice -/

theorem slackColumn?_kind {i : Fin problem.numRows}
    {column : Column problem.numVars problem.numRows}
    (closes : problem.slackColumn? i = some column) : column = .slack i ∨ column = .surplus i := by
  unfold slackColumn? at closes
  cases relation : problem.rowRelation i with
  | atMost =>
    rw [relation] at closes
    exact Or.inl (Option.some.inj closes).symm
  | atLeast =>
    rw [relation] at closes
    exact Or.inr (Option.some.inj closes).symm
  | equal =>
    rw [relation] at closes
    cases closes

theorem artificialColumn?_kind {i : Fin problem.numRows}
    {column : Column problem.numVars problem.numRows}
    (added : problem.artificialColumn? i = some column) : column = .artificial i := by
  unfold artificialColumn? at added
  cases relation : problem.rowRelation i with
  | atMost =>
    rw [relation] at added
    cases added
  | atLeast | equal =>
    rw [relation] at added
    exact (Option.some.inj added).symm

theorem slackColumn?_injective {first second : Fin problem.numRows}
    {column : Column problem.numVars problem.numRows}
    (atFirst : problem.slackColumn? first = some column)
    (atSecond : problem.slackColumn? second = some column) : first = second := by
  rcases slackColumn?_kind atFirst with rfl | rfl
  · rcases slackColumn?_kind atSecond with same | same
    · exact Column.slack.inj same
    · cases same
  · rcases slackColumn?_kind atSecond with same | same
    · cases same
    · exact Column.surplus.inj same

theorem artificialColumn?_injective {first second : Fin problem.numRows}
    {column : Column problem.numVars problem.numRows}
    (atFirst : problem.artificialColumn? first = some column)
    (atSecond : problem.artificialColumn? second = some column) : first = second :=
  Column.artificial.inj ((artificialColumn?_kind atFirst).symm.trans
    (artificialColumn?_kind atSecond))

theorem columns_nodup (problem : Problem α) : problem.columns.Nodup := by
  have decisions : ((List.finRange problem.numVars).map
      (.decision : _ → Column problem.numVars problem.numRows)).Nodup :=
    (List.nodup_finRange _).map fun first second same => by cases same; rfl
  have slacks : ((List.finRange problem.numRows).filterMap problem.slackColumn?).Nodup :=
    (List.nodup_finRange _).filterMap fun first second column atFirst atSecond =>
      slackColumn?_injective atFirst atSecond
  have artificials : ((List.finRange problem.numRows).filterMap problem.artificialColumn?).Nodup :=
    (List.nodup_finRange _).filterMap fun first second column atFirst atSecond =>
      artificialColumn?_injective atFirst atSecond
  refine List.Nodup.append (List.Nodup.append decisions slacks ?_) artificials ?_
  · intro column isDecision isSlack
    obtain ⟨j, _, rfl⟩ := List.mem_map.1 isDecision
    obtain ⟨i, _, closes⟩ := List.mem_filterMap.1 isSlack
    rcases slackColumn?_kind closes with same | same <;> cases same
  · intro column earlier isArtificial
    obtain ⟨i, _, added⟩ := List.mem_filterMap.1 isArtificial
    rw [artificialColumn?_kind added] at earlier
    rcases List.mem_append.1 earlier with isDecision | isSlack
    · obtain ⟨j, _, same⟩ := List.mem_map.1 isDecision
      cases same
    · obtain ⟨k, _, closes⟩ := List.mem_filterMap.1 isSlack
      rcases slackColumn?_kind closes with same | same <;> cases same

/-! ### Columns by index -/

theorem numColumns_eq (problem : Problem α) : problem.numColumns = problem.columns.length := rfl

theorem get_columnVector (problem : Problem α) (j : Fin problem.numColumns) :
    problem.columnVector.get j = problem.columns.get (j.cast problem.numColumns_eq) := rfl

theorem columnVector_injective (problem : Problem α) :
    Function.Injective problem.columnVector.get := fun _ _ same =>
  Fin.cast_injective problem.numColumns_eq
    (List.nodup_iff_injective_get.1 problem.columns_nodup same)

/-- The decision columns come first. -/
theorem get_columnVector_decision (problem : Problem α) (j : Fin problem.numVars) :
    problem.columnVector.get (j.castLE problem.numVars_le_numColumns) = .decision j := by
  have inDecisions : j.val < ((List.finRange problem.numVars).map
      (.decision : _ → Column problem.numVars problem.numRows)).length := by simp
  have listed : problem.columns[j.val]? = some (.decision j) := by
    unfold columns
    rw [List.append_assoc, List.getElem?_append_left inDecisions]
    simp
  obtain ⟨_, found⟩ := List.getElem?_eq_some_iff.1 listed
  exact found

theorem eq_of_get_columnVector_eq_decision {column : Fin problem.numColumns}
    {j : Fin problem.numVars} (same : problem.columnVector.get column = .decision j) :
    column = j.castLE problem.numVars_le_numColumns :=
  problem.columnVector_injective (same.trans (problem.get_columnVector_decision j).symm)

/-- The column that starts in a row stands at the index that the first basis lists. -/
theorem get_columnVector_start (problem : Problem α) (i : Fin problem.numRows) :
    problem.columnVector.get ⟨problem.columns.idxOf (problem.startColumn i),
      List.idxOf_lt_length_of_mem (problem.startColumn_mem i)⟩ = problem.startColumn i := by
  rw [get_columnVector]
  exact List.getElem_idxOf _

theorem exists_column (problem : Problem α) {column : Column problem.numVars problem.numRows}
    (member : column ∈ problem.columns) : ∃ j, problem.columnVector.get j = column := by
  obtain ⟨position, found⟩ := List.mem_iff_get.1 member
  exact ⟨position.cast problem.numColumns_eq.symm, found⟩

theorem slackColumn?_mem {i : Fin problem.numRows}
    {column : Column problem.numVars problem.numRows}
    (closes : problem.slackColumn? i = some column) : column ∈ problem.columns :=
  List.mem_append_left _ (List.mem_append_right _
    (List.mem_filterMap.2 ⟨i, List.mem_finRange i, closes⟩))

/-! ### Sums over the columns -/

theorem sum_map_filterMap {ι κ β : Type} [AddCommMonoid β] (choose : ι → Option κ) (term : κ → β)
    (indices : List ι) :
    ((indices.filterMap choose).map term).sum =
      (indices.map fun i => ((choose i).map term).getD 0).sum := by
  induction indices with
  | nil => rfl
  | cons i rest inductionHypothesis =>
    cases chosen : choose i with
    | none =>
      rw [List.filterMap_cons_none chosen, List.map_cons, List.sum_cons, inductionHypothesis,
        chosen]
      exact (zero_add _).symm
    | some column =>
      rw [List.filterMap_cons_some chosen, List.map_cons, List.map_cons, List.sum_cons,
        List.sum_cons, inductionHypothesis, chosen]
      rfl

/-- A sum over all columns, by kind. -/
theorem sum_columns {β : Type} [AddCommMonoid β] (problem : Problem α)
    (term : Column problem.numVars problem.numRows → β) :
    ∑ j, term (problem.columnVector.get j) =
      ∑ j, term (.decision j) + ∑ i, ((problem.slackColumn? i).map term).getD 0 +
        ∑ i, ((problem.artificialColumn? i).map term).getD 0 := by
  have listed : ∑ j, term (problem.columnVector.get j) = (problem.columns.map term).sum :=
    Fin.sum_univ_fun_getElem problem.columns term
  rw [listed, columns, List.map_append, List.map_append, List.sum_append, List.sum_append,
    sum_map_filterMap, sum_map_filterMap, List.map_map, Fin.sum_univ_def, Fin.sum_univ_def,
    Fin.sum_univ_def]
  rfl

end LinearProgramming.Problem
