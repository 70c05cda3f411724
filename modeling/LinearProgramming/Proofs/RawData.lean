/-
This file proves the revised method correct on raw data.

Raw data may start at any basis, and its costs may carry penalties of either sign. The caller
vouches for two things only: the inverse belongs to the basis, and the levels of the basis are not
negative. Both hold at every later basis, because a basis with its inverse is enough to write down
the whole tableau, and the method then does to its inverse what a pivot on the least ratio does to
that tableau. What a tableau shows at its end, a point that nothing undercuts or a direction whose
cost falls, is therefore shown by the revised method as well.
-/

import Mathlib
import LinearProgramming.Proofs.LargePenalty
import LinearProgramming.Proofs.Unboundedness

namespace LinearProgramming

/-! ### The tableau of a basis -/

namespace Tableau

variable {form : StandardForm Rat}

/-- The tableau that a basis and a matrix give. -/
def ofInverse (form : StandardForm Rat) (basis : Vector (Fin form.numColumns) form.numRows)
    (inverse : Matrix (Fin form.numRows) (Fin form.numRows) Rat) :
    Tableau Rat form.numRows form.numColumns where
  cells := DenseMatrix.ofFn fun i j =>
    Fin.cases
      (∑ row, (inverse * form.augmented) row j • form.costs.get (basis.get row) -
        form.augmentedCosts j)
      (fun row => BigM.ofScalar ((inverse * form.augmented) row j)) i
  basis := basis

/-- Where the matrix inverts the basis, the tableau stands for it. -/
theorem ofInverse_represents {basis : Vector (Fin form.numColumns) form.numRows}
    {inverse : Matrix (Fin form.numRows) (Fin form.numRows) Rat}
    (inverts : inverse * form.basisOf basis = 1) :
    (ofInverse form basis inverse).Represents form inverse where
  inverts := inverts
  rows row j := DenseMatrix.get_ofFn _ row.succ j
  objectiveRow j := DenseMatrix.get_ofFn _ 0 j

end Tableau

namespace RevisedSimplex

/-! ### Raw data as a form -/

/-- The equations and costs of the method as a form all of whose columns are reported. -/
abbrev form (engine : RevisedSimplex Rat) : StandardForm Rat where
  numVars := engine.numColumns
  numRows := engine.numRows
  numColumns := engine.numColumns
  numVars_le := le_rfl
  columns := Vector.ofFn .decision
  names := engine.names
  a := engine.a
  b := engine.b
  costs := engine.costs.map fun cost => -cost
  initialBasis := engine.basis
  rowSigns := Vector.ofFn fun _ => 1
  slackOf := Vector.ofFn fun _ => none
  artificialOf := Vector.ofFn fun _ => none

/-- Levels of the unknowns that satisfy the equations and are not negative. -/
structure Solves (engine : RevisedSimplex Rat) (levels : Fin engine.numColumns → Rat) : Prop where
  nonneg : ∀ j, 0 ≤ levels j
  equations : engine.a.toMatrix.mulVec levels = engine.b.get

/-- The costs of levels, to be made small. -/
def costOf (engine : RevisedSimplex Rat) (levels : Fin engine.numColumns → Rat) : BigM Rat :=
  ∑ j, levels j • engine.costs.get j

/-- A direction that keeps the equations, lets no level fall, and costs less than nothing. -/
structure FallingRay (engine : RevisedSimplex Rat) (ray : Fin engine.numColumns → Rat) : Prop where
  nonneg : ∀ j, 0 ≤ ray j
  equations : engine.a.toMatrix.mulVec ray = 0
  falls : engine.costOf ray < 0

/-- An inverse belongs to a basis, whose levels are not negative. -/
structure Feasible (engine : RevisedSimplex Rat)
    (basis : Vector (Fin engine.numColumns) engine.numRows)
    (inverse : DenseMatrix Rat engine.numRows engine.numRows) : Prop where
  inverts : inverse.toMatrix * basisMatrix engine.a.toMatrix basis = 1
  nonneg : ∀ row, 0 ≤ (inverse.mulVec engine.b).get row

variable {engine : RevisedSimplex Rat}
  {state : RevisedState Rat engine.numRows engine.numColumns}

theorem solves_form_iff {levels : Fin engine.numColumns → Rat} :
    engine.form.Solves levels ↔ engine.Solves levels :=
  ⟨fun solves => ⟨solves.nonneg, funext solves.equations⟩,
    fun solves => ⟨solves.nonneg, congrFun solves.equations⟩⟩

/-- A form makes its costs large, so they stand with opposite signs. -/
theorem costOf_form (levels : Fin engine.numColumns → Rat) :
    engine.form.costOf levels = -engine.costOf levels := by
  unfold StandardForm.costOf costOf
  rw [← Finset.sum_neg_distrib]
  refine Finset.sum_congr rfl fun j _ => ?_
  rw [get_vectorMap, smul_neg]

/-- The method looks at a basis as the method on the form does. -/
theorem examine_eq_exactOfForm (exact : engine.tolerance = 0) (mayExchange : Bool)
    (state : RevisedState Rat engine.numRows engine.numColumns) :
    engine.examine mayExchange state =
      (exactOfForm engine.form engine.sense engine.maxIterations).examine mayExchange state := by
  -- the costs of a form are turned on the way in, and turned back by the method on it
  have negated : (engine.costs.map fun cost => -cost).map (fun cost => -cost) = engine.costs :=
    vector_ext_get fun j => by rw [get_vectorMap, get_vectorMap, neg_neg]
  have kept : ∀ costs tolerance, costs = engine.costs → tolerance = engine.tolerance →
      ({ engine with costs, tolerance, inverse := .identity, numVars := engine.numColumns } :
        RevisedSimplex Rat).examine mayExchange state = engine.examine mayExchange state := by
    rintro _ _ rfl rfl
    exact engine.examine_restarted .identity engine.numColumns engine.sense mayExchange state
  exact (kept _ 0 negated exact.symm).symm

/-! ### What an iteration shows -/

/-- The tableau at a state of the method. -/
abbrev tableauAt (engine : RevisedSimplex Rat)
    (state : RevisedState Rat engine.numRows engine.numColumns) :
    Tableau Rat engine.numRows engine.numColumns :=
  .ofInverse engine.form state.basis state.inverse.toMatrix

namespace Feasible

variable (feasible : engine.Feasible state.basis state.inverse)

include feasible

theorem represents :
    (engine.tableauAt state).Represents engine.form state.inverse.toMatrix :=
  Tableau.ofInverse_represents feasible.inverts

theorem rhs_nonneg (row : Fin engine.numRows) : 0 ≤ (engine.tableauAt state).rhs row := by
  rw [← get_mulVec_rhs feasible.represents]
  exact feasible.nonneg row

theorem solves_levelOf : engine.Solves (engine.tableauAt state).levelOf :=
  solves_form_iff.1 (feasible.represents.solves_levelOf feasible.rhs_nonneg)

theorem costOf_levelOf : engine.costOf (engine.tableauAt state).levelOf =
    -(engine.tableauAt state).objective := by
  have cost := feasible.represents.costOf_levelOf
  rw [costOf_form] at cost
  exact neg_eq_iff_eq_neg.1 cost

variable (exact : engine.tolerance = 0)

include exact

theorem objective_examine (mayExchange : Bool) :
    (engine.examine mayExchange state).objective = -(engine.tableauAt state).objective := by
  rw [examine_eq_exactOfForm exact]
  exact RevisedSimplex.objective_examine feasible.represents rfl mayExchange

/-- The column with the least price is the one that enters by the steepest rule. -/
theorem entering_eq (mayExchange : Bool) :
    PivotRule.dantzig.entering 0 (engine.tableauAt state).objectiveRow =
      (BigM.leastNegative engine.tolerance
        (engine.examine mayExchange state).reducedCosts).map Prod.fst := by
  rw [examine_eq_exactOfForm exact, exact, PivotRule.entering_dantzig]
  exact congrArg (Option.map Prod.fst)
    (RevisedSimplex.leastNegative_examine feasible.represents rfl mayExchange).symm

/-- The row with the least ratio is the one that leaves by the steepest rule. -/
theorem leaving_eq (column : Fin engine.numColumns) :
    PivotRule.dantzig.leaving 0 state.basis ((engine.tableauAt state).ratios 0 column) =
      (leastRatio (ratios engine.tolerance (state.inverse.mulVec (engine.a.column column))
        (state.inverse.mulVec engine.b))).map Prod.fst := by
  rw [PivotRule.leaving_dantzig, exact]
  exact congrArg (fun ratios => (leastRatio ratios).map Prod.fst)
    (RevisedSimplex.ratios_eq feasible.represents column).symm

theorem objectiveEntry_neg {mayExchange : Bool} {entering : Fin engine.numColumns}
    {reducedCost : BigM Rat}
    (least : BigM.leastNegative engine.tolerance
      (engine.examine mayExchange state).reducedCosts = some (entering, reducedCost)) :
    (engine.tableauAt state).objectiveEntry entering < 0 := by
  have entered := feasible.entering_eq exact mayExchange
  rw [least] at entered
  have negative := PivotRule.neg_of_entering_eq_some entered
  rwa [Tableau.objectiveRow, get_vectorOfFn] at negative

theorem objectiveEntry_nonneg {mayExchange : Bool}
    (least : BigM.leastNegative engine.tolerance
      (engine.examine mayExchange state).reducedCosts = none) (j : Fin engine.numColumns) :
    0 ≤ (engine.tableauAt state).objectiveEntry j := by
  have stopped := feasible.entering_eq exact mayExchange
  rw [least] at stopped
  have nonneg := PivotRule.nonneg_of_entering_eq_none stopped j
  rwa [Tableau.objectiveRow, get_vectorOfFn] at nonneg

/-- At an optimal end no solution undercuts the levels of the basis. -/
theorem costOf_le {mayExchange : Bool}
    (decided : (engine.examine mayExchange state).decision = .optimal)
    {levels : Fin engine.numColumns → Rat} (solves : engine.Solves levels) :
    engine.costOf (engine.tableauAt state).levelOf ≤ engine.costOf levels := by
  have saw := engine.decisionOf_examine mayExchange state
  rw [decided] at saw
  cases saw with
  | optimal least =>
    have bound := feasible.represents.costOf_le (feasible.objectiveEntry_nonneg exact least)
      (solves_form_iff.2 solves)
    rw [costOf_form] at bound
    rw [feasible.costOf_levelOf]
    exact neg_le.1 bound

/-- At an unbounded end the direction of the entering column falls for ever. -/
theorem exists_fallingRay {mayExchange : Bool} {entering : Fin engine.numColumns}
    {direction : Vector Rat engine.numRows} {ratios : Vector (Option Rat) engine.numRows}
    (decided : (engine.examine mayExchange state).decision =
      .unbounded entering direction ratios) : ∃ ray, engine.FallingRay ray := by
  have saw := engine.decisionOf_examine mayExchange state
  rw [decided] at saw
  cases saw with
  | unbounded entering reducedCost least allowed stuck =>
    have noRow := feasible.leaving_eq exact entering
    rw [stuck] at noRow
    have nonpos : ∀ row, (engine.tableauAt state).entry row entering ≤ 0 := by
      intro row
      have absent := PivotRule.none_of_leaving_eq_none noRow row
      rw [Tableau.get_ratios] at absent
      by_contra positive
      rw [if_pos (not_le.1 positive)] at absent
      cases absent
    have cost := feasible.represents.costOf_direction entering
    rw [costOf_form, neg_inj] at cost
    exact ⟨(engine.tableauAt state).direction entering, Tableau.direction_nonneg nonpos,
      funext (feasible.represents.equations_direction entering),
      cost.trans_lt (feasible.objectiveEntry_neg exact least)⟩

section Exchange

variable {entering : Fin engine.numColumns} {reducedCost : BigM Rat}
  {direction : Vector Rat engine.numRows} {ratios : Vector (Option Rat) engine.numRows}
  {leaving : Fin engine.numRows} {theta : Rat}
  (decided : (engine.examine true state).decision =
    .exchange entering reducedCost direction ratios leaving theta)

include decided

/-- What an exchange saw on the tableau: a negative price, and the least ratio in the row that
leaves. -/
theorem exists_least_of_exchange :
    direction = (engine.tableauAt state).column entering ∧
      (engine.tableauAt state).objectiveEntry entering < 0 ∧
      ∃ least, ((engine.tableauAt state).ratios 0 entering).get leaving = some least ∧
        ∀ other ratio, ((engine.tableauAt state).ratios 0 entering).get other = some ratio →
          least ≤ ratio := by
  have saw := engine.decisionOf_examine true state
  rw [decided] at saw
  cases saw with
  | exchange entering reducedCost leaving theta least allowed left =>
    have row := feasible.leaving_eq exact entering
    rw [left] at row
    exact ⟨mulVec_column feasible.represents entering, feasible.objectiveEntry_neg exact least,
      PivotRule.least_of_leaving_eq_some row⟩

/-- The state after an exchange has the inverse of the tableau after the pivot. -/
theorem pivot_represents :
    ((engine.tableauAt state).pivot 0 leaving entering).Represents engine.form
      (RevisedSimplex.exchange state entering direction leaving).inverse.toMatrix := by
  obtain ⟨rfl, _, least, present, _⟩ := feasible.exists_least_of_exchange exact decided
  exact exchange_represents feasible.represents (Tableau.ratio_of_get_ratios present).1.ne'

/-- An exchange leads to another feasible basis. -/
theorem exchange : engine.Feasible (RevisedSimplex.exchange state entering direction leaving).basis
    (RevisedSimplex.exchange state entering direction leaving).inverse where
  inverts := (feasible.pivot_represents exact decided).inverts
  nonneg row := by
    obtain ⟨_, _, least, present, below⟩ := feasible.exists_least_of_exchange exact decided
    exact (get_mulVec_rhs (feasible.pivot_represents exact decided) row).symm ▸
      feasible.represents.rhs_pivot_nonneg feasible.rhs_nonneg present below row

/-- An exchange does not increase the objective. -/
theorem objective_exchange_le (mayExchange : Bool) :
    (engine.examine mayExchange
        (RevisedSimplex.exchange state entering direction leaving)).objective ≤
      (engine.examine true state).objective := by
  obtain ⟨_, negative, least, present, _⟩ := feasible.exists_least_of_exchange exact decided
  have after : (engine.examine mayExchange
      (RevisedSimplex.exchange state entering direction leaving)).objective =
        -((engine.tableauAt state).pivot 0 leaving entering).objective := by
    rw [examine_eq_exactOfForm exact]
    exact RevisedSimplex.objective_examine (feasible.pivot_represents exact decided) rfl mayExchange
  rw [after, feasible.objective_examine exact, neg_le_neg_iff]
  exact feasible.represents.objective_le_pivot (feasible.rhs_nonneg leaving)
    (Tableau.ratio_of_get_ratios present).1 negative

end Exchange

end Feasible

/-! ### From the first iteration to the last -/

/-- An iteration holds the inverse of its basis, and levels that are not negative with what they
cost. -/
structure Stands (engine : RevisedSimplex Rat)
    (step : RevisedStep Rat engine.numRows engine.numColumns) : Prop where
  inverts : step.inverse.toMatrix * basisMatrix engine.a.toMatrix step.basis = 1
  inverted : basisMatrix engine.a.toMatrix step.basis * step.inverse.toMatrix = 1
  levels : step.levels = step.inverse.mulVec engine.b
  nonneg : ∀ row, 0 ≤ step.levels.get row
  objective : step.objective = ∑ row, step.levels.get row • engine.costs.get (step.basis.get row)

/-- From one iteration to the next the objective does not increase. -/
def Descends {m n : Nat} (steps : List (RevisedStep Rat m n)) : Prop :=
  steps.IsChain fun before after => after.objective ≤ before.objective

theorem Feasible.stands (feasible : engine.Feasible state.basis state.inverse)
    (mayExchange : Bool) : engine.Stands (engine.examine mayExchange state) where
  inverts := feasible.inverts
  inverted := mul_eq_one_comm.1 feasible.inverts
  levels := rfl
  nonneg := feasible.nonneg
  objective := by
    refine (BigM.dot_toList _ _).trans (Finset.sum_congr rfl fun row _ => ?_)
    rw [get_vectorMap]
    rfl

/-- A run has come to a feasible basis; its iterations so far stand on their inverses, and none of
them, with the next one, increases the objective. -/
structure Descended (engine : RevisedSimplex Rat)
    (earlier : Array (RevisedStep Rat engine.numRows engine.numColumns))
    (state : RevisedState Rat engine.numRows engine.numColumns) : Prop where
  feasible : engine.Feasible state.basis state.inverse
  stands : ∀ step ∈ earlier.toList, engine.Stands step
  descends : ∀ mayExchange, Descends (earlier.toList ++ [engine.examine mayExchange state])

variable {earlier : Array (RevisedStep Rat engine.numRows engine.numColumns)}

theorem Feasible.descended (feasible : engine.Feasible state.basis state.inverse) :
    engine.Descended #[] state where
  feasible := feasible
  stands _ member := nomatch member
  descends _ := .singleton _

/-- An exchange goes on to a feasible basis. -/
theorem Descended.exchange (descended : engine.Descended earlier state)
    (exact : engine.tolerance = 0) {entering : Fin engine.numColumns} {reducedCost : BigM Rat}
    {direction : Vector Rat engine.numRows} {ratios : Vector (Option Rat) engine.numRows}
    {leaving : Fin engine.numRows} {theta : Rat}
    (decided : (engine.examine true state).decision =
      .exchange entering reducedCost direction ratios leaving theta) :
    engine.Descended (earlier.push (engine.examine true state))
      (RevisedSimplex.exchange state entering direction leaving) := by
  refine ⟨descended.feasible.exchange exact decided, fun step member => ?_, fun mayExchange => ?_⟩
  · rw [Array.toList_push] at member
    rcases List.mem_append.1 member with before | last
    · exact descended.stands step before
    · rw [List.mem_singleton.1 last]
      exact descended.feasible.stands true
  · rw [Array.toList_push]
    refine (descended.descends true).append (.singleton _) fun before lastBefore after first => ?_
    cases List.getLast?_concat.symm.trans lastBefore
    cases first
    exact descended.feasible.objective_exchange_le exact decided mayExchange

/-! ### The end of a run -/

/-- What a run on raw data shows. Every iteration stands on the inverse of its basis, and the
objective does not increase. An optimal end reports a solution that no other undercuts, with
penalties first, and the value of what it costs; an unbounded end shows a direction that falls for
ever. -/
structure IsSound (engine : RevisedSimplex Rat)
    (steps : List (RevisedStep Rat engine.numRows engine.numColumns)) (outcome : Outcome Rat) :
    Prop where
  stands : ∀ step ∈ steps, engine.Stands step
  descends : Descends steps
  optimal : ∀ values objective, outcome = .optimal values objective →
    ∃ levels, values = List.ofFn levels ∧ engine.Solves levels ∧
      objective = (engine.costOf levels).value ∧
      ∀ other, engine.Solves other → engine.costOf levels ≤ engine.costOf other
  unbounded : ∀ sense, outcome = .unbounded sense → ∃ ray, engine.FallingRay ray

section Outcomes

variable {step : RevisedStep Rat engine.numRows engine.numColumns}

theorem optimal_of_outcomeOf (sense : engine.sense = .minimize) {values : List Rat}
    {objective : Rat} (reported : engine.outcomeOf step = .optimal values objective) :
    step.decision = .optimal ∧ values = (List.range engine.numVars).map (levelOf step) ∧
      objective = step.objective.value := by
  unfold outcomeOf at reported
  rw [sense] at reported
  split at reported
  · rename_i decided
    split at reported
    · cases reported
    · cases reported
      exact ⟨decided, rfl, rfl⟩
  · cases reported
  · cases reported
  · cases reported

theorem unbounded_of_outcomeOf {sense : Sense}
    (reported : engine.outcomeOf step = .unbounded sense) :
    ∃ entering direction ratios, step.decision = .unbounded entering direction ratios := by
  unfold outcomeOf at reported
  split at reported
  · split at reported
    · cases reported
    · cases reported
  · rename_i entering direction ratios decided
    exact ⟨entering, direction, ratios, decided⟩
  · cases reported
  · cases reported

end Outcomes

/-- The values that an iteration reports are the levels of its tableau. -/
theorem Feasible.values_eq (feasible : engine.Feasible state.basis state.inverse)
    (mayExchange : Bool) :
    (List.range engine.numColumns).map (levelOf (engine.examine mayExchange state)) =
      List.ofFn (engine.tableauAt state).levelOf := by
  have levels : levelOf (engine.examine mayExchange state) =
      (engine.tableauAt state).valueOf :=
    funext (levelOf_eq_valueOf rfl (get_mulVec_rhs feasible.represents))
  rw [levels, List.ofFn_eq_map, ← List.map_coe_finRange_eq_range, List.map_map]
  rfl

/-- From a feasible basis the method without tolerance is sound. -/
theorem Feasible.solve (feasible : engine.Feasible engine.basis engine.inverse)
    (exact : engine.tolerance = 0) (reported : engine.numVars = engine.numColumns)
    (sense : engine.sense = .minimize) :
    ∃ earlier final, engine.solve =
        ⟨engine.numRows, engine.numColumns, engine.names, earlier, final,
          engine.outcomeOf final⟩ ∧
      engine.IsSound (earlier.toList ++ [final]) (engine.outcomeOf final) := by
  have begun : engine.Descended #[] ⟨0, engine.basis, engine.inverse⟩ :=
    Feasible.descended feasible
  obtain ⟨earlier, last, mayExchange, descended, iterated, -⟩ := iterate_keeps engine.Descended
    (fun _ _ _ _ _ _ _ _ descended decided => descended.exchange exact decided)
    engine.maxIterations begun
  refine ⟨earlier, engine.examine mayExchange last, solve_of_iterate iterated, ?_⟩
  exact
    { stands := by
        intro step member
        rcases List.mem_append.1 member with before | final
        · exact descended.stands step before
        · rw [List.mem_singleton.1 final]
          exact descended.feasible.stands mayExchange
      descends := descended.descends mayExchange
      optimal := by
        intro values objective ended
        obtain ⟨decided, rfl, rfl⟩ := optimal_of_outcomeOf sense ended
        refine ⟨(engine.tableauAt last).levelOf, ?_, descended.feasible.solves_levelOf, ?_,
          fun other solves => descended.feasible.costOf_le exact decided solves⟩
        · rw [reported]
          exact descended.feasible.values_eq mayExchange
        · rw [descended.feasible.objective_examine exact, descended.feasible.costOf_levelOf]
      unbounded := by
        intro _ ended
        obtain ⟨_, _, _, decided⟩ := unbounded_of_outcomeOf ended
        exact descended.feasible.exists_fallingRay exact decided }

/-! ### Lists that are accepted -/

/-- The method holds the data of lists and tables. -/
structure Holds (engine : RevisedSimplex Rat) (costs : List (BigM Rat)) (a : Table Rat)
    (b : List Rat) (inverse : Table Rat) (basis : List Nat) : Prop where
  costs : engine.costs.toList = costs
  a : ⟨engine.numRows, engine.numColumns, engine.a⟩ = a
  b : engine.b.toList = b
  inverse : ⟨engine.numRows, engine.numRows, engine.inverse⟩ = inverse
  basis : (engine.basis.map Fin.val).toList = basis

section Lists

theorem exists_of_bind_eq_ok {β γ : Type} {first : Except ProblemError β}
    {next : β → Except ProblemError γ} {result : γ} (made : (first >>= next) = .ok result) :
    ∃ value, first = .ok value ∧ next value = .ok result := by
  cases first with
  | error fault => cases made
  | ok value => exact ⟨value, rfl, made⟩

theorem toList_of_sized {β : Type} {extent : Extent} {length : Nat} {list : List β}
    {vector : Vector β length} (accepted : sized extent length list = .ok vector) :
    vector.toList = list := by
  unfold sized vectorOf? at accepted
  split at accepted
  · rename_i found
    split at found
    · cases accepted
      cases found
      rfl
    · cases found
  · cases accepted

theorem table_of_squareInverse {size : Nat} {inverse : Table Rat}
    {matrix : DenseMatrix Rat size size} (accepted : squareInverse size inverse = .ok matrix) :
    ⟨size, size, matrix⟩ = inverse := by
  unfold squareInverse at accepted
  split at accepted
  · rename_i rows
    split at accepted
    · rename_i columns
      obtain ⟨rowCount, columnCount, entries⟩ := inverse
      dsimp only at rows columns
      subst rows columns
      cases accepted
      refine congrArg (Table.mk _ _) (DenseMatrix.ext_get fun i j => ?_)
      exact DenseMatrix.get_ofFn _ i j
    · cases accepted
  · cases accepted

variable {n : Nat}

theorem val_of_columnIndex {number : Nat} {column : Fin n}
    (accepted : columnIndex n number = .ok column) : column.val = number := by
  unfold columnIndex at accepted
  split at accepted
  · cases accepted
    rfl
  · cases accepted

theorem map_val_of_list_mapM {numbers : List Nat} {columns : List (Fin n)}
    (accepted : numbers.mapM (columnIndex n) = .ok columns) : columns.map Fin.val = numbers := by
  induction numbers generalizing columns with
  | nil =>
    cases accepted
    rfl
  | cons number rest inductionHypothesis =>
    rw [List.mapM_cons] at accepted
    obtain ⟨column, first, accepted⟩ := exists_of_bind_eq_ok accepted
    obtain ⟨others, all, accepted⟩ := exists_of_bind_eq_ok accepted
    cases accepted
    rw [List.map_cons, val_of_columnIndex first, inductionHypothesis all]

theorem map_val_of_mapM {m : Nat} {numbers : Vector Nat m} {columns : Vector (Fin n) m}
    (accepted : numbers.mapM (columnIndex n) = .ok columns) : columns.map Fin.val = numbers := by
  have listed : numbers.toList.mapM (columnIndex n) = .ok columns.toList := by
    have arrays : Vector.toArray <$> numbers.mapM (columnIndex n) =
        numbers.toArray.mapM (columnIndex n) := Vector.toArray_mapM
    have lists : Array.toList <$> numbers.toArray.mapM (columnIndex n) =
        numbers.toList.mapM (columnIndex n) := Array.toList_mapM
    rw [← lists, ← arrays, accepted]
    rfl
  refine Vector.toList_inj.1 ?_
  rw [Vector.toList_map]
  exact map_val_of_list_mapM listed

/-- Accepted lists are the data of the method. -/
theorem holds_of_ofLists? {costs : List (BigM Rat)} {a : Table Rat} {b : List Rat}
    {inverse : Table Rat} {basis : List Nat}
    (accepted : ofLists? costs a b inverse basis = .ok engine) :
    engine.Holds costs a b inverse basis ∧ engine.numVars = engine.numColumns ∧
      engine.sense = .minimize := by
  obtain ⟨costs', sameCosts, accepted⟩ := exists_of_bind_eq_ok accepted
  obtain ⟨b', sameRhs, accepted⟩ := exists_of_bind_eq_ok accepted
  obtain ⟨inverse', sameInverse, accepted⟩ := exists_of_bind_eq_ok accepted
  obtain ⟨numbers, sameBasis, accepted⟩ := exists_of_bind_eq_ok accepted
  obtain ⟨columns, inRange, accepted⟩ := exists_of_bind_eq_ok accepted
  cases accepted
  refine ⟨⟨toList_of_sized sameCosts, rfl, toList_of_sized sameRhs,
    table_of_squareInverse sameInverse, ?_⟩, rfl, rfl⟩
  rw [← toList_of_sized sameBasis]
  exact congrArg Vector.toList (map_val_of_mapM inRange)

end Lists

/-- The revised method is correct on raw data. Where lists are accepted, their inverse belongs to
their basis, and the levels of that basis are not negative, the method without tolerance and with
any cap runs on this data and is sound. -/
theorem solve_ofLists_isSound {costs : List (BigM Rat)} {a : Table Rat} {b : List Rat}
    {inverse : Table Rat} {basis : List Nat}
    (accepted : ofLists? costs a b inverse basis = .ok engine)
    (feasible : engine.Feasible engine.basis engine.inverse) (cap : Nat) :
    (engine.withoutTolerance cap).Holds costs a b inverse basis ∧
      ∃ earlier final outcome, (engine.withoutTolerance cap).solve =
          ⟨engine.numRows, engine.numColumns, engine.names, earlier, final, outcome⟩ ∧
        (engine.withoutTolerance cap).IsSound (earlier.toList ++ [final]) outcome := by
  obtain ⟨holds, numVars, sense⟩ := holds_of_ofLists? accepted
  have started : (engine.withoutTolerance cap).Feasible engine.basis engine.inverse :=
    ⟨feasible.inverts, feasible.nonneg⟩
  obtain ⟨earlier, final, solved, sound⟩ := Feasible.solve started rfl numVars sense
  exact ⟨⟨holds.costs, holds.a, holds.b, holds.inverse, holds.basis⟩, earlier, final, _, solved,
    sound⟩

/-- Raw data that starts at two columns which are not those of the identity, with a penalty of
either sign. -/
def skewData : RevisedSimplex Rat :=
  ofData #v[⟨-1, 0⟩, ⟨0, -1⟩, 0, ⟨5, 1⟩] ⟨#v[#v[1, 1, 1, 0], #v[0, 1, 0, 1]]⟩ #v[4, 1]
    ⟨#v[#v[1, -1], #v[0, 1]]⟩ #v[2, 1]

/-- The statement at data from which the method comes to an optimal end after an exchange. -/
theorem solve_ofLists_isSound_skewData :
    ofLists? skewData.costs.toList ⟨2, 4, skewData.a⟩ skewData.b.toList
        ⟨2, 2, skewData.inverse⟩ [2, 1] = .ok skewData ∧
      skewData.Feasible skewData.basis skewData.inverse ∧
      (skewData.withoutTolerance 5).solve.status = .optimal ∧
      (skewData.withoutTolerance 5).solve.iterations = 1 ∧
      (skewData.withoutTolerance 5).Holds skewData.costs.toList ⟨2, 4, skewData.a⟩
        skewData.b.toList ⟨2, 2, skewData.inverse⟩ [2, 1] ∧
      ∃ earlier final outcome, (skewData.withoutTolerance 5).solve =
          ⟨2, 4, skewData.names, earlier, final, outcome⟩ ∧
        (skewData.withoutTolerance 5).IsSound (earlier.toList ++ [final]) outcome := by
  have accepted : ofLists? skewData.costs.toList ⟨2, 4, skewData.a⟩ skewData.b.toList
      ⟨2, 2, skewData.inverse⟩ [2, 1] = .ok skewData := by
    have listed : [2, 1] = (skewData.basis.map Fin.val).toList := by decide +kernel
    rw [listed]
    exact ofLists?_toList skewData.costs skewData.a skewData.b skewData.inverse skewData.basis
  have feasible : skewData.Feasible skewData.basis skewData.inverse :=
    ⟨by decide +kernel, by decide +kernel⟩
  exact ⟨accepted, feasible, by decide +kernel, by decide +kernel,
    solve_ofLists_isSound accepted feasible 5⟩

end RevisedSimplex

end LinearProgramming
