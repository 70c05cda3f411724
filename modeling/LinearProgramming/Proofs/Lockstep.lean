/-
This file proves that the tableau method and the revised method make the same run.

At one basis the revised method computes, from the inverse alone, what the tableau holds: its
levels are the right-hand sides, its reduced costs are the objective row, and its inverse stands
in the columns of the first basis. So it chooses the same column, sees the same ratios and leaves
by the same row, and its update of the inverse is what the pivot does to these columns. Both
methods stop for the same reason, and a run of any length is compared step by step.
-/

import Mathlib
import LinearProgramming.Proofs.Optimality
import LinearProgramming.Proofs.RevisedRun

namespace LinearProgramming

/-! ### One basis, two methods -/

/-- An iteration of the revised method holds what a tableau holds. -/
structure RevisedStep.Mirrors {form : StandardForm Rat}
    (revised : RevisedStep Rat form.numRows form.numColumns)
    (tableau : Tableau Rat form.numRows form.numColumns) : Prop where
  basis : revised.basis = tableau.basis
  inverse : ∀ row position,
    revised.inverse.get row position = tableau.entry row (form.initialBasis.get position)
  levels : ∀ row, revised.levels.get row = tableau.rhs row
  reducedCosts : revised.reducedCosts =
    ((List.finRange form.numColumns).filter fun j => !tableau.basis.toList.contains j).map
      fun j => (j, tableau.objectiveEntry j)
  objective : revised.objective = -tableau.objective

/-- A step of the tableau method and an iteration of the revised method agree: they hold the same
and made the same exchange, or none. -/
structure Step.Agrees {form : StandardForm Rat} (step : Step Rat form.numRows form.numColumns)
    (revised : RevisedStep Rat form.numRows form.numColumns) : Prop where
  mirrors : revised.Mirrors step.tableau
  exchange : ∀ pivot, step.pivot = some pivot →
    ∃ theta, pivot.ratios.get pivot.row = some theta ∧
      revised.decision = .exchange pivot.column (step.tableau.objectiveEntry pivot.column)
        (step.tableau.column pivot.column) pivot.ratios pivot.row theta
  noExchange : step.pivot = none → revised.decision.leaving? = none

/-- The tableau method with the steepest rule, without tolerance and with a cap. -/
def Solver.exactDantzig (cap : Nat) : Solver Rat where
  maxIterations := cap
  tolerance := 0
  rule := .dantzig

namespace RevisedSimplex

/-- The settings of a run without tolerance and with a cap. -/
def withoutTolerance (engine : RevisedSimplex Rat) (cap : Nat) : RevisedSimplex Rat :=
  { engine with maxIterations := cap, tolerance := 0 }

/-- The revised method on a standard form, without tolerance and with a cap. -/
abbrev exactOfForm (form : StandardForm Rat) (sense : Sense) (cap : Nat) : RevisedSimplex Rat :=
  (ofForm form sense).withoutTolerance cap

/-! ### What the revised method computes from the inverse -/

variable {form : StandardForm Rat} {sense : Sense} {cap : Nat}
  {tableau : Tableau Rat form.numRows form.numColumns}
  {state : RevisedState Rat form.numRows form.numColumns}

/-- The inverse times a column of the equations is that column of the tableau. -/
theorem mulVec_column (represents : tableau.Represents form state.inverse.toMatrix)
    (j : Fin form.numColumns) : state.inverse.mulVec (form.a.column j) = tableau.column j := by
  refine vector_ext_get fun row => ?_
  rw [DenseMatrix.get_mulVec_eq, Tableau.column, get_vectorOfFn, represents.entry_eq]
  simp only [Matrix.mulVec, dotProduct, Matrix.mul_apply, DenseMatrix.get_column,
    DenseMatrix.toMatrix_apply]

/-- The inverse times the right-hand sides is the last column of the tableau. -/
theorem get_mulVec_rhs (represents : tableau.Represents form state.inverse.toMatrix)
    (row : Fin form.numRows) : (state.inverse.mulVec form.b).get row = tableau.rhs row := by
  rw [DenseMatrix.get_mulVec_eq, represents.rhs_eq]

/-- The basic costs of the revised method are those of the tableau with opposite signs. -/
theorem dot_basicCosts (basis : state.basis = tableau.basis) (levels : Vector Rat form.numRows) :
    BigM.dot (state.basis.map (form.costs.map fun cost => -cost).get).toList levels.toList =
      -∑ row, levels.get row • form.costs.get (tableau.basis.get row) := by
  rw [BigM.dot_toList, ← Finset.sum_neg_distrib, basis]
  refine Finset.sum_congr rfl fun row _ => ?_
  rw [get_vectorMap, get_vectorMap, smul_neg]

/-- The price of a column is its entry of the objective row. -/
theorem price_eq (represents : tableau.Represents form state.inverse.toMatrix)
    (basis : state.basis = tableau.basis) (j : Fin form.numColumns) :
    (form.costs.map fun cost => -cost).get j -
        BigM.dot (state.basis.map (form.costs.map fun cost => -cost).get).toList
          (state.inverse.mulVec (form.a.column j)).toList =
      tableau.objectiveEntry j := by
  rw [dot_basicCosts basis, mulVec_column represents, get_vectorMap, represents.objectiveEntry_eq,
    sub_neg_eq_add, neg_add_eq_sub]
  simp only [Tableau.column, get_vectorOfFn]

/-- The columns outside the basis are priced as the objective row prices them. -/
theorem reducedCosts_examine (represents : tableau.Represents form state.inverse.toMatrix)
    (basis : state.basis = tableau.basis) (mayExchange : Bool) :
    ((exactOfForm form sense cap).examine mayExchange state).reducedCosts =
      ((List.finRange form.numColumns).filter fun j => !tableau.basis.toList.contains j).map
        fun j => (j, tableau.objectiveEntry j) := by
  have priced : ∀ j, (j, (form.costs.map fun cost => -cost).get j -
      BigM.dot (state.basis.map (form.costs.map fun cost => -cost).get).toList
        (state.inverse.mulVec (form.a.column j)).toList) = (j, tableau.objectiveEntry j) := by
    intro j
    rw [price_eq represents basis]
  rw [← basis]
  exact congrArg (fun price => List.map price _) (funext priced)

/-- The objective of an iteration is that of the tableau with the opposite sign. -/
theorem objective_examine (represents : tableau.Represents form state.inverse.toMatrix)
    (basis : state.basis = tableau.basis) (mayExchange : Bool) :
    ((exactOfForm form sense cap).examine mayExchange state).objective = -tableau.objective := by
  refine (dot_basicCosts basis _).trans ?_
  rw [represents.objective_eq]
  exact congrArg Neg.neg (Finset.sum_congr rfl fun row _ =>
    congrArg (· • _) (get_mulVec_rhs represents row))

/-- Whatever may happen next, an iteration holds what the tableau holds. -/
theorem examine_mirrors (canonical : form.Canonical)
    (represents : tableau.Represents form state.inverse.toMatrix)
    (basis : state.basis = tableau.basis) (mayExchange : Bool) :
    ((exactOfForm form sense cap).examine mayExchange state).Mirrors tableau where
  basis := basis
  inverse row position := (represents.entry_initialBasis canonical row position).symm
  levels row := get_mulVec_rhs represents row
  reducedCosts := reducedCosts_examine represents basis mayExchange
  objective := objective_examine represents basis mayExchange

/-- Both methods look for the least price among the same entries: the revised method leaves out
the basic columns, whose entries are zero. -/
theorem leastNegative_examine (represents : tableau.Represents form state.inverse.toMatrix)
    (basis : state.basis = tableau.basis) (mayExchange : Bool) :
    BigM.leastNegative 0
        ((exactOfForm form sense cap).examine mayExchange state).reducedCosts =
      BigM.leastNegative 0
        ((List.finRange form.numColumns).map fun j => (j, tableau.objectiveEntry j)) := by
  have entries : ((List.finRange form.numColumns).filter fun j =>
        !tableau.basis.toList.contains j).map (fun j => (j, tableau.objectiveEntry j)) =
      ((List.finRange form.numColumns).map fun j => (j, tableau.objectiveEntry j)).filter
        fun entry => !tableau.basis.toList.contains entry.1 := by
    rw [List.filter_map]
    rfl
  rw [reducedCosts_examine represents basis, entries]
  refine BigM.leastNegative_filter _ _ fun entry member dropped => ?_
  obtain ⟨j, _, rfl⟩ := List.mem_map.1 member
  have basic : j ∈ tableau.basis.toList := by simpa using dropped
  obtain ⟨row, inRange, same⟩ := List.mem_iff_getElem.1 basic
  have position : tableau.basis.get ⟨row, by simpa using inRange⟩ = j := by
    simpa [Vector.get] using same
  rw [← position]
  exact represents.objectiveEntry_basis _

/-- The ratios of the revised method are those of the tableau. -/
theorem ratios_eq (represents : tableau.Represents form state.inverse.toMatrix)
    (column : Fin form.numColumns) :
    ratios 0 (state.inverse.mulVec (form.a.column column)) (state.inverse.mulVec form.b) =
      tableau.ratios 0 column := by
  refine vector_ext_get fun row => ?_
  rw [Tableau.get_ratios, ratios, get_vectorOfFn, mulVec_column represents,
    get_mulVec_rhs represents, Tableau.column, get_vectorOfFn]

/-- The update of the inverse follows the pivot. -/
theorem exchange_represents (represents : tableau.Represents form state.inverse.toMatrix)
    {row : Fin form.numRows} {column : Fin form.numColumns}
    (pivotNonzero : tableau.entry row column ≠ 0) :
    (tableau.pivot 0 row column).Represents form
      (exchange state column (tableau.column column) row).inverse.toMatrix := by
  have direction : (tableau.column column).get = fun i => tableau.entry i column :=
    funext fun i => get_vectorOfFn _ i
  rw [exchange, toMatrix_updateInverse, direction]
  exact represents.pivot pivotNonzero

end RevisedSimplex

/-- The scan of the revised method for the least ratio is that of the steepest rule. -/
theorem PivotRule.scanned_dantzig {m n : Nat} (basis : Vector (Fin n) m)
    (ratios : Vector (Option Rat) m) :
    dantzig.scanned basis ratios = RevisedSimplex.leastRatio ratios := by
  refine congrArg (fun step => (List.finRange m).foldl step none)
    (funext fun found => funext fun row => ?_)
  cases ratios.get row with
  | none => rfl
  | some ratio =>
    cases found with
    | none => rfl
    | some held =>
      exact if_congr (prefers_dantzig_iff le_rfl) rfl rfl

/-- The steepest rule enters the column with the least entry of the objective row. -/
theorem PivotRule.entering_dantzig {m n : Nat} (tolerance : Rat) (tableau : Tableau Rat m n) :
    dantzig.entering tolerance tableau.objectiveRow = (BigM.leastNegative tolerance
      ((List.finRange n).map fun j => (j, tableau.objectiveEntry j))).map Prod.fst := by
  simp only [entering, Tableau.objectiveRow, get_vectorOfFn]

/-- Without tolerance the steepest rule takes the row with the least ratio. -/
theorem PivotRule.leaving_dantzig {m n : Nat} (basis : Vector (Fin n) m)
    (ratios : Vector (Option Rat) m) :
    dantzig.leaving 0 basis ratios = (RevisedSimplex.leastRatio ratios).map Prod.fst := by
  rw [leaving_eq_scanned, scanned_dantzig]

/-! ### Two runs in step -/

theorem forall₂_push {β γ : Type} {related : β → γ → Prop} {left : Array β} {right : Array γ}
    (agree : List.Forall₂ related left.toList right.toList) {leftLast : β} {rightLast : γ}
    (last : related leftLast rightLast) :
    List.Forall₂ related (left.push leftLast).toList (right.push rightLast).toList := by
  rw [Array.toList_push, Array.toList_push]
  exact List.rel_append agree (.cons last .nil)

namespace RevisedDecision

variable {α : Type} {m n : Nat} {decision : RevisedDecision α m n}

theorem leaving?_eq_none (stopped : decision.entering? = none) : decision.leaving? = none := by
  cases decision with
  | exchange => cases stopped
  | _ => rfl

theorem ratios?_eq_none (stopped : decision.entering? = none) : decision.ratios? = none := by
  cases decision with
  | optimal | notConverged => rfl
  | unbounded | exchange => cases stopped

end RevisedDecision

namespace RevisedSimplex

variable {form : StandardForm Rat} {sense : Sense} {cap remaining : Nat} {run : Run form}
  {state : RevisedState Rat form.numRows form.numColumns}

/-- A run of the tableau method that goes on, and a state of the revised method, with the same
number of exchanges left to both. -/
structure Coupled (remaining : Nat) (run : Run form)
    (state : RevisedState Rat form.numRows form.numColumns) : Prop where
  exact : run.Exact
  rule : run.solver.rule = .dantzig
  running : run.status = none
  room : run.solver.maxIterations = run.iterations + remaining
  represents : run.tableau.Represents form state.inverse.toMatrix
  basis : state.basis = run.tableau.basis
  iteration : state.iteration = run.iterations
  size : run.earlierSteps.size = run.iterations
  unmarked : run.lastStep.pivot = none
  noRatios : run.lastStep.ratios = none

namespace Coupled

variable (coupled : Coupled remaining run state)

include coupled

theorem entering_eq : run.entering? = (BigM.leastNegative 0
    ((List.finRange form.numColumns).map fun j => (j, run.tableau.objectiveEntry j))).map
      Prod.fst := by
  unfold Run.entering?
  rw [coupled.rule, coupled.exact.tolerance, PivotRule.entering_dantzig]

theorem ratiosOf_eq (column : Fin form.numColumns) :
    run.ratiosOf column = run.tableau.ratios 0 column := by
  unfold Run.ratiosOf
  rw [coupled.exact.tolerance]

theorem leaving_eq (column : Fin form.numColumns) :
    run.leaving? column = (leastRatio (run.ratiosOf column)).map Prod.fst := by
  unfold Run.leaving?
  rw [coupled.rule, coupled.exact.tolerance, PivotRule.leaving_dantzig]

variable (sense cap)

/-- No column enters, so the revised method decides that its basis is optimal. -/
theorem decision_of_stopped (stopped : run.entering? = none) (mayExchange : Bool) :
    ((exactOfForm form sense cap).examine mayExchange state).decision =
      .optimal := by
  rw [coupled.entering_eq] at stopped
  have least : BigM.leastNegative 0
      ((exactOfForm form sense cap).examine mayExchange state).reducedCosts = none :=
    (leastNegative_examine coupled.represents coupled.basis mayExchange).trans
      (Option.map_eq_none_iff.1 stopped)
  exact decision_of_none least

/-- The column that enters has the least price of the revised method, its entry of the objective
row. -/
theorem leastNegative_of_entered {column : Fin form.numColumns}
    (entered : run.entering? = some column) (mayExchange : Bool) :
    BigM.leastNegative 0
        ((exactOfForm form sense cap).examine mayExchange state).reducedCosts =
      some (column, run.tableau.objectiveEntry column) := by
  rw [coupled.entering_eq] at entered
  obtain ⟨⟨_, price⟩, found, rfl⟩ := Option.map_eq_some_iff.1 entered
  have chosen := BigM.leastNegative_isLeast ((List.finRange form.numColumns).map fun j =>
    (j, run.tableau.objectiveEntry j))
  rw [found] at chosen
  obtain ⟨j, _, same⟩ := List.mem_map.1 chosen.1
  cases same
  exact (leastNegative_examine coupled.represents coupled.basis mayExchange).trans found

theorem decision_of_capped {column : Fin form.numColumns}
    (entered : run.entering? = some column) :
    ((exactOfForm form sense cap).examine false state).decision =
      .notConverged :=
  decision_of_some (coupled.leastNegative_of_entered sense cap entered false)

theorem ratios_of_state (column : Fin form.numColumns) :
    ratios 0 (state.inverse.mulVec (form.a.column column)) (state.inverse.mulVec form.b) =
      run.ratiosOf column :=
  (ratios_eq coupled.represents column).trans (coupled.ratiosOf_eq column).symm

theorem decision_of_stuck {column : Fin form.numColumns}
    (entered : run.entering? = some column) (stuck : run.leaving? column = none) :
    ((exactOfForm form sense cap).examine true state).decision =
      .unbounded column (run.tableau.column column) (run.ratiosOf column) := by
  rw [coupled.leaving_eq] at stuck
  exact (decision_of_some (coupled.leastNegative_of_entered sense cap entered true)).trans
    (exchangeOrUnbounded_of_none (mulVec_column coupled.represents column)
      (coupled.ratios_of_state column) (Option.map_eq_none_iff.1 stuck))

theorem decision_of_left {column : Fin form.numColumns} {row : Fin form.numRows}
    (entered : run.entering? = some column) (left : run.leaving? column = some row) :
    ∃ theta, (run.ratiosOf column).get row = some theta ∧
      ((exactOfForm form sense cap).examine true state).decision =
        .exchange column (run.tableau.objectiveEntry column) (run.tableau.column column)
          (run.ratiosOf column) row theta := by
  rw [coupled.leaving_eq] at left
  obtain ⟨⟨_, theta⟩, found, rfl⟩ := Option.map_eq_some_iff.1 left
  have chosen := PivotRule.dantzig.scanned_isLeast run.tableau.basis (run.ratiosOf column)
  rw [PivotRule.scanned_dantzig, found] at chosen
  exact ⟨theta, chosen.1,
    (decision_of_some (coupled.leastNegative_of_entered sense cap entered true)).trans
      (exchangeOrUnbounded_of_some (mulVec_column coupled.represents column)
        (coupled.ratios_of_state column) found)⟩

variable {sense cap}

/-- At a basis where no exchange is made, the last step of the run and the iteration of the
revised method agree. -/
theorem agrees_lastStep (canonical : form.Canonical) (mayExchange : Bool)
    (decided : ((exactOfForm form sense cap).examine mayExchange
      state).decision.leaving? = none) :
    run.lastStep.Agrees ((exactOfForm form sense cap).examine mayExchange state) where
  mirrors := examine_mirrors canonical coupled.represents coupled.basis mayExchange
  exchange pivot marked := by
    rw [coupled.unmarked] at marked
    cases marked
  noExchange _ := decided

omit coupled

/-- A pivot and the exchange of the revised method leave both runs coupled. -/
theorem pivotAt (coupled : Coupled (remaining + 1) run state) {column : Fin form.numColumns}
    {row : Fin form.numRows} (left : run.leaving? column = some row) :
    Coupled remaining (run.pivotAt ⟨row, column, run.ratiosOf column⟩).2
      (exchange state column (run.tableau.column column) row) where
  exact := coupled.exact.pivotAt coupled.running left
  rule := coupled.rule
  running := coupled.running
  room := coupled.room.trans (Nat.add_right_comm run.iterations remaining 1)
  represents := by
    rw [coupled.exact.tableau_pivotAt]
    exact exchange_represents coupled.represents (coupled.exact.entry_pos_of_left left).ne'
  basis := congrArg (fun basis => replaceEntry basis row column) coupled.basis
  iteration := congrArg (· + 1) coupled.iteration
  size := Array.size_push _ |>.trans (congrArg (· + 1) coupled.size)
  unmarked := rfl
  noRatios := rfl

end Coupled

/-! ### The ends of two runs -/

theorem isArtificial_ofForm (canonical : form.Canonical) (column : Fin form.numColumns) :
    (exactOfForm form sense cap).isArtificial column = form.isArtificial column := by
  have penalty : ((form.costs.map fun cost => -cost).get column).penalty =
      if form.isArtificial column then 1 else 0 := by
    rw [get_vectorMap, BigM.penalty_neg, canonical.penalty]
    split
    · exact neg_neg 1
    · exact neg_zero
  refine (congrArg (fun penalty : Rat => decide (0 < penalty)) penalty).trans ?_
  cases form.isArtificial column with
  | true => exact decide_eq_true one_pos
  | false => exact decide_eq_false (lt_irrefl 0)

variable {revised : RevisedStep Rat form.numRows form.numColumns}

theorem hasPositiveArtificial_of_mirrors (canonical : form.Canonical) (exact : run.Exact)
    (mirrors : revised.Mirrors run.tableau) :
    (exactOfForm form sense cap).hasPositiveArtificial revised =
      run.hasPositiveArtificial := by
  unfold Run.hasPositiveArtificial
  rw [exact.tolerance]
  refine congrArg (fun test => (List.finRange form.numRows).any test) (funext fun row => ?_)
  refine congrArg₂ and ((isArtificial_ofForm canonical _).trans ?_) ?_
  · exact congrArg (fun basis => form.isArtificial (basis.get row)) mirrors.basis
  · exact congrArg (fun level : Rat => decide (0 < level)) (mirrors.levels row)

theorem levelOf_eq_valueOf {m n : Nat} {revised : RevisedStep Rat m n} {tableau : Tableau Rat m n}
    (basis : revised.basis = tableau.basis)
    (levels : ∀ row, revised.levels.get row = tableau.rhs row) (number : Nat) :
    levelOf revised number = tableau.valueOf number := by
  unfold levelOf Tableau.valueOf Tableau.basicRow?
  rw [basis, funext levels]

/-- An optimal decision is reported as the tableau run reports it. -/
theorem outcomeOf_of_optimal (canonical : form.Canonical) (exact : run.Exact)
    (mirrors : revised.Mirrors run.tableau) (decided : revised.decision = .optimal) :
    (exactOfForm form run.sense cap).outcomeOf revised =
      if run.hasPositiveArtificial then .infeasible
      else .optimal run.values run.objectiveValue := by
  have positive : (exactOfForm form run.sense cap).hasPositiveArtificial revised =
      run.hasPositiveArtificial := hasPositiveArtificial_of_mirrors canonical exact mirrors
  have values : (List.range form.numVars).map (levelOf revised) = run.values :=
    congrArg (fun level => (List.range form.numVars).map level)
      (funext (levelOf_eq_valueOf mirrors.basis mirrors.levels))
  unfold outcomeOf
  rw [decided]
  refine if_congr (by rw [positive]) rfl (congrArg₂ Outcome.optimal values ?_)
  unfold Run.objectiveValue
  generalize run.sense = sense
  cases sense with
  | maximize =>
    show -revised.objective.value = run.tableau.objective.value
    rw [mirrors.objective, BigM.value_neg, neg_neg]
  | minimize =>
    show revised.objective.value = -run.tableau.objective.value
    rw [mirrors.objective, BigM.value_neg]

theorem outcomeOf_of_unbounded {column : Fin form.numColumns} {direction : Vector Rat form.numRows}
    {ratios : Vector (Option Rat) form.numRows}
    (decided : revised.decision = .unbounded column direction ratios) :
    (exactOfForm form sense cap).outcomeOf revised = .unbounded sense := by
  unfold outcomeOf
  rw [decided]
  rfl

theorem outcomeOf_of_notConverged (decided : revised.decision = .notConverged) :
    (exactOfForm form sense cap).outcomeOf revised = .notConverged := by
  unfold outcomeOf
  rw [decided]

/-- The two methods ran in lockstep: they made the same exchanges at bases where they held the
same, and ended after as many of them with the same last look at a column and its ratios. -/
structure InLockstep (run : Run form)
    (earlier : Array (RevisedStep Rat form.numRows form.numColumns))
    (final : RevisedStep Rat form.numRows form.numColumns) : Prop where
  steps : List.Forall₂ Step.Agrees (run.steps.take (run.iterations + 1))
    (earlier.toList ++ [final])
  mirrors : final.Mirrors run.tableau
  iterations : final.iteration = run.iterations
  entering : ∀ column, final.decision.entering? = some column → run.entering? = some column
  ratios : final.decision.ratios? = run.lastStep.ratios

namespace Coupled

variable {earlier : Array (RevisedStep Rat form.numRows form.numColumns)}

/-- Up to the last pivot the steps of a run are those before it and the one it stands at. -/
theorem forall₂_steps (coupled : Coupled remaining run state)
    (agree : List.Forall₂ Step.Agrees run.earlierSteps.toList earlier.toList)
    (last : run.lastStep.Agrees revised)
    (later : List (Step Rat form.numRows form.numColumns)) :
    List.Forall₂ Step.Agrees
      ((run.earlierSteps.toList ++ [run.lastStep] ++ later).take (run.iterations + 1))
      (earlier.toList ++ [revised]) := by
  have length : (run.earlierSteps.toList ++ [run.lastStep]).length = run.iterations + 1 := by
    rw [List.length_append, Array.length_toList, coupled.size]
    rfl
  rw [List.take_left' length]
  exact List.rel_append agree (.cons last .nil)

/-- Both methods stop without a look at a column. -/
theorem inLockstep_finish (canonical : form.Canonical) (coupled : Coupled remaining run state)
    (agree : List.Forall₂ Step.Agrees run.earlierSteps.toList earlier.toList)
    (status : Status) (mayExchange : Bool)
    (stopped : ((exactOfForm form sense cap).examine mayExchange
      state).decision.entering? = none) :
    InLockstep (run.finish status).2 earlier
      ((exactOfForm form sense cap).examine mayExchange state) := by
  have last :=
    coupled.agrees_lastStep canonical mayExchange (RevisedDecision.leaving?_eq_none stopped)
  refine ⟨?_, last.mirrors, coupled.iteration, fun column entered => ?_, ?_⟩
  · have steps := coupled.forall₂_steps agree last []
    rwa [List.append_nil] at steps
  · have both : none = some column := stopped.symm.trans entered
    cases both
  · exact (RevisedDecision.ratios?_eq_none stopped).trans coupled.noRatios.symm

/-- Both methods see a column that can grow without limit. -/
theorem inLockstep_unbounded (canonical : form.Canonical) (coupled : Coupled remaining run state)
    (agree : List.Forall₂ Step.Agrees run.earlierSteps.toList earlier.toList)
    {column : Fin form.numColumns} (entered : run.entering? = some column)
    (stuck : run.leaving? column = none) :
    InLockstep ((run.showUnbounded (run.ratiosOf column)).finish .unbounded).2 earlier
      ((exactOfForm form sense cap).examine true state) := by
  have decided := coupled.decision_of_stuck sense cap entered stuck
  have last := coupled.agrees_lastStep canonical true (congrArg RevisedDecision.leaving? decided)
  refine ⟨?_, last.mirrors, coupled.iteration, fun other looked => ?_, ?_⟩
  · have steps := coupled.forall₂_steps agree last
      [⟨run.tableau, .unbounded (run.ratiosOf column), none⟩]
    show List.Forall₂ _ (((run.earlierSteps.push run.lastStep).toList ++ _).take _) _
    rw [Array.toList_push]
    exact steps
  · have same : some column = some other :=
      (congrArg RevisedDecision.entering? decided).symm.trans looked
    exact entered.trans same
  · exact congrArg RevisedDecision.ratios? decided

/-- No column enters, and both methods stop with the same outcome. -/
theorem ends_of_stopped (canonical : form.Canonical) (coupled : Coupled remaining run state)
    (agree : List.Forall₂ Step.Agrees run.earlierSteps.toList earlier.toList)
    (stopped : run.entering? = none) (mayExchange : Bool) :
    InLockstep (run.finish (if run.hasPositiveArtificial then .infeasible else .optimal)).2
        earlier ((exactOfForm form run.sense cap).examine mayExchange state) ∧
      (exactOfForm form run.sense cap).outcomeOf
          ((exactOfForm form run.sense cap).examine mayExchange state) =
        (run.finish (if run.hasPositiveArtificial then .infeasible else .optimal)).2.outcome := by
  have decided := coupled.decision_of_stopped run.sense cap stopped mayExchange
  refine ⟨coupled.inLockstep_finish canonical agree _ mayExchange
    (congrArg RevisedDecision.entering? decided), ?_⟩
  refine (outcomeOf_of_optimal canonical coupled.exact
    (examine_mirrors canonical coupled.represents coupled.basis mayExchange) decided).trans ?_
  cases run.hasPositiveArtificial <;> rfl

/-- A pivot and the exchange of the revised method add two steps that agree. -/
theorem agrees_pivotAt (canonical : form.Canonical) (coupled : Coupled remaining run state)
    {column : Fin form.numColumns} {row : Fin form.numRows} {theta : Rat}
    (present : (run.ratiosOf column).get row = some theta)
    (decided : ((exactOfForm form sense cap).examine true state).decision =
      .exchange column (run.tableau.objectiveEntry column) (run.tableau.column column)
        (run.ratiosOf column) row theta) :
    Step.Agrees { run.lastStep with pivot := some ⟨row, column, run.ratiosOf column⟩ }
      ((exactOfForm form sense cap).examine true state) where
  mirrors := examine_mirrors canonical coupled.represents coupled.basis true
  exchange pivot marked := by
    cases marked
    exact ⟨theta, present, decided⟩
  noExchange unmarked := nomatch unmarked

/-- From two coupled states the methods go on in lockstep and come to the same outcome. -/
theorem inLockstep (cap : Nat) (canonical : form.Canonical) (coupled : Coupled remaining run state)
    (agree : List.Forall₂ Step.Agrees run.earlierSteps.toList earlier.toList) :
    ∃ all final, (exactOfForm form run.sense cap).iterate remaining earlier state =
        (all, final) ∧
      InLockstep (run.afterSteps (remaining + 1)) all final ∧
      (exactOfForm form run.sense cap).outcomeOf final =
        (run.afterSteps (remaining + 1)).outcome := by
  induction remaining generalizing run state earlier with
  | zero =>
    have atCap : run.solver.maxIterations = run.iterations := coupled.room
    refine ⟨_, _, rfl, ?_⟩
    rw [Run.afterSteps, Run.afterSteps]
    have made := run.stepOf_step
    generalize run.step = result at made ⊢
    cases made with
    | idle status ended =>
      rw [coupled.running] at ended
      cases ended
    | settled running stopped => exact coupled.ends_of_stopped canonical agree stopped false
    | capped column running entered reached =>
      have decided := coupled.decision_of_capped run.sense cap entered
      exact ⟨coupled.inLockstep_finish canonical agree _ false
        (congrArg RevisedDecision.entering? decided), outcomeOf_of_notConverged decided⟩
    | unbounded column running entered below stuck =>
      exact absurd below (Nat.not_lt_of_ge atCap.le)
    | pivoted column row running entered below left =>
      exact absurd below (Nat.not_lt_of_ge atCap.le)
  | succ remaining inductionHypothesis =>
    rw [Run.afterSteps]
    have made := run.stepOf_step
    generalize run.step = result at made ⊢
    cases made with
    | idle status ended =>
      rw [coupled.running] at ended
      cases ended
    | settled running stopped =>
      have decided := coupled.decision_of_stopped run.sense cap stopped true
      rw [Run.afterSteps_of_ended rfl]
      exact ⟨_, _, iterate_of_leaving_eq_none (congrArg RevisedDecision.leaving? decided),
        coupled.ends_of_stopped canonical agree stopped true⟩
    | capped column running entered reached =>
      have room := coupled.room
      omega
    | unbounded column running entered below stuck =>
      have decided := coupled.decision_of_stuck run.sense cap entered stuck
      rw [Run.afterSteps_of_ended rfl]
      exact ⟨_, _, iterate_of_leaving_eq_none (congrArg RevisedDecision.leaving? decided),
        coupled.inLockstep_unbounded canonical agree entered stuck,
        outcomeOf_of_unbounded decided⟩
    | pivoted column row running entered below left =>
      obtain ⟨theta, present, decided⟩ :=
        coupled.decision_of_left run.sense cap entered left
      have step := coupled.agrees_pivotAt canonical present decided
      obtain ⟨all, final, iterated, ends⟩ := inductionHypothesis (coupled.pivotAt left)
        (forall₂_push agree step)
      exact ⟨all, final, (iterate_of_exchange decided).trans iterated, ends⟩

end Coupled

/-- Two runs from the first basis are coupled. -/
theorem initial_coupled (canonical : form.Canonical) (sense : Sense) (cap : Nat) :
    Coupled cap (Run.initial (Solver.exactDantzig cap) sense form)
      ⟨0, form.initialBasis, .identity⟩ where
  exact := Run.initial_exact canonical rfl sense
  rule := rfl
  running := rfl
  room := (Nat.zero_add cap).symm
  represents := by
    rw [DenseMatrix.toMatrix_identity]
    exact Tableau.initial_represents canonical
  basis := rfl
  iteration := rfl
  size := rfl
  unmarked := rfl
  noRatios := rfl

theorem ofProblem_eq {problem : Problem Rat} (valid : problem.Valid) :
    ofProblem problem = .ok (ofForm (.ofProblem problem valid) problem.sense) := by
  unfold ofProblem
  rw [problem.validate_of_valid valid]
  rfl

end RevisedSimplex

/-- The tableau method and the revised method run in lockstep. Without tolerance and with one cap
both solve a valid problem, hold the same and make the same exchanges up to the end, and come to
the same outcome after the same number of them. -/
theorem solve_inLockstep (cap : Nat) (problem : Problem Rat) (valid : problem.Valid) :
    ∃ (run : Run (.ofProblem problem valid)) (earlier : Array (RevisedStep Rat _ _))
      (final : RevisedStep Rat _ _),
      (Solver.exactDantzig cap).solve problem = .ok run.solution ∧
        (RevisedSimplex.ofProblem problem).map
            (fun engine => (engine.withoutTolerance cap).solve) =
          .ok ⟨_, _, (StandardForm.ofProblem problem valid).names, earlier, final,
            run.outcome⟩ ∧
        RevisedSimplex.InLockstep run earlier final := by
  have canonical := StandardForm.canonical_ofProblem valid
  have coupled := RevisedSimplex.initial_coupled canonical problem.sense cap
  have noSteps : List.Forall₂ Step.Agrees
      (Run.initial (.exactDantzig cap) problem.sense (.ofProblem problem valid)).earlierSteps.toList
      (#[] : Array (RevisedStep Rat _ _)).toList := .nil
  have solved : (Solver.exactDantzig cap).solve problem = .ok ((Run.initial (.exactDantzig cap)
      problem.sense (.ofProblem problem valid)).afterSteps (cap + 1)).solution :=
    Solver.solve_eq_afterSteps _ valid
  obtain ⟨earlier, final, iterated, lockstep, outcome⟩ := coupled.inLockstep cap canonical noSteps
  refine ⟨_, earlier, final, solved, ?_, lockstep⟩
  rw [RevisedSimplex.ofProblem_eq valid, ← outcome]
  exact congrArg Except.ok (RevisedSimplex.solve_of_iterate iterated)

/-- The statement at a problem that is solved to an optimal end after some exchanges. -/
theorem solve_inLockstep_mixedProblem :
    mixedProblem.Valid ∧
      ∃ (run : Run (.ofProblem mixedProblem mixedProblem_valid))
        (earlier : Array (RevisedStep Rat _ _)) (final : RevisedStep Rat _ _),
        (Solver.exactDantzig 5).solve mixedProblem = .ok run.solution ∧
          (RevisedSimplex.ofProblem mixedProblem).map
              (fun engine => (engine.withoutTolerance 5).solve) =
            .ok ⟨_, _, (StandardForm.ofProblem mixedProblem mixedProblem_valid).names, earlier,
              final, run.outcome⟩ ∧
          RevisedSimplex.InLockstep run earlier final :=
  ⟨mixedProblem_valid, solve_inLockstep 5 mixedProblem mixedProblem_valid⟩

end LinearProgramming
