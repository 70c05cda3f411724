/-
This file proves that the symbolic penalty behaves like every large enough number.

A number `value + penalty * M` becomes plain when a number takes the place of `M`. Two numbers are
then compared as before as soon as that number is large enough, how large depends on the two. A
run compares finitely many numbers, and what it compares does not depend on the number taken, so
from some bound on the run with plain costs makes the same choices at every iteration, and every
number that it records is the plain one.
-/

import Mathlib
import LinearProgramming.Proofs.Lockstep

namespace LinearProgramming

open Filter

/-! ### Plain numbers -/

namespace BigM

/-- The number without penalty that `value + penalty * M` is when `M` has a given size. -/
def plainAt (size : Rat) (number : BigM Rat) : BigM Rat :=
  .ofScalar (number.value + number.penalty * size)

/-- Taking plain numbers is linear. -/
def plainMap (size : Rat) : BigM Rat →ₗ[Rat] BigM Rat where
  toFun := plainAt size
  map_add' left right := ext_parts (by simp [plainAt]; ring) (by simp [plainAt])
  map_smul' factor number := ext_parts (by simp [plainAt]; ring) (by simp [plainAt])

theorem plainAt_zero (size : Rat) : plainAt size 0 = 0 := (plainMap size).map_zero

theorem plainAt_sub (size : Rat) (left right : BigM Rat) :
    plainAt size (left - right) = plainAt size left - plainAt size right :=
  (plainMap size).map_sub left right

theorem plainAt_lt_iff {size : Rat} {left right : BigM Rat} :
    plainAt size left < plainAt size right ↔
      left.value + left.penalty * size < right.value + right.penalty * size := by
  rw [lt_iff]
  simp [plainAt]

/-- The scalar product of plain costs is plain. -/
theorem dot_map_plainAt {n : Nat} (size : Rat) (costs : Vector (BigM Rat) n)
    (levels : Vector Rat n) :
    dot (costs.map (plainAt size)).toList levels.toList =
      plainAt size (dot costs.toList levels.toList) := by
  rw [dot_toList, dot_toList]
  refine Eq.trans ?_ (map_sum (plainMap size) _ _).symm
  refine Finset.sum_congr rfl fun i _ => ?_
  rw [get_vectorMap]
  exact ((plainMap size).map_smul _ _).symm

/-! ### Comparisons with a large size -/

/-- A number with the smaller penalty is smaller from some size on. -/
theorem eventually_plainAt_lt {left right : BigM Rat} (penalties : left.penalty < right.penalty) :
    ∀ᶠ size in atTop, plainAt size left < plainAt size right := by
  have apart : 0 < right.penalty - left.penalty := sub_pos.2 penalties
  filter_upwards [eventually_gt_atTop ((left.value - right.value) /
    (right.penalty - left.penalty))] with size large
  rw [div_lt_iff₀ apart] at large
  rw [plainAt_lt_iff]
  linarith

/-- From some size on two plain numbers are ordered as the numbers they stand for. -/
theorem eventually_plainAt_lt_iff (left right : BigM Rat) :
    ∀ᶠ size in atTop, (plainAt size left < plainAt size right ↔ left < right) := by
  rcases lt_trichotomy left.penalty right.penalty with below | same | above
  · filter_upwards [eventually_plainAt_lt below] with size smaller
    exact iff_of_true smaller (lt_iff.2 (Or.inl below))
  · refine Eventually.of_forall fun size => ?_
    rw [plainAt_lt_iff, lt_iff, same]
    simp
  · filter_upwards [eventually_plainAt_lt above] with size larger
    exact iff_of_false larger.asymm (lt_iff.2 (Or.inl above)).asymm

variable {ι : Type}

/-- An entry of a row with its number made plain. -/
def plainEntry (size : Rat) (entry : ι × BigM Rat) : ι × BigM Rat :=
  (entry.1, plainAt size entry.2)

theorem threshold_map_plainEntry (size : Rat) (found : Option (ι × BigM Rat)) :
    threshold (found.map (plainEntry size)) = plainAt size (threshold found) := by
  cases found with
  | none => exact (plainAt_zero size).symm
  | some entry => rfl

/-- From some size on a scan of plain numbers ends with the same entry. -/
theorem eventually_leastNegative_plainEntry (entries : List (ι × BigM Rat)) :
    ∀ᶠ size in atTop, leastNegative 0 (entries.map (plainEntry size)) =
      (leastNegative 0 entries).map (plainEntry size) := by
  induction entries using List.reverseRecOn with
  | nil => exact Eventually.of_forall fun size => rfl
  | append_singleton seen entry inductionHypothesis =>
    -- the scan of the seen entries holds a number that is known before the size is chosen
    filter_upwards [inductionHypothesis,
      eventually_plainAt_lt_iff entry.2 (threshold (leastNegative 0 seen))] with size held order
    have scan : ∀ (scanned : List (ι × BigM Rat)) (next : ι × BigM Rat),
        leastNegative 0 (scanned ++ [next]) =
          if next.2 < threshold (leastNegative 0 scanned) then some next
          else leastNegative 0 scanned := by
      intro scanned next
      unfold leastNegative
      rw [List.foldl_append]
      exact if_congr (lessWithin_zero_iff _ _) rfl rfl
    rw [List.map_append, List.map_singleton, scan, scan, held, threshold_map_plainEntry,
      apply_ite (Option.map (plainEntry size))]
    exact if_congr order rfl rfl

end BigM

/-! ### Plain steps -/

section Steps

variable {m n : Nat}

/-- The decision with its reduced cost made plain. -/
def RevisedDecision.plainAt (size : Rat) : RevisedDecision Rat m n → RevisedDecision Rat m n
  | exchange entering reducedCost direction ratios leaving theta =>
    exchange entering (reducedCost.plainAt size) direction ratios leaving theta
  | decision => decision

/-- The iteration with its costs, reduced costs and objective made plain. Basis, inverse, levels
and the columns, rows and ratios of the decision stay. -/
def RevisedStep.plainAt (size : Rat) (step : RevisedStep Rat m n) : RevisedStep Rat m n where
  iteration := step.iteration
  basis := step.basis
  inverse := step.inverse
  levels := step.levels
  basicCosts := step.basicCosts.map (BigM.plainAt size)
  reducedCosts := step.reducedCosts.map (BigM.plainEntry size)
  objective := step.objective.plainAt size
  decision := step.decision.plainAt size

end Steps

/-- The run with its iterations made plain. A plain run has names for its columns and an outcome of
its own, since it knows of no artificial columns. -/
def RevisedSolution.plainAt (solution : RevisedSolution Rat) (size : Rat)
    (names : Vector String solution.numColumns) (outcome : Outcome Rat) : RevisedSolution Rat where
  numRows := solution.numRows
  numColumns := solution.numColumns
  names := names
  earlierSteps := solution.earlierSteps.map (RevisedStep.plainAt size)
  finalStep := solution.finalStep.plainAt size
  outcome := outcome

namespace RevisedSimplex

/-- The method on the same data with plain costs, as raw data that reports every unknown. -/
abbrev plainAt (size : Rat) (engine : RevisedSimplex Rat) : RevisedSimplex Rat :=
  { engine with
    names := Vector.ofFn fun j => s!"x{j.val + 1}"
    costs := engine.costs.map (BigM.plainAt size)
    numVars := engine.numColumns
    sense := .minimize }

variable {engine : RevisedSimplex Rat} {size : Rat}

theorem basicCosts_plainAt (basis : Vector (Fin engine.numColumns) engine.numRows) :
    basis.map (engine.plainAt size).costs.get =
      (basis.map engine.costs.get).map (BigM.plainAt size) := by
  refine vector_ext_get fun row => ?_
  simp only [get_vectorMap]

theorem reducedCosts_plainAt (inverse : DenseMatrix Rat engine.numRows engine.numRows)
    (basis : Vector (Fin engine.numColumns) engine.numRows)
    (basicCosts : Vector (BigM Rat) engine.numRows) :
    (engine.plainAt size).reducedCosts inverse basis (basicCosts.map (BigM.plainAt size)) =
      (engine.reducedCosts inverse basis basicCosts).map (BigM.plainEntry size) := by
  unfold reducedCosts
  rw [List.map_map]
  refine List.map_congr_left fun j _ => Prod.ext rfl ?_
  refine Eq.trans ?_ (BigM.plainAt_sub size _ _).symm
  exact congrArg₂ (· - ·) (get_vectorMap _ _ j) (BigM.dot_map_plainAt size basicCosts _)

theorem exchangeOrUnbounded_plainAt (inverse : DenseMatrix Rat engine.numRows engine.numRows)
    (levels : Vector Rat engine.numRows) (entering : Fin engine.numColumns)
    (reducedCost : BigM Rat) :
    (engine.plainAt size).exchangeOrUnbounded inverse levels entering (reducedCost.plainAt size) =
      (engine.exchangeOrUnbounded inverse levels entering reducedCost).plainAt size := by
  unfold exchangeOrUnbounded
  dsimp only
  split <;> rfl

/-- From some size on the iteration with plain costs is the plain iteration. -/
theorem eventually_examine_plainAt (exact : engine.tolerance = 0) (mayExchange : Bool)
    (state : RevisedState Rat engine.numRows engine.numColumns) :
    ∀ᶠ size in atTop, (engine.plainAt size).examine mayExchange state =
      (engine.examine mayExchange state).plainAt size := by
  filter_upwards [BigM.eventually_leastNegative_plainEntry
    (engine.examine mayExchange state).reducedCosts] with size chosen
  rw [← exact] at chosen
  unfold examine at chosen ⊢
  dsimp only [RevisedStep.plainAt] at chosen ⊢
  rw [basicCosts_plainAt, reducedCosts_plainAt, BigM.dot_map_plainAt, chosen]
  congr 1
  cases BigM.leastNegative engine.tolerance
      (engine.reducedCosts state.inverse state.basis (state.basis.map engine.costs.get)) with
  | none => rfl
  | some found =>
    cases mayExchange with
    | false => rfl
    | true => exact exchangeOrUnbounded_plainAt _ _ _ _

/-- From some size on the run with plain costs makes the plain iterations of the run. -/
theorem eventually_iterate_plainAt (exact : engine.tolerance = 0) (remaining : Nat)
    (earlier : Array (RevisedStep Rat engine.numRows engine.numColumns))
    (state : RevisedState Rat engine.numRows engine.numColumns) :
    ∀ᶠ size in atTop,
      (engine.plainAt size).iterate remaining (earlier.map (RevisedStep.plainAt size)) state =
        ((engine.iterate remaining earlier state).1.map (RevisedStep.plainAt size),
          (engine.iterate remaining earlier state).2.plainAt size) := by
  induction remaining generalizing earlier state with
  | zero =>
    filter_upwards [eventually_examine_plainAt exact false state] with size examined
    exact congrArg (Prod.mk _) examined
  | succ remaining inductionHypothesis =>
    cases decided : (engine.examine true state).decision with
    | exchange entering reducedCost direction ratios leaving theta =>
      -- both runs go on from the same state, which holds no costs
      filter_upwards [eventually_examine_plainAt exact true state,
        inductionHypothesis (earlier.push (engine.examine true state))
          (exchange state entering direction leaving)] with size examined followed
      have plain : ((engine.plainAt size).examine true state).decision =
          .exchange entering (reducedCost.plainAt size) direction ratios leaving theta := by
        rw [examined, RevisedStep.plainAt, decided]
        rfl
      rw [iterate_of_exchange decided, iterate_of_exchange plain, examined, ← followed,
        Array.map_push]
    | optimal | notConverged | unbounded =>
      filter_upwards [eventually_examine_plainAt exact true state] with size examined
      have plain : ((engine.plainAt size).examine true state).decision.leaving? = none := by
        rw [examined, RevisedStep.plainAt, decided]
        rfl
      rw [iterate_of_leaving_eq_none plain,
        iterate_of_leaving_eq_none (congrArg RevisedDecision.leaving? decided), examined]

/-! ### Raw data of the right sizes -/

section RawData

variable {α : Type} {m n : Nat}

theorem sized_toList {β : Type} (extent : Extent) (vector : Vector β n) :
    sized extent n vector.toList = .ok vector := by
  have found : vectorOf? n vector.toList = some vector := by
    unfold vectorOf?
    rw [dif_pos vector.length_toList]
    exact congrArg some (Vector.toList_inj.1 rfl)
  unfold sized
  rw [found]

theorem squareInverse_of_square (inverse : DenseMatrix α m m) :
    squareInverse m ⟨m, m, inverse⟩ = .ok inverse := by
  unfold squareInverse
  rw [dif_pos rfl, dif_pos rfl]
  exact congrArg Except.ok (DenseMatrix.ext_get fun i j => DenseMatrix.get_ofFn _ i j)

theorem mapM_columnIndex (basis : Vector (Fin n) m) :
    (basis.map Fin.val).mapM (columnIndex n) = .ok basis := by
  have listed : columnIndex n ∘ Fin.val = fun column : Fin n => pure (id column) :=
    funext fun column => dif_pos column.isLt
  rw [Vector.mapM_map, listed, Vector.mapM_pure, Vector.map_id]
  rfl

/-- Lists that come from data of the right sizes are accepted as that data. -/
theorem ofLists?_toList [Scalar α] (costs : Vector (BigM α) n) (a : DenseMatrix α m n)
    (b : Vector α m) (inverse : DenseMatrix α m m) (basis : Vector (Fin n) m) :
    ofLists? costs.toList ⟨m, n, a⟩ b.toList ⟨m, m, inverse⟩ (basis.map Fin.val).toList =
      .ok (ofData costs a b inverse basis) := by
  unfold ofLists?
  simp only [sized_toList, squareInverse_of_square]
  show (Vector.mapM (columnIndex n) (basis.map Fin.val) >>= _) = _
  rw [mapM_columnIndex]
  rfl

end RawData

end RevisedSimplex

/-! ### A problem with plain costs -/

namespace StandardForm

/-- The costs of a form, to be made small, with a number in place of the penalty. -/
def plainCosts (form : StandardForm Rat) (size : Rat) : Vector (BigM Rat) form.numColumns :=
  Vector.ofFn fun j => if form.isArtificial j then .ofScalar size else -form.costs.get j

/-- The revised method on the equations, the right-hand sides, the identity and the first basis of
a form as raw data, with plain costs. -/
def plainRevised (form : StandardForm Rat) (size : Rat) :
    Except ProblemError (RevisedSimplex Rat) :=
  RevisedSimplex.ofLists? (form.plainCosts size).toList ⟨form.numRows, form.numColumns, form.a⟩
    form.b.toList (.identity form.numRows) (form.initialBasis.map Fin.val).toList

/-- Only the artificial columns have a penalty, and it becomes the number. -/
theorem plainCosts_ofProblem {problem : Problem Rat} (valid : problem.Valid) (size : Rat) :
    (ofProblem problem valid).plainCosts size =
      ((ofProblem problem valid).costs.map fun cost => -cost).map (BigM.plainAt size) := by
  refine vector_ext_get fun j => ?_
  have kind : (ofProblem problem valid).isArtificial j =
      (problem.columnVector.get j).isArtificial := rfl
  rw [get_vectorMap, get_vectorMap, plainCosts, get_vectorOfFn, ofProblem_costs valid j, kind]
  generalize problem.columnVector.get j = column
  cases column with
  | artificial i =>
    exact BigM.ext_parts (by simp [BigM.plainAt, Problem.cost, Column.isArtificial]) rfl
  | decision k | slack i | surplus i =>
    exact BigM.ext_parts (by simp [BigM.plainAt, Problem.cost, Column.isArtificial]) neg_zero

end StandardForm

/-- The symbolic penalty behaves like every large enough number. Without tolerance and with a cap
the revised method solves a valid problem, and for every number from some bound on the method on
the same raw data with that number as the cost of the artificial columns makes the same
iterations: the same bases, columns, rows and ratios, and the plain reduced costs and
objectives. -/
theorem solve_plainRevised (cap : Nat) (problem : Problem Rat) (valid : problem.Valid) :
    ∃ solution, (RevisedSimplex.ofProblem problem).map
        (fun engine => (engine.withoutTolerance cap).solve) = .ok solution ∧
      ∃ bound : Rat, ∀ size, bound ≤ size → ∃ names outcome,
        ((StandardForm.ofProblem problem valid).plainRevised size).map
            (fun engine => (engine.withoutTolerance cap).solve) =
          .ok (solution.plainAt size names outcome) := by
  let form := StandardForm.ofProblem problem valid
  let engine := RevisedSimplex.exactOfForm form problem.sense cap
  refine ⟨engine.solve, ?_, ?_⟩
  · rw [RevisedSimplex.ofProblem_eq valid]
    rfl
  · have exact : engine.tolerance = 0 := rfl
    obtain ⟨bound, large⟩ := eventually_atTop.1 (RevisedSimplex.eventually_iterate_plainAt exact
      cap #[] ⟨0, form.initialBasis, .identity⟩)
    refine ⟨bound, fun size above => ?_⟩
    have accepted : form.plainRevised size = .ok (RevisedSimplex.ofData (form.plainCosts size)
        form.a form.b .identity form.initialBasis) := RevisedSimplex.ofLists?_toList _ _ _ _ _
    have costs : form.plainCosts size = engine.costs.map (BigM.plainAt size) :=
      StandardForm.plainCosts_ofProblem valid size
    have followed := large size above
    rw [Array.map_empty] at followed
    rw [accepted, costs]
    exact ⟨_, _, congrArg Except.ok
      (RevisedSimplex.solve_of_iterate followed)⟩

/-- The statement at a problem with artificial columns that are driven out. -/
theorem solve_plainRevised_mixedProblem :
    mixedProblem.Valid ∧
      ∃ solution, (RevisedSimplex.ofProblem mixedProblem).map
          (fun engine => (engine.withoutTolerance 5).solve) = .ok solution ∧
        ∃ bound : Rat, ∀ size, bound ≤ size → ∃ names outcome,
          ((StandardForm.ofProblem mixedProblem mixedProblem_valid).plainRevised size).map
              (fun engine => (engine.withoutTolerance 5).solve) =
            .ok (solution.plainAt size names outcome) :=
  ⟨mixedProblem_valid, solve_plainRevised 5 mixedProblem mixedProblem_valid⟩

end LinearProgramming
