/-
This file runs the revised method on lists and tables of any size.

An iteration prices every column outside the basis, and for each it looks up a column of the
equations and a cost. It names two columns in its record and overwrites one row of the inverse and
one entry of the basis. The entering column is one of those that were priced and the leaving row is
one of those that have a ratio, so on the parts of an engine no look-up misses, whatever the scalars
compute.
-/

import LinearProgramming.Revised
import LinearProgramming.Proofs.Bounds.Run

namespace LinearProgramming

variable {α : Type}

namespace Bare

/-! ### Records -/

/-- The data and the settings of the revised method. -/
structure Engine (α : Type) where
  names : List String
  costs : List (BigM α)
  a : Table α
  b : List α
  inverse : Table α
  basis : List Nat
  numVars : Nat
  sense : Sense
  maxIterations : Nat
  tolerance : α

/-- A basis with its inverse, reached after a number of exchanges. -/
structure EngineState (α : Type) where
  iteration : Nat
  basis : List Nat
  inverse : Table α

/-- What an iteration decides. -/
inductive Decision (α : Type) where
  | optimal
  | notConverged
  | unbounded (entering : Nat) (direction : List α) (ratios : List (Option α))
  | exchange (entering : Nat) (reducedCost : BigM α) (direction : List α)
      (ratios : List (Option α)) (leaving : Nat) (theta : α)

/-- One iteration, and its decision as a sentence. -/
structure Iteration (α : Type) where
  iteration : Nat
  basis : List Nat
  inverse : Table α
  levels : List α
  basicCosts : List (BigM α)
  reducedCosts : List (Nat × BigM α)
  objective : BigM α
  decision : Decision α
  description : String

/-- A finished run of the revised method. -/
structure EngineSolution (α : Type) where
  names : List String
  iterations : List (Iteration α)
  outcome : Outcome α

variable [Scalar α]

namespace Engine

/-! ### One iteration -/

/-- The columns outside a basis in order with their reduced costs. -/
def reducedCosts? (engine : Engine α) (state : EngineState α) (basicCosts : List (BigM α)) :
    Option (List (Nat × BigM α)) :=
  ((List.range engine.a.columnCount).filter fun j => !state.basis.contains j).mapM fun j => do
    let direction ← state.inverse.mulColumn? engine.a j
    return (j, (← engine.costs[j]?) - BigM.dot basicCosts direction)

/-- The row with the least ratio found so far after one more row is looked at. -/
def consider? (ratios : List (Option α)) (found : Option (Nat × α)) (row : Nat) :
    Option (Option (Nat × α)) := do
  return match ← ratios[row]?, found with
    | none, _ => found
    | some ratio, none => some (row, ratio)
    | some ratio, some (_, least) => if ratio < least then some (row, ratio) else found

/-- The decision for an entering column. -/
def exchangeOrUnbounded? (engine : Engine α) (inverse : Table α) (levels : List α)
    (entering : Nat) (reducedCost : BigM α) : Option (Decision α) := do
  let direction ← inverse.mulColumn? engine.a entering
  let ratios := List.zipWith (fun slope level =>
    if engine.tolerance < slope then some (level / slope) else none) direction levels
  match ← (List.range ratios.length).foldlM (consider? ratios) none with
  | none => return .unbounded entering direction ratios
  | some (leaving, theta) =>
    return .exchange entering reducedCost direction ratios leaving theta

/-- The decision of an iteration with given reduced costs. -/
def decide? (engine : Engine α) (mayExchange : Bool) (inverse : Table α) (levels : List α)
    (reducedCosts : List (Nat × BigM α)) : Option (Decision α) :=
  match BigM.leastNegative engine.tolerance reducedCosts with
  | none => some .optimal
  | some (entering, reducedCost) =>
    if mayExchange then engine.exchangeOrUnbounded? inverse levels entering reducedCost
    else some .notConverged

/-- The decision of an iteration as a sentence, with the names of the columns it is about. -/
def describe? (engine : Engine α) (state : EngineState α) (objective : BigM α) :
    Decision α → Option String
  | .optimal => some ("Optimal: no negative reduced cost, Z = " ++ objective.text)
  | .notConverged => some "Max iterations reached"
  | .unbounded entering _ _ => do
    return "Unbounded: " ++ (← engine.names[entering]?) ++ " can increase without limit"
  | .exchange entering reducedCost _ _ leaving theta => do
    let enteringName ← engine.names[entering]?
    let leavingName ← engine.names[(← state.basis[leaving]?)]?
    return s!"Iteration {state.iteration + 1}: " ++ enteringName ++ " enters (reduced cost " ++
      reducedCost.text ++ "), " ++ leavingName ++ " leaves, θ = " ++ numberText theta

/-- Everything that is known at a basis. -/
def examine? (engine : Engine α) (mayExchange : Bool) (state : EngineState α) :
    Option (Iteration α) := do
  let levels ← state.inverse.mulList? engine.b
  let basicCosts ← state.basis.mapM fun basic => engine.costs[basic]?
  let reducedCosts ← engine.reducedCosts? state basicCosts
  let objective := BigM.dot basicCosts levels
  let decision ← engine.decide? mayExchange state.inverse levels reducedCosts
  let description ← engine.describe? state objective decision
  return ⟨state.iteration, state.basis, state.inverse, levels, basicCosts, reducedCosts, objective,
    decision, description⟩

/-- The inverse after the column with a given direction replaces the basic column of a row. -/
def updateInverse? (inverse : Table α) (direction : List α) (row : Nat) : Option (Table α) :=
  Table.ofReads? inverse.rowCount inverse.columnCount fun i j => do
    let scaled := (← inverse.get? row j) / (← direction[row]?)
    let factor ← direction[i]?
    let entry ← inverse.get? i j
    return if i = row then scaled else if factor == 0 then entry else entry - factor * scaled

/-- The state after an exchange. -/
def exchange? (state : EngineState α) (entering : Nat) (direction : List α) (leaving : Nat) :
    Option (EngineState α) := do
  let inverse ← updateInverse? state.inverse direction leaving
  return ⟨state.iteration + 1, ← setAt? state.basis leaving entering, inverse⟩

/-! ### The run -/

/-- Iterates until a decision ends the run, with at most a given number of exchanges. -/
def iterate? (engine : Engine α) :
    Nat → List (Iteration α) → EngineState α → Option (List (Iteration α) × Iteration α)
  | 0, earlier, state => do return (earlier, ← engine.examine? false state)
  | remaining + 1, earlier, state => do
    let iteration ← engine.examine? true state
    match iteration.decision with
    | .exchange entering _ direction _ leaving _ =>
      engine.iterate? remaining (earlier ++ [iteration])
        (← exchange? state entering direction leaving)
    | _ => return (earlier, iteration)

/-- The level of the unknown with a given number in an iteration. -/
def levelOf? (iteration : Iteration α) (number : Nat) : Option α :=
  match iteration.basis.findIdx? fun basic => basic == number with
  | some row => iteration.levels[row]?
  | none => some 0

/-- An artificial column is basic at a positive level. -/
def hasPositiveArtificial? (engine : Engine α) (iteration : Iteration α) : Option Bool :=
  (List.range iteration.basis.length).anyM fun row => do
    let cost ← engine.costs[(← iteration.basis[row]?)]?
    return engine.tolerance < cost.penalty && engine.tolerance < (← iteration.levels[row]?)

/-- What the last iteration says about the problem. -/
def outcomeOf? (engine : Engine α) (iteration : Iteration α) : Option (Outcome α) :=
  match iteration.decision with
  | .optimal => do
    if ← engine.hasPositiveArtificial? iteration then return .infeasible
    else
      return .optimal (← (List.range engine.numVars).mapM (levelOf? iteration))
        (match engine.sense with
          | .maximize => -iteration.objective.value
          | .minimize => iteration.objective.value)
  | .unbounded _ _ _ => some (.unbounded engine.sense)
  | .notConverged | .exchange _ _ _ _ _ _ => some .notConverged

/-- Runs the method to its end. -/
def solve? (engine : Engine α) : Option (EngineSolution α) := do
  let (earlier, last) ← engine.iterate? engine.maxIterations [] ⟨0, engine.basis, engine.inverse⟩
  return ⟨engine.names, earlier ++ [last], ← engine.outcomeOf? last⟩

/-- The method on a form, whose first basis has the identity as its inverse. -/
def ofForm (form : Form α) (sense : Sense) : Engine α where
  names := form.names
  costs := form.costs.map fun cost => -cost
  a := form.a
  b := form.b
  inverse := Table.identity form.a.rowCount
  basis := form.initialBasis
  numVars := form.numVars
  sense := sense
  maxIterations := 100
  tolerance := Scalar.epsilon

/-- The method on a problem. Only a problem without a fault is looked at. -/
def ofProblem? (problem : Problem α) : Option (Except ProblemError (Engine α)) :=
  match problem.validate with
  | .error fault => some (.error fault)
  | .ok _ => do return .ok (ofForm (← Form.ofProblem? problem) problem.sense)

end Engine

end Bare

/-! ### The parts of a run -/

/-- The decision with columns and rows given by their numbers. -/
def RevisedDecision.bare {m n : Nat} : RevisedDecision α m n → Bare.Decision α
  | optimal => .optimal
  | notConverged => .notConverged
  | unbounded entering direction ratios => .unbounded entering direction.toList ratios.toList
  | exchange entering reducedCost direction ratios leaving theta =>
    .exchange entering reducedCost direction.toList ratios.toList leaving theta

/-- The parts of a state. -/
def RevisedState.bare {m n : Nat} (state : RevisedState α m n) : Bare.EngineState α :=
  ⟨state.iteration, state.basis.toList.map Fin.val, ⟨_, _, state.inverse⟩⟩

variable [Scalar α]

/-- The parts of an iteration, with its decision as a sentence. -/
def RevisedStep.bare {m n : Nat} (names : Vector String n) (step : RevisedStep α m n) :
    Bare.Iteration α where
  iteration := step.iteration
  basis := step.basis.toList.map Fin.val
  inverse := ⟨_, _, step.inverse⟩
  levels := step.levels.toList
  basicCosts := step.basicCosts.toList
  reducedCosts := step.reducedCosts.map (Prod.map Fin.val id)
  objective := step.objective
  decision := step.decision.bare
  description := step.description names

/-- The parts of a finished run. -/
def RevisedSolution.bare (solution : RevisedSolution α) : Bare.EngineSolution α where
  names := solution.names.toList
  iterations := solution.steps.map (RevisedStep.bare solution.names)
  outcome := solution.outcome

namespace RevisedSimplex

/-- The data and the settings of the method. -/
def bare (engine : RevisedSimplex α) : Bare.Engine α where
  names := engine.names.toList
  costs := engine.costs.toList
  a := ⟨_, _, engine.a⟩
  b := engine.b.toList
  inverse := ⟨_, _, engine.inverse⟩
  basis := engine.basis.toList.map Fin.val
  numVars := engine.numVars
  sense := engine.sense
  maxIterations := engine.maxIterations
  tolerance := engine.tolerance

/-! ### Reads that succeed -/

section Reads

variable (engine : RevisedSimplex α)

@[simp] theorem getElem?_names (column : Fin engine.numColumns) :
    engine.bare.names[column.val]? = some (engine.names.get column) :=
  getElem?_toList engine.names column

@[simp] theorem getElem?_costs (column : Fin engine.numColumns) :
    engine.bare.costs[column.val]? = some (engine.costs.get column) :=
  getElem?_toList engine.costs column

end Reads

variable (engine : RevisedSimplex α)

theorem reducedCosts?_bare (state : RevisedState α engine.numRows engine.numColumns)
    (basicCosts : Vector (BigM α) engine.numRows) :
    engine.bare.reducedCosts? state.bare basicCosts.toList =
      some ((engine.reducedCosts state.inverse state.basis basicCosts).map
        (Prod.map Fin.val id)) := by
  have outside (j : Fin engine.numColumns) :
      state.bare.basis.contains j.val = state.basis.toList.contains j := by
    refine Bool.eq_iff_iff.2 ?_
    rw [List.contains_iff_mem, List.contains_iff_mem]
    exact List.mem_map_of_injective Fin.val_injective
  have listed : (List.range engine.numColumns).filter (fun j => !state.bare.basis.contains j) =
      ((List.finRange engine.numColumns).filter fun j => !state.basis.toList.contains j).map
        Fin.val := by
    rw [← List.map_coe_finRange_eq_range, List.filter_map]
    refine congrArg _ (List.filter_congr fun j _ => ?_)
    exact congrArg _ (outside j)
  rw [Bare.Engine.reducedCosts?, reducedCosts, List.map_map]
  show ((List.range engine.numColumns).filter _).mapM _ = _
  rw [listed, List.mapM_map]
  refine mapM_of_reads fun j _ => ?_
  have direction : state.bare.inverse.mulColumn? engine.bare.a j =
      some (state.inverse.mulVec (engine.a.column j)).toList :=
    Table.mulColumn?_entries state.inverse engine.a j
  simp only [Function.comp_apply, direction, getElem?_costs, Option.bind_eq_bind, Option.bind_some]
  rfl

theorem leastRatio?_bare {m : Nat} (ratios : Vector (Option α) m) :
    (List.range ratios.toList.length).foldlM (Bare.Engine.consider? ratios.toList) none =
      some ((leastRatio ratios).map (Prod.map Fin.val id)) := by
  rw [Vector.length_toList, leastRatio]
  refine foldlM_range (Option.map (Prod.map Fin.val id)) (fun found row => ?_) none
  rw [Bare.Engine.consider?, getElem?_toList]
  cases ratios.get row with
  | none => rfl
  | some ratio =>
    cases found with
    | none => rfl
    | some found =>
      refine congrArg some ?_
      show (if ratio < found.2 then _ else _) =
        Option.map _ (if ratio < found.2 then some (row, ratio) else some found)
      split <;> rfl

theorem exchangeOrUnbounded?_bare (inverse : DenseMatrix α engine.numRows engine.numRows)
    (levels : Vector α engine.numRows) (entering : Fin engine.numColumns)
    (reducedCost : BigM α) :
    engine.bare.exchangeOrUnbounded? ⟨_, _, inverse⟩ levels.toList entering reducedCost =
      some (engine.exchangeOrUnbounded inverse levels entering reducedCost).bare := by
  have direction : (Table.mk _ _ inverse).mulColumn? engine.bare.a entering =
      some (inverse.mulVec (engine.a.column entering)).toList :=
    Table.mulColumn?_entries inverse engine.a entering
  have rows (direction : Vector α engine.numRows) : List.zipWith (fun slope level =>
      if engine.bare.tolerance < slope then some (level / slope) else none) direction.toList
        levels.toList = (ratios engine.tolerance direction levels).toList := by
    rw [zipWith_toList, ratios, Vector.toList_ofFn]
    rfl
  rw [Bare.Engine.exchangeOrUnbounded?, direction, exchangeOrUnbounded]
  simp only [Option.bind_eq_bind, Option.bind_some, rows, leastRatio?_bare]
  cases leastRatio (ratios engine.tolerance (inverse.mulVec (engine.a.column entering)) levels) <;>
    rfl

theorem decide?_bare (mayExchange : Bool)
    (state : RevisedState α engine.numRows engine.numColumns) :
    engine.bare.decide? mayExchange state.bare.inverse
      (engine.examine mayExchange state).levels.toList
      ((engine.examine mayExchange state).reducedCosts.map (Prod.map Fin.val id)) =
      some (engine.examine mayExchange state).decision.bare := by
  have tolerance : engine.bare.tolerance = engine.tolerance := rfl
  rw [Bare.Engine.decide?, tolerance, BigM.leastNegative_map]
  unfold examine
  dsimp only
  cases BigM.leastNegative engine.tolerance (engine.reducedCosts state.inverse state.basis
    (state.basis.map engine.costs.get)) with
  | none => rfl
  | some entry =>
    cases mayExchange with
    | false => rfl
    | true => exact engine.exchangeOrUnbounded?_bare state.inverse _ entry.1 entry.2

/-- The sentence of an iteration names only columns that there are. -/
theorem describe?_bare (step : RevisedStep α engine.numRows engine.numColumns)
    (inverse : Table α) :
    engine.bare.describe? ⟨step.iteration, step.basis.toList.map Fin.val, inverse⟩ step.objective
      step.decision.bare = some (step.description engine.names) := by
  cases decision : step.decision with
  | optimal | notConverged => simp only [RevisedStep.description, decision]; rfl
  | unbounded entering direction ratios =>
    simp only [RevisedStep.description, decision, RevisedDecision.bare, Bare.Engine.describe?,
      getElem?_names, Option.bind_eq_bind, Option.bind_some, Option.pure_def]
  | exchange entering reducedCost direction ratios leaving theta =>
    simp only [RevisedStep.description, decision, RevisedDecision.bare, Bare.Engine.describe?,
      getElem?_names, List.getElem?_map, getElem?_toList, Option.map_some, Option.bind_eq_bind,
      Option.bind_some, Option.pure_def]

theorem examine?_bare (mayExchange : Bool)
    (state : RevisedState α engine.numRows engine.numColumns) :
    engine.bare.examine? mayExchange state.bare =
      some ((engine.examine mayExchange state).bare engine.names) := by
  have levels : state.bare.inverse.mulList? engine.bare.b =
      some (state.inverse.mulVec engine.b).toList :=
    Table.mulList?_entries state.inverse engine.b
  have basicCosts : state.bare.basis.mapM (fun basic => engine.bare.costs[basic]?) =
      some (state.basis.map engine.costs.get).toList := by
    rw [RevisedState.bare, List.mapM_map, Vector.toList_map]
    exact mapM_of_reads fun basic _ => engine.getElem?_costs basic
  rw [Bare.Engine.examine?, levels, basicCosts]
  simp only [Option.bind_eq_bind, Option.bind_some, reducedCosts?_bare]
  refine (congrArg (Option.bind · _) (engine.decide?_bare mayExchange state)).trans ?_
  rw [Option.bind_some]
  exact congrArg (Option.bind · _)
    (engine.describe?_bare (engine.examine mayExchange state) state.bare.inverse)

theorem updateInverse?_bare {m : Nat} (inverse : DenseMatrix α m m) (direction : Vector α m)
    (row : Fin m) :
    Bare.Engine.updateInverse? ⟨m, m, inverse⟩ direction.toList row =
      some ⟨m, m, updateInverse inverse direction row⟩ := by
  refine Table.ofReads?_eq fun i j => ?_
  simp only [Table.get?_entries, getElem?_toList, get_vectorOfFn, Option.bind_eq_bind,
    Option.bind_some, Option.pure_def, Fin.ext_iff]

theorem exchange?_bare {m n : Nat} (state : RevisedState α m n) (entering : Fin n)
    (direction : Vector α m) (leaving : Fin m) :
    Bare.Engine.exchange? state.bare entering direction.toList leaving =
      some (exchange state entering direction leaving).bare := by
  have basis : setAt? state.bare.basis leaving entering =
      some ((replaceEntry state.basis leaving entering).toList.map Fin.val) :=
    setAt?_map Fin.val state.basis leaving entering
  rw [Bare.Engine.exchange?, RevisedState.bare, updateInverse?_bare]
  exact congrArg (Option.bind · _) basis

theorem iterate?_bare (remaining : Nat)
    (earlier : Array (RevisedStep α engine.numRows engine.numColumns))
    (state : RevisedState α engine.numRows engine.numColumns) :
    engine.bare.iterate? remaining (earlier.toList.map (RevisedStep.bare engine.names))
      state.bare =
      some ((engine.iterate remaining earlier state).1.toList.map (RevisedStep.bare engine.names),
        (engine.iterate remaining earlier state).2.bare engine.names) := by
  -- an exchange hands on another record and another basis
  induction remaining generalizing earlier state with
  | zero =>
    rw [Bare.Engine.iterate?, examine?_bare]
    rfl
  | succ remaining inductionHypothesis =>
    rw [Bare.Engine.iterate?, examine?_bare, Option.bind_eq_bind, Option.bind_some, iterate]
    have decided : ((engine.examine true state).bare engine.names).decision =
        (engine.examine true state).decision.bare := rfl
    rw [decided]
    cases (engine.examine true state).decision with
    | optimal | notConverged | unbounded => rfl
    | exchange entering reducedCost direction ratios leaving theta =>
      show (Bare.Engine.exchange? state.bare entering direction.toList leaving).bind _ = _
      rw [exchange?_bare, Option.bind_some]
      have recorded : earlier.toList.map (RevisedStep.bare engine.names) ++
          [(engine.examine true state).bare engine.names] =
          (earlier.push (engine.examine true state)).toList.map
            (RevisedStep.bare engine.names) := by
        rw [Array.toList_push, List.map_append]
        rfl
      rw [recorded]
      exact inductionHypothesis _ _

theorem outcomeOf?_bare (step : RevisedStep α engine.numRows engine.numColumns) :
    engine.bare.outcomeOf? (step.bare engine.names) = some (engine.outcomeOf step) := by
  have decided : (step.bare engine.names).decision = step.decision.bare := rfl
  have positive : engine.bare.hasPositiveArtificial? (step.bare engine.names) =
      some (engine.hasPositiveArtificial step) := by
    have rows : (step.bare engine.names).basis.length = engine.numRows := by
      simp [RevisedStep.bare]
    rw [Bare.Engine.hasPositiveArtificial?, rows]
    refine anyM_range fun row => ?_
    have basic : (step.bare engine.names).basis[row.val]? = some (step.basis.get row).val :=
      getElem?_map_toList Fin.val step.basis row
    have level : (step.bare engine.names).levels[row.val]? = some (step.levels.get row) :=
      getElem?_toList step.levels row
    simp only [basic, level, getElem?_costs, Option.bind_eq_bind, Option.bind_some]
    rfl
  have levels (number : Nat) : Bare.Engine.levelOf? (step.bare engine.names) number =
      some (levelOf step number) := by
    have found : (step.bare engine.names).basis.findIdx? (fun basic => basic == number) = _ :=
      findIdx?_map_toList Fin.val step.basis fun basic => basic == number
    rw [Bare.Engine.levelOf?, found, levelOf]
    cases (List.finRange engine.numRows).find? fun row => (step.basis.get row).val == number with
    | none => rfl
    | some row => exact getElem?_toList step.levels row
  rw [Bare.Engine.outcomeOf?, outcomeOf, decided]
  cases step.decision with
  | optimal =>
    show (engine.bare.hasPositiveArtificial? (step.bare engine.names)).bind _ = _
    rw [positive, Option.bind_some]
    cases engine.hasPositiveArtificial step with
    | true => rfl
    | false => exact congrArg (Option.bind · _) (mapM_of_reads fun number _ => levels number)
  | notConverged | unbounded | exchange => rfl

/-- A run of the method never looks outside of its data. -/
theorem solve?_bare : engine.bare.solve? = some engine.solve.bare := by
  have run := engine.iterate?_bare engine.maxIterations #[] ⟨0, engine.basis, engine.inverse⟩
  have outcome := engine.outcomeOf?_bare engine.solve.finalStep
  have listed : engine.solve.steps.map (RevisedStep.bare engine.names) =
      engine.solve.earlierSteps.toList.map (RevisedStep.bare engine.names) ++
        [engine.solve.finalStep.bare engine.names] := List.map_append
  rw [Bare.Engine.solve?]
  refine (congrArg (Option.bind · _) run).trans ?_
  rw [Option.bind_some]
  refine (congrArg (Option.bind · _) outcome).trans ?_
  exact congrArg some (congrArg (Bare.EngineSolution.mk _ · _) listed.symm)

theorem ofForm_bare (form : StandardForm α) (sense : Sense) :
    Bare.Engine.ofForm form.bare sense = (ofForm form sense).bare :=
  congrArg (Bare.Engine.mk _ · _ _ _ _ _ _ _ _) (Vector.toList_map ..).symm

theorem ofProblem?_bare (problem : Problem α) :
    Bare.Engine.ofProblem? problem = some ((ofProblem problem).map bare) := by
  rw [Bare.Engine.ofProblem?, ofProblem]
  cases problem.validate with
  | error fault => rfl
  | ok evidence =>
    obtain ⟨valid⟩ := evidence
    rw [StandardForm.ofProblem?_bare problem valid, Option.bind_eq_bind, Option.bind_some,
      ofForm_bare]
    rfl

end RevisedSimplex

end LinearProgramming
