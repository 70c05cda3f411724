/-
This file compares a problem with the one that has a constraint multiplied by minus one.

The standard form multiplies each row by a sign that makes its right-hand side non-negative. When
the right-hand side of the constraint is not zero, exactly one of the constraint and its negation is
turned, and both come out as the same equation. The forms differ in that one sign alone, which no
run looks at. So both methods make the same steps, and a search, whose nodes add their bounds behind
the constraints of the problem, goes the same way with the constraint negated in every node.

Every record that holds a form or the constraints has a turned version here, and every function that
makes such a record makes the turned one on the negated constraint.
-/

import Mathlib
import LinearProgramming.Proofs.OppositeSense
import LinearProgramming.Proofs.RunTrace
import LinearProgramming.Proofs.StandardForm.OrientedRows

namespace LinearProgramming

/-! ### The negated constraint -/

theorem Relation.flipped_flipped (relation : Relation) : relation.flipped.flipped = relation := by
  cases relation <;> rfl

namespace Constraint

/-- The constraint multiplied by minus one. -/
def negated (constraint : Constraint Rat) : Constraint Rat where
  name := constraint.name
  coefficients := constraint.coefficients.map fun coefficient => -coefficient
  relation := constraint.relation.flipped
  rhs := -constraint.rhs

theorem fault?_negated (count : Nat) (constraint : Constraint Rat) :
    constraint.negated.fault? count = constraint.fault? count := by
  have length : constraint.negated.coefficients.length = constraint.coefficients.length :=
    List.length_map _
  have finite : constraint.negated.isFinite = constraint.isFinite :=
    congrArg (Scalar.isFinite constraint.rhs && ·) List.all_map
  unfold fault?
  rw [length, finite]
  rfl

end Constraint

/-- There is a constraint at the position, and its right-hand side is not zero. -/
def Turnable (constraints : List (Constraint Rat)) (number : Nat) : Prop :=
  ∃ constraint, constraints[number]? = some constraint ∧ constraint.rhs ≠ 0

/-- A change behind the constraint does not matter. -/
theorem Turnable.append {constraints : List (Constraint Rat)} {number : Nat}
    (turnable : Turnable constraints number) (added : List (Constraint Rat)) :
    Turnable (constraints ++ added) number := by
  obtain ⟨constraint, found, nonzero⟩ := turnable
  have inRange := (List.getElem?_eq_some_iff.1 found).1
  exact ⟨constraint, (List.getElem?_append_left inRange).trans found, nonzero⟩

theorem Turnable.modify_append {constraints : List (Constraint Rat)} {number : Nat}
    (turnable : Turnable constraints number) (change : Constraint Rat → Constraint Rat)
    (added : List (Constraint Rat)) :
    (constraints ++ added).modify number change = constraints.modify number change ++ added := by
  obtain ⟨_, found, _⟩ := turnable
  have inRange := (List.getElem?_eq_some_iff.1 found).1
  refine List.ext_getElem? fun position => ?_
  rw [List.getElem?_modify]
  by_cases early : position < constraints.length
  · have modified : position < (constraints.modify number change).length := by
      rwa [List.length_modify]
    rw [List.getElem?_append_left early, List.getElem?_append_left modified, List.getElem?_modify]
  · have late := Nat.le_of_not_lt early
    have other : number ≠ position := by omega
    have modified : (constraints.modify number change).length ≤ position := by
      rwa [List.length_modify]
    rw [List.getElem?_append_right late, List.getElem?_append_right modified, List.length_modify]
    simp [other]

namespace Problem

/-- The problem with one of its constraints negated. -/
def negateRow (problem : Problem Rat) (number : Nat) : Problem Rat :=
  problem.withConstraints (problem.constraints.modify number Constraint.negated)

variable {problem : Problem Rat} {number : Nat}

theorem numRows_negateRow (problem : Problem Rat) (number : Nat) :
    (problem.negateRow number).numRows = problem.numRows := List.length_modify ..

theorem row_negateRow (i : Fin (problem.negateRow number).numRows) :
    (problem.negateRow number).row i =
      if number = i.val then (problem.row (i.cast (problem.numRows_negateRow number))).negated
      else problem.row (i.cast (problem.numRows_negateRow number)) :=
  List.getElem_modify ..

theorem fault?_negateRow (problem : Problem Rat) (number : Nat) :
    (problem.negateRow number).fault? = problem.fault? := by
  have faults : (problem.constraints.modify number Constraint.negated).map
      (Constraint.fault? problem.numVars) =
        problem.constraints.map (Constraint.fault? problem.numVars) := by
    refine List.ext_getElem (by simp) fun position _ _ => ?_
    rw [List.getElem_map, List.getElem_map, List.getElem_modify]
    split
    · exact Constraint.fault?_negated _ _
    · rfl
  have first : (problem.negateRow number).constraints.findSome?
      (Constraint.fault? (problem.negateRow number).numVars) =
        problem.constraints.findSome? (Constraint.fault? problem.numVars) := by
    have listed := congrArg (List.findSome? id) faults
    rwa [List.findSome?_map, List.findSome?_map] at listed
  unfold fault?
  rw [first]
  rfl

theorem Valid.negateRow (valid : problem.Valid) (number : Nat) :
    (problem.negateRow number).Valid :=
  fault?_eq_none_iff.1 ((problem.fault?_negateRow number).trans (fault?_eq_none_iff.2 valid))

/-- Both problems are refused for one reason. -/
theorem validate_negateRow (problem : Problem Rat) (number : Nat) :
    (problem.negateRow number).validate =
      problem.validate.map fun valid => ⟨valid.down.negateRow number⟩ := by
  cases found : problem.fault? with
  | some fault =>
    rw [validate_of_fault found, validate_of_fault ((problem.fault?_negateRow number).trans found)]
    rfl
  | none =>
    have valid := fault?_eq_none_iff.1 found
    rw [problem.validate_of_valid valid,
      (problem.negateRow number).validate_of_valid (valid.negateRow number)]
    rfl

/-! ### One equation -/

/-- The signs of the rows, with that of one row turned. -/
def turnedSign (problem : Problem Rat) (number : Nat) (i : Fin problem.numRows) : Rat :=
  if number = i.val then -problem.rowSign i else problem.rowSign i

section Rows

variable (turnable : Turnable problem.constraints number)
  (i : Fin (problem.negateRow number).numRows)
include turnable

/-- Exactly one of a constraint and its negation is turned, and both then have one relation. -/
theorem rowSign_negateRow :
    (problem.negateRow number).rowSign i =
        problem.turnedSign number (i.cast (problem.numRows_negateRow number)) ∧
      (problem.negateRow number).rowRelation i =
        problem.rowRelation (i.cast (problem.numRows_negateRow number)) := by
  unfold turnedSign rowSign rowRelation
  rw [row_negateRow]
  by_cases own : number = i.val
  · obtain ⟨constraint, found, nonzero⟩ := turnable
    have row : problem.row (i.cast (problem.numRows_negateRow number)) = constraint := by
      rw [own] at found
      exact Option.some.inj ((List.getElem?_eq_getElem _).symm.trans found)
    have turned : constraint.negated.rhs = -constraint.rhs := rfl
    have flipped : constraint.negated.relation = constraint.relation.flipped := rfl
    simp only [own, if_true, Fin.val_cast, row, turned, flipped, neg_lt_zero]
    rcases lt_or_gt_of_ne nonzero with negative | positive
    · simp [negative, not_lt.2 negative.le]
    · simp [positive, not_lt.2 positive.le, Relation.flipped_flipped]
  · simp [own]

end Rows

theorem coefficient_negateRow (valid : problem.Valid)
    (i : Fin (problem.negateRow number).numRows) (j : Fin problem.numVars) :
    (problem.negateRow number).coefficient (valid.negateRow number) i j =
      if number = i.val then
        -problem.coefficient valid (i.cast (problem.numRows_negateRow number)) j
      else problem.coefficient valid (i.cast (problem.numRows_negateRow number)) j := by
  have present := getElem?_coefficients valid (i.cast (problem.numRows_negateRow number)) j
  refine Option.some.inj ((getElem?_coefficients (valid.negateRow number) i j).symm.trans ?_)
  rw [row_negateRow]
  split
  · rw [Constraint.negated, List.getElem?_map, present]
    rfl
  · exact present

/-- The rows of both problems are the same equations. -/
theorem orientedRow_negateRow (turnable : Turnable problem.constraints number)
    (valid : problem.Valid) (i : Fin (problem.negateRow number).numRows) :
    (problem.negateRow number).orientedRow (valid.negateRow number) i =
      problem.orientedRow valid (i.cast (problem.numRows_negateRow number)) := by
  obtain ⟨sign, relation⟩ := rowSign_negateRow turnable i
  have coefficients : ∀ j, (problem.negateRow number).rowSign i *
      (problem.negateRow number).coefficient (valid.negateRow number) i j =
        problem.rowSign (i.cast (problem.numRows_negateRow number)) *
          problem.coefficient valid (i.cast (problem.numRows_negateRow number)) j := by
    intro (j : Fin problem.numVars)
    rw [sign, coefficient_negateRow valid i j, turnedSign]
    by_cases own : number = i.val
    · simp [own]
    · simp [own]
  have rhs : (problem.negateRow number).rowSign i * ((problem.negateRow number).row i).rhs =
      problem.rowSign (i.cast (problem.numRows_negateRow number)) *
        (problem.row (i.cast (problem.numRows_negateRow number))).rhs := by
    rw [sign, row_negateRow, turnedSign]
    by_cases own : number = i.val
    · simp [own, Constraint.negated]
    · simp [own]
  unfold orientedRow
  rw [relation, rhs]
  exact congrArg (OrientedRow.mk _ · _) (funext coefficients)

end Problem

/-! ### Turned records -/

namespace StandardForm

/-- The form with the sign of one row turned. -/
abbrev turned (form : StandardForm Rat) (number : Nat) : StandardForm Rat :=
  { form with
    rowSigns := Vector.ofFn fun i =>
      if number = i.val then -form.rowSigns.get i else form.rowSigns.get i }

theorem ofRows_turned {k m : Nat} (names : Fin k → String) (costs : Fin k → Rat)
    (rows : Fin m → OrientedRow Rat k) (signs : Fin m → Rat) (number : Nat) :
    (ofRows names costs rows signs).turned number = ofRows names costs rows fun i =>
      if number = i.val then -signs i else signs i := by
  refine congrArg (ofRows names costs rows) (funext fun (i : Fin m) => ?_)
  exact congrArg (fun sign => if number = i.val then -sign else sign) (get_vectorOfFn signs i)

/-- A form does not know which of a constraint and its negation it was made from, but for the sign
of the row. -/
theorem ofProblem_negateRow {problem : Problem Rat} {number : Nat}
    (turnable : Turnable problem.constraints number) (valid : problem.Valid) :
    ofProblem (problem.negateRow number) (valid.negateRow number) =
      (ofProblem problem valid).turned number := by
  refine (ofProblem_withConstraints valid (valid.negateRow number)
    (problem.numRows_negateRow number) (Problem.orientedRow_negateRow turnable valid)
    fun i => (Problem.rowSign_negateRow turnable i).1).trans ?_
  rw [← ofRows_orientedRow valid, ofRows_turned]
  rfl

end StandardForm

/-- The solution with the sign of one row turned in its form. -/
def Solution.turned (solution : Solution Rat) (number : Nat) : Solution Rat :=
  ⟨solution.form.turned number, solution.earlierSteps, solution.finalStep, solution.outcome,
    solution.iterations⟩

/-! ### The tableau method -/

namespace Run

variable {form : StandardForm Rat}

/-- The run on the form with the sign of one row turned. -/
def turned (run : Run form) (number : Nat) : Run (form.turned number) :=
  ⟨run.solver, run.sense, run.earlierSteps, run.lastStep, run.status, run.iterations⟩

variable (number : Nat)

/-- A step does not look at the signs of the rows. -/
theorem step_turned (run : Run form) :
    (run.turned number).step = (run.step.1, run.step.2.turned number) := by
  have made := run.stepOf_step
  generalize run.step = result at made ⊢
  refine StepOf.step_eq ?_
  cases made with
  | idle status ended => exact .idle status ended
  | settled running stopped => exact .settled running stopped
  | capped column running entered cap => exact .capped column running entered cap
  | unbounded column running entered below stuck =>
    exact @StepOf.unbounded _ _ _ (run.turned number) column running entered below stuck
  | pivoted column row running entered below left =>
    exact @StepOf.pivoted _ _ _ (run.turned number) column row running entered below left

theorem afterSteps_turned (count : Nat) (run : Run form) :
    (run.turned number).afterSteps count = (run.afterSteps count).turned number := by
  induction count generalizing run with
  | zero => rfl
  | succ count inductionHypothesis =>
    rw [afterSteps, afterSteps, step_turned, inductionHypothesis]

theorem complete_turned (run : Run form) :
    (run.turned number).complete = run.complete.turned number := by
  unfold complete
  rw [stepAtMost_eq_afterSteps, stepAtMost_eq_afterSteps]
  exact afterSteps_turned number _ run

/-- However the two runs are driven, they take the same steps. -/
theorem drive_turned (calls : List Call) (run : Run form) :
    (run.turned number).drive calls = (run.drive calls).turned number := by
  induction calls generalizing run with
  | nil => rfl
  | cons first calls inductionHypothesis =>
    have called : (run.turned number).call first = (run.call first).turned number := by
      cases first with
      | step => exact congrArg Prod.snd (step_turned number run)
      | complete => exact complete_turned number run
    show ((run.turned number).call first).drive calls = _
    rw [called]
    exact inductionHypothesis _

end Run

namespace Solver

variable (solver : Solver Rat) {problem : Problem Rat} {number : Nat}
  (turnable : Turnable problem.constraints number)
include turnable

/-- Both problems are refused for one reason, or started from one form up to the sign. -/
theorem start_negateRow :
    solver.start (problem.negateRow number) = (solver.start problem).map fun started =>
      ⟨started.1.turned number, started.2.turned number⟩ := by
  unfold start
  rw [problem.validate_negateRow]
  cases problem.validate with
  | error fault => rfl
  | ok evidence =>
    show Except.ok (⟨_, Run.initial solver problem.sense
      (.ofProblem (problem.negateRow number) (evidence.down.negateRow number))⟩ :
        (form : StandardForm Rat) × Run form) = _
    rw [StandardForm.ofProblem_negateRow turnable evidence.down]
    rfl

theorem solve_negateRow :
    solver.solve (problem.negateRow number) =
      (solver.solve problem).map fun solution => solution.turned number := by
  unfold solve
  rw [solver.start_negateRow turnable]
  cases solver.start problem with
  | error fault => rfl
  | ok started =>
    refine congrArg Except.ok ?_
    show (started.2.turned number).complete.solution = _
    rw [Run.complete_turned]
    rfl

end Solver

/-- The revised method starts from the same data, since it does not keep the signs. -/
theorem RevisedSimplex.ofProblem_negateRow {problem : Problem Rat} {number : Nat}
    (turnable : Turnable problem.constraints number) :
    ofProblem (problem.negateRow number) = ofProblem problem := by
  unfold ofProblem
  rw [problem.validate_negateRow]
  cases problem.validate with
  | error fault => rfl
  | ok evidence =>
    show _ = Except.ok (ofForm ((StandardForm.ofProblem problem evidence.down).turned number)
      problem.sense)
    exact congrArg (fun form => Except.ok (ofForm form problem.sense))
      (StandardForm.ofProblem_negateRow turnable evidence.down)

/-! ### The search -/

/-- The waiting node with a constraint negated. -/
def PendingNode.turned (number : Nat) (pending : PendingNode Rat) : PendingNode Rat :=
  { pending with constraints := pending.constraints.modify number Constraint.negated }

/-- The node with a constraint negated. -/
def SearchNode.turned {k : Nat} (number : Nat) (node : SearchNode Rat k) : SearchNode Rat k :=
  { node with
    constraints := node.constraints.modify number Constraint.negated
    relaxation := node.relaxation.turned number }

/-- The tree with a constraint negated in every node. -/
def SearchTree.turned {k : Nat} (number : Nat) (tree : SearchTree Rat k) : SearchTree Rat k :=
  { tree with nodes := tree.nodes.map (SearchNode.turned number) }

/-- The state with a constraint negated in every node. -/
def SearchState.turned {k : Nat} (number : Nat) (state : SearchState Rat k) : SearchState Rat k :=
  { state with nodes := state.nodes.map (SearchNode.turned number) }

namespace BranchAndBound

variable {settings : BranchAndBound Rat} {problem : Problem Rat}
  {integral : Vector Bool problem.numVars} {number : Nat} {pending : PendingNode Rat}
  {state later : SearchState Rat problem.numVars} {children : List (PendingNode Rat)}

/-- A node whose constraint can be turned leaves children in which it can be turned too. -/
theorem turnable_of_mem_childrenOf (turnable : Turnable pending.constraints number) {nextId : Nat}
    {fate : NodeFate Rat problem.numVars} {child : PendingNode Rat}
    (member : child ∈ childrenOf problem pending nextId fate) :
    Turnable child.constraints number := by
  cases fate with
  | pruned reason => cases member
  | integral => cases member
  | branched variableIndex value =>
    rcases List.mem_pair.1 member with rfl | rfl
    · exact turnable.append _
    · exact turnable.append _

/-- The children add their bounds behind the constraints, so they are the turned children. -/
theorem childrenOf_negateRow (turnable : Turnable pending.constraints number) (nextId : Nat)
    (fate : NodeFate Rat problem.numVars) :
    childrenOf (problem.negateRow number) (pending.turned number) nextId fate =
      (childrenOf problem pending nextId fate).map (PendingNode.turned number) := by
  have added : ∀ id bound, child (pending.turned number) id bound =
      (child pending id bound).turned number := fun id bound =>
    congrArg (fun constraints => { child pending id bound with constraints })
      (turnable.modify_append Constraint.negated [bound]).symm
  cases fate with
  | pruned reason => rfl
  | integral => rfl
  | branched variableIndex value =>
    exact congrArg₂ (fun first second => [first, second]) (added _ _) (added _ _)

theorem solve_turned (settings : BranchAndBound Rat) (problem : Problem Rat)
    (turnable : Turnable pending.constraints number) :
    settings.solver.solve
        ((problem.negateRow number).withConstraints (pending.turned number).constraints) =
      (settings.solver.solve (problem.withConstraints pending.constraints)).map
        fun solution => solution.turned number :=
  have there : Turnable (problem.withConstraints pending.constraints).constraints number :=
    turnable
  settings.solver.solve_negateRow there

/-- A visit lists the turned node and leaves the turned children. -/
theorem Visit.negateRow {node : SearchNode Rat problem.numVars}
    (turnable : Turnable pending.constraints number)
    (visit : Visit settings problem integral pending state node later children) :
    Visit settings (problem.negateRow number) integral (pending.turned number)
      (state.turned number) (node.turned number) (later.turned number)
      (children.map (PendingNode.turned number)) where
  place := congrArg (PendingNode.turned number) visit.place
  solved := (solve_turned settings problem turnable).trans
    (congrArg (Except.map fun solution => solution.turned number) visit.solved)
  fate := visit.fate
  spawned := (congrArg (List.map (PendingNode.turned number)) visit.spawned).trans
    (childrenOf_negateRow turnable state.nextId node.fate).symm
  nextId := visit.nextId.trans (congrArg (state.nextId + ·) (List.length_map _).symm)
  nodes := (congrArg (Array.map (SearchNode.turned number)) visit.nodes).trans Array.map_push
  best := visit.best

theorem visit_negateRow (settings : BranchAndBound Rat) (integral : Vector Bool problem.numVars)
    (turnable : Turnable pending.constraints number) (state : SearchState Rat problem.numVars) :
    settings.visit (problem.negateRow number) integral (pending.turned number)
        (state.turned number) =
      (settings.visit problem integral pending state).map fun result =>
        (result.1.turned number, result.2.map (PendingNode.turned number)) := by
  cases visited : settings.visit problem integral pending state with
  | error fault =>
    have failed := visit_eq_error_iff.1 visited
    refine visit_eq_error_iff.2 ((solve_turned settings problem turnable).trans ?_)
    rw [failed]
    rfl
  | ok result =>
    obtain ⟨node, visit⟩ := exists_visit visited
    exact (visit.negateRow turnable).visit_eq

/-- From turned states the two searches go the same way. -/
theorem explore_negateRow (settings : BranchAndBound Rat)
    (integral : Vector Bool problem.numVars) (remaining : Nat) (stack : List (PendingNode Rat))
    (turnable : ∀ pending ∈ stack, Turnable pending.constraints number)
    (state : SearchState Rat problem.numVars) :
    settings.explore (problem.negateRow number) integral remaining
        (stack.map (PendingNode.turned number)) (state.turned number) =
      (settings.explore problem integral remaining stack state).map
        (SearchTree.turned number) := by
  induction remaining generalizing stack state with
  | zero => cases stack <;> rfl
  | succ remaining inductionHypothesis =>
    cases stack with
    | nil => rfl
    | cons pending rest =>
      obtain ⟨first, others⟩ := List.forall_mem_cons.1 turnable
      have turned := visit_negateRow settings integral first state
      cases visited : settings.visit problem integral pending state with
      | error fault =>
        rw [visited] at turned
        rw [explore_of_visit_error remaining visited]
        exact explore_of_visit_error remaining turned
      | ok result =>
        obtain ⟨later, children⟩ := result
        obtain ⟨node, visit⟩ := exists_visit visited
        have still : ∀ pending ∈ children ++ rest, Turnable pending.constraints number := by
          intro next member
          rcases List.mem_append.1 member with spawned | waiting
          · exact turnable_of_mem_childrenOf first (visit.spawned ▸ spawned)
          · exact others next waiting
        rw [visited] at turned
        rw [explore_of_visit remaining visited, ← inductionHypothesis _ still, List.map_append]
        exact explore_of_visit remaining turned

/-- The search lists the turned nodes and finds the same points. -/
theorem solveMixed_negateRow (settings : BranchAndBound Rat)
    (turnable : Turnable problem.constraints number) (mask : List Bool) :
    settings.solveMixed (problem.negateRow number) mask =
      (settings.solveMixed problem mask).map (SearchTree.turned number) := by
  cases checked : problem.validate with
  | error fault =>
    unfold solveMixed
    rw [problem.validate_negateRow, checked]
    rfl
  | ok evidence =>
    cases sized : vectorOf? problem.numVars mask with
    | none =>
      have sizedTurned : vectorOf? (problem.negateRow number).numVars mask = none := sized
      unfold solveMixed
      rw [problem.validate_negateRow, checked, sized, sizedTurned]
      rfl
    | some integral =>
      have explored := explore_negateRow settings integral settings.maxNodes [rootNode problem]
        (List.forall_mem_singleton.2 turnable) ⟨1, #[], none⟩
      have begun : (⟨1, #[], none⟩ : SearchState Rat problem.numVars).turned number =
          ⟨1, #[], none⟩ :=
        congrArg (fun nodes => SearchState.mk 1 nodes none) Array.map_empty
      rw [solveMixed_eq_explore settings evidence.down sized]
      refine (solveMixed_eq_explore settings (evidence.down.negateRow number) sized).trans
        (Eq.trans ?_ explored)
      exact congrArg (settings.explore (problem.negateRow number) integral settings.maxNodes
        [rootNode (problem.negateRow number)]) begun.symm

end BranchAndBound

end LinearProgramming
