/-
This file says what the incumbent of a search is when values are integral up to a tolerance.

A node is taken as integral when its masked values are near to whole numbers. The incumbent then
has these values rounded, but keeps the objective of the values as they were, and the rounded
point is not checked again. So its constraints hold and its objective is right only up to what the
rounding moves, which is the tolerance times the coefficients of the masked variables. Where the
masked values are whole already, nothing moves and the incumbent is a solution.
-/

import Mathlib
import LinearProgramming.Proofs.Margin
import LinearProgramming.Proofs.Rounding
import LinearProgramming.Proofs.SearchCoverage

namespace LinearProgramming

namespace BranchAndBound

/-- A value that does not count as fractional moves by no more than the tolerance when it is
rounded. -/
theorem abs_round_sub_le {tolerance value : Rat} (near : isFractional tolerance value = false) :
    |Scalar.round value - value| ≤ tolerance := by
  have below := floor_le value
  have above := lt_floor_add_one value
  by_cases low : tolerance < value - Scalar.floor value
  · have high : ¬ value - Scalar.floor value < 1 - tolerance := by
      intro inside
      have fractional : isFractional tolerance value = true :=
        (Bool.and_eq_true _ _).mpr ⟨decide_eq_true low, decide_eq_true inside⟩
      rw [near] at fractional
      cases fractional
    refine (abs_round_sub_le_abs_sub value (value.floor + 1)).trans ?_
    have next : ((value.floor + 1 : Int) : Rat) = Scalar.floor value + 1 := Int.cast_add _ _
    rw [next, abs_of_pos (sub_pos.2 above)]
    linarith
  · refine (abs_round_sub_le_abs_sub value value.floor).trans ?_
    show |Scalar.floor value - value| ≤ tolerance
    rw [abs_sub_comm, abs_of_nonneg (sub_nonneg.2 below)]
    exact not_lt.1 low

/-! ### Rounding a point -/

variable {k : Nat} {integral : Vector Bool k} {values : List Rat}

theorem roundedValues_length (length : values.length = k) :
    (roundedValues integral values).length = k := by
  simp [roundedValues, length]

theorem get_roundedValues (integral : Vector Bool k) (length : values.length = k) (j : Fin k) :
    (roundedValues integral values).get (j.cast (roundedValues_length length).symm) =
      if integral.get j then Scalar.round (values.get (j.cast length.symm))
      else values.get (j.cast length.symm) := by
  simp only [roundedValues, List.get_eq_getElem, List.getElem_zipWith]
  rfl

/-- Rounding leaves whole numbers at the masked entries. -/
theorem integralOn_roundedValues (length : values.length = k) :
    IntegralOn integral.toList (roundedValues integral values) := by
  intro position masked level present
  obtain ⟨inRange, isMasked⟩ := List.getElem?_eq_some_iff.1 masked
  obtain ⟨inRounded, rfl⟩ := List.getElem?_eq_some_iff.1 present
  have entry := get_roundedValues integral length ⟨position, by simpa using inRange⟩
  rw [if_pos (show integral.get _ = true by simpa [Vector.get] using isMasked)] at entry
  obtain ⟨whole, rounded, _⟩ := exists_whole_round
    (values.get (Fin.cast length.symm ⟨position, by simpa using inRange⟩))
  exact ⟨whole, entry.trans rounded⟩

theorem nonneg_roundedValues (length : values.length = k) (nonneg : ∀ level ∈ values, 0 ≤ level) :
    ∀ level ∈ roundedValues integral values, 0 ≤ level := by
  intro level member
  obtain ⟨position, rfl⟩ := List.mem_iff_get.1 member
  have entry := get_roundedValues integral length
    (position.cast (roundedValues_length length))
  refine le_of_le_of_eq ?_ entry.symm
  have level := nonneg _ (List.get_mem values
    ((position.cast (roundedValues_length length)).cast length.symm))
  split
  · exact round_nonneg level
  · exact level

/-- The coefficients of the masked variables, added up without their signs. -/
def maskedWeight (mask : List Bool) (coefficients : List Rat) : Rat :=
  (List.zipWith (fun isMasked coefficient => if isMasked then |coefficient| else 0) mask
    coefficients).sum

theorem maskedWeight_eq {coefficients : List Rat} (length : coefficients.length = k) :
    maskedWeight integral.toList coefficients =
      ∑ j, if integral.get j then |coefficients.get (j.cast length.symm)| else 0 := by
  unfold maskedWeight
  rw [zipWith_eq_ofFn _ _ _ k integral.length_toList length, List.sum_ofFn]
  simp only [vector_toList_get]

/-- Rounding a point without fractional values moves a scalar product by no more than the tolerance
times the masked coefficients. -/
theorem abs_dot_roundedValues_sub_le {tolerance : Rat} {coefficients : List Rat}
    (coefficientsLength : coefficients.length = k) (length : values.length = k)
    (none : fractionalVariable? tolerance integral values = none) :
    |Scalar.dot coefficients (roundedValues integral values) - Scalar.dot coefficients values| ≤
      tolerance * maskedWeight integral.toList coefficients := by
  rw [Scalar.dot_eq_sum _ _ k coefficientsLength (roundedValues_length length),
    Scalar.dot_eq_sum _ _ k coefficientsLength length, maskedWeight_eq coefficientsLength,
    ← Finset.sum_sub_distrib, Finset.mul_sum]
  refine (Finset.abs_sum_le_sum_abs _ _).trans (Finset.sum_le_sum fun j _ => ?_)
  rw [get_roundedValues integral length, ← mul_sub, abs_mul]
  split
  · rename_i masked
    have near := not_isFractional_of_fractionalVariable?_eq_none none masked
      (List.getElem?_eq_getElem (length.symm ▸ j.isLt))
    rw [mul_comm]
    exact mul_le_mul_of_nonneg_right (abs_round_sub_le near) (abs_nonneg _)
  · rw [sub_self, abs_zero, mul_zero, mul_zero]

end BranchAndBound

/-! ### The incumbent -/

/-- An incumbent is an optimal point with its masked values rounded. The point is feasible and the
objective is that of the point. At the rounded values the constraints hold and the objective is
right up to what the rounding moves, and both are exact where the point is integral already. -/
structure Incumbent.IsRounded (incumbent : Incumbent Rat) (problem : Problem Rat)
    (tolerance : Rat) (mask : List Bool) (point : List Rat) : Prop where
  feasible : problem.Feasible point
  objective_eq : incumbent.objective = problem.evaluate point
  length : incumbent.values.length = problem.numVars
  nonneg : ∀ level ∈ incumbent.values, 0 ≤ level
  whole : IntegralOn mask incumbent.values
  holdsWithin : ∀ constraint ∈ problem.constraints, constraint.relation.HoldsWithin
    (tolerance * BranchAndBound.maskedWeight mask constraint.coefficients)
    (constraint.lhs incumbent.values) constraint.rhs
  objective_close : |incumbent.objective - problem.evaluate incumbent.values| ≤
    tolerance * BranchAndBound.maskedWeight mask problem.objective
  genuine : IntegralOn mask point →
    (∀ constraint ∈ problem.constraints, constraint.isSatisfiedBy incumbent.values = true) ∧
      incumbent.objective = problem.evaluate incumbent.values

namespace BranchAndBound

variable {problem : Problem Rat} {integral : Vector Bool problem.numVars} {tolerance : Rat}

/-- A feasible point without fractional values makes an incumbent. -/
theorem isRounded (valid : problem.Valid) {point : List Rat} (feasible : problem.Feasible point)
    (none : fractionalVariable? tolerance integral point = none) (id : Nat) :
    (⟨id, problem.evaluate point, roundedValues integral point⟩ : Incumbent Rat).IsRounded problem
      tolerance integral.toList point where
  feasible := feasible
  objective_eq := rfl
  length := roundedValues_length feasible.length
  nonneg := nonneg_roundedValues feasible.length feasible.nonneg
  whole := integralOn_roundedValues feasible.length
  holdsWithin constraint member :=
    (Constraint.holds_iff.1 (feasible.holds constraint member)).holdsWithin
      (abs_dot_roundedValues_sub_le (valid.constraints_fit constraint member).length
        feasible.length none)
  objective_close := by
    rw [abs_sub_comm]
    exact abs_dot_roundedValues_sub_le valid.objective_length feasible.length none
  genuine whole := by
    rw [roundedValues_eq whole feasible.length]
    exact ⟨fun constraint member =>
      Constraint.isSatisfiedBy_of_holds (feasible.holds constraint member), rfl⟩

end BranchAndBound

/-- An incumbent was rounded from the optimal point of one of the nodes. -/
def Incumbent.IsFoundIn {k : Nat} (incumbent : Incumbent Rat) (problem : Problem Rat)
    (tolerance : Rat) (mask : List Bool) (nodes : Array (SearchNode Rat k)) : Prop :=
  ∃ node ∈ nodes, node.id = incumbent.node ∧ ∃ point,
    node.relaxation.outcome = .optimal point incumbent.objective ∧
      incumbent.IsRounded problem tolerance mask point

/-- Every waiting node keeps the constraints of the problem, and the incumbent was rounded from a
node that was visited. -/
structure RoundingInvariant (problem : Problem Rat) (tolerance : Rat)
    (integral : Vector Bool problem.numVars) (stack : List (PendingNode Rat))
    (state : SearchState Rat problem.numVars) : Prop where
  refines : ∀ pending ∈ stack, pending.Refines problem
  found : ∀ incumbent, state.best = some incumbent →
    incumbent.IsFoundIn problem tolerance integral.toList state.nodes

namespace RoundingInvariant

variable {settings : BranchAndBound Rat} {problem : Problem Rat}
  {integral : Vector Bool problem.numVars} {pending : PendingNode Rat}
  {rest : List (PendingNode Rat)} {state : SearchState Rat problem.numVars}

theorem start (valid : problem.Valid) (tolerance : Rat)
    (integral : Vector Bool problem.numVars) :
    RoundingInvariant problem tolerance integral [BranchAndBound.rootNode problem]
      ⟨1, #[], none⟩ where
  refines pending member := by
    rw [List.mem_singleton.1 member]
    exact ⟨fun _ kept => kept, valid.constraints_fit⟩
  found incumbent held := nomatch held

/-- A visit keeps the invariant, whatever becomes of the node. -/
theorem visit (exactSolver : settings.solver.tolerance = 0) (valid : problem.Valid)
    (invariant : RoundingInvariant problem settings.integerTolerance integral (pending :: rest)
      state) :
    ∃ later children, settings.visit problem integral pending state = .ok (later, children) ∧
      RoundingInvariant problem settings.integerTolerance integral (children ++ rest) later := by
  have refines := invariant.refines pending List.mem_cons_self
  obtain ⟨relaxation, solved, optimal, _⟩ :=
    settings.solver.outcome_sound exactSolver (refines.valid valid)
  have judged := BranchAndBound.fateOf_cases settings problem.sense integral state.best
    relaxation.outcome
  obtain ⟨node, _, nodeId, nodeRelaxation, visited⟩ :=
    BranchAndBound.visit_of_solve settings integral state solved rfl
  refine ⟨_, _, visited, fun waiting member => ?_, fun incumbent held => ?_⟩
  · rcases List.mem_append.1 member with child | older
    · exact refines.childrenOf _ waiting child
    · exact invariant.refines waiting (List.mem_cons_of_mem _ older)
  · -- an incumbent from before is still found among the nodes
    have kept : state.best = some incumbent → incumbent.IsFoundIn problem
        settings.integerTolerance integral.toList (state.nodes.push node) := fun earlier =>
      (invariant.found incumbent earlier).imp fun _ found =>
        ⟨Array.mem_push.2 (Or.inl found.1), found.2⟩
    generalize settings.fateOf problem.sense integral state.best relaxation.outcome = fate
      at judged held
    generalize reached : relaxation.outcome = outcome at judged held optimal
    cases judged with
    | infeasible => exact kept held
    | notSolved outcome status => exact kept held
    | bounded values objective bound cut cutHeld close => exact kept held
    | branched values objective j value found => exact kept held
    | integral values objective none improves =>
      cases held
      obtain ⟨best, rfl⟩ := optimal values objective rfl
      refine ⟨node, Array.mem_push.2 (Or.inr rfl), nodeId, values, ?_, ?_⟩
      · rw [nodeRelaxation]
        exact reached
      · exact BranchAndBound.isRounded valid (refines.feasible best.feasible) none pending.id

end RoundingInvariant

/-- An incumbent is rounded. When the relaxations are solved without tolerance, every search of a
valid problem with a mask of the right length returns a tree, and the incumbent of the tree was
rounded from the optimal point of one of its nodes. -/
theorem BranchAndBound.incumbent_isRounded (settings : BranchAndBound Rat)
    (exactSolver : settings.solver.tolerance = 0) (problem : Problem Rat) (valid : problem.Valid)
    (mask : List Bool) (length : mask.length = problem.numVars) :
    ∃ tree, settings.solveMixed problem mask = .ok tree ∧
      ∀ incumbent, tree.best = some incumbent →
        incumbent.IsFoundIn problem settings.integerTolerance mask tree.nodes := by
  obtain ⟨integral, masked, same⟩ := vectorOf?_of_length length
  obtain ⟨tree, explored, _, _, invariant, _⟩ := settings.explore_induction
    (RoundingInvariant problem settings.integerTolerance integral)
    (fun _ _ _ invariant => invariant.visit exactSolver valid) settings.maxNodes
    (RoundingInvariant.start valid settings.integerTolerance integral)
  refine ⟨tree, ?_, fun incumbent held => ?_⟩
  · unfold solveMixed
    rw [problem.validate_of_valid valid, masked]
    exact explored
  · subst same
    exact invariant.found incumbent held

/-- The statement at a search whose incumbent was integral before it was rounded, and so passes the
checks. -/
theorem BranchAndBound.incumbent_isRounded_knapsackProblem :
    knapsackProblem.Valid ∧ [true, true].length = knapsackProblem.numVars ∧
      ∃ tree incumbent,
        ({ solver := { tolerance := 0 } } : BranchAndBound Rat).solveMixed knapsackProblem
            [true, true] = .ok tree ∧
          tree.best = some incumbent ∧
          incumbent.IsFoundIn knapsackProblem 0.001 [true, true] tree.nodes ∧
          (∀ constraint ∈ knapsackProblem.constraints,
            constraint.isSatisfiedBy incumbent.values = true) ∧
          incumbent.objective = knapsackProblem.evaluate incumbent.values := by
  refine ⟨knapsackProblem_valid, rfl, ?_⟩
  obtain ⟨tree, searched, found⟩ := incumbent_isRounded { solver := { tolerance := 0 } } rfl
    knapsackProblem knapsackProblem_valid [true, true] rfl
  have ran : (({ solver := { tolerance := 0 } } : BranchAndBound Rat).solveMixed knapsackProblem
      [true, true]).map (fun tree => tree.best.map fun incumbent =>
        tree.nodes.toList.all fun node => node.id != incumbent.node ||
          node.relaxation.outcome.values == incumbent.values) = .ok (some true) := by
    decide +kernel
  rw [searched] at ran
  obtain ⟨incumbent, held, unmoved⟩ := Option.map_eq_some_iff.1 (Except.ok.inj ran)
  have rounded := found incumbent held
  obtain ⟨node, member, same, point, outcome, isRounded⟩ := found incumbent held
  have kept : point = incumbent.values := by
    have tested := List.all_eq_true.1 unmoved node (Array.mem_toList_iff.2 member)
    rw [outcome] at tested
    simpa [same, Outcome.values] using tested
  obtain ⟨satisfied, objective⟩ := isRounded.genuine (kept ▸ isRounded.whole)
  exact ⟨tree, incumbent, searched, held, rounded, satisfied, objective⟩

/-- A problem whose only vertex besides zero is near to a whole number. -/
def nearlyWholeProblem : Problem Rat :=
  ((Problem.withVariables 1).setObjective [1] .maximize).constrain [2000] .atMost 3999

/-- With the default integer tolerance an incumbent can violate a constraint, and its objective is
not that of its values. -/
theorem BranchAndBound.incumbent_of_nearlyWholeProblem :
    nearlyWholeProblem.Valid ∧ ∃ tree incumbent,
      ({ solver := { tolerance := 0 } } : BranchAndBound Rat).solveMixed nearlyWholeProblem
          [true] = .ok tree ∧
        tree.best = some incumbent ∧
        (∃ constraint ∈ nearlyWholeProblem.constraints,
          constraint.isSatisfiedBy incumbent.values = false) ∧
        incumbent.objective ≠ nearlyWholeProblem.evaluate incumbent.values := by
  refine ⟨Problem.fault?_eq_none_iff.1 (by decide +kernel), ?_⟩
  have ran : (({ solver := { tolerance := 0 } } : BranchAndBound Rat).solveMixed
      nearlyWholeProblem [true]).map (fun tree => tree.best.map fun incumbent =>
        nearlyWholeProblem.constraints.all (fun constraint =>
          constraint.isSatisfiedBy incumbent.values) ||
        incumbent.objective == nearlyWholeProblem.evaluate incumbent.values) =
      .ok (some false) := by decide +kernel
  cases searched : ({ solver := { tolerance := 0 } } : BranchAndBound Rat).solveMixed
      nearlyWholeProblem [true] with
  | error fault =>
    rw [searched] at ran
    cases ran
  | ok tree =>
    rw [searched] at ran
    obtain ⟨incumbent, held, wrong⟩ := Option.map_eq_some_iff.1 (Except.ok.inj ran)
    obtain ⟨violated, other⟩ := Bool.or_eq_false_iff.1 wrong
    refine ⟨tree, incumbent, rfl, held, ?_, fun same => ?_⟩
    · obtain ⟨constraint, member, missed⟩ := List.all_eq_false.1 violated
      exact ⟨constraint, member, Bool.not_eq_true _ ▸ missed⟩
    · rw [same, beq_self_eq_true] at other
      cases other

end LinearProgramming
