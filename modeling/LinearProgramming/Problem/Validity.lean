/-
This file says which problems can be solved: there is a variable, every list of coefficients has
one entry per variable, and every number is finite.

The first fault of a problem, in reading order, is found by a function; a problem without a
fault is exactly a valid one.
-/

import LinearProgramming.Error
import LinearProgramming.Problem

namespace LinearProgramming

variable {α : Type} [Scalar α]

namespace Constraint

/-- All numbers of the constraint are finite. -/
def isFinite (constraint : Constraint α) : Bool :=
  Scalar.isFinite constraint.rhs && constraint.coefficients.all Scalar.isFinite

/-- A constraint that can stand in a problem with a given number of variables. -/
structure Fits (constraint : Constraint α) (count : Nat) : Prop where
  length : constraint.coefficients.length = count
  finite : constraint.isFinite = true

/-- What keeps the constraint out of a problem with a given number of variables. -/
def fault? (count : Nat) (constraint : Constraint α) : Option ProblemError :=
  if constraint.coefficients.length ≠ count then
    some (.coefficientCount constraint.name count constraint.coefficients.length)
  else if constraint.isFinite then none
  else some (.nonFinite (.constraint constraint.name))

theorem fault?_eq_none_iff {count : Nat} {constraint : Constraint α} :
    constraint.fault? count = none ↔ constraint.Fits count := by
  unfold fault?
  split
  · rename_i different
    exact ⟨fun impossible => (nomatch impossible), fun fits => absurd fits.length different⟩
  · rename_i same
    split
    · rename_i finite
      exact ⟨fun _ => ⟨Decidable.not_not.1 same, finite⟩, fun _ => rfl⟩
    · rename_i infinite
      exact ⟨fun impossible => (nomatch impossible), fun fits => absurd fits.finite infinite⟩

end Constraint

namespace Problem

/-- A problem that can be solved. -/
structure Valid (problem : Problem α) : Prop where
  variableNames_ne_nil : problem.variableNames ≠ []
  objective_length : problem.objective.length = problem.numVars
  objective_finite : problem.objective.all Scalar.isFinite = true
  constraints_fit : ∀ constraint ∈ problem.constraints, constraint.Fits problem.numVars

/-- The first fault of the problem, if it has one. -/
def fault? (problem : Problem α) : Option ProblemError :=
  if problem.variableNames = [] then some .noVariables
  else if problem.objective.length ≠ problem.numVars then
    some (.objectiveLength problem.numVars problem.objective.length)
  else if problem.objective.all Scalar.isFinite then
    problem.constraints.findSome? (Constraint.fault? problem.numVars)
  else some (.nonFinite .objective)

theorem fault?_eq_none_iff {problem : Problem α} : problem.fault? = none ↔ problem.Valid := by
  unfold fault?
  split
  · rename_i empty
    exact ⟨fun impossible => (nomatch impossible),
      fun valid => absurd empty valid.variableNames_ne_nil⟩
  · rename_i nonempty
    split
    · rename_i different
      exact ⟨fun impossible => (nomatch impossible),
        fun valid => absurd valid.objective_length different⟩
    · rename_i same
      split
      · rename_i finite
        rw [List.findSome?_eq_none_iff]
        exact ⟨fun fits => ⟨nonempty, Decidable.not_not.1 same, finite,
            fun constraint member => Constraint.fault?_eq_none_iff.1 (fits constraint member)⟩,
          fun valid constraint member =>
            Constraint.fault?_eq_none_iff.2 (valid.constraints_fit constraint member)⟩
      · rename_i infinite
        exact ⟨fun impossible => (nomatch impossible),
          fun valid => absurd valid.objective_finite infinite⟩

/-- The evidence that the problem is valid, or its first fault. -/
def validate (problem : Problem α) : Except ProblemError (PLift problem.Valid) :=
  match found : problem.fault? with
  | some fault => .error fault
  | none => .ok ⟨fault?_eq_none_iff.1 found⟩

theorem validate_of_fault {problem : Problem α} {fault : ProblemError}
    (found : problem.fault? = some fault) : problem.validate = .error fault := by
  unfold validate
  split
  · rename_i other again
    rw [found] at again
    cases again
    rfl
  · rename_i again
    rw [found] at again
    cases again

theorem fault?_of_validate {problem : Problem α} {fault : ProblemError}
    (refused : problem.validate = .error fault) : problem.fault? = some fault := by
  cases found : problem.fault? with
  | some other =>
    rw [validate_of_fault found] at refused
    cases refused
    rfl
  | none =>
    unfold validate at refused
    split at refused
    · rename_i other again
      rw [found] at again
      cases again
    · cases refused

theorem validate_of_valid {problem : Problem α} (valid : problem.Valid) :
    problem.validate = .ok ⟨valid⟩ := by
  cases result : problem.validate with
  | ok evidence => rfl
  | error fault =>
    have found := fault?_of_validate result
    rw [fault?_eq_none_iff.2 valid] at found
    cases found

end Problem

end LinearProgramming
