/-
This file relates the changes of a problem to changes of its numbers.

By index every change is an update of a function: a row is replaced, an objective coefficient is
replaced, or a variable is added behind the others. Another right-hand side and another
coefficient are replacements of their row.
-/

import Mathlib
import LinearProgramming.Proofs.Duality
import LinearProgramming.Sensitivity.WhatIf

namespace LinearProgramming

theorem set_ofFn {β : Type} {count : Nat} (entry : Fin count → β) (i : Fin count) (other : β) :
    (List.ofFn entry).set i other = List.ofFn (Function.update entry i other) := by
  refine List.ext_getElem (by simp) fun position inSet inUpdate => ?_
  rw [List.getElem_set, List.getElem_ofFn, List.getElem_ofFn, Function.update_apply]
  exact if_congr (by rw [eq_comm, Fin.ext_iff]) rfl rfl

theorem ofFn_snoc {β : Type} {count : Nat} (entry : Fin count → β) (last : β) :
    List.ofFn (Fin.snoc (α := fun _ => β) entry last) = List.ofFn entry ++ [last] := by
  rw [List.ofFn_succ', List.concat_eq_append]
  simp

/-! ### Changes of one row -/

namespace Problem

variable {α : Type}

theorem setRhs_eq_replaceRow (problem : Problem α) (i : Fin problem.numRows) (rhs : α) :
    problem.setRhs i rhs = problem.replaceRow i { problem.row i with rhs } :=
  congrArg problem.withConstraints (List.modify_eq_set_get _ i.isLt)

theorem setCoefficient_eq_replaceRow (problem : Problem α) (i : Fin problem.numRows) (j : Nat)
    (coefficient : α) :
    problem.setCoefficient i j coefficient = problem.replaceRow i
      { problem.row i with coefficients := (problem.row i).coefficients.set j coefficient } :=
  congrArg problem.withConstraints (List.modify_eq_set_get _ i.isLt)

end Problem

/-! ### Changes by index -/

namespace IndexedProblem

variable {m n : Nat}

/-- The program with one row replaced. -/
def replaceRow (program : IndexedProblem m n) (row : Fin m) (name : String)
    (coefficients : Fin n → Rat) (relation : Relation) (rhs : Rat) : IndexedProblem m n :=
  { program with
    rowName := Function.update program.rowName row name
    coefficient := Function.update program.coefficient row coefficients
    relation := Function.update program.relation row relation
    rhs := Function.update program.rhs row rhs }

theorem toProblem_replaceRow (program : IndexedProblem m n) (row : Fin m) (name : String)
    (coefficients : Fin n → Rat) (relation : Relation) (rhs : Rat) :
    (program.replaceRow row name coefficients relation rhs).toProblem =
      program.toProblem.replaceRow row ⟨name, List.ofFn coefficients, relation, rhs⟩ := by
  have rows : (program.replaceRow row name coefficients relation rhs).constraint =
      Function.update program.constraint row ⟨name, List.ofFn coefficients, relation, rhs⟩ := by
    funext i
    by_cases same : i = row
    · subst same
      simp [constraint, replaceRow]
    · simp [constraint, replaceRow, same]
  unfold toProblem Problem.replaceRow
  rw [rows, ← set_ofFn]
  rfl

/-- The program with one objective coefficient replaced. -/
def setCost (program : IndexedProblem m n) (j : Fin n) (cost : Rat) : IndexedProblem m n :=
  { program with objective := Function.update program.objective j cost }

theorem toProblem_setCost (program : IndexedProblem m n) (j : Fin n) (cost : Rat) :
    (program.setCost j cost).toProblem = program.toProblem.setCost j cost := by
  unfold toProblem Problem.setCost
  rw [set_ofFn]
  rfl

/-- The program with one more variable behind the others. -/
def addVariable (program : IndexedProblem m n) (name : String) (cost : Rat) (column : Fin m → Rat) :
    IndexedProblem m (n + 1) :=
  { program with
    variableName := Fin.snoc program.variableName name
    objective := Fin.snoc program.objective cost
    coefficient := fun i => Fin.snoc (program.coefficient i) (column i) }

theorem toProblem_addVariable (program : IndexedProblem m n) (name : String) (cost : Rat)
    (column : Fin m → Rat) :
    (program.addVariable name cost column).toProblem =
      program.toProblem.addVariable name cost (List.ofFn column) := by
  have rows : List.ofFn (program.addVariable name cost column).constraint =
      List.zipWith (fun constraint coefficient =>
          { constraint with coefficients := constraint.coefficients ++ [coefficient] })
        (List.ofFn program.constraint) (List.ofFn column) := by
    rw [zipWith_eq_ofFn _ _ _ m List.length_ofFn List.length_ofFn]
    refine congrArg List.ofFn (funext fun i => ?_)
    simp only [List.get_ofFn]
    show Constraint.mk _ (List.ofFn (Fin.snoc (program.coefficient i) (column i))) _ _ = _
    rw [ofFn_snoc]
    rfl
  unfold toProblem Problem.addVariable
  rw [rows]
  show Problem.mk (List.ofFn (Fin.snoc program.variableName name))
    (List.ofFn (Fin.snoc program.objective cost)) _ _ = _
  rw [ofFn_snoc, ofFn_snoc]
  rfl

/-- The new variable adds nothing to the objective while it is zero. -/
theorem evaluate_addVariable (program : IndexedProblem m n) (name : String) (cost : Rat)
    (column : Fin m → Rat) (levels : Fin n → Rat) :
    (program.addVariable name cost column).toProblem.evaluate
        (List.ofFn (Fin.snoc (α := fun _ => Rat) levels 0)) =
      program.toProblem.evaluate (List.ofFn levels) := by
  rw [evaluate_toProblem, evaluate_toProblem, Fin.sum_univ_castSucc]
  simp only [IndexedProblem.addVariable, Fin.snoc_castSucc, Fin.snoc_last, mul_zero, add_zero]

/-- Prices that cover the new variable too bound the program with it. -/
theorem Prices.addVariable {program : IndexedProblem m n} {price : Fin m → BigM Rat}
    (prices : program.Prices price) (name : String) {cost : Rat} {column : Fin m → Rat}
    (covered : .ofScalar (program.sense.orient cost) ≤ ∑ i, column i • price i) :
    (program.addVariable name cost column).Prices price where
  allowed := prices.allowed
  covers j := by
    refine Fin.lastCases ?_ (fun j => ?_) j
    · simpa only [IndexedProblem.addVariable, Fin.snoc_last] using covered
    · simpa only [IndexedProblem.addVariable, Fin.snoc_castSucc] using prices.covers j

/-- The new variable may stay at zero. -/
theorem Allows.addVariable {program : IndexedProblem m n} {levels : Fin n → Rat}
    (allowed : program.Allows levels) (name : String) (cost : Rat) (column : Fin m → Rat) :
    (program.addVariable name cost column).Allows (Fin.snoc levels 0) where
  nonneg j := by
    refine Fin.lastCases ?_ (fun j => ?_) j
    · rw [Fin.snoc_last]
    · rw [Fin.snoc_castSucc]
      exact allowed.nonneg j
  holds i := by
    simpa only [IndexedProblem.addVariable, Fin.sum_univ_castSucc, Fin.snoc_castSucc, Fin.snoc_last,
      mul_zero, add_zero] using allowed.holds i

end IndexedProblem

end LinearProgramming
