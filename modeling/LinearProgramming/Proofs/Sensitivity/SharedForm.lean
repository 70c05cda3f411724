/-
This file says which runs an analysis of a problem accepts, and what it makes of them.

A run is compared with the problem through the standard form alone, which knows neither the sense of
the objective nor the names of the constraints. So a run on another problem is accepted too when the
forms are equal. Nothing is lost by that: a run does not look at the sense until it reports an
objective, and the names of the rows are read from the problem. However the run was driven, if it
ended with an optimum it is the run to the end on the problem itself, up to the sense, and the
analysis is the one that the problem gets without any run at hand.
-/

import Mathlib
import LinearProgramming.Proofs.RunTrace
import LinearProgramming.Proofs.Sensitivity.Analysis
import LinearProgramming.Proofs.Sensitivity.OppositeAnalysis
import LinearProgramming.Proofs.StandardForm.OrientedRows

namespace LinearProgramming

/-! ### Problems with one form -/

theorem Sense.eq_or_eq_opposite (sense other : Sense) : sense = other ∨ sense = other.opposite := by
  cases sense <;> cases other <;> simp [opposite]

namespace Problem

/-- The problem with other names of its constraints, by position. -/
def renameRows (problem : Problem Rat) (names : Nat → String) : Problem Rat :=
  problem.withConstraints
    (problem.constraints.mapIdx fun position constraint => { constraint with name := names position })

variable {problem : Problem Rat} (names : Nat → String)

theorem Valid.renameRows (valid : problem.Valid) : (problem.renameRows names).Valid where
  variableNames_ne_nil := valid.variableNames_ne_nil
  objective_length := valid.objective_length
  objective_finite := valid.objective_finite
  constraints_fit constraint member := by
    obtain ⟨position, inRange, rfl⟩ := List.mem_mapIdx.1 member
    have fits := valid.constraints_fit _ (List.getElem_mem inRange)
    exact ⟨fits.length, fits.finite⟩

theorem numRows_renameRows (problem : Problem Rat) (names : Nat → String) :
    (problem.renameRows names).numRows = problem.numRows := List.length_mapIdx

theorem row_renameRows (i : Fin (problem.renameRows names).numRows) :
    (problem.renameRows names).row i =
      { problem.row (i.cast (problem.numRows_renameRows names)) with name := names i } :=
  List.getElem_mapIdx

end Problem

theorem StandardForm.agrees_self (form : StandardForm Rat) : form.agrees form = true := by
  simp [agrees]

/-- A form does not know the names of the constraints. -/
theorem StandardForm.ofProblem_renameRows {problem : Problem Rat} (valid : problem.Valid)
    (names : Nat → String) :
    ofProblem (problem.renameRows names) (valid.renameRows names) = ofProblem problem valid := by
  have count := problem.numRows_renameRows names
  have sign : ∀ i, (problem.renameRows names).rowSign i = problem.rowSign (i.cast count) := by
    intro i
    unfold Problem.rowSign
    rw [Problem.row_renameRows]
  have coefficient : ∀ i j, (problem.renameRows names).coefficient (valid.renameRows names) i j =
      problem.coefficient valid (i.cast count) j := by
    intro i j
    refine Option.some.inj (((Problem.getElem?_coefficients _ i j).symm.trans ?_).trans
      (Problem.getElem?_coefficients valid (i.cast count) j))
    rw [Problem.row_renameRows]
  have oriented : ∀ i, (problem.renameRows names).orientedRow (valid.renameRows names) i =
      problem.orientedRow valid (i.cast count) := by
    intro i
    unfold Problem.orientedRow Problem.rowRelation
    simp only [sign, coefficient, Problem.row_renameRows]
    rfl
  exact (ofProblem_withConstraints valid (valid.renameRows names) count oriented sign).trans
    (ofRows_orientedRow valid)

namespace Run

variable {form : StandardForm Rat}

/-- A run that has ended has been run to its end, however it was driven. -/
theorem drive_eq_complete {run : Run form} {calls : List Call} {status : Status}
    (ended : (run.drive calls).status = some status) : run.drive calls = run.complete := by
  have same := drive_induction (fun later => later.complete = run.complete)
    (fun later same => (complete_step later).trans same) calls rfl
  rwa [complete_of_ended ended] at same

end Run

namespace Sensitivity

variable {problem : Problem Rat} {form : StandardForm Rat}

/-- A run on the form of a problem is accepted when it ended with an optimum, and otherwise refused
with its status. -/
theorem ofRun_eq (valid : problem.Valid) (same : StandardForm.ofProblem problem valid = form)
    (run : Run form) :
    ofRun problem run =
      if run.status = some .optimal then
        .ok ⟨problem, valid, run.solver, form, run.tableau,
          (congrArg StandardForm.numVars same).symm, (congrArg StandardForm.numRows same).symm⟩
      else .error (.notOptimal (run.status.getD .notConverged)) := by
  subst same
  unfold ofRun
  refine if_congr Iff.rfl ?_ rfl
  rw [problem.validate_of_valid valid]
  refine (dif_pos rfl).trans ((dif_pos rfl).trans ?_)
  exact if_pos (StandardForm.agrees_self _)

/-- A run is accepted exactly when it ended with an optimum and its form is that of the problem. -/
theorem exists_ofRun_iff (run : Run form) :
    (∃ analysis, ofRun problem run = .ok analysis) ↔
      run.status = some .optimal ∧
        ∃ valid : problem.Valid, StandardForm.ofProblem problem valid = form := by
  constructor
  · rintro ⟨analysis, made⟩
    obtain ⟨optimal, valid, _, _, same, _⟩ := ofRun_eq_ok made
    exact ⟨optimal, valid, same.symm⟩
  · rintro ⟨optimal, valid, same⟩
    rw [ofRun_eq valid same, if_pos optimal]
    exact ⟨_, rfl⟩

/-- On the form of a problem the sense of the run makes no difference to the analysis. -/
theorem ofRun_complete (solver : Solver Rat) (sense : Sense) (valid : problem.Valid) :
    ofRun problem (Run.initial solver sense (.ofProblem problem valid)).complete =
      analyze problem solver := by
  have analyzed : analyze problem solver =
      ofRun problem (Run.initial solver problem.sense (.ofProblem problem valid)).complete := by
    unfold analyze
    rw [solver.start_eq valid]
    rfl
  rw [analyzed]
  rcases sense.eq_or_eq_opposite problem.sense with rfl | rfl
  · rfl
  · show ofRun problem (Run.initial solver problem.sense _).opposite.complete = _
    rw [Run.complete_opposite]
    rfl

/-- What an accepted run makes of a problem is the analysis of the problem. -/
theorem analyze_of_ofRun {solver : Solver Rat} {sense : Sense} {calls : List Run.Call}
    {analysis : Sensitivity Rat}
    (made : ofRun problem ((Run.initial solver sense form).drive calls) = .ok analysis) :
    analyze problem solver = .ok analysis := by
  obtain ⟨optimal, valid, _, _, rfl, _⟩ := ofRun_eq_ok made
  rw [Run.drive_eq_complete optimal] at made
  exact (ofRun_complete solver sense valid).symm.trans made

/-- An accepted run gives the analysis of the problem itself. When a run is started on a valid
problem and driven by any calls, an analysis of another problem accepts it exactly when it has ended
with an optimum and the other problem is valid and has the same standard form. The analysis is then
the one that the other problem gets with the same settings, in all its parts and so with all its
answers. Other names of the constraints and the opposite problem have the same form. -/
theorem ofRun_drive_iff (solver : Solver Rat) (problem other : Problem Rat)
    (validOther : other.Valid) :
    ∃ run : Run (.ofProblem other validOther),
      solver.start other = .ok ⟨.ofProblem other validOther, run⟩ ∧
        (∀ calls,
          ((∃ analysis, ofRun problem (run.drive calls) = .ok analysis) ↔
            (run.drive calls).status = some .optimal ∧ ∃ valid : problem.Valid,
              StandardForm.ofProblem problem valid = .ofProblem other validOther) ∧
          ∀ analysis, ofRun problem (run.drive calls) = .ok analysis →
            analyze problem solver = .ok analysis) ∧
        ∀ names, ∃ (valid : (other.renameRows names).Valid)
            (validOpposite : (other.renameRows names).opposite.Valid),
          StandardForm.ofProblem (other.renameRows names) valid = .ofProblem other validOther ∧
            StandardForm.ofProblem (other.renameRows names).opposite validOpposite =
              .ofProblem other validOther := by
  refine ⟨_, solver.start_eq validOther, fun calls => ⟨exists_ofRun_iff _, fun analysis made =>
    analyze_of_ofRun made⟩, fun names => ?_⟩
  have renamed := StandardForm.ofProblem_renameRows validOther names
  exact ⟨validOther.renameRows names, (validOther.renameRows names).opposite, renamed,
    (StandardForm.ofProblem_opposite _).trans renamed⟩

/-- The opposite of a problem with other names of its constraints. -/
def renamedProblem : Problem Rat :=
  (mixedProblem.renameRows fun position => s!"row {position}").opposite

theorem renamedProblem_valid : renamedProblem.Valid := (mixedProblem_valid.renameRows _).opposite

/-- The statement at a run on a problem with the other sense and other names. -/
theorem ofRun_drive_iff_renamedProblem :
    renamedProblem.Valid ∧
      ∃ (run : Run (.ofProblem renamedProblem renamedProblem_valid)) (analysis : Sensitivity Rat),
        ({} : Solver Rat).start renamedProblem =
            .ok ⟨.ofProblem renamedProblem renamedProblem_valid, run⟩ ∧
          ofRun mixedProblem (run.drive [.step, .complete]) = .ok analysis ∧
          analyze mixedProblem {} = .ok analysis := by
  have driven : (({} : Solver Rat).start renamedProblem).map (fun started =>
      (started.2.drive [.step, .complete]).status) = .ok (some .optimal) := by
    decide +kernel
  have same : StandardForm.ofProblem mixedProblem mixedProblem_valid =
      .ofProblem renamedProblem renamedProblem_valid :=
    ((StandardForm.ofProblem_opposite (mixedProblem_valid.renameRows _)).trans
      (StandardForm.ofProblem_renameRows mixedProblem_valid _)).symm
  obtain ⟨run, started, accepted, _⟩ :=
    ofRun_drive_iff {} mixedProblem renamedProblem renamedProblem_valid
  obtain ⟨iff, own⟩ := accepted [.step, .complete]
  rw [started] at driven
  obtain ⟨analysis, made⟩ := iff.2 ⟨Except.ok.inj driven, mixedProblem_valid, same⟩
  exact ⟨renamedProblem_valid, run, analysis, started, made, own analysis made⟩

end Sensitivity

end LinearProgramming
