/-
This file proves that the shadow prices of an analysis certify its optimum.

A shadow price is read from the objective row under the slack or surplus column of its row, with
the sign of this column, the sign of the row and the sense of the objective. Together these make
it the price that the inverse of the basis matrix gives to the row, so the prices have the signs
that the relations allow and cover every variable. A certificate also says what is idle: the worth
of the right-hand sides exceeds the objective by what the rows leave over and by what the columns
are worth too much, none of which is negative, so where the worth is attained each is zero.
-/

import Mathlib
import LinearProgramming.Proofs.Sensitivity.KeptOptimum

namespace LinearProgramming

/-! ### Complementary slackness -/

namespace IndexedProblem

variable {m n : Nat} {program : IndexedProblem m n} {price : Fin m → BigM Rat}
  {levels : Fin n → Rat}

/-- What a row leaves over below its right-hand side. -/
def rowGap (program : IndexedProblem m n) (levels : Fin n → Rat) (i : Fin m) : Rat :=
  program.rhs i - ∑ j, program.coefficient i j * levels j

/-- What the column of a variable is worth beyond its cost. -/
def columnGap (program : IndexedProblem m n) (price : Fin m → BigM Rat) (j : Fin n) : BigM Rat :=
  ∑ i, program.coefficient i j • price i - .ofScalar (program.sense.orient (program.objective j))

/-- The right-hand sides are worth the objective and both kinds of gaps. -/
theorem worth_eq_add_gaps (program : IndexedProblem m n) (price : Fin m → BigM Rat)
    (levels : Fin n → Rat) :
    ∑ i, program.rhs i • price i =
      .ofScalar (program.sense.orient (∑ j, program.objective j * levels j)) +
        (∑ i, program.rowGap levels i • price i + ∑ j, levels j • program.columnGap price j) := by
  have exchanged : ∑ i, (∑ j, program.coefficient i j * levels j) • price i =
      ∑ j, levels j • ∑ i, program.coefficient i j • price i := by
    simp only [Finset.sum_smul, Finset.smul_sum, smul_smul]
    rw [Finset.sum_comm]
    simp only [mul_comm]
  unfold rowGap columnGap
  simp only [sub_smul, smul_sub, Finset.sum_sub_distrib]
  rw [exchanged, ← program.sense.ofScalar_orient_sum]
  abel

theorem Prices.rowGap_smul_nonneg (prices : program.Prices price)
    (allowed : program.Allows levels) (i : Fin m) : 0 ≤ program.rowGap levels i • price i := by
  unfold rowGap
  rw [sub_smul, sub_nonneg]
  exact Relation.smul_le_smul (allowed.holds i) (prices.allowed i)

theorem Prices.smul_columnGap_nonneg (prices : program.Prices price)
    (allowed : program.Allows levels) (j : Fin n) : 0 ≤ levels j • program.columnGap price j :=
  smul_nonneg (allowed.nonneg j) (sub_nonneg.2 (prices.covers j))

section Attained

variable (prices : program.Prices price) (allowed : program.Allows levels)
  (attained : ∑ i, program.rhs i • price i =
    .ofScalar (program.sense.orient (∑ j, program.objective j * levels j)))

include prices allowed attained

/-- Where the worth of the right-hand sides is attained, neither kind of gaps adds to it. -/
theorem Prices.gaps_eq_zero :
    ∑ i, program.rowGap levels i • price i = 0 ∧
      ∑ j, levels j • program.columnGap price j = 0 := by
  have both := program.worth_eq_add_gaps price levels
  rw [attained, left_eq_add] at both
  exact (add_eq_zero_iff_of_nonneg
    (Finset.sum_nonneg fun i _ => prices.rowGap_smul_nonneg allowed i)
    (Finset.sum_nonneg fun j _ => prices.smul_columnGap_nonneg allowed j)).1 both

/-- A row that is not tight has no price. -/
theorem Prices.price_eq_zero {i : Fin m}
    (apart : ∑ j, program.coefficient i j * levels j ≠ program.rhs i) : price i = 0 := by
  have zero := (Finset.sum_eq_zero_iff_of_nonneg fun i _ =>
    prices.rowGap_smul_nonneg allowed i).1 (prices.gaps_eq_zero allowed attained).1 i
      (Finset.mem_univ i)
  exact (smul_eq_zero.1 zero).resolve_left fun closed => apart (sub_eq_zero.1 closed).symm

/-- A variable with a level has a column that is worth just its cost. -/
theorem Prices.worth_eq_cost {j : Fin n} (used : 0 < levels j) :
    ∑ i, program.coefficient i j • price i =
      .ofScalar (program.sense.orient (program.objective j)) := by
  have zero := (Finset.sum_eq_zero_iff_of_nonneg fun j _ =>
    prices.smul_columnGap_nonneg allowed j).1 (prices.gaps_eq_zero allowed attained).2 j
      (Finset.mem_univ j)
  exact sub_eq_zero.1 ((smul_eq_zero.1 zero).resolve_left used.ne')

end Attained

end IndexedProblem

/-! ### Certificates in the author's sense -/

/-- The sign of the price of a constraint. Relaxing a constraint cannot make the objective worse,
so the sign depends on the relation and on the sense. -/
def Sense.AllowsPrice (sense : Sense) (relation : Relation) (price : Rat) : Prop :=
  match sense, relation with
  | maximize, .atMost | minimize, .atLeast => 0 ≤ price
  | maximize, .atLeast | minimize, .atMost => price ≤ 0
  | _, .equal => True

/-- The worth of the column of a variable is on the side of its objective coefficient on which the
variable is not attractive. -/
def Sense.Covers (sense : Sense) (worth cost : Rat) : Prop :=
  match sense with
  | maximize => cost ≤ worth
  | minimize => worth ≤ cost

theorem Sense.allowsPrice_iff {sense : Sense} {relation : Relation} {price : Rat} :
    sense.AllowsPrice relation price ↔ relation.AllowsPrice (.ofScalar (sense.orient price)) := by
  have above (number : Rat) : (0 : BigM Rat) ≤ .ofScalar number ↔ 0 ≤ number := by
    rw [← BigM.ofScalar_zero, BigM.ofScalar_le_iff]
  have below (number : Rat) : .ofScalar number ≤ (0 : BigM Rat) ↔ number ≤ 0 := by
    rw [← BigM.ofScalar_zero, BigM.ofScalar_le_iff]
  cases sense with
  | maximize =>
    cases relation with
    | atMost => exact (above price).symm
    | atLeast => exact (below price).symm
    | equal => exact Iff.rfl
  | minimize =>
    cases relation with
    | atMost => exact neg_nonneg.symm.trans (above (-price)).symm
    | atLeast => exact neg_nonpos.symm.trans (below (-price)).symm
    | equal => exact Iff.rfl

theorem Sense.covers_iff {sense : Sense} {worth cost : Rat} :
    sense.Covers worth cost ↔ sense.orient cost ≤ sense.orient worth := by
  cases sense with
  | maximize => exact Iff.rfl
  | minimize => exact neg_le_neg_iff.symm

/-- Prices of the constraints that prove an objective optimal, together with the point at which it
is attained: the prices have the signs of their constraints and cover every variable, the
right-hand sides are worth the objective, a constraint that is not tight has no price, and a
variable with a level is worth just its objective coefficient. -/
structure Problem.Certificate (problem : Problem Rat) (valid : problem.Valid) (point : List Rat)
    (objective : Rat) (price : Fin problem.numRows → Rat) : Prop where
  length : point.length = problem.numVars
  allowed : ∀ i, problem.sense.AllowsPrice (problem.row i).relation (price i)
  covers : ∀ j, problem.sense.Covers (∑ i, problem.coefficient valid i j * price i)
    (problem.objectiveCoefficient valid j)
  worth : ∑ i, (problem.row i).rhs * price i = objective
  tight : ∀ i, (problem.row i).lhs point ≠ (problem.row i).rhs → price i = 0
  used : ∀ j, 0 < Problem.levelAt length j →
    ∑ i, problem.coefficient valid i j * price i = problem.objectiveCoefficient valid j

/-- Sums of multiples of prices without penalty are without penalty. -/
theorem Sense.sum_smul_ofScalar {ι : Type} [Fintype ι] (sense : Sense) (numbers price : ι → Rat) :
    ∑ i, numbers i • BigM.ofScalar (sense.orient (price i)) =
      .ofScalar (sense.orient (∑ i, numbers i * price i)) := by
  refine (sense.ofScalar_orient_sum price numbers).symm.trans ?_
  exact congrArg (fun sum => BigM.ofScalar (sense.orient sum))
    (Finset.sum_congr rfl fun i _ => mul_comm _ _)

theorem Sense.orient_injective (sense : Sense) :
    Function.Injective (sense.orient : Rat → Rat) :=
  Function.LeftInverse.injective sense.orient_orient

theorem Sense.orient_zero (sense : Sense) : sense.orient (0 : Rat) = 0 := by
  cases sense with
  | maximize => rfl
  | minimize => exact neg_zero

theorem Sense.ofScalar_orient_inj {sense : Sense} {left right : Rat} :
    BigM.ofScalar (sense.orient left) = .ofScalar (sense.orient right) ↔ left = right :=
  ⟨fun same => sense.orient_injective (congrArg BigM.value same), fun same => by rw [same]⟩

/-- Prices without penalty at which levels attain the worth of the right-hand sides are a
certificate. -/
theorem Problem.certificate_of_prices {problem : Problem Rat} (valid : problem.Valid)
    {levels : Fin problem.numVars → Rat} {price : Fin problem.numRows → Rat}
    (prices : (problem.indexed valid).Prices fun i => .ofScalar (problem.sense.orient (price i)))
    (allowed : (problem.indexed valid).Allows levels)
    (attained : ∑ i, (problem.row i).rhs • BigM.ofScalar (problem.sense.orient (price i)) =
      .ofScalar (problem.sense.orient
        (∑ j, problem.objectiveCoefficient valid j * levels j))) :
    problem.Certificate valid (List.ofFn levels) (problem.evaluate (List.ofFn levels)) price := by
  have length : (List.ofFn levels).length = problem.numVars := List.length_ofFn
  have levelAt_eq : Problem.levelAt length = levels := by
    funext j
    unfold Problem.levelAt
    rw [List.get_ofFn]
    rfl
  refine ⟨length, fun i => ?_, fun j => ?_, ?_, fun i apart => ?_, fun j positive => ?_⟩
  · exact Sense.allowsPrice_iff.2 (prices.allowed i)
  · have covered := prices.covers j
    rw [Sense.sum_smul_ofScalar problem.sense] at covered
    exact Sense.covers_iff.2 (BigM.ofScalar_le_iff.1 covered)
  · rw [problem.evaluate_eq valid length, levelAt_eq]
    rw [Sense.sum_smul_ofScalar] at attained
    exact Sense.ofScalar_orient_inj.1 attained
  · rw [problem.lhs_row valid length, levelAt_eq] at apart
    have zero := prices.price_eq_zero allowed attained apart
    exact problem.sense.orient_injective
      ((congrArg BigM.value zero).trans problem.sense.orient_zero.symm)
  · rw [levelAt_eq] at positive
    have worth := prices.worth_eq_cost allowed attained positive
    rw [Sense.sum_smul_ofScalar problem.sense] at worth
    exact Sense.ofScalar_orient_inj.1 worth

/-- A certificate proves what it is for: no feasible point has a better objective. -/
theorem Problem.Certificate.not_better {problem : Problem Rat} {valid : problem.Valid}
    {point : List Rat} {objective : Rat} {price : Fin problem.numRows → Rat}
    (certificate : problem.Certificate valid point objective price) {other : List Rat}
    (feasible : problem.Feasible other) :
    ¬ problem.sense.Better (problem.evaluate other) objective := by
  have prices : (problem.indexed valid).Prices
      fun i => .ofScalar (problem.sense.orient (price i)) := by
    refine ⟨fun i => Sense.allowsPrice_iff.1 (certificate.allowed i), fun j => ?_⟩
    rw [Sense.sum_smul_ofScalar problem.sense, BigM.ofScalar_le_iff]
    exact Sense.covers_iff.1 (certificate.covers j)
  rw [← problem.toProblem_indexed valid] at feasible
  obtain ⟨levels, rfl, allowed⟩ := IndexedProblem.exists_levels_of_feasible feasible
  have below := prices.objective_le allowed
  rw [Sense.sum_smul_ofScalar problem.sense, BigM.ofScalar_le_iff] at below
  rw [Sense.not_better_iff, ← certificate.worth]
  refine Eq.trans_le (congrArg problem.sense.orient ?_) below
  have evaluated := (problem.indexed valid).evaluate_toProblem levels
  rwa [problem.toProblem_indexed] at evaluated

/-! ### Shadow prices -/

/-- Every inequality has a slack or a surplus column. -/
theorem Problem.slackColumn?_of_ne_equal (problem : Problem Rat) {i : Fin problem.numRows}
    (inequality : (problem.row i).relation ≠ .equal) :
    ∃ closing, problem.slackColumn? i = some closing := by
  have signed : problem.rowRelation i ≠ .equal := by
    rcases problem.rowSign_cases i with ⟨_, _, flipped⟩ | ⟨_, _, same⟩
    · rw [flipped]
      cases relation : (problem.row i).relation with
      | atMost | atLeast => exact Relation.noConfusion
      | equal => exact absurd relation inequality
    · rw [same]
      exact inequality
  unfold slackColumn?
  cases relation : problem.rowRelation i with
  | atMost => exact ⟨_, rfl⟩
  | atLeast => exact ⟨_, rfl⟩
  | equal => exact absurd relation signed

namespace OptimalBasis

variable {problem : Problem Rat} (basis : OptimalBasis problem)

/-- The objective row under a slack or surplus column, with the sign of the column, is the price
of the row before its sign. -/
theorem objectiveEntry_mul_slackSign {i : Fin problem.numRows} {column : Fin problem.numColumns}
    (closes : problem.slackColumn? i = some (problem.columnVector.get column)) :
    (basis.tableau.objectiveEntry column).value *
        (problem.columnVector.get column).slackSign =
      (∑ row, basis.inverse row i • basis.basicCost row).value := by
  have priced := basis.objectiveEntry_eq column
  rcases Problem.slackColumn?_kind closes with slack | surplus
  · simp only [basis.represents.entry_slack slack] at priced
    rw [priced, slack]
    exact (mul_one _).trans (congrArg BigM.value (sub_zero _))
  · simp only [basis.represents.entry_surplus surplus, neg_smul, Finset.sum_neg_distrib] at priced
    rw [priced, surplus]
    exact (mul_neg_one _).trans ((congrArg (fun number => -BigM.value number) (sub_zero _)).trans
      (neg_neg _))

/-- The slack or surplus column of a row is found at its index. -/
theorem get_slackOf {i : Fin problem.numRows} {closing : Column problem.numVars problem.numRows}
    (closes : problem.slackColumn? i = some closing) :
    ∃ column : Fin problem.numColumns, basis.analysis.form.slackOf.get i = some column ∧
      problem.columnVector.get column = closing := by
  have listed : basis.analysis.form.slackOf.get i = problem.columns.finIdxOf? closing :=
    (get_vectorOfFn _ i).trans (congrArg (·.bind problem.columns.finIdxOf?) closes)
  have found : (problem.columns.finIdxOf? closing).isSome :=
    List.isSome_finIdxOf?.trans (List.contains_iff_mem.2 (problem.slackColumn?_mem closes))
  obtain ⟨column, found⟩ := Option.isSome_iff_exists.1 found
  exact ⟨column, listed.trans found, (List.finIdxOf?_eq_some_iff.1 found).1⟩

/-- The shadow price of an inequality is the price that the inverse gives to its row, in the
author's sense. -/
theorem shadowPrice_eq {i : Fin problem.numRows} (inequality : (problem.row i).relation ≠ .equal) :
    basis.analysis.shadowPrice i =
      problem.sense.orient (problem.rowPrice basis.inverse basis.basicCost i).value := by
  obtain ⟨closing, closes⟩ := problem.slackColumn?_of_ne_equal inequality
  obtain ⟨column, found, listed⟩ := basis.get_slackOf closes
  have priced := basis.objectiveEntry_mul_slackSign (closes.trans (congrArg some listed.symm))
  have sign : basis.analysis.form.rowSigns.get i = problem.rowSign i := get_vectorOfFn _ i
  unfold Sensitivity.shadowPrice
  rw [found]
  refine congrArg problem.sense.orient ?_
  refine (congrArg₂ (· * ·) priced sign).trans ?_
  rw [Problem.rowPrice, BigM.value_smul, mul_comm]

/-- Without artificial columns in the basis no row has a penalty in its price. -/
theorem penalty_rowPrice
    (noArtificial : ∀ row,
      (problem.columnVector.get (basis.tableau.basis.get row)).isArtificial = false)
    (i : Fin problem.numRows) :
    (problem.rowPrice basis.inverse basis.basicCost i).penalty = 0 := by
  have free : ∀ row, (basis.basicCost row).penalty = 0 := fun row =>
    (congrArg BigM.penalty (Problem.cost_eq_columnCost basis.valid _).symm).trans
      ((Problem.penalty_cost basis.valid _).trans (by rw [noArtificial row]; rfl))
  rw [Problem.rowPrice, BigM.penalty_smul, BigM.penalty_sum, Finset.sum_eq_zero, mul_zero]
  intro row _
  rw [BigM.penalty_smul, free, mul_zero]

/-- Where every constraint is an inequality and no artificial column is basic, the shadow prices
certify the optimum of the analysis. -/
theorem certificate (inequalities : ∀ i, (problem.row i).relation ≠ .equal)
    (noArtificial : ∀ row,
      (problem.columnVector.get (basis.tableau.basis.get row)).isArtificial = false) :
    problem.Certificate basis.valid basis.analysis.values basis.analysis.objectiveValue
      basis.analysis.shadowPrice := by
  have exact : problem.rowPrice basis.inverse basis.basicCost =
      fun i => .ofScalar (problem.sense.orient (basis.analysis.shadowPrice i)) := by
    funext i
    refine BigM.ext_parts ?_ (basis.penalty_rowPrice noArtificial i)
    rw [basis.shadowPrice_eq (inequalities i), Sense.orient_orient]
    rfl
  have prices := basis.keeps.prices
  have attained := basis.keeps.attained
  rw [exact] at prices
  simp only [exact] at attained
  rw [basis.acceptsOptimum_self.objective_eq, basis.values_eq]
  exact Problem.certificate_of_prices basis.valid prices basis.keeps.allows attained

theorem shadowPrices_eq : basis.analysis.shadowPrices =
    List.ofFn fun i : Fin problem.numRows =>
      ⟨i, (problem.row i).name, basis.analysis.shadowPrice i⟩ :=
  List.ofFn_eq_map.symm

end OptimalBasis

namespace Sensitivity

/-- Shadow prices certify the optimum. When an analysis is from a run without tolerance, its
problem has no equation and no artificial column is basic, the reported shadow prices are a
certificate for the reported objective and values. -/
theorem shadowPrices_certify (problem : Problem Rat) (valid : problem.Valid)
    (analysis : Sensitivity Rat) (made : OfExactRun problem analysis)
    (inequalities : ∀ constraint ∈ problem.constraints, constraint.relation ≠ .equal)
    (noArtificial : ∀ row,
      analysis.form.isArtificial (analysis.tableau.basis.get row) = false) :
    ∃ price : Fin problem.numRows → Rat,
      analysis.shadowPrices =
        List.ofFn (fun i => ⟨i, (problem.row i).name, price i⟩) ∧
      problem.Certificate valid analysis.values analysis.objectiveValue price := by
  obtain ⟨basis, rfl⟩ := made.exists_basis
  exact ⟨basis.analysis.shadowPrice, basis.shadowPrices_eq,
    basis.certificate (fun i => inequalities _ (List.get_mem _ i)) noArtificial⟩

/-- A problem to be made small, with a negated row, a lower bound and a constraint that is not
tight. -/
def coverProblem : Problem Rat :=
  ((((Problem.withVariables 2).setObjective [2, 3] .minimize).constrain [-1, -1] .atMost
    (-4)).constrain [1, 3] .atLeast 6).constrain [1, 0] .atMost 10

/-- The statement at a problem whose prices have both signs. -/
theorem shadowPrices_certify_coverProblem :
    coverProblem.Valid ∧ ∃ analysis, OfExactRun coverProblem analysis ∧
      (∀ constraint ∈ coverProblem.constraints, constraint.relation ≠ .equal) ∧
      (∀ row, analysis.form.isArtificial (analysis.tableau.basis.get row) = false) ∧
      ∃ (valid : coverProblem.Valid) (price : Fin coverProblem.numRows → Rat),
        analysis.shadowPrices.map ShadowPrice.value = [-3 / 2, 1 / 2, 0] ∧
        analysis.shadowPrices =
          List.ofFn (fun i => ⟨i, (coverProblem.row i).name, price i⟩) ∧
        coverProblem.Certificate valid analysis.values analysis.objectiveValue price := by
  have valid : coverProblem.Valid := Problem.fault?_eq_none_iff.1 (by decide +kernel)
  have inequalities : ∀ constraint ∈ coverProblem.constraints, constraint.relation ≠ .equal := by
    decide +kernel
  have inspected : (analyze coverProblem { tolerance := 0 }).map (fun analysis =>
      (analysis.tableau.basis.toList.any analysis.form.isArtificial,
        analysis.shadowPrices.map ShadowPrice.value)) = .ok (false, [-3 / 2, 1 / 2, 0]) := by
    decide +kernel
  cases analyzed : analyze coverProblem { tolerance := 0 } with
  | error fault =>
    rw [analyzed] at inspected
    cases inspected
  | ok analysis =>
    rw [analyzed] at inspected
    have made := ofExactRun_of_analyze rfl analyzed
    obtain ⟨settled, prices⟩ := Prod.mk.inj (Except.ok.inj inspected)
    have noArtificial : ∀ row,
        analysis.form.isArtificial (analysis.tableau.basis.get row) = false := fun row =>
      Bool.not_eq_true _ ▸ List.any_eq_false.1 settled _
        (Vector.mem_toList_iff.2 (Vector.getElem_mem row.isLt))
    obtain ⟨price, listed, certificate⟩ :=
      shadowPrices_certify coverProblem valid analysis made inequalities noArtificial
    exact ⟨valid, analysis, made, inequalities, noArtificial, valid, price, prices, listed,
      certificate⟩

end Sensitivity

end LinearProgramming
