/-
This file proves that the cautious pivot rule never cycles when it computes exactly.

Suppose a run came back to a set of basic columns. Then the objective is what it was, so no pivot
in between changed it, every ratio in between was zero, and all levels stayed as they were. Of the
columns that entered meanwhile take the last one by index. It entered on one tableau as the first
negative entry and left on another, where some column with a smaller index entered. The objective
rows of two tableaux of one form differ by what the direction of that column picks up, and this
forces a row whose basic column has a smaller index than the leaving one and the same zero ratio.
The rule would have taken that row.

A run therefore meets no set of basic columns twice, and there are only so many sets of the right
size. A cap on pivots that is at least their number is never reached.
-/

import Mathlib
import LinearProgramming.Proofs.Unboundedness

namespace LinearProgramming

/-! ### What the cautious rule chooses -/

namespace PivotRule

variable {m n : Nat}

/-- Before the column that enters no entry of the objective row is negative. -/
theorem nonneg_before_entering_bland {objectiveRow : Vector (BigM Rat) n} {column : Fin n}
    (entered : bland.entering 0 objectiveRow = some column) {j : Fin n} (before : j < column) :
    0 ≤ objectiveRow.get j := by
  obtain ⟨_, earlier, later, listed, skipped⟩ := List.find?_eq_some_iff_append.1 entered
  have notNegative := skipped j ((mem_of_finRange_eq_append listed).1 before)
  rw [Bool.not_eq_true', ← Bool.not_eq_true, BigM.isNegativeWithin_zero_iff] at notNegative
  exact not_lt.1 notNegative

/-- A choice of the cautious rule among scanned rows: rows with the same ratio have no earlier
basic column. -/
def IsCautious (basis : Vector (Fin n) m) (ratios : Vector (Option Rat) m) (rows : List (Fin m)) :
    Option (Fin m × Rat) → Prop
  | none => True
  | some (found, least) =>
    ∀ row ∈ rows, ratios.get row = some least → basis.get found ≤ basis.get row

/-- Without tolerance near ratios are equal, so no row with the ratio that the scan of the cautious
rule ends with has an earlier basic column. -/
theorem scanned_bland_isCautious (basis : Vector (Fin n) m) (ratios : Vector (Option Rat) m) :
    IsCautious basis ratios (List.finRange m) (bland.scanned basis ratios) := by
  rw [scanned_eq_scan]
  rcases scan_bland_isCautiousWithin le_rfl basis (inLayers_zero (ratioEntries ratios)) with
    ⟨_, nothing⟩ | ⟨held, found, cautious⟩
  · rw [nothing]
    trivial
  · rw [found]
    intro row _ tied
    have equal : |held.2 - held.2| ≤ 0 := by rw [sub_self, abs_zero]
    exact cautious.first (row, held.2) (mem_ratioEntries.2 tied) equal

/-- Of the rows with the least ratio the one with the first basic column leaves. -/
theorem first_of_leaving_bland {basis : Vector (Fin n) m} {ratios : Vector (Option Rat) m}
    {leaves : Fin m} (left : bland.leaving 0 basis ratios = some leaves) {row : Fin m}
    (tied : ratios.get row = ratios.get leaves) : basis.get leaves ≤ basis.get row := by
  have least := bland.scanned_isLeast basis ratios
  have cautious := scanned_bland_isCautious basis ratios
  rw [leaving_eq_scanned] at left
  obtain ⟨held, found, rfl⟩ := Option.map_eq_some_iff.1 left
  rw [found] at least cautious
  exact cautious row (List.mem_finRange row) (tied.trans least.1)

end PivotRule

/-! ### Tableaux of one form -/

namespace Tableau

/-- The set of the basic columns. -/
def basicColumns {α : Type} {m n : Nat} (tableau : Tableau α m n) : Finset (Fin n) :=
  Finset.univ.image tableau.basis.get

theorem mem_basicColumns {α : Type} {m n : Nat} {tableau : Tableau α m n} {column : Fin n} :
    column ∈ tableau.basicColumns ↔ ∃ row, tableau.basis.get row = column := by
  unfold basicColumns
  simp

theorem levelOf_of_not_mem {m n : Nat} {tableau : Tableau Rat m n} {column : Fin n}
    (notBasic : column ∉ tableau.basicColumns) : tableau.levelOf column = 0 :=
  levelOf_of_not_basic fun ⟨row, same⟩ => notBasic (mem_basicColumns.2 ⟨row, same⟩)

/-- A pivot adds the entering column to the basic columns and takes away the leaving one. -/
theorem mem_basicColumns_pivot {m n : Nat} {tableau : Tableau Rat m n}
    (injective : Function.Injective tableau.basis.get) {row : Fin m} {column other : Fin n} :
    other ∈ (tableau.pivot 0 row column).basicColumns ↔
      other = column ∨ other ∈ tableau.basicColumns ∧ other ≠ tableau.basis.get row := by
  have replaced : ∀ i, (tableau.pivot 0 row column).basis.get i =
      if i = row then column else tableau.basis.get i :=
    fun i => get_replaceEntry tableau.basis row i column
  simp only [mem_basicColumns, replaced]
  constructor
  · rintro ⟨i, rfl⟩
    by_cases same : i = row
    · exact Or.inl (if_pos same)
    · rw [if_neg same]
      exact Or.inr ⟨⟨i, rfl⟩, fun equal => same (injective equal)⟩
  · rintro (rfl | ⟨⟨i, rfl⟩, stays⟩)
    · exact ⟨row, if_pos rfl⟩
    · exact ⟨i, if_neg fun same => stays (congrArg tableau.basis.get same)⟩

namespace Represents

variable {form : StandardForm Rat}
  {inverse other : Matrix (Fin form.numRows) (Fin form.numRows) Rat}
  {tableau tableau' : Tableau Rat form.numRows form.numColumns}
  (represents : Represents form inverse tableau)

include represents

theorem card_basicColumns : tableau.basicColumns.card = form.numRows := by
  unfold basicColumns
  rw [Finset.card_image_of_injective _ represents.basis_injective, Finset.card_univ,
    Fintype.card_fin]

theorem objectiveEntry_of_mem {column : Fin form.numColumns}
    (basic : column ∈ tableau.basicColumns) : tableau.objectiveEntry column = 0 := by
  obtain ⟨row, rfl⟩ := mem_basicColumns.1 basic
  exact represents.objectiveEntry_basis row

/-- Two objective rows of one form differ under a column by what the basic columns of the first
have in the second. -/
theorem objectiveEntry_eq_of_represents (represents' : Represents form other tableau')
    (column : Fin form.numColumns) :
    tableau.objectiveEntry column = tableau'.objectiveEntry column -
      ∑ row, tableau.entry row column • tableau'.objectiveEntry (tableau.basis.get row) := by
  have priced := represents.costOf_direction_add_sum represents' column
  rw [represents.costOf_direction, sum_direction_smul] at priced
  exact (neg_add_eq_zero.1 priced)

/-- The levels of a basis are the only ones that satisfy the equations and vanish outside it. -/
theorem levelOf_eq {levels : Fin form.numColumns → Rat}
    (equations : ∀ i, ∑ j, form.a.get i j * levels j = form.b.get i)
    (outside : ∀ j, j ∉ tableau.basicColumns → levels j = 0) : tableau.levelOf = levels := by
  funext column
  by_cases basic : column ∈ tableau.basicColumns
  · obtain ⟨row, rfl⟩ := mem_basicColumns.1 basic
    rw [levelOf_basis represents.basis_injective, represents.rhs_eq,
      ← represents.sum_entry_mul_of_equations equations]
    refine (Finset.sum_eq_single (tableau.basis.get row) (fun j _ different => ?_)
      fun absent => absurd (Finset.mem_univ _) absent).trans ?_
    · by_cases basicToo : j ∈ tableau.basicColumns
      · obtain ⟨position, rfl⟩ := mem_basicColumns.1 basicToo
        have apart : row ≠ position := fun same => different (congrArg tableau.basis.get same.symm)
        rw [represents.entry_basis, if_neg apart, zero_mul]
      · rw [outside j basicToo, mul_zero]
    · rw [represents.entry_basis, if_pos rfl, one_mul]
  · rw [levelOf_of_not_mem basic, outside column basic]

/-- Tableaux with the same basic columns have the same levels. -/
theorem levelOf_congr (represents' : Represents form other tableau')
    (nonneg : ∀ row, 0 ≤ tableau'.rhs row)
    (same : tableau.basicColumns = tableau'.basicColumns) :
    tableau.levelOf = tableau'.levelOf :=
  represents.levelOf_eq (represents'.solves_levelOf nonneg).equations fun _ notBasic =>
    levelOf_of_not_mem fun basic => notBasic (same.symm.subset basic)

/-- Tableaux with the same basic columns have the same objective. -/
theorem objective_congr (represents' : Represents form other tableau')
    (nonneg : ∀ row, 0 ≤ tableau'.rhs row)
    (same : tableau.basicColumns = tableau'.basicColumns) :
    tableau.objective = tableau'.objective := by
  rw [← represents.costOf_levelOf, ← represents'.costOf_levelOf,
    represents.levelOf_congr represents' nonneg same]

/-- A pivot on a ratio of zero keeps all levels. -/
theorem levelOf_pivot {row : Fin form.numRows} {column : Fin form.numColumns}
    (pivotNonzero : tableau.entry row column ≠ 0) (nonneg : ∀ row, 0 ≤ tableau.rhs row)
    (still : tableau.rhs row = 0) :
    (tableau.pivot 0 row column).levelOf = tableau.levelOf := by
  refine (represents.pivot pivotNonzero).levelOf_eq
    (represents.solves_levelOf nonneg).equations fun j outside => ?_
  rw [mem_basicColumns_pivot represents.basis_injective] at outside
  by_cases leaving : j = tableau.basis.get row
  · rw [leaving, levelOf_basis represents.basis_injective, still]
  · exact levelOf_of_not_mem fun basic => outside (Or.inr ⟨basic, leaving⟩)

end Represents

/-! ### Cautious pivots -/

/-- A pivot that the cautious rule makes: the first negative column enters, and the row with the
least ratio leaves, of several the one whose basic column comes first. -/
structure CautiousPivot {m n : Nat} (tableau : Tableau Rat m n) (row : Fin m) (column : Fin n)
    (next : Tableau Rat m n) : Prop where
  next_eq : next = tableau.pivot 0 row column
  negative : tableau.objectiveEntry column < 0
  first : ∀ j < column, 0 ≤ tableau.objectiveEntry j
  positive : 0 < tableau.entry row column
  least : ∀ i, 0 < tableau.entry i column →
    tableau.rhs row / tableau.entry row column ≤ tableau.rhs i / tableau.entry i column
  tie : ∀ i, 0 < tableau.entry i column →
    tableau.rhs i / tableau.entry i column = tableau.rhs row / tableau.entry row column →
      tableau.basis.get row ≤ tableau.basis.get i

/-- A step of a run under the cautious rule, as far as its tableau goes. -/
inductive CautiousStep {m n : Nat} (tableau : Tableau Rat m n) : Tableau Rat m n → Prop
  | stay : CautiousStep tableau tableau
  | pivot {next : Tableau Rat m n} (row : Fin m) (column : Fin n)
    (made : CautiousPivot tableau row column next) : CautiousStep tableau next

namespace CautiousPivot

variable {form : StandardForm Rat}
  {inverse : Matrix (Fin form.numRows) (Fin form.numRows) Rat}
  {tableau next : Tableau Rat form.numRows form.numColumns} {row : Fin form.numRows}
  {column : Fin form.numColumns} (made : CautiousPivot tableau row column next)
  (represents : Represents form inverse tableau)

include made represents

theorem mem_basicColumns_next {other : Fin form.numColumns} :
    other ∈ next.basicColumns ↔
      other = column ∨ other ∈ tableau.basicColumns ∧ other ≠ tableau.basis.get row := by
  rw [made.next_eq]
  exact mem_basicColumns_pivot represents.basis_injective

theorem entering_not_mem : column ∉ tableau.basicColumns := fun basic =>
  made.negative.ne (represents.objectiveEntry_of_mem basic)

/-- The objective never falls. -/
theorem objective_le (nonneg : ∀ row, 0 ≤ tableau.rhs row) :
    tableau.objective ≤ next.objective := by
  rw [made.next_eq]
  exact represents.objective_le_pivot (nonneg row) made.positive made.negative

/-- A pivot that leaves the objective as it is has a ratio of zero. -/
theorem rhs_eq_zero (same : next.objective = tableau.objective) : tableau.rhs row = 0 := by
  rw [made.next_eq, represents.objective_pivot made.positive.ne', sub_eq_self,
    smul_eq_zero] at same
  rcases same with ratio | entry
  · exact (div_eq_zero_iff.1 ratio).resolve_right made.positive.ne'
  · exact absurd entry made.negative.ne

end CautiousPivot

/-! ### A column that enters and leaves -/

namespace CautiousPivot

variable {form : StandardForm Rat}
  {inverse inverse' : Matrix (Fin form.numRows) (Fin form.numRows) Rat}
  {tableau next tableau' next' : Tableau Rat form.numRows form.numColumns}
  {row row' : Fin form.numRows} {column column' : Fin form.numColumns}
  (enters : CautiousPivot tableau row column next)
  (leaves : CautiousPivot tableau' row' column' next')

include enters leaves

/-- Where an earlier column enters on another tableau, some basic column there has an entry in it
of the sign that it has in the objective row of the first tableau. -/
theorem exists_gain (represents : Represents form inverse tableau)
    (represents' : Represents form inverse' tableau') (earlier : column' < column) :
    ∃ i, 0 < tableau'.entry i column' • tableau.objectiveEntry (tableau'.basis.get i) := by
  by_contra none
  push Not at none
  have difference := represents'.objectiveEntry_eq_of_represents represents column'
  have nonpos := Finset.sum_nonpos fun i (_ : i ∈ Finset.univ) => none i
  have nonneg := (enters.first column' earlier).trans ((le_sub_self_iff _).2 nonpos)
  rw [← difference] at nonneg
  exact absurd leaves.negative (not_lt.2 nonneg)

variable {i : Fin form.numRows}
  (gain : 0 < tableau'.entry i column' • tableau.objectiveEntry (tableau'.basis.get i))

include gain

/-- That basic column is not the one that enters first and leaves now: both its entries have
opposite signs. -/
theorem ne_of_gain (represents' : Represents form inverse' tableau')
    (same : tableau'.basis.get row' = column) : tableau'.basis.get i ≠ column := by
  intro equal
  rw [represents'.basis_injective (equal.trans same.symm), same] at gain
  have negative := smul_le_smul_of_nonneg_left enters.negative.le leaves.positive.le
  rw [smul_zero] at negative
  exact absurd gain (not_lt.2 negative)

omit leaves in
/-- If it comes before the column that enters first, its row has a ratio. -/
theorem entry_pos_of_gain (before : tableau'.basis.get i < column) :
    0 < tableau'.entry i column' := by
  by_contra nonpos
  have product := smul_le_smul_of_nonneg_left (enters.first _ before)
    (neg_nonneg.2 (not_lt.1 nonpos))
  rw [smul_zero, neg_smul] at product
  exact absurd gain (not_lt.2 (neg_nonneg.1 product))

end CautiousPivot

end Tableau

/-! ### No way back -/

/-- What each step around a closed walk keeps holds everywhere or nowhere. -/
theorem holds_around (holds : Nat → Prop) {length : Nat}
    (step : ∀ k < length, holds k → holds (k + 1)) (around : holds length → holds 0)
    {here there : Nat} (hereLe : here ≤ length) (thereLe : there ≤ length) (start : holds here) :
    holds there := by
  have onward : ∀ first last, first ≤ last → last ≤ length → holds first → holds last := by
    intro first last ordered
    induction last, ordered using Nat.le_induction with
    | base => exact fun _ held => held
    | succ last _ inductionHypothesis =>
      exact fun inside held => step last inside (inductionHypothesis (Nat.le_of_lt inside) held)
  exact onward 0 there (Nat.zero_le _) thereLe (around (onward here length hereLe le_rfl start))

/-- Tableaux of a form that follow each other by steps of the cautious rule. -/
structure CautiousWalk (form : StandardForm Rat)
    (walk : Nat → Tableau Rat form.numRows form.numColumns) (length : Nat) : Prop where
  represents : ∀ k, ∃ inverse, (walk k).Represents form inverse
  rhs_nonneg : ∀ k row, 0 ≤ (walk k).rhs row
  steps : ∀ k < length, (walk k).CautiousStep (walk (k + 1))

namespace CautiousWalk

open Tableau

variable {form : StandardForm Rat} {walk : Nat → Tableau Rat form.numRows form.numColumns}
  {length : Nat}

/-- A column that some pivot of a walk lets enter. -/
def Enters (walk : Nat → Tableau Rat form.numRows form.numColumns) (length : Nat)
    (column : Fin form.numColumns) : Prop :=
  ∃ k < length, ∃ row, CautiousPivot (walk k) row column (walk (k + 1))

variable (closed : CautiousWalk form walk length)
  (same : (walk 0).basicColumns = (walk length).basicColumns)

include closed same

/-- A column that is basic at one place of a closed walk and not at another enters somewhere. -/
theorem enters_of_mem_of_not_mem {here there : Nat} (hereLe : here ≤ length)
    (thereLe : there ≤ length) {column : Fin form.numColumns}
    (basic : column ∈ (walk here).basicColumns)
    (notBasic : column ∉ (walk there).basicColumns) : Enters walk length column := by
  by_contra never
  refine holds_around (fun k => column ∉ (walk k).basicColumns) (fun k inside out => ?_)
    (fun out => same ▸ out) thereLe hereLe notBasic basic
  obtain ⟨inverse, represents⟩ := closed.represents k
  have made := closed.steps k inside
  generalize nextEq : walk (k + 1) = next at made ⊢
  cases made with
  | stay => exact out
  | pivot row entering made =>
    rw [made.mem_basicColumns_next represents]
    rintro (rfl | ⟨stays, _⟩)
    · exact never ⟨k, inside, row, nextEq ▸ made⟩
    · exact out stays

/-- A column that is basic at one place of a closed walk and not at another leaves somewhere. -/
theorem leaves_of_mem_of_not_mem {here there : Nat} (hereLe : here ≤ length)
    (thereLe : there ≤ length) {column : Fin form.numColumns}
    (basic : column ∈ (walk here).basicColumns)
    (notBasic : column ∉ (walk there).basicColumns) :
    ∃ k < length, ∃ row entering, CautiousPivot (walk k) row entering (walk (k + 1)) ∧
      (walk k).basis.get row = column := by
  by_contra never
  refine notBasic (holds_around (fun k => column ∈ (walk k).basicColumns)
    (fun k inside held => ?_) (fun held => same ▸ held) hereLe thereLe basic)
  obtain ⟨inverse, represents⟩ := closed.represents k
  have made := closed.steps k inside
  generalize nextEq : walk (k + 1) = next at made ⊢
  cases made with
  | stay => exact held
  | pivot row entering made =>
    rw [made.mem_basicColumns_next represents]
    exact Or.inr ⟨held, fun leaving =>
      never ⟨k, inside, row, entering, nextEq ▸ made, leaving.symm⟩⟩

theorem objective_eq_of_same : (walk length).objective = (walk 0).objective := by
  obtain ⟨inverse, represents⟩ := closed.represents 0
  obtain ⟨inverse', represents'⟩ := closed.represents length
  exact (represents.objective_congr represents' (closed.rhs_nonneg length) same).symm

/-- On a closed walk the objective never changes. -/
theorem objective_eq {here there : Nat} (hereLe : here ≤ length) (thereLe : there ≤ length) :
    (walk here).objective = (walk there).objective := by
  have rises : ∀ start, ∀ k < length, (walk start).objective ≤ (walk k).objective →
      (walk start).objective ≤ (walk (k + 1)).objective := by
    intro start k inside below
    obtain ⟨inverse, represents⟩ := closed.represents k
    have made := closed.steps k inside
    generalize walk (k + 1) = next at made
    cases made with
    | stay => exact below
    | pivot row entering made =>
      exact below.trans (made.objective_le represents (closed.rhs_nonneg k))
  have around := closed.objective_eq_of_same same
  exact le_antisymm
    (holds_around _ (rises here) (fun below => around ▸ below) hereLe thereLe le_rfl)
    (holds_around _ (rises there) (fun below => around ▸ below) thereLe hereLe le_rfl)

/-- On a closed walk every level stays as it is. -/
theorem levelOf_eq {here there : Nat} (hereLe : here ≤ length) (thereLe : there ≤ length) :
    (walk there).levelOf = (walk here).levelOf := by
  refine holds_around (fun k => (walk k).levelOf = (walk here).levelOf)
    (fun k inside kept => ?_) (fun kept => ?_) hereLe thereLe rfl
  · obtain ⟨inverse, represents⟩ := closed.represents k
    have unchanged := closed.objective_eq same inside (Nat.le_of_lt inside)
    have made := closed.steps k inside
    generalize walk (k + 1) = next at made unchanged ⊢
    cases made with
    | stay => exact kept
    | pivot row entering made =>
      have still := made.rhs_eq_zero represents unchanged
      rw [made.next_eq, represents.levelOf_pivot made.positive.ne' (closed.rhs_nonneg k) still]
      exact kept
  · obtain ⟨inverse, represents⟩ := closed.represents 0
    obtain ⟨inverse', represents'⟩ := closed.represents length
    rw [represents.levelOf_congr represents' (closed.rhs_nonneg length) same]
    exact kept

/-- The last of the columns that enter cannot both enter and leave on a closed walk. -/
theorem not_enters : ∀ column, ¬ Enters walk length column := by
  classical
  intro some enters
  obtain ⟨last, isLast, largest⟩ := Finset.exists_max_image
    (Finset.univ.filter (Enters walk length)) id
    ⟨some, Finset.mem_filter.2 ⟨Finset.mem_univ _, enters⟩⟩
  have below : ∀ column, Enters walk length column → column ≤ last := fun column enters =>
    largest column (Finset.mem_filter.2 ⟨Finset.mem_univ _, enters⟩)
  -- where the last column enters, and where it leaves again
  obtain ⟨entry, entryInside, entryRow, entering⟩ := (Finset.mem_filter.1 isLast).2
  obtain ⟨inverse, represents⟩ := closed.represents entry
  obtain ⟨exit, exitInside, exitRow, column, leaving, leaves⟩ :=
    closed.leaves_of_mem_of_not_mem same entryInside (Nat.le_of_lt entryInside)
      ((entering.mem_basicColumns_next represents).2 (Or.inl rfl))
      (entering.entering_not_mem represents)
  obtain ⟨inverse', represents'⟩ := closed.represents exit
  have earlier : column < last := by
    refine lt_of_le_of_ne (below column ⟨exit, exitInside, exitRow, leaving⟩) fun equal => ?_
    exact leaving.entering_not_mem represents' (mem_basicColumns.2 ⟨exitRow, leaves.trans equal.symm⟩)
  obtain ⟨row, gain⟩ := entering.exists_gain leaving represents represents' earlier
  have notBasic : (walk exit).basis.get row ∉ (walk entry).basicColumns := fun basic => by
    rw [represents.objectiveEntry_of_mem basic, smul_zero] at gain
    exact lt_irrefl _ gain
  have before : (walk exit).basis.get row < last := lt_of_le_of_ne
    (below _ (closed.enters_of_mem_of_not_mem same (Nat.le_of_lt exitInside)
      (Nat.le_of_lt entryInside) (mem_basicColumns.2 ⟨row, rfl⟩) notBasic))
    (entering.ne_of_gain leaving gain represents' leaves)
  have grows := entering.entry_pos_of_gain gain before
  -- its level is zero like that of the leaving column, so the rule takes the earlier of the two
  have level : ∀ position, (walk exit).basis.get position ∉ (walk entry).basicColumns →
      (walk exit).rhs position = 0 := fun position outside => by
    rw [← levelOf_basis represents'.basis_injective,
      closed.levelOf_eq same (Nat.le_of_lt entryInside) (Nat.le_of_lt exitInside),
      levelOf_of_not_mem outside]
  have tied := leaving.tie row grows (by
    rw [level row notBasic, level exitRow (leaves ▸ entering.entering_not_mem represents),
      zero_div, zero_div])
  rw [leaves] at tied
  exact absurd before (not_lt.2 tied)

end CautiousWalk

/-! ### Runs under the cautious rule -/

namespace Run

section Steps

variable {α : Type} [Scalar α] {form : StandardForm α}

theorem afterSteps_succ (count : Nat) (run : Run form) :
    run.afterSteps (count + 1) = (run.afterSteps count).step.2 := by
  induction count generalizing run with
  | zero => rfl
  | succ count inductionHypothesis => exact inductionHypothesis run.step.2

/-- The next step of the run is a pivot. -/
def Pivots (run : Run form) : Prop :=
  ∃ entering leaving, run.step.1 = .pivoted entering leaving

/-- A step that is not a pivot keeps the tableau. -/
theorem tableau_step_of_not_pivots {run : Run form} (still : ¬ run.Pivots) :
    run.step.2.tableau = run.tableau := by
  unfold Pivots at still
  have made := run.stepOf_step
  generalize run.step = result at made still ⊢
  cases made with
  | idle status ended => rfl
  | settled running stopped => rfl
  | capped column running entered cap => rfl
  | unbounded column running entered below stuck => rfl
  | pivoted column row running entered below left => exact absurd ⟨_, _, rfl⟩ still

/-- A step that is a pivot makes the one that the rule chose. -/
theorem step_eq_of_pivots {run : Run form} (pivots : run.Pivots) :
    ∃ column row, run.entering? = some column ∧ run.leaving? column = some row ∧
      run.step = run.pivotAt ⟨row, column, run.ratiosOf column⟩ := by
  obtain ⟨entering, leaving, pivoted⟩ := pivots
  have made := run.stepOf_step
  generalize run.step = result at made pivoted
  cases made with
  | idle status ended => cases pivoted
  | settled running stopped => cases pivoted
  | capped column running entered cap => cases pivoted
  | unbounded column running entered below stuck => cases pivoted
  | pivoted column row running entered below left => exact ⟨column, row, entered, left, rfl⟩

/-- A run that goes on after a step was going on before it, and the step was a pivot. -/
theorem pivots_of_running {run : Run form} (running : run.step.2.status = none) :
    run.status = none ∧ run.Pivots ∧ run.step.2.iterations = run.iterations + 1 := by
  unfold Pivots
  have made := run.stepOf_step
  generalize run.step = result at made running ⊢
  cases made with
  | idle status ended =>
    rw [ended] at running
    cases running
  | settled before stopped => cases running
  | capped column before entered cap => cases running
  | unbounded column before entered below stuck => cases running
  | pivoted column row before entered below left => exact ⟨before, ⟨_, _, rfl⟩, rfl⟩

/-- Of a run that still goes on after some steps, each of these was a pivot and is counted. -/
theorem pivots_before {run : Run form} {count : Nat}
    (running : (run.afterSteps count).status = none) :
    (run.afterSteps count).iterations = run.iterations + count ∧
      ∀ earlier < count, (run.afterSteps earlier).Pivots := by
  induction count with
  | zero => exact ⟨rfl, fun earlier before => absurd before (Nat.not_lt_zero _)⟩
  | succ count inductionHypothesis =>
    rw [afterSteps_succ] at running ⊢
    obtain ⟨before, pivots, counted⟩ := pivots_of_running running
    obtain ⟨iterations, all⟩ := inductionHypothesis before
    refine ⟨by rw [counted, iterations, Nat.add_assoc], fun earlier within => ?_⟩
    rcases Nat.lt_succ_iff_lt_or_eq.1 within with inside | rfl
    · exact all earlier inside
    · exact pivots

/-- A run that stops at the cap has made as many pivots as the cap allows. -/
theorem reached_cap {run : Run form} (running : run.status = none) {count : Nat}
    (capped : (run.afterSteps count).status = some .notConverged) :
    ∃ earlier < count, (run.afterSteps earlier).status = none ∧
      run.solver.maxIterations ≤ (run.afterSteps earlier).iterations := by
  induction count with
  | zero =>
    rw [afterSteps, running] at capped
    cases capped
  | succ count inductionHypothesis =>
    rw [afterSteps_succ] at capped
    have solver := run.afterSteps_solver count
    have made := (run.afterSteps count).stepOf_step
    generalize (run.afterSteps count).step = result at made capped
    cases made with
    | idle status ended =>
      obtain ⟨earlier, before, found⟩ := inductionHypothesis capped
      exact ⟨earlier, Nat.lt_succ_of_lt before, found⟩
    | settled going stopped =>
      cases positive : (run.afterSteps count).hasPositiveArtificial <;>
        simp [finish, positive] at capped
    | capped column going entered cap =>
      exact ⟨count, Nat.lt_succ_self count, going, solver ▸ cap⟩
    | unbounded column going entered below stuck => cases capped
    | pivoted column row going entered below left =>
      change (run.afterSteps count).status = _ at capped
      rw [going] at capped
      cases capped

end Steps

variable {form : StandardForm Rat}

/-- A pivot that a run makes under the cautious rule is a cautious pivot. -/
theorem Exact.cautiousPivot {run : Run form} (exact : run.Exact) (rule : run.solver.rule = .bland)
    {column : Fin form.numColumns} {row : Fin form.numRows}
    (entered : run.entering? = some column) (left : run.leaving? column = some row) :
    run.tableau.CautiousPivot row column
      (run.pivotAt ⟨row, column, run.ratiosOf column⟩).2.tableau := by
  obtain ⟨least, present, smallest⟩ := exact.least_of_leaving_eq_some left
  obtain ⟨positive, ratio⟩ := Tableau.ratio_of_get_ratios present
  have listed : ∀ i, 0 < run.tableau.entry i column →
      (run.tableau.ratios 0 column).get i =
        some (run.tableau.rhs i / run.tableau.entry i column) :=
    fun i grows => (Tableau.get_ratios column i).trans (if_pos grows)
  refine ⟨exact.tableau_pivotAt _, exact.neg_of_entering_eq_some entered, fun j before => ?_,
    positive, fun i grows => ratio ▸ smallest i _ (listed i grows), fun i grows tied => ?_⟩
  · unfold entering? at entered
    rw [exact.tolerance, rule] at entered
    have nonneg := PivotRule.nonneg_before_entering_bland entered before
    rwa [Tableau.objectiveRow, get_vectorOfFn] at nonneg
  · unfold leaving? ratiosOf at left
    rw [exact.tolerance, rule] at left
    refine PivotRule.first_of_leaving_bland left ?_
    rw [listed i grows, tied, ← listed row positive]

theorem Exact.cautiousPivot_of_pivots {run : Run form} (exact : run.Exact)
    (rule : run.solver.rule = .bland) (pivots : run.Pivots) :
    ∃ row column, run.tableau.CautiousPivot row column run.step.2.tableau := by
  obtain ⟨column, row, entered, left, made⟩ := step_eq_of_pivots pivots
  rw [made]
  exact ⟨row, column, exact.cautiousPivot rule entered left⟩

/-- A step of a run under the cautious rule keeps the tableau or makes a cautious pivot. -/
theorem Exact.cautiousStep {run : Run form} (exact : run.Exact)
    (rule : run.solver.rule = .bland) : run.tableau.CautiousStep run.step.2.tableau := by
  by_cases pivots : run.Pivots
  · obtain ⟨row, column, made⟩ := exact.cautiousPivot_of_pivots rule pivots
    exact .pivot row column made
  · rw [tableau_step_of_not_pivots pivots]
    exact .stay

/-- From a tableau on which a run under the cautious rule pivots, it never comes back to the same
basic columns. -/
theorem Exact.basicColumns_ne {run : Run form} (exact : run.Exact)
    (rule : run.solver.rule = .bland) {earlier later : Nat} (before : earlier < later)
    (pivots : (run.afterSteps earlier).Pivots) :
    (run.afterSteps earlier).tableau.basicColumns ≠ (run.afterSteps later).tableau.basicColumns := by
  intro same
  obtain ⟨length, rfl⟩ := Nat.exists_eq_add_of_lt before
  have walk : CautiousWalk form (fun k => (run.afterSteps (earlier + k)).tableau) (length + 1) := by
    refine ⟨fun k => (exact.afterSteps _).represents, fun k => (exact.afterSteps _).rhs_nonneg,
      fun k _ => ?_⟩
    have step := (exact.afterSteps (earlier + k)).cautiousStep
      ((congrArg Solver.rule (run.afterSteps_solver _)).trans rule)
    rwa [← afterSteps_succ] at step
  obtain ⟨row, column, made⟩ := (exact.afterSteps earlier).cautiousPivot_of_pivots
    ((congrArg Solver.rule (run.afterSteps_solver _)).trans rule) pivots
  rw [← afterSteps_succ] at made
  exact walk.not_enters same column ⟨0, Nat.succ_pos _, row, made⟩

/-- A run under the cautious rule goes on for fewer steps than there are sets of columns that could
be basic. -/
theorem Exact.lt_choose {run : Run form} (exact : run.Exact) (rule : run.solver.rule = .bland)
    {count : Nat} (running : (run.afterSteps count).status = none) :
    count < form.numColumns.choose form.numRows := by
  have distinct : Set.InjOn (fun k => (run.afterSteps k).tableau.basicColumns)
      (Finset.range (count + 1)) := by
    intro first firstIn second secondIn same
    have pivots := (pivots_before running).2
    have firstLe : first ≤ count := Nat.lt_succ_iff.1 (Finset.mem_range.1 firstIn)
    have secondLe : second ≤ count := Nat.lt_succ_iff.1 (Finset.mem_range.1 secondIn)
    rcases lt_trichotomy first second with before | equal | after
    · exact absurd same (exact.basicColumns_ne rule before
        (pivots first (before.trans_le secondLe)))
    · exact equal
    · exact absurd same.symm (exact.basicColumns_ne rule after
        (pivots second (after.trans_le firstLe)))
  have sized : ∀ k ∈ Finset.range (count + 1), (run.afterSteps k).tableau.basicColumns ∈
      Finset.powersetCard form.numRows Finset.univ := by
    intro k _
    obtain ⟨inverse, represents⟩ := (exact.afterSteps k).represents
    exact Finset.mem_powersetCard.2 ⟨Finset.subset_univ _, represents.card_basicColumns⟩
  have counted := Finset.card_le_card_of_injOn _ sized distinct
  rwa [Finset.card_range, Finset.card_powersetCard, Finset.card_univ, Fintype.card_fin] at counted

end Run

namespace Solver

/-- The cautious rule never cycles. Without tolerance a valid problem is started and solved, no
tableau of the run comes back to the basic columns of one that was pivoted on, and the solution
has converged when the cap on pivots is at least the number of sets of columns that could be
basic. -/
theorem bland_never_cycles (solver : Solver Rat) (exact : solver.tolerance = 0)
    (rule : solver.rule = .bland) (problem : Problem Rat) (valid : problem.Valid) :
    ∃ (run : Run (.ofProblem problem valid)) (solution : Solution Rat),
      solver.start problem = .ok ⟨.ofProblem problem valid, run⟩ ∧
        solver.solve problem = .ok solution ∧
        (∀ earlier later, earlier < later → (run.afterSteps earlier).Pivots →
          (run.afterSteps earlier).tableau.basicColumns ≠
            (run.afterSteps later).tableau.basicColumns) ∧
        (problem.numColumns.choose problem.numRows ≤ solver.maxIterations →
          solution.status ≠ .notConverged) := by
  have runExact := Run.initial_exact (StandardForm.canonical_ofProblem valid) exact problem.sense
  refine ⟨_, _, solver.start_eq valid, solver.solve_eq_afterSteps valid,
    fun earlier later before pivots => runExact.basicColumns_ne rule before pivots,
    fun enough stopped => ?_⟩
  -- a run that has not converged was still going on when the cap was reached
  have late : ∃ count, ((Run.initial solver problem.sense
      (.ofProblem problem valid)).afterSteps count).status = none ∧
        solver.maxIterations ≤ count := by
    rcases Run.status_of_notConverged stopped with running | capped
    · exact ⟨_, running, Nat.le_succ _⟩
    · obtain ⟨count, _, running, reached⟩ := Run.reached_cap rfl capped
      rw [(Run.pivots_before running).1] at reached
      exact ⟨count, running, reached.trans (Nat.zero_add count).le⟩
  obtain ⟨count, running, reached⟩ := late
  exact absurd (runExact.lt_choose rule running) (not_lt.2 (enough.trans reached))

/-- A degenerate problem on which the steepest rule comes back to its first basis. -/
def degenerateProblem : Problem Rat :=
  ((((Problem.withVariables 4).setObjective [3 / 4, -20, 1 / 2, -6] .maximize).constrain
    [1 / 4, -8, -1, 9] .atMost 0).constrain [1 / 2, -12, -1 / 2, 3] .atMost 0).constrain
      [0, 0, 1, 0] .atMost 1

theorem degenerateProblem_valid : degenerateProblem.Valid :=
  Problem.fault?_eq_none_iff.1 (by decide +kernel)

/-- The statement at a problem whose first pivots have ratio zero. -/
theorem bland_never_cycles_degenerateProblem :
    ({ tolerance := 0, rule := .bland } : Solver Rat).tolerance = 0 ∧
      degenerateProblem.Valid ∧
      degenerateProblem.numColumns.choose degenerateProblem.numRows ≤ 100 ∧
      ∃ solution, ({ tolerance := 0, rule := .bland } : Solver Rat).solve degenerateProblem =
        .ok solution ∧ solution.status ≠ .notConverged := by
  have enough : degenerateProblem.numColumns.choose degenerateProblem.numRows ≤ 100 := by
    decide +kernel
  obtain ⟨run, solution, _, solved, _, converged⟩ :=
    bland_never_cycles { tolerance := 0, rule := .bland } rfl rfl degenerateProblem
      degenerateProblem_valid
  exact ⟨rfl, degenerateProblem_valid, enough, solution, solved, converged enough⟩

end Solver

end LinearProgramming
