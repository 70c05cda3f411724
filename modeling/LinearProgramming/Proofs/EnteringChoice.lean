/-
This file says what the choice of the entering column guarantees at a tolerance.

With a tolerance, one number is less than another by its penalty when the penalties differ by more
than the tolerance, and by its value when they are near. Nearness is not transitive, so neither is
this comparison: along penalties that differ by about the tolerance a scan can move down step by
step and end on a number that is not below the first. Both rules find a column exactly when some
entry is negative, and the cautious rule returns such a column. The steepest rule does so, and
returns one that no other is less than, where nearness is transitive among zero and the entries,
which it always is without tolerance.
-/

import Mathlib
import LinearProgramming.Proofs.TableauRun

namespace LinearProgramming

/-! ### The scan at a tolerance -/

namespace BigM

variable {ι : Type} {tolerance : Rat} {entries : List (ι × BigM Rat)}
  {found : Option (ι × BigM Rat)}

/-- What a scan holds in any case: nothing while no entry is negative, and otherwise an entry that
no later one is less than. -/
def IsLastLess (tolerance : Rat) (entries : List (ι × BigM Rat)) :
    Option (ι × BigM Rat) → Prop
  | none => ∀ entry ∈ entries, entry.2.isNegativeWithin tolerance = false
  | some found => (∃ entry ∈ entries, entry.2.isNegativeWithin tolerance = true) ∧
    ∃ earlier later, entries = earlier ++ found :: later ∧
      ∀ entry ∈ later, entry.2.lessWithin tolerance found.2 = false

theorem IsLastLess.take {entry : ι × BigM Rat}
    (negative : ∃ other ∈ entries ++ [entry], other.2.isNegativeWithin tolerance = true) :
    IsLastLess tolerance (entries ++ [entry]) (some entry) :=
  ⟨negative, entries, [], rfl, fun _ member => nomatch member⟩

theorem IsLastLess.skip {held entry : ι × BigM Rat}
    (holds : IsLastLess tolerance entries (some held))
    (notLess : entry.2.lessWithin tolerance held.2 = false) :
    IsLastLess tolerance (entries ++ [entry]) (some held) := by
  obtain ⟨⟨other, listed, negative⟩, earlier, later, split, skipped⟩ := holds
  refine ⟨⟨other, List.mem_append_left _ listed, negative⟩, earlier, later ++ [entry],
    by simp [split], fun next member => ?_⟩
  rcases List.mem_append.1 member with between | last
  · exact skipped next between
  · rw [List.mem_singleton.1 last, notLess]

theorem IsLastLess.scan (nonneg : 0 ≤ tolerance) (holds : IsLastLess tolerance entries found)
    (entry : ι × BigM Rat) :
    IsLastLess tolerance (entries ++ [entry])
      (if entry.2.lessWithin tolerance (threshold found) then some entry else found) := by
  cases found with
  | none =>
    -- zero is what the first entry is compared with, so moving on to one finds a negative one
    change IsLastLess tolerance _ (if entry.2.lessWithin tolerance 0 then _ else _)
    rw [← isNegativeWithin_eq_lessWithin nonneg]
    cases negative : entry.2.isNegativeWithin tolerance with
    | true => exact IsLastLess.take ⟨entry, by simp, negative⟩
    | false =>
      intro other member
      rcases List.mem_append.1 member with scanned | last
      · exact holds other scanned
      · rw [List.mem_singleton.1 last, negative]
  | some held =>
    cases less : entry.2.lessWithin tolerance (threshold (some held)) with
    | true =>
      obtain ⟨⟨other, listed, negative⟩, _⟩ := holds
      exact IsLastLess.take ⟨other, List.mem_append_left _ listed, negative⟩
    | false => exact holds.skip less

theorem leastNegative_isLastLess (nonneg : 0 ≤ tolerance) (entries : List (ι × BigM Rat)) :
    IsLastLess tolerance entries (leastNegative tolerance entries) := by
  refine foldl_prefix_induction (IsLastLess tolerance) _ _ ?_ ?_ entries
  · intro entry member
    cases member
  · intro seen found entry holds
    exact holds.scan nonneg entry

end BigM

/-! ### The entries of an objective row -/

namespace PivotRule

variable {n : Nat} {tolerance : Rat} {objectiveRow : Vector (BigM Rat) n}

/-- The entries of an objective row with their columns. -/
def columnEntries (objectiveRow : Vector (BigM Rat) n) : List (Fin n × BigM Rat) :=
  (List.finRange n).map fun j => (j, objectiveRow.get j)

theorem mem_columnEntries {entry : Fin n × BigM Rat} :
    entry ∈ columnEntries objectiveRow ↔ entry.2 = objectiveRow.get entry.1 := by
  unfold columnEntries
  rw [List.mem_map]
  constructor
  · rintro ⟨j, _, rfl⟩
    rfl
  · intro same
    exact ⟨entry.1, List.mem_finRange _, Prod.ext rfl same.symm⟩

theorem map_fst_columnEntries : (columnEntries objectiveRow).map Prod.fst = List.finRange n := by
  unfold columnEntries
  rw [List.map_map]
  exact List.map_id _

theorem map_snd_columnEntries_subset :
    (columnEntries objectiveRow).map Prod.snd ⊆ objectiveRow.toList := by
  intro number member
  obtain ⟨entry, listed, rfl⟩ := List.mem_map.1 member
  rw [mem_columnEntries.1 listed, Vector.mem_toList_iff]
  exact Vector.getElem_mem entry.1.isLt

/-- The entries of later columns come later. -/
theorem mem_later_of_lt {earlier later : List (Fin n × BigM Rat)} {found : Fin n × BigM Rat}
    (split : columnEntries objectiveRow = earlier ++ found :: later) {j : Fin n}
    (after : found.1 < j) : (j, objectiveRow.get j) ∈ later := by
  have columns : List.finRange n =
      earlier.map Prod.fst ++ found.1 :: later.map Prod.fst := by
    rw [← map_fst_columnEntries, split, List.map_append, List.map_cons]
  obtain ⟨entry, isLater, rfl⟩ := List.mem_map.1 ((mem_of_finRange_eq_append columns).2 after)
  have listed : entry ∈ columnEntries objectiveRow := by simp [split, isLater]
  rw [← mem_columnEntries.1 listed]
  exact isLater

/-! ### The rules at a tolerance -/

theorem entering_dantzig_eq : dantzig.entering tolerance objectiveRow =
    (BigM.leastNegative tolerance (columnEntries objectiveRow)).map Prod.fst := rfl

/-- The steepest rule returns the column of the entry that its scan ends with. -/
theorem leastNegative_of_entering_dantzig (nonneg : 0 ≤ tolerance) {column : Fin n}
    (entered : dantzig.entering tolerance objectiveRow = some column) :
    BigM.leastNegative tolerance (columnEntries objectiveRow) =
      some (column, objectiveRow.get column) := by
  rw [entering_dantzig_eq] at entered
  obtain ⟨found, held, rfl⟩ := Option.map_eq_some_iff.1 entered
  have holds := BigM.leastNegative_isLastLess nonneg (columnEntries objectiveRow)
  rw [held] at holds
  obtain ⟨_, earlier, later, split, _⟩ := holds
  have listed : found ∈ columnEntries objectiveRow := by simp [split]
  rw [held, ← mem_columnEntries.1 listed]

/-- Both rules find a column exactly when some entry is negative. -/
theorem isSome_entering_iff (rule : PivotRule) (nonneg : 0 ≤ tolerance) :
    (rule.entering tolerance objectiveRow).isSome = true ↔
      ∃ j, (objectiveRow.get j).isNegativeWithin tolerance = true := by
  cases rule with
  | dantzig =>
    have holds := BigM.leastNegative_isLastLess nonneg (columnEntries objectiveRow)
    rw [entering_dantzig_eq, Option.isSome_map]
    cases chosen : BigM.leastNegative tolerance (columnEntries objectiveRow) with
    | none =>
      rw [chosen] at holds
      refine iff_of_false Bool.false_ne_true fun ⟨j, negative⟩ => ?_
      rw [holds (j, objectiveRow.get j) (mem_columnEntries.2 rfl)] at negative
      cases negative
    | some found =>
      rw [chosen] at holds
      obtain ⟨⟨entry, listed, negative⟩, _⟩ := holds
      exact iff_of_true rfl ⟨entry.1, mem_columnEntries.1 listed ▸ negative⟩
  | bland =>
    unfold entering
    rw [List.find?_isSome]
    exact ⟨fun ⟨j, _, negative⟩ => ⟨j, negative⟩,
      fun ⟨j, negative⟩ => ⟨j, List.mem_finRange j, negative⟩⟩

/-- No column after the one that the steepest rule returns is less. -/
theorem not_less_of_entering_dantzig (nonneg : 0 ≤ tolerance) {column j : Fin n}
    (entered : dantzig.entering tolerance objectiveRow = some column) (after : column < j) :
    (objectiveRow.get j).lessWithin tolerance (objectiveRow.get column) = false := by
  have holds := BigM.leastNegative_isLastLess nonneg (columnEntries objectiveRow)
  rw [leastNegative_of_entering_dantzig nonneg entered] at holds
  obtain ⟨_, earlier, later, split, skipped⟩ := holds
  exact skipped (j, objectiveRow.get j) (mem_later_of_lt split after)

/-- A choice as the rules describe it: the entry of the column is negative, and under the steepest
rule no entry is less. -/
structure EntersSoundly (rule : PivotRule) (tolerance : Rat) (objectiveRow : Vector (BigM Rat) n)
    (column : Fin n) : Prop where
  negative : (objectiveRow.get column).isNegativeWithin tolerance = true
  least : rule = .dantzig →
    ∀ j, (objectiveRow.get j).lessWithin tolerance (objectiveRow.get column) = false

instance (rule : PivotRule) (column : Fin n) :
    Decidable (EntersSoundly rule tolerance objectiveRow column) :=
  decidable_of_iff ((objectiveRow.get column).isNegativeWithin tolerance = true ∧
    (rule = .dantzig →
      ∀ j, (objectiveRow.get j).lessWithin tolerance (objectiveRow.get column) = false))
    ⟨fun ⟨negative, least⟩ => ⟨negative, least⟩, fun ⟨negative, least⟩ => ⟨negative, least⟩⟩

theorem entersSoundly_of_bland {column : Fin n}
    (entered : bland.entering tolerance objectiveRow = some column) :
    EntersSoundly bland tolerance objectiveRow column := by
  have negative := List.find?_some entered
  exact ⟨negative, nofun⟩

/-- Where the penalties of zero and the entries lie in layers, the steepest rule chooses as
described. -/
theorem entersSoundly_of_layered (nonneg : 0 ≤ tolerance)
    (layered : BigM.Layered tolerance (0 :: objectiveRow.toList)) {column : Fin n}
    (entered : dantzig.entering tolerance objectiveRow = some column) :
    EntersSoundly dantzig tolerance objectiveRow column := by
  have holds := BigM.leastNegative_isLeastWithin nonneg
    (layered.mono (List.cons_subset_cons 0 map_snd_columnEntries_subset))
  rw [leastNegative_of_entering_dantzig nonneg entered] at holds
  obtain ⟨_, negative, least⟩ := holds
  exact ⟨(BigM.isNegativeWithin_eq_lessWithin nonneg _).trans negative,
    fun _ j => least (j, objectiveRow.get j) (mem_columnEntries.2 rfl)⟩

/-- The choice of the entering column at a tolerance. Both rules return a column exactly when some
entry is negative. The cautious rule returns a negative one. No column after the one that the
steepest rule returns is less; and where nearness is transitive among zero and the entries, as it
is without tolerance, the returned column is negative and no other is less. -/
theorem entering_isSound (tolerance : Rat) (nonneg : 0 ≤ tolerance)
    (objectiveRow : Vector (BigM Rat) n) (rule : PivotRule) :
    ((rule.entering tolerance objectiveRow).isSome = true ↔
        ∃ j, (objectiveRow.get j).isNegativeWithin tolerance = true) ∧
      (∀ column, rule.entering tolerance objectiveRow = some column →
        (rule = .bland ∨ BigM.Layered tolerance (0 :: objectiveRow.toList) →
          EntersSoundly rule tolerance objectiveRow column) ∧
        (rule = .dantzig → ∀ j, column < j →
          (objectiveRow.get j).lessWithin tolerance (objectiveRow.get column) = false)) ∧
      (tolerance = 0 → BigM.Layered tolerance (0 :: objectiveRow.toList)) := by
  refine ⟨isSome_entering_iff rule nonneg, fun column entered => ?_, fun zero => ?_⟩
  · cases rule with
    | dantzig =>
      refine ⟨fun layered => ?_, fun _ j after => not_less_of_entering_dantzig nonneg entered after⟩
      exact entersSoundly_of_layered nonneg (layered.resolve_left nofun) entered
    | bland => exact ⟨fun _ => entersSoundly_of_bland entered, nofun⟩
  · rw [zero]
    exact BigM.layered_zero _

/-- An objective row whose penalties lie in three layers at a tolerance of a quarter. -/
def threeLayerRow : Vector (BigM Rat) 4 := #v[⟨-3, 0⟩, ⟨-5, 1 / 8⟩, ⟨7, -1⟩, ⟨9, 2⟩]

/-- The statement at this row under the steepest rule. -/
theorem entering_isSound_threeLayerRow :
    (0 : Rat) ≤ 1 / 4 ∧ BigM.Layered (1 / 4) (0 :: threeLayerRow.toList) ∧
      dantzig.entering (1 / 4) threeLayerRow = some 2 ∧
      EntersSoundly dantzig (1 / 4) threeLayerRow 2 := by
  have nonneg : (0 : Rat) ≤ 1 / 4 := by norm_num
  have layered : BigM.Layered (1 / 4) (0 :: threeLayerRow.toList) := by decide +kernel
  have entered : dantzig.entering (1 / 4) threeLayerRow = some 2 := by decide +kernel
  obtain ⟨_, sound, _⟩ := entering_isSound (1 / 4) nonneg threeLayerRow .dantzig
  exact ⟨nonneg, layered, entered, (sound 2 entered).1 (Or.inr layered)⟩

end PivotRule

/-! ### A step down to an entry that is not negative -/

/-- A problem whose first objective row has penalties that differ by about the default tolerance. -/
def driftingProblem : Problem Rat :=
  (((Problem.withVariables 3).setObjective [1, 1, 3] .maximize).constrain
    [-3e-10, 5e-10, -1.2e-9] .equal 0).constrain [1, 1, 1] .atMost 4

theorem driftingProblem_valid : driftingProblem.Valid :=
  Problem.fault?_eq_none_iff.1 (by decide +kernel)

/-- On this problem the steepest rule lets a basic column enter, whose entry is not negative and
which leaves again. Another column is the only one that it could return as described. -/
theorem entering_of_driftingProblem :
    ∃ run : Run (.ofProblem driftingProblem driftingProblem_valid),
      ({} : Solver Rat).start driftingProblem =
          .ok ⟨.ofProblem driftingProblem driftingProblem_valid, run⟩ ∧
        ∃ chosen other, run.step.1 = .pivoted chosen chosen ∧ run.entering? = some chosen ∧
          (run.tableau.objectiveRow.get chosen).isNegativeWithin Scalar.epsilon = false ∧
          (run.tableau.objectiveRow.get other).lessWithin Scalar.epsilon
            (run.tableau.objectiveRow.get chosen) = true ∧
          ∀ column, PivotRule.EntersSoundly .dantzig Scalar.epsilon run.tableau.objectiveRow
            column ↔ column = other := by
  refine ⟨_, Solver.start_eq _ driftingProblem_valid, ?_⟩
  decide +kernel

end LinearProgramming
