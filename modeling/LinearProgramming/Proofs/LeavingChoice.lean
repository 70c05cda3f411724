/-
This file says what the choice of the leaving row guarantees at a tolerance.

Both rules find a row exactly when some row has a ratio. The steepest rule moves on to a smaller
ratio only, so it returns the first row with the least one. The cautious rule also moves on to a
ratio that is larger by no more than the tolerance, where the basic column comes earlier. A chain of
such ties carries what it holds away from the least ratio, by the tolerance at each ratio after the
first and not by more. Where nearness is transitive among the ratios, as it always is without
tolerance, no chain leads out of one layer: the returned ratio is at most the tolerance above every
other, and no row with a ratio near to it has an earlier basic column.
-/

import Mathlib
import LinearProgramming.Proofs.TableauRun

namespace LinearProgramming

namespace PivotRule

variable {m n : Nat} {rule : PivotRule} {tolerance : Rat} {basis : Vector (Fin n) m}
  {ratios : Vector (Option Rat) m} {row : Fin m}

/-! ### The choice among the ratios -/

/-- Both rules find a row exactly when some row has a ratio. -/
theorem isSome_leaving_iff (rule : PivotRule) (tolerance : Rat) (basis : Vector (Fin n) m)
    (ratios : Vector (Option Rat) m) :
    (rule.leaving tolerance basis ratios).isSome = true ↔
      ∃ row ratio, ratios.get row = some ratio := by
  rcases rule.leaving_cases tolerance basis ratios with
    ⟨stuck, absent⟩ | ⟨row, ratio, left, present⟩
  · rw [stuck]
    refine iff_of_false Bool.false_ne_true fun ⟨row, ratio, present⟩ => ?_
    rw [absent row] at present
    cases present
  · rw [left]
    exact iff_of_true rfl ⟨row, ratio, present⟩

/-- The entries come in the order of their rows. -/
theorem pairwise_ratioEntries (ratios : Vector (Option Rat) m) :
    (ratioEntries ratios).Pairwise fun entry other => entry.1 < other.1 := by
  refine List.pairwise_filterMap.2 ((List.pairwise_lt_finRange m).imp ?_)
  intro first second before entry found other next
  obtain ⟨_, _, rfl⟩ := Option.map_eq_some_iff.1 found
  obtain ⟨_, _, rfl⟩ := Option.map_eq_some_iff.1 next
  exact before

/-- What a scan of the ratios holds at its end is true of the row that leaves. -/
theorem holds_of_leaving {holds : Fin m × Rat → Prop}
    (left : rule.leaving tolerance basis ratios = some row)
    (ended : (ratioEntries ratios = [] ∧ rule.scan tolerance basis (ratioEntries ratios) = none) ∨
      ∃ held, rule.scan tolerance basis (ratioEntries ratios) = some held ∧ holds held) :
    ∃ ratio, holds (row, ratio) := by
  rw [leaving_eq_scan] at left
  obtain ⟨entry, found, rfl⟩ := Option.map_eq_some_iff.1 left
  rcases ended with ⟨_, nothing⟩ | ⟨held, scanned, holding⟩
  · cases nothing.symm.trans found
  · cases scanned.symm.trans found
    exact ⟨entry.2, holding⟩

/-- A choice as the rules describe it: the row has a ratio, which is at most the tolerance above
every other. Under the steepest rule the row is the first one with the least ratio, and under the
cautious rule no row with a near ratio has an earlier basic column. -/
structure LeavesSoundly (rule : PivotRule) (tolerance : Rat) (basis : Vector (Fin n) m)
    (ratios : Vector (Option Rat) m) (row : Fin m) (ratio : Rat) : Prop where
  present : ratios.get row = some ratio
  least : ∀ other level, ratios.get other = some level → ratio ≤ level + tolerance
  first : rule = .dantzig → ∀ other level, ratios.get other = some level →
    ratio ≤ level ∧ (other < row → ratio < level)
  cautious : rule = .bland → ∀ other level, ratios.get other = some level →
    |level - ratio| ≤ tolerance → basis.get row ≤ basis.get other

theorem leavesSoundly_of_dantzig (nonneg : 0 ≤ tolerance)
    (left : dantzig.leaving tolerance basis ratios = some row) :
    ∃ ratio, LeavesSoundly dantzig tolerance basis ratios row ratio := by
  obtain ⟨ratio, earlier, later, split, above, notBelow⟩ :=
    holds_of_leaving left (scan_dantzig_isFirstLeast nonneg basis (ratioEntries ratios))
  have first : ∀ other level, ratios.get other = some level →
      ratio ≤ level ∧ (other < row → ratio < level) := by
    intro other level present
    have listed : (other, level) ∈ earlier ++ (row, ratio) :: later :=
      split ▸ mem_ratioEntries.2 present
    have ordered := pairwise_ratioEntries ratios
    rw [split, List.pairwise_append, List.pairwise_cons] at ordered
    obtain ⟨_, ⟨after, _⟩, _⟩ := ordered
    rcases List.mem_append.1 listed with isEarlier | notEarlier
    · have smaller := above _ isEarlier
      exact ⟨smaller.le, fun _ => smaller⟩
    · rcases List.mem_cons.1 notEarlier with same | isLater
      · cases same
        exact ⟨le_rfl, fun before => absurd before (lt_irrefl _)⟩
      · exact ⟨notBelow _ isLater, fun before => absurd before (after _ isLater).asymm⟩
  have member : (row, ratio) ∈ ratioEntries ratios := by simp [split]
  exact ⟨ratio, mem_ratioEntries.1 member, fun other level present =>
    (first other level present).1.trans (le_add_of_nonneg_right nonneg), fun _ => first, nofun⟩

theorem leavesSoundly_of_inLayers (nonneg : 0 ≤ tolerance)
    (layered : InLayers tolerance (ratioEntries ratios))
    (left : bland.leaving tolerance basis ratios = some row) :
    ∃ ratio, LeavesSoundly bland tolerance basis ratios row ratio := by
  obtain ⟨ratio, member, least, cautious⟩ :=
    holds_of_leaving left (scan_bland_isCautiousWithin nonneg basis layered)
  exact ⟨ratio, mem_ratioEntries.1 member,
    fun other level present => least (other, level) (mem_ratioEntries.2 present), nofun,
    fun _ other level present => cautious (other, level) (mem_ratioEntries.2 present)⟩

/-- The ratio of the returned row is above no other one by more than the tolerance for each ratio
after the first. -/
theorem le_add_of_leaving (nonneg : 0 ≤ tolerance)
    (left : rule.leaving tolerance basis ratios = some row) {ratio : Rat}
    (present : ratios.get row = some ratio) {other : Fin m} {level : Rat}
    (otherPresent : ratios.get other = some level) :
    ratio ≤ level + ((ratioEntries ratios).length - 1) * tolerance := by
  obtain ⟨_, member, bounded⟩ :=
    holds_of_leaving left (scan_isWithinDrift nonneg rule basis (ratioEntries ratios))
  obtain rfl := Option.some.inj ((mem_ratioEntries.1 member).symm.trans present)
  have bound := bounded (other, level) (mem_ratioEntries.2 otherPresent)
  dsimp only at bound
  linarith

/-- The choice of the leaving row at a tolerance. Both rules return a row exactly when some row has
a ratio, and the returned row has one. It is above no other ratio by more than the tolerance for
each ratio after the first. Under the steepest rule, and wherever nearness is transitive among the
ratios, as it is without tolerance, the choice is as described: the ratio is at most the tolerance
above every other, the steepest rule returns the first row with the least ratio, and the cautious
rule breaks ties by the basic column. -/
theorem leaving_isNearLeast (tolerance : Rat) (nonneg : 0 ≤ tolerance) (basis : Vector (Fin n) m)
    (ratios : Vector (Option Rat) m) (rule : PivotRule) :
    ((rule.leaving tolerance basis ratios).isSome = true ↔
        ∃ row ratio, ratios.get row = some ratio) ∧
      (∀ row, rule.leaving tolerance basis ratios = some row →
        ∃ ratio, ratios.get row = some ratio ∧
          (rule = .dantzig ∨ InLayers tolerance (ratioEntries ratios) →
            LeavesSoundly rule tolerance basis ratios row ratio) ∧
          ∀ other level, ratios.get other = some level →
            ratio ≤ level + ((ratioEntries ratios).length - 1) * tolerance) ∧
      (tolerance = 0 → InLayers tolerance (ratioEntries ratios)) := by
  refine ⟨isSome_leaving_iff rule tolerance basis ratios, fun row left => ?_, fun zero => ?_⟩
  · obtain ⟨ratio, present⟩ := exists_ratio_of_leaving_eq_some left
    refine ⟨ratio, present, fun reliable => ?_,
      fun other level otherPresent => le_add_of_leaving nonneg left present otherPresent⟩
    have sound : ∃ found, LeavesSoundly rule tolerance basis ratios row found := by
      cases rule with
      | dantzig => exact leavesSoundly_of_dantzig nonneg left
      | bland => exact leavesSoundly_of_inLayers nonneg (reliable.resolve_left nofun) left
    obtain ⟨found, sound⟩ := sound
    obtain rfl := Option.some.inj (sound.present.symm.trans present)
    exact sound
  · rw [zero]
    exact inLayers_zero _

/-- Ratios in two layers at a tolerance of a quarter, and a row without one. -/
def twoLayerRatios : Vector (Option Rat) 5 :=
  #v[some 3, some (5 / 4), none, some 1, some (9 / 8)]

/-- The statement at these ratios under the cautious rule, which passes over the least one for the
sake of an earlier basic column. -/
theorem leaving_isNearLeast_twoLayerRatios :
    (0 : Rat) ≤ 1 / 4 ∧ InLayers (1 / 4) (ratioEntries twoLayerRatios) ∧
      bland.leaving (1 / 4) (#v[1, 2, 0, 5, 4] : Vector (Fin 6) 5) twoLayerRatios = some 1 ∧
      LeavesSoundly bland (1 / 4) (#v[1, 2, 0, 5, 4] : Vector (Fin 6) 5) twoLayerRatios 1
        (5 / 4) := by
  have nonneg : (0 : Rat) ≤ 1 / 4 := by norm_num
  have layered : InLayers (1 / 4) (ratioEntries twoLayerRatios) := by decide +kernel
  have left : bland.leaving (1 / 4) (#v[1, 2, 0, 5, 4] : Vector (Fin 6) 5) twoLayerRatios =
      some 1 := by decide +kernel
  obtain ⟨_, sound, _⟩ := leaving_isNearLeast (1 / 4) nonneg
    (#v[1, 2, 0, 5, 4] : Vector (Fin 6) 5) twoLayerRatios .bland
  obtain ⟨ratio, present, described, _⟩ := sound 1 left
  obtain rfl : (5 / 4 : Rat) = ratio := Option.some.inj present
  exact ⟨nonneg, layered, left, described (Or.inr layered)⟩

end PivotRule

/-! ### A chain of ties -/

/-- A problem whose first ratios form a chain of ties at the default tolerance. -/
def chainedProblem : Problem Rat :=
  ((((Problem.withVariables 3).setObjective [1, 0, 0] .maximize).constrain
    [1, 1, 0] .equal 1.0000000008).constrain [1, 0, 1] .equal 1).constrain
    [1, 0, 0] .atMost 1.0000000016

theorem chainedProblem_valid : chainedProblem.Valid :=
  Problem.fault?_eq_none_iff.1 (by decide +kernel)

/-- On this problem the cautious rule lets a row leave whose ratio is above another one by more than
the tolerance, and the pivot makes the right-hand side of that row negative by more than the
tolerance. -/
theorem leaving_of_chainedProblem :
    ∃ run : Run (.ofProblem chainedProblem chainedProblem_valid),
      ({ rule := .bland } : Solver Rat).start chainedProblem =
          .ok ⟨.ofProblem chainedProblem chainedProblem_valid, run⟩ ∧
        run.tableau.basis.toList.Nodup ∧
        ∃ column chosen other ratio level, run.entering? = some column ∧
          run.leaving? column = some chosen ∧
          run.step.1 = .pivoted column (run.tableau.basis.get chosen) ∧
          (run.ratiosOf column).get chosen = some ratio ∧
          (run.ratiosOf column).get other = some level ∧ level + Scalar.epsilon < ratio ∧
          run.step.2.tableau.rhs other < -Scalar.epsilon := by
  refine ⟨_, Solver.start_eq _ chainedProblem_valid, by decide +kernel, ?_⟩
  refine ⟨⟨0, by decide +kernel⟩, ⟨2, by decide +kernel⟩, ⟨1, by decide +kernel⟩, 1.0000000016, 1,
    ?_⟩
  decide +kernel

end LinearProgramming
