/-
This file says what the two pivot rules choose when they compute exactly.

Both rules choose by one scan from left to right. A scan is followed entry by entry: what it holds
after some entries is a choice among these entries, and one more entry keeps that true. Without
tolerance the entering column is a negative entry of the objective row at the end, and the leaving
row has the least of all ratios. With a tolerance a scan compares entries that are near to each
other as equal. Nearness is not transitive, so the arguments are made where it is: where the
penalties of the objective row, or the ratios, lie in layers. In any case the ratio that a scan
holds is bounded by the least one and the tolerance for each ratio after the first.
-/

import Mathlib
import LinearProgramming.PivotRule
import LinearProgramming.Proofs.BigM.Nearness

namespace LinearProgramming

/-- What a fold holds after some entries of a list, if one more entry keeps it true. -/
theorem foldl_prefix_induction {β σ : Type} (holds : List β → σ → Prop) (step : σ → β → σ)
    (start : σ) (base : holds [] start)
    (more : ∀ seen state entry, holds seen state → holds (seen ++ [entry]) (step state entry))
    (entries : List β) : holds entries (entries.foldl step start) := by
  induction entries using List.reverseRecOn with
  | nil => exact base
  | append_singleton seen entry inductionHypothesis =>
    rw [List.foldl_append]
    exact more seen _ entry inductionHypothesis

/-- Two folds with steps that are the same where an invariant holds. -/
theorem foldl_congr_of_invariant {β σ : Type} (holds : σ → Prop) {step other : σ → β → σ}
    (same : ∀ state entry, holds state → step state entry = other state entry)
    (keeps : ∀ state entry, holds state → holds (other state entry)) (entries : List β) {start : σ}
    (base : holds start) : entries.foldl step start = entries.foldl other start := by
  induction entries generalizing start with
  | nil => rfl
  | cons entry entries inductionHypothesis =>
    rw [List.foldl_cons, List.foldl_cons, same start entry base]
    exact inductionHypothesis (keeps start entry base)

/-- In a list of all indices those before one come first, and those after it come last. -/
theorem mem_of_finRange_eq_append {n : Nat} {earlier later : List (Fin n)} {index j : Fin n}
    (split : List.finRange n = earlier ++ index :: later) :
    (j < index → j ∈ earlier) ∧ (index < j → j ∈ later) := by
  have ordered := List.pairwise_lt_finRange n
  have member : j ∈ earlier ++ index :: later := split ▸ List.mem_finRange j
  rw [split, List.pairwise_append, List.pairwise_cons] at ordered
  obtain ⟨_, ⟨after, _⟩, before⟩ := ordered
  rcases List.mem_append.1 member with isEarlier | notEarlier
  · exact ⟨fun _ => isEarlier, fun above =>
      absurd above (before j isEarlier index List.mem_cons_self).asymm⟩
  · rcases List.mem_cons.1 notEarlier with same | isLater
    · exact ⟨fun below => absurd below (same ▸ lt_irrefl _),
        fun above => absurd above (same ▸ lt_irrefl _)⟩
    · exact ⟨fun below => absurd below (after j isLater).asymm, fun _ => isLater⟩

/-! ### The entering column -/

namespace BigM

variable {ι : Type} {tolerance : Rat} {entries : List (ι × BigM Rat)}
  {found : Option (ι × BigM Rat)}

/-- A scan ends with one of the entries, whatever the scalars compute. -/
theorem mem_of_leastNegative {α : Type} [Scalar α] {tolerance : α} {entries : List (ι × BigM α)}
    {found : ι × BigM α} (least : leastNegative tolerance entries = some found) :
    found ∈ entries := by
  refine foldl_prefix_induction (fun seen found => ∀ entry, found = some entry → entry ∈ seen)
    _ _ nofun ?_ entries found least
  intro seen held entry listed other
  split
  · rintro ⟨⟩
    exact List.mem_append_right _ (List.mem_singleton_self entry)
  · intro same
    exact List.mem_append_left _ (listed other same)

/-- What a scan compares the next entry with. -/
def threshold (found : Option (ι × BigM Rat)) : BigM Rat := (found.map Prod.snd).getD 0

/-- What a scan holds among layered entries: nothing while no entry is negative, and otherwise a
negative entry that no other one is less than. -/
def IsLeastWithin (tolerance : Rat) (entries : List (ι × BigM Rat)) :
    Option (ι × BigM Rat) → Prop
  | none => ∀ entry ∈ entries, entry.2.lessWithin tolerance 0 = false
  | some found => found ∈ entries ∧ found.2.lessWithin tolerance 0 = true ∧
    ∀ entry ∈ entries, entry.2.lessWithin tolerance found.2 = false

theorem IsLeastWithin.not_less_threshold (holds : IsLeastWithin tolerance entries found) :
    ∀ entry ∈ entries, entry.2.lessWithin tolerance (threshold found) = false := by
  cases found with
  | none => exact holds
  | some held => exact holds.2.2

theorem IsLeastWithin.threshold_mem (holds : IsLeastWithin tolerance entries found) :
    threshold found ∈ 0 :: entries.map Prod.snd := by
  cases found with
  | none => exact List.mem_cons_self
  | some held => exact List.mem_cons_of_mem _ (List.mem_map_of_mem holds.1)

/-- A scan that moves on to a lesser entry has passed over no entry that is less than it. -/
theorem IsLeastWithin.take (nonneg : 0 ≤ tolerance)
    (holds : IsLeastWithin tolerance entries found) {entry : ι × BigM Rat}
    (layered : Layered tolerance (0 :: (entries ++ [entry]).map Prod.snd))
    (less : entry.2.lessWithin tolerance (threshold found) = true) :
    IsLeastWithin tolerance (entries ++ [entry]) (some entry) := by
  have listed : ∀ other ∈ entries ++ [entry],
      other.2 ∈ 0 :: (entries ++ [entry]).map Prod.snd := fun other member =>
    List.mem_cons_of_mem _ (List.mem_map_of_mem member)
  have last : entry ∈ entries ++ [entry] := by simp
  have thresholdIn : threshold found ∈ 0 :: (entries ++ [entry]).map Prod.snd := by
    rw [List.map_append]
    exact List.cons_subset_cons _ (List.subset_append_left _ _) holds.threshold_mem
  refine ⟨last, ?_, fun other member => ?_⟩
  · cases found with
    | none => exact less
    | some held =>
      exact layered.lessWithin_trans nonneg (listed _ last) thresholdIn List.mem_cons_self less
        holds.2.1
  · rcases List.mem_append.1 member with scanned | same
    · refine Bool.eq_false_iff.2 fun below => ?_
      have lower := layered.lessWithin_trans nonneg (listed _ member) (listed _ last) thresholdIn
        below less
      rw [holds.not_less_threshold other scanned] at lower
      cases lower
    · rw [List.mem_singleton.1 same]
      exact lessWithin_irrefl nonneg _

theorem IsLeastWithin.skip (holds : IsLeastWithin tolerance entries found) {entry : ι × BigM Rat}
    (notLess : entry.2.lessWithin tolerance (threshold found) = false) :
    IsLeastWithin tolerance (entries ++ [entry]) found := by
  have all : ∀ other ∈ entries ++ [entry],
      other.2.lessWithin tolerance (threshold found) = false := by
    intro other member
    rcases List.mem_append.1 member with scanned | same
    · exact holds.not_less_threshold other scanned
    · rw [List.mem_singleton.1 same, notLess]
  cases found with
  | none => exact all
  | some held => exact ⟨List.mem_append_left _ holds.1, holds.2.1, all⟩

/-- A scan over layered entries ends with one that no other is less than. -/
theorem leastNegative_isLeastWithin (nonneg : 0 ≤ tolerance)
    (layered : Layered tolerance (0 :: entries.map Prod.snd)) :
    IsLeastWithin tolerance entries (leastNegative tolerance entries) := by
  refine foldl_prefix_induction (fun seen found =>
    Layered tolerance (0 :: seen.map Prod.snd) → IsLeastWithin tolerance seen found) _ _ ?_ ?_
    entries layered
  · intro _ entry member
    cases member
  · intro seen found entry holds layered
    have held := holds (layered.mono (by
      rw [List.map_append]
      exact List.cons_subset_cons _ (List.subset_append_left _ _)))
    change IsLeastWithin tolerance _
      (if entry.2.lessWithin tolerance (threshold found) then some entry else found)
    cases less : entry.2.lessWithin tolerance (threshold found) with
    | true => exact held.take nonneg layered less
    | false => exact held.skip less

/-- A choice among scanned entries: no entry when none is negative, and otherwise a negative entry
that is not above any other. -/
def IsLeastNegative (entries : List (ι × BigM Rat)) : Option (ι × BigM Rat) → Prop
  | none => ∀ entry ∈ entries, 0 ≤ entry.2
  | some found => found ∈ entries ∧ found.2 < 0 ∧ ∀ entry ∈ entries, found.2 ≤ entry.2

theorem IsLeastNegative.threshold_le (chosen : IsLeastNegative entries found) :
    threshold found ≤ 0 ∧ ∀ entry ∈ entries, threshold found ≤ entry.2 := by
  cases found with
  | none => exact ⟨le_rfl, chosen⟩
  | some found => exact ⟨chosen.2.1.le, chosen.2.2⟩

/-- Without tolerance all entries lie in layers, and the scan ends with the least one. -/
theorem leastNegative_isLeast (entries : List (ι × BigM Rat)) :
    IsLeastNegative entries (leastNegative 0 entries) := by
  have holds := leastNegative_isLeastWithin le_rfl (layered_zero (0 :: entries.map Prod.snd))
  have notLess : ∀ left right : BigM Rat, left.lessWithin 0 right = false → right ≤ left := by
    intro left right compared
    rwa [← Bool.not_eq_true, lessWithin_zero_iff, not_lt] at compared
  cases chosen : leastNegative 0 entries with
  | none =>
    rw [chosen] at holds
    exact fun entry member => notLess _ _ (holds entry member)
  | some found =>
    rw [chosen] at holds
    obtain ⟨member, negative, least⟩ := holds
    exact ⟨member, (lessWithin_zero_iff _ _).1 negative, fun entry listed =>
      notLess _ _ (least entry listed)⟩

/-- Entries that are zero are never chosen, so a scan may leave them out. -/
theorem leastNegative_filter (keep : ι × BigM Rat → Bool) (entries : List (ι × BigM Rat))
    (dropped : ∀ entry ∈ entries, keep entry = false → entry.2 = 0) :
    leastNegative 0 (entries.filter keep) = leastNegative 0 entries := by
  induction entries using List.reverseRecOn with
  | nil => rfl
  | append_singleton seen entry inductionHypothesis =>
    have shorter := inductionHypothesis fun other member =>
      dropped other (List.mem_append_left _ member)
    have nonpos := (leastNegative_isLeast seen).threshold_le.1
    unfold leastNegative at shorter nonpos ⊢
    rw [List.filter_append, List.foldl_append, List.foldl_append, shorter]
    cases kept : keep entry with
    | true => rw [List.filter_cons_of_pos kept, List.filter_nil]
    | false =>
      have zero : entry.2 = 0 := dropped entry (by simp) kept
      rw [List.filter_cons_of_neg (by simp [kept]), List.filter_nil, List.foldl_cons]
      refine (if_neg fun less => ?_).symm
      have below := (lessWithin_zero_iff _ _).1 less
      rw [zero] at below
      exact not_lt.2 nonpos below

end BigM

namespace PivotRule

variable {m n : Nat}

/-- No column enters exactly when no entry of the objective row is negative. -/
theorem nonneg_of_entering_eq_none {rule : PivotRule} {objectiveRow : Vector (BigM Rat) n}
    (stopped : rule.entering 0 objectiveRow = none) (j : Fin n) : 0 ≤ objectiveRow.get j := by
  cases rule with
  | dantzig =>
    have chosen := BigM.leastNegative_isLeast
      ((List.finRange n).map fun j => (j, objectiveRow.get j))
    rw [Option.map_eq_none_iff.1 stopped] at chosen
    exact chosen (j, objectiveRow.get j) (List.mem_map.2 ⟨j, List.mem_finRange j, rfl⟩)
  | bland =>
    have skipped := List.find?_eq_none.1 stopped j (List.mem_finRange j)
    rw [BigM.isNegativeWithin_zero_iff] at skipped
    exact not_lt.1 skipped

/-- A column that enters has a negative entry in the objective row. -/
theorem neg_of_entering_eq_some {rule : PivotRule} {objectiveRow : Vector (BigM Rat) n}
    {column : Fin n} (entered : rule.entering 0 objectiveRow = some column) :
    objectiveRow.get column < 0 := by
  cases rule with
  | dantzig =>
    have chosen := BigM.leastNegative_isLeast
      ((List.finRange n).map fun j => (j, objectiveRow.get j))
    obtain ⟨found, held, rfl⟩ := Option.map_eq_some_iff.1 entered
    rw [held] at chosen
    obtain ⟨member, negative, _⟩ := chosen
    obtain ⟨j, _, rfl⟩ := List.mem_map.1 member
    exact negative
  | bland =>
    have accepted := List.find?_some entered
    rwa [BigM.isNegativeWithin_zero_iff] at accepted

/-! ### A row with a ratio leaves, whatever the scalars compute -/

section AnyScalar

variable {α : Type} {ratios : Vector (Option α) m}

/-- What a scan holds after some rows: a row with its ratio, and nothing only while none of the
rows has a ratio. -/
def HoldsRow (ratios : Vector (Option α) m) (rows : List (Fin m)) : Option (Fin m × α) → Prop
  | none => ∀ row ∈ rows, ratios.get row = none
  | some (found, ratio) => ratios.get found = some ratio

/-- A row without a ratio changes nothing. -/
theorem HoldsRow.skip {rows : List (Fin m)} {found : Option (Fin m × α)}
    (holds : HoldsRow ratios rows found) {row : Fin m} (absent : ratios.get row = none) :
    HoldsRow ratios (rows ++ [row]) found := by
  cases found with
  | none =>
    intro other member
    rcases List.mem_append.1 member with scanned | last
    · exact holds other scanned
    · rw [List.mem_singleton.1 last, absent]
  | some found => exact holds

variable [Scalar α] {rule : PivotRule} {tolerance : α} {basis : Vector (Fin n) m}

theorem HoldsRow.scan {rows : List (Fin m)} {found : Option (Fin m × α)}
    (holds : HoldsRow ratios rows found) (row : Fin m) :
    HoldsRow ratios (rows ++ [row])
      (match ratios.get row with
        | none => found
        | some ratio =>
          if rule.prefers tolerance basis row ratio found then some (row, ratio) else found) := by
  cases present : ratios.get row with
  | none => exact holds.skip present
  | some ratio =>
    cases found with
    | none => exact present
    | some found =>
      show HoldsRow ratios _ (if _ then _ else _)
      split
      · exact present
      · exact holds

/-- A row leaves with its ratio, or no row has a ratio. -/
theorem leaving_cases (rule : PivotRule) (tolerance : α) (basis : Vector (Fin n) m)
    (ratios : Vector (Option α) m) :
    (rule.leaving tolerance basis ratios = none ∧ ∀ row, ratios.get row = none) ∨
      ∃ row ratio, rule.leaving tolerance basis ratios = some row ∧
        ratios.get row = some ratio := by
  have nothing : HoldsRow ratios [] none := fun _ impossible => nomatch impossible
  have scanned := foldl_prefix_induction (HoldsRow ratios) (fun found row =>
    match ratios.get row with
    | none => found
    | some ratio =>
      if rule.prefers tolerance basis row ratio found then some (row, ratio) else found)
    none nothing (fun _ _ row holds => holds.scan row) (List.finRange m)
  unfold leaving
  generalize (List.finRange m).foldl _ none = found at scanned ⊢
  cases found with
  | none => exact Or.inl ⟨rfl, fun row => scanned row (List.mem_finRange row)⟩
  | some held => exact Or.inr ⟨held.1, held.2, rfl, scanned⟩

theorem none_of_leaving_eq_none (stuck : rule.leaving tolerance basis ratios = none)
    (row : Fin m) : ratios.get row = none := by
  rcases rule.leaving_cases tolerance basis ratios with ⟨_, absent⟩ | ⟨_, _, left, _⟩
  · exact absent row
  · rw [stuck] at left
    cases left

theorem exists_ratio_of_leaving_eq_some {leaves : Fin m}
    (left : rule.leaving tolerance basis ratios = some leaves) :
    ∃ ratio, ratios.get leaves = some ratio := by
  rcases rule.leaving_cases tolerance basis ratios with ⟨stuck, _⟩ | ⟨row, ratio, found, present⟩
  · rw [stuck] at left
    cases left
  · cases found.symm.trans left
    exact ⟨ratio, present⟩

end AnyScalar

/-! ### The scan of the rows that have a ratio -/

section Scan

variable {α : Type}

/-- The rows that have a ratio, with their ratios. -/
def ratioEntries (ratios : Vector (Option α) m) : List (Fin m × α) :=
  (List.finRange m).filterMap fun row => (ratios.get row).map fun ratio => (row, ratio)

theorem mem_ratioEntries {ratios : Vector (Option α) m} {entry : Fin m × α} :
    entry ∈ ratioEntries ratios ↔ ratios.get entry.1 = some entry.2 := by
  unfold ratioEntries
  rw [List.mem_filterMap]
  constructor
  · rintro ⟨row, _, present⟩
    obtain ⟨ratio, found, rfl⟩ := Option.map_eq_some_iff.1 present
    exact found
  · intro present
    exact ⟨entry.1, List.mem_finRange _, by rw [present]; rfl⟩

theorem get_eq_none_of_ratioEntries_eq_nil {ratios : Vector (Option α) m}
    (empty : ratioEntries ratios = []) (row : Fin m) : ratios.get row = none := by
  refine Option.eq_none_iff_forall_ne_some.2 fun ratio present => ?_
  have listed : (row, ratio) ∈ ratioEntries ratios := mem_ratioEntries.2 present
  rw [empty] at listed
  cases listed

variable [Scalar α] {rule : PivotRule} {tolerance : α} {basis : Vector (Fin n) m}

/-- The entry that a rule ends with when it scans some entries from left to right. -/
def scan (rule : PivotRule) (tolerance : α) (basis : Vector (Fin n) m)
    (entries : List (Fin m × α)) : Option (Fin m × α) :=
  entries.foldl (fun found entry =>
    if rule.prefers tolerance basis entry.1 entry.2 found then some entry else found) none

theorem leaving_eq_scan (rule : PivotRule) (tolerance : α) (basis : Vector (Fin n) m)
    (ratios : Vector (Option α) m) :
    rule.leaving tolerance basis ratios =
      (rule.scan tolerance basis (ratioEntries ratios)).map Prod.fst := by
  unfold leaving scan ratioEntries
  rw [List.foldl_filterMap]
  refine congrArg (Option.map Prod.fst) (congrArg (fun step =>
    (List.finRange m).foldl step none) (funext fun found => funext fun row => ?_))
  cases ratios.get row <;> rfl

/-- A scan takes the first entry. It finds nothing only where there are no entries, and otherwise
what holds of the first entry and is kept by every further one holds at the end. -/
theorem scan_keeps {entries : List (Fin m × α)} (holds : List (Fin m × α) → Fin m × α → Prop)
    (first : ∀ entry, holds [entry] entry)
    (next : ∀ seen held entry, seen ⊆ entries → entry ∈ entries → holds seen held →
      holds (seen ++ [entry])
        (if rule.prefers tolerance basis entry.1 entry.2 (some held) then entry else held)) :
    (entries = [] ∧ rule.scan tolerance basis entries = none) ∨
      ∃ held, rule.scan tolerance basis entries = some held ∧ holds entries held := by
  have scanned := foldl_prefix_induction
    (fun seen found => seen ⊆ entries →
      (seen = [] ∧ found = none) ∨ ∃ held, found = some held ∧ holds seen held)
    (fun found entry =>
      if rule.prefers tolerance basis entry.1 entry.2 found then some entry else found)
    none (fun _ => Or.inl ⟨rfl, rfl⟩) ?_ entries
  · exact scanned (List.Subset.refl _)
  · intro seen found entry kept within
    obtain ⟨earlier, last⟩ := List.append_subset.1 within
    rcases kept earlier with ⟨rfl, rfl⟩ | ⟨held, rfl, holding⟩
    · exact Or.inr ⟨entry, rfl, first entry⟩
    · exact Or.inr ⟨_, (apply_ite some _ entry held).symm,
        next seen held entry earlier (last (List.mem_singleton_self entry)) holding⟩

end Scan

/-! ### What the rules hold at a tolerance -/

variable {rule : PivotRule} {tolerance : Rat} {basis : Vector (Fin n) m}
  {row found : Fin m} {ratio least : Rat} {entries seen : List (Fin m × Rat)}
  {held entry : Fin m × Rat}

theorem prefers_dantzig_iff (nonneg : 0 ≤ tolerance) :
    dantzig.prefers tolerance basis row ratio (some (found, least)) = true ↔ ratio < least := by
  unfold prefers
  dsimp only
  by_cases smaller : ratio < least - tolerance
  · rw [if_pos smaller]
    exact iff_of_true rfl (smaller.trans_le (sub_le_self _ nonneg))
  · rw [if_neg smaller]
    exact decide_eq_true_iff

theorem prefers_bland_iff :
    bland.prefers tolerance basis row ratio (some (found, least)) = true ↔
      ratio + tolerance < least ∨
        |ratio - least| ≤ tolerance ∧ basis.get row < basis.get found := by
  unfold prefers
  dsimp only
  rw [Scalar.abs_eq, ← lt_sub_iff_add_lt]
  by_cases smaller : ratio < least - tolerance
  · rw [if_pos smaller]
    exact iff_of_true rfl (Or.inl smaller)
  · rw [if_neg smaller, Bool.and_eq_true, decide_eq_true_iff, decide_eq_true_iff]
    exact (or_iff_right smaller).symm

/-- Neither rule prefers a ratio that is larger by more than the tolerance. -/
theorem le_add_of_prefers (nonneg : 0 ≤ tolerance)
    (preferred : rule.prefers tolerance basis row ratio (some (found, least)) = true) :
    ratio ≤ least + tolerance := by
  cases rule with
  | dantzig =>
    have smaller := (prefers_dantzig_iff nonneg).1 preferred
    linarith
  | bland =>
    rcases prefers_bland_iff.1 preferred with smaller | ⟨near, _⟩
    · linarith
    · linarith [(abs_le.1 near).2]

/-- Neither rule passes over a ratio that is smaller by more than the tolerance. -/
theorem le_add_of_not_prefers (nonneg : 0 ≤ tolerance)
    (refused : ¬ rule.prefers tolerance basis row ratio (some (found, least)) = true) :
    least ≤ ratio + tolerance := by
  cases rule with
  | dantzig =>
    rw [prefers_dantzig_iff nonneg] at refused
    linarith
  | bland =>
    rw [prefers_bland_iff] at refused
    exact not_lt.1 fun smaller => refused (Or.inl smaller)

/-- An entry that lies above no other one by more than the tolerance for each entry after the
first. -/
def IsWithinDrift (tolerance : Rat) (entries : List (Fin m × Rat)) (held : Fin m × Rat) : Prop :=
  held ∈ entries ∧
    ∀ other ∈ entries, held.2 + tolerance ≤ other.2 + entries.length * tolerance

/-- Whatever a rule does at an entry, what it holds drifts by the tolerance at most. -/
theorem IsWithinDrift.next (nonneg : 0 ≤ tolerance)
    (drifted : IsWithinDrift tolerance seen held) :
    IsWithinDrift tolerance (seen ++ [entry])
      (if rule.prefers tolerance basis entry.1 entry.2 (some held) then entry else held) := by
  obtain ⟨listed, bounded⟩ := drifted
  have longer : ((seen ++ [entry]).length : Rat) * tolerance =
      seen.length * tolerance + tolerance := by
    rw [List.length_append, List.length_singleton]
    push_cast
    ring
  unfold IsWithinDrift
  rw [longer]
  split
  · rename_i preferred
    have close := le_add_of_prefers nonneg preferred
    refine ⟨by simp, fun other member => ?_⟩
    rcases List.mem_append.1 member with scanned | last
    · linarith [bounded other scanned]
    · rw [List.mem_singleton.1 last]
      linarith [mul_nonneg (Nat.cast_nonneg (α := Rat) seen.length) nonneg]
  · rename_i refused
    have close := le_add_of_not_prefers nonneg refused
    refine ⟨List.mem_append_left _ listed, fun other member => ?_⟩
    rcases List.mem_append.1 member with scanned | last
    · linarith [bounded other scanned]
    · rw [List.mem_singleton.1 last]
      linarith [bounded held listed]

theorem scan_isWithinDrift (nonneg : 0 ≤ tolerance) (rule : PivotRule) (basis : Vector (Fin n) m)
    (entries : List (Fin m × Rat)) :
    (entries = [] ∧ rule.scan tolerance basis entries = none) ∨
      ∃ held, rule.scan tolerance basis entries = some held ∧
        IsWithinDrift tolerance entries held := by
  refine scan_keeps (IsWithinDrift tolerance) (fun entry => ?_)
    fun _ _ _ _ _ drifted => drifted.next nonneg
  refine ⟨List.mem_singleton_self entry, fun other member => ?_⟩
  rw [List.mem_singleton.1 member, List.length_singleton, Nat.cast_one, one_mul]

/-- The first of the entries with the least ratio. -/
def IsFirstLeast (entries : List (Fin m × Rat)) (held : Fin m × Rat) : Prop :=
  ∃ earlier later, entries = earlier ++ held :: later ∧
    (∀ other ∈ earlier, held.2 < other.2) ∧ ∀ other ∈ later, held.2 ≤ other.2

/-- The steepest rule moves on to a smaller ratio only, so it holds the first least one. -/
theorem IsFirstLeast.next (nonneg : 0 ≤ tolerance) (least : IsFirstLeast seen held) :
    IsFirstLeast (seen ++ [entry])
      (if dantzig.prefers tolerance basis entry.1 entry.2 (some held) then entry else held) := by
  obtain ⟨earlier, later, rfl, above, notBelow⟩ := least
  split
  · rename_i preferred
    have smaller := (prefers_dantzig_iff nonneg).1 preferred
    refine ⟨earlier ++ held :: later, [], rfl, fun other member => ?_, nofun⟩
    rcases List.mem_append.1 member with before | after
    · exact smaller.trans (above other before)
    · rcases List.mem_cons.1 after with rfl | after
      · exact smaller
      · exact smaller.trans_le (notBelow other after)
  · rename_i refused
    rw [prefers_dantzig_iff nonneg, not_lt] at refused
    refine ⟨earlier, later ++ [entry], by simp, above, fun other member => ?_⟩
    rcases List.mem_append.1 member with scanned | last
    · exact notBelow other scanned
    · rw [List.mem_singleton.1 last]
      exact refused

theorem scan_dantzig_isFirstLeast (nonneg : 0 ≤ tolerance) (basis : Vector (Fin n) m)
    (entries : List (Fin m × Rat)) :
    (entries = [] ∧ dantzig.scan tolerance basis entries = none) ∨
      ∃ held, dantzig.scan tolerance basis entries = some held ∧ IsFirstLeast entries held :=
  scan_keeps IsFirstLeast (fun _ => ⟨[], [], rfl, nofun, nofun⟩)
    fun _ _ _ _ _ least => least.next nonneg

/-- The ratios lie in layers: entries near to one of them are near to each other. -/
def InLayers (tolerance : Rat) (entries : List (Fin m × Rat)) : Prop :=
  ∀ left ∈ entries, ∀ middle ∈ entries, ∀ right ∈ entries,
    |left.2 - middle.2| ≤ tolerance → |middle.2 - right.2| ≤ tolerance →
      |left.2 - right.2| ≤ tolerance

instance (entries : List (Fin m × Rat)) : Decidable (InLayers tolerance entries) :=
  inferInstanceAs (Decidable (∀ left ∈ entries, ∀ middle ∈ entries, ∀ right ∈ entries,
    |left.2 - middle.2| ≤ tolerance → |middle.2 - right.2| ≤ tolerance →
      |left.2 - right.2| ≤ tolerance))

/-- Without tolerance only equal ratios are near. -/
theorem inLayers_zero (entries : List (Fin m × Rat)) : InLayers 0 entries := by
  intro left _ middle _ right _ near next
  rw [abs_nonpos_iff, sub_eq_zero] at near next ⊢
  exact near.trans next

/-- An entry that lies above no other one by more than the tolerance, and of the entries with near
ratios has the first basic column. -/
structure IsCautiousWithin (tolerance : Rat) (basis : Vector (Fin n) m)
    (entries : List (Fin m × Rat)) (held : Fin m × Rat) : Prop where
  mem : held ∈ entries
  least : ∀ other ∈ entries, held.2 ≤ other.2 + tolerance
  first : ∀ other ∈ entries, |other.2 - held.2| ≤ tolerance → basis.get held.1 ≤ basis.get other.1

/-- Among entries in layers the cautious rule holds such an entry. -/
theorem IsCautiousWithin.next (nonneg : 0 ≤ tolerance) (layered : InLayers tolerance entries)
    (within : seen ⊆ entries) (inside : entry ∈ entries)
    (cautious : IsCautiousWithin tolerance basis seen held) :
    IsCautiousWithin tolerance basis (seen ++ [entry])
      (if bland.prefers tolerance basis entry.1 entry.2 (some held) then entry else held) := by
  obtain ⟨listed, least, first⟩ := cautious
  have heldIn := within listed
  split
  · rename_i preferred
    have others : ∀ other ∈ seen, entry.2 ≤ other.2 + tolerance ∧
        (|other.2 - entry.2| ≤ tolerance → basis.get entry.1 ≤ basis.get other.1) := by
      intro other scanned
      have bound := least other scanned
      have otherIn := within scanned
      rcases prefers_bland_iff.1 preferred with smaller | ⟨near, earlier⟩
      · refine ⟨by linarith, fun tied => ?_⟩
        -- the entry would lie in one layer with the one held before, which it undercuts
        have between : |other.2 - held.2| ≤ tolerance :=
          abs_le.2 ⟨by linarith, by linarith [(abs_le.1 tied).2]⟩
        have same := layered entry inside other otherIn held heldIn
          (by rwa [abs_sub_comm]) between
        linarith [(abs_le.1 same).1]
      · by_cases tied : |other.2 - held.2| ≤ tolerance
        · have same := layered entry inside held heldIn other otherIn near (by rwa [abs_sub_comm])
          exact ⟨by linarith [(abs_le.1 same).2],
            fun _ => earlier.le.trans (first other scanned tied)⟩
        · refine ⟨?_, fun close =>
            absurd (layered other otherIn entry inside held heldIn close near) tied⟩
          rcases lt_abs.1 (not_le.1 tied) with above | below
          · linarith [(abs_le.1 near).2]
          · linarith
    refine ⟨by simp, fun other member => ?_, fun other member tied => ?_⟩
    · rcases List.mem_append.1 member with scanned | last
      · exact (others other scanned).1
      · rw [List.mem_singleton.1 last]
        exact le_add_of_nonneg_right nonneg
    · rcases List.mem_append.1 member with scanned | last
      · exact (others other scanned).2 tied
      · rw [List.mem_singleton.1 last]
  · rename_i refused
    refine ⟨List.mem_append_left _ listed, fun other member => ?_, fun other member tied => ?_⟩
    · rcases List.mem_append.1 member with scanned | last
      · exact least other scanned
      · rw [List.mem_singleton.1 last]
        exact le_add_of_not_prefers nonneg refused
    · rcases List.mem_append.1 member with scanned | last
      · exact first other scanned tied
      · rw [List.mem_singleton.1 last] at tied ⊢
        exact not_lt.1 fun earlier => refused (prefers_bland_iff.2 (Or.inr ⟨tied, earlier⟩))

theorem scan_bland_isCautiousWithin (nonneg : 0 ≤ tolerance) (basis : Vector (Fin n) m)
    (layered : InLayers tolerance entries) :
    (entries = [] ∧ bland.scan tolerance basis entries = none) ∨
      ∃ held, bland.scan tolerance basis entries = some held ∧
        IsCautiousWithin tolerance basis entries held := by
  refine scan_keeps (IsCautiousWithin tolerance basis) (fun entry => ?_)
    fun _ _ _ within inside cautious => cautious.next nonneg layered within inside
  refine ⟨List.mem_singleton_self entry, fun other member => ?_, fun other member _ => ?_⟩
  · rw [List.mem_singleton.1 member]
    exact le_add_of_nonneg_right nonneg
  · rw [List.mem_singleton.1 member]

/-! ### The leaving row -/

/-- A choice among scanned rows: none when none of them has a ratio, and otherwise a row whose
ratio is not above any other. -/
def IsLeastRatio (ratios : Vector (Option Rat) m) (rows : List (Fin m)) :
    Option (Fin m × Rat) → Prop
  | none => ∀ row ∈ rows, ratios.get row = none
  | some (found, least) => ratios.get found = some least ∧
    ∀ row ∈ rows, ∀ ratio, ratios.get row = some ratio → least ≤ ratio

/-- What the scan of a rule holds at its end: a row with its ratio. -/
def scanned (rule : PivotRule) (basis : Vector (Fin n) m) (ratios : Vector (Option Rat) m) :
    Option (Fin m × Rat) :=
  (List.finRange m).foldl (fun found row =>
    match ratios.get row with
    | none => found
    | some ratio => if rule.prefers 0 basis row ratio found then some (row, ratio) else found) none

theorem scanned_eq_scan (rule : PivotRule) (basis : Vector (Fin n) m)
    (ratios : Vector (Option Rat) m) :
    rule.scanned basis ratios = rule.scan 0 basis (ratioEntries ratios) := by
  unfold scanned scan ratioEntries
  rw [List.foldl_filterMap]
  refine congrArg (fun step => (List.finRange m).foldl step none)
    (funext fun found => funext fun row => ?_)
  cases ratios.get row <;> rfl

theorem leaving_eq_scanned (rule : PivotRule) (basis : Vector (Fin n) m)
    (ratios : Vector (Option Rat) m) :
    rule.leaving 0 basis ratios = (rule.scanned basis ratios).map Prod.fst := by
  rw [scanned_eq_scan, leaving_eq_scan]

/-- Without tolerance nothing drifts, so either rule ends with the least of all ratios. -/
theorem scanned_isLeast (rule : PivotRule) (basis : Vector (Fin n) m)
    (ratios : Vector (Option Rat) m) :
    IsLeastRatio ratios (List.finRange m) (rule.scanned basis ratios) := by
  rw [scanned_eq_scan]
  rcases scan_isWithinDrift le_rfl rule basis (ratioEntries ratios) with
    ⟨empty, nothing⟩ | ⟨held, found, listed, bounded⟩
  · rw [nothing]
    intro row _
    exact get_eq_none_of_ratioEntries_eq_nil empty row
  · rw [found]
    refine ⟨mem_ratioEntries.1 listed, fun row _ ratio present => ?_⟩
    have bound := bounded (row, ratio) (mem_ratioEntries.2 present)
    rwa [mul_zero, add_zero, add_zero] at bound

theorem least_of_leaving_eq_some {rule : PivotRule} {basis : Vector (Fin n) m}
    {ratios : Vector (Option Rat) m} {leaves : Fin m}
    (left : rule.leaving 0 basis ratios = some leaves) :
    ∃ least, ratios.get leaves = some least ∧
      ∀ row ratio, ratios.get row = some ratio → least ≤ ratio := by
  have chosen := rule.scanned_isLeast basis ratios
  rw [leaving_eq_scanned] at left
  obtain ⟨held, found, rfl⟩ := Option.map_eq_some_iff.1 left
  rw [found] at chosen
  exact ⟨held.2, chosen.1, fun row ratio present =>
    chosen.2 row (List.mem_finRange row) ratio present⟩

end PivotRule

end LinearProgramming
