/-
This file reads and writes lists and tables whose sizes nothing vouches for.

A place outside of a list is answered with nothing, and a loop that meets such a place ends with
nothing. Loops over plain numbers are compared with loops over indices that are in range by their
types: when every access of the first finds what the second reads, the first ends, and with the
same result.
-/

import Mathlib
import LinearProgramming.BigM
import LinearProgramming.Table

namespace LinearProgramming

variable {β γ σ τ : Type} {m n : Nat}

/-! ### Reading -/

@[simp] theorem getElem?_toList (vector : Vector β n) (i : Fin n) :
    vector.toList[i.val]? = some (vector.get i) := by
  rw [Vector.getElem?_toList]
  exact Vector.getElem?_eq_getElem i.isLt

theorem toList_eq_ofFn (vector : Vector β n) : vector.toList = List.ofFn vector.get := by
  refine List.ext_getElem? fun i => ?_
  by_cases inRange : i < n
  · rw [List.getElem?_ofFn, dif_pos inRange]
    exact getElem?_toList vector ⟨i, inRange⟩
  · rw [List.getElem?_eq_none (by simpa using inRange),
      List.getElem?_eq_none (by simpa using inRange)]

theorem findIdx?_finRange (holds : Fin n → Bool) :
    (List.finRange n).findIdx? holds = ((List.finRange n).find? holds).map Fin.val := by
  cases found : (List.finRange n).find? holds with
  | none => exact List.findIdx?_eq_none_iff.2 fun i member =>
      Bool.eq_false_iff.2 (List.find?_eq_none.1 found i member)
  | some i =>
    obtain ⟨here, k, inRange, same, before⟩ := List.find?_eq_some_iff_getElem.1 found
    rw [List.getElem_finRange] at same
    have place : k = i.val := congrArg Fin.val same
    subst place
    refine List.findIdx?_eq_some_iff_getElem.2 ⟨inRange, ?_, fun j earlier => ?_⟩
    · rw [List.getElem_finRange]
      exact here
    · simpa using before j earlier

/-- The place at which a list of entries first has a property is the index of the first entry with
that property. -/
theorem findIdx?_toList (vector : Vector β n) (holds : β → Bool) :
    vector.toList.findIdx? holds =
      ((List.finRange n).find? fun i => holds (vector.get i)).map Fin.val := by
  rw [toList_eq_ofFn, List.ofFn_eq_map, List.findIdx?_map, ← findIdx?_finRange]
  rfl

/-- The image of an entry stands in a list of images where the entry stands. -/
theorem getElem?_map_toList (change : β → γ) (vector : Vector β n) (i : Fin n) :
    (vector.toList.map change)[i.val]? = some (change (vector.get i)) := by
  rw [List.getElem?_map, getElem?_toList]
  rfl

theorem findIdx?_map_toList (change : β → γ) (vector : Vector β n) (holds : γ → Bool) :
    (vector.toList.map change).findIdx? holds =
      ((List.finRange n).find? fun i => holds (change (vector.get i))).map Fin.val := by
  rw [List.findIdx?_map, findIdx?_toList]
  rfl

@[simp] theorem Table.get?_entries (matrix : DenseMatrix β m n) (i : Fin m) (j : Fin n) :
    (Table.mk m n matrix).get? i j = some (matrix.get i j) := by
  simp [Table.get?]

/-! ### Loops -/

theorem mapM_of_reads {read : β → Option γ} {entry : β → γ} {list : List β}
    (reads : ∀ x ∈ list, read x = some (entry x)) : list.mapM read = some (list.map entry) := by
  induction list with
  | nil => rfl
  | cons first rest inductionHypothesis =>
    rw [List.mapM_cons, reads first List.mem_cons_self,
      inductionHypothesis fun x member => reads x (List.mem_cons_of_mem _ member)]
    rfl

/-- A list is read as another list when reading its entries finds those of the other. -/
theorem mapM_of_map_eq {read : β → Option γ} {list : List β} {entries : List γ}
    (reads : list.map read = entries.map some) : list.mapM read = some entries := by
  have found : (list.map read).mapM id = list.mapM read := List.mapM_map ..
  have each : entries.mapM (id ∘ some) = some (entries.map id) := mapM_of_reads fun _ _ => rfl
  rw [← found, reads, List.mapM_map, each, List.map_id]

theorem mapM_range {read : Nat → Option β} {entry : Fin n → β}
    (reads : ∀ i : Fin n, read i = some (entry i)) :
    (List.range n).mapM read = some (List.ofFn entry) := by
  rw [← List.map_coe_finRange_eq_range, List.mapM_map, List.ofFn_eq_map]
  exact mapM_of_reads fun i _ => reads i

theorem foldlM_indices (bare : σ → τ) {step : τ → Nat → Option τ} {typed : σ → Fin n → σ}
    (follows : ∀ state (i : Fin n), step (bare state) i = some (bare (typed state i)))
    (indices : List (Fin n)) (start : σ) :
    (indices.map Fin.val).foldlM step (bare start) =
      some (bare (indices.foldl typed start)) := by
  rw [List.foldlM_map]
  induction indices generalizing start with
  | nil => rfl
  | cons first rest inductionHypothesis =>
    rw [List.foldlM_cons, follows]
    exact inductionHypothesis _

theorem foldlM_range (bare : σ → τ) {step : τ → Nat → Option τ} {typed : σ → Fin n → σ}
    (follows : ∀ state (i : Fin n), step (bare state) i = some (bare (typed state i)))
    (start : σ) :
    (List.range n).foldlM step (bare start) =
      some (bare ((List.finRange n).foldl typed start)) := by
  rw [← List.map_coe_finRange_eq_range, foldlM_indices bare follows]

theorem findM?_range {read : Nat → Option Bool} {holds : Fin n → Bool}
    (reads : ∀ i : Fin n, read i = some (holds i)) :
    (List.range n).findM? read = some (((List.finRange n).find? holds).map Fin.val) := by
  rw [← List.map_coe_finRange_eq_range]
  generalize List.finRange n = indices
  induction indices with
  | nil => rfl
  | cons first rest inductionHypothesis =>
    rw [List.map_cons, List.findM?, reads, List.find?_cons]
    cases holds first with
    | true => rfl
    | false => exact inductionHypothesis

theorem anyM_range {read : Nat → Option Bool} {holds : Fin n → Bool}
    (reads : ∀ i : Fin n, read i = some (holds i)) :
    (List.range n).anyM read = some ((List.finRange n).any holds) := by
  rw [← List.map_coe_finRange_eq_range]
  generalize List.finRange n = indices
  induction indices with
  | nil => rfl
  | cons first rest inductionHypothesis =>
    rw [List.map_cons, List.anyM, reads, List.any_cons]
    cases holds first with
    | true => rfl
    | false => exact inductionHypothesis

theorem allM_range {read : Nat → Option Bool} {holds : Fin n → Bool}
    (reads : ∀ i : Fin n, read i = some (holds i)) :
    (List.range n).allM read = some ((List.finRange n).all holds) := by
  rw [← List.map_coe_finRange_eq_range]
  generalize List.finRange n = indices
  induction indices with
  | nil => rfl
  | cons first rest inductionHypothesis =>
    rw [List.map_cons, List.allM, reads, List.all_cons]
    cases holds first with
    | true => exact inductionHypothesis
    | false => rfl

theorem filterM_range {read : Nat → Option Bool} {holds : Fin n → Bool}
    (reads : ∀ i : Fin n, read i = some (holds i)) :
    (List.range n).filterM read = some (((List.finRange n).filter holds).map Fin.val) := by
  -- the kept numbers are collected in reverse
  have onward : ∀ (indices : List (Fin n)) (kept : List Nat),
      List.filterAuxM read (indices.map Fin.val) kept =
        some (((indices.filter holds).map Fin.val).reverse ++ kept) := by
    intro indices
    induction indices with
    | nil => exact fun kept => rfl
    | cons first rest inductionHypothesis =>
      intro kept
      rw [List.map_cons, List.filterAuxM, reads, List.filter_cons]
      cases holds first with
      | true => simpa using inductionHypothesis (first.val :: kept)
      | false => exact inductionHypothesis kept
  rw [← List.map_coe_finRange_eq_range, List.filterM, onward]
  simp

/-- The least negative entry does not depend on how the entries are named. -/
theorem BigM.leastNegative_map {α : Type} [Scalar α] (tolerance : α) (rename : β → γ)
    (entries : List (β × BigM α)) :
    leastNegative tolerance (entries.map (Prod.map rename id)) =
      (leastNegative tolerance entries).map (Prod.map rename id) := by
  unfold leastNegative
  rw [List.foldl_map]
  show List.foldl _ (Option.map (Prod.map rename id) none) entries = _
  refine List.foldl_hom _ fun found entry => ?_
  have least : (((found.map (Prod.map rename id)).map Prod.snd).getD 0 : BigM α) =
      (found.map Prod.snd).getD 0 := by
    cases found <;> rfl
  rw [least]
  rw [apply_ite (Option.map (Prod.map rename id))]
  rfl

/-- The table whose entries are read one by one. -/
def Table.ofReads? (rowCount columnCount : Nat) (read : Nat → Nat → Option β) :
    Option (Table β) := do
  let rows ← Vector.ofFnM fun i : Fin rowCount =>
    Vector.ofFnM fun j : Fin columnCount => read i j
  return ⟨rowCount, columnCount, ⟨rows⟩⟩

theorem Table.ofReads?_eq {read : Nat → Nat → Option β} {entry : Fin m → Fin n → β}
    (reads : ∀ (i : Fin m) (j : Fin n), read i j = some (entry i j)) :
    Table.ofReads? m n read = some ⟨m, n, DenseMatrix.ofFn entry⟩ := by
  have rows (i : Fin m) : (Vector.ofFnM fun j : Fin n => read i j) =
      some (Vector.ofFn fun j => entry i j) := by
    simp only [reads]
    exact Vector.ofFnM_pure
  rw [Table.ofReads?]
  simp only [rows]
  exact congrArg (· >>= fun rows => some (Table.mk m n ⟨rows⟩)) Vector.ofFnM_pure

/-- A square table takes every list with one number per row. -/
theorem Table.mulList?_entries {α : Type} [Scalar α] (matrix : DenseMatrix α m m)
    (vector : Vector α m) :
    (Table.mk m m matrix).mulList? vector.toList = some (matrix.mulVec vector).toList := by
  rw [mulList?, if_pos vector.length_toList, DenseMatrix.mulVec, Vector.toList_ofFn]
  refine congrArg some ?_
  cases m with
  | zero => rfl
  | succ m =>
    show (matrix.rows.toList.map Vector.toList).map _ = _
    rw [List.map_map, toList_eq_ofFn matrix.rows, List.map_ofFn]
    rfl

/-- A square table takes every column of a table with as many rows. -/
theorem Table.mulColumn?_entries {α : Type} [Scalar α] (matrix : DenseMatrix α m m)
    (other : DenseMatrix α m n) (j : Fin n) :
    (Table.mk m m matrix).mulColumn? ⟨m, n, other⟩ j =
      some (matrix.mulVec (other.column j)).toList := by
  rw [mulColumn?, if_pos rfl]
  cases m with
  | zero => rfl
  | succ m =>
    have filled : ¬ (Table.mk (m + 1) (m + 1) matrix).toLists.isEmpty := by
      show ¬ (matrix.rows.toList.map Vector.toList).isEmpty
      simp
    have column : (Table.mk (m + 1) n other).column? j = some (other.column j).toList := by
      simp [column?]
    rw [if_neg filled, column, Option.bind_some, mulList?_entries]

/-! ### Writing -/

/-- The list with the entry at a place inside of it replaced. -/
def setAt? (list : List β) (position : Nat) (entry : β) : Option (List β) :=
  if position < list.length then some (list.set position entry) else none

@[simp] theorem setAt?_toList (vector : Vector β n) (i : Fin n) (entry : β) :
    setAt? vector.toList i entry = some (replaceEntry vector i entry).toList := by
  rw [setAt?, if_pos (by simp)]
  exact congrArg some (Vector.toList_set ..).symm

/-- A list of images takes the image of a new entry. -/
theorem setAt?_map (change : β → γ) (vector : Vector β n) (i : Fin n) (entry : β) :
    setAt? (vector.toList.map change) i (change entry) =
      some ((replaceEntry vector i entry).toList.map change) := by
  rw [← Vector.toList_map, setAt?_toList, ← Vector.toList_map]
  exact congrArg (fun images => some (Vector.toList images)) Vector.map_set.symm

@[simp] theorem Table.set?_entries (matrix : DenseMatrix β m n) (i : Fin m) (j : Fin n)
    (entry : β) :
    (Table.mk m n matrix).set? i j entry = some ⟨m, n, matrix.set i j entry⟩ := by
  simp [Table.set?]

/-- Writes inside of a store that give every place the entry meant for it, or leave it there, all
succeed and end with these entries. -/
theorem foldlM_writes {place key : Type} [DecidableEq place] (bare : σ → τ) (name : place → key)
    (write : τ → key → β → Option τ) (get : σ → place → β) (update : σ → place → β → σ)
    (lands : ∀ store p entry,
      write (bare store) (name p) entry = some (bare (update store p entry)))
    (get_update : ∀ store p entry q,
      get (update store p entry) q = if q = p then entry else get store q)
    (named : Function.Injective name) (meant : place → β) (writes : List (key × β))
    (right : ∀ one ∈ writes, ∃ p, one = (name p, meant p)) (store : σ)
    (covered : ∀ q, get store q = meant q ∨ (name q, meant q) ∈ writes) :
    ∃ last, writes.foldlM (fun store one => write store one.1 one.2) (bare store) =
      some (bare last) ∧ ∀ q, get last q = meant q := by
  -- every place holds its entry already or has the write of it still ahead
  induction writes generalizing store with
  | nil => exact ⟨store, rfl, fun q => (covered q).resolve_right List.not_mem_nil⟩
  | cons first rest inductionHypothesis =>
    obtain ⟨p, rfl⟩ := right first List.mem_cons_self
    rw [List.foldlM_cons, lands]
    refine inductionHypothesis (fun other member => right other (List.mem_cons_of_mem _ member))
      (update store p (meant p)) fun q => ?_
    rw [get_update]
    by_cases same : q = p
    · rw [if_pos same, same]
      exact Or.inl rfl
    · rw [if_neg same]
      refine (covered q).imp_right fun written => (List.mem_cons.1 written).resolve_left ?_
      exact fun equal => same (named (congrArg Prod.fst equal))

/-- The list after writes made one after the other. -/
def setAll? (list : List β) (writes : List (Nat × β)) : Option (List β) :=
  writes.foldlM (fun list one => setAt? list one.1 one.2) list

theorem setAll?_eq (meant vector : Vector β n) (writes : List (Nat × β))
    (right : ∀ one ∈ writes, ∃ i : Fin n, one = (i.val, meant.get i))
    (covered : ∀ i : Fin n, vector.get i = meant.get i ∨ (i.val, meant.get i) ∈ writes) :
    setAll? vector.toList writes = some meant.toList := by
  obtain ⟨last, made, entries⟩ := foldlM_writes Vector.toList Fin.val setAt? Vector.get
    replaceEntry setAt?_toList (fun store p entry q => get_replaceEntry store p q entry)
    Fin.val_injective meant.get writes right vector covered
  rw [setAll?, made, toList_eq_ofFn, toList_eq_ofFn, funext entries]

/-- The table after writes made one after the other. -/
def Table.setAll? (table : Table β) (writes : List ((Nat × Nat) × β)) : Option (Table β) :=
  writes.foldlM (fun table one => table.set? one.1.1 one.1.2 one.2) table

theorem Table.setAll?_eq (meant matrix : DenseMatrix β m n) (writes : List ((Nat × Nat) × β))
    (right : ∀ one ∈ writes, ∃ (i : Fin m) (j : Fin n), one = ((i.val, j.val), meant.get i j))
    (covered : ∀ (i : Fin m) (j : Fin n), matrix.get i j = meant.get i j ∨
      ((i.val, j.val), meant.get i j) ∈ writes) :
    (Table.mk m n matrix).setAll? writes = some ⟨m, n, meant⟩ := by
  obtain ⟨last, made, entries⟩ := foldlM_writes (Table.mk m n)
    (fun place : Fin m × Fin n => (place.1.val, place.2.val))
    (fun table place entry => table.set? place.1 place.2 entry)
    (fun matrix place => matrix.get place.1 place.2)
    (fun matrix place entry => matrix.set place.1 place.2 entry)
    (fun store p entry => Table.set?_entries store p.1 p.2 entry)
    (fun store p entry q => by simp [Prod.ext_iff])
    (fun p q same => Prod.ext (Fin.ext (Prod.mk.inj same).1) (Fin.ext (Prod.mk.inj same).2))
    (fun place => meant.get place.1 place.2) writes
    (fun one member => let ⟨i, j, same⟩ := right one member; ⟨(i, j), same⟩)
    matrix (fun q => covered q.1 q.2)
  rw [Table.setAll?, made, DenseMatrix.ext_get fun i j => entries (i, j)]

end LinearProgramming
