import Mathlib.Data.List.Basic
import Mathlib.Data.List.Nodup

/-! # Tables as lists of rows

A table is the list of its rows in insertion order. An update rewrites the
rows that match its condition in place and a delete drops them, so neither
changes the order of the rest.
-/

namespace IntelliPilot.Rows

variable {α β : Type}

/-- `UPDATE … SET f WHERE p`. -/
def updateWhere (p : α → Bool) (f : α → α) (rows : List α) : List α :=
  rows.map fun row => if p row then f row else row

/-- `DELETE … WHERE p`. -/
def deleteWhere (p : α → Bool) (rows : List α) : List α := rows.filter fun row => !p row

/-- `SELECT … WHERE p LIMIT 1` without an order: any matching row may come back. -/
def anyWhere (pick : Nat) (p : α → Bool) (rows : List α) : Option α :=
  (rows.filter p)[pick % (rows.filter p).length]?

variable {p : α → Bool} {f : α → α} {rows : List α}

theorem mem_updateWhere {row : α} :
    row ∈ updateWhere p f rows ↔ ∃ old ∈ rows, (if p old then f old else old) = row := by
  simp [updateWhere]

/-- A projection the update does not write is unchanged on the whole table. -/
theorem map_updateWhere {g : α → β} (hg : ∀ row, g (f row) = g row) (p : α → Bool) (rows : List α) :
    (updateWhere p f rows).map g = rows.map g := by
  simp only [updateWhere, List.map_map]
  refine List.map_congr_left fun row _ => ?_
  simp only [Function.comp_apply]
  split
  · exact hg row
  · rfl

variable {q : α → Bool}

/-- A selection the update does not affect commutes with it. -/
theorem filter_updateWhere (hq : ∀ row, q (f row) = q row) (p : α → Bool) (rows : List α) :
    (updateWhere p f rows).filter q = updateWhere p f (rows.filter q) := by
  induction rows with
  | nil => rfl
  | cons row rows ih =>
    have hrow : q (if p row then f row else row) = q row := by
      split
      · exact hq row
      · rfl
    simp only [updateWhere, List.map_cons, List.filter_cons, hrow] at ih ⊢
    split
    · simp only [List.map_cons, ih]
    · exact ih

/-- A selection of rows that the update neither takes from nor adds to. -/
theorem filter_updateWhere_of_not
    (h : ∀ row ∈ rows, p row = true → q row = false ∧ q (f row) = false) :
    (updateWhere p f rows).filter q = rows.filter q := by
  induction rows with
  | nil => rfl
  | cons row rows ih =>
    have hrest := ih fun other hother => h other (List.mem_cons_of_mem _ hother)
    simp only [updateWhere, List.map_cons, List.filter_cons] at hrest ⊢
    cases hp : p row with
    | false => simp only [Bool.false_eq_true, if_false, hrest]
    | true =>
      obtain ⟨hold, hnew⟩ := h row List.mem_cons_self hp
      simp only [if_true, hold, hnew, Bool.false_eq_true, if_false, hrest]

/-- An update that matches no row changes nothing. -/
theorem updateWhere_eq_self (h : ∀ row ∈ rows, p row = false) (f : α → α) :
    updateWhere p f rows = rows := by
  rw [updateWhere]
  refine (List.map_congr_left fun row hrow => ?_).trans (List.map_id rows)
  rw [h row hrow]
  rfl

/-- A lookup the update does not affect finds the updated row. -/
theorem find?_updateWhere (hq : ∀ row, q (f row) = q row) (p : α → Bool) (rows : List α) :
    (updateWhere p f rows).find? q =
      (rows.find? q).map fun row => if p row then f row else row := by
  induction rows with
  | nil => rfl
  | cons row rows ih =>
    have hrow : q (if p row then f row else row) = q row := by
      split
      · exact hq row
      · rfl
    simp only [updateWhere, List.map_cons, List.find?_cons, hrow] at ih ⊢
    cases q row with
    | true => rfl
    | false => exact ih

theorem mem_deleteWhere {row : α} :
    row ∈ deleteWhere p rows ↔ row ∈ rows ∧ p row = false := by
  simp [deleteWhere]

theorem anyWhere_some {pick : Nat} {row : α} (h : anyWhere pick p rows = some row) :
    row ∈ rows ∧ p row = true := by
  have hmem := List.mem_of_getElem? h
  simpa using hmem

theorem countP_pos_of_any (h : rows.any p = true) :
    0 < rows.countP p := by
  obtain ⟨row, hrow, hp⟩ := List.any_eq_true.mp h
  exact List.countP_pos_iff.mpr ⟨row, hrow, hp⟩

theorem countP_deleteWhere_le (q p : α → Bool) (rows : List α) :
    (deleteWhere p rows).countP q ≤ rows.countP q :=
  List.filter_sublist.countP_le

/-- A delete that spares no matching row leaves none. -/
theorem countP_deleteWhere_self (p : α → Bool) (rows : List α) :
    (deleteWhere p rows).countP p = 0 := by
  rw [List.countP_eq_zero]
  intro row hrow
  rw [(mem_deleteWhere.mp hrow).2]
  simp

/-- An update that makes no row match leaves no more matching rows. -/
theorem countP_updateWhere_le (hq : ∀ row, q (f row) = true → q row = true) (p : α → Bool)
    (rows : List α) : (updateWhere p f rows).countP q ≤ rows.countP q := by
  rw [updateWhere, List.countP_map]
  apply List.countP_mono_left
  intro row _ h
  simp only [Function.comp_apply] at h
  split at h
  · exact hq row h
  · exact h

/-- An update that takes every matching row out of the match leaves none. -/
theorem countP_updateWhere_self (hp : ∀ row, p (f row) = false) (rows : List α) :
    (updateWhere p f rows).countP p = 0 := by
  rw [List.countP_eq_zero]
  intro row hrow
  obtain ⟨old, _, rfl⟩ := mem_updateWhere.mp hrow
  split
  · simp [hp]
  · assumption

/-- A row is determined by a column without duplicates. -/
theorem eq_of_nodup_map {g : α → β} (hnodup : (rows.map g).Nodup) {row row' : α}
    (hrow : row ∈ rows) (hrow' : row' ∈ rows) (heq : g row = g row') :
    row = row' :=
  List.inj_on_of_nodup_map hnodup hrow hrow' heq

end IntelliPilot.Rows
