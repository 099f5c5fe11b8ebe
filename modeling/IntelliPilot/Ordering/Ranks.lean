import IntelliPilot.Relational.Table
import Mathlib.Data.List.Nodup
import Mathlib.Order.Lattice

/-! # Rows in the order of a column

A table whose rows are shown in the order of a rank they carry. A row is moved
by writing its rank, or by numbering all rows anew.
-/

namespace IntelliPilot.Ordering

open Rows

/-! ## Sorting -/

section Sorting

variable {α F : Type} [LinearOrder F] (rank : α → F)

/-- `ORDER BY`. -/
def ordered (rows : List α) : List α := rows.mergeSort fun a b => decide (rank a ≤ rank b)

theorem ordered_perm (rows : List α) : (ordered rank rows).Perm rows := List.mergeSort_perm _ _

theorem ordered_pairwise (rows : List α) : (ordered rank rows).Pairwise (rank · ≤ rank ·) := by
  have hsorted : (ordered rank rows).Pairwise fun a b => decide (rank a ≤ rank b) = true := by
    apply List.pairwise_mergeSort
    · intro a b c hab hbc
      exact decide_eq_true (le_trans (of_decide_eq_true hab) (of_decide_eq_true hbc))
    · intro a b
      simpa using le_total (rank a) (rank b)
  exact hsorted.imp fun h => of_decide_eq_true h

/-- Rows with distinct ranks are in order if and only if their ranks increase. -/
theorem ordered_eq_iff {rows wanted : List α} (hperm : wanted.Perm rows) :
    ordered rank rows = wanted ∧ (wanted.map rank).Nodup ↔
      wanted.Pairwise (rank · < rank ·) := by
  constructor
  · rintro ⟨rfl, hnodup⟩
    rw [List.Nodup, List.pairwise_map] at hnodup
    exact ((ordered_pairwise rank rows).and hnodup).imp fun h => lt_of_le_of_ne h.1 h.2
  · intro hwanted
    have hnodup : (wanted.map rank).Nodup := by
      rw [List.Nodup, List.pairwise_map]
      exact hwanted.imp ne_of_lt
    have hsame : (ordered rank rows).Perm wanted := (ordered_perm rank rows).trans hperm.symm
    refine ⟨hsame.eq_of_pairwise ?_ (ordered_pairwise rank rows) (hwanted.imp le_of_lt), hnodup⟩
    intro a b ha hb hab hba
    exact List.inj_on_of_nodup_map hnodup (hsame.mem_iff.mp ha) hb (le_antisymm hab hba)

/-- One more row among rows in order. -/
theorem pairwise_insert_iff {pre post : List α} {row : α} :
    (pre ++ row :: post).Pairwise (rank · < rank ·) ↔
      (pre ++ post).Pairwise (rank · < rank ·) ∧
        (∀ other ∈ pre, rank other < rank row) ∧ ∀ other ∈ post, rank row < rank other := by
  simp only [List.pairwise_append, List.pairwise_cons, List.mem_cons, forall_eq_or_imp]
  constructor
  · rintro ⟨hpre, ⟨hrow, hpost⟩, hbetween⟩
    exact ⟨⟨hpre, hpost, fun a ha => (hbetween a ha).2⟩, fun a ha => (hbetween a ha).1, hrow⟩
  · rintro ⟨⟨hpre, hpost, hbetween⟩, habove, hbelow⟩
    exact ⟨hpre, ⟨hbelow, hpost⟩, fun a ha => ⟨habove a ha, hbetween a ha⟩⟩

end Sorting

/-! ## Writing ranks -/

/-- A row as it is shown: its key and its rank. -/
structure Ranked (κ F : Type) where
  key : κ
  rank : F
  deriving DecidableEq, Repr

namespace Ranked

variable {κ F : Type} {rows wanted : List (Ranked κ F)}

/-- Rows with the same keys in the same order, taken from the same rows. -/
theorem eq_of_map_key (hnodup : (wanted.map key).Nodup) (hsub : ∀ row ∈ rows, row ∈ wanted)
    (hkeys : rows.map key = wanted.map key) : rows = wanted := by
  have hlength : rows.length = wanted.length := by
    simpa using congrArg List.length hkeys
  apply List.ext_getElem hlength
  intro i hi hi'
  apply List.inj_on_of_nodup_map hnodup (hsub _ (List.getElem_mem hi)) (List.getElem_mem hi')
  simpa [hi, hi'] using congrArg (fun keys => keys[i]?) hkeys

/-- The rows stand in the wanted order with distinct ranks if and only if the
ranks increase along it. -/
theorem ordered_keys_iff [LinearOrder F] (hperm : wanted.Perm rows)
    (hnodup : (wanted.map key).Nodup) :
    (ordered rank rows).map key = wanted.map key ∧ ((ordered rank rows).map rank).Nodup ↔
      wanted.Pairwise (rank · < rank ·) := by
  rw [← ordered_eq_iff rank hperm]
  have hsame : (ordered rank rows).Perm wanted := (ordered_perm rank rows).trans hperm.symm
  constructor
  · intro ⟨hkeys, hranks⟩
    have heq := eq_of_map_key hnodup (fun row hrow => hsame.mem_iff.mp hrow) hkeys
    exact ⟨heq, heq ▸ hranks⟩
  · intro ⟨heq, hranks⟩
    rw [heq]
    exact ⟨rfl, hranks⟩

variable [DecidableEq κ]

/-- The row, with the rank where it has the key. -/
def setRank (k : κ) (r : F) (row : Ranked κ F) : Ranked κ F :=
  if row.key = k then { row with rank := r } else row

/-- The row after one rank after the other was written. -/
def setRanks (ranks : List (κ × F)) (row : Ranked κ F) : Ranked κ F :=
  ranks.foldl (fun row rank => setRank rank.1 rank.2 row) row

@[simp] theorem key_setRank (k : κ) (r : F) (row : Ranked κ F) :
    (setRank k r row).key = row.key := by
  unfold setRank
  split <;> rfl

theorem setRank_self (r : F) (row : Ranked κ F) : setRank row.key r row = ⟨row.key, r⟩ :=
  if_pos rfl

theorem setRank_of_ne {k : κ} {row : Ranked κ F} (h : row.key ≠ k) (r : F) :
    setRank k r row = row := if_neg h

theorem map_key_setRank (k : κ) (r : F) (rows : List (Ranked κ F)) :
    (rows.map (setRank k r)).map key = rows.map key := by
  rw [List.map_map]
  exact List.map_congr_left fun row _ => key_setRank k r row

theorem map_setRank_of_ne {k : κ} (h : ∀ row ∈ rows, row.key ≠ k) (r : F) :
    rows.map (setRank k r) = rows := by
  conv_rhs => rw [← List.map_id rows]
  exact List.map_congr_left fun row hrow => setRank_of_ne (h row hrow) r

@[simp] theorem key_setRanks (ranks : List (κ × F)) (row : Ranked κ F) :
    (setRanks ranks row).key = row.key := by
  induction ranks generalizing row with
  | nil => rfl
  | cons rank ranks ih => exact (ih _).trans (key_setRank _ _ _)

theorem setRanks_of_ne {ranks : List (κ × F)} {row : Ranked κ F}
    (h : ∀ rank ∈ ranks, row.key ≠ rank.1) : setRanks ranks row = row := by
  induction ranks with
  | nil => rfl
  | cons rank ranks ih =>
    rw [setRanks, List.foldl_cons, setRank_of_ne (h rank List.mem_cons_self)]
    exact ih fun other hother => h other (List.mem_cons_of_mem _ hother)

/-- Ranks that are written to rows in turn are the ranks the rows have. -/
theorem map_rank_setRanks (rows : List (Ranked κ F)) : ∀ ranks : List F,
    (rows.map key).Nodup → ranks.length = rows.length →
      (rows.map (setRanks ((rows.map key).zip ranks))).map rank = ranks := by
  induction rows with
  | nil =>
    intro ranks _ hlength
    rw [List.length_eq_zero_iff.mp hlength]
    rfl
  | cons row rows ih =>
    intro ranks hnodup hlength
    cases ranks with
    | nil => cases hlength
    | cons r ranks =>
      rw [List.map_cons, List.nodup_cons] at hnodup
      have hhead : setRanks (((row :: rows).map key).zip (r :: ranks)) row = ⟨row.key, r⟩ := by
        rw [List.map_cons, List.zip_cons_cons, setRanks, List.foldl_cons, setRank_self]
        apply setRanks_of_ne
        intro rank hrank heq
        exact hnodup.1 (heq ▸ (List.of_mem_zip hrank).1)
      have htail : rows.map (setRanks (((row :: rows).map key).zip (r :: ranks))) =
          rows.map (setRanks ((rows.map key).zip ranks)) := by
        apply List.map_congr_left
        intro other hother
        have hne : other.key ≠ row.key := by
          intro heq
          exact hnodup.1 (heq ▸ List.mem_map_of_mem hother)
        rw [List.map_cons, List.zip_cons_cons, setRanks, List.foldl_cons, setRank_of_ne hne]
        rfl
      rw [List.map_cons, List.map_cons, hhead, htail,
        ih ranks hnodup.2 (Nat.succ.inj hlength)]

section Shown

variable {α : Type} {view : α → Ranked κ F} {shown : α → Bool}

/-- An update of the rows with a key, as it is shown. -/
theorem shown_updateWhere {p : α → Bool} {f : α → α} {k : κ} {r : F}
    (hp : ∀ row, shown row = true → (p row = true ↔ (view row).key = k))
    (hview : ∀ row, view (f row) = ⟨(view row).key, r⟩) (hshown : ∀ row, shown (f row) = shown row)
    (rows : List α) :
    ((updateWhere p f rows).filter shown).map view =
      ((rows.filter shown).map view).map (setRank k r) := by
  rw [filter_updateWhere hshown, updateWhere, List.map_map, List.map_map]
  apply List.map_congr_left
  intro row hrow
  have hiff := hp row (List.mem_filter.mp hrow).2
  rw [Function.comp_apply, Function.comp_apply]
  by_cases hkey : (view row).key = k
  · rw [if_pos (hiff.mpr hkey), hview, ← hkey, setRank_self]
  · rw [if_neg fun h => hkey (hiff.mp h), setRank_of_ne hkey]

/-- Writes one after the other, as they are shown. -/
theorem shown_foldl {σ : Type} {rows : σ → List (Ranked κ F)} {write : κ → F → σ → σ}
    (hwrite : ∀ k r s, rows (write k r s) = (rows s).map (setRank k r)) (ranks : List (κ × F)) :
    ∀ s : σ, rows (ranks.foldl (fun s rank => write rank.1 rank.2 s) s) =
      (rows s).map (setRanks ranks) := by
  induction ranks with
  | nil => exact fun s => (List.map_id _).symm
  | cons rank ranks ih =>
    intro s
    rw [List.foldl_cons, ih, hwrite, List.map_map]
    rfl

end Shown

/-- Rows that are numbered in the wanted order stand in it. -/
theorem ordered_setRanks [LinearOrder F] (hperm : wanted.Perm rows)
    (hnodup : (wanted.map key).Nodup) {ranks : List F} (hlength : ranks.length = wanted.length)
    (hranks : ranks.Pairwise (· < ·)) :
    (ordered rank (rows.map (setRanks ((wanted.map key).zip ranks)))).map key = wanted.map key ∧
      ((ordered rank (rows.map (setRanks ((wanted.map key).zip ranks)))).map rank).Nodup := by
  have hkeys : (wanted.map (setRanks ((wanted.map key).zip ranks))).map key = wanted.map key := by
    rw [List.map_map]
    exact List.map_congr_left fun row _ => key_setRanks _ row
  have hnodup' : ((wanted.map (setRanks ((wanted.map key).zip ranks))).map key).Nodup := by
    rw [hkeys]
    exact hnodup
  have hiff := ordered_keys_iff (hperm.map (setRanks ((wanted.map key).zip ranks))) hnodup'
  rw [hkeys] at hiff
  apply hiff.mpr
  apply List.pairwise_map.mp
  rw [map_rank_setRanks wanted ranks hnodup hlength]
  exact hranks

end Ranked

end IntelliPilot.Ordering
