import Mathlib.Data.List.Count
import Mathlib.Data.List.Sort
import Mathlib.Tactic.Linarith

/-! # Pages of ordered rows

Rows ordered by a stamp, read in pages of at most `limit` rows newer than a
moment. How many rows share a window of stamps decides how far a page reaches.
-/

namespace IntelliPilot.Paging

variable {α : Type} {stamp : α → Int} {rows : List α}

/-- Rows in the order of their stamps. -/
def Ordered (stamp : α → Int) (rows : List α) : Prop := rows.Pairwise fun a b => stamp a ≤ stamp b

/-- The rows newer than a moment are the rows after some position. -/
theorem filter_newer (hordered : Ordered stamp rows) (since : Int) :
    (rows.filter fun row => decide (since < stamp row)) =
      rows.drop (rows.countP fun row => decide (stamp row ≤ since)) := by
  induction rows with
  | nil => rfl
  | cons row rows ih =>
    obtain ⟨hrow, hrest⟩ := List.pairwise_cons.mp hordered
    by_cases hnewer : since < stamp row
    · have hall : ∀ other ∈ row :: rows, since < stamp other := by
        intro other hother
        rcases List.mem_cons.mp hother with rfl | hmem
        · exact hnewer
        · exact hnewer.trans_le (hrow other hmem)
      rw [List.filter_eq_self.mpr fun other hother => decide_eq_true (hall other hother)]
      rw [List.countP_eq_zero.mpr]
      · rfl
      · intro other hother
        simpa using hall other hother
    · rw [List.filter_cons_of_neg (by simpa using hnewer),
        List.countP_cons_of_pos (by simpa using hnewer), List.drop_succ_cons]
      exact ih hrest

theorem Ordered.filter (hordered : Ordered stamp rows) (p : α → Bool) :
    Ordered stamp (rows.filter p) :=
  List.Pairwise.sublist List.filter_sublist hordered

variable {limit : Nat} {row : α}

/-- A row outside the page is at least as new as the rows in it. -/
theorem stamp_le_of_not_mem_take (hordered : Ordered stamp rows) {other : α}
    (hrow : row ∈ rows.take limit) (hother : other ∈ rows) (hnot : other ∉ rows.take limit) :
    stamp row ≤ stamp other := by
  rw [← List.take_append_drop limit rows, List.mem_append] at hother
  rw [Ordered, ← List.take_append_drop limit rows] at hordered
  exact (List.pairwise_append.mp hordered).2.2 row hrow other (hother.resolve_left hnot)

/-- A page of fewer rows than the limit holds all of them. -/
theorem take_eq_self_of_lt (hshort : (rows.take limit).length < limit) :
    rows.take limit = rows := by
  rw [List.length_take] at hshort
  exact List.take_of_length_le (by omega)

variable {high : Int}

/-- Where a whole page of rows is older than a moment, the page stays below it. -/
theorem stamp_lt_of_crowd (hordered : Ordered stamp rows)
    (hcrowd : limit ≤ rows.countP fun row => decide (stamp row < high))
    (hrow : row ∈ rows.take limit) : stamp row < high := by
  by_contra hhigh
  have hrest : (rows.drop limit).countP (fun row => decide (stamp row < high)) = 0 := by
    rw [List.countP_eq_zero]
    intro other hother
    rw [Ordered, ← List.take_append_drop limit rows] at hordered
    have hle := (List.pairwise_append.mp hordered).2.2 row hrow other hother
    rw [decide_eq_true_iff]
    omega
  have hpage : (rows.take limit).countP (fun row => decide (stamp row < high)) < limit := by
    have hle := List.countP_le_length (p := fun row => decide (stamp row < high))
      (l := rows.take limit)
    have hne : (rows.take limit).countP (fun row => decide (stamp row < high)) ≠
        (rows.take limit).length := by
      intro hall
      exact hhigh (of_decide_eq_true (List.countP_eq_length.mp hall row hrow))
    have hlength := List.length_take_le limit rows
    omega
  rw [← List.take_append_drop limit rows, List.countP_append, hrest] at hcrowd
  omega

/-- A full page below a moment is a page of rows older than it. -/
theorem crowd_of_stamp_lt (hfull : limit ≤ (rows.take limit).length)
    (hbelow : ∀ row ∈ rows.take limit, stamp row < high) :
    limit ≤ rows.countP fun row => decide (stamp row < high) := by
  calc limit ≤ (rows.take limit).length := hfull
    _ = (rows.take limit).countP fun row => decide (stamp row < high) :=
        (List.countP_eq_length.mpr fun row hrow => decide_eq_true (hbelow row hrow)).symm
    _ ≤ _ := List.Sublist.countP_le (List.take_sublist limit rows)

/-- A row that few rows precede or tie with is in the page. -/
theorem mem_take_of_countP_le (hordered : Ordered stamp rows) (hrow : row ∈ rows)
    (hcount : rows.countP (fun other => decide (stamp other ≤ stamp row)) ≤ limit) :
    row ∈ rows.take limit := by
  by_contra hnot
  have hpage : (rows.take limit).countP (fun other => decide (stamp other ≤ stamp row)) =
      (rows.take limit).length := by
    rw [List.countP_eq_length]
    intro other hother
    exact decide_eq_true (stamp_le_of_not_mem_take hordered hother hrow hnot)
  have hrest : row ∈ rows.drop limit := by
    rw [← List.take_append_drop limit rows, List.mem_append] at hrow
    exact hrow.resolve_left hnot
  have hlast : 0 < (rows.drop limit).countP fun other => decide (stamp other ≤ stamp row) :=
    List.countP_pos_iff.mpr ⟨row, hrest, decide_eq_true (le_refl _)⟩
  have hlength : (rows.drop limit).length = rows.length - limit := List.length_drop
  have hpos := List.length_pos_of_mem hrest
  rw [← List.take_append_drop limit rows, List.countP_append, hpage, List.length_take] at hcount
  omega

/-- Where only later rows are left out, no more than a page precede or tie with a row. -/
theorem countP_le_of_rest (hrest : ∀ other ∈ rows.drop limit, stamp row < stamp other) :
    rows.countP (fun other => decide (stamp other ≤ stamp row)) ≤ limit := by
  have hnone : (rows.drop limit).countP (fun other => decide (stamp other ≤ stamp row)) = 0 := by
    rw [List.countP_eq_zero]
    intro other hother
    simpa using hrest other hother
  rw [← List.take_append_drop limit rows, List.countP_append, hnone, Nat.add_zero]
  exact List.countP_le_length.trans (List.length_take_le _ _)

/-- A later moment has a row between behind it. -/
theorem countP_behind_lt {low : Int} (hrow : row ∈ rows) (hlow : low < stamp row)
    (hhigh : stamp row ≤ high) :
    rows.countP (fun other => decide (stamp other ≤ low)) <
      rows.countP fun other => decide (stamp other ≤ high) := by
  let kept := rows.filter fun other => decide (stamp other ≤ high)
  have hkept : row ∈ kept := List.mem_filter.mpr ⟨hrow, decide_eq_true hhigh⟩
  calc rows.countP (fun other => decide (stamp other ≤ low))
      = kept.countP fun other => decide (stamp other ≤ low) := by
        rw [List.countP_filter]
        apply List.countP_congr
        intro other _
        rw [Bool.and_eq_true, decide_eq_true_iff, decide_eq_true_iff]
        omega
    _ < kept.length :=
        List.countP_lt_length_iff.mpr ⟨row, hkept, decide_eq_false (by omega)⟩
    _ = rows.countP fun other => decide (stamp other ≤ high) := List.countP_eq_length_filter.symm

end IntelliPilot.Paging
