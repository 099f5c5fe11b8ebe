import Mathlib

/-! # Counting rows of which some are flagged

The pair `count(*)`, `count(*) FILTER (WHERE flag)`. Tallies add up over
selections that share no row, so over the groups of a `GROUP BY`.
-/

namespace IntelliPilot.Rows

variable {α κ : Type} {flag : α → Bool} {rows : List α}

/-- How many rows there are, and how many of them are flagged. -/
def tally (flag : α → Bool) (rows : List α) : Nat × Nat := (rows.length, (rows.filter flag).length)

theorem tally_le (flag : α → Bool) (rows : List α) : (tally flag rows).2 ≤ (tally flag rows).1 :=
  List.length_filter_le flag rows

theorem tally_cons (row : α) (rows : List α) :
    tally flag (row :: rows) = (1, if flag row then 1 else 0) + tally flag rows := by
  cases hflag : flag row with
  | false | true => simp [tally, hflag, Nat.add_comm]

/-- Selections of the same rows. -/
theorem tally_filter_congr {p q : α → Bool} (h : ∀ row ∈ rows, p row = q row) :
    tally flag (rows.filter p) = tally flag (rows.filter q) := by
  rw [List.filter_congr h]

/-- Selections that share no row add up. -/
theorem tally_or {p q : α → Bool} (h : ∀ row ∈ rows, (p row && q row) = false) :
    tally flag (rows.filter p) + tally flag (rows.filter q) =
      tally flag (rows.filter fun row => p row || q row) := by
  induction rows with
  | nil => rfl
  | cons row rows ih =>
    have hrest := ih fun other hother => h other (List.mem_cons_of_mem _ hother)
    have hrow := h row List.mem_cons_self
    cases hp : p row with
    | false =>
      cases hq : q row with
      | false => simpa [List.filter_cons, hp, hq] using hrest
      | true =>
        simp only [List.filter_cons, hp, hq, Bool.false_or, if_true, Bool.false_eq_true,
          if_false, tally_cons, ← hrest]
        exact add_left_comm _ _ _
    | true =>
      have hq : q row = false := by simpa [hp] using hrow
      simp only [List.filter_cons, hp, hq, Bool.or_false, if_true, Bool.false_eq_true, if_false,
        tally_cons, ← hrest]
      exact add_assoc _ _ _

/-- The tallies of the groups of some keys add up to that of all their rows. -/
theorem sum_tally_groups [DecidableEq κ] (key : α → Option κ) (q : α → Bool) {keys : List κ}
    (hnodup : keys.Nodup) :
    (keys.map fun k => tally flag (rows.filter fun row => q row && key row == some k)).sum =
      tally flag (rows.filter fun row => q row && (key row).any fun k => keys.contains k) := by
  induction keys with
  | nil =>
    have hnone : (rows.filter fun row => q row && (key row).any fun k => [].contains k) = [] := by
      rw [List.filter_eq_nil_iff]
      intro row _
      cases key row <;> simp
    rw [hnone]
    rfl
  | cons k keys ih =>
    obtain ⟨hfresh, hrest⟩ := List.nodup_cons.mp hnodup
    rw [List.map_cons, List.sum_cons, ih hrest, tally_or]
    · apply tally_filter_congr
      intro row _
      cases key row with
      | none => simp
      | some k' =>
        have hswap : (k' == k) = decide (k' = k) := rfl
        cases q row with
        | false => rfl
        | true => simp [hswap]
    · intro row _
      cases hkey : key row with
      | none => simp
      | some k' =>
        by_cases hk : k' = k
        · simp [hk, hfresh]
        · simp [hk]

end IntelliPilot.Rows
