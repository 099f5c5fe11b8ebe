import IntelliPilot.Ordering.Reordering
import Mathlib.Data.List.InsertIdx

/-! # Where a moved row comes to stand

A rank that is computed from one neighbour can lie beyond the other. A move is
as asked if and only if there is room next to the rows it names.
-/

namespace IntelliPilot.Ordering

open Imports (Uuid)
open Taxonomy (Arithmetic)
open Ranked (key rank setRank setRanks)

/-- Where a request wants a row, among the others. -/
inductive Places (others : List (Row ℚ)) (moved : Row ℚ) :
    ReorderRequest → List (Row ℚ) → Prop where
  | behind {pre post : List (Row ℚ)} {before : Row ℚ} (h : others = pre ++ before :: post) :
      Places others moved ⟨some before.key, none⟩ (pre ++ before :: moved :: post)
  | ahead {pre post : List (Row ℚ)} {after : Row ℚ} (h : others = pre ++ after :: post) :
      Places others moved ⟨none, some after.key⟩ (pre ++ moved :: after :: post)
  | between {pre post : List (Row ℚ)} {before after : Row ℚ}
      (h : others = pre ++ before :: after :: post) :
      Places others moved ⟨some before.key, some after.key⟩
        (pre ++ before :: moved :: after :: post)
  /-- The neighbours are named in the order they do not have. -/
  | swapped {pre post : List (Row ℚ)} {before after : Row ℚ}
      (h : others = pre ++ after :: before :: post) :
      Places others moved ⟨some before.key, some after.key⟩
        (pre ++ after :: moved :: before :: post)
  | last : Places others moved ⟨none, none⟩ (others ++ [moved])

/-- The one row comes directly before the other. -/
def Follows (rows : List (Row ℚ)) (row next : Row ℚ) : Prop :=
  ∃ pre post, rows = pre ++ row :: next :: post

/-- There is room for a row where the request wants it: a gap of more than one
beside a single neighbour, neighbours in their order, or no rank from one on. -/
def Roomy (others : List (Row ℚ)) (req : ReorderRequest) : Prop :=
  match req.beforeId, req.afterId with
  | some before, some after =>
      ∃ row next : Row ℚ, row.key = before ∧ next.key = after ∧ Follows others row next
  | some before, none =>
      ∀ row next : Row ℚ, row.key = before → Follows others row next → row.rank + 1 < next.rank
  | none, some after =>
      ∀ prev row : Row ℚ, row.key = after → Follows others prev row → prev.rank < row.rank - 1
  | none, none => ∀ row ∈ others, row.rank < 1

/-- The row stands where it is wanted among the others, as it would after a
renormalization, and no two ranks are the same. -/
def MovedTo (half : ℚ → ℚ) (projectId id : Uuid) (req : ReorderRequest) (listing : Listing)
    (db : Db ℚ) (wanted : List Uuid) : Prop :=
  ∃ db', db.move (rationals half) projectId id req listing = (.noContent, db') ∧
    (db'.list (rationals half) projectId listing).map key = wanted ∧
    ((db'.list (rationals half) projectId listing).map rank).Nodup ∧
    ((db.renormalize (rationals half) projectId id req listing).list (rationals half) projectId
      listing).map key = wanted

theorem Places.perm {rows wanted : List (Row ℚ)} {moved : Row ℚ} {req : ReorderRequest}
    (h : Places rows moved req wanted) : wanted.Perm (moved :: rows) := by
  cases h with
  | @behind pre post before h =>
    rw [h, List.append_cons pre before (moved :: post), List.append_cons pre before post]
    exact List.perm_middle
  | ahead h =>
    rw [h]
    exact List.perm_middle
  | @between pre post before after h =>
    rw [h, List.append_cons pre before (moved :: after :: post),
      List.append_cons pre before (after :: post)]
    exact List.perm_middle
  | @swapped pre post before after h =>
    rw [h, List.append_cons pre after (moved :: before :: post),
      List.append_cons pre after (before :: post)]
    exact List.perm_middle
  | last => exact List.perm_append_singleton _ _

/-! ## The target order -/

section Target

theorem findIdx?_split {k : Uuid} {pre : List Uuid} (post : List Uuid) (h : k ∉ pre) :
    (pre ++ k :: post).findIdx? (· == k) = some pre.length := by
  induction pre with
  | nil => simp [List.findIdx?_cons]
  | cons first pre ih =>
    rw [List.mem_cons, not_or] at h
    rw [List.cons_append, List.findIdx?_cons, ih h.2]
    simp [Ne.symm h.1]

theorem insertIdx_split {pre post ids : List Uuid} (hids : ids = pre ++ post) (x : Uuid) :
    ids.insertIdx (min pre.length ids.length) x = pre ++ x :: post := by
  subst hids
  rw [List.length_append, min_eq_left (Nat.le_add_right _ _)]
  induction pre with
  | nil => rfl
  | cons first pre ih => exact congrArg (first :: ·) ih

theorem fresh_of_nodup {pre post : List Uuid} {k : Uuid} (h : (pre ++ k :: post).Nodup) :
    k ∉ pre := by
  rw [List.nodup_middle, List.nodup_cons, List.mem_append, not_or] at h
  exact h.1.1

/-- The rows of a list beside one. -/
def others (listed : List (Row ℚ)) (id : Uuid) : List (Row ℚ) := listed.filter (·.key != id)

variable {listed : List (Row ℚ)} {moved : Row ℚ} {req : ReorderRequest}

theorem map_key_others (listed : List (Row ℚ)) (id : Uuid) :
    (listed.map key).filter (· != id) = (others listed id).map key := List.filter_map

theorem perm_others (hnodup : (listed.map key).Nodup) (hmoved : moved ∈ listed) :
    (moved :: others listed moved.key).Perm listed := by
  obtain ⟨pre, post, rfl⟩ := List.append_of_mem hmoved
  rw [List.map_append, List.map_cons, List.nodup_middle, List.nodup_cons, List.mem_append,
    not_or] at hnodup
  have hkeep : ∀ rows : List (Row ℚ), moved.key ∉ rows.map key →
      rows.filter (·.key != moved.key) = rows := by
    intro rows hfresh
    rw [List.filter_eq_self]
    intro row hrow
    have hne : row.key ≠ moved.key := fun heq => hfresh (heq ▸ List.mem_map_of_mem hrow)
    simpa using hne
  rw [others, List.filter_append, List.filter_cons_of_neg (by simp), hkeep pre hnodup.1.1,
    hkeep post hnodup.1.2]
  exact List.perm_middle.symm

/-- The target order is one of the same rows. -/
theorem target_arranged (listed : List (Row ℚ)) (moved : Row ℚ) (req : ReorderRequest) :
    ∃ rows : List (Row ℚ), rows.Perm (moved :: others listed moved.key) ∧
      targetOrder (listed.map key) moved.key req = rows.map key := by
  unfold targetOrder
  rw [map_key_others]
  refine ⟨(others listed moved.key).insertIdx _ moved, ?_, (List.map_insertIdx _ _ _ _).symm⟩
  apply List.perm_insertIdx
  rw [← List.length_map (f := key)]
  exact min_le_right _ _

/-- The neighbours that a request names are named in their order. -/
def Named (rows : List (Row ℚ)) (req : ReorderRequest) : Prop :=
  ∀ before after, req = ⟨some before, some after⟩ →
    ∃ row next : Row ℚ, row.key = before ∧ next.key = after ∧ Follows rows row next

theorem named_single {before after : Option Uuid} (h : before = none ∨ after = none)
    (rows : List (Row ℚ)) : Named rows ⟨before, after⟩ := by
  intro b a heq
  rcases h with rfl | rfl
  · cases heq
  · cases heq

variable {rows : List (Row ℚ)}

/-- A row that is named is one of the rows. -/
theorem eq_of_key (hnodup : (rows.map key).Nodup) {row other : Row ℚ} (hrow : row ∈ rows)
    (hother : other ∈ rows) (h : row.key = other.key) : row = other :=
  List.inj_on_of_nodup_map hnodup hrow hother h

theorem Follows.mem {row next : Row ℚ} (h : Follows rows row next) :
    row ∈ rows ∧ next ∈ rows := by
  obtain ⟨pre, post, rfl⟩ := h
  simp

theorem Follows.lt {row next : Row ℚ} (h : Follows rows row next)
    (hstrict : rows.Pairwise (rank · < rank ·)) : row.rank < next.rank := by
  obtain ⟨pre, post, rfl⟩ := h
  rw [List.pairwise_append, List.pairwise_cons] at hstrict
  exact hstrict.2.1.1 next List.mem_cons_self

/-- Neighbours stand in one order only. -/
theorem not_named_swapped (hnodup : (rows.map key).Nodup)
    (hstrict : rows.Pairwise (rank · < rank ·)) {before after : Row ℚ}
    (hfollows : Follows rows after before) :
    ¬ ∃ row next : Row ℚ, row.key = before.key ∧ next.key = after.key ∧ Follows rows row next := by
  rintro ⟨row, next, hrow, hnext, hother⟩
  obtain rfl := eq_of_key hnodup hother.mem.1 hfollows.mem.2 hrow
  obtain rfl := eq_of_key hnodup hother.mem.2 hfollows.mem.1 hnext
  exact lt_asymm (hother.lt hstrict) (hfollows.lt hstrict)

variable {pre post : List (Row ℚ)} {neighbour : Row ℚ}

/-- After the row that is named first. -/
theorem target_behind (hnodup : ((others listed moved.key).map key).Nodup)
    (h : others listed moved.key = pre ++ neighbour :: post) (after : Option Uuid) :
    targetOrder (listed.map key) moved.key ⟨some neighbour.key, after⟩ =
      (pre ++ neighbour :: moved :: post).map key := by
  unfold targetOrder
  rw [map_key_others]
  rw [h, List.map_append, List.map_cons] at hnodup
  have hids : (others listed moved.key).map key =
      (pre.map key ++ [neighbour.key]) ++ post.map key := by simp [h]
  have hfind : ((others listed moved.key).map key).findIdx? (· == neighbour.key) =
      some (pre.map key).length := by
    rw [h, List.map_append, List.map_cons]
    exact findIdx?_split _ (fresh_of_nodup hnodup)
  have hinsert := insertIdx_split hids moved.key
  rw [List.length_append, List.length_singleton] at hinsert
  simp only [hfind, Option.map_some, Option.getD_some]
  rw [hinsert]
  simp

/-- Before the row that is named alone. -/
theorem target_ahead (hnodup : ((others listed moved.key).map key).Nodup)
    (h : others listed moved.key = pre ++ neighbour :: post) :
    targetOrder (listed.map key) moved.key ⟨none, some neighbour.key⟩ =
      (pre ++ moved :: neighbour :: post).map key := by
  unfold targetOrder
  rw [map_key_others]
  rw [h, List.map_append, List.map_cons] at hnodup
  have hids : (others listed moved.key).map key =
      pre.map key ++ (neighbour.key :: post.map key) := by simp [h]
  have hfind : ((others listed moved.key).map key).findIdx? (· == neighbour.key) =
      some (pre.map key).length := by
    rw [hids]
    exact findIdx?_split _ (fresh_of_nodup hnodup)
  simp only [hfind, Option.getD_some]
  rw [insertIdx_split hids]
  simp

theorem target_last : targetOrder (listed.map key) moved.key ⟨none, none⟩ =
    (others listed moved.key ++ [moved]).map key := by
  unfold targetOrder
  rw [map_key_others]
  have hids : (others listed moved.key).map key = (others listed moved.key).map key ++ [] :=
    (List.append_nil _).symm
  dsimp only
  rw [insertIdx_split hids]
  simp

/-- The target order is the one that is asked for, where neighbours are named in order. -/
theorem target_places {wanted : List (Row ℚ)} (hnodup : ((others listed moved.key).map key).Nodup)
    (hstrict : (others listed moved.key).Pairwise (rank · < rank ·))
    (hplaces : Places (others listed moved.key) moved req wanted) :
    targetOrder (listed.map key) moved.key req = wanted.map key ↔
      Named (others listed moved.key) req := by
  cases hplaces with
  | behind h => exact iff_of_true (target_behind hnodup h _) (named_single (.inr rfl) _)
  | ahead h => exact iff_of_true (target_ahead hnodup h) (named_single (.inl rfl) _)
  | @between pre post before after h =>
    apply iff_of_true (target_behind hnodup h _)
    intro b a heq
    cases heq
    exact ⟨before, after, rfl, rfl, pre, post, h⟩
  | @swapped pre post before after h =>
    have hfollows : Follows (others listed moved.key) after before := ⟨pre, post, h⟩
    apply iff_of_false
    · have hsplit : others listed moved.key = (pre ++ [after]) ++ before :: post := by simp [h]
      rw [target_behind hnodup hsplit]
      intro heq
      have hkeys : before.key = moved.key ∧ moved.key = before.key := by simpa using heq
      have hbefore := (List.mem_filter.mp hfollows.mem.2).2
      simp [hkeys.1] at hbefore
    · intro hnamed
      exact not_named_swapped hnodup hstrict hfollows (hnamed before.key after.key rfl)
  | last => exact iff_of_true target_last (named_single (.inl rfl) _)

end Target

/-! ## After the move -/

section Moved

variable {half : ℚ → ℚ} {projectId : Uuid} {req : ReorderRequest} {db : Db ℚ} {listing : Listing}
  {moved : Row ℚ}

theorem normalizedRanks_increase (count : Nat) :
    ((rationals half).normalizedRanks count).Pairwise (· < ·) := by
  unfold Arithmetic.normalizedRanks
  rw [List.pairwise_map]
  apply List.pairwise_lt_range.imp
  intro i j hij
  have hcast : (i : ℚ) < (j : ℚ) := by exact_mod_cast hij
  show (i : ℚ) + ((1 : ℕ) : ℚ) < (j : ℚ) + ((1 : ℕ) : ℚ)
  linarith

theorem perm_list (db : Db ℚ) (listing : Listing) :
    (db.list (rationals half) projectId listing).Perm (db.shown projectId listing) := by
  rw [list_eq]
  exact ordered_perm _ _

/-- After a renormalization the list stands in the target order. -/
theorem renormalize_list (hnodup : ((db.list (rationals half) projectId listing).map key).Nodup)
    (hmoved : moved ∈ db.list (rationals half) projectId listing) :
    ((db.renormalize (rationals half) projectId moved.key req listing).list (rationals half)
        projectId listing).map key =
      targetOrder ((db.list (rationals half) projectId listing).map key) moved.key req ∧
    (((db.renormalize (rationals half) projectId moved.key req listing).list (rationals half)
      projectId listing).map rank).Nodup := by
  obtain ⟨rows, hperm, htarget⟩ :=
    target_arranged (db.list (rationals half) projectId listing) moved req
  have hlisted := hperm.trans (perm_others hnodup hmoved)
  have hkeys : (rows.map key).Nodup := ((hlisted.map key).nodup_iff).mpr hnodup
  rw [list_eq, renormalize_shown, htarget]
  apply Ranked.ordered_setRanks (hlisted.trans (perm_list db listing)) hkeys
  · simp [Arithmetic.normalizedRanks]
  · exact normalizedRanks_increase _

/-- A move is as asked if and only if the wanted order is the target, and the
rank that is written, if one is, lies between its neighbours. -/
theorem movedTo_iff (hnodup : ((db.list (rationals half) projectId listing).map key).Nodup)
    (hmoved : moved ∈ db.list (rationals half) projectId listing) {wanted : List (Row ℚ)}
    (hwanted : wanted.Perm (db.list (rationals half) projectId listing)) :
    MovedTo half projectId moved.key req listing db (wanted.map key) ↔
      (match (rationals half).rankBetween
          (orderIn (db.list (rationals half) projectId listing) req.beforeId)
          (orderIn (db.list (rationals half) projectId listing) req.afterId) with
        | some r => (wanted.map (setRank moved.key r)).Pairwise (rank · < rank ·)
        | none => True) ∧
      targetOrder ((db.list (rationals half) projectId listing).map key) moved.key req =
        wanted.map key := by
  obtain ⟨db', hmove, hshown⟩ := @move_shown half projectId moved.key req db listing
    ⟨moved, (perm_list db listing).mem_iff.mp hmoved, rfl⟩
  have hrenormalized := @renormalize_list half projectId req db listing moved hnodup hmoved
  have hiff : MovedTo half projectId moved.key req listing db (wanted.map key) ↔
      ((db'.list (rationals half) projectId listing).map key = wanted.map key ∧
        ((db'.list (rationals half) projectId listing).map rank).Nodup) ∧
      targetOrder ((db.list (rationals half) projectId listing).map key) moved.key req =
        wanted.map key := by
    rw [← hrenormalized.1]
    constructor
    · rintro ⟨other, hother, hkeys, hranks, htarget⟩
      obtain rfl : db' = other := (Prod.mk.inj (hmove.symm.trans hother)).2
      exact ⟨⟨hkeys, hranks⟩, htarget⟩
    · rintro ⟨⟨hkeys, hranks⟩, htarget⟩
      exact ⟨db', hmove, hkeys, hranks, htarget⟩
  rw [hiff]
  cases hrank : (rationals half).rankBetween
      (orderIn (db.list (rationals half) projectId listing) req.beforeId)
      (orderIn (db.list (rationals half) projectId listing) req.afterId) with
  | some r =>
    simp only [hrank] at hshown ⊢
    apply and_congr_left
    intro _
    have hperm : (wanted.map (setRank moved.key r)).Perm
        ((db.shown projectId listing).map (setRank moved.key r)) :=
      (hwanted.trans (perm_list db listing)).map _
    have hkeys : ((wanted.map (setRank moved.key r)).map key).Nodup := by
      rw [Ranked.map_key_setRank]
      exact ((hwanted.map key).nodup_iff).mpr hnodup
    have hordered := Ranked.ordered_keys_iff hperm hkeys
    rw [Ranked.map_key_setRank] at hordered
    rw [list_eq, hshown]
    exact hordered
  | none =>
    simp only [hrank] at hshown ⊢
    subst hshown
    constructor
    · exact fun h => ⟨trivial, h.2⟩
    · exact fun h => ⟨⟨hrenormalized.1.trans h.2, hrenormalized.2⟩, h.2⟩

end Moved

/-! ## Room beside a neighbour -/

section Room

variable {rows pre post : List (Row ℚ)} {neighbour : Row ℚ}

/-- What comes directly after a row is the next row, and those after it have greater ranks. -/
theorem lt_post_iff (hstrict : rows.Pairwise (rank · < rank ·)) (hnodup : (rows.map key).Nodup)
    (h : rows = pre ++ neighbour :: post) (r : ℚ) :
    (∀ row ∈ post, r < row.rank) ↔
      ∀ row next : Row ℚ, row.key = neighbour.key → Follows rows row next → r < next.rank := by
  have hmem : neighbour ∈ rows := by simp [h]
  constructor
  · intro hpost row next hkey hfollows
    obtain rfl := eq_of_key hnodup hfollows.mem.1 hmem hkey
    have hlt := hfollows.lt hstrict
    have hnext := hfollows.mem.2
    rw [h, List.mem_append, List.mem_cons] at hnext
    rw [h, List.pairwise_append] at hstrict
    rcases hnext with hpre | rfl | hnext
    · exact absurd (hstrict.2.2 next hpre row List.mem_cons_self) (lt_asymm hlt)
    · exact absurd hlt (lt_irrefl _)
    · exact hpost next hnext
  · intro hnext row hrow
    cases post with
    | nil => cases hrow
    | cons next post =>
      have hr := hnext neighbour next rfl ⟨pre, post, h⟩
      rw [h, List.pairwise_append, List.pairwise_cons, List.pairwise_cons] at hstrict
      rcases List.mem_cons.mp hrow with rfl | hrow
      · exact hr
      · exact lt_trans hr (hstrict.2.1.2.1 row hrow)

/-- What comes directly before a row is the row before, and those before it have smaller ranks. -/
theorem pre_lt_iff (hstrict : rows.Pairwise (rank · < rank ·)) (hnodup : (rows.map key).Nodup)
    (h : rows = pre ++ neighbour :: post) (r : ℚ) :
    (∀ row ∈ pre, row.rank < r) ↔
      ∀ prev row : Row ℚ, row.key = neighbour.key → Follows rows prev row → prev.rank < r := by
  have hmem : neighbour ∈ rows := by simp [h]
  constructor
  · intro hpre prev row hkey hfollows
    obtain rfl := eq_of_key hnodup hfollows.mem.2 hmem hkey
    have hlt := hfollows.lt hstrict
    have hprev := hfollows.mem.1
    rw [h, List.mem_append, List.mem_cons] at hprev
    rw [h, List.pairwise_append, List.pairwise_cons] at hstrict
    rcases hprev with hprev | rfl | hpost
    · exact hpre prev hprev
    · exact absurd hlt (lt_irrefl _)
    · exact absurd (hstrict.2.1.1 prev hpost) (lt_asymm hlt)
  · intro hprev row hrow
    rcases List.eq_nil_or_concat pre with rfl | ⟨first, prev, rfl⟩
    · cases hrow
    · rw [List.concat_eq_append] at h hrow
      rw [List.append_assoc, List.singleton_append] at h
      have hr := hprev prev neighbour rfl ⟨first, post, h⟩
      rw [h, List.pairwise_append] at hstrict
      rcases List.mem_append.mp hrow with hrow | hrow
      · exact lt_trans (hstrict.2.2 row hrow prev List.mem_cons_self) hr
      · rw [List.mem_singleton.mp hrow]
        exact hr

end Room

/-! ## The result -/

section Result

variable {half : ℚ → ℚ} {projectId : Uuid} {req : ReorderRequest} {db : Db ℚ} {listing : Listing}
  {moved : Row ℚ}

theorem nodup_list (db : Db ℚ) (listing : Listing) :
    ((db.list (rationals half) projectId listing).map key).Nodup := by
  have hshown : ((db.shown projectId listing).map key).Nodup := by
    cases listing with
    | epics =>
      rw [Db.shown, Entities.shown, List.map_map]
      exact db.epics.nodup.sublist (List.filter_sublist.map _)
    | issues =>
      rw [Db.shown, Entities.shown, List.map_map]
      exact db.issues.nodup.sublist (List.filter_sublist.map _)
    | items kind =>
      rw [Db.shown, shownItems, List.map_map]
      exact db.taxonomy.items.nodup.sublist (List.filter_sublist.map _)
  exact (((perm_list db listing).map key).nodup_iff).mpr hshown

theorem orderIn_eq {listed : List (Row ℚ)} (hnodup : (listed.map key).Nodup) {row : Row ℚ}
    (hrow : row ∈ listed) : orderIn listed (some row.key) = some row.rank := by
  rw [orderIn, Option.bind_some]
  cases hfind : listed.find? (·.key == row.key) with
  | none =>
    have habsent := List.find?_eq_none.mp hfind row hrow
    simp at habsent
  | some found =>
    have hkey : found.key = row.key := by simpa using List.find?_some hfind
    rw [eq_of_key hnodup (List.mem_of_find?_eq_some hfind) hrow hkey, Option.map_some]

theorem rankBetween_between {b a r : ℚ} (h : b < a)
    (hr : (rationals half).rankBetween (some b) (some a) = some r) : b < r ∧ r < a := by
  have hle : (rationals half).le b a = true := decide_eq_true h.le
  rw [Arithmetic.rankBetween, hle] at hr
  simp only [if_true] at hr
  split at hr
  · next hfits =>
    cases hr
    rw [Bool.and_eq_true] at hfits
    exact ⟨of_decide_eq_true hfits.1, of_decide_eq_true hfits.2⟩
  · cases hr

/-- The moved row among the others, with the rank that is written. -/
theorem pairwise_moved_iff {listed pre post : List (Row ℚ)}
    (hothers : others listed moved.key = pre ++ post)
    (hstrict : (others listed moved.key).Pairwise (rank · < rank ·)) (r : ℚ) :
    ((pre ++ moved :: post).map (setRank moved.key r)).Pairwise (rank · < rank ·) ↔
      (∀ row ∈ pre, row.rank < r) ∧ ∀ row ∈ post, r < row.rank := by
  have hne : ∀ row ∈ pre ++ post, row.key ≠ moved.key := by
    intro row hrow
    rw [← hothers] at hrow
    simpa using (List.mem_filter.mp hrow).2
  have hpre : pre.map (setRank moved.key r) = pre :=
    Ranked.map_setRank_of_ne (fun row hrow => hne row (List.mem_append_left _ hrow)) r
  have hpost : post.map (setRank moved.key r) = post :=
    Ranked.map_setRank_of_ne (fun row hrow => hne row (List.mem_append_right _ hrow)) r
  rw [hothers] at hstrict
  rw [List.map_append, List.map_cons, hpre, hpost, Ranked.setRank_self, pairwise_insert_iff]
  exact and_iff_right hstrict

/-- A move is as asked if and only if there is room where the request wants the row. -/
theorem moved_as_asked_iff (half : ℚ → ℚ)
    (hmoved : moved ∈ db.list (rationals half) projectId listing)
    (hstrict : (db.list (rationals half) projectId listing).Pairwise (rank · < rank ·))
    {wanted : List (Row ℚ)}
    (hplaces : Places (others (db.list (rationals half) projectId listing) moved.key) moved req
      wanted) :
    MovedTo half projectId moved.key req listing db (wanted.map key) ↔
      Roomy (others (db.list (rationals half) projectId listing) moved.key) req := by
  have hnodup := @nodup_list half projectId db listing
  generalize hlisted : db.list (rationals half) projectId listing = listed at *
  have hsub : ∀ row ∈ others listed moved.key, row ∈ listed :=
    fun row hrow => List.mem_of_mem_filter hrow
  have hstrict' : (others listed moved.key).Pairwise (rank · < rank ·) :=
    hstrict.sublist List.filter_sublist
  have hnodup' : ((others listed moved.key).map key).Nodup :=
    hnodup.sublist (List.filter_sublist.map _)
  have hperm : wanted.Perm listed := hplaces.perm.trans (perm_others hnodup hmoved)
  have hiff := @movedTo_iff half projectId req db listing moved (hlisted ▸ hnodup)
    (hlisted ▸ hmoved) wanted (hlisted ▸ hperm)
  rw [hlisted, target_places hnodup' hstrict' hplaces] at hiff
  rw [hiff]
  cases hplaces with
  | @behind pre post before h =>
    have hbefore : before ∈ listed := hsub before (by simp [h])
    have hsplit : others listed moved.key = (pre ++ [before]) ++ post := by simp [h]
    have hwanted := pairwise_moved_iff hsplit hstrict' (before.rank + 1)
    rw [← List.append_cons] at hwanted
    have hrank : (rationals half).rankBetween (orderIn listed (some before.key))
        (orderIn listed none) = some (before.rank + 1) := by
      rw [orderIn_eq hnodup hbefore]
      exact congrArg (fun gap : ℚ => some (before.rank + gap)) Nat.cast_one
    rw [hrank]
    dsimp only
    have habove : ∀ row ∈ pre ++ [before], row.rank < before.rank + 1 := by
      intro row hrow
      rw [h, List.pairwise_append] at hstrict'
      rcases List.mem_append.mp hrow with hrow | hrow
      · exact (hstrict'.2.2 row hrow before List.mem_cons_self).trans (lt_add_one _)
      · rw [List.mem_singleton.mp hrow]
        exact lt_add_one _
    rw [hwanted, and_iff_left (named_single (.inr rfl) _), and_iff_right habove,
      lt_post_iff hstrict' hnodup' h (before.rank + 1)]
    apply forall₄_congr
    intro row next hkey hfollows
    rw [eq_of_key hnodup' hfollows.mem.1 (by simp [h]) hkey]
  | @ahead pre post after h =>
    have hafter : after ∈ listed := hsub after (by simp [h])
    have hwanted := pairwise_moved_iff h hstrict' (after.rank - 1)
    have hrank : (rationals half).rankBetween (orderIn listed none)
        (orderIn listed (some after.key)) = some (after.rank - 1) := by
      rw [orderIn_eq hnodup hafter]
      exact congrArg (fun gap : ℚ => some (after.rank - gap)) Nat.cast_one
    rw [hrank]
    dsimp only
    have hbelow : ∀ row ∈ after :: post, after.rank - 1 < row.rank := by
      intro row hrow
      rw [h, List.pairwise_append, List.pairwise_cons] at hstrict'
      rcases List.mem_cons.mp hrow with rfl | hrow
      · exact sub_one_lt _
      · exact (sub_one_lt _).trans (hstrict'.2.1.1 row hrow)
    rw [hwanted, and_iff_left (named_single (.inl rfl) _), and_iff_left hbelow,
      pre_lt_iff hstrict' hnodup' h (after.rank - 1)]
    apply forall₄_congr
    intro prev row hkey hfollows
    rw [eq_of_key hnodup' hfollows.mem.2 (by simp [h]) hkey]
  | @between pre post before after h =>
    have hfollows : Follows (others listed moved.key) before after := ⟨pre, post, h⟩
    have hnamed : Named (others listed moved.key) ⟨some before.key, some after.key⟩ := by
      intro b a heq
      cases heq
      exact ⟨before, after, rfl, rfl, hfollows⟩
    apply iff_of_true ?_ (hnamed _ _ rfl)
    refine ⟨?_, hnamed⟩
    dsimp only
    rw [orderIn_eq hnodup (hsub _ hfollows.mem.1), orderIn_eq hnodup (hsub _ hfollows.mem.2)]
    split
    · next r hrank =>
      obtain ⟨habove, hbelow⟩ := rankBetween_between (hfollows.lt hstrict') hrank
      have hsplit : others listed moved.key = (pre ++ [before]) ++ after :: post := by simp [h]
      have hwanted := pairwise_moved_iff hsplit hstrict' r
      rw [← List.append_cons] at hwanted
      rw [hwanted]
      rw [h, List.pairwise_append, List.pairwise_cons, List.pairwise_cons] at hstrict'
      constructor
      · intro row hrow
        rcases List.mem_append.mp hrow with hrow | hrow
        · exact (hstrict'.2.2 row hrow before List.mem_cons_self).trans habove
        · rw [List.mem_singleton.mp hrow]
          exact habove
      · intro row hrow
        rcases List.mem_cons.mp hrow with rfl | hrow
        · exact hbelow
        · exact hbelow.trans (hstrict'.2.1.2.1 row hrow)
    · trivial
  | @swapped pre post before after h =>
    have hnamed : ¬ Roomy (others listed moved.key) ⟨some before.key, some after.key⟩ :=
      not_named_swapped hnodup' hstrict' ⟨pre, post, h⟩
    exact iff_of_false (fun hmoved => hnamed (hmoved.2 _ _ rfl)) hnamed
  | last =>
    have hwanted := pairwise_moved_iff (List.append_nil _).symm hstrict' 1
    have hrank : (rationals half).rankBetween (orderIn listed none) (orderIn listed none) =
        some 1 := congrArg some Nat.cast_one
    rw [hrank]
    dsimp only
    rw [hwanted, and_iff_left (named_single (.inl rfl) _)]
    exact and_iff_left nofun

end Result

/-! ## Three issues -/

/-- Issues with the ranks that a renormalization gives. -/
def threeIssues : Db ℚ where
  epics := .empty
  issues := ⟨[⟨1, 1, 1, none⟩, ⟨2, 1, 2, none⟩, ⟨3, 1, 3, none⟩], by decide⟩
  taxonomy := ⟨.empty, .empty, .empty, 0⟩

theorem list_threeIssues : threeIssues.list (rationals (· / 2)) 1 .issues =
    [⟨1, 1⟩, ⟨2, 2⟩, ⟨3, 3⟩] := by
  have hlisted : threeIssues.issues.list (rationals (· / 2)) 1 =
      [⟨1, 1, 1, none⟩, ⟨2, 1, 2, none⟩, ⟨3, 1, 3, none⟩] := by
    apply List.mergeSort_of_pairwise
    decide +kernel
  rw [Db.list, hlisted]
  rfl

theorem others_threeIssues :
    others (threeIssues.list (rationals (· / 2)) 1 .issues) 3 = [⟨1, 1⟩, ⟨2, 2⟩] := by
  rw [list_threeIssues]
  decide

/-- The last issue, before the first. -/
theorem moved_as_asked_front :
    MovedTo (· / 2) 1 3 ⟨none, some 1⟩ .issues threeIssues [3, 1, 2] ↔
      Roomy (others (threeIssues.list (rationals (· / 2)) 1 .issues) 3) ⟨none, some 1⟩ := by
  have hplaces : Places (others (threeIssues.list (rationals (· / 2)) 1 .issues) 3) ⟨3, 3⟩
      ⟨none, some 1⟩ [⟨3, 3⟩, ⟨1, 1⟩, ⟨2, 2⟩] := by
    rw [others_threeIssues]
    exact @Places.ahead _ _ [] _ _ rfl
  have hmoved : (⟨3, 3⟩ : Row ℚ) ∈ threeIssues.list (rationals (· / 2)) 1 .issues := by
    rw [list_threeIssues]
    decide
  have hstrict : (threeIssues.list (rationals (· / 2)) 1 .issues).Pairwise (rank · < rank ·) := by
    rw [list_threeIssues]
    decide +kernel
  exact moved_as_asked_iff (· / 2) hmoved hstrict hplaces

/-- The last issue, behind the first: its rank is that of the second. -/
theorem moved_onto_next :
    (threeIssues.list (rationals (· / 2)) 1 .issues).Pairwise (rank · < rank ·) ∧
      Places (others (threeIssues.list (rationals (· / 2)) 1 .issues) 3) ⟨3, 3⟩
        ⟨some 1, none⟩ [⟨1, 1⟩, ⟨3, 3⟩, ⟨2, 2⟩] ∧
      ¬ MovedTo (· / 2) 1 3 ⟨some 1, none⟩ .issues threeIssues [1, 3, 2] := by
  refine ⟨?_, ?_, ?_⟩
  · rw [list_threeIssues]
    decide +kernel
  · rw [others_threeIssues]
    exact @Places.behind _ _ [] _ _ rfl
  · intro hmovedTo
    have hmoved : (⟨3, 3⟩ : Row ℚ) ∈ threeIssues.list (rationals (· / 2)) 1 .issues := by
      rw [list_threeIssues]
      decide
    have hperm : [⟨1, 1⟩, ⟨3, 3⟩, ⟨2, 2⟩].Perm
        (threeIssues.list (rationals (· / 2)) 1 .issues) := by
      rw [list_threeIssues]
      decide
    have hiff := (movedTo_iff (nodup_list threeIssues .issues) hmoved hperm).mp hmovedTo
    rw [list_threeIssues] at hiff
    have hrank : (rationals (· / 2)).rankBetween (orderIn [⟨1, 1⟩, ⟨2, 2⟩, ⟨3, 3⟩] (some 1))
        (orderIn [⟨1, 1⟩, ⟨2, 2⟩, ⟨3, 3⟩] none) = some 2 := by decide +kernel
    have hincrease := hiff.1
    rw [hrank] at hincrease
    revert hincrease
    decide +kernel

end IntelliPilot.Ordering
