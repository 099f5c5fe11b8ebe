import IntelliPilot.Backlog.DeltaPaging

/-! # Completeness of the delta sync

A client that held the live issues at one moment and follows the cursor later
holds the live issues again. Paging delivers what was changed within reach of
the cursor; what a purge removes, what a slow transaction hides behind the
cursor and what the cap on tombstones cuts off is missed.
-/

namespace IntelliPilot.Backlog

open Paging

section Calls

variable {tie : Issue → Nat} {db : Db} {projectId : Uuid} {clock : Nat → Int} {since : Int}

/-- The ids that calls before `n` have reported as deleted. -/
def tombstonesBefore (tie : Issue → Nat) (db : Db) (projectId : Uuid) (clock : Nat → Int)
    (since : Int) (n : Nat) : List Uuid :=
  (List.range n).flatMap fun i =>
    ((deltaAt tie db projectId clock since i).map fun delta =>
      delta.tombstones.map (·.id)).getD []

/-- After call `n` the client that held the live issues of `synced` is done: it
holds those of `db`, and was told of every change newer than its cursor. -/
structure CaughtUp (tie : Issue → Nat) (synced db : Db) (projectId : Uuid) (clock : Nat → Int)
    (since : Int) (n : Nat) : Prop where
  last : ∃ delta, deltaAt tie db projectId clock since n = some delta ∧ delta.hasMore = false
  held : ∀ id, heldAt tie db projectId clock since (getIssue synced projectId) (n + 1) id =
    getIssue db projectId id
  delivered : ∀ issue ∈ liveByModified db projectId, since < issue.modifiedAt →
    issue ∈ deliveredBefore tie db projectId clock since (n + 1)
  dropped : ∀ issue ∈ db.issues.rows, deletedIn projectId issue = true →
    since < issue.modifiedAt → issue.id ∈ tombstonesBefore tie db projectId clock since (n + 1)

/-! ## The issues -/

/-- The order of equal tombstones does not move the cursor. -/
theorem cursorAt_tie (tie tie' : Issue → Nat) (n : Nat) :
    cursorAt tie db projectId clock since n = cursorAt tie' db projectId clock since n := by
  induction n with
  | zero => rfl
  | succ n ih =>
    ext next
    rw [cursorAt_succ, cursorAt_succ, ih]
    rfl

variable {issue : Issue}

theorem getIssue_eq_some_iff {id : Uuid} :
    getIssue db projectId id = some issue ↔
      issue ∈ liveByModified db projectId ∧ issue.id = id := by
  rw [getIssue, Option.filter_eq_some_iff, Db.issue?, Table.find?_eq_some_iff, mem_liveByModified]
  exact ⟨fun h => ⟨⟨h.1.1, h.2⟩, h.1.2⟩, fun h => ⟨⟨h.1.1, h.2⟩, h.1.2⟩⟩

/-- Every live issue that the first cursor reaches is in some page. -/
theorem delivered_of_newer {n : Nat} {delta : IssueDelta}
    (hlast : deltaAt tie db projectId clock since n = some delta) (hdone : delta.hasMore = false)
    (hissue : issue ∈ liveByModified db projectId)
    (hnewer : since - deltaOverlap < issue.modifiedAt) :
    issue ∈ deliveredBefore tie db projectId clock since (n + 1) := by
  by_contra hmissed
  have hpages : ∀ i ≤ n, ∀ cursor, cursorAt tie db projectId clock since i = some cursor →
      clock i - eraseGrace ≤ cursor → issue ∉ issuesAfter db projectId cursor := by
    intro i hi cursor hcursor hgrace hpage
    exact hmissed (mem_deliveredBefore.mpr ⟨i, Nat.lt_succ_of_le hi, cursor, hcursor, hgrace, hpage⟩)
  -- a page it is missing from is full of issues no newer, so the next cursor reaches it
  have hreached : ∀ i ≤ n, ∀ cursor, cursorAt tie db projectId clock since i = some cursor →
      cursor - deltaOverlap < issue.modifiedAt := by
    intro i
    induction i with
    | zero =>
      intro _ cursor hcursor
      rw [← Option.some.inj hcursor]
      exact hnewer
    | succ i ih =>
      intro hi next hnext
      obtain ⟨cursor, hcursor, hgrace, hmore, rfl⟩ := cursorAt_succ.mp hnext
      have hbefore := ih (by omega) cursor hcursor
      obtain ⟨_, last, hlast, hnextCursor, _⟩ := nextCursor_eq tie (db.at (clock i)) hmore
      have hfound : issue ∈ (liveByModified db projectId).filter fun other =>
          decide (cursor - deltaOverlap < other.modifiedAt) :=
        List.mem_filter.mpr ⟨hissue, decide_eq_true hbefore⟩
      have hle : last.modifiedAt ≤ issue.modifiedAt :=
        stamp_le_of_not_mem_take ((liveByModified_ordered db projectId).filter _)
          (List.mem_of_getLast? hlast) hfound (hpages i (by omega) cursor hcursor hgrace)
      rw [roundAt, hnextCursor]
      have hpositive : 0 < deltaOverlap := by decide
      omega
  obtain ⟨cursor, hcursor, hgrace, rfl⟩ := deltaAt_eq_some_iff.mp hlast
  apply hpages n (le_refl n) cursor hcursor hgrace
  have hshort : (issuesAfter db projectId cursor).length < deltaPageLimit := by
    have hcount : decide (deltaPageLimit ≤ (issuesAfter db projectId cursor).length) = false := hdone
    exact Nat.not_le.mp (of_decide_eq_false hcount)
  rw [issuesAfter, newerThan, take_eq_self_of_lt hshort]
  exact List.mem_filter.mpr ⟨hissue, decide_eq_true (hreached n (le_refl n) cursor hcursor)⟩

/-- The calls deliver live issues that the first cursor reaches, and no others. -/
theorem newer_of_delivered (hfree : ¬ Crowded db projectId since) {n : Nat}
    (h : issue ∈ deliveredBefore tie db projectId clock since n) :
    issue ∈ liveByModified db projectId ∧ since - deltaOverlap < issue.modifiedAt := by
  obtain ⟨i, _, cursor, hcursor, _, hpage⟩ := mem_deliveredBefore.mp h
  obtain ⟨hissue, hnewer⟩ := mem_issuesAfter hpage
  have hsince := (cursor_progress hfree i hcursor).1
  exact ⟨hissue, by omega⟩

/-! ## The tombstones -/

/-- How many issues were deleted between two moments, the later one included. -/
def deletedWithin (db : Db) (projectId : Uuid) (low high : Int) : Nat :=
  db.issues.rows.countP fun issue =>
    deletedIn projectId issue && decide (low < issue.modifiedAt ∧ issue.modifiedAt ≤ high)

/-- The tombstones of the answer to a cursor. -/
def tombstonesAfter (tie : Issue → Nat) (db : Db) (projectId : Uuid) (cursor : Int) : List Issue :=
  newerThan (cursor - deltaOverlap) deltaPageLimit (deletedByModified tie db projectId)

theorem mem_deletedByModified : issue ∈ deletedByModified tie db projectId ↔
    issue ∈ db.issues.rows ∧ deletedIn projectId issue = true := by
  rw [deletedByModified, List.mem_mergeSort, List.mem_filter]

theorem mem_tombstonesAfter {cursor : Int} (h : issue ∈ tombstonesAfter tie db projectId cursor) :
    (issue ∈ db.issues.rows ∧ deletedIn projectId issue = true) ∧
      cursor - deltaOverlap < issue.modifiedAt := by
  have hmem := List.mem_filter.mp (List.mem_of_mem_take h)
  exact ⟨mem_deletedByModified.mp hmem.1, of_decide_eq_true hmem.2⟩

theorem deletedByModified_pairwise (tie : Issue → Nat) (db : Db) (projectId : Uuid) :
    (deletedByModified tie db projectId).Pairwise fun a b =>
      a.modifiedAt < b.modifiedAt ∨ a.modifiedAt = b.modifiedAt ∧ tie a ≤ tie b := by
  have hpairwise : (deletedByModified tie db projectId).Pairwise fun a b =>
      decide (a.modifiedAt < b.modifiedAt ∨ a.modifiedAt = b.modifiedAt ∧ tie a ≤ tie b) = true := by
    apply List.pairwise_mergeSort
    · intro a b c hab hbc
      rw [decide_eq_true_iff] at hab hbc ⊢
      omega
    · intro a b
      rw [Bool.or_eq_true, decide_eq_true_iff, decide_eq_true_iff]
      omega
  exact hpairwise.imp fun h => of_decide_eq_true h

theorem deletedByModified_ordered (tie : Issue → Nat) (db : Db) (projectId : Uuid) :
    Ordered Issue.modifiedAt (deletedByModified tie db projectId) := by
  apply (deletedByModified_pairwise tie db projectId).imp
  intro a b hab
  omega

theorem countP_deleted (tie : Issue → Nat) (low high : Int) :
    ((deletedByModified tie db projectId).filter fun issue => decide (low < issue.modifiedAt)).countP
      (fun issue => decide (issue.modifiedAt ≤ high)) = deletedWithin db projectId low high := by
  rw [List.countP_filter, deletedByModified, (List.mergeSort_perm _ _).countP_eq,
    List.countP_filter, deletedWithin]
  apply List.countP_congr
  intro issue _
  rw [Bool.and_eq_true, Bool.and_eq_true, Bool.and_eq_true, decide_eq_true_iff, decide_eq_true_iff,
    decide_eq_true_iff]
  tauto

/-- Few enough deletions before it bring an issue under the cap, however ties are ordered. -/
theorem mem_tombstonesAfter_of_few {cursor : Int} (hrow : issue ∈ db.issues.rows)
    (hdeleted : deletedIn projectId issue = true)
    (hnewer : cursor - deltaOverlap < issue.modifiedAt)
    (hfew : deletedWithin db projectId (cursor - deltaOverlap) issue.modifiedAt ≤ deltaPageLimit) :
    issue ∈ tombstonesAfter tie db projectId cursor := by
  apply mem_take_of_countP_le ((deletedByModified_ordered tie db projectId).filter _)
  · exact List.mem_filter.mpr ⟨mem_deletedByModified.mpr ⟨hrow, hdeleted⟩, decide_eq_true hnewer⟩
  · rw [countP_deleted tie]
    exact hfew

/-- The order of ties that puts one issue last. -/
def tieLast (issue : Issue) : Issue → Nat := fun other => if other = issue then 1 else 0

/-- An issue that is reported although it comes last of its moment has few
enough deletions before it. -/
theorem few_of_mem_tombstonesAfter {cursor : Int}
    (h : issue ∈ tombstonesAfter (tieLast issue) db projectId cursor) :
    deletedWithin db projectId (cursor - deltaOverlap) issue.modifiedAt ≤ deltaPageLimit := by
  rw [← countP_deleted (tieLast issue)]
  apply countP_le_of_rest
  intro other hother
  have hpairwise := (deletedByModified_pairwise (tieLast issue) db projectId).sublist
    (List.filter_sublist (p := fun issue => decide (cursor - deltaOverlap < issue.modifiedAt)))
  have hnodup : ((deletedByModified (tieLast issue) db projectId).filter fun issue =>
      decide (cursor - deltaOverlap < issue.modifiedAt)).Nodup := by
    apply List.Nodup.filter
    have hrows : db.issues.rows.Nodup := List.Nodup.of_map _ db.issues.nodup
    exact (List.mergeSort_perm _ _).nodup_iff.mpr (hrows.filter _)
  have hne : other ≠ issue := by
    rintro rfl
    exact List.disjoint_take_drop hnodup (le_refl _) h hother
  rw [← List.take_append_drop deltaPageLimit (List.filter _ _)] at hpairwise
  have hle := (List.pairwise_append.mp hpairwise).2.2 issue h other hother
  simp only [tieLast, if_true, if_neg hne] at hle
  omega

theorem tombstones_ids (n : Nat) (cursor : Int) :
    (roundAt tie db projectId clock n cursor).tombstones.map (·.id) =
      (tombstonesAfter tie db projectId cursor).map (·.id) := by
  rw [roundAt, roundOf, listIssuesDelta, List.map_map]
  rfl

theorem mem_tombstonesBefore {n : Nat} {id : Uuid} :
    id ∈ tombstonesBefore tie db projectId clock since n ↔
      ∃ i < n, ∃ cursor, cursorAt tie db projectId clock since i = some cursor ∧
        clock i - eraseGrace ≤ cursor ∧
        ∃ issue ∈ tombstonesAfter tie db projectId cursor, issue.id = id := by
  unfold tombstonesBefore
  rw [List.mem_flatMap]
  apply exists_congr
  intro i
  rw [List.mem_range]
  apply and_congr_right
  intro _
  cases hdelta : deltaAt tie db projectId clock since i with
  | none =>
    simp only [Option.map_none, Option.getD_none, List.not_mem_nil, false_iff, not_exists,
      not_and]
    intro cursor hcursor hgrace
    have hsome := deltaAt_eq_some_iff.mpr ⟨cursor, hcursor, hgrace, rfl⟩
    rw [hdelta] at hsome
    cases hsome
  | some delta =>
    obtain ⟨cursor, hcursor, hgrace, rfl⟩ := deltaAt_eq_some_iff.mp hdelta
    simp only [Option.map_some, Option.getD_some, hcursor, Option.some.injEq, exists_eq_left',
      tombstones_ids, List.mem_map]
    exact (and_iff_right hgrace).symm

/-! ## What the client holds -/

/-- A page is upserted: it holds the live issue of an id, or leaves the id alone. -/
theorem find_issuesAfter {cursor : Int} {id : Uuid} :
    (issuesAfter db projectId cursor).find? (·.id == id) =
      (getIssue db projectId id).filter fun issue =>
        decide (issue ∈ issuesAfter db projectId cursor) := by
  ext issue
  rw [Option.filter_eq_some_iff, getIssue_eq_some_iff, decide_eq_true_iff]
  constructor
  · intro hfind
    have hmem := List.mem_of_find?_eq_some hfind
    have hid : issue.id = id := by simpa using List.find?_some hfind
    exact ⟨⟨(mem_issuesAfter hmem).1, hid⟩, hmem⟩
  · rintro ⟨⟨hlive, hid⟩, hmem⟩
    have hsome : ((issuesAfter db projectId cursor).find? (·.id == id)).isSome := by
      rw [List.find?_isSome]
      exact ⟨issue, hmem, by simpa using hid⟩
    obtain ⟨found, hfound⟩ := Option.isSome_iff_exists.mp hsome
    have hfound_live := (mem_issuesAfter (List.mem_of_find?_eq_some hfound)).1
    have hfound_id : found.id = id := by simpa using List.find?_some hfound
    have hsame : found = issue := Rows.eq_of_nodup_map db.issues.nodup
      (mem_liveByModified.mp hfound_live).1 (mem_liveByModified.mp hlive).1
      (hfound_id.trans hid.symm)
    rw [hfound, hsame]

/-- A tombstone is of an issue that is not live. -/
theorem getIssue_of_tombstone {cursor : Int} (h : issue ∈ tombstonesAfter tie db projectId cursor) :
    getIssue db projectId issue.id = none := by
  rw [Option.eq_none_iff_forall_ne_some]
  intro live hlive
  obtain ⟨hmem, hid⟩ := getIssue_eq_some_iff.mp hlive
  obtain ⟨hrow, hin⟩ := mem_liveByModified.mp hmem
  obtain ⟨⟨hdeleted_row, hdeleted⟩, _⟩ := mem_tombstonesAfter h
  obtain rfl : live = issue := Rows.eq_of_nodup_map db.issues.nodup hrow hdeleted_row hid
  rw [inProject, Bool.and_eq_true] at hin
  rw [deletedIn, hin.2, Bool.not_true, Bool.and_false] at hdeleted
  cases hdeleted

/-- Once touched by an answer, an id is held as the tables have it; before, as
the client had it. -/
theorem heldAt_eq {held : Uuid → Option Issue} (n : Nat) (id : Uuid) :
    heldAt tie db projectId clock since held n id =
      match getIssue db projectId id with
      | some issue =>
        if issue ∈ deliveredBefore tie db projectId clock since n then some issue else held id
      | none =>
        if id ∈ tombstonesBefore tie db projectId clock since n then none else held id := by
  induction n with
  | zero =>
    cases getIssue db projectId id <;> rfl
  | succ n ih =>
    have hdelivered : ∀ issue, issue ∈ deliveredBefore tie db projectId clock since (n + 1) ↔
        issue ∈ deliveredBefore tie db projectId clock since n ∨
          ∃ delta, deltaAt tie db projectId clock since n = some delta ∧ issue ∈ delta.issues := by
      intro issue
      rw [deliveredBefore, List.range_succ, List.flatMap_append, List.mem_append,
        List.flatMap_singleton]
      cases deltaAt tie db projectId clock since n <;> simp [deliveredBefore]
    have htombstones : id ∈ tombstonesBefore tie db projectId clock since (n + 1) ↔
        id ∈ tombstonesBefore tie db projectId clock since n ∨
          ∃ delta, deltaAt tie db projectId clock since n = some delta ∧
            id ∈ delta.tombstones.map (·.id) := by
      rw [tombstonesBefore, List.range_succ, List.flatMap_append, List.mem_append,
        List.flatMap_singleton]
      cases deltaAt tie db projectId clock since n <;> simp [tombstonesBefore]
    rw [heldAt]
    cases hdelta : deltaAt tie db projectId clock since n with
    | none =>
      simp only [hdelta, reduceCtorEq, false_and, exists_false, or_false] at hdelivered htombstones
      simp only [hdelivered, htombstones]
      exact ih
    | some delta =>
      simp only [hdelta, Option.some.injEq, exists_eq_left'] at hdelivered htombstones
      obtain ⟨cursor, _, _, rfl⟩ := deltaAt_eq_some_iff.mp hdelta
      have hpage : (roundAt tie db projectId clock n cursor).issues =
          issuesAfter db projectId cursor := rfl
      simp only [hdelivered, htombstones, List.contains_iff_mem, hpage, find_issuesAfter, ih]
      cases hissue : getIssue db projectId id with
      | some issue =>
        have hkept : id ∉ (roundAt tie db projectId clock n cursor).tombstones.map (·.id) := by
          rw [tombstones_ids, List.mem_map]
          rintro ⟨deleted, hmem, rfl⟩
          rw [getIssue_of_tombstone hmem] at hissue
          cases hissue
        simp only [if_neg hkept, Option.filter_some, decide_eq_true_eq]
        by_cases hnew : issue ∈ issuesAfter db projectId cursor <;> simp [hnew]
      | none =>
        simp only [Option.filter_none, Option.none_or]
        by_cases hdropped : id ∈
          (roundAt tie db projectId clock n cursor).tombstones.map (·.id) <;> simp [hdropped]

end Calls

/-! ## Every history -/

/-- Some call reports the deletion of an issue, in whatever order it lists the
deletions of one moment: the call's cursor is reached, and at most a page was
deleted from there up to the issue. -/
def Reported (db : Db) (projectId : Uuid) (clock : Nat → Int) (since : Int) (issue : Issue) : Prop :=
  ∃ n cursor, cursorAt (fun _ => 0) db projectId clock since n = some cursor ∧
    cursor - deltaOverlap < issue.modifiedAt ∧
    deletedWithin db projectId (cursor - deltaOverlap) issue.modifiedAt ≤ deltaPageLimit

/-- What the tables must be like for a client that held the live issues of
`synced` to catch up. -/
structure Deliverable (synced db : Db) (projectId : Uuid) (clock : Nat → Int) (since : Int) :
    Prop where
  uncrowded : ¬ Crowded db projectId since
  inTime : InTime (fun _ => 0) db projectId clock since
  /-- What the cursor does not reach is as it was. -/
  unchanged : ∀ issue ∈ liveByModified db projectId, issue.modifiedAt ≤ since - deltaOverlap →
    getIssue synced projectId issue.id = some issue
  /-- What is gone was deleted softly, and the deletion is reported. -/
  gone : ∀ id, (getIssue synced projectId id).isSome → getIssue db projectId id = none →
    ∃ issue ∈ db.issues.rows, issue.id = id ∧ deletedIn projectId issue = true ∧
      Reported db projectId clock since issue
  reported : ∀ issue ∈ db.issues.rows, deletedIn projectId issue = true →
    since < issue.modifiedAt → Reported db projectId clock since issue

section Sync

variable {synced db : Db} {projectId : Uuid} {clock : Nat → Int} {since : Int}

theorem reported_of_tieLast {issue : Issue} {n : Nat}
    (h : issue.id ∈ tombstonesBefore (tieLast issue) db projectId clock since n)
    (hrow : issue ∈ db.issues.rows) : Reported db projectId clock since issue := by
  obtain ⟨i, _, cursor, hcursor, _, found, hfound, hid⟩ := mem_tombstonesBefore.mp h
  obtain rfl : found = issue := Rows.eq_of_nodup_map db.issues.nodup
    (mem_tombstonesAfter hfound).1.1 hrow hid
  rw [cursorAt_tie (tieLast found) fun _ => 0] at hcursor
  exact ⟨i, cursor, hcursor, (mem_tombstonesAfter hfound).2, few_of_mem_tombstonesAfter hfound⟩

/-- If the client catches up in whatever order ties are listed, the tables are as required. -/
theorem deliverable_of_caughtUp
    (h : ∀ tie, ∃ n, CaughtUp tie synced db projectId clock since n) :
    Deliverable synced db projectId clock since := by
  obtain ⟨n, hdone⟩ := h fun _ => 0
  have hcompletes : Completes (fun _ => 0) db projectId clock since := ⟨n, hdone.last⟩
  have hfree : ¬ Crowded db projectId since :=
    fun hcrowded => not_completes_of_crowded hcrowded hcompletes
  refine ⟨hfree, inTime_of_completes hcompletes, ?_, ?_, ?_⟩
  · intro issue hissue hold
    have hget : getIssue db projectId issue.id = some issue :=
      getIssue_eq_some_iff.mpr ⟨hissue, rfl⟩
    have hheld := hdone.held issue.id
    rw [heldAt_eq, hget] at hheld
    have hmissed : issue ∉ deliveredBefore (fun _ => 0) db projectId clock since (n + 1) := by
      intro hdelivered
      have := (newer_of_delivered hfree hdelivered).2
      omega
    simpa only [if_neg hmissed] using hheld
  · intro id hheld hgone
    -- the row of the id, with its ties in the worst order
    obtain ⟨issue, hissue, hid, hdeleted⟩ : ∃ issue ∈ db.issues.rows, issue.id = id ∧
        deletedIn projectId issue = true := by
      have hnow := hdone.held id
      rw [heldAt_eq, hgone] at hnow
      have hdropped : id ∈ tombstonesBefore (fun _ => 0) db projectId clock since (n + 1) := by
        by_contra hkept
        simp only [if_neg hkept] at hnow
        rw [hnow] at hheld
        cases hheld
      obtain ⟨_, _, cursor, _, _, issue, hissue, hid⟩ := mem_tombstonesBefore.mp hdropped
      obtain ⟨⟨hrow, hdeleted⟩, _⟩ := mem_tombstonesAfter hissue
      exact ⟨issue, hrow, hid, hdeleted⟩
    refine ⟨issue, hissue, hid, hdeleted, ?_⟩
    obtain ⟨m, hworst⟩ := h (tieLast issue)
    have hnow := hworst.held id
    rw [heldAt_eq, hgone] at hnow
    apply reported_of_tieLast (n := m + 1) _ hissue
    rw [hid]
    by_contra hkept
    simp only [if_neg hkept] at hnow
    rw [hnow] at hheld
    cases hheld
  · intro issue hissue hdeleted hnewer
    obtain ⟨m, hworst⟩ := h (tieLast issue)
    exact reported_of_tieLast (hworst.dropped issue hissue hdeleted hnewer) hissue

/-- On such tables the client catches up. -/
theorem caughtUp_of_deliverable (h : Deliverable synced db projectId clock since)
    (tie : Issue → Nat) : ∃ n, CaughtUp tie synced db projectId clock since n := by
  have htime : InTime tie db projectId clock since := by
    intro n cursor hcursor
    rw [cursorAt_tie tie fun _ => 0] at hcursor
    exact h.inTime n cursor hcursor
  obtain ⟨n, delta, hdelta, hdone⟩ := completes_of_uncrowded h.uncrowded htime
  have hreported : ∀ issue ∈ db.issues.rows, deletedIn projectId issue = true →
      Reported db projectId clock since issue →
      issue.id ∈ tombstonesBefore tie db projectId clock since (n + 1) := by
    rintro issue hissue hdeleted ⟨i, cursor, hcursor, hnewer, hfew⟩
    rw [cursorAt_tie (fun _ => 0) tie] at hcursor
    refine mem_tombstonesBefore.mpr ⟨i, ?_, cursor, hcursor, htime i cursor hcursor, issue,
      mem_tombstonesAfter_of_few hissue hdeleted hnewer hfew, rfl⟩
    -- no call follows the last one
    by_contra hlate
    obtain ⟨next, hnext⟩ := Option.isSome_iff_exists.mp
      (cursorAt_isSome_of_le (Nat.not_lt.mp hlate) (Option.isSome_of_eq_some hcursor))
    obtain ⟨final, hfinal, _, hmore, _⟩ := cursorAt_succ.mp hnext
    obtain ⟨final', hfinal', _, rfl⟩ := deltaAt_eq_some_iff.mp hdelta
    rw [hfinal] at hfinal'
    cases hfinal'
    rw [hdone] at hmore
    cases hmore
  refine ⟨n, ⟨delta, hdelta, hdone⟩, ?_, ?_, ?_⟩
  · intro id
    rw [heldAt_eq]
    cases hget : getIssue db projectId id with
    | some issue =>
      obtain ⟨hissue, hid⟩ := getIssue_eq_some_iff.mp hget
      simp only
      split
      · rfl
      · rename_i hmissed
        rw [← hid]
        apply h.unchanged issue hissue
        by_contra hnewer
        exact hmissed (delivered_of_newer hdelta hdone hissue (by omega))
    | none =>
      simp only
      split
      · rfl
      · rename_i hkept
        by_contra hheld
        obtain ⟨issue, hissue, hid, hdeleted, hreport⟩ :=
          h.gone id (Option.isSome_iff_ne_none.mpr hheld) hget
        exact hkept (hid ▸ hreported issue hissue hdeleted hreport)
  · intro issue hissue hnewer
    have hpositive : 0 < deltaOverlap := by decide
    exact delivered_of_newer hdelta hdone hissue (by omega)
  · intro issue hissue hdeleted hnewer
    exact hreported issue hissue hdeleted (h.reported issue hissue hdeleted hnewer)

end Sync

/-- A client that held the live issues before a history follows the cursor and
holds them after it, in whatever order ties are listed, if and only if the
history leaves what it has to learn deliverable. -/
theorem delta_sync_complete_iff (synced : Db) (history : List (Int × Stmt)) (projectId : Uuid)
    (clock : Nat → Int) (since : Int) :
    (∀ tie, ∃ n, CaughtUp tie synced (run synced history) projectId clock since n) ↔
      Deliverable synced (run synced history) projectId clock since :=
  ⟨deliverable_of_caughtUp, caughtUp_of_deliverable⟩

/-- A purge leaves no tombstone. -/
theorem purged_issue_kept : ¬ ∀ (synced : Db) (history : List (Int × Stmt)) (projectId : Uuid)
    (clock : Nat → Int) (since : Int) (tie : Issue → Nat),
    ∃ n, CaughtUp tie synced (run synced history) projectId clock since n := by
  intro h
  let synced : Db := ⟨.empty, .empty, ⟨[⟨1, 9, none, none, none, 1, 0, none⟩], by decide⟩, 0⟩
  have hgone := (deliverable_of_caughtUp (h synced [(1, .purgeIssues 9)] 9 (fun _ => 2) 0)).gone 1
    rfl rfl
  obtain ⟨issue, hissue, _⟩ := hgone
  cases hissue

end IntelliPilot.Backlog
