import IntelliPilot.Backlog.DeltaSync
import IntelliPilot.Relational.Paging

/-! # Delta paging

A round with more to come passes on the stamp of its last issue, and the next
one starts five seconds before it. The rounds go forward, and end, unless a
whole page of live issues was last changed within five seconds of one of them.
-/

namespace IntelliPilot.Backlog

open Paging

/-! ## One call -/

/-- How many live issues were last changed with `issue` or less than the
overlap after it. -/
def crowd (db : Db) (projectId : Uuid) (issue : Issue) : Nat :=
  (liveByModified db projectId).countP fun other =>
    decide (issue.modifiedAt ≤ other.modifiedAt ∧
      other.modifiedAt < issue.modifiedAt + deltaOverlap)

/-- Some live issue that a cursor still has to deliver shares its five seconds
with a whole page of live issues. -/
def Crowded (db : Db) (projectId : Uuid) (since : Int) : Prop :=
  ∃ issue ∈ liveByModified db projectId,
    since - deltaOverlap < issue.modifiedAt ∧ deltaPageLimit ≤ crowd db projectId issue

theorem modifiedLE_iff {a b : Issue} : modifiedLE a b = true ↔
    a.modifiedAt < b.modifiedAt ∨ a.modifiedAt = b.modifiedAt ∧ a.id ≤ b.id :=
  decide_eq_true_iff

theorem liveByModified_ordered (db : Db) (projectId : Uuid) :
    Ordered Issue.modifiedAt (liveByModified db projectId) := by
  have hpairwise : (liveByModified db projectId).Pairwise (modifiedLE · ·) := by
    apply List.pairwise_mergeSort
    · intro a b c hab hbc
      rw [modifiedLE_iff] at hab hbc ⊢
      rcases hab with hlt | ⟨heq, hid⟩
      · exact Or.inl (by omega)
      · rcases hbc with hlt | ⟨heq', hid'⟩
        · exact Or.inl (by omega)
        · exact Or.inr ⟨heq.trans heq', hid.trans hid'⟩
    · intro a b
      rw [Bool.or_eq_true, modifiedLE_iff, modifiedLE_iff]
      rcases lt_trichotomy a.modifiedAt b.modifiedAt with hlt | heq | hlt
      · exact Or.inl (Or.inl hlt)
      · rcases le_total a.id b.id with hid | hid
        · exact Or.inl (Or.inr ⟨heq, hid⟩)
        · exact Or.inr (Or.inr ⟨heq.symm, hid⟩)
      · exact Or.inr (Or.inl hlt)
  apply hpairwise.imp
  intro a b hab
  rw [modifiedLE_iff] at hab
  omega

theorem mem_liveByModified {db : Db} {projectId : Uuid} {issue : Issue} :
    issue ∈ liveByModified db projectId ↔
      issue ∈ db.issues.rows ∧ inProject projectId issue = true := by
  rw [liveByModified, List.mem_mergeSort, List.mem_filter]

theorem liveByModified_nodup (db : Db) (projectId : Uuid) :
    (liveByModified db projectId).Nodup := by
  have hrows : db.issues.rows.Nodup := List.Nodup.of_map _ db.issues.nodup
  exact (List.mergeSort_perm _ _).nodup_iff.mpr (hrows.filter _)

theorem crowd_eq (db : Db) (projectId : Uuid) (issue : Issue) :
    crowd db projectId issue = db.issues.rows.countP fun other =>
      decide (issue.modifiedAt ≤ other.modifiedAt ∧
        other.modifiedAt < issue.modifiedAt + deltaOverlap) && inProject projectId other := by
  rw [crowd, liveByModified, (List.mergeSort_perm _ _).countP_eq, List.countP_filter]

section Round

variable {tie : Issue → Nat} {db : Db} {projectId : Uuid} {cursor : Int}

/-- The issues of the answer to a cursor. -/
def issuesAfter (db : Db) (projectId : Uuid) (cursor : Int) : List Issue :=
  newerThan (cursor - deltaOverlap) deltaPageLimit (liveByModified db projectId)

/-- How many live issues a cursor leaves behind. -/
def behind (db : Db) (projectId : Uuid) (cursor : Int) : Nat :=
  (liveByModified db projectId).countP fun issue =>
    decide (issue.modifiedAt ≤ cursor - deltaOverlap)

theorem issuesAfter_eq : issuesAfter db projectId cursor =
    ((liveByModified db projectId).drop (behind db projectId cursor)).take deltaPageLimit := by
  rw [issuesAfter, newerThan, filter_newer (liveByModified_ordered db projectId), behind]

theorem mem_issuesAfter {issue : Issue} (h : issue ∈ issuesAfter db projectId cursor) :
    issue ∈ liveByModified db projectId ∧ cursor - deltaOverlap < issue.modifiedAt := by
  have hmem := List.mem_filter.mp (List.mem_of_mem_take h)
  exact ⟨hmem.1, of_decide_eq_true hmem.2⟩

/-- The answer to a cursor. -/
def roundOf (tie : Issue → Nat) (db : Db) (projectId : Uuid) (cursor : Int) : IssueDelta :=
  listIssuesDelta tie db projectId (cursor - deltaOverlap) deltaPageLimit

/-- The next cursor of a full page is the stamp of its last issue, which is the newest. -/
theorem nextCursor_eq (tie : Issue → Nat) (db : Db)
    (hmore : (roundOf tie db projectId cursor).hasMore = true) :
    deltaPageLimit ≤ (issuesAfter db projectId cursor).length ∧
      ∃ last, (issuesAfter db projectId cursor).getLast? = some last ∧
        (roundOf tie db projectId cursor).cursor = last.modifiedAt ∧
        ∀ issue ∈ issuesAfter db projectId cursor, issue.modifiedAt ≤ last.modifiedAt := by
  have hfull : deltaPageLimit ≤ (issuesAfter db projectId cursor).length := of_decide_eq_true hmore
  have hne : issuesAfter db projectId cursor ≠ [] := by
    intro hnil
    rw [hnil] at hfull
    exact absurd hfull (by decide)
  have hlast := List.getLast?_eq_some_getLast hne
  refine ⟨hfull, _, hlast, ?_, ?_⟩
  · have hcursor : (roundOf tie db projectId cursor).cursor =
        (issuesAfter db projectId cursor).getLast?.elim db.now (·.modifiedAt) := if_pos hmore
    rw [hcursor, hlast]
    rfl
  · have hordered : Ordered Issue.modifiedAt (issuesAfter db projectId cursor) :=
      List.Pairwise.sublist (List.take_sublist _ _)
        ((liveByModified_ordered db projectId).filter _)
    intro issue hissue
    rw [← List.dropLast_append_getLast hne, List.mem_append, List.mem_singleton] at hissue
    rcases hissue with hissue | rfl
    · rw [Ordered, ← List.dropLast_append_getLast hne] at hordered
      exact (List.pairwise_append.mp hordered).2.2 issue hissue _ (List.mem_singleton_self _)
    · exact le_refl _

/-- From before a crowded issue every round has more to come, and stays before it. -/
theorem round_crowded (tie : Issue → Nat) (db : Db) {issue : Issue}
    (hcrowd : deltaPageLimit ≤ crowd db projectId issue)
    (hbefore : cursor - deltaOverlap < issue.modifiedAt) :
    (roundOf tie db projectId cursor).hasMore = true ∧
      (roundOf tie db projectId cursor).cursor - deltaOverlap < issue.modifiedAt := by
  let found := (liveByModified db projectId).filter fun other =>
    decide (cursor - deltaOverlap < other.modifiedAt)
  have hfound : deltaPageLimit ≤
      found.countP fun other => decide (other.modifiedAt < issue.modifiedAt + deltaOverlap) := by
    apply hcrowd.trans
    rw [List.countP_filter]
    apply List.countP_mono_left
    intro other _ hwindow
    rw [decide_eq_true_iff] at hwindow
    rw [Bool.and_eq_true, decide_eq_true_iff, decide_eq_true_iff]
    omega
  have hordered : Ordered Issue.modifiedAt found := (liveByModified_ordered db projectId).filter _
  have hmore : (roundOf tie db projectId cursor).hasMore = true := by
    apply decide_eq_true
    change deltaPageLimit ≤ (found.take deltaPageLimit).length
    rw [List.length_take]
    have := hfound.trans List.countP_le_length
    omega
  refine ⟨hmore, ?_⟩
  obtain ⟨_, last, hlast, hcursor, _⟩ := nextCursor_eq tie db hmore
  rw [hcursor]
  have := stamp_lt_of_crowd hordered hfound (List.mem_of_getLast? hlast)
  omega

/-- Elsewhere a round with more to come leaves an issue of its page behind. -/
theorem round_uncrowded (tie : Issue → Nat) (db : Db)
    (hfree : ∀ issue ∈ issuesAfter db projectId cursor, crowd db projectId issue < deltaPageLimit)
    (hmore : (roundOf tie db projectId cursor).hasMore = true) :
    ∃ issue ∈ issuesAfter db projectId cursor,
      issue.modifiedAt ≤ (roundOf tie db projectId cursor).cursor - deltaOverlap := by
  obtain ⟨hfull, last, hlast, hcursor, hnewest⟩ := nextCursor_eq tie db hmore
  let found := (liveByModified db projectId).filter fun other =>
    decide (cursor - deltaOverlap < other.modifiedAt)
  have hordered : Ordered Issue.modifiedAt found := (liveByModified_ordered db projectId).filter _
  have hpage : issuesAfter db projectId cursor = found.take deltaPageLimit := rfl
  cases hfound : found with
  | nil =>
    rw [hpage, hfound] at hfull
    exact absurd hfull (by decide)
  | cons first rest =>
    have hfirst : first ∈ issuesAfter db projectId cursor := by
      rw [hpage, hfound]
      exact List.mem_cons_self
    refine ⟨first, hfirst, ?_⟩
    rw [hcursor]
    by_contra hnear
    -- then the whole page lies within the overlap of its first issue
    have hbelow : ∀ issue ∈ found.take deltaPageLimit,
        issue.modifiedAt < first.modifiedAt + deltaOverlap := by
      intro issue hissue
      have := hnewest issue hissue
      omega
    have hcrowd : deltaPageLimit ≤ found.countP fun other =>
        decide (other.modifiedAt < first.modifiedAt + deltaOverlap) :=
      crowd_of_stamp_lt hfull hbelow
    have hleast : ∀ other ∈ found, first.modifiedAt ≤ other.modifiedAt := by
      intro other hother
      rw [hfound] at hother hordered
      rcases List.mem_cons.mp hother with rfl | hmem
      · exact le_refl _
      · exact (List.pairwise_cons.mp hordered).1 other hmem
    apply absurd (hfree first hfirst)
    rw [Nat.not_lt]
    apply hcrowd.trans
    calc found.countP (fun other => decide (other.modifiedAt < first.modifiedAt + deltaOverlap))
        ≤ found.countP (fun other => decide (first.modifiedAt ≤ other.modifiedAt ∧
            other.modifiedAt < first.modifiedAt + deltaOverlap)) := by
          apply List.countP_mono_left
          intro other hother hwindow
          rw [decide_eq_true_iff] at hwindow ⊢
          exact ⟨hleast other hother, hwindow⟩
      _ ≤ crowd db projectId first := List.Sublist.countP_le List.filter_sublist

end Round

/-! ## The calls -/

section Calls

variable {tie : Issue → Nat} {db : Db} {projectId : Uuid} {clock : Nat → Int} {since : Int}

/-- No call comes later than the grace window of the cursor it passes. -/
def InTime (tie : Issue → Nat) (db : Db) (projectId : Uuid) (clock : Nat → Int) (since : Int) :
    Prop :=
  ∀ n cursor, cursorAt tie db projectId clock since n = some cursor → clock n - eraseGrace ≤ cursor

/-- What call `n` finds for a cursor. -/
def roundAt (tie : Issue → Nat) (db : Db) (projectId : Uuid) (clock : Nat → Int) (n : Nat)
    (cursor : Int) : IssueDelta := roundOf tie (db.at (clock n)) projectId cursor

theorem issuesDelta_eq (n : Nat) (cursor : Int) :
    Api.issuesDelta tie projectId (some cursor) (db.at (clock n)) =
      if clock n - eraseGrace ≤ cursor then .delta (roundAt tie db projectId clock n cursor)
      else .problem Api.resyncRequired := by
  by_cases hgrace : clock n - eraseGrace ≤ cursor
  · rw [if_pos hgrace]
    exact if_neg (Int.not_lt.mpr hgrace)
  · rw [if_neg hgrace]
    exact if_pos (Int.not_le.mp hgrace)

variable {n : Nat} {delta : IssueDelta}

theorem deltaAt_eq_some_iff :
    deltaAt tie db projectId clock since n = some delta ↔
      ∃ cursor, cursorAt tie db projectId clock since n = some cursor ∧
        clock n - eraseGrace ≤ cursor ∧ roundAt tie db projectId clock n cursor = delta := by
  unfold deltaAt answerAt
  cases cursorAt tie db projectId clock since n with
  | none => simp
  | some cursor =>
    simp only [Option.map_some, Option.bind_some, Option.some.injEq, exists_eq_left',
      issuesDelta_eq]
    by_cases hgrace : clock n - eraseGrace ≤ cursor
    · simp [hgrace]
    · simp [hgrace]

/-- A call passes the cursor of the round before it. -/
theorem cursorAt_succ {next : Int} :
    cursorAt tie db projectId clock since (n + 1) = some next ↔
      ∃ cursor, cursorAt tie db projectId clock since n = some cursor ∧
        clock n - eraseGrace ≤ cursor ∧ (roundAt tie db projectId clock n cursor).hasMore = true ∧
        (roundAt tie db projectId clock n cursor).cursor = next := by
  rw [cursorAt, Option.bind_eq_some_iff]
  apply exists_congr
  intro cursor
  rw [issuesDelta_eq]
  by_cases hgrace : clock n - eraseGrace ≤ cursor
  · simp [hgrace]
  · simp [hgrace]

/-- Before a crowded issue the rounds never end. -/
theorem not_completes_of_crowded (h : Crowded db projectId since) :
    ¬ Completes tie db projectId clock since := by
  obtain ⟨issue, _, hnewer, hcrowd⟩ := h
  have hbefore : ∀ n cursor, cursorAt tie db projectId clock since n = some cursor →
      cursor - deltaOverlap < issue.modifiedAt := by
    intro n
    induction n with
    | zero =>
      intro cursor hcursor
      rw [← Option.some.inj hcursor]
      exact hnewer
    | succ n ih =>
      intro next hnext
      obtain ⟨cursor, hcursor, _, _, rfl⟩ := cursorAt_succ.1 hnext
      exact (round_crowded tie (db.at (clock n)) hcrowd (ih cursor hcursor)).2
  rintro ⟨n, delta, hdelta, hdone⟩
  obtain ⟨cursor, hcursor, _, rfl⟩ := deltaAt_eq_some_iff.1 hdelta
  have hmore : (roundAt tie db projectId clock n cursor).hasMore = true :=
    (round_crowded tie (db.at (clock n)) hcrowd (hbefore n cursor hcursor)).1
  rw [hmore] at hdone
  cases hdone

theorem cursorAt_isSome_of_le {m : Nat} (hle : n ≤ m)
    (hsome : (cursorAt tie db projectId clock since m).isSome) :
    (cursorAt tie db projectId clock since n).isSome := by
  induction hle with
  | refl => exact hsome
  | step _ ih =>
    obtain ⟨next, hnext⟩ := Option.isSome_iff_exists.mp hsome
    obtain ⟨cursor, hcursor, _⟩ := cursorAt_succ.1 hnext
    exact ih (Option.isSome_of_eq_some hcursor)

/-- Rounds that end were never refused. -/
theorem inTime_of_completes (h : Completes tie db projectId clock since) :
    InTime tie db projectId clock since := by
  obtain ⟨last, delta, hdelta, hdone⟩ := h
  obtain ⟨final, hfinal, hgrace, rfl⟩ := deltaAt_eq_some_iff.1 hdelta
  intro n cursor hcursor
  rcases lt_trichotomy n last with hlt | rfl | hgt
  · -- a call that another one follows was answered
    obtain ⟨next, hnext⟩ := Option.isSome_iff_exists.mp
      (cursorAt_isSome_of_le (Nat.succ_le_of_lt hlt) (Option.isSome_of_eq_some hfinal))
    obtain ⟨passed, hpassed, hanswered, _⟩ := cursorAt_succ.1 hnext
    rw [hcursor] at hpassed
    cases hpassed
    exact hanswered
  · rw [hfinal] at hcursor
    cases hcursor
    exact hgrace
  · -- no call follows the last one
    obtain ⟨next, hnext⟩ := Option.isSome_iff_exists.mp
      (cursorAt_isSome_of_le (Nat.succ_le_of_lt hgt) (Option.isSome_of_eq_some hcursor))
    obtain ⟨passed, hpassed, _, hmore, _⟩ := cursorAt_succ.1 hnext
    rw [hfinal] at hpassed
    cases hpassed
    rw [hdone] at hmore
    cases hmore

variable {cursor : Int}

/-- Past every crowded issue the cursors only move forward, and each leaves
another issue behind. -/
theorem cursor_advances (hfree : ¬ Crowded db projectId since) {next : Int}
    (hcursor : cursorAt tie db projectId clock since n = some cursor) (hsince : since ≤ cursor)
    (hnext : cursorAt tie db projectId clock since (n + 1) = some next) :
    cursor < next ∧ behind db projectId cursor < behind db projectId next := by
  obtain ⟨cursor', hcursor', _, hmore, rfl⟩ := cursorAt_succ.1 hnext
  rw [hcursor] at hcursor'
  cases hcursor'
  obtain ⟨first, hfirst, hleft⟩ := round_uncrowded tie (db.at (clock n))
    (by
      intro issue hissue
      by_contra hcrowd
      obtain ⟨hmem, hnewer⟩ := mem_issuesAfter hissue
      exact hfree ⟨issue, hmem, by omega, Nat.not_lt.mp hcrowd⟩) hmore
  obtain ⟨hmem, hnewer⟩ := mem_issuesAfter hfirst
  change first.modifiedAt ≤ (roundAt tie db projectId clock n cursor).cursor - deltaOverlap at hleft
  have hlt : cursor < (roundAt tie db projectId clock n cursor).cursor := by omega
  exact ⟨hlt, countP_behind_lt hmem hnewer hleft⟩

/-- As long as the rounds go on, the cursors do not fall behind `since`, and
call `n` has left `n` issues behind. -/
theorem cursor_progress (hfree : ¬ Crowded db projectId since) (n : Nat)
    (hcursor : cursorAt tie db projectId clock since n = some cursor) :
    since ≤ cursor ∧ n ≤ behind db projectId cursor := by
  induction n generalizing cursor with
  | zero =>
    rw [← Option.some.inj hcursor]
    exact ⟨le_refl _, Nat.zero_le _⟩
  | succ n ih =>
    obtain ⟨before, hbefore, _⟩ := cursorAt_succ.1 hcursor
    obtain ⟨hsince, hleft⟩ := ih hbefore
    obtain ⟨hlt, hmore⟩ := cursor_advances hfree hbefore hsince hcursor
    exact ⟨by omega, by omega⟩

/-- Away from crowded issues the rounds end, if they are in time. -/
theorem completes_of_uncrowded (hfree : ¬ Crowded db projectId since)
    (htime : InTime tie db projectId clock since) : Completes tie db projectId clock since := by
  by_contra hnever
  have hsome : ∀ n, (cursorAt tie db projectId clock since n).isSome := by
    intro n
    induction n with
    | zero => rfl
    | succ n ih =>
      obtain ⟨cursor, hcursor⟩ := Option.isSome_iff_exists.mp ih
      have hgrace := htime n cursor hcursor
      cases hmore : (roundAt tie db projectId clock n cursor).hasMore with
      | true =>
        exact Option.isSome_of_eq_some (cursorAt_succ.2 ⟨cursor, hcursor, hgrace, hmore, rfl⟩)
      | false =>
        exfalso
        exact hnever ⟨n, _, deltaAt_eq_some_iff.2 ⟨cursor, hcursor, hgrace, rfl⟩, hmore⟩
  -- but there are only so many issues to leave behind
  obtain ⟨cursor, hcursor⟩ := Option.isSome_iff_exists.mp
    (hsome ((liveByModified db projectId).length + 1))
  have hleft := (cursor_progress hfree _ hcursor).2
  have hall : behind db projectId cursor ≤ (liveByModified db projectId).length :=
    List.countP_le_length
  omega

/-! ## What the rounds deliver -/

theorem behind_lt (hfree : ¬ Crowded db projectId since) {m : Nat} (hlt : m < n)
    {earlier later : Int} (hearlier : cursorAt tie db projectId clock since m = some earlier)
    (hlater : cursorAt tie db projectId clock since n = some later) :
    behind db projectId earlier < behind db projectId later := by
  induction hlt generalizing later with
  | refl =>
    exact (cursor_advances hfree hearlier (cursor_progress hfree m hearlier).1 hlater).2
  | step hle ih =>
    obtain ⟨cursor, hcursor, _⟩ := cursorAt_succ.1 hlater
    exact (ih hcursor).trans
      (cursor_advances hfree hcursor (cursor_progress hfree _ hcursor).1 hlater).2

/-- The last issue of a full page lies a page behind its cursor. -/
theorem last_mem_drop {last : Issue}
    (hfull : deltaPageLimit ≤ (issuesAfter db projectId cursor).length)
    (hlast : (issuesAfter db projectId cursor).getLast? = some last) :
    last ∈ (liveByModified db projectId).drop
      (behind db projectId cursor + (deltaPageLimit - 1)) := by
  have hlength : (issuesAfter db projectId cursor).length = deltaPageLimit := by
    apply le_antisymm _ hfull
    rw [issuesAfter_eq]
    exact List.length_take_le _ _
  rw [List.getLast?_eq_getElem?, hlength, issuesAfter_eq,
    List.getElem?_take_of_lt (by decide), List.getElem?_drop] at hlast
  apply List.mem_of_getElem? (i := 0)
  rw [List.getElem?_drop]
  exact hlast

theorem mem_deliveredBefore {issue : Issue} :
    issue ∈ deliveredBefore tie db projectId clock since n ↔
      ∃ i < n, ∃ cursor, cursorAt tie db projectId clock since i = some cursor ∧
        clock i - eraseGrace ≤ cursor ∧ issue ∈ issuesAfter db projectId cursor := by
  unfold deliveredBefore
  rw [List.mem_flatMap]
  apply exists_congr
  intro i
  rw [List.mem_range]
  apply and_congr_right
  intro _
  cases hdelta : deltaAt tie db projectId clock since i with
  | none =>
    simp only [Option.map_none, Option.getD_none, List.not_mem_nil, false_iff, not_exists,
      not_and]
    intro cursor hcursor hgrace
    have hsome := deltaAt_eq_some_iff.2 ⟨cursor, hcursor, hgrace, rfl⟩
    rw [hdelta] at hsome
    cases hsome
  | some delta =>
    obtain ⟨cursor, hcursor, hgrace, rfl⟩ := deltaAt_eq_some_iff.1 hdelta
    simp only [Option.map_some, Option.getD_some, hcursor, Option.some.injEq, exists_eq_left']
    exact (and_iff_right hgrace).symm

theorem mem_deliveredBefore_succ {issue : Issue}
    (hdelta : deltaAt tie db projectId clock since n = some delta) :
    issue ∈ deliveredBefore tie db projectId clock since (n + 1) ↔
      issue ∈ deliveredBefore tie db projectId clock since n ∨ issue ∈ delta.issues := by
  unfold deliveredBefore
  rw [List.range_succ, List.flatMap_append, List.mem_append, List.flatMap_singleton, hdelta]
  rfl

/-- A round with more to come delivers an issue that none has delivered before. -/
theorem undelivered_shrinks (hfree : ¬ Crowded db projectId since)
    (hdelta : deltaAt tie db projectId clock since n = some delta) (hmore : delta.hasMore = true) :
    (undelivered tie db projectId clock since (n + 1)).length <
      (undelivered tie db projectId clock since n).length := by
  obtain ⟨cursor, hcursor, hgrace, rfl⟩ := deltaAt_eq_some_iff.1 hdelta
  obtain ⟨hfull, last, hlast, _, _⟩ := nextCursor_eq tie (db.at (clock n)) hmore
  have hmem : last ∈ issuesAfter db projectId cursor := List.mem_of_getLast? hlast
  obtain ⟨hlive, hnewer⟩ := mem_issuesAfter hmem
  have hsince := (cursor_progress hfree n hcursor).1
  have hnew : last ∉ deliveredBefore tie db projectId clock since n := by
    intro hdelivered
    obtain ⟨i, hi, earlier, hearlier, _, hpage⟩ := mem_deliveredBefore.1 hdelivered
    have hbehind := behind_lt hfree hi hearlier hcursor
    -- the pages before end before the last issue of this one
    rw [issuesAfter_eq, List.take_drop] at hpage
    have htake := List.mem_of_mem_drop hpage
    exact List.disjoint_take_drop (liveByModified_nodup db projectId) (by omega) htake
      (last_mem_drop hfull hlast)
  have hrest : undelivered tie db projectId clock since (n + 1) =
      (undelivered tie db projectId clock since n).filter fun issue =>
        decide (issue ∉ issuesAfter db projectId cursor) := by
    unfold undelivered
    rw [List.filter_filter]
    apply List.filter_congr
    intro issue _
    rw [← Bool.decide_and, decide_eq_decide, mem_deliveredBefore_succ hdelta, not_or]
    change _ ∧ _ ∧ issue ∉ issuesAfter db projectId cursor ↔ _
    rw [← and_assoc, and_comm]
  rw [hrest, List.length_filter_lt_length_iff_exists]
  refine ⟨last, List.mem_filter.mpr ⟨hlive, ?_⟩, by simpa using hmem⟩
  exact decide_eq_true ⟨by omega, hnew⟩

/-- Each round with more to come makes the undelivered issues fewer. -/
def Shrinks (tie : Issue → Nat) (db : Db) (projectId : Uuid) (clock : Nat → Int) (since : Int) :
    Prop :=
  ∀ n delta, deltaAt tie db projectId clock since n = some delta → delta.hasMore = true →
    (undelivered tie db projectId clock since (n + 1)).length <
      (undelivered tie db projectId clock since n).length

end Calls

/-- The rounds shrink what is left and end if and only if no live issue newer
than the cursor is crowded and every call comes in time. -/
theorem delta_paging_terminates_iff (tie : Issue → Nat) (db : Db) (projectId : Uuid)
    (clock : Nat → Int) (since : Int) :
    Shrinks tie db projectId clock since ∧ Completes tie db projectId clock since ↔
      ¬ Crowded db projectId since ∧ InTime tie db projectId clock since := by
  constructor
  · rintro ⟨_, hcompletes⟩
    exact ⟨fun hcrowded => not_completes_of_crowded hcrowded hcompletes,
      inTime_of_completes hcompletes⟩
  · rintro ⟨hfree, htime⟩
    exact ⟨fun n delta => undelivered_shrinks hfree, completes_of_uncrowded hfree htime⟩

/-- A page of issues that one statement wrote. -/
def burstDb (count : Nat) : Db where
  milestones := .empty
  epics := .empty
  issues := ⟨(List.range count).map fun id => ⟨id, 9, none, none, none, 1, 1, none⟩, by
    rw [List.map_map]
    exact (List.nodup_range).map fun _ _ h => h⟩
  now := 1

theorem burst_crowded {count : Nat} (hcount : deltaPageLimit ≤ count) :
    Crowded (burstDb count) 9 0 := by
  have hall : ∀ other ∈ (burstDb count).issues.rows,
      inProject 9 other = true ∧ other.modifiedAt = 1 := by
    intro other hother
    obtain ⟨id, _, rfl⟩ := List.mem_map.mp hother
    exact ⟨rfl, rfl⟩
  have hpos : 0 < count := lt_of_lt_of_le (by decide) hcount
  refine ⟨⟨0, 9, none, none, none, 1, 1, none⟩, ?_, by decide, ?_⟩
  · exact mem_liveByModified.mpr ⟨List.mem_map.mpr ⟨0, List.mem_range.mpr hpos, rfl⟩, rfl⟩
  · have hcrowd : crowd (burstDb count) 9 ⟨0, 9, none, none, none, 1, 1, none⟩ =
        (burstDb count).issues.rows.length := by
      rw [crowd_eq, List.countP_eq_length]
      intro other hother
      obtain ⟨hin, hmodified⟩ := hall other hother
      rw [hin, hmodified]
      rfl
    have hlength : (burstDb count).issues.rows.length = count :=
      (List.length_map _).trans List.length_range
    rw [hcrowd, hlength]
    exact hcount

theorem paging_stuck_on_burst :
    ¬ ∀ (tie : Issue → Nat) (db : Db) (projectId : Uuid) (clock : Nat → Int) (since : Int),
      Shrinks tie db projectId clock since ∧ Completes tie db projectId clock since := by
  intro h
  exact not_completes_of_crowded (burst_crowded (le_refl 500))
    (h (fun _ => 0) (burstDb 500) 9 (fun _ => 1) 0).2

end IntelliPilot.Backlog
