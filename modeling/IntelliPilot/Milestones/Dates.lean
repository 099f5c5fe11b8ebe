import IntelliPilot.Milestones.Handlers

/-! # Milestone dates

The dates of every milestone stay in order, no request ends in an error of the
database, and no stored row stands in the way of an edit, in exactly the runs
whose requests respect three things the handlers do not check.
-/

namespace IntelliPilot.Milestones

open Http Statement
open Backlog.Api (ensure_eq_ok ensure_eq_error bind_eq_ok bind_eq_error)

/-! ## The rules -/

theorem datesOk_iff {start finish : Option Date} :
    datesOk start finish = true ↔ ∀ s ∈ start, ∀ e ∈ finish, s ≤ e := by
  cases start <;> cases finish <;> simp [datesOk]

theorem businessReleaseOk_iff {finish business : Option Date} :
    businessReleaseOk finish business = true ↔ ∀ b ∈ business, ∃ e ∈ finish, e < b := by
  cases business <;> cases finish <;> simp [businessReleaseOk]

/-- The dates of a milestone are in order. -/
structure Consistent (row : Milestone) : Prop where
  startEnd : ∀ s ∈ row.startDate, ∀ e ∈ row.endDate, s ≤ e
  startActualEnd : ∀ s ∈ row.startDate, ∀ e ∈ row.actualEndDate, s ≤ e
  actualRange : ∀ s ∈ row.actualStartDate, ∀ e ∈ row.actualEndDate, s ≤ e
  business : ∀ b ∈ row.businessReleaseDate,
    ∃ e ∈ effectiveEnd row.endDate row.actualEndDate, e < b

/-- The patch sets one of the dates that the rule behind the refusal compares. -/
def Mentions (req : UpdateMilestoneRequest) (problem : Problem) : Prop :=
  problem = invalidDates "end_date must be on or after start_date" ∧
      (req.startDate.isSome ∨ req.endDate.isSome) ∨
    problem = invalidDates "actual_end_date must be on or after start_date" ∧
      (req.startDate.isSome ∨ req.actualEndDate.isSome) ∨
    problem = invalidDates actualRangeRule ∧
      (req.actualStartDate.isSome ∨ req.actualEndDate.isSome) ∨
    problem = invalidDates businessReleaseRule ∧
      (req.businessReleaseDate.isSome ∨ req.endDate.isSome ∨ req.actualEndDate.isSome)

/-- No edit is refused for dates it does not set. -/
def Editable (row : Milestone) : Prop :=
  ∀ req problem, validateDates row req = .error problem → Mentions req problem

variable {row : Milestone} {req : UpdateMilestoneRequest}

/-- An edit that sets no date is not refused for one. -/
theorem Editable.unrelated (h : Editable row) (hstart : req.startDate = none)
    (hactualStart : req.actualStartDate = none) (hend : req.endDate = none)
    (hactualEnd : req.actualEndDate = none) (hbusiness : req.businessReleaseDate = none) :
    validateDates row req = .ok () := by
  cases hvalid : validateDates row req with
  | ok u => rfl
  | error problem =>
    have hmentions := h req problem hvalid
    simp [Mentions, hstart, hactualStart, hend, hactualEnd, hbusiness] at hmentions

theorem effectiveEnd_eq (planned actual : Option Date) :
    effectiveEnd planned actual = actual.or planned := by
  cases actual <;> rfl

theorem Consistent.editable (h : Consistent row) : Editable row := by
  intro req problem hrefused
  have hstartEnd := datesOk_iff.mpr h.startEnd
  have hstartActual := datesOk_iff.mpr h.startActualEnd
  have hrange := datesOk_iff.mpr h.actualRange
  have hbusiness := businessReleaseOk_iff.mpr h.business
  simp only [validateDates, bind_eq_error, ensure_eq_error] at hrefused
  -- a rule that compares only stored dates holds of the row
  rcases hrefused with ⟨hrule, rfl⟩ | ⟨_, _, ⟨hrule, rfl⟩ | ⟨_, _, ⟨hrule, rfl⟩ | ⟨_, _, hrule, rfl⟩⟩⟩
  · left
    refine ⟨rfl, ?_⟩
    by_contra hunset
    simp only [not_or, Option.not_isSome_iff_eq_none] at hunset
    simp [hunset, hstartEnd] at hrule
  · right; left
    refine ⟨rfl, ?_⟩
    by_contra hunset
    simp only [not_or, Option.not_isSome_iff_eq_none] at hunset
    simp [hunset, hstartActual] at hrule
  · right; right; left
    refine ⟨rfl, ?_⟩
    by_contra hunset
    simp only [not_or, Option.not_isSome_iff_eq_none] at hunset
    simp [hunset, hrange] at hrule
  · right; right; right
    refine ⟨rfl, ?_⟩
    by_contra hunset
    simp only [not_or, Option.not_isSome_iff_eq_none] at hunset
    simp only [hunset, Option.getD_none] at hrule
    split at hrule
    · simp [businessReleaseOk] at hrule
    · rw [hbusiness] at hrule
      contradiction

/-- Every stored milestone has its dates in order and can be edited. -/
def Sound (db : Db) : Prop := ∀ row ∈ db.milestones.rows, Consistent row ∧ Editable row

variable {db : Db}

theorem sound_iff : Sound db ↔ ∀ row ∈ db.milestones.rows, Consistent row := by
  constructor
  · exact fun h row hrow => (h row hrow).1
  · exact fun h row hrow => ⟨h row hrow, (h row hrow).editable⟩

/-! ## The constraints -/

theorem checkRow_ok_iff {u : Unit} : checkRow row = .ok u ↔
    datesOk row.actualStartDate row.actualEndDate = true ∧
      businessReleaseOk (effectiveEnd row.endDate row.actualEndDate) row.businessReleaseDate =
        true := by
  have hbusiness : businessReleaseAfterEnd row =
      businessReleaseOk (effectiveEnd row.endDate row.actualEndDate) row.businessReleaseDate := by
    rw [effectiveEnd_eq]
    rfl
  have hrange : actualEndAfterActualStart row =
      datesOk row.actualStartDate row.actualEndDate := by
    rw [actualEndAfterActualStart]
    cases row.actualStartDate <;> cases row.actualEndDate <;> rfl
  rw [checkRow, hbusiness, hrange]
  cases businessReleaseOk _ _ <;> cases datesOk _ _ <;> simp

theorem Consistent.checkRow (h : Consistent row) : checkRow row = .ok () :=
  checkRow_ok_iff.mpr ⟨datesOk_iff.mpr h.actualRange, businessReleaseOk_iff.mpr h.business⟩

/-- A rewritten row is in order where the new row is. -/
theorem writeRow_consistent (f : Milestone → Milestone) (hf : ∀ row, (f row).id = row.id)
    (hsound : Sound db) (hrow : row ∈ db.milestones.rows) (hnew : Consistent (f row)) :
    ∃ db', writeRow f hf row db = .ok (f row, db') ∧ Sound db' := by
  refine ⟨_, by rw [writeRow, hnew.checkRow]; rfl, sound_iff.mpr ?_⟩
  intro written hwritten
  obtain ⟨old, hold, rfl⟩ := Rows.mem_updateWhere.mp hwritten
  split
  · rename_i hid
    rw [Rows.eq_of_nodup_map db.milestones.nodup hold hrow (by simpa using hid)]
    exact hnew
  · exact (hsound old hold).1

variable {projectId : Uuid}

theorem get_eq_some {id : Uuid} (h : get db projectId id = some row) : row ∈ db.milestones.rows :=
  Table.mem_of_find? (Option.filter_eq_some_iff.mp h).1

/-! ## Completion -/

theorem Consistent.closeRow (h : Consistent row) (now : Int) :
    Consistent (closeRow now row) := by
  obtain ⟨hstartEnd, hstartActual, hrange, hbusiness⟩ := h
  unfold Milestones.closeRow
  cases hactual : row.actualEndDate with
  | some actual => exact ⟨hstartEnd, by simpa [hactual] using hstartActual,
      by simpa [hactual] using hrange, by simpa [hactual] using hbusiness⟩
  | none =>
    simp only [Option.isSome_none, Bool.false_eq_true, if_false]
    rw [hactual] at hbusiness
    split
    · rename_i hstarted
      refine ⟨hstartEnd, hstartEnd, ?_, ?_⟩
      · intro s hs e he
        have hs : row.actualStartDate = some s := hs
        have he : row.endDate = some e := he
        rw [hs, he] at hstarted
        exact of_decide_eq_true hstarted
      · intro b hb
        obtain ⟨e, he, hlt⟩ := hbusiness b hb
        refine ⟨e, ?_, hlt⟩
        rw [effectiveEnd_eq]
        simpa [effectiveEnd] using he
    · exact ⟨hstartEnd, by simp, by simp, hbusiness⟩

theorem Consistent.reopenRow (h : Consistent row) : Consistent (reopenRow row) :=
  ⟨h.startEnd, h.startActualEnd, h.actualRange, h.business⟩

/-- Completing and reopening a milestone keep its dates in order. -/
theorem setCompleted_sound (hsound : Sound db) (caller : Caller) (projectId id : Uuid)
    (completed : Bool) : Sound (setCompleted caller projectId id completed db).2 ∧
      (setCompleted caller projectId id completed db).1 ≠ .error internal := by
  unfold setCompleted
  split
  · exact ⟨hsound, by simp [forbidden, internal]⟩
  · split
    · exact ⟨hsound, by simp [notFound, internal]⟩
    · rename_i row hget
      have hrow := get_eq_some hget
      have hnow := (hsound row hrow).1
      cases completed with
      | true =>
        obtain ⟨db', hwrite, hsound'⟩ := writeRow_consistent
          (Milestones.closeRow db.now) (fun _ => rfl) hsound hrow (hnow.closeRow db.now)
        simp [hwrite, hsound']
      | false =>
        obtain ⟨db', hwrite, hsound'⟩ := writeRow_consistent
          Milestones.reopenRow (fun _ => rfl) hsound hrow hnow.reopenRow
        simp [hwrite, hsound']

/-! ## Creation -/

variable {caller : Caller}

theorem admitCreate_ok {body : Except Problem CreateMilestoneRequest} {req : CreateMilestoneRequest}
    (h : admitCreate caller body = .ok req) :
    datesOk req.startDate req.endDate = true ∧
      datesOk req.actualStartDate req.actualEndDate = true ∧
      businessReleaseOk (effectiveEnd req.endDate req.actualEndDate) req.businessReleaseDate =
        true := by
  simp only [admitCreate, bind_eq_ok, ensure_eq_ok, pure, Except.pure, Except.ok.injEq] at h
  obtain ⟨_, _, found, _, _, _, _, _, _, hstartEnd, _, hrange, _, hbusiness, rfl⟩ := h
  exact ⟨hstartEnd, hrange, hbusiness⟩

/-- A body that passes is created in order if its slug fits and either is taken
or comes with a start no later than the actual end. -/
theorem create_iff {body : Except Problem CreateMilestoneRequest} {req : CreateMilestoneRequest}
    (hsound : Sound db) (hadmitted : admitCreate caller body = .ok req) :
    Sound (create caller projectId body db).2 ∧
        (create caller projectId body db).1 ≠ .error internal ↔
      req.slugOrName.length ≤ 100 ∧ (slugTaken db projectId req.slugOrName = false →
        ∀ s ∈ req.startDate, ∀ e ∈ req.actualEndDate, s ≤ e) := by
  obtain ⟨hstartEnd, hrange, hbusiness⟩ := admitCreate_ok hadmitted
  have hcheck : checkRow (req.new.row db.milestones.fresh projectId) = .ok () :=
    checkRow_ok_iff.mpr ⟨hrange, hbusiness⟩
  have hslug : req.new.slug = req.slugOrName := rfl
  by_cases hlong : 100 < req.slugOrName.length
  · have hinsert : insertMilestone projectId req.new db = .error .valueTooLong := by
      rw [insertMilestone, hslug, if_pos hlong]
      rfl
    simp [create, hadmitted, hinsert, Nat.not_le.mpr hlong]
  · have hfits : req.slugOrName.length ≤ 100 := Nat.not_lt.mp hlong
    cases htaken : slugTaken db projectId req.slugOrName with
    | true =>
      have hinsert : insertMilestone projectId req.new db = .error .uniqueViolation := by
        simp [insertMilestone, hslug, hlong, htaken, hcheck, bind, Except.bind, throw, throwThe,
          MonadExceptOf.throw]
      simp [create, hadmitted, hinsert, hfits, hsound, internal]
    | false =>
      obtain ⟨row, hrow⟩ : ∃ row, row = req.new.row db.milestones.fresh projectId := ⟨_, rfl⟩
      have hinsert : insertMilestone projectId req.new db = .ok (row, { db with
          milestones := db.milestones.insert row (hrow ▸ db.milestones.find?_fresh) }) := by
        subst hrow
        simp [insertMilestone, hslug, hlong, htaken, hcheck, bind, Except.bind, pure, Except.pure]
      have hnew : Consistent row ↔ ∀ s ∈ req.startDate, ∀ e ∈ req.actualEndDate, s ≤ e := by
        subst hrow
        constructor
        · exact fun h => h.startActualEnd
        · exact fun h => ⟨datesOk_iff.mp hstartEnd, h, datesOk_iff.mp hrange,
            businessReleaseOk_iff.mp hbusiness⟩
      rw [create, hadmitted]
      simp only [hinsert, hfits, true_and, forall_const, ne_eq, reduceCtorEq, not_false_eq_true,
        and_true]
      rw [← hnew, sound_iff]
      simp only [Table.insert, List.mem_append, List.mem_singleton]
      constructor
      · exact fun h => h row (.inr rfl)
      · rintro h old (hold | rfl)
        · exact (hsound old hold).1
        · exact h

/-! ## Edits -/

variable {header : Backlog.Api.IfMatch}

theorem admitUpdate_ok {id : Uuid} {body : Except Problem UpdateMilestoneRequest}
    {existing : Milestone}
    (h : admitUpdate caller projectId id header body db = .ok (existing, req)) :
    get db projectId id = some existing ∧ validateDates existing req = .ok () := by
  simp only [admitUpdate, bind_eq_ok, pure, Except.pure, Except.ok.injEq, Prod.mk.injEq] at h
  obtain ⟨_, _, found, _, _, _, row, hget, _, _, _, hvalid, rfl, rfl⟩ := h
  refine ⟨?_, hvalid⟩
  cases hfound : get db projectId id with
  | none => simp [hfound] at hget
  | some found => simpa [hfound] using hget

/-- The effective end of the row that the patch would produce. -/
def MilestonePatch.effectiveEnd (patch : MilestonePatch) (row : Milestone) : Option Date :=
  Milestones.effectiveEnd (patch.endDate.getD row.endDate)
    (patch.actualEndDate.getD row.actualEndDate)

/-- What the statement writes is what was validated, unless the patch sets a
business release on a milestone that is left without an end. -/
theorem apply_consistent (hvalid : validateDates row req = .ok ())
    (hend : req.effectiveEnd row = none → req.businessReleaseDate.join = none) :
    Consistent (req.apply row) := by
  simp only [validateDates, bind_eq_ok, ensure_eq_ok, datesOk_iff, businessReleaseOk_iff] at hvalid
  obtain ⟨_, hstartEnd, _, hstartActual, _, hrange, hbusiness⟩ := hvalid
  refine ⟨hstartEnd, hstartActual, hrange, ?_⟩
  have hwritten : (req.apply row).businessReleaseDate =
      if (req.effectiveEnd row).isNone then req.businessReleaseDate.join
      else req.businessReleaseDate.getD row.businessReleaseDate := by
    rw [MilestonePatch.effectiveEnd, effectiveEnd_eq, MilestonePatch.apply]
    cases req.businessReleaseDate with
    | none => simp
    | some business => simp
  intro b hb
  rw [hwritten] at hb
  cases heffective : req.effectiveEnd row with
  | none =>
    rw [heffective, Option.isNone_none, if_pos rfl, hend heffective] at hb
    contradiction
  | some e =>
    rw [heffective] at hb
    have hset : (Milestones.effectiveEnd (req.endDate.getD row.endDate)
        (req.actualEndDate.getD row.actualEndDate)).isNone = false := by
      rw [← MilestonePatch.effectiveEnd, heffective]
      rfl
    rw [hset] at hbusiness
    exact hbusiness b hb

/-- An edit that passes is carried out in order exactly where it sets no
business release on a milestone that is left without an end. -/
theorem update_iff {id : Uuid} {body : Except Problem UpdateMilestoneRequest} {existing : Milestone}
    (hsound : Sound db)
    (hadmitted : admitUpdate caller projectId id header body db = .ok (existing, req)) :
    Sound (update caller projectId id header body db).2 ∧
        (update caller projectId id header body db).1 ≠ .error internal ↔
      (req.effectiveEnd existing = none → req.businessReleaseDate.join = none) := by
  obtain ⟨hget, hvalid⟩ := admitUpdate_ok hadmitted
  by_cases hend : req.effectiveEnd existing = none → req.businessReleaseDate.join = none
  · obtain ⟨db', hwrite, hsound'⟩ := writeRow_consistent req.apply (fun _ => rfl) hsound
      (get_eq_some hget) (apply_consistent hvalid hend)
    have hupdate : updateMilestone projectId id existing.version req db =
        .ok (.updated (req.apply existing), db') := by
      simp [updateMilestone, hget, hwrite, bind, Except.bind, pure, Except.pure]
    simp only [update, hadmitted, hupdate, hsound', true_and, iff_true_right hend]
    simp
  · obtain ⟨hnone, hset⟩ := Classical.not_imp.mp hend
    have hcheck : ∃ e, checkRow (req.apply existing) = .error e := by
      cases hrow : checkRow (req.apply existing) with
      | error e => exact ⟨e, rfl⟩
      | ok u =>
        have hbusiness := businessReleaseOk_iff.mp (checkRow_ok_iff.mp hrow).2
        obtain ⟨b, hb⟩ := Option.ne_none_iff_exists'.mp hset
        have hb : (req.apply existing).businessReleaseDate = some b := by
          cases hpatch : req.businessReleaseDate with
          | none => simp [hpatch] at hb
          | some business => simpa [MilestonePatch.apply, hpatch] using hb
        obtain ⟨e, he, _⟩ := hbusiness b hb
        have hend : effectiveEnd (req.apply existing).endDate (req.apply existing).actualEndDate =
            none := hnone
        rw [hend] at he
        contradiction
    obtain ⟨e, hcheck⟩ := hcheck
    have hupdate : updateMilestone projectId id existing.version req db = .error e := by
      simp [updateMilestone, hget, writeRow, hcheck, bind, Except.bind]
    simp [update, hadmitted, hupdate, hend]

/-! ## Runs -/

/-- The request passes what its handler checks itself. -/
def Admitted (db : Db) : Request → Prop
  | .create caller _ body => ∃ req, admitCreate caller body = .ok req
  | .update caller projectId id header body =>
      ∃ found, admitUpdate caller projectId id header body db = .ok found
  | .close _ _ _ | .reopen _ _ _ => True

/-- A request that passes its own checks does not end in an error of the database. -/
def Accepted (db : Db) (entry : Int × Request) : Prop :=
  Admitted { db with now := entry.1 } entry.2 → server.answer db entry ≠ .error internal

/-- What the handlers leave unchecked: the length of a slug made from the name,
a start after the actual end at creation, and a business release for a
milestone that the same edit leaves without an end. -/
def Careful (db : Db) (entry : Int × Request) : Prop :=
  match entry.2 with
  | .create caller projectId body => ∀ req, admitCreate caller body = .ok req →
      req.slugOrName.length ≤ 100 ∧ (slugTaken db projectId req.slugOrName = false →
        ∀ s ∈ req.startDate, ∀ e ∈ req.actualEndDate, s ≤ e)
  | .update caller projectId id header body => ∀ existing req,
      admitUpdate caller projectId id header body db = .ok (existing, req) →
        req.effectiveEnd existing = none → req.businessReleaseDate.join = none
  | .close _ _ _ | .reopen _ _ _ => True

theorem request_iff {entry : Int × Request} (hsound : Sound db) :
    Sound (server.next db entry) ∧ Accepted db entry ↔ Careful db entry := by
  obtain ⟨now, request⟩ := entry
  have hnow : Sound { db with now := now } := hsound
  simp only [Server.next, server, Accepted, Server.answer, Careful]
  cases request with
  | create caller projectId body =>
    simp only [handle, Admitted]
    cases hadmitted : admitCreate caller body with
    | error problem => simp [create, hadmitted, hnow]
    | ok req =>
      simp only [Except.ok.injEq, exists_eq', forall_const, forall_eq']
      exact create_iff hnow hadmitted
  | update caller projectId id header body =>
    simp only [handle, Admitted]
    cases hadmitted : admitUpdate caller projectId id header body { db with now := now } with
    | error problem =>
      have hrefused : admitUpdate caller projectId id header body db = .error problem := hadmitted
      simp [update, hadmitted, hrefused, hnow]
    | ok found =>
      obtain ⟨existing, req⟩ := found
      have hfound : admitUpdate caller projectId id header body db = .ok (existing, req) :=
        hadmitted
      have hiff := update_iff hnow hadmitted
      simpa [hfound] using hiff
  | close caller projectId id =>
    simp [handle, Admitted, setCompleted_sound hnow caller projectId id true]
  | reopen caller projectId id =>
    simp [handle, Admitted, setCompleted_sound hnow caller projectId id false]

/-- A milestone that starts on day 10 and actually ended on day 5. -/
def backwardsMilestone : Request :=
  .create {} 9 (.ok { name := "Beta", startDate := some 10, actualEndDate := some 5 })

/-- A new name for it. -/
def renameMilestone : Request :=
  .update {} 9 1 .any (.ok { name := some "Release" })

/-- A milestone without dates, and a business release for it. -/
def releaseWithoutEnd : List (Int × Request) :=
  [(0, .create {} 9 (.ok { name := "Beta" })),
    (1, .update {} 9 1 .any (.ok { businessReleaseDate := some (some 20) }))]

end IntelliPilot.Milestones
