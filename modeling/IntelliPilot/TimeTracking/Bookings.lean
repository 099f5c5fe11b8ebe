import IntelliPilot.TimeTracking.Handlers

/-! # Bookings of absences

The rows that `create_booking` inserts. Its loop counts one day beyond the last
one of the range, which the calendar has to have.
-/

namespace IntelliPilot.TimeTracking

/-! ## The days of a booking -/

/-- The days from `start` to `finish` that a booking takes. -/
def bookedDays (start finish : Int) (skipWeekends : Bool) : List Int :=
  ((List.range (finish - start + 1).toNat).map fun n : Nat => start + (n : Int)).filter fun date =>
    !skipWeekends || isWorkingDay date

/-- The days of the range, or its working days. -/
def Books (start finish : Int) (skipWeekends : Bool) (day : Int) : Prop :=
  start ≤ day ∧ day ≤ finish ∧ (skipWeekends = true → isWorkingDay day = true)

instance (start finish : Int) (skipWeekends : Bool) :
    DecidablePred (Books start finish skipWeekends) :=
  fun _ => inferInstanceAs (Decidable (_ ∧ _ ∧ _))

variable {start finish : Int} {skipWeekends : Bool}

theorem mem_bookedDays {day : Int} :
    day ∈ bookedDays start finish skipWeekends ↔ Books start finish skipWeekends day := by
  unfold bookedDays Books
  rw [List.mem_filter, List.mem_map]
  constructor
  · rintro ⟨⟨n, hn, rfl⟩, hday⟩
    rw [List.mem_range] at hn
    refine ⟨by omega, by omega, fun hskip => ?_⟩
    simpa [hskip] using hday
  · rintro ⟨hlow, hhigh, hday⟩
    refine ⟨⟨(day - start).toNat, List.mem_range.mpr (by omega), by omega⟩, ?_⟩
    cases skipWeekends with
    | false => rfl
    | true => exact hday rfl

theorem nodup_bookedDays : (bookedDays start finish skipWeekends).Nodup := by
  apply List.Nodup.filter
  apply List.Nodup.map _ List.nodup_range
  intro a b hab
  dsimp only at hab
  omega

theorem bookedDays_cons (h : start ≤ finish) : bookedDays start finish skipWeekends =
    (if !skipWeekends || isWorkingDay start then [start] else []) ++
      bookedDays (start + 1) finish skipWeekends := by
  have hlength : (finish - start + 1).toNat = (finish - (start + 1) + 1).toNat + 1 := by omega
  have hshift : (fun n : Nat => start + (n : Int)) ∘ Nat.succ =
      fun n : Nat => start + 1 + (n : Int) := by
    funext n
    simp only [Function.comp_apply, Nat.succ_eq_add_one]
    omega
  unfold bookedDays
  rw [hlength, List.range_succ_eq_map, List.map_cons, List.map_map, hshift, List.filter_cons]
  have hzero : start + ((0 : Nat) : Int) = start := by omega
  rw [hzero]
  split <;> rfl

theorem bookedDays_nil (h : finish < start) : bookedDays start finish skipWeekends = [] := by
  have hlength : (finish - start + 1).toNat = 0 := by omega
  unfold bookedDays
  rw [hlength]
  rfl

/-! ## The loop -/

/-- The rows of some days, one after another. -/
def Db.insertDays (row : BookingRow) : List Date → Db → Except DbError (List TimeEntry × Db)
  | [], db => .ok ([], db)
  | date :: dates, db =>
      match db.insertDay row date with
      | .error e => .error e
      | .ok (entry, db) => (insertDays row dates db).map fun rest => (entry :: rest.1, rest.2)

/-- The loop inserts the days of the booking, and fails if the last of the range is that of the
calendar. -/
theorem bookFrom_eq (row : BookingRow) (hfinish : finish ≤ lastDate) (d : Int)
    (created : List TimeEntry) (db : Db) :
    db.bookFrom row finish skipWeekends d created =
      match db.insertDays row (bookedDays d finish skipWeekends) with
      | .error e => .error (.database e)
      | .ok (entries, db') =>
        if d ≤ finish ∧ finish = lastDate then .error .overflow
        else .ok (created ++ entries, db') := by
  generalize hn : (finish + 1 - d).toNat = n
  induction n generalizing d created db with
  | zero =>
    have hover : ¬ d ≤ finish := by omega
    rw [Db.bookFrom, if_neg hover, bookedDays_nil (by omega), Db.insertDays]
    dsimp only
    rw [if_neg fun h => hover h.1, List.append_nil]
  | succ n ih =>
    have hd : d ≤ finish := by omega
    have hrest : (finish + 1 - (d + 1)).toNat = n := by omega
    -- the day after is counted unless this is the last of the calendar
    have hlast : ∀ created : List TimeEntry, ∀ db : Db,
        (if d < lastDate then db.bookFrom row finish skipWeekends (d + 1) created
          else .error .overflow) =
        match db.insertDays row (bookedDays (d + 1) finish skipWeekends) with
        | .error e => .error (.database e)
        | .ok (entries, db') =>
          if finish = lastDate then .error .overflow else .ok (created ++ entries, db') := by
      intro created db
      by_cases hcalendar : d < lastDate
      · rw [if_pos hcalendar, ih (d + 1) created db hrest]
        by_cases hmore : d + 1 ≤ finish
        · simp only [hmore, true_and]
        · have hother : finish ≠ lastDate := by
            intro heq
            omega
          rw [bookedDays_nil (by omega)]
          simp [Db.insertDays, hother]
      · have hend : lastDate ≤ d := Int.not_lt.mp hcalendar
        have heq : finish = lastDate := Int.le_antisymm hfinish (Int.le_trans hend hd)
        rw [if_neg hcalendar, bookedDays_nil (by omega), Db.insertDays]
        dsimp only
        rw [if_pos heq]
    rw [Db.bookFrom, if_pos hd, bookedDays_cons hd]
    simp only [hd, true_and]
    by_cases hwork : (!skipWeekends || isWorkingDay d) = true
    · rw [if_pos hwork, if_pos hwork, List.singleton_append, Db.insertDays]
      cases db.insertDay row d with
      | error e => rfl
      | ok inserted =>
        obtain ⟨entry, db'⟩ := inserted
        dsimp only
        rw [hlast]
        cases db'.insertDays row (bookedDays (d + 1) finish skipWeekends) with
        | error e => rfl
        | ok rest => simp [Except.map]
    · rw [if_neg hwork, if_neg hwork, List.nil_append]
      exact hlast created db

variable {row : BookingRow}

/-- A booking succeeds exactly by inserting its days, unless it ends with the calendar. -/
theorem createBooking_ok_iff (horder : start ≤ finish) (hfinish : finish ≤ lastDate)
    {created : List TimeEntry} {db db' : Db} :
    db.createBooking row start finish skipWeekends = (.ok created, db') ↔
      db.insertDays row (bookedDays start finish skipWeekends) = .ok (created, db') ∧
        finish ≠ lastDate := by
  unfold Db.createBooking
  rw [bookFrom_eq row hfinish]
  cases db.insertDays row (bookedDays start finish skipWeekends) with
  | error e => simp
  | ok inserted =>
    by_cases hlast : finish = lastDate
    · simp [hlast, hlast ▸ horder]
    · simp [hlast, Prod.ext_iff]

/-- Rows that the table takes are all inserted, after those there are. -/
theorem insertDays_ok (hvalid : ∀ date, (row.entry date).valid = true) {dates : List Int}
    (hdates : ∀ date ∈ dates, firstStoredDate ≤ date) (db : Db) :
    ∃ entries db', db.insertDays row dates = .ok (entries, db') ∧
      db'.entries.rows = db.entries.rows ++ entries ∧
      entries.map (·.toNewEntry) = dates.map row.entry := by
  induction dates generalizing db with
  | nil => exact ⟨[], db, rfl, (List.append_nil _).symm, rfl⟩
  | cons date dates ih =>
    obtain ⟨hdate, hrest⟩ := List.forall_mem_cons.mp hdates
    obtain ⟨entry, db', hinsert, hrows, hentry⟩ : ∃ entry db', db.insertDay row date =
        .ok (entry, db') ∧ db'.entries.rows = db.entries.rows ++ [entry] ∧
          entry.toNewEntry = row.entry date := by
      unfold Db.insertDay
      rw [if_neg (Int.not_lt.mpr hdate)]
      unfold Db.createEntry
      rw [if_pos (hvalid date)]
      exact ⟨_, _, rfl, rfl, rfl⟩
    obtain ⟨entries, db'', hinserts, hrows', hentries⟩ := ih hrest db'
    refine ⟨entry :: entries, db'', ?_, ?_, ?_⟩
    · rw [Db.insertDays, hinsert]
      dsimp only
      rw [hinserts]
      rfl
    · rw [hrows', hrows, List.append_assoc, List.singleton_append]
    · rw [List.map_cons, List.map_cons, hentry, hentries]

/-- A day that the table cannot hold makes the booking fail. -/
theorem insertDays_error {dates : List Int} (h : ∃ date ∈ dates, date < firstStoredDate) (db : Db) :
    ∃ e, db.insertDays row dates = .error e := by
  induction dates generalizing db with
  | nil =>
    obtain ⟨date, hdate, _⟩ := h
    exact absurd hdate List.not_mem_nil
  | cons date dates ih =>
    rw [Db.insertDays]
    cases hinsert : db.insertDay row date with
    | error e => exact ⟨e, rfl⟩
    | ok inserted =>
      obtain ⟨early, hmem, hearly⟩ := h
      rcases List.mem_cons.mp hmem with rfl | hmem
      · unfold Db.insertDay at hinsert
        rw [if_pos hearly] at hinsert
        contradiction
      · obtain ⟨e, he⟩ := ih ⟨early, hmem, hearly⟩ inserted.2
        exact ⟨e, by simp [he, Except.map]⟩

/-! ## The range -/

/-- The booking inserts one row for each of its days, and no other. -/
def CoversRange (row : BookingRow) (start finish : Int) (skipWeekends : Bool) (db : Db) : Prop :=
  ∃ created db', db.createBooking row start finish skipWeekends = (.ok created, db') ∧
    db'.entries.rows = db.entries.rows ++ created ∧
    (∀ entry ∈ created, entry.toNewEntry = row.entry entry.entryDate) ∧
    ∀ day, (created.filter fun entry => entry.entryDate = day).length =
      if Books start finish skipWeekends day then 1 else 0

/-- One row for each of some days. -/
theorem length_filter_entryDate {entries : List TimeEntry} {dates : List Int}
    (h : entries.map (·.toNewEntry) = dates.map row.entry) (hdates : dates.Nodup) (day : Int) :
    (entries.filter fun entry => entry.entryDate = day).length = if day ∈ dates then 1 else 0 := by
  have hmap : entries.map (·.entryDate) = dates := by
    have hboth := congrArg (List.map NewEntry.entryDate) h
    rw [List.map_map, List.map_map] at hboth
    exact hboth.trans (List.map_id _)
  have hcount : (entries.filter fun entry => entry.entryDate = day).length = dates.count day := by
    rw [← hmap, ← List.countP_eq_length_filter, List.count, List.countP_map]
    apply List.countP_congr
    intro entry _
    simp
  rw [hcount]
  by_cases hday : day ∈ dates
  · rw [if_pos hday, List.count_eq_one_of_mem hdates hday]
  · rw [if_neg hday, List.count_eq_zero_of_not_mem hday]

/-- What the endpoint admits is an absence over a range of days. -/
theorem checkAbsence_ok {req : BookAbsenceRequest} {kind : EntryKind} {start finish : Int}
    (h : checkAbsence req = .ok (kind, start, finish)) :
    kind.isAbsence = true ∧ start ≤ finish := by
  unfold checkAbsence at h
  cases hkind : EntryKind.parse req.kind with
  | none =>
    rw [hkind] at h
    contradiction
  | some kind' =>
    rw [hkind] at h
    dsimp only at h
    cases habsence : kind'.isAbsence with
    | false =>
      rw [habsence] at h
      contradiction
    | true =>
      rw [habsence, if_pos rfl] at h
      cases hstart : req.startDate with
      | none =>
        rw [hstart] at h
        contradiction
      | some start' =>
        cases hend : req.endDate with
        | none =>
          rw [hstart, hend] at h
          contradiction
        | some finish' =>
          rw [hstart, hend] at h
          change (if finish' < start' then _ else _) = _ at h
          split at h
          next => contradiction
          next horder =>
            split at h
            next => contradiction
            next =>
              obtain ⟨rfl, hdates⟩ := Prod.mk.inj (Except.ok.inj h)
              obtain ⟨rfl, rfl⟩ := Prod.mk.inj hdates
              exact ⟨habsence, Int.not_lt.mp horder⟩

theorem valid_entry (hkind : row.kind.isAbsence = true) (hlow : 0 < row.minutesPerDay)
    (hhigh : row.minutesPerDay ≤ 1440) (date : Date) :
    (row.entry date).valid = true := by
  unfold NewEntry.valid BookingRow.entry
  cases hk : row.kind with
  | work | meeting => rw [hk] at hkind; contradiction
  | vacation | illness | dayOff | holiday => simp [hlow, hhigh]

/-- A week of vacation, from a Monday on. -/
def weekOff : BookAbsenceRequest where
  kind := "vacation"
  startDate := some 19723
  endDate := some 19729

def noEntries : Db :=
  ⟨Table.empty, Table.empty, [], fun _ _ => none, fun _ => none, fun _ => none⟩

end IntelliPilot.TimeTracking
