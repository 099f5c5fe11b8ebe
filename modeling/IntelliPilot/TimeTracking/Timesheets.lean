import IntelliPilot.TimeTracking.Bookings
import Mathlib

/-! # Timesheets

The working days of a month, and which of them a user has filled. The end of a
month is found from the first of the next one, which the calendar has to have.
Dates are left unformatted.
-/

namespace IntelliPilot.TimeTracking.Timesheets

structure User where
  id : Uuid
  workMinutesPerDay : Int
  deleted : Bool
  excludeFromTimeReports : Bool

structure Entry where
  userId : Uuid
  entryDate : Date
  minutes : Int

structure Tables where
  users : List User
  entries : List Entry

structure TimesheetSummary where
  year : Int
  month : Nat
  workMinutesPerDay : Int
  loggedMinutes : Int
  requiredMinutes : Int
  workingDays : Int
  completeDays : Int
  missingDays : List Date
  deriving DecidableEq

/-! ## Months -/

def isLeap (year : Int) : Bool := year % 4 == 0 && (year % 100 != 0 || year % 400 == 0)

def daysInMonth (year : Int) (month : Nat) : Int :=
  if month = 2 then if isLeap year then 29 else 28
  else if month ∈ [4, 6, 9, 11] then 30 else 31

/-- The number of the first day of a month. -/
def firstDay (year : Int) (month : Nat) : Int :=
  365 * (year - 1) + (year - 1) / 4 - (year - 1) / 100 + (year - 1) / 400 - 719162 +
    ((List.range month).tail.map (daysInMonth year)).sum

example : yearMonth (firstDay 2024 3) = (2024, 3) ∧
    yearMonth (firstDay 2024 3 - 1) = (2024, 2) := by decide

/-- `Date::from_calendar_date` of the first of a month. -/
def monthStart (year : Int) (month : Nat) : Option Date :=
  if -9999 ≤ year ∧ year ≤ 9999 ∧ 1 ≤ month ∧ month ≤ 12 then some (firstDay year month) else none

def monthEnd (year : Int) (month : Nat) : Option Date :=
  (monthStart (if month = 12 then year + 1 else year) (if month = 12 then 1 else month + 1)).map
    (· - 1)

/-! ## The summary -/

variable (db : Tables) (userId : Uuid)

/-- The user's entries of a day. -/
def loggedOn (date : Date) : Int :=
  ((db.entries.filter fun e => e.userId == userId && e.entryDate == date).map (·.minutes)).sum

/-- `minutes_by_date`; the database has no date before the first one that it stores. -/
def minutesByDate (start finish : Date) : Option (List (Date × Int)) :=
  if start < firstStoredDate then none
  else
    let dates := (db.entries.filter fun e =>
      e.userId == userId && (decide (start ≤ e.entryDate) && decide (e.entryDate ≤ finish))).map
        (·.entryDate)
    some (dates.dedup.map fun date => (date, loggedOn db userId date))

structure Counts where
  workingDays : Int := 0
  completeDays : Int := 0
  missingDays : List Date := []

/-- One round of the loop over the days. -/
def Counts.day (target : Int) (excluded : Bool) (byDate : List (Date × Int)) (c : Counts)
    (d : Date) : Counts :=
  if isWorkingDay d then
    if target ≤ (byDate.lookup d).getD 0 then
      { c with workingDays := c.workingDays + 1, completeDays := c.completeDays + 1 }
    else if !excluded then
      { c with workingDays := c.workingDays + 1, missingDays := c.missingDays ++ [d] }
    else { c with workingDays := c.workingDays + 1 }
  else c

/-- The days that the loop goes through. -/
def days (start upto : Date) : List Date :=
  (List.range (upto - start + 1).toNat).map fun n : Nat => start + (n : Int)

def target : Int :=
  ((db.users.find? fun u => u.id == userId && !u.deleted).map (·.workMinutesPerDay)).getD 480

def excluded : Bool := (db.users.find? (·.id == userId)).any (·.excludeFromTimeReports)

def timesheetSummary (year : Int) (month : Nat) (today : Date) : Option TimesheetSummary := do
  let start ← monthStart year month
  let finish ← monthEnd year month
  let byDate ← minutesByDate db userId start finish
  let upto := if today < finish then today else finish
  let c := (days start upto).foldl (Counts.day (target db userId) (excluded db userId) byDate) {}
  return ⟨year, month, target db userId, (byDate.map (·.2)).sum,
    c.workingDays * target db userId, c.workingDays, c.completeDays, c.missingDays⟩

/-- Monday to Friday, from the first of the month to its end or today. -/
noncomputable def workingDays (year : Int) (month : Nat) (today : Date) : Finset Date :=
  (Finset.Icc (firstDay year month)
    (min (firstDay year month + daysInMonth year month - 1) today)).filter (isWorkingDay ·)

/-- Those of the days that the user has filled. -/
def filled (days : Finset Date) : Finset Date :=
  days.filter (target db userId ≤ loggedOn db userId ·)

/-- What a summary has to say. -/
structure Reports (year : Int) (month : Nat) (today : Date) (s : TimesheetSummary) : Prop where
  working : s.workingDays = (workingDays year month today).card
  complete : s.completeDays = (filled db userId (workingDays year month today)).card
  missing : s.missingDays.Nodup
  partition : excluded db userId = false →
    Disjoint (filled db userId (workingDays year month today)) s.missingDays.toFinset ∧
      filled db userId (workingDays year month today) ∪ s.missingDays.toFinset =
        workingDays year month today
  required : s.requiredMinutes = s.workingDays * target db userId

variable {db userId} {year : Int} {month : Nat}

theorem firstDay_succ (hmonth : 1 ≤ month) :
    firstDay year (month + 1) = firstDay year month + daysInMonth year month := by
  have htail : (List.range (month + 1)).tail = (List.range month).tail ++ [month] := by
    rw [List.range_succ, List.tail_append_of_ne_nil (by simpa using Nat.ne_of_gt hmonth)]
  simp only [firstDay, htail, List.map_append, List.sum_append, List.map_singleton,
    List.sum_singleton]
  exact (Int.add_assoc _ _ _).symm

theorem firstDay_next_year : firstDay (year + 1) 1 = firstDay year 12 + 31 := by
  have hdays : ((List.range 12).tail.map (daysInMonth year)).sum =
      if isLeap year then 335 else 334 := by
    cases hleap : isLeap year <;> simp [List.range, List.range.loop, daysInMonth, hleap]
  have hnone : ((List.range 1).tail.map (daysInMonth (year + 1))).sum = 0 := rfl
  have hfour : (year - 1) / 4 = year / 4 - if year % 4 = 0 then 1 else 0 := by
    split <;> omega
  have hhundred : (year - 1) / 100 = year / 100 - if year % 100 = 0 then 1 else 0 := by
    split <;> omega
  have hcycle : (year - 1) / 400 = year / 400 - if year % 400 = 0 then 1 else 0 := by
    split <;> omega
  simp only [firstDay, hdays, hnone, hfour, hhundred, hcycle, Int.add_sub_cancel, isLeap,
    Bool.and_eq_true, Bool.or_eq_true, bne_iff_ne, beq_iff_eq, ne_eq]
  split_ifs <;> omega

/-- The month ends with its last day, unless the calendar ends with it. -/
theorem monthEnd_eq (hlow : -9999 ≤ year) (hhigh : year ≤ 9999) (hfirst : 1 ≤ month)
    (hlast : month ≤ 12) : monthEnd year month =
      if year = 9999 ∧ month = 12 then none
      else some (firstDay year month + daysInMonth year month - 1) := by
  unfold monthEnd monthStart
  by_cases hdecember : month = 12
  · subst hdecember
    have hdays : daysInMonth year 12 = 31 := rfl
    rw [if_pos rfl, if_pos rfl, firstDay_next_year, hdays]
    by_cases hyear : year = 9999
    · rw [if_neg (by omega), if_pos ⟨hyear, rfl⟩]
      rfl
    · rw [if_pos (by omega), if_neg (by omega)]
      rfl
  · rw [if_neg hdecember, if_neg hdecember, if_pos (by omega), if_neg (by omega),
      firstDay_succ hfirst]
    rfl

theorem lookup_map {l : List Date} {f : Date → Int} {d : Date} :
    ((l.map fun d => (d, f d)).lookup d) = if d ∈ l then some (f d) else none := by
  induction l with
  | nil => rfl
  | cons e l ih =>
    rw [List.map_cons, List.lookup_cons, ih]
    by_cases hd : d = e
    · simp [hd]
    · simp [hd, beq_false_of_ne hd]

theorem loggedOn_of_lookup {start finish d : Date} {byDate : List (Date × Int)}
    (h : minutesByDate db userId start finish = some byDate) (hstart : start ≤ d)
    (hfinish : d ≤ finish) : (byDate.lookup d).getD 0 = loggedOn db userId d := by
  rw [minutesByDate] at h
  split at h
  · contradiction
  · obtain rfl := Option.some.inj h
    rw [lookup_map]
    split
    · rfl
    · rename_i hnone
      have hempty : db.entries.filter (fun e => e.userId == userId && e.entryDate == d) = [] := by
        rw [List.filter_eq_nil_iff]
        intro e he hmatch
        rw [Bool.and_eq_true, beq_iff_eq, beq_iff_eq] at hmatch
        apply hnone
        simp only [List.mem_dedup, List.mem_map, List.mem_filter]
        exact ⟨e, ⟨he, by simp [hmatch.1, hmatch.2, hstart, hfinish]⟩, hmatch.2⟩
      rw [loggedOn, hempty]
      rfl

/-- The loop counts each working day, and each in one of the two ways. -/
theorem foldl_day (target : Int) (excluded : Bool) (byDate : List (Date × Int)) (l : List Date)
    (c : Counts) : l.foldl (Counts.day target excluded byDate) c =
      ⟨c.workingDays + (l.filter (isWorkingDay ·)).length,
        c.completeDays + (l.filter fun d =>
          isWorkingDay d && decide (target ≤ (byDate.lookup d).getD 0)).length,
        c.missingDays ++ l.filter fun d =>
          isWorkingDay d && (!decide (target ≤ (byDate.lookup d).getD 0) && !excluded)⟩ := by
  induction l generalizing c with
  | nil => simp
  | cons d l ih =>
    rw [List.foldl_cons, ih, Counts.day]
    by_cases hwork : isWorkingDay d = true
    · by_cases hfull : target ≤ (byDate.lookup d).getD 0
      · simp [hwork, hfull, Int.add_assoc, Int.add_comm 1]
      · cases excluded <;> simp [hwork, hfull, Int.add_assoc, Int.add_comm 1]
    · simp [hwork]

theorem days_eq (start upto : Date) : days start upto = bookedDays start upto false := by
  simp [days, bookedDays]

theorem mem_days {start upto d : Date} : d ∈ days start upto ↔ start ≤ d ∧ d ≤ upto := by
  rw [days_eq, mem_bookedDays]
  simp [Books]

theorem nodup_days (start upto : Date) : (days start upto).Nodup := by
  rw [days_eq]
  exact nodup_bookedDays

/-- A month is summed up if it and the next one are in the calendar and its days can be stored. -/
def Served (year : Int) (month : Nat) : Prop :=
  (-9999 ≤ year ∧ year ≤ 9999 ∧ 1 ≤ month ∧ month ≤ 12) ∧ ¬(year = 9999 ∧ month = 12) ∧
    firstStoredDate ≤ firstDay year month

/-- A timesheet is summed up as it has to be, exactly for the months that are served. -/
theorem summary_iff (db : Tables) (userId : Uuid) (year : Int) (month : Nat) (today : Date) :
    (∃ s, timesheetSummary db userId year month today = some s ∧
      Reports db userId year month today s) ↔ Served year month := by
  constructor
  · rintro ⟨s, hs, -⟩
    simp only [timesheetSummary, Option.bind_eq_bind, Option.bind_eq_some_iff] at hs
    obtain ⟨start, hstart, finish, hfinish, byDate, hbyDate, -⟩ := hs
    rw [monthStart, Option.ite_none_right_eq_some] at hstart
    obtain ⟨hmonth, hstart⟩ := hstart
    refine ⟨hmonth, ?_, ?_⟩
    · intro hlast
      rw [monthEnd_eq hmonth.1 hmonth.2.1 hmonth.2.2.1 hmonth.2.2.2, if_pos hlast] at hfinish
      contradiction
    · rw [minutesByDate, ← Option.some.inj hstart, Option.ite_none_left_eq_some] at hbyDate
      exact Int.not_lt.mp hbyDate.1
  · rintro ⟨hmonth, hlast, hstored⟩
    have hfinish := monthEnd_eq hmonth.1 hmonth.2.1 hmonth.2.2.1 hmonth.2.2.2
    rw [if_neg hlast] at hfinish
    generalize hend : firstDay year month + daysInMonth year month - 1 = finish at hfinish
    obtain ⟨byDate, hbyDate⟩ : ∃ byDate,
        minutesByDate db userId (firstDay year month) finish = some byDate := by
      rw [minutesByDate, if_neg (Int.not_lt.mpr hstored)]
      exact ⟨_, rfl⟩
    have hlogged : ∀ d ∈ days (firstDay year month) (min finish today),
        (byDate.lookup d).getD 0 = loggedOn db userId d := by
      intro d hd
      obtain ⟨hlow, hhigh⟩ := mem_days.mp hd
      exact loggedOn_of_lookup hbyDate hlow (le_trans hhigh (min_le_left ..))
    have hupto : (if today < finish then today else finish) = min finish today := by
      rw [min_comm, min_def_lt]
    have hdays : workingDays year month today =
        ((days (firstDay year month) (min finish today)).filter (isWorkingDay ·)).toFinset := by
      ext d
      simp [workingDays, hend, mem_days]
    rw [timesheetSummary, monthStart, if_pos hmonth, hfinish]
    simp only [Option.bind_eq_bind, Option.bind_some, hbyDate, hupto, foldl_day]
    refine ⟨_, rfl, ?_⟩
    generalize hl : days (firstDay year month) (min finish today) = l at hlogged hdays ⊢
    have hnodup : l.Nodup := hl ▸ nodup_days _ _
    have hfilled : filled db userId (workingDays year month today) = (l.filter fun d =>
        isWorkingDay d && decide (target db userId ≤ (byDate.lookup d).getD 0)).toFinset := by
      ext d
      simp only [filled, hdays, Finset.mem_filter, List.mem_toFinset, List.mem_filter,
        Bool.and_eq_true, decide_eq_true_eq, and_assoc]
      exact and_congr_right fun hd => and_congr_right fun _ => by rw [hlogged d hd]
    constructor
    · rw [hdays, List.toFinset_card_of_nodup (hnodup.filter _)]
      exact Int.zero_add _
    · rw [hfilled, List.toFinset_card_of_nodup (hnodup.filter _)]
      exact Int.zero_add _
    · simpa using hnodup.filter _
    · intro hincluded
      rw [hfilled, hdays]
      constructor
      · rw [Finset.disjoint_left]
        intro d hfull hmissing
        simp only [List.nil_append, List.mem_toFinset, List.mem_filter, Bool.and_eq_true,
          Bool.not_eq_true'] at hfull hmissing
        exact Bool.false_ne_true (hmissing.2.2.1.symm.trans hfull.2.2)
      · ext d
        simp only [hincluded, List.nil_append, Finset.mem_union, List.mem_toFinset,
          List.mem_filter]
        grind
    · rfl

/-- The last month of the calendar has no summary. -/
theorem no_last_month : ¬∃ s, timesheetSummary ⟨[⟨7, 480, false, false⟩], []⟩ 7 9999 12 0 = some s ∧
    Reports ⟨[⟨7, 480, false, false⟩], []⟩ 7 9999 12 0 s := by
  rintro ⟨s, hs, -⟩
  exact absurd hs (by simp [timesheetSummary, monthStart, monthEnd])

end IntelliPilot.TimeTracking.Timesheets
