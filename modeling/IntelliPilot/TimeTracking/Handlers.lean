import IntelliPilot.Http.Problem
import IntelliPilot.Relational.Table
import IntelliPilot.Statement.Handlers
import IntelliPilot.Statement.Requests
import IntelliPilot.Text.Trimming

/-! # Time tracking

The handlers of `api::time_tracking` that write the time entries of the caller,
those that lock a month, and the one that corrects the entry of a member, over the statements of `db::time_tracking`. A date
of a request is what its text parses to. The times of a row and the audit
records are left out.
-/

namespace IntelliPilot.TimeTracking

open Http Statement
open Auth (trim)

abbrev Uuid := Nat

/-- `time::Date`, as the number of its day since 1970-01-01. -/
abbrev Date := Int

/-- A year and a month of it, from 1 on. -/
abbrev Month := Int × Nat

/-- `year_month`: the month of a date in the proleptic Gregorian calendar. -/
def yearMonth (date : Date) : Month :=
  -- days and years are counted from March in eras of 400 years
  let day := date + 719468
  let era := day / 146097
  let dayOfEra := day % 146097
  let yearOfEra := (dayOfEra - dayOfEra / 1460 + dayOfEra / 36524 - dayOfEra / 146096) / 365
  let dayOfYear := dayOfEra - (365 * yearOfEra + yearOfEra / 4 - yearOfEra / 100)
  let month := (5 * dayOfYear + 2) / 153
  (yearOfEra + era * 400 + (if month < 10 then 0 else 1),
    (if month < 10 then month + 3 else month - 9).toNat)

example : yearMonth 0 = (1970, 1) := by decide
example : yearMonth 11016 = (2000, 2) := by decide
example : yearMonth 11017 = (2000, 3) := by decide
example : yearMonth (-1) = (1969, 12) := by decide

/-- `Date::MAX`: the years of a date have four digits. -/
def lastDate : Date := 2932896

example : yearMonth lastDate = (9999, 12) ∧ yearMonth (lastDate + 1) = (10000, 1) := by decide

/-- The first day that a column of type `date` holds, the day zero of the Julian count. -/
def firstStoredDate : Date := -2440588

example : yearMonth firstStoredDate = (-4713, 11) := by decide

/-- `is_working_day`; 1970-01-01 was a Thursday. -/
def isWorkingDay (date : Date) : Bool := (date + 3) % 7 < 5

inductive EntryKind where
  | work
  | meeting
  | vacation
  | illness
  | dayOff
  | holiday
  deriving DecidableEq, Repr

/-- `EntryKind::parse`. -/
def EntryKind.parse : String → Option EntryKind
  | "work" => some .work
  | "meeting" => some .meeting
  | "vacation" => some .vacation
  | "illness" => some .illness
  | "day_off" => some .dayOff
  | "holiday" => some .holiday
  | _ => none

/-- `is_absence`. -/
def EntryKind.isAbsence : EntryKind → Bool
  | .work => false
  | .meeting => false
  | _ => true

inductive MeetingType where
  | daily
  | planning
  | troubleshooting
  | retro
  | refinement
  | other
  deriving DecidableEq, Repr

/-- `MeetingType::parse`. -/
def MeetingType.parse : String → Option MeetingType
  | "daily" => some .daily
  | "planning" => some .planning
  | "troubleshooting" => some .troubleshooting
  | "retro" => some .retro
  | "refinement" => some .refinement
  | "other" => some .other
  | _ => none

structure NewEntry where
  userId : Uuid
  kind : EntryKind
  meetingType : Option MeetingType
  projectId : Option Uuid
  issueId : Option Uuid
  entryDate : Date
  minutes : Int
  note : String
  bookingId : Option Uuid
  deriving DecidableEq, Repr

structure TimeEntry extends NewEntry where
  id : Uuid
  version : Int
  deriving DecidableEq, Repr

structure Issue where
  id : Uuid
  projectId : Uuid
  assignedTo : Option Uuid
  deleted : Bool
  deriving DecidableEq, Repr

/-- What a member may do with the time of a project. -/
structure Access where
  timeLog : Bool
  timeManage : Bool
  deriving DecidableEq, Repr

structure Db where
  entries : Table TimeEntry.id
  issues : Table Issue.id
  /-- `time_period_locks`. -/
  locks : List (Uuid × Month)
  /-- The access of a user to a project, through memberships and roles. -/
  access : Uuid → Uuid → Option Access
  workMinutes : Uuid → Option Int
  /-- The visibility of the projects there are: whether they are private. -/
  projects : Uuid → Option Bool

/-! ## Statements -/

inductive DbError where
  | check
  | failed
  deriving DecidableEq, Repr

inductive Stmt : Type → Type where
  | isPrivate (projectId : Uuid) : Stmt (Except DbError (Option Bool))
  | access (projectId userId : Uuid) : Stmt (Except DbError (Option Access))
  | issueAssignment (id : Uuid) : Stmt (Except DbError (Option (Uuid × Option Uuid × Bool)))
  | isLocked (projectId : Uuid) (month : Month) : Stmt (Except DbError Bool)
  | workMinutesPerDay (userId : Uuid) : Stmt (Except DbError (Option Int))
  | getEntry (id : Uuid) : Stmt (Except DbError (Option TimeEntry))
  | createEntry (new : NewEntry) : Stmt (Except DbError TimeEntry)
  | updateEntry (id : Uuid) (minutes : Int) (note : String) (entryDate : Option Date)
      (version : Int) : Stmt (Except DbError (Option TimeEntry))
  | deleteEntry (id : Uuid) : Stmt (Except DbError Bool)
  | createBooking (userId : Uuid) (kind : EntryKind) (start finish : Date) (minutesPerDay : Int)
      (note : String) (skipWeekends : Bool) (bookingId : Uuid) :
      Stmt (Except DbError (List TimeEntry))
  | lockPeriod (projectId : Uuid) (month : Month) : Stmt (Except DbError Unit)
  | unlockPeriod (projectId : Uuid) (month : Month) : Stmt (Except DbError Bool)

/-- The constraints on a row of `time_entries`. -/
def NewEntry.valid (entry : NewEntry) : Bool :=
  0 < entry.minutes && entry.minutes ≤ 1440 &&
    (match entry.kind with
      | .work => entry.projectId.isSome
      | .meeting => true
      | _ => entry.projectId.isNone) &&
    (entry.meetingType.isNone || entry.kind == .meeting)

/-- What ends a booking before its time; a date that cannot be counted on is a panic. -/
inductive BookingFault where
  | database (e : DbError)
  | overflow
  deriving DecidableEq, Repr

/-- The row of a day of a booking. -/
structure BookingRow where
  userId : Uuid
  kind : EntryKind
  minutesPerDay : Int
  note : String
  bookingId : Uuid
  deriving DecidableEq, Repr

def BookingRow.entry (row : BookingRow) (date : Date) : NewEntry :=
  ⟨row.userId, row.kind, none, none, none, date, row.minutesPerDay, row.note, some row.bookingId⟩

namespace Db

/-- `create_entry`. -/
def createEntry (new : NewEntry) (db : Db) : Except DbError TimeEntry × Db :=
  if new.valid then
    let entry : TimeEntry := { toNewEntry := new, id := db.entries.fresh, version := 1 }
    (.ok entry, { db with entries := db.entries.insert entry db.entries.find?_fresh })
  else (.error .check, db)

/-- The `UPDATE` of `update_entry`. -/
def updateEntry (id : Uuid) (minutes : Int) (note : String) (entryDate : Option Date)
    (version : Int) (db : Db) : Except DbError (Option TimeEntry) × Db :=
  match (db.entries.find? id).filter (·.version == version) with
  | none => (.ok none, db)
  | some old =>
      let write := fun entry : TimeEntry =>
        { entry with
          minutes := minutes
          note := note
          entryDate := entryDate.getD entry.entryDate
          version := entry.version + 1 }
      if (write old).valid then
        (.ok (some (write old)),
          { db with entries := db.entries.modify (·.id == id) write fun _ => rfl })
      else (.error .check, db)

/-- `delete_entry`. -/
def deleteEntry (id : Uuid) (db : Db) : Bool × Db :=
  ((db.entries.find? id).isSome, { db with entries := db.entries.erase (·.id == id) })

/-- The `INSERT` of `create_booking`. -/
def insertDay (row : BookingRow) (date : Date) (db : Db) : Except DbError (TimeEntry × Db) :=
  if date < firstStoredDate then .error .failed
  else
    match db.createEntry (row.entry date) with
    | (.error e, _) => .error e
    | (.ok entry, db) => .ok (entry, db)

/-- The loop of `create_booking` from the day `d` on. -/
def bookFrom (row : BookingRow) (finish : Date) (skipWeekends : Bool) (d : Date)
    (created : List TimeEntry) (db : Db) : Except BookingFault (List TimeEntry × Db) :=
  if d ≤ finish then
    if !skipWeekends || isWorkingDay d then
      match insertDay row d db with
      | .error e => .error (.database e)
      | .ok (entry, db) =>
          if d < lastDate then bookFrom row finish skipWeekends (d + 1) (created ++ [entry]) db
          else .error .overflow
    else if d < lastDate then bookFrom row finish skipWeekends (d + 1) created db
    else .error .overflow
  else .ok (created, db)
termination_by (finish + 1 - d).toNat
decreasing_by
  all_goals
    have hd : @LE.le Int _ d finish := by assumption
    omega

/-- `create_booking`; a fault rolls all of its rows back. -/
def createBooking (row : BookingRow) (start finish : Date) (skipWeekends : Bool) (db : Db) :
    Except BookingFault (List TimeEntry) × Db :=
  match bookFrom row finish skipWeekends start [] db with
  | .error fault => (.error fault, db)
  | .ok (created, db) => (.ok created, db)

end Db

/-- What a statement does that does not fail. -/
def Stmt.effect {β : Type} (stmt : Stmt β) (db : Db) : β × Db :=
  match stmt with
  | .isPrivate projectId => (.ok (db.projects projectId), db)
  | .access projectId userId => (.ok (db.access projectId userId), db)
  | .issueAssignment id =>
      (.ok ((db.issues.find? id).map fun issue => (issue.projectId, issue.assignedTo, issue.deleted)),
        db)
  | .isLocked projectId month => (.ok (db.locks.contains (projectId, month)), db)
  | .workMinutesPerDay userId => (.ok (db.workMinutes userId), db)
  | .getEntry id => (.ok (db.entries.find? id), db)
  | .createEntry new => db.createEntry new
  | .updateEntry id minutes note entryDate version =>
      db.updateEntry id minutes note entryDate version
  | .deleteEntry id => ((.ok (db.deleteEntry id).1), (db.deleteEntry id).2)
  | .createBooking userId kind start finish minutesPerDay note skipWeekends bookingId =>
      match db.createBooking ⟨userId, kind, minutesPerDay, note, bookingId⟩ start finish
          skipWeekends with
      | (.error (.database e), db) => (.error e, db)
      | (.error .overflow, db) => (.error .failed, db)
      | (.ok entries, db) => (.ok entries, db)
  | .lockPeriod projectId month =>
      (.ok (), { db with locks := if db.locks.contains (projectId, month) then db.locks
        else (projectId, month) :: db.locks })
  | .unlockPeriod projectId month =>
      (.ok (db.locks.contains (projectId, month)),
        { db with locks := db.locks.filter fun lock => lock != (projectId, month) })

def Stmt.failure {β : Type} : Stmt β → β
  | .isPrivate _ => .error .failed
  | .access _ _ => .error .failed
  | .issueAssignment _ => .error .failed
  | .isLocked _ _ => .error .failed
  | .workMinutesPerDay _ => .error .failed
  | .getEntry _ => .error .failed
  | .createEntry _ => .error .failed
  | .updateEntry _ _ _ _ _ => .error .failed
  | .deleteEntry _ => .error .failed
  | .createBooking _ _ _ _ _ _ _ _ => .error .failed
  | .lockPeriod _ _ => .error .failed
  | .unlockPeriod _ _ => .error .failed

/-- A statement, which may fail. -/
def Stmt.exec {β : Type} (stmt : Stmt β) (fails : Bool) (db : Db) : β × Db :=
  if fails then (stmt.failure, db) else stmt.effect db

abbrev Handler := ExceptT Problem (Prog Stmt)

/-! ## Handlers -/

/-- `time_tracking::unprocessable`. -/
def unprocessable (detail : String) : Problem :=
  ⟨422, "validation_failed", "Validation failed", some detail⟩

def locked : Problem :=
  ⟨409, "period_locked", "Period locked", some "this timesheet period is locked"⟩

def stale : Problem :=
  ⟨409, "version_conflict", "Version conflict",
    some "the entry was modified; reload and retry"⟩

/-- `parse_date`, of the date that the text parses to. -/
def parseDate (date : Option Date) : Except Problem Date :=
  date.elim (.error (unprocessable "invalid date (expected YYYY-MM-DD)")) .ok

inductive Answer where
  | entry (status : Nat) (entry : TimeEntry)
  | booked (bookingId : Uuid) (entries : List TimeEntry)
  | lock
  | noContent
  deriving DecidableEq, Repr

structure LogTimeRequest where
  kind : Option String := none
  issueId : Option Uuid := none
  projectId : Option Uuid := none
  meetingType : Option String := none
  date : Option Date
  minutes : Int
  note : Option String := none
  deriving DecidableEq, Repr

/-- The kind of a logged entry; absences are booked. -/
def logKind (kind : Option String) : Except Problem EntryKind :=
  match kind.getD "work" with
  | "work" => .ok .work
  | "meeting" => .ok .meeting
  | _ => .error (unprocessable "kind must be 'work' or 'meeting'")

def logMeetingType (kind : EntryKind) (meetingType : Option String) :
    Except Problem (Option MeetingType) :=
  match meetingType with
  | none => .ok none
  | some text =>
      if kind = .meeting then
        match MeetingType.parse text with
        | some parsed => .ok (some parsed)
        | none => .error (unprocessable "invalid meeting_type")
      else .ok none

/-- The project of a logged entry: that of the task, where there is one. -/
def logProject (issueId projectId : Option Uuid) : Handler (Option Uuid) :=
  match issueId with
  | none => pure projectId
  | some id => do
      match ← attempted (.issueAssignment id) with
      | .ok (some (pid, _, false)) => pure (some pid)
      | .ok (some (_, _, true)) => throw (unprocessable "task no longer exists")
      | .ok none => throw (unprocessable "task not found")
      | .error _ => throw internal

/-- Work needs a project, and a note where it has no task. -/
def checkWork (kind : EntryKind) (issueId projectId : Option Uuid) (note : String) :
    Except Problem Unit :=
  if kind = .work then
    if projectId.isNone then .error (unprocessable "work needs a task or a project")
    else if issueId.isNone && note == "" then
      .error (unprocessable "a note is required when no task is selected")
    else .ok ()
  else .ok ()

/-- The permission to log, and the lock of the month, of the project logged to. -/
def guardLog (userId : Uuid) (projectId : Option Uuid) (date : Date) : Handler Unit :=
  match projectId with
  | none => pure ()
  | some pid => do
      let access ← orDefault (.access pid userId) none
      refuseUnless (access.any (·.timeLog)) forbidden
      let isLocked ← orRefuse (.isLocked pid (yearMonth date)) internal
      refuseUnless (!(isLocked && !access.any (·.timeManage))) locked

/-- `log_my_time`. -/
def logMyTime (userId : Uuid) (body : Except Problem LogTimeRequest) : Handler Answer := do
  let req ← given body
  let date ← given (parseDate req.date)
  let kind ← given (logKind req.kind)
  let note := trim (req.note.getD "")
  let meetingType ← given (logMeetingType kind req.meetingType)
  let issueId := if kind = .work then req.issueId else none
  let projectId ← logProject issueId req.projectId
  given (checkWork kind issueId projectId note)
  guardLog userId projectId date
  let entry ← orRefuse (.createEntry
    ⟨userId, kind, meetingType, projectId, issueId, date, req.minutes, note, none⟩) internal
  return .entry 201 entry

/-- `guard_locked`. -/
def guardLocked (actor : Uuid) (projectId : Option Uuid) (date : Date) : Handler Unit :=
  match projectId with
  | none => pure ()
  | some pid => do
      if ← orRefuse (.isLocked pid (yearMonth date)) internal then
        let access ← orDefault (.access pid actor) none
        refuseUnless (access.any (·.timeManage)) locked
      else pure ()

/-- The entry of the caller; those of others are hidden. -/
def myEntry (userId id : Uuid) : Handler TimeEntry := do
  match ← orRefuse (.getEntry id) internal with
  | none => throw notFound
  | some entry => if entry.userId = userId then pure entry else throw notFound

structure UpdateTimeRequest where
  minutes : Int
  note : Option String := none
  /-- What the text of the date parses to, where one is given. -/
  date : Option (Option Date) := none
  version : Int
  deriving DecidableEq, Repr

/-- `ttdb::update_entry`, which reads the row before it updates it. -/
def updateEntry (id : Uuid) (req : UpdateTimeRequest) (note : String) (newDate : Option Date) :
    Handler TimeEntry := do
  match ← orRefuse (.getEntry id) internal with
  | none => throw notFound
  | some current =>
      refuseUnless (current.version == req.version) stale
      match ← orRefuse (.updateEntry id req.minutes note newDate req.version) internal with
      | none => throw stale
      | some entry => pure entry

/-- The lock of the month that a patch moves the entry to. -/
def guardMove (userId : Uuid) (entry : TimeEntry) (newDate : Option Date) : Handler Unit :=
  match newDate with
  | none => pure ()
  | some date =>
      if date = entry.entryDate then pure () else guardLocked userId entry.projectId date

/-- The new date of a patch. -/
def parseNewDate (date : Option (Option Date)) : Except Problem (Option Date) :=
  match date with
  | none => .ok none
  | some date => (parseDate date).map some

/-- `update_my_entry`. -/
def updateMyEntry (userId id : Uuid) (body : Except Problem UpdateTimeRequest) :
    Handler Answer := do
  let req ← given body
  let entry ← myEntry userId id
  guardLocked userId entry.projectId entry.entryDate
  let newDate ← given (parseNewDate req.date)
  guardMove userId entry newDate
  return .entry 200 (← updateEntry id req (req.note.getD entry.note) newDate)

/-- `delete_my_entry`. -/
def deleteMyEntry (userId id : Uuid) : Handler Answer := do
  let entry ← myEntry userId id
  guardLocked userId entry.projectId entry.entryDate
  let found ← orRefuse (.deleteEntry id) internal
  refuseUnless found notFound
  return .noContent

structure BookAbsenceRequest where
  kind : String
  startDate : Option Date
  endDate : Option Date
  minutesPerDay : Option Int := none
  note : Option String := none
  skipWeekends : Option Bool := none
  deriving DecidableEq, Repr

/-- The checks of `book_absence`: the kind and the range of days. -/
def checkAbsence (req : BookAbsenceRequest) : Except Problem (EntryKind × Date × Date) :=
  match EntryKind.parse req.kind with
  | none => .error (unprocessable "unknown absence kind")
  | some kind =>
      if kind.isAbsence then do
        let start ← parseDate req.startDate
        let finish ← parseDate req.endDate
        if finish < start then .error (unprocessable "end_date is before start_date")
        else if 366 < finish - start then
          .error (unprocessable "range too long (max 366 days)")
        else .ok (kind, start, finish)
      else .error (unprocessable "kind must be an absence, not work")

/-- The minutes of a day of absence: by default the daily target. -/
def absenceMinutes (userId : Uuid) (minutes : Option Int) : Handler Int :=
  match minutes with
  | some minutes => pure minutes
  | none => do
      let target ← orDefault (.workMinutesPerDay userId) none
      return target.getD 480

/-- `book_absence`; `bookingId` is the id that is drawn for it. -/
def bookAbsence (userId bookingId : Uuid) (body : Except Problem BookAbsenceRequest) :
    Handler Answer := do
  let req ← given body
  let (kind, start, finish) ← given (checkAbsence req)
  let minutes ← absenceMinutes userId req.minutesPerDay
  let entries ← orRefuse (.createBooking userId kind start finish minutes (req.note.getD "")
    (req.skipWeekends.getD true) bookingId) internal
  return .booked bookingId entries

/-- `ctx.require(Permission::TimeManage)`: a private project is hidden from those who
are no members. -/
def requireManage (projectId actor : Uuid) : Handler Unit := do
  match ← orRefuse (.isPrivate projectId) internal with
  | none => throw notFound
  | some isPrivate =>
      let access ← orRefuse (.access projectId actor) internal
      refuseUnless (!(isPrivate && access.isNone)) notFound
      refuseUnless (access.any (·.timeManage)) forbidden

/-- `admin_update_entry`; those who manage the time of a project pass its locks. -/
def adminUpdateEntry (projectId actor id : Uuid) (body : Except Problem UpdateTimeRequest) :
    Handler Answer := do
  requireManage projectId actor
  let req ← given body
  let entry ← orRefuse (.getEntry id) internal
  refuseUnless (entry.any (·.projectId == some projectId)) notFound
  let newDate ← given (parseNewDate req.date)
  return .entry 200 (← updateEntry id req (req.note.getD "") newDate)

/-- `lock_period`. -/
def lockPeriod (projectId actor : Uuid) (body : Except Problem Month) : Handler Answer := do
  requireManage projectId actor
  let month ← given body
  orRefuse (.lockPeriod projectId month) internal
  return .lock

/-- `unlock_period`. -/
def unlockPeriod (projectId actor : Uuid) (month : Month) : Handler Answer := do
  requireManage projectId actor
  refuseUnless (← orRefuse (.unlockPeriod projectId month) internal) notFound
  return .noContent

/-! ## Requests -/

inductive Request where
  | log (body : Except Problem LogTimeRequest)
  | update (id : Uuid) (body : Except Problem UpdateTimeRequest)
  | delete (id : Uuid)
  | book (bookingId : Uuid) (body : Except Problem BookAbsenceRequest)
  | lock (projectId : Uuid) (body : Except Problem Month)
  | unlock (projectId : Uuid) (month : Month)

def Request.handler (userId : Uuid) : Request → Handler Answer
  | .log body => logMyTime userId body
  | .update id body => updateMyEntry userId id body
  | .delete id => deleteMyEntry userId id
  | .book bookingId body => bookAbsence userId bookingId body
  | .lock projectId body => lockPeriod projectId userId body
  | .unlock projectId month => unlockPeriod projectId userId month

/-- A request of a user, some of whose statements fail, or a change of someone's rights. -/
inductive Turn where
  | request (userId : Uuid) (request : Request) (fails : Nat → Bool)
  | rights (projectId userId : Uuid) (access : Option Access)

/-- The endpoints, each request to its end. -/
def server : Server Db Turn (Except Problem Answer) where
  handle
    | .request userId request fails, db => (request.handler userId).run.alone Stmt.exec fails db
    | .rights projectId userId access, db =>
        (.ok .noContent,
          { db with access := fun project user =>
              if project = projectId ∧ user = userId then access else db.access project user })

end IntelliPilot.TimeTracking
