import IntelliPilot.Backlog.IssueHandlers
import IntelliPilot.Statement.Requests
import IntelliPilot.Text.Strings

/-! # Milestone handlers

The handlers of `api::milestones` that write a milestone, with the constraints
of its table. The order, the timestamps of the row and the bounds on the texts
of a body are left out.
-/

namespace IntelliPilot.Milestones

open Http
open Backlog.Api (ensure IfMatch checkIfMatch)

abbrev Uuid := Nat

/-- `time::Date`, as the number of its day. -/
abbrev Date := Int

structure Milestone where
  id : Uuid
  projectId : Uuid
  name : String
  slug : String
  description : String
  startDate : Option Date
  actualStartDate : Option Date
  endDate : Option Date
  actualEndDate : Option Date
  businessReleaseDate : Option Date
  closed : Bool
  closedAt : Option Int
  version : Nat
  deletedAt : Option Int
  deriving DecidableEq, Repr

/-- `deleted_at IS NULL`. -/
def Milestone.live (milestone : Milestone) : Bool := milestone.deletedAt.isNone

/-- The table `milestones`; `now` is the time of the request. -/
structure Db where
  milestones : Table Milestone.id
  now : Int

def Db.empty : Db := ⟨.empty, 0⟩

/-! ## The table -/

inductive DbError where
  | check (constraint : String)
  | valueTooLong
  | uniqueViolation
  deriving DecidableEq, Repr

/-- The constraint `milestones_business_release_after_end`, of migration V021. -/
def businessReleaseAfterEnd (row : Milestone) : Bool :=
  row.businessReleaseDate.all fun business => (row.actualEndDate.or row.endDate).any (· < business)

/-- The constraint `milestones_actual_end_after_actual_start`, of migration V029. -/
def actualEndAfterActualStart (row : Milestone) : Bool :=
  row.actualStartDate.all fun start => row.actualEndDate.all (start ≤ ·)

def checkRow (row : Milestone) : Except DbError Unit :=
  if !businessReleaseAfterEnd row then .error (.check "milestones_business_release_after_end")
  else if !actualEndAfterActualStart row then
    .error (.check "milestones_actual_end_after_actual_start")
  else .ok ()

/-- `UNIQUE (project_id, slug)`, which deleted rows count for. -/
def slugTaken (db : Db) (projectId : Uuid) (slug : String) : Bool :=
  db.milestones.rows.any fun row => row.projectId == projectId && row.slug == slug

/-- `milestones::get`. -/
def get (db : Db) (projectId id : Uuid) : Option Milestone :=
  (db.milestones.find? id).filter fun row => row.projectId == projectId && row.live

structure MilestoneNew where
  name : String
  slug : String
  description : String
  startDate : Option Date
  actualStartDate : Option Date
  endDate : Option Date
  actualEndDate : Option Date
  businessReleaseDate : Option Date
  deriving DecidableEq, Repr

/-- The row of a new milestone. -/
def MilestoneNew.row (new : MilestoneNew) (id projectId : Uuid) : Milestone where
  id := id
  projectId := projectId
  name := new.name
  slug := new.slug
  description := new.description
  startDate := new.startDate
  actualStartDate := new.actualStartDate
  endDate := new.endDate
  actualEndDate := new.actualEndDate
  businessReleaseDate := new.businessReleaseDate
  closed := false
  closedAt := none
  version := 1
  deletedAt := none

/-- `milestones::create`; the column `slug` is a `varchar(100)`. -/
def insertMilestone (projectId : Uuid) (new : MilestoneNew) (db : Db) :
    Except DbError (Milestone × Db) := do
  if 100 < new.slug.length then throw .valueTooLong
  let row := new.row db.milestones.fresh projectId
  checkRow row
  if slugTaken db projectId new.slug then throw .uniqueViolation
  return (row, { db with milestones := db.milestones.insert row db.milestones.find?_fresh })

/-- `MilestonePatch`; an inner `none` clears the field. -/
structure MilestonePatch where
  name : Option String := none
  description : Option String := none
  startDate : Option (Option Date) := none
  actualStartDate : Option (Option Date) := none
  endDate : Option (Option Date) := none
  actualEndDate : Option (Option Date) := none
  businessReleaseDate : Option (Option Date) := none
  deriving DecidableEq, Repr

/-- The `SET` list of `milestones::update`. -/
def MilestonePatch.apply (patch : MilestonePatch) (row : Milestone) : Milestone :=
  { row with
    name := patch.name.getD row.name
    description := patch.description.getD row.description
    startDate := patch.startDate.getD row.startDate
    endDate := patch.endDate.getD row.endDate
    actualEndDate := patch.actualEndDate.getD row.actualEndDate
    businessReleaseDate :=
      match patch.businessReleaseDate with
      | some business => business
      | none =>
          if ((patch.actualEndDate.getD row.actualEndDate).or
              (patch.endDate.getD row.endDate)).isNone then none
          else row.businessReleaseDate
    actualStartDate := patch.actualStartDate.getD row.actualStartDate
    version := row.version + 1 }

/-- The `SET` list of `milestones::close`. -/
def closeRow (now : Int) (row : Milestone) : Milestone :=
  { row with
    closed := true
    closedAt := row.closedAt.or (some now)
    actualEndDate :=
      if row.actualEndDate.isSome then row.actualEndDate
      -- a comparison with no planned end is not true
      else if row.actualStartDate.all fun start => row.endDate.any (start ≤ ·) then row.endDate
      else none
    version := row.version + 1 }

/-- The `SET` list of `milestones::reopen`. -/
def reopenRow (row : Milestone) : Milestone :=
  { row with closed := false, closedAt := none, version := row.version + 1 }

theorem reopenRow_id (row : Milestone) : (reopenRow row).id = row.id := rfl

/-- `UPDATE milestones SET f` of one row. -/
def writeRow (f : Milestone → Milestone) (hf : ∀ row, (f row).id = row.id) (row : Milestone)
    (db : Db) : Except DbError (Milestone × Db) := do
  checkRow (f row)
  return (f row, { db with milestones := db.milestones.modify (·.id == row.id) f hf })

inductive UpdateOutcome where
  | updated (row : Milestone)
  | notFound
  | conflict
  deriving DecidableEq, Repr

/-- `milestones::update`. -/
def updateMilestone (projectId id : Uuid) (expectedVersion : Nat) (patch : MilestonePatch)
    (db : Db) : Except DbError (UpdateOutcome × Db) :=
  match get db projectId id with
  | none => .ok (.notFound, db)
  | some row =>
      if row.version = expectedVersion then do
        let (row, db) ← writeRow patch.apply (fun _ => rfl) row db
        return (.updated row, db)
      else .ok (.conflict, db)

/-! ## Date rules -/

/-- `dates_ok`. -/
def datesOk (start finish : Option Date) : Bool :=
  match start, finish with
  | some s, some e => decide (s ≤ e)
  | _, _ => true

/-- `ACTUAL_RANGE_RULE`. -/
def actualRangeRule : String := "actual_end_date must be on or after actual_start_date"

/-- `BUSINESS_RELEASE_RULE`. -/
def businessReleaseRule : String :=
  "business_release_date must be after the technical end date " ++
    "(actual_end_date when set, otherwise end_date)"

/-- `effective_end`. -/
def effectiveEnd (planned actual : Option Date) : Option Date :=
  match actual with
  | some a => some a
  | none => planned

/-- `business_release_ok`. -/
def businessReleaseOk (finish business : Option Date) : Bool :=
  business.all fun b => finish.any fun e => decide (e < b)

def invalidDates (detail : String) : Problem := ⟨422, "invalid_dates", "Invalid dates", some detail⟩

/-! ## Handlers -/

/-- What the caller may do in the project. -/
structure Caller where
  mayCreate : Bool := true
  mayModify : Bool := true
  mayDelete : Bool := true
  mayModifyBusinessRelease : Bool := true
  deriving DecidableEq, Repr

structure CreateMilestoneRequest where
  name : String
  slug : Option String := none
  description : String := ""
  startDate : Option Date := none
  actualStartDate : Option Date := none
  endDate : Option Date := none
  actualEndDate : Option Date := none
  businessReleaseDate : Option Date := none
  deriving DecidableEq, Repr

/-- The body of a `PATCH` has the fields of the patch. -/
abbrev UpdateMilestoneRequest := MilestonePatch

/-- The pattern and the length of a slug: words of lower-case letters and
digits with single dashes between them. -/
def validSlug (slug : String) : Bool :=
  slug.length ≤ 100 && (Text.split slug '-').all fun word =>
    word != "" && word.toList.all fun c => ('a' ≤ c && c ≤ 'z') || ('0' ≤ c && c ≤ '9')

def validationFailed : Problem := ⟨422, "validation_failed", "Validation failed", none⟩

/-- The slug of a new milestone. -/
def CreateMilestoneRequest.slugOrName (req : CreateMilestoneRequest) : String :=
  req.slug.getD (Text.slugify req.name)

/-- `create`, up to the insert. -/
def admitCreate (caller : Caller) (body : Except Problem CreateMilestoneRequest) :
    Except Problem CreateMilestoneRequest := do
  ensure caller.mayCreate forbidden
  let req ← body
  ensure (req.slug.all validSlug) validationFailed
  ensure (req.businessReleaseDate.isNone || caller.mayModifyBusinessRelease) forbidden
  ensure (datesOk req.startDate req.endDate)
    (invalidDates "end_date must be on or after start_date")
  ensure (datesOk req.actualStartDate req.actualEndDate) (invalidDates actualRangeRule)
  ensure (businessReleaseOk (effectiveEnd req.endDate req.actualEndDate) req.businessReleaseDate)
    (invalidDates businessReleaseRule)
  return req

def CreateMilestoneRequest.new (req : CreateMilestoneRequest) : MilestoneNew where
  name := req.name
  slug := req.slugOrName
  description := req.description
  startDate := req.startDate
  actualStartDate := req.actualStartDate
  endDate := req.endDate
  actualEndDate := req.actualEndDate
  businessReleaseDate := req.businessReleaseDate

/-- `create`. -/
def create (caller : Caller) (projectId : Uuid) (body : Except Problem CreateMilestoneRequest)
    (db : Db) : Except Problem Milestone × Db :=
  match admitCreate caller body with
  | .error problem => (.error problem, db)
  | .ok req =>
      match insertMilestone projectId req.new db with
      | .ok (row, db) => (.ok row, db)
      | .error .uniqueViolation =>
          (.error ⟨409, "already_exists", "Already Exists", some "milestone slug already used"⟩, db)
      | .error _ => (.error internal, db)

/-- The date rules of `update`, on the row the patch would produce. -/
def validateDates (existing : Milestone) (req : UpdateMilestoneRequest) : Except Problem Unit := do
  let start := req.startDate.getD existing.startDate
  let actualStart := req.actualStartDate.getD existing.actualStartDate
  let finish := req.endDate.getD existing.endDate
  let actual := req.actualEndDate.getD existing.actualEndDate
  let effective := effectiveEnd finish actual
  -- losing every technical end clears the business release with it
  let business := if effective.isNone then none
    else req.businessReleaseDate.getD existing.businessReleaseDate
  ensure (datesOk start finish) (invalidDates "end_date must be on or after start_date")
  ensure (datesOk start actual) (invalidDates "actual_end_date must be on or after start_date")
  ensure (datesOk actualStart actual) (invalidDates actualRangeRule)
  ensure (businessReleaseOk effective business) (invalidDates businessReleaseRule)

/-- `update`, up to the write. -/
def admitUpdate (caller : Caller) (projectId id : Uuid) (header : IfMatch)
    (body : Except Problem UpdateMilestoneRequest) (db : Db) :
    Except Problem (Milestone × UpdateMilestoneRequest) := do
  ensure caller.mayModify forbidden
  let req ← body
  ensure (req.businessReleaseDate.isNone || caller.mayModifyBusinessRelease) forbidden
  let existing ← (get db projectId id).elim (.error notFound) .ok
  checkIfMatch header (existing.id, existing.version)
  validateDates existing req
  return (existing, req)

/-- `update`. -/
def update (caller : Caller) (projectId id : Uuid) (header : IfMatch)
    (body : Except Problem UpdateMilestoneRequest) (db : Db) : Except Problem Milestone × Db :=
  match admitUpdate caller projectId id header body db with
  | .error problem => (.error problem, db)
  | .ok (existing, req) =>
      match updateMilestone projectId id existing.version req db with
      | .ok (.updated row, db) => (.ok row, db)
      | .ok (.notFound, db) => (.error notFound, db)
      | .ok (.conflict, db) =>
          (.error ⟨412, "precondition_failed", "Precondition Failed",
            some "milestone changed since it was loaded; reload and retry"⟩, db)
      | .error _ => (.error internal, db)

/-- `set_completed`. -/
def setCompleted (caller : Caller) (projectId id : Uuid) (completed : Bool) (db : Db) :
    Except Problem Milestone × Db :=
  if !caller.mayModify then (.error forbidden, db)
  else
    match get db projectId id with
    | none => (.error notFound, db)
    | some row =>
        let written := if completed then writeRow (closeRow db.now) (fun _ => rfl) row db
          else writeRow reopenRow (fun _ => rfl) row db
        match written with
        | .ok (row, db) => (.ok row, db)
        | .error _ => (.error internal, db)

/-- The handlers of `api::milestones` that write the row of a milestone. -/
inductive Request where
  | create (caller : Caller) (projectId : Uuid) (body : Except Problem CreateMilestoneRequest)
  | update (caller : Caller) (projectId id : Uuid) (header : IfMatch)
      (body : Except Problem UpdateMilestoneRequest)
  | close (caller : Caller) (projectId id : Uuid)
  | reopen (caller : Caller) (projectId id : Uuid)

def handle : Request → Db → Except Problem Milestone × Db
  | .create caller projectId body => create caller projectId body
  | .update caller projectId id header body => update caller projectId id header body
  | .close caller projectId id => setCompleted caller projectId id true
  | .reopen caller projectId id => setCompleted caller projectId id false

/-- The milestone endpoints, each request at its own time. -/
def server : Statement.Server Db (Int × Request) (Except Problem Milestone) where
  handle entry db := handle entry.2 { db with now := entry.1 }

end IntelliPilot.Milestones
