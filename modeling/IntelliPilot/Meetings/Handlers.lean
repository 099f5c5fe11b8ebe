import IntelliPilot.Issues.Handlers
import IntelliPilot.Relational.Table
import IntelliPilot.Statement.Handlers
import Mathlib.Data.Finset.Union

/-! # Meetings

The handlers of `api::meetings` that write meetings, over the transactions of
`db::meetings`. The tables that the link targets and the time zones come from
are others', so what a statement sees of them is part of its choice. The times
of the rows, the order of the links shown, the files of a meeting and how a file
is received are left out.
-/

namespace IntelliPilot.Meetings

open Http Statement
open Auth (trim)
open Issues (etag checkIfMatch preconditionFailed)

abbrev Uuid := Nat

/-- Days since 1970. -/
abbrev Date := Int

/-- Minutes since midnight. -/
abbrev Time := Nat

/-- `times_ok`: an end needs a start before it. -/
def timesOk : Option Time → Option Time → Bool
  | _, none => true
  | none, some _ => false
  | some start, some finish => start < finish

/-- The times that `meetings_end_needs_start` and `meetings_end_after_start` let a row
have. -/
structure Times where
  startTime : Option Time
  endTime : Option Time
  ordered : timesOk startTime endTime = true
  deriving DecidableEq

def Times.of? (startTime endTime : Option Time) : Option Times :=
  if ordered : timesOk startTime endTime = true then some ⟨startTime, endTime, ordered⟩ else none

/-! ## Tables -/

structure MeetingRow where
  id : Uuid
  projectId : Uuid
  title : String
  meetingDate : Date
  times : Times
  timezone : String
  location : String
  description : String
  summary : String
  transcript : String
  createdBy : Uuid
  version : Nat
  deleted : Bool
  deriving DecidableEq

inductive LinkKind where
  | participants
  | issues
  | epics
  | customers
  deriving DecidableEq, Repr

/-- `LinkKind::parse`. -/
def LinkKind.parse : String → Option LinkKind
  | "participants" => some .participants
  | "issues" => some .issues
  | "epics" => some .epics
  | "customers" => some .customers
  | _ => none

/-- A row of one of the link tables. -/
structure Link where
  kind : LinkKind
  meetingId : Uuid
  target : Uuid
  deriving DecidableEq

structure Db where
  meetings : Table MeetingRow.id
  links : Finset Link

def Db.empty : Db := ⟨Table.empty, ∅⟩

/-- A meeting as it is read, with the links whose targets are there. -/
structure Meeting where
  row : MeetingRow
  links : Finset Link
  deriving DecidableEq

structure MeetingNew where
  title : String
  meetingDate : Date
  startTime : Option Time
  endTime : Option Time
  timezone : String
  location : String
  description : String
  summary : String
  transcript : String

structure MeetingPatch where
  title : Option String
  meetingDate : Option Date
  startTime : Option (Option Time)
  endTime : Option (Option Time)
  timezone : Option String
  location : Option String
  description : Option String
  summary : Option String
  transcript : Option String
  deriving DecidableEq

/-- The four link sets, each absent to leave it alone or present to replace it. -/
structure MeetingLinks where
  participantIds : Option (List Uuid) := none
  issueIds : Option (List Uuid) := none
  epicIds : Option (List Uuid) := none
  customerIds : Option (List Uuid) := none
  deriving DecidableEq

/-- `sets`. -/
def MeetingLinks.sets (links : MeetingLinks) : List (LinkKind × Option (List Uuid)) :=
  [(.participants, links.participantIds), (.issues, links.issueIds), (.epics, links.epicIds),
    (.customers, links.customerIds)]

inductive UpdateOutcome where
  | updated (meeting : Meeting)
  | notFound
  | conflict
  deriving DecidableEq

inductive DbError where
  | checkViolation
  | failed
  deriving DecidableEq

/-! ## Statements -/

/-- The statements and transactions of `db::meetings`, and what the handlers call of the
attachments. -/
inductive Stmt : Type → Type where
  | timezoneExists (tz : String) : Stmt (Except DbError Bool)
  | countTargets (kind : LinkKind) (projectId : Uuid) (ids : List Uuid) : Stmt (Except DbError Nat)
  | create (projectId createdBy : Uuid) (new : MeetingNew) (links : MeetingLinks) :
      Stmt (Except DbError Meeting)
  | get (projectId id : Uuid) : Stmt (Except DbError (Option Meeting))
  | update (projectId id : Uuid) (expectedVersion : Nat) (patch : MeetingPatch)
      (links : MeetingLinks) : Stmt (Except DbError UpdateOutcome)
  | setText (projectId id : Uuid) (transcript summary : Option String) : Stmt (Except DbError Bool)
  | toggleLink (projectId id : Uuid) (kind : LinkKind) (target : Uuid) (add : Bool) :
      Stmt (Except DbError (Option Meeting))
  | softDelete (projectId id : Uuid) : Stmt (Except DbError Bool)
  | listFiles (id : Uuid) : Stmt (Except DbError Unit)
  | storeAndRecord (id : Uuid) : Stmt (Except Problem Unit)

/-- What a statement meets: whether it fails, the link targets and time zones that are
there, the targets that are shown, and whether a file is stored. -/
structure Choice where
  fails : Bool := false
  valid : LinkKind → Uuid → Uuid → Bool := fun _ _ _ => true
  zones : String → Bool := fun _ => true
  live : LinkKind → Uuid → Bool := fun _ _ => true
  stored : Except Problem Unit := .ok ()

namespace Db

def linksOf (db : Db) (id : Uuid) : Finset Link := db.links.filter (·.meetingId = id)

/-- A meeting that is there for its project. -/
def get (db : Db) (projectId id : Uuid) : Option MeetingRow :=
  (db.meetings.find? id).filter fun row => row.projectId == projectId && !row.deleted

def shown (live : LinkKind → Uuid → Bool) (row : MeetingRow) (db : Db) : Meeting :=
  ⟨row, (db.linksOf row.id).filter fun link => live link.kind link.target⟩

/-- A set that is given is deleted and inserted anew. -/
def replaceSet (id : Uuid) (table : Finset Link) (set : LinkKind × Option (List Uuid)) :
    Finset Link :=
  match set.2 with
  | none => table
  | some ids => table.filter (fun link => ¬ (link.kind = set.1 ∧ link.meetingId = id)) ∪
      (ids.map (Link.mk set.1 id)).toFinset

/-- `replace_links`. -/
def replaceLinks (id : Uuid) (links : MeetingLinks) (table : Finset Link) : Finset Link :=
  links.sets.foldl (replaceSet id) table

/-- `create`. -/
def create (projectId createdBy : Uuid) (new : MeetingNew) (links : MeetingLinks) (db : Db) :
    Except DbError (MeetingRow × Db) :=
  match Times.of? new.startTime new.endTime with
  | none => .error .checkViolation
  | some times =>
      let row : MeetingRow := ⟨db.meetings.fresh, projectId, new.title, new.meetingDate, times,
        new.timezone, new.location, new.description, new.summary, new.transcript, createdBy, 1, false⟩
      .ok (row, ⟨db.meetings.insert row db.meetings.find?_fresh,
        replaceLinks db.meetings.fresh links db.links⟩)

/-- The times that a patch leaves. -/
def timesAfter (patch : MeetingPatch) (times : Times) : Option Times :=
  Times.of? (patch.startTime.getD times.startTime) (patch.endTime.getD times.endTime)

/-- What `update` sets. -/
def patched (patch : MeetingPatch) (times : Times) (row : MeetingRow) : MeetingRow where
  id := row.id
  projectId := row.projectId
  title := patch.title.getD row.title
  meetingDate := patch.meetingDate.getD row.meetingDate
  times := times
  timezone := patch.timezone.getD row.timezone
  location := patch.location.getD row.location
  description := patch.description.getD row.description
  summary := patch.summary.getD row.summary
  transcript := patch.transcript.getD row.transcript
  createdBy := row.createdBy
  version := row.version + 1
  deleted := row.deleted

/-- `update`, guarded by the version that is expected. -/
def update (projectId id : Uuid) (expectedVersion : Nat) (patch : MeetingPatch)
    (links : MeetingLinks) (live : LinkKind → Uuid → Bool) (db : Db) :
    Except DbError (UpdateOutcome × Db) :=
  match db.get projectId id with
  | none => .ok (.notFound, db)
  | some row =>
      if row.version ≠ expectedVersion then .ok (.conflict, db)
      else match timesAfter patch row.times with
        | none => .error .checkViolation
        | some times =>
            let later : Db := ⟨db.meetings.modify (·.id == id) (patched patch times) fun _ => rfl,
              replaceLinks id links db.links⟩
            .ok (.updated (later.shown live (patched patch times row)), later)

/-- What `set_text` sets. -/
def withText (transcript summary : Option String) (row : MeetingRow) : MeetingRow :=
  { row with
    transcript := transcript.getD row.transcript
    summary := summary.getD row.summary
    version := row.version + 1 }

/-- The update of `set_text`. -/
def setText (projectId id : Uuid) (transcript summary : Option String) (db : Db) : Bool × Db :=
  match db.get projectId id with
  | none => (false, db)
  | some _ =>
      (true, { db with
        meetings := db.meetings.modify (·.id == id) (withText transcript summary) fun _ => rfl })

def touched (row : MeetingRow) : MeetingRow := { row with version := row.version + 1 }

/-- `toggle_link`: the version is raised where the set changes. -/
def toggleLink (projectId id : Uuid) (kind : LinkKind) (target : Uuid) (add : Bool)
    (live : LinkKind → Uuid → Bool) (db : Db) : Option Meeting × Db :=
  match db.get projectId id with
  | none => (none, db)
  | some row =>
      let links := if add then insert ⟨kind, id, target⟩ db.links
        else db.links.erase ⟨kind, id, target⟩
      if links = db.links then (some (db.shown live row), db)
      else
        let later : Db := ⟨db.meetings.modify (·.id == id) touched fun _ => rfl, links⟩
        (some (later.shown live (touched row)), later)

/-- `soft_delete`, whose `UPDATE` leaves the version alone. -/
def softDelete (projectId id : Uuid) (db : Db) : Bool × Db :=
  match db.get projectId id with
  | none => (false, db)
  | some _ =>
      (true, { db with
        meetings := db.meetings.modify (·.id == id) (fun row => { row with deleted := true })
          fun _ => rfl })

end Db

/-- What a statement does that does not fail; an error rolls it back. -/
def Stmt.effect {β : Type} (stmt : Stmt β) (choice : Choice) (db : Db) : β × Db :=
  match stmt with
  | .timezoneExists tz => (.ok (choice.zones tz), db)
  | .countTargets kind projectId ids =>
      (.ok (ids.countP fun id => choice.valid kind projectId id), db)
  | .create projectId createdBy new links =>
      match db.create projectId createdBy new links with
      | .ok (row, later) => (.ok (later.shown choice.live row), later)
      | .error e => (.error e, db)
  | .get projectId id => (.ok ((db.get projectId id).map fun row => db.shown choice.live row), db)
  | .update projectId id expectedVersion patch links =>
      match db.update projectId id expectedVersion patch links choice.live with
      | .ok (outcome, later) => (.ok outcome, later)
      | .error e => (.error e, db)
  | .setText projectId id transcript summary =>
      (.ok (db.setText projectId id transcript summary).1, (db.setText projectId id transcript summary).2)
  | .toggleLink projectId id kind target add =>
      (.ok (db.toggleLink projectId id kind target add choice.live).1,
        (db.toggleLink projectId id kind target add choice.live).2)
  | .softDelete projectId id => (.ok (db.softDelete projectId id).1, (db.softDelete projectId id).2)
  | .listFiles _ => (.ok (), db)
  | .storeAndRecord _ => (choice.stored, db)

def Stmt.failure {β : Type} : Stmt β → β
  | .timezoneExists _ => .error .failed
  | .countTargets _ _ _ => .error .failed
  | .create _ _ _ _ => .error .failed
  | .get _ _ => .error .failed
  | .update _ _ _ _ _ => .error .failed
  | .setText _ _ _ _ => .error .failed
  | .toggleLink _ _ _ _ _ => .error .failed
  | .softDelete _ _ => .error .failed
  | .listFiles _ => .error .failed
  | .storeAndRecord _ => .error internal

/-- A statement, which may fail. -/
def Stmt.exec {β : Type} (stmt : Stmt β) (choice : Choice) (db : Db) : β × Db :=
  if choice.fails then (stmt.failure, db) else stmt.effect choice db

/-! ## Checks -/

abbrev Handler := ExceptT Problem (Prog Stmt)

/-- The project context: whether the actor has the permission asked for. -/
structure Context where
  projectId : Uuid
  actorId : Uuid
  allowed : Bool
  deriving DecidableEq, Repr

/-- `require`. -/
def require (ctx : Context) : Handler Unit := refuseUnless ctx.allowed forbidden

def invalid (code detail : String) : Problem := ⟨422, code, "Validation failed", some detail⟩

def invalidTimes : Problem :=
  invalid "invalid_times" "end_time needs a start_time and must be later the same day"

def maxTitle : Nat := 300
def maxLocation : Nat := 2000
def maxDescription : Nat := 100000
def maxSummary : Nat := 1000000
def maxTranscript : Nat := 5000000
def maxTimezone : Nat := 64

def tooLong (value : Option String) (bound : Nat) : Bool := value.any fun text => bound < text.length

/-- `check_lengths`. -/
def checkLengths (title location description summary transcript : Option String) :
    Except Problem Unit := do
  let refuse (detail : String) : Except Problem Unit := .error (invalid "validation_failed" detail)
  if title.any fun text => trim text == "" || maxTitle < text.length then
    refuse "title must be 1-300 characters"
  if tooLong location maxLocation then refuse "location is too long"
  if tooLong description maxDescription then refuse "description is too long"
  if tooLong summary maxSummary then refuse "summary is too long"
  if tooLong transcript maxTranscript then refuse "transcript is too long"

/-- `link_error`. -/
def linkError : LinkKind → String
  | .participants => "every participant must be a member of the project"
  | .issues => "every issue must be a live issue of this project"
  | .epics => "every epic must be a live epic of this project"
  | .customers => "every customer must belong to this project"

/-- `validate_timezone`. -/
def validateTimezone (tz : String) : Handler Unit := do
  let unknown := invalid "invalid_timezone" "unknown time zone"
  refuseUnless (tz != "" && decide (tz.utf8ByteSize ≤ maxTimezone)) unknown
  refuseUnless (← orRefuse (.timezoneExists tz) internal) unknown

/-- `validate_links`, by the counts of `invalid_link`. -/
def validateLinks (projectId : Uuid) (links : MeetingLinks) : Handler Unit :=
  links.sets.forM fun set => do
    let distinct := (set.2.getD []).dedup
    if distinct.isEmpty then pure ()
    else refuseUnless ((← orRefuse (.countTargets set.1 projectId distinct) internal) ==
      distinct.length) (invalid "invalid_link" (linkError set.1))

/-! ## Handlers -/

structure CreateMeetingRequest where
  title : String
  meetingDate : Date
  startTime : Option Time := none
  endTime : Option Time := none
  timezone : Option String := none
  location : Option String := none
  description : Option String := none
  summary : Option String := none
  transcript : Option String := none
  participantIds : List Uuid := []
  issueIds : List Uuid := []
  epicIds : List Uuid := []
  customerIds : List Uuid := []

structure UpdateMeetingRequest where
  title : Option String := none
  meetingDate : Option Date := none
  startTime : Option (Option Time) := none
  endTime : Option (Option Time) := none
  timezone : Option String := none
  location : Option String := none
  description : Option String := none
  summary : Option String := none
  transcript : Option String := none
  participantIds : Option (List Uuid) := none
  issueIds : Option (List Uuid) := none
  epicIds : Option (List Uuid) := none
  customerIds : Option (List Uuid) := none
  deriving DecidableEq

inductive Answer where
  | meeting (status : Nat) (meeting : Meeting)
  | noContent
  deriving DecidableEq

/-- `detail_response`. -/
def detailResponse (status : Nat) (meeting : Meeting) : Handler Answer := do
  orRefuse (.listFiles meeting.row.id) internal
  return .meeting status meeting

/-- A meeting that a query finds. -/
def found (stmt : Stmt (Except DbError (Option Meeting))) : Handler Meeting := do
  match ← orRefuse stmt internal with
  | some meeting => pure meeting
  | none => throw notFound

/-- `create`. -/
def create (ctx : Context) (body : Except Problem CreateMeetingRequest) : Handler Answer := do
  require ctx
  let req ← given body
  given (checkLengths (some req.title) req.location req.description req.summary req.transcript)
  refuseUnless (timesOk req.startTime req.endTime) invalidTimes
  let tz := trim (req.timezone.getD "UTC")
  validateTimezone tz
  let links : MeetingLinks := ⟨some req.participantIds, some req.issueIds, some req.epicIds,
    some req.customerIds⟩
  validateLinks ctx.projectId links
  let new : MeetingNew := ⟨trim req.title, req.meetingDate, req.startTime, req.endTime, tz,
    req.location.getD "", req.description.getD "", req.summary.getD "", req.transcript.getD ""⟩
  detailResponse 201 (← orRefuse (.create ctx.projectId ctx.actorId new links) internal)

def UpdateMeetingRequest.links (req : UpdateMeetingRequest) : MeetingLinks :=
  ⟨req.participantIds, req.issueIds, req.epicIds, req.customerIds⟩

def UpdateMeetingRequest.patch (req : UpdateMeetingRequest) : MeetingPatch :=
  ⟨req.title.map trim, req.meetingDate, req.startTime, req.endTime, req.timezone.map trim,
    req.location, req.description, req.summary, req.transcript⟩

/-- The time zone of a patch is checked where it gives one. -/
def validatePatchTimezone (patch : MeetingPatch) : Handler Unit :=
  match patch.timezone with
  | some tz => validateTimezone tz
  | none => pure ()

/-- The checks that `update` makes of the meeting it has read. -/
def checkUpdate (ifMatch : Option String) (req : UpdateMeetingRequest) (current : Meeting) :
    Except Problem Unit := do
  checkIfMatch ifMatch (etag current.row.id current.row.version)
  checkLengths req.title req.location req.description req.summary req.transcript
  -- the time rule is for what the patch leaves
  if !timesOk (req.startTime.getD current.row.times.startTime)
      (req.endTime.getD current.row.times.endTime) then .error invalidTimes

/-- `update`. -/
def update (ctx : Context) (id : Uuid) (ifMatch : Option String)
    (body : Except Problem UpdateMeetingRequest) : Handler Answer := do
  require ctx
  let req ← given body
  let current ← found (.get ctx.projectId id)
  given (checkUpdate ifMatch req current)
  validatePatchTimezone req.patch
  validateLinks ctx.projectId req.links
  match ← orRefuse (.update ctx.projectId id current.row.version req.patch req.links) internal with
  | .updated meeting => detailResponse 200 meeting
  | .notFound => throw notFound
  | .conflict => throw (preconditionFailed (some "the meeting changed; reload and retry"))

/-- `delete`. -/
def delete (ctx : Context) (id : Uuid) : Handler Answer := do
  require ctx
  refuseUnless (← orRefuse (.softDelete ctx.projectId id) internal) notFound
  return .noContent

def MeetingLinks.single (kind : LinkKind) (target : Uuid) : MeetingLinks :=
  match kind with
  | .participants => { participantIds := some [target] }
  | .issues => { issueIds := some [target] }
  | .epics => { epicIds := some [target] }
  | .customers => { customerIds := some [target] }

/-- `toggle_link`, for `add_link` and `remove_link`. -/
def toggleLink (ctx : Context) (id : Uuid) (kind : String) (target : Uuid) (add : Bool) :
    Handler Answer := do
  require ctx
  match LinkKind.parse kind with
  | none => throw notFound
  | some kind =>
      if add then validateLinks ctx.projectId (.single kind target)
      detailResponse 200 (← found (.toggleLink ctx.projectId id kind target add))

inductive TextKind where
  | transcript
  | summary
  deriving DecidableEq, Repr

def TextKind.limit : TextKind → Nat
  | .transcript => maxTranscript
  | .summary => maxSummary

/-- `import_text`, of the text of the file that was received. -/
def importText (ctx : Context) (id : Uuid) (kind : TextKind) (file : Except Problem String) :
    Handler Answer := do
  require ctx
  let _ ← found (.get ctx.projectId id)
  let text ← given file
  refuseUnless (text.length ≤ kind.limit)
    (invalid "validation_failed" "the imported text is too long")
  match ← ExceptT.lift (.call (.storeAndRecord id)) with
  | .error problem => throw problem
  | .ok () =>
      let (transcript, summary) := match kind with
        | .transcript => (some text, none)
        | .summary => (none, some text)
      refuseUnless (← orRefuse (.setText ctx.projectId id transcript summary) internal) notFound
      detailResponse 200 (← found (.get ctx.projectId id))

inductive Request where
  | create (ctx : Context) (body : Except Problem CreateMeetingRequest)
  | update (ctx : Context) (id : Uuid) (ifMatch : Option String)
      (body : Except Problem UpdateMeetingRequest)
  | delete (ctx : Context) (id : Uuid)
  | toggleLink (ctx : Context) (id : Uuid) (kind : String) (target : Uuid) (add : Bool)
  | importText (ctx : Context) (id : Uuid) (kind : TextKind) (file : Except Problem String)

def Request.handler : Request → Handler Answer
  | .create ctx body => Meetings.create ctx body
  | .update ctx id ifMatch body => Meetings.update ctx id ifMatch body
  | .delete ctx id => Meetings.delete ctx id
  | .toggleLink ctx id kind target add => Meetings.toggleLink ctx id kind target add
  | .importText ctx id kind file => Meetings.importText ctx id kind file

/-- The writing endpoints of the meetings, statement by statement. -/
def service : Service Stmt Db Choice Request (Except Problem Answer) where
  exec := Stmt.exec
  handler request := request.handler.run

end IntelliPilot.Meetings
