import IntelliPilot.Issues.Writes
import IntelliPilot.Milestones.Handlers
import IntelliPilot.Statement.Handlers

/-! # Epics and milestones

`create_epic` and `update_epic` of `api::backlog`, and the handlers of
`api::milestones` that close, reopen, fill and delete a milestone, over the
tables of the issues. The order and the cover of an epic, its count of closed
tasks, history and events are left out.
-/

namespace IntelliPilot.Epics

open Http Statement
open Imports (Uuid)
open Issues (Choice Context CreateBody DbError JsonRejection)
open Milestones (Milestone)

/-! ## Tables -/

/-- The columns of an epic that a request writes, its milestone aside. -/
structure EpicColumns where
  subject : String
  description : String := ""
  statusId : Option Uuid := none
  color : String := ""
  assignedTo : Option Uuid := none
  startDate : Option Int := none
  endDate : Option Int := none
  deriving DecidableEq, Repr

/-- What a request writes of an epic. -/
structure EpicWrite extends EpicColumns where
  milestoneId : Option Uuid := none
  deriving DecidableEq, Repr

/-- The columns of `epics` that no statement on issues reads. -/
structure Details extends EpicColumns where
  id : Uuid
  reference : Nat
  ownerId : Uuid
  version : Nat
  deriving DecidableEq, Repr

/-- An epic as `get_epic` returns it. -/
structure FullEpic extends Details where
  projectId : Uuid
  milestoneId : Option Uuid
  taskTotal : Nat
  deriving DecidableEq, Repr

/-- A row of `idempotency_keys` for the creation of an epic. -/
structure StoredEpic where
  userId : Uuid
  key : String
  method : String
  path : String
  status : Nat
  body : FullEpic
  expiresAt : Int
  deriving DecidableEq, Repr

structure State where
  db : Issues.Db
  details : Table Details.id
  milestones : Table Milestone.id
  lastEpicRef : Uuid → Nat
  keys : List StoredEpic

namespace State

/-! ## Reads -/

/-- `milestones::get`. -/
def milestone? (projectId id : Uuid) (s : State) : Option Milestone :=
  Milestones.get ⟨s.milestones, s.db.now⟩ projectId id

/-- `milestones::in_project`. -/
def milestoneInProject (projectId id : Uuid) (s : State) : Bool := (s.milestone? projectId id).isSome

/-- `milestones::is_closed`. -/
def milestoneClosed (projectId id : Uuid) (s : State) : Bool :=
  (s.milestone? projectId id).any (·.closed)

/-- `milestone_id = $1 AND project_id = $2 AND deleted_at IS NULL`. -/
def isMember (projectId milestoneId : Uuid) (epic : Issues.Epic) : Bool :=
  epic.milestoneId == some milestoneId && epic.projectId == projectId && epic.deletedAt.isNone

/-- `milestones::has_epics`. -/
def hasEpics (projectId id : Uuid) (s : State) : Bool := s.db.epics.rows.any (isMember projectId id)

/-- `epic_task_count_one`, of all tasks. -/
def taskTotal (projectId epicId : Uuid) (s : State) : Nat :=
  (s.db.issues.rows.filter fun issue => issue.projectId == projectId &&
    issue.epicId == some epicId && issue.deletedAt.isNone).length

/-- `SELECT … FROM epics WHERE id = $1 AND project_id = $2 AND deleted_at IS NULL`. -/
def selectEpic (projectId id : Uuid) (s : State) : Option FullEpic := do
  let epic ← (s.db.epics.find? id).filter fun epic =>
    epic.projectId == projectId && epic.deletedAt.isNone
  let details ← s.details.find? id
  return { details with projectId := projectId, milestoneId := epic.milestoneId, taskTotal := 0 }

/-- `idempotency::lookup`. -/
def lookupKey (userId : Uuid) (key method path : String) (s : State) : Option StoredEpic :=
  s.keys.find? fun row => row.userId == userId && row.key == key && row.method == method &&
    row.path == path && decide (s.db.now < row.expiresAt)

/-! ## Writes -/

/-- The foreign keys and the width of the columns of an epic. -/
def accepts (w : EpicWrite) (s : State) : Bool :=
  s.db.hasItem w.statusId && s.db.hasUser w.assignedTo && decide (w.color.length ≤ 16) &&
    w.milestoneId.all fun id => (s.milestones.find? id).isSome

/-- `INSERT INTO epics`. -/
def insertEpic (projectId ownerId : Uuid) (reference : Nat) (w : EpicWrite) (s : State) :
    Except DbError FullEpic × State :=
  let details : Details :=
    { w with id := s.db.epics.fresh, reference := reference, ownerId := ownerId, version := 1 }
  let epic : Issues.Epic := ⟨s.db.epics.fresh, projectId, w.milestoneId, none⟩
  if s.accepts w then
    match s.details.insert? details with
    | none => (.error .uniqueViolation, s)
    | some rows =>
        (.ok { details with projectId := projectId, milestoneId := w.milestoneId, taskTotal := 0 },
          { s with
            db := { s.db with epics := s.db.epics.insert epic s.db.epics.find?_fresh }
            details := rows })
  else (.error .failed, s)

/-- `epic_milestone_cascade`. -/
def cascade (milestoneId : Option Uuid) (db : Issues.Db) (epic : Issues.Epic) : Issues.Db :=
  db.updateIssues (fun issue => issue.epicId == some epic.id && issue.milestoneId != milestoneId)
    (fun issue => { issue with milestoneId := milestoneId }) (fun _ => rfl)

/-- `UPDATE epics SET milestone_id`, of live epics, with the trigger of those that move. -/
def moveEpics (p : Issues.Epic → Bool) (milestoneId : Option Uuid) (s : State) : State :=
  let moved := s.db.epics.rows.filter fun epic => p epic && epic.milestoneId != milestoneId
  let db := { s.db with
    epics := s.db.epics.modify p (fun epic => { epic with milestoneId := milestoneId })
      (fun _ => rfl) }
  { s with db := moved.foldl (cascade milestoneId) db }

/-- `UPDATE epics` in `update_epic`; without a row nothing is found. -/
def updateEpic (projectId id : Uuid) (version : Nat) (w : EpicWrite) (s : State) :
    Except DbError (Option FullEpic) × State :=
  match (s.selectEpic projectId id).filter (·.version == version) with
  | none => (.ok none, s)
  | some _ =>
      if s.accepts w then
        let s := { s with
          details := s.details.modify (·.id == id)
            (fun row => { row with toEpicColumns := w.toEpicColumns, version := row.version + 1 })
            (fun _ => rfl) }
        let s := s.moveEpics (·.id == id) w.milestoneId
        (.ok (s.selectEpic projectId id), s)
      else (.error .failed, s)

/-- The first statement of `set_milestone_epics`. -/
def detachEpics (projectId milestoneId : Uuid) (s : State) : State :=
  s.moveEpics (isMember projectId milestoneId) none

/-- The second statement of `set_milestone_epics`. -/
def attachEpics (projectId milestoneId : Uuid) (ids : List Uuid) (s : State) :
    Except DbError Unit × State :=
  if (s.milestones.find? milestoneId).isSome then
    (.ok (), s.moveEpics (fun epic => epic.projectId == projectId && ids.contains epic.id &&
      epic.deletedAt.isNone) (some milestoneId))
  else (.error .failed, s)

/-- `milestones::close` and `milestones::reopen`. -/
def setCompleted (projectId id : Uuid) (completed : Bool) (s : State) :
    Except DbError (Option Milestone) × State :=
  match s.milestone? projectId id with
  | none => (.ok none, s)
  | some row =>
      let table : Milestones.Db := ⟨s.milestones, s.db.now⟩
      let written :=
        if completed then Milestones.writeRow (Milestones.closeRow s.db.now) (fun _ => rfl) row table
        else Milestones.writeRow Milestones.reopenRow Milestones.reopenRow_id row table
      match written with
      | .ok (row, table) => (.ok (some row), { s with milestones := table.milestones })
      | .error _ => (.error .failed, s)

/-- `milestones::soft_delete`. -/
def deleteMilestone (projectId id : Uuid) (s : State) : Bool × State :=
  if s.milestoneInProject projectId id then
    (true, { s with
      milestones := s.milestones.modify (·.id == id)
        (fun row => { row with deletedAt := some s.db.now }) (fun _ => rfl) })
  else (false, s)

/-- `idempotency::store`. -/
def storeKey (new : StoredEpic) (s : State) : State :=
  if s.keys.any fun row => row.userId == new.userId && row.key == new.key &&
      row.method == new.method && row.path == new.path then s
  else { s with keys := s.keys ++ [new] }

end State

/-! ## Statements -/

inductive Stmt : Type → Type where
  | milestoneInProject (projectId id : Uuid) : Stmt (Except DbError Bool)
  | milestoneClosed (projectId id : Uuid) : Stmt (Except DbError Bool)
  | hasEpics (projectId id : Uuid) : Stmt (Except DbError Bool)
  | selectEpic (projectId id : Uuid) : Stmt (Except DbError (Option FullEpic))
  | taskTotal (projectId epicId : Uuid) : Stmt (Except DbError Nat)
  | lookupKey (userId : Uuid) (key method path : String) :
      Stmt (Except DbError (Option (Nat × FullEpic)))
  | storeKey (row : StoredEpic) : Stmt (Except DbError Unit)
  | now : Stmt (Except DbError Int)
  | allocEpicRef (projectId : Uuid) : Stmt (Except DbError Nat)
  | insertEpic (projectId ownerId : Uuid) (reference : Nat) (w : EpicWrite) :
      Stmt (Except DbError FullEpic)
  | updateEpic (projectId id : Uuid) (version : Nat) (w : EpicWrite) :
      Stmt (Except DbError (Option FullEpic))
  | detachEpics (projectId milestoneId : Uuid) : Stmt (Except DbError Unit)
  | attachEpics (projectId milestoneId : Uuid) (ids : List Uuid) : Stmt (Except DbError Unit)
  | setCompleted (projectId id : Uuid) (completed : Bool) :
      Stmt (Except DbError (Option Milestone))
  | deleteMilestone (projectId id : Uuid) : Stmt (Except DbError Bool)

/-- The effect of a statement that does not fail. -/
def Stmt.effect {β : Type} (stmt : Stmt β) (s : State) : β × State :=
  match stmt with
  | .milestoneInProject projectId id => (.ok (s.milestoneInProject projectId id), s)
  | .milestoneClosed projectId id => (.ok (s.milestoneClosed projectId id), s)
  | .hasEpics projectId id => (.ok (s.hasEpics projectId id), s)
  | .selectEpic projectId id => (.ok (s.selectEpic projectId id), s)
  | .taskTotal projectId epicId => (.ok (s.taskTotal projectId epicId), s)
  | .lookupKey userId key method path =>
      (.ok ((s.lookupKey userId key method path).map fun row => (row.status, row.body)), s)
  | .storeKey row => (.ok (), s.storeKey row)
  | .now => (.ok s.db.now, s)
  | .allocEpicRef projectId =>
      (.ok (s.lastEpicRef projectId + 1), { s with
        lastEpicRef := fun id =>
          if id = projectId then s.lastEpicRef projectId + 1 else s.lastEpicRef id })
  | .insertEpic projectId ownerId reference w => s.insertEpic projectId ownerId reference w
  | .updateEpic projectId id version w => s.updateEpic projectId id version w
  | .detachEpics projectId milestoneId => (.ok (), s.detachEpics projectId milestoneId)
  | .attachEpics projectId milestoneId ids => s.attachEpics projectId milestoneId ids
  | .setCompleted projectId id completed => s.setCompleted projectId id completed
  | .deleteMilestone projectId id =>
      (.ok (s.deleteMilestone projectId id).1, (s.deleteMilestone projectId id).2)

/-- The result of a statement that fails; the clock does not. -/
def Stmt.failure {β : Type} (stmt : Stmt β) (s : State) : β :=
  match stmt with
  | .milestoneInProject _ _ => .error .failed
  | .milestoneClosed _ _ => .error .failed
  | .hasEpics _ _ => .error .failed
  | .selectEpic _ _ => .error .failed
  | .taskTotal _ _ => .error .failed
  | .lookupKey _ _ _ _ => .error .failed
  | .storeKey _ => .error .failed
  | .now => .ok s.db.now
  | .allocEpicRef _ => .error .failed
  | .insertEpic _ _ _ _ => .error .failed
  | .updateEpic _ _ _ _ => .error .failed
  | .detachEpics _ _ => .error .failed
  | .attachEpics _ _ _ => .error .failed
  | .setCompleted _ _ _ => .error .failed
  | .deleteMilestone _ _ => .error .failed

/-- Time passes. -/
def State.wait (elapse : Nat) (s : State) : State :=
  { s with db := { s.db with now := s.db.now + elapse } }

/-- Time passes, then the statement runs or fails. -/
def Stmt.exec {β : Type} (stmt : Stmt β) (choice : Choice) (s : State) : β × State :=
  if choice.fails then (stmt.failure (s.wait choice.elapse), s.wait choice.elapse)
  else stmt.effect (s.wait choice.elapse)

/-! ## Handlers -/

abbrev Handler := ExceptT Problem (Prog Stmt)

inductive Answer where
  | issues (answer : Issues.Answer)
  | epic (status : Nat) (full : FullEpic)
  | replayed (status : Nat) (body : FullEpic)
  | milestone (row : Milestone)
  | noContent
  deriving DecidableEq, Repr

def milestoneCompleted : Problem :=
  ⟨409, "milestone_closed", "Milestone completed", some "cannot add an epic to a completed milestone"⟩

/-- A completed milestone is refused; it counts as open where the query fails. -/
def refuseCompleted (projectId milestoneId : Uuid) : Handler Unit := do
  refuseUnless (!(← orDefault (.milestoneClosed projectId milestoneId) false)) milestoneCompleted

/-- `validate_epic_milestone_assignment`. -/
def validateEpicMilestoneAssignment (projectId : Uuid) (milestoneId : Option Uuid) :
    Handler Unit := do
  match milestoneId with
  | none => pure ()
  | some id =>
      refuseUnless (← orDefault (.milestoneInProject projectId id) false)
        (unprocessable "invalid_association" "milestone is not in this project")
      refuseCompleted projectId id

structure CreateEpicRequest where
  subject : String
  description : String := ""
  statusId : Option Uuid := none
  color : String := ""
  assignedTo : Option Uuid := none
  milestoneId : Option Uuid := none
  deriving DecidableEq, Repr

def CreateEpicRequest.write (req : CreateEpicRequest) : EpicWrite where
  subject := req.subject
  description := req.description
  statusId := req.statusId
  color := req.color
  assignedTo := req.assignedTo
  milestoneId := req.milestoneId

def epicsPath (projectId : Uuid) : String := "/projects/" ++ toString projectId ++ "/epics"

/-- `replay`; a lookup that fails finds nothing. -/
def replay (userId : Uuid) (key : Option String) (path : String) :
    Handler (Option (Nat × FullEpic)) :=
  match key with
  | none => pure none
  | some key => orDefault (.lookupKey userId key "POST" path) none

/-- `remember`; a store that fails is passed over. -/
def remember (userId : Uuid) (key : Option String) (path : String) (body : FullEpic) :
    Handler Unit := do
  match key with
  | none => pure ()
  | some key =>
      let now ← orRefuse .now internal
      orDefault (.storeKey ⟨userId, key, "POST", path, 201, body, now + Issues.idempotencyTtl⟩) ()

/-- `create_epic`, once nothing is replayed. -/
def createNew (ctx : Context) (key : Option String) (req : CreateEpicRequest) : Handler Answer := do
  let reference ← orRefuse (.allocEpicRef ctx.projectId) internal
  let epic ← orRefuse (.insertEpic ctx.projectId ctx.actorId reference req.write) internal
  remember ctx.actorId key (epicsPath ctx.projectId) epic
  return .epic 201 epic

/-- `create_epic`. -/
def createEpic (ctx : Context) (key : Option String) (body : CreateBody CreateEpicRequest) :
    Handler Answer := do
  refuseUnless ctx.allowed forbidden
  let req ← given (Issues.parseCreate body)
  validateEpicMilestoneAssignment ctx.projectId req.milestoneId
  match ← replay ctx.actorId key (epicsPath ctx.projectId) with
  | some (status, stored) => return .replayed status stored
  | none => createNew ctx key req

/-- The merge patch of `update_epic`; an inner `none` clears the column. -/
structure UpdateEpicRequest where
  subject : Option String := none
  description : Option String := none
  statusId : Option (Option Uuid) := none
  color : Option String := none
  assignedTo : Option (Option Uuid) := none
  milestoneId : Option (Option Uuid) := none
  startDate : Option Int := none
  endDate : Option Int := none
  deriving DecidableEq, Repr

/-- The write-set: the patch over the stored row; dates cannot be cleared. -/
def UpdateEpicRequest.over (patch : UpdateEpicRequest) (old : FullEpic) : EpicWrite where
  subject := patch.subject.getD old.subject
  description := patch.description.getD old.description
  statusId := patch.statusId.getD old.statusId
  color := patch.color.getD old.color
  assignedTo := patch.assignedTo.getD old.assignedTo
  startDate := patch.startDate.or old.startDate
  endDate := patch.endDate.or old.endDate
  milestoneId := patch.milestoneId.getD old.milestoneId

/-- The epic that a patch is for; where it cannot be read it is not found. -/
def readOld (projectId id : Uuid) : Handler FullEpic := do
  match ← orRefuse (.selectEpic projectId id) notFound with
  | none => throw notFound
  | some epic => return { epic with taskTotal := ← orRefuse (.taskTotal projectId epic.id) notFound }

/-- Only an epic that moves has its milestone checked. -/
def validateMove (projectId : Uuid) (old : FullEpic) (w : EpicWrite) : Handler Unit :=
  if w.milestoneId != old.milestoneId then validateEpicMilestoneAssignment projectId w.milestoneId
  else pure ()

/-- The write phase of `update_epic`. -/
def writePatch (projectId id : Uuid) (version : Nat) (w : EpicWrite) : Handler Answer := do
  match ← orRefuse (.updateEpic projectId id version w) internal with
  | some epic =>
      return .epic 200 { epic with taskTotal := ← orRefuse (.taskTotal projectId epic.id) internal }
  | none =>
      if (← orRefuse (.selectEpic projectId id) internal).isSome then
        throw (Issues.preconditionFailed none)
      else throw notFound

/-- A request to `update_epic`. -/
structure UpdateRequest where
  id : Uuid
  ifMatch : Option String
  body : Except JsonRejection UpdateEpicRequest

/-- `update_epic`. -/
def updateEpic (ctx : Context) (req : UpdateRequest) : Handler Answer := do
  refuseUnless ctx.allowed forbidden
  let patch ← given (Issues.parsePatch req.body)
  let old ← readOld ctx.projectId req.id
  given (Issues.checkIfMatch req.ifMatch (Issues.etag old.id old.version))
  validateMove ctx.projectId old (patch.over old)
  writePatch ctx.projectId req.id old.version (patch.over old)

/-- `milestones::parse_body`. -/
def parseBody {α : Type} : CreateBody α → Except Problem α
  | .unreadable => .error ⟨400, "invalid_body", "Invalid Request Body", none⟩
  | .invalid => .error Milestones.validationFailed
  | .valid req => .ok req

/-- `set_milestone_epics`. -/
def replaceEpics (projectId milestoneId : Uuid) (ids : List Uuid) : Handler Unit := do
  orRefuse (.detachEpics projectId milestoneId) internal
  if ids.isEmpty then pure () else orRefuse (.attachEpics projectId milestoneId ids) internal

/-- `set_epics`. -/
def setEpics (ctx : Context) (id : Uuid) (body : CreateBody (List Uuid)) : Handler Answer := do
  refuseUnless ctx.allowed forbidden
  let ids ← given (parseBody body)
  refuseUnless (← orDefault (.milestoneInProject ctx.projectId id) false) notFound
  if ids.isEmpty then pure () else refuseCompleted ctx.projectId id
  replaceEpics ctx.projectId id ids
  return .noContent

/-- `set_completed`. -/
def setCompleted (ctx : Context) (id : Uuid) (completed : Bool) : Handler Answer := do
  refuseUnless ctx.allowed forbidden
  match ← orRefuse (.setCompleted ctx.projectId id completed) internal with
  | some row => return .milestone row
  | none => throw notFound

def milestoneHasEpics : Problem := ⟨409, "milestone_has_epics", "Milestone not empty",
  some "remove every epic from the milestone before deleting it"⟩

/-- `delete`. -/
def deleteMilestone (ctx : Context) (id : Uuid) : Handler Answer := do
  refuseUnless ctx.allowed forbidden
  refuseUnless (!(← orRefuse (.hasEpics ctx.projectId id) internal)) milestoneHasEpics
  refuseUnless (← orRefuse (.deleteMilestone ctx.projectId id) internal) notFound
  return .noContent

/-! ## Requests -/

inductive Request where
  | createIssue (ctx : Context) (key : Option String) (body : CreateBody Issues.CreateIssueRequest)
  | bulkCreateIssues (ctx : Context) (body : CreateBody (List Issues.CreateIssueRequest))
  | updateIssue (ctx : Context) (req : Issues.UpdateRequest)
  | createEpic (ctx : Context) (key : Option String) (body : CreateBody CreateEpicRequest)
  | updateEpic (ctx : Context) (req : UpdateRequest)
  | setEpics (ctx : Context) (id : Uuid) (body : CreateBody (List Uuid))
  | setCompleted (ctx : Context) (id : Uuid) (completed : Bool)
  | deleteMilestone (ctx : Context) (id : Uuid)

/-- A request with what the environment does to its statements. -/
structure Turn where
  request : Request
  choices : Nat → Choice

/-- A handler of issues, on its tables. -/
def onIssues (p : Issues.Handler Issues.Answer) (choices : Nat → Choice) (s : State) :
    Except Problem Answer × State :=
  let result := p.run.alone Issues.Stmt.exec choices s.db
  (result.1.map .issues, { s with db := result.2 })

def onEpics (p : Handler Answer) (choices : Nat → Choice) (s : State) :
    Except Problem Answer × State := p.run.alone Stmt.exec choices s

/-- The handlers, each of which runs alone. -/
def server : Server State Turn (Except Problem Answer) where
  handle turn :=
    match turn.request with
    | .createIssue ctx key body => onIssues (Issues.createIssue ctx key body) turn.choices
    | .bulkCreateIssues ctx body => onIssues (Issues.bulkCreateIssues ctx body) turn.choices
    | .updateIssue ctx req => onIssues (Issues.updateIssue ctx req) turn.choices
    | .createEpic ctx key body => onEpics (createEpic ctx key body) turn.choices
    | .updateEpic ctx req => onEpics (updateEpic ctx req) turn.choices
    | .setEpics ctx id body => onEpics (setEpics ctx id body) turn.choices
    | .setCompleted ctx id completed => onEpics (setCompleted ctx id completed) turn.choices
    | .deleteMilestone ctx id => onEpics (deleteMilestone ctx id) turn.choices

end IntelliPilot.Epics
