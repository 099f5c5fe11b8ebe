import IntelliPilot.Backlog.IssueHandlers
import IntelliPilot.Imports.Tables
import IntelliPilot.Statement.Handlers
import Mathlib.Logic.Function.Basic

/-! # What progress is counted over

The handlers of issues, epics, milestones and statuses, statement by statement,
over the backlog with the statuses of issues. An id is drawn once and never
again. Of the items of a taxonomy the flag `counts_as_done` is kept. What a
handler checks besides the links and the rows themselves is an outcome that
comes with the request; which status is the new one, and how many references
of the columns left out an item has, is up to the environment.
-/

namespace IntelliPilot.Progress

open Http Statement
open Backlog (Uuid Milestone Epic Issue references)
open Backlog.Api (IfMatch checkIfMatch screen RefMap)
open Imports (TaxonomyKind)

/-! ## Tables -/

/-- A row of `taxonomy_items`. -/
structure Item where
  id : Uuid
  projectId : Uuid
  kind : TaxonomyKind
  countsAsDone : Option Bool
  deriving DecidableEq, Repr

structure State where
  backlog : Backlog.Db
  /-- The column `status_id` of `issues`. -/
  statusOf : Uuid → Option Uuid
  items : Table Item.id
  lastId : Uuid

inductive DbError where
  | failed
  deriving DecidableEq, Repr

/-- The links and the status that a request writes into an issue. -/
structure IssueWrite where
  statusId : Option Uuid
  epicId : Option Uuid
  parentId : Option Uuid
  milestoneId : Option Uuid
  deriving DecidableEq, Repr

namespace State

def empty : State := ⟨.empty, fun _ => none, .empty, 0⟩

/-! ## Reads -/

def item? (s : State) (id : Uuid) : Option Item := s.items.find? id

/-- `get_issue`, with its status. -/
def getIssue (projectId id : Uuid) (s : State) : Option (Issue × Option Uuid) :=
  (Backlog.getIssue s.backlog projectId id).map fun issue => (issue, s.statusOf id)

/-- The row that `get_epic` reads. -/
def selectEpic (projectId id : Uuid) (s : State) : Option Epic :=
  (s.backlog.epic? id).filter fun epic => epic.projectId == projectId && epic.live

/-- `milestones::get`. -/
def getMilestone (projectId id : Uuid) (s : State) : Option Milestone :=
  (s.backlog.milestone? id).filter fun milestone => milestone.projectId == projectId &&
    milestone.live

/-- `milestones::is_closed`. -/
def milestoneClosed (projectId id : Uuid) (s : State) : Bool :=
  (s.getMilestone projectId id).any (·.closed)

/-- `milestones::has_epics`. -/
def hasEpics (projectId id : Uuid) (s : State) : Bool :=
  s.backlog.epics.rows.any fun epic => epic.milestoneId == some id &&
    epic.projectId == projectId && epic.live

/-- `taxonomy_reference_count`, of the issues' statuses. -/
def referenceCount (id : Uuid) (s : State) : Nat :=
  (s.backlog.issues.rows.filter fun issue => s.statusOf issue.id == some id && issue.live).length

/-! ## Writes -/

/-- The foreign keys of the columns of an issue. -/
def accepts (w : IssueWrite) (s : State) : Bool :=
  references w.epicId s.backlog.epic? && references w.parentId s.backlog.issue? &&
    references w.statusId s.item?

/-- `INSERT INTO issues`. -/
def insertIssue (projectId : Uuid) (w : IssueWrite) (s : State) : Except DbError Uuid × State :=
  let id := s.lastId + 1
  if s.accepts w && (s.backlog.issue? id).isNone then
    (.ok id, { s with
      backlog := Backlog.createIssue id projectId w.epicId w.parentId w.milestoneId s.backlog
      statusOf := Function.update s.statusOf id w.statusId
      lastId := id })
  else (.error .failed, s)

/-- `UPDATE issues` in `update_issue`, and whether there was a row. -/
def updateIssue (projectId id : Uuid) (version : Nat) (w : IssueWrite) (s : State) :
    Except DbError Bool × State :=
  if (s.backlog.issue? id).any (Issue.current projectId id version) then
    if s.accepts w then
      (.ok true, { s with
        backlog := Backlog.updateIssue projectId id version w.epicId w.parentId w.milestoneId
          s.backlog
        statusOf := Function.update s.statusOf id w.statusId })
    else (.error .failed, s)
  else (.ok false, s)

/-- `INSERT INTO epics`. -/
def insertEpic (projectId : Uuid) (milestoneId : Option Uuid) (s : State) :
    Except DbError Uuid × State :=
  let id := s.lastId + 1
  if references milestoneId s.backlog.milestone? && (s.backlog.epic? id).isNone then
    (.ok id, { s with
      backlog := Backlog.createEpic id projectId milestoneId s.backlog
      lastId := id })
  else (.error .failed, s)

/-- `UPDATE epics` in `update_epic`, and whether there was a row. -/
def updateEpic (projectId id : Uuid) (version : Nat) (milestoneId : Option Uuid) (s : State) :
    Except DbError Bool × State :=
  if (s.selectEpic projectId id).any (·.version == version) then
    if references milestoneId s.backlog.milestone? then
      (.ok true, { s with
        backlog := Backlog.updateEpic projectId id version milestoneId s.backlog })
    else (.error .failed, s)
  else (.ok false, s)

/-- `INSERT INTO milestones`. -/
def insertMilestone (projectId : Uuid) (s : State) : Except DbError Uuid × State :=
  let id := s.lastId + 1
  if (s.backlog.milestone? id).isNone then
    (.ok id, { s with
      backlog := Backlog.createMilestone id projectId s.backlog
      lastId := id })
  else (.error .failed, s)

/-- `INSERT INTO taxonomy_items`. -/
def insertItem (projectId : Uuid) (kind : TaxonomyKind) (countsAsDone : Option Bool) (s : State) :
    Except DbError Uuid × State :=
  let id := s.lastId + 1
  match s.items.insert? ⟨id, projectId, kind, countsAsDone⟩ with
  | some items => (.ok id, { s with items := items, lastId := id })
  | none => (.error .failed, s)

def isItem (projectId : Uuid) (kind : TaxonomyKind) (id : Uuid) (item : Item) : Bool :=
  item.id == id && item.projectId == projectId && item.kind == kind

/-- `UPDATE taxonomy_items`, with `COALESCE($8, counts_as_done)`. -/
def updateItem (projectId : Uuid) (kind : TaxonomyKind) (id : Uuid) (countsAsDone : Option Bool)
    (s : State) : Bool × State :=
  (s.items.rows.any (isItem projectId kind id), { s with
    items := s.items.modify (isItem projectId kind id)
      (fun item => { item with countsAsDone := countsAsDone.or item.countsAsDone }) fun _ => rfl })

theorem touched_id (issue : Backlog.Issue) : issue.id = issue.id := rfl

/-- `DELETE FROM taxonomy_items`: the references of issues are cleared. -/
def deleteItem (projectId : Uuid) (kind : TaxonomyKind) (id : Uuid) (s : State) : Bool × State :=
  if s.items.rows.any (isItem projectId kind id) then
    (true, { s with
      items := s.items.erase (isItem projectId kind id)
      backlog := Backlog.updateIssues (fun issue => s.statusOf issue.id == some id)
        (fun issue => issue) touched_id s.backlog
      statusOf := fun issueId =>
        if s.statusOf issueId = some id then none else s.statusOf issueId })
  else (false, s)

end State

/-! ## Statements -/

inductive Stmt : Type → Type where
  | getIssue (projectId id : Uuid) : Stmt (Except DbError (Option (Issue × Option Uuid)))
  | issueInProject (projectId id : Uuid) : Stmt (Except DbError Bool)
  | parentChainContains (projectId start needle : Uuid) : Stmt (Except DbError Bool)
  | epicInProject (projectId id : Uuid) : Stmt (Except DbError Bool)
  | selectEpic (projectId id : Uuid) : Stmt (Except DbError (Option Epic))
  | milestoneInProject (projectId id : Uuid) : Stmt (Except DbError Bool)
  | milestoneClosed (projectId id : Uuid) : Stmt (Except DbError Bool)
  | hasEpics (projectId id : Uuid) : Stmt (Except DbError Bool)
  | newStatusId (projectId : Uuid) : Stmt (Except DbError (Option Uuid))
  | insertIssue (projectId : Uuid) (w : IssueWrite) : Stmt (Except DbError Uuid)
  | updateIssue (projectId id : Uuid) (version : Nat) (w : IssueWrite) : Stmt (Except DbError Bool)
  | linkIssue (id : Uuid) (parentId epicId : Option Uuid) : Stmt (Except DbError Unit)
  | touchIssue (id : Uuid) : Stmt (Except DbError Unit)
  | softDeleteIssue (projectId id : Uuid) : Stmt (Except DbError Bool)
  | purgeIssues (projectId : Uuid) : Stmt (Except DbError Unit)
  | insertEpic (projectId : Uuid) (milestoneId : Option Uuid) : Stmt (Except DbError Uuid)
  | updateEpic (projectId id : Uuid) (version : Nat) (milestoneId : Option Uuid) :
      Stmt (Except DbError Bool)
  | touchEpic (id : Uuid) : Stmt (Except DbError Unit)
  | softDeleteEpic (projectId id : Uuid) : Stmt (Except DbError Bool)
  | purgeEpics (projectId : Uuid) : Stmt (Except DbError Unit)
  | detachEpics (projectId milestoneId : Uuid) : Stmt (Except DbError Unit)
  | attachEpics (projectId milestoneId : Uuid) (ids : List Uuid) : Stmt (Except DbError Unit)
  | insertMilestone (projectId : Uuid) : Stmt (Except DbError Uuid)
  | setMilestoneClosed (projectId id : Uuid) (closed : Bool) : Stmt (Except DbError Bool)
  | softDeleteMilestone (projectId id : Uuid) : Stmt (Except DbError Bool)
  | insertItem (projectId : Uuid) (kind : TaxonomyKind) (countsAsDone : Option Bool) :
      Stmt (Except DbError Uuid)
  | updateItem (projectId : Uuid) (kind : TaxonomyKind) (id : Uuid) (countsAsDone : Option Bool) :
      Stmt (Except DbError Bool)
  | deleteItem (projectId : Uuid) (kind : TaxonomyKind) (id : Uuid) : Stmt (Except DbError Bool)
  | referenceCount (id : Uuid) : Stmt (Except DbError Nat)

/-- What the environment decides about a statement. -/
structure Choice where
  elapse : Nat := 0
  fails : Bool := false
  newStatus : Option Uuid := none
  otherReferences : Nat := 0
  deriving DecidableEq, Repr

/-- A statement that changes the backlog alone. -/
def State.write {α : Type} (result : α) (stmt : Backlog.Stmt) (s : State) :
    Except DbError α × State :=
  (.ok result, { s with backlog := stmt.exec s.backlog })

/-- The effect of a statement that does not fail. -/
def Stmt.effect {β : Type} (stmt : Stmt β) (choice : Choice) (s : State) : β × State :=
  match stmt with
  | .getIssue projectId id => (.ok (s.getIssue projectId id), s)
  | .issueInProject projectId id => (.ok (Backlog.issueInProject s.backlog projectId id), s)
  | .parentChainContains projectId start needle =>
      (.ok (Backlog.parentChainContains s.backlog projectId start needle), s)
  | .epicInProject projectId id => (.ok (Backlog.epicInProject s.backlog projectId id), s)
  | .selectEpic projectId id => (.ok (s.selectEpic projectId id), s)
  | .milestoneInProject projectId id => (.ok (s.getMilestone projectId id).isSome, s)
  | .milestoneClosed projectId id => (.ok (s.milestoneClosed projectId id), s)
  | .hasEpics projectId id => (.ok (s.hasEpics projectId id), s)
  | .newStatusId _ => (.ok choice.newStatus, s)
  | .insertIssue projectId w => s.insertIssue projectId w
  | .updateIssue projectId id version w => s.updateIssue projectId id version w
  | .linkIssue id parentId epicId => s.write () (.importLinks id parentId epicId)
  | .touchIssue id => s.write () (.touchIssue id)
  | .softDeleteIssue projectId id =>
      s.write (Backlog.issueInProject s.backlog projectId id) (.softDeleteIssue projectId id)
  | .purgeIssues projectId => s.write () (.purgeIssues projectId)
  | .insertEpic projectId milestoneId => s.insertEpic projectId milestoneId
  | .updateEpic projectId id version milestoneId => s.updateEpic projectId id version milestoneId
  | .touchEpic id => s.write () (.touchEpic id)
  | .softDeleteEpic projectId id =>
      s.write (Backlog.epicInProject s.backlog projectId id) (.softDeleteEpic projectId id)
  | .purgeEpics projectId => s.write () (.purgeEpics projectId)
  | .detachEpics projectId milestoneId => s.write () (.detachEpics projectId milestoneId)
  | .attachEpics projectId milestoneId ids => s.write () (.attachEpics projectId milestoneId ids)
  | .insertMilestone projectId => s.insertMilestone projectId
  | .setMilestoneClosed projectId id closed =>
      s.write (s.getMilestone projectId id).isSome (.setMilestoneClosed projectId id closed)
  | .softDeleteMilestone projectId id =>
      s.write (s.getMilestone projectId id).isSome (.softDeleteMilestone projectId id)
  | .insertItem projectId kind countsAsDone => s.insertItem projectId kind countsAsDone
  | .updateItem projectId kind id countsAsDone =>
      (.ok (s.updateItem projectId kind id countsAsDone).1,
        (s.updateItem projectId kind id countsAsDone).2)
  | .deleteItem projectId kind id =>
      (.ok (s.deleteItem projectId kind id).1, (s.deleteItem projectId kind id).2)
  | .referenceCount id => (.ok (s.referenceCount id + choice.otherReferences), s)

/-- The result of a statement that fails. -/
def Stmt.failure {β : Type} (stmt : Stmt β) : β :=
  match stmt with
  | .getIssue _ _ => .error .failed
  | .issueInProject _ _ => .error .failed
  | .parentChainContains _ _ _ => .error .failed
  | .epicInProject _ _ => .error .failed
  | .selectEpic _ _ => .error .failed
  | .milestoneInProject _ _ => .error .failed
  | .milestoneClosed _ _ => .error .failed
  | .hasEpics _ _ => .error .failed
  | .newStatusId _ => .error .failed
  | .insertIssue _ _ => .error .failed
  | .updateIssue _ _ _ _ => .error .failed
  | .linkIssue _ _ _ => .error .failed
  | .touchIssue _ => .error .failed
  | .softDeleteIssue _ _ => .error .failed
  | .purgeIssues _ => .error .failed
  | .insertEpic _ _ => .error .failed
  | .updateEpic _ _ _ _ => .error .failed
  | .touchEpic _ => .error .failed
  | .softDeleteEpic _ _ => .error .failed
  | .purgeEpics _ => .error .failed
  | .detachEpics _ _ => .error .failed
  | .attachEpics _ _ _ => .error .failed
  | .insertMilestone _ => .error .failed
  | .setMilestoneClosed _ _ _ => .error .failed
  | .softDeleteMilestone _ _ => .error .failed
  | .insertItem _ _ _ => .error .failed
  | .updateItem _ _ _ _ => .error .failed
  | .deleteItem _ _ _ => .error .failed
  | .referenceCount _ => .error .failed

/-- Time passes. -/
def State.wait (elapse : Nat) (s : State) : State :=
  { s with backlog := { s.backlog with now := s.backlog.now + elapse } }

/-- Time passes, then the statement runs or fails. -/
def Stmt.exec {β : Type} (stmt : Stmt β) (choice : Choice) (s : State) : β × State :=
  if choice.fails then (stmt.failure, s.wait choice.elapse)
  else stmt.effect choice (s.wait choice.elapse)

/-! ## Issues -/

abbrev Handler := ExceptT Problem (Prog Stmt)

inductive Answer where
  | row (status : Nat) (id : Uuid)
  | rows (ids : List Uuid)
  | imported (issues epics skipped : Nat)
  | deleted
  | noContent
  deriving DecidableEq, Repr

def invalidAssociation (detail : String) : Problem := unprocessable "invalid_association" detail

/-- The epic of `validate_issue_associations`. -/
def validateEpic (projectId : Uuid) : Option Uuid → Handler Unit
  | none => pure ()
  | some id => do
      refuseUnless (← orDefault (.epicInProject projectId id) false)
        (invalidAssociation "epic is not in this project")

/-- The parent of `validate_issue_associations`. -/
def validateParent (projectId : Uuid) : Option Uuid → Handler Unit
  | none => pure ()
  | some id => do
      refuseUnless (← orDefault (.issueInProject projectId id) false)
        (invalidAssociation "parent issue is not in this project")

/-- `validate_issue_associations`. -/
def validateIssueAssociations (projectId : Uuid) (epicId parentId milestoneId : Option Uuid) :
    Handler Unit := do
  given (Backlog.Api.rejectIssueMilestoneWrite milestoneId)
  validateEpic projectId epicId
  validateParent projectId parentId

/-- A new issue, and the outcome of the checks of its other columns. -/
structure CreateIssueRequest where
  statusId : Option Uuid := none
  epicId : Option Uuid := none
  parentId : Option Uuid := none
  milestoneId : Option Uuid := none
  extras : Option Problem := none
  deriving DecidableEq, Repr

/-- `write_from_create`. -/
def CreateIssueRequest.write (req : CreateIssueRequest) : IssueWrite :=
  ⟨req.statusId, req.epicId, req.parentId, none⟩

/-- The status of a new issue. -/
def statusOrNew (projectId : Uuid) : Option Uuid → Handler (Option Uuid)
  | some id => pure (some id)
  | none => orRefuse (.newStatusId projectId) internal

/-- `create_issue` of `db::backlog`. -/
def insertRow (projectId : Uuid) (w : IssueWrite) : Handler Uuid := do
  let statusId ← statusOrNew projectId w.statusId
  orRefuse (.insertIssue projectId { w with statusId := statusId }) internal

/-- The checks of one issue that is to be created. -/
def validateNew (projectId : Uuid) (req : CreateIssueRequest) : Handler Unit := do
  validateIssueAssociations projectId req.epicId req.parentId req.milestoneId
  given (screen req.extras)

/-- `create_issue`; the sets of the issue are written to other tables, and their
triggers touch its row. -/
def createIssue (projectId : Uuid) (refused : Option Problem) (req : CreateIssueRequest) :
    Handler Answer := do
  given (screen refused)
  validateNew projectId req
  let id ← insertRow projectId req.write
  orRefuse (.touchIssue id) internal
  return .row 201 id

/-- The second loop of `bulk_create_issues`. -/
def insertAll (projectId : Uuid) : List CreateIssueRequest → Handler (List Uuid)
  | [] => pure []
  | req :: reqs => do
      let id ← insertRow projectId req.write
      orRefuse (.touchIssue id) internal
      return id :: (← insertAll projectId reqs)

/-- `bulk_create_issues`. -/
def bulkCreateIssues (projectId : Uuid) (refused : Option Problem)
    (reqs : List CreateIssueRequest) : Handler Answer := do
  given (screen refused)
  reqs.forM (validateNew projectId)
  return .rows (← insertAll projectId reqs)

/-- The patch of `update_issue`; an inner `none` clears the column. -/
structure UpdateIssueRequest where
  statusId : Option (Option Uuid) := none
  epicId : Option (Option Uuid) := none
  parentId : Option (Option Uuid) := none
  milestoneId : Option (Option Uuid) := none
  deriving DecidableEq, Repr

/-- The write-set: the patch over the stored row. -/
def UpdateIssueRequest.over (patch : UpdateIssueRequest) (old : Issue) (statusId : Option Uuid) :
    IssueWrite where
  statusId := patch.statusId.getD statusId
  epicId := patch.epicId.getD old.epicId
  parentId := patch.parentId.getD old.parentId
  milestoneId := old.milestoneId

/-- Only links that change are checked. -/
def validateChanges (projectId : Uuid) (old : Issue) (w : IssueWrite) : Handler Unit :=
  if w.epicId != old.epicId || w.parentId != old.parentId then
    validateIssueAssociations projectId (if w.epicId != old.epicId then w.epicId else none)
      (if w.parentId != old.parentId then w.parentId else none) none
  else pure ()

/-- The new parent must not descend from the issue. -/
def rejectCycle (projectId id : Uuid) (old : Issue) (parentId : Option Uuid) : Handler Unit := do
  refuseUnless (parentId != some id) (invalidAssociation "an issue cannot be its own parent")
  match parentId with
  | none => pure ()
  | some parent =>
      if parentId != old.parentId then
        refuseUnless (!(← orDefault (.parentChainContains projectId parent id) false))
          (invalidAssociation "parent would create a cycle in the issue hierarchy")
      else pure ()

def preconditionFailed : Problem := ⟨412, "precondition_failed", "Precondition Failed", none⟩

/-- `bl::update_issue`. -/
def writePatch (projectId id : Uuid) (version : Nat) (w : IssueWrite) : Handler Unit := do
  if ← orRefuse (.updateIssue projectId id version w) internal then pure ()
  else if ← orRefuse (.issueInProject projectId id) internal then throw preconditionFailed
  else throw notFound

/-- `update_issue`; the two outcomes are those of the checks before and after the links. -/
def updateIssue (projectId id : Uuid) (refused extras : Option Problem) (header : IfMatch)
    (patch : UpdateIssueRequest) : Handler Answer := do
  given (screen refused)
  match ← orRefuse (.getIssue projectId id) notFound with
  | none => throw notFound
  | some (old, statusId) =>
      given (checkIfMatch header (old.id, old.version))
      given (Backlog.Api.rejectIssueMilestoneWrite patch.milestoneId.join)
      validateChanges projectId old (patch.over old statusId)
      rejectCycle projectId id old (patch.over old statusId).parentId
      given (screen extras)
      writePatch projectId id old.version (patch.over old statusId)
      orRefuse (.touchIssue id) internal
      return .row 200 id

/-- A statement that must find its row. -/
def mustFind (stmt : Stmt (Except DbError Bool)) : Handler Unit := do
  refuseUnless (← orRefuse stmt internal) notFound

/-- `delete_issue`; the check of a closed status is among the refusals. -/
def deleteIssue (projectId id : Uuid) (refused : Option Problem) : Handler Answer := do
  given (screen refused)
  mustFind (.softDeleteIssue projectId id)
  return .noContent

/-- `move_issue`, which writes the order of the project's issues. -/
def moveIssue (refused : Option Problem) (ids : List Uuid) : Handler Answer := do
  given (screen refused)
  ids.forM fun id => orRefuse (.touchIssue id) internal
  return .noContent

/-- `purge_issues`. -/
def purgeIssues (projectId : Uuid) (refused : Option Problem) : Handler Answer := do
  given (screen refused)
  orRefuse (.purgeIssues projectId) internal
  return .deleted

/-! ## Import -/

/-- The columns of a `ParsedRow` that links are made of, and its status in the mapping. -/
structure ParsedRow where
  externalId : String
  externalKey : String
  parentRef : String
  epicRef : String
  isEpic : Bool
  statusId : Option Uuid
  deriving DecidableEq, Repr

/-- The maps of the first pass. -/
structure Created where
  byId : RefMap := fun _ => none
  byKey : RefMap := fun _ => none
  epicById : RefMap := fun _ => none
  epicByKey : RefMap := fun _ => none
  created : List (ParsedRow × Uuid) := []
  epics : Nat := 0
  skipped : Nat := 0

def Created.addEpic (maps : Created) (row : ParsedRow) (id : Uuid) : Created :=
  { maps with
    epicById := maps.epicById.insert row.externalId id
    epicByKey := maps.epicByKey.insert row.externalKey id
    epics := maps.epics + 1 }

def Created.addIssue (maps : Created) (row : ParsedRow) (id : Uuid) : Created :=
  { maps with
    byId := maps.byId.insert row.externalId id
    byKey := maps.byKey.insert row.externalKey id
    created := maps.created ++ [(row, id)] }

def Created.skip (maps : Created) : Created := { maps with skipped := maps.skipped + 1 }

/-- An issue of the first pass; a row that cannot be inserted is skipped. -/
def importIssue (projectId : Uuid) (maps : Created) (row : ParsedRow) (statusId : Option Uuid) :
    Handler Created := do
  match ← attempted (.insertIssue projectId ⟨statusId, none, none, none⟩) with
  | .ok id => return maps.addIssue row id
  | .error _ => return maps.skip

/-- A row of the first pass. -/
def importRow (projectId : Uuid) (maps : Created) (row : ParsedRow) : Handler Created :=
  if row.isEpic then do
    match ← attempted (.insertEpic projectId none) with
    | .ok id => return maps.addEpic row id
    | .error _ => return maps.skip
  else
    match row.statusId with
    | some statusId => importIssue projectId maps row (some statusId)
    | none => do
        match ← attempted (.newStatusId projectId) with
        | .ok statusId => importIssue projectId maps row statusId
        | .error _ => return maps.skip

def Created.parentOf (maps : Created) (row : ParsedRow) : Option Uuid :=
  (maps.byId row.parentRef).or (maps.byKey row.parentRef)

def Created.epicOf (maps : Created) (row : ParsedRow) : Option Uuid :=
  (maps.epicByKey row.epicRef).or (maps.epicById row.epicRef)

/-- A row of the second pass; a failing update is ignored. -/
def linkRow (maps : Created) (row : ParsedRow × Uuid) : Handler Unit :=
  if (maps.parentOf row.1).isSome || (maps.epicOf row.1).isSome then
    orDefault (.linkIssue row.2 (maps.parentOf row.1) (maps.epicOf row.1)) ()
  else pure ()

/-- `import_commit`, of a file that parses; the items it creates are `newItems`. -/
def importCommit (projectId : Uuid) (refused : Option Problem) (newItems : List TaxonomyKind)
    (rows : List ParsedRow) : Handler Answer := do
  given (screen refused)
  newItems.forM fun kind => do
    let _ ← attempted (.insertItem projectId kind none)
  let maps ← rows.foldlM (importRow projectId) {}
  maps.created.forM (linkRow maps)
  return .imported maps.created.length maps.epics maps.skipped

/-! ## Epics -/

def refuseCompleted (projectId id : Uuid) : Handler Unit := do
  refuseUnless (!(← orDefault (.milestoneClosed projectId id) false))
    ⟨409, "milestone_closed", "Milestone completed",
      some "cannot add an epic to a completed milestone"⟩

/-- `validate_epic_milestone_assignment`. -/
def validateEpicMilestoneAssignment (projectId : Uuid) : Option Uuid → Handler Unit
  | none => pure ()
  | some id => do
      refuseUnless (← orDefault (.milestoneInProject projectId id) false)
        (invalidAssociation "milestone is not in this project")
      refuseCompleted projectId id

/-- `create_epic`. -/
def createEpic (projectId : Uuid) (refused : Option Problem) (milestoneId : Option Uuid) :
    Handler Answer := do
  given (screen refused)
  validateEpicMilestoneAssignment projectId milestoneId
  return .row 201 (← orRefuse (.insertEpic projectId milestoneId) internal)

/-- Only an epic that moves has its milestone checked. -/
def validateMove (projectId : Uuid) (old : Epic) (milestoneId : Option Uuid) : Handler Unit :=
  if milestoneId != old.milestoneId then validateEpicMilestoneAssignment projectId milestoneId
  else pure ()

/-- The write phase of `update_epic`. -/
def writeEpic (projectId id : Uuid) (version : Nat) (milestoneId : Option Uuid) :
    Handler Unit := do
  if ← orRefuse (.updateEpic projectId id version milestoneId) internal then pure ()
  else if (← orRefuse (.selectEpic projectId id) internal).isSome then throw preconditionFailed
  else throw notFound

/-- `update_epic`; an inner `none` detaches the epic. -/
def updateEpic (projectId id : Uuid) (refused : Option Problem) (header : IfMatch)
    (patch : Option (Option Uuid)) : Handler Answer := do
  given (screen refused)
  match ← orRefuse (.selectEpic projectId id) notFound with
  | none => throw notFound
  | some old =>
      given (checkIfMatch header (old.id, old.version))
      validateMove projectId old (patch.getD old.milestoneId)
      writeEpic projectId id old.version (patch.getD old.milestoneId)
      return .row 200 id

/-- `delete_epic`. -/
def deleteEpic (projectId id : Uuid) (refused : Option Problem) : Handler Answer := do
  given (screen refused)
  mustFind (.softDeleteEpic projectId id)
  return .noContent

/-- `move_epic`, and the covers of epics. -/
def touchEpics (refused : Option Problem) (ids : List Uuid) : Handler Answer := do
  given (screen refused)
  ids.forM fun id => orRefuse (.touchEpic id) internal
  return .noContent

/-- `purge_epics`. -/
def purgeEpics (projectId : Uuid) (refused : Option Problem) : Handler Answer := do
  given (screen refused)
  orRefuse (.purgeEpics projectId) internal
  return .deleted

/-! ## Milestones -/

/-- `create` of `api::milestones`. -/
def createMilestone (projectId : Uuid) (refused : Option Problem) : Handler Answer := do
  given (screen refused)
  return .row 201 (← orRefuse (.insertMilestone projectId) internal)

/-- `close` and `reopen`. -/
def setCompleted (projectId id : Uuid) (refused : Option Problem) (completed : Bool) :
    Handler Answer := do
  given (screen refused)
  mustFind (.setMilestoneClosed projectId id completed)
  return .row 200 id

/-- `set_milestone_epics`. -/
def replaceEpics (projectId id : Uuid) (ids : List Uuid) : Handler Unit := do
  orRefuse (.detachEpics projectId id) internal
  if ids.isEmpty then pure () else orRefuse (.attachEpics projectId id ids) internal

/-- Nothing is added to a completed milestone. -/
def refuseAdding (projectId id : Uuid) (ids : List Uuid) : Handler Unit :=
  if ids.isEmpty then pure () else refuseCompleted projectId id

/-- `set_epics`. -/
def setEpics (projectId id : Uuid) (refused : Option Problem) (ids : List Uuid) :
    Handler Answer := do
  given (screen refused)
  refuseUnless (← orDefault (.milestoneInProject projectId id) false) notFound
  refuseAdding projectId id ids
  replaceEpics projectId id ids
  return .noContent

/-- `delete` of `api::milestones`. -/
def deleteMilestone (projectId id : Uuid) (refused : Option Problem) : Handler Answer := do
  given (screen refused)
  refuseUnless (!(← orRefuse (.hasEpics projectId id) internal))
    ⟨409, "milestone_has_epics", "Milestone not empty",
      some "remove every epic from the milestone before deleting it"⟩
  mustFind (.softDeleteMilestone projectId id)
  return .noContent

/-! ## Statuses -/

def hasCountsAsDone (kind : TaxonomyKind) : Bool := kind == .issueStatus

/-- `create` of `api::taxonomy`: only a kind that has the flag gets one. -/
def createItem (projectId : Uuid) (refused : Option Problem) (kind : TaxonomyKind)
    (countsAsDone : Option Bool) : Handler Answer := do
  given (screen refused)
  return .row 201 (← orRefuse (.insertItem projectId kind
    (if hasCountsAsDone kind then some (countsAsDone.getD false) else none)) internal)

/-- `update` of `api::taxonomy`. -/
def updateItem (projectId : Uuid) (refused : Option Problem) (kind : TaxonomyKind) (id : Uuid)
    (countsAsDone : Option Bool) : Handler Answer := do
  given (screen refused)
  mustFind (.updateItem projectId kind id (if hasCountsAsDone kind then countsAsDone else none))
  return .row 200 id

/-- `delete` of `api::taxonomy`. -/
def deleteItem (projectId : Uuid) (refused : Option Problem) (kind : TaxonomyKind) (id : Uuid) :
    Handler Answer := do
  given (screen refused)
  let count ← orRefuse (.referenceCount id) internal
  refuseUnless (count == 0) ⟨409, "in_use", "Taxonomy item in use", some (toString count ++ " " ++
    (if count = 1 then "entity references" else "entities reference") ++ " this item")⟩
  mustFind (.deleteItem projectId kind id)
  return .noContent

/-! ## Requests -/

inductive Request where
  | createIssue (projectId : Uuid) (refused : Option Problem) (req : CreateIssueRequest)
  | bulkCreateIssues (projectId : Uuid) (refused : Option Problem) (reqs : List CreateIssueRequest)
  | updateIssue (projectId id : Uuid) (refused extras : Option Problem) (header : IfMatch)
      (patch : UpdateIssueRequest)
  | deleteIssue (projectId id : Uuid) (refused : Option Problem)
  | moveIssue (refused : Option Problem) (ids : List Uuid)
  | purgeIssues (projectId : Uuid) (refused : Option Problem)
  | importCommit (projectId : Uuid) (refused : Option Problem) (newItems : List TaxonomyKind)
      (rows : List ParsedRow)
  | createEpic (projectId : Uuid) (refused : Option Problem) (milestoneId : Option Uuid)
  | updateEpic (projectId id : Uuid) (refused : Option Problem) (header : IfMatch)
      (patch : Option (Option Uuid))
  | deleteEpic (projectId id : Uuid) (refused : Option Problem)
  | touchEpics (refused : Option Problem) (ids : List Uuid)
  | purgeEpics (projectId : Uuid) (refused : Option Problem)
  | createMilestone (projectId : Uuid) (refused : Option Problem)
  | setCompleted (projectId id : Uuid) (refused : Option Problem) (completed : Bool)
  | setEpics (projectId id : Uuid) (refused : Option Problem) (ids : List Uuid)
  | deleteMilestone (projectId id : Uuid) (refused : Option Problem)
  | createItem (projectId : Uuid) (refused : Option Problem) (kind : TaxonomyKind)
      (countsAsDone : Option Bool)
  | updateItem (projectId : Uuid) (refused : Option Problem) (kind : TaxonomyKind) (id : Uuid)
      (countsAsDone : Option Bool)
  | deleteItem (projectId : Uuid) (refused : Option Problem) (kind : TaxonomyKind) (id : Uuid)

def Request.handler : Request → Handler Answer
  | .createIssue projectId refused req => Progress.createIssue projectId refused req
  | .bulkCreateIssues projectId refused reqs => Progress.bulkCreateIssues projectId refused reqs
  | .updateIssue projectId id refused extras header patch =>
      Progress.updateIssue projectId id refused extras header patch
  | .deleteIssue projectId id refused => Progress.deleteIssue projectId id refused
  | .moveIssue refused ids => Progress.moveIssue refused ids
  | .purgeIssues projectId refused => Progress.purgeIssues projectId refused
  | .importCommit projectId refused newItems rows =>
      Progress.importCommit projectId refused newItems rows
  | .createEpic projectId refused milestoneId => Progress.createEpic projectId refused milestoneId
  | .updateEpic projectId id refused header patch =>
      Progress.updateEpic projectId id refused header patch
  | .deleteEpic projectId id refused => Progress.deleteEpic projectId id refused
  | .touchEpics refused ids => Progress.touchEpics refused ids
  | .purgeEpics projectId refused => Progress.purgeEpics projectId refused
  | .createMilestone projectId refused => Progress.createMilestone projectId refused
  | .setCompleted projectId id refused completed =>
      Progress.setCompleted projectId id refused completed
  | .setEpics projectId id refused ids => Progress.setEpics projectId id refused ids
  | .deleteMilestone projectId id refused => Progress.deleteMilestone projectId id refused
  | .createItem projectId refused kind countsAsDone =>
      Progress.createItem projectId refused kind countsAsDone
  | .updateItem projectId refused kind id countsAsDone =>
      Progress.updateItem projectId refused kind id countsAsDone
  | .deleteItem projectId refused kind id => Progress.deleteItem projectId refused kind id

/-- All the handlers as programs of interleaved statements. -/
def service : Service Stmt State Choice Request (Except Problem Answer) where
  exec := Stmt.exec
  handler request := request.handler.run

end IntelliPilot.Progress
