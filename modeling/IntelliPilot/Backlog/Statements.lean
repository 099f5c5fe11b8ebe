import IntelliPilot.Backlog.Schema

/-! # Backlog statements

The SQL that writes the backlog tables, with the triggers and foreign-key
actions that run inside each statement. A statement that violates a key fails
and changes nothing.
-/

namespace IntelliPilot.Backlog

open Rows

/-! ## Triggers -/

/-- `issue_milestone_from_epic`: the milestone of the live epic. -/
def milestoneFromEpic (db : Db) (issue : Issue) : Issue :=
  { issue with
    milestoneId := (issue.epicId.bind db.epic?).bind fun epic =>
      if epic.live then epic.milestoneId else none }

/-- `set_modified_at`. -/
def setModifiedAt (db : Db) (issue : Issue) : Issue := { issue with modifiedAt := db.now }

/-- `UPDATE issues SET f WHERE p`, with its row triggers. -/
def updateIssues (p : Issue → Bool) (f : Issue → Issue) (hf : ∀ issue, (f issue).id = issue.id)
    (db : Db) : Db :=
  { db with
    issues := db.issues.modify p (fun issue => setModifiedAt db (milestoneFromEpic db (f issue))) hf }

theorem mem_updateIssues {p : Issue → Bool} {f : Issue → Issue}
    {hf : ∀ issue, (f issue).id = issue.id} {db : Db} {issue : Issue} :
    issue ∈ (updateIssues p f hf db).issues.rows ↔ ∃ old ∈ db.issues.rows,
      (if p old then setModifiedAt db (milestoneFromEpic db (f old)) else old) = issue :=
  mem_updateWhere

/-- `epic_milestone_cascade`. -/
def epicMilestoneCascade (new : Epic) (db : Db) : Db :=
  let effective := if new.live then new.milestoneId else none
  updateIssues (fun issue => issue.epicId == some new.id && issue.milestoneId != effective)
    (fun issue => { issue with milestoneId := effective }) (fun _ => rfl) db

/-- The condition of the trigger `epics_milestone_cascade`. -/
def cascades (old new : Epic) : Bool :=
  new.milestoneId != old.milestoneId || new.live != old.live

/-- `UPDATE epics SET f WHERE p` for a `SET` list with `milestone_id` or
`deleted_at`: once all rows are written, each changed one fires the cascade. -/
def updateEpics (p : Epic → Bool) (f : Epic → Epic) (hf : ∀ epic, (f epic).id = epic.id)
    (db : Db) : Db :=
  (db.epics.rows.filter fun old => p old && cascades old (f old)).foldl
    (fun db old => epicMilestoneCascade (f old) db)
    { db with epics := db.epics.modify p f hf }

/-- `UPDATE epics` for any other `SET` list, which fires no cascade. -/
def rewriteEpics (p : Epic → Bool) (f : Epic → Epic) (hf : ∀ epic, (f epic).id = epic.id)
    (db : Db) : Db :=
  { db with epics := db.epics.modify p f hf }

/-! ## Statements -/

/-- A foreign key that is absent or leads to a row. -/
def references {α : Type} (key : Option Uuid) (find : Uuid → Option α) : Bool :=
  key.all fun id => (find id).isSome

inductive Stmt where
  | createIssue (id projectId : Uuid) (epicId parentId milestoneId : Option Uuid)
  | updateIssue (projectId id : Uuid) (version : Nat) (epicId parentId milestoneId : Option Uuid)
  | importLinks (id : Uuid) (parentId epicId : Option Uuid)
  | touchIssue (id : Uuid)
  | softDeleteIssue (projectId id : Uuid)
  | purgeIssues (projectId : Uuid)
  | createEpic (id projectId : Uuid) (milestoneId : Option Uuid)
  | updateEpic (projectId id : Uuid) (version : Nat) (milestoneId : Option Uuid)
  | touchEpic (id : Uuid)
  | softDeleteEpic (projectId id : Uuid)
  | detachEpics (projectId milestoneId : Uuid)
  | attachEpics (projectId milestoneId : Uuid) (ids : List Uuid)
  | purgeEpics (projectId : Uuid)
  | createMilestone (id projectId : Uuid)
  | setMilestoneClosed (projectId id : Uuid) (closed : Bool)
  | softDeleteMilestone (projectId id : Uuid)
  deriving DecidableEq, Repr

/-- `INSERT INTO issues`, in `create_issue`. -/
def createIssue (id projectId : Uuid) (epicId parentId milestoneId : Option Uuid) (db : Db) : Db :=
  if references epicId db.epic? && references parentId db.issue? then
    let row := milestoneFromEpic db ⟨id, projectId, epicId, parentId, milestoneId, 1, db.now, none⟩
    ((db.issues.insert? row).map fun issues => { db with issues := issues }).getD db
  else db

/-- `WHERE id = $1 AND project_id = $2 AND version = $3 AND deleted_at IS NULL`. -/
def Issue.current (projectId id : Uuid) (version : Nat) (issue : Issue) : Bool :=
  issue.id == id && issue.projectId == projectId && issue.version == version && issue.live

/-- `UPDATE issues` in `update_issue`. -/
def updateIssue (projectId id : Uuid) (version : Nat) (epicId parentId milestoneId : Option Uuid)
    (db : Db) : Db :=
  if references epicId db.epic? && references parentId db.issue? then
    updateIssues (Issue.current projectId id version)
      (fun issue => { issue with epicId := epicId, parentId := parentId, milestoneId := milestoneId,
                                 version := issue.version + 1 }) (fun _ => rfl) db
  else db

/-- The link update of `import_commit`. -/
def importLinks (id : Uuid) (parentId epicId : Option Uuid) (db : Db) : Db :=
  if references epicId db.epic? && references parentId db.issue? then
    updateIssues (·.id == id)
      (fun issue => { issue with parentId := parentId.or issue.parentId,
                                 epicId := epicId.or issue.epicId }) (fun _ => rfl) db
  else db

/-- `UPDATE issues` of columns left out here: the order, the release version. -/
def touchIssue (id : Uuid) (db : Db) : Db := updateIssues (·.id == id) (fun issue => issue) (fun _ => rfl) db

/-- `soft_delete` of an issue. -/
def softDeleteIssue (projectId id : Uuid) (db : Db) : Db :=
  updateIssues (fun issue => issue.id == id && issue.projectId == projectId && issue.live)
    (fun issue => { issue with deletedAt := some db.now }) (fun _ => rfl) db

/-- `DELETE FROM issues WHERE project_id = $1`, in `purge_project_issues`; the
parent references to deleted rows are cleared. -/
def purgeIssues (projectId : Uuid) (db : Db) : Db :=
  let kept := { db with issues := db.issues.erase (·.projectId == projectId) }
  updateIssues (fun issue => issue.parentId.any fun id =>
      (db.issue? id).any (·.projectId == projectId))
    (fun issue => { issue with parentId := none }) (fun _ => rfl) kept

/-- `INSERT INTO epics`, in `create_epic`. -/
def createEpic (id projectId : Uuid) (milestoneId : Option Uuid) (db : Db) : Db :=
  if references milestoneId db.milestone? then
    ((db.epics.insert? ⟨id, projectId, milestoneId, 1, none⟩).map
      fun epics => { db with epics := epics }).getD db
  else db

/-- `UPDATE epics` in `update_epic`. -/
def updateEpic (projectId id : Uuid) (version : Nat) (milestoneId : Option Uuid) (db : Db) : Db :=
  if references milestoneId db.milestone? then
    updateEpics (fun epic => epic.id == id && epic.projectId == projectId &&
        epic.version == version && epic.live)
      (fun epic => { epic with milestoneId := milestoneId, version := epic.version + 1 })
      (fun _ => rfl) db
  else db

/-- `UPDATE epics` of columns left out here: the order, the cover image. -/
def touchEpic (id : Uuid) (db : Db) : Db := rewriteEpics (·.id == id) (fun epic => epic) (fun _ => rfl) db

/-- `soft_delete` of an epic. -/
def softDeleteEpic (projectId id : Uuid) (db : Db) : Db :=
  updateEpics (fun epic => epic.id == id && epic.projectId == projectId && epic.live)
    (fun epic => { epic with deletedAt := some db.now }) (fun _ => rfl) db

/-- The first statement of `set_milestone_epics`. -/
def detachEpics (projectId milestoneId : Uuid) (db : Db) : Db :=
  updateEpics (fun epic => epic.projectId == projectId && epic.milestoneId == some milestoneId &&
      epic.live)
    (fun epic => { epic with milestoneId := none }) (fun _ => rfl) db

/-- The second statement of `set_milestone_epics`. -/
def attachEpics (projectId milestoneId : Uuid) (ids : List Uuid) (db : Db) : Db :=
  if references (some milestoneId) db.milestone? then
    updateEpics (fun epic => epic.projectId == projectId && ids.contains epic.id && epic.live)
      (fun epic => { epic with milestoneId := some milestoneId }) (fun _ => rfl) db
  else db

/-- `DELETE FROM epics WHERE project_id = $1`, in `purge_project_epics`; the
issues' references to deleted rows are cleared. -/
def purgeEpics (projectId : Uuid) (db : Db) : Db :=
  let kept := { db with epics := db.epics.erase (·.projectId == projectId) }
  updateIssues (fun issue => issue.epicId.any fun id =>
      (db.epic? id).any (·.projectId == projectId))
    (fun issue => { issue with epicId := none }) (fun _ => rfl) kept

/-- `INSERT INTO milestones`. -/
def createMilestone (id projectId : Uuid) (db : Db) : Db :=
  ((db.milestones.insert? ⟨id, projectId, false, none⟩).map
    fun milestones => { db with milestones := milestones }).getD db

/-- The updates of `milestones`, none of which touches another table. -/
def updateMilestones (projectId id : Uuid) (f : Milestone → Milestone)
    (hf : ∀ milestone, (f milestone).id = milestone.id) (db : Db) : Db :=
  { db with
    milestones := db.milestones.modify (fun milestone => milestone.id == id &&
      milestone.projectId == projectId && milestone.live) f hf }

def setMilestoneClosed (projectId id : Uuid) (closed : Bool) (db : Db) : Db :=
  updateMilestones projectId id (fun milestone => { milestone with closed := closed })
    (fun _ => rfl) db

/-- `milestones::soft_delete`. -/
def softDeleteMilestone (projectId id : Uuid) (db : Db) : Db :=
  updateMilestones projectId id (fun milestone => { milestone with deletedAt := some db.now })
    (fun _ => rfl) db

def Stmt.exec : Stmt → Db → Db
  | .createIssue id projectId epicId parentId milestoneId =>
      Backlog.createIssue id projectId epicId parentId milestoneId
  | .updateIssue projectId id version epicId parentId milestoneId =>
      Backlog.updateIssue projectId id version epicId parentId milestoneId
  | .importLinks id parentId epicId => Backlog.importLinks id parentId epicId
  | .touchIssue id => Backlog.touchIssue id
  | .softDeleteIssue projectId id => Backlog.softDeleteIssue projectId id
  | .purgeIssues projectId => Backlog.purgeIssues projectId
  | .createEpic id projectId milestoneId => Backlog.createEpic id projectId milestoneId
  | .updateEpic projectId id version milestoneId =>
      Backlog.updateEpic projectId id version milestoneId
  | .touchEpic id => Backlog.touchEpic id
  | .softDeleteEpic projectId id => Backlog.softDeleteEpic projectId id
  | .detachEpics projectId milestoneId => Backlog.detachEpics projectId milestoneId
  | .attachEpics projectId milestoneId ids => Backlog.attachEpics projectId milestoneId ids
  | .purgeEpics projectId => Backlog.purgeEpics projectId
  | .createMilestone id projectId => Backlog.createMilestone id projectId
  | .setMilestoneClosed projectId id closed => Backlog.setMilestoneClosed projectId id closed
  | .softDeleteMilestone projectId id => Backlog.softDeleteMilestone projectId id

/-- One statement in a transaction of the given time. -/
def step (db : Db) (entry : Int × Stmt) : Db := entry.2.exec { db with now := entry.1 }

/-- A history of the backlog: statements in the order of their effect. -/
def run (db : Db) (history : List (Int × Stmt)) : Db := history.foldl step db

end IntelliPilot.Backlog
