import IntelliPilot.Imports.Tables

/-! # Issues, their sets and their fix versions

The row of an issue with its labels, components, customers and the fix version
of each component, the releases, and the remembered responses. A statement that
violates a key fails and changes nothing. The triggers of migrations V019 and
V022 run inside the statements. Moments of rows, watchers and the fractional
order of issues are left out.
-/

namespace IntelliPilot.Issues

open Rows
open Imports (Uuid Catalog Links)

inductive IssueCategory where
  | customerRequest
  | compliance
  | security
  | roadmap
  | technicalDebt
  | operational
  | researchDiscovery
  | other
  deriving DecidableEq, Repr

inductive Resolution where
  | fixed
  | wontDo
  | duplicate
  | cannotReproduce
  deriving DecidableEq, Repr

/-- `IssueWrite`; dates are days. -/
structure IssueWrite where
  subject : String
  description : String := ""
  statusId : Option Uuid := none
  typeId : Option Uuid := none
  priorityId : Option Uuid := none
  sizeId : Option Uuid := none
  epicId : Option Uuid := none
  parentId : Option Uuid := none
  milestoneId : Option Uuid := none
  assignedTo : Option Uuid := none
  qaAssigneeId : Option Uuid := none
  reviewerId : Option Uuid := none
  category : Option IssueCategory := none
  startDate : Option Int := none
  dueDate : Option Int := none
  resolution : Option Resolution := none
  releaseVersionId : Option Uuid := none
  releaseText : Option String := none
  deriving DecidableEq, Repr

/-- A row of `issues`: the columns a request writes, and the others. -/
structure Issue extends IssueWrite where
  id : Uuid
  projectId : Uuid
  reference : Nat
  ownerId : Uuid
  version : Nat
  deletedAt : Option Int
  deriving DecidableEq, Repr

structure Epic where
  id : Uuid
  projectId : Uuid
  milestoneId : Option Uuid
  deletedAt : Option Int
  deriving DecidableEq, Repr

structure Release where
  id : Uuid
  projectId : Uuid
  deriving DecidableEq, Repr

structure ReleaseVersion where
  id : Uuid
  releaseId : Uuid
  version : String
  order : Nat
  deriving DecidableEq, Repr

structure ComponentVersion where
  componentId : Uuid
  releaseVersionId : Uuid
  deriving DecidableEq, Repr

/-- A row of `issue_component_versions`. -/
structure VersionRow where
  issueId : Uuid
  componentId : Uuid
  releaseVersionId : Uuid
  deriving DecidableEq, Repr

/-- An issue as `get_issue` returns it, with its sets. -/
structure FullIssue extends Issue where
  labels : List Uuid
  components : List Uuid
  componentVersions : List ComponentVersion
  customerIds : List Uuid
  deriving DecidableEq, Repr

/-- A row of `idempotency_keys`. -/
structure StoredKey where
  userId : Uuid
  key : String
  method : String
  path : String
  status : Nat
  body : FullIssue
  expiresAt : Int
  deriving DecidableEq, Repr

structure Db where
  catalog : Catalog
  releases : Table Release.id
  releaseVersions : Table ReleaseVersion.id
  /-- Component and release. -/
  componentReleases : List (Uuid × Uuid)
  epics : Table Epic.id
  issues : Table Issue.id
  issueLabels : Links
  issueComponents : Links
  issueCustomers : Links
  componentVersions : List VersionRow
  lastRef : Uuid → Nat
  keys : List StoredKey
  now : Int

inductive DbError where
  | failed
  | uniqueViolation
  deriving DecidableEq, Repr

/-! ## Triggers -/

/-- `ORDER BY rv."order", rv.id`. -/
def ReleaseVersion.comesBefore (a b : ReleaseVersion) : Prop :=
  a.order < b.order ∨ a.order = b.order ∧ a.id ≤ b.id

instance (a b : ReleaseVersion) : Decidable (a.comesBefore b) :=
  inferInstanceAs (Decidable (_ ∨ _))

/-- `ORDER BY … LIMIT 1`. -/
def firstOf : List ReleaseVersion → Option ReleaseVersion
  | [] => none
  | version :: rest =>
      match firstOf rest with
      | none => some version
      | some best => if version.comesBefore best then some version else some best

namespace Db

def issue? (db : Db) (id : Uuid) : Option Issue := db.issues.find? id

def version? (db : Db) (id : Uuid) : Option ReleaseVersion := db.releaseVersions.find? id

/-- The rows of an issue's component versions. -/
def versionRows (db : Db) (issueId : Uuid) : List VersionRow :=
  db.componentVersions.filter (·.issueId == issueId)

/-- The versions an issue's components have, from the join with `release_versions`. -/
def versionsOf (db : Db) (issueId : Uuid) : List ReleaseVersion :=
  (db.versionRows issueId).filterMap fun row => db.version? row.releaseVersionId

/-- `issue_milestone_from_epic`. -/
def milestoneFromEpic (db : Db) (issue : Issue) : Issue :=
  { issue with
    milestoneId := (issue.epicId.bind db.epics.find?).bind fun epic =>
      if epic.deletedAt.isNone then epic.milestoneId else none }

/-- `UPDATE issues SET f WHERE p`. -/
def updateIssues (p : Issue → Bool) (f : Issue → Issue) (hf : ∀ issue, (f issue).id = issue.id)
    (db : Db) : Db :=
  { db with issues := db.issues.modify p (fun issue => db.milestoneFromEpic (f issue)) hf }

/-- `issue_mirror_release_version`, fired for a row of the issue. -/
def mirror (issueId : Uuid) (db : Db) : Db :=
  let first := (firstOf (db.versionsOf issueId)).map (·.id)
  db.updateIssues (fun issue => issue.id == issueId && issue.releaseVersionId != first)
    (fun issue => { issue with releaseVersionId := first }) (fun _ => rfl)

/-- `DELETE FROM issue_component_versions WHERE p`, with the mirrors it fires. -/
def deleteVersionRows (p : VersionRow → Bool) (db : Db) : Db :=
  (db.componentVersions.filter p).foldl (fun db row => db.mirror row.issueId)
    { db with componentVersions := deleteWhere p db.componentVersions }

/-! ## Statements -/

def hasItem (db : Db) (id : Option Uuid) : Bool := db.catalog.hasItem id

def hasUser (db : Db) (id : Option Uuid) : Bool := db.catalog.hasUser id

/-- The foreign keys of the columns a request writes. -/
def accepts (w : IssueWrite) (db : Db) : Bool :=
  db.hasItem w.statusId && db.hasItem w.typeId && db.hasItem w.priorityId && db.hasItem w.sizeId &&
    db.hasUser w.assignedTo && db.hasUser w.qaAssigneeId && db.hasUser w.reviewerId &&
    w.epicId.all (fun id => (db.epics.find? id).isSome) &&
    w.parentId.all (fun id => (db.issue? id).isSome) &&
    w.releaseVersionId.all fun id => (db.version? id).isSome

/-- `INSERT INTO issues`, in `create_issue`. -/
def insertIssue (projectId ownerId : Uuid) (reference : Nat) (w : IssueWrite) (db : Db) :
    Except DbError Issue × Db :=
  if db.accepts w then
    let issue := db.milestoneFromEpic
      { w with
        id := db.issues.fresh
        projectId := projectId
        reference := reference
        ownerId := ownerId
        version := 1
        deletedAt := none }
    (.ok issue, { db with issues := db.issues.insert issue db.issues.find?_fresh })
  else (.error .failed, db)

/-- `WHERE id = $1 AND project_id = $2 AND version = $3 AND deleted_at IS NULL`. -/
def isCurrent (projectId id : Uuid) (version : Nat) (issue : Issue) : Bool :=
  issue.id == id && issue.projectId == projectId && issue.version == version &&
    issue.deletedAt.isNone

/-- `UPDATE issues` in `update_issue`; without a row nothing is found. -/
def updateIssue (projectId id : Uuid) (version : Nat) (w : IssueWrite) (db : Db) :
    Except DbError (Option Issue) × Db :=
  match (db.issue? id).filter (isCurrent projectId id version) with
  | none => (.ok none, db)
  | some _ =>
      if db.accepts w then
        let db := db.updateIssues (isCurrent projectId id version)
          (fun issue => { issue with toIssueWrite := w, version := issue.version + 1 })
          (fun _ => rfl)
        (.ok (db.issue? id), db)
      else (.error .failed, db)

/-- The transaction that replaces an issue's labels. -/
def setIssueLabels (id : Uuid) (ids : List Uuid) (db : Db) : Option Db :=
  if ids.all fun label => (db.catalog.labels.find? label).isSome then
    some { db with
      issueLabels := Imports.Db.addLinks id ids (deleteWhere (·.1 == id) db.issueLabels) }
  else none

/-- The transaction that replaces an issue's components: those that go take
their versions with them. -/
def setIssueComponents (id : Uuid) (ids : List Uuid) (db : Db) : Option Db :=
  if ids.all fun component => (db.catalog.components.find? component).isSome then
    let db := db.deleteVersionRows fun row => row.issueId == id &&
      db.issueComponents.contains (id, row.componentId) && !ids.contains row.componentId
    some { db with
      issueComponents := Imports.Db.addLinks id ids
        (deleteWhere (fun link => link.1 == id && !ids.contains link.2) db.issueComponents) }
  else none

/-- `INSERT … ON CONFLICT (issue_id, component_id) DO UPDATE`, for a component the
issue has. -/
def insertVersion (id : Uuid) (db : Db) (pair : ComponentVersion) : Option Db :=
  if db.issueComponents.contains (id, pair.componentId) then
    if (db.version? pair.releaseVersionId).isSome then
      some (mirror id
        { db with
          componentVersions :=
            deleteWhere (fun row => row.issueId == id && row.componentId == pair.componentId)
              db.componentVersions ++ [⟨id, pair.componentId, pair.releaseVersionId⟩] })
    else none
  else some db

/-- The transaction that replaces an issue's component versions. -/
def setIssueComponentVersions (id : Uuid) (pairs : List ComponentVersion) (db : Db) : Option Db :=
  pairs.foldlM (insertVersion id) (db.deleteVersionRows (·.issueId == id))

/-- The transaction that replaces an issue's customers. -/
def setIssueCustomers (id : Uuid) (ids : List Uuid) (db : Db) : Option Db :=
  if ids.all fun customer => (db.catalog.customers.find? customer).isSome then
    some { db with
      issueCustomers := Imports.Db.addLinks id ids (deleteWhere (·.1 == id) db.issueCustomers) }
  else none

def releaseInProject (projectId id : Uuid) (db : Db) : Bool :=
  (db.releases.find? id).any (·.projectId == projectId)

def versionInProject (projectId id : Uuid) (db : Db) : Bool :=
  (db.version? id).any fun version => db.releaseInProject projectId version.releaseId

/-- `release_versions::create`: last in the order of its release. -/
def createVersion (releaseId : Uuid) (version : String) (db : Db) : Except DbError Unit × Db :=
  let ofRelease := db.releaseVersions.rows.filter (·.releaseId == releaseId)
  if ofRelease.any (·.version == version) then (.error .uniqueViolation, db)
  else if (db.releases.find? releaseId).isSome then
    let row : ReleaseVersion := ⟨db.releaseVersions.fresh, releaseId, version,
      (ofRelease.map (·.order)).foldr max 0 + 1⟩
    (.ok (), { db with
      releaseVersions := db.releaseVersions.insert row db.releaseVersions.find?_fresh })
  else (.error .failed, db)

/-- `release_versions::delete`: the issues' references are cleared, then the
component versions go. -/
def deleteVersion (projectId id : Uuid) (db : Db) : Bool × Db :=
  if db.versionInProject projectId id then
    let db := { db with releaseVersions := db.releaseVersions.erase (·.id == id) }
    let db := db.updateIssues (·.releaseVersionId == some id)
      (fun issue => { issue with releaseVersionId := none }) (fun _ => rfl)
    (true, db.deleteVersionRows (·.releaseVersionId == id))
  else (false, db)

/-- `idempotency::lookup`. -/
def lookupKey (userId : Uuid) (key method path : String) (db : Db) : Option StoredKey :=
  db.keys.find? fun row => row.userId == userId && row.key == key && row.method == method &&
    row.path == path && decide (db.now < row.expiresAt)

/-- `idempotency::store`: nothing is stored where the key is taken, expired or not. -/
def storeKey (new : StoredKey) (db : Db) : Db :=
  if db.keys.any fun row => row.userId == new.userId && row.key == new.key &&
      row.method == new.method && row.path == new.path then db
  else { db with keys := db.keys ++ [new] }

end Db

end IntelliPilot.Issues
