import IntelliPilot.Issues.Tables
import IntelliPilot.Statement.Interleaving

/-! # The statements of the issue handlers

A transaction that replaces one of an issue's sets is one statement. Before
each statement some time may pass, and a statement may fail.
-/

namespace IntelliPilot.Issues

open Statement
open Imports (Uuid)

inductive Stmt : Type → Type where
  | selectIssue (projectId id : Uuid) : Stmt (Except DbError (Option Issue))
  | issueLabelIds (id : Uuid) : Stmt (Except DbError (List Uuid))
  | issueComponentIds (id : Uuid) : Stmt (Except DbError (List Uuid))
  | issueComponentVersions (id : Uuid) : Stmt (Except DbError (List ComponentVersion))
  | issueCustomerIds (id : Uuid) : Stmt (Except DbError (List Uuid))
  | labelsInProject (projectId : Uuid) (ids : List Uuid) : Stmt (Except DbError Bool)
  | componentsInProject (projectId : Uuid) (ids : List Uuid) : Stmt (Except DbError Bool)
  | customerInProject (projectId id : Uuid) : Stmt (Except DbError Bool)
  | epicInProject (projectId id : Uuid) : Stmt (Except DbError Bool)
  | issueInProject (projectId id : Uuid) : Stmt (Except DbError Bool)
  | parentChainContains (projectId start needle : Uuid) : Stmt (Except DbError Bool)
  | versionInProject (projectId id : Uuid) : Stmt (Except DbError Bool)
  | versionsOfComponents (components versions : List Uuid) :
      Stmt (Except DbError (List ComponentVersion))
  | releaseInProject (projectId id : Uuid) : Stmt (Except DbError Bool)
  | allocRef (projectId : Uuid) : Stmt (Except DbError Nat)
  | newStatusId (projectId : Uuid) : Stmt (Except DbError (Option Uuid))
  | insertIssue (projectId ownerId : Uuid) (reference : Nat) (w : IssueWrite) :
      Stmt (Except DbError Issue)
  | updateIssue (projectId id : Uuid) (version : Nat) (w : IssueWrite) :
      Stmt (Except DbError (Option Issue))
  | issueExists (projectId id : Uuid) : Stmt (Except DbError Bool)
  | setIssueLabels (id : Uuid) (ids : List Uuid) : Stmt (Except DbError Unit)
  | setIssueComponents (id : Uuid) (ids : List Uuid) : Stmt (Except DbError Unit)
  | setIssueComponentVersions (id : Uuid) (pairs : List ComponentVersion) :
      Stmt (Except DbError Unit)
  | setIssueCustomers (id : Uuid) (ids : List Uuid) : Stmt (Except DbError Unit)
  | createVersion (releaseId : Uuid) (version : String) : Stmt (Except DbError Unit)
  | deleteVersion (projectId id : Uuid) : Stmt (Except DbError Bool)
  | lookupKey (userId : Uuid) (key method path : String) :
      Stmt (Except DbError (Option (Nat × FullIssue)))
  | storeKey (row : StoredKey) : Stmt (Except DbError Unit)
  | now : Stmt Int

/-- What the environment decides about a statement. -/
structure Choice where
  elapse : Nat := 0
  fails : Bool := false
  deriving DecidableEq, Repr

namespace Db

variable (db : Db)

def inProject (projectId : Uuid) (issue : Issue) : Bool :=
  issue.projectId == projectId && issue.deletedAt.isNone

/-- `… WHERE id = $1 AND project_id = $2 AND deleted_at IS NULL`. -/
def selectIssue (projectId id : Uuid) : Option Issue := (db.issue? id).filter (inProject projectId)

/-- The ids an issue is linked to, in their own order. -/
def linkedIds (links : Imports.Links) (id : Uuid) : List Uuid :=
  ((links.filter (·.1 == id)).map (·.2)).mergeSort

/-- `issue_component_versions`. -/
def issueComponentVersions (id : Uuid) : List ComponentVersion :=
  ((db.versionRows id).map fun row => ⟨row.componentId, row.releaseVersionId⟩).mergeSort
    fun a b => decide (a.componentId ≤ b.componentId)

/-- `labels::all_in_project`, which counts the rows. -/
def labelsInProject (projectId : Uuid) (ids : List Uuid) : Bool :=
  (db.catalog.labels.rows.filter fun label =>
    label.projectId == projectId && ids.contains label.id).length == ids.dedup.length

/-- `components::all_in_project`. -/
def componentsInProject (projectId : Uuid) (ids : List Uuid) : Bool :=
  (db.catalog.components.rows.filter fun component =>
    component.projectId == projectId && ids.contains component.id).length == ids.dedup.length

def customerInProject (projectId id : Uuid) : Bool :=
  (db.catalog.customers.find? id).any (·.projectId == projectId)

def epicInProject (projectId id : Uuid) : Bool :=
  (db.epics.find? id).any fun epic => epic.projectId == projectId && epic.deletedAt.isNone

/-- The rows of the recursive query from `id` on, at most `depth` of them. -/
def chain : Nat → Uuid → List Uuid
  | 0, _ => []
  | depth + 1, id =>
      match (db.issue? id).filter (·.deletedAt.isNone) with
      | none => []
      | some issue =>
          issue.id :: match issue.parentId with
            | none => []
            | some parentId => chain depth parentId

def parentChainContains (projectId start needle : Uuid) : Bool :=
  (db.selectIssue projectId start).isSome && (db.chain 100 start).contains needle

/-- The query of `validate_component_versions`. -/
def versionsOfComponents (components versions : List Uuid) : List ComponentVersion :=
  db.componentReleases.flatMap fun link =>
    (db.releaseVersions.rows.filter fun version => version.releaseId == link.2 &&
      components.contains link.1 && versions.contains version.id).map fun version =>
        ⟨link.1, version.id⟩

/-- The answer to a transaction that may fail. -/
def commit (after : Option Db) : Except DbError Unit × Db :=
  match after with
  | some after => (.ok (), after)
  | none => (.error .failed, db)

end Db

/-- The effect of a statement that does not fail. -/
def Stmt.effect {β : Type} (stmt : Stmt β) (db : Db) : β × Db :=
  match stmt with
  | .selectIssue projectId id => (.ok (db.selectIssue projectId id), db)
  | .issueLabelIds id => (.ok (Db.linkedIds db.issueLabels id), db)
  | .issueComponentIds id => (.ok (Db.linkedIds db.issueComponents id), db)
  | .issueComponentVersions id => (.ok (db.issueComponentVersions id), db)
  | .issueCustomerIds id => (.ok (Db.linkedIds db.issueCustomers id), db)
  | .labelsInProject projectId ids => (.ok (db.labelsInProject projectId ids), db)
  | .componentsInProject projectId ids => (.ok (db.componentsInProject projectId ids), db)
  | .customerInProject projectId id => (.ok (db.customerInProject projectId id), db)
  | .epicInProject projectId id => (.ok (db.epicInProject projectId id), db)
  | .issueInProject projectId id => (.ok (db.selectIssue projectId id).isSome, db)
  | .parentChainContains projectId start needle =>
      (.ok (db.parentChainContains projectId start needle), db)
  | .versionInProject projectId id => (.ok (db.versionInProject projectId id), db)
  | .versionsOfComponents components versions =>
      (.ok (db.versionsOfComponents components versions), db)
  | .releaseInProject projectId id => (.ok (db.releaseInProject projectId id), db)
  | .allocRef projectId =>
      (.ok (db.lastRef projectId + 1), { db with
        lastRef := fun id => if id = projectId then db.lastRef projectId + 1 else db.lastRef id })
  | .newStatusId projectId => (.ok (db.catalog.newStatusId projectId), db)
  | .insertIssue projectId ownerId reference w => db.insertIssue projectId ownerId reference w
  | .updateIssue projectId id version w => db.updateIssue projectId id version w
  | .issueExists projectId id => (.ok (db.selectIssue projectId id).isSome, db)
  | .setIssueLabels id ids => db.commit (db.setIssueLabels id ids)
  | .setIssueComponents id ids => db.commit (db.setIssueComponents id ids)
  | .setIssueComponentVersions id pairs => db.commit (db.setIssueComponentVersions id pairs)
  | .setIssueCustomers id ids => db.commit (db.setIssueCustomers id ids)
  | .createVersion releaseId version => db.createVersion releaseId version
  | .deleteVersion projectId id =>
      (.ok (db.deleteVersion projectId id).1, (db.deleteVersion projectId id).2)
  | .lookupKey userId key method path =>
      (.ok ((db.lookupKey userId key method path).map fun row => (row.status, row.body)), db)
  | .storeKey row => (.ok (), db.storeKey row)
  | .now => (db.now, db)

/-- The result of a statement that fails; the clock does not. -/
def Stmt.failure {β : Type} (stmt : Stmt β) (db : Db) : β :=
  match stmt with
  | .selectIssue _ _ => .error .failed
  | .issueLabelIds _ => .error .failed
  | .issueComponentIds _ => .error .failed
  | .issueComponentVersions _ => .error .failed
  | .issueCustomerIds _ => .error .failed
  | .labelsInProject _ _ => .error .failed
  | .componentsInProject _ _ => .error .failed
  | .customerInProject _ _ => .error .failed
  | .epicInProject _ _ => .error .failed
  | .issueInProject _ _ => .error .failed
  | .parentChainContains _ _ _ => .error .failed
  | .versionInProject _ _ => .error .failed
  | .versionsOfComponents _ _ => .error .failed
  | .releaseInProject _ _ => .error .failed
  | .allocRef _ => .error .failed
  | .newStatusId _ => .error .failed
  | .insertIssue _ _ _ _ => .error .failed
  | .updateIssue _ _ _ _ => .error .failed
  | .issueExists _ _ => .error .failed
  | .setIssueLabels _ _ => .error .failed
  | .setIssueComponents _ _ => .error .failed
  | .setIssueComponentVersions _ _ => .error .failed
  | .setIssueCustomers _ _ => .error .failed
  | .createVersion _ _ => .error .failed
  | .deleteVersion _ _ => .error .failed
  | .lookupKey _ _ _ _ => .error .failed
  | .storeKey _ => .error .failed
  | .now => db.now

/-- Time passes, then the statement runs or fails. -/
def Stmt.exec {β : Type} (stmt : Stmt β) (choice : Choice) (db : Db) : β × Db :=
  let db := { db with now := db.now + choice.elapse }
  if choice.fails then (stmt.failure db, db) else stmt.effect db

end IntelliPilot.Issues
