import IntelliPilot.Auth.Environment
import IntelliPilot.Http.Problem
import IntelliPilot.Relational.Table

/-! # What an import reads and writes

The tables of a project's vocabulary and the columns of `issues` and `epics`
that an import fills, with the statements of `db::taxonomy` and `db::backlog` it
issues. Dates, sizes, comments and the fractional order are left out.
-/

namespace IntelliPilot.Imports

open Rows

abbrev Uuid := Nat

inductive TaxonomyKind where
  | issueStatus
  | issueType
  | priority
  | size
  deriving DecidableEq, Repr

structure TaxonomyItem where
  id : Uuid
  projectId : Uuid
  kind : TaxonomyKind
  name : String
  slug : String
  isNew : Bool
  deriving DecidableEq, Repr

structure Component where
  id : Uuid
  projectId : Uuid
  name : String
  deriving DecidableEq, Repr

structure Customer where
  id : Uuid
  projectId : Uuid
  name : String
  deriving DecidableEq, Repr

structure Label where
  id : Uuid
  projectId : Uuid
  name : String
  deriving DecidableEq, Repr

structure User where
  id : Uuid
  username : String
  email : String
  fullName : String
  deriving DecidableEq, Repr

/-- The vocabulary of all projects. -/
structure Catalog where
  taxonomy : Table TaxonomyItem.id
  components : Table Component.id
  customers : Table Customer.id
  labels : Table Label.id
  users : Table User.id
  /-- Project and user of every membership. -/
  memberships : List (Uuid × Uuid)

structure Epic where
  id : Uuid
  projectId : Uuid
  reference : Nat
  subject : String
  description : String
  statusId : Option Uuid
  ownerId : Uuid
  assignedTo : Option Uuid
  deletedAt : Option Int
  deriving DecidableEq, Repr

structure Issue where
  id : Uuid
  projectId : Uuid
  reference : Nat
  subject : String
  description : String
  statusId : Option Uuid
  typeId : Option Uuid
  priorityId : Option Uuid
  epicId : Option Uuid
  parentId : Option Uuid
  ownerId : Uuid
  assignedTo : Option Uuid
  deletedAt : Option Int
  deriving DecidableEq, Repr

/-- The links of an issue to another table: issue first. -/
abbrev Links := List (Uuid × Uuid)

structure Db where
  catalog : Catalog
  epics : Table Epic.id
  issues : Table Issue.id
  issueLabels : Links
  issueComponents : Links
  issueCustomers : Links
  /-- `project_ref_counters`. -/
  lastRef : Uuid → Nat
  lastEpicRef : Uuid → Nat

/-! ## Vocabulary -/

namespace Catalog

/-- `taxonomy::list`. -/
def list (catalog : Catalog) (projectId : Uuid) (kind : TaxonomyKind) : List TaxonomyItem :=
  catalog.taxonomy.rows.filter fun item => item.projectId == projectId && item.kind == kind

/-- `taxonomy::new_status_id`. -/
def newStatusId (catalog : Catalog) (projectId : Uuid) : Option Uuid :=
  ((catalog.list projectId .issueStatus).find? (·.isNew)).map (·.id)

/-- `UNIQUE (project_id, kind, slug)`. -/
def slugTaken (catalog : Catalog) (projectId : Uuid) (kind : TaxonomyKind) (slug : String) : Bool :=
  (catalog.list projectId kind).any (·.slug == slug)

/-- `taxonomy::create`; the column `slug` is a `varchar(64)`. -/
def createItem (projectId : Uuid) (kind : TaxonomyKind) (name slug : String) (catalog : Catalog) :
    Option (TaxonomyItem × Catalog) :=
  if 64 < slug.length || catalog.slugTaken projectId kind slug then none
  else
    let item : TaxonomyItem := ⟨catalog.taxonomy.fresh, projectId, kind, name, slug, false⟩
    some (item, { catalog with
      taxonomy := catalog.taxonomy.insert item catalog.taxonomy.find?_fresh })

/-- `customers::list`. -/
def listCustomers (catalog : Catalog) (projectId : Uuid) : List Customer :=
  catalog.customers.rows.filter (·.projectId == projectId)

/-- `memberships::list_for_project`, the users of the rows. -/
def listForProject (catalog : Catalog) (projectId : Uuid) : List User :=
  (catalog.memberships.filter (·.1 == projectId)).filterMap fun membership =>
    catalog.users.find? membership.2

/-- The reference is absent or leads to a row. -/
def hasItem (catalog : Catalog) (id : Option Uuid) : Bool :=
  id.all fun id => (catalog.taxonomy.find? id).isSome

def hasUser (catalog : Catalog) (id : Option Uuid) : Bool :=
  id.all fun id => (catalog.users.find? id).isSome

end Catalog

/-! ## Issues and epics -/

namespace Db

/-- `create_epic`; the reference is drawn also where the insert fails. -/
def createEpic (projectId ownerId : Uuid) (subject description : String)
    (statusId assignedTo : Option Uuid) (db : Db) : Option Epic × Db :=
  let reference := db.lastEpicRef projectId + 1
  let db := { db with
    lastEpicRef := fun id => if id = projectId then reference else db.lastEpicRef id }
  if db.catalog.hasItem statusId && db.catalog.hasUser assignedTo then
    let epic : Epic := ⟨db.epics.fresh, projectId, reference, subject, description, statusId,
      ownerId, assignedTo, none⟩
    (some epic, { db with epics := db.epics.insert epic db.epics.find?_fresh })
  else (none, db)

/-- `IssueWrite`, the columns of an import. -/
structure IssueWrite where
  subject : String
  description : String
  statusId : Option Uuid
  typeId : Option Uuid
  priorityId : Option Uuid
  assignedTo : Option Uuid
  deriving DecidableEq, Repr

/-- `create_issue`: without a status, the project's new one. -/
def createIssue (projectId ownerId : Uuid) (w : IssueWrite) (db : Db) : Option Issue × Db :=
  let reference := db.lastRef projectId + 1
  let db := { db with lastRef := fun id => if id = projectId then reference else db.lastRef id }
  let statusId := w.statusId.or (db.catalog.newStatusId projectId)
  if db.catalog.hasItem statusId && db.catalog.hasItem w.typeId &&
      db.catalog.hasItem w.priorityId && db.catalog.hasUser w.assignedTo then
    let issue : Issue := ⟨db.issues.fresh, projectId, reference, w.subject, w.description,
      statusId, w.typeId, w.priorityId, none, none, ownerId, w.assignedTo, none⟩
    (some issue, { db with issues := db.issues.insert issue db.issues.find?_fresh })
  else (none, db)

/-- The link update of `import_commit`. -/
def linkIssue (id : Uuid) (parentId epicId : Option Uuid) (db : Db) : Db :=
  { db with
    issues := db.issues.modify (·.id == id)
      (fun issue => { issue with parentId := parentId.or issue.parentId,
                                 epicId := epicId.or issue.epicId }) (fun _ => rfl) }

/-- Links of an issue that are not there yet, `ON CONFLICT DO NOTHING`. -/
def addLinks (issueId : Uuid) (ids : List Uuid) (links : Links) : Links :=
  ids.foldl (fun links id => if (issueId, id) ∈ links then links else links ++ [(issueId, id)])
    links

/-- `set_issue_components`: a transaction, undone where a component is missing. -/
def setIssueComponents (issueId : Uuid) (ids : List Uuid) (db : Db) : Db :=
  if ids.all fun id => (db.catalog.components.find? id).isSome then
    { db with
      issueComponents := addLinks issueId ids
        (deleteWhere (fun link => link.1 == issueId && !ids.contains link.2) db.issueComponents) }
  else db

/-- `set_issue_customers`. -/
def setIssueCustomers (issueId : Uuid) (ids : List Uuid) (db : Db) : Db :=
  if ids.all fun id => (db.catalog.customers.find? id).isSome then
    { db with
      issueCustomers := addLinks issueId ids
        (deleteWhere (·.1 == issueId) db.issueCustomers) }
  else db

end Db

theorem mem_addLinks {issueId : Uuid} {ids : List Uuid} {links : Links} {link : Uuid × Uuid} :
    link ∈ Db.addLinks issueId ids links ↔ link ∈ links ∨ link.1 = issueId ∧ link.2 ∈ ids := by
  unfold Db.addLinks
  induction ids generalizing links with
  | nil => simp
  | cons id ids ih =>
    rw [List.foldl_cons, ih]
    by_cases hold : (issueId, id) ∈ links
    · rw [if_pos hold]
      grind
    · rw [if_neg hold, List.mem_append, List.mem_singleton, or_assoc]
      grind

end IntelliPilot.Imports
