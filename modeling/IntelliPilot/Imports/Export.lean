import IntelliPilot.Imports.Handlers
import IntelliPilot.Text.Trimming

/-! # Issue export

`export_issues` in the format `csv`. The cells of the columns that the tables
here leave out are given.
-/

namespace IntelliPilot.Imports

open Auth (trim eqIgnoreAsciiCase)
open Text (join)

/-- `EXPORT_HEADERS`. -/
def exportHeaders : List String :=
  ["Ref", "Subject", "Type", "Status", "Priority", "Size", "Assignee", "Reporter", "Epic", "Parent",
    "Milestone", "Labels", "Components", "Customers", "Start date", "Due date", "Resolution",
    "Description"]

/-- The cells of an issue in the columns left out. -/
structure RestCells where
  size : String
  milestone : String
  startDate : String
  dueDate : String
  resolution : String
  deriving DecidableEq, Repr

section Export

variable (db : Db) (projectId : Uuid)

/-- `list_issues`. -/
def listIssues : List Issue :=
  db.issues.rows.filter fun issue => issue.projectId == projectId && issue.deletedAt.isNone

/-- `list_epics`. -/
def listEpics : List Epic :=
  db.epics.rows.filter fun epic => epic.projectId == projectId && epic.deletedAt.isNone

/-- The name of an item of the project. -/
def itemName (kind : TaxonomyKind) (id : Option Uuid) : Option String :=
  id.bind fun id => ((db.catalog.list projectId kind).find? (·.id == id)).map (·.name)

/-- The name a member is exported under. -/
def memberName (id : Option Uuid) : Option String :=
  id.bind fun id => ((db.catalog.listForProject projectId).find? (·.id == id)).map fun user =>
    if user.fullName = "" then user.username else user.fullName

/-- The ids linked to an issue, in their own order. -/
def linked (links : Links) (issueId : Uuid) : List Uuid :=
  ((links.filter (·.1 == issueId)).map (·.2)).mergeSort

def componentName (id : Uuid) : Option String :=
  (db.catalog.components.find? id).bind fun component =>
    if component.projectId = projectId then some component.name else none

def customerName (id : Uuid) : Option String :=
  (db.catalog.customers.find? id).bind fun customer =>
    if customer.projectId = projectId then some customer.name else none

def labelName (id : Uuid) : Option String :=
  (db.catalog.labels.find? id).bind fun label =>
    if label.projectId = projectId then some label.name else none

/-- The names of an issue's components. -/
def componentNames (issueId : Uuid) : List String :=
  (linked db.issueComponents issueId).filterMap (componentName db projectId)

/-- `format!("#{reference}")`. -/
def refText (reference : Nat) : String := "#" ++ toString reference

/-- The row of an issue. -/
def exportRow (rest : RestCells) (issue : Issue) : List String :=
  [refText issue.reference,
    issue.subject,
    (itemName db projectId .issueType issue.typeId).getD "",
    (itemName db projectId .issueStatus issue.statusId).getD "",
    (itemName db projectId .priority issue.priorityId).getD "",
    rest.size,
    (memberName db projectId issue.assignedTo).getD "",
    (memberName db projectId (some issue.ownerId)).getD "",
    (((issue.epicId.bind fun id => (listEpics db projectId).find? (·.id == id)).map
      fun epic => refText epic.reference)).getD "",
    (((issue.parentId.bind fun id => (listIssues db projectId).find? (·.id == id)).map
      fun parent => refText parent.reference)).getD "",
    rest.milestone,
    join ", " ((linked db.issueLabels issue.id).filterMap (labelName db projectId)),
    join ", " (componentNames db projectId issue.id),
    join ", " ((linked db.issueCustomers issue.id).filterMap (customerName db projectId)),
    rest.startDate,
    rest.dueDate,
    rest.resolution,
    issue.description]

/-- The rows of `export_issues`. -/
def exportRows (rest : Issue → RestCells) : List (List String) :=
  (listIssues db projectId).map fun issue => exportRow db projectId (rest issue) issue

/-- `build_csv`, given the CSV writer. -/
def buildCsv (writeCsv : List (List String) → Bytes) (rows : List (List String)) : Bytes :=
  writeCsv (exportHeaders :: rows)

end Export

end IntelliPilot.Imports
