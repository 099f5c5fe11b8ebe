import IntelliPilot.Imports.Tables
import IntelliPilot.Text.Strings

/-! # Issue import

`parse_csv` and `import_commit`. A request runs as one step; which of its
queries fail is given. Due dates, reporters, comments and the audit entry are
left out.
-/

namespace IntelliPilot.Imports

open Http
open Auth (trim eqIgnoreAsciiCase)
open Text (slugify split trimStartMatches)

abbrev Bytes := List UInt8

/-! ## Parsing -/

/-- One value's resolution. -/
structure ValueChoice where
  value : String
  target : Option Uuid := none
  create : Bool := false
  deriving DecidableEq, Repr

structure ImportMapping where
  types : List ValueChoice := []
  statuses : List ValueChoice := []
  priorities : List ValueChoice := []
  components : List ValueChoice := []
  customers : List ValueChoice := []
  users : List ValueChoice := []
  deriving DecidableEq, Repr

/-- What the import calls outside the repository: case mapping, the CSV reader
(the header, then the records) and the reader of the mapping. -/
structure Library where
  toLowercase : String → String
  readCsv : Bytes → Except String (List String) × List (Except String (List String))
  decodeMapping : String → Except String ImportMapping

structure ParsedRow where
  externalId : String
  externalKey : String
  subject : String
  description : String
  typeName : String
  statusName : String
  priorityName : String
  assignee : String
  components : List String
  customers : List String
  parentRef : String
  epicRef : String
  deriving DecidableEq, Repr

/-- The columns whose header is `name`. -/
def columns (headers : List String) (name : String) : List Nat :=
  (List.range headers.length).filter fun i => (headers[i]?).any (trim · == name)

/-- `values`. -/
def values (record headers : List String) (name : String) : List String :=
  (((columns headers name).filterMap (record[·]?)).map trim).filter (· != "")

/-- `first`. -/
def first (record headers : List String) (name : String) : String :=
  (values record headers name).headD ""

/-- `split_list`. -/
def splitList (cell : String) : List String :=
  ((split cell ',').map trim).filter (· != "")

/-- `strip_hash`. -/
def stripHash (s : String) : String :=
  trim (trimStartMatches (trim s) '#')

def parseJira (headers record : List String) : ParsedRow where
  externalId := first record headers "Issue id"
  externalKey := first record headers "Issue key"
  subject := first record headers "Summary"
  description := first record headers "Description"
  typeName := first record headers "Issue Type"
  statusName := first record headers "Status"
  priorityName := first record headers "Priority"
  assignee := first record headers "Assignee"
  components := values record headers "Component/s"
  customers := []
  parentRef := first record headers "Parent id"
  epicRef := first record headers "Custom field (Epic Link)"

def parseIntelliPilot (headers record : List String) : ParsedRow where
  externalId := first record headers "Ref"
  externalKey := first record headers "Ref"
  subject := first record headers "Subject"
  description := first record headers "Description"
  typeName := first record headers "Type"
  statusName := first record headers "Status"
  priorityName := first record headers "Priority"
  assignee := first record headers "Assignee"
  components := splitList (first record headers "Components")
  customers := splitList (first record headers "Customers")
  parentRef := stripHash (first record headers "Parent")
  epicRef := stripHash (first record headers "Epic")

/-- `parse_csv`. -/
def parseCsv (lib : Library) (bytes : Bytes) : Except String (List ParsedRow) := do
  let (header, records) := lib.readCsv bytes
  let headers ← header.mapError ("bad header: " ++ ·)
  let jira := headers.any (trim · == "Issue key")
  if !jira && !headers.any (trim · == "Subject") then
    throw "unrecognised CSV (expected a JIRA or IntelliPilot issue export)"
  let records ← records.mapM fun record => record.mapError ("bad row: " ++ ·)
  let parse := if jira then parseJira headers else parseIntelliPilot headers
  -- blank and total rows are skipped
  return (records.map parse).filter (·.subject != "")

/-! ## Resolution -/

/-- A `HashMap<String, Uuid>`. -/
abbrev RefMap := String → Option Uuid

def RefMap.empty : RefMap := fun _ => none

def RefMap.insert (map : RefMap) (key : String) (id : Uuid) : RefMap :=
  fun k => if k = key then some id else map k

/-- `iter().collect()`: of two entries with the same key the later one stays. -/
def RefMap.collect (entries : List (String × Uuid)) : RefMap :=
  entries.foldl (fun map entry => map.insert entry.1 entry.2) .empty

/-- Which of the queries of the import fail, those of a row by its position. -/
structure Circumstances where
  listFails : TaxonomyKind → Bool := fun _ => false
  createItemFails : TaxonomyKind → Nat → Bool := fun _ _ => false
  listCustomersFails : Bool := false
  listMembersFails : Bool := false
  createRowFails : Nat → Bool := fun _ => false
  linkFails : Nat → Bool := fun _ => false
  componentsFail : Nat → Bool := fun _ => false
  customersFail : Nat → Bool := fun _ => false

section Import

variable (lib : Library) (c : Circumstances) (projectId actorId : Uuid)

/-- One choice of `build_value_map`. -/
def addChoice (kind : TaxonomyKind) (existing : RefMap) (s : RefMap × Nat × Catalog)
    (choice : ValueChoice × Nat) : RefMap × Nat × Catalog :=
  let (map, created, catalog) := s
  let key := lib.toLowercase choice.1.value
  match choice.1.target with
  | some id => (map.insert key id, created, catalog)
  | none =>
      if choice.1.create && trim choice.1.value != "" then
        match existing key with
        | some id => (map.insert key id, created, catalog)
        | none =>
            if c.createItemFails kind choice.2 then s
            else
              match catalog.createItem projectId kind choice.1.value (slugify choice.1.value) with
              | some (item, catalog) => (map.insert key item.id, created + 1, catalog)
              | none => s
      else s

/-- `build_value_map`. -/
def buildValueMap (kind : TaxonomyKind) (choices : List ValueChoice) (created : Nat)
    (catalog : Catalog) : RefMap × Nat × Catalog :=
  let items := if c.listFails kind then [] else catalog.list projectId kind
  let existing := RefMap.collect (items.map fun item => (lib.toLowercase item.name, item.id))
  choices.zipIdx.foldl (addChoice lib c projectId kind existing) (.empty, created, catalog)

/-- The choices with a target, as entries of a map. -/
def targets (choices : List ValueChoice) : List (String × Uuid) :=
  choices.filterMap fun choice => choice.target.map fun id => (lib.toLowercase choice.value, id)

def componentMap (choices : List ValueChoice) : RefMap := .collect (targets lib choices)

/-- Only customers of the project are accepted as targets. -/
def customerMap (catalog : Catalog) (choices : List ValueChoice) : RefMap :=
  let customers := if c.listCustomersFails then [] else catalog.listCustomers projectId
  .collect ((targets lib choices).filter fun entry => (customers.map (·.id)).contains entry.2)

/-- The members by username, email and full name, then the explicit mapping. -/
def userMap (catalog : Catalog) (choices : List ValueChoice) : RefMap :=
  let members := if c.listMembersFails then [] else catalog.listForProject projectId
  .collect ((members.flatMap fun user =>
      ([user.username, user.email, user.fullName].filter (· != "")).map
        fun name => (lib.toLowercase name, user.id)) ++ targets lib choices)

structure Maps where
  types : RefMap
  statuses : RefMap
  priorities : RefMap
  components : RefMap
  customers : RefMap
  users : RefMap

/-- The maps of a mapping, and the vocabulary with the items created for it. -/
def resolve (mapping : ImportMapping) (catalog : Catalog) : Maps × Nat × Catalog :=
  let (types, created, catalog) := buildValueMap lib c projectId .issueType mapping.types 0 catalog
  let (statuses, created, catalog) :=
    buildValueMap lib c projectId .issueStatus mapping.statuses created catalog
  let (priorities, created, catalog) :=
    buildValueMap lib c projectId .priority mapping.priorities created catalog
  ({ types := types
     statuses := statuses
     priorities := priorities
     components := componentMap lib mapping.components
     customers := customerMap lib c projectId catalog mapping.customers
     users := userMap lib c projectId catalog mapping.users }, created, catalog)

/-! ## The two passes -/

def RefMap.look (map : RefMap) (name : String) : Option Uuid := map (lib.toLowercase name)

/-- `map.insert(key, id)`, left out for an empty key. -/
def RefMap.record (map : RefMap) (key : String) (id : Uuid) : RefMap :=
  if key = "" then map else map.insert key id

/-- Where the first pass stands. -/
structure Pass where
  db : Db
  byId : RefMap := .empty
  byKey : RefMap := .empty
  epicById : RefMap := .empty
  epicByKey : RefMap := .empty
  createdIssues : Nat := 0
  createdEpics : Nat := 0
  skipped : List String := []
  /-- Row, position and issue of every issue created. -/
  created : List (ParsedRow × Nat × Uuid) := []

/-- The description of an imported row names its source. -/
def ParsedRow.importedDescription (row : ParsedRow) : String :=
  if row.externalKey = "" then row.description
  else "> Imported from " ++ row.externalKey ++ "\n\n" ++ row.description

variable (maps : Maps)

def Pass.skip (s : Pass) (row : ParsedRow) : Pass :=
  { s with skipped := s.skipped ++ [row.externalKey ++ ": " ++ row.subject] }

/-- A row of type "epic". -/
def Pass.createEpic (s : Pass) (row : ParsedRow) (i : Nat) : Pass :=
  if c.createRowFails i then s.skip row
  else
    match s.db.createEpic projectId actorId row.subject row.importedDescription
      (maps.statuses.look lib row.statusName) (maps.users.look lib row.assignee) with
    | (none, db) => { s with db := db }.skip row
    | (some epic, db) =>
        { s with
          db := db
          createdEpics := s.createdEpics + 1
          epicById := s.epicById.record row.externalId epic.id
          epicByKey := s.epicByKey.record row.externalKey epic.id }

def Maps.write (row : ParsedRow) : Db.IssueWrite where
  subject := row.subject
  description := row.importedDescription
  statusId := maps.statuses.look lib row.statusName
  typeId := maps.types.look lib row.typeName
  priorityId := maps.priorities.look lib row.priorityName
  assignedTo := maps.users.look lib row.assignee

def Pass.createIssue (s : Pass) (row : ParsedRow) (i : Nat) : Pass :=
  if c.createRowFails i then s.skip row
  else
    match s.db.createIssue projectId actorId (maps.write lib row) with
    | (none, db) => { s with db := db }.skip row
    | (some issue, db) =>
        { s with
          db := db
          createdIssues := s.createdIssues + 1
          byId := s.byId.record row.externalId issue.id
          byKey := s.byKey.record row.externalKey issue.id
          created := s.created ++ [(row, i, issue.id)] }

/-- A row of the first pass. -/
def Pass.createRow (s : Pass) (entry : ParsedRow × Nat) : Pass :=
  if eqIgnoreAsciiCase entry.1.typeName "epic" then
    s.createEpic lib c projectId actorId maps entry.1 entry.2
  else s.createIssue lib c projectId actorId maps entry.1 entry.2

def firstPass (rows : List ParsedRow) (db : Db) : Pass :=
  rows.zipIdx.foldl (Pass.createRow lib c projectId actorId maps) { db := db }

/-- The parent and the epic of an issue created. -/
def Pass.linkIssue (s : Pass) (row : ParsedRow) (i : Nat) (id : Uuid) (db : Db) : Db :=
  let parent := (s.byId row.parentRef).or (s.byKey row.parentRef)
  let epic := (s.epicByKey row.epicRef).or (s.epicById row.epicRef)
  if (parent.isSome || epic.isSome) && !c.linkFails i then db.linkIssue id parent epic else db

/-- The components of an issue created. -/
def assignComponents (row : ParsedRow) (i : Nat) (id : Uuid) (db : Db) : Db :=
  let ids := row.components.filterMap (maps.components.look lib)
  if ids.isEmpty || c.componentsFail i then db else db.setIssueComponents id ids

/-- The customers of an issue created, each once. -/
def assignCustomers (row : ParsedRow) (i : Nat) (id : Uuid) (db : Db) : Db :=
  let ids := (row.customers.filterMap (maps.customers.look lib)).mergeSort.dedup
  if ids.isEmpty || c.customersFail i then db else db.setIssueCustomers id ids

/-- A row of the second pass. -/
def Pass.associate (s : Pass) (db : Db) (entry : ParsedRow × Nat × Uuid) : Db :=
  let (row, i, id) := entry
  assignCustomers lib c maps row i id
    (assignComponents lib c maps row i id (s.linkIssue c row i id db))

structure ImportResult where
  createdIssues : Nat
  createdEpics : Nat
  createdTaxonomy : Nat
  skipped : List String
  deriving DecidableEq, Repr

/-- `import_commit`, of a file and a mapping that could be read. -/
def importRows (mapping : ImportMapping) (rows : List ParsedRow) (db : Db) : ImportResult × Db :=
  let (maps, created, catalog) := resolve lib c projectId mapping db.catalog
  let s := firstPass lib c projectId actorId maps rows { db with catalog := catalog }
  (⟨s.createdIssues, s.createdEpics, created, s.skipped⟩,
    s.created.foldl (s.associate lib c maps) s.db)

/-! ## The handler -/

/-- `issues_io::unprocessable`. -/
def invalidCsv (detail : String) : Problem := ⟨422, "invalid_csv", "Invalid CSV", some detail⟩

/-- A request to `import_commit`: whether the actor may create issues, and the
file and the mapping of its body. -/
structure ImportRequest where
  mayCreate : Bool
  body : Except Problem (Bytes × String)
  deriving Repr

/-- `import_commit`, up to the first query. -/
def admitImport (req : ImportRequest) : Except Problem (ImportMapping × List ParsedRow) := do
  if !req.mayCreate then throw forbidden
  let (bytes, mappingJson) ← req.body
  let mapping ← if trim mappingJson = "" then pure {}
    else (lib.decodeMapping mappingJson).mapError fun e => invalidCsv ("bad mapping: " ++ e)
  let rows ← (parseCsv lib bytes).mapError invalidCsv
  return (mapping, rows)

/-- `import_commit`. -/
def importCommit (req : ImportRequest) (db : Db) : Except Problem ImportResult × Db :=
  match admitImport lib req with
  | .error problem => (.error problem, db)
  | .ok (mapping, rows) =>
      let (result, db) := importRows lib c projectId actorId mapping rows db
      (.ok result, db)

end Import

end IntelliPilot.Imports
