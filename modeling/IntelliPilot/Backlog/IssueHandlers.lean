import IntelliPilot.Backlog.Statements
import IntelliPilot.Http.Problem

/-! # Issue handlers

The handlers of `api::backlog` and `api::issues_io` that write the hierarchy,
each run as one step. A handler first decides, then comes to at most one
statement on the tables; only the import runs a statement for each row.
-/

namespace IntelliPilot.Backlog

/-! ## Reads -/

def inProject (projectId : Uuid) (issue : Issue) : Bool := issue.projectId == projectId && issue.live

/-- `get_issue`. -/
def getIssue (db : Db) (projectId id : Uuid) : Option Issue :=
  (db.issue? id).filter (inProject projectId)

def issueInProject (db : Db) (projectId id : Uuid) : Bool := (getIssue db projectId id).isSome

def epicInProject (db : Db) (projectId id : Uuid) : Bool :=
  ((db.epic? id).filter fun epic => epic.projectId == projectId && epic.live).isSome

/-- The rows of the recursive query from `id` on, at most `depth` of them. -/
def chain (db : Db) : Nat → Uuid → List Uuid
  | 0, _ => []
  | depth + 1, id =>
      match (db.issue? id).filter Issue.live with
      | none => []
      | some issue =>
          issue.id :: match issue.parentId with
            | none => []
            | some parentId => chain db depth parentId

/-- `parent_chain_contains`: the walk starts in the project and is depth-capped. -/
def parentChainContains (db : Db) (projectId start needle : Uuid) : Bool :=
  issueInProject db projectId start && (chain db 100 start).contains needle

namespace Api

open Http

def ensure (ok : Bool) (problem : Problem) : Except Problem Unit :=
  if ok then .ok () else .error problem

/-- The outcome of checks on columns that are left out here. -/
def screen (refusal : Option Problem) : Except Problem Unit := refusal.elim (.ok ()) .error

/-- A handler goes on where its first step does not refuse. -/
theorem bind_eq_ok {α β : Type} {first : Except Problem α} {rest : α → Except Problem β} {b : β} :
    (first >>= rest) = .ok b ↔ ∃ a, first = .ok a ∧ rest a = .ok b := by
  cases first with
  | error problem =>
    constructor
    · intro h
      cases h
    · rintro ⟨a, h, _⟩
      cases h
  | ok a =>
    constructor
    · exact fun h => ⟨a, rfl, h⟩
    · rintro ⟨_, heq, h⟩
      cases heq
      exact h

/-- A handler is refused by its first step or by what follows. -/
theorem bind_eq_error {α β : Type} {first : Except Problem α} {rest : α → Except Problem β}
    {problem : Problem} : (first >>= rest) = .error problem ↔
      first = .error problem ∨ ∃ a, first = .ok a ∧ rest a = .error problem := by
  cases first with
  | error first | ok a => simp [bind, Except.bind]

@[simp] theorem ensure_eq_error {ok : Bool} {problem refusal : Problem} :
    ensure ok problem = .error refusal ↔ ok = false ∧ refusal = problem := by
  cases ok <;> simp [ensure, eq_comm]

@[simp] theorem ensure_eq_ok {ok : Bool} {problem : Problem} {u : Unit} :
    ensure ok problem = .ok u ↔ ok = true := by
  cases ok <;> simp [ensure]

@[simp] theorem screen_eq_ok {refusal : Option Problem} {u : Unit} :
    screen refusal = .ok u ↔ refusal = none := by
  cases refusal <;> simp [screen]

/-- What a request meets outside the tables: the refusals of the checks before
the issue is read, of labels and components, and of customers and versions;
and which of its queries fail. -/
structure Circumstances where
  refused : Option Problem := none
  labels : Option Problem := none
  extras : Option Problem := none
  getFails : Bool := false
  epicCheckFails : Bool := false
  parentCheckFails : Bool := false
  chainCheckFails : Bool := false
  writeFails : Bool := false
  deriving DecidableEq, Repr

/-! ## Create and update -/

def rejectIssueMilestoneWrite (milestoneId : Option Uuid) : Except Problem Unit :=
  ensure milestoneId.isNone (unprocessable "milestone_via_epic_only"
    "an issue's milestone follows its epic and cannot be set directly")

/-- `validate_issue_associations`; a check that fails counts as a miss. -/
def validateIssueAssociations (c : Circumstances) (db : Db) (projectId : Uuid)
    (epicId parentId milestoneId : Option Uuid) : Except Problem Unit := do
  rejectIssueMilestoneWrite milestoneId
  ensure (epicId.all fun id => !c.epicCheckFails && epicInProject db projectId id)
    (unprocessable "invalid_association" "epic is not in this project")
  ensure (parentId.all fun id => !c.parentCheckFails && issueInProject db projectId id)
    (unprocessable "invalid_association" "parent issue is not in this project")

structure CreateIssueRequest where
  epicId : Option Uuid
  parentId : Option Uuid
  milestoneId : Option Uuid
  deriving DecidableEq, Repr

/-- `create_issue`; `newId` is the default of the column `id`. -/
def createIssue (projectId newId : Uuid) (req : CreateIssueRequest) (c : Circumstances) (db : Db) :
    Except Problem Stmt := do
  screen c.refused
  screen c.labels
  validateIssueAssociations c db projectId req.epicId req.parentId req.milestoneId
  screen c.extras
  ensure (!c.writeFails) internal
  return .createIssue newId projectId req.epicId req.parentId none

/-- The header `If-Match`, its tags without the weak prefix. -/
inductive IfMatch where
  | missing
  | any
  | tags (tags : List (Uuid × Nat))
  deriving DecidableEq, Repr

def checkIfMatch (header : IfMatch) (current : Uuid × Nat) : Except Problem Unit :=
  match header with
  | .missing =>
      .error ⟨428, "precondition_required", "Precondition Required",
        some "If-Match header is required for updates"⟩
  | .any => .ok ()
  | .tags tags =>
      ensure (tags.contains current)
        ⟨412, "precondition_failed", "Precondition Failed", some "ETag mismatch; reload and retry"⟩

/-- The patch of `update_issue`; an inner `none` clears the column. -/
structure UpdateIssueRequest where
  epicId : Option (Option Uuid)
  parentId : Option (Option Uuid)
  milestoneId : Option (Option Uuid)
  deriving DecidableEq, Repr

/-- The part of `update_issue` before the cycle check: it reads the issue and
validates the associations that changed. -/
def admitUpdate (projectId id : Uuid) (header : IfMatch) (patch : UpdateIssueRequest)
    (c : Circumstances) (db : Db) : Except Problem Issue := do
  screen c.refused
  let old ← (if c.getFails then none else getIssue db projectId id).elim (.error notFound) .ok
  checkIfMatch header (old.id, old.version)
  screen c.labels
  let epicId := patch.epicId.getD old.epicId
  let parentId := patch.parentId.getD old.parentId
  rejectIssueMilestoneWrite patch.milestoneId.join
  (if epicId != old.epicId || parentId != old.parentId then
    validateIssueAssociations c db projectId (if epicId != old.epicId then epicId else none)
      (if parentId != old.parentId then parentId else none) none
  else .ok ())
  ensure (parentId != some id)
    (unprocessable "invalid_association" "an issue cannot be its own parent")
  return old

/-- The cycle check: only for a parent that changes, and passed when its query fails. -/
def rejectCycle (c : Circumstances) (db : Db) (projectId id : Uuid) (old parentId : Option Uuid) :
    Except Problem Unit :=
  ensure (!(parentId != old && parentId.any fun pid =>
      !c.chainCheckFails && parentChainContains db projectId pid id))
    (unprocessable "invalid_association" "parent would create a cycle in the issue hierarchy")

/-- `update_issue`. -/
def updateIssue (projectId id : Uuid) (header : IfMatch) (patch : UpdateIssueRequest)
    (c : Circumstances) (db : Db) : Except Problem Stmt := do
  let old ← admitUpdate projectId id header patch c db
  let parentId := patch.parentId.getD old.parentId
  rejectCycle c db projectId id old.parentId parentId
  screen c.extras
  ensure (!c.writeFails) internal
  return .updateIssue projectId id old.version (patch.epicId.getD old.epicId) parentId
    old.milestoneId

/-- `delete_issue`; the closed-status check is among the refusals. -/
def deleteIssue (projectId id : Uuid) (c : Circumstances) : Except Problem Stmt := do
  screen c.refused
  ensure (!c.writeFails) internal
  return .softDeleteIssue projectId id

/-! ## Import -/

/-- The columns of a `ParsedRow` that links are made of, with the id the
database gives the new row and which of its two writes fail. -/
structure ParsedRow where
  externalId : String
  externalKey : String
  parentRef : String
  epicRef : String
  isEpic : Bool
  newId : Uuid
  insertFails : Bool := false
  linkFails : Bool := false
  deriving DecidableEq, Repr

/-- A `HashMap<String, Uuid>`. -/
abbrev RefMap := String → Option Uuid

/-- `map.insert(key, id)`, left out for an empty key. -/
def RefMap.insert (map : RefMap) (key : String) (id : Uuid) : RefMap :=
  fun k => if k = key ∧ key ≠ "" then some id else map k

/-- The tables and the maps of the first pass. -/
structure Import where
  db : Db
  byId : RefMap
  byKey : RefMap
  epicById : RefMap
  epicByKey : RefMap
  created : List ParsedRow

def Import.start (db : Db) : Import :=
  ⟨db, fun _ => none, fun _ => none, fun _ => none, fun _ => none, []⟩

/-- A row of the first pass; a row that cannot be inserted is skipped. -/
def Import.createRow (projectId : Uuid) (s : Import) (row : ParsedRow) : Import :=
  if row.isEpic then
    if row.insertFails || (s.db.epic? row.newId).isSome then s
    else
      { s with
        db := (Stmt.createEpic row.newId projectId none).exec s.db
        epicById := s.epicById.insert row.externalId row.newId
        epicByKey := s.epicByKey.insert row.externalKey row.newId }
  else if row.insertFails || (s.db.issue? row.newId).isSome then s
  else
    { s with
      db := (Stmt.createIssue row.newId projectId none none none).exec s.db
      byId := s.byId.insert row.externalId row.newId
      byKey := s.byKey.insert row.externalKey row.newId
      created := s.created ++ [row] }

def Import.firstPass (projectId : Uuid) (rows : List ParsedRow) (db : Db) : Import :=
  rows.foldl (Import.createRow projectId) (.start db)

/-- The parent a row names, by identifier or else by key. -/
def Import.parentOf (s : Import) (row : ParsedRow) : Option Uuid :=
  (s.byId row.parentRef).or (s.byKey row.parentRef)

def Import.epicOf (s : Import) (row : ParsedRow) : Option Uuid :=
  (s.epicByKey row.epicRef).or (s.epicById row.epicRef)

/-- A row of the second pass; a failing update is ignored. -/
def Import.linkRow (s : Import) (db : Db) (row : ParsedRow) : Db :=
  if ((s.parentOf row).isSome || (s.epicOf row).isSome) && !row.linkFails then
    (Stmt.importLinks row.newId (s.parentOf row) (s.epicOf row)).exec db
  else db

/-- `import_commit`, of a file that parses. -/
def importCommit (projectId : Uuid) (rows : List ParsedRow) (db : Db) : Db :=
  let s := Import.firstPass projectId rows db
  s.created.foldl s.linkRow s.db

/-! ## Requests -/

inductive Request where
  | createIssue (projectId newId : Uuid) (req : CreateIssueRequest) (c : Circumstances)
  | updateIssue (projectId id : Uuid) (header : IfMatch) (patch : UpdateIssueRequest)
      (c : Circumstances)
  | deleteIssue (projectId id : Uuid) (c : Circumstances)
  | importCommit (projectId : Uuid) (rows : List ParsedRow)
  deriving DecidableEq, Repr

/-- The statement a handler comes to, if any. -/
def settle (decision : Except Problem Stmt) (db : Db) : Db :=
  match decision with
  | .ok stmt => stmt.exec db
  | .error _ => db

def Request.handle : Request → Db → Db
  | .createIssue projectId newId req c, db => settle (Api.createIssue projectId newId req c db) db
  | .updateIssue projectId id header patch c, db =>
      settle (Api.updateIssue projectId id header patch c db) db
  | .deleteIssue projectId id c, db => settle (Api.deleteIssue projectId id c) db
  | .importCommit projectId rows, db => Api.importCommit projectId rows db

/-- Requests one after the other, each at its own time. -/
def serve (db : Db) (requests : List (Int × Request)) : Db :=
  requests.foldl (fun db entry => entry.2.handle { db with now := entry.1 }) db

end Api

end IntelliPilot.Backlog
