import IntelliPilot.Http.Problem
import IntelliPilot.Issues.Statements
import IntelliPilot.Statement.Alone
import IntelliPilot.Text.Strings

/-! # Issue and version handlers

`create_issue`, `bulk_create_issues` and `update_issue` of `api::backlog`, and
the handlers of release versions. Reading a body and checking its bounds are
given; the history entry, the event and the pool are left out.
-/

namespace IntelliPilot.Issues

open Http Statement
open Auth (trim)
open Imports (Uuid)
open Text (split startsWith)

/-- A function of the database layer. -/
abbrev Query := ExceptT DbError (Prog Stmt)

abbrev Handler := ExceptT Problem (Prog Stmt)

def query {α : Type} (stmt : Stmt (Except DbError α)) : Query α := ExceptT.mk (.call stmt)

/-- A query and what the handler does where it fails. -/
def attempt {α : Type} (q : Query α) (failed : Handler α) : Handler α := do
  match ← ExceptT.lift q.run with
  | .ok a => pure a
  | .error _ => failed

def orInternal {α : Type} (q : Query α) : Handler α := attempt q (throw internal)

/-- `.unwrap_or(false)`. -/
def orFalse (q : Query Bool) : Handler Bool := attempt q (pure false)

def ensure (ok : Bool) (problem : Problem) : Handler Unit := if ok then pure () else throw problem

/-- A decision made without the database. -/
def decided {α : Type} (result : Except Problem α) : Handler α := ExceptT.mk (pure result)

/-- The project context: whether the actor has the permission asked for. -/
structure Context where
  projectId : Uuid
  actorId : Uuid
  allowed : Bool
  deriving DecidableEq, Repr

/-! ## Bodies -/

/-- A create body: not read, read but out of its bounds, or fine. -/
inductive CreateBody (α : Type) where
  | unreadable
  | invalid
  | valid (req : α)
  deriving DecidableEq, Repr

/-- `parse_create`. -/
def parseCreate {α : Type} : CreateBody α → Except Problem α
  | .unreadable => .error ⟨400, "invalid_body", "Invalid Request Body", none⟩
  | .invalid => .error (unprocessable "validation_failed" "validation failed")
  | .valid req => .ok req

inductive JsonRejection where
  | dataOrSyntax
  | other
  deriving DecidableEq, Repr

/-- `parse_patch`. -/
def parsePatch {α : Type} : Except JsonRejection α → Except Problem α
  | .error .dataOrSyntax => .error ⟨400, "invalid_body", "Invalid Request Body",
      some "unknown or malformed field"⟩
  | .error .other => .error ⟨400, "invalid_body", "Invalid Request Body", none⟩
  | .ok req => .ok req

/-! ## Entity tags -/

/-- `etag`. -/
def etag (id : Uuid) (version : Nat) : String :=
  "\"" ++ toString id ++ ":" ++ toString version ++ "\""

/-- `strip_weak`. -/
def stripWeak (tag : String) : String :=
  if startsWith tag "W/" then String.ofList (tag.toList.drop 2) else tag

def preconditionFailed (detail : Option String) : Problem :=
  ⟨412, "precondition_failed", "Precondition Failed", detail⟩

/-- `check_if_match`, of the header's value if it is text. -/
def checkIfMatch (header : Option String) (current : String) : Except Problem Unit :=
  match header with
  | none => .error ⟨428, "precondition_required", "Precondition Required",
      some "If-Match header is required for updates"⟩
  | some value =>
      if trim value == "*" ||
          ((split value ',').map trim).any fun tag => stripWeak tag == stripWeak current then .ok ()
      else .error (preconditionFailed (some "ETag mismatch; reload and retry"))

/-! ## Checks -/

def labelsInProject (projectId : Uuid) (ids : List Uuid) : Query Bool :=
  if ids.isEmpty then pure true else query (.labelsInProject projectId ids)

def componentsInProject (projectId : Uuid) (ids : List Uuid) : Query Bool :=
  if ids.isEmpty then pure true else query (.componentsInProject projectId ids)

/-- `validate_label_component_ids`. -/
def validateLabelComponentIds (projectId : Uuid) (labels components : List Uuid) : Handler Unit := do
  ensure (← orFalse (labelsInProject projectId labels))
    (unprocessable "invalid_label" "a label is not in this project")
  ensure (← orFalse (componentsInProject projectId components))
    (unprocessable "invalid_component" "a component is not in this project")

/-- `reject_issue_milestone_write`. -/
def rejectIssueMilestoneWrite (milestoneId : Option Uuid) : Handler Unit :=
  ensure milestoneId.isNone (unprocessable "milestone_via_epic_only"
    "an issue's milestone follows its epic and cannot be set directly")

/-- `validate_issue_associations`. -/
def validateIssueAssociations (projectId : Uuid) (epicId parentId milestoneId : Option Uuid) :
    Handler Unit := do
  rejectIssueMilestoneWrite milestoneId
  match epicId with
  | none => pure ()
  | some id =>
      ensure (← orFalse (query (.epicInProject projectId id)))
        (unprocessable "invalid_association" "epic is not in this project")
  match parentId with
  | none => pure ()
  | some id =>
      ensure (← orFalse (query (.issueInProject projectId id)))
        (unprocessable "invalid_association" "parent issue is not in this project")

/-- A free-text fix version that is not blank. -/
def hasText (releaseText : Option String) : Bool := releaseText.any (trim · != "")

def invalidFixVersion : Problem := unprocessable "invalid_fix_version"
  "set either release_version_id or release_text, not both"

/-- `validate_issue_extras`. -/
def validateIssueExtras (projectId : Uuid) (customerIds : List Uuid)
    (releaseVersionId : Option Uuid) (releaseText : Option String) : Handler Unit := do
  ensure (!(releaseVersionId.isSome && hasText releaseText)) invalidFixVersion
  customerIds.forM fun id => do
    ensure (← orFalse (query (.customerInProject projectId id)))
      (unprocessable "invalid_association" "customer not found in this project")
  match releaseVersionId with
  | none => pure ()
  | some id =>
      ensure (← orFalse (query (.versionInProject projectId id)))
        (unprocessable "invalid_association" "release version not found in this project")

/-- The loop of `validate_component_versions` over the pairs. -/
def checkPairs (components : List Uuid) : List Uuid → List ComponentVersion → Except Problem Unit
  | _, [] => .ok ()
  | seen, pair :: pairs =>
      if seen.contains pair.componentId then
        .error (unprocessable "component_version_duplicate"
          "a component can have only one fix version")
      else if !components.contains pair.componentId then
        .error (unprocessable "component_version_unassigned"
          "a fix version was given for a component the issue does not affect")
      else checkPairs components (pair.componentId :: seen) pairs

/-- `validate_component_versions`. -/
def validateComponentVersions (pairs : List ComponentVersion) (components : List Uuid) :
    Handler Unit := do
  if pairs.isEmpty then pure ()
  else
    decided (checkPairs components [] pairs)
    let allowed ← orInternal (query (.versionsOfComponents (pairs.map (·.componentId))
      (pairs.map (·.releaseVersionId))))
    ensure (pairs.all allowed.contains) (unprocessable "component_version_unrelated"
      "that version does not belong to a release this component ships in")

/-! ## Reads and writes -/

/-- `get_issue`. -/
def getIssue (projectId id : Uuid) : Query (Option FullIssue) := do
  match ← query (.selectIssue projectId id) with
  | none => pure none
  | some row =>
      let labels ← query (.issueLabelIds row.id)
      let components ← query (.issueComponentIds row.id)
      let componentVersions ← query (.issueComponentVersions row.id)
      let customerIds ← query (.issueCustomerIds row.id)
      pure (some
        { toIssue := row
          labels := labels
          components := components
          componentVersions := componentVersions
          customerIds := customerIds })

/-- `bl::create_issue`. -/
def insertRow (projectId ownerId : Uuid) (w : IssueWrite) : Query Issue := do
  let reference ← query (.allocRef projectId)
  let statusId ← match w.statusId with
    | some id => pure (some id)
    | none => query (.newStatusId projectId)
  query (.insertIssue projectId ownerId reference { w with statusId := statusId })

inductive UpdateOutcome where
  | updated (row : Issue)
  | conflict
  | notFound
  deriving DecidableEq, Repr

/-- `bl::update_issue`. -/
def updateRow (projectId id : Uuid) (version : Nat) (w : IssueWrite) : Query UpdateOutcome := do
  match ← query (.updateIssue projectId id version w) with
  | some row => pure (.updated row)
  | none => return if ← query (.issueExists projectId id) then .conflict else .notFound

/-- The replacements of an issue's sets, one transaction after the other. -/
def replaceSets (id : Uuid) (labels components : Option (List Uuid))
    (pairs : Option (List ComponentVersion)) (customerIds : Option (List Uuid)) : Handler Unit := do
  match labels with
  | none => pure ()
  | some ids => orInternal (query (.setIssueLabels id ids))
  match components with
  | none => pure ()
  | some ids => orInternal (query (.setIssueComponents id ids))
  match pairs with
  | none => pure ()
  | some pairs => orInternal (query (.setIssueComponentVersions id pairs))
  match customerIds with
  | none => pure ()
  | some ids => orInternal (query (.setIssueCustomers id ids))

/-- The issue as it was left, which must be found. -/
def reread (projectId id : Uuid) : Handler FullIssue := do
  match ← orInternal (getIssue projectId id) with
  | some full => pure full
  | none => throw internal

inductive Answer where
  | issue (status : Nat) (full : FullIssue)
  | replayed (status : Nat) (body : FullIssue)
  | issues (created : List FullIssue)
  | version
  | noContent
  deriving DecidableEq, Repr

/-! ## Create -/

structure CreateIssueRequest extends IssueWrite where
  labels : List Uuid := []
  components : List Uuid := []
  componentVersions : List ComponentVersion := []
  customerIds : List Uuid := []
  deriving DecidableEq, Repr

/-- `write_from_create`: the milestone is left to the trigger. -/
def writeFromCreate (req : CreateIssueRequest) : IssueWrite :=
  { req.toIssueWrite with milestoneId := none }

/-- The checks of a new issue before it is written. -/
def validateNew (projectId : Uuid) (req : CreateIssueRequest) : Handler Unit := do
  validateLabelComponentIds projectId req.labels req.components
  validateIssueAssociations projectId req.epicId req.parentId req.milestoneId
  validateIssueExtras projectId req.customerIds req.releaseVersionId req.releaseText

/-- The sets of a new issue. -/
def fillSets (id : Uuid) (req : CreateIssueRequest) : Handler Unit :=
  replaceSets id (some req.labels) (some req.components) (some req.componentVersions)
    (some req.customerIds)

def issuesPath (projectId : Uuid) : String := "/projects/" ++ toString projectId ++ "/issues"

/-- `IDEMPOTENCY_TTL_SECS`, in microseconds. -/
def idempotencyTtl : Int := 24 * 60 * 60 * 1000000

/-- `replay`; a lookup that fails finds nothing. -/
def replay (userId : Uuid) (key : Option String) (path : String) :
    Handler (Option (Nat × FullIssue)) :=
  match key with
  | none => pure none
  | some key => attempt (query (.lookupKey userId key "POST" path)) (pure none)

/-- `remember`; a store that fails is passed over. -/
def remember (userId : Uuid) (key : Option String) (path : String) (body : FullIssue) :
    Handler Unit := do
  match key with
  | none => pure ()
  | some key =>
      let now ← ExceptT.lift (.call Stmt.now)
      attempt (query (.storeKey ⟨userId, key, "POST", path, 201, body, now + idempotencyTtl⟩))
        (pure ())

/-- `create_issue`, once nothing is replayed. -/
def createNew (ctx : Context) (key : Option String) (req : CreateIssueRequest) : Handler Answer := do
  let row ← orInternal (insertRow ctx.projectId ctx.actorId (writeFromCreate req))
  validateComponentVersions req.componentVersions req.components
  fillSets row.id req
  let full ← reread ctx.projectId row.id
  remember ctx.actorId key (issuesPath ctx.projectId) full
  return .issue 201 full

/-- `create_issue`. -/
def createIssue (ctx : Context) (key : Option String) (body : CreateBody CreateIssueRequest) :
    Handler Answer := do
  ensure ctx.allowed forbidden
  let req ← decided (parseCreate body)
  validateNew ctx.projectId req
  match ← replay ctx.actorId key (issuesPath ctx.projectId) with
  | some (status, stored) => return .replayed status stored
  | none => createNew ctx key req

/-- The loop of `bulk_create_issues` that writes. -/
def createItems (ctx : Context) : List CreateIssueRequest → Handler (List FullIssue)
  | [] => pure []
  | req :: rest => do
      let row ← orInternal (insertRow ctx.projectId ctx.actorId (writeFromCreate req))
      fillSets row.id req
      let full ← reread ctx.projectId row.id
      return full :: (← createItems ctx rest)

/-- `bulk_create_issues`: all items are checked before the first is written. -/
def bulkCreateIssues (ctx : Context) (body : CreateBody (List CreateIssueRequest)) :
    Handler Answer := do
  ensure ctx.allowed forbidden
  let items ← decided (parseCreate body)
  items.forM (validateNew ctx.projectId)
  return .issues (← createItems ctx items)

/-! ## Update -/

/-- The merge patch of `update_issue`; an inner `none` clears the column. -/
structure UpdateIssueRequest where
  subject : Option String := none
  description : Option String := none
  statusId : Option (Option Uuid) := none
  typeId : Option (Option Uuid) := none
  priorityId : Option (Option Uuid) := none
  sizeId : Option (Option Uuid) := none
  epicId : Option (Option Uuid) := none
  parentId : Option (Option Uuid) := none
  milestoneId : Option (Option Uuid) := none
  assignedTo : Option (Option Uuid) := none
  qaAssigneeId : Option (Option Uuid) := none
  reviewerId : Option (Option Uuid) := none
  category : Option (Option IssueCategory) := none
  customerIds : Option (List Uuid) := none
  startDate : Option Int := none
  dueDate : Option Int := none
  resolution : Option (Option Resolution) := none
  releaseVersionId : Option (Option Uuid) := none
  releaseText : Option (Option String) := none
  labels : Option (List Uuid) := none
  components : Option (List Uuid) := none
  componentVersions : Option (List ComponentVersion) := none
  deriving DecidableEq, Repr

/-- The write-set: the patch over the stored row; dates cannot be cleared. -/
def UpdateIssueRequest.over (patch : UpdateIssueRequest) (old : Issue) : IssueWrite where
  subject := patch.subject.getD old.subject
  description := patch.description.getD old.description
  statusId := patch.statusId.getD old.statusId
  typeId := patch.typeId.getD old.typeId
  priorityId := patch.priorityId.getD old.priorityId
  sizeId := patch.sizeId.getD old.sizeId
  epicId := patch.epicId.getD old.epicId
  parentId := patch.parentId.getD old.parentId
  milestoneId := old.milestoneId
  assignedTo := patch.assignedTo.getD old.assignedTo
  qaAssigneeId := patch.qaAssigneeId.getD old.qaAssigneeId
  reviewerId := patch.reviewerId.getD old.reviewerId
  category := patch.category.getD old.category
  startDate := patch.startDate.or old.startDate
  dueDate := patch.dueDate.or old.dueDate
  resolution := patch.resolution.getD old.resolution
  releaseVersionId := patch.releaseVersionId.getD old.releaseVersionId
  releaseText := patch.releaseText.getD old.releaseText

/-- The associations that a patch changes. -/
def validateChanged (projectId : Uuid) (old : Issue) (w : IssueWrite) : Handler Unit :=
  if w.epicId != old.epicId || w.parentId != old.parentId then
    validateIssueAssociations projectId (if w.epicId != old.epicId then w.epicId else none)
      (if w.parentId != old.parentId then w.parentId else none) none
  else pure ()

/-- The cycle check: only for a parent that changes, and passed when its query fails. -/
def rejectCycle (projectId : Uuid) (old : Issue) (w : IssueWrite) : Handler Unit := do
  match w.parentId with
  | none => pure ()
  | some parentId =>
      if w.parentId != old.parentId then
        ensure (!(← orFalse (query (.parentChainContains projectId parentId old.id))))
          (unprocessable "invalid_association"
            "parent would create a cycle in the issue hierarchy")
      else pure ()

/-- A request to `update_issue`. -/
structure UpdateRequest where
  id : Uuid
  ifMatch : Option String
  body : Except JsonRejection UpdateIssueRequest

/-- The issue that a patch is for, as it is read. -/
def readOld (projectId id : Uuid) : Handler FullIssue := do
  match ← attempt (getIssue projectId id) (throw notFound) with
  | some old => pure old
  | none => throw notFound

/-- The checks of `update_issue` on what it read. -/
def validatePatch (projectId : Uuid) (patch : UpdateIssueRequest) (old : FullIssue) :
    Handler Unit := do
  validateLabelComponentIds projectId (patch.labels.getD []) (patch.components.getD [])
  match patch.componentVersions with
  | none => pure ()
  | some pairs => validateComponentVersions pairs (patch.components.getD old.components)
  rejectIssueMilestoneWrite patch.milestoneId.join
  let w := patch.over old.toIssue
  validateChanged projectId old.toIssue w
  ensure (w.parentId != some old.id)
    (unprocessable "invalid_association" "an issue cannot be its own parent")
  rejectCycle projectId old.toIssue w
  validateIssueExtras projectId (patch.customerIds.getD old.customerIds) w.releaseVersionId
    w.releaseText

/-- The write phase of `update_issue`. -/
def writePatch (projectId : Uuid) (patch : UpdateIssueRequest) (old : FullIssue) :
    Handler Answer := do
  match ← orInternal (updateRow projectId old.id old.version (patch.over old.toIssue)) with
  | .notFound => throw notFound
  | .conflict => throw (preconditionFailed none)
  | .updated row =>
      replaceSets row.id patch.labels patch.components patch.componentVersions patch.customerIds
      return .issue 200 (← reread projectId row.id)

/-- `update_issue`. -/
def updateIssue (ctx : Context) (req : UpdateRequest) : Handler Answer := do
  ensure ctx.allowed forbidden
  let patch ← decided (parsePatch req.body)
  let old ← readOld ctx.projectId req.id
  decided (checkIfMatch req.ifMatch (etag old.id old.version))
  validatePatch ctx.projectId patch old
  writePatch ctx.projectId patch old

/-! ## Release versions -/

/-- `releases::problem`. -/
def releaseProblem (status : Nat) (code : String) (detail : Option String) : Problem :=
  ⟨status, code, code, detail⟩

/-- `releases::parse_body`. -/
def parseBody {α : Type} : CreateBody α → Except Problem α
  | .unreadable => .error (releaseProblem 400 "invalid_body" none)
  | .invalid => .error (releaseProblem 422 "validation_failed" none)
  | .valid req => .ok req

/-- `create_version`. -/
def createVersion (ctx : Context) (releaseId : Uuid) (body : CreateBody String) :
    Handler Answer := do
  ensure ctx.allowed forbidden
  let version ← decided (parseBody body)
  ensure (← attempt (query (.releaseInProject ctx.projectId releaseId))
    (throw (releaseProblem 500 "internal_error" none))) (releaseProblem 404 "not_found" none)
  match ← ExceptT.lift (query (.createVersion releaseId version)).run with
  | .ok () => return .version
  | .error .uniqueViolation =>
      throw (releaseProblem 409 "already_exists" (some "version already exists"))
  | .error .failed => throw (releaseProblem 500 "internal_error" none)

/-- `delete_version`. -/
def deleteVersion (ctx : Context) (id : Uuid) : Handler Answer := do
  ensure ctx.allowed forbidden
  ensure (← attempt (query (.deleteVersion ctx.projectId id))
    (throw (releaseProblem 500 "internal_error" none))) (releaseProblem 404 "not_found" none)
  return .noContent

/-! ## Requests -/

inductive Request where
  | createIssue (ctx : Context) (key : Option String) (body : CreateBody CreateIssueRequest)
  | bulkCreateIssues (ctx : Context) (body : CreateBody (List CreateIssueRequest))
  | updateIssue (ctx : Context) (req : UpdateRequest)
  | createVersion (ctx : Context) (releaseId : Uuid) (body : CreateBody String)
  | deleteVersion (ctx : Context) (id : Uuid)

def Request.handler : Request → Handler Answer
  | .createIssue ctx key body => Issues.createIssue ctx key body
  | .bulkCreateIssues ctx body => Issues.bulkCreateIssues ctx body
  | .updateIssue ctx req => Issues.updateIssue ctx req
  | .createVersion ctx releaseId body => Issues.createVersion ctx releaseId body
  | .deleteVersion ctx id => Issues.deleteVersion ctx id

/-- The handlers as programs of interleaved statements. -/
def service : Service Stmt Db Choice Request (Except Problem Answer) where
  exec := Stmt.exec
  handler request := request.handler.run

end IntelliPilot.Issues
