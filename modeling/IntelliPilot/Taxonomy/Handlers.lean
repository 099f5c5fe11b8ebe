import IntelliPilot.Backlog.IssueHandlers
import IntelliPilot.Statement.Handlers
import IntelliPilot.Statement.Requests
import IntelliPilot.Taxonomy.Tables

/-! # Requests on taxonomy items

The handlers of `api::taxonomy`, statement by statement, beside those of issues
and epics that write what refers to items. A request to the latter carries the
outcome of the checks on other tables with its body.
-/

namespace IntelliPilot.Taxonomy

open Http Statement
open Backlog.Api (IfMatch checkIfMatch)
open Imports (Uuid TaxonomyKind)

/-! ## Statements -/

inductive Stmt (F : Type) : Type → Type where
  | newStatusId (projectId : Uuid) : Stmt F (Except DbError (Option Uuid))
  | clearIsNew (projectId : Uuid) : Stmt F (Except DbError Unit)
  | list (projectId : Uuid) (kind : TaxonomyKind) : Stmt F (Except DbError (List (Item F)))
  | maxOrder (projectId : Uuid) (kind : TaxonomyKind) : Stmt F (Except DbError (Option F))
  | insertItem (projectId : Uuid) (kind : TaxonomyKind) (new : ItemNew F) (order : F) :
      Stmt F (Except DbError (Item F))
  | updateItem (projectId : Uuid) (kind : TaxonomyKind) (id : Uuid) (patch : ItemPatch F) :
      Stmt F (Except DbError (Option (Item F)))
  | deleteItem (projectId : Uuid) (kind : TaxonomyKind) (id : Uuid) : Stmt F (Except DbError Bool)
  | setOrder (projectId : Uuid) (kind : TaxonomyKind) (id : Uuid) (rank : F) :
      Stmt F (Except DbError Bool)
  | setOrders (projectId : Uuid) (kind : TaxonomyKind) (ranks : List (Uuid × F)) :
      Stmt F (Except DbError Unit)
  | referenceCount (id : Uuid) : Stmt F (Except DbError Nat)
  | selectIssue (projectId id : Uuid) : Stmt F (Except DbError (Option Issue))
  | insertIssue (projectId : Uuid) (w : IssueWrite) : Stmt F (Except DbError Issue)
  | updateIssue (projectId id : Uuid) (version : Nat) (w : IssueWrite) :
      Stmt F (Except DbError (Option Issue))
  | softDelete (projectId id : Uuid) : Stmt F (Except DbError Bool)
  | selectEpic (projectId id : Uuid) : Stmt F (Except DbError (Option Epic))
  | insertEpic (projectId : Uuid) (statusId : Option Uuid) : Stmt F (Except DbError Epic)
  | updateEpic (projectId id : Uuid) (version : Nat) (statusId : Option Uuid) :
      Stmt F (Except DbError (Option Epic))

/-- What the environment decides about a statement. -/
structure Choice where
  elapse : Nat := 0
  fails : Bool := false
  deriving DecidableEq, Repr

variable {F : Type}

/-- The effect of a statement that does not fail. -/
def Stmt.effect (ar : Arithmetic F) {β : Type} (stmt : Stmt F β) (db : Db F) : β × Db F :=
  match stmt with
  | .newStatusId projectId => (.ok (db.newStatusId projectId), db)
  | .clearIsNew projectId => (.ok (), db.clearIsNew projectId)
  | .list projectId kind => (.ok (db.list ar projectId kind), db)
  | .maxOrder projectId kind => (.ok (db.maxOrder ar projectId kind), db)
  | .insertItem projectId kind new order => db.insertItem projectId kind new order
  | .updateItem projectId kind id patch => db.updateItem projectId kind id patch
  | .deleteItem projectId kind id =>
      (.ok (db.deleteItem projectId kind id).1, (db.deleteItem projectId kind id).2)
  | .setOrder projectId kind id rank =>
      (.ok (db.setOrder projectId kind id rank).1, (db.setOrder projectId kind id rank).2)
  | .setOrders projectId kind ranks => (.ok (), db.setOrders projectId kind ranks)
  | .referenceCount id => (.ok (db.referenceCount id), db)
  | .selectIssue projectId id => (.ok (db.selectIssue projectId id), db)
  | .insertIssue projectId w => db.insertIssue projectId w
  | .updateIssue projectId id version w => db.updateIssue projectId id version w
  | .softDelete projectId id =>
      (.ok (db.softDelete projectId id).1, (db.softDelete projectId id).2)
  | .selectEpic projectId id => (.ok (db.selectEpic projectId id), db)
  | .insertEpic projectId statusId => db.insertEpic projectId statusId
  | .updateEpic projectId id version statusId => db.updateEpic projectId id version statusId

/-- The result of a statement that fails. -/
def Stmt.failure {β : Type} (stmt : Stmt F β) : β :=
  match stmt with
  | .newStatusId _ => .error .failed
  | .clearIsNew _ => .error .failed
  | .list _ _ => .error .failed
  | .maxOrder _ _ => .error .failed
  | .insertItem _ _ _ _ => .error .failed
  | .updateItem _ _ _ _ => .error .failed
  | .deleteItem _ _ _ => .error .failed
  | .setOrder _ _ _ _ => .error .failed
  | .setOrders _ _ _ => .error .failed
  | .referenceCount _ => .error .failed
  | .selectIssue _ _ => .error .failed
  | .insertIssue _ _ => .error .failed
  | .updateIssue _ _ _ _ => .error .failed
  | .softDelete _ _ => .error .failed
  | .selectEpic _ _ => .error .failed
  | .insertEpic _ _ => .error .failed
  | .updateEpic _ _ _ _ => .error .failed

/-- Time passes. -/
def Db.wait (elapse : Nat) (db : Db F) : Db F := { db with now := db.now + elapse }

/-- Time passes, then the statement runs or fails. -/
def Stmt.exec (ar : Arithmetic F) {β : Type} (stmt : Stmt F β) (choice : Choice) (db : Db F) :
    β × Db F :=
  if choice.fails then (stmt.failure, db.wait choice.elapse)
  else stmt.effect ar (db.wait choice.elapse)

/-! ## Handlers of items -/

abbrev Handler (F : Type) := ExceptT Problem (Prog (Stmt F))

inductive Answer (F : Type) where
  | item (status : Nat) (item : Item F)
  | issue (status : Nat) (issue : Issue)
  | issues (created : List Issue)
  | imported (created skipped : Nat)
  | epic (status : Nat) (epic : Epic)
  | noContent
  deriving DecidableEq, Repr

/-- The project of a request and whether the caller has the permission it needs. -/
structure Context where
  projectId : Uuid
  allowed : Bool := true
  deriving DecidableEq, Repr

/-- A body as it was read. -/
inductive Body (α : Type) where
  | unreadable
  | invalid
  | valid (req : α)
  deriving DecidableEq, Repr

/-- `parse_body`. -/
def parseBody {α : Type} : Body α → Except Problem α
  | .unreadable => .error ⟨400, "invalid_body", "Invalid Request Body", none⟩
  | .invalid => .error ⟨422, "validation_failed", "Validation failed", none⟩
  | .valid req => .ok req

/-- A value that is found, or the refusal of one that is not. -/
def found {α : Type} (value : Option α) : Except Problem α := value.elim (.error notFound) .ok

structure CreateTaxonomyItemRequest (F : Type) where
  name : String
  slug : String
  color : String := ""
  emoji : String := ""
  isClosed : Option Bool := none
  countsAsDone : Option Bool := none
  isNew : Option Bool := none
  value : Option F := none
  deriving DecidableEq, Repr

/-- The flags of a kind that has them start out unset. -/
def CreateTaxonomyItemRequest.new (req : CreateTaxonomyItemRequest F) (kind : TaxonomyKind) :
    ItemNew F where
  name := req.name
  slug := req.slug
  color := req.color
  emoji := req.emoji
  isClosed := if Kind.hasClosed kind then some (req.isClosed.getD false) else none
  countsAsDone := if Kind.hasCountsAsDone kind then some (req.countsAsDone.getD false) else none
  isNew := if Kind.hasNew kind then some (req.isNew.getD false) else none
  value := if Kind.hasValue kind then req.value else none

structure UpdateTaxonomyItemRequest (F : Type) where
  name : Option String := none
  color : Option String := none
  emoji : Option String := none
  isClosed : Option Bool := none
  countsAsDone : Option Bool := none
  isNew : Option Bool := none
  value : Option F := none
  deriving DecidableEq, Repr

/-- Only two of the fields are kept to the kinds that have them. -/
def UpdateTaxonomyItemRequest.patch (req : UpdateTaxonomyItemRequest F) (kind : TaxonomyKind) :
    ItemPatch F where
  name := req.name
  color := req.color
  emoji := req.emoji
  isClosed := req.isClosed
  countsAsDone := if Kind.hasCountsAsDone kind then req.countsAsDone else none
  isNew := if Kind.hasNew kind then req.isNew else none
  value := req.value

/-- At most one status is the new one: the flag is cleared elsewhere first. -/
def makeRoom (projectId : Uuid) (isNew : Option Bool) : Handler F Unit :=
  if isNew == some true then orRefuse (.clearIsNew projectId) internal else pure ()

def alreadyExists : Problem :=
  ⟨409, "already_exists", "Already Exists", some "slug already used for this kind"⟩

/-- The outcome of `taxonomy::create` in `create`. -/
def created : Except DbError (Item F) → Except Problem (Answer F)
  | .ok item => .ok (.item 201 item)
  | .error .uniqueViolation => .error alreadyExists
  | .error .failed => .error internal

/-- `create`. -/
def create (ar : Arithmetic F) (ctx : Context) (kind : String)
    (body : Body (CreateTaxonomyItemRequest F)) : Handler F (Answer F) := do
  refuseUnless ctx.allowed forbidden
  let kind ← given (found (Kind.parse kind))
  let req ← given (parseBody body)
  let new := req.new kind
  makeRoom ctx.projectId new.isNew
  let last ← orRefuse (.maxOrder ctx.projectId kind) internal
  let order := (ar.rankBetween last none).getD ar.appendGap
  given (created (← attempted (.insertItem ctx.projectId kind new order)))

/-- `update`. -/
def update (ctx : Context) (kind : String) (id : Option Uuid)
    (body : Body (UpdateTaxonomyItemRequest F)) : Handler F (Answer F) := do
  refuseUnless ctx.allowed forbidden
  let kind ← given (found (Kind.parse kind))
  let id ← given (found id)
  let req ← given (parseBody body)
  let patch := req.patch kind
  makeRoom ctx.projectId patch.isNew
  let item ← given (found (← orRefuse (.updateItem ctx.projectId kind id patch) internal))
  return .item 200 item

def inUse (count : Nat) : Problem :=
  ⟨409, "in_use", "Taxonomy item in use", some (toString count ++ " " ++
    (if count = 1 then "entity references" else "entities reference") ++ " this item")⟩

/-- `delete`. -/
def delete (ctx : Context) (kind : String) (id : Option Uuid) : Handler F (Answer F) := do
  refuseUnless ctx.allowed forbidden
  let kind ← given (found (Kind.parse kind))
  let id ← given (found id)
  let count ← orRefuse (.referenceCount id) internal
  refuseUnless (count == 0) (inUse count)
  refuseUnless (← orRefuse (.deleteItem ctx.projectId kind id) internal) notFound
  return .noContent

structure MoveTaxonomyItemRequest where
  beforeId : Option Uuid := none
  afterId : Option Uuid := none
  deriving DecidableEq, Repr

def orderOf (items : List (Item F)) (target : Option Uuid) : Option F :=
  target.bind fun target => (items.find? (·.id == target)).map (·.order)

/-- The order that `renormalize_with_move` wants. -/
def reordered (items : List (Item F)) (id : Uuid) (req : MoveTaxonomyItemRequest) : List Uuid :=
  let others := (items.map (·.id)).filter (· != id)
  let position :=
    match req.beforeId, req.afterId with
    | some before, _ => ((others.findIdx? (· == before)).map (· + 1)).getD others.length
    | none, some after => (others.findIdx? (· == after)).getD 0
    | none, none => others.length
  others.insertIdx (min position others.length) id

/-- `move_item`. -/
def moveItem (ar : Arithmetic F) (ctx : Context) (kind : String) (id : Option Uuid)
    (body : Body MoveTaxonomyItemRequest) : Handler F (Answer F) := do
  refuseUnless ctx.allowed forbidden
  let kind ← given (found (Kind.parse kind))
  let id ← given (found id)
  let req ← given (parseBody body)
  let items ← orRefuse (.list ctx.projectId kind) internal
  refuseUnless (items.any (·.id == id)) notFound
  match ar.rankBetween (orderOf items req.beforeId) (orderOf items req.afterId) with
  | some rank =>
      refuseUnless (← orRefuse (.setOrder ctx.projectId kind id rank) internal) notFound
  | none =>
      let order := reordered items id req
      orRefuse (.setOrders ctx.projectId kind (order.zip (ar.normalizedRanks order.length)))
        internal
  return .noContent

/-! ## Handlers of issues and epics -/

/-- `create_issue` of `db::backlog`. -/
def insertNew (projectId : Uuid) (w : IssueWrite) : Handler F Issue := do
  let statusId ←
    match w.statusId with
    | some id => pure (some id)
    | none => orRefuse (.newStatusId projectId) internal
  orRefuse (.insertIssue projectId { w with statusId := statusId }) internal

/-- `create_issue`. -/
def createIssue (projectId : Uuid) (body : Except Problem IssueWrite) : Handler F (Answer F) := do
  let w ← given body
  return .issue 201 (← insertNew projectId w)

/-- The loop of `bulk_create_issues`. -/
def insertAll (projectId : Uuid) : List IssueWrite → Handler F (List Issue)
  | [] => pure []
  | w :: ws => do
      let issue ← insertNew projectId w
      return issue :: (← insertAll projectId ws)

/-- `bulk_create_issues`. -/
def bulkCreateIssues (projectId : Uuid) (body : Except Problem (List IssueWrite)) :
    Handler F (Answer F) := do
  let ws ← given body
  return .issues (← insertAll projectId ws)

/-- A row that an import writes: an issue, or the status of an epic. -/
abbrev ImportRow := IssueWrite ⊕ Option Uuid

/-- The loop of an import: how many rows are written, and how many skipped. -/
def importRows (projectId : Uuid) : List ImportRow → Handler F (Nat × Nat)
  | [] => pure (0, 0)
  | .inl w :: rows => do
      let written ← ExceptT.mk (Prog.bind (insertNew projectId w).run fun result =>
        .done (.ok result.toOption.isSome))
      let (created, skipped) ← importRows projectId rows
      return if written then (created + 1, skipped) else (created, skipped + 1)
  | .inr statusId :: rows => do
      let written ← attempted (.insertEpic projectId statusId)
      let (created, skipped) ← importRows projectId rows
      return if written.toOption.isSome then (created + 1, skipped) else (created, skipped + 1)

/-- The patch of `update_issue`; an inner `none` clears the column. -/
structure UpdateIssueRequest where
  statusId : Option (Option Uuid) := none
  typeId : Option (Option Uuid) := none
  priorityId : Option (Option Uuid) := none
  sizeId : Option (Option Uuid) := none
  deriving DecidableEq, Repr

/-- The write-set: the patch over the stored row. -/
def UpdateIssueRequest.over (patch : UpdateIssueRequest) (old : IssueWrite) : IssueWrite where
  statusId := patch.statusId.getD old.statusId
  typeId := patch.typeId.getD old.typeId
  priorityId := patch.priorityId.getD old.priorityId
  sizeId := patch.sizeId.getD old.sizeId

/-- The refusal of a row that changed since it was loaded. -/
def stale : Problem := ⟨412, "precondition_failed", "Precondition Failed", none⟩

/-- `update_issue`; `checks` are those between reading the row and writing it. -/
def updateIssue (projectId id : Uuid) (header : IfMatch) (body : Except Problem UpdateIssueRequest)
    (checks : Except Problem Unit) : Handler F (Answer F) := do
  let patch ← given body
  let old ← given (found (← orRefuse (.selectIssue projectId id) notFound))
  given (checkIfMatch header (old.id, old.version))
  given checks
  match ← orRefuse (.updateIssue projectId id old.version (patch.over old.toIssueWrite)) internal with
  | some issue => return .issue 200 issue
  | none =>
      if (← orRefuse (.selectIssue projectId id) internal).isSome then throw stale
      else throw notFound

/-- `delete_issue`. -/
def deleteIssue (projectId id : Uuid) (checks : Except Problem Unit) : Handler F (Answer F) := do
  given checks
  refuseUnless (← orRefuse (.softDelete projectId id) internal) notFound
  return .noContent

/-- `create_epic`. -/
def createEpic (projectId : Uuid) (body : Except Problem (Option Uuid)) : Handler F (Answer F) := do
  let statusId ← given body
  return .epic 201 (← orRefuse (.insertEpic projectId statusId) internal)

/-- `update_epic`. -/
def updateEpic (projectId id : Uuid) (header : IfMatch)
    (body : Except Problem (Option (Option Uuid))) (checks : Except Problem Unit) :
    Handler F (Answer F) := do
  let patch ← given body
  let old ← given (found (← orRefuse (.selectEpic projectId id) notFound))
  given (checkIfMatch header (old.id, old.version))
  given checks
  match ← orRefuse (.updateEpic projectId id old.version (patch.getD old.statusId)) internal with
  | some epic => return .epic 200 epic
  | none =>
      if (← orRefuse (.selectEpic projectId id) internal).isSome then throw stale
      else throw notFound

/-! ## Requests -/

/-- A request on items. -/
inductive Edit (F : Type) where
  | create (ctx : Context) (kind : String) (body : Body (CreateTaxonomyItemRequest F))
  | update (ctx : Context) (kind : String) (id : Option Uuid)
      (body : Body (UpdateTaxonomyItemRequest F))
  | delete (ctx : Context) (kind : String) (id : Option Uuid)
  | moveItem (ctx : Context) (kind : String) (id : Option Uuid) (body : Body MoveTaxonomyItemRequest)

inductive Request (F : Type) where
  | edit (edit : Edit F)
  | createIssue (projectId : Uuid) (body : Except Problem IssueWrite)
  | bulkCreateIssues (projectId : Uuid) (body : Except Problem (List IssueWrite))
  | importIssues (projectId : Uuid) (rows : List ImportRow)
  | updateIssue (projectId id : Uuid) (header : IfMatch) (body : Except Problem UpdateIssueRequest)
      (checks : Except Problem Unit)
  | deleteIssue (projectId id : Uuid) (checks : Except Problem Unit)
  | createEpic (projectId : Uuid) (body : Except Problem (Option Uuid))
  | updateEpic (projectId id : Uuid) (header : IfMatch)
      (body : Except Problem (Option (Option Uuid))) (checks : Except Problem Unit)

def Edit.handler (ar : Arithmetic F) : Edit F → Handler F (Answer F)
  | .create ctx kind body => Taxonomy.create ar ctx kind body
  | .update ctx kind id body => Taxonomy.update ctx kind id body
  | .delete ctx kind id => Taxonomy.delete ctx kind id
  | .moveItem ctx kind id body => Taxonomy.moveItem ar ctx kind id body

def Request.handler (ar : Arithmetic F) : Request F → Handler F (Answer F)
  | .edit taxonomy => taxonomy.handler ar
  | .createIssue projectId body => Taxonomy.createIssue projectId body
  | .bulkCreateIssues projectId body => Taxonomy.bulkCreateIssues projectId body
  | .importIssues projectId rows => do
      let (created, skipped) ← importRows projectId rows
      return .imported created skipped
  | .updateIssue projectId id header body checks =>
      Taxonomy.updateIssue projectId id header body checks
  | .deleteIssue projectId id checks => Taxonomy.deleteIssue projectId id checks
  | .createEpic projectId body => Taxonomy.createEpic projectId body
  | .updateEpic projectId id header body checks =>
      Taxonomy.updateEpic projectId id header body checks

/-- An edit with what the environment does to its statements. -/
structure Turn (F : Type) where
  edit : Edit F
  choices : Nat → Choice

/-- The handlers of items, each of which runs alone. -/
def server (ar : Arithmetic F) : Server (Db F) (Turn F) (Except Problem (Answer F)) where
  handle turn db := (turn.edit.handler ar).run.alone (Stmt.exec ar) turn.choices db

/-- All the handlers as programs of interleaved statements. -/
def service (ar : Arithmetic F) :
    Service (Stmt F) (Db F) Choice (Request F) (Except Problem (Answer F)) where
  exec := Stmt.exec ar
  handler request := (request.handler ar).run

end IntelliPilot.Taxonomy
