import IntelliPilot.Http.Problem
import IntelliPilot.Relational.Table
import IntelliPilot.Statement.Handlers
import Mathlib

/-! # Attachments

Rows of `attachments` and the objects that hold their bytes. Uploads, deletions,
the garbage collector and the purges of a project change the two by separate
steps, each of which may fail. How a file is received and typed, the audit
entries and the rows that a purge removes besides attachments are left out.
-/

namespace IntelliPilot.Attachments

open Http Statement

abbrev Uuid := Nat

abbrev StorageKey := String

/-- Seconds since 1970. -/
abbrev Timestamp := Nat

/-- `shard_key`: objects are stored under the hash of their bytes. -/
def shardKey (id : String) : StorageKey :=
  let safe := id.toList.filter fun c => c.isAlphanum || c == '-'
  let part (from' : Nat) := if from' + 2 ≤ safe.length then (safe.drop from').take 2 else ['0', '0']
  String.ofList (part 0 ++ '/' :: part 2 ++ '/' :: safe)

/-! ## Tables -/

inductive TargetType where
  | epic
  | issue
  | wiki
  | comment
  | meeting
  deriving DecidableEq, Repr

structure NewAttachment where
  projectId : Uuid
  targetType : TargetType
  targetId : Uuid
  uploaderId : Uuid
  filename : String
  contentType : String
  sizeBytes : Nat
  sha256 : String
  storageKey : StorageKey
  kind : Option String
  deriving DecidableEq, Repr

structure Attachment extends NewAttachment where
  id : Uuid
  deletedAt : Option Timestamp
  deriving DecidableEq, Repr

/-- The attachments, the issues and epics of the projects, and the stored objects. -/
structure Db where
  attachments : Table Attachment.id
  items : List (TargetType × Uuid × Uuid)
  objects : Finset StorageKey

def Db.empty : Db := ⟨Table.empty, [], ∅⟩

/-- An error of the database or of the storage. -/
inductive Failure where
  | failed
  deriving DecidableEq, Repr

/-! ## Statements -/

/-- The statements of `db::attachments`, the transactions of the purges, and the calls of
the storage. -/
inductive Stmt : Type → Type where
  | putFile (key : StorageKey) : Stmt (Except Failure Unit)
  | create (new : NewAttachment) : Stmt (Except Failure Attachment)
  | get (projectId id : Uuid) : Stmt (Except Failure (Option Attachment))
  | softDelete (projectId id : Uuid) : Stmt (Except Failure Bool)
  | softDeleteForTarget (targetType : TargetType) (targetId : Uuid) : Stmt (Except Failure Unit)
  | deleteExpired (cutoff : Timestamp) : Stmt (Except Failure (List StorageKey))
  | stillReferenced (keys : List StorageKey) : Stmt (Except Failure (List StorageKey))
  | purge (item : TargetType) (projectId : Uuid) : Stmt (Except Failure (Nat × List StorageKey))
  | removeObject (key : StorageKey) : Stmt (Except Failure Unit)

/-- What a statement meets: the time, whether it fails, and whether a file is stored
although its storing is reported to have failed. -/
structure Choice where
  now : Timestamp := 0
  fails : Bool := false
  leaves : Bool := false
  deriving DecidableEq, Repr

namespace Db

/-- Some row names the object, be it deleted or not. -/
def named (db : Db) (key : StorageKey) : Bool :=
  db.attachments.rows.any fun row => row.storageKey == key

def insert (new : NewAttachment) (db : Db) : Attachment × Db :=
  let row : Attachment := ⟨new, db.attachments.fresh, none⟩
  (row, { db with attachments := db.attachments.insert row db.attachments.find?_fresh })

/-- A row that is there for its project. -/
def get (db : Db) (projectId id : Uuid) : Option Attachment :=
  (db.attachments.find? id).filter fun row => row.projectId == projectId && row.deletedAt.isNone

/-- `UPDATE … SET deleted_at = now() WHERE … AND deleted_at IS NULL`. -/
def markDeleted (now : Timestamp) (p : Attachment → Bool) (db : Db) : Db :=
  { db with
    attachments := db.attachments.modify (fun row => p row && row.deletedAt.isNone)
      (fun row => { row with deletedAt := some now }) fun _ => rfl }

/-- `DELETE … WHERE … RETURNING storage_key`. -/
def deleteRows (p : Attachment → Bool) (db : Db) : List StorageKey × Db :=
  ((db.attachments.rows.filter p).map (·.storageKey),
    { db with attachments := db.attachments.erase p })

/-- `sort_unstable` and `dedup`. -/
def distinct (keys : List StorageKey) : List StorageKey := (keys.insertionSort (· ≤ ·)).dedup

/-- `SELECT DISTINCT storage_key … WHERE storage_key = ANY(keys)`. -/
def stillReferenced (keys : List StorageKey) (db : Db) : List StorageKey :=
  ((db.attachments.rows.map (·.storageKey)).filter (· ∈ keys)).dedup

/-- `purge_project_issues` and `purge_project_epics`, with `orphan_storage_keys`. -/
def purge (item : TargetType) (projectId : Uuid) (db : Db) : (Nat × List StorageKey) × Db :=
  let purged := db.items.filter fun row => row.1 == item && row.2.2 == projectId
  let (removed, rest) := db.deleteRows fun row =>
    row.targetType == item && purged.any fun target => target.2.1 == row.targetId
  let later := { rest with items := db.items.filter fun row => !(row.1 == item && row.2.2 == projectId) }
  let keys := distinct removed
  ((purged.length, keys.filter fun key => !(later.stillReferenced keys).contains key), later)

end Db

/-- What a statement does that does not fail. -/
def Stmt.effect {β : Type} (stmt : Stmt β) (now : Timestamp) (db : Db) : β × Db :=
  match stmt with
  -- an object of this key holds these bytes already and is kept
  | .putFile key => (.ok (), { db with objects := insert key db.objects })
  | .create new => (.ok (db.insert new).1, (db.insert new).2)
  | .get projectId id => (.ok (db.get projectId id), db)
  | .softDelete projectId id =>
      (.ok (db.get projectId id).isSome,
        db.markDeleted now fun row => row.id == id && row.projectId == projectId)
  | .softDeleteForTarget targetType targetId =>
      (.ok (), db.markDeleted now fun row => row.targetType == targetType && row.targetId == targetId)
  | .deleteExpired cutoff =>
      let expired (row : Attachment) := row.deletedAt.any fun deletedAt => deletedAt < cutoff
      (.ok (db.deleteRows expired).1, (db.deleteRows expired).2)
  | .stillReferenced keys => (.ok (db.stillReferenced keys), db)
  | .purge item projectId => (.ok (db.purge item projectId).1, (db.purge item projectId).2)
  | .removeObject key => (.ok (), { db with objects := db.objects.erase key })

def Stmt.failure {β : Type} : Stmt β → β
  | .putFile _ => .error .failed
  | .create _ => .error .failed
  | .get _ _ => .error .failed
  | .softDelete _ _ => .error .failed
  | .softDeleteForTarget _ _ => .error .failed
  | .deleteExpired _ => .error .failed
  | .stillReferenced _ => .error .failed
  | .purge _ _ => .error .failed
  | .removeObject _ => .error .failed

/-- What a failing statement leaves: a file may have been copied to its place before the
spool could not be removed. -/
def Stmt.remains {β : Type} (stmt : Stmt β) (leaves : Bool) (db : Db) : Db :=
  match stmt with
  | .putFile key => if leaves then { db with objects := insert key db.objects } else db
  | _ => db

/-- A statement, which may fail. -/
def Stmt.exec {β : Type} (stmt : Stmt β) (choice : Choice) (db : Db) : β × Db :=
  if choice.fails then (stmt.failure, stmt.remains choice.leaves db) else stmt.effect choice.now db

/-! ## Handlers -/

abbrev Handler := ExceptT Problem (Prog Stmt)

inductive Permission where
  | attachmentCreate
  | attachmentDelete
  | meetingModify
  | projectModify
  deriving DecidableEq, Repr

/-- The project context, with the permissions that the actor has. -/
structure Context where
  projectId : Uuid
  actorId : Uuid
  permissions : List Permission
  deriving DecidableEq, Repr

/-- `require`. -/
def require (ctx : Context) (permission : Permission) : Handler Unit :=
  refuseUnless (ctx.permissions.contains permission) forbidden

/-- A received file whose content type was derived. -/
structure Received where
  filename : String
  size : Nat
  sha256 : String
  contentType : String
  deriving DecidableEq, Repr

inductive Answer where
  | created (row : Attachment)
  | noContent
  | deleted (count : Nat)
  | purged (count : Nat)
  deriving DecidableEq, Repr

/-- `store_and_record`: where the row is not inserted, the object stays. -/
def storeAndRecord (ctx : Context) (received : Received) (targetType : TargetType) (targetId : Uuid)
    (kind : Option String) : Handler Answer := do
  let key := shardKey received.sha256
  orRefuse (.putFile key) internal
  let row ← orRefuse (.create ⟨ctx.projectId, targetType, targetId, ctx.actorId, received.filename,
    received.contentType, received.size, received.sha256, key, kind⟩) internal
  return .created row

/-- `entity_target`. -/
def entityTarget : String → Option TargetType
  | "epics" => some .epic
  | "issues" => some .issue
  | "wiki" => some .wiki
  | "comments" => some .comment
  | _ => none

/-- `upload`. -/
def upload (ctx : Context) (entity : String) (targetId : Uuid) (file : Except Problem Received) :
    Handler Answer := do
  require ctx .attachmentCreate
  match entityTarget entity with
  | none => throw notFound
  | some targetType => storeAndRecord ctx (← given file) targetType targetId none

/-- What `upload_artifact` and `import_text` of the meetings do of the files they accept. -/
def uploadArtifact (ctx : Context) (meetingId : Uuid) (file : Except Problem (Received × String)) :
    Handler Answer := do
  require ctx .meetingModify
  let (received, kind) ← given file
  storeAndRecord ctx received .meeting meetingId (some kind)

/-- `delete`: a meeting's file is part of the meeting. -/
def delete (ctx : Context) (id : Uuid) : Handler Answer := do
  let existing ← attempted (.get ctx.projectId id)
  let isMeetingFile := match existing with
    | .ok (some row) => row.targetType == .meeting
    | _ => false
  require ctx (if isMeetingFile = true then .meetingModify else .attachmentDelete)
  refuseUnless (← orRefuse (.softDelete ctx.projectId id) internal) notFound
  return .noContent

/-- What the deletion of a comment or a meeting does of its attachments. -/
def deleteForTarget (targetType : TargetType) (targetId : Uuid) : Handler Answer := do
  orRefuse (.softDeleteForTarget targetType targetId) internal
  return .noContent

/-- Objects are removed one by one, whether or not a removal fails; those that are removed
are counted. -/
def removeObjects : List StorageKey → Handler Nat
  | [] => return 0
  | key :: keys => do
      let result ← attempted (.removeObject key)
      let purged ← removeObjects keys
      return purged + if result.isOk then 1 else 0

/-- `run_gc`, with `gc`: the rows go first, then the objects that no row names any more. -/
def runGc (cutoff : Timestamp) : Handler Answer := do
  match ← attempted (.deleteExpired cutoff) with
  | .error _ => return .purged 0
  | .ok removed =>
      let keys := Db.distinct removed
      if keys.isEmpty then return .purged 0
      match ← attempted (.stillReferenced keys) with
      | .error _ => return .purged 0
      | .ok still =>
          return .purged (← removeObjects (keys.filter fun key => !still.contains key))

/-- `purge_issues` and `purge_epics`. -/
def purgeItems (item : TargetType) (ctx : Context) : Handler Answer := do
  require ctx .projectModify
  let (count, keys) ← orRefuse (.purge item ctx.projectId) internal
  let _ ← removeObjects keys
  return .deleted count

def purgeIssues : Context → Handler Answer := purgeItems .issue

def purgeEpics : Context → Handler Answer := purgeItems .epic

inductive Request where
  | upload (ctx : Context) (entity : String) (targetId : Uuid) (file : Except Problem Received)
  | uploadArtifact (ctx : Context) (meetingId : Uuid) (file : Except Problem (Received × String))
  | delete (ctx : Context) (id : Uuid)
  | deleteForTarget (targetType : TargetType) (targetId : Uuid)
  | gc (cutoff : Timestamp)
  | purgeIssues (ctx : Context)
  | purgeEpics (ctx : Context)

def Request.handler : Request → Handler Answer
  | .upload ctx entity targetId file => Attachments.upload ctx entity targetId file
  | .uploadArtifact ctx meetingId file => Attachments.uploadArtifact ctx meetingId file
  | .delete ctx id => Attachments.delete ctx id
  | .deleteForTarget targetType targetId => Attachments.deleteForTarget targetType targetId
  | .gc cutoff => runGc cutoff
  | .purgeIssues ctx => Attachments.purgeIssues ctx
  | .purgeEpics ctx => Attachments.purgeEpics ctx

/-- Uploads, deletions, collections and purges, step by step. -/
def service : Service Stmt Db Choice Request (Except Problem Answer) where
  exec := Stmt.exec
  handler request := request.handler.run

end IntelliPilot.Attachments
