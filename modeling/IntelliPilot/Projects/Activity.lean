import IntelliPilot.Projects.Context
import IntelliPilot.Relational.Table
import Mathlib.Data.List.Sort
import Mathlib.Algebra.Group.Int.Defs

/-! # Comments, history and attachments

The tables that hang off the items of every project, and the handlers that read
and write them under the project of the path. A row names its target by type
and id; no foreign key ties the target to the row's project.
-/

namespace IntelliPilot.Projects.Activity

open Http Rows

/-- `target_type`. -/
inductive TargetType where
  | epic
  | issue
  | wiki
  | comment
  | meeting
  deriving DecidableEq, Repr

abbrev Target := TargetType × Uuid

structure Comment where
  id : Uuid
  projectId : Uuid
  target : Target
  authorId : Option Uuid
  body : String
  bodyHtml : String
  editedAt : Option Int
  createdAt : Int
  deletedAt : Option Int
  deriving DecidableEq, Repr

structure HistoryEntry where
  id : Uuid
  projectId : Uuid
  target : Target
  actorId : Option Uuid
  diff : String
  createdAt : Int
  deriving DecidableEq, Repr

structure Attachment where
  id : Uuid
  projectId : Uuid
  target : Target
  uploaderId : Option Uuid
  filename : String
  contentType : String
  sizeBytes : Int
  sha256 : String
  storageKey : String
  kind : Option String
  createdAt : Int
  deletedAt : Option Int
  deriving DecidableEq, Repr

/-- A row of `epics`, `issues`, `wiki_pages` or `meetings`. -/
structure Item where
  target : Target
  projectId : Uuid
  deriving DecidableEq, Repr

structure UserBrief where
  id : Uuid
  username : String
  fullName : String
  email : String
  deriving DecidableEq, Repr

/-- The tables of all projects. Row ids come from a counter, as `uuidv7()`
never repeats one. -/
structure Db where
  comments : Table Comment.id
  history : List HistoryEntry
  attachments : Table Attachment.id
  items : List Item
  users : List UserBrief
  nextId : Uuid
  comments_lt : ∀ row ∈ comments.rows, row.id < nextId
  attachments_lt : ∀ row ∈ attachments.rows, row.id < nextId

/-- The library functions and limits of a deployment. -/
structure Env where
  render : String → String
  infer : List UInt8 → Option (String × String)
  maxBytes : Nat

/-- What a request meets: whether a pool connection, the storage and each
statement fail, the time, and the order of rows of one moment. -/
structure Circumstances where
  poolFails : Bool := false
  queryFails : Bool := false
  writeFails : Bool := false
  tidyFails : Bool := false
  storageFails : Bool := false
  now : Int := 0
  tie : Uuid → Nat := id

/-- The parameters of the path; `none` where an id is absent or does not parse. -/
structure Params where
  entity : String
  id : Option Uuid
  commentId : Option Uuid
  deriving DecidableEq, Repr

structure CommentView where
  id : Uuid
  target : Target
  authorId : Option Uuid
  body : String
  bodyHtml : String
  editedAt : Option Int
  createdAt : Int
  author : Option UserBrief
  deriving DecidableEq, Repr

structure HistoryView where
  diff : String
  actorId : Option Uuid
  createdAt : Int
  deriving DecidableEq, Repr

structure AttachmentView where
  id : Uuid
  projectId : Uuid
  target : Target
  uploaderId : Option Uuid
  filename : String
  contentType : String
  sizeBytes : Int
  sha256 : String
  kind : Option String
  createdAt : Int
  deriving DecidableEq, Repr

inductive Response where
  | comments (items : List CommentView)
  | commentCreated (comment : CommentView)
  | comment (comment : CommentView)
  | noContent
  | history (entries : List HistoryView)
  | attachments (items : List AttachmentView)
  | attachmentCreated (attachment : AttachmentView)
  | problem (problem : Problem)
  deriving DecidableEq, Repr

/-! ## Statements -/

/-- `ORDER BY created_at`. -/
def byCreation {α : Type} (created : α → Int) (tie : α → Nat) (rows : List α) : List α :=
  rows.mergeSort fun a b => decide (created a < created b ∨ created a = created b ∧ tie a ≤ tie b)

namespace Db

variable (db : Db)

/-- `WHERE target_type = $1 AND target_id = $2 AND deleted_at IS NULL`. -/
def hangsOn (target : Target) (comment : Comment) : Bool :=
  comment.target == target && comment.deletedAt.isNone

def attachedTo (target : Target) (attachment : Attachment) : Bool :=
  attachment.target == target && attachment.deletedAt.isNone

/-- `WHERE id = $1 AND deleted_at IS NULL`. -/
def liveComment? (id : Uuid) : Option Comment := (db.comments.find? id).filter (·.deletedAt.isNone)

def author? (comment : Comment) : Option UserBrief :=
  comment.authorId.bind fun id => db.users.find? (·.id == id)

/-- `row_to_comment`, joined to the author or not. -/
def commentView (author : Option UserBrief) (row : Comment) : CommentView :=
  ⟨row.id, row.target, row.authorId, row.body, row.bodyHtml, row.editedAt, row.createdAt, author⟩

def attachmentView (row : Attachment) : AttachmentView :=
  ⟨row.id, row.projectId, row.target, row.uploaderId, row.filename, row.contentType,
    row.sizeBytes, row.sha256, row.kind, row.createdAt⟩

/-- `comments::list`. -/
def listComments (tie : Uuid → Nat) (target : Target) : List CommentView :=
  (byCreation Comment.createdAt (fun row => tie row.id)
    (db.comments.rows.filter (hangsOn target))).map fun row => commentView (db.author? row) row

/-- `history::list`. -/
def listHistory (tie : Uuid → Nat) (target : Target) : List HistoryView :=
  (byCreation HistoryEntry.createdAt (fun row => tie row.id)
    (db.history.filter fun row => row.target == target)).map
      fun row => ⟨row.diff, row.actorId, row.createdAt⟩

/-- `attachments::list`. -/
def listAttachments (tie : Uuid → Nat) (target : Target) : List AttachmentView :=
  (byCreation Attachment.createdAt (fun row => tie row.id)
    (db.attachments.rows.filter (attachedTo target))).map attachmentView

/-- The columns of a comment that is inserted; `id` is the next one. -/
def newComment (projectId : Uuid) (target : Target) (authorId : Uuid) (body bodyHtml : String)
    (now : Int) : Comment :=
  ⟨db.nextId, projectId, target, some authorId, body, bodyHtml, none, now, none⟩

theorem fresh_comment (row : Comment) (hid : row.id = db.nextId) :
    db.comments.find? row.id = none := by
  rw [Table.find?_eq_none_iff, hid, List.mem_map]
  rintro ⟨old, hold, heq⟩
  exact Nat.ne_of_lt (db.comments_lt old hold) heq

theorem fresh_attachment (row : Attachment) (hid : row.id = db.nextId) :
    db.attachments.find? row.id = none := by
  rw [Table.find?_eq_none_iff, hid, List.mem_map]
  rintro ⟨old, hold, heq⟩
  exact Nat.ne_of_lt (db.attachments_lt old hold) heq

/-- `INSERT INTO comments`. -/
def insertComment (row : Comment) (hid : row.id = db.nextId) : Db :=
  { db with
    comments := db.comments.insert row (db.fresh_comment row hid)
    nextId := db.nextId + 1
    comments_lt := by
      intro row' hrow
      rcases List.mem_append.mp hrow with hold | hnew
      · exact Nat.lt_succ_of_lt (db.comments_lt row' hold)
      · rw [List.mem_singleton.mp hnew, hid]
        exact Nat.lt_succ_self _
    attachments_lt := fun row' hrow => Nat.lt_succ_of_lt (db.attachments_lt row' hrow) }

/-- `INSERT INTO attachments`. -/
def insertAttachment (row : Attachment) (hid : row.id = db.nextId) : Db :=
  { db with
    attachments := db.attachments.insert row (db.fresh_attachment row hid)
    nextId := db.nextId + 1
    comments_lt := fun row' hrow => Nat.lt_succ_of_lt (db.comments_lt row' hrow)
    attachments_lt := by
      intro row' hrow
      rcases List.mem_append.mp hrow with hold | hnew
      · exact Nat.lt_succ_of_lt (db.attachments_lt row' hold)
      · rw [List.mem_singleton.mp hnew, hid]
        exact Nat.lt_succ_self _ }

/-- Rewrite the comments that match `p`. -/
def modifyComments (p : Comment → Bool) (f : Comment → Comment) (hf : ∀ row, (f row).id = row.id) :
    Db :=
  { db with
    comments := db.comments.modify p f hf
    comments_lt := by
      intro row hrow
      obtain ⟨old, hold, rfl⟩ := Table.mem_modify.mp hrow
      split
      · rw [hf]
        exact db.comments_lt old hold
      · exact db.comments_lt old hold }

/-- Rewrite the attachments that match `p`. -/
def modifyAttachments (p : Attachment → Bool) (f : Attachment → Attachment)
    (hf : ∀ row, (f row).id = row.id) : Db :=
  { db with
    attachments := db.attachments.modify p f hf
    attachments_lt := by
      intro row hrow
      obtain ⟨old, hold, rfl⟩ := Table.mem_modify.mp hrow
      split
      · rw [hf]
        exact db.attachments_lt old hold
      · exact db.attachments_lt old hold }

end Db

/-- `id = $1 AND deleted_at IS NULL`. -/
def Comment.liveAs (id : Uuid) (row : Comment) : Bool := row.id == id && row.deletedAt.isNone

def Comment.edit (body bodyHtml : String) (now : Int) (row : Comment) : Comment :=
  { row with body := body, bodyHtml := bodyHtml, editedAt := some now }

def Comment.erase (now : Int) (row : Comment) : Comment := { row with deletedAt := some now }

def Attachment.erase (now : Int) (row : Attachment) : Attachment :=
  { row with deletedAt := some now }

namespace Db

variable (db : Db)

/-- `comments::update`. -/
def updateComment (id : Uuid) (body bodyHtml : String) (now : Int) : Option Comment × Db :=
  ((db.liveComment? id).map (Comment.edit body bodyHtml now),
   db.modifyComments (Comment.liveAs id) (Comment.edit body bodyHtml now) fun _ => rfl)

/-- `comments::soft_delete`. -/
def softDeleteComment (id : Uuid) (now : Int) : Bool × Db :=
  ((db.liveComment? id).isSome,
   db.modifyComments (Comment.liveAs id) (Comment.erase now) fun _ => rfl)

/-- `attachments::soft_delete_for_target`. -/
def softDeleteForTarget (target : Target) (now : Int) : Db :=
  db.modifyAttachments (attachedTo target) (Attachment.erase now) fun _ => rfl

end Db

/-! ## Comments -/

/-- `backlog::entity_target`. -/
def Params.backlogTarget (params : Params) : Option Target := do
  let kind ← match params.entity with
    | "epics" => some TargetType.epic
    | "issues" => some TargetType.issue
    | _ => none
  let id ← params.id
  return (kind, id)

/-- `attachments::entity_target`. -/
def Params.attachmentTarget (params : Params) : Option Target := do
  let kind ← match params.entity with
    | "epics" => some TargetType.epic
    | "issues" => some TargetType.issue
    | "wiki" => some TargetType.wiki
    | "comments" => some TargetType.comment
    | _ => none
  let id ← params.id
  return (kind, id)

/-- `view_perm`; comment attachments are gated like the issues they hang off. -/
def TargetType.viewPerm : TargetType → Permission
  | .epic => .epicView
  | .issue => .issueView
  | .comment => .issueView
  | .wiki => .wikiView
  | .meeting => .meetingView

def invalidBody : Problem := ⟨400, "invalid_body", "Invalid Request Body", none⟩

/-- `parse_create` of a `CommentRequest`; `none` where the body is no such JSON. -/
def parseComment (body : Option String) : Except Problem String :=
  match body with
  | none => .error invalidBody
  | some text =>
      if 1 ≤ text.utf8ByteSize ∧ text.utf8ByteSize ≤ 50000 then .ok text
      else .error (unprocessable "validation_failed" "validation failed")

/-- `COMMENT_EDIT_WINDOW_SECS`, in microseconds. -/
def commentEditWindow : Int := 24 * 60 * 60 * 1000000

/-- `authorize_comment_mutation`: a moderator, or the author within the window. -/
def mayMutateComment (ctx : ProjectContext) (now : Int) (comment : Comment) : Bool :=
  ctx.access.any (·.has .commentModerate) ||
    (comment.authorId == some ctx.actorId && decide (now - comment.createdAt ≤ commentEditWindow))

variable (env : Env) (ctx : ProjectContext) (params : Params) (c : Circumstances) (db : Db)

/-- The checks of a listing before it comes to the tables. -/
def admitList (target : Option Target) : Except Problem Target :=
  match target with
  | none => .error notFound
  | some target =>
      match ctx.require target.1.viewPerm with
      | some refusal => .error refusal
      | none => .ok target

/-- What the listings share: the checks, then one query. -/
def listing (target : Option Target) (answer : Target → Response) : Response × Db :=
  match admitList ctx target with
  | .error refusal => (.problem refusal, db)
  | .ok target =>
      if c.poolFails || c.queryFails then (.problem internal, db) else (answer target, db)

/-- `list_comments`. -/
def listComments : Response × Db :=
  listing ctx c db params.backlogTarget fun target => .comments (db.listComments c.tie target)

/-- The checks of a new comment before it comes to the tables. -/
def admitComment (body : Option String) : Except Problem (Target × String) :=
  match params.backlogTarget with
  | none => .error notFound
  | some target =>
      match ctx.require .commentCreate with
      | some refusal => .error refusal
      | none => (parseComment body).map fun text => (target, text)

/-- `create_comment`. -/
def createComment (body : Option String) : Response × Db :=
  match admitComment ctx params body with
  | .error refusal => (.problem refusal, db)
  | .ok (target, text) =>
      if c.poolFails || c.writeFails then (.problem internal, db)
      else
        let row := db.newComment ctx.projectId target ctx.actorId text (env.render text) c.now
        (.commentCreated (Db.commentView none row), db.insertComment row rfl)

/-- `update_comment`; the target of the path plays no part. -/
def updateComment (body : Option String) : Response × Db :=
  match params.commentId, parseComment body with
  | none, _ => (.problem notFound, db)
  | some _, .error refusal => (.problem refusal, db)
  | some id, .ok text =>
      if c.poolFails then (.problem internal, db)
      else
        match if c.queryFails then none else db.liveComment? id with
        | none => (.problem notFound, db)
        | some comment =>
            if !mayMutateComment ctx c.now comment then (.problem forbidden, db)
            else if c.writeFails then (.problem internal, db)
            else
              match db.updateComment id text (env.render text) c.now with
              | (some row, db) => (.comment (Db.commentView none row), db)
              | (none, db) => (.problem notFound, db)

/-- `delete_comment`; its attachments go with it, best effort. -/
def deleteComment : Response × Db :=
  match params.commentId with
  | none => (.problem notFound, db)
  | some id =>
      if c.poolFails then (.problem internal, db)
      else
        match if c.queryFails then none else db.liveComment? id with
        | none => (.problem notFound, db)
        | some comment =>
            if !mayMutateComment ctx c.now comment then (.problem forbidden, db)
            else if c.writeFails then (.problem internal, db)
            else
              match db.softDeleteComment id c.now with
              | (true, db) =>
                  (.noContent, if c.tidyFails then db
                    else db.softDeleteForTarget (.comment, id) c.now)
              | (false, db) => (.problem notFound, db)

/-- `list_history`. -/
def listHistory : Response × Db :=
  listing ctx c db params.backlogTarget fun target => .history (db.listHistory c.tie target)

/-! ## Attachments -/

/-- `attachments::list`. -/
def listAttachments : Response × Db :=
  listing ctx c db params.attachmentTarget fun target =>
    .attachments (db.listAttachments c.tie target)

/-- A file field spooled to disk: the sanitized name, the size, the hash and
the first bytes. -/
structure Received where
  filename : String
  size : Nat
  sha256 : String
  head : List UInt8
  deriving DecidableEq, Repr

inductive ReceiveError where
  | tooLarge
  | invalid
  | noFile
  | io
  deriving DecidableEq, Repr

/-- `ReceiveError::into_response`. -/
def ReceiveError.problem (maxBytes : Nat) : ReceiveError → Problem
  | .tooLarge => ⟨413, "too_large", "Payload Too Large",
      some ("file exceeds " ++ toString maxBytes ++ " bytes")⟩
  | .invalid => ⟨400, "invalid_multipart", "Invalid multipart body", none⟩
  | .noFile => ⟨422, "no_file", "No file part", some "expected a file field"⟩
  | .io => internal

/-- `mime_mismatch`. -/
def mimeMismatch (detail : String) : Problem := ⟨422, "mime_mismatch", "MIME mismatch", some detail⟩

/-- `ext_matches`. -/
def extMatches (fileExt inferredExt : String) : Bool :=
  fileExt == inferredExt || (fileExt, inferredExt) == ("jpeg", "jpg") ||
    (fileExt, inferredExt) == ("jpg", "jpeg") || (fileExt, inferredExt) == ("tif", "tiff") ||
    (fileExt, inferredExt) == ("tiff", "tif")

/-- The last part of a name that has a dot, in lower case. -/
def extension (filename : String) : Option String :=
  (((filename.splitOn ".").getLast?).filter (· != filename)).map fun ext =>
    String.ofList (ext.toList.map Char.toLower)

/-- `content_type_for`: the type of the bytes, unless the name contradicts it. -/
def contentTypeFor (head : List UInt8) (filename : String) : Except String String :=
  match env.infer head with
  | none => .ok "application/octet-stream"
  | some (mime, inferredExt) =>
      match (extension filename).filter fun ext => !extMatches ext inferredExt with
      | some ext => .error ("file content is " ++ mime ++ " but extension is ." ++ ext)
      | none => .ok mime

/-- `shard_key`. -/
def shardKey (id : String) : String :=
  let safe := id.toList.filter fun ch => ch.isAlphanum || ch == '-'
  let a := if 2 ≤ safe.length then String.ofList (safe.take 2) else "00"
  let b := if 4 ≤ safe.length then String.ofList ((safe.drop 2).take 2) else "00"
  a ++ "/" ++ b ++ "/" ++ String.ofList safe

/-- The checks of an upload before it comes to the tables. -/
def admitUpload (received : Except ReceiveError Received) :
    Except Problem (Target × Received × String) :=
  match ctx.require .attachmentCreate, params.attachmentTarget with
  | some refusal, _ => .error refusal
  | none, none => .error notFound
  | none, some target =>
      match received with
      | .error e => .error (e.problem env.maxBytes)
      | .ok received =>
          match contentTypeFor env received.head received.filename with
          | .error detail => .error (mimeMismatch detail)
          | .ok contentType => .ok (target, received, contentType)

/-- The columns of an attachment that `store_and_record` inserts. -/
def newAttachment (target : Target) (received : Received) (contentType : String) : Attachment where
  id := db.nextId
  projectId := ctx.projectId
  target := target
  uploaderId := some ctx.actorId
  filename := received.filename
  contentType := contentType
  sizeBytes := min received.size (2 ^ 63 - 1)
  sha256 := received.sha256
  storageKey := shardKey received.sha256
  kind := none
  createdAt := c.now
  deletedAt := none

/-- `upload`. -/
def upload (received : Except ReceiveError Received) : Response × Db :=
  match admitUpload env ctx params received with
  | .error refusal => (.problem refusal, db)
  | .ok (target, received, contentType) =>
      if c.storageFails || c.poolFails || c.writeFails then (.problem internal, db)
      else
        let row := newAttachment ctx c db target received contentType
        (.attachmentCreated (Db.attachmentView row), db.insertAttachment row rfl)

/-! ## Requests -/

inductive Request where
  | listComments
  | createComment (body : Option String)
  | updateComment (body : Option String)
  | deleteComment
  | listHistory
  | listAttachments
  | upload (received : Except ReceiveError Received)

/-- A request under the project of the context. -/
def serve (request : Request) : Response × Db :=
  match request with
  | .listComments => listComments ctx params c db
  | .createComment body => createComment env ctx params c db body
  | .updateComment body => updateComment env ctx params c db body
  | .deleteComment => deleteComment ctx params c db
  | .listHistory => listHistory ctx params c db
  | .listAttachments => listAttachments ctx params c db
  | .upload received => upload env ctx params c db received

end IntelliPilot.Projects.Activity
