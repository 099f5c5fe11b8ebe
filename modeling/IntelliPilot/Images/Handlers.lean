import IntelliPilot.Attachments.Handlers
import IntelliPilot.Statement.Requests

/-! # Avatars, epic covers and project icons

The image of a user, an epic or a project is an object under a key made of its
id, and a row that says whether there is one. Handlers are atomic, but each of
their steps on the storage or the database may fail. The image as it was
received is given with the type that its bytes show; histories and audit entries
are left out.
-/

namespace IntelliPilot.Images

open Http Statement
open Attachments (StorageKey shardKey)

abbrev Uuid := Nat

abbrev Bytes := List UInt8

/-- An uploaded image as a row points at it. -/
structure Image where
  storageKey : StorageKey
  mime : String
  deriving DecidableEq, Repr

inductive Avatar where
  | default
  | image (image : Image)
  | emoji (emoji : String)
  deriving DecidableEq, Repr

structure User where
  id : Uuid
  avatar : Avatar
  deleted : Bool
  deriving DecidableEq, Repr

structure Epic where
  id : Uuid
  projectId : Uuid
  coverImage : Option Image
  deleted : Bool
  deriving DecidableEq, Repr

structure Project where
  id : Uuid
  iconImage : Option Image
  deleted : Bool
  deriving DecidableEq, Repr

structure Db where
  users : Table User.id
  epics : Table Epic.id
  projects : Table Project.id
  objects : StorageKey → Option Bytes

/-! ## Storage and rows -/

/-- `avatar_key`. -/
def avatarKey (userId : Uuid) : StorageKey := "avatars/" ++ shardKey (toString userId)

/-- `cover_key`. -/
def coverKey (epicId : Uuid) : StorageKey := "epic-covers/" ++ shardKey (toString epicId)

/-- `icon_key`. -/
def iconKey (projectId : Uuid) : StorageKey := "project-icons/" ++ shardKey (toString projectId)

namespace Db

/-- An object is overwritten or removed. -/
def setObject (key : StorageKey) (bytes : Option Bytes) (db : Db) : Db :=
  { db with objects := Function.update db.objects key bytes }

def liveUser (db : Db) (id : Uuid) : Option User := (db.users.find? id).filter fun user => !user.deleted

/-- `bl::get_epic`. -/
def liveEpic (db : Db) (projectId id : Uuid) : Option Epic :=
  (db.epics.find? id).filter fun epic => epic.projectId == projectId && !epic.deleted

def liveProject (db : Db) (id : Uuid) : Option Project :=
  (db.projects.find? id).filter fun project => !project.deleted

/-- An update of `users`, with whether a row matched. -/
def setAvatar (id : Uuid) (avatar : Avatar) (db : Db) : Bool × Db :=
  ((db.liveUser id).isSome,
    { db with
      users := db.users.modify (fun user => user.id == id && !user.deleted)
        (fun user => { user with avatar := avatar }) fun _ => rfl })

/-- `set_avatar_image`. -/
def setAvatarImage (id : Uuid) (image : Image) : Db → Bool × Db := setAvatar id (.image image)

/-- `set_avatar_emoji`. -/
def setAvatarEmoji (id : Uuid) (emoji : String) : Db → Bool × Db := setAvatar id (.emoji emoji)

/-- `clear_avatar`. -/
def clearAvatar (id : Uuid) : Db → Bool × Db := setAvatar id .default

/-- An update of `epics`, with whether a row matched. -/
def setCover (projectId id : Uuid) (image : Option Image) (db : Db) : Bool × Db :=
  ((db.liveEpic projectId id).isSome,
    { db with
      epics := db.epics.modify
        (fun epic => epic.id == id && (epic.projectId == projectId && !epic.deleted))
        (fun epic => { epic with coverImage := image }) fun _ => rfl })

/-- `set_epic_cover_image`. -/
def setEpicCoverImage (projectId id : Uuid) (image : Image) : Db → Bool × Db :=
  setCover projectId id (some image)

/-- `clear_epic_cover_image`. -/
def clearEpicCoverImage (projectId id : Uuid) : Db → Bool × Db := setCover projectId id none

/-- An update of `projects`, with whether a row matched. -/
def setIcon (id : Uuid) (image : Option Image) (db : Db) : Bool × Db :=
  ((db.liveProject id).isSome,
    { db with
      projects := db.projects.modify (fun project => project.id == id && !project.deleted)
        (fun project => { project with iconImage := image }) fun _ => rfl })

/-- `set_icon_image`. -/
def setIconImage (id : Uuid) (image : Image) : Db → Bool × Db := setIcon id (some image)

/-- `clear_icon_image`. -/
def clearIconImage (id : Uuid) : Db → Bool × Db := setIcon id none

/-- `avatar_object`. -/
def avatarObject (db : Db) (id : Uuid) : Option Image :=
  (db.liveUser id).bind fun user => match user.avatar with
    | .image image => some image
    | _ => none

/-- `epic_cover_object`. -/
def epicCoverObject (db : Db) (projectId id : Uuid) : Option Image :=
  (db.liveEpic projectId id).bind (·.coverImage)

/-- `icon_object`. -/
def iconObject (db : Db) (id : Uuid) : Option Image := (db.liveProject id).bind (·.iconImage)

end Db

/-! ## Uploads -/

/-- What a multipart body turns out to be; a file with the type that its bytes show. -/
inductive Upload where
  | tooLarge
  | unreadable
  | noFile
  | file (bytes : Bytes) (mime : Option String)
  deriving DecidableEq, Repr

def allowedMimes : List String := ["image/png", "image/jpeg", "image/gif", "image/webp"]

def maxAvatarBytes : Nat := 2 * 1024 * 1024
def maxCoverBytes : Nat := 5 * 1024 * 1024
def maxIconBytes : Nat := 5 * 1024 * 1024

def tooLarge (noun : String) (bound : Nat) : Problem :=
  ⟨413, "too_large", "Payload Too Large", some (noun ++ " exceeds " ++ toString bound ++ " bytes")⟩

/-- The image of an upload, as all three handlers take it. -/
def receiveImage (noun : String) (bound : Nat) : Upload → Except Problem (Bytes × String)
  | .tooLarge => .error (tooLarge noun bound)
  | .unreadable => .error ⟨400, "invalid_multipart", "Invalid multipart body", none⟩
  | .noFile => .error ⟨422, "no_file", "No file part", some "expected an image field"⟩
  | .file bytes mime =>
      if bound < bytes.length then .error (tooLarge noun bound)
      else match mime.filter allowedMimes.contains with
        | some mime => .ok (bytes, mime)
        | none => .error ⟨422, "not_an_image", "Unsupported image",
            some (noun ++ " must be a PNG, JPEG, GIF or WebP")⟩

/-! ## Handlers -/

/-- The steps of a request that fail. A write to the storage that fails leaves the object as
it was, or leaves other bytes in its place. -/
structure Faults where
  pool : Bool := false
  lookup : Bool := false
  put : Option (Option Bytes) := none
  remove : Bool := false
  row : Bool := false
  fresh : Bool := false
  serve : Bool := false
  deriving DecidableEq, Repr

inductive Answer where
  | fresh
  | noContent
  | image (bytes : Bytes) (mime : String)
  deriving DecidableEq, Repr

abbrev Outcome := Except Problem Answer × Db

/-- What the handlers answer with once the row is written: the row, read again. -/
def fresh (faults : Faults) (found : Bool) : Except Problem Answer :=
  if faults.fresh then .error internal else if found then .ok .fresh else .error notFound

/-- The object is written, then the row. -/
def storeImage (failure : Problem) (key : StorageKey) (bytes : Bytes) (faults : Faults)
    (set : Db → Bool × Db) (found : Db → Bool) (db : Db) : Outcome :=
  match faults.put with
  | some none => (.error failure, db)
  | some (some left) => (.error failure, db.setObject key (some left))
  | none =>
      let stored := db.setObject key (some bytes)
      if faults.row then (.error internal, stored)
      else if (set stored).1 then (fresh faults (found (set stored).2), (set stored).2)
      else (.error notFound, (set stored).2)

/-- The object is removed, whether or not that fails, and then the row is written. -/
def dropImage (key : StorageKey) (faults : Faults) (clear : Db → Bool × Db) (db : Db) :
    Except Problem Bool × Db :=
  let removed := if faults.remove then db else db.setObject key none
  if faults.row then (.error internal, removed) else (.ok (clear removed).1, (clear removed).2)

/-- The object that a row points at. -/
def serveImage (faults : Faults) (image : Option Image) (db : Db) : Outcome :=
  match image with
  | none => (.error notFound, db)
  | some image =>
      if faults.serve then (.error notFound, db)
      else match db.objects image.storageKey with
        | none => (.error notFound, db)
        | some bytes => (.ok (.image bytes image.mime), db)

/-- `upload_avatar`. -/
def uploadAvatar (userId : Uuid) (upload : Upload) (faults : Faults) (db : Db) : Outcome :=
  match receiveImage "avatar" maxAvatarBytes upload with
  | .error problem => (.error problem, db)
  | .ok (bytes, mime) =>
      storeImage ⟨500, "avatar_storage_failed", "Avatar storage failed",
          some "could not write the avatar to storage"⟩ (avatarKey userId) bytes faults
        (Db.setAvatarImage userId ⟨avatarKey userId, mime⟩) (fun db => (db.liveUser userId).isSome) db

/-- An emoji as it was sent: not read, out of its bounds, or fine. -/
inductive EmojiBody where
  | unreadable
  | invalid
  | valid (emoji : String)
  deriving DecidableEq, Repr

/-- `set_emoji_avatar`. -/
def setEmojiAvatar (userId : Uuid) (body : EmojiBody) (faults : Faults) (db : Db) : Outcome :=
  match body with
  | .unreadable => (.error ⟨400, "invalid_body", "Invalid Request Body", none⟩, db)
  | .invalid => (.error ⟨422, "validation_failed", "Validation failed", none⟩, db)
  | .valid emoji =>
      if faults.pool then (.error internal, db)
      else
        let (written, later) := dropImage (avatarKey userId) faults (Db.setAvatarEmoji userId emoji) db
        match written with
        | .ok true => (fresh faults (later.liveUser userId).isSome, later)
        | _ => (.error internal, later)

/-- `delete_avatar`. -/
def deleteAvatar (userId : Uuid) (faults : Faults) (db : Db) : Outcome :=
  if faults.pool then (.error internal, db)
  else (.ok .noContent, (dropImage (avatarKey userId) faults (Db.clearAvatar userId) db).2)

/-- `serve_avatar`. -/
def serveAvatar (userId : Uuid) (faults : Faults) (db : Db) : Outcome :=
  if faults.pool then (.error internal, db) else serveImage faults (db.avatarObject userId) db

/-- The project context: whether the actor has the permission asked for. -/
structure Context where
  projectId : Uuid
  allowed : Bool
  deriving DecidableEq, Repr

/-- `upload_cover`: the epic is looked up in the project. -/
def uploadCover (ctx : Context) (id : Uuid) (upload : Upload) (faults : Faults) (db : Db) : Outcome :=
  if !ctx.allowed then (.error forbidden, db)
  else if faults.pool || faults.lookup then (.error internal, db)
  else if (db.liveEpic ctx.projectId id).isNone then (.error notFound, db)
  else match receiveImage "cover" maxCoverBytes upload with
    | .error problem => (.error problem, db)
    | .ok (bytes, mime) =>
        storeImage ⟨500, "cover_storage_failed", "Cover storage failed",
            some "could not write the cover image to storage"⟩ (coverKey id) bytes faults
          (Db.setEpicCoverImage ctx.projectId id ⟨coverKey id, mime⟩)
          (fun db => (db.liveEpic ctx.projectId id).isSome) db

/-- `delete_cover`: the object goes before the epic is looked for in the project. -/
def deleteCover (ctx : Context) (id : Uuid) (faults : Faults) (db : Db) : Outcome :=
  if !ctx.allowed then (.error forbidden, db)
  else if faults.pool then (.error internal, db)
  else
    let (cleared, later) := dropImage (coverKey id) faults (Db.clearEpicCoverImage ctx.projectId id) db
    match cleared with
    | .ok true => (fresh faults (later.liveEpic ctx.projectId id).isSome, later)
    | .ok false => (.error notFound, later)
    | .error problem => (.error problem, later)

/-- `serve_cover`. -/
def serveCover (ctx : Context) (id : Uuid) (faults : Faults) (db : Db) : Outcome :=
  if !ctx.allowed then (.error forbidden, db)
  else if faults.pool then (.error internal, db)
  else serveImage faults (db.epicCoverObject ctx.projectId id) db

/-- `upload_icon`. -/
def uploadIcon (ctx : Context) (upload : Upload) (faults : Faults) (db : Db) : Outcome :=
  if !ctx.allowed then (.error forbidden, db)
  else if faults.pool then (.error internal, db)
  else match receiveImage "icon" maxIconBytes upload with
    | .error problem => (.error problem, db)
    | .ok (bytes, mime) =>
        storeImage ⟨500, "icon_storage_failed", "Icon storage failed",
            some "could not write the icon image to storage"⟩ (iconKey ctx.projectId) bytes faults
          (Db.setIconImage ctx.projectId ⟨iconKey ctx.projectId, mime⟩)
          (fun db => (db.liveProject ctx.projectId).isSome) db

/-- `delete_icon`. -/
def deleteIcon (ctx : Context) (faults : Faults) (db : Db) : Outcome :=
  if !ctx.allowed then (.error forbidden, db)
  else if faults.pool then (.error internal, db)
  else
    let (cleared, later) := dropImage (iconKey ctx.projectId) faults
      (Db.clearIconImage ctx.projectId) db
    match cleared with
    | .ok true => (fresh faults (later.liveProject ctx.projectId).isSome, later)
    | .ok false => (.error notFound, later)
    | .error problem => (.error problem, later)

/-- `serve_icon`. -/
def serveIcon (ctx : Context) (faults : Faults) (db : Db) : Outcome :=
  if !ctx.allowed then (.error notFound, db)
  else if faults.pool then (.error internal, db)
  else serveImage faults (db.iconObject ctx.projectId) db

inductive Request where
  | uploadAvatar (userId : Uuid) (upload : Upload)
  | setEmojiAvatar (userId : Uuid) (body : EmojiBody)
  | deleteAvatar (userId : Uuid)
  | serveAvatar (userId : Uuid)
  | uploadCover (ctx : Context) (id : Uuid) (upload : Upload)
  | deleteCover (ctx : Context) (id : Uuid)
  | serveCover (ctx : Context) (id : Uuid)
  | uploadIcon (ctx : Context) (upload : Upload)
  | deleteIcon (ctx : Context)
  | serveIcon (ctx : Context)
  deriving DecidableEq, Repr

def Request.handle : Request → Faults → Db → Outcome
  | .uploadAvatar userId upload => Images.uploadAvatar userId upload
  | .setEmojiAvatar userId body => Images.setEmojiAvatar userId body
  | .deleteAvatar userId => Images.deleteAvatar userId
  | .serveAvatar userId => Images.serveAvatar userId
  | .uploadCover ctx id upload => Images.uploadCover ctx id upload
  | .deleteCover ctx id => Images.deleteCover ctx id
  | .serveCover ctx id => Images.serveCover ctx id
  | .uploadIcon ctx upload => Images.uploadIcon ctx upload
  | .deleteIcon ctx => Images.deleteIcon ctx
  | .serveIcon ctx => Images.serveIcon ctx

end IntelliPilot.Images
