import IntelliPilot.Images.Handlers
import IntelliPilot.Issues.EntityTags

/-! # Images agree with storage

A row that has an image has its object, with the bytes of the last upload that
was answered with success. Which requests keep this is decided exactly: a step
that fails after the object was touched loses it, and so does a cover that is
deleted in a project the epic is not of.
-/

namespace IntelliPilot.Images

open Http Statement
open Attachments (StorageKey shardKey)
open Issues (toList_toString isDigit_of_mem toDigits_injective)

/-! ## Keys -/

/-- What comes last in a sharded key is the name of the object. -/
theorem drop_shardKey (id : Uuid) :
    (shardKey (toString id)).toList.drop 6 = Nat.toDigits 10 id := by
  have hsafe : ((toString id).toList.filter fun c => c.isAlphanum || c == '-') =
      Nat.toDigits 10 id := by
    rw [toList_toString, List.filter_eq_self]
    intro c hc
    simp [Char.isAlphanum, isDigit_of_mem hc]
  have hpart : ∀ from' : Nat,
      (if from' + 2 ≤ (Nat.toDigits 10 id).length then ((Nat.toDigits 10 id).drop from').take 2
        else ['0', '0']).length = 2 := by
    intro from'
    split
    · rw [List.length_take, List.length_drop]
      omega
    · rfl
  have hassoc : ∀ a b c : List Char, a ++ '/' :: b ++ '/' :: c = (a ++ '/' :: b ++ ['/']) ++ c := by
    simp
  unfold shardKey
  rw [hsafe, String.toList_ofList, hassoc]
  apply List.drop_left'
  simp only [List.length_append, List.length_cons, hpart]
  rfl

theorem foldered_injective {folder : String} {id id' : Uuid}
    (h : folder ++ shardKey (toString id) = folder ++ shardKey (toString id')) : id = id' := by
  have hchars := congrArg String.toList h
  rw [String.toList_append, String.toList_append] at hchars
  have hdrop := congrArg (List.drop 6) (List.append_cancel_left hchars)
  rw [drop_shardKey, drop_shardKey] at hdrop
  exact toDigits_injective hdrop

/-- What may have an image. -/
inductive Slot where
  | avatar (userId : Uuid)
  | cover (epicId : Uuid)
  | icon (projectId : Uuid)
  deriving DecidableEq, Repr

def Slot.key : Slot → StorageKey
  | .avatar userId => avatarKey userId
  | .cover epicId => coverKey epicId
  | .icon projectId => iconKey projectId

variable {slot : Slot}

theorem Slot.key_injective {slot' : Slot} (h : slot.key = slot'.key) : slot = slot' := by
  have hhead := congrArg (fun key => key.toList.head?) h
  cases slot <;> cases slot'
  case avatar.avatar => exact congrArg _ (foldered_injective h)
  case cover.cover => exact congrArg _ (foldered_injective h)
  case icon.icon => exact congrArg _ (foldered_injective h)
  all_goals simp [Slot.key, avatarKey, coverKey, iconKey] at hhead

/-! ## Rows and their objects -/

def Avatar.image? (avatar : Avatar) : Option Image :=
  match avatar with
  | .image shown => some shown
  | _ => none

namespace Db

/-- The image that a row says it has. -/
def imageOf (db : Db) : Slot → Option Image
  | .avatar userId => (db.users.find? userId).bind (·.avatar.image?)
  | .cover epicId => (db.epics.find? epicId).bind (·.coverImage)
  | .icon projectId => (db.projects.find? projectId).bind (·.iconImage)

/-- An image with the bytes that its object holds. -/
def picture (db : Db) (slot : Slot) : Option (Image × Option Bytes) :=
  (db.imageOf slot).map fun image => (image, db.objects image.storageKey)

end Db

/-- The image last uploaded with success. -/
abbrev Uploads := Slot → Option Bytes

/-- If the row has an image, its object holds the image last uploaded. -/
def AgreesAt (db : Db) (last : Uploads) (slot : Slot) : Prop :=
  ∀ image, db.imageOf slot = some image → image.storageKey = slot.key ∧
    ∃ bytes, last slot = some bytes ∧ db.objects slot.key = some bytes

def Agrees (db : Db) (last : Uploads) : Prop := ∀ slot, AgreesAt db last slot

/-- Nothing but the image of `slot` has changed. -/
def OnlyAt (slot : Slot) (db db' : Db) : Prop :=
  ∀ other, other ≠ slot →
    db'.imageOf other = db.imageOf other ∧ db'.objects other.key = db.objects other.key

theorem OnlyAt.refl (slot : Slot) (db : Db) : OnlyAt slot db db := fun _ _ => ⟨rfl, rfl⟩

theorem OnlyAt.trans {db db' db'' : Db} (h : OnlyAt slot db db') (h' : OnlyAt slot db' db'') :
    OnlyAt slot db db'' := by
  intro other hne
  exact ⟨(h' other hne).1.trans (h other hne).1, (h' other hne).2.trans (h other hne).2⟩

@[simp] theorem imageOf_setObject (key : StorageKey) (bytes : Option Bytes) (db : Db) (slot : Slot) :
    (db.setObject key bytes).imageOf slot = db.imageOf slot := by
  cases slot <;> rfl

@[simp] theorem objects_setObject (key : StorageKey) (bytes : Option Bytes) (db : Db) :
    (db.setObject key bytes).objects key = bytes := Function.update_self ..

theorem onlyAt_setObject (slot : Slot) (bytes : Option Bytes) (db : Db) :
    OnlyAt slot db (db.setObject slot.key bytes) := by
  intro other hne
  refine ⟨imageOf_setObject .., ?_⟩
  exact Function.update_of_ne (fun h => hne (Slot.key_injective h)) _ _

/-- Where one image has changed, it alone has to be looked at. -/
theorem agrees_iff_at {db db' : Db} {last last' : Uploads} (hagrees : Agrees db last)
    (honly : OnlyAt slot db db') (hlast : ∀ other, other ≠ slot → last' other = last other) :
    Agrees db' last' ↔ AgreesAt db' last' slot := by
  constructor
  · exact fun h => h slot
  · intro hat other
    by_cases hne : other = slot
    · rw [hne]
      exact hat
    · intro image himage
      rw [(honly other hne).1] at himage
      rw [(honly other hne).2, hlast other hne]
      exact hagrees other image himage

/-- Images under other keys look as before. -/
theorem picture_of_onlyAt {other : Slot} {db db' : Db} {last : Uploads} (hagrees : Agrees db last)
    (honly : OnlyAt slot db db') (hne : other ≠ slot) :
    db'.picture other = db.picture other := by
  unfold Db.picture
  rw [(honly other hne).1]
  cases himage : db.imageOf other with
  | none => rfl
  | some image =>
    have hkey := (hagrees other image himage).1
    rw [Option.map_some, Option.map_some, hkey, (honly other hne).2]

/-- The write of a row that gives `slot` the image `image`. -/
structure Sets (slot : Slot) (image : Option Image) (write : Db → Bool × Db) : Prop where
  objects : ∀ db, (write db).2.objects = db.objects
  own : ∀ db, (write db).2.imageOf slot = if (write db).1 then image else db.imageOf slot
  others : ∀ db other, other ≠ slot → (write db).2.imageOf other = db.imageOf other
  matched : ∀ db key bytes, (write (db.setObject key bytes)).1 = (write db).1

theorem Sets.onlyAt {image : Option Image} {write : Db → Bool × Db}
    (hsets : Sets slot image write) (db : Db) : OnlyAt slot db (write db).2 :=
  fun other hne => ⟨hsets.others db other hne, by rw [hsets.objects db]⟩

theorem sets_setAvatar (id : Uuid) (avatar : Avatar) :
    Sets (.avatar id) avatar.image? (Db.setAvatar id avatar) where
  objects db := rfl
  own db := by
    cases hfind : db.users.find? id with
    | none => simp [Db.setAvatar, Db.imageOf, Db.liveUser, hfind]
    | some user =>
      have hid : user.id = id := Table.key_of_find? hfind
      cases hdeleted : user.deleted <;>
        simp [Db.setAvatar, Db.imageOf, Db.liveUser, hfind, Option.filter, hid, hdeleted]
  others db other hne := by
    cases other with
    | avatar other =>
      simp only [Db.setAvatar, Db.imageOf, Table.find?_modify]
      cases hfind : db.users.find? other with
      | none => rfl
      | some user =>
        have hid : user.id ≠ id := by
          rw [Table.key_of_find? hfind]
          exact fun h => hne (congrArg _ h)
        simp [hid]
    | cover epicId => rfl
    | icon projectId => rfl
  matched db key bytes := rfl

theorem sets_setCover (projectId id : Uuid) (image : Option Image) :
    Sets (.cover id) image (Db.setCover projectId id image) where
  objects db := rfl
  own db := by
    cases hfind : db.epics.find? id with
    | none => simp [Db.setCover, Db.imageOf, Db.liveEpic, hfind]
    | some epic =>
      have hid : epic.id = id := Table.key_of_find? hfind
      by_cases hlive : epic.projectId = projectId ∧ epic.deleted = false
      · simp [Db.setCover, Db.imageOf, Db.liveEpic, hfind, Option.filter, hid, hlive]
      · have hlive' : (epic.projectId == projectId && !epic.deleted) = false := by simpa using hlive
        simp [Db.setCover, Db.imageOf, Db.liveEpic, hfind, Option.filter, hid, hlive, hlive']
  others db other hne := by
    cases other with
    | cover other =>
      simp only [Db.setCover, Db.imageOf, Table.find?_modify]
      cases hfind : db.epics.find? other with
      | none => rfl
      | some epic =>
        have hid : epic.id ≠ id := by
          rw [Table.key_of_find? hfind]
          exact fun h => hne (congrArg _ h)
        simp [hid]
    | avatar userId => rfl
    | icon projectId => rfl
  matched db key bytes := rfl

theorem sets_setIcon (id : Uuid) (image : Option Image) :
    Sets (.icon id) image (Db.setIcon id image) where
  objects db := rfl
  own db := by
    cases hfind : db.projects.find? id with
    | none => simp [Db.setIcon, Db.imageOf, Db.liveProject, hfind]
    | some project =>
      have hid : project.id = id := Table.key_of_find? hfind
      cases hdeleted : project.deleted <;>
        simp [Db.setIcon, Db.imageOf, Db.liveProject, hfind, Option.filter, hid, hdeleted]
  others db other hne := by
    cases other with
    | icon other =>
      simp only [Db.setIcon, Db.imageOf, Table.find?_modify]
      cases hfind : db.projects.find? other with
      | none => rfl
      | some project =>
        have hid : project.id ≠ id := by
          rw [Table.key_of_find? hfind]
          exact fun h => hne (congrArg _ h)
        simp [hid]
    | avatar userId => rfl
    | cover epicId => rfl
  matched db key bytes := rfl


/-! ## One image is stored or dropped -/

/-- Other bytes in the place of an image do no harm. -/
def Spared (db : Db) (last : Uploads) (slot : Slot) (left : Bytes) : Prop :=
  db.imageOf slot = none ∨ last slot = some left

/-- An upload, by the step that fails. -/
def StoresSafely (db : Db) (last : Uploads) (slot : Slot) (bytes : Bytes) (matched : Bool)
    (faults : Faults) : Prop :=
  match faults.put with
  | some none => True
  | some (some left) => Spared db last slot left
  | none =>
      if faults.row = true ∨ matched = false then Spared db last slot bytes
      else faults.fresh = false ∨ last slot = some bytes

/-- A removal, by the step that fails. -/
def DropsSafely (db : Db) (slot : Slot) (matched : Bool) (faults : Faults) : Prop :=
  faults.remove = true ∨ db.imageOf slot = none ∨ faults.row = false ∧ matched = true

/-- The images last uploaded, once a request is answered. -/
def Uploads.after (last : Uploads) (uploaded : Option (Slot × Bytes))
    (answer : Except Problem Answer) : Uploads :=
  match uploaded, answer with
  | some (slot, bytes), .ok _ => Function.update last slot (some bytes)
  | _, _ => last

@[simp] theorem Uploads.after_none (last : Uploads) (answer : Except Problem Answer) :
    last.after none answer = last := rfl

@[simp] theorem Uploads.after_error (last : Uploads) (uploaded : Option (Slot × Bytes))
    (problem : Problem) : last.after uploaded (.error problem) = last := by
  cases uploaded <;> rfl

theorem Uploads.after_of_ne {last : Uploads} {other : Slot} (hne : other ≠ slot) (bytes : Bytes)
    (answer : Except Problem Answer) :
    last.after (some (slot, bytes)) answer other = last other := by
  cases answer with
  | error problem => rfl
  | ok answer => exact Function.update_of_ne hne _ _

section

variable {slot : Slot} {db : Db} {last : Uploads}

variable {write : Db → Bool × Db}

theorem onlyAt_storeImage {image : Option Image} (hsets : Sets slot image write)
    (failure : Problem) (bytes : Bytes) (faults : Faults) (found : Db → Bool) (db : Db) :
    OnlyAt slot db (storeImage failure slot.key bytes faults write found db).2 := by
  have hput := fun left => onlyAt_setObject slot (some left) db
  unfold storeImage
  split
  · exact OnlyAt.refl slot db
  · exact hput _
  · dsimp only
    split
    · exact hput bytes
    · split
      · exact (hput bytes).trans (hsets.onlyAt _)
      · exact (hput bytes).trans (hsets.onlyAt _)

theorem onlyAt_dropImage {image : Option Image} (hsets : Sets slot image write) (faults : Faults)
    (db : Db) :
    OnlyAt slot db (dropImage slot.key faults write db).2 := by
  have hremoved : OnlyAt slot db (if faults.remove then db else db.setObject slot.key none) := by
    split
    · exact OnlyAt.refl slot db
    · exact onlyAt_setObject slot none db
  unfold dropImage
  dsimp only
  split
  · exact hremoved
  · exact hremoved.trans (hsets.onlyAt _)

/-- The object holds `left` now, the row is as it was. -/
theorem agreesAt_of_left (hagrees : Agrees db last) {db' : Db} {left : Bytes}
    (himage : db'.imageOf slot = db.imageOf slot) (hobject : db'.objects slot.key = some left) :
    AgreesAt db' last slot ↔ Spared db last slot left := by
  unfold AgreesAt Spared
  rw [himage, hobject]
  cases hshown : db.imageOf slot with
  | none => simp
  | some image =>
    have hkey := (hagrees slot image hshown).1
    simp only [Option.some.injEq, reduceCtorEq, false_or]
    constructor
    · intro h
      obtain ⟨-, bytes, hlast, hbytes⟩ := h image rfl
      rw [hlast, hbytes]
    · rintro hlast _ rfl
      exact ⟨hkey, left, hlast, rfl⟩

/-- An upload keeps the agreement exactly if it stores safely. -/
theorem agrees_storeImage {mime : String} (found : Db → Bool)
    (hsets : Sets slot (some ⟨slot.key, mime⟩) write)
    (hfound : ∀ db, (write db).1 = true → found (write db).2 = true) (hagrees : Agrees db last)
    (failure : Problem) (bytes : Bytes) (faults : Faults) :
    Agrees (storeImage failure slot.key bytes faults write found db).2
      (last.after (some (slot, bytes))
        (storeImage failure slot.key bytes faults write found db).1) ↔
      StoresSafely db last slot bytes (write db).1 faults := by
  rw [agrees_iff_at hagrees (onlyAt_storeImage hsets failure bytes faults found db)
    fun other hne => Uploads.after_of_ne hne _ _]
  unfold StoresSafely storeImage
  cases hput : faults.put with
  | some left =>
    cases left with
    | none => exact iff_of_true (hagrees slot) trivial
    | some left =>
      exact agreesAt_of_left hagrees (imageOf_setObject ..) (objects_setObject ..)
  | none =>
    -- The object is written; what follows writes rows.
    have hmatched := hsets.matched db slot.key (some bytes)
    have hobject : (write (db.setObject slot.key (some bytes))).2.objects slot.key = some bytes := by
      rw [hsets.objects, objects_setObject]
    have hown := hsets.own (db.setObject slot.key (some bytes))
    have hshown := hfound (db.setObject slot.key (some bytes))
    rw [hmatched] at hown hshown
    simp only [hmatched]
    cases hrow : faults.row with
    | true => exact agreesAt_of_left hagrees (imageOf_setObject ..) (objects_setObject ..)
    | false =>
      cases hwritten : (write db).1 with
      | false =>
        rw [hwritten, if_neg Bool.false_ne_true, imageOf_setObject] at hown
        exact agreesAt_of_left hagrees hown hobject
      | true =>
        rw [hwritten, if_pos rfl] at hown
        simp only [Bool.false_eq_true, Bool.true_eq_false, or_self, if_false, if_true, fresh,
          hshown hwritten, AgreesAt, hown, hobject]
        cases hfresh : faults.fresh with
        | true => simp [Uploads.after, eq_comm]
        | false => simp [Uploads.after]

/-- A removal keeps the agreement exactly if it drops safely. -/
theorem agrees_dropImage (hsets : Sets slot none write) (hagrees : Agrees db last)
    (faults : Faults) :
    Agrees (dropImage slot.key faults write db).2 last ↔
      DropsSafely db slot (write db).1 faults := by
  rw [agrees_iff_at hagrees (onlyAt_dropImage hsets faults db) fun _ _ => rfl]
  unfold DropsSafely dropImage
  cases hremove : faults.remove with
  | true =>
    refine iff_of_true ?_ (.inl rfl)
    cases hrow : faults.row with
    | true => exact hagrees slot
    | false =>
      intro image himage
      simp only [Bool.false_eq_true, if_false, if_true, hsets.own, hsets.objects] at himage ⊢
      split at himage
      · contradiction
      · exact hagrees slot image himage
  | false =>
    have hown := hsets.own (db.setObject slot.key none)
    rw [hsets.matched, imageOf_setObject] at hown
    cases hrow : faults.row with
    | true => 
      simp only [AgreesAt, Bool.false_eq_true, if_false, if_true, imageOf_setObject,
        objects_setObject, reduceCtorEq, and_false, exists_false, false_or, false_and, or_false]
      exact Option.eq_none_iff_forall_ne_some.symm
    | false =>
      simp only [AgreesAt, Bool.false_eq_true, if_false, hown, hsets.objects, objects_setObject,
        reduceCtorEq, and_false, exists_false, false_or, true_and]
      cases hwritten : (write db).1 with
      | true => simp
      | false => 
        simp only [Bool.false_eq_true, if_false, or_false]
        exact Option.eq_none_iff_forall_ne_some.symm

/-- A removal that matches no row and drops safely leaves the image. -/
theorem picture_dropImage (hsets : Sets slot none write) {faults : Faults}
    (hsafe : DropsSafely db slot (write db).1 faults) (hunmatched : (write db).1 = false) :
    (dropImage slot.key faults write db).2.picture slot = db.picture slot := by
  have hown := fun bytes => hsets.own (db.setObject slot.key bytes)
  simp only [hsets.matched, hunmatched, Bool.false_eq_true, if_false, imageOf_setObject] at hown
  rcases hsafe with hremove | hnone | ⟨-, hmatched⟩
  · -- Nothing was removed.
    have hown' := hsets.own db
    rw [hunmatched, if_neg Bool.false_ne_true] at hown'
    unfold dropImage
    cases hrow : faults.row with
    | true => simp [hremove]
    | false => simp [hremove, Db.picture, hown', hsets.objects]
  · have hnone' : (dropImage slot.key faults write db).2.imageOf slot = none := by
      unfold dropImage
      cases hremove : faults.remove <;> cases hrow : faults.row <;>
        simp [hown, hsets.own, hnone, hunmatched]
    rw [Db.picture, Db.picture, hnone, hnone', Option.map_none, Option.map_none]
  · rw [hunmatched] at hmatched
    contradiction

end

/-! ## Requests -/

/-- What a request uploads, if it is answered with success. -/
def Request.uploaded : Request → Option (Slot × Bytes)
  | .uploadAvatar userId (.file bytes _) => some (.avatar userId, bytes)
  | .uploadCover _ id (.file bytes _) => some (.cover id, bytes)
  | .uploadIcon ctx (.file bytes _) => some (.icon ctx.projectId, bytes)
  | _ => none

/-- The project a request is made under. -/
def Request.projectId : Request → Option Uuid
  | .uploadCover ctx _ _ | .deleteCover ctx _ | .serveCover ctx _ => some ctx.projectId
  | .uploadIcon ctx _ | .deleteIcon ctx | .serveIcon ctx => some ctx.projectId
  | _ => none

structure State where
  db : Db
  last : Uploads

abbrev Turn := Request × Faults

def server : Server State Turn (Except Problem Answer) where
  handle turn s :=
    let outcome := turn.1.handle turn.2 s.db
    (outcome.1, ⟨outcome.2, s.last.after turn.1.uploaded outcome.1⟩)

/-- The image of an epic or a project other than `projectId`'s own. -/
def Foreign (db : Db) (projectId : Uuid) : Slot → Prop
  | .avatar _ => False
  | .cover epicId => ∃ epic, db.epics.find? epicId = some epic ∧ epic.projectId ≠ projectId
  | .icon other => other ≠ projectId

/-- A request made under a project leaves the images of other epics and projects alone. -/
def Isolated (s : State) (turn : Turn) : Prop :=
  ∀ projectId, turn.1.projectId = some projectId → ∀ slot, Foreign s.db projectId slot →
    (server.next s turn).db.picture slot = s.db.picture slot

/-- No step fails that would leave a row and its object apart. -/
def Careful (s : State) : Turn → Prop
  | (.uploadAvatar userId upload, faults) =>
      ∀ bytes mime, receiveImage "avatar" maxAvatarBytes upload = .ok (bytes, mime) →
        StoresSafely s.db s.last (.avatar userId) bytes (s.db.liveUser userId).isSome faults
  | (.setEmojiAvatar userId (.valid _), faults) | (.deleteAvatar userId, faults) =>
      faults.pool = false → DropsSafely s.db (.avatar userId) (s.db.liveUser userId).isSome faults
  | (.uploadCover ctx id upload, faults) =>
      ctx.allowed = true → faults.pool = false → faults.lookup = false →
        (s.db.liveEpic ctx.projectId id).isSome = true →
        ∀ bytes mime, receiveImage "cover" maxCoverBytes upload = .ok (bytes, mime) →
          StoresSafely s.db s.last (.cover id) bytes true faults
  | (.deleteCover ctx id, faults) =>
      ctx.allowed = true → faults.pool = false →
        DropsSafely s.db (.cover id) (s.db.liveEpic ctx.projectId id).isSome faults
  | (.uploadIcon ctx upload, faults) =>
      ctx.allowed = true → faults.pool = false →
        ∀ bytes mime, receiveImage "icon" maxIconBytes upload = .ok (bytes, mime) →
          StoresSafely s.db s.last (.icon ctx.projectId) bytes
            (s.db.liveProject ctx.projectId).isSome faults
  | (.deleteIcon ctx, faults) =>
      ctx.allowed = true → faults.pool = false →
        DropsSafely s.db (.icon ctx.projectId) (s.db.liveProject ctx.projectId).isSome faults
  | _ => True

/-- An accepted upload is the file that was sent. -/
theorem file_of_receiveImage {noun : String} {bound : Nat} {upload : Upload} {bytes : Bytes}
    {mime : String} (h : receiveImage noun bound upload = .ok (bytes, mime)) :
    ∃ sent, upload = .file bytes sent := by
  cases upload with
  | tooLarge | unreadable | noFile => contradiction
  | file sent sentMime =>
    simp only [receiveImage] at h
    split at h
    · contradiction
    · split at h
      · cases h
        exact ⟨sentMime, rfl⟩
      · contradiction

/-- A live row stays live when its image is written. -/
theorem liveUser_setAvatar (id : Uuid) (avatar : Avatar) (db : Db) :
    ((Db.setAvatar id avatar db).2.liveUser id).isSome = (db.liveUser id).isSome := by
  cases hfind : db.users.find? id with
  | none => simp [Db.setAvatar, Db.liveUser, hfind]
  | some user =>
    by_cases hwritten : user.id = id ∧ user.deleted = false <;>
      simp [Db.setAvatar, Db.liveUser, hfind, Option.filter, hwritten]

theorem liveEpic_setCover (projectId id : Uuid) (image : Option Image) (db : Db) :
    ((Db.setCover projectId id image db).2.liveEpic projectId id).isSome =
      (db.liveEpic projectId id).isSome := by
  cases hfind : db.epics.find? id with
  | none => simp [Db.setCover, Db.liveEpic, hfind]
  | some epic =>
    by_cases hwritten : epic.id = id ∧ epic.projectId = projectId ∧ epic.deleted = false <;>
      simp [Db.setCover, Db.liveEpic, hfind, Option.filter, hwritten]

theorem liveProject_setIcon (id : Uuid) (image : Option Image) (db : Db) :
    ((Db.setIcon id image db).2.liveProject id).isSome = (db.liveProject id).isSome := by
  cases hfind : db.projects.find? id with
  | none => simp [Db.setIcon, Db.liveProject, hfind]
  | some project =>
    by_cases hwritten : project.id = id ∧ project.deleted = false <;>
      simp [Db.setIcon, Db.liveProject, hfind, Option.filter, hwritten]

theorem serveImage_state (faults : Faults) (image : Option Image) (db : Db) :
    (serveImage faults image db).2 = db := by
  unfold serveImage
  repeat' split
  all_goals rfl

theorem forall_received_iff {P : Bytes → Prop} {bytes : Bytes} {mime : String} :
    (∀ bytes' mime', (.ok (bytes, mime) : Except Problem (Bytes × String)) = .ok (bytes', mime') →
      P bytes') ↔ P bytes := by
  simp

/-- A request agrees afterwards exactly if it is careful. -/
theorem agrees_next_iff {s : State} (hagrees : Agrees s.db s.last) (turn : Turn) :
    Agrees (server.next s turn).db (server.next s turn).last ↔ Careful s turn := by
  obtain ⟨db, last⟩ := s
  obtain ⟨request, faults⟩ := turn
  simp only at hagrees
  simp only [Server.next, server, Request.handle]
  -- A refused request changes nothing.
  have hrefused : ∀ uploaded problem, Agrees db (last.after uploaded (.error problem)) := by
    intro uploaded problem
    rw [Uploads.after_error]
    exact hagrees
  cases request with
  | uploadAvatar userId upload =>
    simp only [uploadAvatar, Careful]
    cases hreceived : receiveImage "avatar" maxAvatarBytes upload with
    | error problem => exact iff_of_true (hrefused _ _) (by simp)
    | ok received =>
      obtain ⟨bytes, mime⟩ := received
      obtain ⟨sent, rfl⟩ := file_of_receiveImage hreceived
      have hstored := agrees_storeImage (fun db => (db.liveUser userId).isSome)
        (sets_setAvatar userId (.image ⟨avatarKey userId, mime⟩))
        (fun db h => (liveUser_setAvatar userId _ db).trans h) hagrees
      rw [forall_received_iff]
      exact hstored _ bytes faults
  | setEmojiAvatar userId body =>
    simp only [setEmojiAvatar, Request.uploaded, Uploads.after_none]
    cases body with
    | unreadable | invalid => exact iff_of_true hagrees trivial
    | valid emoji =>
      have hdropped := agrees_dropImage (sets_setAvatar userId (.emoji emoji)) hagrees faults
      cases hpool : faults.pool with
      | true => simpa [Careful, hpool] using hagrees
      | false =>
        simp only [Careful, hpool, Bool.false_eq_true, if_false, true_imp_iff]
        split <;> exact hdropped
  | deleteAvatar userId =>
    have hdropped := agrees_dropImage (sets_setAvatar userId .default) hagrees faults
    cases hpool : faults.pool with
    | true => simpa [deleteAvatar, Careful, hpool] using hagrees
    | false =>
      simp only [deleteAvatar, Careful, hpool, Bool.false_eq_true, if_false, true_imp_iff]
      exact hdropped
  | serveAvatar userId =>
    refine iff_of_true ?_ trivial
    simp only [serveAvatar, Request.uploaded, Uploads.after_none]
    split
    · exact hagrees
    · rwa [serveImage_state]
  | uploadCover ctx id upload =>
    simp only [uploadCover, Careful]
    cases hallowed : ctx.allowed with
    | false => simpa using hagrees
    | true =>
      cases hpool : faults.pool with
      | true => simpa using hagrees
      | false =>
        cases hlookup : faults.lookup with
        | true => simpa using hagrees
        | false =>
          cases hlive : (db.liveEpic ctx.projectId id).isSome with
          | false =>
            simpa [Option.isSome_eq_false_iff.mp hlive] using hagrees
          | true =>
            cases hreceived : receiveImage "cover" maxCoverBytes upload with
            | error problem =>
              simpa [Option.isNone_eq_false_iff.mpr hlive] using hagrees
            | ok received =>
              obtain ⟨bytes, mime⟩ := received
              obtain ⟨sent, rfl⟩ := file_of_receiveImage hreceived
              have hstored := agrees_storeImage
                (fun db => (db.liveEpic ctx.projectId id).isSome)
                (sets_setCover ctx.projectId id (some ⟨coverKey id, mime⟩))
                (fun db h => (liveEpic_setCover ctx.projectId id _ db).trans h) hagrees
              have hmatched : (Db.setCover ctx.projectId id
                (some ⟨coverKey id, mime⟩) db).1 = true := hlive
              rw [hmatched] at hstored
              have hsome : (db.liveEpic ctx.projectId id).isNone = false := by
                simpa using hlive
              rw [forall_received_iff]
              simp only [Bool.not_true, Bool.false_eq_true, if_false, Bool.or_self,
                true_imp_iff, hsome]
              exact hstored _ bytes faults
  | deleteCover ctx id =>
    have hdropped := agrees_dropImage (sets_setCover ctx.projectId id none) hagrees faults
    simp only [deleteCover, Careful, Request.uploaded, Uploads.after_none]
    cases hallowed : ctx.allowed with
    | false => simpa using hagrees
    | true =>
      cases hpool : faults.pool with
      | true => simpa using hagrees
      | false =>
        simp only [Bool.not_true, Bool.false_eq_true, if_false, true_imp_iff]
        split <;> exact hdropped
  | serveCover ctx id =>
    refine iff_of_true ?_ trivial
    simp only [serveCover, Request.uploaded, Uploads.after_none]
    repeat' split
    · exact hagrees
    · exact hagrees
    · rwa [serveImage_state]
  | uploadIcon ctx upload =>
    simp only [uploadIcon, Careful]
    cases hallowed : ctx.allowed with
    | false => simpa using hagrees
    | true =>
      cases hpool : faults.pool with
      | true => simpa using hagrees
      | false =>
        cases hreceived : receiveImage "icon" maxIconBytes upload with
        | error problem => simpa using hagrees
        | ok received =>
          obtain ⟨bytes, mime⟩ := received
          obtain ⟨sent, rfl⟩ := file_of_receiveImage hreceived
          have hstored := agrees_storeImage (fun db => (db.liveProject ctx.projectId).isSome)
            (sets_setIcon ctx.projectId (some ⟨iconKey ctx.projectId, mime⟩))
            (fun db h => (liveProject_setIcon ctx.projectId _ db).trans h) hagrees
          rw [forall_received_iff]
          simp only [Bool.not_true, Bool.false_eq_true, if_false, true_imp_iff]
          exact hstored _ bytes faults
  | deleteIcon ctx =>
    have hdropped := agrees_dropImage (sets_setIcon ctx.projectId none) hagrees faults
    simp only [deleteIcon, Careful, Request.uploaded, Uploads.after_none]
    cases hallowed : ctx.allowed with
    | false => simpa using hagrees
    | true =>
      cases hpool : faults.pool with
      | true => simpa using hagrees
      | false =>
        simp only [Bool.not_true, Bool.false_eq_true, if_false, true_imp_iff]
        split <;> exact hdropped
  | serveIcon ctx =>
    refine iff_of_true ?_ trivial
    simp only [serveIcon, Request.uploaded, Uploads.after_none]
    repeat' split
    · exact hagrees
    · exact hagrees
    · rwa [serveImage_state]

theorem not_foreign_of_live {db : Db} {projectId id : Uuid}
    (hlive : (db.liveEpic projectId id).isSome = true) : ¬ Foreign db projectId (.cover id) := by
  rintro ⟨epic, hfind, hother⟩
  rw [Db.liveEpic, hfind] at hlive
  simp [Option.filter, hother] at hlive

/-- What a cover request does to other images, and to a cover of its project. -/
theorem onlyAt_uploadCover (ctx : Context) (id : Uuid) (upload : Upload) (faults : Faults) (db : Db) :
    (uploadCover ctx id upload faults db).2 = db ∨
      (db.liveEpic ctx.projectId id).isSome = true ∧
        OnlyAt (.cover id) db (uploadCover ctx id upload faults db).2 := by
  unfold uploadCover
  split
  · exact .inl rfl
  · split
    · exact .inl rfl
    · split
      · exact .inl rfl
      · rename_i hlive
        split
        · exact .inl rfl
        · refine .inr ⟨by simpa [Option.isSome_iff_ne_none] using hlive, ?_⟩
          exact onlyAt_storeImage (sets_setCover ctx.projectId id _) _ _ faults _ db

theorem onlyAt_uploadIcon (ctx : Context) (upload : Upload) (faults : Faults) (db : Db) :
    OnlyAt (.icon ctx.projectId) db (uploadIcon ctx upload faults db).2 := by
  unfold uploadIcon
  split
  · exact OnlyAt.refl _ db
  · split
    · exact OnlyAt.refl _ db
    · split
      · exact OnlyAt.refl _ db
      · exact onlyAt_storeImage (sets_setIcon ctx.projectId _) _ _ faults _ db

theorem onlyAt_deleteIcon (ctx : Context) (faults : Faults) (db : Db) :
    OnlyAt (.icon ctx.projectId) db (deleteIcon ctx faults db).2 := by
  unfold deleteIcon
  split
  · exact OnlyAt.refl _ db
  · split
    · exact OnlyAt.refl _ db
    · have hdropped := onlyAt_dropImage (sets_setIcon ctx.projectId none) faults db
      dsimp only
      split <;> exact hdropped

/-- The cover an epic of another project has is lost only by a removal that drops unsafely. -/
theorem isolated_deleteCover {ctx : Context} {id : Uuid} {faults : Faults} {db : Db}
    {last : Uploads} (hagrees : Agrees db last)
    (hsafe : ctx.allowed = true → faults.pool = false →
      DropsSafely db (.cover id) (db.liveEpic ctx.projectId id).isSome faults)
    (hforeign : Foreign db ctx.projectId slot) :
    (deleteCover ctx id faults db).2.picture slot = db.picture slot := by
  unfold deleteCover
  split
  · rfl
  · split
    · rfl
    · rename_i hallowed hpool
      have hsets := sets_setCover ctx.projectId id none
      have hdropped : (dropImage (Slot.cover id).key faults (Db.setCover ctx.projectId id none)
          db).2.picture slot = db.picture slot := by
        by_cases hslot : slot = .cover id
        · subst hslot
          have hunmatched : (db.liveEpic ctx.projectId id).isSome = false := by
            by_contra hlive
            exact not_foreign_of_live (by simpa [Option.isSome_iff_ne_none] using hlive) hforeign
          exact picture_dropImage hsets (hsafe (by simpa using hallowed) (by simpa using hpool))
            hunmatched
        · exact picture_of_onlyAt hagrees (onlyAt_dropImage hsets faults db) hslot
      dsimp only
      split <;> exact hdropped

theorem isolated_of_careful {s : State} (hagrees : Agrees s.db s.last) {turn : Turn}
    (hcareful : Careful s turn) : Isolated s turn := by
  obtain ⟨request, faults⟩ := turn
  intro projectId hproject slot hforeign
  cases request with
  | uploadAvatar userId upload | setEmojiAvatar userId body | deleteAvatar userId
  | serveAvatar userId => contradiction
  | uploadCover ctx id upload =>
    cases hproject
    rcases onlyAt_uploadCover ctx id upload faults s.db with hsame | ⟨hlive, honly⟩
    · exact congrArg (Db.picture · slot) hsame
    · refine picture_of_onlyAt hagrees honly fun hslot => ?_
      exact not_foreign_of_live hlive (hslot ▸ hforeign)
  | deleteCover ctx id =>
    cases hproject
    exact isolated_deleteCover hagrees hcareful hforeign
  | serveCover ctx id =>
    simp only [Server.next, server, Request.handle, serveCover]
    split
    · rfl
    · split
      · rfl
      · rw [serveImage_state]
  | uploadIcon ctx upload =>
    cases hproject
    refine picture_of_onlyAt hagrees (onlyAt_uploadIcon ctx upload faults s.db) fun hslot => ?_
    exact (hslot ▸ hforeign : Foreign s.db ctx.projectId (.icon ctx.projectId)) rfl
  | deleteIcon ctx =>
    cases hproject
    refine picture_of_onlyAt hagrees (onlyAt_deleteIcon ctx faults s.db) fun hslot => ?_
    exact (hslot ▸ hforeign : Foreign s.db ctx.projectId (.icon ctx.projectId)) rfl
  | serveIcon ctx =>
    simp only [Server.next, server, Request.handle, serveIcon]
    split
    · rfl
    · split
      · rfl
      · rw [serveImage_state]

/-- Rows agree with the storage all along, and no request reaches the images of other projects,
exactly in the runs whose requests are careful. -/
theorem images_agree_iff {s : State} (hagrees : Agrees s.db s.last) (turns : List Turn) :
    server.Always (fun s => Agrees s.db s.last) s turns ∧ server.Each Isolated s turns ↔
      server.Each Careful s turns := by
  refine Server.always_and_each_iff (I := fun s : State => Agrees s.db s.last)
    (fun s turn h => ?_) hagrees turns
  constructor
  · rintro ⟨hnext, -⟩
    exact (agrees_next_iff h turn).mp hnext
  · intro hcareful
    exact ⟨(agrees_next_iff h turn).mpr hcareful, isolated_of_careful h hcareful⟩

/-- Two projects, the second with an epic, and a user, none of them with an image. -/
def sample : State where
  db := {
    users := ⟨[⟨1, .default, false⟩], by decide⟩
    epics := ⟨[⟨7, 20, none, false⟩], by decide⟩
    projects := ⟨[⟨10, none, false⟩, ⟨20, none, false⟩], by decide⟩
    objects := fun _ => none }
  last := fun _ => none

theorem sample_agrees : Agrees sample.db sample.last := by
  intro slot image himage
  have hnone : sample.db.imageOf slot = none := by
    rw [Option.eq_none_iff_forall_ne_some]
    intro shown hshown
    cases slot with
    | avatar userId =>
      obtain ⟨user, hfind, huser⟩ := Option.bind_eq_some_iff.mp hshown
      rw [List.mem_singleton.mp (Table.mem_of_find? hfind)] at huser
      contradiction
    | cover epicId =>
      obtain ⟨epic, hfind, hepic⟩ := Option.bind_eq_some_iff.mp hshown
      rw [List.mem_singleton.mp (Table.mem_of_find? hfind)] at hepic
      contradiction
    | icon projectId =>
      obtain ⟨project, hfind, hproject⟩ := Option.bind_eq_some_iff.mp hshown
      rcases List.mem_pair.mp (Table.mem_of_find? hfind) with rfl | rfl <;> contradiction
  rw [hnone] at himage
  contradiction

def png : Upload := .file [1] (some "image/png")

/-- A cover is uploaded in the project of its epic, and deleted in another one. -/
def coverTurns : List Turn :=
  [(.uploadCover ⟨20, true⟩ 7 png, {}), (.deleteCover ⟨10, true⟩ 7, {})]

theorem cover_deleted_elsewhere :
    ¬ server.Always (fun s => Agrees s.db s.last) sample coverTurns ∧
      ¬ server.Each Isolated sample coverTurns := by
  have himage : (server.run sample coverTurns).db.imageOf (.cover 7) =
      some ⟨coverKey 7, "image/png"⟩ := by decide +kernel
  have hlost : (server.run sample coverTurns).db.objects (coverKey 7) = none := by decide +kernel
  have hforeign : Foreign (server.run sample (coverTurns.take 1)).db 10 (.cover 7) :=
    ⟨⟨7, 20, some ⟨coverKey 7, "image/png"⟩, false⟩, by decide +kernel, by decide⟩
  constructor
  · intro halways
    obtain ⟨-, bytes, -, hbytes⟩ := halways coverTurns [] rfl (.cover 7) _ himage
    rw [Slot.key, hlost] at hbytes
    contradiction
  · rintro ⟨-, hisolated, -⟩
    have hsame := hisolated 10 rfl (.cover 7) hforeign
    revert hsame
    decide +kernel

/-- The upload alone is careful. -/
theorem images_agree_upload :
    server.Always (fun s => Agrees s.db s.last) sample (coverTurns.take 1) ∧
      server.Each Isolated sample (coverTurns.take 1) := by
  apply (images_agree_iff sample_agrees (coverTurns.take 1)).mpr
  refine ⟨?_, trivial⟩
  intro _ _ _ _ bytes mime _
  exact .inl rfl

end IntelliPilot.Images
