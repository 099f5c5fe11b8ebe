import IntelliPilot.Auth.SessionStore

/-! # Account statements

The statements of `users.rs`. The admin updates are transactions holding the
row lock of their target, so each is one atomic step.
-/

namespace IntelliPilot.Auth

open Rows

/-- `users::AdminUpdateOutcome`. -/
inductive AdminUpdateOutcome where
  | updated
  | notFound
  | lastSuperadmin
  deriving DecidableEq, Repr

/-- The columns an `INSERT INTO users` sets; the others take their defaults. -/
structure NewUser where
  email : String
  username : String
  fullName : String
  passwordHash : Option String
  authSource : AuthSource
  ldapDn : Option String
  isSuperadmin : Bool
  mustChangePassword : Bool
  deriving DecidableEq, Repr

inductive UserStmt : Type → Type where
  | findByIdentifier (email uname : String) : UserStmt (Except DbError (Option User))
  | findByEmail (email : String) : UserStmt (Except DbError (Option User))
  | findById (id : Uuid) : UserStmt (Except DbError (Option User))
  | findArmedLinkByEmail (email : String) : UserStmt (Except DbError (Option User))
  | usernameTaken (username : String) : UserStmt (Except DbError Bool)
  | isBanned (id : Uuid) : UserStmt (Except DbError Bool)
  | hasLocalPassword (id : Uuid) : UserStmt (Except DbError Bool)
  | hasActive2fa (id : Uuid) : UserStmt (Except DbError Bool)
  | getTotp (id : Uuid) : UserStmt (Except DbError (Option (Bytes × Bool)))
  | insertUser (new : NewUser) : UserStmt (Except DbError User)
  | setTotpSecret (id : Uuid) (secretEnc : Bytes) : UserStmt (Except DbError Unit)
  | confirmTotp (id : Uuid) : UserStmt (Except DbError Unit)
  | disableTotp (id : Uuid) : UserStmt (Except DbError Unit)
  | setSuperadmin (id : Uuid) (value : Bool) : UserStmt (Except DbError AdminUpdateOutcome)
  | setActive (id : Uuid) (value : Bool) : UserStmt (Except DbError AdminUpdateOutcome)
  | setBanned (id : Uuid) (banned : Bool) : UserStmt (Except DbError AdminUpdateOutcome)
  | softDeleteGuarded (id : Uuid) : UserStmt (Except DbError AdminUpdateOutcome)
  | touchLastSeen (id : Uuid) : UserStmt (Except DbError (Option AccountStatus))
  | stampLogin (id : Uuid) : UserStmt (Except DbError Unit)
  | setPassword (id : Uuid) (hash : String) : UserStmt (Except DbError Unit)
  | setPasswordByOwner (id : Uuid) (hash : String) : UserStmt (Except DbError Unit)
  | linkLdapUser (id : Uuid) (ldapDn : Option String) (isSuperadmin : Bool)
      (fullName : String) : UserStmt (Except DbError User)
  | setFullName (id : Uuid) (fullName : String) : UserStmt (Except DbError Unit)
  | updateProfile (id : Uuid) (fullName : String) : UserStmt (Except DbError (Option User))
  | setExcludeFromTimeReports (id : Uuid) (value : Bool) :
      UserStmt (Except DbError AdminUpdateOutcome)
  | setOidcLinkArm (id : Uuid) (until_ : Option Time) : UserStmt (Except DbError Bool)

namespace Users

/-- `deleted_at IS NULL`. -/
def live (user : User) : Bool := user.deletedAt.isNone

/-- `WHERE id = $1 AND deleted_at IS NULL`. -/
def liveId (id : Uuid) (user : User) : Bool := user.id == id && live user

/-- `ACTIVE_SUPERADMIN`. -/
def activeSuperadmin (user : User) : Bool :=
  user.isSuperadmin && user.isActive && user.bannedAt.isNone && user.deletedAt.isNone

/-- `is_last_admin_risk`. -/
def isLastAdminRisk (user : User) : Bool :=
  user.isSuperadmin && user.isActive && user.bannedAt.isNone

/-- Rewrite the users matching `p`. -/
def modify (p : User → Bool) (f : User → User) (db : Db) : Db :=
  { db with users := updateWhere p f db.users }

/-- The shape the guarded admin updates share: absent and deleted accounts are
not found, and where `guarded` holds the last usable superadmin is kept. -/
def guardedUpdate (id : Uuid) (guarded : Bool) (f : User → User) (db : Db) :
    AdminUpdateOutcome × Db :=
  match db.users.find? (·.id == id) with
  | none => (.notFound, db)
  | some target =>
      if target.deletedAt.isSome then (.notFound, db)
      else if guarded && isLastAdminRisk target &&
          !db.users.any (fun user => activeSuperadmin user && user.id != id) then
        (.lastSuperadmin, db)
      else (.updated, modify (·.id == id) f db)

def setSuperadmin (id : Uuid) (value : Bool) (db : Db) : AdminUpdateOutcome × Db :=
  guardedUpdate id (!value) (fun user => { user with isSuperadmin := value }) db

def setActive (id : Uuid) (value : Bool) (db : Db) : AdminUpdateOutcome × Db :=
  guardedUpdate id (!value) (fun user => { user with isActive := value }) db

def setBanned (id : Uuid) (banned : Bool) (db : Db) : AdminUpdateOutcome × Db :=
  guardedUpdate id banned
    (fun user => { user with bannedAt := if banned then some db.now else none }) db

def softDeleteGuarded (id : Uuid) (db : Db) : AdminUpdateOutcome × Db :=
  guardedUpdate id true
    (fun user => { user with deletedAt := some db.now, isActive := false }) db

/-- `set_exclude_from_time_reports`; the column itself is left out. -/
def setExcludeFromTimeReports (id : Uuid) (_value : Bool) (db : Db) : AdminUpdateOutcome × Db :=
  guardedUpdate id false (fun user => user) db

/-- `update_profile`, with the name as the only change. -/
def updateProfile (id : Uuid) (fullName : String) (db : Db) : Option User × Db :=
  ((db.users.find? (liveId id)).map fun user => { user with fullName := fullName },
   modify (liveId id) (fun user => { user with fullName := fullName }) db)

/-- `touch_last_seen`: the status comes from the row the stamp was written to. -/
def touchLastSeen (id : Uuid) (db : Db) : Option AccountStatus × Db :=
  ((db.users.find? (liveId id)).map fun user => ⟨user.isActive, user.bannedAt.isSome⟩,
   modify (liveId id) (fun user => { user with lastSeenAt := some db.now }) db)

/-- `has_active_2fa`: a confirmed TOTP secret or any passkey. -/
def hasActive2fa (id : Uuid) (db : Db) : Bool :=
  (db.users.find? (·.id == id)).any (·.totpConfirmedAt.isSome) ||
    db.webauthnCredentials.any (·.userId == id)

/-- `get_totp`: the encrypted secret and whether it is confirmed. -/
def getTotp (id : Uuid) (db : Db) : Option (Bytes × Bool) := do
  let user ← db.users.find? (liveId id)
  let secretEnc ← user.totpSecretEnc
  return (secretEnc, user.totpConfirmedAt.isSome)

/-- The row an insert creates, with the column defaults. -/
def NewUser.row (new : NewUser) (id : Uuid) : User where
  id := id
  email := new.email
  username := new.username
  fullName := new.fullName
  passwordHash := new.passwordHash
  isActive := true
  isSuperadmin := new.isSuperadmin
  mustChangePassword := new.mustChangePassword
  authSource := new.authSource
  ldapDn := new.ldapDn
  totpSecretEnc := none
  totpConfirmedAt := none
  bannedAt := none
  deletedAt := none
  oidcLinkArmedUntil := none
  lastSeenAt := none
  lastLoginAt := none

/-- `INSERT INTO users`; `email` and `username` are unique over all rows. -/
def insertUser (new : NewUser) (db : Db) : Except DbError User × Db :=
  if db.users.any (fun user => user.email == new.email || user.username == new.username) then
    (.error .uniqueViolation, db)
  else
    (.ok (NewUser.row new db.nextId), { db with
      users := db.users ++ [NewUser.row new db.nextId]
      nextId := db.nextId + 1 })

/-- The directory sync of `find_or_link_ldap_user` on an existing row. -/
def linkLdapUser (id : Uuid) (ldapDn : Option String) (isSuperadmin : Bool) (fullName : String)
    (db : Db) : Except DbError User × Db :=
  let link (user : User) : User :=
    { user with authSource := .ldap, ldapDn := ldapDn, isSuperadmin := isSuperadmin,
                fullName := fullName, mustChangePassword := false, isActive := true }
  match db.users.find? (·.id == id) with
  | none => (.error .other, db)
  | some user => (.ok (link user), modify (·.id == id) link db)

end Users

/-- The effect of the account statements. -/
def UserStmt.exec {β : Type} (stmt : UserStmt β) (choice : Choice) (db : Db) : β × Db :=
  match stmt with
  | .findByIdentifier email uname => attempt choice db fun db =>
      (.ok (anyWhere choice.pick
        (fun user => (user.email == email || user.username == uname) && Users.live user)
        db.users), db)
  | .findByEmail email => attempt choice db fun db =>
      (.ok (db.users.find? fun user => user.email == email && Users.live user), db)
  | .findById id => attempt choice db fun db => (.ok (db.users.find? (Users.liveId id)), db)
  | .findArmedLinkByEmail email => attempt choice db fun db =>
      (.ok (db.users.find? fun user => user.email == email && Users.live user &&
        user.oidcLinkArmedUntil.any (db.now < ·)), db)
  | .usernameTaken username => attempt choice db fun db =>
      (.ok (db.users.any (·.username == username)), db)
  | .isBanned id => attempt choice db fun db =>
      (.ok ((db.users.find? (·.id == id)).any (·.bannedAt.isSome)), db)
  | .hasLocalPassword id => attempt choice db fun db =>
      (.ok ((db.users.find? (Users.liveId id)).any (·.passwordHash.isSome)), db)
  | .hasActive2fa id => attempt choice db fun db => (.ok (Users.hasActive2fa id db), db)
  | .getTotp id => attempt choice db fun db => (.ok (Users.getTotp id db), db)
  | .insertUser new => attempt choice db (Users.insertUser new)
  | .setTotpSecret id secretEnc => attempt choice db fun db =>
      (.ok (), Users.modify (Users.liveId id)
        (fun user => { user with totpSecretEnc := some secretEnc, totpConfirmedAt := none }) db)
  | .confirmTotp id => attempt choice db fun db =>
      (.ok (), Users.modify (Users.liveId id)
        (fun user => { user with totpConfirmedAt := some db.now }) db)
  | .disableTotp id => attempt choice db fun db =>
      (.ok (), Users.modify (Users.liveId id)
        (fun user => { user with totpSecretEnc := none, totpConfirmedAt := none }) db)
  | .setSuperadmin id value => attempt choice db fun db =>
      (.ok (Users.setSuperadmin id value db).1, (Users.setSuperadmin id value db).2)
  | .setActive id value => attempt choice db fun db =>
      (.ok (Users.setActive id value db).1, (Users.setActive id value db).2)
  | .setBanned id banned => attempt choice db fun db =>
      (.ok (Users.setBanned id banned db).1, (Users.setBanned id banned db).2)
  | .softDeleteGuarded id => attempt choice db fun db =>
      (.ok (Users.softDeleteGuarded id db).1, (Users.softDeleteGuarded id db).2)
  | .touchLastSeen id => attempt choice db fun db =>
      (.ok (Users.touchLastSeen id db).1, (Users.touchLastSeen id db).2)
  | .stampLogin id => attempt choice db fun db =>
      (.ok (), Users.modify (·.id == id)
        (fun user => { user with lastLoginAt := some db.now, lastSeenAt := some db.now }) db)
  | .setPassword id hash => attempt choice db fun db =>
      (.ok (), Users.modify (·.id == id) (fun user => { user with passwordHash := some hash }) db)
  | .setPasswordByOwner id hash => attempt choice db fun db =>
      (.ok (), Users.modify (·.id == id)
        (fun user => { user with passwordHash := some hash, mustChangePassword := false }) db)
  | .linkLdapUser id ldapDn isSuperadmin fullName =>
      attempt choice db (Users.linkLdapUser id ldapDn isSuperadmin fullName)
  | .setFullName id fullName => attempt choice db fun db =>
      (.ok (), Users.modify (·.id == id) (fun user => { user with fullName := fullName }) db)
  | .updateProfile id fullName => attempt choice db fun db =>
      (.ok (Users.updateProfile id fullName db).1, (Users.updateProfile id fullName db).2)
  | .setExcludeFromTimeReports id value => attempt choice db fun db =>
      (.ok (Users.setExcludeFromTimeReports id value db).1,
       (Users.setExcludeFromTimeReports id value db).2)
  | .setOidcLinkArm id until_ => attempt choice db fun db =>
      (.ok (db.users.any (Users.liveId id)), Users.modify (Users.liveId id)
        (fun user => { user with oidcLinkArmedUntil := until_ }) db)

end IntelliPilot.Auth
