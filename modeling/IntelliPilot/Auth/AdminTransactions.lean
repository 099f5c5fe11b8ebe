import IntelliPilot.Auth.SessionHandlers
import IntelliPilot.Relational.ReadCommitted

/-! # Who may administer the platform

The writers of the columns that make a usable superadmin, statement by
statement and with their transactions: `set_superadmin`, `set_active`,
`set_banned` and `soft_delete_guarded` lock their target, count the others and
commit, while `soft_delete` and `find_or_link_ldap_user` run outside of any
transaction. A statement that is scheduled while it has to wait fails, as one
that times out does.
-/

namespace IntelliPilot.Auth.Admin

open Statement

/-- What the admin updates write to their target. -/
inductive Change where
  | isSuperadmin (value : Bool)
  | isActive (value : Bool)
  | bannedAt (at_ : Option Time)
  | deletedAt (at_ : Time)
  deriving DecidableEq, Repr

namespace Change

def set (change : Change) (user : User) : User :=
  match change with
  | .isSuperadmin value => { user with isSuperadmin := value }
  | .isActive value => { user with isActive := value }
  | .bannedAt at_ => { user with bannedAt := at_ }
  | .deletedAt at_ => { user with deletedAt := some at_, isActive := false }

theorem set_id (change : Change) (user : User) : (change.set user).id = user.id := by
  cases change <;> rfl

/-- `UPDATE users SET … WHERE id = $1`. -/
def write (change : Change) (id : Uuid) : Write User.id := ⟨id, change.set, change.set_id⟩

/-- Whether a usable superadmin is none any more after the change. -/
def removes : Change → Bool
  | .isSuperadmin value => !value
  | .isActive value => !value
  | .bannedAt at_ => at_.isSome
  | .deletedAt _ => true

end Change

/-- An open transaction and its `now()`. -/
structure Tx where
  id : Nat
  now : Time
  deriving DecidableEq, Repr

/-- The accounts and the number of transactions opened so far. -/
structure Accounts where
  users : LockedTable User.id
  opened : Nat

/-- What the surroundings decide about a statement. -/
structure Choice where
  fails : Bool
  now : Time
  newId : Uuid
  deriving DecidableEq, Repr

inductive Stmt : Type → Type where
  | begin : Stmt (Except DbError Tx)
  | lockUser (tx : Tx) (id : Uuid) : Stmt (Except DbError (Option User))
  | countOthers (tx : Tx) (id : Uuid) : Stmt (Except DbError Nat)
  | update (tx : Tx) (id : Uuid) (change : Change) : Stmt (Except DbError Unit)
  | commit (tx : Tx) : Stmt (Except DbError Unit)
  | rollback (tx : Tx) : Stmt Unit
  | softDelete (id : Uuid) : Stmt (Except DbError Bool)
  | findByEmail (email : String) : Stmt (Except DbError (Option User))
  | linkLdapUser (id : Uuid) (ldapDn : Option String) (isSuperadmin : Bool) (fullName : String) :
      Stmt (Except DbError User)
  | usernameTaken (username : String) : Stmt (Except DbError Bool)
  | insertUser (new : NewUser) : Stmt (Except DbError User)

/-- The directory sync of `find_or_link_ldap_user` on an existing row. -/
def syncWrite (id : Uuid) (ldapDn : Option String) (isSuperadmin : Bool) (fullName : String) :
    Write User.id where
  row := id
  set user := { user with authSource := .ldap, ldapDn := ldapDn, isSuperadmin := isSuperadmin,
                          fullName := fullName, mustChangePassword := false, isActive := true }
  keeps _ := rfl

namespace Accounts

variable (accounts : Accounts)

def find? (id : Uuid) : Option User := accounts.users.rows.find? id

/-- The effect of a statement that may have to wait. -/
def orWait (after : Option (LockedTable User.id)) {α : Type} (result : α) :
    Except DbError α × Accounts :=
  match after with
  | some users => (.ok result, { accounts with users := users })
  | none => (.error .other, accounts)

/-- `SELECT … FROM users WHERE id = $1 FOR UPDATE`; only a row can be locked. -/
def lockUser (tx : Tx) (id : Uuid) : Except DbError (Option User) × Accounts :=
  match (accounts.users.view tx.id).find? id with
  | none => (.ok none, accounts)
  | some user => accounts.orWait (accounts.users.lock? tx.id id) (some user)

/-- `SELECT COUNT(*) FROM users WHERE {ACTIVE_SUPERADMIN} AND id <> $1`. -/
def countOthers (tx : Tx) (id : Uuid) : Nat :=
  (accounts.users.view tx.id).rows.countP fun user => Users.activeSuperadmin user && user.id != id

/-- An update matches no row where there is none, and then locks nothing. -/
def update (tx : Tx) (id : Uuid) (change : Change) : Except DbError Unit × Accounts :=
  match (accounts.users.view tx.id).find? id with
  | none => (.ok (), accounts)
  | some _ => accounts.orWait (accounts.users.write? tx.id (change.write id)) ()

/-- `soft_delete`: only a live row is written. -/
def softDelete (id : Uuid) (now : Time) : Except DbError Bool × Accounts :=
  match (accounts.find? id).filter Users.live with
  | none => (.ok false, accounts)
  | some _ => accounts.orWait (accounts.users.update? (Change.write (.deletedAt now) id)) true

def linkLdapUser (id : Uuid) (ldapDn : Option String) (isSuperadmin : Bool) (fullName : String) :
    Except DbError User × Accounts :=
  let write := syncWrite id ldapDn isSuperadmin fullName
  match accounts.find? id with
  | none => (.error .other, accounts)
  | some user => accounts.orWait (accounts.users.update? write) (write.set user)

/-- `email` and `username` are unique over all rows. -/
def insertUser (new : NewUser) (newId : Uuid) : Except DbError User × Accounts :=
  if accounts.users.rows.rows.any fun user =>
      user.email == new.email || user.username == new.username then
    (.error .uniqueViolation, accounts)
  else
    match accounts.users.insert? (Users.NewUser.row new newId) with
    | some users => (.ok (Users.NewUser.row new newId), { accounts with users := users })
    | none => (.error .uniqueViolation, accounts)

end Accounts

/-- A failing statement changes nothing. -/
def attempt {α : Type} (choice : Choice) (accounts : Accounts)
    (effect : Except DbError α × Accounts) : Except DbError α × Accounts :=
  if choice.fails then (.error .other, accounts) else effect

/-- A commit that fails rolls back, and so does dropping the transaction. -/
def exec {β : Type} (stmt : Stmt β) (choice : Choice) (accounts : Accounts) : β × Accounts :=
  match stmt with
  | .begin => attempt choice accounts
      (.ok ⟨accounts.opened, choice.now⟩, { accounts with opened := accounts.opened + 1 })
  | .lockUser tx id => attempt choice accounts (accounts.lockUser tx id)
  | .countOthers tx id => attempt choice accounts (.ok (accounts.countOthers tx id), accounts)
  | .update tx id change => attempt choice accounts (accounts.update tx id change)
  | .commit tx =>
      if choice.fails then
        (.error .other, { accounts with users := accounts.users.rollback tx.id })
      else (.ok (), { accounts with users := accounts.users.commit tx.id })
  | .rollback tx => ((), { accounts with users := accounts.users.rollback tx.id })
  | .softDelete id => attempt choice accounts (accounts.softDelete id choice.now)
  | .findByEmail email => attempt choice accounts
      (.ok (accounts.users.rows.rows.find? fun user => user.email == email && Users.live user),
       accounts)
  | .linkLdapUser id ldapDn isSuperadmin fullName =>
      attempt choice accounts (accounts.linkLdapUser id ldapDn isSuperadmin fullName)
  | .usernameTaken username => attempt choice accounts
      (.ok (accounts.users.rows.rows.any (·.username == username)), accounts)
  | .insertUser new => attempt choice accounts (accounts.insertUser new choice.newId)

/-! ## The updates -/

inductive Answer where
  | outcome (outcome : AdminUpdateOutcome)
  | erased (erased : Bool)
  | user (user : User)
  | failed (error : DbError)
  deriving DecidableEq, Repr

/-- The write and the commit of an admin update. -/
def updateAndCommit (tx : Tx) (id : Uuid) (change : Change) : Prog Stmt Answer := do
  match ← Prog.call (.update tx id change) with
  | .error e =>
      Prog.call (.rollback tx)
      return .failed e
  | .ok _ =>
      match ← Prog.call (.commit tx) with
      | .error e => return .failed e
      | .ok _ => return .outcome .updated

/-- The transaction the admin updates share: lock the target and, where
`guarded` and the target is at risk, count the others. -/
def guardedUpdate (id : Uuid) (guarded : Bool) (change : Tx → Change) : Prog Stmt Answer := do
  match ← Prog.call .begin with
  | .error e => return .failed e
  | .ok tx =>
      match ← Prog.call (.lockUser tx id) with
      | .error e =>
          Prog.call (.rollback tx)
          return .failed e
      | .ok none =>
          Prog.call (.rollback tx)
          return .outcome .notFound
      | .ok (some target) =>
          if target.deletedAt.isSome then
            Prog.call (.rollback tx)
            return .outcome .notFound
          else if guarded && Users.isLastAdminRisk target then
            match ← Prog.call (.countOthers tx id) with
            | .error e =>
                Prog.call (.rollback tx)
                return .failed e
            | .ok others =>
                if others = 0 then
                  Prog.call (.rollback tx)
                  return .outcome .lastSuperadmin
                else updateAndCommit tx id (change tx)
          else updateAndCommit tx id (change tx)

/-- `set_superadmin`. -/
def setSuperadmin (id : Uuid) (value : Bool) : Prog Stmt Answer :=
  guardedUpdate id (!value) fun _ => .isSuperadmin value

/-- `set_active`. -/
def setActive (id : Uuid) (value : Bool) : Prog Stmt Answer :=
  guardedUpdate id (!value) fun _ => .isActive value

/-- `set_banned`. -/
def setBanned (id : Uuid) (banned : Bool) : Prog Stmt Answer :=
  guardedUpdate id banned fun tx => .bannedAt (if banned then some tx.now else none)

/-- `soft_delete_guarded`. -/
def softDeleteGuarded (id : Uuid) : Prog Stmt Answer :=
  guardedUpdate id true fun tx => .deletedAt tx.now

/-- `soft_delete`, of the account's own `DELETE /me`. -/
def softDelete (id : Uuid) : Prog Stmt Answer := do
  match ← Prog.call (.softDelete id) with
  | .error e => return .failed e
  | .ok erased => return .erased erased

/-- The search loop of `free_username` over the candidates from `n` on. -/
def freeUsernameFrom (base : String) (n : Nat) : Nat → Prog Stmt (Except DbError String)
  | 0 => return .ok base
  | fuel + 1 => do
      match ← Prog.call (.usernameTaken (usernameCandidate base n)) with
      | .error e => return .error e
      | .ok false => return .ok (usernameCandidate base n)
      | .ok true => freeUsernameFrom base (n + 1) fuel

/-- `find_or_link_ldap_user`. -/
def findOrLinkLdapUser (env : Env) (entry : LdapUser) : Prog Stmt Answer := do
  match ← Prog.call (.findByEmail (env.normalizeEmail entry.email)) with
  | .error e => return .failed e
  | .ok (some existing) =>
      match ← Prog.call (.linkLdapUser existing.id entry.dn entry.isSuperadmin entry.displayName) with
      | .error e => return .failed e
      | .ok user => return .user user
  | .ok none =>
      match ← freeUsernameFrom (usernameBase entry.username) 0 10000 with
      | .error e => return .failed e
      | .ok username =>
          match ← Prog.call (.insertUser ⟨env.normalizeEmail entry.email, username,
              entry.displayName, none, .ldap, entry.dn, entry.isSuperadmin, false⟩) with
          | .error e => return .failed e
          | .ok user => return .user user

inductive Request where
  | setSuperadmin (id : Uuid) (value : Bool)
  | setActive (id : Uuid) (value : Bool)
  | setBanned (id : Uuid) (banned : Bool)
  | softDeleteGuarded (id : Uuid)
  | softDelete (id : Uuid)
  | findOrLinkLdapUser (entry : LdapUser)

def handler (env : Env) : Request → Prog Stmt Answer
  | .setSuperadmin id value => Admin.setSuperadmin id value
  | .setActive id value => Admin.setActive id value
  | .setBanned id banned => Admin.setBanned id banned
  | .softDeleteGuarded id => Admin.softDeleteGuarded id
  | .softDelete id => Admin.softDelete id
  | .findOrLinkLdapUser entry => Admin.findOrLinkLdapUser env entry

def adminService (env : Env) : Service Stmt Accounts Choice Request Answer where
  exec := exec
  handler := handler env

/-- The accounts before the first transaction. -/
def Accounts.ofTable (users : Table User.id) : Accounts := ⟨.ofTable users, 0⟩

end IntelliPilot.Auth.Admin
