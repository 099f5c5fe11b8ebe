import IntelliPilot.Projects.Context
import IntelliPilot.Relational.Table
import IntelliPilot.Statement.Program

/-! # Memberships and invitations

The tables behind the members of a project and the statements on them. Roles
and accounts are read but not written here, so they belong to the environment.
-/

namespace IntelliPilot.Projects

open Rows

structure Role where
  id : Uuid
  projectId : Uuid
  slug : String
  isAdmin : Bool
  permissions : List Permission
  deriving DecidableEq, Repr

structure Membership where
  projectId : Uuid
  userId : Uuid
  roleId : Uuid
  deriving DecidableEq, Repr

namespace Membership

/-- `UNIQUE (project_id, user_id)`. -/
def key (membership : Membership) : Uuid × Uuid := (membership.projectId, membership.userId)

def withRole (membership : Membership) (roleId : Uuid) : Membership :=
  { membership with roleId := roleId }

@[simp] theorem key_withRole (membership : Membership) (roleId : Uuid) :
    (membership.withRole roleId).key = membership.key := rfl

end Membership

structure Invitation where
  tokenHash : Nat
  projectId : Uuid
  roleId : Uuid
  expiresAt : Int
  acceptedAt : Option Int
  deriving DecidableEq, Repr

/-- How a request names an account. -/
inductive UserRef where
  | id (id : Uuid)
  | identifier (identifier : String)
  deriving DecidableEq, Repr

/-- The roles of all projects, and what the account lookups find. -/
structure Directory where
  roles : List Role
  findUser : UserRef → Option Uuid

structure Db where
  memberships : Table Membership.key
  invitations : List Invitation

/-- What the surroundings decide about a statement: whether it fails, and `now()`. -/
structure Choice where
  fails : Bool
  now : Int
  deriving DecidableEq, Repr

inductive DbError where
  | failed
  deriving DecidableEq, Repr

namespace Directory

variable (dir : Directory)

def role? (id : Uuid) : Option Role := dir.roles.find? (·.id == id)

/-- The `r.is_admin` of a membership's role. -/
def isAdmin (roleId : Uuid) : Bool := (dir.role? roleId).any (·.isAdmin)

/-- A membership of the project with an admin role. -/
def adminOf (projectId : Uuid) (membership : Membership) : Bool :=
  membership.projectId == projectId && dir.isAdmin membership.roleId

end Directory

/-- The statements, each with the type of its result. -/
inductive Stmt : Type → Type where
  | findRoleBySlug (projectId : Uuid) (slug : String) : Stmt (Except DbError (Option Role))
  | findUser (ref : UserRef) : Stmt (Except DbError (Option Uuid))
  | access (projectId userId : Uuid) : Stmt (Except DbError (Option MemberAccess))
  | adminCount (projectId : Uuid) : Stmt (Except DbError Nat)
  | changeRole (projectId userId roleId : Uuid) : Stmt (Except DbError Bool)
  | remove (projectId userId : Uuid) : Stmt (Except DbError Bool)
  | upsert (projectId userId roleId : Uuid) : Stmt (Except DbError Unit)
  | findPending (tokenHash : Nat) : Stmt (Except DbError (Option Invitation))
  | invitationExists (tokenHash : Nat) : Stmt (Except DbError Bool)
  | markAccepted (tokenHash : Nat) : Stmt (Except DbError Bool)

namespace Db

variable (dir : Directory) (db : Db)

/-- `memberships::access`. -/
def access (projectId userId : Uuid) : Option MemberAccess := do
  let membership ← db.memberships.find? (projectId, userId)
  let role ← dir.role? membership.roleId
  return ⟨role.id, role.isAdmin, role.permissions⟩

def adminCount (projectId : Uuid) : Nat := db.memberships.rows.countP (dir.adminOf projectId)

/-- `UPDATE memberships SET role_id`. -/
def setRole (projectId userId roleId : Uuid) : Db :=
  { db with
    memberships := db.memberships.modify (fun row => row.key == (projectId, userId))
      (fun row => row.withRole roleId) fun row => row.key_withRole roleId }

def remove (projectId userId : Uuid) : Db :=
  { db with memberships := db.memberships.erase fun row => row.key == (projectId, userId) }

/-- `INSERT … ON CONFLICT (project_id, user_id) DO UPDATE SET role_id`. -/
def upsert (projectId userId roleId : Uuid) : Db :=
  match db.memberships.insert? ⟨projectId, userId, roleId⟩ with
  | some memberships => { db with memberships := memberships }
  | none => db.setRole projectId userId roleId

/-- `accepted_at IS NULL AND expires_at > now()`. -/
def pending (tokenHash : Nat) (now : Int) (invitation : Invitation) : Bool :=
  invitation.tokenHash == tokenHash && invitation.acceptedAt.isNone &&
    decide (now < invitation.expiresAt)

def markAccepted (tokenHash : Nat) (now : Int) : Db :=
  { db with
    invitations := updateWhere (pending tokenHash now)
      (fun invitation => { invitation with acceptedAt := some now }) db.invitations }

end Db

/-- A statement that fails changes nothing. -/
def attempt {α : Type} (choice : Choice) (result : α) (after : Db) (db : Db) :
    Except DbError α × Db :=
  if choice.fails then (.error .failed, db) else (.ok result, after)

def exec (dir : Directory) {β : Type} (stmt : Stmt β) (choice : Choice) (db : Db) : β × Db :=
  match stmt with
  | .findRoleBySlug projectId slug =>
      attempt choice (dir.roles.find? fun role => role.projectId == projectId && role.slug == slug)
        db db
  | .findUser ref => attempt choice (dir.findUser ref) db db
  | .access projectId userId => attempt choice (db.access dir projectId userId) db db
  | .adminCount projectId => attempt choice (db.adminCount dir projectId) db db
  | .changeRole projectId userId roleId =>
      attempt choice (db.memberships.find? (projectId, userId)).isSome
        (db.setRole projectId userId roleId) db
  | .remove projectId userId =>
      attempt choice (db.memberships.find? (projectId, userId)).isSome
        (db.remove projectId userId) db
  | .upsert projectId userId roleId => attempt choice () (db.upsert projectId userId roleId) db
  | .findPending tokenHash =>
      attempt choice (db.invitations.find? (Db.pending tokenHash choice.now)) db db
  | .invitationExists tokenHash =>
      attempt choice (db.invitations.any (·.tokenHash == tokenHash)) db db
  | .markAccepted tokenHash =>
      attempt choice (db.invitations.any (Db.pending tokenHash choice.now))
        (db.markAccepted tokenHash choice.now) db

end IntelliPilot.Projects
