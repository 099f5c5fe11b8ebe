import IntelliPilot.Projects.LastAdmin
import IntelliPilot.Statement.Handlers

/-! # Teams: roles, members and invitations together

The member handlers over tables in which roles change as well. A request under
`/projects/{project_id}` loads its project context first; an app token brings
the permissions it was granted. The columns `name` and `order` of a role and
the address of an invitation are read by none of these handlers.
-/

namespace IntelliPilot.Projects

open Statement Rows Http

inductive RoleError where
  | taken
  | failed
  deriving DecidableEq, Repr

/-- The statements that the member handlers do not have. -/
inductive TeamStmt : Type → Type where
  | findProject (projectId : Uuid) : TeamStmt (Except DbError (Option Bool))
  | isActiveSuperadmin (userId : Uuid) : TeamStmt (Except DbError Bool)
  | setSuperadmin (userId : Uuid) (flag : Bool) : TeamStmt (Except DbError Unit)
  | createRole (projectId : Uuid) (slug : String) (permissions : List Permission) :
      TeamStmt (Except RoleError Role)
  | updatePermissions (projectId roleId : Uuid) (permissions : Option (List Permission)) :
      TeamStmt (Except DbError (Option Role))
  | deleteRole (projectId roleId : Uuid) : TeamStmt (Except DbError Bool)
  | createInvitation (projectId roleId : Uuid) (tokenHash : Nat) : TeamStmt (Except DbError Unit)

/-- All statements. -/
abbrev AnyStmt (β : Type) : Type := Stmt β ⊕ TeamStmt β

/-- The rows that belong to teams. -/
structure Tables where
  roles : Table Role.id
  db : Db
  superadmins : List Uuid

/-- What the surroundings decide: failures, `now()`, the accounts and projects that are found
(a project with whether it is private), and the id of a new role. -/
structure Surroundings where
  fails : Bool
  now : Int
  findUser : UserRef → Option Uuid
  project : Option Bool
  newId : Uuid

/-- `INVITE_TTL_SECS`. -/
def inviteTtlSecs : Int := 7 * 24 * 60 * 60

namespace Role

/-- `permissions = COALESCE($4, permissions)`. -/
def withPermissions (role : Role) (permissions : Option (List Permission)) : Role :=
  { role with permissions := permissions.getD role.permissions }

@[simp] theorem id_withPermissions (role : Role) (permissions : Option (List Permission)) :
    (role.withPermissions permissions).id = role.id := rfl

@[simp] theorem isAdmin_withPermissions (role : Role) (permissions : Option (List Permission)) :
    (role.withPermissions permissions).isAdmin = role.isAdmin := rfl

/-- `WHERE id = $1 AND project_id = $2 AND is_admin = false`. -/
def editable (projectId roleId : Uuid) (role : Role) : Bool :=
  role.id == roleId && role.projectId == projectId && !role.isAdmin

end Role

namespace Tables

def directory (tables : Tables) (findUser : UserRef → Option Uuid) : Directory :=
  ⟨tables.roles.rows, findUser⟩

/-- The id of an admin role. -/
def isAdmin (tables : Tables) (roleId : Uuid) : Bool := (tables.roles.find? roleId).any (·.isAdmin)

/-- Whether a membership would name a role that is not there. -/
def dangling {β : Type} (tables : Tables) : Stmt β → Bool
  | .changeRole projectId userId roleId =>
      (tables.db.memberships.find? (projectId, userId)).isSome &&
        (tables.roles.find? roleId).isNone
  | .upsert _ _ roleId => (tables.roles.find? roleId).isNone
  | _ => false

def createRole (tables : Tables) (role : Role) : Except RoleError Role × Tables :=
  if tables.roles.rows.any fun other =>
      other.projectId == role.projectId && other.slug == role.slug then (.error .taken, tables)
  else
    match tables.roles.insert? role with
    | some roles => (.ok role, { tables with roles := roles })
    | none => (.error .taken, tables)

def updatePermissions (tables : Tables) (projectId roleId : Uuid)
    (permissions : Option (List Permission)) : Tables :=
  { tables with
    roles := tables.roles.modify (Role.editable projectId roleId)
      (fun role => role.withPermissions permissions)
      fun role => role.id_withPermissions permissions }

/-- A role with members stays; invitations to a role go with it. -/
def deleteRole (tables : Tables) (projectId roleId : Uuid) : Except DbError Bool × Tables :=
  if (tables.roles.find? roleId).any (Role.editable projectId roleId) then
    if tables.db.memberships.rows.any (·.roleId == roleId) then (.error .failed, tables)
    else
      (.ok true,
        { tables with
          roles := tables.roles.erase (Role.editable projectId roleId)
          db := { tables.db with
            invitations := deleteWhere (·.roleId == roleId) tables.db.invitations } })
  else (.ok false, tables)

def createInvitation (tables : Tables) (invitation : Invitation) : Except DbError Unit × Tables :=
  if (tables.roles.find? invitation.roleId).isNone ||
      tables.db.invitations.any (·.tokenHash == invitation.tokenHash) then (.error .failed, tables)
  else
    (.ok (),
      { tables with
        db := { tables.db with invitations := tables.db.invitations ++ [invitation] } })

def setSuperadmin (tables : Tables) (userId : Uuid) (flag : Bool) : Tables :=
  { tables with
    superadmins :=
      if flag then userId :: tables.superadmins
      else tables.superadmins.filter fun other => !(other == userId) }

end Tables

/-- A statement that fails changes nothing. -/
def execTeam {β : Type} (stmt : TeamStmt β) (choice : Surroundings) (tables : Tables) :
    β × Tables :=
  match stmt with
  | .findProject _ =>
      if choice.fails then (.error .failed, tables) else (.ok choice.project, tables)
  | .isActiveSuperadmin userId =>
      if choice.fails then (.error .failed, tables)
      else (.ok (tables.superadmins.contains userId), tables)
  | .setSuperadmin userId flag =>
      if choice.fails then (.error .failed, tables)
      else (.ok (), tables.setSuperadmin userId flag)
  | .createRole projectId slug permissions =>
      if choice.fails then (.error .failed, tables)
      else tables.createRole ⟨choice.newId, projectId, slug, false, permissions⟩
  | .updatePermissions projectId roleId permissions =>
      if choice.fails then (.error .failed, tables)
      else
        (.ok (((tables.roles.find? roleId).filter (Role.editable projectId roleId)).map fun role =>
            role.withPermissions permissions),
          tables.updatePermissions projectId roleId permissions)
  | .deleteRole projectId roleId =>
      if choice.fails then (.error .failed, tables) else tables.deleteRole projectId roleId
  | .createInvitation projectId roleId tokenHash =>
      if choice.fails then (.error .failed, tables)
      else tables.createInvitation
        ⟨tokenHash, projectId, roleId, choice.now + inviteTtlSecs, none⟩

/-- A statement of the member handlers, which fails as well where a foreign key would break. -/
def execMember {β : Type} (stmt : Stmt β) (choice : Surroundings) (tables : Tables) : β × Tables :=
  let outcome := exec (tables.directory choice.findUser) stmt
    ⟨choice.fails || tables.dangling stmt, choice.now⟩ tables.db
  (outcome.1, { tables with db := outcome.2 })

def execAny {β : Type} (stmt : AnyStmt β) (choice : Surroundings) (tables : Tables) : β × Tables :=
  match stmt with
  | .inl stmt => execMember stmt choice tables
  | .inr stmt => execTeam stmt choice tables

/-! ## Handlers -/

/-- Who authenticated: an account, or an app token with its projects and permissions. -/
inductive Caller where
  | user (userId : Uuid)
  | appToken (projectIds : List Uuid) (permissions : List Permission)
  deriving DecidableEq, Repr

/-- `INTELLIBOT_USER_ID`. -/
def intellibotUserId : Uuid := 0xb0700000000070008000000000000000

/-- `ProjectContext::from_request_parts`. -/
def loadContext (caller : Caller) (projectId : Uuid) :
    ExceptT Problem (Prog AnyStmt) ProjectContext := do
  match ← orRefuse (.inr (.findProject projectId)) internal with
  | none => throw notFound
  | some isPrivate =>
      match caller with
      | .user userId =>
          let access ← orRefuse (.inl (.access projectId userId)) internal
          let isSuperadmin ← orDefault (.inr (.isActiveSuperadmin userId)) false
          refuseUnless (!(isPrivate && access.isNone && !isSuperadmin)) notFound
          return ⟨projectId, userId, access, isSuperadmin⟩
      | .appToken projectIds permissions =>
          let inScope := projectIds.contains projectId
          refuseUnless (!(isPrivate && !inScope)) notFound
          return ⟨projectId, intellibotUserId,
            if inScope then some ⟨0, false, permissions⟩ else none, false⟩

inductive Reply where
  | member (response : Response)
  | role (role : Role)
  | roleDeleted
  | invited
  | stored
  | problem (problem : Problem)
  deriving DecidableEq, Repr

structure CreateRoleRequest where
  slug : String
  permissions : List Permission
  deriving DecidableEq, Repr

/-- The requests under a project. -/
inductive TeamCall where
  | createRole (body : Parsed CreateRoleRequest)
  | updateRole (roleId : Option Uuid) (body : Parsed (Option (List Permission)))
  | deleteRole (roleId : Option Uuid)
  | addMember (body : Parsed AddMemberRequest)
  | changeMemberRole (target : Option Uuid) (body : Parsed String)
  | removeMember (target : Option Uuid)
  | joinProject (body : Parsed String)
  | invite (body : Parsed String) (tokenHash : Nat)

def createRole (ctx : ProjectContext) (body : Parsed CreateRoleRequest) : Prog AnyStmt Reply :=
  match ctx.require .roleCreate, body with
  | some refusal, _ => return .problem refusal
  | none, .error refusal => return .problem refusal
  | none, .ok req => do
      match ← Prog.call (.inr (.createRole ctx.projectId req.slug req.permissions)) with
      | .ok role => return .role role
      | .error .taken => return .problem (conflict "role slug already exists")
      | .error .failed => return .problem internal

def updateRole (ctx : ProjectContext) (roleId : Option Uuid)
    (body : Parsed (Option (List Permission))) : Prog AnyStmt Reply :=
  match ctx.require .roleModify, roleId, body with
  | some refusal, _, _ => return .problem refusal
  | none, none, _ => return .problem notFound
  | none, some _, .error refusal => return .problem refusal
  | none, some roleId, .ok permissions => do
      match ← Prog.call (.inr (.updatePermissions ctx.projectId roleId permissions)) with
      | .ok (some role) => return .role role
      | .ok none => return .problem notFound
      | .error _ => return .problem internal

def deleteRole (ctx : ProjectContext) (roleId : Option Uuid) : Prog AnyStmt Reply :=
  match ctx.require .roleDelete, roleId with
  | some refusal, _ => return .problem refusal
  | none, none => return .problem notFound
  | none, some roleId => do
      match ← Prog.call (.inr (.deleteRole ctx.projectId roleId)) with
      | .ok true => return .roleDeleted
      | .ok false => return .problem notFound
      | .error _ => return .problem (conflict "role still has members")

/-- `invite`; the token has been generated. -/
def invite (ctx : ProjectContext) (body : Parsed String) (tokenHash : Nat) : Prog AnyStmt Reply :=
  match ctx.require .memberAdd, body with
  | some refusal, _ => return .problem refusal
  | none, .error refusal => return .problem refusal
  | none, .ok slug => do
      match ← Prog.call (.inl (.findRoleBySlug ctx.projectId slug)) with
      | .ok (some role) =>
          match ← Prog.call (.inr (.createInvitation ctx.projectId role.id tokenHash)) with
          | .ok _ => return .invited
          | .error _ => return .problem internal
      | _ => return .problem unknownRole

/-- A member handler among the other statements. -/
def asMember (p : Prog Stmt Response) : Prog AnyStmt Reply := do
  return .member (← p.translate .inl)

def perform (ctx : ProjectContext) : TeamCall → Prog AnyStmt Reply
  | .createRole body => createRole ctx body
  | .updateRole roleId body => updateRole ctx roleId body
  | .deleteRole roleId => deleteRole ctx roleId
  | .addMember body => asMember (addMember ctx body)
  | .changeMemberRole target body => asMember (changeMemberRole ctx target body)
  | .removeMember target => asMember (removeMember ctx target)
  | .joinProject body => asMember (joinProject ctx body)
  | .invite body tokenHash => invite ctx body tokenHash

/-- The requests to a team; that an account gains or loses the platform flag is one of its own. -/
inductive TeamRequest where
  | inProject (caller : Caller) (projectId : Uuid) (call : TeamCall)
  | acceptInvitation (userId : Uuid) (body : Parsed Nat)
  | setSuperadmin (userId : Uuid) (flag : Bool)

def teamHandler : TeamRequest → Prog AnyStmt Reply
  | .inProject caller projectId call => do
      match ← (loadContext caller projectId).run with
      | .ok ctx => perform ctx call
      | .error refusal => return .problem refusal
  | .acceptInvitation userId body => asMember (acceptInvitation userId body)
  | .setSuperadmin userId flag => do
      match ← Prog.call (.inr (.setSuperadmin userId flag)) with
      | .ok _ => return .stored
      | .error _ => return .problem internal

def teamService : Service AnyStmt Tables Surroundings TeamRequest Reply where
  exec := execAny
  handler := teamHandler

end IntelliPilot.Projects
