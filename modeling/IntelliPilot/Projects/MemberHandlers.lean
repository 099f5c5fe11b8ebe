import IntelliPilot.Projects.Memberships
import IntelliPilot.Statement.Interleaving

/-! # Member handlers

The handlers of `api::projects` that write memberships. Audit entries, which
are best effort, are left out.
-/

namespace IntelliPilot.Projects

open Statement Http

inductive Response where
  | noContent
  | created
  | joined (projectId : Uuid)
  | problem (problem : Problem)
  deriving DecidableEq, Repr

def unknownRole : Problem := ⟨422, "unknown_role", "Unknown role", none⟩

def missingUser : Problem := ⟨422, "missing_user", "Provide user_id or identifier", none⟩

def userNotFound : Problem := ⟨404, "user_not_found", "No such user", none⟩

def invitationConsumed : Problem :=
  ⟨410, "invitation_consumed", "Invitation no longer valid", none⟩

/-- A body that has been read, or why it could not be. -/
abbrev Parsed (α : Type) := Except Problem α

/-- The role of a slug; a lookup that fails counts as a miss. -/
def requestedRole (projectId : Uuid) (slug : String) : Prog Stmt (Option Role) := do
  match ← Prog.call (.findRoleBySlug projectId slug) with
  | .ok role => return role
  | .error _ => return none

/-- The check of `change_member_role` and `remove_member`: whether the write
would take the last admin. It is skipped where the access lookup fails. -/
def lastAdmin (projectId target : Uuid) (keepsAdmin : Bool) : Prog Stmt Bool := do
  match ← Prog.call (.access projectId target) with
  | .ok (some access) =>
      if access.isAdmin && !keepsAdmin then
        match ← Prog.call (.adminCount projectId) with
        | .ok count => return decide (count ≤ 1)
        | .error _ => return true
      else return false
  | _ => return false

/-- What both handlers answer to the count of rows written. -/
def written (result : Except DbError Bool) : Response :=
  match result with
  | .ok true => .noContent
  | .ok false => .problem notFound
  | .error _ => .problem internal

/-- `change_member_role`; `target` is `none` where the path does not parse. -/
def changeMemberRole (ctx : ProjectContext) (target : Option Uuid) (body : Parsed String) :
    Prog Stmt Response :=
  match ctx.require .memberModifyRole, target, body with
  | some refusal, _, _ => return .problem refusal
  | none, none, _ => return .problem notFound
  | none, some _, .error refusal => return .problem refusal
  | none, some target, .ok slug => do
      match ← requestedRole ctx.projectId slug with
      | none => return .problem unknownRole
      | some role =>
          if ← lastAdmin ctx.projectId target role.isAdmin then
            return .problem (conflict "cannot demote the last admin")
          else return written (← Prog.call (.changeRole ctx.projectId target role.id))

/-- `remove_member`; leaving needs no permission. -/
def removeMember (ctx : ProjectContext) (target : Option Uuid) : Prog Stmt Response :=
  match target with
  | none => return .problem notFound
  | some target =>
      match if target = ctx.actorId then none else ctx.require .memberRemove with
      | some refusal => return .problem refusal
      | none => do
          if ← lastAdmin ctx.projectId target false then
            return .problem (conflict "cannot remove the last admin")
          else return written (← Prog.call (.remove ctx.projectId target))

structure AddMemberRequest where
  userId : Option Uuid
  identifier : Option String
  role : String
  deriving DecidableEq, Repr

/-- By id first, else by a non-empty identifier. -/
def AddMemberRequest.user (req : AddMemberRequest) : Option UserRef :=
  match req.userId with
  | some id => some (.id id)
  | none => (req.identifier.map fun s => s.trimAscii.toString).bind fun s =>
      if s.isEmpty then none else some (.identifier s)

/-- `add_member`. -/
def addMember (ctx : ProjectContext) (body : Parsed AddMemberRequest) : Prog Stmt Response :=
  match ctx.require .memberAdd, body with
  | some refusal, _ => return .problem refusal
  | none, .error refusal => return .problem refusal
  | none, .ok req =>
      match req.user with
      | none => return .problem missingUser
      | some ref => do
          match ← Prog.call (.findUser ref) with
          | .ok (some userId) =>
              match ← requestedRole ctx.projectId req.role with
              | none => return .problem unknownRole
              | some role =>
                  match ← Prog.call (.access ctx.projectId userId) with
                  | .ok (some _) => return .problem (conflict "user is already a member")
                  | _ =>
                      match ← Prog.call (.upsert ctx.projectId userId role.id) with
                      | .ok _ => return .created
                      | .error _ => return .problem internal
          | _ => return .problem userNotFound

/-- `join_project`, for a superadmin who is not a member. -/
def joinProject (ctx : ProjectContext) (body : Parsed String) : Prog Stmt Response :=
  if !ctx.isSuperadmin then return .problem forbidden
  else if ctx.access.isSome then return .problem (conflict "user is already a member")
  else
    match body with
    | .error refusal => return .problem refusal
    | .ok slug => do
        match ← requestedRole ctx.projectId slug with
        | none => return .problem unknownRole
        | some role =>
            match ← Prog.call (.upsert ctx.projectId ctx.actorId role.id) with
            | .ok _ => return .created
            | .error _ => return .problem internal

/-- `accept_invitation`, for the hash of the presented token. -/
def acceptInvitation (userId : Uuid) (body : Parsed Nat) : Prog Stmt Response :=
  match body with
  | .error refusal => return .problem refusal
  | .ok tokenHash => do
      match ← Prog.call (.findPending tokenHash) with
      | .error _ => return .problem internal
      | .ok none =>
          match ← Prog.call (.invitationExists tokenHash) with
          | .ok true => return .problem invitationConsumed
          | _ => return .problem notFound
      | .ok (some invitation) =>
          match ← Prog.call (.markAccepted tokenHash) with
          | .ok false => return .problem invitationConsumed
          | .error _ => return .problem internal
          | .ok true =>
              match ← Prog.call (.upsert invitation.projectId userId invitation.roleId) with
              | .ok _ => return .joined invitation.projectId
              | .error _ => return .problem internal

inductive Request where
  | changeMemberRole (ctx : ProjectContext) (target : Option Uuid) (body : Parsed String)
  | removeMember (ctx : ProjectContext) (target : Option Uuid)
  | addMember (ctx : ProjectContext) (body : Parsed AddMemberRequest)
  | joinProject (ctx : ProjectContext) (body : Parsed String)
  | acceptInvitation (userId : Uuid) (body : Parsed Nat)

def handler : Request → Prog Stmt Response
  | .changeMemberRole ctx target body => Projects.changeMemberRole ctx target body
  | .removeMember ctx target => Projects.removeMember ctx target
  | .addMember ctx body => Projects.addMember ctx body
  | .joinProject ctx body => Projects.joinProject ctx body
  | .acceptInvitation userId body => Projects.acceptInvitation userId body

/-- The member endpoints of a server with the given roles and accounts. -/
def memberService (dir : Directory) : Service Stmt Db Choice Request Response where
  exec := exec dir
  handler := handler

end IntelliPilot.Projects
