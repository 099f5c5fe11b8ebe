import IntelliPilot.Http.Problem

/-! # The project context

Who a request under `/projects/{project_id}` comes from, and what that actor
may do there.
-/

namespace IntelliPilot.Projects

abbrev Uuid := Nat

/-- The permissions that the modelled handlers ask for. -/
inductive Permission where
  | projectView
  | projectModify
  | projectDelete
  | memberAdd
  | memberRemove
  | memberModifyRole
  | roleCreate
  | roleModify
  | roleDelete
  | epicView
  | epicCreate
  | epicModify
  | epicDelete
  | issueView
  | issueCreate
  | issueModify
  | issueDelete
  | wikiView
  | wikiCreate
  | wikiModify
  | wikiDelete
  | meetingView
  | meetingCreate
  | meetingModify
  | meetingDelete
  | commentCreate
  | commentModerate
  | attachmentCreate
  | attachmentDelete
  | timeLog
  | timeManage
  | boardSharedCreate
  | boardSharedModify
  | boardSharedDelete
  deriving DecidableEq, Repr

namespace Permission

def isRead : Permission → Bool
  | .projectView | .epicView | .issueView | .wikiView | .meetingView => true
  | _ => false

/-- Reads, and the management of members. -/
def isSuperadminGrant (permission : Permission) : Bool :=
  permission.isRead || permission == .memberAdd || permission == .memberModifyRole ||
    permission == .memberRemove

end Permission

/-- An effective access within a project. -/
structure MemberAccess where
  roleId : Uuid
  isAdmin : Bool
  permissions : List Permission
  deriving DecidableEq, Repr

/-- Admins implicitly hold every permission. -/
def MemberAccess.has (access : MemberAccess) (permission : Permission) : Bool :=
  access.isAdmin || access.permissions.contains permission

structure ProjectContext where
  projectId : Uuid
  actorId : Uuid
  access : Option MemberAccess
  isSuperadmin : Bool
  deriving DecidableEq, Repr

namespace ProjectContext

def has (ctx : ProjectContext) (permission : Permission) : Bool :=
  (ctx.isSuperadmin && permission.isSuperadminGrant) || ctx.access.any (·.has permission)

/-- `require`: the refusal, if the actor lacks the permission. -/
def require (ctx : ProjectContext) (permission : Permission) : Option Http.Problem :=
  if ctx.has permission then none else some Http.forbidden

end ProjectContext

end IntelliPilot.Projects
