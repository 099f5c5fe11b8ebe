import IntelliPilot.Projects.Teams

/-! # Who makes an administrator

No request changes which roles are admin roles, so a user comes to hold one by
a write to the memberships: a role change, an added member, a superadmin who
joins, or an invitation accepted. The gate of all of them is the permission to
manage members, which a role may grant without being an admin role.
-/

namespace IntelliPilot.Projects

open Statement Rows Http
open Service (initial)

abbrev TeamEvent := Event AnyStmt TeamRequest Reply

abbrev TeamWorld := World AnyStmt Tables TeamRequest Reply

namespace Tables

/-- The user is an admin member of the project. -/
def admin (tables : Tables) (projectId userId : Uuid) : Bool :=
  (tables.db.memberships.find? (projectId, userId)).any fun row => tables.isAdmin row.roleId

/-- `memberships::access`. -/
def access (tables : Tables) (projectId userId : Uuid) : Option MemberAccess :=
  tables.db.access (tables.directory fun _ => none) projectId userId

/-- An admin member of the project, or a superadmin. -/
def administrator (tables : Tables) (projectId : Uuid) : Caller → Bool
  | .user userId => tables.superadmins.contains userId || tables.admin projectId userId
  | .appToken _ _ => false

/-- The caller has a permission to manage members. -/
def holds (tables : Tables) (projectId : Uuid) (permission : Permission) : Caller → Bool
  | .user userId =>
      tables.superadmins.contains userId || (tables.access projectId userId).any (·.has permission)
  | .appToken projectIds permissions =>
      projectIds.contains projectId && permissions.contains permission

/-- The caller has the permission that a call asks for; joining is for superadmins. -/
def entitled (tables : Tables) (projectId : Uuid) (caller : Caller) : TeamCall → Bool
  | .addMember _ | .invite _ _ => tables.holds projectId .memberAdd caller
  | .changeMemberRole _ _ => tables.holds projectId .memberModifyRole caller
  | .joinProject _ =>
      match caller with
      | .user userId => tables.superadmins.contains userId
      | .appToken _ _ => false
  | _ => false

/-- Roles and members to begin with, and no invitations. -/
def start (roles : Table Role.id) (memberships : Table Membership.key) (superadmins : List Uuid) :
    Tables := ⟨roles, ⟨memberships, []⟩, superadmins⟩

end Tables

/-- Where a request began, and the caller was found fit for it afterwards. -/
def FoundFit (fit : Tables → Uuid → Caller → TeamCall → Bool) (tables : Tables)
    (labels : List (Label TeamRequest Surroundings)) (i : Nat) (projectId : Uuid) (caller : Caller)
    (call : TeamCall) : Prop :=
  ∃ first rest, labels = first ++ rest ∧
    (i, .began (.inProject caller projectId call)) ∈
      (teamService.run (initial tables) first).world.log ∧
    fit (teamService.run (initial tables) first).world.state projectId caller call = true

/-- Whenever a user comes to hold an admin role, it was assigned by a caller found fit for it, or
the user accepted an invitation to it that was issued by such a caller. -/
def MadeBy (fit : Tables → Uuid → Caller → TeamCall → Bool) (tables : Tables)
    (labels : List (Label TeamRequest Surroundings)) : Prop :=
  ∀ first label last, labels = first ++ label :: last → ∀ projectId userId,
    (teamService.run (initial tables) first).world.state.admin projectId userId = false →
    (teamService.run (initial tables) (first ++ [label])).world.state.admin
      projectId userId = true →
    (∃ caller call, FoundFit fit tables first
      (Service.actor (teamService.run (initial tables) first) label)
      projectId caller call) ∨
    ∃ tokenHash roleId j caller body,
      (Service.actor (teamService.run (initial tables) first) label,
        .began (.acceptInvitation userId (.ok tokenHash))) ∈
          (teamService.run (initial tables) first).world.log ∧
      (j, .ran (.inr (.createInvitation projectId roleId tokenHash)) (.ok ())) ∈
        (teamService.run (initial tables) first).world.log ∧
      FoundFit fit tables first j projectId caller (.invite body tokenHash)

/-! ## What the statements do -/

/-- The member and the role that a statement would put together. -/
def assigns {β : Type} : Stmt β → Option (Uuid × Uuid × Uuid)
  | .changeRole projectId userId roleId => some (projectId, userId, roleId)
  | .upsert projectId userId roleId => some (projectId, userId, roleId)
  | _ => none

variable {β : Type}

/-- What a statement of the team handlers leaves alone: the members, which roles are admin roles,
and the invitations but for the one it issues. -/
structure Mild (event : TeamEvent) (tables tables' : Tables) : Prop where
  memberships : tables'.db.memberships = tables.db.memberships
  admins : ∀ roleId, tables'.isAdmin roleId = tables.isAdmin roleId
  invitations : ∀ invitation ∈ tables'.db.invitations, invitation ∈ tables.db.invitations ∨
    event = .ran (.inr (.createInvitation invitation.projectId invitation.roleId
      invitation.tokenHash)) (.ok ())

theorem mild_execTeam (stmt : TeamStmt β) (choice : Surroundings) (tables : Tables) :
    Mild (.ran (.inr stmt) (execTeam stmt choice tables).1) tables
      (execTeam stmt choice tables).2 := by
  have hsame : ∀ event, Mild event tables tables := fun _ => ⟨rfl, fun _ => rfl, fun _ h => .inl h⟩
  cases hfails : choice.fails with
  | true =>
    cases stmt <;>
    · simp only [execTeam, hfails, if_true]
      exact hsame _
  | false =>
    cases stmt <;> simp only [execTeam, hfails, Bool.false_eq_true, if_false]
    case findProject p => exact hsame _
    case isActiveSuperadmin a => exact hsame _
    case setSuperadmin a flag => exact ⟨rfl, fun _ => rfl, fun _ h => .inl h⟩
    case createRole p slug permissions =>
      simp only [Tables.createRole]
      split
      · exact hsame _
      · cases hinsert : tables.roles.insert? ⟨choice.newId, p, slug, false, permissions⟩ with
        | none => exact hsame _
        | some roles =>
          refine ⟨rfl, fun roleId => ?_, fun _ h => .inl h⟩
          simp only [Tables.isAdmin, Table.find?_insert? hinsert]
          split
          · rename_i heq
            rw [heq, Table.insert?_fresh hinsert]
            rfl
          · rfl
    case updatePermissions p id permissions =>
      refine ⟨rfl, fun roleId => ?_, fun _ h => .inl h⟩
      have h := Table.find?_modify tables.roles (Role.editable p id)
        (fun role => role.withPermissions permissions)
        (fun role => role.id_withPermissions permissions) roleId
      simp only [Tables.isAdmin, Tables.updatePermissions, h]
      cases tables.roles.find? roleId with
      | none => rfl
      | some role =>
        rw [Option.map_some, Option.any_some, Option.any_some]
        split
        · rfl
        · rfl
    case deleteRole p id =>
      simp only [Tables.deleteRole]
      split
      · split
        · exact hsame _
        · refine ⟨rfl, fun roleId => ?_, fun _ h => .inl (mem_deleteWhere.mp h).1⟩
          simp only [Tables.isAdmin, Table.find?_erase]
          cases tables.roles.find? roleId with
          | none => rfl
          | some role =>
            -- only roles that are no admin roles are erased
            by_cases heditable : role.editable p id = true
            · have hadmin : role.isAdmin = false := by
                rw [Role.editable, Bool.and_eq_true, Bool.not_eq_true'] at heditable
                exact heditable.2
              simp [Option.filter, heditable, hadmin]
            · simp [Option.filter, heditable]
      · exact hsame _
    case createInvitation p id tokenHash =>
      simp only [Tables.createInvitation]
      split
      · exact hsame _
      · refine ⟨rfl, fun _ => rfl, fun invitation hmem => ?_⟩
        rcases List.mem_append.mp hmem with hold | hnew
        · exact .inl hold
        · obtain rfl := List.mem_singleton.mp hnew
          exact .inr rfl

variable {dir : Directory} {projectId : Uuid} {stmt : Stmt β}

/-- Only a statement that assigns an admin role makes an admin. -/
theorem assigns_of_gained {userId : Uuid} {choice : Choice} {db : Db}
    (hbefore : db.admin dir projectId userId = false)
    (hafter : (exec dir stmt choice db).2.admin dir projectId userId = true) :
    ∃ roleId, assigns stmt = some (projectId, userId, roleId) := by
  have hsame : (exec dir stmt choice db).2 ≠ db := by
    intro heq
    rw [heq, hbefore] at hafter
    cases hafter
  cases hfails : choice.fails with
  | true =>
    apply absurd _ hsame
    cases stmt <;> simp only [exec, attempt_failed hfails]
  | false =>
    cases stmt with
    | changeRole p target roleId =>
      simp only [exec, attempt_ok hfails, Db.admin_setRole] at hafter
      split at hafter
      · rename_i heq
        obtain ⟨rfl, rfl⟩ := Prod.mk.inj heq
        exact ⟨roleId, rfl⟩
      · rw [hbefore] at hafter
        cases hafter
    | remove p target =>
      simp only [exec, attempt_ok hfails, Db.admin_remove, hbefore, Bool.false_and] at hafter
      cases hafter
    | upsert p target roleId =>
      simp only [exec, attempt_ok hfails, Db.admin_upsert] at hafter
      split at hafter
      · rename_i heq
        obtain ⟨rfl, rfl⟩ := Prod.mk.inj heq
        exact ⟨roleId, rfl⟩
      · rw [hbefore] at hafter
        cases hafter
    | markAccepted tokenHash =>
      simp only [exec, attempt_ok hfails, Db.admin_markAccepted, hbefore] at hafter
      cases hafter
    | findRoleBySlug p slug | findUser ref | access p target | adminCount p
    | findPending tokenHash | invitationExists tokenHash =>
      exact absurd (by simp only [exec, attempt_ok hfails]) hsame

theorem admin_execAny (stmt : AnyStmt β) (choice : Surroundings) (tables : Tables) {userId : Uuid}
    (hbefore : tables.admin projectId userId = false)
    (hafter : (execAny stmt choice tables).2.admin projectId userId = true) :
    ∃ member roleId, stmt = .inl member ∧ assigns member = some (projectId, userId, roleId) := by
  cases stmt with
  | inl stmt =>
    have hbefore : tables.db.admin (tables.directory choice.findUser) projectId userId = false :=
      hbefore
    obtain ⟨roleId, hassigns⟩ := assigns_of_gained hbefore hafter
    exact ⟨stmt, roleId, rfl, hassigns⟩
  | inr stmt =>
    have hsame : (execAny (.inr stmt) choice tables).2.admin projectId userId =
        tables.admin projectId userId := by
      have hmild := mild_execTeam stmt choice tables
      rw [Tables.admin, execAny, hmild.memberships, Tables.admin]
      simp only [hmild.admins]
    rw [hsame, hbefore] at hafter
    cases hafter

/-! ## What the handlers tell -/

/-- What the request has read says that the caller has a permission to manage members. -/
def Shown (projectId : Uuid) (permission : Permission) (caller : Caller)
    (events : List TeamEvent) : Prop :=
  match caller with
  | .user userId =>
      .ran (.inr (.isActiveSuperadmin userId)) (.ok true) ∈ events ∨
        ∃ access, .ran (.inl (.access projectId userId)) (.ok (some access)) ∈ events ∧
          access.has permission = true
  | .appToken projectIds permissions => projectId ∈ projectIds ∧ permission ∈ permissions

/-- What the request has read says that the caller is a superadmin. -/
def ShownSuperadmin (caller : Caller) (events : List TeamEvent) : Prop :=
  ∃ userId, caller = .user userId ∧
    .ran (.inr (.isActiveSuperadmin userId)) (.ok true) ∈ events

/-- What the request has read entitles the caller to a call. -/
def ShownFit (projectId : Uuid) (caller : Caller) (events : List TeamEvent) : TeamCall → Prop
  | .addMember _ | .invite _ _ => Shown projectId .memberAdd caller events
  | .changeMemberRole _ _ => Shown projectId .memberModifyRole caller events
  | .joinProject _ => ShownSuperadmin caller events
  | _ => False

/-- What stands behind a membership that a request is about to write. -/
def Warranted (events : List TeamEvent) (projectId userId roleId : Uuid) : TeamRequest → Prop
  | .inProject caller p call => p = projectId ∧ ShownFit projectId caller events call
  | .acceptInvitation user body =>
      user = userId ∧ ∃ tokenHash invitation, body = .ok tokenHash ∧
        .ran (.inl (.findPending tokenHash)) (.ok (some invitation)) ∈ events ∧
        invitation.projectId = projectId ∧ invitation.roleId = roleId
  | .setSuperadmin _ _ => False

/-- What stands behind an invitation that a request is about to write. -/
def Issued (events : List TeamEvent) (projectId : Uuid) (tokenHash : Nat) : TeamRequest → Prop
  | .inProject caller p (.invite _ hash) =>
      p = projectId ∧ hash = tokenHash ∧ Shown projectId .memberAdd caller events
  | _ => False

/-- The statement is one that the request may issue after what it has read. -/
def May (request : TeamRequest) (events : List TeamEvent) {β : Type} : AnyStmt β → Prop
  | .inl stmt => ∀ projectId userId roleId, assigns stmt = some (projectId, userId, roleId) →
      Warranted events projectId userId roleId request
  | .inr (.createInvitation projectId _ tokenHash) => Issued events projectId tokenHash request
  | .inr _ => True

/-- Each statement of the request was one it might issue. -/
def Rightful (request : TeamRequest) : List TeamEvent → Prop
  | .ran stmt _ :: earlier => May request earlier stmt
  | _ => True

section Grown

variable {events : List TeamEvent} {event : TeamEvent}

theorem Shown.grown {projectId : Uuid} {permission : Permission} {caller : Caller}
    (h : Shown projectId permission caller events) :
    Shown projectId permission caller (event :: events) := by
  cases caller with
  | user userId =>
    rcases h with hsuper | ⟨access, hread, hhas⟩
    · exact .inl (List.mem_cons_of_mem _ hsuper)
    · exact .inr ⟨access, List.mem_cons_of_mem _ hread, hhas⟩
  | appToken projectIds permissions => exact h

theorem ShownSuperadmin.grown {caller : Caller} (h : ShownSuperadmin caller events) :
    ShownSuperadmin caller (event :: events) := by
  obtain ⟨userId, hcaller, hread⟩ := h
  exact ⟨userId, hcaller, List.mem_cons_of_mem _ hread⟩

end Grown

/-- The context of a request, and what it was made of. -/
structure Loaded (caller : Caller) (projectId : Uuid) (ctx : ProjectContext)
    (events : List TeamEvent) : Prop where
  project : ctx.projectId = projectId
  shown : ∀ permission, ctx.has permission = true → Shown projectId permission caller events
  superadmin : ctx.isSuperadmin = true → ShownSuperadmin caller events

variable {ctx : ProjectContext} {events : List TeamEvent} {caller : Caller}

theorem Loaded.grown (h : Loaded caller projectId ctx events) (event : TeamEvent) :
    Loaded caller projectId ctx (event :: events) where
  project := h.project
  shown permission hhas := (h.shown permission hhas).grown
  superadmin hsuper := (h.superadmin hsuper).grown

theorem may_of_none {request : TeamRequest} (stmt : Stmt β) (h : assigns stmt = none) :
    May request events (.inl stmt) := by
  intro projectId userId roleId hassigns
  rw [h] at hassigns
  cases hassigns

theorem recounts_loadContext (request : TeamRequest) (caller : Caller) (projectId : Uuid)
    (events : List TeamEvent) :
    Recounts (Rightful request) (loadContext caller projectId) (Loaded caller projectId)
      (fun _ _ => True) events := by
  have haccessRead : ∀ userId (result : Except DbError (Option MemberAccess)) events,
      Rightful request (.ran (.inl (.access projectId userId)) result :: events) :=
    fun userId result events => may_of_none (.access projectId userId) rfl
  unfold loadContext
  apply recounts_bind (S := fun _ _ => True) (recounts_orRefuse (fun _ => trivial)
    (fun _ => trivial) fun _ => trivial)
  intro found events _
  cases found with
  | none => exact recounts_throw trivial
  | some isPrivate =>
    cases caller with
    | user userId =>
      apply recounts_bind (S := fun access events =>
        .ran (.inl (.access projectId userId)) (.ok access) ∈ events)
        (recounts_orRefuse (fun _ => haccessRead _ _ _) (fun _ => List.mem_cons_self)
          fun _ => trivial)
      intro access events haccess
      apply recounts_bind (S := fun isSuperadmin events =>
        .ran (.inl (.access projectId userId)) (.ok access) ∈ events ∧
          (isSuperadmin = true →
            .ran (.inr (.isActiveSuperadmin userId)) (.ok true) ∈ events))
        (recounts_orDefault (fun _ => trivial) ?_ ?_)
      · intro isSuperadmin events hloaded
        apply recounts_bind (S := fun _ events =>
          .ran (.inl (.access projectId userId)) (.ok access) ∈ events ∧
            (isSuperadmin = true →
              .ran (.inr (.isActiveSuperadmin userId)) (.ok true) ∈ events))
          (recounts_refuseUnless (fun _ => hloaded) fun _ => trivial)
        intro _ events hloaded
        apply recounts_pure
        constructor
        · rfl
        · intro permission hhas
          rw [ProjectContext.has, Bool.or_eq_true, Bool.and_eq_true] at hhas
          rcases hhas with ⟨hsuper, _⟩ | hrole
          · exact .inl (hloaded.2 hsuper)
          · obtain ⟨access, rfl, hhas⟩ := (Option.any_eq_true _ _).mp hrole
            exact .inr ⟨access, hloaded.1, hhas⟩
        · intro hsuper
          exact ⟨userId, rfl, hloaded.2 hsuper⟩
      · intro isSuperadmin
        refine ⟨List.mem_cons_of_mem _ haccess, ?_⟩
        rintro rfl
        exact List.mem_cons_self
      · exact fun _ => ⟨List.mem_cons_of_mem _ haccess, fun h => by cases h⟩
    | appToken projectIds permissions =>
      apply recounts_bind (S := fun _ _ => True)
        (recounts_refuseUnless (fun _ => trivial) fun _ => trivial)
      intro _ events _
      apply recounts_pure
      constructor
      · rfl
      · intro permission hhas
        rw [ProjectContext.has, Bool.false_and, Bool.false_or] at hhas
        obtain ⟨access, haccess, hhas⟩ := (Option.any_eq_true _ _).mp hhas
        split at haccess
        · rename_i hscope
          cases haccess
          rw [MemberAccess.has, Bool.false_or, List.contains_iff_mem] at hhas
          exact ⟨List.contains_iff_mem.mp hscope, hhas⟩
        · cases haccess
      · intro hsuper
        cases hsuper

/-- Memberships are written only in the project of the context, and only if `ok`. -/
def Bounded (ctx : ProjectContext) (ok : Prop) {β : Type} (stmt : Stmt β) : Prop :=
  ∀ projectId userId roleId, assigns stmt = some (projectId, userId, roleId) →
    projectId = ctx.projectId ∧ ok

variable {ok : Prop}

theorem bounded_of_none (h : assigns stmt = none) : Bounded ctx ok stmt := by
  intro projectId userId roleId hassigns
  rw [h] at hassigns
  cases hassigns

theorem bounded_changeRole (hok : ok) (userId roleId : Uuid) :
    Bounded ctx ok (.changeRole ctx.projectId userId roleId) := by
  intro projectId user role hassigns
  cases hassigns
  exact ⟨rfl, hok⟩

theorem bounded_upsert (hok : ok) (userId roleId : Uuid) :
    Bounded ctx ok (.upsert ctx.projectId userId roleId) := by
  intro projectId user role hassigns
  cases hassigns
  exact ⟨rfl, hok⟩

theorem has_of_require {permission : Permission} (h : ctx.require permission = none) :
    ctx.has permission = true := by
  unfold ProjectContext.require at h
  split at h
  · assumption
  · cases h

section Bounded

variable (ctx : ProjectContext) {ok : Prop}

theorem only_requestedRole (projectId : Uuid) (slug : String) :
    (requestedRole projectId slug).Only (Bounded ctx ok) := by
  refine ⟨bounded_of_none rfl, ?_⟩
  intro result
  cases result with
  | error e => trivial
  | ok role => trivial

theorem only_lastAdmin (projectId target : Uuid) (keepsAdmin : Bool) :
    (lastAdmin projectId target keepsAdmin).Only (Bounded ctx ok) := by
  refine ⟨bounded_of_none rfl, ?_⟩
  intro result
  rcases result with e | (_ | access)
  · trivial
  · trivial
  · dsimp only [Prog.bind]
    split
    · refine ⟨bounded_of_none rfl, ?_⟩
      intro count
      cases count with
      | error e => trivial
      | ok count => trivial
    · trivial

theorem only_changeMemberRole (target : Option Uuid) (body : Parsed String) :
    (changeMemberRole ctx target body).Only (Bounded ctx (ctx.has .memberModifyRole = true)) := by
  unfold changeMemberRole
  split
  · trivial
  · trivial
  · trivial
  · rename_i hrequire
    apply Prog.only_bind (only_requestedRole ctx _ _)
    intro role
    cases role with
    | none => trivial
    | some role =>
      apply Prog.only_bind (only_lastAdmin ctx _ _ _)
      intro last
      cases last with
      | true => trivial
      | false => exact ⟨bounded_changeRole (has_of_require hrequire) _ _, fun _ => trivial⟩

theorem only_removeMember (target : Option Uuid) :
    (removeMember ctx target).Only (Bounded ctx False) := by
  cases target with
  | none => trivial
  | some target =>
    simp only [removeMember]
    split
    · trivial
    · apply Prog.only_bind (only_lastAdmin ctx _ _ _)
      intro last
      cases last with
      | true => trivial
      | false => exact ⟨bounded_of_none rfl, fun _ => trivial⟩

theorem only_addMember (body : Parsed AddMemberRequest) :
    (addMember ctx body).Only (Bounded ctx (ctx.has .memberAdd = true)) := by
  unfold addMember
  split
  · trivial
  · trivial
  · rename_i req hrequire
    cases req.user with
    | none => trivial
    | some ref =>
      refine ⟨bounded_of_none rfl, ?_⟩
      rintro (e | (_ | userId))
      · trivial
      · trivial
      · apply Prog.only_bind (only_requestedRole ctx _ _)
        intro role
        cases role with
        | none => trivial
        | some role =>
          refine ⟨bounded_of_none rfl, ?_⟩
          rintro (e | (_ | access))
          · refine ⟨bounded_upsert (has_of_require hrequire) _ _, ?_⟩
            rintro (e | written) <;> trivial
          · refine ⟨bounded_upsert (has_of_require hrequire) _ _, ?_⟩
            rintro (e | written) <;> trivial
          · trivial

theorem only_joinProject (body : Parsed String) :
    (joinProject ctx body).Only (Bounded ctx (ctx.isSuperadmin = true)) := by
  unfold joinProject
  split
  · trivial
  · rename_i hsuper
    have hsuper : ctx.isSuperadmin = true := by simpa using hsuper
    split
    · trivial
    · split
      · trivial
      · apply Prog.only_bind (only_requestedRole ctx _ _)
        intro role
        cases role with
        | none => trivial
        | some role =>
          refine ⟨bounded_upsert hsuper _ _, ?_⟩
          rintro (e | written) <;> trivial

end Bounded

/-- A part of a handler whose writes are all warranted. -/
theorem tells_of_only {request : TeamRequest} {p : Prog Stmt Response}
    (hp : p.Only (Bounded ctx ok))
    (hmay : ∀ events, ok → Loaded caller projectId ctx events → ∀ userId roleId,
      Warranted events ctx.projectId userId roleId request)
    (hloaded : Loaded caller projectId ctx events) :
    (asMember p).Tells (Rightful request) (fun _ _ => True) events := by
  let translated : Prog AnyStmt Response := p.translate .inl
  have honly : translated.Only fun stmt => ∃ member, stmt = .inl member ∧ Bounded ctx ok member :=
    Prog.only_translate (hp.mono fun stmt h => ⟨stmt, rfl, h⟩)
  have htells : translated.Tells (Rightful request) (fun _ => Loaded caller projectId ctx)
      events := by
    apply Prog.tells_only _ honly hloaded
    rintro β stmt result events ⟨member, rfl, hbounded⟩ hloaded
    refine ⟨?_, hloaded.grown _⟩
    intro p userId roleId hassigns
    obtain ⟨rfl, hok⟩ := hbounded p userId roleId hassigns
    exact hmay events hok hloaded userId roleId
  exact Prog.tells_bind htells fun _ _ _ => trivial

theorem tells_createRole (request : TeamRequest) (ctx : ProjectContext)
    (body : Parsed CreateRoleRequest) (events : List TeamEvent) :
    (createRole ctx body).Tells (Rightful request) (fun _ _ => True) events := by
  unfold createRole
  split
  · trivial
  · trivial
  · intro result
    refine ⟨trivial, ?_⟩
    rcases result with (_ | _) | role <;> trivial

theorem tells_updateRole (request : TeamRequest) (ctx : ProjectContext) (roleId : Option Uuid)
    (body : Parsed (Option (List Permission))) (events : List TeamEvent) :
    (updateRole ctx roleId body).Tells (Rightful request) (fun _ _ => True) events := by
  unfold updateRole
  split
  · trivial
  · trivial
  · trivial
  · intro result
    refine ⟨trivial, ?_⟩
    rcases result with e | (_ | role) <;> trivial

theorem tells_deleteRole (request : TeamRequest) (ctx : ProjectContext) (roleId : Option Uuid)
    (events : List TeamEvent) :
    (deleteRole ctx roleId).Tells (Rightful request) (fun _ _ => True) events := by
  unfold deleteRole
  split
  · trivial
  · trivial
  · intro result
    refine ⟨trivial, ?_⟩
    rcases result with e | (_ | _) <;> trivial

theorem tells_invite (body : Parsed String) (tokenHash : Nat)
    (hloaded : Loaded caller projectId ctx events) :
    (invite ctx body tokenHash).Tells
      (Rightful (.inProject caller projectId (.invite body tokenHash))) (fun _ _ => True)
      events := by
  unfold invite
  split
  · trivial
  · trivial
  · rename_i slug hrequire
    intro result
    refine ⟨may_of_none (.findRoleBySlug ctx.projectId slug) rfl, ?_⟩
    rcases result with e | (_ | role)
    · trivial
    · trivial
    · intro written
      constructor
      · have hshown := (hloaded.grown (.ran (.inl (.findRoleBySlug ctx.projectId slug))
          (.ok (some role)))).shown .memberAdd (has_of_require hrequire)
        rw [← hloaded.project] at hshown
        exact ⟨hloaded.project.symm, rfl, hshown⟩
      · cases written with
        | error e => trivial
        | ok _ => trivial

theorem tells_perform (call : TeamCall) (hloaded : Loaded caller projectId ctx events) :
    (perform ctx call).Tells (Rightful (.inProject caller projectId call)) (fun _ _ => True)
      events := by
  cases call with
  | createRole body => exact tells_createRole _ ctx body events
  | updateRole roleId body => exact tells_updateRole _ ctx roleId body events
  | deleteRole roleId => exact tells_deleteRole _ ctx roleId events
  | invite body tokenHash => exact tells_invite body tokenHash hloaded
  | addMember body =>
    apply tells_of_only (only_addMember ctx body) _ hloaded
    intro events hhas hloaded userId roleId
    refine ⟨hloaded.project.symm, ?_⟩
    rw [hloaded.project]
    exact hloaded.shown .memberAdd hhas
  | changeMemberRole target body =>
    apply tells_of_only (only_changeMemberRole ctx target body) _ hloaded
    intro events hhas hloaded userId roleId
    refine ⟨hloaded.project.symm, ?_⟩
    rw [hloaded.project]
    exact hloaded.shown .memberModifyRole hhas
  | removeMember target =>
    apply tells_of_only (only_removeMember ctx target) _ hloaded
    exact fun _ hfalse => hfalse.elim
  | joinProject body =>
    apply tells_of_only (only_joinProject ctx body) _ hloaded
    intro events hsuper hloaded userId roleId
    exact ⟨hloaded.project.symm, hloaded.superadmin hsuper⟩

theorem tells_acceptInvitation (userId : Uuid) (body : Parsed Nat) (events : List TeamEvent) :
    (asMember (acceptInvitation userId body)).Tells
      (Rightful (.acceptInvitation userId body)) (fun _ _ => True) events := by
  cases body with
  | error refusal => trivial
  | ok tokenHash =>
    intro found
    refine ⟨may_of_none (.findPending tokenHash) rfl, ?_⟩
    rcases found with e | (_ | invitation)
    · trivial
    · intro known
      refine ⟨may_of_none (.invitationExists tokenHash) rfl, ?_⟩
      rcases known with e | (_ | _) <;> trivial
    · intro marked
      refine ⟨may_of_none (.markAccepted tokenHash) rfl, ?_⟩
      rcases marked with e | (_ | _)
      · trivial
      · trivial
      · intro written
        constructor
        · intro projectId user roleId hassigns
          cases hassigns
          refine ⟨rfl, tokenHash, invitation, rfl, ?_, rfl, rfl⟩
          exact List.mem_cons_of_mem _ List.mem_cons_self
        · cases written with
          | error e => trivial
          | ok _ => trivial

/-- Every request issues only what it may. -/
theorem tellsAll_rightful : teamService.TellsAll Rightful := by
  intro request
  refine ⟨trivial, ?_⟩
  have hdone : ∀ answer events, True → Rightful request (.answered request answer :: events) :=
    fun _ _ _ => trivial
  cases request with
  | inProject caller projectId call =>
    apply Prog.tells_bind (recounts_loadContext _ caller projectId _)
    rintro (refusal | ctx) events hloaded
    · trivial
    · exact (tells_perform call hloaded).post hdone
  | acceptInvitation userId body => exact (tells_acceptInvitation userId body _).post hdone
  | setSuperadmin userId flag =>
    intro result
    refine ⟨trivial, ?_⟩
    cases result with
    | error e => trivial
    | ok _ => trivial

/-! ## Where invitations come from -/

/-- The invitation was issued by a request of the log. -/
def IssuedIn (w : TeamWorld) (invitation : Invitation) : Prop :=
  ∃ j, (j, .ran (.inr (.createInvitation invitation.projectId invitation.roleId
    invitation.tokenHash)) (.ok ())) ∈ w.log

/-- The token that a statement looked up, and the invitation it found. -/
def foundPending {β : Type} (stmt : Stmt β) : β → Option (Nat × Invitation) :=
  match stmt with
  | .findPending tokenHash => fun result =>
      match result with
      | .ok (some invitation) => some (tokenHash, invitation)
      | _ => none
  | _ => fun _ => none

def TeamEvent.foundPending : TeamEvent → Option (Nat × Invitation)
  | .ran (.inl stmt) result => Projects.foundPending stmt result
  | _ => none

/-- Every invitation that is stored, or has been found by its token, was issued. -/
structure Traceable (w : TeamWorld) : Prop where
  stored : ∀ invitation ∈ w.state.db.invitations, IssuedIn w invitation
  found : ∀ entry ∈ w.log, ∀ tokenHash invitation,
    TeamEvent.foundPending entry.2 = some (tokenHash, invitation) →
      invitation.tokenHash = tokenHash ∧ IssuedIn w invitation

variable {invitation : Invitation}

theorem foundPending_exec {choice : Choice} {db : Db} {tokenHash : Nat}
    (h : foundPending stmt (exec dir stmt choice db).1 = some (tokenHash, invitation)) :
    invitation ∈ db.invitations ∧ invitation.tokenHash = tokenHash := by
  cases stmt with
  | findPending hash =>
    cases hfails : choice.fails with
    | true =>
      simp only [exec, attempt_failed hfails, foundPending] at h
      cases h
    | false =>
      simp only [exec, attempt_ok hfails, foundPending] at h
      cases hfind : db.invitations.find? (Db.pending hash choice.now) with
      | none =>
        rw [hfind] at h
        cases h
      | some found =>
        rw [hfind] at h
        cases h
        have hpending := List.find?_some hfind
        rw [Db.pending, Bool.and_eq_true, Bool.and_eq_true, beq_iff_eq] at hpending
        exact ⟨List.mem_of_find?_eq_some hfind, hpending.1.1⟩
  | findRoleBySlug p slug | findUser ref | access p target | adminCount p
  | changeRole p target roleId | remove p target | upsert p target roleId | invitationExists hash
  | markAccepted hash => cases h

/-- The two are rows of one invitation. -/
def SameInvitation (invitation old : Invitation) : Prop :=
  invitation.projectId = old.projectId ∧ invitation.roleId = old.roleId ∧
    invitation.tokenHash = old.tokenHash

theorem SameInvitation.refl (invitation : Invitation) : SameInvitation invitation invitation :=
  ⟨rfl, rfl, rfl⟩

/-- The member handlers mark invitations, and issue none. -/
theorem invitations_exec (stmt : Stmt β) (choice : Choice) (db : Db) :
    ∀ invitation ∈ (exec dir stmt choice db).2.invitations,
      ∃ old ∈ db.invitations, SameInvitation invitation old := by
  intro invitation hmem
  have hkept : (exec dir stmt choice db).2.invitations = db.invitations →
      ∃ old ∈ db.invitations, SameInvitation invitation old := by
    intro heq
    rw [heq] at hmem
    exact ⟨invitation, hmem, .refl invitation⟩
  cases hfails : choice.fails with
  | true =>
    apply hkept
    cases stmt <;> simp only [exec, attempt_failed hfails]
  | false =>
    cases stmt with
    | markAccepted tokenHash =>
      simp only [exec, attempt_ok hfails, Db.markAccepted] at hmem
      obtain ⟨old, hold, hnew⟩ := mem_updateWhere.mp hmem
      refine ⟨old, hold, ?_⟩
      rw [← hnew]
      split
      · exact ⟨rfl, rfl, rfl⟩
      · exact .refl old
    | upsert p target roleId =>
      apply hkept
      simp only [exec, attempt_ok hfails, Db.upsert]
      split
      · rfl
      · rfl
    | changeRole p target roleId =>
      exact hkept (by simp only [exec, attempt_ok hfails, Db.setRole])
    | remove p target => exact hkept (by simp only [exec, attempt_ok hfails, Db.remove])
    | findRoleBySlug p slug | findUser ref | access p target | adminCount p
    | findPending tokenHash
    | invitationExists tokenHash => exact hkept (by simp only [exec, attempt_ok hfails])

/-- An invitation was stored before, or the statement issues it. -/
theorem invitations_execAny (stmt : AnyStmt β) (choice : Surroundings) (tables : Tables) :
    ∀ invitation ∈ (execAny stmt choice tables).2.db.invitations,
      (∃ old ∈ tables.db.invitations, SameInvitation invitation old) ∨
      (.ran stmt (execAny stmt choice tables).1 : TeamEvent) =
        .ran (.inr (.createInvitation invitation.projectId invitation.roleId
          invitation.tokenHash)) (.ok ()) := by
  intro invitation hmem
  cases stmt with
  | inl stmt => exact .inl (invitations_exec stmt _ _ invitation hmem)
  | inr stmt =>
    exact ((mild_execTeam stmt choice tables).invitations invitation hmem).imp_left
      fun hold => ⟨invitation, hold, .refl invitation⟩

theorem IssuedIn.later {w : TeamWorld} (h : IssuedIn w invitation) (i : Nat) (event : TeamEvent)
    (s : Tables) : IssuedIn (w.record i event s) invitation := by
  obtain ⟨j, hissued⟩ := h
  exact ⟨j, List.mem_cons_of_mem _ hissued⟩

theorem traceable_step {w w' : TeamWorld}
    (hstep : Service.StepOf teamService (fun _ {_} _ => True) w w') (htraceable : Traceable w) :
    Traceable w' := by
  have hrecord : ∀ i (event : TeamEvent), TeamEvent.foundPending event = none →
      Traceable (w.record i event w.state) := by
    intro i event hevent
    constructor
    · exact fun invitation hmem => (htraceable.stored invitation hmem).later i event w.state
    · intro entry hmem tokenHash invitation hfound
      rcases List.mem_cons.mp hmem with rfl | hold
      · rw [hevent] at hfound
        cases hfound
      · obtain ⟨hhash, hissued⟩ := htraceable.found entry hold tokenHash invitation hfound
        exact ⟨hhash, hissued.later i event w.state⟩
  cases hstep with
  | void => exact htraceable
  | began i request => exact hrecord i _ rfl
  | answered i request answer hbegan => exact hrecord i _ rfl
  | issued i request stmt choice hbegan hmay =>
    have hstored : ∀ invitation ∈ w.state.db.invitations,
        IssuedIn (teamService.perform i stmt choice w) invitation :=
      fun invitation hmem => (htraceable.stored invitation hmem).later i _ _
    constructor
    · intro invitation hmem
      rcases invitations_execAny stmt choice w.state invitation hmem with
        ⟨old, hold, hproject, hrole, hhash⟩ | hissues
      · have hissued := hstored old hold
        rwa [IssuedIn, ← hproject, ← hrole, ← hhash] at hissued
      · refine ⟨i, ?_⟩
        rw [← hissues]
        exact List.mem_cons_self
    · intro entry hmem tokenHash invitation hfound
      rcases List.mem_cons.mp hmem with rfl | hold
      · cases stmt with
        | inr stmt => cases hfound
        | inl stmt =>
          obtain ⟨hmember, hhash⟩ := foundPending_exec hfound
          exact ⟨hhash, hstored invitation hmember⟩
      · obtain ⟨hhash, hissued⟩ := htraceable.found entry hold tokenHash invitation hfound
        exact ⟨hhash, hissued.later i _ _⟩

theorem traceable_run (roles : Table Role.id) (memberships : Table Membership.key)
    (superadmins : List Uuid) (labels : List (Label TeamRequest Surroundings)) :
    Traceable (teamService.run
      (initial (Tables.start roles memberships superadmins)) labels).world := by
  apply teamService.stepOf_run (P := fun _ {_} _ => True) (fun request => Prog.only_true _)
    (fun w w' => traceable_step) (Service.attributed_initial _)
  constructor
  · intro invitation hmem
    cases hmem
  · intro entry hmem
    cases hmem

/-! ## Every run -/

section Run

variable (tables : Tables) {labels : List (Label TeamRequest Surroundings)} {i : Nat}
  {projectId : Uuid} {caller : Caller} {call : TeamCall}

/-- What a request has read was so while the request ran. -/
theorem state_of_read {stmt : AnyStmt β} {result : β} {request : TeamRequest}
    (hread : .ran stmt result ∈ (teamService.run (initial tables) labels).world.own i)
    (hbegan : (i, .began request) ∈ (teamService.run (initial tables) labels).world.log) :
    ∃ first rest choice, labels = first ++ rest ∧
      (i, .began request) ∈ (teamService.run (initial tables) first).world.log ∧
      result = (execAny stmt choice
        (teamService.run (initial tables) first).world.state).1 := by
  obtain ⟨first, choice, last, other, hsplit, hother, hresult, -⟩ :=
    teamService.ran_of_mem tables (World.mem_own.mp hread)
  refine ⟨first, _, choice, hsplit, ?_, hresult⟩
  rw [hsplit] at hbegan
  exact teamService.began_of_event tables hother hbegan

variable {userId : Uuid}

theorem access_of_result {choice : Surroundings} {access : MemberAccess} {tables : Tables}
    (h : .ok (some access) = (execAny (.inl (.access projectId userId)) choice tables).1) :
    tables.access projectId userId = some access := by
  simp only [execAny, execMember, exec, attempt] at h
  split at h
  · cases h
  · exact (Except.ok.inj h).symm

theorem superadmin_of_result {choice : Surroundings} {tables : Tables}
    (h : .ok true = (execAny (.inr (.isActiveSuperadmin userId)) choice tables).1) :
    tables.superadmins.contains userId = true := by
  simp only [execAny, execTeam] at h
  split at h
  · cases h
  · exact (Except.ok.inj h).symm

theorem holds_of_shown {permission : Permission}
    (hshown : Shown projectId permission caller
      ((teamService.run (initial tables) labels).world.own i))
    (hbegan : (i, .began (.inProject caller projectId call)) ∈
      (teamService.run (initial tables) labels).world.log) :
    FoundFit (fun tables projectId caller _ => tables.holds projectId permission caller) tables
      labels i projectId caller call := by
  cases caller with
  | appToken projectIds permissions =>
    refine ⟨labels, [], (List.append_nil _).symm, hbegan, ?_⟩
    apply (Bool.and_eq_true _ _).mpr
    exact ⟨List.contains_iff_mem.mpr hshown.1, List.contains_iff_mem.mpr hshown.2⟩
  | user userId =>
    rcases hshown with hsuper | ⟨access, haccess, hhas⟩
    · obtain ⟨first, rest, choice, hsplit, hbegan, hresult⟩ :=
        state_of_read tables hsuper hbegan
      refine ⟨first, rest, hsplit, hbegan, ?_⟩
      dsimp only [Tables.holds]
      rw [superadmin_of_result hresult, Bool.true_or]
    · obtain ⟨first, rest, choice, hsplit, hbegan, hresult⟩ :=
        state_of_read tables haccess hbegan
      refine ⟨first, rest, hsplit, hbegan, ?_⟩
      dsimp only [Tables.holds]
      rw [access_of_result hresult, Option.any_some, hhas, Bool.or_true]

variable {fit : Tables → Uuid → Caller → TeamCall → Bool}

theorem FoundFit.mono {fit' : Tables → Uuid → Caller → TeamCall → Bool}
    (h : FoundFit fit tables labels i projectId caller call)
    (hfit : ∀ s, fit s projectId caller call = true → fit' s projectId caller call = true) :
    FoundFit fit' tables labels i projectId caller call := by
  obtain ⟨first, rest, hsplit, hbegan, hholds⟩ := h
  exact ⟨first, rest, hsplit, hbegan, hfit _ hholds⟩

theorem FoundFit.later (h : FoundFit fit tables labels i projectId caller call)
    (later : List (Label TeamRequest Surroundings)) :
    FoundFit fit tables (labels ++ later) i projectId caller call := by
  obtain ⟨first, rest, hsplit, hfound⟩ := h
  exact ⟨first, rest ++ later, by rw [hsplit, List.append_assoc], hfound⟩

theorem entitled_of_shownFit
    (hshown : ShownFit projectId caller
      ((teamService.run (initial tables) labels).world.own i) call)
    (hbegan : (i, .began (.inProject caller projectId call)) ∈
      (teamService.run (initial tables) labels).world.log) :
    FoundFit Tables.entitled tables labels i projectId caller call := by
  cases call with
  | addMember body | invite body tokenHash =>
    exact (holds_of_shown tables hshown hbegan).mono tables fun _ h => h
  | changeMemberRole target body =>
    exact (holds_of_shown tables hshown hbegan).mono tables fun _ h => h
  | joinProject body =>
    obtain ⟨userId, rfl, hsuper⟩ := hshown
    obtain ⟨first, rest, choice, hsplit, hbegan, hresult⟩ := state_of_read tables hsuper hbegan
    exact ⟨first, rest, hsplit, hbegan, superadmin_of_result hresult⟩
  | createRole body | updateRole roleId body | deleteRole roleId
  | removeMember target => exact hshown.elim

/-- An invitation was issued by a caller who held the permission to add members. -/
theorem entitled_of_issued {roleId : Uuid} {tokenHash : Nat} {result : Except DbError Unit}
    (hissued : (i, .ran (.inr (.createInvitation projectId roleId tokenHash)) result) ∈
      (teamService.run (initial tables) labels).world.log) :
    ∃ caller body,
      FoundFit Tables.entitled tables labels i projectId caller (.invite body tokenHash) := by
  obtain ⟨first, label, last, request, rfl, hbegan, hrightful⟩ :=
    teamService.own_of_ran tellsAll_rightful tables hissued
  cases request with
  | acceptInvitation userId body => exact hrightful.elim
  | setSuperadmin userId flag => exact hrightful.elim
  | inProject caller p call =>
    cases call with
    | invite body hash =>
      obtain ⟨rfl, rfl, hshown⟩ := hrightful
      have hfit : FoundFit Tables.entitled tables first i p caller (.invite body hash) :=
        entitled_of_shownFit tables hshown hbegan
      exact ⟨caller, body, hfit.later tables _⟩
    | addMember body | changeMemberRole target body | joinProject body | createRole body
    | updateRole roleId body | deleteRole roleId | removeMember target => exact hrightful.elim

/-- The statement that makes an admin. -/
theorem ran_of_gained {first : List (Label TeamRequest Surroundings)}
    {label : Label TeamRequest Surroundings}
    (hbefore : (teamService.run (initial tables) first).world.state.admin
      projectId userId = false)
    (hafter : (teamService.run (initial tables) (first ++ [label])).world.state.admin
      projectId userId = true) :
    ∃ request, (Service.actor (teamService.run (initial tables) first) label,
        .began request) ∈ (teamService.run (initial tables) first).world.log ∧
      ∃ roleId, Warranted ((teamService.run (initial tables) first).world.own
        (Service.actor (teamService.run (initial tables) first) label))
        projectId userId roleId request := by
  rw [Service.run_append, Service.run_cons, Service.run_nil] at hafter
  cases label with
  | start request =>
    have hsame := hbefore.symm.trans hafter
    cases hsame
  | run i choice =>
    have hattributed := teamService.attributed_run (P := fun _ {_} _ => True)
      (fun request => Prog.only_true _) (Service.attributed_initial tables) first
    cases hthread : (teamService.run (initial tables) first).threads[i]? with
    | none =>
      simp only [Service.step, hthread] at hafter
      rw [hbefore] at hafter
      cases hafter
    | some thread =>
      obtain ⟨request, todo, answer⟩ := thread
      obtain ⟨hbegan, -⟩ := hattributed i _ hthread
      refine ⟨request, hbegan, ?_⟩
      cases answer with
      | some answer =>
        cases todo <;>
        · simp only [Service.step, hthread] at hafter
          rw [hbefore] at hafter
          cases hafter
      | none =>
        cases todo with
        | done answer =>
          simp only [Service.step, hthread, World.record_state] at hafter
          rw [hbefore] at hafter
          cases hafter
        | step stmt next =>
          have hworld : (teamService.run (initial tables)
              (first ++ [.run i choice])).world = teamService.perform i stmt choice
                (teamService.run (initial tables) first).world := by
            rw [Service.run_append, Service.run_cons, Service.run_nil]
            simp only [Service.step, hthread]
          have hlater : (i, .began request) ∈ (teamService.run (initial tables)
              (first ++ [.run i choice])).world.log := by
            rw [hworld]
            exact List.mem_cons_of_mem _ hbegan
          have hrightful := teamService.own_of_began tellsAll_rightful tables _ hlater
          rw [hworld, Service.perform, World.own_record_self] at hrightful
          simp only [Service.step, hthread, Service.perform_state] at hafter
          obtain ⟨member, roleId, rfl, hassigns⟩ :=
            admin_execAny stmt choice _ hbefore hafter
          exact ⟨roleId, hrightful projectId userId roleId hassigns⟩

end Run

/-- Only who may manage members makes an administrator: whenever a user comes to hold an admin
role, the caller who assigned it or issued the invitation had, while that request ran, the
permission it asks for. -/
theorem admins_made_by_entitled (roles : Table Role.id) (memberships : Table Membership.key)
    (superadmins : List Uuid) (labels : List (Label TeamRequest Surroundings)) :
    MadeBy Tables.entitled (.start roles memberships superadmins) labels := by
  intro first label last _ projectId userId hbefore hafter
  obtain ⟨request, hbegan, roleId, hwarranted⟩ := ran_of_gained _ hbefore hafter
  cases request with
  | inProject caller p call =>
    obtain ⟨rfl, hshown⟩ := hwarranted
    exact .inl ⟨caller, call, entitled_of_shownFit _ hshown hbegan⟩
  | acceptInvitation user body =>
    obtain ⟨rfl, tokenHash, invitation, rfl, hfound, rfl, rfl⟩ := hwarranted
    obtain ⟨rfl, j, hissued⟩ := (traceable_run roles memberships superadmins first).found _
      (World.mem_own.mp hfound) tokenHash invitation rfl
    obtain ⟨caller, body, hfit⟩ := entitled_of_issued _ hissued
    exact .inr ⟨_, invitation.roleId, j, caller, body, hbegan, hissued, hfit⟩
  | setSuperadmin user flag => exact hwarranted.elim

/-- No run turns a role into an admin role, or an admin role into another or none. -/
theorem admin_roles_fixed (cfg : Config AnyStmt Tables TeamRequest Reply)
    (labels : List (Label TeamRequest Surroundings)) (roleId : Uuid) :
    (teamService.run cfg labels).world.state.isAdmin roleId = cfg.world.state.isAdmin roleId := by
  apply teamService.state_run (R := fun tables tables' =>
    tables'.isAdmin roleId = tables.isAdmin roleId)
  · exact fun _ => rfl
  · exact fun _ _ _ h h' => h'.trans h
  · intro β stmt choice tables
    cases stmt with
    | inl stmt => rfl
    | inr stmt => exact (mild_execTeam stmt choice tables).admins roleId

/-- The members of a project: an administrator, and a product owner who may change roles. -/
def ownedProject : Tables :=
  .start
    ⟨[⟨1, 5, "admin", true, []⟩, ⟨2, 5, "product_owner", false, [.memberModifyRole]⟩], by decide⟩
    ⟨[⟨5, 10, 1⟩, ⟨5, 11, 2⟩], by decide⟩ []

/-- The product owner asks for the admin role; all is checked, and the write is next. -/
def selfPromotion : List (Label TeamRequest Surroundings) :=
  .start (.inProject (.user 11) 5 (.changeMemberRole (some 11) (.ok "admin"))) ::
    List.replicate 5 (.run 0 ⟨false, 0, fun _ => none, some true, 0⟩)

/-- An admin role may be assigned by a member who is no administrator. -/
theorem product_owner_makes_admin : ¬ ∀ (roles : Table Role.id)
    (memberships : Table Membership.key) (superadmins : List Uuid)
    (labels : List (Label TeamRequest Surroundings)),
    MadeBy (fun tables projectId caller _ => tables.administrator projectId caller)
      (.start roles memberships superadmins) labels := by
  intro h
  have hthread : (teamService.run (initial ownedProject) selfPromotion).threads[0]?.map
      (·.request) =
        some (.inProject (.user 11) 5 (.changeMemberRole (some 11) (.ok "admin"))) := rfl
  have hrequest : ∀ request, (0, .began request) ∈
      (teamService.run (initial ownedProject) selfPromotion).world.log →
        request = .inProject (.user 11) 5 (.changeMemberRole (some 11) (.ok "admin")) := by
    intro request hbegan
    obtain ⟨thread, hfound, rfl⟩ := teamService.thread_of_began ownedProject selfPromotion hbegan
    rw [hfound] at hthread
    exact Option.some.inj hthread
  have hordinary : ∀ n < 7, (teamService.run (initial ownedProject)
      (selfPromotion.take n)).world.state.administrator 5 (.user 11) = false := by decide
  rcases h ownedProject.roles ownedProject.db.memberships [] (selfPromotion ++ [.run 0
      ⟨false, 0, fun _ => none, some true, 0⟩]) selfPromotion _ [] rfl 5 11 (by decide)
      (by decide) with ⟨caller, call, first, rest, hsplit, hbegan, hfit⟩ |
      ⟨tokenHash, roleId, j, caller, body, hbegan, -⟩
  · have hlater := teamService.log_run (teamService.run (initial ownedProject) first) rest
      _ hbegan
    rw [← Service.run_append, ← hsplit] at hlater
    obtain ⟨rfl, -, -⟩ := TeamRequest.inProject.inj (hrequest _ hlater)
    have hlength : first.length < 7 := by
      have hlengths := congrArg List.length hsplit
      rw [List.length_append] at hlengths
      have hsix : selfPromotion.length = 6 := rfl
      omega
    have hnone := hordinary first.length hlength
    have htake : selfPromotion.take first.length = first := by
      rw [hsplit, List.take_left]
    rw [htake] at hnone
    exact absurd (hfit.symm.trans hnone) (by decide)
  · cases hrequest _ hbegan

end IntelliPilot.Projects
