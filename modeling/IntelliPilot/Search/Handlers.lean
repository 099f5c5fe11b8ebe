import IntelliPilot.Search.Index
import IntelliPilot.Statement.Requests

/-! # Search

`search_keys` and `search_text` of `db::search`, and the requests that write
what they find. What the database computes on texts is given: matching, ranks,
headlines and the order of names. What an actor may write, comments aside, is
part of the request.
-/

namespace IntelliPilot.Search

open Http
open Projects (Uuid Permission Role Membership ProjectContext)
open Projects.Activity (Comment Params TargetType admitComment mayMutateComment parseComment)

/-! ## Queries -/

/-- `entity_type` as it is stored. -/
def entityTypeText : TargetType → String
  | .epic => "epic"
  | .issue => "issue"
  | .wiki => "wiki"
  | .comment => "comment"
  | .meeting => "meeting"

/-- Who is searching and where. -/
structure SearchScope where
  actorId : Uuid
  isSuperadmin : Bool
  projectId : Option Uuid
  boostProjectId : Option Uuid
  types : Option (List String)

inductive KeyKind where
  | issue
  | epic
  | any
  deriving DecidableEq, Repr

def KeyKind.entityTypes : KeyKind → List TargetType
  | .issue => [.issue]
  | .epic => [.epic]
  | .any => [.issue, .epic]

structure KeyQuery where
  projectPrefix : Option String
  number : Nat
  kind : KeyKind
  deriving DecidableEq, Repr

structure TextQuery where
  q : String
  prefixQuery : Option String
  fuzzy : Bool
  deriving DecidableEq, Repr

/-- What the database finds of a query in an entry. -/
structure TextMatch where
  rank : Rat
  snippet : String
  deriving DecidableEq, Repr

/-- What the database computes on texts, and the order in which entries were written. -/
structure Engine where
  matchText : TextQuery → Entry → Option TextMatch
  nameLe : String → String → Bool
  writtenBefore : Entry → Entry → Bool

structure SearchHit where
  entityType : TargetType
  entityId : Uuid
  projectId : Uuid
  reference : Option Nat
  key : Option String
  keyMatch : Bool
  title : String
  snippet : String
  deriving DecidableEq, Repr

/-- The `CASE` of `ACCESS`. -/
def accessPermission : TargetType → Permission
  | .epic => .epicView
  | .wiki => .wikiView
  | .meeting => .meetingView
  | _ => .issueView

/-- `KEY_COL`. -/
def keyCol (project : Project) (entry : Entry) : Option String :=
  entry.reference.bind fun reference =>
    match entry.entityType with
    | .epic => some (project.issuePrefix ++ "-E-" ++ toString reference)
    | .issue => some (project.issuePrefix ++ "-" ++ toString reference)
    | _ => none

namespace State

variable (s : State) (engine : Engine) (scope : SearchScope)

/-- The `EXISTS` of `ACCESS`. -/
def memberMayRead (entry : Entry) : Bool :=
  s.memberships.rows.any fun membership =>
    membership.projectId == entry.projectId && membership.userId == scope.actorId &&
      s.roles.rows.any fun role => role.id == membership.roleId &&
        (role.isAdmin || role.permissions.contains (accessPermission entry.entityType))

/-- `ACCESS`. -/
def readable (entry : Entry) : Bool :=
  (s.project? entry.projectId).isSome && (scope.isSuperadmin || s.memberMayRead scope entry) &&
    scope.projectId.all (· == entry.projectId) &&
    scope.types.all (·.contains (entityTypeText entry.entityType))

def hit (keyMatch : Bool) (entry : Entry) (snippet : String) : SearchHit where
  entityType := entry.entityType
  entityId := entry.entityId
  projectId := entry.projectId
  reference := entry.reference
  key := (s.project? entry.projectId).bind fun project => keyCol project entry
  keyMatch := keyMatch
  title := entry.title
  snippet := snippet

/-- The live project with the prefix, otherwise the one that last gave it up. -/
def prefixProject (projectPrefix : String) : Option Uuid :=
  ((s.projects.rows.find? fun project =>
    project.issuePrefix == projectPrefix && project.deletedAt.isNone).map (·.id)).or
    ((s.prefixHistory.find? (·.1 == projectPrefix)).map (·.2))

def matchesKey (key : KeyQuery) (entry : Entry) : Bool :=
  entry.reference == some key.number && key.kind.entityTypes.contains entry.entityType &&
    key.projectPrefix.all fun projectPrefix =>
      s.prefixProject projectPrefix == some entry.projectId

/-- The rank of a key hit. -/
def keyRank (entry : Entry) : Nat :=
  1000 + (if some entry.projectId = scope.boostProjectId then 10 else 0) +
    (if entry.entityType = .issue then 1 else 0)

/-- `ORDER BY rank DESC, p.name, s.entity_type`. -/
def keyOrder (a b : Entry) : Bool :=
  let name entry := ((s.project? entry.projectId).map (·.name)).getD ""
  decide (keyRank scope b < keyRank scope a) ||
    (keyRank scope a == keyRank scope b && engine.nameLe (name a) (name b) &&
      (!engine.nameLe (name b) (name a) ||
        decide (entityTypeText a.entityType ≤ entityTypeText b.entityType)))

/-- `search_keys`. -/
def searchKeys (key : KeyQuery) (limit : Nat) : List SearchHit :=
  let found := s.searchIndex.rows.filter fun entry =>
    s.readable scope entry && s.matchesKey key entry
  ((found.mergeSort (s.keyOrder engine scope)).take limit).map fun entry =>
    s.hit true entry (String.ofList (entry.body.toList.take 400))

/-- The rank of a text hit. -/
def textRank (found : Entry × TextMatch) : Rat :=
  found.2.rank + if some found.1.projectId = scope.boostProjectId then 1 / 2 else 0

/-- `ORDER BY rank DESC, s.updated_at DESC`. -/
def textOrder (a b : Entry × TextMatch) : Bool :=
  decide (textRank scope b < textRank scope a) ||
    (textRank scope a == textRank scope b && !engine.writtenBefore a.1 b.1)

/-- `search_text`. -/
def searchText (query : TextQuery) (limit : Nat) : List SearchHit :=
  let found := (s.searchIndex.rows.filter (s.readable scope)).filterMap fun entry =>
    (engine.matchText query entry).map fun textMatch => (entry, textMatch)
  ((found.mergeSort (textOrder engine scope)).take limit).map fun row =>
    s.hit false row.1 row.2.snippet

end State

/-! ## Requests -/

/-- What a request under a project does. -/
inductive Action where
  | createItem (kind : ItemKind) (subject description : String)
  | updateItem (kind : ItemKind) (id : Uuid) (subject description : String)
  | deleteItem (kind : ItemKind) (id : Uuid)
  | purgeItems (kind : ItemKind)
  | createWikiPage (title body : String)
  /-- An edit, or the restoring of a revision. -/
  | updateWikiPage (id : Uuid) (title body : String)
  | deleteWikiPage (id : Uuid)
  | createMeeting (title description summary transcript : String)
  | updateMeeting (id : Uuid) (title description summary transcript : Option String)
  | deleteMeeting (id : Uuid)
  | updateProject (name issuePrefix : String) (isPrivate : Bool)
  | deleteProject

inductive Request where
  | createProject (name issuePrefix : String) (isPrivate : Bool)
  | inProject (projectId actorId : Uuid) (allowed : Bool) (action : Action)
  | createComment (projectId actorId : Uuid) (params : Params) (body : Option String)
  | updateComment (projectId actorId : Uuid) (params : Params) (body : Option String)
  | deleteComment (projectId actorId : Uuid) (params : Params)
  /-- Roles, memberships and superadmins become others. -/
  | setAccess (roles : Table Role.id) (memberships : Table Membership.key)
      (superadmins : List Uuid)

/-- A request, the id that the database draws for a new row, and the time that has passed. -/
structure Turn where
  request : Request
  drawn : Uuid
  elapse : Nat

abbrev Response := Except Problem Unit

/-- A statement that writes, or finds nothing to write. -/
def orElse (s : State) (problem : Problem) (written : Option State) : Response × State :=
  match written with
  | some s => (.ok (), s)
  | none => (.error problem, s)

section Comments

variable (render : String → String) (ctx : ProjectContext)

/-- `create_comment`; the item is not looked up. -/
def createComment (drawn : Uuid) (params : Params) (body : Option String) (s : State) :
    Response × State :=
  match admitComment ctx params body with
  | .error refusal => (.error refusal, s)
  | .ok (target, text) =>
      orElse s internal (s.insertComment
        ⟨drawn, ctx.projectId, target, some ctx.actorId, text, render text, none, s.now, none⟩)

/-- The comment that a request may change. -/
def admitMutation (params : Params) (s : State) : Except Problem Uuid :=
  match params.commentId with
  | none => .error notFound
  | some id =>
      match s.liveComment? id with
      | none => .error notFound
      | some comment => if mayMutateComment ctx s.now comment then .ok id else .error forbidden

/-- `update_comment`. -/
def updateComment (params : Params) (body : Option String) (s : State) : Response × State :=
  match params.commentId, parseComment body with
  | none, _ => (.error notFound, s)
  | some _, .error refusal => (.error refusal, s)
  | some _, .ok text =>
      match admitMutation ctx params s with
      | .error refusal => (.error refusal, s)
      | .ok id => orElse s notFound (s.updateComment id text (render text))

/-- `delete_comment`. -/
def deleteComment (params : Params) (s : State) : Response × State :=
  match admitMutation ctx params s with
  | .error refusal => (.error refusal, s)
  | .ok id => orElse s notFound (s.softDeleteComment id)

end Comments

/-- What an action does that the actor is allowed. -/
def perform (projectId drawn : Uuid) (s : State) : Action → Response × State
  | .createItem kind subject description =>
      orElse s internal (s.insertItem kind projectId drawn subject description)
  | .updateItem kind id subject description =>
      orElse s notFound (s.updateItem kind projectId id subject description)
  | .deleteItem kind id => orElse s notFound (s.softDeleteItem kind projectId id)
  | .purgeItems kind => (.ok (), s.purgeItems kind projectId)
  | .createWikiPage title body => orElse s internal (s.insertWikiPage projectId drawn title body)
  | .updateWikiPage id title body => orElse s notFound (s.updateWikiPage projectId id title body)
  | .deleteWikiPage id => orElse s notFound (s.softDeleteWikiPage projectId id)
  | .createMeeting title description summary transcript =>
      orElse s internal (s.insertMeeting projectId drawn title description summary transcript)
  | .updateMeeting id title description summary transcript =>
      orElse s notFound (s.updateMeeting projectId id title description summary transcript)
  | .deleteMeeting id => orElse s notFound (s.softDeleteMeeting projectId id)
  | .updateProject name issuePrefix isPrivate =>
      orElse s notFound (s.updateProject projectId name issuePrefix isPrivate)
  | .deleteProject => orElse s notFound (s.softDeleteProject projectId)

def State.wait (elapse : Nat) (s : State) : State := { s with now := s.now + elapse }

/-- A handler that asks for the context of the project. -/
def withContext (s : State) (projectId actorId : Uuid)
    (handler : ProjectContext → Response × State) : Response × State :=
  match s.context projectId actorId with
  | none => (.error notFound, s)
  | some ctx => handler ctx

def serve (render : String → String) (drawn : Uuid) (s : State) : Request → Response × State
  | .createProject name issuePrefix isPrivate =>
      orElse s internal (s.insertProject drawn name issuePrefix isPrivate)
  | .inProject projectId actorId allowed action =>
      withContext s projectId actorId fun _ =>
        if allowed then perform projectId drawn s action else (.error forbidden, s)
  | .createComment projectId actorId params body =>
      withContext s projectId actorId fun ctx => createComment render ctx drawn params body s
  | .updateComment projectId actorId params body =>
      withContext s projectId actorId fun ctx => updateComment render ctx params body s
  | .deleteComment projectId actorId params =>
      withContext s projectId actorId fun ctx => deleteComment ctx params s
  | .setAccess roles memberships superadmins =>
      (.ok (), { s with roles := roles, memberships := memberships, superadmins := superadmins })

/-- The requests, one after the other. -/
def server (render : String → String) : Statement.Server State Turn Response where
  handle turn s := serve render turn.drawn (s.wait turn.elapse) turn.request

end IntelliPilot.Search
