import IntelliPilot.Http.Problem
import IntelliPilot.Relational.Table
import Mathlib.Data.List.Sort

/-! # Resources of a project

Watchers and links of issues, the releases and repositories of components, the
versions of releases, the deletion of taxonomy items and the board last opened:
the handlers of `api::issue_relations`, `api::releases`, `api::repositories`,
`api::taxonomy` and `api::boards` under the project of the path. The tables that
tie two things together have no project column. What the actor is allowed and
what `parse_body` makes of a body are part of the request; statements do not
fail for reasons of their own.
-/

namespace IntelliPilot.Projects.Resources

open Http Rows

abbrev Uuid := Nat

/-! ## Tables -/

structure Issue where
  id : Uuid
  projectId : Uuid
  reference : Nat
  subject : String
  statusId : Option Uuid
  typeId : Option Uuid
  priorityId : Option Uuid
  sizeId : Option Uuid
  releaseVersionId : Option Uuid
  deletedAt : Option Int
  deriving DecidableEq, Repr

structure Epic where
  id : Uuid
  projectId : Uuid
  statusId : Option Uuid
  deriving DecidableEq, Repr

structure IssueWatcher where
  issueId : Uuid
  userId : Uuid
  deriving DecidableEq, Repr

def IssueWatcher.key (row : IssueWatcher) : Uuid × Uuid := (row.issueId, row.userId)

inductive LinkType where
  | blocks
  | relates
  | duplicates
  deriving DecidableEq, Repr

structure IssueLink where
  id : Uuid
  projectId : Uuid
  sourceIssueId : Uuid
  targetIssueId : Uuid
  linkType : LinkType
  createdAt : Int
  deriving DecidableEq, Repr

structure Component where
  id : Uuid
  projectId : Uuid
  deriving DecidableEq, Repr

structure Release where
  id : Uuid
  projectId : Uuid
  name : String
  color : String
  deriving DecidableEq, Repr

inductive ReleaseStatus where
  | planned
  | inProgress
  | released
  deriving DecidableEq, Repr

/-- The columns of a version that a request writes. -/
structure VersionWrite where
  version : String
  status : ReleaseStatus
  targetDate : Option Int
  releasedAt : Option Int
  notes : String
  repositoryId : Option Uuid
  gitTag : Option String
  deriving DecidableEq, Repr

structure ReleaseVersion extends VersionWrite where
  id : Uuid
  releaseId : Uuid
  order : Nat
  createdAt : Int
  deriving DecidableEq, Repr

structure ComponentRelease where
  componentId : Uuid
  releaseId : Uuid
  createdAt : Int
  deriving DecidableEq, Repr

def ComponentRelease.key (row : ComponentRelease) : Uuid × Uuid :=
  (row.componentId, row.releaseId)

structure Repository where
  id : Uuid
  projectId : Uuid
  name : String
  sshUrl : String
  sshKeyId : Option Uuid
  deriving DecidableEq, Repr

structure SshKey where
  id : Uuid
  projectId : Uuid
  privateKey : String
  deriving DecidableEq, Repr

structure ComponentRepository where
  componentId : Uuid
  repositoryId : Uuid
  branch : String
  createdAt : Int
  deriving DecidableEq, Repr

def ComponentRepository.key (row : ComponentRepository) : Uuid × Uuid :=
  (row.componentId, row.repositoryId)

/-- A row of `issue_component_versions`. -/
structure IssueVersion where
  issueId : Uuid
  componentId : Uuid
  versionId : Uuid
  deriving DecidableEq, Repr

def IssueVersion.key (row : IssueVersion) : Uuid × Uuid := (row.issueId, row.componentId)

inductive TaxonomyKind where
  | issueStatus
  | issueType
  | priority
  | size
  deriving DecidableEq, Repr

structure TaxonomyItem where
  id : Uuid
  projectId : Uuid
  kind : TaxonomyKind
  deriving DecidableEq, Repr

structure Board where
  id : Uuid
  projectId : Uuid
  deriving DecidableEq, Repr

/-- A row of `board_last_opened`. -/
structure LastOpened where
  projectId : Uuid
  userId : Uuid
  boardId : Option Uuid
  deriving DecidableEq, Repr

def LastOpened.key (row : LastOpened) : Uuid × Uuid := (row.projectId, row.userId)

/-- The tables of all projects. Row ids come from a counter, as `uuidv7()` never
repeats one. -/
structure Db where
  users : List Uuid
  issues : Table Issue.id
  epics : Table Epic.id
  issueWatchers : Table IssueWatcher.key
  issueLinks : Table IssueLink.id
  components : Table Component.id
  releases : Table Release.id
  releaseVersions : Table ReleaseVersion.id
  componentReleases : Table ComponentRelease.key
  repositories : Table Repository.id
  sshKeys : Table SshKey.id
  componentRepositories : Table ComponentRepository.key
  issueVersions : Table IssueVersion.key
  taxonomyItems : Table TaxonomyItem.id
  boards : Table Board.id
  lastOpened : Table LastOpened.key
  nextId : Uuid
  links_lt : ∀ row ∈ issueLinks.rows, row.id < nextId
  versions_lt : ∀ row ∈ releaseVersions.rows, row.id < nextId

/-! ## Requests and responses -/

/-- Who sends a request under which project, and whether the role permits it. -/
structure Context where
  projectId : Uuid
  actorId : Uuid
  allowed : Bool
  deriving DecidableEq, Repr

inductive Direction where
  | outgoing
  | incoming
  deriving DecidableEq, Repr

structure LinkView where
  id : Uuid
  otherIssueId : Uuid
  otherRef : Nat
  otherSubject : String
  linkType : LinkType
  direction : Direction
  createdAt : Int
  deriving DecidableEq, Repr

structure ReleaseLinkView where
  componentId : Uuid
  releaseId : Uuid
  releaseName : String
  createdAt : Int
  deriving DecidableEq, Repr

structure RepositoryLinkView where
  componentId : Uuid
  repositoryId : Uuid
  repositoryName : String
  sshUrl : String
  branch : String
  createdAt : Int
  deriving DecidableEq, Repr

structure VersionRef where
  id : Uuid
  releaseId : Uuid
  releaseName : String
  releaseColor : String
  version : String
  status : ReleaseStatus
  targetDate : Option Int
  order : Nat
  deriving DecidableEq, Repr

inductive Response where
  | watchers (ids : List Uuid)
  | links (items : List LinkView)
  | link (item : LinkView)
  | releases (items : List ReleaseLinkView)
  | release (item : ReleaseLinkView)
  | repositories (items : List RepositoryLinkView)
  | repository (status : Nat) (item : RepositoryLinkView)
  | versions (items : List ReleaseVersion)
  | version (status : Nat) (item : ReleaseVersion)
  | versionRefs (items : List VersionRef)
  | board (id : Option Uuid)
  | noContent
  /-- 409, `in_use`, with the number of epics and issues and the text around it. -/
  | inUse (count : Nat) (detail : String)
  | problem (problem : Problem)
  deriving DecidableEq, Repr

/-- `problem` of `api::issue_relations` and `api::releases`, whose title is the code. -/
def coded (status : Nat) (code : String) (detail : Option String) : Problem :=
  ⟨status, code, code, detail⟩

/-- The text of the refusal to delete an item that is in use. -/
def inUseDetail (count : Nat) : String :=
  toString count ++ " " ++ (if count = 1 then "entity references" else "entities reference") ++
    " this item"

def codedNotFound : Problem := coded 404 "not_found" none

def codedInternal : Problem := coded 500 "internal_error" none

def codedUnprocessable (detail : String) : Problem := coded 422 "validation_failed" (some detail)

def codedConflict (detail : String) : Problem := coded 409 "already_exists" (some detail)

/-- `unprocessable` of `api::repositories`. -/
def validationFailed (detail : String) : Problem :=
  ⟨422, "validation_failed", "Validation failed", some detail⟩

/-- `conflict` of `api::repositories`. -/
def alreadyExists (detail : String) : Problem :=
  ⟨409, "already_exists", "Already Exists", some detail⟩

/-- The patch of `update_version`; an inner `none` clears the column. -/
structure UpdateVersionRequest where
  version : Option String := none
  status : Option ReleaseStatus := none
  targetDate : Option Int := none
  releasedAt : Option Int := none
  notes : Option String := none
  repositoryId : Option (Option Uuid) := none
  gitTag : Option (Option String) := none
  deriving DecidableEq, Repr

/-- The write-set: the patch over the stored row; dates cannot be cleared. -/
def UpdateVersionRequest.over (req : UpdateVersionRequest) (old : ReleaseVersion) :
    VersionWrite where
  version := req.version.getD old.version
  status := req.status.getD old.status
  targetDate := req.targetDate.or old.targetDate
  releasedAt := req.releasedAt.or old.releasedAt
  notes := req.notes.getD old.notes
  repositoryId := req.repositoryId.getD old.repositoryId
  gitTag := req.gitTag.getD old.gitTag

/-- A request; ids of the path are `none` where they do not parse. -/
inductive Request where
  | listLinks (id : Option Uuid)
  | createLink (id : Option Uuid) (body : Except Problem (Uuid × LinkType))
  | deleteLink (linkId : Option Uuid)
  | listWatchers (id : Option Uuid)
  | addWatcher (id userId : Option Uuid)
  | removeWatcher (id userId : Option Uuid)
  | listVersions (releaseId : Option Uuid)
  | createVersion (releaseId : Option Uuid) (body : Except Problem VersionWrite)
  | updateVersion (versionId : Option Uuid) (body : Except Problem UpdateVersionRequest)
  | deleteVersion (versionId : Option Uuid)
  | versionsForComponents (body : Except Problem (List Uuid))
  | listAllReleaseVersions
  | listComponentReleases (componentId : Option Uuid)
  | linkComponentRelease (componentId : Option Uuid) (body : Except Problem Uuid)
  | unlinkComponentRelease (componentId releaseId : Option Uuid)
  | listComponentRepositories (componentId : Option Uuid)
  | linkComponentRepository (componentId : Option Uuid) (body : Except Problem (Uuid × String))
  | updateComponentRepository (componentId repositoryId : Option Uuid)
      (body : Except Problem String)
  | unlinkComponentRepository (componentId repositoryId : Option Uuid)
  | deleteTaxonomyItem (kind : Option TaxonomyKind) (itemId : Option Uuid)
  | getLastOpened
  | setLastOpened (boardId : Option Uuid)

/-! ## Statements -/

namespace Db

variable (db : Db)

/-- `backlog::issue_in_project`. -/
def issueInProject (projectId id : Uuid) : Bool :=
  (db.issues.find? id).any fun issue => issue.projectId == projectId && issue.deletedAt.isNone

/-- `component_in_project`. -/
def componentInProject (projectId id : Uuid) : Bool :=
  (db.components.find? id).any (·.projectId == projectId)

/-- `releases::get`. -/
def release? (projectId id : Uuid) : Option Release :=
  (db.releases.find? id).filter (·.projectId == projectId)

/-- `repositories::get`. -/
def repository? (projectId id : Uuid) : Option Repository :=
  (db.repositories.find? id).filter (·.projectId == projectId)

/-- `release_versions::get`. -/
def version? (projectId id : Uuid) : Option ReleaseVersion :=
  (db.releaseVersions.find? id).filter fun row => (db.release? projectId row.releaseId).isSome

/-- The other end of a link of the issue, as the listing shows it. -/
def linkView (issueId : Uuid) : IssueLink × Direction → Option LinkView
  | (link, direction) =>
      let (own, other) := match direction with
        | .outgoing => (link.sourceIssueId, link.targetIssueId)
        | .incoming => (link.targetIssueId, link.sourceIssueId)
      if own = issueId then
        ((db.issues.find? other).filter (·.deletedAt.isNone)).map fun issue =>
          ⟨link.id, issue.id, issue.reference, issue.subject, link.linkType, direction,
            link.createdAt⟩
      else none

/-- `issue_links::list_for_issue`. -/
def listLinks (issueId : Uuid) : List LinkView :=
  let ends := db.issueLinks.rows.map (·, Direction.outgoing) ++
    db.issueLinks.rows.map (·, Direction.incoming)
  (ends.filterMap (db.linkView issueId)).mergeSort fun a b => decide (a.createdAt ≤ b.createdAt)

/-- `issue_watchers::list`. -/
def listWatchers (issueId : Uuid) : List Uuid :=
  (db.issueWatchers.rows.filterMap fun row =>
    if row.issueId = issueId then some row.userId else none).mergeSort

def releaseLinkView (componentId : Uuid) (row : ComponentRelease) : Option ReleaseLinkView :=
  if row.componentId = componentId then
    (db.releases.find? row.releaseId).map fun release =>
      ⟨row.componentId, row.releaseId, release.name, row.createdAt⟩
  else none

/-- `component_releases::list_for_component`. -/
def listComponentReleases (componentId : Uuid) : List ReleaseLinkView :=
  (db.componentReleases.rows.filterMap (db.releaseLinkView componentId)).mergeSort fun a b =>
    decide (a.releaseName ≤ b.releaseName)

def repositoryLinkView (componentId : Uuid) (row : ComponentRepository) :
    Option RepositoryLinkView :=
  if row.componentId = componentId then
    (db.repositories.find? row.repositoryId).map fun repository =>
      ⟨row.componentId, row.repositoryId, repository.name, repository.sshUrl, row.branch,
        row.createdAt⟩
  else none

/-- `component_repositories::list_for_component`. -/
def listComponentRepositories (componentId : Uuid) : List RepositoryLinkView :=
  (db.componentRepositories.rows.filterMap (db.repositoryLinkView componentId)).mergeSort
    fun a b => decide (a.repositoryName ≤ b.repositoryName)

/-- `release_versions::list_for_release`. -/
def listVersions (projectId releaseId : Uuid) : List ReleaseVersion :=
  (db.releaseVersions.rows.filterMap fun row =>
    if row.releaseId = releaseId ∧ (db.release? projectId row.releaseId).isSome then some row
    else none).mergeSort fun a b => decide (a.order < b.order ∨ a.order = b.order ∧
      a.createdAt ≤ b.createdAt)

def versionRef (release : Release) (row : ReleaseVersion) : VersionRef :=
  ⟨row.id, row.releaseId, release.name, release.color, row.version, row.status, row.targetDate,
    row.order⟩

def byReleaseName (a b : VersionRef) : Bool :=
  decide (a.releaseName < b.releaseName ∨ a.releaseName = b.releaseName ∧ a.version ≤ b.version)

/-- A version of a release that is linked to one of the components. -/
def refForComponents (componentIds : List Uuid) (row : ReleaseVersion) : Option VersionRef :=
  if db.componentReleases.rows.any fun link =>
      link.releaseId == row.releaseId && componentIds.contains link.componentId then
    (db.releases.find? row.releaseId).map fun release => versionRef release row
  else none

/-- `release_versions::for_components`. -/
def forComponents (componentIds : List Uuid) : List VersionRef :=
  (db.releaseVersions.rows.filterMap (db.refForComponents componentIds)).mergeSort byReleaseName

/-- `release_versions::list_all_for_project`. -/
def listAllForProject (projectId : Uuid) : List VersionRef :=
  (db.releaseVersions.rows.filterMap fun row =>
    (db.release? projectId row.releaseId).map fun release => versionRef release row).mergeSort
      byReleaseName

/-- `backlog::taxonomy_reference_count`. -/
def taxonomyReferenceCount (itemId : Uuid) : Nat :=
  (db.epics.rows.filter (·.statusId == some itemId)).length +
    (db.issues.rows.filter fun issue => issue.statusId == some itemId ||
      issue.typeId == some itemId || issue.priorityId == some itemId ||
      issue.sizeId == some itemId).length

theorem fresh_link {row : IssueLink} (hid : row.id = db.nextId) :
    db.issueLinks.find? row.id = none := by
  rw [Table.find?_eq_none_iff, hid, List.mem_map]
  rintro ⟨old, hold, heq⟩
  exact Nat.ne_of_lt (db.links_lt old hold) heq

theorem fresh_version {row : ReleaseVersion} (hid : row.id = db.nextId) :
    db.releaseVersions.find? row.id = none := by
  rw [Table.find?_eq_none_iff, hid, List.mem_map]
  rintro ⟨old, hold, heq⟩
  exact Nat.ne_of_lt (db.versions_lt old hold) heq

/-- `INSERT INTO issue_links`. -/
def insertLink (row : IssueLink) (hid : row.id = db.nextId) : Db :=
  { db with
    issueLinks := db.issueLinks.insert row (db.fresh_link hid)
    nextId := db.nextId + 1
    links_lt := by
      intro row' hrow
      rcases List.mem_append.mp hrow with hold | hnew
      · exact Nat.lt_succ_of_lt (db.links_lt row' hold)
      · rw [List.mem_singleton.mp hnew, hid]
        exact Nat.lt_succ_self _
    versions_lt := fun row' hrow => Nat.lt_succ_of_lt (db.versions_lt row' hrow) }

/-- `INSERT INTO release_versions`. -/
def insertVersion (row : ReleaseVersion) (hid : row.id = db.nextId) : Db :=
  { db with
    releaseVersions := db.releaseVersions.insert row (db.fresh_version hid)
    nextId := db.nextId + 1
    links_lt := fun row' hrow => Nat.lt_succ_of_lt (db.links_lt row' hrow)
    versions_lt := by
      intro row' hrow
      rcases List.mem_append.mp hrow with hold | hnew
      · exact Nat.lt_succ_of_lt (db.versions_lt row' hold)
      · rw [List.mem_singleton.mp hnew, hid]
        exact Nat.lt_succ_self _ }

/-- `DELETE FROM issue_links`. -/
def eraseLinks (p : IssueLink → Bool) : Db :=
  { db with
    issueLinks := db.issueLinks.erase p
    links_lt := fun row hrow => db.links_lt row (mem_deleteWhere.mp hrow).1 }

/-- `UPDATE release_versions`. -/
def modifyVersions (p : ReleaseVersion → Bool) (f : ReleaseVersion → ReleaseVersion)
    (hf : ∀ row, (f row).id = row.id) : Db :=
  { db with
    releaseVersions := db.releaseVersions.modify p f hf
    versions_lt := by
      intro row hrow
      obtain ⟨old, hold, rfl⟩ := Table.mem_modify.mp hrow
      split
      · rw [hf]
        exact db.versions_lt old hold
      · exact db.versions_lt old hold }

/-- The version that `issue_mirror_release_version` shows: the first of the issue's. -/
def mirrorOf (versions : Table ReleaseVersion.id) (rows : List IssueVersion) (issueId : Uuid) :
    Option Uuid :=
  let own := rows.filter (·.issueId == issueId)
  let sorted := (own.filterMap fun row => versions.find? row.versionId).mergeSort fun a b =>
    decide (a.order < b.order ∨ a.order = b.order ∧ a.id ≤ b.id)
  sorted.head?.map (·.id)

/-- `DELETE FROM release_versions`: the issues' columns are cleared, their
component versions go, and the column mirrors those that are left. -/
def eraseVersion (id : Uuid) : Db :=
  let versions := db.releaseVersions.erase (·.id == id)
  let gone := db.issueVersions.rows.filter (·.versionId == id)
  let kept := db.issueVersions.erase (·.versionId == id)
  { db with
    releaseVersions := versions
    issueVersions := kept
    issues := db.issues.modify
      (fun issue => issue.releaseVersionId == some id || gone.any (·.issueId == issue.id))
      (fun issue =>
        { issue with
          releaseVersionId :=
            if gone.any (·.issueId == issue.id) then mirrorOf versions kept.rows issue.id
            else none })
      (fun _ => rfl)
    versions_lt := fun row hrow => db.versions_lt row (mem_deleteWhere.mp hrow).1 }

end Db

/-! ## Handlers -/

/-- What comes after the checks of a handler. -/
def admitted {α : Type} (checked : Except Problem α) (write : α → Db → Response × Db) (db : Db) :
    Response × Db :=
  match checked with
  | .ok a => write a db
  | .error refusal => (.problem refusal, db)

def ensure (ok : Bool) (refusal : Problem) : Except Problem Unit :=
  if ok then .ok () else .error refusal

/-- An id of the path that parses. -/
def parsed {α : Type} (id : Option α) (refusal : Problem) : Except Problem α :=
  match id with
  | some id => .ok id
  | none => .error refusal

section Handlers

variable (ctx : Context) (now : Int) (db : Db)

/-- The checks of a request on an issue. -/
def admitIssue (id : Option Uuid) : Except Problem Uuid := do
  ensure ctx.allowed forbidden
  let id ← parsed id codedNotFound
  ensure (db.issueInProject ctx.projectId id) codedNotFound
  return id

def admitLink (id : Option Uuid) (body : Except Problem (Uuid × LinkType)) :
    Except Problem (Uuid × Uuid × LinkType) := do
  ensure ctx.allowed forbidden
  let id ← parsed id codedNotFound
  let (target, linkType) ← body
  ensure (target != id) (codedUnprocessable "an issue cannot link to itself")
  ensure (db.issueInProject ctx.projectId id) codedNotFound
  ensure (db.issueInProject ctx.projectId target)
    (codedUnprocessable "target issue not found in this project")
  return (id, target, linkType)

/-- `create_link`, once it is admitted. -/
def writeLink (link : Uuid × Uuid × LinkType) : Response × Db :=
  let (id, target, linkType) := link
  if db.issueLinks.rows.any fun row => row.sourceIssueId == id && row.targetIssueId == target &&
      row.linkType == linkType then (.problem (codedConflict "link already exists"), db)
  else
    let row : IssueLink := ⟨db.nextId, ctx.projectId, id, target, linkType, now⟩
    match db.issues.find? target with
    | none => (.problem codedInternal, db)
    | some issue =>
        (.link ⟨row.id, issue.id, issue.reference, issue.subject, linkType, .outgoing, now⟩,
          db.insertLink row rfl)

/-- What the handlers share that check their permission and parse one id. -/
def admitId {α : Type} (id : Option α) (refusal : Problem) : Except Problem α := do
  ensure ctx.allowed forbidden
  parsed id refusal

/-- `delete_link`, once it is admitted. -/
def eraseLink (linkId : Uuid) : Response × Db :=
  if (db.issueLinks.find? linkId).any (·.projectId == ctx.projectId) then
    (.noContent, db.eraseLinks fun row => row.id == linkId && row.projectId == ctx.projectId)
  else (.problem codedNotFound, db)

/-- `add_watcher`, once it is admitted. -/
def writeWatcher (userId : Uuid) (issueId : Uuid) : Response × Db :=
  if db.users.contains userId then
    match db.issueWatchers.insert? ⟨issueId, userId⟩ with
    | some table => (.noContent, { db with issueWatchers := table })
    | none => (.noContent, db)
  else (.problem codedInternal, db)

/-- The checks of the handlers that parse two ids. -/
def admitPair (first second : Option Uuid) (refusal : Problem) : Except Problem (Uuid × Uuid) := do
  ensure ctx.allowed forbidden
  let first ← parsed first refusal
  let second ← parsed second refusal
  return (first, second)

/-- `remove_watcher`, once it is admitted; the issue is not looked up. -/
def eraseWatcher (pair : Uuid × Uuid) : Response × Db :=
  if (db.issueWatchers.find? pair).isSome then
    (.noContent, { db with issueWatchers := db.issueWatchers.erase fun row => row.key == pair })
  else (.problem codedNotFound, db)

def admitVersion (releaseId : Option Uuid) (body : Except Problem VersionWrite) :
    Except Problem (Uuid × VersionWrite) := do
  ensure ctx.allowed forbidden
  let releaseId ← parsed releaseId codedNotFound
  let w ← body
  ensure (db.release? ctx.projectId releaseId).isSome codedNotFound
  return (releaseId, w)

/-- `UNIQUE (release_id, version)`, the row with `id` aside. -/
def Db.versionTaken (releaseId : Uuid) (version : String) (id : Option Uuid) : Bool :=
  db.releaseVersions.rows.any fun row => row.releaseId == releaseId && row.version == version &&
    id != some row.id

/-- The foreign key to `repositories`; the repository's project is not looked at. -/
def Db.hasRepository (repositoryId : Option Uuid) : Bool :=
  repositoryId.all fun id => (db.repositories.find? id).isSome

/-- Last in the order of the release. -/
def Db.nextOrder (releaseId : Uuid) : Nat :=
  ((db.releaseVersions.rows.filter (·.releaseId == releaseId)).map (·.order)).foldr max 0 + 1

/-- `release_versions::create`, once it is admitted. -/
def writeVersion (new : Uuid × VersionWrite) : Response × Db :=
  let (releaseId, w) := new
  if db.versionTaken releaseId w.version none then
    (.problem (codedConflict "version already exists"), db)
  else if db.hasRepository w.repositoryId then
    let row : ReleaseVersion := ⟨w, db.nextId, releaseId, db.nextOrder releaseId, now⟩
    (.version 201 row, db.insertVersion row rfl)
  else (.problem codedInternal, db)

def admitVersionPatch (versionId : Option Uuid) (body : Except Problem UpdateVersionRequest) :
    Except Problem (ReleaseVersion × VersionWrite) := do
  ensure ctx.allowed forbidden
  let id ← parsed versionId codedNotFound
  let req ← body
  match db.version? ctx.projectId id with
  | none => .error codedNotFound
  | some old => .ok (old, req.over old)

/-- `release_versions::update`, once it is admitted; the foreign key is checked
where it changes. -/
def rewriteVersion (patch : ReleaseVersion × VersionWrite) : Response × Db :=
  let (old, w) := patch
  if db.versionTaken old.releaseId w.version (some old.id) then
    (.problem (codedConflict "version already exists"), db)
  else if w.repositoryId == old.repositoryId || db.hasRepository w.repositoryId then
    (.version 200 { old with toVersionWrite := w },
      db.modifyVersions (·.id == old.id) (fun row => { row with toVersionWrite := w })
        fun _ => rfl)
  else (.problem codedInternal, db)

/-- `delete_version`, once it is admitted. -/
def deleteVersion (id : Uuid) : Response × Db :=
  if (db.version? ctx.projectId id).isSome then (.noContent, db.eraseVersion id)
  else (.problem codedNotFound, db)

def admitBody {α : Type} (body : Except Problem α) : Except Problem α := do
  ensure ctx.allowed forbidden
  body

/-- The checks of a request on a component. -/
def admitComponent (refusal : Problem) (componentId : Option Uuid) : Except Problem Uuid := do
  ensure ctx.allowed forbidden
  let id ← parsed componentId refusal
  ensure (db.componentInProject ctx.projectId id) refusal
  return id

def admitReleaseLink (componentId : Option Uuid) (body : Except Problem Uuid) :
    Except Problem (Uuid × Release) := do
  ensure ctx.allowed forbidden
  let componentId ← parsed componentId codedNotFound
  let releaseId ← body
  ensure (db.componentInProject ctx.projectId componentId) codedNotFound
  match db.release? ctx.projectId releaseId with
  | none => .error (codedUnprocessable "release not found in this project")
  | some release => .ok (componentId, release)

/-- `link_component_release`, once it is admitted. -/
def writeReleaseLink (link : Uuid × Release) : Response × Db :=
  let (componentId, release) := link
  match db.componentReleases.insert? ⟨componentId, release.id, now⟩ with
  | some table =>
      (.release ⟨componentId, release.id, release.name, now⟩,
        { db with componentReleases := table })
  | none => (.problem (codedConflict "release already linked"), db)

/-- `unlink_component_release`, once it is admitted; the component is not looked up. -/
def eraseReleaseLink (pair : Uuid × Uuid) : Response × Db :=
  if (db.componentReleases.find? pair).isSome then
    (.noContent,
      { db with componentReleases := db.componentReleases.erase fun row => row.key == pair })
  else (.problem codedNotFound, db)

/-- The branches of a remote, as `list_remote_branches` finds them for a key and a URL. -/
abbrev Remote := String → String → Option (List String)

/-- `validate_branch`: a remote that cannot be reached lets any branch pass. -/
def branchPasses (remote : Remote) (repository : Repository) (branch : String) : Bool :=
  (repository.sshKeyId.bind fun keyId => ((db.sshKeys.find? keyId).filter
    (·.projectId == ctx.projectId)).bind fun key => remote key.privateKey repository.sshUrl).all
      (·.contains branch)

def admitRepositoryLink (remote : Remote) (componentId : Option Uuid)
    (body : Except Problem (Uuid × String)) : Except Problem (Uuid × Repository × String) := do
  ensure ctx.allowed forbidden
  let componentId ← parsed componentId notFound
  let (repositoryId, branch) ← body
  ensure (db.componentInProject ctx.projectId componentId) notFound
  match db.repository? ctx.projectId repositoryId with
  | none => .error (validationFailed "repository not found in this project")
  | some repository =>
      ensure (branchPasses ctx db remote repository branch)
        (validationFailed "branch not found on the remote")
      return (componentId, repository, branch)

/-- `link_component_repository`, once it is admitted. -/
def writeRepositoryLink (link : Uuid × Repository × String) : Response × Db :=
  let (componentId, repository, branch) := link
  match db.componentRepositories.insert? ⟨componentId, repository.id, branch, now⟩ with
  | some table =>
      (.repository 201 ⟨componentId, repository.id, repository.name, repository.sshUrl, branch,
          now⟩,
        { db with componentRepositories := table })
  | none => (.problem (alreadyExists "repository already linked to this component"), db)

def admitBranch (remote : Remote) (componentId repositoryId : Option Uuid)
    (body : Except Problem String) : Except Problem (Uuid × Repository × String) := do
  ensure ctx.allowed forbidden
  let componentId ← parsed componentId notFound
  let repositoryId ← parsed repositoryId notFound
  let branch ← body
  ensure (db.componentInProject ctx.projectId componentId) notFound
  match db.repository? ctx.projectId repositoryId with
  | none => .error notFound
  | some repository =>
      ensure (branchPasses ctx db remote repository branch)
        (validationFailed "branch not found on the remote")
      return (componentId, repository, branch)

/-- `component_repositories::update_branch`, once it is admitted. -/
def writeBranch (link : Uuid × Repository × String) : Response × Db :=
  let (componentId, repository, branch) := link
  match db.componentRepositories.find? (componentId, repository.id) with
  | some row =>
      (.repository 200 ⟨componentId, repository.id, repository.name, repository.sshUrl, branch,
          row.createdAt⟩,
        { db with
          componentRepositories := db.componentRepositories.modify
            (fun row => row.key == (componentId, repository.id))
            (fun row => { row with branch := branch }) (fun _ => rfl) })
  | none => (.problem notFound, db)

/-- `unlink_component_repository`, once it is admitted; the component is not looked up. -/
def eraseRepositoryLink (pair : Uuid × Uuid) : Response × Db :=
  if (db.componentRepositories.find? pair).isSome then
    (.noContent,
      { db with
        componentRepositories := db.componentRepositories.erase fun row => row.key == pair })
  else (.problem notFound, db)

def admitTaxonomyItem (kind : Option TaxonomyKind) (itemId : Option Uuid) :
    Except Problem (TaxonomyKind × Uuid) := do
  ensure ctx.allowed forbidden
  let kind ← parsed kind notFound
  let itemId ← parsed itemId notFound
  return (kind, itemId)

/-- `taxonomy::delete`, once it is admitted; epics and issues of all projects count. -/
def eraseTaxonomyItem (item : TaxonomyKind × Uuid) : Response × Db :=
  let (kind, itemId) := item
  let count := db.taxonomyReferenceCount itemId
  if 0 < count then (.inUse count (inUseDetail count), db)
  else if (db.taxonomyItems.find? itemId).any fun row =>
      row.projectId == ctx.projectId && row.kind == kind then
    (.noContent,
      { db with
        taxonomyItems := db.taxonomyItems.erase fun row =>
          row.id == itemId && row.projectId == ctx.projectId && row.kind == kind })
  else (.problem notFound, db)

/-- `boards::set_last_opened`, once it is admitted; of the board only its existence counts. -/
def writeLastOpened (boardId : Uuid) : Response × Db :=
  if (db.boards.find? boardId).isSome then
    match db.lastOpened.insert? ⟨ctx.projectId, ctx.actorId, some boardId⟩ with
    | some table => (.noContent, { db with lastOpened := table })
    | none =>
        (.noContent, { db with
          lastOpened := db.lastOpened.modify (fun row => row.key == (ctx.projectId, ctx.actorId))
            (fun row => { row with boardId := some boardId }) (fun _ => rfl) })
  else (.problem internal, db)

/-- A handler that only reads. -/
def reads {α : Type} (view : Db → α → Response) (a : α) (db : Db) : Response × Db := (view db a, db)

def serve (remote : Remote) (db : Db) : Request → Response × Db
  | .listLinks id =>
      admitted (admitIssue ctx db id) (reads fun db id => .links (db.listLinks id)) db
  | .createLink id body =>
      admitted (admitLink ctx db id body) (fun link db => writeLink ctx now db link) db
  | .deleteLink linkId =>
      admitted (admitId ctx linkId codedNotFound) (fun id db => eraseLink ctx db id) db
  | .listWatchers id =>
      admitted (admitIssue ctx db id) (reads fun db id => .watchers (db.listWatchers id)) db
  | .addWatcher id userId => admitted (admitIssue ctx db id)
      (fun id db => writeWatcher db (userId.getD ctx.actorId) id) db
  | .removeWatcher id userId =>
      admitted (admitPair ctx id userId codedNotFound) (fun pair db => eraseWatcher db pair) db
  | .listVersions releaseId => admitted (admitId ctx releaseId codedNotFound)
      (reads fun db id => .versions (db.listVersions ctx.projectId id)) db
  | .createVersion releaseId body =>
      admitted (admitVersion ctx db releaseId body) (fun new db => writeVersion now db new) db
  | .updateVersion versionId body => admitted (admitVersionPatch ctx db versionId body)
      (fun patch db => rewriteVersion db patch) db
  | .deleteVersion versionId =>
      admitted (admitId ctx versionId codedNotFound) (fun id db => deleteVersion ctx db id) db
  | .versionsForComponents body => admitted (admitBody ctx body)
      (reads fun db ids => .versionRefs (db.forComponents ids)) db
  | .listAllReleaseVersions => admitted (ensure ctx.allowed forbidden)
      (reads fun db _ => .versionRefs (db.listAllForProject ctx.projectId)) db
  | .listComponentReleases componentId => admitted (admitComponent ctx db codedNotFound componentId)
      (reads fun db id => .releases (db.listComponentReleases id)) db
  | .linkComponentRelease componentId body =>
      admitted (admitReleaseLink ctx db componentId body)
        (fun link db => writeReleaseLink now db link) db
  | .unlinkComponentRelease componentId releaseId =>
      admitted (admitPair ctx componentId releaseId codedNotFound)
        (fun pair db => eraseReleaseLink db pair) db
  | .listComponentRepositories componentId => admitted (admitComponent ctx db notFound componentId)
      (reads fun db id => .repositories (db.listComponentRepositories id)) db
  | .linkComponentRepository componentId body =>
      admitted (admitRepositoryLink ctx db remote componentId body)
        (fun link db => writeRepositoryLink now db link) db
  | .updateComponentRepository componentId repositoryId body =>
      admitted (admitBranch ctx db remote componentId repositoryId body)
        (fun link db => writeBranch db link) db
  | .unlinkComponentRepository componentId repositoryId =>
      admitted (admitPair ctx componentId repositoryId notFound)
        (fun pair db => eraseRepositoryLink db pair) db
  | .deleteTaxonomyItem kind itemId => admitted (admitTaxonomyItem ctx kind itemId)
      (fun item db => eraseTaxonomyItem ctx db item) db
  | .getLastOpened => admitted (ensure ctx.allowed forbidden)
      (reads fun db _ => .board
        ((db.lastOpened.find? (ctx.projectId, ctx.actorId)).bind (·.boardId))) db
  | .setLastOpened boardId =>
      admitted (admitId ctx boardId notFound) (fun id db => writeLastOpened ctx db id) db

end Handlers

end IntelliPilot.Projects.Resources
