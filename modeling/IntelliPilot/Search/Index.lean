import IntelliPilot.Projects.Activity
import IntelliPilot.Projects.Memberships
import IntelliPilot.Relational.Copies

/-! # The search index

`search_index` and the triggers that fill it from epics, issues, wiki pages,
meetings and comments, with the statements of `db::backlog`, `db::wiki`,
`db::meetings`, `db::comments` and `db::projects` that write those tables. Of
the tables only the columns that the triggers or the search read are kept.
-/

namespace IntelliPilot.Search

open Projects (Uuid Permission Role Membership MemberAccess ProjectContext)
open Projects.Activity (Comment Target TargetType)

/-! ## Tables -/

/-- The tables of work items. -/
inductive ItemKind where
  | epic
  | issue
  deriving DecidableEq, Repr

def ItemKind.entityType : ItemKind → TargetType
  | .epic => .epic
  | .issue => .issue

/-- A row of `epics` or `issues`. -/
structure WorkItem where
  id : Uuid
  projectId : Uuid
  reference : Nat
  subject : String
  description : String
  deletedAt : Option Int
  deriving DecidableEq, Repr

structure WikiPage where
  id : Uuid
  projectId : Uuid
  title : String
  body : String
  deletedAt : Option Int
  deriving DecidableEq, Repr

structure Meeting where
  id : Uuid
  projectId : Uuid
  title : String
  description : String
  summary : String
  transcript : String
  deletedAt : Option Int
  deriving DecidableEq, Repr

structure Project where
  id : Uuid
  name : String
  issuePrefix : String
  isPrivate : Bool
  deletedAt : Option Int
  deriving DecidableEq, Repr

/-- A row of `search_index`; the vectors are functions of its texts. -/
structure Entry where
  entityType : TargetType
  entityId : Uuid
  projectId : Uuid
  reference : Option Nat
  title : String
  body : String
  deriving DecidableEq, Repr

def Entry.key (entry : Entry) : TargetType × Uuid := (entry.entityType, entry.entityId)

/-! ## Triggers -/

def WorkItem.entry (kind : ItemKind) (row : WorkItem) : Entry :=
  ⟨kind.entityType, row.id, row.projectId, some row.reference, row.subject, row.description⟩

/-- `sync_search_workitem`. -/
def syncSearchWorkitem (kind : ItemKind) : Feed WorkItem.id Entry.key :=
  .ofLive kind.entityType (·.deletedAt.isNone) (WorkItem.entry kind)
    (fun old new =>
      { old with
        projectId := new.projectId
        reference := new.reference
        title := new.title
        body := new.body })
    (fun _ => rfl) (fun _ _ => rfl) fun _ _ h => by simp [WorkItem.entry, h]

def WikiPage.entry (row : WikiPage) : Entry :=
  ⟨.wiki, row.id, row.projectId, none, row.title, row.body⟩

/-- `sync_search_wiki`. -/
def syncSearchWiki : Feed WikiPage.id Entry.key :=
  .ofLive .wiki (·.deletedAt.isNone) WikiPage.entry
    (fun old new => { old with projectId := new.projectId, title := new.title, body := new.body })
    (fun _ => rfl) (fun _ _ => rfl) fun _ _ h => by simp [WikiPage.entry, h]

/-- `left(concat_ws(E'\n\n', …), 100000)`, of the texts that are not empty. -/
def Meeting.text (row : Meeting) : String :=
  String.ofList
    ((String.intercalate "\n\n"
      ([row.description, row.summary, row.transcript].filter (· != ""))).toList.take 100000)

def Meeting.entry (row : Meeting) : Entry :=
  ⟨.meeting, row.id, row.projectId, none, row.title, row.text⟩

/-- `sync_search_meeting`. -/
def syncSearchMeeting : Feed Meeting.id Entry.key :=
  .ofLive .meeting (·.deletedAt.isNone) Meeting.entry
    (fun old new => { old with projectId := new.projectId, title := new.title, body := new.body })
    (fun _ => rfl) (fun _ _ => rfl) fun _ _ h => by simp [Meeting.entry, h]

/-- A comment has no title. -/
def commentEntry (row : Comment) : Entry := ⟨.comment, row.id, row.projectId, none, "", row.body⟩

/-- `sync_search_comment`. -/
def syncSearchComment : Feed Comment.id Entry.key :=
  .ofLive .comment (·.deletedAt.isNone) commentEntry
    (fun old new => { old with projectId := new.projectId, body := new.body })
    (fun _ => rfl) (fun _ _ => rfl) fun _ _ h => by simp [commentEntry, h]

structure State where
  projects : Table Project.id
  prefixHistory : List (String × Uuid)
  items : ItemKind → Table WorkItem.id
  lastRef : ItemKind → Uuid → Nat
  wikiPages : Table WikiPage.id
  meetings : Table Meeting.id
  comments : Table Comment.id
  searchIndex : Table Entry.key
  roles : Table Role.id
  memberships : Table Membership.key
  superadmins : List Uuid
  now : Int

namespace State

variable (s : State)

/-! ## Reads -/

/-- `projects::find_by_id`. -/
def project? (id : Uuid) : Option Project := (s.projects.find? id).filter (·.deletedAt.isNone)

/-- `memberships::access`. -/
def access (projectId userId : Uuid) : Option MemberAccess := do
  let membership ← s.memberships.find? (projectId, userId)
  let role ← s.roles.find? membership.roleId
  return ⟨role.id, role.isAdmin, role.permissions⟩

/-- `users::is_active_superadmin`. -/
def isActiveSuperadmin (userId : Uuid) : Bool := s.superadmins.contains userId

/-- The extraction of `ProjectContext`; a private project is hidden from strangers. -/
def context (projectId userId : Uuid) : Option ProjectContext := do
  let project ← s.project? projectId
  let access := s.access projectId userId
  let isSuperadmin := s.isActiveSuperadmin userId
  if project.isPrivate && access.isNone && !isSuperadmin then none
  else some ⟨projectId, userId, access, isSuperadmin⟩

/-- `comments::meta`. -/
def liveComment? (id : Uuid) : Option Comment := (s.comments.find? id).filter (·.deletedAt.isNone)

/-! ## Writes -/

/-- A table of work items with its part of the index. -/
def setItems (kind : ItemKind) (table : Table WorkItem.id) (index : Table Entry.key) : State :=
  { s with
    items := fun other => if other = kind then table else s.items other
    searchIndex := index }

/-- `INSERT INTO epics` or `INSERT INTO issues`, with the next number of the project. -/
def insertItem (kind : ItemKind) (projectId id : Uuid) (subject description : String) :
    Option State :=
  let row : WorkItem := ⟨id, projectId, s.lastRef kind projectId + 1, subject, description, none⟩
  ((s.items kind).insert? row).map fun table =>
    { s.setItems kind table ((syncSearchWorkitem kind).written row s.searchIndex) with
      lastRef := fun other project =>
        if other = kind ∧ project = projectId then s.lastRef kind projectId + 1
        else s.lastRef other project }

/-- `id = $1 AND project_id = $2 AND deleted_at IS NULL`. -/
def item? (kind : ItemKind) (projectId id : Uuid) : Option WorkItem :=
  ((s.items kind).find? id).filter fun row => row.projectId == projectId && row.deletedAt.isNone

/-- `UPDATE`, of the row that `item?` finds. -/
def writeItem (kind : ItemKind) (f : WorkItem → WorkItem) (hf : ∀ row, (f row).id = row.id)
    (row : WorkItem) : State :=
  s.setItems kind ((s.items kind).modify (·.id == row.id) f hf)
    ((syncSearchWorkitem kind).written (f row) s.searchIndex)

/-- `backlog::update_epic` and `backlog::update_issue`. -/
def updateItem (kind : ItemKind) (projectId id : Uuid) (subject description : String) :
    Option State :=
  (s.item? kind projectId id).map
    (s.writeItem kind (fun row => { row with subject := subject, description := description })
      fun _ => rfl)

/-- `backlog::soft_delete`. -/
def softDeleteItem (kind : ItemKind) (projectId id : Uuid) : Option State :=
  (s.item? kind projectId id).map
    (s.writeItem kind (fun row => { row with deletedAt := some s.now }) fun _ => rfl)

/-- `DELETE FROM comments`. -/
def deleteComments (p : Comment → Bool) : State :=
  { s with
    comments := s.comments.erase p
    searchIndex := (s.comments.rows.filter p).foldl syncSearchComment.deleted s.searchIndex }

/-- `DELETE FROM epics` or `DELETE FROM issues`. -/
def deleteItems (kind : ItemKind) (p : WorkItem → Bool) : State :=
  s.setItems kind ((s.items kind).erase p)
    (((s.items kind).rows.filter p).foldl (syncSearchWorkitem kind).deleted s.searchIndex)

/-- A comment on an item of the project. -/
def onItemOf (kind : ItemKind) (projectId : Uuid) (comment : Comment) : Bool :=
  comment.target.1 == kind.entityType &&
    ((s.items kind).find? comment.target.2).any (·.projectId == projectId)

/-- `backlog::purge_project_epics` and `backlog::purge_project_issues`. -/
def purgeItems (kind : ItemKind) (projectId : Uuid) : State :=
  (s.deleteComments (s.onItemOf kind projectId)).deleteItems kind (·.projectId == projectId)

/-- `wiki::create`. -/
def insertWikiPage (projectId id : Uuid) (title body : String) : Option State :=
  let row : WikiPage := ⟨id, projectId, title, body, none⟩
  (s.wikiPages.insert? row).map fun table =>
    { s with wikiPages := table, searchIndex := syncSearchWiki.written row s.searchIndex }

def wikiPage? (projectId id : Uuid) : Option WikiPage :=
  (s.wikiPages.find? id).filter fun row => row.projectId == projectId && row.deletedAt.isNone

def writeWikiPage (f : WikiPage → WikiPage) (hf : ∀ row, (f row).id = row.id) (row : WikiPage) :
    State :=
  { s with
    wikiPages := s.wikiPages.modify (·.id == row.id) f hf
    searchIndex := syncSearchWiki.written (f row) s.searchIndex }

/-- `wiki::update`. -/
def updateWikiPage (projectId id : Uuid) (title body : String) : Option State :=
  (s.wikiPage? projectId id).map
    (s.writeWikiPage (fun row => { row with title := title, body := body }) fun _ => rfl)

/-- `wiki::soft_delete`. -/
def softDeleteWikiPage (projectId id : Uuid) : Option State :=
  (s.wikiPage? projectId id).map
    (s.writeWikiPage (fun row => { row with deletedAt := some s.now }) fun _ => rfl)

/-- `meetings::create`. -/
def insertMeeting (projectId id : Uuid) (title description summary transcript : String) :
    Option State :=
  let row : Meeting := ⟨id, projectId, title, description, summary, transcript, none⟩
  (s.meetings.insert? row).map fun table =>
    { s with meetings := table, searchIndex := syncSearchMeeting.written row s.searchIndex }

def meeting? (projectId id : Uuid) : Option Meeting :=
  (s.meetings.find? id).filter fun row => row.projectId == projectId && row.deletedAt.isNone

def writeMeeting (f : Meeting → Meeting) (hf : ∀ row, (f row).id = row.id) (row : Meeting) :
    State :=
  { s with
    meetings := s.meetings.modify (·.id == row.id) f hf
    searchIndex := syncSearchMeeting.written (f row) s.searchIndex }

/-- `meetings::update`; a text that is not given stays. -/
def updateMeeting (projectId id : Uuid)
    (title description summary transcript : Option String) : Option State :=
  (s.meeting? projectId id).map
    (s.writeMeeting (fun row =>
      { row with
        title := title.getD row.title
        description := description.getD row.description
        summary := summary.getD row.summary
        transcript := transcript.getD row.transcript }) fun _ => rfl)

/-- `meetings::soft_delete`. -/
def softDeleteMeeting (projectId id : Uuid) : Option State :=
  (s.meeting? projectId id).map
    (s.writeMeeting (fun row => { row with deletedAt := some s.now }) fun _ => rfl)

/-- `comments::create`. -/
def insertComment (row : Comment) : Option State :=
  (s.comments.insert? row).map fun table =>
    { s with comments := table, searchIndex := syncSearchComment.written row s.searchIndex }

def writeComment (f : Comment → Comment) (hf : ∀ row, (f row).id = row.id) (row : Comment) :
    State :=
  { s with
    comments := s.comments.modify (·.id == row.id) f hf
    searchIndex := syncSearchComment.written (f row) s.searchIndex }

/-- `comments::update`. -/
def updateComment (id : Uuid) (body bodyHtml : String) : Option State :=
  (s.liveComment? id).map (s.writeComment (Comment.edit body bodyHtml s.now) fun _ => rfl)

/-- `comments::soft_delete`. -/
def softDeleteComment (id : Uuid) : Option State :=
  (s.liveComment? id).map (s.writeComment (Comment.erase s.now) fun _ => rfl)

/-- `INSERT INTO projects`. -/
def insertProject (id : Uuid) (name issuePrefix : String) (isPrivate : Bool) : Option State :=
  (s.projects.insert? ⟨id, name, issuePrefix, isPrivate, none⟩).map fun table =>
    { s with projects := table }

/-- `projects::update`. -/
def updateProject (id : Uuid) (name issuePrefix : String) (isPrivate : Bool) : Option State :=
  (s.project? id).map fun row =>
    { s with
      projects := s.projects.modify (·.id == row.id)
        (fun row =>
          { row with name := name, issuePrefix := issuePrefix, isPrivate := isPrivate })
        (fun _ => rfl)
      -- `record_prefix_history`: the last claim of a prefix wins
      prefixHistory :=
        if row.issuePrefix = issuePrefix then s.prefixHistory
        else (row.issuePrefix, id) :: s.prefixHistory.filter (·.1 != row.issuePrefix) }

/-- `projects::soft_delete`. -/
def softDeleteProject (id : Uuid) : Option State :=
  (s.project? id).map fun row =>
    { s with
      projects := s.projects.modify (·.id == row.id)
        (fun row => { row with deletedAt := some s.now }) (fun _ => rfl) }

end State

end IntelliPilot.Search
