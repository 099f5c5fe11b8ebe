import IntelliPilot.Filters.Agreement

/-! # The personal feed

`my_issues::list` and the board of a project tell on their own which issues are
someone's. The feed reads the texts themselves, the board reads their copies in
the search index.
-/

namespace IntelliPilot.Filters

open Projects (Uuid Membership)
open Projects.Activity (Comment TargetType)
open Search (Entry syncSearchWorkitem syncSearchComment)
open Text (CaseFolding likeEscape)

/-! ## The feed -/

inductive MyIssueRole where
  | assignee
  | reporter
  | reviewer
  | qa
  | mentioned
  deriving DecidableEq, Repr

/-- The role of the board with the same name. -/
def MyIssueRole.onBoard : MyIssueRole → Role
  | .assignee => .assignee
  | .reporter => .reporter
  | .reviewer => .reviewer
  | .qa => .qa
  | .mentioned => .mentioned

structure MyIssue where
  id : Uuid
  reference : Nat
  key : String
  subject : String
  projectId : Uuid
  projectSlug : String
  projectName : String
  status : Option String
  isClosed : Bool
  issueType : Option String
  priority : Option String
  assignedTo : Option Uuid
  ownerId : Option Uuid
  reviewerId : Option Uuid
  qaAssigneeId : Option Uuid
  dueDate : Option Int
  createdAt : Int
  modifiedAt : Int
  deriving DecidableEq, Repr

variable (fold : CaseFolding) (db : Database)

/-- `role_condition`, with the pattern for a mention in its place. -/
def roleCondition (userId : Uuid) (mention : String) (role : MyIssueRole)
    (row : Issue × Project) : Truth :=
  match role with
  | .assignee => .eq row.1.assignedTo (some userId)
  | .reporter => .eq row.1.ownerId (some userId)
  | .reviewer => .eq row.1.reviewerId (some userId)
  | .qa => .eq row.1.qaAssigneeId (some userId)
  | .mentioned =>
    ((ilike fold row.1.description (some mention)).or
      (.exists_ (fun comment : Comment =>
        ((Truth.eq (some comment.target) (some (.issue, row.1.id))).and
          (.isNull comment.deletedAt)).and (ilike fold comment.body (some mention)))
        db.comments.rows)).and
    (((Truth.ofBool !row.2.isPrivate).or
      (.exists_ (fun member : Membership =>
        (Truth.eq (some member.projectId) (some row.1.projectId)).and
          (.eq (some member.userId) (some userId))) db.memberships)).or
      (.exists_ (fun user : User =>
        (Truth.eq (some user.id) (some userId)).and (.ofBool user.isSuperadmin)) db.users.rows))

/-- `LEFT JOIN taxonomy_items`. -/
def taxonomyItem? (id : Option Uuid) : Option TaxonomyItem := id.bind db.taxonomyItems.find?

/-- The conditions on a row of `issues` and that of its project. -/
def feedWhere (userId : Uuid) (username : String) (role : MyIssueRole) (projectId : Option Uuid)
    (includeClosed : Bool) (search : Option String) (row : Issue × Project) : Truth :=
  .conjunction [
    .isNull row.1.deletedAt,
    roleCondition fold db userId (mentionPattern username) role row,
    match projectId with
    | none => .true
    | some id => .eq (some row.1.projectId) (some id),
    if includeClosed then .true
    else (Truth.ofColumn ((taxonomyItem? db row.1.statusId).bind (·.isClosed))).isNotTrue,
    match search with
    | none => .true
    | some s =>
      ilike fold row.1.subject (some (String.ofList ('%' :: (likeEscape s.toList ++ ['%']))))]

/-- `FROM issues i JOIN projects p`. -/
def joined : List (Issue × Project) :=
  db.issues.rows.flatMap fun issue =>
    (db.projects.rows.filter (·.id == issue.projectId)).map fun project => (issue, project)

/-- `row_to_issue`. -/
def rowToIssue (row : Issue × Project) : MyIssue where
  id := row.1.id
  reference := row.1.reference
  key := row.2.issuePrefix ++ "-" ++ toString row.1.reference
  subject := row.1.subject
  projectId := row.2.id
  projectSlug := row.2.slug
  projectName := row.2.name
  status := (taxonomyItem? db row.1.statusId).map (·.name)
  isClosed := ((taxonomyItem? db row.1.statusId).bind (·.isClosed)).getD false
  issueType := (taxonomyItem? db row.1.typeId).map (·.name)
  priority := (taxonomyItem? db row.1.priorityId).map (·.name)
  assignedTo := row.1.assignedTo
  ownerId := row.1.ownerId
  reviewerId := row.1.reviewerId
  qaAssigneeId := row.1.qaAssigneeId
  dueDate := row.1.dueDate
  createdAt := row.1.createdAt
  modifiedAt := row.1.modifiedAt

/-- `ORDER BY i.modified_at DESC, i.id DESC`. -/
def NewestFirst (a b : Issue × Project) : Prop :=
  b.1.modifiedAt < a.1.modifiedAt ∨ a.1.modifiedAt = b.1.modifiedAt ∧ b.1.id ≤ a.1.id

instance : DecidableRel NewestFirst := fun _ _ => inferInstanceAs (Decidable (_ ∨ _ ∧ _))

/-- `my_issues::list`: a page, and how many issues there are in all. A negative limit or
offset is an error of the server. -/
def list (userId : Uuid) (username : String) (role : MyIssueRole) (projectId : Option Uuid)
    (includeClosed : Bool) (search : Option String) (limit offset : Int) :
    Option (List MyIssue × Nat) :=
  let rows := Truth.select (feedWhere fold db userId username role projectId includeClosed search)
    (joined db)
  if limit < 0 ∨ offset < 0 then none
  else some ((Windows.page limit.toNat offset.toNat (Windows.orderBy NewestFirst rows)).map
    (rowToIssue db), rows.length)

/-! ## What the feed contains -/

/-- Some page of the feed contains the issue. -/
def InFeed (userId : Uuid) (username : String) (role : MyIssueRole) (projectId : Option Uuid)
    (includeClosed : Bool) (search : Option String) (issueId : Uuid) : Prop :=
  ∃ limit offset page total,
    list fold db userId username role projectId includeClosed search limit offset =
      some (page, total) ∧ ∃ item ∈ page, item.id = issueId

variable {fold db}

theorem mem_joined {row : Issue × Project} :
    row ∈ joined db ↔ row.1 ∈ db.issues.rows ∧ db.projects.find? row.1.projectId = some row.2 := by
  rw [joined, List.mem_flatMap, Table.find?_eq_some_iff]
  constructor
  · rintro ⟨issue, hissue, hrow⟩
    obtain ⟨project, hproject, rfl⟩ := List.mem_map.mp hrow
    obtain ⟨hmem, hid⟩ := List.mem_filter.mp hproject
    exact ⟨hissue, hmem, beq_iff_eq.mp hid⟩
  · rintro ⟨hissue, hmem, hid⟩
    exact ⟨row.1, hissue, List.mem_map_of_mem (List.mem_filter.mpr ⟨hmem, beq_iff_eq.mpr hid⟩)⟩

variable {username : String} {role : MyIssueRole} {userId : Uuid} {projectId : Option Uuid}

/-- The feed contains the issues whose rows the conditions keep. -/
theorem inFeed_iff {includeClosed : Bool} {search : Option String} {issueId : Uuid} :
    InFeed fold db userId username role projectId includeClosed search issueId ↔
      ∃ row ∈ joined db, row.1.id = issueId ∧
        feedWhere fold db userId username role projectId includeClosed search row = .true := by
  constructor
  · rintro ⟨limit, offset, page, total, hlist, item, hitem, hid⟩
    unfold list at hlist
    split at hlist
    next => contradiction
    next =>
      rw [← (Prod.mk.inj (Option.some.inj hlist)).1] at hitem
      obtain ⟨row, hrow, rfl⟩ := List.mem_map.mp hitem
      have hkept := List.mem_of_mem_drop (List.mem_of_mem_take hrow)
      rw [Windows.orderBy, List.mem_insertionSort, Truth.mem_select] at hkept
      exact ⟨row, hkept.1, hid, hkept.2⟩
  · rintro ⟨row, hrow, hid, hkept⟩
    have hmem := Truth.mem_select.mpr ⟨hrow, hkept⟩
    obtain ⟨rows, hrows⟩ : ∃ rows, rows = Truth.select
      (feedWhere fold db userId username role projectId includeClosed search) (joined db) :=
        ⟨_, rfl⟩
    have hall : Windows.page rows.length 0 (Windows.orderBy NewestFirst rows) =
        Windows.orderBy NewestFirst rows := by
      rw [Windows.page, List.drop_zero]
      exact List.take_of_length_le (List.length_insertionSort _ _).le
    have hlist : list fold db userId username role projectId includeClosed search rows.length 0 =
        some ((Windows.orderBy NewestFirst rows).map (rowToIssue db), rows.length) := by
      rw [list, if_neg (by omega), ← hrows, Int.toNat_zero, Int.toNat_natCast, hall]
    refine ⟨_, _, _, _, hlist, rowToIssue db row, List.mem_map_of_mem ?_, hid⟩
    exact (List.mem_insertionSort _).mpr (hrows ▸ hmem)

/-! ## Mentions -/

/-- The text that a mention of the user has in it. -/
def handle (username : String) : String := "@" ++ username

variable {text : String}

theorem ilike_mentionPattern :
    fold.ilike text (mentionPattern username) = true ↔ fold.Contains text (handle username) := by
  have hpattern : mentionPattern username =
      String.ofList ('%' :: (likeEscape ('@' :: username.toList) ++ ['%'])) := by
    rw [Text.likeEscape_cons]
    rfl
  have hhandle : String.ofList ('@' :: username.toList) = handle username := by
    rw [handle, String.ext_iff]
    simp
  rw [hpattern, fold.ilike_likeEscape_iff, hhandle]

/-- What is read in front of a text has no part in a mention. -/
theorem contains_blank_append :
    fold.Contains ("" ++ " " ++ text) (handle username) ↔
      fold.Contains text (handle username) := by
  have hblank : fold.lower ' ' ≠ '@' := by
    intro h
    exact absurd ((fold.lower_eq_mark_iff ' ' '@' (by decide)).mp h) (by decide)
  have hat : fold.lower '@' = '@' := fold.lower_mark (by decide)
  have happend : fold.apply ("" ++ " " ++ text) = fold.lower ' ' :: fold.apply text := by
    simp [CaseFolding.apply]
  have hhandle : fold.apply (handle username) = '@' :: fold.apply username := by
    simp [CaseFolding.apply, handle, hat]
  rw [CaseFolding.Contains, CaseFolding.Contains, happend, hhandle, List.infix_cons_iff]
  constructor
  · rintro (hstart | hinfix)
    · exact absurd (List.cons_prefix_cons.mp hstart).1.symm hblank
    · exact hinfix
  · exact .inr

theorem Contains.append {first second part : String} (h : fold.Contains second part) :
    fold.Contains (first ++ " " ++ second) part := by
  obtain ⟨before, after, happ⟩ := h
  refine ⟨fold.apply (first ++ " ") ++ before, after, ?_⟩
  simp only [CaseFolding.apply, String.toList_append, List.map_append, List.append_assoc] at happ ⊢
  rw [happ]

/-- The user is mentioned in the description of the issue or in a comment on it. -/
def Mentioned (fold : CaseFolding) (db : Database) (username : String) (issue : Issue) : Prop :=
  fold.Contains issue.description (handle username) ∨
    ∃ comment ∈ db.comments.rows, comment.target = (.issue, issue.id) ∧ comment.deletedAt = none ∧
      fold.Contains comment.body (handle username)

/-- The project is open to the user: public, one of theirs, or anyone's as a superadmin. -/
def Visible (db : Database) (userId : Uuid) (project : Project) (projectId : Uuid) : Prop :=
  project.isPrivate = false ∨
    (∃ member ∈ db.memberships, member.projectId = projectId ∧ member.userId = userId) ∨
    ∃ user ∈ db.users.rows, user.id = userId ∧ user.isSuperadmin = true

/-- What the conditions of the feed ask of the user and the issue. -/
def Mine (fold : CaseFolding) (db : Database) (userId : Uuid) (username : String)
    (role : MyIssueRole) (issue : Issue) (project : Project) : Prop :=
  match role with
  | .assignee => issue.assignedTo = some userId
  | .reporter => issue.ownerId = some userId
  | .reviewer => issue.reviewerId = some userId
  | .qa => issue.qaAssigneeId = some userId
  | .mentioned => Mentioned fold db username issue ∧ Visible db userId project issue.projectId

theorem ilike_mention_eq_true :
    ilike fold text (some (mentionPattern username)) = .true ↔
      fold.Contains text (handle username) := by
  simp [ilike, ilike_mentionPattern]

theorem roleCondition_eq_true {row : Issue × Project} :
    roleCondition fold db userId (mentionPattern username) role row = .true ↔
      Mine fold db userId username role row.1 row.2 := by
  cases role with
  | mentioned =>
    simp only [roleCondition, Mine, Mentioned, Visible, Truth.and_eq_true, Truth.or_eq_true,
      Truth.exists_eq_true, Truth.eq_some_eq_true, Truth.isNull_eq_true, Truth.ofBool_eq_true,
      ilike_mention_eq_true, Bool.not_eq_eq_eq_not, Bool.not_true, and_assoc, or_assoc]
  | _ => simp [roleCondition, Mine, Truth.eq_eq_true]

/-! ## The board -/

/-- The triggers have kept the index of issues and comments. -/
structure Maintained extends Database where
  issuesIndexed : ∀ id, searchIndex.find? (.issue, id) =
    (issues.find? id).bind fun issue => (syncSearchWorkitem .issue).copy issue.toWorkItem
  commentsIndexed : syncSearchComment.Mirrors comments searchIndex

/-- What the board asks for on behalf of the user. -/
def mineQuery (userId : Uuid) (username : String) (role : MyIssueRole) : IssueQuery :=
  { IssueQuery.none with
    myRole := some role.onBoard.name
    actorId := some userId
    mentionLike := some (mentionPattern username) }

variable {issue : Issue}

/-- With one role as its only dimension, a query means the issues that it is held on. -/
theorem mem_listed_mineQuery {projectId : Uuid} :
    issue ∈ listed fold db projectId (mineQuery userId username role) ↔
      issue ∈ db.issues.rows ∧ issue.projectId = projectId ∧ issue.deletedAt = none ∧
        HoldsRole fold db (mineQuery userId username role) issue role.onBoard := by
  rw [mem_listed]
  constructor
  · rintro ⟨hissue, hmeets⟩
    exact ⟨hissue, hmeets.project, hmeets.live, holdsRole_of_withRole hmeets⟩
  · rintro ⟨hissue, hproject, hlive, hheld⟩
    have hnone : ∀ {α : Type} {p : α → Prop} (x : α), (none : Option α) = some x → p x := by
      intro α p x h
      contradiction
    exact ⟨hissue, hproject, hlive, hnone, hnone, hnone, hnone, hnone, hnone, hnone, hnone, hnone,
      hnone, hnone, hnone, fun h => absurd h Bool.false_ne_true, hnone, hnone, hnone,
      fun name hname => .inr ⟨role.onBoard, (Option.some.inj hname).symm, hheld⟩⟩

namespace Maintained

variable {m : Maintained}

/-- The copy of a live issue has its texts. -/
theorem entry_of_issue {issue : Issue} (hissue : issue ∈ m.issues.rows)
    (hlive : issue.deletedAt = none) {entry : Entry} :
    (entry ∈ m.searchIndex.rows ∧ entry.key = (.issue, issue.id)) ↔
      entry = issue.toWorkItem.entry .issue := by
  have hfound : m.issues.find? issue.id = some issue := Table.find?_eq_some_iff.mpr ⟨hissue, rfl⟩
  have hcopy : (syncSearchWorkitem .issue).copy issue.toWorkItem =
      some (issue.toWorkItem.entry .issue) := if_pos (by simp [hlive])
  rw [← Table.find?_eq_some_iff, m.issuesIndexed, hfound, Option.bind_some, hcopy,
    Option.some.injEq, eq_comm]

/-- The copy of a live comment has its body. -/
theorem entry_of_comment {comment : Comment} (hcomment : comment ∈ m.comments.rows)
    (hlive : comment.deletedAt = none) {entry : Entry} :
    (entry ∈ m.searchIndex.rows ∧ entry.key = (.comment, comment.id)) ↔
      entry = Search.commentEntry comment := by
  have hfound : m.comments.find? comment.id = some comment :=
    Table.find?_eq_some_iff.mpr ⟨hcomment, rfl⟩
  have hcopy : syncSearchComment.copy comment = some (Search.commentEntry comment) :=
    if_pos (by simp [hlive])
  have hindexed := m.commentsIndexed comment.id
  rw [hfound, Option.bind_some, hcopy] at hindexed
  rw [← Table.find?_eq_some_iff]
  exact ⟨fun h => Option.some.inj (h.symm.trans hindexed), fun h => h ▸ hindexed⟩

/-- The board finds a mention in the subject or the description together, or in a comment. -/
theorem holdsMentioned_iff {userId : Uuid} {issue : Issue} (hissue : issue ∈ m.issues.rows)
    (hlive : issue.deletedAt = none) :
    HoldsRole fold m.toDatabase (mineQuery userId username .mentioned) issue .mentioned ↔
      fold.Contains (issue.subject ++ " " ++ issue.description) (handle username) ∨
        Mentioned fold m.toDatabase username issue := by
  have hpattern : ∀ p, (mineQuery userId username .mentioned).mentionLike = some p →
      p = mentionPattern username := fun p h => (Option.some.inj h).symm
  constructor
  · rintro ⟨pattern, hp, hfound⟩
    rw [hpattern pattern hp] at hfound
    rcases hfound with ⟨entry, hentry, -, hkey, hmatch⟩ | hcomments
    · rw [(entry_of_issue hissue hlive).mp ⟨hentry, hkey⟩] at hmatch
      exact .inl (ilike_mentionPattern.mp hmatch)
    · obtain ⟨comment, hcomment, htarget, hdeleted, entry, hentry, hkey, hmatch⟩ := hcomments
      rw [(entry_of_comment hcomment hdeleted).mp ⟨hentry, hkey⟩] at hmatch
      refine .inr (.inr ⟨comment, hcomment, htarget, hdeleted, ?_⟩)
      exact contains_blank_append.mp (ilike_mentionPattern.mp hmatch)
  · intro h
    refine ⟨mentionPattern username, rfl, ?_⟩
    have hself := (entry_of_issue hissue hlive).mpr rfl
    rcases h with htext | hdescription | ⟨comment, hcomment, htarget, hdeleted, hbody⟩
    · exact .inl ⟨_, hself.1, rfl, hself.2, ilike_mentionPattern.mpr htext⟩
    · exact .inl ⟨_, hself.1, rfl, hself.2,
        ilike_mentionPattern.mpr (Contains.append hdescription)⟩
    · have hentry := (entry_of_comment hcomment hdeleted).mpr rfl
      refine .inr ⟨comment, hcomment, htarget, hdeleted, _, hentry.1, hentry.2, ?_⟩
      exact ilike_mentionPattern.mpr (contains_blank_append.mpr hbody)

end Maintained

/-! ## The same issues -/

/-- The issue is in the live project, and the user is a member of it. -/
structure OnBoard (db : Database) (userId projectId : Uuid) (issue : Issue) : Prop where
  stored : issue ∈ db.issues.rows
  inProject : issue.projectId = projectId
  live : ∃ project, db.projects.find? projectId = some project ∧ project.deletedAt = none
  member : ∃ membership ∈ db.memberships, membership.projectId = projectId ∧
    membership.userId = userId

/-- The feed and the boards mean the same by the issues of a user. -/
structure SameMine (fold : CaseFolding) (db : Database) (userId : Uuid) (username : String) :
    Prop where
  board : ∀ projectId issue role, OnBoard db userId projectId issue →
    (InFeed fold db userId username role (some projectId) true none issue.id ↔
      issue ∈ listed fold db projectId (mineQuery userId username role))
  feed : ∀ role includeClosed search, ∀ issue ∈ db.issues.rows, ∀ project,
    db.projects.find? issue.projectId = some project →
    InFeed fold db userId username role none includeClosed search issue.id →
      project.deletedAt = none

/-- Who is mentioned in the subject of an issue of theirs, or across its end, is so in
its description or in a comment, too. -/
def MentionedInTexts (fold : CaseFolding) (db : Database) (userId : Uuid) (username : String) :
    Prop :=
  ∀ projectId issue, OnBoard db userId projectId issue → issue.deletedAt = none →
    fold.Contains (issue.subject ++ " " ++ issue.description) (handle username) →
      Mentioned fold db username issue

/-- No live issue of a deleted project is the user's. -/
def NoneInDeleted (fold : CaseFolding) (db : Database) (userId : Uuid) (username : String) :
    Prop :=
  ∀ issue ∈ db.issues.rows, issue.deletedAt = none → ∀ project,
    db.projects.find? issue.projectId = some project → project.deletedAt ≠ none →
      ∀ role, ¬ Mine fold db userId username role issue project

variable {project : Project}

/-- The feed contains live issues that are the user's. -/
theorem mine_of_inFeed {includeClosed : Bool} {search : Option String}
    (hissue : issue ∈ db.issues.rows) (hproject : db.projects.find? issue.projectId = some project)
    (h : InFeed fold db userId username role projectId includeClosed search issue.id) :
    issue.deletedAt = none ∧ Mine fold db userId username role issue project := by
  obtain ⟨⟨other, otherProject⟩, hrow, hid, hkept⟩ := inFeed_iff.mp h
  obtain ⟨hother, hfound⟩ := mem_joined.mp hrow
  obtain rfl : other = issue := List.inj_on_of_nodup_map db.issues.nodup hother hissue hid
  obtain rfl : otherProject = project := Option.some.inj (hfound.symm.trans hproject)
  unfold feedWhere at hkept
  rw [Truth.conjunction_eq_true] at hkept
  simp only [List.forall_mem_cons, Truth.isNull_eq_true, roleCondition_eq_true] at hkept
  exact ⟨hkept.1, hkept.2.1⟩

/-- With closed issues and without a search the feed contains all of them. -/
theorem inFeed_iff_mine (hissue : issue ∈ db.issues.rows)
    (hproject : db.projects.find? issue.projectId = some project)
    (hnarrowed : ∀ id, projectId = some id → issue.projectId = id) :
    InFeed fold db userId username role projectId true none issue.id ↔
      issue.deletedAt = none ∧ Mine fold db userId username role issue project := by
  constructor
  · exact mine_of_inFeed hissue hproject
  · rintro ⟨hlive, hmine⟩
    refine inFeed_iff.mpr ⟨(issue, project), mem_joined.mpr ⟨hissue, hproject⟩, rfl, ?_⟩
    unfold feedWhere
    rw [Truth.conjunction_eq_true]
    simp only [List.forall_mem_cons, Truth.isNull_eq_true, roleCondition_eq_true]
    refine ⟨hlive, hmine, ?_, rfl, trivial, List.forall_mem_nil _⟩
    cases projectId with
    | none => rfl
    | some id => exact Truth.eq_some_eq_true.mpr (hnarrowed id rfl)

/-- On the board of a project of theirs, an issue is the user's in a role that is a column
as it is in the feed. -/
theorem holdsRole_iff_mine (hrole : role ≠ .mentioned) :
    HoldsRole fold db (mineQuery userId username role) issue role.onBoard ↔
      Mine fold db userId username role issue project := by
  cases role with
  | mentioned => exact absurd rfl hrole
  | _ => simp [HoldsRole, Mine, mineQuery, MyIssueRole.onBoard]

/-- The feed and the boards mean the same by the issues of a user exactly where whoever is
mentioned in a subject is also mentioned below it, and no deleted project has live issues of theirs. -/
theorem same_mine_iff (fold : CaseFolding) (m : Maintained) (userId : Uuid) (username : String) :
    SameMine fold m.toDatabase userId username ↔
      MentionedInTexts fold m.toDatabase userId username ∧
        NoneInDeleted fold m.toDatabase userId username := by
  constructor
  · intro h
    constructor
    · intro projectId issue hon hlive htext
      obtain ⟨project, hproject, -⟩ := hon.live
      have hfound : m.projects.find? issue.projectId = some project := hon.inProject ▸ hproject
      have hboard : issue ∈ listed fold m.toDatabase projectId (mineQuery userId username .mentioned) :=
        mem_listed_mineQuery.mpr ⟨hon.stored, hon.inProject, hlive,
          (Maintained.holdsMentioned_iff hon.stored hlive).mpr (.inl htext)⟩
      have hfeed := (h.board projectId issue .mentioned hon).mpr hboard
      have hnarrowed : ∀ id, some projectId = some id → issue.projectId = id :=
        fun id hid => hon.inProject.trans (Option.some.inj hid)
      exact ((inFeed_iff_mine hon.stored hfound hnarrowed).mp hfeed).2.1
    · intro issue hissue hlive project hproject hdeleted role hmine
      have hfeed : InFeed fold m.toDatabase userId username role none true none issue.id :=
        (inFeed_iff_mine hissue hproject (fun _ hid => by contradiction)).mpr ⟨hlive, hmine⟩
      exact hdeleted (h.feed role true none issue hissue project hproject hfeed)
  · rintro ⟨hmentions, hdeleted⟩
    constructor
    · intro projectId issue role hon
      obtain ⟨project, hproject, -⟩ := hon.live
      have hfound : m.projects.find? issue.projectId = some project := hon.inProject ▸ hproject
      have hnarrowed : ∀ id, some projectId = some id → issue.projectId = id :=
        fun id hid => hon.inProject.trans (Option.some.inj hid)
      rw [inFeed_iff_mine hon.stored hfound hnarrowed, mem_listed_mineQuery]
      by_cases hlive : issue.deletedAt = none
      · simp only [hon.stored, hon.inProject, hlive, true_and]
        by_cases hrole : role = .mentioned
        · -- a member of the project may see it, whatever its visibility
          subst hrole
          have hvisible : Visible m.toDatabase userId project issue.projectId := by
            obtain ⟨membership, hmem, hproject, huser⟩ := hon.member
            exact .inr (.inl ⟨membership, hmem, hproject.trans hon.inProject.symm, huser⟩)
          rw [MyIssueRole.onBoard, Maintained.holdsMentioned_iff hon.stored hlive]
          constructor
          · exact fun hmine => .inr hmine.1
          · rintro (htext | hmentioned)
            · exact ⟨hmentions projectId issue hon hlive htext, hvisible⟩
            · exact ⟨hmentioned, hvisible⟩
        · exact (holdsRole_iff_mine hrole).symm
      · simp [hlive]
    · intro role includeClosed search issue hissue project hproject hfeed
      obtain ⟨hlive, hmine⟩ := mine_of_inFeed hissue hproject hfeed
      by_contra hgone
      exact hdeleted issue hissue hlive project hproject hgone role hmine

/-- A project of user 7, with an issue whose subject alone mentions them. -/
def addressed : Maintained where
  toDatabase :=
    { lone (task "@ada please look" none none) with
      searchIndex := ⟨[(task "@ada please look" none none).toWorkItem.entry .issue],
        List.nodup_singleton _⟩
      projects := ⟨[⟨0, "core", "Core", "CORE", false, none⟩], List.nodup_singleton _⟩
      memberships := [⟨0, 7, 1⟩]
      users := ⟨[⟨7, "ada", false⟩], List.nodup_singleton _⟩ }
  issuesIndexed id := by
    by_cases hid : id = 1
    · subst hid
      decide +kernel
    · have hother : (1 : Uuid) ≠ id := fun h => hid h.symm
      simp [Table.find?, lone, task, Issue.key, Entry.key, Search.WorkItem.entry, hother]
  commentsIndexed id := by
    simp [Table.find?, lone, task, Entry.key, Search.WorkItem.entry, syncSearchComment,
      Feed.ofLive, Table.empty, Search.ItemKind.entityType]

/-- The board has the issue among the mentions, the feed has not. -/
theorem mentioned_in_subject_only :
    ¬ ∀ fold (m : Maintained) userId username, SameMine fold m.toDatabase userId username := by
  intro h
  have hon : OnBoard addressed.toDatabase 7 0 (task "@ada please look" none none) :=
    ⟨List.mem_singleton_self _, rfl, ⟨_, rfl, rfl⟩, ⟨_, List.mem_singleton_self _, rfl, rfl⟩⟩
  have hboard : task "@ada please look" none none ∈
      listed .ascii addressed.toDatabase 0 (mineQuery 7 "ada" .mentioned) :=
    mem_listed.mpr ⟨List.mem_singleton_self _, issueFilterWhere_eq_true.mp (by decide +kernel)⟩
  have hfeed := ((h .ascii addressed 7 "ada").board 0 _ .mentioned hon).mpr hboard
  have hmine := (mine_of_inFeed hon.stored rfl hfeed).2.1
  rcases hmine with hdescription | ⟨comment, hcomment, -⟩
  · revert hdescription
    decide +kernel
  · exact absurd hcomment (List.not_mem_nil)

end IntelliPilot.Filters
