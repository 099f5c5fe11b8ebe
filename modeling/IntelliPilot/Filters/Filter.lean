import IntelliPilot.Filters.Tables
import IntelliPilot.Relational.Truth

/-! # The filter of issues

The conditions of `db::backlog` on the rows of `issues`, and the set of issues
that they stand for.
-/

namespace IntelliPilot.Filters

open Projects (Uuid)
open Projects.Activity (Comment)
open Search (Entry)
open Text (CaseFolding)

/-! ## Roles -/

/-- The roles that someone may hold on an issue. -/
inductive Role where
  | watching
  | assignee
  | qa
  | reviewer
  | reporter
  | mentioned
  deriving DecidableEq, Repr

/-- In the order of `MY_ROLE_PREDICATES`. -/
def Role.all : List Role := [.watching, .assignee, .qa, .reviewer, .reporter, .mentioned]

def Role.name : Role → String
  | .watching => "watching"
  | .assignee => "assignee"
  | .qa => "qa"
  | .reviewer => "reviewer"
  | .reporter => "reporter"
  | .mentioned => "mentioned"

variable (fold : CaseFolding) (db : Database)

/-- `text ILIKE pattern`. -/
def ilike (text : String) (pattern : Option String) : Truth :=
  .compare fold.ilike (some text) pattern

/-- The entry's texts are matched by the pattern for a mention. -/
def mentions (pattern : Option String) (entry : Entry) : Truth :=
  ilike fold (entry.title ++ " " ++ entry.body) pattern

/-- `MY_ROLE_PREDICATES`. -/
def myRoleSql (role : Role) (actor : Option Uuid) (mention : Option String) (issue : Issue) : Truth :=
  match role with
  | .watching => .exists_ (fun watcher : Uuid × Uuid =>
      (Truth.eq (some watcher.1) (some issue.id)).and (.eq (some watcher.2) actor)) db.issueWatchers
  | .assignee => .eq issue.assignedTo actor
  | .qa => .eq issue.qaAssigneeId actor
  | .reviewer => .eq issue.reviewerId actor
  | .reporter => .eq issue.ownerId actor
  | .mentioned => (Truth.isNull mention).not.and
      ((Truth.exists_ (fun entry : Entry =>
          (((Truth.eq (some entry.projectId) (some issue.projectId)).and
            (.eq (some entry.entityType) (some .issue))).and
            (.eq (some entry.entityId) (some issue.id))).and (mentions fold mention entry))
          db.searchIndex.rows).or
        (.exists_ (fun comment : Comment =>
          ((Truth.eq (some comment.target) (some (.issue, issue.id))).and
            (.isNull comment.deletedAt)).and
            (.exists_ (fun entry : Entry =>
              ((Truth.eq (some entry.entityType) (some .comment)).and
                (.eq (some entry.entityId) (some comment.id))).and (mentions fold mention entry))
              db.searchIndex.rows))
          db.comments.rows))

/-- `my_role_any_sql`. -/
def myRoleAnySql (actor : Option Uuid) (mention : Option String) (issue : Issue) : Truth :=
  .disjunction (Role.all.map fun role => myRoleSql fold db role actor mention issue)

/-- `my_role_filter_sql`. -/
def myRoleFilterSql (role : Option String) (actor : Option Uuid) (mention : Option String)
    (issue : Issue) : Truth :=
  (Truth.isNull role).or (.disjunction
    ((Truth.eq role (some "any")).and (myRoleAnySql fold db actor mention issue) ::
      Role.all.map fun named =>
        (Truth.eq role (some named.name)).and (myRoleSql fold db named actor mention issue)))

/-! ## The filter -/

/-- A dimension that is given by a mode: `is` is met by one condition, the other
mode by another. -/
def modeFilter (mode : Option String) (bare : Truth) (named : String) (is : Truth) : Truth :=
  ((Truth.isNull mode).or ((Truth.eq mode (some "none")).and bare)).or
    ((Truth.eq mode (some named)).and is)

/-- A reference that is unset, or is the one that is asked for. -/
def referenceFilter (mode : Option String) (id column : Option Uuid) : Truth :=
  modeFilter mode (.isNull column) "is" (.eq column id)

/-- A column that is compared where a value is given. -/
def valueFilter {α : Type} [DecidableEq α] (given column : Option α) : Truth :=
  (Truth.isNull given).or (.eq column given)

/-- `COALESCE((SELECT is_closed FROM taxonomy_items WHERE id = …), false)`. -/
def isClosed (statusId : Option Uuid) : Truth :=
  (Truth.ofColumn ((statusId.bind db.taxonomyItems.find?).bind (·.isClosed))).coalesce false

/-- `ISSUE_FILTER_BASE`. -/
def issueFilterBase (projectId : Uuid) (q : IssueQuery) (search : Option String) (issue : Issue) :
    Truth :=
  .conjunction [
    .eq (some issue.projectId) (some projectId),
    .isNull issue.deletedAt,
    valueFilter q.statusId issue.statusId,
    valueFilter q.typeId issue.typeId,
    valueFilter q.priorityId issue.priorityId,
    valueFilter q.sizeId issue.sizeId,
    valueFilter q.category issue.category,
    referenceFilter q.assigneeMode q.assigneeId issue.assignedTo,
    referenceFilter q.qaAssigneeMode q.qaAssigneeId issue.qaAssigneeId,
    referenceFilter q.epicMode q.epicId issue.epicId,
    referenceFilter q.milestoneMode q.milestoneId issue.milestoneId,
    (Truth.isNull q.labelId).or (.exists_ (fun label : Uuid × Uuid =>
      (Truth.eq (some label.1) (some issue.id)).and (.eq (some label.2) q.labelId)) db.issueLabels),
    (Truth.isNull q.componentId).or (.exists_ (fun component : Uuid × Uuid =>
      (Truth.eq (some component.1) (some issue.id)).and (.eq (some component.2) q.componentId))
      db.issueComponents),
    (((Truth.isNull search).or (ilike fold issue.subject search)).or
      (ilike fold issue.description search)).or (ilike fold (toString issue.reference) search),
    (Truth.ofBool q.overdue).isNotTrue.or
      ((Truth.compare (fun due today => decide (due < today)) issue.dueDate (some db.today)).and
        (isClosed db issue.statusId).not),
    modeFilter q.involvedMode
      (((Truth.isNull issue.assignedTo).and (.isNull issue.qaAssigneeId)).and
        (.isNull issue.reviewerId)) "is"
      (.isIn q.involvedId [issue.assignedTo, issue.qaAssigneeId, issue.reviewerId]),
    modeFilter q.releaseMode (.isNull issue.releaseVersionId) "is"
      (.exists_ (fun version : ReleaseVersion =>
        (Truth.eq (some version.id) issue.releaseVersionId).and
          (.eq (some version.releaseId) q.releaseId)) db.releaseVersions.rows),
    modeFilter q.customerMode
      (Truth.exists_ (fun customer : Uuid × Uuid => .eq (some customer.1) (some issue.id))
        db.issueCustomers).not "any"
      (.exists_ (fun customer : Uuid × Uuid =>
        (Truth.eq (some customer.1) (some issue.id)).and
          (match q.customerIds with
            | none => .unknown
            | some ids => .isIn (some customer.2) (ids.map some))) db.issueCustomers)]

/-- `issue_filter_where`. -/
def issueFilterWhere (projectId : Uuid) (q : IssueQuery) (issue : Issue) : Truth :=
  (issueFilterBase fold db projectId q (searchLike q.search) issue).and
    (myRoleFilterSql fold db q.myRole q.actorId q.mentionLike issue)

/-! ## What the filter means -/

/-- The actor of the query holds the role on the issue. -/
def HoldsRole (q : IssueQuery) (issue : Issue) : Role → Prop
  | .watching => ∃ actor, q.actorId = some actor ∧ (issue.id, actor) ∈ db.issueWatchers
  | .assignee => ∃ actor, q.actorId = some actor ∧ issue.assignedTo = some actor
  | .qa => ∃ actor, q.actorId = some actor ∧ issue.qaAssigneeId = some actor
  | .reviewer => ∃ actor, q.actorId = some actor ∧ issue.reviewerId = some actor
  | .reporter => ∃ actor, q.actorId = some actor ∧ issue.ownerId = some actor
  | .mentioned => ∃ pattern, q.mentionLike = some pattern ∧
      ((∃ entry ∈ db.searchIndex.rows, entry.projectId = issue.projectId ∧
          entry.key = (.issue, issue.id) ∧
          fold.ilike (entry.title ++ " " ++ entry.body) pattern = true) ∨
        ∃ comment ∈ db.comments.rows, comment.target = (.issue, issue.id) ∧
          comment.deletedAt = none ∧
          ∃ entry ∈ db.searchIndex.rows, entry.key = (.comment, comment.id) ∧
            fold.ilike (entry.title ++ " " ++ entry.body) pattern = true)

/-- A dimension that is given by a mode holds. -/
def ModeMet (mode : Option String) (bare : Prop) (named : String) (is : Prop) : Prop :=
  ∀ m, mode = some m → m = "none" ∧ bare ∨ m = named ∧ is

/-- A reference is unset, or is the one that is asked for. -/
def ReferenceMet (mode : Option String) (id column : Option Uuid) : Prop :=
  ModeMet mode (column = none) "is" (∃ x, id = some x ∧ column = some x)

/-- The status of the issue is a closed one. -/
def Closed (issue : Issue) : Prop :=
  ∃ id item, issue.statusId = some id ∧ db.taxonomyItems.find? id = some item ∧
    item.isClosed = some true

/-- The issue is a live one of the project and meets every dimension that is given;
`found` says how the search text is looked for in a text. -/
structure Meets (found : String → String → Prop) (projectId : Uuid) (q : IssueQuery)
    (issue : Issue) : Prop where
  project : issue.projectId = projectId
  live : issue.deletedAt = none
  status : ∀ id, q.statusId = some id → issue.statusId = some id
  type : ∀ id, q.typeId = some id → issue.typeId = some id
  priority : ∀ id, q.priorityId = some id → issue.priorityId = some id
  size : ∀ id, q.sizeId = some id → issue.sizeId = some id
  category : ∀ name, q.category = some name → issue.category = some name
  assignee : ReferenceMet q.assigneeMode q.assigneeId issue.assignedTo
  qaAssignee : ReferenceMet q.qaAssigneeMode q.qaAssigneeId issue.qaAssigneeId
  epic : ReferenceMet q.epicMode q.epicId issue.epicId
  milestone : ReferenceMet q.milestoneMode q.milestoneId issue.milestoneId
  label : ∀ id, q.labelId = some id → (issue.id, id) ∈ db.issueLabels
  component : ∀ id, q.componentId = some id → (issue.id, id) ∈ db.issueComponents
  search : ∀ s, q.search = some s →
    found issue.subject s ∨ found issue.description s ∨ found (toString issue.reference) s
  overdue : q.overdue = true → (∃ due, issue.dueDate = some due ∧ due < db.today) ∧ ¬ Closed db issue
  involved : ModeMet q.involvedMode
    (issue.assignedTo = none ∧ issue.qaAssigneeId = none ∧ issue.reviewerId = none) "is"
    (∃ user, q.involvedId = some user ∧ (issue.assignedTo = some user ∨
      issue.qaAssigneeId = some user ∨ issue.reviewerId = some user))
  release : ModeMet q.releaseMode (issue.releaseVersionId = none) "is"
    (∃ version ∈ db.releaseVersions.rows, issue.releaseVersionId = some version.id ∧
      q.releaseId = some version.releaseId)
  customer : ModeMet q.customerMode (∀ customer ∈ db.issueCustomers, customer.1 ≠ issue.id) "any"
    (∃ ids, q.customerIds = some ids ∧ ∃ id ∈ ids, (issue.id, id) ∈ db.issueCustomers)
  myRole : ∀ name, q.myRole = some name →
    (name = "any" ∧ ∃ role, HoldsRole fold db q issue role) ∨
      ∃ role : Role, name = role.name ∧ HoldsRole fold db q issue role

variable {fold db}

@[simp] theorem mem_all (role : Role) : role ∈ Role.all := by
  cases role <;> decide

theorem modeFilter_eq_true {mode : Option String} {bare is : Truth} {named : String} :
    modeFilter mode bare named is = .true ↔ ModeMet mode (bare = .true) named (is = .true) := by
  cases mode with
  | none => simp [modeFilter, ModeMet]
  | some m =>
    simp only [modeFilter, ModeMet, Truth.or_eq_true, Truth.and_eq_true, Truth.isNull_eq_true,
      Truth.eq_some_eq_true, reduceCtorEq, false_or, Option.some.injEq, forall_eq']

theorem referenceFilter_eq_true {mode : Option String} {id column : Option Uuid} :
    referenceFilter mode id column = .true ↔ ReferenceMet mode id column := by
  rw [referenceFilter, modeFilter_eq_true, ReferenceMet, Truth.isNull_eq_true, Truth.eq_eq_true]
  simp only [and_comm]

theorem valueFilter_eq_true {α : Type} [DecidableEq α] {given column : Option α} :
    valueFilter given column = .true ↔ ∀ x, given = some x → column = some x := by
  cases given with
  | none => simp [valueFilter]
  | some x => simp [valueFilter, Truth.eq_eq_true]

variable {issue : Issue}

theorem isClosed_eq_false :
    isClosed db issue.statusId = .false ↔ ¬ Closed db issue := by
  rw [isClosed, Truth.coalesce_false_eq_false, Closed, ne_eq, Truth.ofColumn_eq_true, not_iff_not]
  constructor
  · intro h
    obtain ⟨item, hitem, hclosed⟩ := Option.bind_eq_some_iff.mp h
    obtain ⟨id, hid, hfound⟩ := Option.bind_eq_some_iff.mp hitem
    exact ⟨id, item, hid, hfound, hclosed⟩
  · rintro ⟨id, item, hid, hfound, hclosed⟩
    simp [hid, hfound, hclosed]

/-- A table of pairs has the pair that is asked for. -/
theorem exists_pair_eq_true {id : Uuid} {other : Option Uuid} {pairs : List (Uuid × Uuid)} :
    Truth.exists_ (fun pair : Uuid × Uuid =>
      (Truth.eq (some pair.1) (some id)).and (.eq (some pair.2) other)) pairs = .true ↔
      ∃ x, other = some x ∧ (id, x) ∈ pairs := by
  rw [Truth.exists_eq_true]
  constructor
  · rintro ⟨⟨first, second⟩, hmem, hcondition⟩
    obtain ⟨rfl, hother⟩ : id = first ∧ other = some second := by
      simpa [Truth.eq_eq_true] using hcondition
    exact ⟨second, hother, hmem⟩
  · rintro ⟨x, rfl, hmem⟩
    exact ⟨(id, x), hmem, by simp⟩

theorem mentions_eq_true {pattern : Option String} {entry : Entry} :
    mentions fold pattern entry = .true ↔
      ∃ p, pattern = some p ∧ fold.ilike (entry.title ++ " " ++ entry.body) p = true := by
  simp [mentions, ilike]

variable {q : IssueQuery}

/-- What is written of a role is that the actor holds it. -/
theorem myRoleSql_eq_true {role : Role} :
    myRoleSql fold db role q.actorId q.mentionLike issue = .true ↔
      HoldsRole fold db q issue role := by
  cases role with
  | watching => exact exists_pair_eq_true
  | mentioned =>
    cases hmention : q.mentionLike with
    | none => simp [myRoleSql, HoldsRole, hmention, Truth.isNull, Truth.ofBool, Truth.not]
    | some pattern =>
      have hgiven : (Truth.isNull (some pattern)).not = .true := rfl
      simp only [myRoleSql, HoldsRole, hmention, Truth.and_eq_true, Truth.or_eq_true,
        Truth.exists_eq_true, mentions_eq_true, Truth.eq_some_eq_true, Truth.isNull_eq_true,
        Entry.key, Option.some.injEq, exists_eq_left', Prod.mk.injEq, hgiven, true_and,
        and_assoc]
  | _ => simp [myRoleSql, HoldsRole, Truth.eq_eq_true, and_comm]

/-- The filter by a role asks for that role, or for some role. -/
theorem myRoleFilterSql_eq_true :
    myRoleFilterSql fold db q.myRole q.actorId q.mentionLike issue = .true ↔
      ∀ name, q.myRole = some name → (name = "any" ∧ ∃ role, HoldsRole fold db q issue role) ∨
        ∃ role : Role, name = role.name ∧ HoldsRole fold db q issue role := by
  have hany : myRoleAnySql fold db q.actorId q.mentionLike issue = .true ↔
      ∃ role, HoldsRole fold db q issue role := by
    simp [myRoleAnySql, myRoleSql_eq_true]
  cases hname : q.myRole with
  | none => simp [myRoleFilterSql]
  | some name =>
    simp [myRoleFilterSql, hany, myRoleSql_eq_true, eq_comm (a := Truth.true)]

/-- How the filter looks for the search text. -/
def Matched (fold : CaseFolding) (text s : String) : Prop :=
  fold.ilike text (String.ofList ('%' :: (s.toList ++ ['%']))) = true

theorem search_eq_true {search : Option String} :
    (((Truth.isNull (searchLike search)).or (ilike fold issue.subject (searchLike search))).or
      (ilike fold issue.description (searchLike search))).or
        (ilike fold (toString issue.reference) (searchLike search)) = .true ↔
      ∀ s, search = some s → Matched fold issue.subject s ∨ Matched fold issue.description s ∨
        Matched fold (toString issue.reference) s := by
  cases search with
  | none => simp [searchLike]
  | some s => simp [searchLike, ilike, Matched, or_assoc]

theorem overdue_eq_true :
    (Truth.ofBool q.overdue).isNotTrue.or
      ((Truth.compare (fun due today => decide (due < today)) issue.dueDate (some db.today)).and
        (isClosed db issue.statusId).not) = .true ↔
      (q.overdue = true → (∃ due, issue.dueDate = some due ∧ due < db.today) ∧ ¬ Closed db issue) := by
  simp [isClosed_eq_false, imp_iff_not_or]

theorem involved_eq_true :
    modeFilter q.involvedMode
      (((Truth.isNull issue.assignedTo).and (.isNull issue.qaAssigneeId)).and
        (.isNull issue.reviewerId)) "is"
      (.isIn q.involvedId [issue.assignedTo, issue.qaAssigneeId, issue.reviewerId]) = .true ↔
      ModeMet q.involvedMode
        (issue.assignedTo = none ∧ issue.qaAssigneeId = none ∧ issue.reviewerId = none) "is"
        (∃ user, q.involvedId = some user ∧ (issue.assignedTo = some user ∨
          issue.qaAssigneeId = some user ∨ issue.reviewerId = some user)) := by
  rw [modeFilter_eq_true]
  simp only [Truth.and_eq_true, Truth.isNull_eq_true, Truth.isIn_eq_true, and_assoc, List.mem_cons,
    List.not_mem_nil, or_false, eq_comm (b := issue.assignedTo), eq_comm (b := issue.qaAssigneeId),
    eq_comm (b := issue.reviewerId)]

theorem release_eq_true :
    modeFilter q.releaseMode (.isNull issue.releaseVersionId) "is"
      (.exists_ (fun version : ReleaseVersion =>
        (Truth.eq (some version.id) issue.releaseVersionId).and
          (.eq (some version.releaseId) q.releaseId)) db.releaseVersions.rows) = .true ↔
      ModeMet q.releaseMode (issue.releaseVersionId = none) "is"
        (∃ version ∈ db.releaseVersions.rows, issue.releaseVersionId = some version.id ∧
          q.releaseId = some version.releaseId) := by
  rw [modeFilter_eq_true]
  simp [Truth.eq_eq_true]

theorem customer_eq_true :
    modeFilter q.customerMode
      (Truth.exists_ (fun customer : Uuid × Uuid => .eq (some customer.1) (some issue.id))
        db.issueCustomers).not "any"
      (.exists_ (fun customer : Uuid × Uuid =>
        (Truth.eq (some customer.1) (some issue.id)).and
          (match q.customerIds with
            | none => .unknown
            | some ids => .isIn (some customer.2) (ids.map some))) db.issueCustomers) = .true ↔
      ModeMet q.customerMode (∀ customer ∈ db.issueCustomers, customer.1 ≠ issue.id) "any"
        (∃ ids, q.customerIds = some ids ∧ ∃ id ∈ ids, (issue.id, id) ∈ db.issueCustomers) := by
  rw [modeFilter_eq_true]
  cases q.customerIds with
  | none => simp
  | some ids =>
    simp [and_comm]

/-- The clause keeps the live issues of the project that meet the dimensions. -/
theorem issueFilterWhere_eq_true {projectId : Uuid} :
    issueFilterWhere fold db projectId q issue = .true ↔
      Meets fold db (Matched fold) projectId q issue := by
  have hpair : ∀ (id : Option Uuid) (pairs : List (Uuid × Uuid)),
      ((Truth.isNull id).or (.exists_ (fun pair : Uuid × Uuid =>
        (Truth.eq (some pair.1) (some issue.id)).and (.eq (some pair.2) id)) pairs)) = .true ↔
        ∀ x, id = some x → (issue.id, x) ∈ pairs := by
    intro id pairs
    rw [Truth.or_eq_true, exists_pair_eq_true]
    cases id <;> simp
  rw [issueFilterWhere, Truth.and_eq_true, issueFilterBase, Truth.conjunction_eq_true,
    myRoleFilterSql_eq_true]
  simp only [List.forall_mem_cons, List.not_mem_nil, false_imp_iff, implies_true, and_true,
    Truth.eq_some_eq_true, Truth.isNull_eq_true, valueFilter_eq_true, referenceFilter_eq_true,
    hpair, search_eq_true, overdue_eq_true, involved_eq_true, release_eq_true, customer_eq_true]
  constructor
  · rintro ⟨⟨h1, h2, h3, h4, h5, h6, h7, h8, h9, h10, h11, h12, h13, h14, h15, h16, h17, h18⟩, h19⟩
    exact ⟨h1, h2, h3, h4, h5, h6, h7, h8, h9, h10, h11, h12, h13, h14, h15, h16, h17, h18, h19⟩
  · intro h
    exact ⟨⟨h.project, h.live, h.status, h.type, h.priority, h.size, h.category, h.assignee,
      h.qaAssignee, h.epic, h.milestone, h.label, h.component, h.search, h.overdue, h.involved,
      h.release, h.customer⟩, h.myRole⟩

end IntelliPilot.Filters
