import IntelliPilot.Filters.Filter
import IntelliPilot.Relational.Windows
import Mathlib.Data.Rat.Defs

/-! # The list, the columns and the lanes

`list_issues_paged`, `board_columns` and `board_lanes`. Each of them reads the
rows that the filter keeps, in a query of its own.
-/

namespace IntelliPilot.Filters

open Projects (Uuid)
open Text (CaseFolding)
open Windows

/-! ## Orders -/

/-- `ORDER BY issues."order", issues.id`. -/
def InOrder (a b : Issue) : Prop := a.order < b.order ∨ a.order = b.order ∧ a.id ≤ b.id

/-- The order of the rows of a window, without ties. -/
def Before (a b : Issue) : Prop := a.order < b.order ∨ a.order = b.order ∧ a.id < b.id

/-- Statuses in ascending order, which leaves `NULL` for the end. -/
def StatusBefore : Option Uuid → Option Uuid → Prop
  | some a, some b => a < b
  | some _, none => True
  | none, _ => False

instance : DecidableRel InOrder := fun _ _ => inferInstanceAs (Decidable (_ ∨ _ ∧ _))

instance : DecidableRel Before := fun _ _ => inferInstanceAs (Decidable (_ ∨ _ ∧ _))

instance : DecidableRel StatusBefore
  | some a, some b => inferInstanceAs (Decidable (a < b))
  | some _, none => inferInstanceAs (Decidable True)
  | none, _ => inferInstanceAs (Decidable False)

/-- `ORDER BY status_id, "order", id`. -/
def InColumns (a b : Issue) : Prop :=
  StatusBefore a.statusId b.statusId ∨ a.statusId = b.statusId ∧ InOrder a b

instance : DecidableRel InColumns := fun _ _ => inferInstanceAs (Decidable (_ ∨ _ ∧ _))

/-- `ORDER BY grp, status_id, "order", id`. -/
def InLanes (a b : Issue × String) : Prop := a.2 < b.2 ∨ a.2 = b.2 ∧ InColumns a.1 b.1

instance : DecidableRel InLanes := fun _ _ => inferInstanceAs (Decidable (_ ∨ _ ∧ _))

variable (fold : CaseFolding) (db : Database)

/-! ## The list -/

/-- The rows that the filter keeps. -/
def matching (projectId : Uuid) (q : IssueQuery) : List Issue :=
  Truth.select (issueFilterWhere fold db projectId q) db.issues.rows

/-- `list_issues_paged`: a page, and how many issues there are in all. A negative
limit is an error of the server. -/
def listIssuesPaged (projectId : Uuid) (q : IssueQuery) (limit : Option Int) (offset : Int) :
    Option (List Issue × Nat) :=
  let total := (matching fold db projectId q).length
  let rows := orderBy InOrder (matching fold db projectId q)
  let off := (max offset 0).toNat
  match limit with
  | none => some (rows.drop off, total)
  | some lim => if lim < 0 then none else some (page lim.toNat off rows, total)

/-! ## The columns -/

structure BoardColumn where
  statusId : Option Uuid
  total : Nat
  cards : List Issue
  deriving DecidableEq, Repr

structure BoardLane where
  key : String
  total : Nat
  columns : List BoardColumn
  deriving DecidableEq, Repr

/-- `$29::uuid[] IS NULL OR status_id = ANY($29)`. -/
def columnChosen (columns : Option (List Uuid)) (statusId : Option Uuid) : Truth :=
  (Truth.isNull columns).or
    (match columns with
      | none => .unknown
      | some ids => .isIn statusId (ids.map some))

/-- The issues that may have a card on the board. -/
def boardWhere (projectId : Uuid) (q : IssueQuery) (columns : Option (List Uuid)) (issue : Issue) :
    Truth :=
  ((issueFilterWhere fold db projectId q issue).and (.isNull issue.parentId)).and
    (columnChosen columns issue.statusId)

/-- The totals of the columns, and the columns in the order they come up in. -/
def gatherTotals (rows : List (Issue × Nat)) :
    (Option Uuid → Option Nat) × List (Option Uuid) :=
  rows.foldl (fun (gathered : (Option Uuid → Option Nat) × List (Option Uuid)) row =>
    (Function.update gathered.1 row.1.statusId (some row.2),
      if (gathered.1 row.1.statusId).isNone then gathered.2 ++ [row.1.statusId] else gathered.2))
    (fun _ => none, [])

/-- The issues of each status. -/
def gatherCards (issues : List Issue) : Option Uuid → List Issue :=
  issues.foldl (fun cards issue =>
    Function.update cards issue.statusId (cards issue.statusId ++ [issue])) fun _ => []

/-- The columns, each of which takes its cards out of the map. -/
def drainColumns (totals : Option Uuid → Option Nat) :
    List (Option Uuid) → (Option Uuid → List Issue) → List BoardColumn
  | [], _ => []
  | statusId :: rest, cards => ⟨statusId, (totals statusId).getD 0, cards statusId⟩ ::
      drainColumns totals rest (Function.update cards statusId [])

/-- `board_columns`. -/
def boardColumns (projectId : Uuid) (q : IssueQuery) (columns : Option (List Uuid))
    (columnLimit : Int) : List BoardColumn :=
  let ranked := Truth.select (boardWhere fold db projectId q columns) db.issues.rows
  let shown := orderBy InColumns (ranked.filter fun issue =>
    decide ((rowNumber (·.statusId) Before ranked issue : Int) ≤ columnLimit))
  let gathered := gatherTotals (shown.map fun issue =>
    (issue, partitionTotal (·.statusId) ranked issue))
  drainColumns gathered.1 gathered.2 (gatherCards shown)

/-! ## The lanes -/

/-- `COALESCE(id::text, 'none')`. -/
def groupText : Option Uuid → String
  | none => "none"
  | some id => toString id

/-- `my_role_lateral`: a row for every role that the actor holds on an issue. -/
def myRoleLateral (q : IssueQuery) (issue : Issue) : List String :=
  Role.all.filterMap fun role =>
    if myRoleSql fold db role q.actorId q.mentionLike issue = .true then some role.name else none

/-- The groups that an issue is in; unknown groupings have none. -/
def groupsOf (q : IssueQuery) (group : String) : Option (Issue → List String) :=
  if group = "assignee" then some fun issue => [groupText issue.assignedTo]
  else if group = "epic" then some fun issue => [groupText issue.epicId]
  else if group = "priority" then some fun issue => [groupText issue.priorityId]
  else if group = "component" then some fun issue =>
    match db.issueComponents.filter fun component => component.1 == issue.id with
    | [] => [groupText none]
    | components => components.map fun component => groupText (some component.2)
  else if group = "my_role" then some (myRoleLateral fold db q)
  else none

/-- A lane or a column that is new has no cards. -/
def placeCard (lanes : List BoardLane) (key : String) (laneTotal cellTotal : Nat) (issue : Issue) :
    List BoardLane :=
  upsert (·.key) key ⟨key, laneTotal, []⟩
    (fun lane =>
      { lane with
        columns := upsert (·.statusId) issue.statusId ⟨issue.statusId, cellTotal, []⟩
          (fun column => { column with cards := column.cards ++ [issue] }) lane.columns })
    lanes

/-- `board_lanes`. -/
def boardLanes (projectId : Uuid) (q : IssueQuery) (group : String) (columns : Option (List Uuid))
    (columnLimit : Int) : List BoardLane :=
  match groupsOf fold db q group with
  | none => []
  | some groups =>
    let rows := db.issues.rows.flatMap fun issue => (groups issue).map fun key => (issue, key)
    let ranked := Truth.select
      (fun row : Issue × String => boardWhere fold db projectId q columns row.1) rows
    let shown := orderBy InLanes (ranked.filter fun row =>
      decide ((rowNumber (fun row : Issue × String => (row.2, row.1.statusId))
        (fun a b => Before a.1 b.1) ranked row : Int) ≤ columnLimit))
    shown.foldl
      (fun lanes row => placeCard lanes row.2 (partitionTotal (·.2) ranked row)
        (partitionTotal (fun row : Issue × String => (row.2, row.1.statusId)) ranked row) row.1) []

end IntelliPilot.Filters
