import IntelliPilot.Epics.Handlers
import Mathlib

/-! # What the milestone endpoints answer

The endpoints of `api::milestones` and the epics of `api::backlog` over the
tables of the issues, with the business release date taken out of what is
serialised for a caller who may not see it. Milestones, epics and issues come
in the order of their rows; the statuses of a project and what counts as done
are not written here.
-/

namespace IntelliPilot.Milestones.Endpoints

open Http
open Backlog.Api (IfMatch)
open Epics (FullEpic State)

/-! ## Serialisation -/

/-- A milestone as it is serialised; the outer `none` leaves out the key. -/
structure MilestoneView where
  row : Milestone
  businessReleaseDate : Option (Option Date)
  deriving DecidableEq, Repr

/-- The columns of a milestone that everyone may see. -/
def shown (row : Milestone) : Milestone := { row with businessReleaseDate := none }

/-- `view`. -/
def view (row : Milestone) (maySeeBusinessRelease : Bool) : MilestoneView where
  row := shown row
  businessReleaseDate := if maySeeBusinessRelease then some row.businessReleaseDate else none

/-- The columns of a project that the timeline shows. -/
structure Project where
  id : Uuid
  name : String
  issuePrefix : String
  color : String
  deriving DecidableEq, Repr

/-- A milestone of the timeline. -/
structure Rollup where
  milestone : MilestoneView
  project : Project
  taskTotal : Nat
  taskClosed : Nat
  epicCount : Nat
  deriving DecidableEq, Repr

structure EpicCard where
  epic : FullEpic
  taskClosed : Nat
  deriving DecidableEq, Repr

/-- An issue of the board with its sub-tasks. -/
structure Card where
  issue : Issues.FullIssue
  subtasks : List Issues.Issue
  deriving DecidableEq, Repr

structure MilestoneStats where
  totalPoints : Rat
  completedPoints : Rat
  totalTasks : Nat
  completedTasks : Nat
  deriving DecidableEq, Repr

inductive Response where
  | milestone (status : Nat) (view : MilestoneView)
  | milestones (items : List MilestoneView) (completedCount : Nat)
  | timeline (items : List Rollup) (completedCount : Nat)
  | epic (card : EpicCard)
  | epics (items : List EpicCard)
  | board (columns : List (Option Uuid × List Card))
  | stats (stats : MilestoneStats)
  | answer (answer : Epics.Answer)
  | problem (problem : Problem)
  deriving DecidableEq, Repr

/-! ## Reads -/

/-- What the statuses and sizes of the projects say. -/
structure Workflow where
  /-- The statuses of a project, in their order. -/
  statuses : Uuid → List Uuid
  countsAsDone : Uuid → Bool
  value : Uuid → Option Rat

/-- `StateQuery::closed`. -/
def closedFilter (state : Option String) : Except Problem (Option Bool) :=
  match state with
  | none => .ok none
  | some "all" => .ok none
  | some "open" => .ok (some false)
  | some "completed" => .ok (some true)
  | some _ => .error ⟨422, "invalid_state", "Invalid state filter",
      some "state must be one of: open, completed, all"⟩

section Reads

variable (workflow : Workflow) (s : State)

/-- `milestones::list_filtered`. -/
def listFiltered (projectId : Uuid) (closed : Option Bool) : List Milestone :=
  s.milestones.rows.filter fun row => row.projectId == projectId && row.live &&
    closed.all (row.closed == ·)

/-- `milestones::completed_count`. -/
def completedCount (projectId : Uuid) : Nat :=
  (s.milestones.rows.filter fun row => row.projectId == projectId && row.live && row.closed).length

def done (issue : Issues.Issue) : Bool := issue.statusId.any workflow.countsAsDone

/-- The live issues of a milestone, whatever their project. -/
def tasksOf (milestoneId : Uuid) : List Issues.Issue :=
  s.db.issues.rows.filter fun issue =>
    issue.milestoneId == some milestoneId && issue.deletedAt.isNone

/-- A row of `milestones::list_across` in its project. -/
def rollup (project : Project) (maySee : Bool) (row : Milestone) : Rollup where
  milestone := view row maySee
  project := project
  taskTotal := (tasksOf s row.id).length
  taskClosed := ((tasksOf s row.id).filter (done workflow)).length
  epicCount := (s.db.epics.rows.filter fun epic =>
    epic.milestoneId == some row.id && epic.deletedAt.isNone).length

/-- `milestones::list_across`, by project and in order. -/
def listAcross (ids : List Uuid) (closed : Option Bool) : List Milestone :=
  (s.milestones.rows.filter fun row => ids.contains row.projectId && row.live &&
    closed.all (row.closed == ·)).mergeSort fun a b => decide (a.projectId ≤ b.projectId)

/-- `milestones::completed_count_across`. -/
def completedCountAcross (ids : List Uuid) : Nat :=
  (s.milestones.rows.filter fun row =>
    ids.contains row.projectId && row.live && row.closed).length

/-- An epic with its counts. -/
def epicCard (projectId : Uuid) (epic : FullEpic) : EpicCard where
  epic := { epic with taskTotal := s.taskTotal projectId epic.id }
  taskClosed := (s.db.issues.rows.filter fun issue => issue.projectId == projectId &&
    issue.epicId == some epic.id && issue.deletedAt.isNone && done workflow issue).length

/-- `list_epics`. -/
def listEpics (projectId : Uuid) : List EpicCard :=
  (s.db.epics.rows.filterMap fun epic => s.selectEpic projectId epic.id).map
    (epicCard workflow s projectId)

/-- `epics_in_milestone`. -/
def epicsInMilestone (projectId milestoneId : Uuid) : List EpicCard :=
  (listEpics workflow s projectId).filter fun card => card.epic.milestoneId == some milestoneId

/-- `hydrate_issue_relations`. -/
def hydrated (issue : Issues.Issue) : Issues.FullIssue where
  toIssue := issue
  labels := Issues.Db.linkedIds s.db.issueLabels issue.id
  components := Issues.Db.linkedIds s.db.issueComponents issue.id
  componentVersions := s.db.issueComponentVersions issue.id
  customerIds := Issues.Db.linkedIds s.db.issueCustomers issue.id

/-- `issues_in_milestone`, with `children_for_parent` of each. -/
def cards (projectId milestoneId : Uuid) : List Card :=
  ((tasksOf s milestoneId).filter (·.projectId == projectId)).map fun issue =>
    ⟨hydrated s issue, s.db.issues.rows.filter fun child => child.projectId == projectId &&
      child.parentId == some issue.id && child.deletedAt.isNone⟩

/-- The columns of `board`; the last one is for issues without a status. -/
def boardColumns (projectId milestoneId : Uuid) : List (Option Uuid × List Card) :=
  ((workflow.statuses projectId).map some ++ [none]).map fun status =>
    (status, (cards s projectId milestoneId).filter (·.issue.statusId == status))

/-- `milestones::stats`. -/
def stats (projectId milestoneId : Uuid) : MilestoneStats :=
  let tasks := (tasksOf s milestoneId).filter (·.projectId == projectId)
  let points := fun issue : Issues.Issue => (issue.sizeId.bind workflow.value).getD 0
  { totalPoints := (tasks.map points).sum
    completedPoints := ((tasks.filter (done workflow)).map points).sum
    totalTasks := tasks.length
    completedTasks := (tasks.filter (done workflow)).length }

end Reads

/-! ## Requests -/

/-- What a request on milestones or epics asks for, and what the caller may do. -/
inductive Action where
  | create (caller : Caller) (body : Except Problem CreateMilestoneRequest)
  | update (caller : Caller) (id : Uuid) (header : IfMatch)
      (body : Except Problem UpdateMilestoneRequest)
  | list (allowed : Bool) (state : Option String)
  | get (allowed : Bool) (id : Option Uuid)
  | epics (allowed : Bool) (id : Option Uuid)
  | board (allowed : Bool) (id : Option Uuid)
  | stats (allowed : Bool) (id : Option Uuid)
  | listEpics (allowed : Bool)
  | getEpic (allowed : Bool) (id : Option Uuid)

inductive Request where
  | inProject (projectId : Uuid) (maySeeBusinessRelease : Bool) (action : Action)
  /-- The other requests that write epics, milestones and their issues. -/
  | work (maySeeBusinessRelease : Bool) (turn : Epics.Turn)
  /-- The timeline of the projects that the caller may see, each with whether
  its business dates show. -/
  | listAll (visible : List (Project × Bool)) (state : Option String)

/-- The tables of the milestone handlers. -/
def table (s : State) : Db := ⟨s.milestones, s.db.now⟩

/-- The answer of a handler that writes a milestone. -/
def written (maySee : Bool) (status : Nat) (s : State) (result : Except Problem Milestone × Db) :
    Response × State :=
  match result with
  | (.ok row, db) => (.milestone status (view row maySee), { s with milestones := db.milestones })
  | (.error problem, db) => (.problem problem, { s with milestones := db.milestones })

/-- The checks of an endpoint on one milestone. -/
def onMilestone (allowed : Bool) (id : Option Uuid) (projectId : Uuid) (s : State)
    (answer : Uuid → Milestone → Response) : Response :=
  if !allowed then .problem forbidden
  else
    match id with
    | none => .problem notFound
    | some id =>
        match s.milestone? projectId id with
        | none => .problem notFound
        | some row => answer id row

/-- What a caller gets to see of the answer of another handler. -/
def serialised (maySee : Bool) : Except Problem Epics.Answer → Response
  | .ok (.milestone row) => .milestone 200 (view row maySee)
  | .ok answer => .answer answer
  | .error problem => .problem problem

def act (workflow : Workflow) (projectId : Uuid) (maySee : Bool) (s : State) :
    Action → Response × State
  | .create caller body => written maySee 201 s (create caller projectId body (table s))
  | .update caller id header body =>
      written maySee 200 s (update caller projectId id header body (table s))
  | .list allowed state =>
      if !allowed then (.problem forbidden, s)
      else
        match closedFilter state with
        | .error problem => (.problem problem, s)
        | .ok closed =>
            (.milestones ((listFiltered s projectId closed).map (view · maySee))
              (completedCount s projectId), s)
  | .get allowed id =>
      (onMilestone allowed id projectId s fun _ row => .milestone 200 (view row maySee), s)
  | .epics allowed id =>
      (onMilestone allowed id projectId s fun id _ =>
        .epics (epicsInMilestone workflow s projectId id), s)
  | .board allowed id =>
      (onMilestone allowed id projectId s fun id _ =>
        .board (boardColumns workflow s projectId id), s)
  | .stats allowed id =>
      (onMilestone allowed id projectId s fun id _ => .stats (stats workflow s projectId id), s)
  | .listEpics allowed =>
      if !allowed then (.problem forbidden, s)
      else (.epics (listEpics workflow s projectId), s)
  | .getEpic allowed id =>
      if !allowed then (.problem forbidden, s)
      else
        match id.bind fun id => s.selectEpic projectId id with
        | none => (.problem notFound, s)
        | some epic => (.epic (epicCard workflow s projectId epic), s)

/-- `list_all`. -/
def listAll (workflow : Workflow) (visible : List (Project × Bool)) (state : Option String)
    (s : State) : Response :=
  match closedFilter state with
  | .error problem => .problem problem
  | .ok closed =>
      let ids := visible.map (·.1.id)
      .timeline ((listAcross s ids closed).filterMap fun row =>
        (visible.find? (·.1.id == row.projectId)).map fun entry =>
          rollup workflow s entry.1 entry.2 row) (completedCountAcross s ids)

/-- The milestone, epic and listing endpoints. -/
def server (workflow : Workflow) : Statement.Server State Request Response where
  handle request s :=
    match request with
    | .inProject projectId maySee action => act workflow projectId maySee s action
    | .work maySee turn =>
        let result := Epics.server.handle turn s
        (serialised maySee result.1, result.2)
    | .listAll visible state => (listAll workflow visible state s, s)

end IntelliPilot.Milestones.Endpoints
