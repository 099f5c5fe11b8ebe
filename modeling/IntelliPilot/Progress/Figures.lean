import IntelliPilot.Progress.Upkeep
import IntelliPilot.Relational.Tallies
import Mathlib

/-! # Progress figures

The queries that count the tasks of epics and of milestones. They count the same
issues by two routes, through `epic_id` and through the derived `milestone_id`,
some within a project and some not. In every state that the handlers reach the
figures add up.
-/

namespace IntelliPilot.Progress

open Rows Statement
open Backlog (Uuid Milestone Epic Issue)

/-! ## Queries -/

/-- An epic with its counts. -/
structure EpicProgress where
  epic : Epic
  taskTotal : Nat := 0
  taskClosed : Nat := 0
  deriving DecidableEq, Repr

structure MilestoneStats where
  totalTasks : Nat
  completedTasks : Nat
  deriving DecidableEq, Repr

structure MilestoneRollup where
  milestone : Milestone
  taskTotal : Nat
  taskClosed : Nat
  epicCount : Nat
  deriving DecidableEq, Repr

namespace State

/-- `t.counts_as_done`, of `LEFT JOIN taxonomy_items t ON t.id = i.status_id`. -/
def joinedDone (s : State) (issue : Issue) : Option Bool :=
  ((s.statusOf issue.id).bind s.item?).bind (·.countsAsDone)

/-- `COALESCE(t.counts_as_done, false)`. -/
def coalescedDone (s : State) (issue : Issue) : Bool := (s.joinedDone issue).getD false

/-- `FILTER (WHERE st.counts_as_done)`. -/
def filteredDone (s : State) (issue : Issue) : Bool := s.joinedDone issue == some true

/-- `JOIN taxonomy_items t ON t.id = i.status_id … AND t.counts_as_done`. -/
def innerJoined (s : State) (issue : Issue) : Bool :=
  ((s.statusOf issue.id).bind s.item?).any fun item => item.countsAsDone == some true

variable (projectId : Uuid)

/-- `i.project_id = $1 AND i.deleted_at IS NULL AND i.epic_id = $2`. -/
def groupedUnder (epicId : Uuid) (issue : Issue) : Bool :=
  issue.projectId == projectId && issue.live && issue.epicId == some epicId

/-- `epic_task_counts`: `GROUP BY i.epic_id`, collected in a map. -/
def epicTaskCounts (s : State) (epicId : Uuid) : Option (Nat × Nat) :=
  match s.backlog.issues.rows.filter (groupedUnder projectId epicId) with
  | [] => none
  | group => some (tally s.coalescedDone group)

/-- `epic_task_count_one`. -/
def epicTaskCountOne (s : State) (epicId : Uuid) : Nat × Nat :=
  tally s.coalescedDone (s.backlog.issues.rows.filter (groupedUnder projectId epicId))

/-- `get_epic`. -/
def getEpic (id : Uuid) (s : State) : Option EpicProgress :=
  (s.selectEpic projectId id).map fun epic =>
    ⟨epic, (s.epicTaskCountOne projectId epic.id).1, (s.epicTaskCountOne projectId epic.id).2⟩

/-- The counts of the map, where it has the epic. -/
def hydrate (counts : Uuid → Option (Nat × Nat)) (epic : Epic) : EpicProgress :=
  match counts epic.id with
  | some (total, closed) => ⟨epic, total, closed⟩
  | none => { epic }

/-- `list_epics`, in the order of the rows. -/
def listEpics (s : State) : List EpicProgress :=
  (s.backlog.epics.rows.filter fun epic => epic.projectId == projectId && epic.live).map
    (hydrate (s.epicTaskCounts projectId))

def composes (milestoneId : Uuid) (epic : Epic) : Bool :=
  epic.projectId == projectId && epic.milestoneId == some milestoneId && epic.live

/-- `epics_in_milestone`. -/
def epicsInMilestone (milestoneId : Uuid) (s : State) : List EpicProgress :=
  (s.backlog.epics.rows.filter (composes projectId milestoneId)).map
    (hydrate (s.epicTaskCounts projectId))

/-- `milestones::stats`, of tasks. -/
def stats (milestoneId : Uuid) (s : State) : MilestoneStats :=
  let counts := tally s.filteredDone (s.backlog.issues.rows.filter fun issue =>
    issue.projectId == projectId && issue.milestoneId == some milestoneId && issue.live)
  ⟨counts.1, counts.2⟩

/-- `i.milestone_id = m.id AND i.deleted_at IS NULL`. -/
def inMilestone (milestoneId : Uuid) (issue : Issue) : Bool :=
  issue.milestoneId == some milestoneId && issue.live

/-- A row of `list_across`. -/
def rollup (s : State) (milestone : Milestone) : MilestoneRollup where
  milestone := milestone
  taskTotal := (s.backlog.issues.rows.filter (inMilestone milestone.id)).length
  taskClosed := (s.backlog.issues.rows.filter fun issue =>
    inMilestone milestone.id issue && s.innerJoined issue).length
  epicCount := (s.backlog.epics.rows.filter fun epic =>
    epic.milestoneId == some milestone.id && epic.live).length

/-- `list_across`, in the order of the rows. -/
def listAcross (projectIds : List Uuid) (closed : Option Bool) (s : State) :
    List MilestoneRollup :=
  if projectIds.isEmpty then []
  else
    (s.backlog.milestones.rows.filter fun milestone =>
      projectIds.contains milestone.projectId && milestone.live &&
        closed.all (milestone.closed == ·)).map s.rollup

end State

/-! ## One figure by two routes -/

section Routes

variable {s : State} {projectId milestoneId : Uuid}

theorem filteredDone_eq (s : State) : s.filteredDone = s.coalescedDone := by
  funext issue
  rw [State.filteredDone, State.coalescedDone]
  cases s.joinedDone issue with
  | none => rfl
  | some done => cases done <;> rfl

theorem innerJoined_eq (s : State) : s.innerJoined = s.coalescedDone := by
  funext issue
  rw [State.innerJoined, State.coalescedDone, State.joinedDone]
  cases (s.statusOf issue.id).bind s.item? with
  | none => rfl
  | some item =>
    simp only [Option.any_some, Option.bind_some]
    cases item.countsAsDone with
    | none => rfl
    | some done => cases done <;> rfl

/-- A group that is not in the map has no rows. -/
theorem epicTaskCounts_getD (s : State) (projectId epicId : Uuid) :
    (s.epicTaskCounts projectId epicId).getD (0, 0) = s.epicTaskCountOne projectId epicId := by
  rw [State.epicTaskCounts, State.epicTaskCountOne]
  cases s.backlog.issues.rows.filter (State.groupedUnder projectId epicId) with
  | nil => rfl
  | cons row rows => rfl

theorem hydrate_eq (counts : Uuid → Option (Nat × Nat)) (epic : Epic) :
    State.hydrate counts epic =
      ⟨epic, ((counts epic.id).getD (0, 0)).1, ((counts epic.id).getD (0, 0)).2⟩ := by
  rw [State.hydrate]
  cases counts epic.id with
  | none => rfl
  | some pair => rfl

/-- The milestone of an issue is that of a live epic of the issue's project. -/
theorem milestoneId_eq_some_iff (h : Sound s) {issue : Issue}
    (hissue : issue ∈ s.backlog.issues.rows) :
    issue.milestoneId = some milestoneId ↔ ∃ epic ∈ s.backlog.epics.rows,
      issue.epicId = some epic.id ∧ State.composes issue.projectId milestoneId epic = true := by
  have hderived := h.consistent.derived issue hissue
  rw [Issue.Derived, Backlog.derivedMilestone_eq] at hderived
  simp only [State.composes, Bool.and_eq_true, beq_iff_eq]
  constructor
  · intro hmilestone
    rw [hderived, Option.bind_eq_some_iff] at hmilestone
    obtain ⟨epic, hepic, hlink⟩ := hmilestone
    obtain ⟨id, hid, hlive⟩ := Option.bind_eq_some_iff.mp hepic
    obtain ⟨hfind, hlive⟩ := Option.filter_eq_some_iff.mp hlive
    have hrow := Table.mem_of_find? hfind
    have hkey := Table.key_of_find? hfind
    have hproject := (h.epics issue hissue id hid).2 epic hrow hkey
    refine ⟨epic, hrow, ?_, ⟨hproject, hlink⟩, hlive⟩
    rw [hid, hkey]
  · rintro ⟨epic, hepic, hid, ⟨_, hlink⟩, hlive⟩
    have hfind : s.backlog.liveEpic? epic.id = some epic := by
      rw [Backlog.Db.liveEpic?, Option.filter_eq_some_iff]
      exact ⟨Table.find?_key hepic, hlive⟩
    rw [hderived, hid, Option.bind_some, hfind, Option.bind_some, hlink]

/-- The epics of a milestone, through which its issues are counted. -/
theorem sum_epicTaskCounts (h : Sound s) (projectId milestoneId : Uuid) :
    ((s.epicsInMilestone projectId milestoneId).map fun full =>
        (s.epicTaskCounts projectId full.epic.id).getD (0, 0)).sum =
      tally s.coalescedDone (s.backlog.issues.rows.filter fun issue =>
        issue.projectId == projectId && issue.milestoneId == some milestoneId && issue.live) := by
  let composing := s.backlog.epics.rows.filter (State.composes projectId milestoneId)
  have hcounts : ((s.epicsInMilestone projectId milestoneId).map fun full =>
        (s.epicTaskCounts projectId full.epic.id).getD (0, 0)) =
      (composing.map (·.id)).map fun id => tally s.coalescedDone
        (s.backlog.issues.rows.filter fun issue =>
          (issue.projectId == projectId && issue.live) && issue.epicId == some id) := by
    rw [State.epicsInMilestone, List.map_map, List.map_map]
    apply List.map_congr_left
    intro epic _
    rw [Function.comp_apply, Function.comp_apply, epicTaskCounts_getD, hydrate_eq]
    rfl
  have hnodup : (composing.map (·.id)).Nodup :=
    s.backlog.epics.nodup.sublist (List.filter_sublist.map _)
  rw [hcounts, sum_tally_groups (fun issue : Issue => issue.epicId)
    (fun issue => issue.projectId == projectId && issue.live) hnodup]
  apply tally_filter_congr
  intro issue hissue
  rw [Bool.eq_iff_iff]
  simp only [Bool.and_eq_true, beq_iff_eq, Option.any_eq_true, List.contains_iff_mem]
  constructor
  · rintro ⟨⟨hproject, hlive⟩, id, hid, hmem⟩
    obtain ⟨epic, hepic, rfl⟩ := List.mem_map.mp hmem
    obtain ⟨hrow, hcomposes⟩ := List.mem_filter.mp hepic
    refine ⟨⟨hproject, (milestoneId_eq_some_iff h hissue).mpr ⟨epic, hrow, hid, ?_⟩⟩, hlive⟩
    rw [hproject]
    exact hcomposes
  · rintro ⟨⟨hproject, hmilestone⟩, hlive⟩
    obtain ⟨epic, hrow, hid, hcomposes⟩ := (milestoneId_eq_some_iff h hissue).mp hmilestone
    rw [hproject] at hcomposes
    refine ⟨⟨hproject, hlive⟩, epic.id, hid, ?_⟩
    exact List.mem_map_of_mem (List.mem_filter.mpr ⟨hrow, hcomposes⟩)

/-- No issue of another project is in a milestone. -/
theorem inMilestone_project (h : Sound s) {milestone : Milestone}
    (hmilestone : milestone ∈ s.backlog.milestones.rows) {issue : Issue}
    (hissue : issue ∈ s.backlog.issues.rows) (hin : issue.milestoneId = some milestone.id) :
    issue.projectId = milestone.projectId := by
  obtain ⟨epic, hrow, _, hcomposes⟩ := (milestoneId_eq_some_iff h hissue).mp hin
  simp only [State.composes, Bool.and_eq_true, beq_iff_eq] at hcomposes
  rw [← hcomposes.1.1]
  exact ((h.milestones epic hrow milestone.id hcomposes.1.2).2 milestone hmilestone rfl).symm

/-- The counts without a project are those of the milestone's project. -/
theorem rollup_tally (h : Sound s) {milestone : Milestone}
    (hmilestone : milestone ∈ s.backlog.milestones.rows) :
    ((s.rollup milestone).taskTotal, (s.rollup milestone).taskClosed) =
      tally s.coalescedDone (s.backlog.issues.rows.filter fun issue =>
        issue.projectId == milestone.projectId && issue.milestoneId == some milestone.id &&
          issue.live) := by
  have hsame : tally s.coalescedDone (s.backlog.issues.rows.filter fun issue =>
        issue.projectId == milestone.projectId && issue.milestoneId == some milestone.id &&
          issue.live) =
      tally s.coalescedDone (s.backlog.issues.rows.filter (State.inMilestone milestone.id)) := by
    apply tally_filter_congr
    intro issue hissue
    rw [State.inMilestone]
    by_cases hin : issue.milestoneId = some milestone.id
    · rw [inMilestone_project h hmilestone hissue hin, beq_self_eq_true, Bool.true_and]
    · rw [beq_eq_false_iff_ne.mpr hin, Bool.and_false]
  rw [hsame, tally, List.filter_filter]
  simp only [State.rollup, innerJoined_eq, Bool.and_comm]

end Routes

/-! ## The figures of one state -/

/-- The figures of a state add up. -/
structure AddsUp (s : State) : Prop where
  /-- Over the epics of a live milestone, to its totals. -/
  epics : ∀ milestone ∈ s.backlog.milestones.rows, milestone.live = true →
    ((s.epicsInMilestone milestone.projectId milestone.id).map fun full =>
        (s.epicTaskCounts milestone.projectId full.epic.id).getD (0, 0)).sum =
      ((s.stats milestone.projectId milestone.id).totalTasks,
        (s.stats milestone.projectId milestone.id).completedTasks)
  /-- The roll-ups of live milestones, wherever they are asked for. -/
  rollups : ∀ projectIds closed milestone, milestone ∈ s.backlog.milestones.rows →
    milestone.live = true → milestone.projectId ∈ projectIds →
    closed.all (milestone.closed == ·) = true →
      ∃ rollup ∈ s.listAcross projectIds closed, rollup.milestone = milestone
  totals : ∀ projectIds closed, ∀ rollup ∈ s.listAcross projectIds closed,
    (rollup.taskTotal, rollup.taskClosed) =
      ((s.stats rollup.milestone.projectId rollup.milestone.id).totalTasks,
        (s.stats rollup.milestone.projectId rollup.milestone.id).completedTasks)
  /-- One epic, alone, in the list and in its milestone. -/
  alone : ∀ projectId full, full ∈ s.listEpics projectId ↔
    s.getEpic projectId full.epic.id = some full
  inside : ∀ projectId milestoneId, ∀ full ∈ s.epicsInMilestone projectId milestoneId,
    full ∈ s.listEpics projectId
  bounded : ∀ projectId id full, s.getEpic projectId id = some full →
    full.taskClosed ≤ full.taskTotal
  boundedStats : ∀ projectId milestoneId,
    (s.stats projectId milestoneId).completedTasks ≤ (s.stats projectId milestoneId).totalTasks

theorem mem_listEpics_iff {s : State} {projectId : Uuid} {full : EpicProgress} :
    full ∈ s.listEpics projectId ↔ s.getEpic projectId full.epic.id = some full := by
  rw [State.listEpics, List.mem_map, State.getEpic, Option.map_eq_some_iff]
  simp only [State.selectEpic, Option.filter_eq_some_iff, Backlog.Db.epic?,
    Table.find?_eq_some_iff, List.mem_filter, hydrate_eq, epicTaskCounts_getD]
  constructor
  · rintro ⟨epic, ⟨hrow, htest⟩, rfl⟩
    exact ⟨epic, ⟨⟨hrow, rfl⟩, htest⟩, rfl⟩
  · rintro ⟨epic, ⟨⟨hrow, _⟩, htest⟩, heq⟩
    exact ⟨epic, ⟨hrow, htest⟩, heq⟩

theorem addsUp_of_sound {s : State} (h : Sound s) : AddsUp s where
  epics milestone _ _ := by
    rw [sum_epicTaskCounts h]
    simp only [State.stats, filteredDone_eq]
  rollups projectIds closed milestone hmilestone hlive hproject hclosed := by
    refine ⟨s.rollup milestone, ?_, rfl⟩
    have hsome : projectIds.isEmpty = false := by
      cases projectIds with
      | nil => exact absurd hproject List.not_mem_nil
      | cons first rest => rfl
    rw [State.listAcross, hsome, if_neg Bool.false_ne_true]
    apply List.mem_map_of_mem
    rw [List.mem_filter]
    simp only [Bool.and_eq_true, List.contains_iff_mem]
    exact ⟨hmilestone, ⟨hproject, hlive⟩, hclosed⟩
  totals projectIds closed rollup hrollup := by
    rw [State.listAcross] at hrollup
    split at hrollup
    · exact absurd hrollup List.not_mem_nil
    · obtain ⟨milestone, hmilestone, rfl⟩ := List.mem_map.mp hrollup
      rw [rollup_tally h (List.mem_filter.mp hmilestone).1]
      simp only [State.stats, State.rollup, filteredDone_eq]
  alone projectId full := mem_listEpics_iff
  inside projectId milestoneId full hfull := by
    obtain ⟨epic, hepic, rfl⟩ := List.mem_map.mp hfull
    obtain ⟨hrow, hcomposes⟩ := List.mem_filter.mp hepic
    simp only [State.composes, Bool.and_eq_true, beq_iff_eq] at hcomposes
    apply List.mem_map_of_mem
    rw [List.mem_filter]
    simp only [Bool.and_eq_true, beq_iff_eq]
    exact ⟨hrow, hcomposes.1.1, hcomposes.2⟩
  bounded projectId id full hfull := by
    obtain ⟨epic, _, rfl⟩ := Option.map_eq_some_iff.mp hfull
    exact tally_le _ _
  boundedStats projectId milestoneId := tally_le _ _

/-! ## Every state -/

/-- In every state of every run the progress figures add up. -/
theorem progress_adds_up {s : State} (h : Sound s) (labels : List (Label Request Choice)) :
    AddsUp (service.run (Service.initial s) labels).world.state :=
  addsUp_of_sound (sound_run h labels)

theorem sound_empty : Sound .empty where
  consistent := ⟨fun _ h => absurd h List.not_mem_nil, fun _ h => absurd h List.not_mem_nil⟩
  milestoneIds _ h := absurd h List.not_mem_nil
  epicIds _ h := absurd h List.not_mem_nil
  issueIds _ h := absurd h List.not_mem_nil
  milestones _ h := absurd h List.not_mem_nil
  epics _ h := absurd h List.not_mem_nil

/-- A milestone of two epics with an issue each, one of them done. -/
def roadmap : List Request :=
  [.createItem 9 none .issueStatus (some true), .createMilestone 9 none,
    .createEpic 9 none (some 2), .createEpic 9 none none,
    .createIssue 9 none { statusId := some 1, epicId := some 3 },
    .createIssue 9 none { epicId := some 4 }, .setEpics 9 2 none [3, 4], .deleteEpic 9 3 none]

/-- The requests one after the other. -/
def oneByOne (requests : List Request) : List (Label Request Choice) :=
  requests.zipIdx.flatMap fun entry =>
    .start entry.1 :: List.replicate 8 (.run entry.2 {})

theorem progress_adds_up_roadmap :
    AddsUp (service.run (Service.initial .empty) (oneByOne roadmap)).world.state :=
  progress_adds_up sound_empty (oneByOne roadmap)

example : (service.run (Service.initial .empty) (oneByOne (roadmap.take 7))).world.state.stats 9 2 =
    ⟨2, 1⟩ := by decide +kernel

end IntelliPilot.Progress
