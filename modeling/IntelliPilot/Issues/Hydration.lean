import IntelliPilot.Issues.Tables
import IntelliPilot.Relational.Windows

/-! # Hydration of issues

The sets of an issue are read by `get_issue` for one issue, and by
`hydrate_issue_relations` for a list of them at once. A query leaves the order
of rows with equal keys open, so both functions take what their queries
returned.
-/

namespace IntelliPilot.Issues.Hydration

open Imports (Uuid)
open Windows

/-! ## Tables and rows -/

/-- The issues and the tables of their sets. -/
structure Db where
  issues : Table Issue.id
  labels : Table fun link : Uuid × Uuid => link
  components : Table fun link : Uuid × Uuid => link
  customers : Table fun link : Uuid × Uuid => link
  watchers : Table fun link : Uuid × Uuid => link
  versions : Table fun row : VersionRow => (row.issueId, row.componentId)

/-- An issue with all of its sets. -/
structure HydratedIssue extends FullIssue where
  watchers : List Uuid
  deriving DecidableEq, Repr

/-- What the queries for the sets returned. -/
structure Fetched where
  labels : List (Uuid × Uuid)
  components : List (Uuid × Uuid)
  customers : List (Uuid × Uuid)
  watchers : List (Uuid × Uuid)
  versions : List VersionRow

/-- `= ANY($1)`. -/
def isAny (ids : List Uuid) (id : Uuid) : Bool := ids.contains id

/-- The queries ask for the sets of chosen issues, each `ORDER BY` the member of the set. -/
structure Fetched.Of (chosen : Uuid → Bool) (db : Db) (f : Fetched) : Prop where
  labels : Answers (fun link => chosen link.1) Prod.snd db.labels.rows f.labels
  components : Answers (fun link => chosen link.1) Prod.snd db.components.rows f.components
  customers : Answers (fun link => chosen link.1) Prod.snd db.customers.rows f.customers
  watchers : Answers (fun link => chosen link.1) Prod.snd db.watchers.rows f.watchers
  versions : Answers (fun row => chosen row.issueId) VersionRow.componentId db.versions.rows
    f.versions

/-! ## The functions -/

/-- `row_to_issue`, which leaves the sets to its caller. -/
def rowToIssue (row : Issue) : HydratedIssue where
  toIssue := row
  labels := []
  components := []
  componentVersions := []
  customerIds := []
  watchers := []

/-- `get_issue`. -/
def getIssue (db : Db) (f : Fetched) (projectId id : Uuid) : Option HydratedIssue :=
  (db.issues.rows.find? fun row =>
      row.id == id && row.projectId == projectId && row.deletedAt.isNone).map fun row =>
    { rowToIssue row with
      labels := f.labels.map Prod.snd
      components := f.components.map Prod.snd
      componentVersions := f.versions.map fun row => ⟨row.componentId, row.releaseVersionId⟩
      customerIds := f.customers.map Prod.snd
      watchers := f.watchers.map Prod.snd }

/-- `group_ids`. -/
def groupIds (rows : List (Uuid × Uuid)) : Uuid → Option (List Uuid) :=
  groupBy Prod.fst Prod.snd rows

/-- `hydrate_issue_relations`. -/
def hydrateIssueRelations (f : Fetched) (issues : List HydratedIssue) : List HydratedIssue :=
  if issues.isEmpty then issues
  else
    let labels := groupIds f.labels
    let components := groupIds f.components
    let customers := groupIds f.customers
    let watchers := groupIds f.watchers
    let componentVersions := groupBy VersionRow.issueId
      (fun row => (⟨row.componentId, row.releaseVersionId⟩ : ComponentVersion)) f.versions
    issues.map fun iss =>
      { iss with
        labels := (labels iss.id).getD []
        components := (components iss.id).getD []
        componentVersions := (componentVersions iss.id).getD []
        customerIds := (customers iss.id).getD []
        watchers := (watchers iss.id).getD [] }

/-! ## One issue and many -/

/-- The same members in the same order, in every set. -/
structure SameSets (a b : HydratedIssue) : Prop where
  labels : a.labels = b.labels
  components : a.components = b.components
  componentVersions : a.componentVersions = b.componentVersions
  customerIds : a.customerIds = b.customerIds
  watchers : a.watchers = b.watchers

variable {db : Db}

/-- The group of an issue in a table of links is what a query for that issue returns. -/
theorem getD_groupIds {links : Table fun link : Uuid × Uuid => link} {chosen : Uuid → Bool}
    {id : Uuid} (hid : chosen id = true) {many one : List (Uuid × Uuid)}
    (hmany : Answers (fun link => chosen link.1) Prod.snd links.rows many)
    (hone : Answers (fun link => link.1 == id) Prod.snd links.rows one) :
    (groupIds many id).getD [] = one.map Prod.snd := by
  have hfilter : many.filter (fun link => link.1 == id) = one := by
    apply hmany.filter_eq hone
    · intro link _ hlink
      rw [eq_of_beq hlink]
      exact hid
    · intro a _ b _ ha hb hkey
      exact Prod.ext ((eq_of_beq ha).trans (eq_of_beq hb).symm) hkey
  rw [groupIds, getD_groupBy, ← hfilter]
  rfl

/-- So it is for the versions, of which a component has one. -/
theorem getD_versions {chosen : Uuid → Bool} {id : Uuid} (hid : chosen id = true)
    {many one : List VersionRow}
    (hmany : Answers (fun row => chosen row.issueId) VersionRow.componentId db.versions.rows many)
    (hone : Answers (fun row => row.issueId == id) VersionRow.componentId db.versions.rows one)
    (value : VersionRow → ComponentVersion) :
    (groupBy VersionRow.issueId value many id).getD [] = one.map value := by
  have hfilter : many.filter (fun row => row.issueId == id) = one := by
    apply hmany.filter_eq hone
    · intro row _ hrow
      rw [eq_of_beq hrow]
      exact hid
    · intro a ha b hb hida hidb hkey
      apply List.inj_on_of_nodup_map db.versions.nodup ha hb
      exact Prod.ext ((eq_of_beq hida).trans (eq_of_beq hidb).symm) hkey
  rw [getD_groupBy, ← hfilter]
  rfl

/-- Whatever the queries return that they may, the issues of a list get the sets that `get_issue`
gives each of them, and nothing else about them changes. -/
theorem hydrate_eq_getIssue (db : Db) (issues : List HydratedIssue) (batch : Fetched)
    (hbatch : batch.Of (isAny (issues.map (·.id))) db) :
    (hydrateIssueRelations batch issues).map (·.toIssue) = issues.map (·.toIssue) ∧
    ∀ (n : Nat) hydrated, (hydrateIssueRelations batch issues)[n]? = some hydrated →
      ∀ one : Fetched, one.Of (· == hydrated.id) db → ∀ projectId found,
        getIssue db one projectId hydrated.id = some found → SameSets hydrated found := by
  unfold hydrateIssueRelations
  cases issues with
  | nil =>
    refine ⟨rfl, fun n hydrated hat => ?_⟩
    simp at hat
  | cons first rest =>
    simp only [List.isEmpty_cons, Bool.false_eq_true, if_false]
    refine ⟨by simp, fun n hydrated hat one hone projectId found hfound => ?_⟩
    rw [List.getElem?_map] at hat
    obtain ⟨issue, hissue, rfl⟩ := Option.map_eq_some_iff.mp hat
    obtain ⟨row, _, rfl⟩ := Option.map_eq_some_iff.mp hfound
    have hid : isAny ((first :: rest).map (·.id)) issue.id = true :=
      List.contains_iff_mem.mpr (List.mem_map_of_mem (List.mem_of_getElem? hissue))
    constructor
    · exact getD_groupIds hid hbatch.labels hone.labels
    · exact getD_groupIds hid hbatch.components hone.components
    · exact getD_versions hid hbatch.versions hone.versions _
    · exact getD_groupIds hid hbatch.customers hone.customers
    · exact getD_groupIds hid hbatch.watchers hone.watchers

/-- A row of `issues` with nothing but its key. -/
def plainIssue (id : Uuid) : Issue where
  id := id
  projectId := 1
  reference := id
  subject := "s"
  ownerId := 1
  version := 1
  deletedAt := none

/-- Two issues; the tables keep their rows in the order they were inserted in. -/
def sampleDb : Db where
  issues := ⟨[plainIssue 1, plainIssue 2], by decide⟩
  labels := ⟨[(1, 7), (2, 5), (1, 5)], by decide⟩
  components := ⟨[(1, 4), (1, 3)], by decide⟩
  customers := ⟨[], by decide⟩
  watchers := ⟨[(2, 9)], by decide⟩
  versions := ⟨[⟨1, 4, 8⟩, ⟨1, 3, 6⟩], by decide⟩

theorem hydrate_eq_getIssue_sample : ∃ found,
    getIssue sampleDb ⟨[(1, 5), (1, 7)], [(1, 3), (1, 4)], [], [], [⟨1, 3, 6⟩, ⟨1, 4, 8⟩]⟩ 1 1 =
      some found ∧
    ∀ hydrated, (hydrateIssueRelations
        ⟨[(1, 5), (2, 5), (1, 7)], [(1, 3), (1, 4)], [], [(2, 9)], [⟨1, 3, 6⟩, ⟨1, 4, 8⟩]⟩
        [rowToIssue (plainIssue 1), rowToIssue (plainIssue 2), rowToIssue (plainIssue 1)])[2]? =
          some hydrated → SameSets hydrated found := by
  refine ⟨_, rfl, fun hydrated hat => ?_⟩
  have hbatch : Fetched.Of (isAny [1, 2, 1]) sampleDb
      ⟨[(1, 5), (2, 5), (1, 7)], [(1, 3), (1, 4)], [], [(2, 9)], [⟨1, 3, 6⟩, ⟨1, 4, 8⟩]⟩ := by
    refine ⟨⟨?_, ?_⟩, ⟨?_, ?_⟩, ⟨?_, ?_⟩, ⟨?_, ?_⟩, ⟨?_, ?_⟩⟩ <;> decide
  have hone : Fetched.Of (· == 1) sampleDb
      ⟨[(1, 5), (1, 7)], [(1, 3), (1, 4)], [], [], [⟨1, 3, 6⟩, ⟨1, 4, 8⟩]⟩ := by
    refine ⟨⟨?_, ?_⟩, ⟨?_, ?_⟩, ⟨?_, ?_⟩, ⟨?_, ?_⟩, ⟨?_, ?_⟩⟩ <;> decide
  obtain rfl := Option.some.inj hat
  exact (hydrate_eq_getIssue sampleDb [rowToIssue (plainIssue 1), rowToIssue (plainIssue 2),
    rowToIssue (plainIssue 1)] _ hbatch).2 2 _ rfl _ hone 1 _ rfl

end IntelliPilot.Issues.Hydration
