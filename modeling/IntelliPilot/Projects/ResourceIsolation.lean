import IntelliPilot.Projects.Resources

/-! # Isolation of the resources of a project

A request under one project is isolated from another one where it is answered
as if the other project had no rows, changes none of its rows and makes nothing
of its own project refer to them. A row that ties two things together belongs
to the project of the first; a link of issues names its project. Most handlers
tie the ids of a request to the project. Where one does not, the request is
isolated exactly where its ids happen to lead nowhere into the other project.
-/

namespace IntelliPilot.Projects.Resources

open Http Rows

/-! ## What belongs to a project -/

/-- The rows of one project. -/
structure Holdings where
  issues : List Issue
  epics : List Epic
  issueWatchers : List IssueWatcher
  issueLinks : List IssueLink
  components : List Component
  releases : List Release
  releaseVersions : List ReleaseVersion
  componentReleases : List ComponentRelease
  repositories : List Repository
  sshKeys : List SshKey
  componentRepositories : List ComponentRepository
  issueVersions : List IssueVersion
  taxonomyItems : List TaxonomyItem
  boards : List Board
  lastOpened : List LastOpened
  deriving DecidableEq, Repr

/-- What one thing can say of another one. -/
inductive Reference where
  | link (source target : Uuid)
  | version (issueId versionId : Uuid)
  | release (componentId releaseId : Uuid)
  | repository (componentId repositoryId : Uuid)
  | source (versionId repositoryId : Uuid)
  | opened (userId boardId : Uuid)
  deriving DecidableEq, Repr

namespace Db

variable (db : Db) (projectId : Uuid)

def issueOf (id : Uuid) : Bool := (db.issues.find? id).any (·.projectId == projectId)

def componentOf (id : Uuid) : Bool := (db.components.find? id).any (·.projectId == projectId)

def releaseOf (id : Uuid) : Bool := (db.releases.find? id).any (·.projectId == projectId)

def repositoryOf (id : Uuid) : Bool := (db.repositories.find? id).any (·.projectId == projectId)

def boardOf (id : Uuid) : Bool := (db.boards.find? id).any (·.projectId == projectId)

def versionOf (id : Uuid) : Bool :=
  (db.releaseVersions.find? id).any fun row => db.releaseOf projectId row.releaseId

def holdings : Holdings where
  issues := db.issues.rows.filter (·.projectId == projectId)
  epics := db.epics.rows.filter (·.projectId == projectId)
  issueWatchers := db.issueWatchers.rows.filter fun row => db.issueOf projectId row.issueId
  issueLinks := db.issueLinks.rows.filter (·.projectId == projectId)
  components := db.components.rows.filter (·.projectId == projectId)
  releases := db.releases.rows.filter (·.projectId == projectId)
  releaseVersions := db.releaseVersions.rows.filter fun row => db.releaseOf projectId row.releaseId
  componentReleases :=
    db.componentReleases.rows.filter fun row => db.componentOf projectId row.componentId
  repositories := db.repositories.rows.filter (·.projectId == projectId)
  sshKeys := db.sshKeys.rows.filter (·.projectId == projectId)
  componentRepositories :=
    db.componentRepositories.rows.filter fun row => db.componentOf projectId row.componentId
  issueVersions := db.issueVersions.rows.filter fun row => db.issueOf projectId row.issueId
  taxonomyItems := db.taxonomyItems.rows.filter (·.projectId == projectId)
  boards := db.boards.rows.filter (·.projectId == projectId)
  lastOpened := db.lastOpened.rows.filter (·.projectId == projectId)

/-- The tables without the rows of a project. -/
def without : Db :=
  { db with
    issues := db.issues.erase (·.projectId == projectId)
    epics := db.epics.erase (·.projectId == projectId)
    issueWatchers := db.issueWatchers.erase fun row => db.issueOf projectId row.issueId
    issueLinks := db.issueLinks.erase (·.projectId == projectId)
    components := db.components.erase (·.projectId == projectId)
    releases := db.releases.erase (·.projectId == projectId)
    releaseVersions := db.releaseVersions.erase fun row => db.releaseOf projectId row.releaseId
    componentReleases :=
      db.componentReleases.erase fun row => db.componentOf projectId row.componentId
    repositories := db.repositories.erase (·.projectId == projectId)
    sshKeys := db.sshKeys.erase (·.projectId == projectId)
    componentRepositories :=
      db.componentRepositories.erase fun row => db.componentOf projectId row.componentId
    issueVersions := db.issueVersions.erase fun row => db.issueOf projectId row.issueId
    taxonomyItems := db.taxonomyItems.erase (·.projectId == projectId)
    boards := db.boards.erase (·.projectId == projectId)
    lastOpened := db.lastOpened.erase (·.projectId == projectId)
    links_lt := fun row hrow => db.links_lt row (mem_deleteWhere.mp hrow).1
    versions_lt := fun row hrow => db.versions_lt row (mem_deleteWhere.mp hrow).1 }

/-- Something of the project refers to another thing so. -/
def refers : Reference → Bool
  | .link source target => db.issueLinks.rows.any fun row =>
      row.projectId == projectId && row.sourceIssueId == source && row.targetIssueId == target
  | .version issueId versionId => db.issueOf projectId issueId &&
      ((db.issues.find? issueId).any (·.releaseVersionId == some versionId) ||
        db.issueVersions.rows.any fun row => row.issueId == issueId && row.versionId == versionId)
  | .release componentId releaseId => db.componentOf projectId componentId &&
      (db.componentReleases.find? (componentId, releaseId)).isSome
  | .repository componentId repositoryId => db.componentOf projectId componentId &&
      (db.componentRepositories.find? (componentId, repositoryId)).isSome
  | .source versionId repositoryId => db.versionOf projectId versionId &&
      (db.releaseVersions.find? versionId).any (·.repositoryId == some repositoryId)
  | .opened userId boardId =>
      (db.lastOpened.find? (projectId, userId)).any (·.boardId == some boardId)

/-- What is referred to belongs to the project. -/
def leadsTo : Reference → Bool
  | .link source target => db.issueOf projectId source || db.issueOf projectId target
  | .version _ versionId => db.versionOf projectId versionId
  | .release _ releaseId => db.releaseOf projectId releaseId
  | .repository _ repositoryId => db.repositoryOf projectId repositoryId
  | .source _ repositoryId => db.repositoryOf projectId repositoryId
  | .opened _ boardId => db.boardOf projectId boardId

end Db

/-- What is done leaves another project alone: the answer does not depend on its
rows, they stay as they are, and the project does not come to refer to them. -/
structure Isolates (projectId other : Uuid) (db : Db) (act : Db → Response × Db) : Prop where
  response : (act db).1 = (act (db.without other)).1
  holdings : (act db).2.holdings other = db.holdings other
  references : ∀ r, db.leadsTo other r = true → (act db).2.refers projectId r = true →
    db.refers projectId r = true

section Handlers

variable (remote : Remote) (ctx : Context) (now : Int) (db : Db) (other : Uuid)

def Isolated (request : Request) : Prop :=
  Isolates ctx.projectId other db fun db => serve ctx now remote db request

/-- A link of the other project is seen by the check of a new link only beside another one. -/
def HarmlessLink (link : Uuid × Uuid × LinkType) : Prop :=
  ∀ row ∈ db.issueLinks.rows, row.sourceIssueId = link.1 → row.targetIssueId = link.2.1 →
    row.linkType = link.2.2 → row.projectId = other →
      ∃ row' ∈ db.issueLinks.rows, row'.sourceIssueId = link.1 ∧ row'.targetIssueId = link.2.1 ∧
        row'.linkType = link.2.2 ∧ row'.projectId ≠ other

/-- The request is refused by its checks, or its ids lead to nothing of the other project. -/
def Harmless : Request → Prop
  | .listLinks id => ∀ id', admitIssue ctx db id = .ok id' → ∀ row ∈ db.issueLinks.rows,
      ∀ direction view, db.linkView id' (row, direction) = some view →
        row.projectId ≠ other ∧ db.issueOf other view.otherIssueId = false
  | .createLink id body => ∀ link, admitLink ctx db id body = .ok link → HarmlessLink db other link
  | .removeWatcher id userId => ∀ pair, admitPair ctx id userId codedNotFound = .ok pair →
      (db.issueWatchers.find? pair).isSome → db.issueOf other pair.1 = false
  | .createVersion releaseId body => ∀ new, admitVersion ctx db releaseId body = .ok new →
      db.versionTaken new.1 new.2.version none = false →
      ∀ id, new.2.repositoryId = some id → db.repositoryOf other id = false
  | .updateVersion versionId body => ∀ patch, admitVersionPatch ctx db versionId body = .ok patch →
      db.versionTaken patch.1.releaseId patch.2.version (some patch.1.id) = false →
      patch.2.repositoryId ≠ patch.1.repositoryId →
      ∀ id, patch.2.repositoryId = some id → db.repositoryOf other id = false
  | .deleteVersion versionId => ∀ id, admitId ctx versionId codedNotFound = .ok id →
      (db.version? ctx.projectId id).isSome →
      (∀ issue ∈ db.issues.rows, issue.projectId = other → issue.releaseVersionId ≠ some id) ∧
        ∀ row ∈ db.issueVersions.rows, db.issueOf other row.issueId = true → row.versionId ≠ id
  | .versionsForComponents body => ∀ ids, admitBody ctx body = .ok ids →
      ∀ row ∈ db.releaseVersions.rows, (db.refForComponents ids row).isSome →
        db.releaseOf other row.releaseId = false ∧
          ∃ link ∈ db.componentReleases.rows, link.releaseId = row.releaseId ∧
            link.componentId ∈ ids ∧ db.componentOf other link.componentId = false
  | .listComponentReleases componentId =>
      ∀ id, admitComponent ctx db codedNotFound componentId = .ok id →
        ∀ row ∈ db.componentReleases.rows, row.componentId = id →
          db.releaseOf other row.releaseId = false
  | .unlinkComponentRelease componentId releaseId =>
      ∀ pair, admitPair ctx componentId releaseId codedNotFound = .ok pair →
        (db.componentReleases.find? pair).isSome → db.componentOf other pair.1 = false
  | .listComponentRepositories componentId =>
      ∀ id, admitComponent ctx db notFound componentId = .ok id →
        ∀ row ∈ db.componentRepositories.rows, row.componentId = id →
          db.repositoryOf other row.repositoryId = false
  | .unlinkComponentRepository componentId repositoryId =>
      ∀ pair, admitPair ctx componentId repositoryId notFound = .ok pair →
        (db.componentRepositories.find? pair).isSome → db.componentOf other pair.1 = false
  | .deleteTaxonomyItem kind itemId => ∀ item, admitTaxonomyItem ctx kind itemId = .ok item →
      (∀ epic ∈ db.epics.rows, epic.projectId = other → epic.statusId ≠ some item.2) ∧
        ∀ issue ∈ db.issues.rows, issue.projectId = other →
          issue.statusId ≠ some item.2 ∧ issue.typeId ≠ some item.2 ∧
            issue.priorityId ≠ some item.2 ∧ issue.sizeId ≠ some item.2
  | .setLastOpened boardId => ∀ id, admitId ctx boardId notFound = .ok id →
      db.boardOf other id = false
  | .deleteLink _ | .listWatchers _ | .addWatcher _ _ | .listVersions _
  | .listAllReleaseVersions | .linkComponentRelease _ _ | .linkComponentRepository _ _
  | .updateComponentRepository _ _ _ | .getLastOpened => True

end Handlers

variable {remote : Remote} {ctx : Context} {now : Int} {db : Db} {projectId other : Uuid}

/-! ## Lookups of the own project -/

variable {α : Type} {gone : α → Bool} {o : Option α}

/-- Of what is there without another project, a project finds what it found before. -/
theorem filter_own {own : α → Bool} (hapart : ∀ row, own row = true → gone row = false) :
    (o.filter fun row => !gone row).filter own = o.filter own := by
  cases o with
  | none => rfl
  | some row =>
    cases hown : own row with
    | true => simp [Option.filter, hown, hapart row hown]
    | false => cases hgone : gone row <;> simp [Option.filter, hown, hgone]

theorem any_own {own : α → Bool} (hapart : ∀ row, own row = true → gone row = false) :
    (o.filter fun row => !gone row).any own = o.any own := by
  cases o with
  | none => rfl
  | some row =>
    cases hown : own row with
    | true => simp [Option.filter, hown, hapart row hown]
    | false => cases hgone : gone row <;> simp [Option.filter, hown, hgone]

theorem apart_of_ne (hne : projectId ≠ other) {owner : Uuid} (h : (owner == projectId) = true) :
    (owner == other) = false := by
  rw [beq_iff_eq] at h
  subst h
  exact beq_false_of_ne hne

theorem issueInProject_without (hne : projectId ≠ other) (id : Uuid) :
    (db.without other).issueInProject projectId id = db.issueInProject projectId id := by
  rw [Db.issueInProject, Db.without, Table.find?_erase]
  apply any_own
  intro row hrow
  exact apart_of_ne hne (Bool.and_eq_true_iff.mp hrow).1

theorem componentInProject_without (hne : projectId ≠ other) (id : Uuid) :
    (db.without other).componentInProject projectId id = db.componentInProject projectId id := by
  rw [Db.componentInProject, Db.without, Table.find?_erase]
  exact any_own fun _ => apart_of_ne hne

theorem release?_without (hne : projectId ≠ other) (id : Uuid) :
    (db.without other).release? projectId id = db.release? projectId id := by
  rw [Db.release?, Db.without, Table.find?_erase]
  exact filter_own fun _ => apart_of_ne hne

theorem repository?_without (hne : projectId ≠ other) (id : Uuid) :
    (db.without other).repository? projectId id = db.repository? projectId id := by
  rw [Db.repository?, Db.without, Table.find?_erase]
  exact filter_own fun _ => apart_of_ne hne

variable {id : Uuid}

theorem release?_isSome : (db.release? projectId id).isSome = db.releaseOf projectId id := by
  rw [Db.release?, Db.releaseOf]
  cases db.releases.find? id with
  | none => rfl
  | some row => cases h : row.projectId == projectId <;> simp [Option.filter, h]

/-- What belongs to one project does not belong to another. -/
theorem releaseOf_apart (hne : projectId ≠ other) (h : db.releaseOf projectId id = true) :
    db.releaseOf other id = false := by
  unfold Db.releaseOf at h ⊢
  cases hfound : db.releases.find? id with
  | none => rfl
  | some row =>
    rw [hfound] at h
    exact apart_of_ne hne h

/-! ## Answers and checks -/

variable {act : Db → Response × Db}

theorem isolates_iff :
    Isolates projectId other db act ↔
      (act db).1 = (act (db.without other)).1 ∧ (act db).2.holdings other = db.holdings other ∧
        ∀ r, db.leadsTo other r = true → (act db).2.refers projectId r = true →
          db.refers projectId r = true := by
  constructor
  · intro h
    exact ⟨h.response, h.holdings, h.references⟩
  · intro h
    exact ⟨h.1, h.2.1, h.2.2⟩

theorem isolates_congr {act' : Db → Response × Db} (hact : act db = act' db)
    (hwithout : act (db.without other) = act' (db.without other)) :
    Isolates projectId other db act ↔ Isolates projectId other db act' := by
  rw [isolates_iff, isolates_iff, hact, hwithout]

/-- What leaves the tables as they are is isolated if its answer is. -/
theorem isolates_unchanged (hsame : (act db).2 = db) :
    Isolates projectId other db act ↔ (act db).1 = (act (db.without other)).1 := by
  rw [isolates_iff, hsame]
  simp

theorem isolates_reads {view : Db → α → Response} {a : α} :
    Isolates projectId other db (reads view a) ↔ view db a = view (db.without other) a :=
  isolates_unchanged rfl

variable {checked : Db → Except Problem α} {write : α → Db → Response × Db}

/-- Checks that see nothing of the other project leave what comes after them. -/
theorem isolates_admitted (hcheck : checked (db.without other) = checked db) :
    Isolates projectId other db (fun db => admitted (checked db) write db) ↔
      ∀ a, checked db = .ok a → Isolates projectId other db (write a) := by
  cases hchecked : checked db with
  | error refusal =>
    rw [isolates_unchanged (by rw [hchecked]; rfl), hcheck, hchecked]
    simp [admitted]
  | ok a =>
    have hact : admitted (checked db) write db = write a db := by rw [hchecked]; rfl
    have hwithout : admitted (checked (db.without other)) write (db.without other) =
        write a (db.without other) := by rw [hcheck, hchecked]; rfl
    have hcongr : Isolates projectId other db (fun db => admitted (checked db) write db) ↔
        Isolates projectId other db (write a) := isolates_congr hact hwithout
    rw [hcongr]
    simp

/-- A request is isolated exactly where what comes after its checks is. -/
theorem isolates_admitted_iff {P : α → Prop} (hcheck : checked (db.without other) = checked db)
    (hwrite : ∀ a, checked db = .ok a → (Isolates projectId other db (write a) ↔ P a)) :
    Isolates projectId other db (fun db => admitted (checked db) write db) ↔
      ∀ a, checked db = .ok a → P a := by
  rw [isolates_admitted hcheck]
  exact forall_congr' fun a => forall_congr' fun ha => hwrite a ha

theorem isolates_of_admitted (hcheck : checked (db.without other) = checked db)
    (hwrite : ∀ a, checked db = .ok a → Isolates projectId other db (write a)) :
    Isolates projectId other db (fun db => admitted (checked db) write db) :=
  (isolates_admitted hcheck).mpr hwrite

/-! ## Checks -/

variable {refusal : Problem}

theorem ensure_bind {ok : Bool} {rest : Unit → Except Problem α} {a : α}
    (h : (ensure ok refusal >>= rest) = .ok a) : ok = true ∧ rest () = .ok a := by
  cases ok with
  | true => exact ⟨rfl, h⟩
  | false => contradiction

variable {β : Type} {rest : α → Except Problem β}

theorem parsed_bind {id : Option α} {b : β} (h : (parsed id refusal >>= rest) = .ok b) :
    ∃ a, id = some a ∧ rest a = .ok b := by
  cases id with
  | none => contradiction
  | some a => exact ⟨a, rfl, h⟩

theorem body_bind {body : Except Problem α} {b : β} (h : (body >>= rest) = .ok b) :
    ∃ a, body = .ok a ∧ rest a = .ok b := by
  cases body with
  | error refusal => contradiction
  | ok a => exact ⟨a, rfl, h⟩

theorem admitIssue_without (hne : ctx.projectId ≠ other) (id : Option Uuid) :
    admitIssue ctx (db.without other) id = admitIssue ctx db id := by
  simp only [admitIssue, issueInProject_without hne]

theorem admitLink_without (hne : ctx.projectId ≠ other) (id : Option Uuid)
    (body : Except Problem (Uuid × LinkType)) :
    admitLink ctx (db.without other) id body = admitLink ctx db id body := by
  simp only [admitLink, issueInProject_without hne]

theorem admitVersion_without (hne : ctx.projectId ≠ other) (releaseId : Option Uuid)
    (body : Except Problem VersionWrite) :
    admitVersion ctx (db.without other) releaseId body = admitVersion ctx db releaseId body := by
  simp only [admitVersion, release?_without hne]

theorem version?_without (hne : projectId ≠ other) (id : Uuid) :
    (db.without other).version? projectId id = db.version? projectId id := by
  simp only [Db.version?, release?_without hne]
  rw [Db.without, Table.find?_erase]
  apply filter_own
  intro row hrow
  rw [release?_isSome] at hrow
  exact releaseOf_apart hne hrow

theorem admitVersionPatch_without (hne : ctx.projectId ≠ other) (versionId : Option Uuid)
    (body : Except Problem UpdateVersionRequest) :
    admitVersionPatch ctx (db.without other) versionId body =
      admitVersionPatch ctx db versionId body := by
  simp only [admitVersionPatch, version?_without hne]

theorem admitComponent_without (hne : ctx.projectId ≠ other) (refusal : Problem)
    (componentId : Option Uuid) :
    admitComponent ctx (db.without other) refusal componentId =
      admitComponent ctx db refusal componentId := by
  simp only [admitComponent, componentInProject_without hne]

theorem admitReleaseLink_without (hne : ctx.projectId ≠ other) (componentId : Option Uuid)
    (body : Except Problem Uuid) :
    admitReleaseLink ctx (db.without other) componentId body =
      admitReleaseLink ctx db componentId body := by
  simp only [admitReleaseLink, componentInProject_without hne, release?_without hne]

theorem branchPasses_without (hne : ctx.projectId ≠ other) (repository : Repository)
    (branch : String) :
    branchPasses ctx (db.without other) remote repository branch =
      branchPasses ctx db remote repository branch := by
  have hkey : ∀ id, ((db.without other).sshKeys.find? id).filter (·.projectId == ctx.projectId) =
      (db.sshKeys.find? id).filter (·.projectId == ctx.projectId) := by
    intro id
    rw [Db.without, Table.find?_erase]
    exact filter_own fun _ => apart_of_ne hne
  simp only [branchPasses, hkey]

theorem admitRepositoryLink_without (hne : ctx.projectId ≠ other) (componentId : Option Uuid)
    (body : Except Problem (Uuid × String)) :
    admitRepositoryLink ctx (db.without other) remote componentId body =
      admitRepositoryLink ctx db remote componentId body := by
  simp only [admitRepositoryLink, componentInProject_without hne, repository?_without hne,
    branchPasses_without hne]

theorem admitBranch_without (hne : ctx.projectId ≠ other) (componentId repositoryId : Option Uuid)
    (body : Except Problem String) :
    admitBranch ctx (db.without other) remote componentId repositoryId body =
      admitBranch ctx db remote componentId repositoryId body := by
  simp only [admitBranch, componentInProject_without hne, repository?_without hne,
    branchPasses_without hne]

/-! ## Listings -/

variable {f g : α → Option β}

theorem filterMap_length_le (hsub : ∀ row b, g row = some b → f row = some b) (rows : List α) :
    (rows.filterMap g).length ≤ (rows.filterMap f).length := by
  induction rows with
  | nil => simp
  | cons row rows ih =>
    cases hg : g row with
    | none =>
      rw [List.filterMap_cons_none hg]
      cases hf : f row with
      | none => rwa [List.filterMap_cons_none hf]
      | some b =>
        rw [List.filterMap_cons_some hf, List.length_cons]
        omega
    | some b =>
      rw [List.filterMap_cons_some hg, List.filterMap_cons_some (hsub row b hg)]
      simpa using ih

variable {rows : List α}

/-- Leaving rows out of a listing shortens it. -/
theorem eq_of_filterMap_length (hsub : ∀ row b, g row = some b → f row = some b)
    (hlength : (rows.filterMap f).length = (rows.filterMap g).length) :
    ∀ row ∈ rows, f row = g row := by
  induction rows with
  | nil => simp
  | cons row rows ih =>
    intro row' hrow'
    have hle := filterMap_length_le hsub rows
    cases hg : g row with
    | none =>
      cases hf : f row with
      | none =>
        rw [List.filterMap_cons_none hg, List.filterMap_cons_none hf] at hlength
        rcases List.mem_cons.mp hrow' with heq | hmem
        · rw [heq, hf, hg]
        · exact ih hlength row' hmem
      | some b =>
        rw [List.filterMap_cons_none hg, List.filterMap_cons_some hf,
          List.length_cons] at hlength
        omega
    | some b =>
      have hf := hsub row b hg
      rw [List.filterMap_cons_some hg, List.filterMap_cons_some hf] at hlength
      rcases List.mem_cons.mp hrow' with heq | hmem
      · rw [heq, hf, hg]
      · exact ih (by simpa using hlength) row' hmem

/-- A listing stays the same without some of the rows if and only if none of
them was in it and each of the others is shown as before. -/
theorem listing_eq_iff {le : β → β → Bool} (hsub : ∀ row b, g row = some b → f row = some b) :
    (rows.filterMap f).mergeSort le = ((deleteWhere gone rows).filterMap g).mergeSort le ↔
      ∀ row ∈ rows, ∀ b, f row = some b → gone row = false ∧ g row = some b := by
  have hleft : (deleteWhere gone rows).filterMap g =
      rows.filterMap fun row => if gone row then none else g row := by
    rw [deleteWhere, List.filterMap_filter]
    congr 1
    funext row
    cases gone row <;> rfl
  have hsub' : ∀ row b, (if gone row then none else g row) = some b → f row = some b := by
    intro row b hb
    cases hgone : gone row with
    | true => simp [hgone] at hb
    | false => exact hsub row b (by simpa [hgone] using hb)
  rw [hleft]
  constructor
  · intro heq row hrow b hb
    have hlength := congrArg List.length heq
    rw [List.length_mergeSort, List.length_mergeSort] at hlength
    have hsame := eq_of_filterMap_length hsub' hlength row hrow
    rw [hb] at hsame
    cases hgone : gone row with
    | true => simp [hgone] at hsame
    | false =>
      refine ⟨rfl, ?_⟩
      simpa [hgone] using hsame.symm
  · intro hall
    have hsame : rows.filterMap f = rows.filterMap fun row => if gone row then none else g row := by
      apply List.filterMap_congr
      intro row hrow
      cases hf : f row with
      | some b =>
        obtain ⟨hgone, hg⟩ := hall row hrow b hf
        simp [hgone, hg]
      | none =>
        cases hgone : gone row with
        | true => rfl
        | false =>
          cases hg : g row with
          | none => simp
          | some b =>
            rw [hsub row b hg] at hf
            contradiction
    rw [hsame]

/-- A listing that also leaves out some of what it would show. -/
theorem filtered_eq_iff {hidden : β → Bool} {le : β → β → Bool}
    (hg : ∀ row, g row = (f row).filter fun b => !hidden b) :
    (rows.filterMap f).mergeSort le = ((deleteWhere gone rows).filterMap g).mergeSort le ↔
      ∀ row ∈ rows, ∀ b, f row = some b → gone row = false ∧ hidden b = false := by
  have hsub : ∀ row b, g row = some b → f row = some b := by
    intro row b hb
    rw [hg, Option.filter_eq_some_iff] at hb
    exact hb.1
  rw [listing_eq_iff hsub]
  refine forall_congr' fun row => forall_congr' fun _ => forall_congr' fun b => ?_
  apply imp_congr_right
  intro hb
  rw [hg, hb]
  cases hhidden : hidden b <;> simp [Option.filter, hhidden]

/-- What is found and belongs to no one else is found without the other project. -/
theorem map_filter_key (gone : α → Bool) {hidden : β → Bool} {view : α → β}
    (hview : ∀ row, o = some row → hidden (view row) = gone row) :
    (o.filter fun row => !gone row).map view = (o.map view).filter fun b => !hidden b := by
  cases o with
  | none => rfl
  | some row => cases hgone : gone row <;> simp [Option.filter, hgone, hview row rfl]

theorem issueOf_find {row : Issue} (h : db.issues.find? id = some row) :
    db.issueOf other row.id = (row.projectId == other) := by
  rw [Db.issueOf, Table.key_of_find? h, h]
  rfl

theorem linkView_without (id : Uuid) (e : IssueLink × Direction) :
    (db.without other).linkView id e =
      (db.linkView id e).filter fun view => !db.issueOf other view.otherIssueId := by
  obtain ⟨link, direction⟩ := e
  have hend : ∀ own end_, (if own = id then
        (((db.without other).issues.find? end_).filter (·.deletedAt.isNone)).map fun issue =>
          (⟨link.id, issue.id, issue.reference, issue.subject, link.linkType, direction,
            link.createdAt⟩ : LinkView)
      else none) = (if own = id then
        ((db.issues.find? end_).filter (·.deletedAt.isNone)).map fun issue =>
          (⟨link.id, issue.id, issue.reference, issue.subject, link.linkType, direction,
            link.createdAt⟩ : LinkView)
      else none).filter fun view => !db.issueOf other view.otherIssueId := by
    intro own end_
    split
    · rw [Db.without, Table.find?_erase, Option.filter_filter]
      rw [← map_filter_key (fun issue => issue.projectId == other), Option.filter_filter]
      · congr 2
        funext issue
        exact Bool.and_comm _ _
      · intro issue hissue
        rw [Option.filter_eq_some_iff] at hissue
        exact issueOf_find hissue.1
    · rfl
  cases direction with
  | outgoing => exact hend link.sourceIssueId link.targetIssueId
  | incoming => exact hend link.targetIssueId link.sourceIssueId

theorem releaseLinkView_without (id : Uuid) (row : ComponentRelease) :
    (db.without other).releaseLinkView id row =
      (db.releaseLinkView id row).filter fun view => !db.releaseOf other view.releaseId := by
  unfold Db.releaseLinkView
  split
  · rw [Db.without, Table.find?_erase]
    apply map_filter_key
    intro release hrelease
    simp [Db.releaseOf, hrelease]
  · rfl

theorem repositoryLinkView_without (id : Uuid) (row : ComponentRepository) :
    (db.without other).repositoryLinkView id row =
      (db.repositoryLinkView id row).filter fun view =>
        !db.repositoryOf other view.repositoryId := by
  unfold Db.repositoryLinkView
  split
  · rw [Db.without, Table.find?_erase]
    apply map_filter_key
    intro repository hrepository
    simp [Db.repositoryOf, hrepository]
  · rfl

theorem issueOf_of_inProject (hne : projectId ≠ other) (h : db.issueInProject projectId id = true) :
    db.issueOf other id = false := by
  unfold Db.issueInProject at h
  unfold Db.issueOf
  cases hfound : db.issues.find? id with
  | none => rfl
  | some issue =>
    rw [hfound] at h
    exact apart_of_ne hne (Bool.and_eq_true_iff.mp h).1

theorem componentOf_of_inProject (hne : projectId ≠ other)
    (h : db.componentInProject projectId id = true) : db.componentOf other id = false := by
  unfold Db.componentInProject at h
  unfold Db.componentOf
  cases hfound : db.components.find? id with
  | none => rfl
  | some component =>
    rw [hfound] at h
    exact apart_of_ne hne h

theorem of_admitIssue {id : Option Uuid} {id' : Uuid} (h : admitIssue ctx db id = .ok id') :
    db.issueInProject ctx.projectId id' = true := by
  obtain ⟨_, h⟩ := ensure_bind h
  obtain ⟨a, _, h⟩ := parsed_bind h
  obtain ⟨hin, h⟩ := ensure_bind h
  cases h
  exact hin

theorem of_admitComponent {id : Option Uuid} {id' : Uuid}
    (h : admitComponent ctx db refusal id = .ok id') :
    db.componentInProject ctx.projectId id' = true := by
  obtain ⟨_, h⟩ := ensure_bind h
  obtain ⟨a, _, h⟩ := parsed_bind h
  obtain ⟨hin, h⟩ := ensure_bind h
  cases h
  exact hin

theorem isolated_listLinks_iff (hne : ctx.projectId ≠ other) (id : Option Uuid) :
    Isolated remote ctx now db other (.listLinks id) ↔ Harmless ctx db other (.listLinks id) := by
  refine isolates_admitted_iff (admitIssue_without hne id) fun id' _ => ?_
  rw [isolates_reads, Response.links.injEq]
  -- a link is listed from both of its ends
  have hends : (db.without other).issueLinks.rows.map (·, Direction.outgoing) ++
        (db.without other).issueLinks.rows.map (·, Direction.incoming) =
      deleteWhere (fun e : IssueLink × Direction => e.1.projectId == other)
        (db.issueLinks.rows.map (·, Direction.outgoing) ++
          db.issueLinks.rows.map (·, Direction.incoming)) := by
    simp only [deleteWhere, List.filter_append, List.filter_map]
    rfl
  rw [Db.listLinks, Db.listLinks, hends, filtered_eq_iff (linkView_without id')]
  constructor
  · intro h row hrow direction view hview
    have hmem : (row, direction) ∈ db.issueLinks.rows.map (·, Direction.outgoing) ++
        db.issueLinks.rows.map (·, Direction.incoming) := by
      cases direction <;> simp [hrow]
    simpa using h (row, direction) hmem view hview
  · intro h e he view hview
    obtain ⟨row, direction⟩ := e
    have hrow : row ∈ db.issueLinks.rows := by
      rcases List.mem_append.mp he with hmem | hmem
      · obtain ⟨row', hrow', heq⟩ := List.mem_map.mp hmem
        cases heq
        exact hrow'
      · obtain ⟨row', hrow', heq⟩ := List.mem_map.mp hmem
        cases heq
        exact hrow'
    simpa using h row hrow direction view hview

theorem isolated_listWatchers (hne : ctx.projectId ≠ other) (id : Option Uuid) :
    Isolated remote ctx now db other (.listWatchers id) := by
  refine isolates_of_admitted (admitIssue_without hne id) fun id' hadmit => ?_
  have hown := issueOf_of_inProject hne (of_admitIssue hadmit)
  rw [isolates_reads, Response.watchers.injEq]
  apply (listing_eq_iff fun _ _ h => h).mpr
  intro row _ userId hshown
  refine ⟨?_, hshown⟩
  split at hshown
  · rename_i hissue
    rw [hissue]
    exact hown
  · contradiction

theorem isolated_listVersions (hne : ctx.projectId ≠ other) (releaseId : Option Uuid) :
    Isolated remote ctx now db other (.listVersions releaseId) := by
  refine isolates_of_admitted rfl fun id' _ => ?_
  rw [isolates_reads, Response.versions.injEq, Db.listVersions, Db.listVersions]
  simp only [release?_without hne]
  apply (listing_eq_iff fun _ _ h => h).mpr
  intro row _ version hshown
  refine ⟨?_, hshown⟩
  split at hshown
  · rename_i hrelease
    exact releaseOf_apart hne (release?_isSome ▸ hrelease.2)
  · contradiction

theorem isolated_listAllReleaseVersions (hne : ctx.projectId ≠ other) :
    Isolated remote ctx now db other .listAllReleaseVersions := by
  refine isolates_of_admitted rfl fun _ _ => ?_
  rw [isolates_reads, Response.versionRefs.injEq, Db.listAllForProject, Db.listAllForProject]
  simp only [release?_without hne]
  apply (listing_eq_iff fun _ _ h => h).mpr
  intro row _ version hshown
  refine ⟨?_, hshown⟩
  obtain ⟨release, hrelease, _⟩ := Option.map_eq_some_iff.mp hshown
  apply releaseOf_apart hne
  rw [← release?_isSome, hrelease]
  rfl

theorem refForComponents_eq_some {ids : List Uuid} {row : ReleaseVersion} {ref : VersionRef} :
    db.refForComponents ids row = some ref ↔
      (∃ link ∈ db.componentReleases.rows, link.releaseId = row.releaseId ∧
        link.componentId ∈ ids) ∧
        ∃ release, db.releases.find? row.releaseId = some release ∧
          Db.versionRef release row = ref := by
  have hlinked : (db.componentReleases.rows.any fun link =>
      link.releaseId == row.releaseId && ids.contains link.componentId) = true ↔
        ∃ link ∈ db.componentReleases.rows, link.releaseId = row.releaseId ∧
          link.componentId ∈ ids := by
    simp
  unfold Db.refForComponents
  rw [← hlinked]
  split
  · rename_i h
    rw [Option.map_eq_some_iff]
    exact (and_iff_right h).symm
  · rename_i h
    exact iff_of_false (fun hnone => by contradiction) fun hboth => h hboth.1

/-- Without the other project a version is found through what is left of the links. -/
theorem refForComponents_without {ids : List Uuid} {row : ReleaseVersion} {ref : VersionRef} :
    (db.without other).refForComponents ids row = some ref ↔
      db.refForComponents ids row = some ref ∧ db.releaseOf other row.releaseId = false ∧
        ∃ link ∈ db.componentReleases.rows, link.releaseId = row.releaseId ∧
          link.componentId ∈ ids ∧ db.componentOf other link.componentId = false := by
  rw [refForComponents_eq_some, refForComponents_eq_some]
  constructor
  · rintro ⟨⟨link, hlink, hrelease, hids⟩, release, hfound, href⟩
    obtain ⟨hlink, hcomponent⟩ := mem_deleteWhere.mp hlink
    rw [Db.without, Table.find?_erase, Option.filter_eq_some_iff] at hfound
    refine ⟨⟨⟨link, hlink, hrelease, hids⟩, release, hfound.1, href⟩, ?_, link, hlink, hrelease,
      hids, hcomponent⟩
    simpa [Db.releaseOf, hfound.1] using hfound.2
  · rintro ⟨⟨_, release, hfound, href⟩, hown, link, hlink, hrelease, hids, hcomponent⟩
    refine ⟨⟨link, mem_deleteWhere.mpr ⟨hlink, hcomponent⟩, hrelease, hids⟩, release, ?_, href⟩
    rw [Db.without, Table.find?_erase, Option.filter_eq_some_iff]
    exact ⟨hfound, by simpa [Db.releaseOf, hfound] using hown⟩

theorem isolated_versionsForComponents_iff (body : Except Problem (List Uuid)) :
    Isolated remote ctx now db other (.versionsForComponents body) ↔
      Harmless ctx db other (.versionsForComponents body) := by
  refine isolates_admitted_iff rfl fun ids _ => ?_
  rw [isolates_reads, Response.versionRefs.injEq, Db.forComponents, Db.forComponents]
  refine (listing_eq_iff fun row ref h => (refForComponents_without.mp h).1).trans ?_
  refine forall_congr' fun row => forall_congr' fun _ => ?_
  constructor
  · intro h hsome
    obtain ⟨ref, href⟩ := Option.isSome_iff_exists.mp hsome
    exact (refForComponents_without.mp (h ref href).2).2
  · intro h ref href
    have hfree := h (Option.isSome_iff_exists.mpr ⟨ref, href⟩)
    exact ⟨hfree.1, refForComponents_without.mpr ⟨href, hfree⟩⟩

theorem isolated_listComponentReleases_iff (hne : ctx.projectId ≠ other)
    (componentId : Option Uuid) :
    Isolated remote ctx now db other (.listComponentReleases componentId) ↔
      Harmless ctx db other (.listComponentReleases componentId) := by
  refine isolates_admitted_iff (admitComponent_without hne _ componentId) fun id hadmit => ?_
  have hown := componentOf_of_inProject hne (of_admitComponent hadmit)
  rw [isolates_reads, Response.releases.injEq, Db.listComponentReleases,
    Db.listComponentReleases]
  refine (filtered_eq_iff (releaseLinkView_without id)).trans ?_
  refine forall_congr' fun row => forall_congr' fun _ => ?_
  constructor
  · intro h heq
    cases hfound : db.releases.find? row.releaseId with
    | none => simp [Db.releaseOf, hfound]
    | some release => exact (h _ (by simp [Db.releaseLinkView, heq, hfound]; rfl)).2
  · intro h view hview
    unfold Db.releaseLinkView at hview
    split at hview
    · rename_i heq
      obtain ⟨release, _, rfl⟩ := Option.map_eq_some_iff.mp hview
      exact ⟨by rw [heq]; exact hown, h heq⟩
    · contradiction

theorem isolated_listComponentRepositories_iff (hne : ctx.projectId ≠ other)
    (componentId : Option Uuid) :
    Isolated remote ctx now db other (.listComponentRepositories componentId) ↔
      Harmless ctx db other (.listComponentRepositories componentId) := by
  refine isolates_admitted_iff (admitComponent_without hne _ componentId) fun id hadmit => ?_
  have hown := componentOf_of_inProject hne (of_admitComponent hadmit)
  rw [isolates_reads, Response.repositories.injEq, Db.listComponentRepositories,
    Db.listComponentRepositories]
  refine (filtered_eq_iff (repositoryLinkView_without id)).trans ?_
  refine forall_congr' fun row => forall_congr' fun _ => ?_
  constructor
  · intro h heq
    cases hfound : db.repositories.find? row.repositoryId with
    | none => simp [Db.repositoryOf, hfound]
    | some repository => exact (h _ (by simp [Db.repositoryLinkView, heq, hfound]; rfl)).2
  · intro h view hview
    unfold Db.repositoryLinkView at hview
    split at hview
    · rename_i heq
      obtain ⟨repository, _, rfl⟩ := Option.map_eq_some_iff.mp hview
      exact ⟨by rw [heq]; exact hown, h heq⟩
    · contradiction

theorem isolated_getLastOpened (hne : ctx.projectId ≠ other) :
    Isolated remote ctx now db other .getLastOpened := by
  refine isolates_of_admitted rfl fun _ _ => ?_
  rw [isolates_reads, Response.board.injEq, Db.without, Table.find?_erase]
  cases hfound : db.lastOpened.find? (ctx.projectId, ctx.actorId) with
  | none => rfl
  | some row =>
    have hproject : row.projectId = ctx.projectId := congrArg Prod.fst (Table.key_of_find? hfound)
    simp [Option.filter, hproject, hne]

end IntelliPilot.Projects.Resources
