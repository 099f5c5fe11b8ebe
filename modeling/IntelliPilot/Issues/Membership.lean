import IntelliPilot.Issues.Writes

/-! # Rows that stay in their project

Every reference of an issue leads to a row of the project of the issue, taxonomy
items to those of the column's kind. The statements of the issue handlers keep
this for the references they are given.
-/

namespace IntelliPilot.Issues

open Rows Statement
open Imports (Uuid TaxonomyKind Links)

namespace Db

/-! ## References -/

/-- The reference is empty or leads to an item of the project and of the kind. -/
def ItemOf (db : Db) (projectId : Uuid) (kind : TaxonomyKind) (ref : Option Uuid) : Prop :=
  ∀ id, ref = some id → ∃ item, db.catalog.taxonomy.find? id = some item ∧
    item.projectId = projectId ∧ item.kind = kind

def LabelOf (db : Db) (projectId id : Uuid) : Prop :=
  ∃ label, db.catalog.labels.find? id = some label ∧ label.projectId = projectId

def ComponentOf (db : Db) (projectId id : Uuid) : Prop :=
  ∃ component, db.catalog.components.find? id = some component ∧ component.projectId = projectId

def CustomerOf (db : Db) (projectId id : Uuid) : Prop :=
  ∃ customer, db.catalog.customers.find? id = some customer ∧ customer.projectId = projectId

def EpicOf (db : Db) (projectId id : Uuid) : Prop :=
  ∃ epic, db.epics.find? id = some epic ∧ epic.projectId = projectId

def IssueOf (db : Db) (projectId id : Uuid) : Prop :=
  ∃ issue, db.issue? id = some issue ∧ issue.projectId = projectId

def VersionOf (db : Db) (projectId id : Uuid) : Prop := db.versionInProject projectId id = true

/-- The taxonomy columns. -/
structure ItemsInside (db : Db) (projectId : Uuid) (statusId typeId priorityId sizeId : Option Uuid) :
    Prop where
  status : db.ItemOf projectId .issueStatus statusId
  type : db.ItemOf projectId .issueType typeId
  priority : db.ItemOf projectId .priority priorityId
  size : db.ItemOf projectId .size sizeId

/-- The columns of a row. -/
structure RowInside (db : Db) (projectId : Uuid) (w : IssueWrite) : Prop where
  items : db.ItemsInside projectId w.statusId w.typeId w.priorityId w.sizeId
  epic : ∀ id, w.epicId = some id → db.EpicOf projectId id
  parent : ∀ id, w.parentId = some id → db.IssueOf projectId id
  version : ∀ id, w.releaseVersionId = some id → db.VersionOf projectId id

/-- The links of the issues lead to rows of the issue's project. -/
def LinksInside (db : Db) (links : Links) (isOf : Uuid → Uuid → Prop) : Prop :=
  ∀ link ∈ links, ∃ projectId, db.IssueOf projectId link.1 ∧ isOf projectId link.2

/-- Every reference stays in the project of its issue, and a component ships in
releases of its project. -/
structure Inside (db : Db) : Prop where
  rows : ∀ issue ∈ db.issues.rows, db.RowInside issue.projectId issue.toIssueWrite
  labels : db.LinksInside db.issueLabels db.LabelOf
  components : db.LinksInside db.issueComponents db.ComponentOf
  customers : db.LinksInside db.issueCustomers db.CustomerOf
  versions : ∀ row ∈ db.componentVersions, ∃ projectId, db.IssueOf projectId row.issueId ∧
    db.ComponentOf projectId row.componentId ∧ db.VersionOf projectId row.releaseVersionId
  ships : ∀ link ∈ db.componentReleases, ∃ projectId, db.ComponentOf projectId link.1 ∧
    db.releaseInProject projectId link.2 = true

/-! ## What grows -/

/-- The vocabulary stays, and no issue or epic goes or changes its project. -/
structure Grows (db db' : Db) : Prop where
  catalog : db'.catalog = db.catalog
  releases : db'.releases = db.releases
  versions : db'.releaseVersions = db.releaseVersions
  links : db'.componentReleases = db.componentReleases
  epics : ∀ projectId id, db.EpicOf projectId id → db'.EpicOf projectId id
  issues : ∀ projectId id, db.IssueOf projectId id → db'.IssueOf projectId id

theorem Grows.refl (db : Db) : Grows db db :=
  ⟨rfl, rfl, rfl, rfl, fun _ _ h => h, fun _ _ h => h⟩

theorem Grows.trans {a b c : Db} (hab : Grows a b) (hbc : Grows b c) : Grows a c where
  catalog := hbc.catalog.trans hab.catalog
  releases := hbc.releases.trans hab.releases
  versions := hbc.versions.trans hab.versions
  links := hbc.links.trans hab.links
  epics projectId id h := hbc.epics projectId id (hab.epics projectId id h)
  issues projectId id h := hbc.issues projectId id (hab.issues projectId id h)

theorem Grows.of_aside {db db' : Db} (h : Aside db db') : Grows db db' where
  catalog := h.catalog
  releases := h.releases
  versions := h.versions
  links := h.links
  epics projectId id := by
    rw [EpicOf, EpicOf, h.epics]
    exact fun h => h
  issues projectId id := by
    rw [IssueOf, IssueOf, h.issue?]
    exact fun h => h

section Grows

variable {db db' : Db} (h : Grows db db')

include h

variable {projectId : Uuid}

theorem Grows.itemOf {kind : TaxonomyKind} {ref : Option Uuid}
    (hitem : db.ItemOf projectId kind ref) : db'.ItemOf projectId kind ref := by
  rw [ItemOf, h.catalog]
  exact hitem

theorem Grows.itemsInside {statusId typeId priorityId sizeId : Option Uuid}
    (hitems : db.ItemsInside projectId statusId typeId priorityId sizeId) :
    db'.ItemsInside projectId statusId typeId priorityId sizeId :=
  ⟨h.itemOf hitems.status, h.itemOf hitems.type, h.itemOf hitems.priority, h.itemOf hitems.size⟩

variable {id : Uuid}

theorem Grows.labelOf (hlabel : db.LabelOf projectId id) : db'.LabelOf projectId id := by
  rw [LabelOf, h.catalog]
  exact hlabel

theorem Grows.componentOf (hcomponent : db.ComponentOf projectId id) :
    db'.ComponentOf projectId id := by
  rw [ComponentOf, h.catalog]
  exact hcomponent

theorem Grows.customerOf (hcustomer : db.CustomerOf projectId id) :
    db'.CustomerOf projectId id := by
  rw [CustomerOf, h.catalog]
  exact hcustomer

theorem Grows.versionOf (hversion : db.VersionOf projectId id) : db'.VersionOf projectId id := by
  rw [VersionOf, versionInProject, version?, h.versions] at *
  simp only [releaseInProject, h.releases] at *
  exact hversion

theorem Grows.rowInside {w : IssueWrite} (hrow : db.RowInside projectId w) :
    db'.RowInside projectId w where
  items := h.itemsInside hrow.items
  epic id hid := h.epics projectId id (hrow.epic id hid)
  parent id hid := h.issues projectId id (hrow.parent id hid)
  version id hid := h.versionOf (hrow.version id hid)

theorem Grows.linksInside {links : Links} {isOf isOf' : Uuid → Uuid → Prop}
    (hlinks : db.LinksInside links isOf) (hisOf : ∀ projectId id, isOf projectId id → isOf' projectId id) :
    db'.LinksInside links isOf' := by
  intro link hlink
  obtain ⟨projectId, hissue, hof⟩ := hlinks link hlink
  exact ⟨projectId, h.issues _ _ hissue, hisOf _ _ hof⟩

/-- What is inside as the state was is inside in what it grew to. -/
theorem Grows.inside (hinside : db.Inside)
    (hrows : ∀ issue ∈ db'.issues.rows, db.RowInside issue.projectId issue.toIssueWrite)
    (hlabels : db.LinksInside db'.issueLabels db.LabelOf)
    (hcomponents : db.LinksInside db'.issueComponents db.ComponentOf)
    (hcustomers : db.LinksInside db'.issueCustomers db.CustomerOf)
    (hversions : ∀ row ∈ db'.componentVersions, ∃ projectId, db.IssueOf projectId row.issueId ∧
      db.ComponentOf projectId row.componentId ∧ db.VersionOf projectId row.releaseVersionId) :
    db'.Inside where
  rows issue hissue := h.rowInside (hrows issue hissue)
  labels := h.linksInside hlabels fun _ _ => h.labelOf
  components := h.linksInside hcomponents fun _ _ => h.componentOf
  customers := h.linksInside hcustomers fun _ _ => h.customerOf
  versions row hrow := by
    obtain ⟨projectId, hissue, hcomponent, hversion⟩ := hversions row hrow
    exact ⟨projectId, h.issues _ _ hissue, h.componentOf hcomponent, h.versionOf hversion⟩
  ships link hlink := by
    rw [h.links] at hlink
    obtain ⟨projectId, hcomponent, hrelease⟩ := hinside.ships link hlink
    refine ⟨projectId, h.componentOf hcomponent, ?_⟩
    rw [releaseInProject, h.releases]
    exact hrelease

end Grows

theorem inside_of_aside {db db' : Db} (h : Aside db db') (hinside : db.Inside) : db'.Inside := by
  apply (Grows.of_aside h).inside hinside
  · rw [h.issues]
    exact hinside.rows
  · rw [h.labels]
    exact hinside.labels
  · rw [h.components]
    exact hinside.components
  · rw [h.customers]
    exact hinside.customers
  · rw [h.rows]
    exact hinside.versions

/-! ## Rows -/

section Rows

variable {db : Db} {projectId : Uuid}

theorem issueOf_unique {projectId' id : Uuid} (h : db.IssueOf projectId id)
    (h' : db.IssueOf projectId' id) : projectId = projectId' := by
  obtain ⟨issue, hissue, rfl⟩ := h
  obtain ⟨issue', hissue', rfl⟩ := h'
  rw [hissue] at hissue'
  rw [Option.some.inj hissue']

theorem issueOf_of_mem {issue : Issue} (h : issue ∈ db.issues.rows) :
    db.IssueOf issue.projectId issue.id := ⟨issue, Table.find?_key h, rfl⟩

theorem grows_updateIssues (p : Issue → Bool) (f : Issue → Issue)
    (hf : ∀ issue, (f issue).id = issue.id) (hproject : ∀ issue, (f issue).projectId = issue.projectId) :
    Grows db (db.updateIssues p f hf) where
  catalog := rfl
  releases := rfl
  versions := rfl
  links := rfl
  epics _ _ h := h
  issues projectId id := by
    rintro ⟨issue, hissue, rfl⟩
    rw [IssueOf, issue?_updateIssues, hissue]
    refine ⟨_, rfl, ?_⟩
    dsimp only
    split
    · exact hproject issue
    · rfl

/-- An update of rows that are inside afterwards. -/
theorem inside_updateIssues {p : Issue → Bool} {f : Issue → Issue}
    {hf : ∀ issue, (f issue).id = issue.id} (hinside : db.Inside)
    (hproject : ∀ issue, (f issue).projectId = issue.projectId)
    (hrow : ∀ issue ∈ db.issues.rows, p issue = true →
      db.RowInside issue.projectId (f issue).toIssueWrite) : (db.updateIssues p f hf).Inside := by
  have hgrows : Grows db (db.updateIssues p f hf) := grows_updateIssues p f hf hproject
  refine hgrows.inside hinside ?_ hinside.labels hinside.components hinside.customers
    hinside.versions
  intro issue hissue
  obtain ⟨old, hold, rfl⟩ := mem_updateWhere.mp hissue
  split
  · rename_i hp
    have hnew := hrow old hold hp
    rw [← hproject old] at hnew
    exact ⟨hnew.items, hnew.epic, hnew.parent, hnew.version⟩
  · exact hinside.rows old hold

/-- A new row that names nothing outside of its project. -/
theorem inside_insert {row : Issue} (hfree : db.issues.find? row.id = none) (hinside : db.Inside)
    (hrow : db.RowInside row.projectId row.toIssueWrite) :
    Inside { db with issues := db.issues.insert row hfree } ∧
      Grows db { db with issues := db.issues.insert row hfree } ∧
      IssueOf { db with issues := db.issues.insert row hfree } row.projectId row.id := by
  have hgrows : Grows db { db with issues := db.issues.insert row hfree } := by
    refine ⟨rfl, rfl, rfl, rfl, fun _ _ h => h, ?_⟩
    rintro projectId' id ⟨old, hold, hof⟩
    refine ⟨old, ?_, hof⟩
    rw [issue?_insert, if_neg, hold]
    rintro rfl
    exact absurd (hfree.symm.trans hold) (by simp)
  refine ⟨?_, hgrows, row, ?_, rfl⟩
  · refine hgrows.inside hinside ?_ hinside.labels hinside.components hinside.customers
      hinside.versions
    intro other hother
    rcases List.mem_append.mp hother with hother | hother
    · exact hinside.rows other hother
    · rw [List.mem_singleton.mp hother]
      exact hrow
  · rw [issue?_insert, if_pos rfl]

theorem inside_insertIssue {ownerId : Uuid} {reference : Nat} {w : IssueWrite} {db' : Db}
    {issue : Issue} (h : db.insertIssue projectId ownerId reference w = (.ok issue, db'))
    (hinside : db.Inside) (hw : db.RowInside projectId w) :
    db'.Inside ∧ Grows db db' ∧ db'.IssueOf projectId issue.id := by
  unfold insertIssue at h
  split at h
  · obtain ⟨hissue, hdb⟩ := Prod.mk.inj h
    subst hdb
    rw [← Except.ok.inj hissue]
    exact inside_insert _ hinside ⟨hw.items, hw.epic, hw.parent, hw.version⟩
  · cases (Prod.mk.inj h).1

theorem inside_updateIssue {id : Uuid} {version : Nat} {w : IssueWrite} {db' : Db} {row : Issue}
    (h : db.updateIssue projectId id version w = (.ok (some row), db')) (hinside : db.Inside)
    (hw : db.RowInside projectId w) : db'.Inside ∧ Grows db db' := by
  unfold updateIssue at h
  split at h
  · cases Except.ok.inj (Prod.mk.inj h).1
  · split at h
    · obtain ⟨-, hdb⟩ := Prod.mk.inj h
      subst hdb
      refine ⟨inside_updateIssues hinside (fun _ => rfl) ?_, grows_updateIssues _ _ _ fun _ => rfl⟩
      intro issue _ hcurrent
      simp only [isCurrent, Bool.and_eq_true, beq_iff_eq] at hcurrent
      rw [hcurrent.1.1.2]
      exact hw
    · cases (Prod.mk.inj h).1

/-! ## Component versions -/

theorem grows_mirror (issueId : Uuid) : Grows db (db.mirror issueId) :=
  grows_updateIssues _ _ _ fun _ => rfl

/-- The version that is mirrored is one of a component of the issue. -/
theorem inside_mirror (issueId : Uuid) (hinside : db.Inside) : (db.mirror issueId).Inside := by
  refine inside_updateIssues hinside (fun _ => rfl) ?_
  intro issue hissue hp
  have hid : issue.id = issueId := by
    simp only [Bool.and_eq_true, beq_iff_eq] at hp
    exact hp.1
  have hrow := hinside.rows issue hissue
  refine ⟨hrow.items, hrow.epic, hrow.parent, ?_⟩
  intro versionId hversion
  obtain ⟨version, hfirst, rfl⟩ := Option.map_eq_some_iff.mp hversion
  obtain ⟨row, hmem, hfound⟩ := List.mem_filterMap.mp (isFirst_of_firstOf hfirst).1
  obtain ⟨hstored, howner⟩ := mem_versionRows.mp hmem
  obtain ⟨projectId, hissueOf, -, hversionOf⟩ := hinside.versions row hstored
  have hproject : projectId = issue.projectId := by
    apply issueOf_unique hissueOf
    rw [howner, ← hid]
    exact issueOf_of_mem hissue
  have hkey : version.id = row.releaseVersionId := Table.key_of_find? hfound
  rw [hkey, ← hproject]
  exact hversionOf

theorem inside_mirrorAll (ids : List Uuid) (hinside : db.Inside) :
    (mirrorAll ids db).Inside ∧ Grows db (mirrorAll ids db) := by
  unfold mirrorAll
  induction ids generalizing db with
  | nil => exact ⟨hinside, Grows.refl db⟩
  | cons id ids ih =>
    obtain ⟨hinside', hgrows⟩ := ih (inside_mirror id hinside)
    exact ⟨hinside', (grows_mirror id).trans hgrows⟩

/-- Other component versions, all of them inside. -/
theorem inside_componentVersions {rows : List VersionRow} (hinside : db.Inside)
    (hrows : ∀ row ∈ rows, ∃ projectId, db.IssueOf projectId row.issueId ∧
      db.ComponentOf projectId row.componentId ∧ db.VersionOf projectId row.releaseVersionId) :
    Inside { db with componentVersions := rows } := by
  have hgrows : Grows db { db with componentVersions := rows } :=
    ⟨rfl, rfl, rfl, rfl, fun _ _ h => h, fun _ _ h => h⟩
  exact hgrows.inside hinside hinside.rows hinside.labels hinside.components hinside.customers hrows

theorem inside_deleteVersionRows (p : VersionRow → Bool) (hinside : db.Inside) :
    (db.deleteVersionRows p).Inside ∧ Grows db (db.deleteVersionRows p) := by
  rw [deleteVersionRows_eq]
  have hfewer : Inside { db with componentVersions := deleteWhere p db.componentVersions } :=
    inside_componentVersions hinside fun row hrow =>
      hinside.versions row (mem_deleteWhere.mp hrow).1
  obtain ⟨hinside', hgrows⟩ := inside_mirrorAll
    ((db.componentVersions.filter p).map (·.issueId)) hfewer
  exact ⟨hinside', ⟨hgrows.catalog, hgrows.releases, hgrows.versions, hgrows.links, hgrows.epics,
    hgrows.issues⟩⟩

/-! ## Sets -/

section Sets

variable {db' : Db} {projectId id : Uuid} {ids : List Uuid} {isOf : Uuid → Uuid → Prop}

theorem linksInside_addLinks {links : Links} (hlinks : db.LinksInside links isOf)
    (hid : db.IssueOf projectId id) (hids : ∀ other ∈ ids, isOf projectId other) :
    db.LinksInside (Imports.Db.addLinks id ids links) isOf := by
  intro link hlink
  rcases Imports.mem_addLinks.mp hlink with hold | ⟨hown, hgiven⟩
  · exact hlinks link hold
  · refine ⟨projectId, ?_, hids _ hgiven⟩
    rw [hown]
    exact hid

theorem linksInside_deleteWhere {links : Links} (p : Uuid × Uuid → Bool)
    (hlinks : db.LinksInside links isOf) : db.LinksInside (deleteWhere p links) isOf :=
  fun link hlink => hlinks link (mem_deleteWhere.mp hlink).1

theorem inside_setIssueLabels (h : db.setIssueLabels id ids = some db') (hinside : db.Inside)
    (hid : db.IssueOf projectId id) (hids : ∀ label ∈ ids, db.LabelOf projectId label) :
    db'.Inside ∧ Grows db db' := by
  unfold setIssueLabels at h
  split at h
  · rw [← Option.some.inj h]
    have hgrows : Grows db { db with
        issueLabels := Imports.Db.addLinks id ids (deleteWhere (·.1 == id) db.issueLabels) } :=
      ⟨rfl, rfl, rfl, rfl, fun _ _ h => h, fun _ _ h => h⟩
    refine ⟨hgrows.inside hinside hinside.rows ?_ hinside.components hinside.customers
      hinside.versions, hgrows⟩
    exact linksInside_addLinks (linksInside_deleteWhere _ hinside.labels) hid hids
  · contradiction

theorem inside_setIssueCustomers (h : db.setIssueCustomers id ids = some db')
    (hinside : db.Inside) (hid : db.IssueOf projectId id)
    (hids : ∀ customer ∈ ids, db.CustomerOf projectId customer) : db'.Inside ∧ Grows db db' := by
  unfold setIssueCustomers at h
  split at h
  · rw [← Option.some.inj h]
    have hgrows : Grows db { db with
        issueCustomers := Imports.Db.addLinks id ids (deleteWhere (·.1 == id) db.issueCustomers) } :=
      ⟨rfl, rfl, rfl, rfl, fun _ _ h => h, fun _ _ h => h⟩
    refine ⟨hgrows.inside hinside hinside.rows hinside.labels hinside.components ?_
      hinside.versions, hgrows⟩
    exact linksInside_addLinks (linksInside_deleteWhere _ hinside.customers) hid hids
  · contradiction

theorem inside_setIssueComponents (h : db.setIssueComponents id ids = some db')
    (hinside : db.Inside) (hid : db.IssueOf projectId id)
    (hids : ∀ component ∈ ids, db.ComponentOf projectId component) :
    db'.Inside ∧ Grows db db' := by
  unfold setIssueComponents at h
  split at h
  · obtain ⟨hinside', hgrows⟩ := inside_deleteVersionRows (fun row => row.issueId == id &&
      db.issueComponents.contains (id, row.componentId) && !ids.contains row.componentId) hinside
    rw [← Option.some.inj h]
    generalize db.deleteVersionRows _ = fewer at hinside' hgrows
    have hlinked : Grows fewer { fewer with
        issueComponents := Imports.Db.addLinks id ids
          (deleteWhere (fun link => link.1 == id && !ids.contains link.2) fewer.issueComponents) } :=
      ⟨rfl, rfl, rfl, rfl, fun _ _ h => h, fun _ _ h => h⟩
    refine ⟨hlinked.inside hinside' hinside'.rows hinside'.labels ?_ hinside'.customers
      hinside'.versions, hgrows.trans hlinked⟩
    exact linksInside_addLinks (linksInside_deleteWhere _ hinside'.components)
      (hgrows.issues _ _ hid) fun component hcomponent => hgrows.componentOf (hids _ hcomponent)
  · contradiction

theorem inside_insertVersion {pair : ComponentVersion} (h : db.insertVersion id pair = some db')
    (hinside : db.Inside) (hid : db.IssueOf projectId id)
    (hpair : db.ComponentOf projectId pair.componentId ∧
      db.VersionOf projectId pair.releaseVersionId) : db'.Inside ∧ Grows db db' := by
  unfold insertVersion at h
  split at h
  · split at h
    · rw [← Option.some.inj h]
      have hmore : Inside { db with
          componentVersions :=
            deleteWhere (fun row => row.issueId == id && row.componentId == pair.componentId)
              db.componentVersions ++ [⟨id, pair.componentId, pair.releaseVersionId⟩] } := by
        apply inside_componentVersions hinside
        intro row hrow
        rcases List.mem_append.mp hrow with hrow | hrow
        · exact hinside.versions row (mem_deleteWhere.mp hrow).1
        · rw [List.mem_singleton.mp hrow]
          exact ⟨projectId, hid, hpair⟩
      have hinserted : Grows db { db with
          componentVersions :=
            deleteWhere (fun row => row.issueId == id && row.componentId == pair.componentId)
              db.componentVersions ++ [⟨id, pair.componentId, pair.releaseVersionId⟩] } :=
        ⟨rfl, rfl, rfl, rfl, fun _ _ h => h, fun _ _ h => h⟩
      exact ⟨inside_mirror id hmore, hinserted.trans (grows_mirror id)⟩
    · contradiction
  · rw [← Option.some.inj h]
    exact ⟨hinside, Grows.refl db⟩

theorem inside_setIssueComponentVersions {pairs : List ComponentVersion}
    (h : db.setIssueComponentVersions id pairs = some db') (hinside : db.Inside)
    (hid : db.IssueOf projectId id) (hpairs : ∀ pair ∈ pairs,
      db.ComponentOf projectId pair.componentId ∧ db.VersionOf projectId pair.releaseVersionId) :
    db'.Inside ∧ Grows db db' := by
  unfold setIssueComponentVersions at h
  obtain ⟨hcleared, hgrows⟩ := inside_deleteVersionRows (·.issueId == id) hinside
  generalize db.deleteVersionRows (·.issueId == id) = cleared at h hcleared hgrows
  induction pairs generalizing cleared with
  | nil =>
    rw [← Option.some.inj h]
    exact ⟨hcleared, hgrows⟩
  | cons pair pairs ih =>
    rw [List.foldlM_cons] at h
    obtain ⟨next, hnext, hrest⟩ := Option.bind_eq_some_iff.mp h
    obtain ⟨hcomponent, hversion⟩ := hpairs pair List.mem_cons_self
    obtain ⟨hinside', hgrows'⟩ := inside_insertVersion hnext hcleared (hgrows.issues _ _ hid)
      ⟨hgrows.componentOf hcomponent, hgrows.versionOf hversion⟩
    exact ih (fun other hother => hpairs other (List.mem_cons_of_mem _ hother)) next hrest
      hinside' (hgrows.trans hgrows')

end Sets

end Rows

end Db

end IntelliPilot.Issues
