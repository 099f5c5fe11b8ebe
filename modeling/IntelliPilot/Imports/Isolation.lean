import IntelliPilot.Imports.Handlers
import Mathlib.Data.List.Dedup

/-! # An import stays inside its project

Everything an import writes is drawn from the maps it resolves a mapping to, and
these hold what the mapping names and what is found or created in the project.
-/

namespace IntelliPilot.Imports

open Http Rows

/-! ## Belonging to a project -/

namespace Catalog

def OwnsItem (catalog : Catalog) (projectId : Uuid) (kind : TaxonomyKind) (id : Uuid) : Prop :=
  ∃ item, catalog.taxonomy.find? id = some item ∧ item.projectId = projectId ∧ item.kind = kind

def OwnsComponent (catalog : Catalog) (projectId id : Uuid) : Prop :=
  ∃ component, catalog.components.find? id = some component ∧ component.projectId = projectId

def OwnsCustomer (catalog : Catalog) (projectId id : Uuid) : Prop :=
  ∃ customer, catalog.customers.find? id = some customer ∧ customer.projectId = projectId

def IsMember (catalog : Catalog) (projectId userId : Uuid) : Prop :=
  (projectId, userId) ∈ catalog.memberships

end Catalog

/-- The issue references the vocabulary and the members of the project only. -/
structure Issue.Within (catalog : Catalog) (projectId : Uuid) (issue : Issue) : Prop where
  status : ∀ id ∈ issue.statusId, catalog.OwnsItem projectId .issueStatus id
  type : ∀ id ∈ issue.typeId, catalog.OwnsItem projectId .issueType id
  priority : ∀ id ∈ issue.priorityId, catalog.OwnsItem projectId .priority id
  assignee : ∀ id ∈ issue.assignedTo, catalog.IsMember projectId id

structure Epic.Within (catalog : Catalog) (projectId : Uuid) (epic : Epic) : Prop where
  status : ∀ id ∈ epic.statusId, catalog.OwnsItem projectId .issueStatus id
  assignee : ∀ id ∈ epic.assignedTo, catalog.IsMember projectId id

/-- What was written between two states stays inside the project. -/
structure WrittenWithin (projectId : Uuid) (before after : Db) : Prop where
  issues : ∀ issue ∈ after.issues.rows, issue ∉ before.issues.rows →
    issue.Within after.catalog projectId
  epics : ∀ epic ∈ after.epics.rows, epic ∉ before.epics.rows → epic.Within after.catalog projectId
  components : ∀ link ∈ after.issueComponents, link ∉ before.issueComponents →
    after.catalog.OwnsComponent projectId link.2
  customers : ∀ link ∈ after.issueCustomers, link ∉ before.issueCustomers →
    after.catalog.OwnsCustomer projectId link.2

/-- Nothing was written. -/
theorem WrittenWithin.unchanged {projectId : Uuid} {before after : Db}
    (hissues : after.issues = before.issues) (hepics : after.epics = before.epics)
    (hcomponents : after.issueComponents = before.issueComponents)
    (hcustomers : after.issueCustomers = before.issueCustomers) :
    WrittenWithin projectId before after := by
  refine ⟨?_, ?_, ?_, ?_⟩
  · exact fun issue hissue hnew => absurd (hissues ▸ hissue) hnew
  · exact fun epic hepic hnew => absurd (hepics ▸ hepic) hnew
  · exact fun link hlink hnew => absurd (hcomponents ▸ hlink) hnew
  · exact fun link hlink hnew => absurd (hcustomers ▸ hlink) hnew

/-- Every target of the mapping belongs to the project. -/
structure ImportMapping.Own (catalog : Catalog) (projectId : Uuid) (mapping : ImportMapping) :
    Prop where
  types : ∀ choice ∈ mapping.types, ∀ id ∈ choice.target, catalog.OwnsItem projectId .issueType id
  statuses : ∀ choice ∈ mapping.statuses, ∀ id ∈ choice.target,
    catalog.OwnsItem projectId .issueStatus id
  priorities : ∀ choice ∈ mapping.priorities, ∀ id ∈ choice.target,
    catalog.OwnsItem projectId .priority id
  components : ∀ choice ∈ mapping.components, ∀ id ∈ choice.target,
    catalog.OwnsComponent projectId id
  customers : ∀ choice ∈ mapping.customers, ∀ id ∈ choice.target, catalog.OwnsCustomer projectId id
  users : ∀ choice ∈ mapping.users, ∀ id ∈ choice.target, catalog.IsMember projectId id

/-! ## Maps -/

/-- Every value of the map has the property. -/
def RefMap.All (p : Uuid → Prop) (map : RefMap) : Prop := ∀ key id, map key = some id → p id

theorem RefMap.All.insert {p : Uuid → Prop} {map : RefMap} (h : map.All p) {id : Uuid} (hid : p id)
    (key : String) : (map.insert key id).All p := by
  intro k found hfound
  unfold RefMap.insert at hfound
  split at hfound
  · rw [← Option.some.inj hfound]
    exact hid
  · exact h k found hfound

theorem RefMap.all_collect {p : Uuid → Prop} {entries : List (String × Uuid)}
    (h : ∀ entry ∈ entries, p entry.2) : (RefMap.collect entries).All p := by
  unfold RefMap.collect
  apply List.foldlRecOn
  · exact fun _ _ hnone => by contradiction
  · exact fun map hmap entry hentry => hmap.insert (h entry hentry) _

section Targets

variable {lib : Library} {c : Circumstances} {projectId : Uuid} {p : Uuid → Prop}
  {choices : List ValueChoice}

theorem targets_all (h : ∀ choice ∈ choices, ∀ id ∈ choice.target, p id) :
    ∀ entry ∈ targets lib choices, p entry.2 := by
  intro entry hentry
  obtain ⟨choice, hchoice, hsome⟩ := List.mem_filterMap.mp hentry
  obtain ⟨id, htarget, rfl⟩ := Option.map_eq_some_iff.mp hsome
  exact h choice hchoice id htarget

theorem componentMap_all (h : ∀ choice ∈ choices, ∀ id ∈ choice.target, p id) :
    (componentMap lib choices).All p := RefMap.all_collect (targets_all h)

/-- Targets that are no customers of the project are left out. -/
theorem customerMap_all (catalog : Catalog) (choices : List ValueChoice) :
    (customerMap lib c projectId catalog choices).All (catalog.OwnsCustomer projectId) := by
  apply RefMap.all_collect
  intro entry hentry
  have hlisted := (List.mem_filter.mp hentry).2
  split at hlisted
  · simp at hlisted
  · simp only [List.contains_iff_mem, List.mem_map] at hlisted
    obtain ⟨customer, hcustomer, hid⟩ := hlisted
    obtain ⟨hrow, hproject⟩ := List.mem_filter.mp hcustomer
    exact ⟨customer, Table.find?_eq_some_iff.mpr ⟨hrow, hid⟩, by simpa using hproject⟩

theorem isMember_of_listed {catalog : Catalog} {user : User}
    (h : user ∈ catalog.listForProject projectId) : catalog.IsMember projectId user.id := by
  obtain ⟨⟨project, userId⟩, hmembership, huser⟩ := List.mem_filterMap.mp h
  obtain ⟨hrow, hproject⟩ := List.mem_filter.mp hmembership
  rw [Catalog.IsMember, Table.key_of_find? huser, ← (by simpa using hproject : project = projectId)]
  exact hrow

theorem userMap_all {catalog : Catalog} (hmembers : ∀ user ∈ catalog.listForProject projectId, p user.id)
    (h : ∀ choice ∈ choices, ∀ id ∈ choice.target, p id) :
    (userMap lib c projectId catalog choices).All p := by
  apply RefMap.all_collect
  intro entry hentry
  rcases List.mem_append.mp hentry with hmember | htarget
  · obtain ⟨user, huser, hname⟩ := List.mem_flatMap.mp hmember
    obtain ⟨name, _, rfl⟩ := List.mem_map.mp hname
    split at huser
    · contradiction
    · exact hmembers user huser
  · exact targets_all h entry htarget

end Targets

/-! ## Vocabulary -/

/-- The vocabulary may have more taxonomy items than before. -/
structure Catalog.Grows (catalog catalog' : Catalog) : Prop where
  items : ∀ projectId kind id, catalog.OwnsItem projectId kind id →
    catalog'.OwnsItem projectId kind id
  rest : catalog' = { catalog with taxonomy := catalog'.taxonomy }

theorem Catalog.Grows.rfl' (catalog : Catalog) : catalog.Grows catalog := ⟨fun _ _ _ h => h, rfl⟩

theorem Catalog.Grows.trans {a b d : Catalog} (h : a.Grows b) (h' : b.Grows d) : a.Grows d := by
  refine ⟨fun projectId kind id hid => h'.items _ _ _ (h.items _ _ _ hid), ?_⟩
  rw [h'.rest, h.rest]

theorem createItem_spec {projectId : Uuid} {kind : TaxonomyKind} {name slug : String}
    {catalog catalog' : Catalog} {item : TaxonomyItem}
    (h : catalog.createItem projectId kind name slug = some (item, catalog')) :
    catalog.Grows catalog' ∧ catalog'.OwnsItem projectId kind item.id := by
  unfold Catalog.createItem at h
  split at h
  · contradiction
  · obtain ⟨hitem, hcatalog⟩ := Prod.mk.inj (Option.some.inj h)
    subst hcatalog hitem
    refine ⟨⟨?_, rfl⟩, ?_⟩
    · rintro project kind' id ⟨found, hfound, hproject, hkind⟩
      obtain ⟨hrow, hid⟩ := Table.find?_eq_some_iff.mp hfound
      exact ⟨found, Table.find?_eq_some_iff.mpr ⟨List.mem_append_left _ hrow, hid⟩, hproject, hkind⟩
    · exact ⟨_, Table.find?_eq_some_iff.mpr ⟨List.mem_append_right _ List.mem_cons_self, rfl⟩,
        rfl, rfl⟩

section ValueMap

variable (lib : Library) (c : Circumstances) (projectId : Uuid) (kind : TaxonomyKind)

/-- One choice keeps what is in the map inside the project. -/
theorem addChoice_spec (created : Nat) {existing map : RefMap} {catalog : Catalog}
    {choice : ValueChoice × Nat} (hexisting : existing.All (catalog.OwnsItem projectId kind))
    (hmap : map.All (catalog.OwnsItem projectId kind))
    (hchoice : ∀ id ∈ choice.1.target, catalog.OwnsItem projectId kind id) :
    catalog.Grows (addChoice lib c projectId kind existing (map, created, catalog) choice).2.2 ∧
      (addChoice lib c projectId kind existing (map, created, catalog) choice).1.All
        ((addChoice lib c projectId kind existing (map, created, catalog) choice).2.2.OwnsItem
          projectId kind) := by
  simp only [addChoice]
  cases htarget : choice.1.target with
  | some id => exact ⟨.rfl' catalog, hmap.insert (hchoice id htarget) _⟩
  | none =>
    dsimp only
    split
    · cases hfound : existing (lib.toLowercase choice.1.value) with
      | some id => exact ⟨.rfl' catalog, hmap.insert (hexisting _ _ hfound) _⟩
      | none =>
        dsimp only
        split
        · exact ⟨.rfl' catalog, hmap⟩
        · cases hcreate : catalog.createItem projectId kind choice.1.value
            (Text.slugify choice.1.value) with
          | none => exact ⟨.rfl' catalog, hmap⟩
          | some result =>
            obtain ⟨item, catalog'⟩ := result
            obtain ⟨hgrows, hitem⟩ := createItem_spec hcreate
            refine ⟨hgrows, RefMap.All.insert ?_ hitem _⟩
            exact fun key id hid => hgrows.items _ _ _ (hmap key id hid)
    · exact ⟨.rfl' catalog, hmap⟩

theorem buildValueMap_spec {choices : List ValueChoice} {catalog : Catalog} (created : Nat)
    (hchoices : ∀ choice ∈ choices, ∀ id ∈ choice.target, catalog.OwnsItem projectId kind id) :
    catalog.Grows (buildValueMap lib c projectId kind choices created catalog).2.2 ∧
      (buildValueMap lib c projectId kind choices created catalog).1.All
        ((buildValueMap lib c projectId kind choices created catalog).2.2.OwnsItem
          projectId kind) := by
  have hexisting : (RefMap.collect ((if c.listFails kind then [] else
      catalog.list projectId kind).map fun item => (lib.toLowercase item.name, item.id))).All
        (catalog.OwnsItem projectId kind) := by
    apply RefMap.all_collect
    intro entry hentry
    obtain ⟨item, hitem, rfl⟩ := List.mem_map.mp hentry
    split at hitem
    · contradiction
    · obtain ⟨hrow, hown⟩ := List.mem_filter.mp hitem
      simp only [Bool.and_eq_true, beq_iff_eq] at hown
      exact ⟨item, Table.find?_key hrow, hown⟩
  unfold buildValueMap
  apply List.foldlRecOn (motive := fun s : RefMap × Nat × Catalog =>
    catalog.Grows s.2.2 ∧ s.1.All (s.2.2.OwnsItem projectId kind))
  · exact ⟨.rfl' catalog, fun _ _ hnone => by contradiction⟩
  · rintro ⟨map, created, now⟩ ⟨hgrows, hmap⟩ choice hchoice
    obtain ⟨hgrows', hmap'⟩ := addChoice_spec lib c projectId kind created
      (fun key id hid => hgrows.items _ _ _ (hexisting key id hid)) hmap
      fun id hid => hgrows.items _ _ _
        (hchoices choice.1 (List.fst_mem_of_mem_zipIdx hchoice) id hid)
    exact ⟨hgrows.trans hgrows', hmap'⟩

end ValueMap

/-! ## The passes -/

/-- Every reference the maps resolve to belongs to the project. -/
structure Maps.Own (catalog : Catalog) (projectId : Uuid) (maps : Maps) : Prop where
  types : maps.types.All (catalog.OwnsItem projectId .issueType)
  statuses : maps.statuses.All (catalog.OwnsItem projectId .issueStatus)
  priorities : maps.priorities.All (catalog.OwnsItem projectId .priority)
  components : maps.components.All (catalog.OwnsComponent projectId)
  customers : maps.customers.All (catalog.OwnsCustomer projectId)
  users : maps.users.All (catalog.IsMember projectId)

section Passes

variable (lib : Library) (c : Circumstances) {projectId actorId : Uuid} {mapping : ImportMapping}

/-- A mapping of the project's own resolves to maps of its own. -/
theorem resolve_own {catalog : Catalog} (hown : mapping.Own catalog projectId) :
    (resolve lib c projectId mapping catalog).1.Own
      (resolve lib c projectId mapping catalog).2.2 projectId := by
  have htypes := buildValueMap_spec lib c projectId .issueType 0 hown.types
  unfold resolve
  rcases hmap : buildValueMap lib c projectId .issueType mapping.types 0 catalog
    with ⟨types, created, afterTypes⟩
  rw [hmap] at htypes
  have hstatuses := buildValueMap_spec lib c projectId .issueStatus created
    fun choice hchoice id hid => htypes.1.items _ _ _ (hown.statuses choice hchoice id hid)
  dsimp only at hstatuses ⊢
  rcases hmap : buildValueMap lib c projectId .issueStatus mapping.statuses created afterTypes
    with ⟨statuses, created, afterStatuses⟩
  rw [hmap] at hstatuses
  have hgrows := htypes.1.trans hstatuses.1
  have hpriorities := buildValueMap_spec lib c projectId .priority created
    fun choice hchoice id hid => hgrows.items _ _ _ (hown.priorities choice hchoice id hid)
  dsimp only at hpriorities ⊢
  rcases hmap : buildValueMap lib c projectId .priority mapping.priorities created afterStatuses
    with ⟨priorities, created, after⟩
  rw [hmap] at hpriorities
  have hafter : catalog.Grows after := hgrows.trans hpriorities.1
  refine ⟨?_, ?_, hpriorities.2, ?_, customerMap_all _ _,
    userMap_all (fun user => isMember_of_listed) ?_⟩
  · exact fun key id hid => (hstatuses.1.trans hpriorities.1).items _ _ _ (htypes.2 key id hid)
  · exact fun key id hid => hpriorities.1.items _ _ _ (hstatuses.2 key id hid)
  · apply componentMap_all
    intro choice hchoice id hid
    rw [hafter.rest]
    exact hown.components choice hchoice id hid
  · intro choice hchoice id hid
    rw [hafter.rest]
    exact hown.users choice hchoice id hid

variable {maps : Maps} {before : Db} {catalog : Catalog}

theorem WrittenWithin.congr {after after' : Db} (h : WrittenWithin projectId before after)
    (hcatalog : after'.catalog = after.catalog) (hissues : after'.issues = after.issues)
    (hepics : after'.epics = after.epics)
    (hcomponents : after'.issueComponents = after.issueComponents)
    (hcustomers : after'.issueCustomers = after.issueCustomers) :
    WrittenWithin projectId before after' := by
  obtain ⟨h₁, h₂, h₃, h₄⟩ := h
  exact ⟨by rwa [hissues, hcatalog], by rwa [hepics, hcatalog], by rwa [hcomponents, hcatalog],
    by rwa [hcustomers, hcatalog]⟩

/-- What holds between any two rows of the first pass. -/
structure Pass.Sound (catalog : Catalog) (projectId : Uuid) (before : Db) (s : Pass) : Prop where
  catalog : s.db.catalog = catalog
  written : WrittenWithin projectId before s.db
  grows : ∀ id, s.db.issues.find? id = none → before.issues.find? id = none
  created : ∀ entry ∈ s.created, before.issues.find? entry.2.2 = none

theorem newStatusId_own {id : Uuid} (h : id ∈ catalog.newStatusId projectId) :
    catalog.OwnsItem projectId .issueStatus id := by
  obtain ⟨item, hitem, rfl⟩ := Option.map_eq_some_iff.mp h
  obtain ⟨hrow, hown⟩ := List.mem_filter.mp (List.mem_of_find?_eq_some hitem)
  simp only [Bool.and_eq_true, beq_iff_eq] at hown
  exact ⟨item, Table.find?_key hrow, hown⟩

variable {db : Db}

/-- An issue that is created references what it was written with. -/
theorem createIssue_written {w : Db.IssueWrite} {db' : Db} {result : Option Issue}
    (hstatus : ∀ id ∈ w.statusId, db.catalog.OwnsItem projectId .issueStatus id)
    (htype : ∀ id ∈ w.typeId, db.catalog.OwnsItem projectId .issueType id)
    (hpriority : ∀ id ∈ w.priorityId, db.catalog.OwnsItem projectId .priority id)
    (hassignee : ∀ id ∈ w.assignedTo, db.catalog.IsMember projectId id)
    (hwritten : WrittenWithin projectId before db)
    (hcreate : db.createIssue projectId actorId w = (result, db')) :
    db'.catalog = db.catalog ∧ WrittenWithin projectId before db' ∧
      (∀ id, db'.issues.find? id = none → db.issues.find? id = none) ∧
      ∀ issue ∈ result, db.issues.find? issue.id = none := by
  unfold Db.createIssue at hcreate
  dsimp only at hcreate
  split at hcreate
  · obtain ⟨rfl, rfl⟩ := Prod.mk.inj hcreate
    refine ⟨rfl, ⟨?_, hwritten.epics, hwritten.components, hwritten.customers⟩, ?_, ?_⟩
    · intro issue hissue hnew
      rcases List.mem_append.mp hissue with hold | hlast
      · exact hwritten.issues issue hold hnew
      · rw [List.mem_singleton.mp hlast]
        refine ⟨?_, htype, hpriority, hassignee⟩
        intro id hid
        rcases Option.or_eq_some_iff.mp hid with hgiven | ⟨_, hdefault⟩
        · exact hstatus id hgiven
        · exact newStatusId_own hdefault
    · intro id hid
      rw [Table.find?_eq_none_iff] at hid ⊢
      exact fun hmem => hid (by
        rw [Table.insert, List.map_append]
        exact List.mem_append_left _ hmem)
    · intro issue hissue
      rw [← Option.some.inj hissue]
      exact db.issues.find?_fresh
  · obtain ⟨rfl, rfl⟩ := Prod.mk.inj hcreate
    exact ⟨rfl, hwritten.congr rfl rfl rfl rfl rfl, fun _ h => h, by simp⟩

theorem createEpic_written {subject description : String} {statusId assignedTo : Option Uuid}
    {db' : Db} {result : Option Epic}
    (hstatus : ∀ id ∈ statusId, db.catalog.OwnsItem projectId .issueStatus id)
    (hassignee : ∀ id ∈ assignedTo, db.catalog.IsMember projectId id)
    (hwritten : WrittenWithin projectId before db)
    (hcreate : db.createEpic projectId actorId subject description statusId assignedTo =
      (result, db')) :
    db'.catalog = db.catalog ∧ WrittenWithin projectId before db' ∧ db'.issues = db.issues := by
  unfold Db.createEpic at hcreate
  dsimp only at hcreate
  split at hcreate
  · obtain ⟨-, rfl⟩ := Prod.mk.inj hcreate
    refine ⟨rfl, ⟨hwritten.issues, ?_, hwritten.components, hwritten.customers⟩, rfl⟩
    intro epic hepic hnew
    rcases List.mem_append.mp hepic with hold | hlast
    · exact hwritten.epics epic hold hnew
    · rw [List.mem_singleton.mp hlast]
      exact ⟨hstatus, hassignee⟩
  · obtain ⟨-, rfl⟩ := Prod.mk.inj hcreate
    exact ⟨rfl, hwritten.congr rfl rfl rfl rfl rfl, rfl⟩

theorem createRow_sound (hmaps : maps.Own catalog projectId) {s : Pass}
    (hs : s.Sound catalog projectId before) (entry : ParsedRow × Nat) :
    (s.createRow lib c projectId actorId maps entry).Sound catalog projectId before := by
  obtain ⟨hcatalog, hwritten, hgrows, hcreated⟩ := hs
  subst hcatalog
  unfold Pass.createRow
  split
  · unfold Pass.createEpic
    split
    · exact ⟨rfl, hwritten, hgrows, hcreated⟩
    · split
      · rename_i db hcreate
        obtain ⟨hcatalog, hwritten', hissues⟩ := createEpic_written
          (fun id => hmaps.statuses _ id) (fun id => hmaps.users _ id) hwritten hcreate
        exact ⟨hcatalog, hwritten', by simpa only [Pass.skip, hissues] using hgrows, hcreated⟩
      · rename_i epic db hcreate
        obtain ⟨hcatalog, hwritten', hissues⟩ := createEpic_written
          (fun id => hmaps.statuses _ id) (fun id => hmaps.users _ id) hwritten hcreate
        exact ⟨hcatalog, hwritten', by simpa only [hissues] using hgrows, hcreated⟩
  · unfold Pass.createIssue
    split
    · exact ⟨rfl, hwritten, hgrows, hcreated⟩
    · split
      · rename_i db hcreate
        obtain ⟨hcatalog, hwritten', hgrows', -⟩ := createIssue_written
          (fun id => hmaps.statuses _ id) (fun id => hmaps.types _ id)
          (fun id => hmaps.priorities _ id) (fun id => hmaps.users _ id) hwritten hcreate
        exact ⟨hcatalog, hwritten', fun id hid => hgrows id (hgrows' id hid), hcreated⟩
      · rename_i issue db hcreate
        obtain ⟨hcatalog, hwritten', hgrows', hfresh⟩ := createIssue_written
          (fun id => hmaps.statuses _ id) (fun id => hmaps.types _ id)
          (fun id => hmaps.priorities _ id) (fun id => hmaps.users _ id) hwritten hcreate
        refine ⟨hcatalog, hwritten', fun id hid => hgrows id (hgrows' id hid), ?_⟩
        intro created hmem
        rcases List.mem_append.mp hmem with hold | hlast
        · exact hcreated created hold
        · rw [List.mem_singleton.mp hlast]
          exact hgrows _ (hfresh issue rfl)

theorem firstPass_sound (actorId : Uuid) (hmaps : maps.Own catalog projectId)
    (rows : List ParsedRow) (hwritten : WrittenWithin projectId before db)
    (hcatalog : db.catalog = catalog)
    (hgrows : ∀ id, db.issues.find? id = none → before.issues.find? id = none) :
    (firstPass lib c projectId actorId maps rows db).Sound catalog projectId before := by
  unfold firstPass
  apply List.foldlRecOn
  · exact ⟨hcatalog, hwritten, hgrows, by simp⟩
  · exact fun s hs entry _ => createRow_sound lib c hmaps hs entry

/-- The links of an issue that was created do not touch what it references. -/
theorem linkIssue_written {id : Uuid} (parentId epicId : Option Uuid)
    (hwritten : WrittenWithin projectId before db) (hnew : before.issues.find? id = none) :
    WrittenWithin projectId before (db.linkIssue id parentId epicId) := by
  refine ⟨?_, hwritten.epics, hwritten.components, hwritten.customers⟩
  intro issue hissue hchanged
  obtain ⟨old, hold, rfl⟩ := mem_updateWhere.mp hissue
  by_cases hid : old.id = id
  · rw [if_pos (by simpa using hid)]
    have hcreated : old ∉ before.issues.rows := by
      intro hbefore
      rw [← hid, Table.find?_key hbefore] at hnew
      contradiction
    obtain ⟨hstatus, htype, hpriority, hassignee⟩ := hwritten.issues old hold hcreated
    exact ⟨hstatus, htype, hpriority, hassignee⟩
  · rw [if_neg (by simpa using hid)] at hchanged ⊢
    exact hwritten.issues old hold hchanged

theorem look_own {p : Uuid → Prop} {map : RefMap} (h : map.All p) (names : List String) :
    ∀ id ∈ names.filterMap (map.look lib), p id := by
  intro id hid
  obtain ⟨name, _, hlook⟩ := List.mem_filterMap.mp hid
  exact h _ id hlook

theorem assignComponents_written (hmaps : maps.Own db.catalog projectId)
    (hwritten : WrittenWithin projectId before db) (row : ParsedRow) (i : Nat) (id : Uuid) :
    (assignComponents lib c maps row i id db).catalog = db.catalog ∧
      WrittenWithin projectId before (assignComponents lib c maps row i id db) := by
  unfold assignComponents
  dsimp only
  split
  · exact ⟨rfl, hwritten⟩
  · unfold Db.setIssueComponents
    split
    · refine ⟨rfl, hwritten.issues, hwritten.epics, ?_, hwritten.customers⟩
      intro link hlink hnew
      rcases mem_addLinks.mp hlink with hkept | ⟨_, hid⟩
      · exact hwritten.components link (mem_deleteWhere.mp hkept).1 hnew
      · exact look_own lib hmaps.components row.components link.2 hid
    · exact ⟨rfl, hwritten⟩

theorem assignCustomers_written (hmaps : maps.Own db.catalog projectId)
    (hwritten : WrittenWithin projectId before db) (row : ParsedRow) (i : Nat) (id : Uuid) :
    (assignCustomers lib c maps row i id db).catalog = db.catalog ∧
      WrittenWithin projectId before (assignCustomers lib c maps row i id db) := by
  unfold assignCustomers
  dsimp only
  split
  · exact ⟨rfl, hwritten⟩
  · unfold Db.setIssueCustomers
    split
    · refine ⟨rfl, hwritten.issues, hwritten.epics, hwritten.components, ?_⟩
      intro link hlink hnew
      rcases mem_addLinks.mp hlink with hkept | ⟨_, hid⟩
      · exact hwritten.customers link (mem_deleteWhere.mp hkept).1 hnew
      · apply look_own lib hmaps.customers row.customers link.2
        exact (List.mergeSort_perm _ _).mem_iff.mp (List.mem_dedup.mp hid)
    · exact ⟨rfl, hwritten⟩

theorem associate_written {s : Pass} (hmaps : maps.Own catalog projectId)
    (hcatalog : db.catalog = catalog) (hwritten : WrittenWithin projectId before db)
    {entry : ParsedRow × Nat × Uuid} (hnew : before.issues.find? entry.2.2 = none) :
    (s.associate lib c maps db entry).catalog = catalog ∧
      WrittenWithin projectId before (s.associate lib c maps db entry) := by
  obtain ⟨row, i, id⟩ := entry
  subst hcatalog
  have hlinked : (s.linkIssue c row i id db).catalog = db.catalog ∧
      WrittenWithin projectId before (s.linkIssue c row i id db) := by
    unfold Pass.linkIssue
    dsimp only
    split
    · exact ⟨rfl, linkIssue_written _ _ hwritten hnew⟩
    · exact ⟨rfl, hwritten⟩
  have hcomponents := assignComponents_written lib c (hlinked.1 ▸ hmaps) hlinked.2
    row i id
  have hcustomers := assignCustomers_written lib c
    ((hcomponents.1.trans hlinked.1) ▸ hmaps) hcomponents.2 row i id
  exact ⟨hcustomers.1.trans (hcomponents.1.trans hlinked.1), hcustomers.2⟩

/-- What an import of the project's own mapping writes stays inside the project. -/
theorem importRows_written {rows : List ParsedRow} (hown : mapping.Own db.catalog projectId) :
    WrittenWithin projectId db (importRows lib c projectId actorId mapping rows db).2 := by
  have hmaps := resolve_own lib c hown
  unfold importRows
  rcases hresolve : resolve lib c projectId mapping db.catalog with ⟨maps, created, catalog⟩
  rw [hresolve] at hmaps
  have hstart : WrittenWithin projectId db { db with catalog := catalog } :=
    .unchanged rfl rfl rfl rfl
  have hpass := firstPass_sound lib c actorId hmaps rows hstart rfl fun _ h => h
  dsimp only
  apply And.right
  apply List.foldlRecOn (motive := fun after : Db =>
    after.catalog = catalog ∧ WrittenWithin projectId db after)
  · exact ⟨hpass.catalog, hpass.written⟩
  · rintro after ⟨hcatalog, hwritten⟩ entry hentry
    exact associate_written lib c hmaps hcatalog hwritten (hpass.created entry hentry)

end Passes

/-! ## Every import -/

/-- A mapping that names anything outside the project is turned down before
anything is written. -/
def TurnsDown (lib : Library) (projectId : Uuid) (req : ImportRequest)
    (db : Db) (outcome : Except Problem ImportResult × Db) : Prop :=
  ∀ mapping rows, admitImport lib req = .ok (mapping, rows) →
    ¬ mapping.Own db.catalog projectId →
      (∃ problem, outcome.1 = .error problem) ∧ outcome.2 = db

/-- An import writes inside its project and turns foreign mappings down exactly
if the mapping, once the file and the mapping could be read, names nothing
outside the project: the handler itself does not look. -/
theorem import_within_iff (lib : Library) (c : Circumstances) (projectId actorId : Uuid)
    (req : ImportRequest) (db : Db) :
    WrittenWithin projectId db (importCommit lib c projectId actorId req db).2 ∧
        TurnsDown lib projectId req db (importCommit lib c projectId actorId req db) ↔
      ∀ mapping rows, admitImport lib req = .ok (mapping, rows) →
        mapping.Own db.catalog projectId := by
  constructor
  · rintro ⟨_, hturnsDown⟩ mapping rows hadmitted
    by_contra hforeign
    obtain ⟨⟨problem, hrefused⟩, _⟩ := hturnsDown mapping rows hadmitted hforeign
    simp [importCommit, hadmitted] at hrefused
  · intro hown
    refine ⟨?_, fun mapping rows hadmitted hforeign => absurd (hown mapping rows hadmitted) hforeign⟩
    cases hadmitted : admitImport lib req with
    | error problem =>
      simp only [importCommit, hadmitted]
      exact .unchanged rfl rfl rfl rfl
    | ok admitted =>
      obtain ⟨mapping, rows⟩ := admitted
      simp only [importCommit, hadmitted]
      exact importRows_written lib c (hown mapping rows hadmitted)

/-- Project 2 has a status, project 1 has none. -/
def twoProjectsDb : Db where
  catalog := ⟨⟨[⟨7, 2, .issueStatus, "Open", "open", false⟩], by decide⟩, .empty, .empty, .empty,
    .empty, []⟩
  epics := .empty
  issues := .empty
  issueLabels := []
  issueComponents := []
  issueCustomers := []
  lastRef := fun _ => 0
  lastEpicRef := fun _ => 0

/-- A file with one row, and a mapping of its status to that of the other project. -/
def foreignStatusLibrary : Library where
  toLowercase s := String.ofList (s.toList.map Char.toLower)
  readCsv _ := (.ok ["Subject", "Status"], [.ok ["Fix the login", "Open"]])
  decodeMapping _ := .ok { statuses := [{ value := "Open", target := some 7 }] }

/-- An import into project 1 writes an issue with a status of project 2. -/
theorem foreign_status_imported :
    ¬ (WrittenWithin 1 twoProjectsDb
          (importCommit foreignStatusLibrary {} 1 3 ⟨true, .ok ([], "mapping")⟩ twoProjectsDb).2 ∧
        TurnsDown foreignStatusLibrary 1 ⟨true, .ok ([], "mapping")⟩ twoProjectsDb
          (importCommit foreignStatusLibrary {} 1 3 ⟨true, .ok ([], "mapping")⟩ twoProjectsDb)) := by
  rintro ⟨hwritten, -⟩
  have hforeign : ∃ issue ∈ (importCommit foreignStatusLibrary {} 1 3 ⟨true, .ok ([], "mapping")⟩
      twoProjectsDb).2.issues.rows, issue.statusId = some 7 := by decide +kernel
  obtain ⟨issue, hissue, hstatus⟩ := hforeign
  obtain ⟨item, hitem, hproject, -⟩ :=
    (hwritten.issues issue hissue (List.not_mem_nil)).status 7 hstatus
  have hother : (importCommit foreignStatusLibrary {} 1 3 ⟨true, .ok ([], "mapping")⟩
      twoProjectsDb).2.catalog.taxonomy.find? 7 =
        some ⟨7, 2, .issueStatus, "Open", "open", false⟩ := by decide +kernel
  rw [hother] at hitem
  rw [← Option.some.inj hitem] at hproject
  contradiction

end IntelliPilot.Imports
