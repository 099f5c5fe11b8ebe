import IntelliPilot.Imports.Reading
import Mathlib.Data.List.Forall2

/-! # Export and import

What an import recreates of the issues another project exported: every issue
with a subject and not of type "epic", in order, with the names of its
vocabulary and its components.
-/

namespace IntelliPilot.Imports

open Http Rows
open Auth (trim eqIgnoreAsciiCase)
open Text (trim_trim)

section Passes

variable (lib : Library) (projectId actorId : Uuid) (maps : Maps)

/-- A row that becomes an issue. -/
def ParsedRow.isIssue (row : ParsedRow) : Bool := !eqIgnoreAsciiCase row.typeName "epic"

/-- The issue has the columns the row is written with. -/
structure CopyOf (catalog : Catalog) (row : ParsedRow) (copy : Issue) : Prop where
  project : copy.projectId = projectId
  live : copy.deletedAt = none
  subject : copy.subject = row.subject
  description : copy.description = row.importedDescription
  status : copy.statusId =
    (maps.statuses.look lib row.statusName).or (catalog.newStatusId projectId)
  type : copy.typeId = maps.types.look lib row.typeName
  priority : copy.priorityId = maps.priorities.look lib row.priorityName

/-- Everything the maps resolve to exists. -/
structure Maps.Exist (catalog : Catalog) : Prop where
  types : maps.types.All fun id => (catalog.taxonomy.find? id).isSome
  statuses : maps.statuses.All fun id => (catalog.taxonomy.find? id).isSome
  priorities : maps.priorities.All fun id => (catalog.taxonomy.find? id).isSome
  components : maps.components.All fun id => (catalog.components.find? id).isSome
  users : maps.users.All fun id => (catalog.users.find? id).isSome

variable {lib maps}

theorem hasItem_look {catalog : Catalog} {map : RefMap}
    (h : map.All fun id => (catalog.taxonomy.find? id).isSome) (name : String) :
    catalog.hasItem (map.look lib name) = true := by
  unfold Catalog.hasItem
  cases hlook : map.look lib name with
  | none => rfl
  | some id => exact h _ id hlook

theorem hasItem_newStatus (catalog : Catalog) :
    catalog.hasItem (catalog.newStatusId projectId) = true := by
  unfold Catalog.hasItem
  cases hnew : catalog.newStatusId projectId with
  | none => rfl
  | some id =>
    obtain ⟨item, hitem, -⟩ := newStatusId_own hnew
    exact Option.isSome_of_eq_some hitem

variable {db : Db}

/-- Where everything exists, a row is written as an issue. -/
theorem createIssue_copies (lib : Library) (hexist : maps.Exist db.catalog) (row : ParsedRow) :
    ∃ copy db', db.createIssue projectId actorId (maps.write lib row) = (some copy, db') ∧
      db'.issues.rows = db.issues.rows ++ [copy] ∧ db'.catalog = db.catalog ∧
      db'.issueComponents = db.issueComponents ∧ CopyOf lib projectId maps db.catalog row copy := by
  have hstatus : db.catalog.hasItem ((maps.statuses.look lib row.statusName).or
      (db.catalog.newStatusId projectId)) = true := by
    cases hlook : maps.statuses.look lib row.statusName with
    | none => exact hasItem_newStatus projectId db.catalog
    | some id =>
      rw [Option.some_or, ← hlook]
      exact hasItem_look hexist.statuses row.statusName
  have huser : db.catalog.hasUser (maps.users.look lib row.assignee) = true := by
    unfold Catalog.hasUser
    cases hlook : maps.users.look lib row.assignee with
    | none => rfl
    | some id => exact hexist.users _ id hlook
  unfold Db.createIssue Maps.write
  simp only [hstatus, hasItem_look hexist.types, hasItem_look hexist.priorities, huser,
    Bool.and_true, if_true]
  exact ⟨_, _, rfl, rfl, rfl, rfl, ⟨rfl, rfl, rfl, rfl, rfl, rfl, rfl⟩⟩

/-- A row of type "epic" leaves the issues alone. -/
theorem createRow_epic (lib : Library) (maps : Maps) (s : Pass) {row : ParsedRow} (i : Nat)
    (hepic : eqIgnoreAsciiCase row.typeName "epic" = true) :
    (s.createRow lib {} projectId actorId maps (row, i)).db.issues = s.db.issues ∧
      (s.createRow lib {} projectId actorId maps (row, i)).created = s.created ∧
      (s.createRow lib {} projectId actorId maps (row, i)).db.catalog = s.db.catalog ∧
      (s.createRow lib {} projectId actorId maps (row, i)).db.issueComponents =
        s.db.issueComponents := by
  unfold Pass.createRow Pass.createEpic Db.createEpic
  rw [if_pos hepic]
  dsimp only
  split
  · exact ⟨rfl, rfl, rfl, rfl⟩
  · split
    · rename_i hcreate
      split at hcreate
      · cases hcreate
      · cases hcreate
        exact ⟨rfl, rfl, rfl, rfl⟩
    · rename_i hcreate
      split at hcreate
      · cases hcreate
        exact ⟨rfl, rfl, rfl, rfl⟩
      · cases hcreate

/-- The first pass appends a copy of every issue row, in order. -/
theorem firstPass_copies (lib : Library) (hexist : maps.Exist db.catalog) (rows : List ParsedRow) :
    ∃ copies : List (ParsedRow × Issue),
      copies.map (·.1) = rows.filter ParsedRow.isIssue ∧
      (firstPass lib {} projectId actorId maps rows db).db.issues.rows =
        db.issues.rows ++ copies.map (·.2) ∧
      (firstPass lib {} projectId actorId maps rows db).created.map
          (fun entry => (entry.1, entry.2.2)) =
        copies.map (fun copy => (copy.1, copy.2.id)) ∧
      (∀ copy ∈ copies, CopyOf lib projectId maps db.catalog copy.1 copy.2) ∧
      (firstPass lib {} projectId actorId maps rows db).db.catalog = db.catalog ∧
      (firstPass lib {} projectId actorId maps rows db).db.issueComponents =
        db.issueComponents := by
  induction rows using List.reverseRecOn with
  | nil => exact ⟨[], rfl, by simp [firstPass], rfl, by simp, rfl, rfl⟩
  | append_singleton rows row ih =>
    obtain ⟨copies, hrows, hissues, hcreated, hcopies, hcatalog, hcomponents⟩ := ih
    have hlast : firstPass lib {} projectId actorId maps (rows ++ [row]) db =
        (firstPass lib {} projectId actorId maps rows db).createRow lib {} projectId actorId maps
          (row, rows.length) := by
      simp [firstPass, List.zipIdx_append]
    rw [hlast]
    generalize firstPass lib {} projectId actorId maps rows db = s at *
    cases hepic : eqIgnoreAsciiCase row.typeName "epic" with
    | true =>
      obtain ⟨hkeptIssues, hkeptCreated, hkeptCatalog, hkeptComponents⟩ := createRow_epic
        projectId actorId lib maps s rows.length hepic
      refine ⟨copies, ?_, ?_, ?_, hcopies, ?_, ?_⟩
      · rw [hrows, List.filter_append]
        simp [ParsedRow.isIssue, hepic]
      · rw [hkeptIssues, hissues]
      · rw [hkeptCreated, hcreated]
      · rw [hkeptCatalog, hcatalog]
      · rw [hkeptComponents, hcomponents]
    | false =>
      obtain ⟨copy, db', hcreate, hissues', hcatalog', hcomponents', hcopy⟩ :=
        createIssue_copies projectId actorId lib (hcatalog ▸ hexist) row
      have hstep : s.createRow lib {} projectId actorId maps (row, rows.length) =
          { s with
            db := db'
            createdIssues := s.createdIssues + 1
            byId := s.byId.record row.externalId copy.id
            byKey := s.byKey.record row.externalKey copy.id
            created := s.created ++ [(row, rows.length, copy.id)] } := by
        simp [Pass.createRow, Pass.createIssue, hepic, hcreate]
      rw [hstep]
      refine ⟨copies ++ [(row, copy)], ?_, ?_, ?_, ?_, hcatalog'.trans hcatalog,
        hcomponents'.trans hcomponents⟩
      · rw [List.map_append, hrows, List.filter_append]
        simp [ParsedRow.isIssue, hepic]
      · rw [hissues', hissues, List.map_append, List.append_assoc]
        rfl
      · simp [hcreated]
      · intro other hother
        rcases List.mem_append.mp hother with hold | hlast
        · exact hcopies other hold
        · rw [List.mem_singleton.mp hlast, ← hcatalog]
          exact hcopy

/-- An issue without its links to others. -/
def Issue.unlinked (issue : Issue) : Issue := { issue with parentId := none, epicId := none }

/-- The components a row is associated with. -/
def Maps.componentIds (lib : Library) (maps : Maps) (row : ParsedRow) : List Uuid :=
  row.components.filterMap (maps.components.look lib)

theorem linkIssue_keeps (s : Pass) (row : ParsedRow) (i : Nat) (id : Uuid) (db : Db) :
    (s.linkIssue {} row i id db).issues.rows.map Issue.unlinked =
        db.issues.rows.map Issue.unlinked ∧
      (s.linkIssue {} row i id db).catalog = db.catalog ∧
      (s.linkIssue {} row i id db).issueComponents = db.issueComponents := by
  unfold Pass.linkIssue
  dsimp only
  split
  · refine ⟨?_, rfl, rfl⟩
    apply map_updateWhere
    exact fun _ => rfl
  · exact ⟨rfl, rfl, rfl⟩

/-- The components of an issue that has none yet become those of its row. -/
theorem assignComponents_links (lib : Library) (hexist : maps.Exist db.catalog) (row : ParsedRow)
    (i : Nat) {id : Uuid} (hfree : ∀ link ∈ db.issueComponents, link.1 ≠ id) (link : Uuid × Uuid) :
    link ∈ (assignComponents lib {} maps row i id db).issueComponents ↔
      link ∈ db.issueComponents ∨ link.1 = id ∧ link.2 ∈ maps.componentIds lib row := by
  have hall : (maps.componentIds lib row).all
      (fun id => (db.catalog.components.find? id).isSome) = true := by
    rw [List.all_eq_true]
    exact look_own lib hexist.components row.components
  unfold assignComponents
  rw [show row.components.filterMap (maps.components.look lib) = maps.componentIds lib row from rfl]
  cases hids : maps.componentIds lib row with
  | nil => simp
  | cons first rest =>
    rw [← hids]
    simp only [hids, List.isEmpty_cons, Bool.or_false, Bool.false_eq_true, if_false]
    rw [← hids, Db.setIssueComponents, if_pos hall, mem_addLinks, mem_deleteWhere]
    apply or_congr_left
    constructor
    · exact fun h => h.1
    · intro h
      refine ⟨h, ?_⟩
      rw [Bool.and_eq_false_iff]
      exact .inl (by simpa using hfree link h)

theorem assignCustomers_keeps (lib : Library) (maps : Maps) (row : ParsedRow) (i : Nat) (id : Uuid)
    (db : Db) :
    (assignCustomers lib {} maps row i id db).issues = db.issues ∧
      (assignCustomers lib {} maps row i id db).catalog = db.catalog ∧
      (assignCustomers lib {} maps row i id db).issueComponents = db.issueComponents := by
  unfold assignCustomers Db.setIssueCustomers
  dsimp only
  split
  · exact ⟨rfl, rfl, rfl⟩
  · split
    · exact ⟨rfl, rfl, rfl⟩
    · exact ⟨rfl, rfl, rfl⟩

theorem assignComponents_keeps (lib : Library) (maps : Maps) (row : ParsedRow) (i : Nat) (id : Uuid)
    (db : Db) :
    (assignComponents lib {} maps row i id db).issues = db.issues ∧
      (assignComponents lib {} maps row i id db).catalog = db.catalog := by
  unfold assignComponents Db.setIssueComponents
  dsimp only
  split
  · exact ⟨rfl, rfl⟩
  · split
    · exact ⟨rfl, rfl⟩
    · exact ⟨rfl, rfl⟩

/-- The second pass adds the components of every issue created, and changes no
issue but for its links. -/
theorem associate_all (s : Pass) (entries : List (ParsedRow × Nat × Uuid))
    (hexist : maps.Exist db.catalog) (hnodup : (entries.map (·.2.2)).Nodup)
    (hfree : ∀ link ∈ db.issueComponents, link.1 ∉ entries.map (·.2.2)) :
    (entries.foldl (s.associate lib {} maps) db).issues.rows.map Issue.unlinked =
        db.issues.rows.map Issue.unlinked ∧
      (entries.foldl (s.associate lib {} maps) db).catalog = db.catalog ∧
      ∀ link, link ∈ (entries.foldl (s.associate lib {} maps) db).issueComponents ↔
        link ∈ db.issueComponents ∨
          ∃ entry ∈ entries, link.1 = entry.2.2 ∧ link.2 ∈ maps.componentIds lib entry.1 := by
  induction entries generalizing db with
  | nil => exact ⟨rfl, rfl, by simp⟩
  | cons entry entries ih =>
    obtain ⟨row, i, id⟩ := entry
    rw [List.map_cons, List.nodup_cons] at hnodup
    rw [List.foldl_cons]
    obtain ⟨hissues₁, hcatalog₁, hlinks₁⟩ := linkIssue_keeps s row i id db
    generalize hlinked : s.linkIssue {} row i id db = linked at hissues₁ hcatalog₁ hlinks₁
    obtain ⟨hissues₂, hcatalog₂⟩ := assignComponents_keeps lib maps row i id linked
    have hfreeLinked : ∀ link ∈ linked.issueComponents, link.1 ≠ id := by
      rw [hlinks₁]
      exact fun link hlink hid => hfree link hlink (by rw [hid]; exact List.mem_cons_self)
    have hlinks₂ := assignComponents_links lib (hcatalog₁ ▸ hexist) row i hfreeLinked
    generalize hassigned : assignComponents lib {} maps row i id linked = assigned
      at hissues₂ hcatalog₂ hlinks₂
    obtain ⟨hissues₃, hcatalog₃, hlinks₃⟩ := assignCustomers_keeps lib maps row i id assigned
    have hstep : s.associate lib {} maps db (row, i, id) =
        assignCustomers lib {} maps row i id assigned := by
      rw [← hassigned, ← hlinked]
      rfl
    rw [hstep]
    generalize assignCustomers lib {} maps row i id assigned = after
      at hissues₃ hcatalog₃ hlinks₃
    have hcatalog := hcatalog₃.trans (hcatalog₂.trans hcatalog₁)
    have hlinks : ∀ link, link ∈ after.issueComponents ↔
        link ∈ db.issueComponents ∨ link.1 = id ∧ link.2 ∈ maps.componentIds lib row := by
      intro link
      rw [hlinks₃, hlinks₂ link, hlinks₁]
    have hfree' : ∀ link ∈ after.issueComponents, link.1 ∉ entries.map (·.2.2) := by
      intro link hlink hmem
      rcases (hlinks link).mp hlink with hold | ⟨hid, -⟩
      · exact hfree link hold (List.mem_cons_of_mem _ hmem)
      · exact hnodup.1 (hid ▸ hmem)
    obtain ⟨hissues, hcatalog', hall⟩ := ih (hcatalog ▸ hexist) hnodup.2 hfree'
    refine ⟨?_, hcatalog'.trans hcatalog, ?_⟩
    · rw [hissues, hissues₃, hissues₂, hissues₁]
    · intro link
      rw [hall link, hlinks link, or_assoc]
      simp only [List.exists_mem_cons_iff]

end Passes

/-! ## The round trip -/

/-- The names of a kind that the issues of the project show. -/
def shownItems (db : Db) (projectId : Uuid) (kind : TaxonomyKind) (id : Issue → Option Uuid) :
    List String :=
  (listIssues db projectId).filterMap fun issue => itemName db projectId kind (id issue)

def shownComponents (db : Db) (projectId : Uuid) : List String :=
  (listIssues db projectId).flatMap fun issue => componentNames db projectId issue.id

/-- An item of the project with this name. -/
def IsItem (catalog : Catalog) (projectId : Uuid) (kind : TaxonomyKind) (name : String)
    (id : Uuid) : Prop :=
  ∃ item ∈ catalog.list projectId kind, item.id = id ∧ item.name = name

def IsComponent (catalog : Catalog) (projectId : Uuid) (name : String) (id : Uuid) : Prop :=
  ∃ component ∈ catalog.components.rows,
    component.id = id ∧ component.projectId = projectId ∧ component.name = name

instance (catalog : Catalog) (projectId : Uuid) (kind : TaxonomyKind) (name : String) (id : Uuid) :
    Decidable (IsItem catalog projectId kind name id) :=
  inferInstanceAs (Decidable (∃ item ∈ catalog.list projectId kind,
    item.id = id ∧ item.name = name))

instance (catalog : Catalog) (projectId : Uuid) (name : String) (id : Uuid) :
    Decidable (IsComponent catalog projectId name id) :=
  inferInstanceAs (Decidable (∃ component ∈ catalog.components.rows,
    component.id = id ∧ component.projectId = projectId ∧ component.name = name))

/-- The mapping sends every name that is shown to the item, or the component, of
the importing project that has the same name; the users it names exist. -/
structure EveryValueMapped (lib : Library) (src : Db) (srcProject : Uuid) (dst : Catalog)
    (dstProject : Uuid) (mapping : ImportMapping) : Prop where
  types : Covers lib mapping.types (shownItems src srcProject .issueType (·.typeId))
    (IsItem dst dstProject .issueType)
  statuses : Covers lib mapping.statuses (shownItems src srcProject .issueStatus (·.statusId))
    (IsItem dst dstProject .issueStatus)
  priorities : Covers lib mapping.priorities (shownItems src srcProject .priority (·.priorityId))
    (IsItem dst dstProject .priority)
  components : Covers lib mapping.components (shownComponents src srcProject)
    (IsComponent dst dstProject)
  users : ∀ choice ∈ mapping.users, ∀ id ∈ choice.target, (dst.users.find? id).isSome

/-- An issue that an import recreates as one: it has a subject, and its type is
not "epic". -/
def importable (db : Db) (projectId : Uuid) (issue : Issue) : Bool :=
  trim issue.subject != "" &&
    !eqIgnoreAsciiCase (trim ((itemName db projectId .issueType issue.typeId).getD "")) "epic"

/-- What an import keeps of an issue. -/
structure Recreated (src : Db) (srcProject : Uuid) (dst : Db) (dstProject : Uuid)
    (issue copy : Issue) : Prop where
  subject : copy.subject = trim issue.subject
  description : copy.description =
    "> Imported from " ++ refText issue.reference ++ "\n\n" ++ trim issue.description
  type : itemName dst dstProject .issueType copy.typeId =
    itemName src srcProject .issueType issue.typeId
  status : itemName dst dstProject .issueStatus copy.statusId =
    (itemName src srcProject .issueStatus issue.statusId).or
      (itemName dst dstProject .issueStatus (dst.catalog.newStatusId dstProject))
  priority : itemName dst dstProject .priority copy.priorityId =
    itemName src srcProject .priority issue.priorityId
  components : ∀ name, name ∈ componentNames dst dstProject copy.id ↔
    name ∈ componentNames src srcProject issue.id

section RoundTrip

variable {lib : Library} {src dst : Db} {srcProject dstProject : Uuid} {mapping : ImportMapping}
  {kind : TaxonomyKind} {id : Issue → Option Uuid} {issue : Issue}

theorem itemName_shown (hissue : issue ∈ listIssues src srcProject) :
    ∀ name ∈ itemName src srcProject kind (id issue), name ∈ shownItems src srcProject kind id :=
  fun _ hname => List.mem_filterMap.mpr ⟨issue, hissue, hname⟩

/-- An item of the project is found under its id. -/
theorem itemName_of_mem {item : TaxonomyItem} (h : item ∈ dst.catalog.list dstProject kind) :
    itemName dst dstProject kind (some item.id) = some item.name := by
  have hfind : (dst.catalog.list dstProject kind).find? (·.id == item.id) = some item := by
    have hnodup : ((dst.catalog.list dstProject kind).map (·.id)).Nodup :=
      dst.catalog.taxonomy.nodup.sublist (List.filter_sublist.map _)
    cases hfound : (dst.catalog.list dstProject kind).find? (·.id == item.id) with
    | none =>
      have hnot := List.find?_eq_none.mp hfound item h
      simp at hnot
    | some found =>
      rw [eq_of_nodup_map hnodup (List.mem_of_find?_eq_some hfound) h
        (by simpa using List.find?_some hfound)]
  simp [itemName, hfind]

/-- The cell of an item is looked up as the item of the same name. -/
theorem itemName_look {choices : List ValueChoice}
    (hcovers : Covers lib choices (shownItems src srcProject kind id)
      (IsItem dst.catalog dstProject kind)) (hissue : issue ∈ listIssues src srcProject)
    (fallback : Option Uuid) :
    itemName dst dstProject kind (((RefMap.collect (targets lib choices)).look lib
        (trim ((itemName src srcProject kind (id issue)).getD ""))).or fallback) =
      (itemName src srcProject kind (id issue)).or (itemName dst dstProject kind fallback) := by
  rcases hcovers.look_cell (itemName_shown hissue) with
    ⟨hnone, hlook⟩ | ⟨name, found, hname, hlook, item, hitem, rfl, rfl⟩
  · rw [hlook, hnone]
    rfl
  · rw [hlook, hname, Option.some_or, Option.some_or, itemName_of_mem hitem]

theorem mem_componentNames {db : Db} {projectId issueId : Uuid} {name : String} :
    name ∈ componentNames db projectId issueId ↔
      ∃ id, (issueId, id) ∈ db.issueComponents ∧ componentName db projectId id = some name := by
  simp [componentNames, linked, List.mem_filterMap, List.mem_mergeSort]

theorem componentName_eq {db : Db} {projectId id : Uuid} {name : String}
    (h : IsComponent db.catalog projectId name id) : componentName db projectId id = some name := by
  obtain ⟨component, hrow, rfl, hproject, rfl⟩ := h
  simp [componentName, Table.find?_key hrow, hproject]

/-- The components a row is associated with have the names that were exported. -/
theorem componentIds_names {maps : Maps} {rest : RestCells}
    (hmaps : maps.components = .collect (targets lib mapping.components))
    (hcovers : Covers lib mapping.components (shownComponents src srcProject)
      (IsComponent dst.catalog dstProject)) (hissue : issue ∈ listIssues src srcProject)
    (hcomma : ∀ name ∈ componentNames src srcProject issue.id, ',' ∉ name.toList) (name : String) :
    (∃ id ∈ maps.componentIds lib (readBack src srcProject rest issue),
        componentName dst dstProject id = some name) ↔
      name ∈ componentNames src srcProject issue.id := by
  have hshown : ∀ n ∈ componentNames src srcProject issue.id, n ∈ shownComponents src srcProject :=
    fun n hn => List.mem_flatMap.mpr ⟨issue, hissue, hn⟩
  have hmem : ∀ id, id ∈ maps.componentIds lib (readBack src srcProject rest issue) ↔
      ∃ n ∈ componentNames src srcProject issue.id,
        (RefMap.collect (targets lib mapping.components)).look lib (trim n) = some id := by
    intro id
    rw [Maps.componentIds, readBack_components hcomma, hmaps]
    simp only [List.mem_filterMap, List.mem_filter, List.mem_map, bne_iff_ne]
    constructor
    · rintro ⟨_, ⟨⟨n, hn, rfl⟩, -⟩, hlook⟩
      exact ⟨n, hn, hlook⟩
    · rintro ⟨n, hn, hlook⟩
      exact ⟨_, ⟨⟨n, hn, rfl⟩, hcovers.trim_ne (hshown n hn)⟩, hlook⟩
  constructor
  · rintro ⟨id, hid, hname⟩
    obtain ⟨n, hn, hlook⟩ := (hmem id).mp hid
    obtain ⟨found, hfound, hstands⟩ := hcovers.look_name (hshown n hn)
    rw [hlook] at hfound
    rw [← Option.some.inj hfound] at hstands
    rw [componentName_eq hstands] at hname
    rwa [← Option.some.inj hname]
  · intro hname
    obtain ⟨id, hlook, hstands⟩ := hcovers.look_name (hshown name hname)
    exact ⟨id, (hmem id).mpr ⟨name, hname, hlook⟩, componentName_eq hstands⟩

/-- The maps of a mapping whose choices all have a target. -/
theorem resolve_mapped
    (hmapped : EveryValueMapped lib src srcProject dst.catalog dstProject mapping) :
    ∃ maps : Maps, resolve lib {} dstProject mapping dst.catalog = (maps, 0, dst.catalog) ∧
      maps.types = .collect (targets lib mapping.types) ∧
      maps.statuses = .collect (targets lib mapping.statuses) ∧
      maps.priorities = .collect (targets lib mapping.priorities) ∧
      maps.components = .collect (targets lib mapping.components) ∧ maps.Exist dst.catalog := by
  let maps : Maps :=
    { types := .collect (targets lib mapping.types)
      statuses := .collect (targets lib mapping.statuses)
      priorities := .collect (targets lib mapping.priorities)
      components := componentMap lib mapping.components
      customers := customerMap lib {} dstProject dst.catalog mapping.customers
      users := userMap lib {} dstProject dst.catalog mapping.users }
  refine ⟨maps, ?_, rfl, rfl, rfl, rfl, ?_⟩
  · rw [resolve, buildValueMap_chosen {} dstProject .issueType hmapped.types.chosen]
    dsimp only
    rw [buildValueMap_chosen {} dstProject .issueStatus hmapped.statuses.chosen]
    dsimp only
    rw [buildValueMap_chosen {} dstProject .priority hmapped.priorities.chosen]
  · have hitem : ∀ {kind name id}, IsItem dst.catalog dstProject kind name id →
        (dst.catalog.taxonomy.find? id).isSome := by
      rintro kind name id ⟨item, hlisted, rfl, -⟩
      exact Option.isSome_of_eq_some (Table.find?_key (List.mem_filter.mp hlisted).1)
    refine ⟨?_, ?_, ?_, ?_, userMap_all ?_ hmapped.users⟩
    · intro key id hid
      obtain ⟨name, -, hname⟩ := hmapped.types.all key id hid
      exact hitem hname
    · intro key id hid
      obtain ⟨name, -, hname⟩ := hmapped.statuses.all key id hid
      exact hitem hname
    · intro key id hid
      obtain ⟨name, -, hname⟩ := hmapped.priorities.all key id hid
      exact hitem hname
    · intro key id hid
      obtain ⟨name, -, component, hrow, rfl, -⟩ := hmapped.components.all key id hid
      exact Option.isSome_of_eq_some (Table.find?_key hrow)
    · intro user huser
      obtain ⟨membership, -, hfound⟩ := List.mem_filterMap.mp huser
      rw [Table.key_of_find? hfound]
      exact Option.isSome_of_eq_some hfound

/-- A copy of the row of an issue, with its components, is that issue recreated. -/
theorem recreated_of_copy {maps : Maps} {rest : RestCells} {copy : Issue} {after : Db}
    (hmapped : EveryValueMapped lib src srcProject dst.catalog dstProject mapping)
    (htypes : maps.types = .collect (targets lib mapping.types))
    (hstatuses : maps.statuses = .collect (targets lib mapping.statuses))
    (hpriorities : maps.priorities = .collect (targets lib mapping.priorities))
    (hcomponents : maps.components = .collect (targets lib mapping.components))
    (hissue : issue ∈ listIssues src srcProject)
    (hcomma : ∀ name ∈ componentNames src srcProject issue.id, ',' ∉ name.toList)
    (hcatalog : after.catalog = dst.catalog)
    (hcopy : CopyOf lib dstProject maps dst.catalog (readBack src srcProject rest issue) copy)
    (hlinks : ∀ id, (copy.id, id) ∈ after.issueComponents ↔
      id ∈ maps.componentIds lib (readBack src srcProject rest issue)) :
    Recreated src srcProject after dstProject issue copy := by
  have hname : ∀ kind id, itemName after dstProject kind id = itemName dst dstProject kind id := by
    intro kind id
    rw [itemName, itemName, hcatalog]
  have hcomponent : ∀ id, componentName after dstProject id = componentName dst dstProject id := by
    intro id
    rw [componentName, componentName, hcatalog]
  refine ⟨?_, ?_, ?_, ?_, ?_, ?_⟩
  · rw [hcopy.subject, readBack_subject]
  · rw [hcopy.description, readBack_importedDescription]
  · have hlook := itemName_look hmapped.types hissue none
    rw [hname, hcopy.type, htypes, readBack_typeName]
    simpa [itemName] using hlook
  · rw [hname, hname, hcopy.status, hstatuses, readBack_statusName, hcatalog]
    exact itemName_look hmapped.statuses hissue _
  · have hlook := itemName_look hmapped.priorities hissue none
    rw [hname, hcopy.priority, hpriorities, readBack_priorityName]
    simpa [itemName] using hlook
  · intro name
    have hnames : (∃ id ∈ maps.componentIds lib (readBack src srcProject rest issue),
        componentName dst dstProject id = some name) ↔
          name ∈ componentNames src srcProject issue.id :=
      componentIds_names hcomponents hmapped.components hissue hcomma name
    rw [mem_componentNames, ← hnames]
    simp only [hlinks, hcomponent]

theorem Issue.unlinked_eq {copy : Issue} (h : issue.unlinked = copy.unlinked) :
    issue.id = copy.id ∧ issue.projectId = copy.projectId ∧ issue.deletedAt = copy.deletedAt ∧
      issue.subject = copy.subject ∧ issue.description = copy.description ∧
      issue.statusId = copy.statusId ∧ issue.typeId = copy.typeId ∧
      issue.priorityId = copy.priorityId := by
  have h' := h
  simp only [Issue.unlinked, Issue.mk.injEq] at h'
  tauto

/-- The file of an export is read as its rows with a subject. -/
theorem parseCsv_export {csv : Bytes} {rest : Issue → RestCells}
    (hcsv : lib.readCsv csv =
      (.ok exportHeaders, (exportRows src srcProject rest).map .ok)) :
    parseCsv lib csv = .ok (((listIssues src srcProject).map fun issue =>
      readBack src srcProject (rest issue) issue).filter (·.subject != "")) := by
  have hrecords : ∀ records : List (List String),
      (records.map Except.ok).mapM (fun record : Except String (List String) =>
        record.mapError ("bad row: " ++ ·)) = .ok records := by
    intro records
    induction records with
    | nil => rfl
    | cons record records ih => 
      rw [List.map_cons, List.mapM_cons, ih]
      rfl
  have hjira : exportHeaders.any (trim · == "Issue key") = false := by decide +kernel
  have hsubject : exportHeaders.any (trim · == "Subject") = true := by decide +kernel
  have hheader : (Except.ok exportHeaders : Except String (List String)).mapError
      ("bad header: " ++ ·) = .ok exportHeaders := rfl
  unfold parseCsv
  rw [hcsv]
  simp only [hheader, hrecords, bind, Except.bind, hjira, hsubject, Bool.not_true, Bool.and_false,
    Bool.false_eq_true, if_false]
  rw [exportRows, List.map_map]
  rfl

/-- Three lists whose elements correspond, the outer two through the middle one. -/
theorem forall₂_of_maps {α β γ δ ε : Type} {R : α → β → Prop} {f : γ → δ} {g : α → δ} {h : β → ε}
    {k : γ → ε} {l₁ : List α} {l : List γ} {l₂ : List β} (hleft : l.map f = l₁.map g)
    (hright : l₂.map h = l.map k)
    (hR : ∀ a ∈ l₁, ∀ c ∈ l, ∀ b, f c = g a → h b = k c → R a b) : List.Forall₂ R l₁ l₂ := by
  induction l generalizing l₁ l₂ with
  | nil =>
    rw [List.map_nil, List.nil_eq, List.map_eq_nil_iff] at hleft
    rw [List.map_nil, List.map_eq_nil_iff] at hright
    rw [hleft, hright]
    exact .nil
  | cons c l ih =>
    obtain ⟨a, rest₁, rfl, ha, hrest₁⟩ := List.map_eq_cons_iff.mp hleft.symm
    obtain ⟨b, rest₂, rfl, hb, hrest₂⟩ := List.map_eq_cons_iff.mp hright
    refine .cons (hR a List.mem_cons_self c List.mem_cons_self b ha.symm hb) ?_
    apply ih hrest₁.symm hrest₂
    intro a' ha' c' hc'
    exact hR a' (List.mem_cons_of_mem _ ha') c' (List.mem_cons_of_mem _ hc')

/-- The rows that become issues are those of the issues to be recreated. -/
theorem issueRows_export (rest : Issue → RestCells) :
    (((listIssues src srcProject).map fun issue =>
        readBack src srcProject (rest issue) issue).filter (·.subject != "")).filter ParsedRow.isIssue =
      ((listIssues src srcProject).filter (importable src srcProject)).map fun issue =>
        readBack src srcProject (rest issue) issue := by
  have hkept : ((fun row : ParsedRow => row.isIssue && row.subject != "") ∘ fun issue =>
      readBack src srcProject (rest issue) issue) = importable src srcProject := by
    funext issue
    simp only [Function.comp_apply, importable, ParsedRow.isIssue, readBack_subject,
      readBack_typeName, Bool.and_comm]
  rw [List.filter_filter, List.filter_map, hkept]

/-- The issues listed, but for their links, are given by the rows but for theirs. -/
theorem listIssues_unlinked (db : Db) (projectId : Uuid) :
    (listIssues db projectId).map Issue.unlinked = (db.issues.rows.map Issue.unlinked).filter
      fun issue => issue.projectId == projectId && issue.deletedAt.isNone := by
  rw [listIssues, List.filter_map]
  rfl

/-- Importing the export of a project into one without issues recreates, in order, every issue
with a subject whose type is not "epic". -/
theorem export_import {writeCsv : List (List String) → Bytes} {rest : Issue → RestCells}
    {mappingJson : String} (actorId : Uuid)
    (hcsv : lib.readCsv (buildCsv writeCsv (exportRows src srcProject rest)) =
      (.ok exportHeaders, (exportRows src srcProject rest).map .ok))
    (hsent : trim mappingJson ≠ "") (hdecoded : lib.decodeMapping mappingJson = .ok mapping)
    (hempty : listIssues dst dstProject = [])
    (hlinks : ∀ link ∈ dst.issueComponents, (dst.issues.find? link.1).isSome)
    (hcomma : ∀ issue ∈ listIssues src srcProject,
      ∀ name ∈ componentNames src srcProject issue.id, ',' ∉ name.toList)
    (hmapped : EveryValueMapped lib src srcProject dst.catalog dstProject mapping) :
    ∃ result after, importCommit lib {} dstProject actorId
        ⟨true, .ok (buildCsv writeCsv (exportRows src srcProject rest), mappingJson)⟩ dst =
          (.ok result, after) ∧
      List.Forall₂ (Recreated src srcProject after dstProject)
        ((listIssues src srcProject).filter (importable src srcProject))
        (listIssues after dstProject) := by
  obtain ⟨maps, hresolve, htypes, hstatuses, hpriorities, hcomponents, hexist⟩ :=
    resolve_mapped hmapped
  have hparse := parseCsv_export hcsv
  generalize hrows : ((listIssues src srcProject).map fun issue =>
    readBack src srcProject (rest issue) issue).filter (·.subject != "") = rows at hparse
  obtain ⟨copies, hcopyRows, hissues, hcreated, hcopies, hcatalog, hkeptLinks⟩ :=
    firstPass_copies dstProject actorId lib hexist rows
  have hrun : importCommit lib {} dstProject actorId
      ⟨true, .ok (buildCsv writeCsv (exportRows src srcProject rest), mappingJson)⟩ dst =
      (.ok ⟨(firstPass lib {} dstProject actorId maps rows dst).createdIssues,
          (firstPass lib {} dstProject actorId maps rows dst).createdEpics, 0,
          (firstPass lib {} dstProject actorId maps rows dst).skipped⟩,
        (firstPass lib {} dstProject actorId maps rows dst).created.foldl
          ((firstPass lib {} dstProject actorId maps rows dst).associate lib {} maps)
          (firstPass lib {} dstProject actorId maps rows dst).db) := by
    have hadmit : admitImport lib
        ⟨true, .ok (buildCsv writeCsv (exportRows src srcProject rest), mappingJson)⟩ =
        .ok (mapping, rows) := by
      simp [admitImport, hsent, hdecoded, hparse, Except.mapError, bind, Except.bind, pure,
        Except.pure]
    rw [importCommit, hadmit]
    simp only [importRows, hresolve]
  generalize firstPass lib {} dstProject actorId maps rows dst = s at *
  have hids : s.created.map (·.2.2) = copies.map (·.2.id) := by
    have hsecond := congrArg (List.map Prod.snd) hcreated
    rw [List.map_map, List.map_map] at hsecond
    exact hsecond
  have hnodup : (dst.issues.rows.map (·.id) ++ copies.map (·.2.id)).Nodup := by
    have hkeys := s.db.issues.nodup
    rwa [hissues, List.map_append, List.map_map] at hkeys
  have hfree : ∀ link ∈ s.db.issueComponents, link.1 ∉ s.created.map (·.2.2) := by
    rw [hkeptLinks, hids]
    intro link hlink hnew
    obtain ⟨issue, hissue⟩ := Option.isSome_iff_exists.mp (hlinks link hlink)
    obtain ⟨hrow, hid⟩ := Table.find?_eq_some_iff.mp hissue
    exact List.disjoint_of_nodup_append hnodup (List.mem_map.mpr ⟨issue, hrow, hid⟩) hnew
  obtain ⟨hunlinked, hcatalogAfter, hassociated⟩ := associate_all s s.created
    (hcatalog ▸ hexist) (hids ▸ (List.nodup_append.mp hnodup).2.1) hfree
  generalize s.created.foldl (s.associate lib {} maps) s.db = after at *
  refine ⟨_, after, hrun, ?_⟩
  have hlisted : (listIssues after dstProject).map Issue.unlinked =
      copies.map fun copy => copy.2.unlinked := by
    rw [listIssues_unlinked, hunlinked, hissues, List.map_append, List.filter_append,
      ← listIssues_unlinked dst dstProject, hempty, List.map_nil, List.nil_append, List.map_map]
    apply List.filter_eq_self.mpr
    intro issue hissue
    obtain ⟨copy, hcopy, rfl⟩ := List.mem_map.mp hissue
    simp [Issue.unlinked, (hcopies copy hcopy).project, (hcopies copy hcopy).live]
  refine forall₂_of_maps (hcopyRows.trans (hrows ▸ issueRows_export rest)) hlisted ?_
  intro issue hissue copy hcopy found hrow hfound
  obtain ⟨hid, hproject, hdeleted, hsubject, hdescription, hstatus, htype, hpriority⟩ :=
    Issue.unlinked_eq hfound
  have hcopyOf := hcopies copy hcopy
  rw [hrow] at hcopyOf
  have hissue := (List.mem_filter.mp hissue).1
  apply recreated_of_copy hmapped htypes hstatuses hpriorities hcomponents hissue
    (hcomma issue hissue) (hcatalogAfter.trans hcatalog)
  · exact ⟨hproject.trans hcopyOf.project, hdeleted.trans hcopyOf.live,
      hsubject.trans hcopyOf.subject, hdescription.trans hcopyOf.description,
      hstatus.trans hcopyOf.status, htype.trans hcopyOf.type, hpriority.trans hcopyOf.priority⟩
  · intro id
    rw [hassociated, hkeptLinks, hid, ← hrow]
    constructor
    · rintro (hold | ⟨entry, hentry, hentryId, hcomponent⟩)
      · have hnew : copy.2.id ∈ s.created.map (·.2.2) := hids ▸ List.mem_map_of_mem hcopy
        exact absurd hnew (hfree _ (hkeptLinks ▸ hold))
      · have hpair : (entry.1, entry.2.2) ∈ copies.map fun copy => (copy.1, copy.2.id) :=
          hcreated ▸ List.mem_map_of_mem hentry
        obtain ⟨other, hother, hsame⟩ := List.mem_map.mp hpair
        obtain ⟨hotherRow, hotherId⟩ := Prod.mk.inj hsame
        have hcopyIds := (List.nodup_append.mp hnodup).2.1
        rw [eq_of_nodup_map hcopyIds hcopy hother (hentryId.trans hotherId.symm), hotherRow]
        exact hcomponent
    · intro hcomponent
      have hpair : (copy.1, copy.2.id) ∈ s.created.map fun entry => (entry.1, entry.2.2) :=
        hcreated ▸ List.mem_map_of_mem hcopy
      obtain ⟨entry, hentry, hsame⟩ := List.mem_map.mp hpair
      obtain ⟨hentryRow, hentryId⟩ := Prod.mk.inj hsame
      exact .inr ⟨entry, hentry, hentryId.symm, hentryRow ▸ hcomponent⟩

end RoundTrip

/-! ## What an import does not recreate -/

/-- The names of an issue's labels. -/
def labelNames (db : Db) (projectId issueId : Uuid) : List String :=
  (linked db.issueLabels issueId).filterMap (labelName db projectId)

/-- The same issue in another project. -/
structure SameIssue (src : Db) (srcProject : Uuid) (dst : Db) (dstProject : Uuid)
    (issue copy : Issue) : Prop where
  subject : copy.subject = issue.subject
  description : copy.description = issue.description
  type : itemName dst dstProject .issueType copy.typeId =
    itemName src srcProject .issueType issue.typeId
  status : itemName dst dstProject .issueStatus copy.statusId =
    itemName src srcProject .issueStatus issue.statusId
  priority : itemName dst dstProject .priority copy.priorityId =
    itemName src srcProject .priority issue.priorityId
  labels : labelNames dst dstProject copy.id = labelNames src srcProject issue.id
  components : componentNames dst dstProject copy.id = componentNames src srcProject issue.id

/-- The position of an issue's parent in a list. -/
def parentPosition (issues : List Issue) (issue : Issue) : Option Nat :=
  issue.parentId.bind fun id => issues.findIdx? (·.id == id)

/-- The same issues with the same parents. -/
def SameIssues (src : Db) (srcProject : Uuid) (dst : Db) (dstProject : Uuid) : Prop :=
  List.Forall₂ (SameIssue src srcProject dst dstProject) (listIssues src srcProject)
      (listIssues dst dstProject) ∧
    (listIssues dst dstProject).map (parentPosition (listIssues dst dstProject)) =
      (listIssues src srcProject).map (parentPosition (listIssues src srcProject))

/-- Two projects with the same vocabulary; the issues are all in project 1. -/
def twinProjectsDb : Db where
  catalog :=
    { taxonomy := ⟨[⟨11, 1, .issueType, "Bug", "bug", false⟩,
        ⟨12, 1, .issueStatus, "Open", "open", true⟩, ⟨13, 1, .priority, "High", "high", false⟩,
        ⟨21, 2, .issueType, "Bug", "bug", false⟩, ⟨22, 2, .issueStatus, "Open", "open", true⟩,
        ⟨23, 2, .priority, "High", "high", false⟩], by decide⟩
      components := ⟨[⟨14, 1, "Parser"⟩, ⟨24, 2, "Parser"⟩], by decide⟩
      customers := .empty
      labels := .empty
      users := ⟨[⟨3, "ada", "ada@example.org", "Ada"⟩], by decide⟩
      memberships := [(1, 3), (2, 3)] }
  epics := .empty
  issues := ⟨[⟨31, 1, 1, "Rework the reader", "In two steps.", some 12, some 11, some 13, none,
      none, 3, some 3, none⟩,
    ⟨32, 1, 2, "Split the cells", "The first step.", some 12, some 11, none, none, some 31, 3, none,
      none⟩], by decide⟩
  issueLabels := []
  issueComponents := [(32, 14)]
  issueCustomers := []
  lastRef := fun projectId => if projectId = 1 then 2 else 0
  lastEpicRef := fun _ => 0

def noCells (_ : Issue) : RestCells := ⟨"", "", "", "", ""⟩

/-- A CSV file in which no cell needs quotes. -/
def writePlainCsv (rows : List (List String)) : Bytes :=
  rows.flatMap fun cells =>
    ([','].intercalate (cells.map String.toList)).map (·.toNat.toUInt8) ++ [10]

def readPlainCsv (bytes : Bytes) :
    Except String (List String) × List (Except String (List String)) :=
  let cells := fun line : Bytes =>
    (line.splitOn 44).map fun cell => String.ofList (cell.map fun b => Char.ofNat b.toNat)
  match ((bytes.splitOn 10).dropLast).map cells with
  | [] => (.error "no header", [])
  | header :: records => (.ok header, records.map .ok)

/-- Every value of project 1 mapped to that of project 2. -/
def twinMapping : ImportMapping where
  types := [{ value := "Bug", target := some 21 }]
  statuses := [{ value := "Open", target := some 22 }]
  priorities := [{ value := "High", target := some 23 }]
  components := [{ value := "Parser", target := some 24 }]
  users := [{ value := "Ada", target := some 3 }]

def twinMappingJson : String :=
  "\x7b\"types\":[\x7b\"value\":\"Bug\",\"target\":21\x7d]," ++
    "\"statuses\":[\x7b\"value\":\"Open\",\"target\":22\x7d]," ++
    "\"priorities\":[\x7b\"value\":\"High\",\"target\":23\x7d]," ++
    "\"components\":[\x7b\"value\":\"Parser\",\"target\":24\x7d]," ++
    "\"users\":[\x7b\"value\":\"Ada\",\"target\":3\x7d]\x7d"

def plainLibrary : Library where
  toLowercase s := String.ofList (s.toList.map Char.toLower)
  readCsv := readPlainCsv
  decodeMapping json := if json = twinMappingJson then .ok twinMapping else .error "not known"

def twinImport : Except Problem ImportResult × Db :=
  importCommit plainLibrary {} 2 3
    ⟨true, .ok (buildCsv writePlainCsv (exportRows twinProjectsDb 1 noCells), twinMappingJson)⟩
    twinProjectsDb

/-- The descriptions of the second project name the source of each issue. -/
theorem export_import_differs : ¬ SameIssues twinProjectsDb 1 twinImport.2 2 := by
  rintro ⟨hsame, -⟩
  have hdescriptions : (listIssues twinProjectsDb 1).map (·.description) =
      (listIssues twinImport.2 2).map (·.description) := by
    rw [← List.forall₂_eq_eq_eq, List.forall₂_map_left_iff, List.forall₂_map_right_iff]
    exact hsame.imp fun _ _ h => h.description.symm
  have hdiffer : (listIssues twinProjectsDb 1).map (·.description) ≠
      (listIssues twinImport.2 2).map (·.description) := by decide +kernel
  exact hdiffer hdescriptions

theorem twinMapping_covers :
    EveryValueMapped plainLibrary twinProjectsDb 1 twinProjectsDb.catalog 2 twinMapping := by
  refine ⟨⟨?_, ?_, ?_, ?_, ?_⟩, ⟨?_, ?_, ?_, ?_, ?_⟩, ⟨?_, ?_, ?_, ?_, ?_⟩,
    ⟨?_, ?_, ?_, ?_, ?_⟩, ?_⟩
  all_goals decide +kernel

/-- Both issues of project 1 are recreated in project 2. -/
theorem export_import_twin : ∃ result after, importCommit plainLibrary {} 2 3
      ⟨true, .ok (buildCsv writePlainCsv (exportRows twinProjectsDb 1 noCells), twinMappingJson)⟩
      twinProjectsDb = (.ok result, after) ∧
    List.Forall₂ (Recreated twinProjectsDb 1 after 2)
      ((listIssues twinProjectsDb 1).filter (importable twinProjectsDb 1)) (listIssues after 2) :=
  export_import 3 (by decide +kernel) (by decide +kernel) (by decide +kernel) (by decide +kernel)
    (by decide +kernel) (by decide +kernel) twinMapping_covers

end IntelliPilot.Imports
