import IntelliPilot.Issues.Handlers
import IntelliPilot.Issues.Mirror
import Mathlib.Data.List.Perm.Subperm
import Mathlib.Data.List.Dedup

/-! # What the checks establish

The checks of a handler read only. Where they pass, what they looked up is there
when the handler comes to its writes, whichever of its queries failed.
-/

namespace IntelliPilot.Issues

open Http Statement
open Imports (Uuid)
open Db (Aside)

theorem aside_elapse (db : Db) (elapse : Nat) : Aside db { db with now := db.now + elapse } :=
  ⟨rfl, rfl, rfl, rfl, rfl, rfl, rfl, rfl, rfl, rfl⟩

/-! ## Attempts -/

section Attempts

variable {C : Choice → Prop} {α : Type} {Q : α → Db → Prop} {s : Db}

theorem ensures_query {stmt : Stmt (Except DbError α)} {E : DbError → Db → Prop} :
    Ensures Stmt.exec C (query stmt) Q E s ↔ ∀ choice, C choice →
      Outcome Q E (stmt.exec choice s).1 (stmt.exec choice s).2 := Iff.rfl

variable {q : Query α}

/-- A handler goes on as its query, or as it does where the query fails. -/
theorem ensures_attempt {failed : Handler α} {E : Problem → Db → Prop} :
    Ensures Stmt.exec C (attempt q failed) Q E s ↔
      Ensures Stmt.exec C q Q (fun _ s => Ensures Stmt.exec C failed Q E s) s := by
  unfold attempt
  rw [ensures_bind, ensures_lift]
  constructor
  · intro h
    apply Prog.Ends.mono h
    rintro (e | a) s houtcome
    · exact houtcome
    · exact houtcome
  · intro h
    apply Prog.Ends.mono h
    rintro (e | a) s houtcome
    · exact houtcome
    · exact houtcome

variable {I : Db → Prop} {P : α → Prop} {E : Problem → Prop}

theorem stays_attempt {failed : Handler α} (hq : Stays Stmt.exec C I q P fun _ => True)
    (hfailed : Stays Stmt.exec C I failed P E) : Stays Stmt.exec C I (attempt q failed) P E := by
  intro s hI
  rw [ensures_attempt]
  apply (hq s hI).mono
  · exact fun _ _ h => h
  · exact fun _ s h => hfailed s h.1

theorem stays_orInternal (hq : Stays Stmt.exec C I q P fun _ => True) (hE : E internal) :
    Stays Stmt.exec C I (orInternal q) P E :=
  stays_attempt hq (stays_throw hE)

theorem stays_orFalse {q : Query Bool} {R : Prop}
    (hq : Stays Stmt.exec C I q (fun found => found = true → R) fun _ => True) :
    Stays Stmt.exec C I (orFalse q) (fun found => found = true → R) E :=
  stays_attempt hq (stays_pure (by simp))

theorem stays_ensure {ok : Bool} {problem : Problem} (hE : ok = false → E problem) :
    Stays Stmt.exec C I (ensure ok problem) (fun _ => ok = true) E := by
  unfold ensure
  apply stays_ite
  · exact fun hok => stays_pure hok
  · exact fun hok => stays_throw (hE (by simpa using hok))

theorem stays_decided {result : Except Problem α}
    (hE : ∀ problem, result = .error problem → E problem) :
    Stays Stmt.exec C I (decided result) (fun a => result = .ok a) E := by
  cases result with
  | ok a => exact stays_pure rfl
  | error problem => exact stays_throw (hE problem rfl)

end Attempts

/-! ## Reads -/

section Reads

variable {C : Choice → Prop} {α : Type} {db : Db}

/-- A statement that returns `f` of the tables it reads. -/
structure Reads (stmt : Stmt (Except DbError α)) (f : Db → α) : Prop where
  effect : ∀ db, stmt.effect db = (.ok (f db), db)
  failure : ∀ db, stmt.failure db = .error .failed
  same : ∀ {db db' : Db}, Aside db db' → f db' = f db

variable {stmt : Stmt (Except DbError α)}

theorem Reads.exec {f : Db → α} (h : Reads stmt f) (choice : Choice) (db : Db) :
    Aside db (stmt.exec choice db).2 ∧
      ∀ a, (stmt.exec choice db).1 = .ok a → a = f db := by
  unfold Stmt.exec
  dsimp only
  split
  · refine ⟨aside_elapse db _, ?_⟩
    intro a ha
    rw [h.failure] at ha
    contradiction
  · rw [h.effect]
    refine ⟨aside_elapse db _, ?_⟩
    intro a ha
    rw [← Except.ok.inj ha, h.same (aside_elapse db _)]

/-- A read finds what was there before the checks began. -/
theorem stays_read {f : Db → α} (h : Reads stmt f) :
    Stays Stmt.exec C (Aside db) (query stmt) (· = f db) fun _ => True := by
  intro s haside
  rw [ensures_query]
  intro choice _
  obtain ⟨hstate, hresult⟩ := h.exec choice s
  cases hexec : (stmt.exec choice s).1 with
  | error e => exact ⟨haside.trans hstate, trivial⟩
  | ok a => exact ⟨haside.trans hstate, (hresult a hexec).trans (h.same haside)⟩

theorem stays_readTrue {stmt : Stmt (Except DbError Bool)} {f : Db → Bool} {E : Problem → Prop}
    (h : Reads stmt f) : Stays Stmt.exec C (Aside db) (orFalse (query stmt))
      (fun found => found = true → f db = true) E := by
  apply stays_orFalse
  apply (stays_read h).mono
  · rintro _ rfl
    exact id
  · exact fun _ h => h

theorem reads_selectIssue (projectId id : Uuid) :
    Reads (.selectIssue projectId id) fun db => db.selectIssue projectId id :=
  ⟨fun _ => rfl, fun _ => rfl, fun h => by rw [Db.selectIssue, Db.selectIssue, h.issue?]⟩

theorem reads_newStatusId (projectId : Uuid) :
    Reads (.newStatusId projectId) fun db => db.catalog.newStatusId projectId :=
  ⟨fun _ => rfl, fun _ => rfl, fun h => by rw [h.catalog]⟩

theorem reads_labelIds (id : Uuid) :
    Reads (.issueLabelIds id) fun db => Db.linkedIds db.issueLabels id :=
  ⟨fun _ => rfl, fun _ => rfl, fun h => by rw [h.labels]⟩

theorem reads_componentIds (id : Uuid) :
    Reads (.issueComponentIds id) fun db => Db.linkedIds db.issueComponents id :=
  ⟨fun _ => rfl, fun _ => rfl, fun h => by rw [h.components]⟩

theorem reads_componentVersions (id : Uuid) :
    Reads (.issueComponentVersions id) fun db => db.issueComponentVersions id :=
  ⟨fun _ => rfl, fun _ => rfl, fun h => by
    rw [Db.issueComponentVersions, Db.issueComponentVersions, h.versionRows]⟩

theorem reads_customerIds (id : Uuid) :
    Reads (.issueCustomerIds id) fun db => Db.linkedIds db.issueCustomers id :=
  ⟨fun _ => rfl, fun _ => rfl, fun h => by rw [h.customers]⟩

theorem reads_labelsInProject (projectId : Uuid) (ids : List Uuid) :
    Reads (.labelsInProject projectId ids) fun db => db.labelsInProject projectId ids :=
  ⟨fun _ => rfl, fun _ => rfl, fun h => by
    rw [Db.labelsInProject, Db.labelsInProject, h.catalog]⟩

theorem reads_componentsInProject (projectId : Uuid) (ids : List Uuid) :
    Reads (.componentsInProject projectId ids) fun db => db.componentsInProject projectId ids :=
  ⟨fun _ => rfl, fun _ => rfl, fun h => by
    rw [Db.componentsInProject, Db.componentsInProject, h.catalog]⟩

theorem reads_customerInProject (projectId id : Uuid) :
    Reads (.customerInProject projectId id) fun db => db.customerInProject projectId id :=
  ⟨fun _ => rfl, fun _ => rfl, fun h => by
    rw [Db.customerInProject, Db.customerInProject, h.catalog]⟩

theorem reads_epicInProject (projectId id : Uuid) :
    Reads (.epicInProject projectId id) fun db => db.epicInProject projectId id :=
  ⟨fun _ => rfl, fun _ => rfl, fun h => by rw [Db.epicInProject, Db.epicInProject, h.epics]⟩

theorem reads_issueInProject (projectId id : Uuid) :
    Reads (.issueInProject projectId id) fun db => (db.selectIssue projectId id).isSome :=
  ⟨fun _ => rfl, fun _ => rfl, fun h => by rw [Db.selectIssue, Db.selectIssue, h.issue?]⟩

theorem reads_issueExists (projectId id : Uuid) :
    Reads (.issueExists projectId id) fun db => (db.selectIssue projectId id).isSome :=
  ⟨fun _ => rfl, fun _ => rfl, fun h => by rw [Db.selectIssue, Db.selectIssue, h.issue?]⟩

theorem chain_aside {db' : Db} (h : Aside db db') (depth : Nat) (id : Uuid) :
    db'.chain depth id = db.chain depth id := by
  induction depth generalizing id with
  | zero => rfl
  | succ depth ih => simp only [Db.chain, h.issue?, ih]

theorem reads_parentChainContains (projectId start needle : Uuid) :
    Reads (.parentChainContains projectId start needle)
      fun db => db.parentChainContains projectId start needle :=
  ⟨fun _ => rfl, fun _ => rfl, fun h => by
    rw [Db.parentChainContains, Db.parentChainContains, chain_aside h, Db.selectIssue,
      Db.selectIssue, h.issue?]⟩

theorem releaseInProject_aside {db' : Db} (h : Aside db db') (projectId id : Uuid) :
    db'.releaseInProject projectId id = db.releaseInProject projectId id := by
  rw [Db.releaseInProject, Db.releaseInProject, h.releases]

theorem reads_releaseInProject (projectId id : Uuid) :
    Reads (.releaseInProject projectId id) fun db => db.releaseInProject projectId id :=
  ⟨fun _ => rfl, fun _ => rfl, fun h => releaseInProject_aside h projectId id⟩

theorem reads_versionInProject (projectId id : Uuid) :
    Reads (.versionInProject projectId id) fun db => db.versionInProject projectId id :=
  ⟨fun _ => rfl, fun _ => rfl, fun h => by
    simp only [Db.versionInProject, h.version?, releaseInProject_aside h]⟩

theorem reads_versionsOfComponents (components versions : List Uuid) :
    Reads (.versionsOfComponents components versions)
      fun db => db.versionsOfComponents components versions :=
  ⟨fun _ => rfl, fun _ => rfl, fun h => by
    rw [Db.versionsOfComponents, Db.versionsOfComponents, h.links, h.versions]⟩

end Reads

/-! ## What the checks see -/

/-- A count of rows with distinct keys that is the number of the ids finds every id. -/
theorem exists_of_count {α : Type} {key : α → Uuid} {t : Table key} {p : α → Bool}
    {ids : List Uuid} (hcount : (t.rows.filter fun row => p row && ids.contains (key row)).length =
      ids.dedup.length) {id : Uuid} (hid : id ∈ ids) : ∃ row, t.find? id = some row ∧ p row = true := by
  have hnodup : ((t.rows.filter fun row => p row && ids.contains (key row)).map key).Nodup :=
    t.nodup.sublist (List.filter_sublist.map key)
  have hsub : (t.rows.filter fun row => p row && ids.contains (key row)).map key ⊆ ids.dedup := by
    intro found hfound
    obtain ⟨row, hrow, rfl⟩ := List.mem_map.mp hfound
    have hkept := (List.mem_filter.mp hrow).2
    rw [Bool.and_eq_true, List.contains_iff_mem] at hkept
    exact List.mem_dedup.mpr hkept.2
  have hperm := (List.subperm_of_subset hnodup hsub).perm_of_length_le
    (by rw [List.length_map]; exact Nat.le_of_eq hcount.symm)
  obtain ⟨row, hrow, rfl⟩ := List.mem_map.mp (hperm.mem_iff.mpr (List.mem_dedup.mpr hid))
  obtain ⟨hstored, hkept⟩ := List.mem_filter.mp hrow
  rw [Bool.and_eq_true] at hkept
  exact ⟨row, Table.find?_key hstored, hkept.1⟩

/-- What `validate_label_component_ids` lets through. -/
structure SetsPass (db : Db) (projectId : Uuid) (labels components : List Uuid) : Prop where
  labels : labels = [] ∨ db.labelsInProject projectId labels = true
  components : components = [] ∨ db.componentsInProject projectId components = true

/-- What `validate_issue_associations` lets through. -/
structure AssociationsPass (db : Db) (projectId : Uuid) (epicId parentId milestoneId : Option Uuid) :
    Prop where
  milestone : milestoneId.isNone = true
  epic : ∀ id, epicId = some id → db.epicInProject projectId id = true
  parent : ∀ id, parentId = some id → (db.selectIssue projectId id).isSome = true

/-- One of the two forms of the fix version, or none. -/
def Exclusive (releaseVersionId : Option Uuid) (releaseText : Option String) : Prop :=
  (releaseVersionId.isSome && hasText releaseText) = false

/-- What `validate_issue_extras` lets through. -/
structure ExtrasPass (db : Db) (projectId : Uuid) (customerIds : List Uuid)
    (releaseVersionId : Option Uuid) (releaseText : Option String) : Prop where
  exclusive : Exclusive releaseVersionId releaseText
  customers : ∀ id ∈ customerIds, db.customerInProject projectId id = true
  version : ∀ id, releaseVersionId = some id → db.versionInProject projectId id = true

/-- What `validate_component_versions` lets through. -/
structure PairsPass (db : Db) (pairs : List ComponentVersion) (components : List Uuid) : Prop where
  distinct : checkPairs components [] pairs = .ok ()
  related : ∀ pair ∈ pairs, pair ∈ db.versionsOfComponents (pairs.map (·.componentId))
    (pairs.map (·.releaseVersionId))

section Pass

variable {db : Db} {projectId : Uuid} {components : List Uuid}

theorem SetsPass.label {labels : List Uuid} (h : SetsPass db projectId labels components)
    {id : Uuid} (hid : id ∈ labels) :
    ∃ label, db.catalog.labels.find? id = some label ∧ label.projectId = projectId := by
  rcases h.labels with rfl | hcount
  · exact absurd hid List.not_mem_nil
  · obtain ⟨label, hlabel, hproject⟩ := exists_of_count (beq_iff_eq.mp hcount) hid
    exact ⟨label, hlabel, beq_iff_eq.mp hproject⟩

theorem SetsPass.component {labels : List Uuid} (h : SetsPass db projectId labels components)
    {id : Uuid} (hid : id ∈ components) :
    ∃ component, db.catalog.components.find? id = some component ∧
      component.projectId = projectId := by
  rcases h.components with rfl | hcount
  · exact absurd hid List.not_mem_nil
  · obtain ⟨component, hcomponent, hproject⟩ := exists_of_count (beq_iff_eq.mp hcount) hid
    exact ⟨component, hcomponent, beq_iff_eq.mp hproject⟩

variable {pairs : List ComponentVersion}

/-- The pairs that the loop passes are for the components given. -/
theorem checkPairs_ok {seen : List Uuid} (h : checkPairs components seen pairs = .ok ()) :
    ∀ pair ∈ pairs, pair.componentId ∈ components := by
  induction pairs generalizing seen with
  | nil => exact fun _ hpair => absurd hpair List.not_mem_nil
  | cons pair pairs ih =>
    rw [checkPairs] at h
    split at h
    · contradiction
    · split at h
      · contradiction
      · rename_i hassigned
        intro other hother
        rcases List.mem_cons.mp hother with rfl | hother
        · simpa using hassigned
        · exact ih h other hother

/-- A pair that passes is of a version that its component ships in. -/
theorem PairsPass.shipped (h : PairsPass db pairs components) {pair : ComponentVersion}
    (hpair : pair ∈ pairs) :
    ∃ link ∈ db.componentReleases, link.1 = pair.componentId ∧
      ∃ version, db.version? pair.releaseVersionId = some version ∧ version.releaseId = link.2 := by
  obtain ⟨link, hlink, hversion⟩ := List.mem_flatMap.mp (h.related pair hpair)
  obtain ⟨version, hkept, rfl⟩ := List.mem_map.mp hversion
  obtain ⟨hstored, hkept⟩ := List.mem_filter.mp hkept
  simp only [Bool.and_eq_true, beq_iff_eq] at hkept
  exact ⟨link, hlink, rfl, version, Table.find?_key hstored, hkept.1.1⟩

end Pass

/-- A problem other than that of the fix version. -/
def Other (problem : Problem) : Prop := problem ≠ invalidFixVersion

theorem other_internal : Other internal := fun h => absurd (congrArg Problem.status h) (by decide)

theorem other_unprocessable {code detail : String} (h : code ≠ "invalid_fix_version") :
    Other (unprocessable code detail) := fun heq => h (congrArg Problem.code heq)

section Checks

variable {C : Choice → Prop} {db : Db}

theorem stays_require {ok : Bool} {code detail : String} (h : code ≠ "invalid_fix_version") :
    Stays Stmt.exec C (Aside db) (ensure ok (unprocessable code detail)) (fun _ => ok = true)
      Other :=
  stays_ensure fun _ => other_unprocessable h

variable {stmt : Stmt (Except DbError Bool)}

/-- An id that a list has, where the list is empty or counted. -/
theorem stays_counted {ids : List Uuid} {f : Db → Bool} {E : Problem → Prop}
    (hread : Reads stmt f) : Stays Stmt.exec C (Aside db)
      (orFalse (if ids.isEmpty then pure true else query stmt))
      (fun found => found = true → ids = [] ∨ f db = true) E := by
  split
  · rename_i hempty
    exact stays_orFalse (stays_pure fun _ => .inl (List.isEmpty_iff.mp hempty))
  · apply (stays_readTrue hread).mono
    · exact fun found hfound htrue => .inr (hfound htrue)
    · exact fun _ h => h

theorem stays_validateLabelComponentIds (projectId : Uuid) (labels components : List Uuid) :
    Stays Stmt.exec C (Aside db) (validateLabelComponentIds projectId labels components)
      (fun _ => SetsPass db projectId labels components) Other := by
  unfold validateLabelComponentIds labelsInProject componentsInProject
  refine stays_bind (stays_counted (reads_labelsInProject projectId labels))
    fun found hfound => ?_
  refine stays_bind (stays_require (by decide)) fun _ hlabel => ?_
  refine stays_bind (stays_counted (reads_componentsInProject projectId components))
    fun found' hfound' => ?_
  apply Stays.mono (stays_require (by decide))
  · exact fun _ hcomponent => ⟨hfound hlabel, hfound' hcomponent⟩
  · exact fun _ h => h

theorem stays_rejectIssueMilestoneWrite (milestoneId : Option Uuid) :
    Stays Stmt.exec C (Aside db) (rejectIssueMilestoneWrite milestoneId)
      (fun _ => milestoneId.isNone = true) Other := stays_require (by decide)

/-- A check that a read finds something, and what follows it. -/
theorem stays_found {α : Type} {f : Db → Bool} {problem : Problem} {next : Unit → Handler α}
    {P : α → Prop} {E : Problem → Prop} (hread : Reads stmt f) (hE : E problem)
    (hnext : f db = true → Stays Stmt.exec C (Aside db) (next ()) P E) :
    Stays Stmt.exec C (Aside db) (do
      let found ← orFalse (query stmt)
      let r ← ensure found problem
      next r) P E := by
  refine stays_bind (stays_readTrue hread) fun found hfound => ?_
  exact stays_bind (stays_ensure fun _ => hE) fun _ hok => hnext (hfound hok)

theorem stays_parent (projectId : Uuid) (parentId : Option Uuid) :
    Stays Stmt.exec C (Aside db) (match parentId with
      | none => pure ()
      | some id => do
          ensure (← orFalse (query (.issueInProject projectId id)))
            (unprocessable "invalid_association" "parent issue is not in this project"))
      (fun _ => ∀ id, parentId = some id → (db.selectIssue projectId id).isSome = true) Other := by
  cases parentId with
  | none => exact stays_pure fun _ h => absurd h (by simp)
  | some id =>
    refine stays_bind (stays_readTrue (reads_issueInProject projectId id)) fun found hfound => ?_
    apply Stays.mono (stays_require (by decide))
    · intro _ hok other hother
      rw [← Option.some.inj hother]
      exact hfound hok
    · exact fun _ h => h

theorem stays_validateIssueAssociations (projectId : Uuid)
    (epicId parentId milestoneId : Option Uuid) :
    Stays Stmt.exec C (Aside db)
      (validateIssueAssociations projectId epicId parentId milestoneId)
      (fun _ => AssociationsPass db projectId epicId parentId milestoneId) Other := by
  have hparent := @stays_parent C db projectId parentId
  unfold validateIssueAssociations
  refine stays_bind (stays_rejectIssueMilestoneWrite milestoneId) fun _ hmilestone => ?_
  cases epicId with
  | none =>
    apply hparent.mono
    · exact fun _ hparent => ⟨hmilestone, fun _ h => absurd h (by simp), hparent⟩
    · exact fun _ h => h
  | some id =>
    refine stays_found (reads_epicInProject projectId id) (other_unprocessable (by decide))
      fun hepic => ?_
    apply hparent.mono
    · intro _ hparent
      refine ⟨hmilestone, ?_, hparent⟩
      intro other hother
      rw [← Option.some.inj hother]
      exact hepic
    · exact fun _ h => h

/-- Of the checks, this one refuses the fix version, and only where both forms are given. -/
theorem stays_validateIssueExtras (projectId : Uuid) (customerIds : List Uuid)
    (releaseVersionId : Option Uuid) (releaseText : Option String) :
    Stays Stmt.exec C (Aside db)
      (validateIssueExtras projectId customerIds releaseVersionId releaseText)
      (fun _ => ExtrasPass db projectId customerIds releaseVersionId releaseText)
      (fun problem => problem = invalidFixVersion →
        (releaseVersionId.isSome && hasText releaseText) = true) := by
  have hother : ∀ problem, Other problem → problem = invalidFixVersion →
      (releaseVersionId.isSome && hasText releaseText) = true := fun _ h heq => absurd heq h
  unfold validateIssueExtras
  refine stays_bind (stays_ensure fun hboth _ => by simpa using hboth) fun _ hexclusive => ?_
  refine stays_bind (R := fun _ => ∀ id ∈ customerIds, db.customerInProject projectId id = true) ?_
    fun _ hcustomers => ?_
  · apply stays_forM
    intro id _
    refine stays_bind (stays_readTrue (reads_customerInProject projectId id)) fun found hfound => ?_
    apply Stays.mono (stays_require (by decide))
    · exact fun _ hok => hfound hok
    · exact hother
  · have hone : Exclusive releaseVersionId releaseText := (Bool.not_eq_true' _).mp hexclusive
    cases releaseVersionId with
    | none => exact stays_pure ⟨hone, hcustomers, fun _ h => absurd h (by simp)⟩
    | some id =>
      refine stays_bind (stays_readTrue (reads_versionInProject projectId id))
        fun found hfound => ?_
      apply Stays.mono (stays_require (by decide))
      · intro _ hok
        refine ⟨hone, hcustomers, ?_⟩
        intro other hother
        rw [← Option.some.inj hother]
        exact hfound hok
      · exact hother

theorem checkPairs_error {components seen : List Uuid} {pairs : List ComponentVersion}
    {problem : Problem} (h : checkPairs components seen pairs = .error problem) :
    Other problem := by
  induction pairs generalizing seen with
  | nil => contradiction
  | cons pair pairs ih =>
    rw [checkPairs] at h
    split at h
    · rw [← Except.error.inj h]
      exact other_unprocessable (by decide)
    · split at h
      · rw [← Except.error.inj h]
        exact other_unprocessable (by decide)
      · exact ih h

theorem stays_validateComponentVersions (pairs : List ComponentVersion) (components : List Uuid) :
    Stays Stmt.exec C (Aside db) (validateComponentVersions pairs components)
      (fun _ => PairsPass db pairs components) Other := by
  unfold validateComponentVersions
  split
  · rename_i hempty
    rw [List.isEmpty_iff.mp hempty]
    exact stays_pure ⟨rfl, fun _ hpair => absurd hpair List.not_mem_nil⟩
  · refine stays_bind (stays_decided fun _ => checkPairs_error) fun _ hpairs => ?_
    refine stays_bind (stays_orInternal (stays_read (reads_versionsOfComponents _ _))
      other_internal) fun allowed hallowed => ?_
    apply Stays.mono (stays_require (by decide))
    · intro _ hall
      refine ⟨hpairs, ?_⟩
      intro pair hpair
      have hrelated := List.all_eq_true.mp hall pair hpair
      rw [List.contains_iff_mem, hallowed] at hrelated
      exact hrelated
    · exact fun _ h => h

end Checks

/-! ## What a handler writes after its checks -/

/-- The issue as `get_issue` finds it. -/
def Db.fullIssue (db : Db) (projectId id : Uuid) : Option FullIssue :=
  (db.selectIssue projectId id).map fun row =>
    { toIssue := row
      labels := linkedIds db.issueLabels row.id
      components := linkedIds db.issueComponents row.id
      componentVersions := db.issueComponentVersions row.id
      customerIds := linkedIds db.issueCustomers row.id }

/-- What the checks of a patch let through; a cycle passes where its query fails. -/
structure PatchPasses (db : Db) (projectId : Uuid) (patch : UpdateIssueRequest) (old : FullIssue) :
    Prop where
  sets : SetsPass db projectId (patch.labels.getD []) (patch.components.getD [])
  pairs : ∀ pairs ∈ patch.componentVersions,
    PairsPass db pairs (patch.components.getD old.components)
  milestone : patch.milestoneId.join.isNone = true
  epic : ∀ id, (patch.over old.toIssue).epicId = some id → old.epicId ≠ some id →
    db.epicInProject projectId id = true
  parent : ∀ id, (patch.over old.toIssue).parentId = some id → old.parentId ≠ some id →
    (db.selectIssue projectId id).isSome = true
  other : ((patch.over old.toIssue).parentId != some old.id) = true
  extras : ExtrasPass db projectId (patch.customerIds.getD old.customerIds)
    (patch.over old.toIssue).releaseVersionId (patch.over old.toIssue).releaseText

/-- What a patch that passes its checks names is there. -/
structure Checked (db : Db) (patch : UpdateIssueRequest) (old : FullIssue) : Prop where
  labels : ∀ id ∈ patch.labels.getD [], (db.catalog.labels.find? id).isSome
  components : ∀ id ∈ patch.components.getD [], (db.catalog.components.find? id).isSome
  pairs : ∀ pairs ∈ patch.componentVersions, ∀ pair ∈ pairs,
    pair.componentId ∈ patch.components.getD old.components ∧
      (db.version? pair.releaseVersionId).isSome
  customers : ∀ id ∈ patch.customerIds.getD old.customerIds,
    (db.catalog.customers.find? id).isSome
  exclusive : ((patch.over old.toIssue).releaseVersionId.isSome &&
    hasText (patch.over old.toIssue).releaseText) = false

theorem PatchPasses.checked {db : Db} {projectId : Uuid} {patch : UpdateIssueRequest}
    {old : FullIssue} (h : PatchPasses db projectId patch old) : Checked db patch old where
  labels id hid := by
    obtain ⟨label, hlabel, -⟩ := h.sets.label hid
    rw [hlabel]
    rfl
  components id hid := by
    obtain ⟨component, hcomponent, -⟩ := h.sets.component hid
    rw [hcomponent]
    rfl
  pairs pairs hpairs pair hpair := by
    obtain ⟨-, -, -, version, hversion, -⟩ := (h.pairs pairs hpairs).shipped hpair
    refine ⟨checkPairs_ok (h.pairs pairs hpairs).distinct pair hpair, ?_⟩
    rw [hversion]
    rfl
  customers id hid := Option.isSome_of_any (h.extras.customers id hid)
  exclusive := h.extras.exclusive

section Patch

variable {C : Choice → Prop} {db : Db}

theorem stays_getIssue (projectId id : Uuid) : Stays Stmt.exec C (Aside db) (getIssue projectId id)
    (· = db.fullIssue projectId id) fun _ => True := by
  unfold getIssue
  refine stays_bind (stays_read (reads_selectIssue projectId id)) fun row hrow => ?_
  cases row with
  | none => exact stays_pure (by rw [Db.fullIssue, ← hrow]; rfl)
  | some row =>
    refine stays_bind (stays_read (reads_labelIds row.id)) fun labels hlabels => ?_
    refine stays_bind (stays_read (reads_componentIds row.id)) fun components hcomponents => ?_
    refine stays_bind (stays_read (reads_componentVersions row.id)) fun pairs hpairs => ?_
    refine stays_bind (stays_read (reads_customerIds row.id)) fun customers hcustomers => ?_
    apply stays_pure
    rw [Db.fullIssue, ← hrow, hlabels, hcomponents, hpairs, hcustomers]
    rfl

theorem other_notFound : Other notFound := fun h => absurd (congrArg Problem.status h) (by decide)

theorem stays_readOld (projectId id : Uuid) : Stays Stmt.exec C (Aside db) (readOld projectId id)
    (fun old => db.fullIssue projectId id = some old) Other := by
  unfold readOld
  refine stays_bind (stays_attempt (stays_getIssue projectId id) (stays_throw other_notFound))
    fun found hfound => ?_
  cases found with
  | none => exact stays_throw other_notFound
  | some old => exact stays_pure hfound.symm

theorem stays_validateChanged (projectId : Uuid) (old : Issue) (w : IssueWrite) :
    Stays Stmt.exec C (Aside db) (validateChanged projectId old w)
      (fun _ => (∀ id, w.epicId = some id → old.epicId ≠ some id →
          db.epicInProject projectId id = true) ∧
        ∀ id, w.parentId = some id → old.parentId ≠ some id →
          (db.selectIssue projectId id).isSome = true) Other := by
  have hchanged : ∀ {new before : Option Uuid} {id : Uuid}, new = some id → before ≠ some id →
      (new != before) = true := by
    rintro _ before id rfl hbefore
    simpa using hbefore.symm
  unfold validateChanged
  split
  · apply (stays_validateIssueAssociations projectId _ _ _).mono
    · intro _ hpass
      refine ⟨?_, ?_⟩
      · exact fun id hid hold => hpass.epic id (by rw [if_pos (hchanged hid hold), hid])
      · exact fun id hid hold => hpass.parent id (by rw [if_pos (hchanged hid hold), hid])
    · exact fun _ h => h
  · rename_i hsame
    simp only [Bool.or_eq_true, not_or, Bool.not_eq_true] at hsame
    refine stays_pure ⟨?_, ?_⟩
    · intro id hid hold
      have hnew := hchanged hid hold
      rw [hsame.1] at hnew
      contradiction
    · intro id hid hold
      have hnew := hchanged hid hold
      rw [hsame.2] at hnew
      contradiction

theorem stays_rejectCycle (projectId : Uuid) (old : Issue) (w : IssueWrite) :
    Stays Stmt.exec C (Aside db) (rejectCycle projectId old w) (fun _ => True) Other := by
  unfold rejectCycle
  cases w.parentId with
  | none => exact stays_pure trivial
  | some parentId =>
    dsimp only
    split
    · refine stays_bind (stays_readTrue (reads_parentChainContains projectId parentId old.id))
        fun _ _ => ?_
      exact Stays.mono (stays_require (by decide)) (fun _ _ => trivial) fun _ h => h
    · exact stays_pure trivial

theorem stays_validatePatch (projectId : Uuid) (patch : UpdateIssueRequest) (old : FullIssue) :
    Stays Stmt.exec C (Aside db) (validatePatch projectId patch old)
      (fun _ => PatchPasses db projectId patch old) (fun problem => problem = invalidFixVersion →
        ((patch.over old.toIssue).releaseVersionId.isSome &&
          hasText (patch.over old.toIssue).releaseText) = true) := by
  have hother : ∀ problem, Other problem → problem = invalidFixVersion →
      ((patch.over old.toIssue).releaseVersionId.isSome &&
        hasText (patch.over old.toIssue).releaseText) = true := fun _ h heq => absurd heq h
  have hpass : ∀ {α : Type} {p : Handler α} {P : α → Prop}, Stays Stmt.exec C (Aside db) p P Other →
      Stays Stmt.exec C (Aside db) p P _ := fun h => h.mono (fun _ h => h) hother
  unfold validatePatch
  refine stays_bind (hpass (stays_validateLabelComponentIds projectId _ _)) fun _ hsets => ?_
  -- the continuation is the same for both forms of the pairs
  suffices hrest : (∀ pairs ∈ patch.componentVersions,
      PairsPass db pairs (patch.components.getD old.components)) →
      Stays Stmt.exec C (Aside db) (do
        rejectIssueMilestoneWrite patch.milestoneId.join
        let w := patch.over old.toIssue
        validateChanged projectId old.toIssue w
        ensure (w.parentId != some old.id)
          (unprocessable "invalid_association" "an issue cannot be its own parent")
        rejectCycle projectId old.toIssue w
        validateIssueExtras projectId (patch.customerIds.getD old.customerIds) w.releaseVersionId
          w.releaseText) (fun _ => PatchPasses db projectId patch old) _ by
    cases hpairs : patch.componentVersions with
    | none => exact hrest (by simp [hpairs])
    | some pairs =>
      refine stays_bind (hpass (stays_validateComponentVersions pairs _)) fun _ hchecked => ?_
      apply hrest
      intro pairs' hpairs'
      rw [hpairs] at hpairs'
      rw [← Option.some.inj hpairs']
      exact hchecked
  intro hpairs
  refine stays_bind (hpass (stays_rejectIssueMilestoneWrite _)) fun _ hmilestone => ?_
  refine stays_bind (hpass (stays_validateChanged projectId _ _)) fun _ hchanged => ?_
  refine stays_bind (hpass (stays_require (by decide))) fun _ hown => ?_
  refine stays_bind (hpass (stays_rejectCycle projectId _ _)) fun _ _ => ?_
  apply (stays_validateIssueExtras projectId _ _ _).mono
  · exact fun _ hextras => ⟨hsets, hpairs, hmilestone, hchanged.1, hchanged.2, hown, hextras⟩
  · exact fun _ h => h

theorem checkIfMatch_error {header : Option String} {current : String} {problem : Problem}
    (h : checkIfMatch header current = .error problem) : Other problem := by
  unfold checkIfMatch at h
  split at h
  · rw [← Except.error.inj h]
    exact fun h => absurd (congrArg Problem.status h) (by decide)
  · split at h
    · contradiction
    · rw [← Except.error.inj h]
      exact fun h => absurd (congrArg Problem.status h) (by decide)

theorem parsePatch_ok {α : Type} {body : Except JsonRejection α} {patch : α}
    (h : parsePatch body = .ok patch) : body = .ok patch := by
  cases body with
  | ok req => rw [Except.ok.inj h]
  | error rejection => cases rejection <;> contradiction

theorem parsePatch_error {α : Type} {body : Except JsonRejection α} {problem : Problem}
    (h : parsePatch body = .error problem) : Other problem := by
  have hstatus : problem.status = 400 := by
    cases body with
    | ok req => contradiction
    | error rejection => cases rejection <;> rw [← Except.error.inj h]
  exact fun heq => absurd (hstatus.symm.trans (congrArg Problem.status heq)) (by decide)

/-- The patch comes to its writes: it is allowed, and its tag is that of the
issue as it is found. -/
structure Comes (db : Db) (ctx : Context) (req : UpdateRequest) (patch : UpdateIssueRequest)
    (old : FullIssue) : Prop where
  allowed : ctx.allowed = true
  body : req.body = .ok patch
  found : db.fullIssue ctx.projectId req.id = some old
  matched : checkIfMatch req.ifMatch (etag old.id old.version) = .ok ()

/-- A patch is refused with nothing written, or comes to its writes. -/
theorem ensures_updateIssue {ctx : Context} {req : UpdateRequest} {Q : Answer → Db → Prop}
    {E : Problem → Db → Prop}
    (hrefused : ∀ s problem, Aside db s → (problem = invalidFixVersion →
      ∃ patch old, Comes db ctx req patch old ∧ ((patch.over old.toIssue).releaseVersionId.isSome &&
        hasText (patch.over old.toIssue).releaseText) = true) → E problem s)
    (hwrites : ∀ s patch old, Aside db s → Comes db ctx req patch old →
      PatchPasses db ctx.projectId patch old →
      Ensures Stmt.exec C (writePatch ctx.projectId patch old) Q E s) :
    Ensures Stmt.exec C (updateIssue ctx req) Q E db := by
  have hother : ∀ problem s, Aside db s → Other problem → E problem s :=
    fun problem s hs h => hrefused s problem hs fun heq => absurd heq h
  unfold updateIssue
  refine (stays_ensure (E := Other) fun _ => ?_).ensures (Aside.refl db) ?_ hother
  · exact fun h => absurd (congrArg Problem.status h) (by decide)
  intro _ s hs hallowed
  refine (stays_decided fun _ => parsePatch_error).ensures hs ?_ hother
  intro patch s hs hpatch
  refine (stays_readOld ctx.projectId req.id).ensures hs ?_ hother
  intro old s hs hfound
  refine (stays_decided fun _ => checkIfMatch_error).ensures hs ?_ hother
  intro _ s hs hmatched
  have hcomes : Comes db ctx req patch old := ⟨hallowed, parsePatch_ok hpatch, hfound, hmatched⟩
  refine (stays_validatePatch ctx.projectId patch old).ensures hs ?_ ?_
  · exact fun _ s hs hpasses => hwrites s patch old hs hcomes hpasses
  · exact fun problem s hs hproblem => hrefused s problem hs fun heq =>
      ⟨patch, old, hcomes, hproblem heq⟩

end Patch

end IntelliPilot.Issues
