import IntelliPilot.Issues.Membership
import IntelliPilot.Issues.Patches

/-! # What a request names

A request to the issue handlers names labels, components, customers, an epic, a
parent, a release version, the versions of components and four items of the
taxonomy. The checks let the items of the taxonomy pass unseen, and a new issue
its component versions.
-/

namespace IntelliPilot.Issues

open Http Statement
open Imports (Uuid TaxonomyKind)
open Db (Aside Grows Inside)

/-! ## New issues -/

/-- A new issue names rows of its project only. -/
structure CreateIssueRequest.Within (req : CreateIssueRequest) (db : Db) (projectId : Uuid) : Prop where
  items : db.ItemsInside projectId req.statusId req.typeId req.priorityId req.sizeId
  epic : ∀ id, req.epicId = some id → db.EpicOf projectId id
  parent : ∀ id, req.parentId = some id → db.IssueOf projectId id
  version : ∀ id, req.releaseVersionId = some id → db.VersionOf projectId id
  labels : ∀ id ∈ req.labels, db.LabelOf projectId id
  components : ∀ id ∈ req.components, db.ComponentOf projectId id
  customers : ∀ id ∈ req.customerIds, db.CustomerOf projectId id
  pairs : ∀ pair ∈ req.componentVersions, db.ComponentOf projectId pair.componentId ∧
    db.VersionOf projectId pair.releaseVersionId

/-- What a new issue names unseen by the checks is of its project. -/
structure CreateIssueRequest.Careful (req : CreateIssueRequest) (db : Db) (projectId : Uuid) :
    Prop where
  items : db.ItemsInside projectId req.statusId req.typeId req.priorityId req.sizeId
  pairs : ∀ pair ∈ req.componentVersions, db.ComponentOf projectId pair.componentId ∧
    db.VersionOf projectId pair.releaseVersionId

variable {db : Db} {projectId : Uuid}

theorem epicOf_of_inProject {id : Uuid} (h : db.epicInProject projectId id = true) :
    db.EpicOf projectId id := by
  obtain ⟨epic, hepic, hlive⟩ := (Option.any_eq_true _ _).mp h
  rw [Bool.and_eq_true, beq_iff_eq] at hlive
  exact ⟨epic, hepic, hlive.1⟩

theorem issueOf_of_select {id : Uuid} (h : (db.selectIssue projectId id).isSome = true) :
    db.IssueOf projectId id := by
  obtain ⟨issue, hissue⟩ := Option.isSome_iff_exists.mp h
  obtain ⟨hfound, hlive⟩ := Option.filter_eq_some_iff.mp hissue
  rw [Db.inProject, Bool.and_eq_true, beq_iff_eq] at hlive
  exact ⟨issue, hfound, hlive.1⟩

theorem customerOf_of_inProject {id : Uuid} (h : db.customerInProject projectId id = true) :
    db.CustomerOf projectId id := by
  obtain ⟨customer, hcustomer, hproject⟩ := (Option.any_eq_true _ _).mp h
  exact ⟨customer, hcustomer, beq_iff_eq.mp hproject⟩

/-- The checks see to the rest. -/
theorem CreateIssueRequest.Careful.within {req : CreateIssueRequest} (h : req.Careful db projectId)
    (hpasses : NewPasses db projectId req) :
    req.Within db projectId where
  items := h.items
  epic id hid := epicOf_of_inProject (hpasses.associations.epic id hid)
  parent id hid := issueOf_of_select (hpasses.associations.parent id hid)
  version id hid := hpasses.extras.version id hid
  labels _ hid := hpasses.sets.label hid
  components _ hid := hpasses.sets.component hid
  customers id hid := customerOf_of_inProject (hpasses.extras.customers id hid)
  pairs := h.pairs

/-! ## Patches -/

/-- A patch names rows of its project only. -/
structure UpdateIssueRequest.Within (patch : UpdateIssueRequest) (db : Db) (projectId : Uuid) :
    Prop where
  status : ∀ ref, patch.statusId = some ref → db.ItemOf projectId .issueStatus ref
  type : ∀ ref, patch.typeId = some ref → db.ItemOf projectId .issueType ref
  priority : ∀ ref, patch.priorityId = some ref → db.ItemOf projectId .priority ref
  size : ∀ ref, patch.sizeId = some ref → db.ItemOf projectId .size ref
  epic : ∀ id, patch.epicId = some (some id) → db.EpicOf projectId id
  parent : ∀ id, patch.parentId = some (some id) → db.IssueOf projectId id
  version : ∀ id, patch.releaseVersionId = some (some id) → db.VersionOf projectId id
  labels : ∀ id ∈ patch.labels.getD [], db.LabelOf projectId id
  components : ∀ id ∈ patch.components.getD [], db.ComponentOf projectId id
  customers : ∀ id ∈ patch.customerIds.getD [], db.CustomerOf projectId id
  pairs : ∀ pairs ∈ patch.componentVersions, ∀ pair ∈ pairs,
    db.ComponentOf projectId pair.componentId ∧ db.VersionOf projectId pair.releaseVersionId

/-- The items of the taxonomy that a patch names are of its project and their kinds. -/
structure UpdateIssueRequest.Careful (patch : UpdateIssueRequest) (db : Db) (projectId : Uuid) :
    Prop where
  status : ∀ ref, patch.statusId = some ref → db.ItemOf projectId .issueStatus ref
  type : ∀ ref, patch.typeId = some ref → db.ItemOf projectId .issueType ref
  priority : ∀ ref, patch.priorityId = some ref → db.ItemOf projectId .priority ref
  size : ∀ ref, patch.sizeId = some ref → db.ItemOf projectId .size ref

section Patch

variable {db : Db} {projectId id : Uuid} {patch : UpdateIssueRequest} {old : FullIssue}

/-- The row of an issue that is found. -/
theorem fullIssue_found (h : db.fullIssue projectId id = some old) :
    db.issue? id = some old.toIssue ∧ old.id = id ∧ old.projectId = projectId ∧
      old.components = Db.linkedIds db.issueComponents old.id ∧
      old.customerIds = Db.linkedIds db.issueCustomers old.id := by
  obtain ⟨row, hrow, rfl⟩ := Option.map_eq_some_iff.mp h
  obtain ⟨hfound, hlive⟩ := Option.filter_eq_some_iff.mp hrow
  rw [Db.inProject, Bool.and_eq_true, beq_iff_eq] at hlive
  exact ⟨hfound, Table.key_of_find? hfound, hlive.1, rfl, rfl⟩

theorem mem_linkedIds {links : Imports.Links} {other : Uuid} :
    other ∈ Db.linkedIds links id ↔ (id, other) ∈ links := by
  simp only [Db.linkedIds, List.mem_mergeSort, List.mem_map, List.mem_filter, beq_iff_eq]
  constructor
  · rintro ⟨⟨_, _⟩, ⟨hlink, rfl⟩, rfl⟩
    exact hlink
  · exact fun hlink => ⟨(id, other), ⟨hlink, rfl⟩, rfl⟩

/-- The issue's own components are of its project. -/
theorem componentOf_old (hinside : db.Inside) (h : db.fullIssue projectId id = some old)
    {component : Uuid} (hcomponent : component ∈ old.components) :
    db.ComponentOf projectId component := by
  obtain ⟨hfound, hid, hproject, hcomponents, -⟩ := fullIssue_found h
  rw [hcomponents] at hcomponent
  obtain ⟨project, hissue, hof⟩ := hinside.components _ (mem_linkedIds.mp hcomponent)
  have hown : db.IssueOf projectId old.id := ⟨old.toIssue, by rw [hid]; exact hfound, hproject⟩
  rw [Db.issueOf_unique hown hissue]
  exact hof

theorem componentOf_unique {project project' component : Uuid}
    (h : db.ComponentOf project component) (h' : db.ComponentOf project' component) :
    project = project' := by
  obtain ⟨row, hrow, rfl⟩ := h
  obtain ⟨row', hrow', rfl⟩ := h'
  rw [hrow] at hrow'
  rw [Option.some.inj hrow']

/-- A version that a component of the project ships in is of the project. -/
theorem versionOf_shipped {pairs : List ComponentVersion} {components : List Uuid}
    (hinside : db.Inside) (hpairs : PairsPass db pairs components)
    (hcomponents : ∀ component ∈ components, db.ComponentOf projectId component)
    {pair : ComponentVersion} (hpair : pair ∈ pairs) :
    db.ComponentOf projectId pair.componentId ∧ db.VersionOf projectId pair.releaseVersionId := by
  have hcomponent := hcomponents _ (checkPairs_ok hpairs.distinct pair hpair)
  refine ⟨hcomponent, ?_⟩
  obtain ⟨link, hlink, hof, version, hversion, hrelease⟩ := hpairs.shipped hpair
  obtain ⟨project, hshipped, hproject⟩ := hinside.ships link hlink
  rw [hof] at hshipped
  rw [Db.VersionOf, Db.versionInProject, hversion, Option.any_some, hrelease,
    componentOf_unique hcomponent hshipped]
  exact hproject

/-- The checks see to the rest of a patch. -/
theorem UpdateIssueRequest.Careful.within (h : patch.Careful db projectId) (hinside : db.Inside)
    (hfound : db.fullIssue projectId id = some old)
    (hpasses : PatchPasses db projectId patch old) : patch.Within db projectId := by
  obtain ⟨hissue, hid, hproject, -, -⟩ := fullIssue_found hfound
  have hrow := hinside.rows old.toIssue (Table.mem_of_find? hissue)
  rw [hproject] at hrow
  refine ⟨h.status, h.type, h.priority, h.size, ?_, ?_, ?_, fun _ => hpasses.sets.label,
    fun _ => hpasses.sets.component, ?_, ?_⟩
  · intro epicId hepic
    have hnew : (patch.over old.toIssue).epicId = some epicId := by
      simp [UpdateIssueRequest.over, hepic]
    by_cases hsame : old.epicId = some epicId
    · exact hrow.epic epicId hsame
    · exact epicOf_of_inProject (hpasses.epic epicId hnew hsame)
  · intro parentId hparent
    have hnew : (patch.over old.toIssue).parentId = some parentId := by
      simp [UpdateIssueRequest.over, hparent]
    by_cases hsame : old.parentId = some parentId
    · exact hrow.parent parentId hsame
    · exact issueOf_of_select (hpasses.parent parentId hnew hsame)
  · intro versionId hversion
    apply hpasses.extras.version
    simp [UpdateIssueRequest.over, hversion]
  · intro customer hcustomer
    cases hcustomers : patch.customerIds with
    | none =>
      rw [hcustomers] at hcustomer
      exact absurd hcustomer List.not_mem_nil
    | some ids =>
      apply customerOf_of_inProject
      apply hpasses.extras.customers
      rw [hcustomers] at hcustomer ⊢
      exact hcustomer
  · intro pairs hpairs pair hpair
    apply versionOf_shipped hinside (hpasses.pairs pairs hpairs) ?_ hpair
    intro component hcomponent
    cases hcomponents : patch.components with
    | none =>
      rw [hcomponents] at hcomponent
      exact componentOf_old hinside hfound hcomponent
    | some ids =>
      apply hpasses.sets.component
      rw [hcomponents] at hcomponent ⊢
      exact hcomponent

/-- The row that a patch writes names rows of its project only. -/
theorem rowInside_over (h : patch.Within db projectId) (hinside : db.Inside)
    (hfound : db.fullIssue projectId id = some old) :
    db.RowInside projectId (patch.over old.toIssue) := by
  obtain ⟨hissue, -, hproject, -, -⟩ := fullIssue_found hfound
  have hrow := hinside.rows old.toIssue (Table.mem_of_find? hissue)
  rw [hproject] at hrow
  have hitem : ∀ {given : Option (Option Uuid)} {stored : Option Uuid} {kind : TaxonomyKind},
      (∀ ref, given = some ref → db.ItemOf projectId kind ref) → db.ItemOf projectId kind stored →
        db.ItemOf projectId kind (given.getD stored) := by
    intro given stored kind hgiven hstored
    cases given with
    | none => exact hstored
    | some ref => exact hgiven ref rfl
  have hcolumn : ∀ {given : Option (Option Uuid)} {stored : Option Uuid} {P : Uuid → Prop},
      (∀ other, given = some (some other) → P other) → (∀ other, stored = some other → P other) →
        ∀ other, given.getD stored = some other → P other := by
    intro given stored P hgiven hstored other hother
    cases given with
    | none => exact hstored other hother
    | some ref => exact hgiven other (congrArg some hother)
  refine ⟨⟨?_, ?_, ?_, ?_⟩, ?_, ?_, ?_⟩
  · exact hitem h.status hrow.items.status
  · exact hitem h.type hrow.items.type
  · exact hitem h.priority hrow.items.priority
  · exact hitem h.size hrow.items.size
  · exact hcolumn h.epic hrow.epic
  · exact hcolumn h.parent hrow.parent
  · exact hcolumn h.version hrow.version

end Patch

/-! ## Handlers -/

/-- References are inside, and what there was is there. -/
structure Kept (db s : Db) : Prop where
  inside : s.Inside
  grows : Grows db s

theorem Kept.of_aside {s : Db} (hinside : db.Inside) (h : Aside db s) : Kept db s :=
  ⟨Db.inside_of_aside h hinside, Grows.of_aside h⟩

theorem settled_kept (db : Db) : Settled (Kept db) := fun _ _ haside h =>
  ⟨Db.inside_of_aside haside h.inside, h.grows.trans (Grows.of_aside haside)⟩

theorem SameTables.aside {s s' : Db} (h : SameTables s s') : Aside s s' := by
  rw [h]
  exact ⟨rfl, rfl, rfl, rfl, rfl, rfl, rfl, rfl, rfl, rfl⟩

/-- References stay inside; where `W` does not hold, an error is the answer and
nothing has changed. -/
def Contains {α : Type} (C : Choice → Prop) (p : Handler α) (W : Prop) (db s : Db) : Prop :=
  Ensures Stmt.exec C p (fun _ s => Kept db s ∧ W)
    (fun _ s => Kept db s ∧ (W ∨ SameTables db s)) s

section Handlers

variable {C : Choice → Prop} {α β : Type} {W : Prop} {db s : Db}

theorem contains_of_leaves {p : Handler α} (hW : W) (h : Leaves C p (Kept db) s) :
    Contains C p W db s := Ensures.mono h (fun _ _ h => ⟨h, hW⟩) fun _ _ h => ⟨h, .inl hW⟩

/-- Reads leave the tables as they are. -/
theorem ensures_reads {ε : Type} {p : ExceptT ε (Prog Stmt) α}
    (honly : p.run.Only (·.reads = true)) (hs : SameTables db s) :
    Ensures Stmt.exec C p (fun _ s => SameTables db s) (fun _ s => SameTables db s) s := by
  have hends : p.run.Ends Stmt.exec C (fun _ s => SameTables db s) s :=
    Prog.ends_of_only (fun _ choice _ hreads h => h.trans (sameTables_reads hreads choice _)) honly hs
  apply hends.mono
  rintro (e | a) s h
  · exact h
  · exact h

/-- A check, and what follows it where it passes. -/
theorem Stays.contains {p : Handler α} {f : α → Handler β} {P : α → Prop} {E : Problem → Prop}
    (hp : Stays Stmt.exec C (Aside db) p P E) (honly : p.run.Only (·.reads = true))
    (hinside : db.Inside) (hs : SameTables db s)
    (hf : ∀ a s, SameTables db s → P a → Contains C (f a) W db s) :
    Contains C (p >>= f) W db s := by
  unfold Contains
  rw [ensures_bind]
  apply Prog.Ends.mono ((hp s hs.aside).and (ensures_reads honly hs))
  rintro outcome s' ⟨houtcome, hsame⟩
  cases outcome with
  | ok a => exact hf a s' hsame houtcome.2
  | error problem => exact ⟨.of_aside hinside hsame.aside, .inr hsame⟩

end Handlers

/-! ## Creating -/

section Create

variable {C : Choice → Prop} {β : Type} {db s : Db} {projectId : Uuid}

variable {req : CreateIssueRequest}

theorem CreateIssueRequest.Within.grows {db' : Db} (h : req.Within db projectId)
    (hgrows : Grows db db') : req.Within db' projectId where
  items := hgrows.itemsInside h.items
  epic id hid := hgrows.epics _ _ (h.epic id hid)
  parent id hid := hgrows.issues _ _ (h.parent id hid)
  version id hid := hgrows.versionOf (h.version id hid)
  labels id hid := hgrows.labelOf (h.labels id hid)
  components id hid := hgrows.componentOf (h.components id hid)
  customers id hid := hgrows.customerOf (h.customers id hid)
  pairs pair hpair := ⟨hgrows.componentOf (h.pairs pair hpair).1,
    hgrows.versionOf (h.pairs pair hpair).2⟩

theorem itemOf_newStatusId (db : Db) (projectId : Uuid) :
    db.ItemOf projectId .issueStatus (db.catalog.newStatusId projectId) := by
  intro id hid
  obtain ⟨item, hitem, rfl⟩ := Option.map_eq_some_iff.mp hid
  obtain ⟨hstored, hkind⟩ := List.mem_filter.mp (List.mem_of_find?_eq_some hitem)
  rw [Bool.and_eq_true, beq_iff_eq, beq_iff_eq] at hkind
  exact ⟨item, Table.find?_key hstored, hkind.1, hkind.2⟩

/-- A row that names rows of its project is written inside. -/
theorem ensures_insertRow_inside {ownerId : Uuid} {w : IssueWrite} (hkept : Kept db s)
    (hw : s.RowInside projectId w) : Ensures Stmt.exec C (insertRow projectId ownerId w)
      (fun row s' => Kept db s' ∧ s'.IssueOf projectId row.id) (fun _ s' => Kept db s') s := by
  unfold insertRow
  have halloc : Stays Stmt.exec C (Aside s) (query (.allocRef projectId)) (fun _ => True)
      fun _ => True := stays_quiet (settled_aside s) (aside_exec (aside_allocRef projectId))
  have hsettled : ∀ s', Aside s s' → Kept db s' := fun s' h => settled_kept db s s' h hkept
  refine halloc.ensures (Aside.refl s) ?_ fun _ s' h _ => hsettled s' h
  intro reference s' hs' _
  have hstatus : Stays Stmt.exec C (Aside s) (query (.newStatusId projectId))
      (fun statusId => statusId = s.catalog.newStatusId projectId) fun _ => True :=
    stays_read (reads_newStatusId projectId)
  suffices hinsert : ∀ statusId s', Aside s s' → s.ItemOf projectId .issueStatus statusId →
      Ensures Stmt.exec C (query (.insertIssue projectId ownerId reference
        { w with statusId := statusId })) _ _ s' by
    cases hstatusId : w.statusId with
    | some id => exact hinsert (some id) s' hs' (hstatusId ▸ hw.items.status)
    | none =>
      refine hstatus.ensures hs' ?_ fun _ s' h _ => hsettled s' h
      rintro _ s' hs' rfl
      exact hinsert _ s' hs' (itemOf_newStatusId s projectId)
  intro statusId s' hs' hitem
  have hrow : s.RowInside projectId { w with statusId := statusId } :=
    ⟨⟨hitem, hw.items.type, hw.items.priority, hw.items.size⟩, hw.epic, hw.parent, hw.version⟩
  rw [ensures_query]
  intro choice _
  have hlater := hs'.trans (aside_elapse s' choice.elapse)
  unfold Stmt.exec
  dsimp only
  split
  · exact hsettled _ hlater
  · generalize hresult : Stmt.effect (.insertIssue projectId ownerId reference _) _ = result
    obtain ⟨outcome, db'⟩ := result
    cases outcome with
    | error e =>
      rw [Db.insertIssue_refused hresult]
      exact hsettled _ hlater
    | ok row =>
      obtain ⟨hinside, hgrows, hof⟩ := Db.inside_insertIssue hresult
        (Db.inside_of_aside hlater hkept.inside) ((Grows.of_aside hlater).rowInside hrow)
      exact ⟨⟨hinside, (hsettled _ hlater).grows.trans hgrows⟩, hof⟩

/-- What holds while the sets of an issue are replaced. -/
def Holding (db : Db) (projectId id : Uuid) (s : Db) : Prop := Kept db s ∧ s.IssueOf projectId id

theorem settled_holding (db : Db) (projectId id : Uuid) : Settled (Holding db projectId id) :=
  (settled_kept db).and fun _ _ haside h => (Grows.of_aside haside).issues _ _ h

variable {id : Uuid}

theorem Holding.step {s' : Db} (h : Holding db projectId id s) (hs : s'.Inside ∧ Grows s s') :
    Holding db projectId id s' :=
  ⟨⟨hs.1, h.1.grows.trans hs.2⟩, hs.2.issues _ _ h.2⟩

/-- Sets of rows of the project are replaced inside. -/
theorem leaves_replaceSets_inside {labels components customerIds : Option (List Uuid)}
    {pairs : Option (List ComponentVersion)}
    (hlabels : ∀ ids ∈ labels, ∀ label ∈ ids, db.LabelOf projectId label)
    (hcomponents : ∀ ids ∈ components, ∀ component ∈ ids, db.ComponentOf projectId component)
    (hpairs : ∀ pairs' ∈ pairs, ∀ pair ∈ pairs', db.ComponentOf projectId pair.componentId ∧
      db.VersionOf projectId pair.releaseVersionId)
    (hcustomers : ∀ ids ∈ customerIds, ∀ customer ∈ ids, db.CustomerOf projectId customer)
    (hs : Holding db projectId id s) :
    Leaves C (replaceSets id labels components pairs customerIds) (Holding db projectId id) s := by
  have hI := settled_holding db projectId id
  apply (ensures_replaceSets hI hI hI ?_ ?_ ?_ ?_ hs).mono
  · exact fun _ _ h => h
  · exact fun _ _ h => h.2
  all_goals refine .of_within (fun _ h => h) (fun _ _ h => h) ?_
  · intro ids hids s s' h hset
    exact h.step (Db.inside_setIssueLabels hset h.1.inside h.2
      fun label hlabel => h.1.grows.labelOf (hlabels ids hids label hlabel))
  · intro ids hids s s' h hset
    exact h.step (Db.inside_setIssueComponents hset h.1.inside h.2
      fun component hcomponent => h.1.grows.componentOf (hcomponents ids hids component hcomponent))
  · intro pairs' hpairs' s s' h hset
    exact h.step (Db.inside_setIssueComponentVersions hset h.1.inside h.2 fun pair hpair =>
      ⟨h.1.grows.componentOf (hpairs pairs' hpairs' pair hpair).1,
        h.1.grows.versionOf (hpairs pairs' hpairs' pair hpair).2⟩)
  · intro ids hids s s' h hset
    exact h.step (Db.inside_setIssueCustomers hset h.1.inside h.2
      fun customer hcustomer => h.1.grows.customerOf (hcustomers ids hids customer hcustomer))

theorem leaves_fillSets_inside (hreq : req.Within db projectId) (hs : Holding db projectId id s) :
    Leaves C (fillSets id req) (Holding db projectId id) s := by
  have hgiven : ∀ {ids : List Uuid} {P : Uuid → Prop}, (∀ other ∈ ids, P other) →
      ∀ ids' ∈ some ids, ∀ other ∈ ids', P other := by
    intro ids P h ids' hids'
    rw [← Option.some.inj hids']
    exact h
  refine leaves_replaceSets_inside (hgiven hreq.labels) (hgiven hreq.components) ?_
    (hgiven hreq.customers) hs
  intro pairs hpairs
  rw [← Option.some.inj hpairs]
  exact hreq.pairs

variable {ctx : Context}

/-- The row of a new issue that names rows of its project. -/
theorem leaves_insertRow_inside {next : Issue → Handler β} (hreq : req.Within db ctx.projectId)
    (hkept : Kept db s)
    (h : ∀ row s', Holding db ctx.projectId row.id s' → Leaves C (next row) (Kept db) s') :
    Leaves C (do next (← orInternal (insertRow ctx.projectId ctx.actorId (writeFromCreate req))))
      (Kept db) s := by
  have hreq' := hreq.grows hkept.grows
  have hrow : s.RowInside ctx.projectId (writeFromCreate req) :=
    ⟨hreq'.items, hreq'.epic, hreq'.parent, hreq'.version⟩
  unfold Leaves orInternal
  rw [ensures_bind, ensures_attempt]
  apply (ensures_insertRow_inside hkept hrow).mono
  · exact fun row s' h' => h row s' h'
  · exact fun _ _ h => h

/-- The sets of a new issue, and what follows them. -/
theorem leaves_fillSets_next {next : Unit → Handler β} (hreq : req.Within db projectId)
    (hs : Holding db projectId id s) (hnext : ∀ s, Kept db s → Leaves C (next ()) (Kept db) s) :
    Leaves C (fillSets id req >>= next) (Kept db) s := by
  refine leaves_fillSets (Ensures.mono (leaves_fillSets_inside hreq hs) ?_ ?_) hnext
  · exact fun _ _ h => h.1
  · exact fun _ _ h => h.1

theorem leaves_createNew_inside {key : Option String} (hreq : req.Within db ctx.projectId)
    (hkept : Kept db s) : Leaves C (createNew ctx key req) (Kept db) s := by
  have hI := settled_kept db
  unfold createNew
  apply leaves_insertRow_inside hreq hkept
  intro row s' hs'
  refine Stays.leaves ((settled_holding db ctx.projectId row.id).stays (P := fun _ => True)
    fun _ => (stays_validateComponentVersions _ _).mono (fun _ _ => trivial) fun _ h => h)
    hs' ?_ fun _ hs => hs.1
  intro _ s' hs' _
  apply leaves_fillSets_next hreq hs'
  intro s hs
  refine Stays.leaves (hI.stays (stays_reread ctx.projectId row.id)) hs ?_ fun _ hs => hs
  intro full s hs _
  refine Stays.leaves (hI.stays (stays_remember ctx.actorId key _ full)) hs ?_ fun _ hs => hs
  exact fun _ _ hs _ => hs

theorem leaves_createItems_inside {items : List CreateIssueRequest}
    (hitems : ∀ req ∈ items, req.Within db ctx.projectId) (hkept : Kept db s) :
    Leaves C (createItems ctx items) (Kept db) s := by
  induction items generalizing s with
  | nil => exact hkept
  | cons req rest ih =>
    rw [createItems]
    apply leaves_insertRow_inside (hitems req List.mem_cons_self) hkept
    intro row s' hs'
    apply leaves_fillSets_next (hitems req List.mem_cons_self) hs'
    intro s hs
    refine Stays.leaves ((settled_kept db).stays (stays_reread ctx.projectId row.id)) hs ?_
      fun _ hs => hs
    intro full s hs _
    have hrest := ih (fun other hother => hitems other (List.mem_cons_of_mem _ hother)) hs
    unfold Leaves at hrest ⊢
    rw [ensures_bind]
    exact hrest.mono (fun _ _ hs => hs) fun _ _ hs => hs

theorem only_validateNew (projectId : Uuid) (req : CreateIssueRequest) :
    (validateNew projectId req).run.Only (·.reads = true) := by
  have hreads : ∀ {p : Handler Unit}, p.run.Only (·.checks = true) → p.run.Only (·.reads = true) :=
    fun h => h.mono fun _ => Stmt.reads_of_checks
  unfold validateNew
  refine only_run_bind (hreads (only_validateLabelComponentIds projectId _ _)) fun _ => ?_
  refine only_run_bind (hreads (only_validateIssueAssociations projectId _ _ _)) fun _ => ?_
  exact hreads (only_validateIssueExtras projectId _ _ _)

/-- A new issue that passes its checks must be careful about what they do not see. -/
theorem contains_createIssue {key : Option String} {body : CreateBody CreateIssueRequest}
    (hinside : db.Inside)
    (hcareful : ctx.allowed = true → ∀ req, body = .valid req → NewPasses db ctx.projectId req →
      req.Careful db ctx.projectId) :
    Contains C (createIssue ctx key body) (∀ req, body = .valid req → req.Within db ctx.projectId)
      db db := by
  unfold createIssue
  refine Stays.contains (stays_allowed ctx db) (only_ensure _ _) hinside (SameTables.refl db) ?_
  intro _ s hs hallowed
  refine Stays.contains (stays_decided fun _ => parseCreate_error) (only_decided _) hinside hs ?_
  intro req s hs hbody
  refine Stays.contains (stays_validateNew ctx.projectId req db) (only_validateNew _ _) hinside hs
    ?_
  intro _ s hs hpasses
  have hvalid := parseCreate_ok hbody
  have hreq : req.Within db ctx.projectId := (hcareful hallowed req hvalid hpasses).within hpasses
  apply contains_of_leaves
  · intro other hother
    rw [← CreateBody.valid.inj (hvalid.symm.trans hother)]
    exact hreq
  have hI := settled_kept db
  refine Stays.leaves (hI.stays (stays_replay ctx.actorId key _)) (.of_aside hinside hs.aside) ?_
    fun _ hs => hs
  intro stored s hs _
  cases stored with
  | some stored => exact hs
  | none => exact leaves_createNew_inside hreq hs

theorem contains_bulkCreateIssues {body : CreateBody (List CreateIssueRequest)}
    (hinside : db.Inside) (hcareful : ctx.allowed = true → ∀ items, body = .valid items →
      (∀ req ∈ items, NewPasses db ctx.projectId req) →
        ∀ req ∈ items, req.Careful db ctx.projectId) :
    Contains C (bulkCreateIssues ctx body)
      (∀ items, body = .valid items → ∀ req ∈ items, req.Within db ctx.projectId) db db := by
  unfold bulkCreateIssues
  refine Stays.contains (stays_allowed ctx db) (only_ensure _ _) hinside (SameTables.refl db) ?_
  intro _ s hs hallowed
  refine Stays.contains (stays_decided fun _ => parseCreate_error) (only_decided _) hinside hs ?_
  intro items s hs hbody
  refine Stays.contains (stays_forM fun req _ => stays_validateNew ctx.projectId req db)
    (only_run_forM fun req => only_validateNew _ _) hinside hs ?_
  intro _ s hs hpasses
  have hvalid := parseCreate_ok hbody
  have hitems : ∀ req ∈ items, req.Within db ctx.projectId := fun req hreq =>
    (hcareful hallowed items hvalid hpasses req hreq).within (hpasses req hreq)
  apply contains_of_leaves
  · intro other hother
    rw [← CreateBody.valid.inj (hvalid.symm.trans hother)]
    exact hitems
  have hcreated : Leaves C (createItems ctx items) (Kept db) s :=
    leaves_createItems_inside hitems (.of_aside hinside hs.aside)
  unfold Leaves at hcreated ⊢
  rw [ensures_bind]
  exact hcreated.mono (fun _ _ hs => hs) fun _ _ hs => hs

end Create

/-! ## Patching -/

section Patching

variable {C : Choice → Prop} {db s : Db} {ctx : Context} {projectId : Uuid}

/-- A row with a column that names no row is not written. -/
theorem ensures_updateRow_refused {id : Uuid} {version : Nat} {w : IssueWrite}
    (hs : SameTables db s) (hrefused : db.accepts w = false) :
    Ensures Stmt.exec C (updateRow projectId id version w)
      (fun outcome s' => (∀ row, outcome ≠ .updated row) ∧ SameTables db s')
      (fun _ s' => SameTables db s') s := by
  unfold updateRow
  rw [ensures_bind, ensures_query]
  intro choice _
  have hlater : SameTables db { s with now := s.now + choice.elapse } := hs.trans rfl
  unfold Stmt.exec
  dsimp only
  split
  · exact hlater
  · generalize { s with now := s.now + choice.elapse } = later at hlater
    have haccepts : later.accepts w = false := by
      rw [hlater]
      exact hrefused
    have hresult : later.updateIssue projectId id version w = (.ok none, later) ∨
        later.updateIssue projectId id version w = (.error .failed, later) := by
      unfold Db.updateIssue
      split
      · exact .inl rfl
      · rw [haccepts]
        exact .inr rfl
    show Outcome _ _ (later.updateIssue projectId id version w).1
      (later.updateIssue projectId id version w).2
    rcases hresult with hmissed | herror
    · rw [hmissed]
      have hread : Ensures Stmt.exec C (query (.issueExists projectId id)) _ _ later :=
        ensures_reads (only_query rfl) hlater
      refine ensures_bind.mpr (hread.mono ?_ fun _ _ h => h)
      intro found s' hsame
      refine ⟨?_, hsame⟩
      intro row
      cases found with
      | true | false => exact UpdateOutcome.noConfusion
    · rw [herror]
      exact hlater

variable {patch : UpdateIssueRequest}

/-- A write phase that stores nothing answers with an error. -/
theorem contains_writePatch_refused {old : FullIssue} {W : Prop} (hinside : db.Inside)
    (hs : SameTables db s) (hrefused : db.accepts (patch.over old.toIssue) = false) :
    Contains C (writePatch projectId patch old) W db s := by
  unfold writePatch Contains orInternal
  rw [ensures_bind, ensures_attempt]
  apply (ensures_updateRow_refused hs hrefused).mono
  · rintro outcome s' ⟨hmissed, hsame⟩
    cases outcome with
    | updated row => exact absurd rfl (hmissed row)
    | conflict | notFound => exact ⟨.of_aside hinside hsame.aside, .inr hsame⟩
  · exact fun _ s' hsame => ⟨.of_aside hinside hsame.aside, .inr hsame⟩

/-- The row is written inside, or nothing is. -/
theorem ensures_updateRow_inside {id : Uuid} {version : Nat} {w : IssueWrite} (hkept : Kept db s)
    (hid : db.IssueOf projectId id) (hw : db.RowInside projectId w) :
    Ensures Stmt.exec C (updateRow projectId id version w)
      (fun outcome s' => Kept db s' ∧ ∀ row, outcome = .updated row →
        Holding db projectId row.id s')
      (fun _ s' => Kept db s') s := by
  have hsettled := settled_kept db
  unfold updateRow
  rw [ensures_bind, ensures_query]
  intro choice _
  have hlater := hsettled _ _ (aside_elapse s choice.elapse) hkept
  unfold Stmt.exec
  dsimp only
  split
  · exact hlater
  · have hmissed : (∀ row, (Db.updateIssue projectId id version w
        { s with now := s.now + choice.elapse }).1 ≠ .ok (some row)) → _ := Db.updateIssue_missed
    generalize hresult : Db.updateIssue projectId id version w
      { s with now := s.now + choice.elapse } = result at hmissed
    show Outcome _ _ (Db.updateIssue projectId id version w _).1
      (Db.updateIssue projectId id version w _).2
    rw [hresult]
    obtain ⟨outcome, db'⟩ := result
    have hnone : (∀ row, outcome ≠ .ok (some row)) → Kept db db' := by
      intro h
      have hsame : db' = { s with now := s.now + choice.elapse } := hmissed h
      rw [hsame]
      exact hlater
    cases outcome with
    | error e => exact hnone (by simp)
    | ok found =>
      cases found with
      | some row =>
        obtain ⟨hrowId, -, -⟩ := Db.updateIssue_writes hresult
        obtain ⟨hinside, hgrows⟩ := Db.inside_updateIssue hresult hlater.inside
          (hlater.grows.rowInside hw)
        have hkept' : Kept db db' := ⟨hinside, hlater.grows.trans hgrows⟩
        refine ⟨hkept', ?_⟩
        intro row' hrow'
        rw [← UpdateOutcome.updated.inj hrow', hrowId]
        exact ⟨hkept', hkept'.grows.issues _ _ hid⟩
      | none =>
        refine ((reads_issueExists projectId id).settled hsettled).ensures (hnone (by simp)) ?_
          fun _ _ h _ => h
        intro found s' hs' _
        refine ⟨hs', ?_⟩
        intro row
        cases found with
        | true | false => exact UpdateOutcome.noConfusion

/-- The row and the sets of a patch that names rows of its project. -/
theorem leaves_writePatch_inside {id : Uuid} {old : FullIssue} (hpatch : patch.Within db projectId)
    (hinside : db.Inside) (hfound : db.fullIssue projectId id = some old) (hkept : Kept db s) :
    Leaves C (writePatch projectId patch old) (Kept db) s := by
  obtain ⟨hissue, hid, hproject, -, -⟩ := fullIssue_found hfound
  have hown : db.IssueOf projectId old.id := ⟨old.toIssue, by rw [hid]; exact hissue, hproject⟩
  unfold writePatch Leaves orInternal
  rw [ensures_bind, ensures_attempt]
  apply (ensures_updateRow_inside hkept hown (rowInside_over hpatch hinside hfound)).mono
  · rintro outcome s' ⟨hs', hupdated⟩
    cases outcome with
    | conflict => exact hs'
    | notFound => exact hs'
    | updated row =>
      have hgiven : ∀ {given : Option (List Uuid)} {P : Uuid → Prop},
          (∀ other ∈ given.getD [], P other) → ∀ ids ∈ given, ∀ other ∈ ids, P other := by
        rintro given P h ids rfl
        exact h
      refine ensures_bind.mpr (Ensures.mono (leaves_replaceSets_inside (hgiven hpatch.labels)
        (hgiven hpatch.components) hpatch.pairs (hgiven hpatch.customers) (hupdated row rfl))
        ?_ fun _ _ h => h.1)
      intro _ s hs
      exact Stays.leaves ((settled_kept db).stays (stays_reread projectId row.id)) hs.1
        (fun _ _ hs _ => hs) fun _ hs => hs
  · exact fun _ _ h => h

/-- A patch that comes to its writes must be careful about what the checks do not see. -/
theorem contains_updateIssue {req : UpdateRequest} (hinside : db.Inside)
    (hcareful : ∀ patch old, Comes db ctx req patch old → PatchPasses db ctx.projectId patch old →
      patch.Careful db ctx.projectId ∨ db.accepts (patch.over old.toIssue) = false) :
    Contains C (updateIssue ctx req) (∀ patch, req.body = .ok patch → patch.Within db ctx.projectId)
      db db := by
  unfold updateIssue
  refine Stays.contains (stays_allowed ctx db) (only_ensure _ _) hinside (SameTables.refl db) ?_
  intro _ s hs hallowed
  refine Stays.contains (stays_decided fun _ => parsePatch_error) (only_decided _) hinside hs ?_
  intro patch s hs hpatch
  refine Stays.contains (stays_readOld ctx.projectId req.id) (only_readOld _ _) hinside hs ?_
  intro old s hs hfound
  refine Stays.contains (stays_decided fun _ => checkIfMatch_error) (only_decided _) hinside hs ?_
  intro _ s hs hmatched
  have hcomes : Comes db ctx req patch old := ⟨hallowed, parsePatch_ok hpatch, hfound, hmatched⟩
  refine Stays.contains (stays_validatePatch ctx.projectId patch old)
    ((only_validatePatch _ _ _).mono fun _ => Stmt.reads_of_checks) hinside hs ?_
  intro _ s hs hpasses
  rcases hcareful patch old hcomes hpasses with hcare | hrefused
  · have hwithin := hcare.within hinside hfound hpasses
    apply contains_of_leaves
    · intro other hother
      rw [← Except.ok.inj (hcomes.body.symm.trans hother)]
      exact hwithin
    · exact leaves_writePatch_inside hwithin hinside hfound (.of_aside hinside hs.aside)
  · exact contains_writePatch_refused hinside hs hrefused

end Patching

end IntelliPilot.Issues
