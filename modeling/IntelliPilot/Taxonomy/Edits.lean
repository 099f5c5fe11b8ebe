import IntelliPilot.Taxonomy.Handlers

/-! # Edits of the taxonomy

A project has at most one landing status, because an index of the table says
so. Whether a request that is refused has cost the project that status, and
whether an item has a column that its kind does not have, is decided by single
requests; whether an issue loses an item to its deletion, by what is written
between the count of the references and the deletion.
-/

namespace IntelliPilot.Taxonomy

open Http Statement
open Imports (Uuid TaxonomyKind)
open Db (clashes inKind isLanding)

variable {F : Type} {ar : Arithmetic F}

/-! ## Well-formed items -/

/-- The unique indexes of `taxonomy_items`. -/
def Indexed (db : Db F) : Prop :=
  ∀ a ∈ db.items.rows, ∀ b ∈ db.items.rows, a.id ≠ b.id → clashes a b = false

/-- Only the columns that the kind has are set. -/
structure Suited (item : Item F) : Prop where
  isClosed : item.isClosed.isSome → Kind.hasClosed item.kind
  countsAsDone : item.countsAsDone.isSome → Kind.hasCountsAsDone item.kind
  isNew : item.isNew.isSome → Kind.hasNew item.kind
  value : item.value.isSome → Kind.hasValue item.kind

/-- No project has two landing statuses, and no item a column of another kind. -/
structure Sound (db : Db F) : Prop where
  oneNew : ∀ projectId, ∀ a ∈ db.items.rows, ∀ b ∈ db.items.rows, isLanding projectId a →
    isLanding projectId b → a = b
  suited : ∀ item ∈ db.items.rows, Suited item

theorem sound_of_indexed {db : Db F} (hindexed : Indexed db)
    (hsuited : ∀ item ∈ db.items.rows, Suited item) : Sound db where
  oneNew := by
    intro projectId a ha b hb hlanding hlanding'
    by_contra hne
    have hid : a.id ≠ b.id := by
      intro hid
      exact hne (Rows.eq_of_nodup_map db.items.nodup ha hb hid)
    have hproject : a.projectId = projectId := by
      simp only [isLanding, Bool.and_eq_true, beq_iff_eq] at hlanding
      exact hlanding.1.1
    have hclash := hindexed a ha b hb hid
    rw [clashes, hproject, hlanding, hlanding'] at hclash
    simp at hclash
  suited := hsuited

theorem clashes_comm (a b : Item F) : clashes a b = clashes b a := by
  have hkind : inKind a.projectId a.kind b = inKind b.projectId b.kind a := by
    rw [Bool.eq_iff_iff]
    simp only [inKind, Bool.and_eq_true, beq_iff_eq]
    exact ⟨fun h => ⟨h.1.symm, h.2.symm⟩, fun h => ⟨h.1.symm, h.2.symm⟩⟩
  have hlanding : (isLanding a.projectId a && isLanding a.projectId b) =
      (isLanding b.projectId b && isLanding b.projectId a) := by
    rw [Bool.eq_iff_iff]
    simp only [isLanding, Bool.and_eq_true, beq_iff_eq]
    constructor
    · rintro ⟨⟨⟨-, hkind⟩, hnew⟩, ⟨hproject, hkind'⟩, hnew'⟩
      exact ⟨⟨⟨trivial, hkind'⟩, hnew'⟩, ⟨hproject.symm, hkind⟩, hnew⟩
    · rintro ⟨⟨⟨-, hkind⟩, hnew⟩, ⟨hproject, hkind'⟩, hnew'⟩
      exact ⟨⟨⟨trivial, hkind'⟩, hnew'⟩, ⟨hproject.symm, hkind⟩, hnew⟩
  rw [clashes, clashes, hkind, hlanding, Bool.beq_comm]

/-! ## What statements do to items -/

section Statements

variable {db : Db F}

/-- What is done to one row, and what that row clashes with then. -/
theorem indexed_modify (hindexed : Indexed db) (id : Uuid) (f : Item F → Item F)
    (hf : ∀ item, (f item).id = item.id)
    (hclash : ∀ item ∈ db.items.rows, item.id = id → ∀ other ∈ db.items.rows, other.id ≠ id →
      clashes (f item) other = false) :
    Indexed { db with items := db.items.modify (·.id == id) f hf } := by
  intro a ha b hb hne
  obtain ⟨a', ha', rfl⟩ := Rows.mem_updateWhere.mp ha
  obtain ⟨b', hb', rfl⟩ := Rows.mem_updateWhere.mp hb
  have hkept : ∀ item : Item F, (if item.id == id then f item else item).id = item.id := by
    intro item
    split
    · exact hf item
    · rfl
  rw [hkept, hkept] at hne
  by_cases haid : a'.id = id
  · have hbid : b'.id ≠ id := fun hbid => hne (haid.trans hbid.symm)
    rw [if_pos (by simpa using haid), if_neg (by simpa using hbid)]
    exact hclash a' ha' haid b' hb' hbid
  · rw [if_neg (by simpa using haid)]
    by_cases hbid : b'.id = id
    · rw [if_pos (by simpa using hbid), clashes_comm]
      exact hclash b' hb' hbid a' ha' haid
    · rw [if_neg (by simpa using hbid)]
      exact hindexed a' ha' b' hb' hne

theorem indexed_clearIsNew (hindexed : Indexed db) (projectId : Uuid) :
    Indexed (db.clearIsNew projectId) := by
  -- a row that is cleared clashes with less
  have hless : ∀ a b : Item F, clashes a b = false → ∀ a' b' : Item F,
      a' = (if isLanding projectId a then { a with isNew := some false } else a) →
      b' = (if isLanding projectId b then { b with isNew := some false } else b) →
      clashes a' b' = false := by
    intro a b hab a' b' ha' hb'
    subst ha'
    subst hb'
    simp only [clashes, Bool.or_eq_false_iff] at hab ⊢
    split
    · split
      · exact ⟨hab.1, by simp [isLanding]⟩
      · exact ⟨hab.1, by simp [isLanding]⟩
    · split
      · exact ⟨hab.1, by simp [isLanding]⟩
      · exact hab
  intro a ha b hb hne
  obtain ⟨a', ha', rfl⟩ := Rows.mem_updateWhere.mp ha
  obtain ⟨b', hb', rfl⟩ := Rows.mem_updateWhere.mp hb
  have hid : ∀ item : Item F,
      (if isLanding projectId item then { item with isNew := some false } else item).id =
        item.id := by
    intro item
    split
    · rfl
    · rfl
  rw [hid, hid] at hne
  exact hless a' b' (hindexed a' ha' b' hb' hne) _ _ rfl rfl

theorem indexed_insertItem (hindexed : Indexed db) (projectId : Uuid) (kind : TaxonomyKind)
    (new : ItemNew F) (order : F) :
    Indexed (db.insertItem projectId kind new order).2 := by
  unfold Db.insertItem
  dsimp only
  split
  · exact hindexed
  · rename_i hfree
    have hclash : ∀ other ∈ db.items.rows,
        clashes (new.item db.items.fresh projectId kind order) other = false := by
      simpa using hfree
    intro a ha b hb hne
    rcases List.mem_append.mp ha with ha | ha
    · rcases List.mem_append.mp hb with hb | hb
      · exact hindexed a ha b hb hne
      · rw [List.mem_singleton.mp hb, clashes_comm]
        exact hclash a ha
    · rw [List.mem_singleton.mp ha] at hne ⊢
      rcases List.mem_append.mp hb with hb | hb
      · exact hclash b hb
      · exact absurd (congrArg (·.id) (List.mem_singleton.mp hb)).symm hne

theorem find_mem {projectId : Uuid} {kind : TaxonomyKind} {id : Uuid} {item : Item F}
    (h : db.find projectId kind id = some item) :
    item ∈ db.items.rows ∧ item.id = id ∧ item.projectId = projectId ∧ item.kind = kind := by
  obtain ⟨hfound, hin⟩ := Option.filter_eq_some_iff.mp h
  simp only [inKind, Bool.and_eq_true, beq_iff_eq] at hin
  exact ⟨Table.mem_of_find? hfound, Table.key_of_find? hfound, hin.1, hin.2⟩

theorem eq_of_id {a b : Item F} (ha : a ∈ db.items.rows) (hb : b ∈ db.items.rows)
    (hid : a.id = b.id) : a = b := Rows.eq_of_nodup_map db.items.nodup ha hb hid

theorem indexed_updateItem (hindexed : Indexed db) (projectId : Uuid) (kind : TaxonomyKind)
    (id : Uuid) (patch : ItemPatch F) :
    Indexed (db.updateItem projectId kind id patch).2 := by
  unfold Db.updateItem
  cases hfound : db.find projectId kind id with
  | none => exact hindexed
  | some item =>
    dsimp only
    split
    · exact hindexed
    · rename_i hfree
      obtain ⟨hitem, hid, -⟩ := find_mem hfound
      refine indexed_modify hindexed id patch.apply (fun _ => rfl) ?_
      intro item' hitem' hid' other hother hne
      rw [eq_of_id hitem' hitem (hid'.trans hid.symm)]
      have hnot := hfree
      simp only [List.any_eq_true, Bool.and_eq_true, bne_iff_ne, not_exists, not_and,
        Bool.not_eq_true] at hnot
      exact hnot other hother hne

theorem indexed_deleteItem (hindexed : Indexed db) (projectId : Uuid) (kind : TaxonomyKind)
    (id : Uuid) : Indexed (db.deleteItem projectId kind id).2 := by
  unfold Db.deleteItem
  split
  · exact hindexed
  · intro a ha b hb hne
    exact hindexed a (List.mem_of_mem_filter ha) b (List.mem_of_mem_filter hb) hne

theorem indexed_setOrder (hindexed : Indexed db) (projectId : Uuid) (kind : TaxonomyKind)
    (id : Uuid) (rank : F) :
    Indexed (db.setOrder projectId kind id rank).2 := by
  unfold Db.setOrder
  split
  · exact hindexed
  · refine indexed_modify hindexed id (fun item => { item with order := rank }) (fun _ => rfl) ?_
    intro item hitem hid other hother hne
    exact hindexed item hitem other hother fun heq => hne (heq.symm.trans hid)

theorem indexed_setOrders (projectId : Uuid) (kind : TaxonomyKind) (ranks : List (Uuid × F))
    (hindexed : Indexed db) : Indexed (db.setOrders projectId kind ranks) := by
  unfold Db.setOrders
  induction ranks generalizing db with
  | nil => exact hindexed
  | cons rank ranks ih => exact ih (indexed_setOrder hindexed projectId kind rank.1 rank.2)

/-- Statements on issues and epics leave the items. -/
def OnItems {β : Type} : Stmt F β → Prop
  | .clearIsNew _ => True
  | .insertItem _ _ _ _ => True
  | .updateItem _ _ _ _ => True
  | .deleteItem _ _ _ => True
  | .setOrder _ _ _ _ => True
  | .setOrders _ _ _ => True
  | _ => False

theorem items_effect (ar : Arithmetic F) {β : Type} (stmt : Stmt F β) (h : ¬OnItems stmt)
    (db : Db F) :
    (stmt.effect ar db).2.items = db.items := by
  cases stmt with
  | clearIsNew _ | insertItem _ _ _ _ | updateItem _ _ _ _ | deleteItem _ _ _ | setOrder _ _ _ _
  | setOrders _ _ _ => exact (h trivial).elim
  | insertIssue projectId w =>
    simp only [Stmt.effect, Db.insertIssue]
    split
    · rfl
    · rfl
  | updateIssue projectId id version w =>
    simp only [Stmt.effect, Db.updateIssue]
    split
    · rfl
    · split
      · rfl
      · rfl
  | softDelete projectId id =>
    simp only [Stmt.effect, Db.softDelete]
    split
    · rfl
    · rfl
  | insertEpic projectId statusId =>
    simp only [Stmt.effect, Db.insertEpic]
    split
    · rfl
    · rfl
  | updateEpic projectId id version statusId =>
    simp only [Stmt.effect, Db.updateEpic]
    split
    · rfl
    · split
      · rfl
      · rfl
  | newStatusId _ | list _ _ | maxOrder _ _ | referenceCount _ | selectIssue _ _
  | selectEpic _ _ => rfl

theorem indexed_of_items {db' : Db F} (h : db'.items = db.items) (hindexed : Indexed db) :
    Indexed db' := by
  unfold Indexed
  rw [h]
  exact hindexed

theorem indexed_exec {β : Type} (stmt : Stmt F β) (choice : Choice) (hindexed : Indexed db) :
    Indexed (stmt.exec ar choice db).2 := by
  have hwait : Indexed (db.wait choice.elapse) := hindexed
  unfold Stmt.exec
  split
  · exact hindexed
  · by_cases hon : OnItems stmt
    · cases stmt with
      | clearIsNew projectId => exact indexed_clearIsNew hwait projectId
      | insertItem projectId kind new order =>
        exact indexed_insertItem hwait projectId kind new order
      | updateItem projectId kind id patch =>
        exact indexed_updateItem hwait projectId kind id patch
      | deleteItem projectId kind id => exact indexed_deleteItem hwait projectId kind id
      | setOrder projectId kind id rank => exact indexed_setOrder hwait projectId kind id rank
      | setOrders projectId kind ranks => exact indexed_setOrders projectId kind ranks hwait
      | _ => exact hon.elim
    · exact indexed_of_items (items_effect ar _ hon _) hwait

theorem indexed_alone {ρ : Type} (p : Prog (Stmt F) ρ) (choices : Nat → Choice)
    (hindexed : Indexed db) : Indexed (p.alone (Stmt.exec ar) choices db).2 := by
  induction p generalizing choices db with
  | done answer => exact hindexed
  | step stmt next ih => exact ih _ _ (indexed_exec stmt (choices 0) hindexed)

end Statements

theorem exec_of_fails {β : Type} {stmt : Stmt F β} {choice : Choice} {db : Db F}
    (h : choice.fails = true) : stmt.exec ar choice db = (stmt.failure, db.wait choice.elapse) :=
  if_pos h

theorem exec_of_runs {β : Type} {stmt : Stmt F β} {choice : Choice} {db : Db F}
    (h : choice.fails = false) :
    stmt.exec ar choice db = stmt.effect ar (db.wait choice.elapse) := by
  unfold Stmt.exec
  rw [h]
  rfl

/-! ## Handing over the landing status -/

section Landing

variable {db : Db F} {projectId : Uuid}

theorem not_landing_clearIsNew (db : Db F) (projectId : Uuid) :
    ∀ item ∈ (db.clearIsNew projectId).items.rows, isLanding projectId item = false := by
  intro item hitem
  obtain ⟨old, _, rfl⟩ := Rows.mem_updateWhere.mp hitem
  split
  · simp [isLanding]
  · rename_i hnot
    simpa using hnot

/-- Clearing the flag changes something exactly where the project has a landing status. -/
theorem clearIsNew_items_iff :
    (db.clearIsNew projectId).items = db.items ↔ (db.newStatusId projectId).isSome = false := by
  have hnone : (db.newStatusId projectId).isSome = false ↔
      ∀ item ∈ db.items.rows, isLanding projectId item = false := by
    simp [Db.newStatusId]
  rw [hnone]
  constructor
  · intro hsame item hitem
    rw [← hsame] at hitem
    exact not_landing_clearIsNew db projectId item hitem
  · intro hfree
    have hrows := Rows.updateWhere_eq_self
      (f := fun item : Item F => { item with isNew := some false }) hfree
    unfold Db.clearIsNew Table.modify
    cases hitems : db.items with
    | mk rows nodup =>
      rw [hitems] at hrows
      simp only [hrows]

theorem find_clearIsNew (kind : TaxonomyKind) (id : Uuid) :
    ((db.clearIsNew projectId).find projectId kind id).isSome =
      (db.find projectId kind id).isSome := by
  have hfound : (db.clearIsNew projectId).items.find? id = (db.items.find? id).map fun item =>
      if isLanding projectId item then { item with isNew := some false } else item :=
    Table.find?_modify db.items (isLanding projectId)
      (fun item => { item with isNew := some false }) (fun _ => rfl) id
  unfold Db.find
  rw [hfound]
  cases db.items.find? id with
  | none => rfl
  | some item =>
    rw [Option.map_some, Option.filter_some, Option.filter_some]
    have hin : inKind projectId kind
        (if isLanding projectId item then { item with isNew := some false } else item) =
          inKind projectId kind item := by
      split
      · rfl
      · rfl
    rw [hin]
    split
    · rfl
    · rfl

theorem suited_clearIsNew (hsuited : ∀ item ∈ db.items.rows, Suited item) (projectId : Uuid) :
    ∀ item ∈ (db.clearIsNew projectId).items.rows, Suited item := by
  intro item hitem
  obtain ⟨old, hold, rfl⟩ := Rows.mem_updateWhere.mp hitem
  have hok := hsuited old hold
  split
  · rename_i hlanding
    refine ⟨hok.isClosed, hok.countsAsDone, ?_, hok.value⟩
    intro _
    simp only [isLanding, Bool.and_eq_true, beq_iff_eq] at hlanding
    rw [hlanding.1.2]
    rfl
  · exact hok

/-- A change of one row clashes with nothing as long as it does not make a
second landing status. -/
theorem free_of_indexed (hindexed : Indexed db) {kind : TaxonomyKind} {id : Uuid} {item : Item F}
    (hfound : db.find projectId kind id = some item) (patch : ItemPatch F)
    (hnew : patch.isNew = some true →
      ∀ other ∈ db.items.rows, isLanding projectId other = false) :
    db.items.rows.any (fun other => other.id != id && clashes (patch.apply item) other) =
      false := by
  obtain ⟨hitem, hid, hproject, -⟩ := find_mem hfound
  rw [List.any_eq_false]
  intro other hother
  rw [Bool.not_eq_true, Bool.and_eq_false_iff]
  by_cases hne : other.id = id
  · exact .inl (by simpa using hne)
  · right
    have hold := hindexed item hitem other hother fun heq => hne (heq.symm.trans hid)
    rw [clashes, Bool.or_eq_false_iff] at hold ⊢
    refine ⟨hold.1, ?_⟩
    cases hgiven : patch.isNew with
    | none =>
      have hsame : isLanding (patch.apply item).projectId (patch.apply item) =
          isLanding item.projectId item := by
        simp [isLanding, ItemPatch.apply, hgiven]
      rw [hsame]
      exact hold.2
    | some flag =>
      cases flag with
      | true =>
        have hother' := hnew hgiven other hother
        rw [← hproject] at hother'
        have hsame : (patch.apply item).projectId = item.projectId := rfl
        rw [hsame, hother', Bool.and_false]
      | false => simp [isLanding, ItemPatch.apply, hgiven]

theorem updateItem_of_free {kind : TaxonomyKind} {id : Uuid} {item : Item F} {patch : ItemPatch F}
    (hfound : db.find projectId kind id = some item)
    (hfree : db.items.rows.any (fun other => other.id != id && clashes (patch.apply item) other) =
      false) :
    db.updateItem projectId kind id patch = (.ok (some (patch.apply item)),
      { db with items := db.items.modify (·.id == id) patch.apply fun _ => rfl }) := by
  unfold Db.updateItem
  rw [hfound]
  simp only [hfree]
  rfl

end Landing

/-! ## Changing an item -/

section Update

variable {db : Db F} {projectId : Uuid}

/-- The request gives no column that its kind does not have. -/
def Fits (req : UpdateTaxonomyItemRequest F) (kind : TaxonomyKind) : Prop :=
  (req.isClosed.isSome → Kind.hasClosed kind) ∧ (req.value.isSome → Kind.hasValue kind)

variable {item : Item F}

theorem suited_apply_iff (hitem : Suited item) (req : UpdateTaxonomyItemRequest F) :
    Suited ((req.patch item.kind).apply item) ↔ Fits req item.kind := by
  constructor
  · intro h
    refine ⟨fun hclosed => h.isClosed ?_, fun hvalue => h.value ?_⟩
    · simp [UpdateTaxonomyItemRequest.patch, ItemPatch.apply, hclosed]
    · simp [UpdateTaxonomyItemRequest.patch, ItemPatch.apply, hvalue]
  · rintro ⟨hclosed, hvalue⟩
    refine ⟨fun hset => ?_, fun hset => ?_, fun hset => ?_, fun hset => ?_⟩
    · simp only [UpdateTaxonomyItemRequest.patch, ItemPatch.apply, Option.isSome_or,
        Bool.or_eq_true] at hset
      exact hset.elim hclosed hitem.isClosed
    · simp only [UpdateTaxonomyItemRequest.patch, ItemPatch.apply, Option.isSome_or,
        Bool.or_eq_true] at hset
      rcases hset with hgiven | hstored
      · split at hgiven
        · rename_i hkind
          exact hkind
        · contradiction
      · exact hitem.countsAsDone hstored
    · simp only [UpdateTaxonomyItemRequest.patch, ItemPatch.apply, Option.isSome_or,
        Bool.or_eq_true] at hset
      rcases hset with hgiven | hstored
      · split at hgiven
        · rename_i hkind
          exact hkind
        · contradiction
      · exact hitem.isNew hstored
    · simp only [UpdateTaxonomyItemRequest.patch, ItemPatch.apply, Option.isSome_or,
        Bool.or_eq_true] at hset
      exact hset.elim hvalue hitem.value

variable {kind : TaxonomyKind} {id : Uuid}

theorem suited_modify_iff (hsuited : ∀ item ∈ db.items.rows, Suited item)
    (hfound : db.find projectId kind id = some item) (req : UpdateTaxonomyItemRequest F) :
    (∀ row ∈ (db.items.modify (·.id == id) (req.patch kind).apply fun _ => rfl).rows, Suited row) ↔
      Fits req kind := by
  obtain ⟨hitem, hid, -, rfl⟩ := find_mem hfound
  rw [← suited_apply_iff (hsuited item hitem) req]
  constructor
  · intro hall
    refine hall _ (Rows.mem_updateWhere.mpr ⟨item, hitem, ?_⟩)
    rw [if_pos (by simpa using hid)]
  · intro hok row hrow
    obtain ⟨old, hold, rfl⟩ := Rows.mem_updateWhere.mp hrow
    split
    · rename_i hthis
      rw [eq_of_id hold hitem ((beq_iff_eq.mp hthis).trans hid.symm)]
      exact hok
    · exact hsuited old hold

/-- The flag of the project's landing status is cleared for the request. -/
def HandsOver (db : Db F) (projectId : Uuid) (isNew : Option Bool) (choices : Nat → Choice) :
    Prop :=
  isNew = some true ∧ (choices 0).fails = false ∧ (db.newStatusId projectId).isSome

/-- The `UPDATE` of the request runs and finds its row. -/
def Hits (db : Db F) (projectId : Uuid) (kind : TaxonomyKind) (id : Uuid) (isNew : Option Bool)
    (choices : Nat → Choice) : Prop :=
  (choices 0).fails = false ∧ (isNew = some true → (choices 1).fails = false) ∧
    (db.find projectId kind id).isSome

/-- The rest of `update`, once the request has passed its checks. -/
def finish (projectId : Uuid) (kind : TaxonomyKind) (id : Uuid) (patch : ItemPatch F) :
    Handler F (Answer F) := do
  let item ← given (found (← orRefuse (.updateItem projectId kind id patch) internal))
  return .item 200 item

/-- What the state is worth after a request: its items fit their kinds, and a
refusal has changed none of them. -/
def Harmless (db : Db F) (result : Except Problem (Answer F) × Db F) : Prop :=
  (∀ item ∈ result.2.items.rows, Suited item) ∧
    ∀ problem, result.1 = .error problem → result.2.items = db.items

variable {choices : Nat → Choice}

theorem finish_refused (ar : Arithmetic F) (patch : ItemPatch F)
    (h : (choices 0).fails = true ∨ (db.find projectId kind id).isSome = false) :
    ∃ problem, (finish projectId kind id patch).run.alone (Stmt.exec ar) choices db =
      (.error problem, db.wait (choices 0).elapse) := by
  unfold finish
  rw [alone_orRefuse_bind]
  cases hfails : (choices 0).fails with
  | true =>
    rw [exec_of_fails hfails]
    exact ⟨internal, rfl⟩
  | false =>
    have hnone : (db.wait (choices 0).elapse).find projectId kind id = none := by
      rcases h with hfailed | hnone
      · exact absurd (hfailed.symm.trans hfails) (by decide)
      · exact Option.isNone_iff_eq_none.mp (Option.isSome_eq_false_iff.mp hnone)
    have hmissed : (db.wait (choices 0).elapse).updateItem projectId kind id patch =
        (.ok none, db.wait (choices 0).elapse) := by
      unfold Db.updateItem
      rw [hnone]
    rw [exec_of_runs hfails]
    simp only [Stmt.effect, hmissed]
    exact ⟨notFound, rfl⟩

theorem finish_done {patch : ItemPatch F} (hfails : (choices 0).fails = false)
    (hfound : db.find projectId kind id = some item)
    (hfree : db.items.rows.any (fun other => other.id != id && clashes (patch.apply item) other) =
      false) :
    (finish projectId kind id patch).run.alone (Stmt.exec ar) choices db =
      (.ok (.item 200 (patch.apply item)), { db.wait (choices 0).elapse with
        items := db.items.modify (·.id == id) patch.apply fun _ => rfl }) := by
  have hwritten : (db.wait (choices 0).elapse).updateItem projectId kind id patch =
      (.ok (some (patch.apply item)), { db.wait (choices 0).elapse with
        items := db.items.modify (·.id == id) patch.apply fun _ => rfl }) :=
    updateItem_of_free hfound hfree
  unfold finish
  rw [alone_orRefuse_bind, exec_of_runs hfails]
  simp only [Stmt.effect, hwritten]
  rfl

variable {req : UpdateTaxonomyItemRequest F}

/-- A request that asks for no landing status. -/
theorem harmless_finish_iff (hindexed : Indexed db) (hsuited : ∀ item ∈ db.items.rows, Suited item)
    (hnew : (req.patch kind).isNew ≠ some true) :
    Harmless db ((finish projectId kind id (req.patch kind)).run.alone (Stmt.exec ar) choices db) ↔
      ((choices 0).fails = false ∧ (db.find projectId kind id).isSome → Fits req kind) := by
  by_cases hmissed : (choices 0).fails = true ∨ (db.find projectId kind id).isSome = false
  · obtain ⟨problem, hrefused⟩ := finish_refused ar (req.patch kind) hmissed
    rw [hrefused]
    refine iff_of_true ⟨hsuited, fun _ _ => rfl⟩ fun hhits => ?_
    rcases hmissed with hfailed | hnone
    · exact absurd (hfailed.symm.trans hhits.1) (by decide)
    · exact absurd (hnone.symm.trans hhits.2) (by decide)
  · rw [not_or, Bool.not_eq_true, Bool.not_eq_false] at hmissed
    obtain ⟨item, hfound⟩ := Option.isSome_iff_exists.mp hmissed.2
    have hfree := free_of_indexed hindexed hfound (req.patch kind)
      fun hgiven => absurd hgiven hnew
    rw [finish_done hmissed.1 hfound hfree]
    have hrows := suited_modify_iff hsuited hfound req
    constructor
    · exact fun hharmless _ => hrows.mp hharmless.1
    · exact fun hfits => ⟨hrows.mpr (hfits hmissed), fun problem hrefused => by contradiction⟩

/-- A request that does, once the flag is cleared elsewhere. -/
theorem harmless_handover_iff (hindexed : Indexed db)
    (hsuited : ∀ item ∈ db.items.rows, Suited item) (elapse : Nat) :
    Harmless db ((finish projectId kind id (req.patch kind)).run.alone (Stmt.exec ar) choices
        ((db.wait elapse).clearIsNew projectId)) ↔
      ((db.newStatusId projectId).isSome →
        (choices 0).fails = false ∧ (db.find projectId kind id).isSome) ∧
      ((choices 0).fails = false ∧ (db.find projectId kind id).isSome → Fits req kind) := by
  have hcleared := suited_clearIsNew hsuited projectId
  have hfinds : (((db.wait elapse).clearIsNew projectId).find projectId kind id).isSome =
      (db.find projectId kind id).isSome := find_clearIsNew kind id
  by_cases hmissed : (choices 0).fails = true ∨ (db.find projectId kind id).isSome = false
  · rw [← hfinds] at hmissed
    obtain ⟨problem, hrefused⟩ := finish_refused ar (req.patch kind) hmissed
    rw [hfinds] at hmissed
    have hnot : ¬((choices 0).fails = false ∧ (db.find projectId kind id).isSome) := by
      rintro ⟨hruns, hsome⟩
      rcases hmissed with hfailed | hnone
      · exact absurd (hfailed.symm.trans hruns) (by decide)
      · exact absurd (hnone.symm.trans hsome) (by decide)
    rw [hrefused]
    constructor
    · intro hharmless
      refine ⟨fun hlanding => ?_, fun hhits => absurd hhits hnot⟩
      have hsame : (db.clearIsNew projectId).items = db.items := hharmless.2 problem rfl
      exact absurd (hlanding.symm.trans (clearIsNew_items_iff.mp hsame)) (by decide)
    · rintro ⟨hlanding, -⟩
      refine ⟨hcleared, fun _ _ => ?_⟩
      have hnone : (db.newStatusId projectId).isSome = false := by
        rw [← Bool.not_eq_true]
        exact fun hsome => hnot (hlanding hsome)
      exact clearIsNew_items_iff.mpr hnone
  · rw [not_or, Bool.not_eq_true, Bool.not_eq_false] at hmissed
    obtain ⟨item, hfound⟩ := Option.isSome_iff_exists.mp (hfinds.trans hmissed.2)
    have hcleared' : Indexed ((db.wait elapse).clearIsNew projectId) :=
      indexed_clearIsNew hindexed projectId
    have hfree := free_of_indexed hcleared' hfound (req.patch kind) fun _ =>
      not_landing_clearIsNew _ _
    rw [finish_done hmissed.1 hfound hfree]
    have hrows := suited_modify_iff hcleared hfound req
    constructor
    · exact fun hharmless => ⟨fun _ => hmissed, fun _ => hrows.mp hharmless.1⟩
    · intro hcareful
      exact ⟨hrows.mpr (hcareful.2 hmissed), fun problem hrefused => by contradiction⟩

end Update

/-! ## Creating an item -/

section Create

variable {db : Db F} {projectId : Uuid}

/-- The slug is used for the kind. -/
def SlugTaken (db : Db F) (projectId : Uuid) (kind : TaxonomyKind) (slug : String) : Prop :=
  ∃ other ∈ db.items.rows, inKind projectId kind other = true ∧ other.slug = slug

theorem suited_new (req : CreateTaxonomyItemRequest F) (id : Uuid) (kind : TaxonomyKind)
    (order : F) : Suited ((req.new kind).item id projectId kind order) := by
  have hflag : ∀ (has : Bool) (flag : Option Bool),
      (if has then some (flag.getD false) else none).isSome → has := by
    intro has flag h
    split at h
    · assumption
    · contradiction
  refine ⟨hflag _ _, hflag _ _, hflag _ _, fun hset => ?_⟩
  simp only [CreateTaxonomyItemRequest.new, ItemNew.item] at hset
  split at hset
  · assumption
  · contradiction

variable {kind : TaxonomyKind} {new : ItemNew F}

/-- A new row clashes by its slug, or as a second landing status. -/
theorem clashes_new_iff {id : Uuid} {order : F} :
    (db.items.rows.any (clashes (new.item id projectId kind order)) = true) ↔
      SlugTaken db projectId kind new.slug ∨
        (kind = .issueStatus ∧ new.isNew = some true) ∧ (db.newStatusId projectId).isSome := by
  have hsome : (db.newStatusId projectId).isSome ↔
      ∃ other ∈ db.items.rows, isLanding projectId other = true := by
    simp [Db.newStatusId]
  have hlanding : isLanding projectId (new.item id projectId kind order) = true ↔
      kind = .issueStatus ∧ new.isNew = some true := by
    simp [isLanding, ItemNew.item]
  rw [hsome, List.any_eq_true]
  constructor
  · rintro ⟨other, hother, hclash⟩
    rw [clashes, Bool.or_eq_true, Bool.and_eq_true, Bool.and_eq_true, beq_iff_eq] at hclash
    rcases hclash with ⟨hin, hslug⟩ | ⟨hnew, hold⟩
    · exact .inl ⟨other, hother, hin, hslug⟩
    · exact .inr ⟨hlanding.mp hnew, other, hother, hold⟩
  · intro h
    rcases h with ⟨other, hother, hin, hslug⟩ | ⟨hnew, other, hother, hold⟩
    · refine ⟨other, hother, ?_⟩
      rw [clashes, Bool.or_eq_true, Bool.and_eq_true, beq_iff_eq]
      exact .inl ⟨hin, hslug⟩
    · refine ⟨other, hother, ?_⟩
      rw [clashes, Bool.or_eq_true, Bool.and_eq_true, Bool.and_eq_true]
      exact .inr ⟨hlanding.mpr hnew, hold⟩

theorem slugTaken_clearIsNew {slug : String} :
    SlugTaken (db.clearIsNew projectId) projectId kind slug ↔ SlugTaken db projectId kind slug := by
  constructor
  · rintro ⟨other, hother, hin, hslug⟩
    obtain ⟨old, hold, rfl⟩ := Rows.mem_updateWhere.mp hother
    refine ⟨old, hold, ?_, ?_⟩
    · split at hin
      · exact hin
      · exact hin
    · split at hslug
      · exact hslug
      · exact hslug
  · rintro ⟨other, hother, hin, hslug⟩
    refine ⟨_, Rows.mem_updateWhere.mpr ⟨other, hother, rfl⟩, ?_, ?_⟩
    · split
      · exact hin
      · exact hin
    · split
      · exact hslug
      · exact hslug

/-- The rest of `create`, once there is room for the item. -/
def append (ar : Arithmetic F) (projectId : Uuid) (kind : TaxonomyKind) (new : ItemNew F) :
    Handler F (Answer F) := do
  let last ← orRefuse (.maxOrder projectId kind) internal
  let order := (ar.rankBetween last none).getD ar.appendGap
  given (created (← attempted (.insertItem projectId kind new order)))

/-- The two statements run, and the row clashes with no other. -/
def Appends (db : Db F) (projectId : Uuid) (kind : TaxonomyKind) (new : ItemNew F)
    (choices : Nat → Choice) : Prop :=
  (choices 0).fails = false ∧ (choices 1).fails = false ∧
    ¬(SlugTaken db projectId kind new.slug ∨
      (kind = .issueStatus ∧ new.isNew = some true) ∧ (db.newStatusId projectId).isSome)

/-- The rank of a new item. -/
def lastRank (ar : Arithmetic F) (db : Db F) (projectId : Uuid) (kind : TaxonomyKind) : F :=
  (ar.rankBetween (db.maxOrder ar projectId kind) none).getD ar.appendGap

variable {choices : Nat → Choice}

theorem append_alone (h : (choices 0).fails = false) :
    (append ar projectId kind new).run.alone (Stmt.exec ar) choices db =
      (created ((Stmt.insertItem projectId kind new (lastRank ar db projectId kind)).exec ar
          (choices 1) (db.wait (choices 0).elapse)).1,
        ((Stmt.insertItem projectId kind new (lastRank ar db projectId kind)).exec ar
          (choices 1) (db.wait (choices 0).elapse)).2) := by
  unfold append
  rw [alone_orRefuse_bind, exec_of_runs h]
  rfl

variable {req : CreateTaxonomyItemRequest F}

theorem append_done (ar : Arithmetic F) (h : Appends db projectId kind (req.new kind) choices) :
    ∃ item db', (append ar projectId kind (req.new kind)).run.alone (Stmt.exec ar) choices db =
        (.ok (.item 201 item), db') ∧ Suited item ∧ db'.items.rows = db.items.rows ++ [item] := by
  obtain ⟨hfirst, hsecond, hfree⟩ := h
  rw [append_alone hfirst, exec_of_runs hsecond]
  generalize lastRank ar db projectId kind = order
  have hclash : db.items.rows.any
      (clashes ((req.new kind).item db.items.fresh projectId kind order)) = false := by
    rw [← Bool.not_eq_true, clashes_new_iff]
    exact hfree
  have hinserted : ((db.wait (choices 0).elapse).wait (choices 1).elapse).insertItem projectId kind
      (req.new kind) order =
        (.ok ((req.new kind).item db.items.fresh projectId kind order),
          { (db.wait (choices 0).elapse).wait (choices 1).elapse with
            items := db.items.insert ((req.new kind).item db.items.fresh projectId kind order)
              db.items.find?_fresh }) := by
    unfold Db.insertItem
    exact if_neg (by simpa [Db.wait] using hclash)
  simp only [Stmt.effect, hinserted]
  exact ⟨_, _, rfl, suited_new req _ _ _, rfl⟩

theorem append_refused (ar : Arithmetic F) (h : ¬Appends db projectId kind new choices) :
    ∃ problem db', (append ar projectId kind new).run.alone (Stmt.exec ar) choices db =
      (.error problem, db') ∧ db'.items = db.items := by
  cases hfirst : (choices 0).fails with
  | true =>
    unfold append
    rw [alone_orRefuse_bind, exec_of_fails hfirst]
    exact ⟨internal, _, rfl, rfl⟩
  | false =>
    rw [append_alone hfirst]
    generalize lastRank ar db projectId kind = order
    cases hsecond : (choices 1).fails with
    | true =>
      rw [exec_of_fails hsecond]
      exact ⟨internal, _, rfl, rfl⟩
    | false =>
      have hclash : db.items.rows.any (clashes (new.item db.items.fresh projectId kind order)) =
          true := by
        rw [clashes_new_iff]
        by_contra hfree
        exact h ⟨hfirst, hsecond, hfree⟩
      have hrefused : ((db.wait (choices 0).elapse).wait (choices 1).elapse).insertItem
          projectId kind new order =
            (.error .uniqueViolation,
              (db.wait (choices 0).elapse).wait (choices 1).elapse) := by
        unfold Db.insertItem
        exact if_pos (by simpa [Db.wait] using hclash)
      rw [exec_of_runs hsecond]
      simp only [Stmt.effect, hrefused]
      exact ⟨alreadyExists, _, rfl, rfl⟩

theorem harmless_append (hsuited : ∀ item ∈ db.items.rows, Suited item) :
    Harmless db
      ((append ar projectId kind (req.new kind)).run.alone (Stmt.exec ar) choices db) := by
  by_cases h : Appends db projectId kind (req.new kind) choices
  · obtain ⟨item, db', halone, hitem, hrows⟩ := append_done ar h
    rw [halone]
    refine ⟨fun row hrow => ?_, fun problem hrefused => by contradiction⟩
    rw [hrows] at hrow
    rcases List.mem_append.mp hrow with hold | hnew
    · exact hsuited row hold
    · rw [List.mem_singleton.mp hnew]
      exact hitem
  · obtain ⟨problem, db', halone, hitems⟩ := append_refused ar h
    rw [halone]
    exact ⟨by rw [hitems]; exact hsuited, fun _ _ => hitems⟩

/-- The creation of a landing status, once the flag is cleared elsewhere. -/
theorem harmless_newLanding_iff (hsuited : ∀ item ∈ db.items.rows, Suited item) (elapse : Nat) :
    Harmless db ((append ar projectId kind (req.new kind)).run.alone (Stmt.exec ar) choices
        ((db.wait elapse).clearIsNew projectId)) ↔
      ((db.newStatusId projectId).isSome → (choices 0).fails = false ∧ (choices 1).fails = false ∧
        ¬SlugTaken db projectId kind req.slug) := by
  have hcleared := suited_clearIsNew hsuited projectId
  have hnone : (((db.wait elapse).clearIsNew projectId).newStatusId projectId).isSome = false := by
    rw [Db.newStatusId, Option.isSome_map, ← Bool.not_eq_true, List.find?_isSome]
    rintro ⟨item, hitem, hlanding⟩
    rw [not_landing_clearIsNew (db.wait elapse) projectId item hitem] at hlanding
    contradiction
  have happends : Appends ((db.wait elapse).clearIsNew projectId) projectId kind (req.new kind)
      choices ↔ (choices 0).fails = false ∧ (choices 1).fails = false ∧
        ¬SlugTaken db projectId kind req.slug := by
    have hslug : SlugTaken ((db.wait elapse).clearIsNew projectId) projectId kind
        (req.new kind).slug ↔ SlugTaken db projectId kind req.slug := slugTaken_clearIsNew
    rw [Appends, hslug, hnone]
    simp
  rw [← happends]
  by_cases h : Appends ((db.wait elapse).clearIsNew projectId) projectId kind (req.new kind) choices
  · obtain ⟨item, db', halone, hitem, hrows⟩ := append_done ar h
    rw [halone]
    refine iff_of_true ⟨fun row hrow => ?_, fun problem hrefused => by contradiction⟩ fun _ => h
    rw [hrows] at hrow
    rcases List.mem_append.mp hrow with hold | hnew
    · exact hcleared row hold
    · rw [List.mem_singleton.mp hnew]
      exact hitem
  · obtain ⟨problem, db', halone, hitems⟩ := append_refused ar h
    rw [halone]
    have hiff : (db'.items = db.items) ↔ (db.newStatusId projectId).isSome = false := by
      rw [hitems]
      exact clearIsNew_items_iff
    constructor
    · intro hharmless hlanding
      have hlost := hiff.mp (hharmless.2 problem rfl)
      exact absurd (hlanding.symm.trans hlost) (by decide)
    · intro hcareful
      refine ⟨by rw [hitems]; exact hcleared, fun _ _ => hiff.mpr ?_⟩
      rw [← Bool.not_eq_true]
      exact fun hlanding => h (hcareful hlanding)

end Create

/-! ## Deleting and moving an item -/

section Others

variable {db : Db F} (hsuited : ∀ item ∈ db.items.rows, Suited item)

include hsuited

theorem harmless_refused {problem : Problem} {db' : Db F} (hitems : db'.items = db.items) :
    Harmless db (.error problem, db') := by
  refine ⟨?_, fun _ _ => hitems⟩
  rw [hitems]
  exact hsuited

section Steps

variable {α β : Type} {f : α → Handler F (Answer F)} {db' : Db F} {problem : Problem}
  {choices : Nat → Choice}

theorem harmless_check {ok : Bool} {f : Unit → Handler F (Answer F)}
    (h : Harmless db ((f ()).run.alone (Stmt.exec ar) choices db'))
    (hitems : db'.items = db.items := by rfl) :
    Harmless db ((refuseUnless ok problem >>= f).run.alone (Stmt.exec ar) choices db') := by
  rw [alone_refuseUnless_bind]
  split
  · exact h
  · exact harmless_refused hsuited hitems

theorem harmless_given {checked : Except Problem α}
    (h : ∀ a, Harmless db ((f a).run.alone (Stmt.exec ar) choices db'))
    (hitems : db'.items = db.items := by rfl) :
    Harmless db ((given checked >>= f).run.alone (Stmt.exec ar) choices db') := by
  rw [alone_given_bind]
  cases checked with
  | error problem => exact harmless_refused hsuited hitems
  | ok a => exact h a

/-- A statement that fails has changed nothing. -/
theorem harmless_asked {stmt : Stmt F (Except DbError α)} {e : DbError} {a : α} {db'' : Db F}
    (heffect : stmt.effect ar (db'.wait (choices 0).elapse) = (.ok a, db''))
    (h : Harmless db ((f a).run.alone (Stmt.exec ar) (fun n => choices (n + 1)) db''))
    (hitems : db'.items = db.items := by rfl) (hfailure : stmt.failure = .error e := by rfl) :
    Harmless db ((orRefuse stmt problem >>= f).run.alone (Stmt.exec ar) choices db') := by
  rw [alone_orRefuse_bind]
  cases hfails : (choices 0).fails with
  | true =>
    rw [exec_of_fails hfails, hfailure]
    exact harmless_refused hsuited hitems
  | false =>
    rw [exec_of_runs hfails, heffect]
    exact h

end Steps

theorem harmless_delete (ctx : Context) (kind : String) (id : Option Uuid)
    (choices : Nat → Choice) :
    Harmless db ((delete ctx kind id).run.alone (Stmt.exec ar) choices db) := by
  unfold delete
  refine harmless_check hsuited ?_
  refine harmless_given hsuited fun kind => ?_
  refine harmless_given hsuited fun id => ?_
  refine harmless_asked hsuited rfl ?_
  refine harmless_check hsuited ?_
  refine harmless_asked hsuited rfl ?_
  simp only [Db.deleteItem]
  cases hfound : ((db.wait (choices 0).elapse).wait (choices 1).elapse).find
      ctx.projectId kind id with
  | none => exact harmless_refused hsuited rfl
  | some item =>
    refine ⟨fun row hrow => ?_, fun problem hrefused => by contradiction⟩
    exact hsuited row (List.mem_of_mem_filter hrow)

theorem suited_setOrder (projectId : Uuid) (kind : TaxonomyKind) (id : Uuid) (rank : F) :
    ∀ item ∈ (db.setOrder projectId kind id rank).2.items.rows, Suited item := by
  unfold Db.setOrder
  split
  · exact hsuited
  · intro item hitem
    obtain ⟨old, hold, rfl⟩ := Rows.mem_updateWhere.mp hitem
    have hok := hsuited old hold
    split
    · exact ⟨hok.isClosed, hok.countsAsDone, hok.isNew, hok.value⟩
    · exact hok

theorem suited_setOrders (projectId : Uuid) (kind : TaxonomyKind) (ranks : List (Uuid × F)) :
    ∀ item ∈ (db.setOrders projectId kind ranks).items.rows, Suited item := by
  unfold Db.setOrders
  induction ranks generalizing db with
  | nil => exact hsuited
  | cons rank ranks ih => exact ih (suited_setOrder hsuited projectId kind rank.1 rank.2)

theorem harmless_moveItem (ctx : Context) (kind : String) (id : Option Uuid) (body : Body MoveTaxonomyItemRequest)
    (choices : Nat → Choice) :
    Harmless db ((moveItem ar ctx kind id body).run.alone (Stmt.exec ar) choices db) := by
  unfold moveItem
  refine harmless_check hsuited ?_
  refine harmless_given hsuited fun kind => ?_
  refine harmless_given hsuited fun id => ?_
  refine harmless_given hsuited fun req => ?_
  refine harmless_asked hsuited rfl ?_
  generalize (db.wait (choices 0).elapse).list ar ctx.projectId kind = items
  refine harmless_check hsuited ?_
  have hwaited : ∀ item ∈ ((db.wait (choices 0).elapse).wait
      (choices 1).elapse).items.rows, Suited item := hsuited
  cases ar.rankBetween (orderOf items req.beforeId) (orderOf items req.afterId) with
  | some rank =>
    refine harmless_asked hsuited rfl ?_
    have hkept := suited_setOrder hwaited ctx.projectId kind id rank
    simp only [Db.setOrder] at hkept ⊢
    cases hfound : ((db.wait (choices 0).elapse).wait
        (choices 1).elapse).find ctx.projectId kind id with
    | none => exact harmless_refused hsuited rfl
    | some item =>
      rw [hfound] at hkept
      exact ⟨hkept, fun problem hrefused => by contradiction⟩
  | none =>
    refine harmless_asked hsuited rfl ?_
    refine ⟨?_, fun problem hrefused => by contradiction⟩
    exact suited_setOrders hwaited ctx.projectId kind _

end Others

/-! ## Runs of edits -/

section Runs

/-- Every request that clears the flag of a landing status goes on to set it,
and every change that is made fits its kind. -/
def Careful (db : Db F) (turn : Turn F) : Prop :=
  match turn.edit with
  | .create ctx kind (.valid req) =>
      ctx.allowed → ∀ k ∈ Kind.parse kind,
        HandsOver db ctx.projectId (req.new k).isNew turn.choices →
          (turn.choices 1).fails = false ∧ (turn.choices 2).fails = false ∧
            ¬SlugTaken db ctx.projectId k req.slug
  | .update ctx kind (some id) (.valid req) =>
      ctx.allowed → ∀ k ∈ Kind.parse kind,
        (HandsOver db ctx.projectId (req.patch k).isNew turn.choices →
          Hits db ctx.projectId k id (req.patch k).isNew turn.choices) ∧
        (Hits db ctx.projectId k id (req.patch k).isNew turn.choices → Fits req k)
  | _ => True

variable {db : Db F}

theorem harmless_create_iff (hsuited : ∀ item ∈ db.items.rows, Suited item) (ctx : Context)
    (kind : String) (body : Body (CreateTaxonomyItemRequest F)) (choices : Nat → Choice) :
    Harmless db ((create ar ctx kind body).run.alone (Stmt.exec ar) choices db) ↔
      Careful db ⟨.create ctx kind body, choices⟩ := by
  unfold create
  rw [alone_refuseUnless_bind, alone_given_bind]
  cases hallowed : ctx.allowed with
  | false =>
    refine iff_of_true (harmless_refused hsuited rfl) ?_
    cases body with
    | unreadable => trivial
    | invalid => trivial
    | valid req => exact fun hctx => absurd (hctx.symm.trans hallowed) (by decide)
  | true =>
    rw [if_pos rfl]
    cases hkind : Kind.parse kind with
    | none =>
      refine iff_of_true (harmless_refused hsuited rfl) ?_
      cases body with
      | unreadable => trivial
      | invalid => trivial
      | valid req => exact fun _ k hk => absurd (hkind.symm.trans hk) nofun
    | some k =>
      cases body with
      | unreadable | invalid => exact iff_of_true (harmless_refused hsuited rfl) trivial
      | valid req =>
        simp only [found, Option.elim_some, parseBody, Careful, hallowed, hkind,
          Option.mem_some_iff, forall_eq', forall_const]
        rw [alone_given_bind]
        dsimp only
        unfold makeRoom
        by_cases hnew : (req.new k).isNew = some true
        · rw [if_pos (by simpa using hnew), alone_orRefuse_bind]
          cases hfirst : (choices 0).fails with
          | true =>
            rw [exec_of_fails hfirst]
            refine iff_of_true (harmless_refused hsuited rfl) fun hands => ?_
            exact absurd (hfirst.symm.trans hands.2.1) (by decide)
          | false =>
            rw [exec_of_runs hfirst]
            refine (harmless_newLanding_iff hsuited (choices 0).elapse).trans ?_
            exact ⟨fun h hands => h hands.2.2, fun h hsome => h ⟨hnew, hfirst, hsome⟩⟩
        · rw [if_neg (by simpa using hnew)]
          exact iff_of_true (harmless_append hsuited) fun hands => absurd hands.1 hnew

theorem harmless_update_iff (hindexed : Indexed db) (hsuited : ∀ item ∈ db.items.rows, Suited item)
    (ctx : Context) (kind : String) (id : Option Uuid) (body : Body (UpdateTaxonomyItemRequest F))
    (choices : Nat → Choice) :
    Harmless db ((update ctx kind id body).run.alone (Stmt.exec ar) choices db) ↔
      Careful db ⟨.update ctx kind id body, choices⟩ := by
  unfold update
  rw [alone_refuseUnless_bind, alone_given_bind]
  cases hallowed : ctx.allowed with
  | false =>
    refine iff_of_true (harmless_refused hsuited rfl) ?_
    cases id with
    | none => trivial
    | some id =>
      cases body with
      | unreadable => trivial
      | invalid => trivial
      | valid req => exact fun hctx => absurd (hctx.symm.trans hallowed) (by decide)
  | true =>
    rw [if_pos rfl]
    cases hkind : Kind.parse kind with
    | none =>
      refine iff_of_true (harmless_refused hsuited rfl) ?_
      cases id with
      | none => trivial
      | some id =>
        cases body with
        | unreadable => trivial
        | invalid => trivial
        | valid req => exact fun _ k hk => absurd (hkind.symm.trans hk) nofun
    | some k =>
      cases id with
      | none => exact iff_of_true (harmless_refused hsuited rfl) trivial
      | some id =>
        cases body with
        | unreadable | invalid => exact iff_of_true (harmless_refused hsuited rfl) trivial
        | valid req =>
          simp only [found, Option.elim_some, parseBody, Careful, hallowed, hkind,
            Option.mem_some_iff, forall_eq', forall_const]
          rw [alone_given_bind]
          dsimp only
          rw [alone_given_bind]
          dsimp only
          unfold makeRoom
          by_cases hnew : (req.patch k).isNew = some true
          · rw [if_pos (by simpa using hnew), alone_orRefuse_bind]
            cases hfirst : (choices 0).fails with
            | true =>
              rw [exec_of_fails hfirst]
              refine iff_of_true (harmless_refused hsuited rfl)
                ⟨fun hands => ?_, fun hhits => ?_⟩
              · exact absurd (hfirst.symm.trans hands.2.1) (by decide)
              · exact absurd (hfirst.symm.trans hhits.1) (by decide)
            | false =>
              rw [exec_of_runs hfirst]
              refine (harmless_handover_iff hindexed hsuited (choices 0).elapse).trans ?_
              have hhits : Hits db ctx.projectId k id (req.patch k).isNew choices ↔
                  (choices 1).fails = false ∧
                    (db.find ctx.projectId k id).isSome := by
                simp [Hits, hnew, hfirst]
              have hhands : HandsOver db ctx.projectId (req.patch k).isNew choices ↔
                  (db.newStatusId ctx.projectId).isSome := by
                simp [HandsOver, hnew, hfirst]
              rw [hhits, hhands]
          · rw [if_neg (by simpa using hnew)]
            refine (harmless_finish_iff hindexed hsuited hnew).trans ?_
            have hhits : Hits db ctx.projectId k id (req.patch k).isNew choices ↔
                (choices 0).fails = false ∧ (db.find ctx.projectId k id).isSome := by
              simp [Hits, hnew]
            have hhands : ¬HandsOver db ctx.projectId (req.patch k).isNew choices :=
              fun hands => hnew hands.1
            rw [hhits]
            exact ⟨fun h => ⟨fun hands => absurd hands hhands, h⟩, fun h => h.2⟩

theorem harmless_iff (ar : Arithmetic F) (hindexed : Indexed db)
    (hsuited : ∀ item ∈ db.items.rows, Suited item)
    (turn : Turn F) : Harmless db ((server ar).handle turn db) ↔ Careful db turn := by
  obtain ⟨edit, choices⟩ := turn
  cases edit with
  | create ctx kind body => exact harmless_create_iff hsuited ctx kind body choices
  | update ctx kind id body => exact harmless_update_iff hindexed hsuited ctx kind id body choices
  | delete ctx kind id => exact iff_of_true (harmless_delete hsuited ctx kind id choices) trivial
  | moveItem ctx kind id body =>
    exact iff_of_true (harmless_moveItem hsuited ctx kind id body choices) trivial

/-- A refusal has changed no item. -/
def RefusalKeeps (ar : Arithmetic F) (db : Db F) (turn : Turn F) : Prop :=
  ∀ problem, (server ar).answer db turn = .error problem →
    ((server ar).next db turn).items = db.items

/-- The items of a run stay sound, and no refusal changes them, exactly as long
as its requests are careful. -/
theorem edits_safe_iff (hindexed : Indexed db) (hsuited : ∀ item ∈ db.items.rows, Suited item)
    (turns : List (Turn F)) :
    (server ar).Always Sound db turns ∧ (server ar).Each (RefusalKeeps ar) db turns ↔
      (server ar).Each Careful db turns := by
  have hstep : ∀ db turn, Indexed db ∧ (∀ item ∈ db.items.rows, Suited item) →
      ((Indexed ((server ar).next db turn) ∧
          ∀ item ∈ ((server ar).next db turn).items.rows, Suited item) ∧
        RefusalKeeps ar db turn ↔ Careful db turn) := by
    intro db turn h
    rw [← harmless_iff ar h.1 h.2]
    constructor
    · exact fun hnext => ⟨hnext.1.2, hnext.2⟩
    · exact fun hharmless => ⟨⟨indexed_alone _ turn.choices h.1, hharmless.1⟩, hharmless.2⟩
  rw [← Server.always_and_each_iff hstep ⟨hindexed, hsuited⟩ turns]
  apply and_congr_left
  intro _
  constructor
  · intro hsound first last hsplit
    have hnext : ∀ db turn, Indexed db → Indexed ((server ar).next db turn) := fun db turn h =>
      indexed_alone ((turn.edit.handler ar).run) turn.choices h
    have hkept := Server.always_of_step hnext hindexed turns
    exact ⟨hkept first last hsplit, (hsound first last hsplit).suited⟩
  · intro hboth first last hsplit
    exact sound_of_indexed (hboth first last hsplit).1 (hboth first last hsplit).2

end Runs

end IntelliPilot.Taxonomy
