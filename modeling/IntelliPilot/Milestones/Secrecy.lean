import IntelliPilot.Milestones.Dates
import IntelliPilot.Milestones.Endpoints
import IntelliPilot.Statement.TwoRuns

/-! # Business release dates behind the endpoints

Two states that differ only in the business release dates of one project are
asked the same requests by someone who may not see those dates. Serialisation
hides them, and every endpoint but one looks at them no further. `update` holds
a technical end that the patch leads to against the stored date: the answers
agree exactly as long as such an end lies before both dates or before neither.
-/

namespace IntelliPilot.Milestones.Endpoints

open Http Statement
open Backlog.Api (IfMatch ensure checkIfMatch ensure_eq_ok ensure_eq_error bind_eq_ok bind_eq_error)
open Epics (State FullEpic Stmt Turn)

/-! ## States that differ in business dates -/

/-- The rows differ at most in their business dates, and those of other projects in nothing. -/
structure Similar (projectId : Uuid) (a b : Milestone) : Prop where
  shown : shown a = shown b
  same : a.projectId ≠ projectId → a = b

/-- Tables of such rows that meet the constraints. -/
structure SimilarTables (projectId : Uuid) (t t' : Table Milestone.id) : Prop where
  rows : List.Forall₂ (Similar projectId) t.rows t'.rows
  valid : ∀ row ∈ t.rows, checkRow row = .ok ()
  valid' : ∀ row ∈ t'.rows, checkRow row = .ok ()

/-- The states differ only in the business dates of the project. -/
def Concealed (projectId : Uuid) (s s' : State) : Prop :=
  ∃ t, s' = { s with milestones := t } ∧ SimilarTables projectId s.milestones t

namespace Similar

variable {projectId : Uuid} {a b : Milestone}

theorem id_eq (h : Similar projectId a b) : a.id = b.id := congrArg (·.id) h.shown

theorem projectId_eq (h : Similar projectId a b) : a.projectId = b.projectId :=
  congrArg (·.projectId) h.shown

theorem live_eq (h : Similar projectId a b) : a.live = b.live := by
  have hshown : (Endpoints.shown a).live = (Endpoints.shown b).live := by rw [h.shown]
  exact hshown

theorem closed_eq (h : Similar projectId a b) : a.closed = b.closed := congrArg (·.closed) h.shown

theorem version_eq (h : Similar projectId a b) : a.version = b.version :=
  congrArg (·.version) h.shown

/-- What is done to the row does not look at its business date. -/
theorem map (h : Similar projectId a b) {f : Milestone → Milestone}
    (hf : ∀ row, Endpoints.shown (f row) = f (Endpoints.shown row))
    (hproject : ∀ row, (f row).projectId = row.projectId) : Similar projectId (f a) (f b) where
  shown := by rw [hf, hf, h.shown]
  same := by
    intro hother
    rw [hproject] at hother
    rw [h.same hother]

/-- Someone who may not see the dates of the project sees two rows alike. -/
theorem view_eq (h : Similar projectId a b) {maySee : Bool}
    (hmay : a.projectId = projectId → maySee = false) : view a maySee = view b maySee := by
  by_cases hproject : a.projectId = projectId
  · rw [view, view, h.shown, hmay hproject]
    rfl
  · rw [h.same hproject]

end Similar

/-! ## Lists of rows -/

section Lists

variable {α β : Type} {R : α → β → Prop} {l : List α} {l' : List β} {p : α → Bool} {q : β → Bool}

theorem filter_rel (h : List.Forall₂ R l l') (hpq : ∀ a b, R a b → p a = q b) :
    List.Forall₂ R (l.filter p) (l'.filter q) := by
  induction h with
  | nil => exact .nil
  | cons hab _ ih =>
    rw [List.filter_cons, List.filter_cons, hpq _ _ hab]
    split
    · exact .cons hab ih
    · exact ih

theorem map_eq_of_rel {γ : Type} (h : List.Forall₂ R l l') {f : α → γ} {g : β → γ}
    (hfg : ∀ a b, R a b → f a = g b) : l.map f = l'.map g := by
  induction h with
  | nil => rfl
  | cons hab _ ih => rw [List.map_cons, List.map_cons, hfg _ _ hab, ih]

theorem any_eq_of_rel (h : List.Forall₂ R l l') (hpq : ∀ a b, R a b → p a = q b) :
    l.any p = l'.any q := by
  induction h with
  | nil => rfl
  | cons hab _ ih => rw [List.any_cons, List.any_cons, hpq _ _ hab, ih]

theorem find?_rel (h : List.Forall₂ R l l') (hpq : ∀ a b, R a b → p a = q b) :
    l.find? p = none ∧ l'.find? q = none ∨
      ∃ a b, l.find? p = some a ∧ l'.find? q = some b ∧ R a b := by
  induction h with
  | nil => exact .inl ⟨rfl, rfl⟩
  | @cons a b l l' hab _ ih =>
    rw [List.find?_cons, List.find?_cons, hpq _ _ hab]
    cases q b with
    | true => exact .inr ⟨a, b, rfl, rfl, hab⟩
    | false => exact ih

theorem filterMap_eq_of_rel {γ : Type} (h : List.Forall₂ R l l') {f : α → Option γ}
    {g : β → Option γ} (hfg : ∀ a b, R a b → f a = g b) : l.filterMap f = l'.filterMap g := by
  induction h with
  | nil => rfl
  | cons hab _ ih => rw [List.filterMap_cons, List.filterMap_cons, hfg _ _ hab, ih]

/-- Two such lists are the sides of one list of pairs. -/
theorem exists_pairs (h : List.Forall₂ R l l') :
    ∃ pairs : List (α × β), l = pairs.map Prod.fst ∧ l' = pairs.map Prod.snd ∧
      ∀ pair ∈ pairs, R pair.1 pair.2 := by
  induction h with
  | nil => exact ⟨[], rfl, rfl, fun _ h => absurd h List.not_mem_nil⟩
  | @cons a b l l' hab _ ih =>
    obtain ⟨pairs, rfl, rfl, hpairs⟩ := ih
    refine ⟨(a, b) :: pairs, rfl, rfl, ?_⟩
    intro pair hpair
    rcases List.mem_cons.mp hpair with rfl | htail
    · exact hab
    · exact hpairs pair htail

/-- Sorting by what the relation keeps leaves the lists related. -/
theorem mergeSort_rel (h : List.Forall₂ R l l') {le : α → α → Bool} {le' : β → β → Bool}
    (hle : ∀ a b c d, R a b → R c d → le a c = le' b d) :
    List.Forall₂ R (l.mergeSort le) (l'.mergeSort le') := by
  obtain ⟨pairs, rfl, rfl, hpairs⟩ := exists_pairs h
  have hleft : (pairs.mergeSort fun a b => le a.1 b.1).map Prod.fst =
      (pairs.map Prod.fst).mergeSort le := List.map_mergeSort fun _ _ _ _ => rfl
  have hright : (pairs.mergeSort fun a b => le a.1 b.1).map Prod.snd =
      (pairs.map Prod.snd).mergeSort le' :=
    List.map_mergeSort fun a ha b hb => hle _ _ _ _ (hpairs a ha) (hpairs b hb)
  rw [← hleft, ← hright, List.forall₂_map_left_iff, List.forall₂_map_right_iff,
    List.forall₂_same]
  intro pair hpair
  exact hpairs pair (List.mem_mergeSort.mp hpair)

end Lists

/-! ## Tables -/

namespace SimilarTables

variable {projectId : Uuid} {t t' : Table Milestone.id}

theorem find? (h : SimilarTables projectId t t') (id : Uuid) :
    t.find? id = none ∧ t'.find? id = none ∨
      ∃ a b, t.find? id = some a ∧ t'.find? id = some b ∧ Similar projectId a b :=
  find?_rel h.rows fun a b hab => by rw [hab.id_eq]

theorem isSome_eq (h : SimilarTables projectId t t') (id : Uuid) :
    (t'.find? id).isSome = (t.find? id).isSome := by
  rcases h.find? id with ⟨hnone, hnone'⟩ | ⟨a, b, ha, hb, _⟩
  · rw [hnone, hnone']
  · rw [ha, hb]
    rfl

/-- A milestone is there in both tables or in none. -/
theorem get (h : SimilarTables projectId t t') (now : Int) (owner id : Uuid) :
    Milestones.get ⟨t, now⟩ owner id = none ∧ Milestones.get ⟨t', now⟩ owner id = none ∨
      ∃ a b, Milestones.get ⟨t, now⟩ owner id = some a ∧
        Milestones.get ⟨t', now⟩ owner id = some b ∧ Similar projectId a b := by
  unfold Milestones.get
  rcases h.find? id with ⟨hnone, hnone'⟩ | ⟨a, b, ha, hb, hab⟩
  · left
    rw [hnone, hnone']
    exact ⟨rfl, rfl⟩
  · rw [ha, hb, Option.filter_some, Option.filter_some, hab.projectId_eq, hab.live_eq]
    split
    · exact .inr ⟨a, b, rfl, rfl, hab⟩
    · exact .inl ⟨rfl, rfl⟩

theorem fresh_eq (h : SimilarTables projectId t t') : t'.fresh = t.fresh := by
  have hids : t.rows.map Milestone.id = t'.rows.map Milestone.id :=
    map_eq_of_rel h.rows fun a b hab => hab.id_eq
  rw [Table.fresh, Table.fresh, hids]

/-- One row of each table is rewritten, and what becomes of them is similar again. -/
theorem modify (h : SimilarTables projectId t t') (id : Uuid) (f f' : Milestone → Milestone)
    (hf : ∀ row, (f row).id = row.id) (hf' : ∀ row, (f' row).id = row.id)
    (hrow : ∀ a b, t.find? id = some a → t'.find? id = some b → Similar projectId a b →
      Similar projectId (f a) (f' b) ∧ checkRow (f a) = .ok () ∧ checkRow (f' b) = .ok ()) :
    SimilarTables projectId (t.modify (·.id == id) f hf) (t'.modify (·.id == id) f' hf') := by
  have hfound : ∀ a ∈ t.rows, (a.id == id) = true → t.find? id = some a := by
    intro a ha hid
    rw [← beq_iff_eq.mp hid]
    exact Table.find?_key ha
  have hfound' : ∀ b ∈ t'.rows, (b.id == id) = true → t'.find? id = some b := by
    intro b hb hid
    rw [← beq_iff_eq.mp hid]
    exact Table.find?_key hb
  obtain ⟨pairs, hleft, hright, hpairs⟩ := exists_pairs h.rows
  have hmem : ∀ pair ∈ pairs, pair.1 ∈ t.rows ∧ pair.2 ∈ t'.rows := by
    intro pair hpair
    rw [hleft, hright]
    exact ⟨List.mem_map_of_mem hpair, List.mem_map_of_mem hpair⟩
  have hwritten : ∀ pair ∈ pairs, (pair.1.id == id) = true →
      Similar projectId (f pair.1) (f' pair.2) ∧ checkRow (f pair.1) = .ok () ∧
        checkRow (f' pair.2) = .ok () := by
    intro pair hpair hid
    have hid' : (pair.2.id == id) = true := by rw [← (hpairs pair hpair).id_eq]; exact hid
    exact hrow _ _ (hfound _ (hmem pair hpair).1 hid) (hfound' _ (hmem pair hpair).2 hid')
      (hpairs pair hpair)
  refine ⟨?_, ?_, ?_⟩
  · show List.Forall₂ _ (Rows.updateWhere _ f t.rows) (Rows.updateWhere _ f' t'.rows)
    rw [Rows.updateWhere, Rows.updateWhere, hleft, hright, List.map_map, List.map_map,
      List.forall₂_map_left_iff, List.forall₂_map_right_iff, List.forall₂_same]
    intro pair hpair
    have hab := hpairs pair hpair
    simp only [Function.comp_apply, ← hab.id_eq]
    split
    · rename_i hid
      exact (hwritten pair hpair hid).1
    · exact hab
  · intro row hrow
    obtain ⟨old, hold, rfl⟩ := Table.mem_modify.mp hrow
    split
    · rename_i hid
      rw [hleft] at hold
      obtain ⟨pair, hpair, rfl⟩ := List.mem_map.mp hold
      exact (hwritten pair hpair hid).2.1
    · exact h.valid old hold
  · intro row hrow
    obtain ⟨old, hold, rfl⟩ := Table.mem_modify.mp hrow
    split
    · rename_i hid
      rw [hright] at hold
      obtain ⟨pair, hpair, rfl⟩ := List.mem_map.mp hold
      rw [← (hpairs pair hpair).id_eq] at hid
      exact (hwritten pair hpair hid).2.2
    · exact h.valid' old hold

end SimilarTables

/-! ## Statements on epics -/

section Statements

variable {projectId : Uuid}

/-- Every statement but the one that completes a milestone. -/
def Plain {β : Type} : Stmt β → Prop
  | .setCompleted _ _ _ => False
  | _ => True

variable {s s' : State}

theorem Concealed.milestone? (h : Concealed projectId s s') (owner id : Uuid) :
    s.milestone? owner id = none ∧ s'.milestone? owner id = none ∨
      ∃ a b, s.milestone? owner id = some a ∧ s'.milestone? owner id = some b ∧
        Similar projectId a b := by
  obtain ⟨t, rfl, ht⟩ := h
  exact ht.get s.db.now owner id

theorem Concealed.inProject (h : Concealed projectId s s') (owner id : Uuid) :
    s.milestoneInProject owner id = s'.milestoneInProject owner id := by
  rw [State.milestoneInProject, State.milestoneInProject]
  rcases h.milestone? owner id with ⟨hnone, hnone'⟩ | ⟨a, b, ha, hb, _⟩
  · rw [hnone, hnone']
  · rw [ha, hb]
    rfl

theorem Concealed.closed (h : Concealed projectId s s') (owner id : Uuid) :
    s.milestoneClosed owner id = s'.milestoneClosed owner id := by
  rw [State.milestoneClosed, State.milestoneClosed]
  rcases h.milestone? owner id with ⟨hnone, hnone'⟩ | ⟨a, b, ha, hb, hab⟩
  · rw [hnone, hnone']
  · rw [ha, hb, Option.any_some, Option.any_some, hab.closed_eq]

theorem accepts_with {t : Table Milestone.id} (h : SimilarTables projectId s.milestones t)
    (w : Epics.EpicWrite) :
    State.accepts w { s with milestones := t } = s.accepts w := by
  unfold State.accepts
  simp only [h.isSome_eq]

theorem Concealed.wait (h : Concealed projectId s s') (elapse : Nat) :
    Concealed projectId (s.wait elapse) (s'.wait elapse) := by
  obtain ⟨t, rfl, ht⟩ := h
  exact ⟨t, rfl, ht⟩

theorem effect_updateEpic (h : Concealed projectId s s') (owner id : Uuid) (version : Nat)
    (w : Epics.EpicWrite) :
    (s.updateEpic owner id version w).1 = (s'.updateEpic owner id version w).1 ∧
      Concealed projectId (s.updateEpic owner id version w).2
        (s'.updateEpic owner id version w).2 := by
  obtain ⟨t, rfl, ht⟩ := h
  have haccepts := accepts_with ht w
  have hselect : State.selectEpic owner id { s with milestones := t } = s.selectEpic owner id := rfl
  unfold State.updateEpic
  rw [haccepts, hselect]
  cases (s.selectEpic owner id).filter (·.version == version) with
  | none => exact ⟨rfl, t, rfl, ht⟩
  | some epic =>
    cases s.accepts w with
    | false | true => exact ⟨rfl, t, rfl, ht⟩

theorem effect_insertEpic (h : Concealed projectId s s') (owner ownerId : Uuid) (reference : Nat)
    (w : Epics.EpicWrite) :
    (s.insertEpic owner ownerId reference w).1 = (s'.insertEpic owner ownerId reference w).1 ∧
      Concealed projectId (s.insertEpic owner ownerId reference w).2
        (s'.insertEpic owner ownerId reference w).2 := by
  obtain ⟨t, rfl, ht⟩ := h
  have haccepts := accepts_with ht w
  unfold State.insertEpic
  rw [haccepts]
  cases s.accepts w with
  | false => exact ⟨rfl, t, rfl, ht⟩
  | true =>
    simp only [if_true]
    split
    · exact ⟨rfl, t, rfl, ht⟩
    · exact ⟨rfl, t, rfl, ht⟩

theorem effect_attachEpics (h : Concealed projectId s s') (owner id : Uuid) (ids : List Uuid) :
    (s.attachEpics owner id ids).1 = (s'.attachEpics owner id ids).1 ∧
      Concealed projectId (s.attachEpics owner id ids).2 (s'.attachEpics owner id ids).2 := by
  obtain ⟨t, rfl, ht⟩ := h
  unfold State.attachEpics
  rw [ht.isSome_eq id]
  cases (s.milestones.find? id).isSome with
  | false | true => exact ⟨rfl, t, rfl, ht⟩

theorem effect_storeKey (h : Concealed projectId s s') (row : Epics.StoredEpic) :
    Concealed projectId (s.storeKey row) (s'.storeKey row) := by
  obtain ⟨t, rfl, ht⟩ := h
  unfold State.storeKey
  split
  · exact ⟨t, rfl, ht⟩
  · exact ⟨t, rfl, ht⟩

theorem effect_deleteMilestone (h : Concealed projectId s s') (owner id : Uuid) :
    (s.deleteMilestone owner id).1 = (s'.deleteMilestone owner id).1 ∧
      Concealed projectId (s.deleteMilestone owner id).2 (s'.deleteMilestone owner id).2 := by
  have hin := h.inProject owner id
  unfold State.deleteMilestone
  rw [← hin]
  split
  · obtain ⟨t, rfl, ht⟩ := h
    let erase : Milestone → Milestone := fun row => { row with deletedAt := some s.db.now }
    refine ⟨rfl, _, rfl, ht.modify id erase erase (fun _ => rfl) (fun _ => rfl) ?_⟩
    intro a b ha hb hab
    refine ⟨hab.map (f := erase) (fun _ => rfl) fun _ => rfl, ?_, ?_⟩
    · exact ht.valid a (Table.mem_of_find? ha)
    · exact ht.valid' b (Table.mem_of_find? hb)
  · exact ⟨rfl, h⟩

theorem agrees_effect {β : Type} {stmt : Stmt β} (hplain : Plain stmt)
    (h : Concealed projectId s s') :
    (stmt.effect s).1 = (stmt.effect s').1 ∧
      Concealed projectId (stmt.effect s).2 (stmt.effect s').2 := by
  cases stmt with
  | milestoneInProject owner id => exact ⟨congrArg Except.ok (h.inProject owner id), h⟩
  | milestoneClosed owner id => exact ⟨congrArg Except.ok (h.closed owner id), h⟩
  | insertEpic owner ownerId reference w => exact effect_insertEpic h owner ownerId reference w
  | updateEpic owner id version w => exact effect_updateEpic h owner id version w
  | attachEpics owner id ids => exact effect_attachEpics h owner id ids
  | storeKey row => exact ⟨rfl, effect_storeKey h row⟩
  | deleteMilestone owner id =>
    obtain ⟨hresult, hstate⟩ := effect_deleteMilestone h owner id
    exact ⟨congrArg Except.ok hresult, hstate⟩
  | setCompleted owner id completed => exact hplain.elim
  | hasEpics owner id | selectEpic owner id | taskTotal owner epicId
  | lookupKey userId key method path | now | allocEpicRef owner | detachEpics owner id =>
    obtain ⟨t, rfl, ht⟩ := h
    exact ⟨rfl, t, rfl, ht⟩

theorem failure_eq {β : Type} (stmt : Stmt β) (h : Concealed projectId s s') :
    stmt.failure s = stmt.failure s' := by
  obtain ⟨t, rfl, _⟩ := h
  cases stmt <;> rfl

theorem agrees_plain {β : Type} {stmt : Stmt β} (hplain : Plain stmt) :
    Agrees Stmt.exec (Concealed projectId) stmt := by
  intro choice s s' h
  unfold Stmt.exec
  dsimp only
  split
  · exact ⟨failure_eq stmt (h.wait choice.elapse), h.wait choice.elapse⟩
  · exact agrees_effect hplain (h.wait choice.elapse)

end Statements

/-! ## Handlers of epics -/

section Handlers

open Epics (Handler Answer createEpic updateEpic setEpics deleteMilestone)

theorem plain_validate (owner : Uuid) (milestoneId : Option Uuid) :
    (Epics.validateEpicMilestoneAssignment owner milestoneId).run.Only Plain := by
  unfold Epics.validateEpicMilestoneAssignment
  cases milestoneId with
  | none => trivial
  | some id =>
    refine only_run_bind (only_orDefault (by trivial) _) fun _ => ?_
    refine only_run_bind (only_refuseUnless _ _) fun _ => ?_
    exact only_run_bind (only_orDefault (by trivial) _) fun _ => only_refuseUnless _ _

theorem plain_remember (userId : Uuid) (key : Option String) (path : String) (body : FullEpic) :
    (Epics.remember userId key path body).run.Only Plain := by
  cases key with
  | none => trivial
  | some key =>
    refine only_run_bind (only_orRefuse (by trivial) _) fun _ => ?_
    exact only_orDefault (by trivial) ()

theorem plain_createEpic (ctx : Issues.Context) (key : Option String)
    (body : Issues.CreateBody Epics.CreateEpicRequest) :
    (createEpic ctx key body).run.Only Plain := by
  unfold createEpic
  refine only_run_bind (only_refuseUnless _ _) fun _ => ?_
  refine only_run_bind (only_given _) fun req => ?_
  refine only_run_bind (plain_validate _ _) fun _ => ?_
  have hreplay : (Epics.replay ctx.actorId key (Epics.epicsPath ctx.projectId)).run.Only Plain := by
    cases key with
    | none => trivial
    | some key => exact only_orDefault (by trivial) none
  refine only_run_bind hreplay fun stored => ?_
  cases stored with
  | some row => trivial
  | none =>
    refine only_run_bind (only_orRefuse (by trivial) _) fun reference => ?_
    refine only_run_bind (only_orRefuse (by trivial) _) fun epic => ?_
    exact only_run_bind (plain_remember _ _ _ _) fun _ => trivial

theorem plain_updateEpic (ctx : Issues.Context) (req : Epics.UpdateRequest) :
    (updateEpic ctx req).run.Only Plain := by
  unfold updateEpic
  refine only_run_bind (only_refuseUnless _ _) fun _ => ?_
  refine only_run_bind (only_given _) fun patch => ?_
  have hread : (Epics.readOld ctx.projectId req.id).run.Only Plain := by
    unfold Epics.readOld
    refine only_run_bind (only_orRefuse (by trivial) _) fun found => ?_
    cases found with
    | none => trivial
    | some epic => exact only_run_bind (only_orRefuse (by trivial) _) fun _ => trivial
  refine only_run_bind hread fun old => ?_
  refine only_run_bind (only_given _) fun _ => ?_
  have hmove : (Epics.validateMove ctx.projectId old (patch.over old)).run.Only Plain := by
    unfold Epics.validateMove
    split
    · exact plain_validate _ _
    · trivial
  refine only_run_bind hmove fun _ => ?_
  unfold Epics.writePatch
  refine only_run_bind (only_orRefuse (by trivial) _) fun updated => ?_
  cases updated with
  | some epic => exact only_run_bind (only_orRefuse (by trivial) _) fun _ => trivial
  | none =>
    refine only_run_bind (only_orRefuse (by trivial) _) fun found => ?_
    split
    · trivial
    · trivial

theorem plain_setEpics (ctx : Issues.Context) (id : Uuid) (body : Issues.CreateBody (List Uuid)) :
    (setEpics ctx id body).run.Only Plain := by
  have hreplace : ∀ ids, (Epics.replaceEpics ctx.projectId id ids).run.Only Plain := by
    intro ids
    unfold Epics.replaceEpics
    refine only_run_bind (only_orRefuse (by trivial) _) fun _ => ?_
    split
    · trivial
    · exact only_orRefuse (by trivial) _
  unfold setEpics
  refine only_run_bind (only_refuseUnless _ _) fun _ => ?_
  refine only_run_bind (only_given _) fun ids => ?_
  refine only_run_bind (only_orDefault (by trivial) _) fun _ => ?_
  refine only_run_bind (only_refuseUnless _ _) fun _ => ?_
  split
  · exact only_run_bind (hreplace ids) fun _ => trivial
  · refine only_run_bind ?_ fun _ => only_run_bind (hreplace ids) fun _ => trivial
    exact only_run_bind (only_orDefault (by trivial) _) fun _ => only_refuseUnless _ _

theorem plain_deleteMilestone (ctx : Issues.Context) (id : Uuid) :
    (deleteMilestone ctx id).run.Only Plain := by
  unfold deleteMilestone
  refine only_run_bind (only_refuseUnless _ _) fun _ => ?_
  refine only_run_bind (only_orRefuse (by trivial) _) fun _ => ?_
  refine only_run_bind (only_refuseUnless _ _) fun _ => ?_
  refine only_run_bind (only_orRefuse (by trivial) _) fun _ => ?_
  exact only_run_bind (only_refuseUnless _ _) fun _ => trivial

variable {projectId : Uuid} {s s' : State}

theorem onEpics_agrees {p : Handler Answer} (hp : p.run.Only Plain)
    (h : Concealed projectId s s') (choices : Nat → Issues.Choice) :
    (Epics.onEpics p choices s).1 = (Epics.onEpics p choices s').1 ∧
      Concealed projectId (Epics.onEpics p choices s).2 (Epics.onEpics p choices s').2 :=
  Prog.alone_agrees (hp.mono fun _ hplain => agrees_plain hplain) h choices

theorem onIssues_agrees (p : Issues.Handler Issues.Answer) (h : Concealed projectId s s')
    (choices : Nat → Issues.Choice) :
    (Epics.onIssues p choices s).1 = (Epics.onIssues p choices s').1 ∧
      Concealed projectId (Epics.onIssues p choices s).2 (Epics.onIssues p choices s').2 := by
  obtain ⟨t, rfl, ht⟩ := h
  exact ⟨rfl, t, rfl, ht⟩

/-! ## Completing a milestone -/

theorem checkRow_reopenRow {row : Milestone} (h : checkRow row = .ok ()) :
    checkRow (reopenRow row) = .ok () := h

/-- Completing a milestone leaves its technical end where it was. -/
theorem checkRow_closeRow {row : Milestone} (now : Int) (h : checkRow row = .ok ()) :
    checkRow (closeRow now row) = .ok () := by
  rw [checkRow_ok_iff] at h ⊢
  obtain ⟨hrange, hbusiness⟩ := h
  cases hactual : row.actualEndDate with
  | some actual =>
    rw [hactual] at hrange hbusiness
    simpa [closeRow, hactual] using And.intro hrange hbusiness
  | none =>
    rw [hactual] at hbusiness
    cases hstarted : row.actualStartDate.all fun start => row.endDate.any (start ≤ ·) with
    | false =>
      simp only [closeRow, hactual, hstarted]
      refine ⟨?_, hbusiness⟩
      rw [datesOk_iff]
      simp
    | true =>
      simp only [closeRow, hactual, hstarted]
      refine ⟨?_, ?_⟩
      · rw [datesOk_iff]
        intro start hstart finish hfinish
        simp only [Option.isSome_none, Bool.false_eq_true, if_false, if_true] at hfinish
        rw [Option.mem_def] at hstart hfinish
        rw [hstart, hfinish] at hstarted
        simpa using hstarted
      · rw [effectiveEnd_eq] at hbusiness ⊢
        simpa using hbusiness

theorem similar_completed {a b : Milestone} (h : Similar projectId a b) (completed : Bool)
    (now : Int) : Similar projectId (if completed then closeRow now a else reopenRow a)
      (if completed then closeRow now b else reopenRow b) := by
  cases completed with
  | true => exact h.map (f := closeRow now) (fun _ => rfl) fun _ => rfl
  | false => exact h.map (f := reopenRow) (fun _ => rfl) fun _ => rfl

/-- What the statement that completes a milestone returns looks alike. -/
def SameRow (projectId : Uuid) :
    Except Issues.DbError (Option Milestone) → Except Issues.DbError (Option Milestone) → Prop
  | .ok (some a), .ok (some b) => Similar projectId a b
  | .ok none, .ok none => True
  | .error e, .error e' => e = e'
  | _, _ => False

theorem effect_setCompleted (h : Concealed projectId s s') (owner id : Uuid) (completed : Bool) :
    SameRow projectId (s.setCompleted owner id completed).1 (s'.setCompleted owner id completed).1 ∧
      (∀ row, (s.setCompleted owner id completed).1 = .ok (some row) → row.projectId = owner) ∧
      Concealed projectId (s.setCompleted owner id completed).2
        (s'.setCompleted owner id completed).2 := by
  have hfound := h.milestone? owner id
  obtain ⟨t, rfl, ht⟩ := h
  unfold State.setCompleted
  rcases hfound with ⟨hnone, hnone'⟩ | ⟨a, b, ha, hb, hab⟩
  · rw [hnone, hnone']
    refine ⟨trivial, ?_, t, rfl, ht⟩
    intro row hrow
    cases hrow
  · rw [ha, hb]
    obtain ⟨hstored, howner⟩ := Option.filter_eq_some_iff.mp ha
    obtain ⟨hstored', _⟩ := Option.filter_eq_some_iff.mp hb
    have hvalid := ht.valid a (Table.mem_of_find? hstored)
    have hvalid' := ht.valid' b (Table.mem_of_find? hstored')
    have hida : a.id = id := Table.key_of_find? hstored
    have hidb : b.id = id := Table.key_of_find? hstored'
    have hproject : a.projectId = owner := by
      simpa using (Bool.and_eq_true_iff.mp howner).1
    cases completed with
    | true =>
      simp only [if_true, writeRow, checkRow_closeRow s.db.now hvalid,
        checkRow_closeRow s.db.now hvalid']
      refine ⟨similar_completed hab true s.db.now, ?_, _, rfl, ?_⟩
      · intro row hrow
        rw [← Option.some.inj (Except.ok.inj hrow)]
        exact hproject
      · rw [hida, hidb]
        refine ht.modify id (closeRow s.db.now) (closeRow s.db.now) (fun _ => rfl)
          (fun _ => rfl) ?_
        intro a' b' ha' hb' hab'
        refine ⟨similar_completed hab' true s.db.now, ?_, ?_⟩
        · exact checkRow_closeRow _ (ht.valid a' (Table.mem_of_find? ha'))
        · exact checkRow_closeRow _ (ht.valid' b' (Table.mem_of_find? hb'))
    | false =>
      simp only [Bool.false_eq_true, if_false, writeRow, checkRow_reopenRow hvalid,
        checkRow_reopenRow hvalid']
      refine ⟨similar_completed hab false s.db.now, ?_, _, rfl, ?_⟩
      · intro row hrow
        rw [← Option.some.inj (Except.ok.inj hrow)]
        exact hproject
      · rw [hida, hidb]
        refine ht.modify id reopenRow reopenRow (fun _ => rfl) (fun _ => rfl) ?_
        intro a' b' ha' hb' hab'
        refine ⟨similar_completed hab' false s.db.now, ?_, ?_⟩
        · exact checkRow_reopenRow (ht.valid a' (Table.mem_of_find? ha'))
        · exact checkRow_reopenRow (ht.valid' b' (Table.mem_of_find? hb'))

end Handlers

/-! ## Creating a milestone -/

section Writes

variable {projectId : Uuid} {s s' : State}

theorem Similar.refl (projectId : Uuid) (row : Milestone) : Similar projectId row row :=
  ⟨rfl, fun _ => rfl⟩

variable {t t' : Table Milestone.id} {row : Milestone}

theorem SimilarTables.insert (h : SimilarTables projectId t t') (hcheck : checkRow row = .ok ())
    (hfree : t.find? row.id = none) (hfree' : t'.find? row.id = none) :
    SimilarTables projectId (t.insert row hfree) (t'.insert row hfree') where
  rows := List.rel_append h.rows (.cons (Similar.refl projectId row) .nil)
  valid := by
    intro other hother
    rcases List.mem_append.mp hother with hold | hnew
    · exact h.valid other hold
    · rw [List.mem_singleton.mp hnew]
      exact hcheck
  valid' := by
    intro other hother
    rcases List.mem_append.mp hother with hold | hnew
    · exact h.valid' other hold
    · rw [List.mem_singleton.mp hnew]
      exact hcheck

theorem slugTaken_eq (h : SimilarTables projectId t t') (now : Int) (owner : Uuid) (slug : String) :
    slugTaken ⟨t', now⟩ owner slug = slugTaken ⟨t, now⟩ owner slug := by
  refine (any_eq_of_rel h.rows ?_).symm
  intro a b hab
  have hslug : a.slug = b.slug := congrArg (·.slug) hab.shown
  rw [hab.projectId_eq, hslug]

/-- A new milestone is stored in both states or in none. -/
theorem insertMilestone_agrees (h : SimilarTables projectId t t') (now : Int) (owner : Uuid)
    (new : MilestoneNew) :
    (∃ e, insertMilestone owner new ⟨t, now⟩ = .error e ∧
        insertMilestone owner new ⟨t', now⟩ = .error e) ∨
      ∃ row t₁ t₁', insertMilestone owner new ⟨t, now⟩ = .ok (row, ⟨t₁, now⟩) ∧
        insertMilestone owner new ⟨t', now⟩ = .ok (row, ⟨t₁', now⟩) ∧
          SimilarTables projectId t₁ t₁' := by
  have hslug := slugTaken_eq h now owner new.slug
  have hrow : new.row t'.fresh owner = new.row t.fresh owner := by rw [h.fresh_eq]
  by_cases hlong : 100 < new.slug.length
  · left
    refine ⟨.valueTooLong, ?_, ?_⟩
    · simp only [insertMilestone, if_pos hlong]
      rfl
    · simp only [insertMilestone, if_pos hlong]
      rfl
  · cases hcheck : checkRow (new.row t.fresh owner) with
    | error e =>
      left
      refine ⟨e, ?_, ?_⟩
      · simp only [insertMilestone, if_neg hlong, hcheck]
        rfl
      · simp only [insertMilestone, if_neg hlong, hrow, hcheck]
        rfl
    | ok u =>
      cases htaken : slugTaken ⟨t, now⟩ owner new.slug with
      | true =>
        left
        refine ⟨.uniqueViolation, ?_, ?_⟩
        · simp only [insertMilestone, if_neg hlong, hcheck, htaken, if_pos]
          rfl
        · simp only [insertMilestone, if_neg hlong, hrow, hcheck, hslug, htaken, if_pos]
          rfl
      | false =>
        right
        have hfree' : t'.find? (new.row t.fresh owner).id = none := by
          rw [← hrow]
          exact t'.find?_fresh
        refine ⟨new.row t.fresh owner, t.insert (new.row t.fresh owner) t.find?_fresh,
          t'.insert (new.row t.fresh owner) hfree', ?_, ?_, h.insert hcheck _ _⟩
        · simp only [insertMilestone, if_neg hlong, hcheck, htaken]
          rfl
        · simp only [insertMilestone, if_neg hlong, hrow, hcheck, hslug, htaken]
          rfl

theorem create_agrees (h : Concealed projectId s s') (caller : Caller) (owner : Uuid)
    (body : Except Problem CreateMilestoneRequest) (maySee : Bool) :
    (written maySee 201 s (create caller owner body (table s))).1 =
        (written maySee 201 s' (create caller owner body (table s'))).1 ∧
      Concealed projectId (written maySee 201 s (create caller owner body (table s))).2
        (written maySee 201 s' (create caller owner body (table s'))).2 := by
  obtain ⟨t, rfl, ht⟩ := h
  unfold create
  cases admitCreate caller body with
  | error problem => exact ⟨rfl, t, rfl, ht⟩
  | ok req =>
    rcases insertMilestone_agrees ht s.db.now owner req.new with
      ⟨e, he, he'⟩ | ⟨row, t₁, t₁', hok, hok', htables⟩
    · simp only [table, he, he']
      cases e with
      | check constraint | valueTooLong | uniqueViolation => exact ⟨rfl, t, rfl, ht⟩
    · simp only [table, hok, hok']
      exact ⟨rfl, t₁', rfl, htables⟩

/-! ## Patching a milestone -/

/-- What `update` checks on the stored row before it looks at the business date. -/
def shownRules (header : IfMatch) (existing : Milestone) (req : UpdateMilestoneRequest) :
    Except Problem Unit := do
  checkIfMatch header (existing.id, existing.version)
  ensure (datesOk (req.startDate.getD existing.startDate) (req.endDate.getD existing.endDate))
    (invalidDates "end_date must be on or after start_date")
  ensure (datesOk (req.startDate.getD existing.startDate)
    (req.actualEndDate.getD existing.actualEndDate))
    (invalidDates "actual_end_date must be on or after start_date")
  ensure (datesOk (req.actualStartDate.getD existing.actualStartDate)
    (req.actualEndDate.getD existing.actualEndDate)) (invalidDates actualRangeRule)

/-- `update`, up to the rule about the business date. -/
def admitShown (caller : Caller) (owner id : Uuid) (header : IfMatch)
    (body : Except Problem UpdateMilestoneRequest) (db : Db) :
    Except Problem (Milestone × UpdateMilestoneRequest) := do
  ensure caller.mayModify forbidden
  let req ← body
  ensure (req.businessReleaseDate.isNone || caller.mayModifyBusinessRelease) forbidden
  let existing ← (Milestones.get db owner id).elim (.error notFound) .ok
  shownRules header existing req
  return (existing, req)

/-- The technical end of the row that a patch would produce. -/
def technicalEnd (existing : Milestone) (req : UpdateMilestoneRequest) : Option Date :=
  effectiveEnd (req.endDate.getD existing.endDate) (req.actualEndDate.getD existing.actualEndDate)

/-- The last of the date rules, on the row the patch would produce. -/
def releaseAllows (existing : Milestone) (req : UpdateMilestoneRequest) : Bool :=
  businessReleaseOk (technicalEnd existing req)
    (if (technicalEnd existing req).isNone then none
      else req.businessReleaseDate.getD existing.businessReleaseDate)

theorem admitUpdate_eq (caller : Caller) (owner id : Uuid) (header : IfMatch)
    (body : Except Problem UpdateMilestoneRequest) (db : Db) :
    admitUpdate caller owner id header body db =
      (admitShown caller owner id header body db >>= fun admitted =>
        ensure (releaseAllows admitted.1 admitted.2) (invalidDates businessReleaseRule) >>=
          fun _ => .ok admitted) := by
  unfold admitUpdate admitShown shownRules validateDates
  simp only [bind_assoc, pure_bind]
  rfl

variable {a b : Milestone}

theorem shownRules_eq (h : Similar projectId a b) (header : IfMatch)
    (req : UpdateMilestoneRequest) : shownRules header a req = shownRules header b req := by
  have hstart : a.startDate = b.startDate := congrArg (·.startDate) h.shown
  have hend : a.endDate = b.endDate := congrArg (·.endDate) h.shown
  have hactualStart : a.actualStartDate = b.actualStartDate :=
    congrArg (·.actualStartDate) h.shown
  have hactualEnd : a.actualEndDate = b.actualEndDate := congrArg (·.actualEndDate) h.shown
  unfold shownRules
  rw [h.id_eq, h.version_eq, hstart, hend, hactualStart, hactualEnd]

theorem technicalEnd_eq (h : Similar projectId a b) (req : UpdateMilestoneRequest) :
    technicalEnd a req = technicalEnd b req := by
  have hend : a.endDate = b.endDate := congrArg (·.endDate) h.shown
  have hactualEnd : a.actualEndDate = b.actualEndDate := congrArg (·.actualEndDate) h.shown
  rw [technicalEnd, technicalEnd, hend, hactualEnd]

/-- Up to the business date a patch is admitted in both states or refused in both. -/
theorem admitShown_agrees (h : SimilarTables projectId t t') (now : Int) (caller : Caller)
    (owner id : Uuid) (header : IfMatch) (body : Except Problem UpdateMilestoneRequest) :
    (∃ problem, admitShown caller owner id header body ⟨t, now⟩ = .error problem ∧
        admitShown caller owner id header body ⟨t', now⟩ = .error problem) ∨
      ∃ a b req, admitShown caller owner id header body ⟨t, now⟩ = .ok (a, req) ∧
        admitShown caller owner id header body ⟨t', now⟩ = .ok (b, req) ∧
          Similar projectId a b ∧ Milestones.get ⟨t, now⟩ owner id = some a ∧
            Milestones.get ⟨t', now⟩ owner id = some b := by
  unfold admitShown
  cases ensure caller.mayModify forbidden with
  | error problem => exact .inl ⟨problem, rfl, rfl⟩
  | ok u =>
    cases body with
    | error problem => exact .inl ⟨problem, rfl, rfl⟩
    | ok req =>
      simp only [bind, Except.bind]
      cases ensure (req.businessReleaseDate.isNone || caller.mayModifyBusinessRelease)
          forbidden with
      | error problem => exact .inl ⟨problem, rfl, rfl⟩
      | ok u =>
        rcases h.get now owner id with ⟨hnone, hnone'⟩ | ⟨a, b, ha, hb, hab⟩
        · rw [hnone, hnone']
          exact .inl ⟨notFound, rfl, rfl⟩
        · rw [ha, hb]
          simp only [Option.elim_some, shownRules_eq hab]
          cases shownRules header b req with
          | error problem => exact .inl ⟨problem, rfl, rfl⟩
          | ok u => exact .inr ⟨a, b, req, rfl, rfl, hab, rfl, rfl⟩

variable {req : UpdateMilestoneRequest}

/-- The business date does not decide anything the date rules leave open. -/
theorem checkRow_apply_eq (h : Similar projectId a b) (hallows : releaseAllows a req = true)
    (hallows' : releaseAllows b req = true) : checkRow (req.apply a) = checkRow (req.apply b) := by
  have hstart : a.actualStartDate = b.actualStartDate := congrArg (·.actualStartDate) h.shown
  have hend : a.endDate = b.endDate := congrArg (·.endDate) h.shown
  have hactual : a.actualEndDate = b.actualEndDate := congrArg (·.actualEndDate) h.shown
  have hrange : actualEndAfterActualStart (req.apply a) =
      actualEndAfterActualStart (req.apply b) := by
    simp [actualEndAfterActualStart, MilestonePatch.apply, hstart, hactual]
  have hbusiness : businessReleaseAfterEnd (req.apply a) =
      businessReleaseAfterEnd (req.apply b) := by
    have hafter : ∀ row, businessReleaseAfterEnd row = businessReleaseOk
        (effectiveEnd row.endDate row.actualEndDate) row.businessReleaseDate := by
      intro row
      rw [effectiveEnd_eq]
      rfl
    rw [hafter, hafter]
    cases hgiven : req.businessReleaseDate with
    | some business => simp [MilestonePatch.apply, hgiven, hend, hactual]
    | none =>
      -- what stays of a stored date has just passed the rule
      have hkept : ∀ row, releaseAllows row req = true → businessReleaseOk
          (effectiveEnd (req.apply row).endDate (req.apply row).actualEndDate)
          (req.apply row).businessReleaseDate = true := by
        intro row hrow
        simp only [releaseAllows, technicalEnd, hgiven, Option.getD_none] at hrow
        simp only [MilestonePatch.apply, hgiven, ← effectiveEnd_eq]
        exact hrow
      rw [hkept a hallows, hkept b hallows']
  rw [checkRow, checkRow, hrange, hbusiness]

theorem similar_apply (h : Similar projectId a b) (req : UpdateMilestoneRequest) :
    Similar projectId (req.apply a) (req.apply b) where
  shown := by
    have hrow : ∀ row, Endpoints.shown (req.apply row) =
        { Endpoints.shown row with
          name := req.name.getD (Endpoints.shown row).name
          description := req.description.getD (Endpoints.shown row).description
          startDate := req.startDate.getD (Endpoints.shown row).startDate
          endDate := req.endDate.getD (Endpoints.shown row).endDate
          actualEndDate := req.actualEndDate.getD (Endpoints.shown row).actualEndDate
          actualStartDate := req.actualStartDate.getD (Endpoints.shown row).actualStartDate
          version := (Endpoints.shown row).version + 1 } := fun _ => rfl
    rw [hrow, hrow, h.shown]
  same := by
    intro hother
    have hrow : a = b := h.same hother
    rw [hrow]

/-- The patch passes the rule about the business date. -/
theorem releaseAllows_iff :
    releaseAllows row req = true ↔ ∀ e, technicalEnd row req = some e →
      ∀ d, req.businessReleaseDate.getD row.businessReleaseDate = some d → e < d := by
  unfold releaseAllows
  cases technicalEnd row req with
  | none => simp [businessReleaseOk]
  | some e =>
    rw [businessReleaseOk_iff]
    simp

/-- A technical end that a patch leads to lies before both stored dates or
before neither; a date that is not set is never reached. -/
def SameSide (a b : Milestone) (req : UpdateMilestoneRequest) : Prop :=
  req.businessReleaseDate = none → ∀ e, technicalEnd a req = some e →
    ((∀ d, a.businessReleaseDate = some d → e < d) ↔ ∀ d, b.businessReleaseDate = some d → e < d)

theorem sameSide_iff (h : Similar projectId a b) :
    SameSide a b req ↔ releaseAllows a req = releaseAllows b req := by
  unfold SameSide
  rw [Bool.eq_iff_iff, releaseAllows_iff, releaseAllows_iff, ← technicalEnd_eq h]
  cases req.businessReleaseDate with
  | some business => simp
  | none =>
    cases technicalEnd a req with
    | none => simp
    | some e => simp

variable {body : Except Problem UpdateMilestoneRequest} {caller : Caller} {owner id : Uuid}
  {header : IfMatch}

theorem update_refused {db : Db} {problem : Problem}
    (h : admitUpdate caller owner id header body db = .error problem) :
    update caller owner id header body db = (.error problem, db) := by
  unfold update
  rw [h]

/-- An admitted patch is written unless a constraint of the table stops it. -/
theorem update_admitted {db : Db} (h : admitUpdate caller owner id header body db = .ok (row, req))
    (hget : Milestones.get db owner id = some row) :
    update caller owner id header body db =
      match checkRow (req.apply row) with
      | .ok _ => (.ok (req.apply row),
          { db with milestones := db.milestones.modify (·.id == row.id) req.apply fun _ => rfl })
      | .error _ => (.error internal, db) := by
  unfold update
  rw [h]
  simp only [updateMilestone, hget, if_true, writeRow]
  cases checkRow (req.apply row) with
  | error e => rfl
  | ok u => rfl

/-- What the two states make of a patch that both admit. -/
theorem update_written (ht : SimilarTables projectId t t') (now : Int) (hab : Similar projectId a b)
    (ha : Milestones.get ⟨t, now⟩ owner id = some a)
    (hb : Milestones.get ⟨t', now⟩ owner id = some b)
    (hadmitted : admitUpdate caller owner id header body ⟨t, now⟩ = .ok (a, req))
    (hadmitted' : admitUpdate caller owner id header body ⟨t', now⟩ = .ok (b, req))
    (hallows : releaseAllows a req = true) (hallows' : releaseAllows b req = true) :
    (update caller owner id header body ⟨t, now⟩ = (.error internal, ⟨t, now⟩) ∧
        update caller owner id header body ⟨t', now⟩ = (.error internal, ⟨t', now⟩)) ∨
      ∃ t₁ t₁', update caller owner id header body ⟨t, now⟩ = (.ok (req.apply a), ⟨t₁, now⟩) ∧
        update caller owner id header body ⟨t', now⟩ = (.ok (req.apply b), ⟨t₁', now⟩) ∧
          SimilarTables projectId t₁ t₁' := by
  have hcheck := checkRow_apply_eq hab hallows hallows'
  rw [update_admitted hadmitted ha, update_admitted hadmitted' hb, ← hcheck]
  cases hchecked : checkRow (req.apply a) with
  | error e => exact .inl ⟨rfl, rfl⟩
  | ok u =>
    right
    refine ⟨_, _, rfl, rfl, ?_⟩
    rw [← hab.id_eq]
    have hstored := (Option.filter_eq_some_iff.mp ha).1
    have hstored' := (Option.filter_eq_some_iff.mp hb).1
    have hid : a.id = id := Table.key_of_find? hstored
    rw [hid]
    refine ht.modify id req.apply req.apply (fun _ => rfl) (fun _ => rfl) ?_
    intro a' b' ha' hb' hab'
    have heq : a' = a := Option.some.inj (ha'.symm.trans hstored)
    have heq' : b' = b := Option.some.inj (hb'.symm.trans hstored')
    rw [heq, heq', ← hcheck]
    exact ⟨similar_apply hab req, hchecked, hchecked⟩

theorem refusal_ne_internal : invalidDates businessReleaseRule ≠ internal := by
  intro heq
  exact absurd (congrArg Problem.status heq) (by decide)

/-- The patch keeps a technical end on the same side of both stored dates. -/
def UnprobedUpdate (caller : Caller) (owner id : Uuid) (header : IfMatch)
    (body : Except Problem UpdateMilestoneRequest) (s s' : State) : Prop :=
  ∀ a b req, admitShown caller owner id header body (table s) = .ok (a, req) →
    admitShown caller owner id header body (table s') = .ok (b, req) → SameSide a b req

/-- No other endpoint looks at the hidden dates. -/
def UnprobedAction (owner : Uuid) (s s' : State) : Action → Prop
  | .update caller id header body => UnprobedUpdate caller owner id header body s s'
  | _ => True

theorem admitUpdate_of_shown {db : Db}
    (h : admitShown caller owner id header body db = .ok (row, req)) :
    admitUpdate caller owner id header body db =
      if releaseAllows row req then .ok (row, req)
      else .error (invalidDates businessReleaseRule) := by
  rw [admitUpdate_eq, h]
  simp only [bind, Except.bind]
  cases releaseAllows row req with
  | true => rfl
  | false => rfl

theorem update_agrees_iff (h : Concealed projectId s s') (caller : Caller) (owner id : Uuid)
    (header : IfMatch) (body : Except Problem UpdateMilestoneRequest) {maySee : Bool}
    (hmay : owner = projectId → maySee = false) :
    ((written maySee 200 s (update caller owner id header body (table s))).1 =
        (written maySee 200 s' (update caller owner id header body (table s'))).1 ↔
      UnprobedUpdate caller owner id header body s s') ∧
    (UnprobedUpdate caller owner id header body s s' →
      Concealed projectId (written maySee 200 s (update caller owner id header body (table s))).2
        (written maySee 200 s' (update caller owner id header body (table s'))).2) := by
  obtain ⟨t, rfl, ht⟩ := h
  rcases admitShown_agrees ht s.db.now caller owner id header body with
    ⟨problem, herror, herror'⟩ | ⟨a, b, req, hok, hok', hab, ha, hb⟩
  · have hrefused : ∀ db, admitShown caller owner id header body db = .error problem →
        update caller owner id header body db = (.error problem, db) := by
      intro db hdb
      apply update_refused
      rw [admitUpdate_eq, hdb]
      rfl
    simp only [table, hrefused _ herror, hrefused _ herror']
    refine ⟨iff_of_true rfl ?_, fun _ => ⟨t, rfl, ht⟩⟩
    intro a b req hadmitted _
    rw [show table s = ⟨s.milestones, s.db.now⟩ from rfl, herror] at hadmitted
    contradiction
  · have hunprobed : UnprobedUpdate caller owner id header body s { s with milestones := t } ↔
        releaseAllows a req = releaseAllows b req := by
      rw [← sameSide_iff hab]
      constructor
      · intro hall
        exact hall a b req hok hok'
      · intro hside a' b' req' hadmitted hadmitted'
        obtain ⟨rfl, rfl⟩ := Prod.mk.inj (Except.ok.inj (hok.symm.trans hadmitted))
        obtain ⟨rfl, _⟩ := Prod.mk.inj (Except.ok.inj (hok'.symm.trans hadmitted'))
        exact hside
    rw [hunprobed]
    have hadmitted := admitUpdate_of_shown hok
    have hadmitted' := admitUpdate_of_shown hok'
    have hproject : a.projectId = projectId → maySee = false := by
      intro howner
      apply hmay
      rw [← howner]
      exact (beq_iff_eq.mp (Bool.and_eq_true_iff.mp (Option.filter_eq_some_iff.mp ha).2).1).symm
    cases hallows : releaseAllows a req with
    | false =>
      rw [hallows, if_neg Bool.false_ne_true] at hadmitted
      cases hallows' : releaseAllows b req with
      | false =>
        rw [hallows', if_neg Bool.false_ne_true] at hadmitted'
        simp only [table, update_refused hadmitted, update_refused hadmitted']
        exact ⟨iff_of_true rfl trivial, fun _ => ⟨t, rfl, ht⟩⟩
      | true =>
        rw [hallows', if_pos rfl] at hadmitted'
        refine ⟨iff_of_false ?_ Bool.false_ne_true, fun hsame => by contradiction⟩
        simp only [table, update_refused hadmitted, update_admitted hadmitted' hb]
        cases checkRow (req.apply b) with
        | error e => exact fun heq => absurd (Response.problem.inj heq) refusal_ne_internal
        | ok u => exact fun heq => Response.noConfusion heq
    | true =>
      rw [hallows, if_pos rfl] at hadmitted
      cases hallows' : releaseAllows b req with
      | false =>
        rw [hallows', if_neg Bool.false_ne_true] at hadmitted'
        refine ⟨iff_of_false ?_ Bool.false_ne_true.symm, fun hsame => by contradiction⟩
        simp only [table, update_refused hadmitted', update_admitted hadmitted ha]
        cases checkRow (req.apply a) with
        | error e => exact fun heq => absurd (Response.problem.inj heq).symm refusal_ne_internal
        | ok u => exact fun heq => Response.noConfusion heq
      | true =>
        rw [hallows', if_pos rfl] at hadmitted'
        rcases update_written ht s.db.now hab ha hb hadmitted hadmitted' hallows hallows' with
          ⟨hfailed, hfailed'⟩ | ⟨t₁, t₁', hdone, hdone', htables⟩
        · simp only [table, hfailed, hfailed']
          exact ⟨iff_of_true rfl trivial, fun _ => ⟨t, rfl, ht⟩⟩
        · simp only [table, hdone, hdone']
          refine ⟨iff_of_true ?_ trivial, fun _ => ⟨t₁', rfl, htables⟩⟩
          exact congrArg (Response.milestone 200)
            ((similar_apply hab req).view_eq hproject)

end Writes

/-! ## Reads -/

section Reads

variable {projectId : Uuid} {s s' : State} (workflow : Workflow)

theorem onMilestone_agrees (h : Concealed projectId s s') (allowed : Bool) (id : Option Uuid)
    (owner : Uuid) {answer answer' : Uuid → Milestone → Response}
    (hanswer : ∀ id a b, a.projectId = owner → Similar projectId a b →
      answer id a = answer' id b) :
    onMilestone allowed id owner s answer = onMilestone allowed id owner s' answer' := by
  unfold onMilestone
  cases allowed with
  | false => rfl
  | true =>
    cases id with
    | none => rfl
    | some id =>
      rcases h.milestone? owner id with ⟨hnone, hnone'⟩ | ⟨a, b, ha, hb, hab⟩
      · simp only [hnone, hnone']
      · simp only [ha, hb]
        rw [hanswer id a b ?_ hab]
        exact beq_iff_eq.mp (Bool.and_eq_true_iff.mp (Option.filter_eq_some_iff.mp ha).2).1

variable {maySee : Bool}

theorem listFiltered_agrees (h : Concealed projectId s s') (owner : Uuid) (closed : Option Bool)
    (hmay : owner = projectId → maySee = false) :
    (listFiltered s owner closed).map (view · maySee) =
      (listFiltered s' owner closed).map (view · maySee) := by
  obtain ⟨t, rfl, ht⟩ := h
  have hrows : List.Forall₂ (Similar projectId) (listFiltered s owner closed)
      (listFiltered { s with milestones := t } owner closed) := by
    refine filter_rel ht.rows fun a b hab => ?_
    rw [hab.projectId_eq, hab.live_eq, hab.closed_eq]
  have hsame : List.Forall₂ (fun a b : Milestone => view a maySee = view b maySee)
      (listFiltered s owner closed) (listFiltered { s with milestones := t } owner closed) := by
    rw [List.forall₂_iff_get] at hrows ⊢
    refine ⟨hrows.1, fun i hi hi' => (hrows.2 i hi hi').view_eq fun hproject => hmay ?_⟩
    have hmem := List.get_mem (listFiltered s owner closed) ⟨i, hi⟩
    have howner := (List.mem_filter.mp hmem).2
    simp only [Bool.and_eq_true, beq_iff_eq] at howner
    rw [← howner.1.1]
    exact hproject
  exact map_eq_of_rel hsame fun _ _ hview => hview

theorem count_agrees (h : Concealed projectId s s') {p : Milestone → Bool}
    (hp : ∀ a b, Similar projectId a b → p a = p b) :
    (s.milestones.rows.filter p).length = (s'.milestones.rows.filter p).length := by
  obtain ⟨t, rfl, ht⟩ := h
  exact (filter_rel ht.rows hp).length_eq

theorem rollup_agrees {t : Table Milestone.id} {a b : Milestone} (hab : Similar projectId a b)
    {project : Project} (hmay : a.projectId = projectId → maySee = false) :
    rollup workflow s project maySee a =
      rollup workflow { s with milestones := t } project maySee b := by
  unfold rollup tasksOf
  rw [hab.view_eq hmay, hab.id_eq]

theorem listAll_agrees (h : Concealed projectId s s') {visible : List (Project × Bool)}
    (hvisible : ∀ entry ∈ visible, entry.1.id = projectId → entry.2 = false)
    (state : Option String) :
    listAll workflow visible state s = listAll workflow visible state s' := by
  unfold listAll
  cases closedFilter state with
  | error problem => rfl
  | ok closed =>
    have hcount : completedCountAcross s (visible.map (·.1.id)) =
        completedCountAcross s' (visible.map (·.1.id)) := by
      refine count_agrees h fun a b hab => ?_
      rw [hab.projectId_eq, hab.live_eq, hab.closed_eq]
    obtain ⟨t, rfl, ht⟩ := h
    have hrows : List.Forall₂ (Similar projectId) (listAcross s (visible.map (·.1.id)) closed)
        (listAcross { s with milestones := t } (visible.map (·.1.id)) closed) := by
      refine mergeSort_rel (filter_rel ht.rows fun a b hab => ?_) fun a b c d hab hcd => ?_
      · rw [hab.projectId_eq, hab.live_eq, hab.closed_eq]
      · rw [hab.projectId_eq, hcd.projectId_eq]
    simp only [hcount]
    refine congrArg (Response.timeline · _) (filterMap_eq_of_rel hrows fun a b hab => ?_)
    rw [← hab.projectId_eq]
    cases hfound : visible.find? (·.1.id == a.projectId) with
    | none => rfl
    | some entry =>
      have hproject : entry.1.id = a.projectId := by
        simpa using List.find?_some hfound
      refine congrArg some (rollup_agrees workflow hab fun howner => ?_)
      exact hvisible entry (List.mem_of_find?_eq_some hfound) (hproject.trans howner)

/-- The endpoints on one project of someone who may not see its business dates. -/
theorem act_agrees_iff (h : Concealed projectId s s') (owner : Uuid)
    (hmay : owner = projectId → maySee = false) (action : Action) :
    ((act workflow owner maySee s action).1 = (act workflow owner maySee s' action).1 ↔
        UnprobedAction owner s s' action) ∧
      (UnprobedAction owner s s' action →
        Concealed projectId (act workflow owner maySee s action).2
          (act workflow owner maySee s' action).2) := by
  cases action with
  | create caller body =>
    obtain ⟨hanswer, hstate⟩ := create_agrees h caller owner body maySee
    exact ⟨iff_of_true hanswer trivial, fun _ => hstate⟩
  | update caller id header body => exact update_agrees_iff h caller owner id header body hmay
  | list allowed state =>
    refine ⟨iff_of_true ?_ trivial, fun _ => ?_⟩
    · unfold act
      dsimp only
      cases allowed with
      | false => rfl
      | true =>
        cases closedFilter state with
        | error problem => rfl
        | ok closed =>
          have hcount : completedCount s owner = completedCount s' owner := by
            refine count_agrees h fun a b hab => ?_
            rw [hab.projectId_eq, hab.live_eq, hab.closed_eq]
          simp only [listFiltered_agrees h owner closed hmay, hcount]
          rfl
    · unfold act
      dsimp only
      cases allowed with
      | false => exact h
      | true =>
        cases closedFilter state with
        | error problem => exact h
        | ok closed => exact h
  | get allowed id =>
    refine ⟨iff_of_true ?_ trivial, fun _ => h⟩
    refine onMilestone_agrees h allowed id owner fun id a b howner hab => ?_
    exact congrArg (Response.milestone 200) (hab.view_eq fun hproject =>
      hmay (howner.symm.trans hproject))
  | epics allowed id | board allowed id | stats allowed id =>
    refine ⟨iff_of_true ?_ trivial, fun _ => h⟩
    refine onMilestone_agrees h allowed id owner fun id a b _ _ => ?_
    obtain ⟨t, rfl, _⟩ := h
    rfl
  | listEpics allowed =>
    obtain ⟨t, rfl, ht⟩ := h
    unfold act
    dsimp only
    cases allowed with
    | false | true => exact ⟨iff_of_true rfl trivial, fun _ => ⟨t, rfl, ht⟩⟩
  | getEpic allowed id =>
    obtain ⟨t, rfl, ht⟩ := h
    have hselect : ∀ id, State.selectEpic owner id { s with milestones := t } =
        s.selectEpic owner id := fun _ => rfl
    unfold act
    dsimp only
    cases allowed with
    | false => exact ⟨iff_of_true rfl trivial, fun _ => ⟨t, rfl, ht⟩⟩
    | true =>
      simp only [hselect]
      cases id.bind fun id => s.selectEpic owner id with
      | none | some epic => exact ⟨iff_of_true rfl trivial, fun _ => ⟨t, rfl, ht⟩⟩

end Reads

/-! ## The other requests that write -/

section Work

open Epics (Answer)

variable {projectId : Uuid} {s s' : State}

/-- The project that a request works in. -/
def projectOf : Epics.Request → Uuid
  | .createIssue ctx _ _ => ctx.projectId
  | .bulkCreateIssues ctx _ => ctx.projectId
  | .updateIssue ctx _ => ctx.projectId
  | .createEpic ctx _ _ => ctx.projectId
  | .updateEpic ctx _ => ctx.projectId
  | .setEpics ctx _ _ => ctx.projectId
  | .setCompleted ctx _ _ => ctx.projectId
  | .deleteMilestone ctx _ => ctx.projectId

/-- The answer of `set_completed` to what its statement returned. -/
def completedAnswer : Except Issues.DbError (Option Milestone) → Except Problem Answer
  | .ok (some row) => .ok (.milestone row)
  | .ok none => .error notFound
  | .error _ => .error internal

theorem onEpics_setCompleted (ctx : Issues.Context) (id : Uuid) (completed : Bool)
    (choices : Nat → Issues.Choice) (s : State) (hallowed : ctx.allowed = true) :
    Epics.onEpics (Epics.setCompleted ctx id completed) choices s =
      (completedAnswer ((Stmt.setCompleted ctx.projectId id completed).exec (choices 0) s).1,
        ((Stmt.setCompleted ctx.projectId id completed).exec (choices 0) s).2) := by
  unfold Epics.onEpics Epics.setCompleted
  rw [hallowed]
  show Prog.alone Stmt.exec (.step (.setCompleted ctx.projectId id completed) _) choices s = _
  unfold Prog.alone
  generalize (Stmt.setCompleted ctx.projectId id completed).exec (choices 0) s = outcome
  obtain ⟨result, state⟩ := outcome
  cases result with
  | error e => rfl
  | ok found =>
    cases found with
    | none => rfl
    | some row => rfl

variable {maySee : Bool}

theorem serialised_agrees {owner : Uuid} (hmay : owner = projectId → maySee = false)
    {result result' : Except Issues.DbError (Option Milestone)}
    (hsame : SameRow projectId result result')
    (howner : ∀ row, result = .ok (some row) → row.projectId = owner) :
    serialised maySee (completedAnswer result) = serialised maySee (completedAnswer result') := by
  cases result with
  | error e =>
    cases result' with
    | error e' => rfl
    | ok found => exact hsame.elim
  | ok found =>
    cases found with
    | none =>
      cases result' with
      | error e => exact hsame.elim
      | ok found' =>
        cases found' with
        | none => rfl
        | some row => exact hsame.elim
    | some row =>
      cases result' with
      | error e => exact hsame.elim
      | ok found' =>
        cases found' with
        | none => exact hsame.elim
        | some row' =>
          refine congrArg (Response.milestone 200) ?_
          refine Similar.view_eq hsame fun hproject => ?_
          exact hmay ((howner row rfl).symm.trans hproject)

theorem setCompleted_agrees (h : Concealed projectId s s') (ctx : Issues.Context) (id : Uuid)
    (completed : Bool) (choices : Nat → Issues.Choice)
    (hmay : ctx.projectId = projectId → maySee = false) :
    serialised maySee (Epics.onEpics (Epics.setCompleted ctx id completed) choices s).1 =
        serialised maySee (Epics.onEpics (Epics.setCompleted ctx id completed) choices s').1 ∧
      Concealed projectId (Epics.onEpics (Epics.setCompleted ctx id completed) choices s).2
        (Epics.onEpics (Epics.setCompleted ctx id completed) choices s').2 := by
  cases hallowed : ctx.allowed with
  | false =>
    have hrefused : ∀ s, Epics.onEpics (Epics.setCompleted ctx id completed) choices s =
        (.error forbidden, s) := by
      intro s
      unfold Epics.onEpics Epics.setCompleted
      rw [hallowed]
      rfl
    rw [hrefused, hrefused]
    exact ⟨rfl, h⟩
  | true =>
    rw [onEpics_setCompleted ctx id completed choices s hallowed,
      onEpics_setCompleted ctx id completed choices s' hallowed]
    have hwait := h.wait (choices 0).elapse
    unfold Stmt.exec
    split
    · exact ⟨rfl, hwait⟩
    · obtain ⟨hsame, howner, hstate⟩ := effect_setCompleted hwait ctx.projectId id completed
      exact ⟨serialised_agrees hmay hsame howner, hstate⟩

theorem work_agrees (h : Concealed projectId s s') (turn : Turn)
    (hmay : projectOf turn.request = projectId → maySee = false) :
    serialised maySee (Epics.server.handle turn s).1 =
        serialised maySee (Epics.server.handle turn s').1 ∧
      Concealed projectId (Epics.server.handle turn s).2 (Epics.server.handle turn s').2 := by
  obtain ⟨request, choices⟩ := turn
  have hissues : ∀ p : Issues.Handler Issues.Answer,
      serialised maySee (Epics.onIssues p choices s).1 =
          serialised maySee (Epics.onIssues p choices s').1 ∧
        Concealed projectId (Epics.onIssues p choices s).2 (Epics.onIssues p choices s').2 := by
    intro p
    obtain ⟨hanswer, hstate⟩ := onIssues_agrees p h choices
    exact ⟨congrArg _ hanswer, hstate⟩
  have hepics : ∀ p : Epics.Handler Answer, p.run.Only Plain →
      serialised maySee (Epics.onEpics p choices s).1 =
          serialised maySee (Epics.onEpics p choices s').1 ∧
        Concealed projectId (Epics.onEpics p choices s).2 (Epics.onEpics p choices s').2 := by
    intro p hp
    obtain ⟨hanswer, hstate⟩ := onEpics_agrees hp h choices
    exact ⟨congrArg _ hanswer, hstate⟩
  cases request with
  | createIssue ctx key body | bulkCreateIssues ctx body | updateIssue ctx req => exact hissues _
  | createEpic ctx key body => exact hepics _ (plain_createEpic ctx key body)
  | updateEpic ctx req => exact hepics _ (plain_updateEpic ctx req)
  | setEpics ctx id body => exact hepics _ (plain_setEpics ctx id body)
  | deleteMilestone ctx id => exact hepics _ (plain_deleteMilestone ctx id)
  | setCompleted ctx id completed => exact setCompleted_agrees h ctx id completed choices hmay

end Work

/-! ## Runs -/

/-- The caller may not see the business dates of the project. -/
def Outsider (projectId : Uuid) : Request → Prop
  | .inProject owner maySee _ => owner = projectId → maySee = false
  | .work maySee turn => projectOf turn.request = projectId → maySee = false
  | .listAll visible _ => ∀ entry ∈ visible, entry.1.id = projectId → entry.2 = false

/-- The request does not hold a technical end against dates it would tell apart. -/
def Unprobed (s s' : State) : Request → Prop
  | .inProject owner _ action => UnprobedAction owner s s' action
  | _ => True

theorem answer_agrees_iff {projectId : Uuid} (workflow : Workflow) {s s' : State}
    (h : Concealed projectId s s') {request : Request} (hrequest : Outsider projectId request) :
    ((server workflow).answer s request = (server workflow).answer s' request ↔
        Unprobed s s' request) ∧
      (Unprobed s s' request →
        Concealed projectId ((server workflow).next s request)
          ((server workflow).next s' request)) := by
  cases request with
  | inProject owner maySee action => exact act_agrees_iff workflow h owner hrequest action
  | work maySee turn =>
    obtain ⟨hanswer, hstate⟩ := work_agrees h turn hrequest
    exact ⟨iff_of_true hanswer trivial, fun _ => hstate⟩
  | listAll visible state =>
    exact ⟨iff_of_true (listAll_agrees workflow h hrequest state) trivial, fun _ => h⟩

/-- Someone who may not see the business dates of a project gets the same
answers from two states that differ in them exactly as long as no patch holds a
technical end against dates on two sides of it. -/
theorem answers_alike_iff (workflow : Workflow) {projectId : Uuid} {s s' : State}
    (hconcealed : Concealed projectId s s') {requests : List Request}
    (houtsider : ∀ request ∈ requests, Outsider projectId request) :
    (server workflow).Alike (fun _ response => response) s s' requests ↔
      (server workflow).EachPair Unprobed s s' requests :=
  Server.alike_iff (R := Concealed projectId) (A := Outsider projectId)
    (fun _ _ _ h hrequest => (answer_agrees_iff workflow h hrequest).1)
    (fun _ _ _ h hrequest hunprobed => (answer_agrees_iff workflow h hrequest).2 hunprobed)
    hconcealed houtsider

/-! ## A date that is guessed -/

/-- A milestone that ends before its business release date, where one is set. -/
def guarded (businessReleaseDate : Option Date) : Milestone where
  id := 1
  projectId := 7
  name := "Spring"
  slug := "spring"
  description := ""
  startDate := none
  actualStartDate := none
  endDate := some 10
  actualEndDate := none
  businessReleaseDate := businessReleaseDate
  closed := false
  closedAt := none
  version := 1
  deletedAt := none

/-- A project with that milestone only. -/
def guardedBy (businessReleaseDate : Option Date) : State where
  db :=
    { catalog :=
        { taxonomy := .empty
          components := .empty
          customers := .empty
          labels := .empty
          users := .empty
          memberships := [] }
      releases := .empty
      releaseVersions := .empty
      componentReleases := []
      epics := .empty
      issues := .empty
      issueLabels := []
      issueComponents := []
      issueCustomers := []
      componentVersions := []
      lastRef := fun _ => 0
      keys := []
      now := 0 }
  details := .empty
  milestones := ⟨[guarded businessReleaseDate], by simp⟩
  lastEpicRef := fun _ => 0
  keys := []

def anyWorkflow : Workflow where
  statuses _ := []
  countsAsDone _ := false
  value _ := none

/-- Moving the end of the milestone, by someone who may not see its business date. -/
def moveEnd (finish : Date) : Request :=
  .inProject 7 false (.update { mayModifyBusinessRelease := false } 1 .any
    (.ok { endDate := some (some finish) }))

theorem concealed_guardedBy (date date' : Option Date) (hdate : ∀ d ∈ date, 10 < d)
    (hdate' : ∀ d ∈ date', 10 < d) : Concealed 7 (guardedBy date) (guardedBy date') := by
  have hvalid : ∀ date : Option Date, (∀ d ∈ date, 10 < d) →
      checkRow (guarded date) = .ok () := by
    intro date hdate
    rw [checkRow_ok_iff]
    refine ⟨rfl, ?_⟩
    cases date with
    | none => rfl
    | some d => simpa [guarded, businessReleaseOk, effectiveEnd] using hdate d rfl
  refine ⟨(guardedBy date').milestones, rfl, ?_, ?_, ?_⟩
  · exact .cons ⟨rfl, fun hother => absurd rfl hother⟩ .nil
  · intro row hrow
    rw [List.mem_singleton.mp hrow]
    exact hvalid date hdate
  · intro row hrow
    rw [List.mem_singleton.mp hrow]
    exact hvalid date' hdate'

theorem outsider_moveEnd (finishes : List Date) :
    ∀ request ∈ finishes.map moveEnd, Outsider 7 request := by
  intro request hrequest
  obtain ⟨finish, _, rfl⟩ := List.mem_map.mp hrequest
  exact fun _ => rfl

theorem answers_alike_before_both :
    Concealed 7 (guardedBy (some 20)) (guardedBy (some 25)) ∧
      ((server anyWorkflow).Alike (fun _ response => response) (guardedBy (some 20))
          (guardedBy (some 25)) [moveEnd 15] ↔
        (server anyWorkflow).EachPair Unprobed (guardedBy (some 20)) (guardedBy (some 25))
          [moveEnd 15]) :=
  have hconcealed := concealed_guardedBy (some 20) (some 25) (by simp) (by simp)
  ⟨hconcealed, answers_alike_iff anyWorkflow hconcealed (outsider_moveEnd [15])⟩

/-- The refusal tells that there is a date, and which one by trying ends. -/
theorem date_found_by_end :
    Concealed 7 (guardedBy (some 20)) (guardedBy none) ∧
      (∀ request ∈ [moveEnd 30], Outsider 7 request) ∧
      ((server anyWorkflow).answer (guardedBy (some 20)) (moveEnd 30) =
          .problem (invalidDates businessReleaseRule) ∧
        (server anyWorkflow).answer (guardedBy none) (moveEnd 30) =
          .milestone 200 (view { guarded none with endDate := some 30, version := 2 } false)) ∧
      ¬(server anyWorkflow).Alike (fun _ response => response) (guardedBy (some 20))
        (guardedBy none) [moveEnd 30] := by
  have hrefused : (server anyWorkflow).answer (guardedBy (some 20)) (moveEnd 30) =
      .problem (invalidDates businessReleaseRule) := by decide +kernel
  have hdone : (server anyWorkflow).answer (guardedBy none) (moveEnd 30) =
      .milestone 200 (view { guarded none with endDate := some 30, version := 2 } false) := by
    decide +kernel
  refine ⟨concealed_guardedBy (some 20) none (by simp) (by simp), outsider_moveEnd [30],
    ⟨hrefused, hdone⟩, ?_⟩
  intro halike
  have hsame := halike.1
  rw [hrefused, hdone] at hsame
  exact Response.noConfusion hsame

end IntelliPilot.Milestones.Endpoints
