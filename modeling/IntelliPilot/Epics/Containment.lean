import IntelliPilot.Epics.Handlers
import IntelliPilot.Issues.Containment

/-! # Work items stay in their project

Issues and epics name rows of their own project, over runs of the requests that
create and patch them: where each request is careful about the items of the
taxonomy, which no check looks at, and new issues about the versions of
components.
-/

namespace IntelliPilot.Epics

open Http Statement
open Imports (Uuid)
open Issues (Choice Context Comes CreateBody DbError NewPasses PatchPasses SameTables)
open Issues.Db (Aside Grows)

/-! ## Inside -/

/-- Issues and epics name rows of their own project. -/
structure State.Inside (s : State) : Prop where
  issues : s.db.Inside
  epics : ∀ row ∈ s.details.rows, ∃ projectId, s.db.EpicOf projectId row.id ∧
    s.db.ItemOf projectId .issueStatus row.statusId

/-- References are inside, and what there was is there. -/
structure Kept (s s' : State) : Prop where
  inside : s'.Inside
  grows : Grows s.db s'.db

/-- Nothing but the clock is another. -/
def SameState (s s' : State) : Prop := s' = { s with db := { s.db with now := s'.db.now } }

theorem SameState.refl (s : State) : SameState s s := rfl

theorem SameState.trans {a b c : State} (hab : SameState a b) (hbc : SameState b c) :
    SameState a c := by
  unfold SameState at hab hbc ⊢
  rw [hab] at hbc
  exact hbc

theorem sameState_wait (elapse : Nat) (s : State) : SameState s (s.wait elapse) := rfl

/-- What has grown with the epics as they were is inside if its issues are. -/
theorem Kept.of_db {s : State} {db : Issues.Db} (hinside : s.Inside) (hdb : db.Inside)
    (hgrows : Grows s.db db) : Kept s { s with db := db } := by
  refine ⟨⟨hdb, ?_⟩, hgrows⟩
  intro row hrow
  obtain ⟨projectId, hepic, hstatus⟩ := hinside.epics row hrow
  exact ⟨projectId, hgrows.epics _ _ hepic, hgrows.itemOf hstatus⟩

theorem Kept.refl {s : State} (hinside : s.Inside) : Kept s s := ⟨hinside, Grows.refl s.db⟩

theorem Kept.trans {a b c : State} (hab : Kept a b) (hbc : Kept b c) : Kept a c :=
  ⟨hbc.inside, hab.grows.trans hbc.grows⟩

theorem SameState.kept {s s' : State} (h : SameState s s') (hinside : s.Inside) : Kept s s' := by
  have haside : Aside s.db { s.db with now := s'.db.now } :=
    ⟨rfl, rfl, rfl, rfl, rfl, rfl, rfl, rfl, rfl, rfl⟩
  rw [h]
  exact .of_db hinside (Issues.Db.inside_of_aside haside hinside.issues) (Grows.of_aside haside)

/-! ## Statements -/

section Statements

variable {s s' : State} {projectId : Uuid}

/-- An epic that is found is of the project. -/
theorem selectEpic_found {id : Uuid} {epic : FullEpic} (h : s.selectEpic projectId id = some epic) :
    s.db.EpicOf projectId id ∧ s.details.find? id = some epic.toDetails := by
  obtain ⟨row, hrow, hrest⟩ := Option.bind_eq_some_iff.mp h
  obtain ⟨hfound, hlive⟩ := Option.filter_eq_some_iff.mp hrow
  obtain ⟨details, hdetails, hepic⟩ := Option.bind_eq_some_iff.mp hrest
  rw [Bool.and_eq_true, beq_iff_eq] at hlive
  rw [← Option.some.inj hepic]
  exact ⟨⟨row, hfound, hlive.1⟩, hdetails⟩

variable {db : Issues.Db}

theorem epicOf_unique {projectId' id : Uuid} (h : db.EpicOf projectId id)
    (h' : db.EpicOf projectId' id) : projectId = projectId' := by
  obtain ⟨epic, hepic, rfl⟩ := h
  obtain ⟨epic', hepic', rfl⟩ := h'
  rw [hepic] at hepic'
  rw [Option.some.inj hepic']

variable {w : EpicWrite}

theorem kept_insertEpic {ownerId : Uuid} {reference : Nat} (hinside : s.Inside)
    (hstatus : s.db.ItemOf projectId .issueStatus w.statusId) :
    Kept s (s.insertEpic projectId ownerId reference w).2 := by
  unfold State.insertEpic
  dsimp only
  split
  · split
    · exact .refl hinside
    · rename_i rows hrows
      have hgrows : Grows s.db { s.db with
          epics := s.db.epics.insert ⟨s.db.epics.fresh, projectId, w.milestoneId, none⟩
            s.db.epics.find?_fresh } := by
        refine ⟨rfl, rfl, rfl, rfl, ?_, fun _ _ h => h⟩
        rintro projectId' id ⟨epic, hepic, hof⟩
        refine ⟨epic, ?_, hof⟩
        rw [Table.find?_insert, if_neg, hepic]
        rintro rfl
        exact absurd (s.db.epics.find?_fresh.symm.trans hepic) (by simp)
      refine ⟨⟨hgrows.inside hinside.issues hinside.issues.rows hinside.issues.labels
        hinside.issues.components hinside.issues.customers hinside.issues.versions, ?_⟩, hgrows⟩
      intro row hrow
      rcases List.mem_append.mp (Table.insert?_rows hrows ▸ hrow) with hold | hnew
      · obtain ⟨projectId', hepic, hitem⟩ := hinside.epics row hold
        exact ⟨projectId', hgrows.epics _ _ hepic, hgrows.itemOf hitem⟩
      · rw [List.mem_singleton.mp hnew]
        refine ⟨projectId, ⟨⟨s.db.epics.fresh, projectId, w.milestoneId, none⟩, ?_, rfl⟩,
          hgrows.itemOf hstatus⟩
        rw [Table.find?_insert, if_pos rfl]
  · exact .refl hinside

/-- The trigger touches nothing but the milestone of issues. -/
theorem kept_cascade (milestoneId : Option Uuid) (epic : Issues.Epic) (hinside : db.Inside) :
    (State.cascade milestoneId db epic).Inside ∧ Grows db (State.cascade milestoneId db epic) := by
  refine ⟨Issues.Db.inside_updateIssues hinside (fun _ => rfl) ?_,
    Issues.Db.grows_updateIssues _ _ _ fun _ => rfl⟩
  intro issue hissue _
  have hrow := hinside.rows issue hissue
  exact ⟨hrow.items, hrow.epic, hrow.parent, hrow.version⟩

theorem kept_cascades (milestoneId : Option Uuid) (moved : List Issues.Epic) (hinside : db.Inside) :
    (moved.foldl (State.cascade milestoneId) db).Inside ∧
      Grows db (moved.foldl (State.cascade milestoneId) db) := by
  induction moved generalizing db with
  | nil => exact ⟨hinside, Grows.refl db⟩
  | cons epic moved ih =>
    obtain ⟨hfirst, hgrows⟩ := kept_cascade milestoneId epic hinside
    obtain ⟨hrest, hgrows'⟩ := ih hfirst
    exact ⟨hrest, hgrows.trans hgrows'⟩

theorem kept_moveEpics (p : Issues.Epic → Bool) (milestoneId : Option Uuid) (hinside : s.Inside) :
    Kept s (s.moveEpics p milestoneId) := by
  have hgrows : Grows s.db { s.db with
      epics := s.db.epics.modify p (fun epic => { epic with milestoneId := milestoneId })
        (fun _ => rfl) } := by
    refine ⟨rfl, rfl, rfl, rfl, ?_, fun _ _ h => h⟩
    rintro projectId id ⟨epic, hepic, rfl⟩
    rw [Issues.Db.EpicOf, Table.find?_modify, hepic]
    refine ⟨_, rfl, ?_⟩
    dsimp only
    split
    · rfl
    · rfl
  have hmoved := hgrows.inside hinside.issues hinside.issues.rows hinside.issues.labels
    hinside.issues.components hinside.issues.customers hinside.issues.versions
  obtain ⟨hdb, hgrows'⟩ := kept_cascades milestoneId
    (s.db.epics.rows.filter fun epic => p epic && epic.milestoneId != milestoneId) hmoved
  exact .of_db hinside hdb (hgrows.trans hgrows')

/-- An update that is refused changes nothing. -/
theorem updateEpic_refused (projectId id : Uuid) (version : Nat) (h : s.accepts w = false) :
    (∀ epic, (s.updateEpic projectId id version w).1 ≠ .ok (some epic)) ∧
      (s.updateEpic projectId id version w).2 = s := by
  unfold State.updateEpic
  split
  · exact ⟨fun _ h => absurd (Except.ok.inj h) (by simp), rfl⟩
  · rw [if_neg (by simp [h])]
    exact ⟨fun _ h => by contradiction, rfl⟩

theorem kept_updateEpic {id : Uuid} {version : Nat} (hinside : s.Inside)
    (hstatus : s.db.ItemOf projectId .issueStatus w.statusId) :
    Kept s (s.updateEpic projectId id version w).2 := by
  unfold State.updateEpic
  split
  · exact .refl hinside
  · rename_i old hold
    have hepic := (selectEpic_found (Option.filter_eq_some_iff.mp hold).1).1
    split
    · have hwritten : State.Inside { s with
          details := s.details.modify (·.id == id)
            (fun row => { row with toEpicColumns := w.toEpicColumns, version := row.version + 1 })
            (fun _ => rfl) } := by
        refine ⟨hinside.issues, ?_⟩
        intro row hrow
        obtain ⟨stored, hstored, rfl⟩ := Rows.mem_updateWhere.mp hrow
        split
        · rename_i hid
          rw [beq_iff_eq] at hid
          exact ⟨projectId, hid ▸ hepic, hstatus⟩
        · exact hinside.epics stored hstored
      have hmoved := kept_moveEpics (·.id == id) w.milestoneId hwritten
      exact ⟨hmoved.inside, hmoved.grows⟩
    · exact .refl hinside

/-- An epic is given a status of its project, where the statement gives one. -/
def Harmless (s : State) {β : Type} : Stmt β → Prop
  | .insertEpic projectId _ _ w => s.db.ItemOf projectId .issueStatus w.statusId
  | .updateEpic projectId _ _ w => s.db.ItemOf projectId .issueStatus w.statusId
  | _ => True

theorem kept_effect {β : Type} {stmt : Stmt β} (h : Harmless s' stmt) (hinside : s'.Inside) :
    Kept s' (stmt.effect s').2 := by
  have hsame : ∀ {s'' : State}, s''.db = s'.db → s''.details = s'.details → Kept s' s'' := by
    intro s'' hdb hdetails
    refine ⟨⟨hdb ▸ hinside.issues, ?_⟩, hdb ▸ Grows.refl s'.db⟩
    rw [hdetails, hdb]
    exact hinside.epics
  cases stmt with
  | insertEpic projectId ownerId reference w => exact kept_insertEpic hinside h
  | updateEpic projectId id version w => exact kept_updateEpic hinside h
  | detachEpics projectId milestoneId => exact kept_moveEpics _ _ hinside
  | attachEpics projectId milestoneId ids =>
    show Kept s' (s'.attachEpics projectId milestoneId ids).2
    unfold State.attachEpics
    split
    · exact kept_moveEpics _ _ hinside
    · exact .refl hinside
  | setCompleted projectId id completed =>
    show Kept s' (s'.setCompleted projectId id completed).2
    unfold State.setCompleted
    split
    · exact .refl hinside
    · dsimp only
      split
      · exact hsame rfl rfl
      · exact .refl hinside
  | deleteMilestone projectId id =>
    show Kept s' (s'.deleteMilestone projectId id).2
    unfold State.deleteMilestone
    split
    · exact hsame rfl rfl
    · exact .refl hinside
  | storeKey row =>
    show Kept s' (s'.storeKey row)
    unfold State.storeKey
    split
    · exact .refl hinside
    · exact hsame rfl rfl
  | allocEpicRef projectId => exact hsame rfl rfl
  | _ => exact .refl hinside

theorem Harmless.grows {β : Type} {stmt : Stmt β} (h : Harmless s stmt) (hkept : Kept s s') :
    Harmless s' stmt := by
  cases stmt with
  | insertEpic projectId ownerId reference w
  | updateEpic projectId id version w => exact hkept.grows.itemOf h
  | _ => trivial

theorem kept_exec {β : Type} {stmt : Stmt β} (h : Harmless s stmt) (choice : Choice)
    (hkept : Kept s s') : Kept s (stmt.exec choice s').2 := by
  have hlater := hkept.trans ((sameState_wait choice.elapse s').kept hkept.inside)
  unfold Stmt.exec
  split
  · exact hlater
  · exact hlater.trans (kept_effect (h.grows hlater) hlater.inside)

end Statements

/-! ## Handlers -/

/-- References stay inside; where `W` does not hold, an error is the answer and
nothing has changed. -/
def Contains {α : Type} (C : Choice → Prop) (p : Handler α) (W : Prop) (s s' : State) : Prop :=
  Ensures Stmt.exec C p (fun _ s' => Kept s s' ∧ W)
    (fun _ s' => Kept s s' ∧ (W ∨ SameState s s')) s'

/-- A statement that returns `f` of the tables it reads. -/
structure Reads {α : Type} (stmt : Stmt (Except DbError α)) (f : State → α) : Prop where
  effect : ∀ s, stmt.effect s = (.ok (f s), s)
  failure : ∀ s, stmt.failure s = .error .failed
  same : ∀ {s s' : State}, SameState s s' → f s' = f s

section Handlers

variable {C : Choice → Prop} {α β : Type} {W : Prop} {s s' : State}

theorem contains_of_only {p : Handler α} (hW : W) (honly : p.run.Only (Harmless s))
    (hs : Kept s s') : Contains C p W s s' := by
  have hends : p.run.Ends Stmt.exec C (fun _ s' => Kept s s') s' :=
    Prog.ends_of_only (fun _ choice _ hstmt h => kept_exec hstmt choice h) honly hs
  apply hends.mono
  rintro (e | a) s' hkept
  · exact ⟨hkept, .inl hW⟩
  · exact ⟨hkept, hW⟩

/-- A check, and what follows it where it passes. -/
theorem Stays.contains {p : Handler α} {f : α → Handler β} {P : α → Prop} {E : Problem → Prop}
    (hp : Stays Stmt.exec C (SameState s) p P E) (hinside : s.Inside) (hs : SameState s s')
    (hf : ∀ a s', SameState s s' → P a → Contains C (f a) W s s') :
    Contains C (p >>= f) W s s' :=
  hp.ensures hs hf fun _ _ h _ => ⟨h.kept hinside, .inr h⟩

variable {stmt : Stmt (Except DbError α)}

theorem Reads.finds {f : State → α} (h : Reads stmt f) :
    Finds Stmt.exec C (SameState s) stmt (· = f s) := by
  intro choice s' _ hs
  have hlater := hs.trans (sameState_wait choice.elapse s')
  unfold Stmt.exec
  dsimp only
  split
  · refine ⟨hlater, ?_⟩
    intro a ha
    rw [h.failure] at ha
    contradiction
  · rw [h.effect]
    refine ⟨hlater, ?_⟩
    intro a ha
    rw [← Except.ok.inj ha, h.same hlater]

theorem reads_milestoneInProject (projectId id : Uuid) :
    Reads (.milestoneInProject projectId id) fun s => s.milestoneInProject projectId id :=
  ⟨fun _ => rfl, fun _ => rfl, fun h => by rw [h]; rfl⟩

theorem reads_milestoneClosed (projectId id : Uuid) :
    Reads (.milestoneClosed projectId id) fun s => s.milestoneClosed projectId id :=
  ⟨fun _ => rfl, fun _ => rfl, fun h => by rw [h]; rfl⟩

theorem reads_selectEpic (projectId id : Uuid) :
    Reads (.selectEpic projectId id) fun s => s.selectEpic projectId id :=
  ⟨fun _ => rfl, fun _ => rfl, fun h => by rw [h]; rfl⟩

theorem reads_taskTotal (projectId epicId : Uuid) :
    Reads (.taskTotal projectId epicId) fun s => s.taskTotal projectId epicId :=
  ⟨fun _ => rfl, fun _ => rfl, fun h => by rw [h]; rfl⟩

/-- A milestone that an epic is given is of the project; a completed one passes
where the query fails. -/
def MilestonePasses (s : State) (projectId : Uuid) (milestoneId : Option Uuid) : Prop :=
  ∀ id, milestoneId = some id → s.milestoneInProject projectId id = true

/-- What a read finds, or the default. -/
theorem Reads.stays {f : State → α} (h : Reads stmt f) {default : α} {P : α → Prop}
    {E : Problem → Prop} (hfound : P (f s)) (hdefault : P default) :
    Stays Stmt.exec C (SameState s) (orDefault stmt default) P E := by
  apply stays_orDefault (P := P) ?_ hdefault
  intro choice s' hchoice hs
  obtain ⟨hstate, hresult⟩ := h.finds choice s' hchoice hs
  refine ⟨hstate, ?_⟩
  intro a ha
  rw [hresult a ha]
  exact hfound

theorem stays_validateEpicMilestoneAssignment (projectId : Uuid) (milestoneId : Option Uuid) :
    Stays Stmt.exec C (SameState s) (validateEpicMilestoneAssignment projectId milestoneId)
      (fun _ => MilestonePasses s projectId milestoneId) fun _ => True := by
  cases milestoneId with
  | none => exact stays_pure fun _ h => absurd h (by simp)
  | some id =>
    refine stays_bind ((reads_milestoneInProject projectId id).stays
      (P := fun found => found = true → s.milestoneInProject projectId id = true)
      (fun h => h) (by simp)) fun found hin => ?_
    refine stays_bind (stays_refuseUnless fun _ => trivial) fun _ htrue => ?_
    have hpasses : MilestonePasses s projectId (some id) := by
      intro other hother
      rw [← Option.some.inj hother]
      exact hin htrue
    unfold refuseCompleted
    refine stays_bind ((reads_milestoneClosed projectId id).stays (P := fun _ => True) trivial
      trivial) fun _ _ => ?_
    exact (stays_refuseUnless fun _ => trivial).mono (fun _ _ => hpasses) fun _ h => h

theorem only_remember (userId : Uuid) (key : Option String) (path : String) (body : FullEpic) :
    (remember userId key path body).run.Only (Harmless s) := by
  cases key with
  | none => trivial
  | some key =>
    refine only_run_bind (only_orRefuse (by trivial) internal) fun now => ?_
    exact only_orDefault (by trivial) ()

theorem only_replay (userId : Uuid) (key : Option String) (path : String) :
    (replay userId key path).run.Only (Harmless s) := by
  cases key with
  | none => trivial
  | some key => exact only_orDefault (by trivial) none

/-- A new epic that passes its checks must be careful about its status. -/
theorem contains_createEpic {ctx : Context} {key : Option String}
    {body : CreateBody CreateEpicRequest} (hinside : s.Inside)
    (hcareful : ctx.allowed = true → ∀ req, body = .valid req →
      MilestonePasses s ctx.projectId req.milestoneId →
        s.db.ItemOf ctx.projectId .issueStatus req.statusId) :
    Contains C (createEpic ctx key body)
      (∀ req, body = .valid req → s.db.ItemOf ctx.projectId .issueStatus req.statusId) s s := by
  unfold createEpic
  refine Stays.contains (stays_refuseUnless (E := fun _ => True) fun _ => trivial) hinside
    (SameState.refl s) ?_
  intro _ s' hs hallowed
  refine Stays.contains (stays_given (E := fun _ => True) fun _ _ => trivial) hinside hs ?_
  intro req s' hs hbody
  refine Stays.contains (stays_validateEpicMilestoneAssignment ctx.projectId req.milestoneId)
    hinside hs ?_
  intro _ s' hs hpasses
  have hvalid := Issues.parseCreate_ok hbody
  have hstatus := hcareful hallowed req hvalid hpasses
  apply contains_of_only ?_ ?_ (hs.kept hinside)
  · intro other hother
    rw [← CreateBody.valid.inj (hvalid.symm.trans hother)]
    exact hstatus
  · refine only_run_bind (only_replay ctx.actorId key _) fun stored => ?_
    cases stored with
    | some stored => trivial
    | none =>
      refine only_run_bind (only_orRefuse (by trivial) internal) fun reference => ?_
      refine only_run_bind (only_orRefuse hstatus internal) fun epic => ?_
      exact only_run_bind (only_remember ctx.actorId key _ epic) fun _ => trivial

/-- The epic that a patch is for, as it is stored. -/
theorem stays_readOld (projectId id : Uuid) : Stays Stmt.exec C (SameState s) (readOld projectId id)
    (fun old => ∃ epic, s.selectEpic projectId id = some epic ∧
      ∃ total, old = { epic with taskTotal := total }) fun _ => True := by
  unfold readOld
  refine stays_bind (stays_orRefuse (reads_selectEpic projectId id).finds trivial)
    fun found hfound => ?_
  cases found with
  | none => exact stays_throw trivial
  | some epic =>
    refine stays_bind (stays_orRefuse (reads_taskTotal projectId epic.id).finds trivial)
      fun total _ => ?_
    exact stays_pure ⟨epic, hfound.symm, total, rfl⟩

theorem stays_validateMove (projectId : Uuid) (old : FullEpic) (w : EpicWrite) :
    Stays Stmt.exec C (SameState s) (validateMove projectId old w)
      (fun _ => w.milestoneId ≠ old.milestoneId → MilestonePasses s projectId w.milestoneId)
      fun _ => True := by
  unfold validateMove
  split
  · exact (stays_validateEpicMilestoneAssignment projectId w.milestoneId).mono
      (fun _ h _ => h) fun _ h => h
  · rename_i hsame
    exact stays_pure fun h => absurd h (by simpa using hsame)

/-- The write phase of a patch whose status is of the project. -/
theorem only_writePatch {projectId id : Uuid} {version : Nat} {w : EpicWrite}
    (hstatus : s.db.ItemOf projectId .issueStatus w.statusId) :
    (writePatch projectId id version w).run.Only (Harmless s) := by
  unfold writePatch
  refine only_run_bind (only_orRefuse hstatus internal) fun updated => ?_
  cases updated with
  | some epic => exact only_run_bind (only_orRefuse (by trivial) internal) fun _ => trivial
  | none =>
    refine only_run_bind (only_orRefuse (by trivial) internal) fun found => ?_
    cases found with
    | some epic => trivial
    | none => trivial

/-- A write phase whose columns name no row of a table answers with an error. -/
theorem contains_writePatch_refused {projectId id : Uuid} {version : Nat} {w : EpicWrite}
    (hinside : s.Inside) (hs : SameState s s') (hrefused : s.accepts w = false) :
    Contains C (writePatch projectId id version w) W s s' := by
  have hmissed : Finds Stmt.exec C (SameState s) (.updateEpic projectId id version w) (· = none) := by
    intro choice s' _ hs
    have hlater := hs.trans (sameState_wait choice.elapse s')
    have haccepts : (s'.wait choice.elapse).accepts w = false := by
      rw [hlater]
      exact hrefused
    obtain ⟨hnone, hsame⟩ := updateEpic_refused projectId id version haccepts
    unfold Stmt.exec
    dsimp only
    split
    · exact ⟨hlater, fun _ h => by contradiction⟩
    · refine ⟨?_, ?_⟩
      · show SameState s ((s'.wait choice.elapse).updateEpic projectId id version w).2
        rw [hsame]
        exact hlater
      · intro found hfound
        cases found with
        | none => rfl
        | some epic => exact absurd hfound (hnone epic)
  unfold writePatch
  refine Stays.contains (stays_orRefuse (E := fun _ => True) hmissed trivial) hinside hs ?_
  rintro _ s' hs rfl
  refine Stays.contains (stays_orRefuse (E := fun _ => True)
    (reads_selectEpic projectId id).finds trivial) hinside hs ?_
  intro found s' hs _
  cases found with
  | some epic | none => exact ⟨hs.kept hinside, .inr hs⟩

/-- A patch that comes to its write must be careful about the status. -/
theorem contains_updateEpic {ctx : Context} {req : UpdateRequest} (hinside : s.Inside)
    (hcareful : ctx.allowed = true → ∀ patch old, req.body = .ok patch →
      s.selectEpic ctx.projectId req.id = some old →
      Issues.checkIfMatch req.ifMatch (Issues.etag old.id old.version) = .ok () →
      ((patch.over old).milestoneId ≠ old.milestoneId →
        MilestonePasses s ctx.projectId (patch.over old).milestoneId) →
      (∀ ref, patch.statusId = some ref → s.db.ItemOf ctx.projectId .issueStatus ref) ∨
        s.accepts (patch.over old) = false) :
    Contains C (updateEpic ctx req) (∀ patch, req.body = .ok patch → ∀ ref,
      patch.statusId = some ref → s.db.ItemOf ctx.projectId .issueStatus ref) s s := by
  unfold updateEpic
  refine Stays.contains (stays_refuseUnless (E := fun _ => True) fun _ => trivial) hinside
    (SameState.refl s) ?_
  intro _ s' hs hallowed
  refine Stays.contains (stays_given (E := fun _ => True) fun _ _ => trivial) hinside hs ?_
  intro patch s' hs hpatch
  refine Stays.contains (stays_readOld ctx.projectId req.id) hinside hs ?_
  rintro _ s' hs ⟨old, hfound, total, rfl⟩
  refine Stays.contains (stays_given (E := fun _ => True) fun _ _ => trivial) hinside hs ?_
  intro _ s' hs hmatched
  refine Stays.contains (stays_validateMove ctx.projectId _ _) hinside hs ?_
  intro _ s' hs hmoved
  have hbody := Issues.parsePatch_ok hpatch
  rcases hcareful hallowed patch old hbody hfound hmatched hmoved with hstatus | hrefused
  · apply contains_of_only ?_ (only_writePatch ?_) (hs.kept hinside)
    · intro other hother
      rw [← Except.ok.inj (hbody.symm.trans hother)]
      exact hstatus
    · obtain ⟨hepic, hdetails⟩ := selectEpic_found hfound
      show s.db.ItemOf ctx.projectId .issueStatus (patch.statusId.getD old.statusId)
      cases hgiven : patch.statusId with
      | some ref => exact hstatus ref hgiven
      | none =>
        -- the status that stays is that of an epic inside
        obtain ⟨projectId, hof, hstored⟩ := hinside.epics _ (Table.mem_of_find? hdetails)
        rw [Table.key_of_find? hdetails] at hof
        rw [epicOf_unique hepic hof]
        exact hstored
  · exact contains_writePatch_refused hinside hs hrefused

theorem only_replaceEpics (projectId milestoneId : Uuid) (ids : List Uuid) :
    (replaceEpics projectId milestoneId ids).run.Only (Harmless s) := by
  unfold replaceEpics
  refine only_run_bind (only_orRefuse (by trivial) _) fun _ => ?_
  split
  · trivial
  · exact only_orRefuse (by trivial) _

theorem only_refuseCompleted (projectId milestoneId : Uuid) :
    (refuseCompleted projectId milestoneId).run.Only (Harmless s) :=
  only_run_bind (only_orDefault (by trivial) _) fun _ => only_refuseUnless _ _

/-- The handlers of milestones give no epic a status. -/
theorem only_setEpics (ctx : Context) (id : Uuid) (body : CreateBody (List Uuid)) :
    (setEpics ctx id body).run.Only (Harmless s) := by
  unfold setEpics
  refine only_run_bind (only_refuseUnless _ _) fun _ => ?_
  refine only_run_bind (only_given _) fun ids => ?_
  refine only_run_bind (only_orDefault (by trivial) _) fun _ => ?_
  refine only_run_bind (only_refuseUnless _ _) fun _ => ?_
  split
  · exact only_run_bind (only_replaceEpics _ _ _) fun _ => trivial
  · refine only_run_bind (only_refuseCompleted _ _) fun _ => ?_
    exact only_run_bind (only_replaceEpics _ _ _) fun _ => trivial

theorem only_setCompleted (ctx : Context) (id : Uuid) (completed : Bool) :
    (setCompleted ctx id completed).run.Only (Harmless s) := by
  unfold setCompleted
  refine only_run_bind (only_refuseUnless _ _) fun _ => ?_
  refine only_run_bind (only_orRefuse (by trivial) _) fun found => ?_
  cases found with
  | some row => trivial
  | none => trivial

theorem only_deleteMilestone (ctx : Context) (id : Uuid) :
    (deleteMilestone ctx id).run.Only (Harmless s) := by
  unfold deleteMilestone
  refine only_run_bind (only_refuseUnless _ _) fun _ => ?_
  refine only_run_bind (only_orRefuse (by trivial) _) fun _ => ?_
  refine only_run_bind (only_refuseUnless _ _) fun _ => ?_
  refine only_run_bind (only_orRefuse (by trivial) _) fun _ => ?_
  exact only_run_bind (only_refuseUnless _ _) fun _ => trivial

end Handlers

/-! ## Runs -/

/-- The request names rows of its project only. -/
def Request.Within (s : State) : Request → Prop
  | .createIssue ctx _ body => ∀ req, body = .valid req → req.Within s.db ctx.projectId
  | .bulkCreateIssues ctx body =>
      ∀ items, body = .valid items → ∀ req ∈ items, req.Within s.db ctx.projectId
  | .updateIssue ctx req => ∀ patch, req.body = .ok patch → patch.Within s.db ctx.projectId
  | .createEpic ctx _ body =>
      ∀ req, body = .valid req → s.db.ItemOf ctx.projectId .issueStatus req.statusId
  | .updateEpic ctx req => ∀ patch, req.body = .ok patch → ∀ ref, patch.statusId = some ref →
      s.db.ItemOf ctx.projectId .issueStatus ref
  | _ => True

/-- A request that names anything else is answered with an error and changes
nothing but the clock. -/
def Refused (s : State) (turn : Turn) : Prop :=
  ¬ turn.request.Within s →
    (∃ problem, server.answer s turn = .error problem) ∧ SameState s (server.next s turn)

/-- Where the checks let a request through, what they do not look at is of its
project: the items of the taxonomy, and the component versions of new issues. A
patch may name what no row of a table has, which its update refuses. -/
def Careful (s : State) (turn : Turn) : Prop :=
  match turn.request with
  | .createIssue ctx _ body => ctx.allowed = true → ∀ req, body = .valid req →
      NewPasses s.db ctx.projectId req → req.Careful s.db ctx.projectId
  | .bulkCreateIssues ctx body => ctx.allowed = true → ∀ items, body = .valid items →
      (∀ req ∈ items, NewPasses s.db ctx.projectId req) →
        ∀ req ∈ items, req.Careful s.db ctx.projectId
  | .updateIssue ctx req => ∀ patch old, Comes s.db ctx req patch old →
      PatchPasses s.db ctx.projectId patch old →
        patch.Careful s.db ctx.projectId ∨ s.db.accepts (patch.over old.toIssue) = false
  | .createEpic ctx _ body => ctx.allowed = true → ∀ req, body = .valid req →
      MilestonePasses s ctx.projectId req.milestoneId →
        s.db.ItemOf ctx.projectId .issueStatus req.statusId
  | .updateEpic ctx req => ctx.allowed = true → ∀ patch old, req.body = .ok patch →
      s.selectEpic ctx.projectId req.id = some old →
      Issues.checkIfMatch req.ifMatch (Issues.etag old.id old.version) = .ok () →
      ((patch.over old).milestoneId ≠ old.milestoneId →
        MilestonePasses s ctx.projectId (patch.over old).milestoneId) →
      (∀ ref, patch.statusId = some ref → s.db.ItemOf ctx.projectId .issueStatus ref) ∨
        s.accepts (patch.over old) = false
  | _ => True

section Runs

variable {s : State} {W : Prop}

/-- What a request leaves, and how it is answered where `W` does not hold. -/
def Contained (s : State) (W : Prop) (result : Except Problem Answer × State) : Prop :=
  result.2.Inside ∧ (¬ W → (∃ problem, result.1 = .error problem) ∧ SameState s result.2)

theorem contained_onIssues {p : Issues.Handler Issues.Answer} (choices : Nat → Choice)
    (hinside : s.Inside) (h : Issues.Contains (fun _ => True) p W s.db s.db) :
    Contained s W (onIssues p choices s) := by
  have houtcome : Outcome _ _ (p.run.alone Issues.Stmt.exec choices s.db).1 _ :=
    Prog.Ends.alone h fun _ => trivial
  unfold onIssues
  generalize p.run.alone Issues.Stmt.exec choices s.db = result at houtcome ⊢
  obtain ⟨answer, db⟩ := result
  cases answer with
  | ok answer =>
    obtain ⟨hkept, hW⟩ := houtcome
    exact ⟨(Kept.of_db hinside hkept.inside hkept.grows).inside, fun h => absurd hW h⟩
  | error problem =>
    obtain ⟨hkept, hW | hsame⟩ := houtcome
    · exact ⟨(Kept.of_db hinside hkept.inside hkept.grows).inside, fun h => absurd hW h⟩
    · refine ⟨(Kept.of_db hinside hkept.inside hkept.grows).inside, fun _ => ⟨⟨problem, rfl⟩, ?_⟩⟩
      exact congrArg (fun db => { s with db := db }) hsame

theorem contained_onEpics {p : Handler Answer} (choices : Nat → Choice)
    (h : Contains (fun _ => True) p W s s) : Contained s W (onEpics p choices s) := by
  have houtcome : Outcome _ _ (p.run.alone Stmt.exec choices s).1 _ :=
    Prog.Ends.alone h fun _ => trivial
  unfold onEpics
  generalize p.run.alone Stmt.exec choices s = result at houtcome ⊢
  obtain ⟨answer, s'⟩ := result
  cases answer with
  | ok answer => exact ⟨houtcome.1.inside, fun h => absurd houtcome.2 h⟩
  | error problem =>
    obtain ⟨hkept, hW | hsame⟩ := houtcome
    · exact ⟨hkept.inside, fun h => absurd hW h⟩
    · exact ⟨hkept.inside, fun _ => ⟨⟨problem, rfl⟩, hsame⟩⟩

/-- One request that is careful. -/
theorem contained_step {turn : Turn} (hinside : s.Inside) (hcareful : Careful s turn) :
    Contained s (turn.request.Within s) (server.handle turn s) := by
  have hmilestones : ∀ {p : Handler Answer}, p.run.Only (Harmless s) →
      Contains (fun _ => True) p True s s :=
    fun honly => contains_of_only trivial honly (.refl hinside)
  obtain ⟨request, choices⟩ := turn
  cases request with
  | createIssue ctx key body =>
    exact contained_onIssues choices hinside (Issues.contains_createIssue hinside.issues hcareful)
  | bulkCreateIssues ctx body =>
    exact contained_onIssues choices hinside
      (Issues.contains_bulkCreateIssues hinside.issues hcareful)
  | updateIssue ctx req =>
    exact contained_onIssues choices hinside (Issues.contains_updateIssue hinside.issues hcareful)
  | createEpic ctx key body =>
    exact contained_onEpics choices (contains_createEpic hinside hcareful)
  | updateEpic ctx req => exact contained_onEpics choices (contains_updateEpic hinside hcareful)
  | setEpics ctx id body => exact contained_onEpics choices (hmilestones (only_setEpics ctx id body))
  | setCompleted ctx id completed =>
    exact contained_onEpics choices (hmilestones (only_setCompleted ctx id completed))
  | deleteMilestone ctx id =>
    exact contained_onEpics choices (hmilestones (only_deleteMilestone ctx id))

/-- In a run of careful requests, issues and epics name rows of their own project
in every state, and a request that names anything else is refused and changes
nothing. -/
theorem work_items_stay_inside {turns : List Turn} (hinside : s.Inside)
    (hcareful : server.Each Careful s turns) :
    server.Always State.Inside s turns ∧ server.Each Refused s turns := by
  have halways : server.Always State.Inside s turns :=
    Server.always_of_each (I := State.Inside) (fun _ _ hs hturn => (contained_step hs hturn).1) hinside hcareful
  refine ⟨halways, Server.each_iff.mpr ?_⟩
  intro first turn last hturns
  have hturn := Server.each_iff.mp hcareful first turn last hturns
  exact (contained_step (halways first (turn :: last) hturns) hturn).2

end Runs

/-- Projects 1 and 2 with a status each, and nothing planned. -/
def twoProjects : State where
  db :=
    { catalog :=
        { taxonomy := ⟨[⟨7, 2, .issueStatus, "Theirs", "theirs", true⟩,
            ⟨8, 1, .issueStatus, "New", "new", true⟩], by decide⟩
          components := Table.empty
          customers := Table.empty
          labels := Table.empty
          users := ⟨[⟨3, "ada", "ada@example.com", "Ada"⟩], by decide⟩
          memberships := [] }
      releases := Table.empty
      releaseVersions := Table.empty
      componentReleases := []
      epics := Table.empty
      issues := Table.empty
      issueLabels := []
      issueComponents := []
      issueCustomers := []
      componentVersions := []
      lastRef := fun _ => 0
      keys := []
      now := 0 }
  details := Table.empty
  milestones := Table.empty
  lastEpicRef := fun _ => 0
  keys := []

theorem twoProjects_inside : twoProjects.Inside := by
  refine ⟨⟨?_, ?_, ?_, ?_, ?_, ?_⟩, ?_⟩
  all_goals exact fun _ h => absurd h List.not_mem_nil

/-- A member of project 1. -/
def member : Context := ⟨1, 3, true⟩

/-- An issue of project 1 with the status of the given id. -/
def issueWith (statusId : Uuid) : Turn :=
  ⟨.createIssue member none (.valid { subject := "Plan", statusId := some statusId }), fun _ => {}⟩

def epicWith (statusId : Uuid) : Turn :=
  ⟨.createEpic member none (.valid { subject := "Goal", statusId := some statusId }), fun _ => {}⟩

/-- A new issue of project 1 takes a status of project 2. -/
theorem foreign_status_taken : ¬ ∀ (s : State) (turns : List Turn), s.Inside →
    server.Always State.Inside s turns ∧ server.Each Refused s turns := by
  intro h
  have hinside := (h twoProjects [issueWith 7] twoProjects_inside).1 [issueWith 7] [] rfl
  have hissue : (server.run twoProjects [issueWith 7]).db.issues.rows =
      [⟨{ subject := "Plan", statusId := some 7 }, 1, 1, 1, 3, 1, none⟩] := by decide +kernel
  have hrow := hinside.issues.rows _ (by rw [hissue]; exact List.mem_singleton_self _)
  obtain ⟨item, hitem, hproject, -⟩ := hrow.items.status 7 rfl
  have htheirs : (server.run twoProjects [issueWith 7]).db.catalog.taxonomy.find? 7 =
      some ⟨7, 2, .issueStatus, "Theirs", "theirs", true⟩ := by decide +kernel
  rw [htheirs] at hitem
  rw [← Option.some.inj hitem] at hproject
  exact absurd hproject (by decide)

/-- An epic and an issue with the status of their own project. -/
theorem work_items_stay_inside_own :
    server.Always State.Inside twoProjects [epicWith 8, issueWith 8] ∧
      server.Each Refused twoProjects [epicWith 8, issueWith 8] := by
  apply work_items_stay_inside twoProjects_inside
  have hown : ∀ {db : Issues.Db}, db.catalog = twoProjects.db.catalog →
      db.ItemOf 1 .issueStatus (some 8) := by
    intro db hcatalog id hid
    rw [hcatalog, ← Option.some.inj hid]
    exact ⟨⟨8, 1, .issueStatus, "New", "new", true⟩, rfl, rfl, rfl⟩
  refine ⟨?_, ?_, trivial⟩
  · intro _ req hreq _
    rw [← CreateBody.valid.inj hreq]
    exact hown rfl
  · intro _ req hreq _
    rw [← CreateBody.valid.inj hreq]
    exact ⟨⟨hown rfl, fun _ h => absurd h (by simp), fun _ h => absurd h (by simp),
      fun _ h => absurd h (by simp)⟩, fun _ h => absurd h List.not_mem_nil⟩

end IntelliPilot.Epics
