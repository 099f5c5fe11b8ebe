import IntelliPilot.Epics.Containment

/-! # Completed milestones take no epics

An epic enters a milestone from its own side, when it is created or patched, and
from the side of the milestone, when its set is replaced. Both ask whether the
milestone is there and open, and a milestone with epics is not deleted.
-/

namespace IntelliPilot.Epics

open Http Statement
open Imports (Uuid)
open Issues (Choice Context CreateBody DbError)

/-! ## Milestones and their epics -/

namespace State

/-- A live epic of the milestone. -/
def Member (s : State) (milestoneId epicId : Uuid) : Prop :=
  ∃ epic, s.db.epics.find? epicId = some epic ∧ epic.milestoneId = some milestoneId ∧
    epic.deletedAt = none

def Completed (s : State) (id : Uuid) : Prop :=
  ∃ milestone, s.milestones.find? id = some milestone ∧ milestone.closed = true

/-- The milestone of a live epic is a live milestone of its project. -/
def MilestonesLive (s : State) : Prop :=
  ∀ epic ∈ s.db.epics.rows, epic.deletedAt = none → ∀ id, epic.milestoneId = some id →
    s.milestoneInProject epic.projectId id = true

end State

/-- What a handler may do that reopens `r`: epics enter open milestones of their
project only, and other milestones stay completed. -/
structure Moves (r : Uuid → Prop) (s s' : State) : Prop where
  live : s.MilestonesLive → s'.MilestonesLive
  gains : ∀ id epicId, s'.Member id epicId → s.Member id epicId ∨ ¬ s.Completed id
  completed : ∀ id, ¬ r id → s.Completed id → s'.Completed id

/-- A milestone that an epic may enter. -/
def Enters (s : State) (projectId : Uuid) (milestoneId : Option Uuid) : Prop :=
  ∀ id, milestoneId = some id →
    s.milestoneInProject projectId id = true ∧ s.milestoneClosed projectId id = false

section Moves

variable {r : Uuid → Prop} {s s' : State}

variable {projectId : Uuid} {id : Uuid}

theorem Enters.not_completed (h : Enters s projectId (some id)) : ¬ s.Completed id := by
  rintro ⟨milestone, hfound, hclosed⟩
  obtain ⟨hin, hopen⟩ := h id rfl
  obtain ⟨row, hrow⟩ := Option.isSome_iff_exists.mp hin
  rw [State.milestoneClosed, hrow, Option.any_some] at hopen
  obtain ⟨hstored, -⟩ := Option.filter_eq_some_iff.mp hrow
  rw [Option.some.inj (hfound.symm.trans hstored), hopen] at hclosed
  contradiction

theorem milestone?_congr (hmilestones : s'.milestones = s.milestones) (projectId id : Uuid) :
    s'.milestone? projectId id = s.milestone? projectId id := by
  simp only [State.milestone?, Milestones.get, hmilestones]

variable {milestoneId : Option Uuid}

theorem Enters.congr (h : Enters s projectId milestoneId)
    (hmilestones : s'.milestones = s.milestones) : Enters s' projectId milestoneId := by
  intro id hid
  simp only [State.milestoneInProject, State.milestoneClosed, milestone?_congr hmilestones]
  exact h id hid

/-- The same epics and milestones. -/
theorem Moves.of_same (hepics : s'.db.epics = s.db.epics)
    (hmilestones : s'.milestones = s.milestones) : Moves r s s' := by
  refine ⟨?_, ?_, ?_⟩
  · intro hlive epic hepic
    simp only [State.milestoneInProject, milestone?_congr hmilestones]
    rw [hepics] at hepic
    exact hlive epic hepic
  · rintro id epicId ⟨epic, hepic, hmember⟩
    rw [hepics] at hepic
    exact .inl ⟨epic, hepic, hmember⟩
  · intro id _ hcompleted
    rw [State.Completed, hmilestones]
    exact hcompleted

variable {s'' : State}

theorem Moves.trans (h : Moves r s s') (h' : Moves r s' s'')
    (hmilestones : s'.milestones = s.milestones) : Moves r s s'' := by
  refine ⟨fun hlive => h'.live (h.live hlive), ?_,
    fun id hr hcompleted => h'.completed id hr (h.completed id hr hcompleted)⟩
  intro id epicId hmember
  rcases h'.gains id epicId hmember with hbefore | hopen
  · exact h.gains id epicId hbefore
  · right
    rintro ⟨milestone, hfound, hclosed⟩
    exact hopen ⟨milestone, hmilestones ▸ hfound, hclosed⟩

theorem cascades_epics (milestoneId : Option Uuid) (moved : List Issues.Epic) (db : Issues.Db) :
    (moved.foldl (State.cascade milestoneId) db).epics = db.epics := by
  induction moved generalizing db with
  | nil => rfl
  | cons epic moved ih => exact ih (State.cascade milestoneId db epic)

/-- Epics of a project move to a milestone that they may enter, or stay. -/
theorem moves_moveEpics (projectId : Uuid) {p : Issues.Epic → Bool}
    (hproject : ∀ epic ∈ s.db.epics.rows, p epic = true → epic.projectId = projectId)
    (henters : (∀ epic ∈ s.db.epics.rows, p epic = true → epic.milestoneId = milestoneId) ∨
      Enters s projectId milestoneId) : Moves r s (s.moveEpics p milestoneId) := by
  have hepics : (s.moveEpics p milestoneId).db.epics = s.db.epics.modify p
      (fun epic => { epic with milestoneId := milestoneId }) (fun _ => rfl) :=
    cascades_epics milestoneId _ _
  refine ⟨?_, ?_, fun _ _ hcompleted => hcompleted⟩
  · intro hlive epic hepic hdeleted id hid
    rw [hepics] at hepic
    obtain ⟨old, hold, rfl⟩ := Rows.mem_updateWhere.mp hepic
    show s.milestoneInProject _ id = true
    by_cases hp : p old = true
    · rw [if_pos hp] at hdeleted hid ⊢
      rcases henters with hstay | henters
      · exact hlive old hold hdeleted id ((hstay old hold hp).trans hid)
      · rw [hproject old hold hp]
        exact (henters id hid).1
    · rw [if_neg hp] at hdeleted hid ⊢
      exact hlive old hold hdeleted id hid
  · rintro id epicId ⟨epic, hepic, hmember, hdeleted⟩
    rw [hepics, Table.find?_modify] at hepic
    obtain ⟨old, hold, rfl⟩ := Option.map_eq_some_iff.mp hepic
    by_cases hp : p old = true
    · rw [if_pos hp] at hmember hdeleted
      rcases henters with hstay | henters
      · exact .inl ⟨old, hold, (hstay old (Table.mem_of_find? hold) hp).trans hmember, hdeleted⟩
      · right
        have hid : milestoneId = some id := hmember
        rw [hid] at henters
        exact henters.not_completed
    · rw [if_neg hp] at hmember hdeleted
      exact .inl ⟨old, hold, hmember, hdeleted⟩

/-- The same epics and milestones, whatever else. -/
structure Still (s s' : State) : Prop where
  epics : s'.db.epics = s.db.epics
  details : s'.details = s.details
  milestones : s'.milestones = s.milestones

theorem Still.refl (s : State) : Still s s := ⟨rfl, rfl, rfl⟩

theorem Still.trans {a b c : State} (hab : Still a b) (hbc : Still b c) : Still a c :=
  ⟨hbc.epics.trans hab.epics, hbc.details.trans hab.details, hbc.milestones.trans hab.milestones⟩

theorem still_wait (elapse : Nat) (s : State) : Still s (s.wait elapse) := ⟨rfl, rfl, rfl⟩

theorem Still.milestoneInProject (h : Still s s') (projectId id : Uuid) :
    s'.milestoneInProject projectId id = s.milestoneInProject projectId id := by
  rw [State.milestoneInProject, State.milestoneInProject, milestone?_congr h.milestones]

theorem Still.milestoneClosed (h : Still s s') (projectId id : Uuid) :
    s'.milestoneClosed projectId id = s.milestoneClosed projectId id := by
  rw [State.milestoneClosed, State.milestoneClosed, milestone?_congr h.milestones]

theorem Still.selectEpic (h : Still s s') (projectId id : Uuid) :
    s'.selectEpic projectId id = s.selectEpic projectId id := by
  rw [State.selectEpic, State.selectEpic, h.epics, h.details]

theorem Still.before (h : Still s s') (hmoves : Moves r s' s'') : Moves r s s'' :=
  (Moves.of_same h.epics h.milestones).trans hmoves h.milestones

theorem Still.after (h : Still s' s'') (hmoves : Moves r s s') : Moves r s s'' := by
  have hquiet : Moves r s' s'' := Moves.of_same h.epics h.milestones
  refine ⟨fun hlive => hquiet.live (hmoves.live hlive), ?_,
    fun id hr hcompleted => hquiet.completed id hr (hmoves.completed id hr hcompleted)⟩
  rintro id epicId ⟨epic, hepic, hmember⟩
  rw [h.epics] at hepic
  exact hmoves.gains id epicId ⟨epic, hepic, hmember⟩

/-! ## Statements -/

theorem moves_insertEpic {ownerId : Uuid} {reference : Nat} {w : EpicWrite}
    (henters : Enters s projectId w.milestoneId) :
    Moves r s (s.insertEpic projectId ownerId reference w).2 := by
  unfold State.insertEpic
  dsimp only
  split
  · split
    · exact .of_same rfl rfl
    · refine ⟨?_, ?_, fun _ _ hcompleted => hcompleted⟩
      · intro hlive epic hepic hdeleted id hid
        show s.milestoneInProject _ id = true
        rcases List.mem_append.mp hepic with hold | hnew
        · exact hlive epic hold hdeleted id hid
        · rw [List.mem_singleton.mp hnew] at hid ⊢
          exact (henters id hid).1
      · rintro id epicId ⟨epic, hepic, hmember, hdeleted⟩
        rw [Table.find?_insert] at hepic
        split at hepic
        · right
          rw [← Option.some.inj hepic] at hmember
          have hid : w.milestoneId = some id := hmember
          rw [hid] at henters
          exact henters.not_completed
        · exact .inl ⟨epic, hepic, hmember, hdeleted⟩
  · exact .of_same rfl rfl

/-- The row of an epic that is selected. -/
theorem selectEpic_row {epic : FullEpic} (h : s.selectEpic projectId id = some epic) :
    ∃ row, s.db.epics.find? id = some row ∧
      row.projectId = projectId ∧ row.milestoneId = epic.milestoneId := by
  obtain ⟨row, hrow, hrest⟩ := Option.bind_eq_some_iff.mp h
  obtain ⟨hfound, hlive⟩ := Option.filter_eq_some_iff.mp hrow
  obtain ⟨details, -, hepic⟩ := Option.bind_eq_some_iff.mp hrest
  rw [Bool.and_eq_true, beq_iff_eq] at hlive
  rw [← Option.some.inj hepic]
  exact ⟨row, hfound, hlive.1, rfl⟩

theorem moves_updateEpic {version : Nat} {w : EpicWrite} {old : FullEpic}
    (hold : s.selectEpic projectId id = some old)
    (henters : w.milestoneId = old.milestoneId ∨ Enters s projectId w.milestoneId) :
    Moves r s (s.updateEpic projectId id version w).2 := by
  obtain ⟨row, hrow, hproject, hmilestone⟩ := selectEpic_row hold
  have hown : ∀ epic ∈ s.db.epics.rows, (epic.id == id) = true → epic = row := by
    intro epic hepic hid
    rw [beq_iff_eq] at hid
    have hfound := Table.find?_key hepic
    rw [hid, hrow] at hfound
    exact (Option.some.inj hfound).symm
  unfold State.updateEpic
  split
  · exact .of_same rfl rfl
  · split
    · dsimp only
      refine Moves.trans ?_ (moves_moveEpics projectId ?_ ?_) rfl
      · exact .of_same rfl rfl
      · intro epic hepic hid
        rw [hown epic hepic hid]
        exact hproject
      · rcases henters with hstay | henters
        · left
          intro epic hepic hid
          rw [hown epic hepic hid, hmilestone, hstay]
        · exact .inr (henters.congr rfl)
    · exact .of_same rfl rfl

theorem moves_detachEpics (projectId milestoneId : Uuid) :
    Moves r s (s.detachEpics projectId milestoneId) := by
  apply moves_moveEpics projectId
  · intro epic _ hmember
    simp only [State.isMember, Bool.and_eq_true, beq_iff_eq] at hmember
    exact hmember.1.2
  · exact .inr fun _ h => absurd h (by simp)

theorem moves_attachEpics {milestoneId : Uuid} {ids : List Uuid}
    (henters : Enters s projectId (some milestoneId)) :
    Moves r s (s.attachEpics projectId milestoneId ids).2 := by
  unfold State.attachEpics
  split
  · apply moves_moveEpics projectId
    · intro epic _ hgiven
      simp only [Bool.and_eq_true, beq_iff_eq] at hgiven
      exact hgiven.1.1
    · exact .inr henters
  · exact .of_same rfl rfl

variable {f : Milestones.Milestone → Milestones.Milestone}

/-- A milestone that is written stays in its project, as live as it was. -/
theorem moves_modify {p : Milestones.Milestone → Bool} (hf : ∀ row, (f row).id = row.id)
    (hproject : ∀ row, (f row).projectId = row.projectId)
    (hlive : ∀ row, (f row).deletedAt = row.deletedAt)
    (hclosed : ∀ row, p row = true → ¬ r row.id → row.closed = true → (f row).closed = true) :
    Moves r s { s with milestones := s.milestones.modify p f hf } := by
  refine ⟨?_, fun _ _ h => .inl h, ?_⟩
  · intro hbefore epic hepic hdeleted id hid
    obtain ⟨row, hrow⟩ := Option.isSome_iff_exists.mp (hbefore epic hepic hdeleted id hid)
    obtain ⟨hfound, hkept⟩ := Option.filter_eq_some_iff.mp hrow
    have hfound' : (s.milestones.modify p f hf).find? id = some (if p row then f row else row) := by
      rw [Table.find?_modify, hfound]
      rfl
    have hkept' : ((if p row then f row else row).projectId == epic.projectId &&
        (if p row then f row else row).live) = true := by
      split
      · rw [Milestones.Milestone.live, hproject, hlive]
        exact hkept
      · exact hkept
    simp only [State.milestoneInProject, State.milestone?, Milestones.get, hfound',
      Option.filter_some, hkept', if_true, Option.isSome_some]
  · rintro id hr ⟨row, hfound, hcompleted⟩
    refine ⟨if p row then f row else row, ?_, ?_⟩
    · rw [Table.find?_modify, hfound]
      rfl
    · split
      · rename_i hp
        rw [← Table.key_of_find? hfound] at hr
        exact hclosed row hp hr hcompleted
      · exact hcompleted

variable {row : Milestones.Milestone}

theorem moves_writeRow {hf : ∀ row, (f row).id = row.id} {now : Int}
    {result : Milestones.Milestone × Milestones.Db}
    (h : Milestones.writeRow f hf row ⟨s.milestones, now⟩ = .ok result)
    (hproject : ∀ row, (f row).projectId = row.projectId)
    (hlive : ∀ row, (f row).deletedAt = row.deletedAt)
    (hclosed : ¬ r row.id → ∀ row, row.closed = true → (f row).closed = true) :
    Moves r s { s with milestones := result.2.milestones } := by
  unfold Milestones.writeRow at h
  cases hcheck : Milestones.checkRow (f row) with
  | error e =>
    rw [hcheck] at h
    contradiction
  | ok _ =>
    rw [hcheck] at h
    rw [← Except.ok.inj h]
    refine moves_modify hf hproject hlive ?_
    intro other hother hr
    rw [beq_iff_eq.mp hother] at hr
    exact hclosed hr other

/-- The milestone that a reopening reopens. -/
def reopening (id : Uuid) (completed : Bool) (other : Uuid) : Prop := completed = false ∧ other = id

theorem moves_setCompleted (projectId id : Uuid) (completed : Bool) :
    Moves (reopening id completed) s (s.setCompleted projectId id completed).2 := by
  unfold State.setCompleted
  split
  · exact .of_same rfl rfl
  · rename_i row hrow
    have hid : row.id = id := Table.key_of_find? (Option.filter_eq_some_iff.mp hrow).1
    dsimp only
    split
    · rename_i hwritten
      cases completed with
      | true => exact moves_writeRow hwritten (fun _ => rfl) (fun _ => rfl) fun _ _ _ => rfl
      | false =>
        exact moves_writeRow hwritten (fun _ => rfl) (fun _ => rfl)
          fun hr => absurd ⟨rfl, hid⟩ hr
    · exact .of_same rfl rfl

/-- Nothing is written where no milestone is returned. -/
theorem setCompleted_written (projectId id : Uuid) (completed : Bool)
    (h : ∀ row, (s.setCompleted projectId id completed).1 ≠ .ok (some row)) :
    Still s (s.setCompleted projectId id completed).2 := by
  unfold State.setCompleted at h ⊢
  split
  · exact Still.refl s
  · rename_i row hrow
    rw [hrow] at h
    dsimp only at h ⊢
    split
    · rename_i hwritten
      rw [hwritten] at h
      exact absurd rfl (h _)
    · exact Still.refl s

/-- A milestone that is returned as closed is completed. -/
theorem closed_setCompleted (h : (s.setCompleted projectId id true).1 = .ok (some row)) :
    (s.setCompleted projectId id true).2.Completed id := by
  unfold State.setCompleted at h ⊢
  split at h
  · cases h
  · rename_i old hold
    have hfound : s.milestones.find? id = some old := (Option.filter_eq_some_iff.mp hold).1
    dsimp only at h ⊢
    rw [if_pos rfl] at h ⊢
    unfold Milestones.writeRow at h ⊢
    cases hcheck : Milestones.checkRow (Milestones.closeRow s.db.now old) with
    | error e =>
      rw [hcheck] at h
      cases h
    | ok _ =>
      refine ⟨Milestones.closeRow s.db.now old, ?_, rfl⟩
      have hrow := Table.find?_modify s.milestones (·.id == old.id)
        (Milestones.closeRow s.db.now) (fun _ => rfl) id
      rw [hfound, Option.map_some, if_pos (beq_self_eq_true _)] at hrow
      exact hrow

/-- A milestone without epics goes. -/
theorem moves_deleteMilestone (hempty : s.hasEpics projectId id = false) :
    Moves r s (s.deleteMilestone projectId id).2 := by
  unfold State.deleteMilestone
  split
  · rename_i hin
    refine ⟨?_, fun _ _ h => .inl h, ?_⟩
    swap
    · rintro other _ ⟨row, hfound, hcompleted⟩
      refine ⟨_, by rw [Table.find?_modify, hfound]; rfl, ?_⟩
      dsimp only
      split
      · exact hcompleted
      · exact hcompleted
    intro hbefore epic hepic hdeleted milestoneId hid
    have hlive := hbefore epic hepic hdeleted milestoneId hid
    have hother : milestoneId ≠ id := by
      rintro rfl
      -- the milestone is of one project, so the epic would have been counted
      obtain ⟨row, hrow⟩ := Option.isSome_iff_exists.mp hin
      obtain ⟨row', hrow'⟩ := Option.isSome_iff_exists.mp hlive
      obtain ⟨hfound, hof⟩ := Option.filter_eq_some_iff.mp hrow
      obtain ⟨hfound', hof'⟩ := Option.filter_eq_some_iff.mp hrow'
      rw [Option.some.inj (hfound.symm.trans hfound')] at hof
      simp only [Bool.and_eq_true, beq_iff_eq] at hof hof'
      have hmember : State.isMember projectId milestoneId epic = true := by
        simp [State.isMember, hid, hdeleted, ← hof'.1, hof.1]
      have hcounted := List.any_eq_false.mp hempty epic hepic
      contradiction
    obtain ⟨row, hrow⟩ := Option.isSome_iff_exists.mp hlive
    obtain ⟨hfound, hkept⟩ := Option.filter_eq_some_iff.mp hrow
    have hkey : row.id ≠ id := by
      rw [Table.key_of_find? hfound]
      exact hother
    simp only [State.milestoneInProject, State.milestone?, Milestones.get, Table.find?_modify]
    rw [hfound, Option.map_some, if_neg (by simpa using hkey), Option.filter_some, if_pos hkept]
    rfl
  · exact .of_same rfl rfl

end Moves

/-! ## Handlers on a database that answers -/

/-- The statement does not fail. -/
def Calm (choice : Choice) : Prop := choice.fails = false

/-- Epics and milestones stay as they are. -/
def Quiet {β : Type} (stmt : Stmt β) : Prop := ∀ s, Still s (stmt.effect s).2

/-- A statement that returns `f` of the epics and milestones. -/
structure Sees {α : Type} (stmt : Stmt (Except DbError α)) (f : State → α) : Prop where
  effect : ∀ s, stmt.effect s = (.ok (f s), s)
  same : ∀ {s s' : State}, Still s s' → f s' = f s

/-- However the handler ends, epics have moved as they may. -/
def MovesOnly {α : Type} (r : Uuid → Prop) (p : Handler α) (s s' : State) : Prop :=
  Ensures Stmt.exec Calm p (fun _ s' => Moves r s s') (fun _ s' => Moves r s s') s'

section Handlers

variable {α β : Type} {r : Uuid → Prop} {s s' : State} {E : Problem → Prop}

theorem exec_calm {stmt : Stmt β} {choice : Choice} (h : Calm choice) (s : State) :
    stmt.exec choice s = stmt.effect (s.wait choice.elapse) := by
  rw [Stmt.exec, if_neg]
  rw [h]
  exact Bool.noConfusion

theorem still_exec {stmt : Stmt β} (hquiet : Quiet stmt) (choice : Choice) (h : Still s s') :
    Still s (stmt.exec choice s').2 := by
  have hlater := h.trans (still_wait choice.elapse s')
  unfold Stmt.exec
  split
  · exact hlater
  · exact hlater.trans (hquiet _)

variable {stmt : Stmt (Except DbError α)} {f : State → α}

theorem Sees.quiet (h : Sees stmt f) : Quiet stmt := by
  intro s
  rw [h.effect]
  exact Still.refl s

theorem Sees.orDefault (h : Sees stmt f) (default : α) :
    Stays Stmt.exec Calm (Still s) (orDefault stmt default) (fun a => a = f s) E := by
  intro s' hs choice hcalm
  have hlater := hs.trans (still_wait choice.elapse s')
  dsimp only
  rw [exec_calm hcalm, h.effect]
  exact ⟨hlater, h.same hlater⟩

theorem Sees.orRefuse (h : Sees stmt f) (problem : Problem) :
    Stays Stmt.exec Calm (Still s) (orRefuse stmt problem) (fun a => a = f s) E := by
  intro s' hs choice hcalm
  have hlater := hs.trans (still_wait choice.elapse s')
  dsimp only
  rw [exec_calm hcalm, h.effect]
  exact ⟨hlater, h.same hlater⟩

theorem sees_milestoneInProject (projectId id : Uuid) :
    Sees (.milestoneInProject projectId id) fun s => s.milestoneInProject projectId id :=
  ⟨fun _ => rfl, fun h => h.milestoneInProject projectId id⟩

theorem sees_milestoneClosed (projectId id : Uuid) :
    Sees (.milestoneClosed projectId id) fun s => s.milestoneClosed projectId id :=
  ⟨fun _ => rfl, fun h => h.milestoneClosed projectId id⟩

theorem sees_selectEpic (projectId id : Uuid) :
    Sees (.selectEpic projectId id) fun s => s.selectEpic projectId id :=
  ⟨fun _ => rfl, fun h => h.selectEpic projectId id⟩

theorem sees_hasEpics (projectId id : Uuid) :
    Sees (.hasEpics projectId id) fun s => s.hasEpics projectId id :=
  ⟨fun _ => rfl, fun h => by rw [State.hasEpics, State.hasEpics, h.epics]⟩

theorem quiet_taskTotal (projectId epicId : Uuid) : Quiet (.taskTotal projectId epicId) :=
  fun s => Still.refl s

theorem quiet_lookupKey (userId : Uuid) (key method path : String) :
    Quiet (.lookupKey userId key method path) := fun s => Still.refl s

theorem quiet_storeKey (row : StoredEpic) : Quiet (.storeKey row) := by
  intro s
  show Still s (s.storeKey row)
  unfold State.storeKey
  split
  · exact Still.refl s
  · exact ⟨rfl, rfl, rfl⟩

theorem quiet_now : Quiet .now := fun s => Still.refl s

theorem quiet_allocEpicRef (projectId : Uuid) : Quiet (.allocEpicRef projectId) :=
  fun _ => ⟨rfl, rfl, rfl⟩

variable {p : Handler α}

/-- A program of quiet statements. -/
theorem stays_quiet (honly : p.run.Only Quiet) :
    Stays Stmt.exec Calm (Still s) p (fun _ => True) fun _ => True := by
  intro s' hs
  have hends : p.run.Ends Stmt.exec Calm (fun _ s' => Still s s') s' :=
    Prog.ends_of_only (fun _ choice _ hquiet h => still_exec hquiet choice h) honly hs
  apply hends.mono
  rintro (e | a) s'' hstill
  · exact ⟨hstill, trivial⟩
  · exact ⟨hstill, trivial⟩

/-- A program of quiet statements moves no epic. -/
theorem movesOnly_quiet (honly : p.run.Only Quiet) (hs : Moves r s s') : MovesOnly r p s s' := by
  apply (stays_quiet honly s' (Still.refl s')).mono
  · exact fun _ _ h => h.1.after hs
  · exact fun _ _ h => h.1.after hs

/-- A statement that writes, and what follows it. -/
theorem movesOnly_write {problem : Problem} {f : α → Handler β} {J : State → Prop}
    (hs : Still s s') (hJ : ∀ s', J s' → Moves r s s')
    (hwrite : ∀ s', Still s s' → J (stmt.effect s').2)
    (hf : ∀ a s', J s' → MovesOnly r (f a) s s') :
    MovesOnly r (orRefuse stmt problem >>= f) s s' := by
  unfold MovesOnly
  rw [ensures_bind]
  intro choice hcalm
  dsimp only
  have hwritten := hwrite _ (hs.trans (still_wait choice.elapse s'))
  rw [exec_calm hcalm]
  cases (stmt.effect (s'.wait choice.elapse)).1 with
  | ok a => exact hf a _ hwritten
  | error e => exact hJ _ hwritten

/-- A check, and what follows it where it passes. -/
theorem Stays.movesOnly {f : α → Handler β} {P : α → Prop}
    (hp : Stays Stmt.exec Calm (Still s) p P E) (hs : Still s s')
    (hf : ∀ a s', Still s s' → P a → MovesOnly r (f a) s s') : MovesOnly r (p >>= f) s s' :=
  hp.ensures hs hf fun _ _ h _ => .of_same h.epics h.milestones

theorem stays_refuseCompleted (projectId id : Uuid) :
    Stays Stmt.exec Calm (Still s) (refuseCompleted projectId id)
      (fun _ => s.milestoneClosed projectId id = false) fun _ => True := by
  refine stays_bind ((sees_milestoneClosed projectId id).orDefault false) fun closed hclosed => ?_
  apply (stays_refuseUnless (E := fun _ => True) fun _ => trivial).mono
  · intro _ hopen
    rw [← hclosed]
    exact (Bool.not_eq_true' _).mp hopen
  · exact fun _ h => h

theorem stays_validateEnters (projectId : Uuid) (milestoneId : Option Uuid) :
    Stays Stmt.exec Calm (Still s) (validateEpicMilestoneAssignment projectId milestoneId)
      (fun _ => Enters s projectId milestoneId) fun _ => True := by
  cases milestoneId with
  | none => exact stays_pure fun _ h => absurd h (by simp)
  | some id =>
    refine stays_bind ((sees_milestoneInProject projectId id).orDefault false)
      fun found hfound => ?_
    refine stays_bind (stays_refuseUnless fun _ => trivial) fun _ hin => ?_
    apply (stays_refuseCompleted projectId id).mono
    · intro _ hopen other hother
      rw [← Option.some.inj hother, ← hfound]
      exact ⟨hin, hopen⟩
    · exact fun _ h => h

theorem quiet_remember (userId : Uuid) (key : Option String) (path : String) (body : FullEpic) :
    (remember userId key path body).run.Only Quiet := by
  cases key with
  | none => trivial
  | some key =>
    refine only_run_bind (only_orRefuse quiet_now internal) fun now => ?_
    exact only_orDefault (quiet_storeKey _) ()

theorem quiet_replay (userId : Uuid) (key : Option String) (path : String) :
    (replay userId key path).run.Only Quiet := by
  cases key with
  | none => trivial
  | some key => exact only_orDefault (quiet_lookupKey _ _ _ _) none

theorem movesOnly_createEpic (ctx : Context) (key : Option String)
    (body : CreateBody CreateEpicRequest) : MovesOnly r (createEpic ctx key body) s s := by
  unfold createEpic
  refine Stays.movesOnly (stays_refuseUnless (E := fun _ => True) fun _ => trivial)
    (Still.refl s) ?_
  intro _ s' hs _
  refine Stays.movesOnly (stays_given (E := fun _ => True) fun _ _ => trivial) hs ?_
  intro req s' hs _
  refine Stays.movesOnly (stays_validateEnters ctx.projectId req.milestoneId) hs ?_
  intro _ s' hs henters
  refine Stays.movesOnly (stays_quiet (quiet_replay ctx.actorId key _)) hs ?_
  intro stored s' hs _
  cases stored with
  | some stored => exact .of_same hs.epics hs.milestones
  | none =>
    refine Stays.movesOnly (stays_quiet (only_orRefuse (quiet_allocEpicRef _) _)) hs ?_
    intro reference s' hs _
    apply movesOnly_write (J := Moves r s) hs (fun _ h => h)
    · exact fun s' hs => hs.before (moves_insertEpic (henters.congr hs.milestones))
    · intro epic s' hmoves
      exact movesOnly_quiet (only_run_bind (quiet_remember ctx.actorId key _ epic)
        fun _ => trivial) hmoves

theorem stays_validateMoveEnters (projectId : Uuid) (old : FullEpic) (w : EpicWrite) :
    Stays Stmt.exec Calm (Still s) (validateMove projectId old w)
      (fun _ => w.milestoneId = old.milestoneId ∨ Enters s projectId w.milestoneId)
      fun _ => True := by
  unfold validateMove
  split
  · exact (stays_validateEnters projectId w.milestoneId).mono (fun _ h => .inr h) fun _ h => h
  · rename_i hsame
    exact stays_pure (.inl (by simpa using hsame))

theorem movesOnly_updateEpic (ctx : Context) (req : UpdateRequest) :
    MovesOnly r (updateEpic ctx req) s s := by
  unfold updateEpic
  refine Stays.movesOnly (stays_refuseUnless (E := fun _ => True) fun _ => trivial)
    (Still.refl s) ?_
  intro _ s' hs _
  refine Stays.movesOnly (stays_given (E := fun _ => True) fun _ _ => trivial) hs ?_
  intro patch s' hs _
  have hread : Stays Stmt.exec Calm (Still s) (readOld ctx.projectId req.id)
      (fun old => ∃ epic, s.selectEpic ctx.projectId req.id = some epic ∧
        epic.milestoneId = old.milestoneId) fun _ => True := by
    unfold readOld
    refine stays_bind ((sees_selectEpic ctx.projectId req.id).orRefuse notFound)
      fun found hfound => ?_
    cases found with
    | none => exact stays_throw trivial
    | some epic =>
      refine stays_bind (stays_quiet (only_orRefuse (quiet_taskTotal _ _) _)) fun total _ => ?_
      exact stays_pure ⟨epic, hfound.symm, rfl⟩
  refine Stays.movesOnly hread hs ?_
  rintro old s' hs ⟨epic, hepic, hmilestone⟩
  refine Stays.movesOnly (stays_given (E := fun _ => True) fun _ _ => trivial) hs ?_
  intro _ s' hs _
  refine Stays.movesOnly (stays_validateMoveEnters ctx.projectId old (patch.over old)) hs ?_
  intro _ s' hs henters
  unfold writePatch
  apply movesOnly_write (J := Moves r s) hs (fun _ h => h)
  · intro s' hs
    apply hs.before
    apply moves_updateEpic ((hs.selectEpic _ _).trans hepic)
    rcases henters with hstay | henters
    · exact .inl (hstay.trans hmilestone.symm)
    · exact .inr (henters.congr hs.milestones)
  · intro updated s' hmoves
    apply movesOnly_quiet ?_ hmoves
    cases updated with
    | some epic =>
      exact only_run_bind (only_orRefuse (quiet_taskTotal _ _) _) fun _ => trivial
    | none =>
      refine only_run_bind (only_orRefuse (sees_selectEpic _ _).quiet _) fun found => ?_
      cases found with
      | some epic => trivial
      | none => trivial

/-- A statement that writes, at the end. -/
theorem movesOnly_last {problem : Problem}
    (hwrite : ∀ elapse, Moves r s (stmt.effect (s'.wait elapse)).2) :
    MovesOnly r (orRefuse stmt problem) s s' := by
  intro choice hcalm
  dsimp only
  have hwritten := hwrite choice.elapse
  rw [exec_calm hcalm]
  cases (stmt.effect (s'.wait choice.elapse)).1 with
  | ok a => exact hwritten
  | error e => exact hwritten

/-- Epics have moved as they may, and the milestones are as they were. -/
def Emptied (r : Uuid → Prop) (s s' : State) : Prop := Moves r s s' ∧ s'.milestones = s.milestones

theorem movesOnly_replaceEpics {projectId milestoneId : Uuid} {ids : List Uuid} (hs : Still s s')
    (henters : ids.isEmpty = false → Enters s projectId (some milestoneId)) :
    MovesOnly r (replaceEpics projectId milestoneId ids) s s' := by
  unfold replaceEpics
  apply movesOnly_write (J := Emptied r s) hs (fun _ h => h.1)
  · intro s' hs
    exact ⟨hs.before (moves_detachEpics projectId milestoneId), hs.milestones⟩
  · rintro _ s' ⟨hmoves, hmilestones⟩
    split
    · exact hmoves
    · rename_i hempty
      apply movesOnly_last
      intro elapse
      have hlater : Moves r s (s'.wait elapse) := (still_wait elapse s').after hmoves
      exact hlater.trans (moves_attachEpics
        ((henters ((Bool.not_eq_true _).mp hempty)).congr hmilestones)) hmilestones

theorem movesOnly_bind_pure (answer : β) (h : MovesOnly r p s s') :
    MovesOnly r (do let _ ← p; pure answer) s s' :=
  ensures_bind.mpr (Ensures.mono h (fun _ _ h => h) fun _ _ h => h)

theorem movesOnly_setEpics (ctx : Context) (id : Uuid) (body : CreateBody (List Uuid)) :
    MovesOnly r (setEpics ctx id body) s s := by
  unfold setEpics
  refine Stays.movesOnly (stays_refuseUnless (E := fun _ => True) fun _ => trivial)
    (Still.refl s) ?_
  intro _ s' hs _
  refine Stays.movesOnly (stays_given (E := fun _ => True) fun _ _ => trivial) hs ?_
  intro ids s' hs _
  refine Stays.movesOnly (E := fun _ => True)
    ((sees_milestoneInProject ctx.projectId id).orDefault false) hs ?_
  intro found s' hs hfound
  refine Stays.movesOnly (stays_refuseUnless (E := fun _ => True) fun _ => trivial) hs ?_
  intro _ s' hs hin
  split
  · rename_i hempty
    apply movesOnly_bind_pure
    apply movesOnly_replaceEpics hs
    rw [hempty]
    exact fun h => Bool.noConfusion h
  · refine Stays.movesOnly (stays_refuseCompleted ctx.projectId id) hs ?_
    intro _ s' hs hopen
    apply movesOnly_bind_pure
    apply movesOnly_replaceEpics hs
    intro _ other hother
    rw [← Option.some.inj hother, ← hfound]
    exact ⟨hin, hopen⟩

/-- Where a milestone is answered it was written, and it is completed where it was closed. -/
theorem ensures_setCompleted (ctx : Context) (id : Uuid) (completed : Bool) :
    Ensures Stmt.exec Calm (setCompleted ctx id completed)
      (fun _ s' => Moves (reopening id completed) s s' ∧ (completed = true → s'.Completed id))
      (fun _ s' => Still s s') s := by
  unfold setCompleted
  refine Stays.ensures (I := Still s) (E := fun _ => True) (stays_refuseUnless fun _ => trivial)
    (Still.refl s) ?_ fun _ _ h _ => h
  intro _ s' hs _
  rw [ensures_bind]
  intro choice hcalm
  have hlater := hs.trans (still_wait choice.elapse s')
  dsimp only
  rw [exec_calm hcalm]
  generalize s'.wait choice.elapse = s' at hlater
  have hmoves := hlater.before (moves_setCompleted (s := s') ctx.projectId id completed)
  have hwritten := setCompleted_written (s := s') ctx.projectId id completed
  show Outcome _ _ ((s'.setCompleted ctx.projectId id completed).1.mapError fun _ => internal) _
  cases hresult : (s'.setCompleted ctx.projectId id completed).1 with
  | error e => exact hlater.trans (hwritten fun row h => by rw [hresult] at h; cases h)
  | ok found =>
    cases found with
    | none => exact hlater.trans (hwritten fun row h => by rw [hresult] at h; cases h)
    | some row =>
      refine ⟨hmoves, fun hcompleted => ?_⟩
      subst hcompleted
      exact closed_setCompleted hresult

theorem movesOnly_deleteMilestone (ctx : Context) (id : Uuid) :
    MovesOnly r (deleteMilestone ctx id) s s := by
  unfold deleteMilestone
  refine Stays.movesOnly (stays_refuseUnless (E := fun _ => True) fun _ => trivial)
    (Still.refl s) ?_
  intro _ s' hs _
  refine Stays.movesOnly (E := fun _ => True) ((sees_hasEpics ctx.projectId id).orRefuse internal)
    hs ?_
  intro found s' hs hfound
  refine Stays.movesOnly (stays_refuseUnless (E := fun _ => True) fun _ => trivial) hs ?_
  intro _ s' hs hempty
  apply movesOnly_write (J := Moves r s) hs (fun _ h => h)
  · intro s' hs
    apply hs.before
    apply moves_deleteMilestone
    rw [(sees_hasEpics ctx.projectId id).same hs, ← hfound]
    exact (Bool.not_eq_true' _).mp hempty
  · intro deleted s' hmoves
    exact movesOnly_quiet (only_run_bind (only_refuseUnless _ _) fun _ => trivial) hmoves

end Handlers

/-! ## Requests on issues -/

variable {db : Issues.Db}

theorem epics_commit {after : Option Issues.Db}
    (h : ∀ db', after = some db' → db'.epics = db.epics) :
    (db.commit after).2.epics = db.epics := by
  cases after with
  | none => rfl
  | some db' => exact h db' rfl

theorem epics_deleteVersionRows (p : Issues.VersionRow → Bool) (db : Issues.Db) :
    (db.deleteVersionRows p).epics = db.epics := by
  rw [Issues.Db.deleteVersionRows_only]

theorem epics_insertVersion {id : Uuid} {pair : Issues.ComponentVersion} {db' : Issues.Db}
    (h : db.insertVersion id pair = some db') : db'.epics = db.epics := by
  unfold Issues.Db.insertVersion at h
  split at h
  · split at h
    · rw [← Option.some.inj h]
      rfl
    · contradiction
  · rw [← Option.some.inj h]

theorem epics_insertVersions (id : Uuid) (pairs : List Issues.ComponentVersion) {db' : Issues.Db}
    (h : pairs.foldlM (Issues.Db.insertVersion id) db = some db') : db'.epics = db.epics := by
  induction pairs generalizing db with
  | nil => rw [Option.some.inj h]
  | cons pair pairs ih =>
    rw [List.foldlM_cons] at h
    obtain ⟨next, hnext, hrest⟩ := Option.bind_eq_some_iff.mp h
    exact (ih hrest).trans (epics_insertVersion hnext)

theorem epics_effect {β : Type} (stmt : Issues.Stmt β) (db : Issues.Db) :
    (stmt.effect db).2.epics = db.epics := by
  cases stmt with
  | insertIssue projectId ownerId reference w =>
    dsimp only [Issues.Stmt.effect]
    unfold Issues.Db.insertIssue
    split <;> rfl
  | updateIssue projectId id version w =>
    dsimp only [Issues.Stmt.effect]
    unfold Issues.Db.updateIssue
    split
    · rfl
    · split <;> rfl
  | setIssueLabels id ids =>
    apply epics_commit
    intro db' h
    unfold Issues.Db.setIssueLabels at h
    split at h
    · rw [← Option.some.inj h]
    · contradiction
  | setIssueComponents id ids =>
    apply epics_commit
    intro db' h
    unfold Issues.Db.setIssueComponents at h
    split at h
    · rw [← Option.some.inj h]
      exact epics_deleteVersionRows _ db
    · contradiction
  | setIssueComponentVersions id pairs =>
    apply epics_commit
    intro db' h
    exact (epics_insertVersions id pairs h).trans (epics_deleteVersionRows _ db)
  | setIssueCustomers id ids =>
    apply epics_commit
    intro db' h
    unfold Issues.Db.setIssueCustomers at h
    split at h
    · rw [← Option.some.inj h]
    · contradiction
  | createVersion releaseId version =>
    dsimp only [Issues.Stmt.effect]
    unfold Issues.Db.createVersion
    dsimp only
    split
    · rfl
    · split <;> rfl
  | deleteVersion projectId id =>
    dsimp only [Issues.Stmt.effect]
    unfold Issues.Db.deleteVersion
    split
    · exact epics_deleteVersionRows _ _
    · rfl
  | storeKey row =>
    dsimp only [Issues.Stmt.effect]
    unfold Issues.Db.storeKey
    split <;> rfl
  | _ => rfl

theorem epics_exec {β : Type} (stmt : Issues.Stmt β) (choice : Choice) (db : Issues.Db) :
    (stmt.exec choice db).2.epics = db.epics := by
  unfold Issues.Stmt.exec
  split
  · rfl
  · exact epics_effect stmt _

/-- A request on issues leaves the epics alone. -/
theorem still_onIssues (p : Issues.Handler Issues.Answer) (choices : Nat → Choice) (s : State) :
    Still s (onIssues p choices s).2 := by
  have hends : p.run.Ends Issues.Stmt.exec (fun _ => True)
      (fun _ db => db.epics = s.db.epics) s.db :=
    Prog.ends_of_only (P := fun _ => True)
      (fun stmt choice db _ h => (epics_exec stmt choice db).trans h) (Prog.only_true _) rfl
  exact ⟨hends.alone fun _ => trivial, rfl, rfl⟩

/-! ## Runs -/

/-- The handlers, each in one step of a database that answers, some time after the last. -/
def atomic : Server State (Nat × Request) (Except Problem Answer) where
  handle entry := server.handle ⟨entry.2, fun _ => { elapse := entry.1 }⟩

/-- The request closes the milestone. -/
def Closes (id : Uuid) (s : State) (entry : Nat × Request) : Prop :=
  ∃ ctx answer, entry.2 = .setCompleted ctx id true ∧ atomic.answer s entry = .ok answer

/-- The request reopens the milestone. -/
def Reopens (id : Uuid) (s : State) (entry : Nat × Request) : Prop :=
  ∃ ctx answer, entry.2 = .setCompleted ctx id false ∧ atomic.answer s entry = .ok answer

section Runs

variable {s : State} {id : Uuid}

theorem moves_onEpics {r : Uuid → Prop} {p : Handler Answer} (elapse : Nat)
    (h : MovesOnly r p s s) : Moves r s (onEpics p (fun _ => { elapse := elapse }) s).2 := by
  have houtcome : Outcome _ _ (p.run.alone Stmt.exec _ s).1 _ :=
    Prog.Ends.alone h fun _ : Nat => (rfl : Calm { elapse := elapse })
  unfold onEpics
  generalize p.run.alone Stmt.exec _ s = result at houtcome ⊢
  obtain ⟨answer, s'⟩ := result
  cases answer with
  | ok answer => exact houtcome
  | error problem => exact houtcome

/-- How a request to close or reopen ends. -/
theorem outcome_setCompleted (elapse : Nat) (ctx : Context) (id : Uuid) (completed : Bool) :
    Outcome (fun _ s' => Moves (reopening id completed) s s' ∧ (completed = true → s'.Completed id))
      (fun _ s' => Still s s')
      (atomic.answer s (elapse, .setCompleted ctx id completed))
      (atomic.next s (elapse, .setCompleted ctx id completed)) :=
  Prog.Ends.alone (ensures_setCompleted ctx id completed)
    fun _ : Nat => (rfl : Calm { elapse := elapse })

theorem completed_of_closes {entry : Nat × Request} (h : Closes id s entry) :
    (atomic.next s entry).Completed id := by
  obtain ⟨elapse, request⟩ := entry
  obtain ⟨ctx, answer, rfl, hanswer⟩ := h
  have houtcome := outcome_setCompleted (s := s) elapse ctx id true
  rw [hanswer] at houtcome
  exact houtcome.2 rfl

/-- One request moves epics as it may, and completed milestones stay so unless it reopens them. -/
theorem moves_next (s : State) (entry : Nat × Request) :
    Moves (fun id => Reopens id s entry) s (atomic.next s entry) := by
  obtain ⟨elapse, request⟩ := entry
  cases request with
  | createIssue ctx key body =>
    have hstill := still_onIssues (Issues.createIssue ctx key body) (fun _ => ⟨elapse, false⟩) s
    exact .of_same hstill.epics hstill.milestones
  | bulkCreateIssues ctx body =>
    have hstill := still_onIssues (Issues.bulkCreateIssues ctx body) (fun _ => ⟨elapse, false⟩) s
    exact .of_same hstill.epics hstill.milestones
  | updateIssue ctx req =>
    have hstill := still_onIssues (Issues.updateIssue ctx req) (fun _ => ⟨elapse, false⟩) s
    exact .of_same hstill.epics hstill.milestones
  | createEpic ctx key body => exact moves_onEpics elapse (movesOnly_createEpic ctx key body)
  | updateEpic ctx req => exact moves_onEpics elapse (movesOnly_updateEpic ctx req)
  | setEpics ctx id body => exact moves_onEpics elapse (movesOnly_setEpics ctx id body)
  | deleteMilestone ctx id => exact moves_onEpics elapse (movesOnly_deleteMilestone ctx id)
  | setCompleted ctx id completed =>
    have houtcome := outcome_setCompleted (s := s) elapse ctx id completed
    cases hanswer : atomic.answer s (elapse, .setCompleted ctx id completed) with
    | error problem =>
      rw [hanswer] at houtcome
      exact .of_same houtcome.epics houtcome.milestones
    | ok answer =>
      rw [hanswer] at houtcome
      obtain ⟨hmoves, -⟩ := houtcome
      refine ⟨hmoves.live, hmoves.gains, fun other hr => hmoves.completed other ?_⟩
      rintro ⟨rfl, rfl⟩
      exact hr ⟨ctx, answer, rfl, hanswer⟩

/-- While a milestone is not reopened it stays completed and gains no epic. -/
theorem run_completed {entries : List (Nat × Request)} (hcompleted : s.Completed id)
    (hkept : atomic.Each (fun s entry => ¬ Reopens id s entry) s entries) :
    (atomic.run s entries).Completed id ∧
      ∀ epicId, (atomic.run s entries).Member id epicId → s.Member id epicId := by
  induction entries generalizing s with
  | nil => exact ⟨hcompleted, fun _ h => h⟩
  | cons entry entries ih =>
    have hmoves := moves_next s entry
    obtain ⟨hlater, hmembers⟩ := ih (hmoves.completed id hkept.1 hcompleted) hkept.2
    refine ⟨hlater, fun epicId hmember => ?_⟩
    rcases hmoves.gains id epicId (hmembers epicId hmember) with hbefore | hopen
    · exact hbefore
    · exact absurd hcompleted hopen

/-- In a run, the milestone of a live epic is a live milestone of its project, and
from its closing on, until it is reopened, a milestone gains no epic. -/
theorem completed_milestones_take_no_epics {entries : List (Nat × Request)}
    (hlive : s.MilestonesLive) :
    atomic.Always State.MilestonesLive s entries ∧
      ∀ first close earlier later last id, entries = first ++ close :: (earlier ++ later) ++ last →
        Closes id (atomic.run s first) close →
        atomic.Each (fun s entry => ¬ Reopens id s entry) (atomic.run s (first ++ [close]))
          (earlier ++ later) →
        ∀ epicId, (atomic.run s (first ++ close :: (earlier ++ later))).Member id epicId →
          (atomic.run s (first ++ close :: earlier)).Member id epicId := by
  refine ⟨Server.always_of_step (fun s entry h => (moves_next s entry).live h) hlive entries, ?_⟩
  intro first close earlier later last id _ hcloses hkept epicId hmember
  rw [atomic.run_append, atomic.run_cons] at hmember ⊢
  rw [atomic.run_append, atomic.run_cons, atomic.run_nil] at hkept
  obtain ⟨hearlier, hlater⟩ := Server.each_append.mp hkept
  have hcompleted := (run_completed (completed_of_closes hcloses) hearlier).1
  rw [atomic.run_append] at hmember
  exact (run_completed hcompleted hlater).2 epicId hmember

end Runs

/-- Epic 1 waits to be planned, and milestone 4 of its project is open. -/
def planned : State :=
  { twoProjects with
    db := { twoProjects.db with epics := ⟨[⟨1, 1, none, none⟩], by decide⟩ }
    details := ⟨[{ subject := "Goal", id := 1, reference := 1, ownerId := 3, version := 1 }],
      by decide⟩
    milestones := ⟨[⟨4, 1, "Spring", "spring", "", none, none, none, none, none, false, none, 1,
      none⟩], by decide⟩ }

def fill : Nat × Request := (1, .setEpics member 4 (.valid [1]))

def close : Nat × Request := (2, .setCompleted member 4 true)

/-- A new epic for the milestone. -/
def join : Nat × Request :=
  (1, .createEpic member none (.valid { subject := "Late", milestoneId := some 4 }))

/-- The milestone is filled and closed, and an epic comes too late. -/
theorem completed_milestones_take_no_epics_planned :
    atomic.Always State.MilestonesLive planned [fill, close, join] ∧
      ∀ epicId, (atomic.run planned [fill, close, join]).Member 4 epicId →
        (atomic.run planned [fill, close]).Member 4 epicId := by
  have hlive : planned.MilestonesLive := by
    intro epic hepic _ id hid
    rw [List.mem_singleton.mp hepic] at hid
    cases hid
  have hcloses : Closes 4 (atomic.run planned [fill]) close := by
    refine ⟨member, .milestone ⟨4, 1, "Spring", "spring", "", none, none, none, none, none, true,
      some 6, 2, none⟩, rfl, ?_⟩
    decide +kernel
  have hkept : atomic.Each (fun s entry => ¬ Reopens 4 s entry)
      (atomic.run planned [fill, close]) [join] := by
    refine ⟨?_, trivial⟩
    rintro ⟨ctx, answer, hrequest, -⟩
    cases hrequest
  obtain ⟨halways, hgains⟩ := completed_milestones_take_no_epics hlive
  exact ⟨halways, hgains [fill] close [] [join] [] 4 rfl hcloses hkept⟩

end IntelliPilot.Epics
