import IntelliPilot.Backlog.MilestoneDerivation
import IntelliPilot.Progress.Handlers
import IntelliPilot.Statement.Lasting

/-! # Links stay inside projects

In any interleaving of the handlers an issue's epic and an epic's milestone are
of the project of the issue and of the epic, and each issue has the milestone of
its live epic. A handler may rely on a check it made: an id that led into a
project never leads to another one.
-/

namespace IntelliPilot.Progress

open Http Statement Rows
open Backlog (Uuid Milestone Epic Issue references)

/-! ## What an update does to rows -/

section Rows

variable {α : Type} {last last' : Uuid} {id project : α → Uuid} {link : α → Option Uuid}
  {L : Uuid → Uuid → Prop} {rows rows' rows'' : List α}

/-- Each row is an old one, of the same project, or has an id drawn since. -/
def Stems (last last' : Uuid) (id project : α → Uuid) (rows rows' : List α) : Prop :=
  ∀ row ∈ rows', (last < id row ∧ id row ≤ last') ∨
    ∃ old ∈ rows, id old = id row ∧ project old = project row

/-- Each link was there already in the project, or is allowed by `L`. -/
def LinksFrom (L : Uuid → Uuid → Prop) (project : α → Uuid) (link : α → Option Uuid)
    (rows rows' : List α) : Prop :=
  ∀ row ∈ rows', ∀ target, link row = some target → L (project row) target ∨
    ∃ old ∈ rows, project old = project row ∧ link old = some target

theorem Stems.refl (rows : List α) : Stems last last' id project rows rows :=
  fun row hrow => .inr ⟨row, hrow, rfl, rfl⟩

theorem LinksFrom.refl (rows : List α) : LinksFrom L project link rows rows :=
  fun row hrow _ htarget => .inr ⟨row, hrow, rfl, htarget⟩

theorem Stems.trans (h : Stems last last' id project rows rows')
    (h' : Stems last last' id project rows' rows'') : Stems last last' id project rows rows'' := by
  intro row hrow
  rcases h' row hrow with hnew | ⟨middle, hmiddle, hid, hproject⟩
  · exact .inl hnew
  · rcases h middle hmiddle with hnew | ⟨old, hold, hid', hproject'⟩
    · left
      rw [← hid]
      exact hnew
    · exact .inr ⟨old, hold, hid'.trans hid, hproject'.trans hproject⟩

theorem LinksFrom.trans (h : LinksFrom L project link rows rows')
    (h' : LinksFrom L project link rows' rows'') : LinksFrom L project link rows rows'' := by
  intro row hrow target htarget
  rcases h' row hrow target htarget with hallowed | ⟨middle, hmiddle, hproject, hlink⟩
  · exact .inl hallowed
  · rcases h middle hmiddle target hlink with hallowed | ⟨old, hold, hproject', hlink'⟩
    · left
      rw [← hproject]
      exact hallowed
    · exact .inr ⟨old, hold, hproject'.trans hproject, hlink'⟩

theorem Stems.updateWhere (p : α → Bool) {f : α → α} (hid : ∀ row, id (f row) = id row)
    (hproject : ∀ row, project (f row) = project row) (rows : List α) :
    Stems last last' id project rows (updateWhere p f rows) := by
  intro row hrow
  obtain ⟨old, hold, rfl⟩ := mem_updateWhere.mp hrow
  refine .inr ⟨old, hold, ?_, ?_⟩
  · split
    · exact (hid old).symm
    · rfl
  · split
    · exact (hproject old).symm
    · rfl

theorem LinksFrom.updateWhere {p : α → Bool} {f : α → α}
    (hproject : ∀ row, project (f row) = project row)
    (hlink : ∀ row ∈ rows, p row = true → ∀ target, link (f row) = some target →
      L (project row) target ∨ link row = some target) :
    LinksFrom L project link rows (updateWhere p f rows) := by
  intro row hrow target htarget
  obtain ⟨old, hold, rfl⟩ := mem_updateWhere.mp hrow
  split at htarget
  · rename_i hp
    rw [if_pos hp, hproject]
    rcases hlink old hold hp target htarget with hallowed | hsame
    · exact .inl hallowed
    · exact .inr ⟨old, hold, rfl, hsame⟩
  · rename_i hp
    rw [if_neg hp]
    exact .inr ⟨old, hold, rfl, htarget⟩

theorem Stems.deleteWhere (p : α → Bool) (rows : List α) :
    Stems last last' id project rows (deleteWhere p rows) :=
  fun row hrow => .inr ⟨row, (mem_deleteWhere.mp hrow).1, rfl, rfl⟩

theorem LinksFrom.deleteWhere (p : α → Bool) (rows : List α) :
    LinksFrom L project link rows (deleteWhere p rows) :=
  fun row hrow _ htarget => .inr ⟨row, (mem_deleteWhere.mp hrow).1, rfl, htarget⟩

theorem Stems.append {row : α} (hid : last < id row ∧ id row ≤ last') (rows : List α) :
    Stems last last' id project rows (rows ++ [row]) := by
  intro other hother
  rcases List.mem_append.mp hother with hold | hnew
  · exact .inr ⟨other, hold, rfl, rfl⟩
  · rw [List.mem_singleton.mp hnew]
    exact .inl hid

theorem LinksFrom.append {row : α}
    (hlink : ∀ target, link row = some target → L (project row) target) (rows : List α) :
    LinksFrom L project link rows (rows ++ [row]) := by
  intro other hother target htarget
  rcases List.mem_append.mp hother with hold | hnew
  · exact .inr ⟨other, hold, rfl, htarget⟩
  · rw [List.mem_singleton.mp hnew] at htarget ⊢
    exact .inl (hlink target htarget)

end Rows

/-! ## What a statement does to the backlog -/

/-- Rows stem from the old ones; new links are allowed by `E` and `M`. -/
structure Rewrites (last last' : Uuid) (E M : Uuid → Uuid → Prop) (db db' : Backlog.Db) : Prop where
  milestones : Stems last last' Milestone.id Milestone.projectId db.milestones.rows
    db'.milestones.rows
  epics : Stems last last' Epic.id Epic.projectId db.epics.rows db'.epics.rows
  issues : Stems last last' Issue.id Issue.projectId db.issues.rows db'.issues.rows
  milestoneLinks : LinksFrom M Epic.projectId Epic.milestoneId db.epics.rows db'.epics.rows
  epicLinks : LinksFrom E Issue.projectId Issue.epicId db.issues.rows db'.issues.rows

namespace Rewrites

variable {last last' : Uuid} {E M : Uuid → Uuid → Prop} {db db' db'' : Backlog.Db}

theorem refl (db : Backlog.Db) : Rewrites last last' E M db db :=
  ⟨.refl _, .refl _, .refl _, .refl _, .refl _⟩

theorem trans (h : Rewrites last last' E M db db') (h' : Rewrites last last' E M db' db'') :
    Rewrites last last' E M db db'' where
  milestones := h.milestones.trans h'.milestones
  epics := h.epics.trans h'.epics
  issues := h.issues.trans h'.issues
  milestoneLinks := h.milestoneLinks.trans h'.milestoneLinks
  epicLinks := h.epicLinks.trans h'.epicLinks

/-- An update of issues that gives each its own epic or an allowed one. -/
theorem updateIssues {p : Issue → Bool} {f : Issue → Issue}
    {hf : ∀ issue, (f issue).id = issue.id}
    (hproject : ∀ issue, (f issue).projectId = issue.projectId)
    (hepic : ∀ issue ∈ db.issues.rows, p issue = true → ∀ id, (f issue).epicId = some id →
      E issue.projectId id ∨ issue.epicId = some id) :
    Rewrites last last' E M db (Backlog.updateIssues p f hf db) where
  milestones := .refl _
  epics := .refl _
  issues := by
    apply Stems.updateWhere p
    · exact hf
    · exact hproject
  milestoneLinks := .refl _
  epicLinks := by
    apply LinksFrom.updateWhere
    · exact hproject
    · exact hepic

theorem keepIssues {p : Issue → Bool} {f : Issue → Issue} {hf : ∀ issue, (f issue).id = issue.id}
    (hproject : ∀ issue, (f issue).projectId = issue.projectId)
    (hepic : ∀ issue id, (f issue).epicId = some id → issue.epicId = some id) :
    Rewrites last last' E M db (Backlog.updateIssues p f hf db) :=
  updateIssues hproject fun issue _ _ id hid => .inr (hepic issue id hid)

theorem rewriteEpics {p : Epic → Bool} {f : Epic → Epic} {hf : ∀ epic, (f epic).id = epic.id}
    (hproject : ∀ epic, (f epic).projectId = epic.projectId)
    (hmilestone : ∀ epic ∈ db.epics.rows, p epic = true → ∀ id, (f epic).milestoneId = some id →
      M epic.projectId id ∨ epic.milestoneId = some id) :
    Rewrites last last' E M db (Backlog.rewriteEpics p f hf db) where
  milestones := .refl _
  epics := .updateWhere p hf hproject _
  issues := .refl _
  milestoneLinks := .updateWhere hproject hmilestone
  epicLinks := .refl _

theorem cascades (f : Epic → Epic) (olds : List Epic) (db : Backlog.Db) :
    Rewrites last last' E M db
      (olds.foldl (fun db old => Backlog.epicMilestoneCascade (f old) db) db) := by
  induction olds generalizing db with
  | nil => exact refl db
  | cons old olds ih => exact (keepIssues (fun _ => rfl) fun _ _ h => h).trans (ih _)

/-- An update of epics that gives each its own milestone or an allowed one. -/
theorem updateEpics {p : Epic → Bool} {f : Epic → Epic} {hf : ∀ epic, (f epic).id = epic.id}
    (hproject : ∀ epic, (f epic).projectId = epic.projectId)
    (hmilestone : ∀ epic ∈ db.epics.rows, p epic = true → ∀ id, (f epic).milestoneId = some id →
      M epic.projectId id ∨ epic.milestoneId = some id) :
    Rewrites last last' E M db (Backlog.updateEpics p f hf db) := by
  have hrewritten : Rewrites last last' E M db (Backlog.rewriteEpics p f hf db) :=
    rewriteEpics hproject hmilestone
  exact hrewritten.trans (cascades f _ _)

theorem updateMilestones (projectId id : Uuid) {f : Milestone → Milestone}
    {hf : ∀ milestone, (f milestone).id = milestone.id}
    (hproject : ∀ milestone, (f milestone).projectId = milestone.projectId) :
    Rewrites last last' E M db (Backlog.updateMilestones projectId id f hf db) where
  milestones := .updateWhere _ hf hproject _
  epics := .refl _
  issues := .refl _
  milestoneLinks := .refl _
  epicLinks := .refl _

theorem purgeIssues (projectId : Uuid) :
    Rewrites last last' E M db (Backlog.purgeIssues projectId db) := by
  have herased : Rewrites last last' E M db
      { db with issues := db.issues.erase (·.projectId == projectId) } :=
    ⟨.refl _, .refl _, .deleteWhere _ _, .refl _, .deleteWhere _ _⟩
  exact herased.trans (keepIssues (fun _ => rfl) fun _ _ h => h)

theorem purgeEpics (projectId : Uuid) :
    Rewrites last last' E M db (Backlog.purgeEpics projectId db) := by
  have herased : Rewrites last last' E M db
      { db with epics := db.epics.erase (·.projectId == projectId) } :=
    ⟨.refl _, .deleteWhere _ _, .refl _, .deleteWhere _ _, .refl _⟩
  exact herased.trans (keepIssues (fun _ => rfl) fun _ _ h => by cases h)

end Rewrites

/-- A statement that draws no id and links rows as `E` and `M` allow. -/
def Allowed (E M : Uuid → Uuid → Prop) (db : Backlog.Db) : Backlog.Stmt → Prop
  | .createIssue .. => False
  | .updateIssue projectId _ _ epicId _ _ => ∀ epic, epicId = some epic → E projectId epic
  | .importLinks id _ epicId => ∀ epic, epicId = some epic →
      ∀ issue, db.issue? id = some issue → E issue.projectId epic
  | .createEpic .. => False
  | .updateEpic projectId _ _ milestoneId =>
      ∀ milestone, milestoneId = some milestone → M projectId milestone
  | .attachEpics projectId milestoneId _ => M projectId milestoneId
  | .createMilestone .. => False
  | _ => True

/-- An allowed statement writes rows that were there. -/
theorem rewrites_exec {last last' : Uuid} {E M : Uuid → Uuid → Prop} {db : Backlog.Db}
    {stmt : Backlog.Stmt} (h : Allowed E M db stmt) :
    Rewrites last last' E M db (stmt.exec db) := by
  cases stmt with
  | createIssue id projectId epicId parentId milestoneId | createEpic id projectId milestoneId
  | createMilestone id projectId => exact h.elim
  | updateIssue projectId id version epicId parentId milestoneId =>
    simp only [Backlog.Stmt.exec, Backlog.updateIssue]
    split
    · apply Rewrites.updateIssues
      · exact fun _ => rfl
      · intro issue _ hcurrent epic hepic
        simp only [Issue.current, Bool.and_eq_true, beq_iff_eq] at hcurrent
        rw [hcurrent.1.1.2]
        exact .inl (h epic hepic)
    · exact .refl db
  | importLinks id parentId epicId =>
    simp only [Backlog.Stmt.exec, Backlog.importLinks]
    split
    · apply Rewrites.updateIssues
      · exact fun _ => rfl
      · intro issue hissue hid epic hepic
        rw [beq_iff_eq] at hid
        cases epicId with
        | none => exact .inr hepic
        | some given =>
          left
          apply h epic hepic issue
          rw [← hid]
          exact Table.find?_key hissue
    · exact .refl db
  | touchIssue id | softDeleteIssue projectId id => exact .keepIssues (fun _ => rfl) fun _ _ h => h
  | purgeIssues projectId => exact .purgeIssues projectId
  | updateEpic projectId id version milestoneId =>
    simp only [Backlog.Stmt.exec, Backlog.updateEpic]
    split
    · apply Rewrites.updateEpics
      · exact fun _ => rfl
      · intro epic _ hp milestone hmilestone
        simp only [Bool.and_eq_true, beq_iff_eq] at hp
        rw [hp.1.1.2]
        exact .inl (h milestone hmilestone)
    · exact .refl db
  | touchEpic id => exact .rewriteEpics (fun _ => rfl) fun _ _ _ _ h => .inr h
  | softDeleteEpic projectId id => exact .updateEpics (fun _ => rfl) fun _ _ _ _ h => .inr h
  | detachEpics projectId milestoneId =>
    exact .updateEpics (fun _ => rfl) fun _ _ _ _ h => by cases h
  | attachEpics projectId milestoneId ids =>
    simp only [Backlog.Stmt.exec, Backlog.attachEpics]
    split
    · apply Rewrites.updateEpics
      · exact fun _ => rfl
      · intro epic _ hp milestone hmilestone
        simp only [Bool.and_eq_true, beq_iff_eq] at hp
        rw [hp.1.1, ← Option.some.inj hmilestone]
        exact .inl h
    · exact .refl db
  | purgeEpics projectId => exact .purgeEpics projectId
  | setMilestoneClosed projectId id closed
  | softDeleteMilestone projectId id => exact .updateMilestones projectId id fun _ => rfl

/-! ## The policy -/

/-- An id that leads into the project if anywhere, now and later. -/
def EpicOf (projectId id : Uuid) (s : State) : Prop :=
  id ≤ s.lastId ∧ ∀ epic ∈ s.backlog.epics.rows, epic.id = id → epic.projectId = projectId

def MilestoneOf (projectId id : Uuid) (s : State) : Prop :=
  id ≤ s.lastId ∧
    ∀ milestone ∈ s.backlog.milestones.rows, milestone.id = id → milestone.projectId = projectId

def IssueOf (projectId id : Uuid) (s : State) : Prop :=
  id ≤ s.lastId ∧ ∀ issue ∈ s.backlog.issues.rows, issue.id = id → issue.projectId = projectId

/-- Every link leads into the project of its row, and milestones are derived. -/
structure Sound (s : State) : Prop where
  consistent : Backlog.Consistent s.backlog
  milestoneIds : ∀ milestone ∈ s.backlog.milestones.rows, milestone.id ≤ s.lastId
  epicIds : ∀ epic ∈ s.backlog.epics.rows, epic.id ≤ s.lastId
  issueIds : ∀ issue ∈ s.backlog.issues.rows, issue.id ≤ s.lastId
  milestones : ∀ epic ∈ s.backlog.epics.rows, ∀ id, epic.milestoneId = some id →
    MilestoneOf epic.projectId id s
  epics : ∀ issue ∈ s.backlog.issues.rows, ∀ id, issue.epicId = some id →
    EpicOf issue.projectId id s

/-- Ids are drawn in order, and a row keeps its project. -/
structure Kept (s s' : State) : Prop where
  ids : s.lastId ≤ s'.lastId
  milestones : Stems s.lastId s'.lastId Milestone.id Milestone.projectId s.backlog.milestones.rows
    s'.backlog.milestones.rows
  epics : Stems s.lastId s'.lastId Epic.id Epic.projectId s.backlog.epics.rows s'.backlog.epics.rows
  issues : Stems s.lastId s'.lastId Issue.id Issue.projectId s.backlog.issues.rows
    s'.backlog.issues.rows

section Stems

variable {α : Type} {last last' last'' : Uuid} {id project : α → Uuid} {rows rows' rows'' : List α}

/-- Rows of a later state stem from those of an earlier one. -/
theorem Stems.later (h : Stems last last' id project rows rows')
    (h' : Stems last' last'' id project rows' rows'') (hle : last ≤ last') (hle' : last' ≤ last'') :
    Stems last last'' id project rows rows'' := by
  intro row hrow
  rcases h' row hrow with hnew | ⟨middle, hmiddle, hid, hproject⟩
  · exact .inl ⟨Nat.lt_of_le_of_lt hle hnew.1, hnew.2⟩
  · rcases h middle hmiddle with hnew | ⟨old, hold, hid', hproject'⟩
    · left
      rw [← hid]
      exact ⟨hnew.1, Nat.le_trans hnew.2 hle'⟩
    · exact .inr ⟨old, hold, hid'.trans hid, hproject'.trans hproject⟩

/-- An id that has been drawn leads where it led before. -/
theorem Stems.leads (h : Stems last last' id project rows rows') {target projectId : Uuid}
    (hdrawn : target ≤ last) (hrows : ∀ row ∈ rows, id row = target → project row = projectId) :
    ∀ row ∈ rows', id row = target → project row = projectId := by
  rintro row hrow rfl
  rcases h row hrow with hnew | ⟨old, hold, hid, hproject⟩
  · exact absurd hnew.1 (Nat.not_lt.mpr hdrawn)
  · rw [← hproject]
    exact hrows old hold hid

theorem Stems.ids (h : Stems last last' id project rows rows') (hle : last ≤ last')
    (hrows : ∀ row ∈ rows, id row ≤ last) : ∀ row ∈ rows', id row ≤ last' := by
  intro row hrow
  rcases h row hrow with hnew | ⟨old, hold, hid, _⟩
  · exact hnew.2
  · rw [← hid]
    exact Nat.le_trans (hrows old hold) hle

end Stems

/-- What the handlers keep to. -/
def policy : Policy State where
  inv := Sound
  step := Kept
  refl _ := ⟨Nat.le_refl _, .refl _, .refl _, .refl _⟩
  trans _ _ _ h h' :=
    ⟨Nat.le_trans h.ids h'.ids, h.milestones.later h'.milestones h.ids h'.ids,
      h.epics.later h'.epics h.ids h'.ids, h.issues.later h'.issues h.ids h'.ids⟩

theorem lasting_epicOf (projectId id : Uuid) : policy.Lasting (EpicOf projectId id) := by
  intro s s' _ hto h
  exact ⟨Nat.le_trans h.1 hto.2.ids, hto.2.epics.leads h.1 h.2⟩

theorem lasting_milestoneOf (projectId id : Uuid) : policy.Lasting (MilestoneOf projectId id) := by
  intro s s' _ hto h
  exact ⟨Nat.le_trans h.1 hto.2.ids, hto.2.milestones.leads h.1 h.2⟩

theorem lasting_issueOf (projectId id : Uuid) : policy.Lasting (IssueOf projectId id) := by
  intro s s' _ hto h
  exact ⟨Nat.le_trans h.1 hto.2.ids, hto.2.issues.leads h.1 h.2⟩

/-- A statement that rewrites the backlog as what is known of ids allows keeps
to the policy. -/
theorem to_of_rewrites {s s' : State} (hsound : Sound s) (hids : s.lastId ≤ s'.lastId)
    (hconsistent : Backlog.Consistent s'.backlog)
    (h : Rewrites s.lastId s'.lastId (fun projectId id => EpicOf projectId id s)
      (fun projectId id => MilestoneOf projectId id s) s.backlog s'.backlog) :
    policy.To s s' := by
  have hkept : Kept s s' := ⟨hids, h.milestones, h.epics, h.issues⟩
  refine ⟨⟨hconsistent, h.milestones.ids hids hsound.milestoneIds,
    h.epics.ids hids hsound.epicIds, h.issues.ids hids hsound.issueIds, ?_, ?_⟩, hkept⟩
  · intro epic hepic id hid
    have hbefore : MilestoneOf epic.projectId id s := by
      rcases h.milestoneLinks epic hepic id hid with hallowed | ⟨old, hold, hproject, hlink⟩
      · exact hallowed
      · rw [← hproject]
        exact hsound.milestones old hold id hlink
    exact ⟨Nat.le_trans hbefore.1 hids, h.milestones.leads hbefore.1 hbefore.2⟩
  · intro issue hissue id hid
    have hbefore : EpicOf issue.projectId id s := by
      rcases h.epicLinks issue hissue id hid with hallowed | ⟨old, hold, hproject, hlink⟩
      · exact hallowed
      · rw [← hproject]
        exact hsound.epics old hold id hlink
    exact ⟨Nat.le_trans hbefore.1 hids, h.epics.leads hbefore.1 hbefore.2⟩

/-! ## Statements -/

section Statements

variable {α : Type} {K : State → Prop} {Q : α → State → Prop} {stmt : Stmt (Except DbError α)}

/-- What a statement requires and tells, among the handlers. -/
abbrev Grants (K : State → Prop) (stmt : Stmt (Except DbError α)) (Q : α → State → Prop) : Prop :=
  policy.Grants service K stmt Q

theorem to_wait {s : State} (h : Sound s) (elapse : Nat) : policy.To s (s.wait elapse) :=
  to_of_rewrites h (Nat.le_refl _) (h.consistent.congr rfl rfl)
    ⟨.refl _, .refl _, .refl _, .refl _, .refl _⟩

/-- Only the effect of a statement matters. -/
theorem grants_of_effect (hK : policy.Lasting K) (hfailure : stmt.failure = .error .failed)
    (h : ∀ s choice, Sound s → K s → policy.To s (stmt.effect choice s).2 ∧
      ∀ a, (stmt.effect choice s).1 = .ok a → Q a (stmt.effect choice s).2) :
    Grants K stmt Q := by
  intro s choice hsound hknown
  have hwait := to_wait hsound choice.elapse
  simp only [service, Stmt.exec]
  split
  · refine ⟨hwait, ?_⟩
    rw [hfailure]
    intro a heq
    cases heq
  · obtain ⟨hto, hresult⟩ := h _ choice hwait.1 (hK _ _ hsound hwait hknown)
    exact ⟨hwait.trans hto, hresult⟩

/-- A statement that only reads tells what its result tells of the state. -/
theorem grants_read (hK : policy.Lasting K) (hfailure : stmt.failure = .error .failed)
    (hread : ∀ s choice, (stmt.effect choice s).2 = s)
    (hresult : ∀ s choice a, Sound s → (stmt.effect choice s).1 = .ok a → Q a s) :
    Grants K stmt Q := by
  apply grants_of_effect hK hfailure
  intro s choice hsound _
  rw [hread]
  exact ⟨.refl hsound, fun a heq => hresult s choice a hsound heq⟩

theorem grants_nothing (hfailure : stmt.failure = .error .failed)
    (hread : ∀ s choice, (stmt.effect choice s).2 = s) :
    Grants (fun _ => True) stmt fun _ _ => True :=
  grants_read Policy.lasting_true hfailure hread fun _ _ _ _ _ => trivial

/-- A statement that changes the backlog alone. -/
theorem to_write {s : State} (result : α) (written : Backlog.Stmt) (hsound : Sound s)
    (h : Allowed (fun projectId id => EpicOf projectId id s)
      (fun projectId id => MilestoneOf projectId id s) s.backlog written) :
    policy.To s (s.write result written).2 :=
  to_of_rewrites hsound (Nat.le_refl _) (hsound.consistent.exec written) (rewrites_exec h)

theorem grants_write (hK : policy.Lasting K) (hfailure : stmt.failure = .error .failed)
    (h : ∀ s choice, Sound s → K s → ∃ result written,
      stmt.effect choice s = s.write result written ∧
        Allowed (fun projectId id => EpicOf projectId id s)
          (fun projectId id => MilestoneOf projectId id s) s.backlog written) :
    Grants K stmt fun _ _ => True := by
  apply grants_of_effect hK hfailure
  intro s choice hsound hknown
  obtain ⟨result, written, heffect, hallowed⟩ := h s choice hsound hknown
  rw [heffect]
  exact ⟨to_write result written hsound hallowed, fun _ _ => trivial⟩

end Statements

/-- A row that is there shows where its id leads. -/
theorem Sound.epicOf {s : State} (h : Sound s) {epic : Epic} (hepic : epic ∈ s.backlog.epics.rows) :
    EpicOf epic.projectId epic.id s := by
  refine ⟨h.epicIds epic hepic, ?_⟩
  intro other hother hid
  rw [eq_of_nodup_map s.backlog.epics.nodup hother hepic hid]

theorem Sound.milestoneOf {s : State} (h : Sound s) {milestone : Milestone}
    (hmilestone : milestone ∈ s.backlog.milestones.rows) :
    MilestoneOf milestone.projectId milestone.id s := by
  refine ⟨h.milestoneIds milestone hmilestone, ?_⟩
  intro other hother hid
  rw [eq_of_nodup_map s.backlog.milestones.nodup hother hmilestone hid]

theorem grants_epicInProject (projectId id : Uuid) :
    Grants (fun _ => True) (.epicInProject projectId id) fun found s =>
      found = true → EpicOf projectId id s := by
  apply grants_read Policy.lasting_true rfl fun _ _ => rfl
  intro s choice found hsound hresult hfound
  obtain rfl := Except.ok.inj hresult
  obtain ⟨epic, hepic⟩ := Option.isSome_iff_exists.mp hfound
  obtain ⟨hfind, htest⟩ := Option.filter_eq_some_iff.mp hepic
  rw [Bool.and_eq_true, beq_iff_eq] at htest
  rw [← htest.1, ← Table.key_of_find? hfind]
  exact hsound.epicOf (Table.mem_of_find? hfind)

theorem grants_milestoneInProject (projectId id : Uuid) :
    Grants (fun _ => True) (.milestoneInProject projectId id) fun found s =>
      found = true → MilestoneOf projectId id s := by
  apply grants_read Policy.lasting_true rfl fun _ _ => rfl
  intro s choice found hsound hresult hfound
  obtain rfl := Except.ok.inj hresult
  obtain ⟨milestone, hmilestone⟩ := Option.isSome_iff_exists.mp hfound
  obtain ⟨hfind, htest⟩ := Option.filter_eq_some_iff.mp hmilestone
  rw [Bool.and_eq_true, beq_iff_eq] at htest
  rw [← htest.1, ← Table.key_of_find? hfind]
  exact hsound.milestoneOf (Table.mem_of_find? hfind)

/-- The epic of an issue that has been read. -/
theorem grants_getIssue (projectId id : Uuid) :
    Grants (fun _ => True) (.getIssue projectId id) fun found s =>
      ∀ row, found = some row → ∀ epic, row.1.epicId = some epic → EpicOf projectId epic s := by
  apply grants_read Policy.lasting_true rfl fun _ _ => rfl
  rintro s choice found hsound hresult ⟨issue, statusId⟩ rfl epic hepic
  obtain ⟨found, hfound, heq⟩ := Option.map_eq_some_iff.mp (Except.ok.inj hresult)
  obtain ⟨rfl, -⟩ := Prod.mk.inj heq
  obtain ⟨hfind, hin⟩ := Option.filter_eq_some_iff.mp hfound
  rw [Backlog.inProject, Bool.and_eq_true, beq_iff_eq] at hin
  rw [← hin.1]
  exact hsound.epics _ (Table.mem_of_find? hfind) epic hepic

/-- The milestone of an epic that has been read. -/
theorem grants_selectEpic (projectId id : Uuid) :
    Grants (fun _ => True) (.selectEpic projectId id) fun found s =>
      ∀ epic, found = some epic → ∀ milestone, epic.milestoneId = some milestone →
        MilestoneOf projectId milestone s := by
  apply grants_read Policy.lasting_true rfl fun _ _ => rfl
  rintro s choice found hsound hresult epic rfl milestone hmilestone
  obtain ⟨hfind, hin⟩ := Option.filter_eq_some_iff.mp (Except.ok.inj hresult)
  rw [Bool.and_eq_true, beq_iff_eq] at hin
  rw [← hin.1]
  exact hsound.milestones _ (Table.mem_of_find? hfind) milestone hmilestone

/-- What must be known of an issue's epic before it is written. -/
def EpicKnown (projectId : Uuid) (epicId : Option Uuid) (s : State) : Prop :=
  ∀ id, epicId = some id → EpicOf projectId id s

def MilestoneKnown (projectId : Uuid) (milestoneId : Option Uuid) (s : State) : Prop :=
  ∀ id, milestoneId = some id → MilestoneOf projectId id s

theorem lasting_epicKnown (projectId : Uuid) (epicId : Option Uuid) :
    policy.Lasting (EpicKnown projectId epicId) :=
  fun s s' hinv hto h id hid => lasting_epicOf projectId id s s' hinv hto (h id hid)

theorem lasting_milestoneKnown (projectId : Uuid) (milestoneId : Option Uuid) :
    policy.Lasting (MilestoneKnown projectId milestoneId) :=
  fun s s' hinv hto h id hid => lasting_milestoneOf projectId id s s' hinv hto (h id hid)

theorem grants_insertIssue (projectId : Uuid) (w : IssueWrite) :
    Grants (EpicKnown projectId w.epicId) (.insertIssue projectId w) (IssueOf projectId) := by
  apply grants_of_effect (lasting_epicKnown projectId w.epicId) rfl
  intro s choice hsound hknown
  delta Stmt.effect
  simp only [State.insertIssue]
  split
  · rename_i haccepts
    obtain ⟨hrefs, hfree⟩ := Bool.and_eq_true_iff.mp haccepts
    simp only [State.accepts, Bool.and_eq_true] at hrefs
    obtain ⟨issues, hinsert⟩ : ∃ issues, s.backlog.issues.insert? (Backlog.milestoneFromEpic
        s.backlog ⟨s.lastId + 1, projectId, w.epicId, w.parentId, w.milestoneId, 1, s.backlog.now,
          none⟩) = some issues :=
      Table.exists_insert? (Option.isNone_iff_eq_none.mp hfree)
    have hcreated : Backlog.createIssue (s.lastId + 1) projectId w.epicId w.parentId w.milestoneId
        s.backlog = { s.backlog with issues := issues } := by
      simp only [Backlog.createIssue, hrefs.1, Bool.and_self, if_true, hinsert]
      rfl
    have hconsistent := hsound.consistent.createIssue (s.lastId + 1) projectId w.epicId w.parentId
      w.milestoneId
    rw [hcreated] at hconsistent ⊢
    have hrows := Table.insert?_rows hinsert
    have hto : policy.To s { s with
        backlog := { s.backlog with issues := issues }
        statusOf := Function.update s.statusOf (s.lastId + 1) w.statusId
        lastId := s.lastId + 1 } := by
      apply to_of_rewrites hsound (Nat.le_succ _) hconsistent
      refine ⟨.refl _, .refl _, ?_, .refl _, ?_⟩
      · rw [hrows]
        apply Stems.append
        exact ⟨Nat.lt_succ_self _, Nat.le_refl _⟩
      · rw [hrows]
        apply LinksFrom.append
        exact hknown
    refine ⟨hto, ?_⟩
    intro id heq
    obtain rfl := Except.ok.inj heq
    refine ⟨Nat.le_refl _, ?_⟩
    intro issue hissue hid
    rw [hrows] at hissue
    rcases List.mem_append.mp hissue with hold | hnew
    · exact absurd hid (Nat.ne_of_lt (Nat.lt_succ_of_le (hsound.issueIds issue hold)))
    · rw [List.mem_singleton.mp hnew]
      rfl
  · exact ⟨.refl hsound, fun _ heq => by cases heq⟩

theorem grants_insertEpic (projectId : Uuid) (milestoneId : Option Uuid) :
    Grants (MilestoneKnown projectId milestoneId) (.insertEpic projectId milestoneId)
      (EpicOf projectId) := by
  apply grants_of_effect (lasting_milestoneKnown projectId milestoneId) rfl
  intro s choice hsound hknown
  delta Stmt.effect
  simp only [State.insertEpic]
  split
  · rename_i haccepts
    obtain ⟨href, hfree⟩ := Bool.and_eq_true_iff.mp haccepts
    obtain ⟨epics, hinsert⟩ : ∃ epics,
        s.backlog.epics.insert? ⟨s.lastId + 1, projectId, milestoneId, 1, none⟩ = some epics :=
      Table.exists_insert? (Option.isNone_iff_eq_none.mp hfree)
    have hcreated : Backlog.createEpic (s.lastId + 1) projectId milestoneId s.backlog =
        { s.backlog with epics := epics } := by
      simp only [Backlog.createEpic, href, if_true, hinsert]
      rfl
    have hconsistent := hsound.consistent.createEpic (s.lastId + 1) projectId milestoneId
    rw [hcreated] at hconsistent ⊢
    have hrows := Table.insert?_rows hinsert
    have hto : policy.To s { s with
        backlog := { s.backlog with epics := epics }
        lastId := s.lastId + 1 } := by
      apply to_of_rewrites hsound (Nat.le_succ _) hconsistent
      refine ⟨.refl _, ?_, .refl _, ?_, .refl _⟩
      · rw [hrows]
        apply Stems.append
        exact ⟨Nat.lt_succ_self _, Nat.le_refl _⟩
      · rw [hrows]
        apply LinksFrom.append
        exact hknown
    refine ⟨hto, ?_⟩
    intro id heq
    obtain rfl := Except.ok.inj heq
    refine ⟨Nat.le_refl _, ?_⟩
    intro epic hepic hid
    rw [hrows] at hepic
    rcases List.mem_append.mp hepic with hold | hnew
    · exact absurd hid (Nat.ne_of_lt (Nat.lt_succ_of_le (hsound.epicIds epic hold)))
    · rw [List.mem_singleton.mp hnew]
  · exact ⟨.refl hsound, fun _ heq => by cases heq⟩

theorem grants_insertMilestone (projectId : Uuid) :
    Grants (fun _ => True) (.insertMilestone projectId) fun _ _ => True := by
  apply grants_of_effect Policy.lasting_true rfl
  intro s choice hsound _
  delta Stmt.effect
  simp only [State.insertMilestone]
  split
  · rename_i hfree
    obtain ⟨milestones, hinsert⟩ : ∃ milestones,
        s.backlog.milestones.insert? ⟨s.lastId + 1, projectId, false, none⟩ = some milestones :=
      Table.exists_insert? (Option.isNone_iff_eq_none.mp hfree)
    have hcreated : Backlog.createMilestone (s.lastId + 1) projectId s.backlog =
        { s.backlog with milestones := milestones } := by
      simp only [Backlog.createMilestone, hinsert]
      rfl
    rw [hcreated]
    refine ⟨to_of_rewrites hsound (Nat.le_succ _) (hsound.consistent.congr rfl rfl) ?_,
      fun _ _ => trivial⟩
    refine ⟨?_, .refl _, .refl _, .refl _, .refl _⟩
    rw [Table.insert?_rows hinsert]
    apply Stems.append
    exact ⟨Nat.lt_succ_self _, Nat.le_refl _⟩
  · exact ⟨.refl hsound, fun _ heq => by cases heq⟩

/-- Items are of no account to links. -/
theorem to_items {s s' : State} (hsound : Sound s) (hids : s.lastId ≤ s'.lastId)
    (hbacklog : s'.backlog = s.backlog) : policy.To s s' := by
  apply to_of_rewrites hsound hids
  · rw [hbacklog]
    exact hsound.consistent
  · rw [hbacklog]
    exact .refl _

theorem grants_insertItem (projectId : Uuid) (kind : Imports.TaxonomyKind)
    (countsAsDone : Option Bool) :
    Grants (fun _ => True) (.insertItem projectId kind countsAsDone) fun _ _ => True := by
  apply grants_of_effect Policy.lasting_true rfl
  intro s choice hsound _
  refine ⟨?_, fun _ _ => trivial⟩
  delta Stmt.effect
  simp only [State.insertItem]
  split
  · exact to_items hsound (Nat.le_succ _) rfl
  · exact .refl hsound

theorem grants_updateItem (projectId : Uuid) (kind : Imports.TaxonomyKind) (id : Uuid)
    (countsAsDone : Option Bool) :
    Grants (fun _ => True) (.updateItem projectId kind id countsAsDone) fun _ _ => True := by
  apply grants_of_effect Policy.lasting_true rfl
  intro s choice hsound _
  exact ⟨to_items hsound (Nat.le_refl _) rfl, fun _ _ => trivial⟩

theorem grants_deleteItem (projectId : Uuid) (kind : Imports.TaxonomyKind) (id : Uuid) :
    Grants (fun _ => True) (.deleteItem projectId kind id) fun _ _ => True := by
  apply grants_of_effect Policy.lasting_true rfl
  intro s choice hsound _
  refine ⟨?_, fun _ _ => trivial⟩
  delta Stmt.effect
  simp only [State.deleteItem]
  split
  · refine to_of_rewrites hsound (Nat.le_refl s.lastId) ?_ ?_
    · exact hsound.consistent.updateIssues fun _ => rfl
    · exact .keepIssues (fun _ => rfl) fun _ _ h => h
  · exact .refl hsound

theorem grants_updateIssue (projectId id : Uuid) (version : Nat) (w : IssueWrite) :
    Grants (EpicKnown projectId w.epicId) (.updateIssue projectId id version w)
      fun _ _ => True := by
  apply grants_of_effect (lasting_epicKnown projectId w.epicId) rfl
  intro s choice hsound hknown
  refine ⟨?_, fun _ _ => trivial⟩
  delta Stmt.effect
  simp only [State.updateIssue]
  split
  · split
    · -- the statuses are of no account to links
      have hto := to_write () (.updateIssue projectId id version w.epicId w.parentId w.milestoneId)
        hsound hknown
      exact hto.trans (to_items hto.1 (Nat.le_refl _) rfl)
    · exact .refl hsound
  · exact .refl hsound

theorem grants_updateEpic (projectId id : Uuid) (version : Nat) (milestoneId : Option Uuid) :
    Grants (MilestoneKnown projectId milestoneId) (.updateEpic projectId id version milestoneId)
      fun _ _ => True := by
  apply grants_of_effect (lasting_milestoneKnown projectId milestoneId) rfl
  intro s choice hsound hknown
  refine ⟨?_, fun _ _ => trivial⟩
  delta Stmt.effect
  simp only [State.updateEpic]
  split
  · split
    · exact to_write () (.updateEpic projectId id version milestoneId) hsound hknown
    · exact .refl hsound
  · exact .refl hsound

/-- A statement on the backlog that links nothing. -/
theorem grants_plain {α : Type} {stmt : Stmt (Except DbError α)}
    (hfailure : stmt.failure = .error .failed)
    (h : ∀ s choice, ∃ result written, stmt.effect choice s = s.write result written ∧
      ∀ E M db, Allowed E M db written) : Grants (fun _ => True) stmt fun _ _ => True := by
  apply grants_write Policy.lasting_true hfailure
  intro s choice _ _
  obtain ⟨result, written, heffect, hallowed⟩ := h s choice
  exact ⟨result, written, heffect, hallowed _ _ _⟩

theorem grants_linkIssue {projectId id : Uuid} {parentId epicId : Option Uuid} :
    Grants (fun s => IssueOf projectId id s ∧ EpicKnown projectId epicId s)
      (.linkIssue id parentId epicId) fun _ _ => True := by
  apply grants_write ((lasting_issueOf projectId id).and (lasting_epicKnown projectId epicId)) rfl
  intro s choice _ hknown
  refine ⟨(), .importLinks id parentId epicId, rfl, ?_⟩
  intro epic hepic issue hissue
  rw [hknown.1.2 issue (Table.mem_of_find? hissue) (Table.key_of_find? hissue)]
  exact hknown.2 epic hepic

theorem grants_attachEpics (projectId milestoneId : Uuid) (ids : List Uuid) :
    Grants (MilestoneOf projectId milestoneId) (.attachEpics projectId milestoneId ids)
      fun _ _ => True := by
  apply grants_write (lasting_milestoneOf projectId milestoneId) rfl
  intro s choice _ hknown
  exact ⟨(), .attachEpics projectId milestoneId ids, rfl, hknown⟩

end IntelliPilot.Progress
