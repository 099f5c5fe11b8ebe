import IntelliPilot.Backlog.Statements

/-! # Issue milestones are derived from epics

After every statement each issue has the milestone of its live epic, and none
without one. The two triggers share the work: the one on `issues` derives every
row a statement writes, the one on `epics` rewrites the rows of each epic whose
contribution changed.
-/

namespace IntelliPilot.Backlog

open Rows

/-- The epic of an identifier, unless it is soft-deleted. -/
def Db.liveEpic? (db : Db) (id : Uuid) : Option Epic := (db.epic? id).filter (·.live)

/-- What an issue in an epic derives its milestone to be. -/
def Db.derivedMilestone (db : Db) (epicId : Option Uuid) : Option Uuid :=
  match epicId.bind db.liveEpic? with
  | some epic => epic.milestoneId
  | none => none

def Issue.Derived (db : Db) (issue : Issue) : Prop :=
  issue.milestoneId = db.derivedMilestone issue.epicId

/-- Every issue's milestone is its live epic's. -/
def Derived (db : Db) : Prop := ∀ issue ∈ db.issues.rows, issue.Derived db

/-- The issue trigger computes the derived milestone. -/
theorem milestoneFromEpic_eq (db : Db) (issue : Issue) :
    milestoneFromEpic db issue = { issue with milestoneId := db.derivedMilestone issue.epicId } := by
  unfold milestoneFromEpic Db.derivedMilestone Db.liveEpic?
  cases issue.epicId with
  | none => rfl
  | some id =>
    simp only [Option.bind_some]
    cases db.epic? id with
    | none => rfl
    | some epic => cases hlive : epic.live <;> simp [Option.filter, hlive]

/-- A row that has passed the issue triggers. -/
theorem derived_written (db : Db) (issue : Issue) :
    (setModifiedAt db (milestoneFromEpic db issue)).Derived db := by
  rw [milestoneFromEpic_eq]
  rfl

variable {db : Db}

/-- Issues derive from the epics alone. -/
theorem Issue.Derived.congr {db' : Db} {issue : Issue} (h : issue.Derived db)
    (hepics : ∀ id, issue.epicId = some id → db'.liveEpic? id = db.liveEpic? id) :
    issue.Derived db' := by
  unfold Issue.Derived Db.derivedMilestone at h ⊢
  cases hepic : issue.epicId with
  | none => simpa [hepic] using h
  | some id => simpa [hepic, hepics id hepic] using h

theorem liveEpic?_congr {db' : Db} (h : db'.epics = db.epics) : db'.liveEpic? = db.liveEpic? := by
  funext id
  rw [Db.liveEpic?, Db.liveEpic?, Db.epic?, Db.epic?, h]

theorem Derived.congr {db' : Db} (h : Derived db) (hepics : db'.epics = db.epics)
    (hissues : db'.issues = db.issues) : Derived db' := by
  intro issue hissue
  rw [hissues] at hissue
  apply (h issue hissue).congr
  intro id _
  rw [liveEpic?_congr hepics]

variable {p : Issue → Bool} {f : Issue → Issue} {hf : ∀ issue, (f issue).id = issue.id}

/-- An update derives what it writes, so only the other rows matter. -/
theorem derived_updateIssues
    (hothers : ∀ issue ∈ db.issues.rows, p issue = false → issue.Derived db) :
    Derived (updateIssues p f hf db) := by
  intro issue hissue
  obtain ⟨old, hold, rfl⟩ := mem_updateIssues.mp hissue
  have hepics : ∀ id, (updateIssues p f hf db).liveEpic? id = db.liveEpic? id :=
    fun id => congrFun (liveEpic?_congr rfl) id
  split
  · exact (derived_written db (f old)).congr fun id _ => hepics id
  · rename_i hp
    exact (hothers old hold (Bool.eq_false_iff.mpr hp)).congr fun id _ => hepics id

theorem Derived.updateIssues (h : Derived db) :
    Derived (updateIssues p f hf db) :=
  derived_updateIssues fun issue hissue _ => h issue hissue

/-! ## The cascade -/

/-- Every issue is derived but for those of the given epics. -/
def Pending (ids : List Uuid) (db : Db) : Prop :=
  ∀ issue ∈ db.issues.rows, issue.Derived db ∨ ∃ id ∈ ids, issue.epicId = some id

/-- The cascade of an epic settles its issues. -/
theorem pending_cascade {new : Epic} {ids : List Uuid} (hnew : db.epic? new.id = some new)
    (h : Pending (new.id :: ids) db) :
    Pending ids (epicMilestoneCascade new db) := by
  have heffective : db.derivedMilestone (some new.id) =
      if new.live then new.milestoneId else none := by
    rw [Db.derivedMilestone, Option.bind_some, Db.liveEpic?, hnew, Option.filter_some]
    cases new.live <;> rfl
  intro issue hissue
  obtain ⟨old, hold, hwritten⟩ := mem_updateIssues.mp hissue
  have hepics : ∀ id, (epicMilestoneCascade new db).liveEpic? id = db.liveEpic? id :=
    fun id => congrFun (liveEpic?_congr rfl) id
  by_cases hp : (old.epicId == some new.id &&
      old.milestoneId != if new.live then new.milestoneId else none) = true
  · rw [if_pos hp] at hwritten
    rw [← hwritten]
    exact Or.inl ((derived_written db _).congr fun id _ => hepics id)
  · rw [if_neg hp] at hwritten
    rw [← hwritten]
    rcases h old hold with hderived | ⟨id, hid, hepic⟩
    · exact Or.inl (hderived.congr fun id _ => hepics id)
    · rcases List.mem_cons.mp hid with rfl | hrest
      · -- not written although of this epic: it has the effective milestone already
        left
        have hsame : old.milestoneId = if new.live then new.milestoneId else none := by
          rw [hepic, beq_self_eq_true, Bool.true_and] at hp
          simpa only [bne_iff_ne, ne_eq, Decidable.not_not] using hp
        apply Issue.Derived.congr _ fun id _ => hepics id
        rw [Issue.Derived, hepic, heffective, hsame]
      · exact Or.inr ⟨id, hrest, hepic⟩

/-- The cascades of all changed epics settle all issues. -/
theorem derived_cascades (f : Epic → Epic) (hf : ∀ epic, (f epic).id = epic.id) (olds : List Epic)
    (hnew : ∀ old ∈ olds, db.epic? old.id = some (f old)) (h : Pending (olds.map (·.id)) db) :
    Derived (olds.foldl (fun db old => epicMilestoneCascade (f old) db) db) := by
  induction olds generalizing db with
  | nil =>
    intro issue hissue
    rcases h issue hissue with hderived | ⟨id, hid, _⟩
    · exact hderived
    · contradiction
  | cons old olds ih =>
    have hold := hnew old List.mem_cons_self
    rw [← hf old] at hold
    apply ih
    · intro other hother
      exact hnew other (List.mem_cons_of_mem _ hother)
    · apply pending_cascade hold
      rw [hf]
      exact h

/-- An epic that does not fire the cascade contributes the same milestone. -/
theorem liveEpic?_uncascaded {p : Epic → Bool} {f : Epic → Epic}
    {hf : ∀ epic, (f epic).id = epic.id} {id : Uuid}
    (huncascaded : ∀ old ∈ db.epics.rows, p old = true → old.id = id → cascades old (f old) = false) :
    (({ db with epics := db.epics.modify p f hf } : Db).liveEpic? id).bind (·.milestoneId) =
      (db.liveEpic? id).bind (·.milestoneId) := by
  simp only [Db.liveEpic?, Db.epic?, Table.find?_modify]
  cases hfind : db.epics.find? id with
  | none => rfl
  | some old =>
    simp only [Option.map_some]
    split
    · rename_i hp
      have hsame := huncascaded old (Table.mem_of_find? hfind) hp (Table.key_of_find? hfind)
      simp only [cascades, Bool.or_eq_false_iff, bne_eq_false_iff_eq] at hsame
      rw [Option.filter_some, Option.filter_some, hsame.2]
      cases old.live with
      | true => exact hsame.1
      | false => rfl
    · rfl

theorem derivedMilestone_eq (db : Db) (epicId : Option Uuid) :
    db.derivedMilestone epicId = (epicId.bind db.liveEpic?).bind (·.milestoneId) := by
  unfold Db.derivedMilestone
  cases epicId.bind db.liveEpic? <;> rfl

/-- An update of epics leaves only the issues of cascading epics pending. -/
theorem pending_modify (h : Derived db) (p : Epic → Bool) (f : Epic → Epic)
    (hf : ∀ epic, (f epic).id = epic.id) :
    Pending ((db.epics.rows.filter fun old => p old && cascades old (f old)).map (·.id))
      { db with epics := db.epics.modify p f hf } := by
  intro issue hissue
  by_cases hpending : ∃ id ∈ (db.epics.rows.filter fun old => p old && cascades old (f old)).map
      (·.id), issue.epicId = some id
  · exact Or.inr hpending
  · left
    have hderived := h issue hissue
    rw [Issue.Derived, derivedMilestone_eq] at hderived ⊢
    rw [hderived]
    cases hepic : issue.epicId with
    | none => rfl
    | some id =>
      simp only [Option.bind_some]
      rw [liveEpic?_uncascaded]
      intro old hold hp hid
      by_contra hcascades
      apply hpending
      refine ⟨id, ?_, hepic⟩
      rw [List.mem_map]
      refine ⟨old, ?_, hid⟩
      rw [List.mem_filter, hp, eq_true_of_ne_false hcascades]
      exact ⟨hold, rfl⟩

theorem Derived.updateEpics {p : Epic → Bool} {f : Epic → Epic}
    {hf : ∀ epic, (f epic).id = epic.id} (h : Derived db) :
    Derived (updateEpics p f hf db) := by
  apply derived_cascades f hf
  · intro old hold
    obtain ⟨hmem, htest⟩ := List.mem_filter.mp hold
    have hp : p old = true := (Bool.and_eq_true_iff.mp htest).1
    have hfind : db.epics.find? old.id = some old := Table.find?_key hmem
    rw [Db.epic?, Table.find?_modify, hfind, Option.map_some, if_pos hp]
  · exact pending_modify h p f hf

/-! ## Foreign keys -/

/-- The foreign key of `issues.epic_id`. -/
def EpicKeys (db : Db) : Prop :=
  ∀ issue ∈ db.issues.rows, references issue.epicId db.epic? = true

/-- An update keeps the key if what it writes has one and the other rows do. -/
theorem epicKeys_updateIssues
    (hrows : ∀ issue ∈ db.issues.rows,
      references (if p issue then f issue else issue).epicId db.epic? = true) :
    EpicKeys (updateIssues p f hf db) := by
  intro issue hissue
  obtain ⟨old, hold, rfl⟩ := mem_updateIssues.mp hissue
  have hrow := hrows old hold
  split at hrow
  · rename_i hp
    rw [if_pos hp]
    exact hrow
  · rename_i hp
    rw [if_neg hp]
    exact hrow

theorem EpicKeys.updateIssues (h : EpicKeys db) (hepic : ∀ issue, (f issue).epicId = issue.epicId) :
    EpicKeys (updateIssues p f hf db) := by
  apply epicKeys_updateIssues
  intro issue hissue
  split
  · rw [hepic]
    exact h issue hissue
  · exact h issue hissue

/-- A table with the keys of another satisfies the same references. -/
theorem references_congr {key : Option Uuid} (db : Db) {db' : Db}
    (hepics : ∀ id, (db'.epic? id).isSome = (db.epic? id).isSome) :
    references key db'.epic? = references key db.epic? := by
  cases key with
  | none => rfl
  | some id => exact hepics id

theorem EpicKeys.cascades (f : Epic → Epic) (olds : List Epic) (h : EpicKeys db) :
    EpicKeys (olds.foldl (fun db old => epicMilestoneCascade (f old) db) db) := by
  induction olds generalizing db with
  | nil => exact h
  | cons old olds ih =>
    apply ih
    exact h.updateIssues fun _ => rfl

theorem EpicKeys.rewriteEpics {p : Epic → Bool} {f : Epic → Epic}
    {hf : ∀ epic, (f epic).id = epic.id} (h : EpicKeys db) :
    EpicKeys (rewriteEpics p f hf db) := by
  intro issue hissue
  rw [references_congr db]
  · exact h issue hissue
  · intro id
    simp [Backlog.rewriteEpics, Db.epic?]

theorem EpicKeys.updateEpics {p : Epic → Bool} {f : Epic → Epic}
    {hf : ∀ epic, (f epic).id = epic.id} (h : EpicKeys db) :
    EpicKeys (updateEpics p f hf db) :=
  EpicKeys.cascades f _ (show EpicKeys (Backlog.rewriteEpics p f hf db) from h.rewriteEpics)

/-! ## Every statement -/

/-- What holds between any two statements. -/
structure Consistent (db : Db) : Prop where
  keys : EpicKeys db
  derived : Derived db

theorem Consistent.updateEpics {p : Epic → Bool} {f : Epic → Epic}
    {hf : ∀ epic, (f epic).id = epic.id} (h : Consistent db) :
    Consistent (updateEpics p f hf db) := ⟨h.keys.updateEpics, h.derived.updateEpics⟩

/-- An update that leaves the epics of the issues alone. -/
theorem Consistent.updateIssues (h : Consistent db)
    (hepic : ∀ issue, (f issue).epicId = issue.epicId) : Consistent (updateIssues p f hf db) :=
  ⟨h.keys.updateIssues hepic, h.derived.updateIssues⟩

/-- Issues and epics as they were. -/
theorem Consistent.congr {db' : Db} (h : Consistent db) (hepics : db'.epics = db.epics)
    (hissues : db'.issues = db.issues) : Consistent db' := by
  refine ⟨?_, h.derived.congr hepics hissues⟩
  intro issue hissue
  rw [hissues] at hissue
  rw [references_congr db fun id => by rw [Db.epic?, Db.epic?, hepics]]
  exact h.keys issue hissue

/-- An inserted issue has passed the trigger. -/
theorem Consistent.createIssue (h : Consistent db) (id projectId : Uuid)
    (epicId parentId milestoneId : Option Uuid) :
    Consistent (createIssue id projectId epicId parentId milestoneId db) := by
  unfold Backlog.createIssue
  split
  · rename_i hreferences
    dsimp only
    cases hinsert : db.issues.insert? (milestoneFromEpic db
        ⟨id, projectId, epicId, parentId, milestoneId, 1, db.now, none⟩) with
    | none => exact h
    | some issues =>
      have hrows := Table.insert?_rows hinsert
      refine ⟨?_, ?_⟩
      · intro issue hissue
        rw [Option.map_some, Option.getD_some, hrows] at hissue
        rcases List.mem_append.mp hissue with hold | hnew
        · exact h.keys issue hold
        · rw [List.mem_singleton.mp hnew]
          exact (Bool.and_eq_true_iff.mp hreferences).1
      · intro issue hissue
        have hepics : ∀ id, ({ db with issues := issues } : Db).liveEpic? id = db.liveEpic? id :=
          fun id => congrFun (liveEpic?_congr rfl) id
        rw [Option.map_some, Option.getD_some, hrows] at hissue
        rcases List.mem_append.mp hissue with hold | hnew
        · exact (h.derived issue hold).congr fun id _ => hepics id
        · rw [List.mem_singleton.mp hnew, milestoneFromEpic_eq]
          exact Issue.Derived.congr rfl fun id _ => hepics id
  · exact h

/-- A new epic has no issues yet. -/
theorem Consistent.createEpic (h : Consistent db) (id projectId : Uuid)
    (milestoneId : Option Uuid) : Consistent (createEpic id projectId milestoneId db) := by
  unfold Backlog.createEpic
  split
  · cases hinsert : db.epics.insert? ⟨id, projectId, milestoneId, 1, none⟩ with
    | none => exact h
    | some epics =>
      have hfind := Table.find?_insert? hinsert
      refine ⟨?_, ?_⟩
      · intro issue hissue
        have hkey := h.keys issue hissue
        cases hepic : issue.epicId with
        | none => rfl
        | some old =>
          rw [hepic] at hkey
          simp only [references, Option.all_some, Option.map_some, Option.getD_some, Db.epic?,
            hfind] at hkey ⊢
          split
          · rfl
          · exact hkey
      · intro issue hissue
        apply (h.derived issue hissue).congr
        intro old hepic
        have hkey := h.keys issue hissue
        rw [hepic] at hkey
        simp only [Option.map_some, Option.getD_some, Db.liveEpic?, Db.epic?, hfind]
        rw [if_neg]
        rintro rfl
        have hfresh := Table.insert?_fresh hinsert
        simp only [references, Option.all_some, Db.epic?] at hkey
        rw [hfresh] at hkey
        contradiction
  · exact h

/-- Purged epics let go of their issues. -/
theorem Consistent.purgeEpics (h : Consistent db) (projectId : Uuid) :
    Consistent (purgeEpics projectId db) := by
  -- an issue whose epic stays
  have hkept : ∀ id, (db.epic? id).any (·.projectId == projectId) = false →
      (db.epics.erase (·.projectId == projectId)).find? id = db.epics.find? id := by
    intro id hid
    rw [Table.find?_erase]
    cases hfind : db.epics.find? id with
    | none => rfl
    | some epic =>
      rw [Db.epic?, hfind, Option.any_some] at hid
      rw [Option.filter_some, hid]
      rfl
  refine ⟨?_, ?_⟩
  · apply epicKeys_updateIssues
    intro issue hissue
    split
    · rfl
    · rename_i hp
      have hkey := h.keys issue hissue
      cases hepic : issue.epicId with
      | none => rfl
      | some id =>
        rw [hepic] at hkey
        rw [hepic, Option.any_some] at hp
        simp only [references, Option.all_some, Db.epic?] at hkey ⊢
        rw [hkept id (Bool.eq_false_iff.mpr hp)]
        exact hkey
  · apply derived_updateIssues
    intro issue hissue hp
    apply (h.derived issue hissue).congr
    intro id hepic
    rw [hepic, Option.any_some] at hp
    rw [Db.liveEpic?, Db.liveEpic?, Db.epic?, Db.epic?, hkept id hp]

/-- What an issue update writes is derived; its epic exists if the old or the
given one does. -/
theorem Consistent.writeIssues (h : Consistent db) {epicId : Option Uuid}
    (hgiven : references epicId db.epic? = true)
    (hepic : ∀ issue, (f issue).epicId = epicId ∨ (f issue).epicId = issue.epicId) :
    Consistent (Backlog.updateIssues p f hf db) := by
  refine ⟨?_, h.derived.updateIssues⟩
  apply epicKeys_updateIssues
  intro issue hissue
  split
  · rcases hepic issue with heq | heq
    · rw [heq]
      exact hgiven
    · rw [heq]
      exact h.keys issue hissue
  · exact h.keys issue hissue

/-- An update of epics that fires no cascade has no need of one. -/
theorem Consistent.rewriteEpics {p : Epic → Bool} {f : Epic → Epic}
    {hf : ∀ epic, (f epic).id = epic.id} (h : Consistent db)
    (hsame : ∀ epic, cascades epic (f epic) = false) : Consistent (rewriteEpics p f hf db) := by
  refine ⟨h.keys.rewriteEpics, ?_⟩
  intro issue hissue
  have hderived := h.derived issue hissue
  rw [Issue.Derived, derivedMilestone_eq] at hderived ⊢
  rw [hderived]
  cases issue.epicId with
  | none => rfl
  | some id => exact (liveEpic?_uncascaded fun old _ _ _ => hsame old).symm

theorem Consistent.purgeIssues (h : Consistent db) (projectId : Uuid) :
    Consistent (purgeIssues projectId db) := by
  have hkept : Consistent { db with issues := db.issues.erase (·.projectId == projectId) } := by
    refine ⟨?_, ?_⟩
    · intro issue hissue
      exact h.keys issue (mem_deleteWhere.mp hissue).1
    · intro issue hissue
      exact (h.derived issue (mem_deleteWhere.mp hissue).1).congr fun id _ => rfl
  exact hkept.updateIssues fun _ => rfl

theorem Consistent.exec (h : Consistent db) (stmt : Stmt) : Consistent (stmt.exec db) := by
  cases stmt with
  | createIssue id projectId epicId parentId milestoneId =>
    exact h.createIssue id projectId epicId parentId milestoneId
  | updateIssue projectId id version epicId parentId milestoneId =>
    simp only [Stmt.exec, Backlog.updateIssue]
    split
    · rename_i hreferences
      exact h.writeIssues (Bool.and_eq_true_iff.mp hreferences).1 fun _ => Or.inl rfl
    · exact h
  | importLinks id parentId epicId =>
    simp only [Stmt.exec, Backlog.importLinks]
    split
    · rename_i hreferences
      apply h.writeIssues (Bool.and_eq_true_iff.mp hreferences).1
      intro issue
      cases epicId with
      | none => exact Or.inr rfl
      | some epicId => exact Or.inl rfl
    · exact h
  | touchIssue id | softDeleteIssue projectId id => exact h.updateIssues fun _ => rfl
  | purgeIssues projectId => exact h.purgeIssues projectId
  | createEpic id projectId milestoneId => exact h.createEpic id projectId milestoneId
  | updateEpic projectId id version milestoneId =>
    simp only [Stmt.exec, Backlog.updateEpic]
    split
    · exact h.updateEpics
    · exact h
  | touchEpic id => exact h.rewriteEpics fun epic => by simp [cascades]
  | softDeleteEpic projectId id | detachEpics projectId milestoneId => exact h.updateEpics
  | attachEpics projectId milestoneId ids =>
    simp only [Stmt.exec, Backlog.attachEpics]
    split
    · exact h.updateEpics
    · exact h
  | purgeEpics projectId => exact h.purgeEpics projectId
  | createMilestone id projectId =>
    simp only [Stmt.exec, Backlog.createMilestone]
    cases db.milestones.insert? ⟨id, projectId, false, none⟩ with
    | none => exact h
    | some milestones => exact h.congr rfl rfl
  | setMilestoneClosed projectId id closed
  | softDeleteMilestone projectId id => exact h.congr rfl rfl

/-! ## Every history -/

/-- The first update of the backfill in migration V019, for issues with a live epic. -/
def backfillFromEpics (db : Db) : Db :=
  { db with
    issues := db.issues.modify (fun issue => (issue.epicId.bind db.liveEpic?).any
        fun epic => issue.milestoneId != epic.milestoneId)
      (fun issue => setModifiedAt db { issue with
        milestoneId := (issue.epicId.bind db.liveEpic?).bind (·.milestoneId) }) fun _ => rfl }

/-- The second update, for issues without one. -/
def backfillEpicless (db : Db) : Db :=
  { db with
    issues := db.issues.modify (fun issue => issue.milestoneId.isSome &&
        (issue.epicId.bind db.liveEpic?).isNone)
      (fun issue => setModifiedAt db { issue with milestoneId := none }) fun _ => rfl }

/-- Migration V019, which introduces the rule. -/
def backfillMilestones (db : Db) : Db := backfillEpicless (backfillFromEpics db)

theorem consistent_backfill (hkeys : EpicKeys db) :
    Consistent (backfillMilestones db) := by
  refine ⟨?_, ?_⟩
  · intro issue hissue
    obtain ⟨filled, hfilled, rfl⟩ := mem_updateWhere.mp hissue
    obtain ⟨old, hold, rfl⟩ := mem_updateWhere.mp hfilled
    have hkey := hkeys old hold
    split <;> split <;> exact hkey
  · intro issue hissue
    obtain ⟨filled, hfilled, rfl⟩ := mem_updateWhere.mp hissue
    obtain ⟨old, hold, hwritten⟩ := mem_updateWhere.mp hfilled
    have hepic : filled.epicId = old.epicId := by
      rw [← hwritten]
      split <;> rfl
    rw [Issue.Derived, derivedMilestone_eq]
    cases hlive : old.epicId.bind db.liveEpic? with
    | none =>
      have hsame : filled = old := by
        rw [← hwritten, hlive]
        rfl
      have hnone : (filled.epicId.bind (backfillFromEpics db).liveEpic?).isNone = true := by
        rw [hepic]
        exact Option.isNone_iff_eq_none.mpr hlive
      rw [hnone, Bool.and_true]
      split
      · rw [show (setModifiedAt (backfillFromEpics db)
          { filled with milestoneId := none }).epicId = old.epicId from hepic]
        exact (congrArg (Option.bind · (·.milestoneId)) hlive).symm
      · rename_i hmilestone
        rw [hepic]
        rw [show old.epicId.bind (backfillMilestones db).liveEpic? = none from hlive]
        exact Option.not_isSome_iff_eq_none.mp hmilestone
    | some epic =>
      have hsome : (filled.epicId.bind (backfillFromEpics db).liveEpic?).isNone = false := by
        rw [hepic, show old.epicId.bind (backfillFromEpics db).liveEpic? = some epic from hlive]
        rfl
      rw [hsome, Bool.and_false, if_neg Bool.false_ne_true, hepic,
        show old.epicId.bind (backfillMilestones db).liveEpic? = some epic from hlive, ← hwritten,
        hlive]
      simp only [Option.any_some, Option.bind_some, bne_iff_ne]
      split
      · rfl
      · rename_i hsame
        exact Decidable.not_not.mp hsame

theorem consistent_run (h : Consistent db) (history : List (Int × Stmt)) :
    Consistent (run db history) := by
  induction history generalizing db with
  | nil => exact h
  | cons entry history ih =>
    have hnow : Consistent { db with now := entry.1 } := h.congr rfl rfl
    exact ih (hnow.exec entry.2)

/-- After any history every issue has the milestone of its live epic, and none
without one. -/
theorem issue_milestones_derived (db : Db) (hkeys : EpicKeys db) (history : List (Int × Stmt)) :
    Derived (run (backfillMilestones db) history) :=
  (consistent_run (consistent_backfill hkeys) history).derived

/-- An epic with a milestone and one without. -/
def roadmapDb : Db where
  milestones := ⟨[⟨1, 9, false, none⟩, ⟨2, 9, false, none⟩], by decide⟩
  epics := ⟨[⟨10, 9, some 1, 1, none⟩, ⟨11, 9, none, 1, none⟩], by decide⟩
  issues := ⟨[⟨100, 9, some 10, none, none, 1, 0, none⟩], by decide⟩
  now := 0

/-- The issue moves to the other epic, which gets a milestone and is deleted. -/
def roadmapHistory : List (Int × Stmt) :=
  [(1, .createIssue 101 9 (some 10) (some 100) none), (2, .updateIssue 9 100 1 (some 11) none none),
    (3, .attachEpics 9 2 [11]), (4, .softDeleteEpic 9 11), (5, .purgeEpics 9)]

theorem issue_milestones_derived_roadmap :
    Derived (run (backfillMilestones roadmapDb) roadmapHistory) :=
  issue_milestones_derived roadmapDb (by unfold EpicKeys; decide) roadmapHistory

end IntelliPilot.Backlog
