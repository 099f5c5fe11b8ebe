import IntelliPilot.Issues.Writes
import IntelliPilot.Statement.Beside

/-! # What the statements of a patch do

The checks of a patch read; its update is guarded by the version it read; the
replacements of the sets leave the version as it is. None of them sees the
clock.
-/

namespace IntelliPilot.Issues

open Http Statement
open Imports (Uuid)

/-- Statements that write nothing. -/
def Stmt.reads {β : Type} : Stmt β → Bool
  | .selectIssue _ _ => true
  | .issueLabelIds _ => true
  | .issueComponentIds _ => true
  | .issueComponentVersions _ => true
  | .issueCustomerIds _ => true
  | .labelsInProject _ _ => true
  | .componentsInProject _ _ => true
  | .customerInProject _ _ => true
  | .epicInProject _ _ => true
  | .issueInProject _ _ => true
  | .parentChainContains _ _ _ => true
  | .versionInProject _ _ => true
  | .versionsOfComponents _ _ => true
  | .issueExists _ _ => true
  | _ => false

/-- Reads that never return the issue's own row. -/
def Stmt.checks {β : Type} : Stmt β → Bool
  | .selectIssue _ _ => false
  | stmt => stmt.reads

/-- The update of a row. -/
def Stmt.updates {β : Type} : Stmt β → Bool
  | .updateIssue _ _ _ _ => true
  | _ => false

/-- The replacements of sets. -/
def Stmt.replaces {β : Type} : Stmt β → Bool
  | .setIssueLabels _ _ => true
  | .setIssueComponents _ _ => true
  | .setIssueComponentVersions _ _ => true
  | .setIssueCustomers _ _ => true
  | _ => false

def Stmt.ofPatch {β : Type} (stmt : Stmt β) : Bool := stmt.reads || stmt.updates || stmt.replaces

variable {β : Type} {stmt : Stmt β}

theorem Stmt.reads_of_checks (h : stmt.checks = true) : stmt.reads = true := by
  cases stmt <;> first | rfl | contradiction

theorem effect_reads (h : stmt.reads = true) (db : Db) : (stmt.effect db).2 = db := by
  cases stmt <;> first | rfl | contradiction

/-! ## Who issues what -/

section Only

variable {α : Type} {P : {β : Type} → Stmt β → Prop}

theorem only_query {stmt : Stmt (Except DbError α)} (h : P stmt) : (query stmt).run.Only P :=
  ⟨h, fun _ => trivial⟩

theorem only_attempt {q : Query α} {failed : Handler α} (hq : q.run.Only P)
    (hfailed : failed.run.Only P) : (attempt q failed).run.Only P := by
  refine only_run_bind (Prog.only_bind hq fun _ => trivial) ?_
  rintro (e | a)
  · exact hfailed
  · trivial

theorem only_orInternal {q : Query α} (hq : q.run.Only P) : (orInternal q).run.Only P :=
  only_attempt hq trivial

theorem only_orFalse {q : Query Bool} (hq : q.run.Only P) : (orFalse q).run.Only P :=
  only_attempt hq trivial

theorem only_ensure (ok : Bool) (problem : Problem) : (ensure ok problem).run.Only P := by
  cases ok <;> trivial

theorem only_decided (result : Except Problem α) : (decided result).run.Only P := by
  cases result <;> trivial

theorem only_validateLabelComponentIds (projectId : Uuid) (labels components : List Uuid) :
    (validateLabelComponentIds projectId labels components).run.Only (·.checks = true) := by
  unfold validateLabelComponentIds labelsInProject componentsInProject
  refine only_run_bind (only_orFalse ?_) fun _ => ?_
  · split
    · trivial
    · exact only_query rfl
  refine only_run_bind (only_ensure _ _) fun _ => ?_
  refine only_run_bind (only_orFalse ?_) fun _ => only_ensure _ _
  split
  · trivial
  · exact only_query rfl

theorem only_parent (projectId : Uuid) (parentId : Option Uuid) : (match parentId with
    | none => pure ()
    | some id => do
        ensure (← orFalse (query (.issueInProject projectId id)))
          (unprocessable "invalid_association" "parent issue is not in this project")
    : Handler Unit).run.Only (·.checks = true) := by
  cases parentId with
  | none => trivial
  | some id => exact only_run_bind (only_orFalse (only_query rfl)) fun _ => only_ensure _ _

theorem only_validateIssueAssociations (projectId : Uuid)
    (epicId parentId milestoneId : Option Uuid) :
    (validateIssueAssociations projectId epicId parentId milestoneId).run.Only
      (·.checks = true) := by
  have hparent := only_parent projectId parentId
  unfold validateIssueAssociations rejectIssueMilestoneWrite
  refine only_run_bind (only_ensure _ _) fun _ => ?_
  cases epicId with
  | none => exact hparent
  | some id =>
    refine only_run_bind (only_orFalse (only_query rfl)) fun _ => ?_
    exact only_run_bind (only_ensure _ _) fun _ => hparent

theorem only_validateIssueExtras (projectId : Uuid) (customerIds : List Uuid)
    (releaseVersionId : Option Uuid) (releaseText : Option String) :
    (validateIssueExtras projectId customerIds releaseVersionId releaseText).run.Only
      (·.checks = true) := by
  unfold validateIssueExtras
  refine only_run_bind (only_ensure _ _) fun _ => ?_
  refine only_run_bind (only_run_forM fun id => ?_) fun _ => ?_
  · exact only_run_bind (only_orFalse (only_query rfl)) fun _ => only_ensure _ _
  · cases releaseVersionId with
    | none => trivial
    | some id => exact only_run_bind (only_orFalse (only_query rfl)) fun _ => only_ensure _ _

theorem only_validateComponentVersions (pairs : List ComponentVersion) (components : List Uuid) :
    (validateComponentVersions pairs components).run.Only (·.checks = true) := by
  unfold validateComponentVersions
  split
  · trivial
  · refine only_run_bind (only_decided _) fun _ => ?_
    exact only_run_bind (only_orInternal (only_query rfl)) fun _ => only_ensure _ _

theorem only_getIssue (projectId id : Uuid) :
    (getIssue projectId id).run.Only (·.reads = true) := by
  unfold getIssue
  refine only_run_bind (only_query rfl) fun row => ?_
  cases row with
  | none => trivial
  | some row =>
    refine only_run_bind (only_query rfl) fun _ => ?_
    refine only_run_bind (only_query rfl) fun _ => ?_
    refine only_run_bind (only_query rfl) fun _ => ?_
    exact only_run_bind (only_query rfl) fun _ => trivial

theorem only_reread (projectId id : Uuid) : (reread projectId id).run.Only (·.reads = true) := by
  unfold reread
  refine only_run_bind (only_orInternal (only_getIssue projectId id)) fun found => ?_
  cases found <;> trivial

theorem only_readOld (projectId id : Uuid) : (readOld projectId id).run.Only (·.reads = true) := by
  unfold readOld
  refine only_run_bind (only_attempt (only_getIssue projectId id) trivial) fun found => ?_
  cases found <;> trivial

theorem only_validatePatch (projectId : Uuid) (patch : UpdateIssueRequest) (old : FullIssue) :
    (validatePatch projectId patch old).run.Only (·.checks = true) := by
  unfold validatePatch
  refine only_run_bind (only_validateLabelComponentIds projectId _ _) fun _ => ?_
  suffices hrest : (do
      rejectIssueMilestoneWrite patch.milestoneId.join
      let w := patch.over old.toIssue
      validateChanged projectId old.toIssue w
      ensure (w.parentId != some old.id)
        (unprocessable "invalid_association" "an issue cannot be its own parent")
      rejectCycle projectId old.toIssue w
      validateIssueExtras projectId (patch.customerIds.getD old.customerIds) w.releaseVersionId
        w.releaseText : Handler Unit).run.Only (·.checks = true) by
    cases patch.componentVersions with
    | none => exact hrest
    | some pairs => exact only_run_bind (only_validateComponentVersions pairs _) fun _ => hrest
  refine only_run_bind (only_ensure _ _) fun _ => ?_
  refine only_run_bind ?_ fun _ => ?_
  · unfold validateChanged
    split
    · exact only_validateIssueAssociations projectId _ _ _
    · trivial
  refine only_run_bind (only_ensure _ _) fun _ => ?_
  refine only_run_bind ?_ fun _ => only_validateIssueExtras projectId _ _ _
  unfold rejectCycle
  cases (patch.over old.toIssue).parentId with
  | none => trivial
  | some parentId =>
    dsimp only
    split
    · exact only_run_bind (only_orFalse (only_query rfl)) fun _ => only_ensure _ _
    · trivial

theorem only_replaceSets (id : Uuid) (labels components customerIds : Option (List Uuid))
    (pairs : Option (List ComponentVersion)) :
    (replaceSets id labels components pairs customerIds).run.Only (·.replaces = true) := by
  have hgiven : ∀ {α : Type} (given : Option α) (stmt : α → Stmt (Except DbError Unit)),
      (∀ a, (stmt a).replaces = true) →
        (withGiven given fun a => orInternal (query (stmt a))).run.Only (·.replaces = true) := by
    intro α given stmt hstmt
    cases given with
    | none => trivial
    | some a => exact only_orInternal (only_query (hstmt a))
  rw [replaceSets_eq]
  refine only_run_bind (hgiven _ _ fun _ => rfl) fun _ => ?_
  refine only_run_bind (hgiven _ _ fun _ => rfl) fun _ => ?_
  exact only_run_bind (hgiven _ _ fun _ => rfl) fun _ => hgiven _ _ fun _ => rfl

end Only

/-! ## The clock -/

/-- All tables are the same. -/
def SameTables (s s' : Db) : Prop := s' = { s with now := s'.now }

theorem SameTables.refl (s : Db) : SameTables s s := rfl

theorem SameTables.trans {a b c : Db} (hab : SameTables a b) (hbc : SameTables b c) :
    SameTables a c := by
  unfold SameTables at hab hbc ⊢
  rw [hab] at hbc
  exact hbc

theorem SameTables.symm {s s' : Db} (h : SameTables s s') : SameTables s' s := by
  unfold SameTables at h ⊢
  rw [h]

theorem sameTables_reads (hreads : stmt.reads = true) (choice : Choice) (s : Db) :
    SameTables s (stmt.exec choice s).2 := by
  unfold Stmt.exec
  dsimp only
  split
  · rfl
  · rw [effect_reads hreads]
    rfl

namespace Db

def setClock (now : Int) (db : Db) : Db := { db with now := now }

theorem updateIssue_setClock (projectId id : Uuid) (version : Nat) (w : IssueWrite) (now : Int)
    (db : Db) : (db.setClock now).updateIssue projectId id version w =
      ((db.updateIssue projectId id version w).1,
        (db.updateIssue projectId id version w).2.setClock now) := by
  have hissue : (db.setClock now).issue? id = db.issue? id := rfl
  have haccepts : (db.setClock now).accepts w = db.accepts w := rfl
  unfold updateIssue
  rw [hissue, haccepts]
  split
  · rfl
  · split
    · rfl
    · rfl

theorem deleteVersionRows_setClock (p : VersionRow → Bool) (now : Int) (db : Db) :
    (db.setClock now).deleteVersionRows p = (db.deleteVersionRows p).setClock now := by
  have hfold : ∀ (rows : List VersionRow) (db : Db),
      rows.foldl (fun db row => db.mirror row.issueId) (db.setClock now) =
        (rows.foldl (fun db row => db.mirror row.issueId) db).setClock now := by
    intro rows
    induction rows with
    | nil => exact fun _ => rfl
    | cons row rows ih => exact fun db => ih (db.mirror row.issueId)
  exact hfold _ { db with componentVersions := Rows.deleteWhere p db.componentVersions }

theorem insertVersion_setClock (id : Uuid) (pair : ComponentVersion) (now : Int) (db : Db) :
    (db.setClock now).insertVersion id pair = (db.insertVersion id pair).map (setClock now) := by
  have hcomponents : (db.setClock now).issueComponents = db.issueComponents := rfl
  have hversion : (db.setClock now).version? pair.releaseVersionId =
      db.version? pair.releaseVersionId := rfl
  unfold insertVersion
  rw [hcomponents, hversion]
  split
  · split
    · rfl
    · rfl
  · rfl

theorem setIssueLabels_setClock (id : Uuid) (ids : List Uuid) (now : Int) (db : Db) :
    (db.setClock now).setIssueLabels id ids = (db.setIssueLabels id ids).map (setClock now) := by
  have hcatalog : (db.setClock now).catalog = db.catalog := rfl
  unfold setIssueLabels
  rw [hcatalog]
  split
  · rfl
  · rfl

theorem setIssueCustomers_setClock (id : Uuid) (ids : List Uuid) (now : Int) (db : Db) :
    (db.setClock now).setIssueCustomers id ids =
      (db.setIssueCustomers id ids).map (setClock now) := by
  have hcatalog : (db.setClock now).catalog = db.catalog := rfl
  unfold setIssueCustomers
  rw [hcatalog]
  split
  · rfl
  · rfl

theorem setIssueComponents_eq (id : Uuid) (ids : List Uuid) (db : Db) :
    db.setIssueComponents id ids =
      if ids.all fun component => (db.catalog.components.find? component).isSome then
        some { db.deleteVersionRows (db.leaves id ids) with
          issueComponents := Imports.Db.addLinks id ids
            (Rows.deleteWhere (fun link => link.1 == id && !ids.contains link.2)
              (db.deleteVersionRows (db.leaves id ids)).issueComponents) }
      else none := rfl

theorem setIssueComponents_setClock (id : Uuid) (ids : List Uuid) (now : Int) (db : Db) :
    (db.setClock now).setIssueComponents id ids =
      (db.setIssueComponents id ids).map (setClock now) := by
  have hcatalog : (db.setClock now).catalog = db.catalog := rfl
  have hleaves : (db.setClock now).leaves id ids = db.leaves id ids := rfl
  rw [setIssueComponents_eq, setIssueComponents_eq, hcatalog, hleaves, deleteVersionRows_setClock]
  split
  · rfl
  · rfl

theorem setIssueComponentVersions_setClock (id : Uuid) (pairs : List ComponentVersion) (now : Int)
    (db : Db) : (db.setClock now).setIssueComponentVersions id pairs =
      (db.setIssueComponentVersions id pairs).map (setClock now) := by
  have hfold : ∀ (pairs : List ComponentVersion) (db : Db),
      pairs.foldlM (insertVersion id) (db.setClock now) =
        (pairs.foldlM (insertVersion id) db).map (setClock now) := by
    intro pairs
    induction pairs with
    | nil => exact fun _ => rfl
    | cons pair pairs ih =>
      intro db
      rw [List.foldlM_cons, List.foldlM_cons, insertVersion_setClock]
      cases db.insertVersion id pair with
      | none => rfl
      | some next => exact ih next
  unfold setIssueComponentVersions
  rw [deleteVersionRows_setClock]
  exact hfold pairs _

theorem commit_setClock {set : Db → Option Db} {now : Int} {db : Db}
    (h : set (db.setClock now) = (set db).map (setClock now)) :
    (db.setClock now).commit (set (db.setClock now)) =
      ((db.commit (set db)).1, (db.commit (set db)).2.setClock now) := by
  rw [h]
  cases set db with
  | none => rfl
  | some after => rfl

end Db

/-- The statements of a patch do not see the clock. -/
theorem effect_setClock (h : stmt.ofPatch = true) (now : Int) (db : Db) :
    stmt.effect (db.setClock now) = ((stmt.effect db).1, (stmt.effect db).2.setClock now) := by
  have hchain : ∀ depth id, (db.setClock now).chain depth id = db.chain depth id := by
    intro depth
    induction depth with
    | zero => exact fun _ => rfl
    | succ depth ih => exact fun id => by simp only [Db.chain, ih]; rfl
  cases stmt with
  | updateIssue projectId id version w => exact Db.updateIssue_setClock projectId id version w now db
  | setIssueLabels id ids => exact Db.commit_setClock (Db.setIssueLabels_setClock id ids now db)
  | setIssueComponents id ids =>
    exact Db.commit_setClock (Db.setIssueComponents_setClock id ids now db)
  | setIssueComponentVersions id pairs =>
    exact Db.commit_setClock (Db.setIssueComponentVersions_setClock id pairs now db)
  | setIssueCustomers id ids =>
    exact Db.commit_setClock (Db.setIssueCustomers_setClock id ids now db)
  | parentChainContains projectId start needle =>
    refine Prod.ext (congrArg Except.ok ?_) rfl
    rw [Db.parentChainContains, Db.parentChainContains, hchain]
    rfl
  | _ => first | rfl | contradiction

theorem failure_setClock (h : stmt.ofPatch = true) (now : Int) (db : Db) :
    stmt.failure (db.setClock now) = stmt.failure db := by
  cases stmt <;> first | rfl | contradiction

/-! ## The version -/

namespace Db

/-- Version, project and deletion of an issue. -/
def mark (db : Db) (id : Uuid) : Option (Nat × Uuid × Option Int) :=
  (db.issue? id).map fun issue => (issue.version, issue.projectId, issue.deletedAt)

theorem isSome_selectIssue (db : Db) (projectId id : Uuid) : (db.selectIssue projectId id).isSome =
    (db.mark id).any fun m => m.2.1 == projectId && m.2.2.isNone := by
  rw [selectIssue, mark]
  cases db.issue? id with
  | none => rfl
  | some issue =>
    rw [Option.map_some, Option.any_some, Option.filter_some, inProject]
    split
    · rename_i hfound
      rw [hfound]
      rfl
    · rename_i hfound
      rw [(Bool.not_eq_true _).mp hfound]
      rfl

theorem mark_updateIssues {f : Issue → Issue} (p : Issue → Bool) (hf : ∀ issue, (f issue).id = issue.id)
    (hkept : ∀ issue, ((f issue).version, (f issue).projectId, (f issue).deletedAt) =
      (issue.version, issue.projectId, issue.deletedAt)) (db : Db) (id : Uuid) :
    (db.updateIssues p f hf).mark id = db.mark id := by
  rw [mark, issue?_updateIssues, Option.map_map, mark]
  apply Option.map_congr
  intro issue _
  simp only [Function.comp_apply]
  split
  · exact hkept issue
  · rfl

theorem mark_mirror (i id : Uuid) (db : Db) : (db.mirror i).mark id = db.mark id := by
  apply mark_updateIssues
  exact fun _ => rfl

theorem mark_deleteVersionRows (p : VersionRow → Bool) (db : Db) (id : Uuid) :
    (db.deleteVersionRows p).mark id = db.mark id := by
  have hfold : ∀ (rows : List VersionRow) (db : Db),
      (rows.foldl (fun db row => db.mirror row.issueId) db).mark id = db.mark id := by
    intro rows
    induction rows with
    | nil => exact fun _ => rfl
    | cons row rows ih => exact fun db => (ih _).trans (mark_mirror row.issueId id db)
  exact hfold _ _

variable {id : Uuid} {db : Db}

theorem mark_insertVersion {i : Uuid} {pair : ComponentVersion} {db' : Db}
    (h : db.insertVersion i pair = some db') : db'.mark id = db.mark id := by
  unfold insertVersion at h
  split at h
  · split at h
    · rw [← Option.some.inj h, mark_mirror]
      rfl
    · contradiction
  · rw [← Option.some.inj h]

theorem mark_setIssueComponentVersions {i : Uuid} {pairs : List ComponentVersion} {db' : Db}
    (h : db.setIssueComponentVersions i pairs = some db') : db'.mark id = db.mark id := by
  have hfold : ∀ (pairs : List ComponentVersion) (db db' : Db),
      pairs.foldlM (insertVersion i) db = some db' → db'.mark id = db.mark id := by
    intro pairs
    induction pairs with
    | nil => exact fun db db' h => by rw [Option.some.inj h]
    | cons pair pairs ih =>
      intro db db' h
      rw [List.foldlM_cons] at h
      obtain ⟨next, hnext, hrest⟩ := Option.bind_eq_some_iff.mp h
      exact (ih next db' hrest).trans (mark_insertVersion hnext)
  exact (hfold pairs _ _ h).trans (mark_deleteVersionRows _ db id)

theorem mark_setIssueComponents {i : Uuid} {ids : List Uuid} {db' : Db}
    (h : db.setIssueComponents i ids = some db') : db'.mark id = db.mark id := by
  rw [setIssueComponents_eq] at h
  split at h
  · rw [← Option.some.inj h]
    exact mark_deleteVersionRows _ db id
  · contradiction

theorem mark_commit {set : Db → Option Db}
    (h : ∀ db', set db = some db' → db'.mark id = db.mark id) :
    (db.commit (set db)).2.mark id = db.mark id := by
  cases hset : set db with
  | none => rfl
  | some after => exact h after hset

theorem mark_deleteVersion (projectId versionId : Uuid) (db : Db) (id : Uuid) :
    (db.deleteVersion projectId versionId).2.mark id = db.mark id := by
  unfold deleteVersion
  split
  · refine (mark_deleteVersionRows _ _ id).trans ?_
    apply mark_updateIssues
    exact fun _ => rfl
  · rfl

end Db

/-- The insert of a row. -/
def Stmt.inserts {β : Type} : Stmt β → Bool
  | .insertIssue _ _ _ _ => true
  | _ => false

/-- Only the update of a row changes the version of an issue that is there. -/
theorem mark_effect (hupdates : stmt.updates = false) (hinserts : stmt.inserts = false) (db : Db)
    (id : Uuid) : (stmt.effect db).2.mark id = db.mark id := by
  cases stmt with
  | updateIssue projectId id version w => contradiction
  | insertIssue projectId ownerId reference w => contradiction
  | setIssueLabels i ids =>
    refine Db.mark_commit fun db' h => ?_
    unfold Db.setIssueLabels at h
    split at h
    · rw [← Option.some.inj h]
      rfl
    · contradiction
  | setIssueCustomers i ids =>
    refine Db.mark_commit fun db' h => ?_
    unfold Db.setIssueCustomers at h
    split at h
    · rw [← Option.some.inj h]
      rfl
    · contradiction
  | setIssueComponents i ids => exact Db.mark_commit fun _ h => Db.mark_setIssueComponents h
  | setIssueComponentVersions i pairs =>
    exact Db.mark_commit fun _ h => Db.mark_setIssueComponentVersions h
  | createVersion releaseId version =>
    have hissues : (db.createVersion releaseId version).2.issues = db.issues := by
      rw [(Db.createVersion_grows releaseId version db).only]
    show (db.createVersion releaseId version).2.mark id = db.mark id
    rw [Db.mark, Db.issue?, hissues]
    rfl
  | deleteVersion projectId versionId => exact Db.mark_deleteVersion projectId versionId db id
  | storeKey row =>
    have hissues := (aside_storeKey row db).issues
    rw [Db.mark, Db.issue?, hissues]
    rfl
  | _ => rfl

/-- An update that writes a row finds the version it expects, and raises it. -/
theorem mark_updateIssue {projectId id : Uuid} {version : Nat} {w : IssueWrite} {db db' : Db}
    {row : Issue} (h : db.updateIssue projectId id version w = (.ok (some row), db')) :
    db.mark id = some (version, projectId, none) ∧ db'.mark id = some (version + 1, projectId, none) ∧
      ∀ other, other ≠ id → db'.mark other = db.mark other := by
  unfold Db.updateIssue at h
  split at h
  · cases Except.ok.inj (Prod.mk.inj h).1
  · rename_i old hold
    obtain ⟨hfound, hcurrent⟩ := Option.filter_eq_some_iff.mp hold
    split at h
    · obtain ⟨-, hdb⟩ := Prod.mk.inj h
      have hfind : ∀ other, db'.issue? other = (db.issue? other).map fun issue =>
          if Db.isCurrent projectId id version issue then
            db.milestoneFromEpic { issue with toIssueWrite := w, version := issue.version + 1 }
          else issue := by
        intro other
        rw [← hdb]
        exact Db.issue?_updateIssues _ _ _ db other
      have hmark : old.version = version ∧ old.projectId = projectId ∧ old.deletedAt = none := by
        simp only [Db.isCurrent, Bool.and_eq_true, beq_iff_eq, Option.isNone_iff_eq_none] at hcurrent
        exact ⟨hcurrent.1.2, hcurrent.1.1.2, hcurrent.2⟩
      obtain ⟨hversion, hproject, hdeleted⟩ := hmark
      refine ⟨?_, ?_, ?_⟩
      · rw [Db.mark, hfound, Option.map_some, hversion, hproject, hdeleted]
      · rw [Db.mark, hfind, hfound, Option.map_some, if_pos hcurrent, Option.map_some, ← hversion,
          ← hproject, ← hdeleted]
        rfl
      · intro other hother
        rw [Db.mark, hfind, Option.map_map, Db.mark]
        apply Option.map_congr
        intro issue hissue
        have hkey : issue.id = other := Table.key_of_find? hissue
        have hstale : Db.isCurrent projectId id version issue = false := by
          simp [Db.isCurrent, hkey, hother]
        simp [hstale]
    · cases (Prod.mk.inj h).1

end IntelliPilot.Issues
