import IntelliPilot.Backlog.IssueLinks
import Mathlib.Data.List.Induction

/-! # The issue hierarchy

The parents of issues form a forest as long as every request is safe: a PATCH
moves an issue below one of its own descendants only where the cycle check can
see it, and no import file names its rows as each other's ancestors.
-/

namespace IntelliPilot.Backlog

open Relation Rows Api

/-! ## PATCH -/

variable {db : Db} {id : Uuid} {projectId : Uuid}

theorem getIssue_eq_some {issue : Issue} (h : getIssue db projectId id = some issue) :
    db.issue? id = some issue ∧ issue.id = id ∧ issue.projectId = projectId ∧ issue.live = true := by
  obtain ⟨hfind, hin⟩ := Option.filter_eq_some_iff.mp h
  rw [inProject, Bool.and_eq_true, beq_iff_eq] at hin
  exact ⟨hfind, Table.key_of_find? hfind, hin.1, hin.2⟩

theorem isSome_of_issueInProject (h : issueInProject db projectId id = true) :
    (db.issue? id).isSome := by
  obtain ⟨issue, hissue⟩ := Option.isSome_iff_exists.mp h
  exact Option.isSome_of_eq_some (getIssue_eq_some hissue).1

theorem isSome_of_epicInProject (h : epicInProject db projectId id = true) :
    (db.epic? id).isSome := by
  obtain ⟨epic, hepic⟩ := Option.isSome_iff_exists.mp h
  exact Option.isSome_of_eq_some (Option.filter_eq_some_iff.mp hepic).1

section Patch

variable {projectId id : Uuid} {header : IfMatch} {patch : UpdateIssueRequest} {c : Circumstances}
  {db : Db} {old : Issue}

theorem validateIssueAssociations_ok {epicId parentId milestoneId : Option Uuid} {u : Unit}
    (h : validateIssueAssociations c db projectId epicId parentId milestoneId = .ok u) :
    (∀ e, epicId = some e → epicInProject db projectId e = true) ∧
      ∀ p, parentId = some p → issueInProject db projectId p = true := by
  simp only [validateIssueAssociations, bind_eq_ok, ensure_eq_ok, Option.all_eq_true,
    Bool.and_eq_true] at h
  obtain ⟨_, _, _, hepic, hparent⟩ := h
  exact ⟨fun e he => (hepic e he).2, fun p hp => (hparent p hp).2⟩

/-- What has been checked before the cycle check: the issue is live and in the
project, and links that change lead into the project. -/
theorem admitUpdate_ok (h : admitUpdate projectId id header patch c db = .ok old) :
    getIssue db projectId id = some old ∧
      (∀ e, patch.epicId.getD old.epicId = some e → old.epicId ≠ some e →
        epicInProject db projectId e = true) ∧
      ∀ p, patch.parentId.getD old.parentId = some p → old.parentId ≠ some p →
        issueInProject db projectId p = true := by
  simp only [admitUpdate, bind_eq_ok, ensure_eq_ok, screen_eq_ok, pure, Except.pure,
    Except.ok.injEq] at h
  obtain ⟨_, _, found, hfound, _, _, _, _, _, _, _, hlinks, _, _, rfl⟩ := h
  have hget : getIssue db projectId id = some found := by
    cases hfails : c.getFails with
    | true => simp [hfails] at hfound
    | false =>
      rw [hfails] at hfound
      cases hissue : getIssue db projectId id with
      | none => simp [hissue] at hfound
      | some issue => simpa [hissue] using hfound
  refine ⟨hget, ?_, ?_⟩
  · intro e he hne
    have hchanged : (patch.epicId.getD found.epicId != found.epicId) = true := by
      rw [he]
      exact bne_iff_ne.mpr (Ne.symm hne)
    rw [hchanged, Bool.true_or, if_pos rfl] at hlinks
    exact (validateIssueAssociations_ok hlinks).1 e he
  · intro p hp hne
    have hchanged : (patch.parentId.getD found.parentId != found.parentId) = true := by
      rw [hp]
      exact bne_iff_ne.mpr (Ne.symm hne)
    rw [hchanged, Bool.or_true, if_pos rfl] at hlinks
    exact (validateIssueAssociations_ok hlinks).2 p hp

theorem rejectCycle_ok_iff {oldParent parentId : Option Uuid} {u : Unit} :
    rejectCycle c db projectId id oldParent parentId = .ok u ↔
      ∀ p, parentId = some p → oldParent ≠ some p → c.chainCheckFails = false →
        parentChainContains db projectId p id = false := by
  rw [rejectCycle, ensure_eq_ok]
  cases parentId with
  | none => simp
  | some p =>
    by_cases hsame : oldParent = some p
    · simp [hsame]
    · cases c.chainCheckFails <;> simp [hsame, Ne.symm hsame]

theorem updateIssue_ok_iff {stmt : Stmt} :
    Api.updateIssue projectId id header patch c db = .ok stmt ↔
      ∃ old, admitUpdate projectId id header patch c db = .ok old ∧
        rejectCycle c db projectId id old.parentId (patch.parentId.getD old.parentId) = .ok () ∧
        c.extras = none ∧ c.writeFails = false ∧
        stmt = .updateIssue projectId id old.version (patch.epicId.getD old.epicId)
          (patch.parentId.getD old.parentId) old.milestoneId := by
  simp only [Api.updateIssue, bind_eq_ok, ensure_eq_ok, screen_eq_ok, pure, Except.pure,
    Except.ok.injEq, Bool.not_eq_true']
  constructor
  · rintro ⟨old, hadmitted, _, hcycle, _, hextras, _, hwrite, rfl⟩
    exact ⟨old, hadmitted, hcycle, hextras, hwrite, rfl⟩
  · rintro ⟨old, hadmitted, hcycle, hextras, hwrite, rfl⟩
    exact ⟨old, hadmitted, (), hcycle, (), hextras, (), hwrite, rfl⟩

/-- The update of a PATCH that has been admitted writes its link. -/
theorem parent?_updateIssue (hsound : Sound db)
    (hadmitted : admitUpdate projectId id header patch c db = .ok old) (milestoneId : Option Uuid) :
    (Backlog.updateIssue projectId id old.version (patch.epicId.getD old.epicId)
        (patch.parentId.getD old.parentId) milestoneId db).parent? =
      Function.update db.parent? id (patch.parentId.getD old.parentId) := by
  obtain ⟨hget, hepic, hparent⟩ := admitUpdate_ok hadmitted
  obtain ⟨hfind, hid, hproject, hlive⟩ := getIssue_eq_some hget
  have hepics : references (patch.epicId.getD old.epicId) db.epic? = true := by
    by_cases hsame : patch.epicId.getD old.epicId = old.epicId
    · rw [hsame]
      exact hsound.consistent.keys old (Table.mem_of_find? hfind)
    · cases he : patch.epicId.getD old.epicId with
      | none => rfl
      | some e => exact isSome_of_epicInProject (hepic e he fun h => hsame (he.trans h.symm))
  have hparents : references (patch.parentId.getD old.parentId) db.issue? = true := by
    cases hp : patch.parentId.getD old.parentId with
    | none => rfl
    | some p =>
      by_cases hsame : old.parentId = some p
      · exact hsound.parentKeys id p (by rw [Db.parent?, hfind]; exact hsame)
      · exact isSome_of_issueInProject (hparent p hp hsame)
  have hcurrent : old.current projectId id old.version = true := by
    simp [Issue.current, hid, hproject, hlive]
  rw [Backlog.updateIssue, hepics, hparents]
  subst hid
  apply parent?_updateIssues_one hfind
  · intro issue hissue
    simp only [Issue.current, Bool.and_eq_true, beq_iff_eq] at hissue
    exact hissue.1.1.1
  · exact hcurrent

/-- A PATCH is safe if the cycle check sees the issue among the ancestors of
its new parent, whenever it is there. -/
def SafePatch (projectId id : Uuid) (header : IfMatch) (patch : UpdateIssueRequest)
    (c : Circumstances) (db : Db) : Prop :=
  ∀ old p, admitUpdate projectId id header patch c db = .ok old → c.extras = none →
    c.writeFails = false → patch.parentId = some (some p) → old.parentId ≠ some p →
    Descends db p id → c.chainCheckFails = false ∧ Visible db 100 p id

theorem forest_updateIssue_iff (hsound : Sound db) (hforest : Forest db) :
    Forest (settle (Api.updateIssue projectId id header patch c db) db) ↔
      SafePatch projectId id header patch c db := by
  cases hdecision : Api.updateIssue projectId id header patch c db with
  | ok stmt =>
    obtain ⟨old, hadmitted, hcycle, hextras, hwrite, rfl⟩ := updateIssue_ok_iff.mp hdecision
    have hfind := (getIssue_eq_some (admitUpdate_ok hadmitted).1).1
    rw [Forest, settle, Stmt.exec, parent?_updateIssue hsound hadmitted, acyclic_update_iff hforest]
    constructor
    · intro hnot old' p hagain _ _ hpatch _ hdescends
      obtain rfl : old = old' := by
        rw [hadmitted] at hagain
        exact Except.ok.inj hagain
      exact absurd hdescends (hnot p (by rw [hpatch]; rfl))
    · intro hsafe p hp hdescends
      by_cases hsame : old.parentId = some p
      · -- the link is there already, so the hierarchy had a cycle before
        apply hforest id
        exact TransGen.head' (by rw [Climbs, Db.parent?, hfind]; exact hsame) hdescends
      · have hpatch : patch.parentId = some (some p) := by
          cases hparent : patch.parentId with
          | none =>
            rw [hparent] at hp
            exact absurd hp hsame
          | some parentId =>
            rw [hparent] at hp
            rw [show parentId = some p from hp]
        obtain ⟨hcheck, hvisible⟩ := hsafe old p hadmitted hextras hwrite hpatch hsame hdescends
        have hseen : parentChainContains db projectId p id = true :=
          parentChainContains_iff.mpr ⟨(admitUpdate_ok hadmitted).2.2 p hp hsame, hvisible⟩
        rw [rejectCycle_ok_iff.mp hcycle p hp hsame hcheck] at hseen
        exact Bool.false_ne_true hseen
  | error problem =>
    refine iff_of_true hforest ?_
    intro old p hadmitted hextras hwrite hpatch hne hdescends
    have hp : patch.parentId.getD old.parentId = some p := by
      rw [hpatch]
      rfl
    have hrefused : ¬ rejectCycle c db projectId id old.parentId
        (patch.parentId.getD old.parentId) = .ok () := by
      intro hcycle
      have hok := updateIssue_ok_iff.mpr ⟨old, hadmitted, hcycle, hextras, hwrite, rfl⟩
      rw [hdecision] at hok
      cases hok
    rw [rejectCycle_ok_iff] at hrefused
    push Not at hrefused
    obtain ⟨p', hp', _, hcheck, hseen⟩ := hrefused
    obtain rfl : p = p' := Option.some.inj (hp.symm.trans hp')
    rw [ne_eq, Bool.not_eq_false] at hseen
    exact ⟨hcheck, (parentChainContains_iff.mp hseen).2⟩

end Patch

/-! ## Import -/

/-- The links between the given rows of a file that the second pass writes. -/
def links (s : Import) (rows : List ParsedRow) (id : Uuid) : Option Uuid :=
  (rows.find? (·.newId == id)).bind fun row => if row.linkFails then none else s.parentOf row

/-- What the first pass has done to the tables `db`: new issues without links,
which the maps lead to. -/
structure FirstPass (db : Db) (s : Import) : Prop where
  sound : Sound s.db
  parents : s.db.parent? = db.parent?
  grown : ∀ id, (db.issue? id).isSome → (s.db.issue? id).isSome
  fresh : ∀ row ∈ s.created, db.issue? row.newId = none
  present : ∀ row ∈ s.created, (s.db.issue? row.newId).isSome
  nodup : (s.created.map (·.newId)).Nodup
  issues : ∀ key id, s.byId key = some id ∨ s.byKey key = some id →
    id ∈ s.created.map (·.newId)
  epics : ∀ key id, s.epicById key = some id ∨ s.epicByKey key = some id →
    (s.db.epic? id).isSome

theorem RefMap.insert_eq_some {map : RefMap} {key k : String} {new : Uuid}
    (h : map.insert key new k = some id) : id = new ∨ map k = some id := by
  unfold RefMap.insert at h
  split at h
  · exact Or.inl (Option.some.inj h).symm
  · exact Or.inr h

theorem createEpic_free (hfree : db.epic? id = none) (projectId : Uuid) :
    (createEpic id projectId none db).issues = db.issues ∧
      ∀ k, ((createEpic id projectId none db).epic? k).isSome =
        (decide (k = id) || (db.epic? k).isSome) := by
  obtain ⟨epics, hepics⟩ : ∃ epics, db.epics.insert? ⟨id, projectId, none, 1, none⟩ = some epics :=
    Table.exists_insert? hfree
  have hcreated : createEpic id projectId none db = { db with epics := epics } := by
    simp only [createEpic, references, Option.all_none, if_true, hepics]
    rfl
  rw [hcreated]
  refine ⟨rfl, ?_⟩
  intro k
  rw [Db.epic?, Table.find?_insert? hepics]
  by_cases hk : k = id <;> simp [hk, Db.epic?]

theorem createIssue_free (hfree : db.issue? id = none) (projectId : Uuid) :
    ∃ row : Issue, row.parentId = none ∧
      (createIssue id projectId none none none db).epics = db.epics ∧
      (createIssue id projectId none none none db).issue? =
        Function.update db.issue? id (some row) := by
  rcases createIssue_cases id projectId none none none db with
    ⟨_, hrefused⟩ | ⟨row, hrow, _, _, hepics, hissue⟩
  · rw [hfree] at hrefused
    simp [references] at hrefused
  · exact ⟨row, hrow, hepics, hissue⟩

theorem firstPass_start (h : Sound db) : FirstPass db (.start db) where
  sound := h
  parents := rfl
  grown _ hid := hid
  fresh row hrow := nomatch hrow
  present row hrow := nomatch hrow
  nodup := List.nodup_nil
  issues _ _ h := by simp [Import.start] at h
  epics _ _ h := by simp [Import.start] at h

variable {s : Import}

theorem FirstPass.createEpic (h : FirstPass db s) (projectId : Uuid) {row : ParsedRow}
    (hfree : s.db.epic? row.newId = none) :
    FirstPass db { s with
      db := Backlog.createEpic row.newId projectId none s.db
      epicById := s.epicById.insert row.externalId row.newId
      epicByKey := s.epicByKey.insert row.externalKey row.newId } := by
  obtain ⟨hissues, hepics⟩ := createEpic_free hfree projectId
  have hissue : (Backlog.createEpic row.newId projectId none s.db).issue? = s.db.issue? := by
    funext k
    rw [Db.issue?, hissues]
    rfl
  refine ⟨h.sound.createEpic row.newId projectId none, ?_, ?_, h.fresh, ?_, h.nodup, h.issues, ?_⟩
  · funext k
    rw [← h.parents, Db.parent?, hissue]
    rfl
  · intro id hid
    rw [hissue]
    exact h.grown id hid
  · intro created hcreated
    rw [hissue]
    exact h.present created hcreated
  · intro key id hid
    rw [hepics]
    have hcases : id = row.newId ∨ s.epicById key = some id ∨ s.epicByKey key = some id := by
      rcases hid with hid | hid
      · exact (RefMap.insert_eq_some hid).imp_right Or.inl
      · exact (RefMap.insert_eq_some hid).imp_right Or.inr
    rcases hcases with rfl | hold
    · simp
    · rw [h.epics key id hold, Bool.or_true]

theorem FirstPass.createIssue (h : FirstPass db s) (projectId : Uuid) {row : ParsedRow}
    (hfree : s.db.issue? row.newId = none) :
    FirstPass db { s with
      db := Backlog.createIssue row.newId projectId none none none s.db
      byId := s.byId.insert row.externalId row.newId
      byKey := s.byKey.insert row.externalKey row.newId
      created := s.created ++ [row] } := by
  obtain ⟨issue, hparent, hepics, hissue⟩ := createIssue_free hfree projectId
  have hgrown : ∀ id, (s.db.issue? id).isSome →
      ((Backlog.createIssue row.newId projectId none none none s.db).issue? id).isSome := by
    intro id hid
    rw [hissue, Function.update_apply]
    split
    · rfl
    · exact hid
  refine ⟨h.sound.createIssue row.newId projectId none none none, ?_,
    fun id hid => hgrown id (h.grown id hid), ?_, ?_, ?_, ?_, ?_⟩
  · rw [parent?_insert hissue, hparent, ← h.parents, Function.update_eq_self_iff, Db.parent?, hfree]
    rfl
  · intro created hcreated
    rcases List.mem_append.mp hcreated with hold | hnew
    · exact h.fresh created hold
    · obtain rfl := List.mem_singleton.mp hnew
      by_contra hsome
      have := h.grown created.newId (Option.isSome_iff_ne_none.mpr hsome)
      rw [hfree] at this
      cases this
  · intro created hcreated
    rcases List.mem_append.mp hcreated with hold | hnew
    · exact hgrown _ (h.present created hold)
    · obtain rfl := List.mem_singleton.mp hnew
      simp [hissue]
  · rw [List.map_append, List.map_singleton]
    apply h.nodup.append (List.nodup_singleton _)
    rw [List.disjoint_singleton]
    intro hmem
    obtain ⟨created, hcreated, hsame⟩ := List.mem_map.mp hmem
    have := h.present created hcreated
    rw [hsame, hfree] at this
    cases this
  · intro key id hid
    have hcases : id = row.newId ∨ s.byId key = some id ∨ s.byKey key = some id := by
      rcases hid with hid | hid
      · exact (RefMap.insert_eq_some hid).imp_right Or.inl
      · exact (RefMap.insert_eq_some hid).imp_right Or.inr
    rw [List.map_append, List.mem_append, List.map_singleton, List.mem_singleton]
    exact hcases.symm.imp_left (h.issues key id)
  · intro key id hid
    rw [Db.epic?, hepics]
    exact h.epics key id hid

theorem FirstPass.createRow (h : FirstPass db s) (projectId : Uuid) (row : ParsedRow) :
    FirstPass db (s.createRow projectId row) := by
  unfold Import.createRow
  split
  · split
    · exact h
    · rename_i hfree
      rw [Bool.or_eq_true, not_or, Option.not_isSome_iff_eq_none] at hfree
      exact h.createEpic projectId hfree.2
  · split
    · exact h
    · rename_i hfree
      rw [Bool.or_eq_true, not_or, Option.not_isSome_iff_eq_none] at hfree
      exact h.createIssue projectId hfree.2

theorem firstPass (h : Sound db) (projectId : Uuid) (rows : List ParsedRow) :
    FirstPass db (Import.firstPass projectId rows db) := by
  unfold Import.firstPass
  suffices hfold : ∀ s, FirstPass db s → FirstPass db (rows.foldl (Import.createRow projectId) s) from
    hfold _ (firstPass_start h)
  induction rows with
  | nil => exact fun s hs => hs
  | cons row rows ih => exact fun s hs => ih _ (hs.createRow projectId row)

/-! The second pass. -/

theorem importLinks_exec {parentId epicId : Option Uuid} (hissue : (db.issue? id).isSome)
    (hparent : ∀ p, parentId = some p → (db.issue? p).isSome)
    (hepic : ∀ e, epicId = some e → (db.epic? e).isSome) :
    (importLinks id parentId epicId db).parent? =
        Function.update db.parent? id (parentId.or (db.parent? id)) ∧
      (importLinks id parentId epicId db).epics = db.epics ∧
      ∀ k, ((importLinks id parentId epicId db).issue? k).isSome = (db.issue? k).isSome := by
  have hrefs : (references epicId db.epic? && references parentId db.issue?) = true := by
    rw [Bool.and_eq_true, references, references, Option.all_eq_true, Option.all_eq_true]
    exact ⟨hepic, hparent⟩
  obtain ⟨old, hold⟩ := Option.isSome_iff_exists.mp hissue
  obtain rfl : old.id = id := Table.key_of_find? hold
  have hlink : db.parent? old.id = old.parentId := by
    rw [Db.parent?, hold]
    rfl
  rw [importLinks, if_pos hrefs, hlink]
  refine ⟨parent?_updateIssues_one hold (fun issue hid => by simpa using hid) (by simp), rfl, ?_⟩
  exact fun k => isSome_issue?_updateIssues _ _ _ db k

/-- The rows and the ids that links lead to are in the tables. -/
structure Linkable (s : Import) (rows : List ParsedRow) (db : Db) : Prop where
  rows : ∀ row ∈ rows, (db.issue? row.newId).isSome
  parents : ∀ row p, s.parentOf row = some p → (db.issue? p).isSome
  epics : ∀ row e, s.epicOf row = some e → (db.epic? e).isSome

/-- The second pass writes the links of the file over the old ones. -/
theorem parent?_linkRows {rows : List ParsedRow} (hlinkable : Linkable s rows db)
    (hnodup : (rows.map (·.newId)).Nodup) :
    (rows.foldl s.linkRow db).parent? = fun id => (links s rows id).or (db.parent? id) := by
  induction rows generalizing db with
  | nil => rfl
  | cons row rows ih =>
    rw [List.map_cons, List.nodup_cons] at hnodup
    have hstep : (s.linkRow db row).parent? = Function.update db.parent? row.newId
          ((if row.linkFails then none else s.parentOf row).or (db.parent? row.newId)) ∧
        Linkable s rows (s.linkRow db row) := by
      unfold Import.linkRow
      split
      · rename_i hlink
        rw [Bool.and_eq_true, Bool.not_eq_true'] at hlink
        obtain ⟨hparent, hepics, hissues⟩ := importLinks_exec
          (hlinkable.rows row List.mem_cons_self) (hlinkable.parents row) (hlinkable.epics row)
        refine ⟨?_, ?_, ?_, ?_⟩
        · rw [hlink.2]
          exact hparent
        · intro other hother
          rw [Stmt.exec, hissues]
          exact hlinkable.rows other (List.mem_cons_of_mem _ hother)
        · intro other p hp
          rw [Stmt.exec, hissues]
          exact hlinkable.parents other p hp
        · intro other e he
          rw [Stmt.exec, Db.epic?, hepics]
          exact hlinkable.epics other e he
      · rename_i hlink
        have hnone : (if row.linkFails then none else s.parentOf row) = none := by
          cases hfails : row.linkFails with
          | true => rfl
          | false =>
            rw [hfails, Bool.not_false, Bool.and_true, Bool.or_eq_true, not_or] at hlink
            exact Option.not_isSome_iff_eq_none.mp hlink.1
        rw [hnone, Option.none_or, Function.update_eq_self]
        exact ⟨rfl, fun other hother => hlinkable.rows other (List.mem_cons_of_mem _ hother),
          hlinkable.parents, hlinkable.epics⟩
    rw [List.foldl_cons, ih hstep.2 hnodup.2, hstep.1]
    funext id
    by_cases hid : id = row.newId
    · subst hid
      have hrest : links s rows row.newId = none := by
        rw [links, List.find?_eq_none.mpr]
        · rfl
        · intro other hother
          rw [beq_iff_eq]
          exact fun hsame => hnodup.1 (List.mem_map.mpr ⟨other, hother, hsame⟩)
      rw [hrest, Function.update_self, Option.none_or, links, List.find?_cons_of_pos (by simp)]
      rfl
    · rw [Function.update_of_ne hid, links, links, List.find?_cons_of_neg]
      simpa using Ne.symm hid

theorem sound_linkRows {rows : List ParsedRow} (h : Sound db) :
    Sound (rows.foldl s.linkRow db) := by
  induction rows generalizing db with
  | nil => exact h
  | cons row rows ih =>
    apply ih
    unfold Import.linkRow
    split
    · exact h.importLinks ..
    · exact h

/-- An import keeps the forest if and only if the links of its file form one. -/
theorem forest_importCommit_iff (hsound : Sound db) (hforest : Forest db) (projectId : Uuid)
    (rows : List ParsedRow) :
    Forest (importCommit projectId rows db) ↔
      Acyclic (links (Import.firstPass projectId rows db)
        (Import.firstPass projectId rows db).created) := by
  have hpass := firstPass hsound projectId rows
  rw [importCommit]
  generalize Import.firstPass projectId rows db = s at hpass ⊢
  have hparentOf : ∀ row p, s.parentOf row = some p → p ∈ s.created.map (·.newId) := by
    intro row p hp
    apply hpass.issues row.parentRef
    rw [Import.parentOf, Option.or_eq_some_iff] at hp
    exact hp.imp_right (·.2)
  have hlinkable : Linkable s s.created s.db := by
    refine ⟨hpass.present, ?_, ?_⟩
    · intro row p hp
      obtain ⟨created, hcreated, rfl⟩ := List.mem_map.mp (hparentOf row p hp)
      exact hpass.present created hcreated
    · intro row e he
      apply hpass.epics row.epicRef
      rw [Import.epicOf, Option.or_eq_some_iff] at he
      rcases he with he | ⟨_, he⟩
      · exact Or.inr he
      · exact Or.inl he
  have hlinks : ∀ id above, links s s.created id = some above →
      id ∈ s.created.map (·.newId) ∧ above ∈ s.created.map (·.newId) := by
    intro id above habove
    obtain ⟨row, hrow, hparent⟩ := Option.bind_eq_some_iff.mp habove
    have hid : row.newId = id := by simpa using List.find?_some hrow
    refine ⟨hid ▸ List.mem_map_of_mem (List.mem_of_find?_eq_some hrow), ?_⟩
    split at hparent
    · cases hparent
    · exact hparentOf row above hparent
  have hfresh : ∀ id, id ∈ s.created.map (·.newId) → db.issue? id = none := by
    intro id hid
    obtain ⟨row, hrow, rfl⟩ := List.mem_map.mp hid
    exact hpass.fresh row hrow
  rw [Forest, parent?_linkRows hlinkable hpass.nodup, hpass.parents]
  apply acyclic_overlay_iff (· ∈ s.created.map (·.newId)) hforest
  · intro id hid
    rw [Db.parent?, hfresh id hid, Option.bind_none, Option.or_none]
  · intro id hid
    cases hlink : links s s.created id with
    | none => rfl
    | some above => exact absurd (hlinks id above hlink).1 hid
  · exact hlinks
  · intro id above _ habove hin
    have hsome := hsound.parentKeys id above habove
    rw [hfresh above hin] at hsome
    cases hsome

theorem sound_importCommit (h : Sound db) (projectId : Uuid) (rows : List ParsedRow) :
    Sound (importCommit projectId rows db) :=
  sound_linkRows (firstPass h projectId rows).sound

/-! ## Every request -/

/-- A request that keeps the hierarchy a forest: every creation and deletion,
a PATCH whose cycle check sees far enough, a file whose links form a forest. -/
def Api.Request.Safe : Request → Db → Prop
  | .createIssue .., _ => True
  | .updateIssue projectId id header patch c, db => SafePatch projectId id header patch c db
  | .deleteIssue .., _ => True
  | .importCommit projectId rows, db =>
      Acyclic (links (Import.firstPass projectId rows db)
        (Import.firstPass projectId rows db).created)

/-- A new issue has no children yet. -/
theorem forest_createIssue (hsound : Sound db) (hforest : Forest db) (id projectId : Uuid)
    (epicId parentId milestoneId : Option Uuid) :
    Forest (createIssue id projectId epicId parentId milestoneId db) := by
  rcases createIssue_cases id projectId epicId parentId milestoneId db with
    ⟨hsame, _⟩ | ⟨row, rfl, hfree, hrefs, _, hissue⟩
  · rw [hsame]
    exact hforest
  · rw [Forest, parent?_insert hissue]
    apply Acyclic.hang hforest
    · intro child hchild
      have hsome := hsound.parentKeys child id hchild
      rw [hfree] at hsome
      cases hsome
    · intro hself
      have hsome := isSome_of_references hrefs hself
      rw [hfree] at hsome
      cases hsome

theorem forest_softDeleteIssue (hforest : Forest db) (projectId id : Uuid) :
    Forest (softDeleteIssue projectId id db) := by
  have hlinks : (softDeleteIssue projectId id db).parent? = db.parent? :=
    parent?_updateIssues_of_eq fun _ => rfl
  rw [Forest, hlinks]
  exact hforest

theorem createIssue_ok {newId : Uuid} {req : CreateIssueRequest} {c : Circumstances} {stmt : Stmt}
    (h : Api.createIssue projectId newId req c db = .ok stmt) :
    stmt = .createIssue newId projectId req.epicId req.parentId none := by
  simp only [Api.createIssue, bind_eq_ok, pure, Except.pure, Except.ok.injEq] at h
  obtain ⟨_, _, _, _, _, _, _, _, _, _, rfl⟩ := h
  rfl

theorem deleteIssue_ok {c : Circumstances} {stmt : Stmt}
    (h : Api.deleteIssue projectId id c = .ok stmt) : stmt = .softDeleteIssue projectId id := by
  simp only [Api.deleteIssue, bind_eq_ok, pure, Except.pure, Except.ok.injEq] at h
  obtain ⟨_, _, _, _, rfl⟩ := h
  rfl

/-- One request keeps the forest if and only if it is safe. -/
theorem forest_handle_iff (hsound : Sound db) (hforest : Forest db) (request : Request) :
    Forest (request.handle db) ↔ request.Safe db := by
  cases request with
  | createIssue projectId newId req c =>
    refine iff_of_true ?_ trivial
    simp only [Request.handle]
    cases hdecision : Api.createIssue projectId newId req c db with
    | error problem => exact hforest
    | ok stmt =>
      rw [createIssue_ok hdecision]
      exact forest_createIssue hsound hforest newId projectId req.epicId req.parentId none
  | updateIssue projectId id header patch c => exact forest_updateIssue_iff hsound hforest
  | deleteIssue projectId id c =>
    refine iff_of_true ?_ trivial
    simp only [Request.handle]
    cases hdecision : Api.deleteIssue projectId id c with
    | error problem => exact hforest
    | ok stmt =>
      rw [deleteIssue_ok hdecision]
      exact forest_softDeleteIssue hforest projectId id
  | importCommit projectId rows => exact forest_importCommit_iff hsound hforest projectId rows

theorem Sound.handle (h : Sound db) (request : Request) : Sound (request.handle db) := by
  cases request with
  | createIssue projectId newId req c =>
    simp only [Request.handle]
    cases hdecision : Api.createIssue projectId newId req c db with
    | error problem => exact h
    | ok stmt =>
      rw [createIssue_ok hdecision]
      exact h.createIssue ..
  | updateIssue projectId id header patch c =>
    simp only [Request.handle]
    cases hdecision : Api.updateIssue projectId id header patch c db with
    | error problem => exact h
    | ok stmt =>
      obtain ⟨old, _, _, _, _, rfl⟩ := updateIssue_ok_iff.mp hdecision
      exact h.updateIssue ..
  | deleteIssue projectId id c =>
    simp only [Request.handle]
    cases hdecision : Api.deleteIssue projectId id c with
    | error problem => exact h
    | ok stmt =>
      rw [deleteIssue_ok hdecision]
      exact h.softDeleteIssue ..
  | importCommit projectId rows => exact sound_importCommit h projectId rows

theorem serve_append (db : Db) (earlier : List (Int × Request)) (entry : Int × Request) :
    serve db (earlier ++ [entry]) = entry.2.handle { serve db earlier with now := entry.1 } := by
  rw [serve, List.foldl_append]
  rfl

theorem sound_serve (h : Sound db) (requests : List (Int × Request)) :
    Sound (serve db requests) := by
  induction requests using List.reverseRec with
  | nil => exact h
  | append_singleton earlier entry ih =>
    rw [serve_append]
    exact (ih.at entry.1).handle entry.2

/-- The hierarchy is a forest throughout a run if and only if every request is
safe where it runs. -/
theorem issue_forest_iff (db : Db) (hsound : Sound db) (hforest : Forest db)
    (requests : List (Int × Request)) :
    (∀ earlier later, requests = earlier ++ later → Forest (serve db earlier)) ↔
      ∀ earlier entry later, requests = earlier ++ entry :: later →
        entry.2.Safe { serve db earlier with now := entry.1 } := by
  constructor
  · intro h earlier entry later hsplit
    have hbefore : Forest (serve db earlier) := h earlier (entry :: later) hsplit
    have hafter : Forest (serve db (earlier ++ [entry])) :=
      h (earlier ++ [entry]) later (by rw [hsplit, List.append_assoc]; rfl)
    rw [serve_append] at hafter
    exact (forest_handle_iff ((sound_serve hsound earlier).at entry.1) hbefore entry.2).mp hafter
  · intro h earlier
    induction earlier using List.reverseRec with
    | nil => exact fun _ _ => hforest
    | append_singleton earlier entry ih =>
      intro later hsplit
      rw [List.append_assoc] at hsplit
      have hbefore : Forest (serve db earlier) := ih (entry :: later) hsplit
      rw [serve_append]
      exact (forest_handle_iff ((sound_serve hsound earlier).at entry.1) hbefore entry.2).mpr
        (h earlier entry later hsplit)

theorem sound_empty : Sound .empty :=
  ⟨⟨fun _ h => absurd h (by simp [Db.empty, Table.empty]),
    fun _ h => absurd h (by simp [Db.empty, Table.empty])⟩, fun _ _ h => nomatch h⟩

theorem forest_empty : Forest .empty := by
  intro id hcycle
  obtain ⟨above, hstep, _⟩ := TransGen.head'_iff.mp hcycle
  cases hstep

/-- Two issues, one below the other, and a PATCH that would close the cycle. -/
def familyRequests : List (Int × Request) :=
  [(0, .createIssue 9 1 ⟨none, none, none⟩ {}), (1, .createIssue 9 2 ⟨none, some 1, none⟩ {}),
    (2, .updateIssue 9 1 .any ⟨none, some (some 2), none⟩ {})]

theorem issue_forest_iff_family :
    (∀ earlier later, familyRequests = earlier ++ later → Forest (serve .empty earlier)) ↔
      ∀ earlier entry later, familyRequests = earlier ++ entry :: later →
        entry.2.Safe { serve .empty earlier with now := entry.1 } :=
  issue_forest_iff .empty sound_empty forest_empty familyRequests

/-- A file of two rows that are each other's parent. -/
def circularFile : List ParsedRow :=
  [{ externalId := "1", externalKey := "1", parentRef := "2", epicRef := "", isEpic := false,
     newId := 1 },
   { externalId := "2", externalKey := "2", parentRef := "1", epicRef := "", isEpic := false,
     newId := 2 }]

theorem forest_broken_by_import :
    ¬ ∀ requests : List (Int × Request), Forest (serve .empty requests) := by
  intro h
  have hfirst : (serve .empty [(0, .importCommit 9 circularFile)]).parent? 1 = some 2 := by
    decide +kernel
  have hsecond : (serve .empty [(0, .importCommit 9 circularFile)]).parent? 2 = some 1 := by
    decide +kernel
  exact h [(0, .importCommit 9 circularFile)] 1 (TransGen.tail (TransGen.single hfirst) hsecond)

end IntelliPilot.Backlog
