import IntelliPilot.Taxonomy.Edits

/-! # Deletions among writes of issues

A deletion counts the references to the item before it deletes it. Whoever has
the item when it goes was given it after that count, so a run of interleaved
statements takes an item off an issue exactly where a write comes in between.
-/

namespace IntelliPilot.Taxonomy

open Http Statement
open Service (initial)
open Imports (Uuid TaxonomyKind)

variable {F : Type} {ar : Arithmetic F}

/-- What happens in a run of the handlers. -/
abbrev Happening (F : Type) := Event (Stmt F) (Request F) (Except Problem (Answer F))

abbrev Worlds (F : Type) := World (Stmt F) (Db F) (Request F) (Except Problem (Answer F))

/-- The write puts the item on the issue. -/
def Puts (item issueId : Uuid) : Happening F → Prop
  | .ran (.insertIssue _ w) (.ok issue) => issue.id = issueId ∧ w.carries item
  | .ran (.updateIssue _ id _ w) (.ok (some _)) => id = issueId ∧ w.carries item
  | _ => False

/-- Nothing refers to the item. -/
def unused (item : Uuid) : Happening F := .ran (.referenceCount item) (.ok 0)

/-! ## What a statement puts on issues -/

variable {item : Uuid}

theorem carries_without {w : IssueWrite} {gone : Uuid} (h : (w.without gone).carries item) :
    w.carries item := by
  have hfilter : ∀ {id : Option Uuid}, id.filter (· != gone) = some item → id = some item :=
    fun h => (Option.filter_eq_some_iff.mp h).1
  simp only [IssueWrite.carries, IssueWrite.without, Bool.or_eq_true, beq_iff_eq] at h ⊢
  rcases h with ((h | h) | h) | h
  · exact .inl (.inl (.inl (hfilter h)))
  · exact .inl (.inl (.inr (hfilter h)))
  · exact .inl (.inr (hfilter h))
  · exact .inr (hfilter h)

/-- Whoever has the item had it before, or is given it by the statement. -/
def Accounted (item : Uuid) (db : Db F) (event : Happening F) (db' : Db F) : Prop :=
  ∀ issue ∈ db'.issues.rows, issue.carries item →
    (∃ old ∈ db.issues.rows, old.id = issue.id ∧ old.carries item) ∨ Puts item issue.id event

theorem accounted_of_issues {db db' : Db F} {event : Happening F} (h : db'.issues = db.issues) :
    Accounted item db event db' := by
  intro issue hissue hcarries
  rw [h] at hissue
  exact .inl ⟨issue, hissue, rfl, hcarries⟩

theorem accounted_insertIssue (item projectId : Uuid) (w : IssueWrite) (db : Db F) :
    Accounted item db (.ran (.insertIssue projectId w) (db.insertIssue projectId w).1)
      (db.insertIssue projectId w).2 := by
  unfold Db.insertIssue
  split
  · intro issue hissue hcarries
    rcases List.mem_append.mp hissue with hold | hnew
    · exact .inl ⟨issue, hold, rfl, hcarries⟩
    · rw [List.mem_singleton.mp hnew] at hcarries ⊢
      exact .inr ⟨rfl, hcarries⟩
  · exact accounted_of_issues rfl

theorem accounted_updateIssue (item projectId id : Uuid) (version : Nat) (w : IssueWrite)
    (db : Db F) :
    Accounted item db (.ran (.updateIssue projectId id version w)
      (db.updateIssue projectId id version w).1) (db.updateIssue projectId id version w).2 := by
  unfold Db.updateIssue
  split
  · exact accounted_of_issues rfl
  · split
    · intro issue hissue hcarries
      obtain ⟨old, hold, rfl⟩ := Rows.mem_updateWhere.mp hissue
      split at hcarries
      · rename_i hid
        rw [if_pos hid]
        exact .inr ⟨(beq_iff_eq.mp hid).symm, hcarries⟩
      · rename_i hid
        rw [if_neg hid]
        exact .inl ⟨old, hold, rfl, hcarries⟩
    · exact accounted_of_issues rfl

theorem accounted_softDelete (item projectId id : Uuid) (event : Happening F) (db : Db F) :
    Accounted item db event (db.softDelete projectId id).2 := by
  unfold Db.softDelete
  split
  · exact accounted_of_issues rfl
  · intro issue hissue hcarries
    obtain ⟨old, hold, rfl⟩ := Rows.mem_updateWhere.mp hissue
    refine .inl ⟨old, hold, ?_, ?_⟩
    · split
      · rfl
      · rfl
    · split at hcarries
      · exact hcarries
      · exact hcarries

theorem accounted_deleteItem (item projectId : Uuid) (kind : TaxonomyKind) (id : Uuid)
    (event : Happening F) (db : Db F) :
    Accounted item db event (db.deleteItem projectId kind id).2 := by
  unfold Db.deleteItem
  split
  · exact accounted_of_issues rfl
  · intro issue hissue hcarries
    obtain ⟨old, hold, rfl⟩ := Rows.mem_updateWhere.mp hissue
    refine .inl ⟨old, hold, ?_, ?_⟩
    · split
      · rfl
      · rfl
    · split at hcarries
      · exact carries_without hcarries
      · exact hcarries

theorem issues_setOrder (projectId : Uuid) (kind : TaxonomyKind) (id : Uuid) (rank : F)
    (db : Db F) : (db.setOrder projectId kind id rank).2.issues = db.issues := by
  unfold Db.setOrder
  split
  · rfl
  · rfl

theorem issues_setOrders (projectId : Uuid) (kind : TaxonomyKind) (ranks : List (Uuid × F))
    (db : Db F) : (db.setOrders projectId kind ranks).issues = db.issues := by
  unfold Db.setOrders
  induction ranks generalizing db with
  | nil => rfl
  | cons rank ranks ih =>
    exact (ih _).trans (issues_setOrder projectId kind rank.1 rank.2 db)

variable {β : Type}

theorem accounted_exec (ar : Arithmetic F) (item : Uuid) (stmt : Stmt F β) (choice : Choice)
    (db : Db F) :
    Accounted item db (.ran stmt (stmt.exec ar choice db).1) (stmt.exec ar choice db).2 := by
  cases hfails : choice.fails with
  | true =>
    rw [exec_of_fails hfails]
    exact accounted_of_issues rfl
  | false =>
    rw [exec_of_runs hfails]
    have hwait : ∀ {event db'}, Accounted item (db.wait choice.elapse) event db' →
        Accounted item db event db' := fun h => h
    apply hwait
    cases stmt with
    | insertIssue projectId w => exact accounted_insertIssue item projectId w _
    | updateIssue projectId id version w =>
      exact accounted_updateIssue item projectId id version w _
    | softDelete projectId id => exact accounted_softDelete item projectId id _ _
    | deleteItem projectId kind id => exact accounted_deleteItem item projectId kind id _ _
    | setOrder projectId kind id rank =>
      exact accounted_of_issues (issues_setOrder projectId kind id rank _)
    | setOrders projectId kind ranks =>
      exact accounted_of_issues (issues_setOrders projectId kind ranks _)
    | insertItem projectId kind new order =>
      apply accounted_of_issues
      simp only [Stmt.effect, Db.insertItem]
      split
      · rfl
      · rfl
    | updateItem projectId kind id patch =>
      apply accounted_of_issues
      simp only [Stmt.effect, Db.updateItem]
      split
      · rfl
      · split
        · rfl
        · rfl
    | insertEpic projectId statusId =>
      apply accounted_of_issues
      simp only [Stmt.effect, Db.insertEpic]
      split
      · rfl
      · rfl
    | updateEpic projectId id version statusId =>
      apply accounted_of_issues
      simp only [Stmt.effect, Db.updateEpic]
      split
      · rfl
      · split
        · rfl
        · rfl
    | clearIsNew _ | newStatusId _ | list _ _ | maxOrder _ _ | referenceCount _ | selectIssue _ _
    | selectEpic _ _ => exact accounted_of_issues rfl

/-! ## Since an item was unused -/

/-- Since it was last seen unused, every issue that has the item was given it. -/
def Witnessed (w : Worlds F) : Prop :=
  ∀ later earlier i item, w.log = later ++ (i, unused item) :: earlier →
    ∀ issue ∈ w.state.issues.rows, issue.carries item →
      ∃ entry ∈ later, Puts item issue.id entry.2

/-- The count that finds an item unused finds no issue that has it. -/
theorem free_of_unused (ar : Arithmetic F) {stmt : Stmt F β} {choice : Choice} {db : Db F}
    (h : (.ran stmt (stmt.exec ar choice db).1 : Happening F) = unused item) :
    ∀ issue ∈ (stmt.exec ar choice db).2.issues.rows, issue.carries item = false := by
  unfold unused at h
  injection h with hβ hstmt hresult
  subst hβ
  obtain rfl := eq_of_heq hstmt
  have hcount := eq_of_heq hresult
  cases hfails : choice.fails with
  | true =>
    rw [exec_of_fails hfails] at hcount
    contradiction
  | false =>
    rw [exec_of_runs hfails] at hcount ⊢
    simp only [Stmt.effect, Db.referenceCount, Except.ok.injEq, Nat.add_eq_zero_iff,
      List.length_eq_zero_iff, List.filter_eq_nil_iff, Bool.not_eq_true] at hcount ⊢
    exact hcount.2

variable {w : Worlds F}

theorem witnessed_perform (h : Witnessed w) (i : Nat) (stmt : Stmt F β) (choice : Choice) :
    Witnessed ((service ar).perform i stmt choice w) := by
  intro later earlier j item hlog issue hissue hcarries
  rw [Service.perform_log] at hlog
  cases later with
  | nil =>
    obtain ⟨hevent, -⟩ := List.cons.inj hlog
    have hfree := free_of_unused ar (Prod.mk.inj hevent).2 issue hissue
    rw [hfree] at hcarries
    contradiction
  | cons entry later =>
    obtain ⟨hentry, hrest⟩ := List.cons.inj hlog
    rw [← hentry]
    rcases accounted_exec ar item stmt choice w.state issue hissue hcarries with
      ⟨old, hold, hid, hcarried⟩ | hputs
    · obtain ⟨entry, hmem, hputs⟩ := h later earlier j item hrest old hold hcarried
      rw [hid] at hputs
      exact ⟨entry, List.mem_cons_of_mem _ hmem, hputs⟩
    · exact ⟨_, List.mem_cons_self, hputs⟩

theorem witnessed_record (h : Witnessed w) (i : Nat) {event : Happening F}
    (hevent : ∀ item, event ≠ unused item) : Witnessed (w.record i event w.state) := by
  intro later earlier j item hlog issue hissue hcarries
  cases later with
  | nil => exact absurd (Prod.mk.inj (List.cons.inj hlog).1).2 (hevent item)
  | cons entry later =>
    obtain ⟨_, hrest⟩ := List.cons.inj hlog
    obtain ⟨entry, hmem, hputs⟩ := h later earlier j item hrest issue hissue hcarries
    exact ⟨entry, List.mem_cons_of_mem _ hmem, hputs⟩

theorem witnessed_run (ar : Arithmetic F) (db : Db F) (labels : List (Label (Request F) Choice)) :
    Witnessed ((service ar).run (initial db) labels).world := by
  refine (service ar).stepOf_run (P := fun _ {_} _ => True) (fun _ => Prog.only_true _) ?_
    (Service.attributed_initial db) ?_ labels
  · intro w w' hstep hw
    cases hstep with
    | void => exact hw
    | began i request
    | answered i request answer hbegan => exact witnessed_record hw i fun _ => nofun
    | issued i request stmt choice hbegan hmay => exact witnessed_perform hw i stmt choice
  · intro later earlier i item hlog
    exact absurd hlog (by simp [initial])

/-! ## Who deletes -/

/-- No statement but the last of `delete`. -/
def Deletes {β : Type} : Stmt F β → Prop
  | .deleteItem _ _ _ => True
  | _ => False

/-- A program has counted the references to what it has just deleted. -/
def CountsFirst : List (Happening F) → Prop
  | .ran (.deleteItem _ _ item) _ :: events => unused item ∈ events
  | _ => True

theorem countsFirst_of_not {stmt : Stmt F β} (h : ¬Deletes stmt) (result : β)
    (events : List (Happening F)) : CountsFirst (.ran stmt result :: events) := by
  cases stmt with
  | deleteItem _ _ _ => exact (h trivial).elim
  | _ => trivial

section Handlers

/-- Statements other than the last of `delete`. -/
def Spares {β : Type} (stmt : Stmt F β) : Prop := ¬Deletes stmt

theorem spares_makeRoom (projectId : Uuid) (isNew : Option Bool) :
    (makeRoom projectId isNew : Handler F Unit).run.Only Spares := by
  unfold makeRoom
  split
  · exact only_orRefuse nofun _
  · trivial

theorem spares_create (ctx : Context) (kind : String) (body : Body (CreateTaxonomyItemRequest F)) :
    (create ar ctx kind body).run.Only Spares := by
  unfold create
  refine only_run_bind (only_refuseUnless _ _) fun _ => ?_
  refine only_run_bind (only_given _) fun kind => ?_
  refine only_run_bind (only_given _) fun req => ?_
  refine only_run_bind (spares_makeRoom _ _) fun _ => ?_
  refine only_run_bind (only_orRefuse nofun _) fun last => ?_
  exact only_run_bind (only_attempted nofun) fun _ => only_given _

theorem spares_update (ctx : Context) (kind : String) (id : Option Uuid)
    (body : Body (UpdateTaxonomyItemRequest F)) : (update ctx kind id body).run.Only Spares := by
  unfold update
  refine only_run_bind (only_refuseUnless _ _) fun _ => ?_
  refine only_run_bind (only_given _) fun kind => ?_
  refine only_run_bind (only_given _) fun id => ?_
  refine only_run_bind (only_given _) fun req => ?_
  refine only_run_bind (spares_makeRoom _ _) fun _ => ?_
  refine only_run_bind (only_orRefuse nofun _) fun item => ?_
  exact only_run_bind (only_given _) fun _ => trivial

theorem spares_moveItem (ctx : Context) (kind : String) (id : Option Uuid)
    (body : Body MoveTaxonomyItemRequest) : (moveItem ar ctx kind id body).run.Only Spares := by
  unfold moveItem
  refine only_run_bind (only_refuseUnless _ _) fun _ => ?_
  refine only_run_bind (only_given _) fun kind => ?_
  refine only_run_bind (only_given _) fun id => ?_
  refine only_run_bind (only_given _) fun req => ?_
  refine only_run_bind (only_orRefuse nofun _) fun items => ?_
  refine only_run_bind (only_refuseUnless _ _) fun _ => ?_
  split
  · refine only_run_bind (only_orRefuse nofun _) fun moved => ?_
    exact only_run_bind (only_refuseUnless _ _) fun _ => trivial
  · exact only_run_bind (only_orRefuse nofun _) fun _ => trivial

theorem spares_insertNew (projectId : Uuid) (w : IssueWrite) :
    (insertNew projectId w : Handler F Issue).run.Only Spares := by
  unfold insertNew
  cases w.statusId with
  | some id => exact only_orRefuse nofun _
  | none => exact only_run_bind (only_orRefuse nofun _) fun _ => only_orRefuse nofun _

theorem spares_insertAll (projectId : Uuid) (ws : List IssueWrite) :
    (insertAll projectId ws : Handler F (List Issue)).run.Only Spares := by
  induction ws with
  | nil => trivial
  | cons w ws ih =>
    refine only_run_bind (spares_insertNew projectId w) fun _ => ?_
    exact only_run_bind ih fun _ => trivial

theorem spares_importRows (projectId : Uuid) (rows : List ImportRow) :
    (importRows projectId rows : Handler F (Nat × Nat)).run.Only Spares := by
  induction rows with
  | nil => trivial
  | cons row rows ih =>
    cases row with
    | inl w =>
      refine only_run_bind (Prog.only_bind (spares_insertNew projectId w) fun _ => trivial)
        fun _ => ?_
      exact only_run_bind ih fun _ => trivial
    | inr statusId =>
      refine only_run_bind (only_attempted nofun) fun _ => ?_
      exact only_run_bind ih fun _ => trivial

theorem spares_updateIssue (projectId id : Uuid) (header : Backlog.Api.IfMatch)
    (body : Except Problem UpdateIssueRequest) (checks : Except Problem Unit) :
    (updateIssue projectId id header body checks : Handler F (Answer F)).run.Only Spares := by
  unfold updateIssue
  refine only_run_bind (only_given _) fun patch => ?_
  refine only_run_bind (only_orRefuse nofun _) fun row => ?_
  refine only_run_bind (only_given _) fun old => ?_
  refine only_run_bind (only_given _) fun _ => ?_
  refine only_run_bind (only_given _) fun _ => ?_
  refine only_run_bind (only_orRefuse nofun _) fun written => ?_
  cases written with
  | some issue => trivial
  | none =>
    refine only_run_bind (only_orRefuse nofun _) fun found => ?_
    split
    · trivial
    · trivial

theorem spares_updateEpic (projectId id : Uuid) (header : Backlog.Api.IfMatch)
    (body : Except Problem (Option (Option Uuid))) (checks : Except Problem Unit) :
    (updateEpic projectId id header body checks : Handler F (Answer F)).run.Only Spares := by
  unfold updateEpic
  refine only_run_bind (only_given _) fun patch => ?_
  refine only_run_bind (only_orRefuse nofun _) fun row => ?_
  refine only_run_bind (only_given _) fun old => ?_
  refine only_run_bind (only_given _) fun _ => ?_
  refine only_run_bind (only_given _) fun _ => ?_
  refine only_run_bind (only_orRefuse nofun _) fun written => ?_
  cases written with
  | some epic => trivial
  | none =>
    refine only_run_bind (only_orRefuse nofun _) fun found => ?_
    split
    · trivial
    · trivial

/-- Only a request to delete an item deletes one. -/
theorem spares_request (ar : Arithmetic F) (request : Request F)
    (h : ∀ ctx kind id, request ≠ .edit (.delete ctx kind id)) :
    (request.handler ar).run.Only Spares := by
  cases request with
  | edit edit =>
    cases edit with
    | create ctx kind body => exact spares_create ctx kind body
    | update ctx kind id body => exact spares_update ctx kind id body
    | delete ctx kind id => exact absurd rfl (h ctx kind id)
    | moveItem ctx kind id body => exact spares_moveItem ctx kind id body
  | createIssue projectId body =>
    refine only_run_bind (only_given _) fun w => ?_
    exact only_run_bind (spares_insertNew projectId w) fun _ => trivial
  | bulkCreateIssues projectId body =>
    refine only_run_bind (only_given _) fun ws => ?_
    exact only_run_bind (spares_insertAll projectId ws) fun _ => trivial
  | importIssues projectId rows =>
    exact only_run_bind (spares_importRows projectId rows) fun _ => trivial
  | updateIssue projectId id header body checks =>
    exact spares_updateIssue projectId id header body checks
  | deleteIssue projectId id checks =>
    refine only_run_bind (only_given _) fun _ => ?_
    refine only_run_bind (only_orRefuse nofun _) fun deleted => ?_
    exact only_run_bind (only_refuseUnless _ _) fun _ => trivial
  | createEpic projectId body =>
    refine only_run_bind (only_given _) fun statusId => ?_
    exact only_run_bind (only_orRefuse nofun _) fun _ => trivial
  | updateEpic projectId id header body checks =>
    exact spares_updateEpic projectId id header body checks

/-- A deletion is run once the references are counted, and there are none. -/
theorem recounts_delete (ctx : Context) (kind : String) (id : Option Uuid)
    (events : List (Happening F)) :
    Recounts CountsFirst (delete ctx kind id) (fun _ _ => True) (fun _ _ => True) events := by
  unfold delete
  refine recounts_bind (S := fun _ _ => True)
    (recounts_refuseUnless (fun _ => trivial) fun _ => trivial) fun _ events _ => ?_
  refine recounts_bind (S := fun _ _ => True)
    (recounts_given (fun _ _ => trivial) fun _ _ => trivial) fun kind events _ => ?_
  refine recounts_bind (S := fun _ _ => True)
    (recounts_given (fun _ _ => trivial) fun _ _ => trivial) fun id events _ => ?_
  refine recounts_bind (S := fun count events => .ran (.referenceCount id) (.ok count) ∈ events)
    (recounts_orRefuse (fun _ => trivial) (fun _ => List.mem_cons_self) fun _ => trivial)
    fun count events hcount => ?_
  refine recounts_bind (S := fun _ events => unused id ∈ events)
    (recounts_refuseUnless (fun hzero => ?_) fun _ => trivial) fun _ events hunused => ?_
  · rw [beq_iff_eq.mp hzero] at hcount
    exact hcount
  refine recounts_bind (S := fun _ _ => True)
    (recounts_orRefuse (fun _ => hunused) (fun _ => trivial) fun _ => trivial)
    fun deleted events _ => ?_
  refine recounts_bind (S := fun _ _ => True)
    (recounts_refuseUnless (fun _ => trivial) fun _ => trivial) fun _ events _ => ?_
  exact recounts_pure trivial

theorem tells_countsFirst :
    (service ar).TellsAll fun (_ : Request F) events => CountsFirst events := by
  intro request
  refine ⟨trivial, ?_⟩
  by_cases h : ∃ ctx kind id, request = .edit (.delete ctx kind id)
  · obtain ⟨ctx, kind, id, rfl⟩ := h
    exact (recounts_delete ctx kind id _).post fun _ _ _ => trivial
  · have hspares := spares_request ar request fun ctx kind id heq => h ⟨ctx, kind, id, heq⟩
    refine (Prog.tells_only (P := fun _ => True) ?_ hspares trivial).post fun _ _ _ => trivial
    intro β stmt result events hstmt _
    exact ⟨countsFirst_of_not hstmt result events, trivial⟩

end Handlers

/-! ## Deletions in a run -/

/-- No issue has lost its status, type, priority or size to the deletion of an item. -/
def KeepsReferences (i : Nat) (w w' : Worlds F) : Prop :=
  ∀ projectId kind item result,
    w'.log = (i, .ran (.deleteItem projectId kind item) result) :: w.log → ∀ id,
      (w'.state.issues.find? id).map (·.toIssueWrite) =
        (w.state.issues.find? id).map (·.toIssueWrite)

/-- An issue has the item that was put on it after program `i` found the item unused. -/
def Overtaken (i : Nat) (item : Uuid) (w : Worlds F) : Prop :=
  ∃ later earlier, w.log = later ++ (i, unused item) :: earlier ∧
    ∃ issue ∈ w.state.issues.rows, issue.carries item ∧ ∃ entry ∈ later, Puts item issue.id entry.2

/-- No deletion that goes through is overtaken. -/
def InTime (i : Nat) (w w' : Worlds F) : Prop :=
  ∀ projectId kind item,
    w'.log = (i, .ran (.deleteItem projectId kind item) (.ok true)) :: w.log → ¬Overtaken i item w

theorem not_carries_without (w : IssueWrite) (item : Uuid) :
    (w.without item).carries item = false := by
  have hfilter : ∀ id : Option Uuid, (id.filter (· != item) == some item) = false := by
    intro id
    cases hid : id.filter (· != item) with
    | none => rfl
    | some kept =>
      have hne := (Option.filter_eq_some_iff.mp hid).2
      simpa using hne
  simp only [IssueWrite.carries, IssueWrite.without, hfilter, Bool.or_false]

variable {projectId : Uuid} {kind : TaxonomyKind}

theorem references_deleteItem_iff {db : Db F}
    (hdeleted : (db.deleteItem projectId kind item).1 = true) :
    (∀ id, ((db.deleteItem projectId kind item).2.issues.find? id).map (·.toIssueWrite) =
        (db.issues.find? id).map (·.toIssueWrite)) ↔
      ∀ issue ∈ db.issues.rows, issue.carries item = false := by
  have hissues : (db.deleteItem projectId kind item).2.issues = db.issues.modify (·.carries item)
      (fun issue => { issue with toIssueWrite := issue.without item }) fun _ => rfl := by
    unfold Db.deleteItem at hdeleted ⊢
    split at hdeleted
    · contradiction
    · rfl
  have hfind : ∀ id, ((db.deleteItem projectId kind item).2.issues.find? id).map (·.toIssueWrite) =
      (db.issues.find? id).map fun issue =>
        if issue.carries item then issue.without item else issue.toIssueWrite := by
    intro id
    have hmodify := Table.find?_modify db.issues (·.carries item)
      (fun issue => { issue with toIssueWrite := issue.without item }) (fun _ => rfl) id
    rw [hissues, hmodify, Option.map_map]
    congr 1
    funext issue
    simp only [Function.comp_apply]
    split
    · rfl
    · rfl
  constructor
  · intro hkept issue hissue
    have hsame := hkept issue.id
    rw [hfind, Table.find?_key hissue, Option.map_some, Option.map_some, Option.some.injEq] at hsame
    by_contra hcarries
    rw [Bool.not_eq_false] at hcarries
    rw [if_pos hcarries] at hsame
    rw [← hsame, not_carries_without] at hcarries
    contradiction
  · intro hfree id
    rw [hfind]
    cases hfound : db.issues.find? id with
    | none => rfl
    | some issue =>
      rw [Option.map_some, Option.map_some, if_neg]
      rw [hfree issue (Table.mem_of_find? hfound)]
      exact Bool.false_ne_true

variable {result : Except DbError Bool}

/-- The step that a deletion in the log is of. -/
theorem deletion_step {w' : Worlds F}
    (hstep : Service.StepOf (service ar) (fun _ {_} _ => True) w w') {i : Nat}
    (hlog : w'.log = (i, .ran (.deleteItem projectId kind item) result) :: w.log) :
    ∃ choice, result = ((Stmt.deleteItem projectId kind item).exec ar choice w.state).1 ∧
      w'.state = ((Stmt.deleteItem projectId kind item).exec ar choice w.state).2 := by
  cases hstep with
  | void => exact absurd hlog.symm (List.cons_ne_self _ _)
  | began j request | answered j request answer hbegan =>
    exact absurd (Prod.mk.inj (List.cons.inj hlog).1).2 nofun
  | issued j request stmt choice hbegan hmay =>
    have hevent := (Prod.mk.inj (List.cons.inj hlog).1).2
    injection hevent with hβ hstmt hresult
    subst hβ
    obtain rfl := eq_of_heq hstmt
    exact ⟨choice, (eq_of_heq hresult).symm, rfl⟩

/-- Whoever deletes an item has found it unused. -/
theorem unused_of_deletion (db : Db F) (labels : List (Label (Request F) Choice)) {i : Nat}
    {log : List (Nat × Happening F)} (hlog : ((service ar).run (initial db) labels).world.log =
      (i, .ran (.deleteItem projectId kind item) result) :: log) : (i, unused item) ∈ log := by
  have hi := (service ar).started_run (Service.started_initial db) labels
    (i, .ran (.deleteItem projectId kind item) result) (by rw [hlog]; exact List.mem_cons_self)
  have hown := (service ar).own_run tells_countsFirst db labels i _ (List.getElem?_eq_getElem hi)
  have hevents : ((service ar).run (initial db) labels).world.own i =
      .ran (.deleteItem projectId kind item) result ::
        ((log.filter (·.1 == i)).map (·.2) : List (Happening F)) := by
    rw [World.own, hlog]
    simp
  rw [hevents] at hown
  have hmem : unused item ∈ (log.filter (·.1 == i)).map (·.2) := hown
  simpa using hmem

theorem keeps_iff_inTime (db : Db F) (first : List (Label (Request F) Choice))
    (label : Label (Request F) Choice) (i : Nat) :
    KeepsReferences i ((service ar).run (initial db) first).world
        ((service ar).step ((service ar).run (initial db) first) label).world ↔
      InTime i ((service ar).run (initial db) first).world
        ((service ar).step ((service ar).run (initial db) first) label).world := by
  have hstep := (service ar).stepOf ((service ar).attributed_run (P := fun _ {_} _ => True)
    (fun _ => Prog.only_true _) (Service.attributed_initial db) first) label
  have hrun : ((service ar).step ((service ar).run (initial db) first) label).world =
      ((service ar).run (initial db) (first ++ [label])).world := by
    rw [Service.run_append]
    rfl
  have hwitnessed := witnessed_run ar db first
  have hunused : ∀ {projectId kind item result},
      ((service ar).step ((service ar).run (initial db) first) label).world.log =
        (i, .ran (.deleteItem projectId kind item) result) ::
          ((service ar).run (initial db) first).world.log →
        (i, unused item) ∈ ((service ar).run (initial db) first).world.log := by
    intro projectId kind item result hlog
    rw [hrun] at hlog
    exact unused_of_deletion db (first ++ [label]) hlog
  generalize ((service ar).run (initial db) first).world = w at *
  generalize ((service ar).step ((service ar).run (initial db) first) label).world = w' at *
  constructor
  · rintro hkeeps projectId kind item hlog ⟨later, earlier, hsplit, issue, hissue, hcarries, -⟩
    obtain ⟨choice, hresult, hstate⟩ := deletion_step hstep hlog
    have hkept := hkeeps projectId kind item _ hlog
    cases hfails : choice.fails with
    | true =>
      rw [exec_of_fails hfails] at hresult
      contradiction
    | false =>
      rw [exec_of_runs hfails] at hresult hstate
      rw [hstate] at hkept
      have hfree := (references_deleteItem_iff (Except.ok.inj hresult).symm).mp hkept issue hissue
      rw [hfree] at hcarries
      contradiction
  · intro hintime projectId kind item result hlog
    obtain ⟨choice, hresult, hstate⟩ := deletion_step hstep hlog
    rw [hstate]
    cases hfails : choice.fails with
    | true =>
      rw [exec_of_fails hfails]
      exact fun _ => rfl
    | false =>
      rw [exec_of_runs hfails] at hresult ⊢
      cases hdeleted : ((w.state.wait choice.elapse).deleteItem projectId kind item).1 with
      | false =>
        have hsame : ((w.state.wait choice.elapse).deleteItem projectId kind item).2 =
            w.state.wait choice.elapse := by
          unfold Db.deleteItem at hdeleted ⊢
          split at hdeleted
          · rfl
          · contradiction
        simp only [Stmt.effect, hsame]
        exact fun _ => rfl
      | true =>
        refine (references_deleteItem_iff hdeleted).mpr fun issue hissue => ?_
        by_contra hcarries
        rw [Bool.not_eq_false] at hcarries
        simp only [Stmt.effect, hdeleted] at hresult
        rw [hresult] at hlog
        obtain ⟨later, earlier, hsplit⟩ := List.append_of_mem (hunused hlog)
        have hputs := hwitnessed later earlier i item hsplit issue hissue hcarries
        exact hintime projectId kind item hlog
          ⟨later, earlier, hsplit, issue, hissue, hcarries, hputs⟩

/-- A run of interleaved requests takes no item off an issue by a deletion
exactly as long as no deletion is overtaken by a write. -/
theorem deletions_spare_iff (db : Db F) (labels : List (Label (Request F) Choice)) :
    (service ar).Admits KeepsReferences (initial db) labels ↔
      (service ar).Admits InTime (initial db) labels :=
  (service ar).admits_congr (fun first label => keeps_iff_inTime db first label _) labels

/-- What the items of a project are safe from, request by request, and what its
issues are safe from in any interleaving. -/
theorem taxonomy_safe_iff (ar : Arithmetic F) {db : Db F} (hindexed : Indexed db)
    (hsuited : ∀ item ∈ db.items.rows, Suited item) (turns : List (Turn F)) (start : Db F)
    (labels : List (Label (Request F) Choice)) :
    ((server ar).Always Sound db turns ∧ (server ar).Each (RefusalKeeps ar) db turns ↔
        (server ar).Each Careful db turns) ∧
      ((service ar).Admits KeepsReferences (initial start) labels ↔
        (service ar).Admits InTime (initial start) labels) :=
  ⟨edits_safe_iff hindexed hsuited turns, deletions_spare_iff start labels⟩

/-- Ranks without a fraction. -/
def natural : Arithmetic Nat where
  ofNat n := n
  add := (· + ·)
  sub := (· - ·)
  half n := n / 2
  le a b := decide (a ≤ b)
  lt a b := decide (a < b)

def status (id : Uuid) (slug : String) (isNew : Bool) : Item Nat where
  id := id
  projectId := 7
  kind := .issueStatus
  name := slug
  slug := slug
  color := ""
  emoji := ""
  order := id
  isClosed := some false
  countsAsDone := some false
  isNew := some isNew
  value := none

/-- A project with a landing status and an issue without a status. -/
def twoStatuses : Db Nat where
  items := ⟨[status 1 "new" true, status 2 "ready" false], by decide⟩
  issues := ⟨[⟨{}, 5, 7, 1, none, none⟩], by decide⟩
  epics := .empty
  now := 0

/-- A second status under a slug that is used, meant to be the new landing status. -/
def duplicate : Turn Nat :=
  ⟨.create ⟨7, true⟩ "issue_status" (.valid { name := "New", slug := "new", isNew := some true }),
    fun _ => {}⟩

/-- The issue gets the status between the count and the deletion. -/
def overtaking : List (Label (Request Nat) Choice) :=
  [.start (.edit (.delete ⟨7, true⟩ "issue_status" (some 2))), .run 0 {},
    .start (.updateIssue 7 5 .any (.ok { statusId := some (some 2) }) (.ok ())), .run 1 {},
    .run 1 {}]

theorem indexed_twoStatuses : Indexed twoStatuses := by
  unfold Indexed
  decide

theorem suited_twoStatuses : ∀ item ∈ twoStatuses.items.rows, Suited item := by
  intro item hitem
  simp only [twoStatuses, List.mem_cons, List.not_mem_nil, or_false] at hitem
  rcases hitem with rfl | rfl
  · exact ⟨fun _ => rfl, fun _ => rfl, fun _ => rfl, nofun⟩
  · exact ⟨fun _ => rfl, fun _ => rfl, fun _ => rfl, nofun⟩

theorem taxonomy_safe_twoStatuses :
    ((server natural).Always Sound twoStatuses [duplicate] ∧
        (server natural).Each (RefusalKeeps natural) twoStatuses [duplicate] ↔
        (server natural).Each Careful twoStatuses [duplicate]) ∧
      ((service natural).Admits KeepsReferences (initial twoStatuses) overtaking ↔
        (service natural).Admits InTime (initial twoStatuses) overtaking) :=
  taxonomy_safe_iff natural indexed_twoStatuses suited_twoStatuses [duplicate] twoStatuses
    overtaking

/-- A refused creation costs the project its landing status, and a deletion an
issue its status. -/
theorem landing_and_status_lost :
    ((server natural).answer twoStatuses duplicate = .error alreadyExists ∧
        twoStatuses.newStatusId 7 = some 1 ∧
        ((server natural).next twoStatuses duplicate).newStatusId 7 = none) ∧
      ¬(server natural).Each (RefusalKeeps natural) twoStatuses [duplicate] ∧
      ¬(service natural).Admits KeepsReferences (initial twoStatuses)
        (overtaking ++ [.run 0 {}]) := by
  have hrefused : (server natural).answer twoStatuses duplicate = .error alreadyExists := by
    decide +kernel
  have hlost : ((server natural).next twoStatuses duplicate).newStatusId 7 = none := by
    decide +kernel
  refine ⟨⟨hrefused, by decide +kernel, hlost⟩, ?_, ?_⟩
  · intro hkeeps
    have hitems := hkeeps.1 _ hrefused
    unfold Db.newStatusId at hlost
    rw [hitems] at hlost
    exact absurd hlost (by decide +kernel)
  · intro hadmits
    have hlast := ((service natural).admits_append _ _ _ _).mp hadmits
    have hkept := hlast.2.1 7 .issueStatus 2 (.ok true) rfl 5
    exact absurd hkept (by decide +kernel)

end IntelliPilot.Taxonomy
