import IntelliPilot.Taxonomy.Deletions

/-! # When an issue was resolved

The moment is computed from the status when an issue is written, and only then.
It follows the status in every state of a run exactly as long as no change of a
status that issues have makes them closed or open, and no closed status is
taken off an issue by its deletion.
-/

namespace IntelliPilot.Taxonomy

open Http Statement
open Service (initial)
open Imports (Uuid TaxonomyKind)

variable {F : Type} {ar : Arithmetic F}

/-! ## The moment and the status -/

/-- The foreign key of the status. -/
def Linked (db : Db F) : Prop :=
  ∀ issue ∈ db.issues.rows, ∀ id ∈ issue.statusId, (db.items.find? id).isSome

/-- The issues that the weekly throughput of the dashboard counts. -/
def throughput (projectId : Uuid) (since : Int) (db : Db F) : List Issue :=
  db.issues.rows.filter fun issue => issue.projectId == projectId && issue.deletedAt.isNone &&
    issue.resolvedAt.any (since ≤ ·)

/-- An issue has a moment exactly while its status is a closed one, and the
throughput counts no open issue. -/
structure Timed (db : Db F) : Prop where
  moment : ∀ issue ∈ db.issues.rows, issue.resolvedAt.isSome = db.closes issue.statusId
  throughput : ∀ projectId since, ∀ issue ∈ throughput projectId since db,
    db.closes issue.statusId = true

variable {db : Db F}

theorem timed_of_moment
    (h : ∀ issue ∈ db.issues.rows, issue.resolvedAt.isSome = db.closes issue.statusId) :
    Timed db where
  moment := h
  throughput := by
    intro projectId since issue hissue
    obtain ⟨hrow, hcounted⟩ := List.mem_filter.mp hissue
    rw [Bool.and_eq_true] at hcounted
    rw [← h issue hrow]
    cases hresolved : issue.resolvedAt with
    | none => simp [hresolved] at hcounted
    | some moment => rfl

/-- An issue that stays closed keeps its moment. -/
def Unmoved (db db' : Db F) : Prop :=
  ∀ issue ∈ db.issues.rows, ∀ issue' ∈ db'.issues.rows, issue'.id = issue.id →
    db.closes issue.statusId → db'.closes issue'.statusId → issue'.resolvedAt = issue.resolvedAt

/-- No status that issues have becomes closed or open, and no closed one goes. -/
def Undisturbed (db : Db F) : Happening F → Prop
  | .ran (.updateItem _ _ id patch) (.ok (some _)) =>
      (∃ issue ∈ db.issues.rows, issue.statusId = some id) →
        ∀ closed ∈ patch.isClosed, closed = db.closes (some id)
  | .ran (.deleteItem _ _ id) (.ok true) =>
      (∃ issue ∈ db.issues.rows, issue.statusId = some id) → db.closes (some id) = false
  | _ => True

/-! ## Statements -/

/-- What a statement has to keep of the statuses that are there. -/
def SameClosing (db db' : Db F) : Prop :=
  ∀ id, (db.items.find? id).isSome → (db'.items.find? id).isSome ∧
    db'.closes (some id) = db.closes (some id)

theorem sameClosing_of_items {db' : Db F} (h : db'.items = db.items) : SameClosing db db' := by
  intro id hsome
  unfold Db.closes
  rw [h]
  exact ⟨hsome, rfl⟩

theorem closes_of_same {db' : Db F} (h : SameClosing db db') {status : Option Uuid}
    (hlinked : ∀ id ∈ status, (db.items.find? id).isSome) :
    db'.closes status = db.closes status := by
  cases status with
  | none => rfl
  | some id => exact (h id (hlinked id rfl)).2

/-- What the statements on issues and epics, and most of those on items, do. -/
structure Follows (db db' : Db F) : Prop where
  linked : Linked db'
  moment : ∀ issue ∈ db'.issues.rows, issue.resolvedAt.isSome = db'.closes issue.statusId
  unmoved : Unmoved db db'

/-- A statement that leaves the issues. -/
theorem follows_of_items {db' : Db F} (hlinked : Linked db) (htimed : Timed db)
    (hissues : db'.issues = db.issues) (hsame : SameClosing db db') : Follows db db' where
  linked := by
    intro issue hissue id hid
    rw [hissues] at hissue
    exact (hsame id (hlinked issue hissue id hid)).1
  moment := by
    intro issue hissue
    rw [hissues] at hissue
    rw [closes_of_same hsame (hlinked issue hissue)]
    exact htimed.moment issue hissue
  unmoved := by
    intro issue hissue issue' hissue' hid _ _
    rw [hissues] at hissue'
    rw [Rows.eq_of_nodup_map db.issues.nodup hissue' hissue hid]

/-- A statement that changes an item in other columns than `is_closed`. -/
theorem sameClosing_modify (p : Item F → Bool) (f : Item F → Item F)
    (hf : ∀ item, (f item).id = item.id) (hclosed : ∀ item, (f item).isClosed = item.isClosed) :
    SameClosing db { db with items := db.items.modify p f hf } := by
  intro id hsome
  have hfind : (db.items.modify p f hf).find? id =
      (db.items.find? id).map fun item => if p item then f item else item :=
    Table.find?_modify db.items p f hf id
  unfold Db.closes
  dsimp only
  rw [Option.any_some, Option.any_some, hfind]
  cases hfound : db.items.find? id with
  | none => rw [hfound] at hsome; contradiction
  | some item =>
    refine ⟨rfl, ?_⟩
    rw [Option.map_some, Option.any_some, Option.any_some]
    split
    · rw [hclosed]
    · rfl

theorem SameClosing.trans {a b c : Db F} (hab : SameClosing a b) (hbc : SameClosing b c) :
    SameClosing a c := by
  intro id hsome
  obtain ⟨hsome', hclosed⟩ := hab id hsome
  obtain ⟨hsome'', hclosed'⟩ := hbc id hsome'
  exact ⟨hsome'', hclosed'.trans hclosed⟩

theorem sameClosing_setOrder (projectId : Uuid) (kind : TaxonomyKind) (id : Uuid) (rank : F)
    (db : Db F) : SameClosing db (db.setOrder projectId kind id rank).2 := by
  unfold Db.setOrder
  split
  · exact sameClosing_of_items rfl
  · exact sameClosing_modify _ (fun item => { item with order := rank }) (fun _ => rfl) fun _ => rfl

theorem sameClosing_setOrders (projectId : Uuid) (kind : TaxonomyKind) (ranks : List (Uuid × F))
    (db : Db F) : SameClosing db (db.setOrders projectId kind ranks) := by
  unfold Db.setOrders
  induction ranks generalizing db with
  | nil => exact sameClosing_of_items rfl
  | cons rank ranks ih =>
    exact (sameClosing_setOrder projectId kind rank.1 rank.2 db).trans (ih _)

theorem sameClosing_insertItem (projectId : Uuid) (kind : TaxonomyKind) (new : ItemNew F)
    (order : F) (db : Db F) : SameClosing db (db.insertItem projectId kind new order).2 := by
  unfold Db.insertItem
  dsimp only
  split
  · exact sameClosing_of_items rfl
  · intro id hsome
    have hfree : db.items.find? (new.item db.items.fresh projectId kind order).id = none :=
      db.items.find?_fresh
    have hfind : (db.items.insert (new.item db.items.fresh projectId kind order) hfree).find? id =
        db.items.find? id := by
      rw [Table.find?_insert, if_neg]
      rintro rfl
      rw [hfree] at hsome
      contradiction
    unfold Db.closes
    dsimp only
    rw [Option.any_some, Option.any_some, hfind]
    exact ⟨hsome, rfl⟩

theorem linked_accepts {w : IssueWrite} (h : db.accepts w = true) :
    ∀ id ∈ w.statusId, (db.items.find? id).isSome := by
  intro id hid
  simp only [Db.accepts, Db.hasItem, Bool.and_eq_true] at h
  have hstatus := h.1.1.1
  rw [Option.mem_def.mp hid] at hstatus
  exact hstatus

theorem follows_insertIssue (hlinked : Linked db) (htimed : Timed db) (projectId : Uuid)
    (w : IssueWrite) : Follows db (db.insertIssue projectId w).2 := by
  unfold Db.insertIssue
  split
  · rename_i haccepts
    refine ⟨?_, ?_, ?_⟩
    · intro issue hissue
      rcases List.mem_append.mp hissue with hold | hnew
      · exact hlinked issue hold
      · rw [List.mem_singleton.mp hnew]
        exact linked_accepts haccepts
    · intro issue hissue
      rcases List.mem_append.mp hissue with hold | hnew
      · exact htimed.moment issue hold
      · rw [List.mem_singleton.mp hnew]
        dsimp only
        cases hcloses : db.closes w.statusId with
        | true => exact hcloses.symm
        | false => exact hcloses.symm
    · intro issue hissue issue' hissue' hid _ _
      rcases List.mem_append.mp hissue' with hold | hnew
      · rw [Rows.eq_of_nodup_map db.issues.nodup hold hissue hid]
      · rw [List.mem_singleton.mp hnew] at hid
        have hfresh : db.issues.fresh = issue.id := hid
        have hfound := Table.find?_key hissue
        rw [← hfresh, Table.find?_fresh] at hfound
        contradiction
  · exact follows_of_items hlinked htimed rfl (sameClosing_of_items rfl)

theorem follows_updateIssue (hlinked : Linked db) (htimed : Timed db) (projectId id : Uuid)
    (version : Nat) (w : IssueWrite) :
    Follows db (db.updateIssue projectId id version w).2 := by
  unfold Db.updateIssue
  split
  · exact follows_of_items hlinked htimed rfl (sameClosing_of_items rfl)
  · split
    · rename_i haccepts
      refine ⟨?_, ?_, ?_⟩
      · intro issue hissue
        obtain ⟨old, hold, rfl⟩ := Rows.mem_updateWhere.mp hissue
        split
        · exact linked_accepts haccepts
        · exact hlinked old hold
      · intro issue hissue
        obtain ⟨old, hold, rfl⟩ := Rows.mem_updateWhere.mp hissue
        split
        · show (if db.closes w.statusId then _ else none : Option Int).isSome = db.closes w.statusId
          cases db.closes w.statusId with
          | true => rfl
          | false => rfl
        · exact htimed.moment old hold
      · intro issue hissue issue' hissue' hid hclosed hclosed'
        obtain ⟨old, hold, rfl⟩ := Rows.mem_updateWhere.mp hissue'
        split at hid
        · rename_i hthis
          have hsame : old = issue := Rows.eq_of_nodup_map db.issues.nodup hold hissue hid
          rw [if_pos hthis] at hclosed' ⊢
          -- the moment is there already, and is kept
          obtain ⟨moment, hmoment⟩ := Option.isSome_iff_exists.mp
            ((htimed.moment issue hissue).trans hclosed)
          have hwritten : db.closes w.statusId = true := hclosed'
          show (if db.closes w.statusId then some (old.resolvedAt.getD db.now) else none) = _
          rw [hwritten, if_pos rfl, hsame, hmoment]
          rfl
        · rename_i hthis
          rw [if_neg hthis]
          rw [Rows.eq_of_nodup_map db.issues.nodup hold hissue hid]
    · exact follows_of_items hlinked htimed rfl (sameClosing_of_items rfl)

theorem follows_softDelete (hlinked : Linked db) (htimed : Timed db) (projectId id : Uuid) :
    Follows db (db.softDelete projectId id).2 := by
  unfold Db.softDelete
  split
  · exact follows_of_items hlinked htimed rfl (sameClosing_of_items rfl)
  · refine ⟨?_, ?_, ?_⟩
    · intro issue hissue
      obtain ⟨old, hold, rfl⟩ := Rows.mem_updateWhere.mp hissue
      split
      · exact hlinked old hold
      · exact hlinked old hold
    · intro issue hissue
      obtain ⟨old, hold, rfl⟩ := Rows.mem_updateWhere.mp hissue
      split
      · exact htimed.moment old hold
      · exact htimed.moment old hold
    · intro issue hissue issue' hissue' hid _ _
      obtain ⟨old, hold, rfl⟩ := Rows.mem_updateWhere.mp hissue'
      split at hid
      · rename_i hthis
        rw [if_pos hthis, ← Rows.eq_of_nodup_map db.issues.nodup hold hissue hid]
      · rename_i hthis
        rw [if_neg hthis, Rows.eq_of_nodup_map db.issues.nodup hold hissue hid]

/-! ## Changing and deleting a status -/

theorem unmoved_of_issues {db' : Db F} (hissues : db'.issues = db.issues) : Unmoved db db' := by
  intro issue hissue issue' hissue' hid _ _
  rw [hissues] at hissue'
  rw [Rows.eq_of_nodup_map db.issues.nodup hissue' hissue hid]

/-- Where the issues stay, their moments are right if and only if the statuses
they have are closed as before. -/
theorem moment_iff_of_issues (db' : Db F) (htimed : Timed db) (hissues : db'.issues = db.issues) :
    (∀ issue ∈ db'.issues.rows, issue.resolvedAt.isSome = db'.closes issue.statusId) ↔
      ∀ issue ∈ db.issues.rows, db'.closes issue.statusId = db.closes issue.statusId := by
  rw [hissues]
  refine forall_congr' fun issue => forall_congr' fun hissue => ?_
  rw [htimed.moment issue hissue]
  exact eq_comm

theorem closes_apply {id : Uuid} (patch : ItemPatch F) (hsome : (db.items.find? id).isSome)
    (other : Uuid) :
    Db.closes { db with items := db.items.modify (·.id == id) patch.apply fun _ => rfl }
        (some other) =
      if other = id then patch.isClosed.getD (db.closes (some id)) else db.closes (some other) := by
  have hfind := Table.find?_modify db.items (·.id == id) patch.apply (fun _ => rfl) other
  unfold Db.closes
  dsimp only
  rw [Option.any_some, Option.any_some, Option.any_some, hfind]
  split
  · rename_i hother
    rw [hother]
    obtain ⟨item, hitem⟩ := Option.isSome_iff_exists.mp hsome
    rw [hitem, Option.map_some, Option.any_some, Option.any_some,
      if_pos (by simpa using Table.key_of_find? hitem)]
    simp only [ItemPatch.apply]
    cases patch.isClosed with
    | none => rfl
    | some closed =>
      cases closed with
      | true => rfl
      | false => rfl
  · rename_i hother
    cases hfound : db.items.find? other with
    | none => rfl
    | some item =>
      rw [Option.map_some, Option.any_some, Option.any_some, if_neg]
      rw [Table.key_of_find? hfound]
      simpa using hother

/-- What a statement does to a state whose moments follow the statuses. -/
structure Steps (db : Db F) (event : Happening F) (db' : Db F) : Prop where
  linked : Linked db'
  unmoved : Unmoved db db'
  moment : (∀ issue ∈ db'.issues.rows, issue.resolvedAt.isSome = db'.closes issue.statusId) ↔
    Undisturbed db event

theorem Follows.steps {db' : Db F} (h : Follows db db') {event : Happening F}
    (hevent : Undisturbed db event) : Steps db event db' :=
  ⟨h.linked, h.unmoved, iff_of_true h.moment hevent⟩

theorem steps_updateItem (hlinked : Linked db) (htimed : Timed db) (projectId : Uuid)
    (kind : TaxonomyKind) (id : Uuid) (patch : ItemPatch F) :
    Steps db (.ran (.updateItem projectId kind id patch) (db.updateItem projectId kind id patch).1)
      (db.updateItem projectId kind id patch).2 := by
  unfold Db.updateItem
  cases hfound : db.find projectId kind id with
  | none => exact (follows_of_items hlinked htimed rfl (sameClosing_of_items rfl)).steps trivial
  | some item =>
    dsimp only
    split
    · exact (follows_of_items hlinked htimed rfl (sameClosing_of_items rfl)).steps trivial
    · have hsome : (db.items.find? id).isSome := by
        rw [(Option.filter_eq_some_iff.mp hfound).1]
        rfl
      have hcloses := closes_apply patch hsome
      refine ⟨?_, unmoved_of_issues rfl, ?_⟩
      · intro issue hissue other hother
        have hthere := hlinked issue hissue other hother
        have hfind := Table.find?_modify db.items (·.id == id) patch.apply (fun _ => rfl) other
        rw [hfind, Option.isSome_map]
        exact hthere
      · refine (moment_iff_of_issues { db with
          items := db.items.modify (·.id == id) patch.apply fun _ => rfl } htimed rfl).trans ?_
        constructor
        · rintro hsame ⟨issue, hissue, hstatus⟩ closed hclosed
          have hkept := hsame issue hissue
          rw [hstatus, hcloses id, if_pos rfl, Option.mem_def.mp hclosed] at hkept
          exact hkept
        · intro hundisturbed issue hissue
          cases hstatus : issue.statusId with
          | none => rfl
          | some other =>
            rw [hcloses other]
            split
            · rename_i hother
              rw [hother] at hstatus ⊢
              cases hgiven : patch.isClosed with
              | none => rfl
              | some closed => exact hundisturbed ⟨issue, hissue, hstatus⟩ closed hgiven
            · rfl

theorem steps_deleteItem (hlinked : Linked db) (htimed : Timed db) (projectId : Uuid)
    (kind : TaxonomyKind) (id : Uuid) :
    Steps db (.ran (.deleteItem projectId kind id) (.ok (db.deleteItem projectId kind id).1))
      (db.deleteItem projectId kind id).2 := by
  unfold Db.deleteItem
  split
  · exact (follows_of_items hlinked htimed rfl (sameClosing_of_items rfl)).steps trivial
  · -- the statuses that stay are closed as before
    have hfind : ∀ other, other ≠ id → (db.items.erase (·.id == id)).find? other =
        db.items.find? other := by
      intro other hne
      rw [Table.find?_erase]
      cases hfound : db.items.find? other with
      | none => rfl
      | some item =>
        rw [Option.filter_some, if_pos]
        rw [Table.key_of_find? hfound]
        simpa using hne
    have hstatus : ∀ issue : Issue, (if issue.carries id then
        { issue with toIssueWrite := issue.without id } else issue).statusId =
          issue.statusId.filter (· != id) := by
      intro issue
      split
      · rfl
      · rename_i hcarries
        cases hother : issue.statusId with
        | none => rfl
        | some other =>
          rw [Option.filter_some, if_pos]
          rw [bne_iff_ne]
          rintro rfl
          apply hcarries
          simp [IssueWrite.carries, hother]
    have hcloses : ∀ status : Option Uuid,
        Db.closes { db with items := db.items.erase (·.id == id) } (status.filter (· != id)) =
          if status = some id then false else db.closes status := by
      intro status
      cases status with
      | none => rfl
      | some other =>
        by_cases hother : other = id
        · rw [hother, Option.filter_some, if_neg (by simp), if_pos rfl]
          rfl
        · rw [Option.filter_some, if_pos (by simpa using hother), if_neg (by simpa using hother)]
          unfold Db.closes
          dsimp only
          rw [Option.any_some, Option.any_some, hfind other hother]
    have hresolved : ∀ issue : Issue, (if issue.carries id then
        { issue with toIssueWrite := issue.without id } else issue).resolvedAt =
          issue.resolvedAt := by
      intro issue
      split
      · rfl
      · rfl
    refine ⟨?_, ?_, ?_⟩
    · intro issue hissue other hother
      obtain ⟨old, hold, rfl⟩ := Rows.mem_updateWhere.mp hissue
      rw [hstatus] at hother
      obtain ⟨hsome, hne⟩ := Option.filter_eq_some_iff.mp hother
      rw [hfind other (by simpa using hne)]
      exact hlinked old hold other hsome
    · intro issue hissue issue' hissue' hid _ _
      obtain ⟨old, hold, rfl⟩ := Rows.mem_updateWhere.mp hissue'
      rw [hresolved]
      have hkept : (if old.carries id then { old with toIssueWrite := old.without id }
          else old).id = old.id := by
        split
        · rfl
        · rfl
      rw [hkept] at hid
      rw [Rows.eq_of_nodup_map db.issues.nodup hold hissue hid]
    · constructor
      · rintro hmoment ⟨issue, hissue, hthis⟩
        have hright := hmoment _ (Rows.mem_updateWhere.mpr ⟨issue, hissue, rfl⟩)
        rw [hstatus, hresolved, htimed.moment issue hissue] at hright
        have hclosed := hright.trans (hcloses issue.statusId)
        rw [hthis, if_pos rfl] at hclosed
        exact hclosed
      · intro hundisturbed issue hissue
        obtain ⟨old, hold, rfl⟩ := Rows.mem_updateWhere.mp hissue
        rw [hstatus, hresolved, htimed.moment old hold]
        refine Eq.trans ?_ (hcloses old.statusId).symm
        split
        · rename_i hthis
          rw [hthis]
          exact hundisturbed ⟨old, hold, hthis⟩
        · rfl

theorem steps_effect (hlinked : Linked db) (htimed : Timed db) {β : Type} (stmt : Stmt F β) :
    Steps db (.ran stmt (stmt.effect ar db).1) (stmt.effect ar db).2 := by
  have hsame : ∀ {event : Happening F} {db' : Db F}, db'.issues = db.issues → SameClosing db db' →
      Undisturbed db event → Steps db event db' := fun hissues hclosing hevent =>
    (follows_of_items hlinked htimed hissues hclosing).steps hevent
  cases stmt with
  | updateItem projectId kind id patch =>
    exact steps_updateItem hlinked htimed projectId kind id patch
  | deleteItem projectId kind id => exact steps_deleteItem hlinked htimed projectId kind id
  | insertIssue projectId w => exact (follows_insertIssue hlinked htimed projectId w).steps trivial
  | updateIssue projectId id version w =>
    exact (follows_updateIssue hlinked htimed projectId id version w).steps trivial
  | softDelete projectId id => exact (follows_softDelete hlinked htimed projectId id).steps trivial
  | insertItem projectId kind new order =>
    refine hsame ?_ (sameClosing_insertItem projectId kind new order _) trivial
    simp only [Stmt.effect, Db.insertItem]
    split
    · rfl
    · rfl
  | clearIsNew projectId =>
    exact hsame rfl (sameClosing_modify _ (fun item => { item with isNew := some false })
      (fun _ => rfl) fun _ => rfl) trivial
  | setOrder projectId kind id rank =>
    exact hsame (issues_setOrder projectId kind id rank _)
      (sameClosing_setOrder projectId kind id rank _) trivial
  | setOrders projectId kind ranks =>
    exact hsame (issues_setOrders projectId kind ranks _)
      (sameClosing_setOrders projectId kind ranks _) trivial
  | insertEpic projectId statusId =>
    have hitems := items_effect ar (.insertEpic projectId statusId) (fun h => h) db
    refine hsame ?_ (sameClosing_of_items hitems) trivial
    simp only [Stmt.effect, Db.insertEpic]
    split
    · rfl
    · rfl
  | updateEpic projectId id version statusId =>
    have hitems := items_effect ar (.updateEpic projectId id version statusId)
      (fun h => h) db
    refine hsame ?_ (sameClosing_of_items hitems) trivial
    simp only [Stmt.effect, Db.updateEpic]
    split
    · rfl
    · split
      · rfl
      · rfl
  | newStatusId _ | list _ _ | maxOrder _ _ | referenceCount _ | selectIssue _ _
  | selectEpic _ _ => exact hsame rfl (sameClosing_of_items rfl) trivial

/-- Of all statements, only a change and a deletion of an item can part the
moments from the statuses. -/
theorem steps_exec (ar : Arithmetic F) (hlinked : Linked db) (htimed : Timed db) {β : Type}
    (stmt : Stmt F β) (choice : Choice) :
    Steps db (.ran stmt (stmt.exec ar choice db).1) (stmt.exec ar choice db).2 := by
  have hwait : ∀ {event : Happening F} {db' : Db F}, Steps (db.wait choice.elapse) event db' →
      Steps db event db' := fun h => ⟨h.linked, h.unmoved, h.moment⟩
  have htimed' : Timed (db.wait choice.elapse) := ⟨htimed.moment, htimed.throughput⟩
  have hlinked' : Linked (db.wait choice.elapse) := hlinked
  apply hwait
  cases hfails : choice.fails with
  | true =>
    rw [exec_of_fails hfails]
    refine (follows_of_items hlinked' htimed' rfl (sameClosing_of_items rfl)).steps ?_
    cases stmt <;> trivial
  | false =>
    rw [exec_of_runs hfails]
    exact steps_effect hlinked' htimed' stmt

/-! ## Runs -/

/-- The event of a step, if there is one, disturbs no moment. -/
def LeavesClosing (_ : Nat) (w w' : Worlds F) : Prop :=
  ∀ entry, w'.log = entry :: w.log → Undisturbed w.state entry.2

def KeepsMoments (_ : Nat) (w w' : Worlds F) : Prop := Unmoved w.state w'.state

/-- A step of the service. -/
abbrev Step (ar : Arithmetic F) (w w' : Worlds F) : Prop :=
  Service.StepOf (service ar) (fun _ {_} _ => True) w w'

theorem unmoved_self (db : Db F) : Unmoved db db := unmoved_of_issues rfl

theorem linked_step {w w' : Worlds F} (hstep : Step ar w w') (hlinked : Linked w.state)
    (htimed : Timed w.state) : Linked w'.state ∧ Unmoved w.state w'.state := by
  cases hstep with
  | void | began i request | answered i request answer hbegan => exact ⟨hlinked, unmoved_self _⟩
  | issued i request stmt choice hbegan hmay =>
    have hsteps := steps_exec ar hlinked htimed stmt choice
    exact ⟨hsteps.linked, hsteps.unmoved⟩

theorem timed_step_iff {w w' : Worlds F} (hstep : Step ar w w') (hlinked : Linked w.state)
    (htimed : Timed w.state) (i : Nat) : Timed w'.state ↔ LeavesClosing i w w' := by
  cases hstep with
  | void => exact iff_of_true htimed fun entry hlog => absurd hlog.symm (List.cons_ne_self _ _)
  | began j request | answered j request answer hbegan =>
    refine iff_of_true htimed fun entry hlog => ?_
    rw [← (List.cons.inj hlog).1]
    trivial
  | issued j request stmt choice hbegan hmay =>
    have hsteps := steps_exec ar hlinked htimed stmt choice
    have hmoment : Timed ((service ar).perform j stmt choice w).state ↔
        Undisturbed w.state (.ran stmt (stmt.exec ar choice w.state).1) :=
      ⟨fun h => hsteps.moment.mp h.moment, fun h => timed_of_moment (hsteps.moment.mpr h)⟩
    rw [hmoment]
    constructor
    · intro hundisturbed entry hlog
      rw [← (List.cons.inj hlog).1]
      exact hundisturbed
    · exact fun hleaves => hleaves _ rfl

theorem step_run (ar : Arithmetic F) (db : Db F) (labels : List (Label (Request F) Choice))
    (label : Label (Request F) Choice) :
    Step ar ((service ar).run (initial db) labels).world
      ((service ar).step ((service ar).run (initial db) labels) label).world :=
  (service ar).stepOf ((service ar).attributed_run (fun _ => Prog.only_true _)
    (Service.attributed_initial db) labels) label

/-- In every run of interleaved requests the moments follow the statuses, and
stay while an issue is closed, exactly as long as no change or deletion of a
status disturbs them. -/
theorem moments_follow_iff (ar : Arithmetic F) {db : Db F} (hlinked : Linked db)
    (htimed : Timed db) (labels : List (Label (Request F) Choice)) :
    (service ar).Always (fun w => Timed w.state) (initial db) labels ∧
        (service ar).Admits KeepsMoments (initial db) labels ↔
      (service ar).Admits LeavesClosing (initial db) labels := by
  have hiff : (service ar).Always (fun w => Linked w.state ∧ Timed w.state) (initial db)
      labels ↔ (service ar).Admits LeavesClosing (initial db) labels := by
    refine (service ar).always_iff_admits ⟨hlinked, htimed⟩ ?_ labels
    rintro first label ⟨hlinked, htimed⟩
    have hstep := step_run ar db first label
    have hleaves := timed_step_iff hstep hlinked htimed
      (Service.actor ((service ar).run (initial db) first) label)
    exact ⟨fun h => hleaves.mp h.2, fun h => ⟨(linked_step hstep hlinked htimed).1, hleaves.mpr h⟩⟩
  rw [← hiff]
  constructor
  · rintro ⟨halways, -⟩ first second hsplit
    refine ⟨?_, halways first second hsplit⟩
    induction first using List.reverseRecOn generalizing second with
    | nil => exact hlinked
    | append_singleton first label ih =>
      have hsplit' : labels = first ++ ([label] ++ second) := by rw [hsplit, List.append_assoc]
      have hbefore := ih _ hsplit'
      rw [Service.run_append]
      exact (linked_step (step_run ar db first label) hbefore
        (halways first _ hsplit')).1
  · intro hboth
    refine ⟨fun first second hsplit => (hboth first second hsplit).2, ?_⟩
    rw [Service.admits_iff]
    intro first label last hsplit
    obtain ⟨hlinked, htimed⟩ := hboth first (label :: last) hsplit
    exact (linked_step (step_run ar db first label) hlinked htimed).2

/-! ## A status that is opened again -/

theorem linked_twoStatuses : Linked twoStatuses := by
  intro issue hissue id hid
  rw [List.mem_singleton.mp hissue] at hid
  contradiction

theorem timed_twoStatuses : Timed twoStatuses := by
  apply timed_of_moment
  intro issue hissue
  rw [List.mem_singleton.mp hissue]
  rfl

/-- A change of the second status, closed or open. -/
def closing (closed : Bool) : Request Nat :=
  .edit (.update ⟨7, true⟩ "issue_status" (some 2) (.valid { isClosed := some closed }))

/-- The status is closed, the issue is given it, and the status is opened again. -/
def reopening : List (Label (Request Nat) Choice) :=
  [.start (closing true), .run 0 {},
    .start (.updateIssue 7 5 .any (.ok { statusId := some (some 2) }) (.ok ())), .run 1 {},
    .run 1 {}, .start (closing false), .run 2 {}]

theorem moments_follow_closed :
    (service natural).Always (fun w => Timed w.state) (initial twoStatuses)
          (reopening.take 5) ∧
        (service natural).Admits KeepsMoments (initial twoStatuses) (reopening.take 5) ↔
      (service natural).Admits LeavesClosing (initial twoStatuses) (reopening.take 5) :=
  moments_follow_iff natural linked_twoStatuses timed_twoStatuses (reopening.take 5)

/-- The throughput counts an issue that is open. -/
theorem throughput_counts_open :
    Linked twoStatuses ∧ Timed twoStatuses ∧
      (∃ issue ∈ throughput 7 0
          ((service natural).run (initial twoStatuses) reopening).world.state,
        ((service natural).run (initial twoStatuses) reopening).world.state.closes
          issue.statusId = false) ∧
      ¬(service natural).Always (fun w => Timed w.state) (initial twoStatuses)
        reopening := by
  have hopen : ∃ issue ∈ throughput 7 0
        ((service natural).run (initial twoStatuses) reopening).world.state,
      ((service natural).run (initial twoStatuses) reopening).world.state.closes
        issue.statusId = false := by
    decide +kernel
  refine ⟨linked_twoStatuses, timed_twoStatuses, hopen, fun halways => ?_⟩
  obtain ⟨issue, hissue, hclosed⟩ := hopen
  have hlast := (halways reopening [] (List.append_nil _).symm).throughput 7 0 issue hissue
  rw [hclosed] at hlast
  contradiction

end IntelliPilot.Taxonomy
