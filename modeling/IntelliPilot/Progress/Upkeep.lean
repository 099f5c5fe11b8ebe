import IntelliPilot.Progress.Containment

/-! # The handlers keep to the policy

Each handler links rows only to what it has found in the project before, so
that in every run all links stay inside and milestones stay derived.
-/

namespace IntelliPilot.Progress

open Http Statement
open Backlog (Uuid Milestone Epic Issue)
open Policy

/-- What a handler learns, among the others. -/
abbrev Learns {α : Type} (K : State → Prop) (p : Handler α) (Q : α → State → Prop) : Prop :=
  policy.Learns service K p Q

section Parts

variable {α β : Type} {K : State → Prop} {Q : State → Prop} {p : Handler α}

theorem learns_quiet {stmt : Stmt (Except DbError α)}
    (h : Grants (fun _ => True) stmt fun _ _ => True) (problem : Problem) :
    Learns (fun _ => True) (orRefuse stmt problem) fun _ _ => True :=
  learns_orRefuse lasting_true h

variable {stmt : Stmt (Except DbError Bool)}

/-- A question that counts as answered by no where it fails. -/
theorem learns_asked (h : Grants (fun _ => True) stmt fun found s => found = true → Q s) :
    Learns (fun _ => True) (orDefault stmt false) fun found s => found = true → Q s :=
  learns_orDefault lasting_true h fun _ _ hfalse => absurd hfalse Bool.false_ne_true

/-- A check that the database answers. -/
theorem learns_check (h : Grants (fun _ => True) stmt fun found s => found = true → Q s)
    (problem : Problem) :
    Learns (fun _ => True) (do refuseUnless (← orDefault stmt false) problem) fun _ => Q := by
  refine learns_bind (learns_asked h) ?_
  intro found
  cases found with
  | false => exact learns_throw
  | true => exact learns_pure fun s _ hfound => hfound rfl

/-- What comes after a check may use it. -/
theorem learns_check_bind {p : Handler β} {R : β → State → Prop}
    (h : Grants (fun _ => True) stmt fun found s => found = true → Q s) (problem : Problem)
    (hp : Learns Q p R) :
    Learns (fun _ => True) (do refuseUnless (← orDefault stmt false) problem; p) R := by
  refine learns_bind (learns_asked h) ?_
  intro found
  cases found with
  | false => exact learns_throw
  | true => exact hp.weaken fun s _ hfound => hfound rfl

/-- A check whose outcome tells nothing of links. -/
theorem learns_ask (test : Bool → Bool) (h : Grants (fun _ => True) stmt fun _ _ => True)
    (problem : Problem) :
    Learns (fun _ => True) (do refuseUnless (test (← orDefault stmt false)) problem)
      fun _ _ => True := by
  have hasked : Learns (fun _ => True) (orDefault stmt false) fun _ _ => True :=
    learns_orDefault lasting_true h fun _ _ => trivial
  refine learns_bind hasked fun found => ?_
  exact learns_refuseUnless.post fun _ _ _ _ => trivial

theorem learns_mustFind (h : Grants (fun _ => True) stmt fun _ _ => True) :
    Learns (fun _ => True) (mustFind stmt) fun _ _ => True := by
  refine learns_bind (learns_quiet h internal) fun found => ?_
  exact learns_refuseUnless.post fun _ _ _ _ => trivial

/-- What comes before the statements of a handler. -/
theorem learns_screen (refused : Option Problem) {f : Unit → Handler β} {R : β → State → Prop}
    (hK : policy.Lasting K) (h : Learns K (f ()) R) :
    Learns K (given (Backlog.Api.screen refused) >>= f) R := by
  refine learns_next hK learns_given fun _ => ?_
  exact h.weaken fun _ _ hknown => hknown.1

/-- A last check keeps what is known. -/
theorem learns_screen_last (refused : Option Problem) :
    Learns K (given (Backlog.Api.screen refused)) fun _ => K := by
  cases refused with
  | none => exact learns_pure fun s _ h => h
  | some problem => exact learns_throw

/-- A handler that goes on with nothing to know. -/
theorem learns_then {f : α → Handler β} {R : α → State → Prop}
    (hp : Learns (fun _ => True) p R) (hf : ∀ a, Learns (fun _ => True) (f a) fun _ _ => True) :
    Learns (fun _ => True) (p >>= f) fun _ _ => True :=
  learns_bind hp fun a => (hf a).weaken fun _ _ _ => trivial

theorem learns_answer (a : α) : Learns K (pure a) fun _ _ => True :=
  learns_pure fun _ _ _ => trivial

end Parts

/-! ## Issues -/

theorem learns_validateEpic (projectId : Uuid) (epicId : Option Uuid) :
    Learns (fun _ => True) (validateEpic projectId epicId) fun _ => EpicKnown projectId epicId := by
  cases epicId with
  | none => exact learns_pure fun s _ _ id hid => nomatch hid
  | some id =>
    refine (learns_check (grants_epicInProject projectId id) _).post ?_
    intro _ s _ h id' hid
    rw [← Option.some.inj hid]
    exact h

theorem grants_issueInProject (projectId id : Uuid) :
    Grants (fun _ => True) (.issueInProject projectId id) fun _ _ => True :=
  grants_nothing rfl fun _ _ => rfl

theorem learns_validateParent (projectId : Uuid) (parentId : Option Uuid) :
    Learns (fun _ => True) (validateParent projectId parentId) fun _ _ => True := by
  cases parentId with
  | none => exact learns_answer ()
  | some id => exact learns_ask (fun found => found) (grants_issueInProject projectId id) _

theorem learns_validateIssueAssociations (projectId : Uuid)
    (epicId parentId milestoneId : Option Uuid) :
    Learns (fun _ => True) (validateIssueAssociations projectId epicId parentId milestoneId)
      fun _ => EpicKnown projectId epicId := by
  refine learns_bind learns_given fun _ => ?_
  have hepic := learns_validateEpic projectId epicId
  refine learns_bind (hepic.weaken fun _ _ _ => trivial) fun _ => ?_
  refine ((learns_validateParent projectId parentId).frame
    (lasting_epicKnown projectId epicId)).weaken ?_ |>.post ?_
  · exact fun s _ h => ⟨trivial, h⟩
  · exact fun _ s _ h => h.1

theorem learns_validateNew (projectId : Uuid) (req : CreateIssueRequest) :
    Learns (fun _ => True) (validateNew projectId req) fun _ => EpicKnown projectId req.epicId := by
  refine learns_bind (learns_validateIssueAssociations projectId req.epicId req.parentId
    req.milestoneId) fun _ => ?_
  exact learns_screen_last req.extras

theorem grants_newStatusId (projectId : Uuid) :
    Grants (fun _ => True) (.newStatusId projectId) fun _ _ => True :=
  grants_nothing rfl fun _ _ => rfl

theorem learns_statusOrNew (projectId : Uuid) (statusId : Option Uuid) :
    Learns (fun _ => True) (statusOrNew projectId statusId) fun _ _ => True := by
  cases statusId with
  | none => exact learns_quiet (grants_newStatusId projectId) internal
  | some id => exact learns_answer (some id)

/-- The row of an issue is written where its epic is known. -/
theorem learns_insertRow (projectId : Uuid) (w : IssueWrite) :
    Learns (EpicKnown projectId w.epicId) (insertRow projectId w) (IssueOf projectId) := by
  have hlasting := lasting_epicKnown projectId w.epicId
  refine learns_after hlasting (learns_statusOrNew projectId w.statusId) fun statusId => ?_
  have hinsert := grants_insertIssue projectId { w with statusId := statusId }
  exact (learns_orRefuse hlasting hinsert).weaken fun s _ h => h.1

theorem grants_touchIssue (id : Uuid) : Grants (fun _ => True) (.touchIssue id) fun _ _ => True :=
  grants_plain rfl fun _ _ => ⟨(), .touchIssue id, rfl, fun _ _ _ => trivial⟩

theorem learns_createIssue (projectId : Uuid) (refused : Option Problem)
    (req : CreateIssueRequest) :
    Learns (fun _ => True) (createIssue projectId refused req) fun _ _ => True := by
  refine learns_screen refused lasting_true ?_
  refine learns_bind (learns_validateNew projectId req) fun _ => ?_
  refine learns_bind (learns_insertRow projectId req.write) fun id => ?_
  refine (learns_then (learns_quiet (grants_touchIssue id) internal) fun _ => ?_).weaken
    fun _ _ _ => trivial
  exact learns_answer _

theorem learns_insertAll (projectId : Uuid) (reqs : List CreateIssueRequest) :
    Learns (fun s => ∀ req ∈ reqs, EpicKnown projectId req.epicId s) (insertAll projectId reqs)
      fun _ _ => True := by
  have hlasting : ∀ reqs : List CreateIssueRequest,
      policy.Lasting fun s => ∀ req ∈ reqs, EpicKnown projectId req.epicId s :=
    fun reqs s s' hinv hto h req hreq =>
      lasting_epicKnown projectId req.epicId s s' hinv hto (h req hreq)
  induction reqs with
  | nil => exact learns_answer []
  | cons req reqs ih =>
    refine learns_next (hlasting _) ((learns_insertRow projectId req.write).weaken
      fun s _ h => h req List.mem_cons_self) fun id => ?_
    have hrest := (hlasting (req :: reqs))
    refine (learns_after hrest (learns_quiet (grants_touchIssue id) internal) fun _ => ?_).weaken
      fun s _ h => h.1
    refine learns_bind (ih.weaken fun s _ h other hother =>
      h.1 other (List.mem_cons_of_mem _ hother)) fun ids => ?_
    exact learns_answer _

theorem learns_bulkCreateIssues (projectId : Uuid) (refused : Option Problem)
    (reqs : List CreateIssueRequest) :
    Learns (fun _ => True) (bulkCreateIssues projectId refused reqs) fun _ _ => True := by
  refine learns_screen refused lasting_true ?_
  have hchecked := learns_forM_each (fun req => lasting_epicKnown projectId req.epicId)
    (learns_validateNew projectId) reqs
  refine learns_bind hchecked fun _ => ?_
  refine learns_bind (learns_insertAll projectId reqs) fun ids => ?_
  exact learns_answer _

theorem learns_validateChanges (projectId : Uuid) (old : Issue) (w : IssueWrite) :
    Learns (EpicKnown projectId old.epicId) (validateChanges projectId old w) fun _ =>
      EpicKnown projectId w.epicId := by
  unfold validateChanges
  split
  · have hold := lasting_epicKnown projectId old.epicId
    refine ((learns_validateIssueAssociations projectId _ _ none).frame hold).weaken ?_ |>.post ?_
    · exact fun s _ h => ⟨trivial, h⟩
    · intro _ s _ h
      by_cases hsame : w.epicId = old.epicId
      · rw [hsame]
        exact h.1
      · have hchanged : (w.epicId != old.epicId) = true := bne_iff_ne.mpr hsame
        rw [hchanged, if_pos rfl] at h
        exact h.2
  · rename_i hsame
    rw [Bool.or_eq_true, not_or, bne_iff_ne, ne_eq, Decidable.not_not] at hsame
    rw [hsame.1]
    exact learns_pure fun s _ h => h

theorem learns_rejectCycle (projectId id : Uuid) (old : Issue) (parentId : Option Uuid) :
    Learns (fun _ => True) (rejectCycle projectId id old parentId) fun _ _ => True := by
  refine learns_bind learns_refuseUnless fun _ => ?_
  cases parentId with
  | none => exact learns_answer ()
  | some parent =>
    dsimp only
    split
    · exact (learns_ask (!·) (grants_nothing rfl fun _ _ => rfl) _).weaken
        fun _ _ _ => trivial
    · exact learns_answer ()

theorem learns_writePatch (projectId id : Uuid) (version : Nat) (w : IssueWrite) :
    Learns (EpicKnown projectId w.epicId) (writePatch projectId id version w) fun _ _ => True := by
  have hlasting := lasting_epicKnown projectId w.epicId
  refine learns_bind (learns_orRefuse hlasting (grants_updateIssue projectId id version w))
    fun found => ?_
  split
  · exact learns_answer ()
  · refine learns_bind (learns_quiet (grants_issueInProject projectId id) internal) fun there => ?_
    split
    · exact learns_throw
    · exact learns_throw

theorem learns_updateIssue (projectId id : Uuid) (refused extras : Option Problem)
    (header : Backlog.Api.IfMatch) (patch : UpdateIssueRequest) :
    Learns (fun _ => True) (updateIssue projectId id refused extras header patch)
      fun _ _ => True := by
  refine learns_screen refused lasting_true ?_
  refine learns_bind (learns_orRefuse lasting_true (grants_getIssue projectId id)) fun found => ?_
  cases found with
  | none => exact learns_throw
  | some row =>
    obtain ⟨old, statusId⟩ := row
    have hold := lasting_epicKnown projectId old.epicId
    have hread : ∀ s, Sound s → (∀ row, some (old, statusId) = some row → ∀ epic,
        row.1.epicId = some epic → EpicOf projectId epic s) → EpicKnown projectId old.epicId s :=
      fun s _ h epic hepic => h _ rfl epic hepic
    refine Learns.weaken ?_ hread
    refine learns_after hold learns_given fun _ => ?_
    refine Learns.weaken ?_ fun s _ h => h.1
    refine learns_after hold learns_given fun _ => ?_
    refine Learns.weaken ?_ fun s _ h => h.1
    refine learns_bind (learns_validateChanges projectId old _) fun _ => ?_
    have hnew := lasting_epicKnown projectId (patch.over old statusId).epicId
    refine learns_after hnew (learns_rejectCycle projectId id old _) fun _ => ?_
    refine Learns.weaken ?_ fun s _ h => h.1
    refine learns_screen extras hnew ?_
    refine learns_bind (learns_writePatch projectId id old.version _) fun _ => ?_
    exact learns_then (learns_quiet (grants_touchIssue id) internal) fun _ => learns_answer _

theorem learns_deleteIssue (projectId id : Uuid) (refused : Option Problem) :
    Learns (fun _ => True) (deleteIssue projectId id refused) fun _ _ => True := by
  refine learns_screen refused lasting_true ?_
  refine learns_then (learns_mustFind (grants_plain rfl fun s _ => ?_)) fun _ => learns_answer _
  exact ⟨_, .softDeleteIssue projectId id, rfl, fun _ _ _ => trivial⟩

theorem learns_moveIssue (refused : Option Problem) (ids : List Uuid) :
    Learns (fun _ => True) (moveIssue refused ids) fun _ _ => True := by
  refine learns_screen refused lasting_true ?_
  exact learns_then (learns_forM fun id _ => learns_quiet (grants_touchIssue id) internal)
    fun _ => learns_answer _

theorem learns_purgeIssues (projectId : Uuid) (refused : Option Problem) :
    Learns (fun _ => True) (purgeIssues projectId refused) fun _ _ => True := by
  refine learns_screen refused lasting_true ?_
  refine learns_then (learns_quiet (grants_plain rfl fun s _ => ?_) internal)
    fun _ => learns_answer _
  exact ⟨(), .purgeIssues projectId, rfl, fun _ _ _ => trivial⟩

/-! ## Import -/

/-- The ids that the maps lead to are of the project. -/
structure Mapped (projectId : Uuid) (maps : Created) (s : State) : Prop where
  epics : ∀ key id, maps.epicById key = some id ∨ maps.epicByKey key = some id →
    EpicOf projectId id s
  created : ∀ row ∈ maps.created, IssueOf projectId row.2 s

theorem lasting_mapped (projectId : Uuid) (maps : Created) :
    policy.Lasting (Mapped projectId maps) := by
  intro s s' hinv hto h
  refine ⟨?_, ?_⟩
  · intro key id hid
    exact lasting_epicOf projectId id s s' hinv hto (h.epics key id hid)
  · intro row hrow
    exact lasting_issueOf projectId row.2 s s' hinv hto (h.created row hrow)

theorem insert_eq_some {map : Backlog.Api.RefMap} {key k : String} {new id : Uuid}
    (h : map.insert key new k = some id) : id = new ∨ map k = some id := by
  unfold Backlog.Api.RefMap.insert at h
  split at h
  · exact .inl (Option.some.inj h).symm
  · exact .inr h

theorem Mapped.addEpic {projectId id : Uuid} {maps : Created} {s : State}
    (h : Mapped projectId maps s) (row : ParsedRow) (hid : EpicOf projectId id s) :
    Mapped projectId (maps.addEpic row id) s := by
  refine ⟨?_, h.created⟩
  intro key other hother
  rcases hother with hother | hother
  · rcases insert_eq_some hother with rfl | hold
    · exact hid
    · exact h.epics key other (.inl hold)
  · rcases insert_eq_some hother with rfl | hold
    · exact hid
    · exact h.epics key other (.inr hold)

theorem Mapped.addIssue {projectId id : Uuid} {maps : Created} {s : State}
    (h : Mapped projectId maps s) (row : ParsedRow) (hid : IssueOf projectId id s) :
    Mapped projectId (maps.addIssue row id) s := by
  refine ⟨h.epics, ?_⟩
  intro other hother
  rcases List.mem_append.mp hother with hold | hnew
  · exact h.created other hold
  · rw [List.mem_singleton.mp hnew]
    exact hid

theorem learns_importIssue (projectId : Uuid) (maps : Created) (row : ParsedRow)
    (statusId : Option Uuid) :
    Learns (Mapped projectId maps) (importIssue projectId maps row statusId)
      (Mapped projectId) := by
  have hinsert : Learns (fun _ => True)
      (attempted (.insertIssue projectId ⟨statusId, none, none, none⟩)) fun result s =>
        ∀ id, result = .ok id → IssueOf projectId id s :=
    (learns_attempted (lasting_epicKnown projectId none)
      (grants_insertIssue projectId ⟨statusId, none, none, none⟩)).weaken
        fun _ _ _ _ hid => nomatch hid
  refine learns_after (lasting_mapped projectId maps) hinsert fun result => ?_
  cases result with
  | error _ => exact learns_pure fun s _ h => ⟨h.1.epics, h.1.created⟩
  | ok id => exact learns_pure fun s _ h => h.1.addIssue row (h.2 id rfl)

theorem learns_importRow (projectId : Uuid) (maps : Created) (row : ParsedRow) :
    Learns (Mapped projectId maps) (importRow projectId maps row) (Mapped projectId) := by
  have hmapped := lasting_mapped projectId maps
  unfold importRow
  split
  · have hinsert : Learns (fun _ => True) (attempted (.insertEpic projectId none)) fun result s =>
        ∀ id, result = .ok id → EpicOf projectId id s :=
      (learns_attempted (lasting_milestoneKnown projectId none)
        (grants_insertEpic projectId none)).weaken fun _ _ _ _ hid => nomatch hid
    refine learns_after hmapped hinsert fun result => ?_
    cases result with
    | error _ => exact learns_pure fun s _ h => ⟨h.1.epics, h.1.created⟩
    | ok id => exact learns_pure fun s _ h => h.1.addEpic row (h.2 id rfl)
  · split
    · exact learns_importIssue projectId maps row _
    · have hasked : Learns (fun _ => True) (attempted (.newStatusId projectId)) fun _ _ => True :=
        (learns_attempted lasting_true (grants_newStatusId projectId)).post fun _ _ _ _ => trivial
      refine learns_after hmapped hasked fun result => ?_
      cases result with
      | error _ => exact learns_pure fun s _ h => ⟨h.1.epics, h.1.created⟩
      | ok statusId =>
        exact (learns_importIssue projectId maps row statusId).weaken fun s _ h => h.1

theorem learns_linkRow (projectId : Uuid) (maps : Created) {row : ParsedRow × Uuid}
    (hrow : row ∈ maps.created) :
    Learns (Mapped projectId maps) (linkRow maps row) fun _ => Mapped projectId maps := by
  have hmapped := lasting_mapped projectId maps
  unfold linkRow
  split
  · have hlink : Learns (Mapped projectId maps)
        (orDefault (.linkIssue row.2 (maps.parentOf row.1) (maps.epicOf row.1)) ())
          fun _ _ => True := by
      refine (learns_orDefault ((lasting_issueOf projectId row.2).and (lasting_epicKnown projectId
        (maps.epicOf row.1))) grants_linkIssue fun _ _ => trivial).weaken ?_
      intro s _ h
      refine ⟨h.created row hrow, ?_⟩
      intro id hid
      rw [Created.epicOf, Option.or_eq_some_iff] at hid
      rcases hid with hkey | ⟨_, hid⟩
      · exact h.epics row.1.epicRef id (.inr hkey)
      · exact h.epics row.1.epicRef id (.inl hid)
    exact ((hlink.frame hmapped).weaken fun s _ h => ⟨h, h⟩).post fun _ s _ h => h.1
  · exact learns_pure fun s _ h => h

theorem learns_importCommit (projectId : Uuid) (refused : Option Problem)
    (newItems : List Imports.TaxonomyKind) (rows : List ParsedRow) :
    Learns (fun _ => True) (importCommit projectId refused newItems rows) fun _ _ => True := by
  refine learns_screen refused lasting_true ?_
  have hitem : ∀ kind ∈ newItems, Learns (fun _ => True) (do
      let _ ← attempted (.insertItem projectId kind none)) fun _ _ => True := by
    intro kind _
    exact learns_then (learns_attempted lasting_true (grants_insertItem projectId kind none))
      fun _ => learns_answer _
  refine learns_then (learns_forM hitem) fun _ => ?_
  have hempty : ∀ s, Mapped projectId {} s :=
    fun s => ⟨fun _ _ h => by simp at h, fun _ h => nomatch h⟩
  have hcreated : Learns (Mapped projectId {}) (rows.foldlM (importRow projectId) {})
      (Mapped projectId) :=
    learns_foldlM (fun maps row _ => learns_importRow projectId maps row) {}
  refine learns_bind (hcreated.weaken fun s _ _ => hempty s) fun maps => ?_
  refine learns_bind (learns_forM fun row hrow => learns_linkRow projectId maps hrow) fun _ => ?_
  exact learns_answer _

/-! ## Epics and milestones -/

theorem grants_milestoneClosed (projectId id : Uuid) :
    Grants (fun _ => True) (.milestoneClosed projectId id) fun _ _ => True :=
  grants_nothing rfl fun _ _ => rfl

theorem learns_refuseCompleted (projectId id : Uuid) :
    Learns (fun _ => True) (refuseCompleted projectId id) fun _ _ => True :=
  learns_ask (!·) (grants_milestoneClosed projectId id) _

theorem learns_validateEpicMilestoneAssignment (projectId : Uuid) (milestoneId : Option Uuid) :
    Learns (fun _ => True) (validateEpicMilestoneAssignment projectId milestoneId) fun _ =>
      MilestoneKnown projectId milestoneId := by
  cases milestoneId with
  | none => exact learns_pure fun s _ _ id hid => nomatch hid
  | some id =>
    have hlasting := lasting_milestoneOf projectId id
    refine learns_check_bind (grants_milestoneInProject projectId id) _ ?_
    refine ((learns_refuseCompleted projectId id).frame hlasting).weaken
      (fun s _ h => ⟨trivial, h⟩) |>.post ?_
    intro _ s _ h id' hid
    rw [← Option.some.inj hid]
    exact h.1

theorem learns_createEpic (projectId : Uuid) (refused : Option Problem)
    (milestoneId : Option Uuid) :
    Learns (fun _ => True) (createEpic projectId refused milestoneId) fun _ _ => True := by
  refine learns_screen refused lasting_true ?_
  refine learns_bind (learns_validateEpicMilestoneAssignment projectId milestoneId) fun _ => ?_
  refine learns_bind (learns_orRefuse (lasting_milestoneKnown projectId milestoneId)
    (grants_insertEpic projectId milestoneId)) fun id => ?_
  exact learns_answer _

theorem learns_writeEpic (projectId id : Uuid) (version : Nat) (milestoneId : Option Uuid) :
    Learns (MilestoneKnown projectId milestoneId) (writeEpic projectId id version milestoneId)
      fun _ _ => True := by
  refine learns_bind (learns_orRefuse (lasting_milestoneKnown projectId milestoneId)
    (grants_updateEpic projectId id version milestoneId)) fun found => ?_
  split
  · exact learns_answer ()
  · refine learns_bind (learns_orRefuse lasting_true (grants_selectEpic projectId id))
      fun there => ?_
    split
    · exact learns_throw
    · exact learns_throw

theorem learns_validateMove (projectId : Uuid) (old : Epic) (milestoneId : Option Uuid) :
    Learns (MilestoneKnown projectId old.milestoneId) (validateMove projectId old milestoneId)
      fun _ => MilestoneKnown projectId milestoneId := by
  unfold validateMove
  split
  · exact (learns_validateEpicMilestoneAssignment projectId milestoneId).weaken
      fun _ _ _ => trivial
  · rename_i hsame
    rw [bne_iff_ne, ne_eq, Decidable.not_not] at hsame
    rw [hsame]
    exact learns_pure fun s _ h => h

theorem learns_updateEpic (projectId id : Uuid) (refused : Option Problem)
    (header : Backlog.Api.IfMatch) (patch : Option (Option Uuid)) :
    Learns (fun _ => True) (updateEpic projectId id refused header patch) fun _ _ => True := by
  refine learns_screen refused lasting_true ?_
  refine learns_bind (learns_orRefuse lasting_true (grants_selectEpic projectId id)) fun found => ?_
  cases found with
  | none => exact learns_throw
  | some old =>
    have hold := lasting_milestoneKnown projectId old.milestoneId
    have hread : ∀ s, Sound s → (∀ epic, some old = some epic → ∀ milestone,
        epic.milestoneId = some milestone → MilestoneOf projectId milestone s) →
          MilestoneKnown projectId old.milestoneId s :=
      fun s _ h milestone hmilestone => h old rfl milestone hmilestone
    refine Learns.weaken ?_ hread
    refine learns_after hold learns_given fun _ => ?_
    refine Learns.weaken ?_ fun s _ h => h.1
    refine learns_bind (learns_validateMove projectId old _) fun _ => ?_
    refine learns_bind (learns_writeEpic projectId id old.version _) fun _ => ?_
    exact learns_answer _

theorem learns_deleteEpic (projectId id : Uuid) (refused : Option Problem) :
    Learns (fun _ => True) (deleteEpic projectId id refused) fun _ _ => True := by
  refine learns_screen refused lasting_true ?_
  refine learns_then (learns_mustFind (grants_plain rfl fun s _ => ?_)) fun _ => learns_answer _
  exact ⟨_, .softDeleteEpic projectId id, rfl, fun _ _ _ => trivial⟩

theorem learns_touchEpics (refused : Option Problem) (ids : List Uuid) :
    Learns (fun _ => True) (touchEpics refused ids) fun _ _ => True := by
  refine learns_screen refused lasting_true ?_
  refine learns_then (learns_forM fun id _ => learns_quiet (grants_plain rfl fun s _ => ?_)
    internal) fun _ => learns_answer _
  exact ⟨(), .touchEpic id, rfl, fun _ _ _ => trivial⟩

theorem learns_purgeEpics (projectId : Uuid) (refused : Option Problem) :
    Learns (fun _ => True) (purgeEpics projectId refused) fun _ _ => True := by
  refine learns_screen refused lasting_true ?_
  refine learns_then (learns_quiet (grants_plain rfl fun s _ => ?_) internal)
    fun _ => learns_answer _
  exact ⟨(), .purgeEpics projectId, rfl, fun _ _ _ => trivial⟩

theorem learns_createMilestone (projectId : Uuid) (refused : Option Problem) :
    Learns (fun _ => True) (createMilestone projectId refused) fun _ _ => True := by
  refine learns_screen refused lasting_true ?_
  exact learns_then (learns_quiet (grants_insertMilestone projectId) internal)
    fun _ => learns_answer _

theorem learns_setCompleted (projectId id : Uuid) (refused : Option Problem) (completed : Bool) :
    Learns (fun _ => True) (setCompleted projectId id refused completed) fun _ _ => True := by
  refine learns_screen refused lasting_true ?_
  refine learns_then (learns_mustFind (grants_plain rfl fun s _ => ?_)) fun _ => learns_answer _
  exact ⟨_, .setMilestoneClosed projectId id completed, rfl, fun _ _ _ => trivial⟩

theorem learns_replaceEpics (projectId id : Uuid) (ids : List Uuid) :
    Learns (MilestoneOf projectId id) (replaceEpics projectId id ids) fun _ _ => True := by
  have hlasting := lasting_milestoneOf projectId id
  have hdetach : Learns (fun _ => True) (orRefuse (.detachEpics projectId id) internal)
      fun _ _ => True :=
    learns_quiet (grants_plain rfl fun s _ =>
      ⟨(), .detachEpics projectId id, rfl, fun _ _ _ => trivial⟩) internal
  refine learns_after hlasting hdetach fun _ => ?_
  refine Learns.weaken ?_ fun s _ h => h.1
  split
  · exact learns_answer ()
  · exact learns_orRefuse hlasting (grants_attachEpics projectId id ids)

theorem learns_refuseAdding (projectId id : Uuid) (ids : List Uuid) :
    Learns (fun _ => True) (refuseAdding projectId id ids) fun _ _ => True := by
  unfold refuseAdding
  split
  · exact learns_answer ()
  · exact learns_refuseCompleted projectId id

theorem learns_setEpics (projectId id : Uuid) (refused : Option Problem) (ids : List Uuid) :
    Learns (fun _ => True) (setEpics projectId id refused ids) fun _ _ => True := by
  refine learns_screen refused lasting_true ?_
  refine learns_check_bind (grants_milestoneInProject projectId id) _ ?_
  refine learns_after (lasting_milestoneOf projectId id) (learns_refuseAdding projectId id ids)
    fun _ => ?_
  refine learns_bind ((learns_replaceEpics projectId id ids).weaken fun s _ h => h.1) fun _ => ?_
  exact learns_answer _

theorem grants_hasEpics (projectId id : Uuid) :
    Grants (fun _ => True) (.hasEpics projectId id) fun _ _ => True :=
  grants_nothing rfl fun _ _ => rfl

theorem learns_deleteMilestone (projectId id : Uuid) (refused : Option Problem) :
    Learns (fun _ => True) (deleteMilestone projectId id refused) fun _ _ => True := by
  refine learns_screen refused lasting_true ?_
  refine learns_then (learns_quiet (grants_hasEpics projectId id) internal) fun found => ?_
  refine learns_then (learns_refuseUnless) fun _ => ?_
  refine learns_then (learns_mustFind (grants_plain rfl fun s _ => ?_)) fun _ => learns_answer _
  exact ⟨_, .softDeleteMilestone projectId id, rfl, fun _ _ _ => trivial⟩

/-! ## Items -/

theorem learns_createItem (projectId : Uuid) (refused : Option Problem)
    (kind : Imports.TaxonomyKind) (countsAsDone : Option Bool) :
    Learns (fun _ => True) (createItem projectId refused kind countsAsDone) fun _ _ => True := by
  refine learns_screen refused lasting_true ?_
  exact learns_then (learns_quiet (grants_insertItem projectId kind _) internal)
    fun _ => learns_answer _

theorem learns_updateItem (projectId : Uuid) (refused : Option Problem)
    (kind : Imports.TaxonomyKind) (id : Uuid) (countsAsDone : Option Bool) :
    Learns (fun _ => True) (updateItem projectId refused kind id countsAsDone)
      fun _ _ => True := by
  refine learns_screen refused lasting_true ?_
  exact learns_then (learns_mustFind (grants_updateItem projectId kind id _))
    fun _ => learns_answer _

theorem grants_referenceCount (id : Uuid) :
    Grants (fun _ => True) (.referenceCount id) fun _ _ => True :=
  grants_nothing rfl fun _ _ => rfl

theorem learns_deleteItem (projectId : Uuid) (refused : Option Problem)
    (kind : Imports.TaxonomyKind) (id : Uuid) :
    Learns (fun _ => True) (deleteItem projectId refused kind id) fun _ _ => True := by
  refine learns_screen refused lasting_true ?_
  refine learns_then (learns_quiet (grants_referenceCount id) internal) fun count => ?_
  refine learns_then learns_refuseUnless fun _ => ?_
  exact learns_then (learns_mustFind (grants_deleteItem projectId kind id)) fun _ => learns_answer _

/-! ## Runs -/

theorem learns_handler (request : Request) :
    Learns (fun _ => True) request.handler fun _ _ => True := by
  cases request with
  | createIssue projectId refused req => exact learns_createIssue projectId refused req
  | bulkCreateIssues projectId refused reqs => exact learns_bulkCreateIssues projectId refused reqs
  | updateIssue projectId id refused extras header patch =>
    exact learns_updateIssue projectId id refused extras header patch
  | deleteIssue projectId id refused => exact learns_deleteIssue projectId id refused
  | moveIssue refused ids => exact learns_moveIssue refused ids
  | purgeIssues projectId refused => exact learns_purgeIssues projectId refused
  | importCommit projectId refused newItems rows =>
    exact learns_importCommit projectId refused newItems rows
  | createEpic projectId refused milestoneId =>
    exact learns_createEpic projectId refused milestoneId
  | updateEpic projectId id refused header patch =>
    exact learns_updateEpic projectId id refused header patch
  | deleteEpic projectId id refused => exact learns_deleteEpic projectId id refused
  | touchEpics refused ids => exact learns_touchEpics refused ids
  | purgeEpics projectId refused => exact learns_purgeEpics projectId refused
  | createMilestone projectId refused => exact learns_createMilestone projectId refused
  | setCompleted projectId id refused completed =>
    exact learns_setCompleted projectId id refused completed
  | setEpics projectId id refused ids => exact learns_setEpics projectId id refused ids
  | deleteMilestone projectId id refused => exact learns_deleteMilestone projectId id refused
  | createItem projectId refused kind countsAsDone =>
    exact learns_createItem projectId refused kind countsAsDone
  | updateItem projectId refused kind id countsAsDone =>
    exact learns_updateItem projectId refused kind id countsAsDone
  | deleteItem projectId refused kind id => exact learns_deleteItem projectId refused kind id

/-- In every run links stay inside and milestones derived. -/
theorem sound_run {s : State} (h : Sound s) (labels : List (Label Request Choice)) :
    Sound (service.run (Service.initial s) labels).world.state :=
  inv_run service (fun _ => rfl) learns_handler h labels

end IntelliPilot.Progress
