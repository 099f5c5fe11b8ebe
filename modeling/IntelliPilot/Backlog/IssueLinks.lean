import IntelliPilot.Backlog.IssueHandlers
import IntelliPilot.Backlog.MilestoneDerivation
import IntelliPilot.Relational.Ancestry

/-! # The links of the issue hierarchy

What the cycle check can see of the ancestors of an issue, and which links each
statement writes. The foreign keys make every link lead to an issue.
-/

namespace IntelliPilot.Backlog

open Relation Rows

def Db.parent? (db : Db) (id : Uuid) : Option Uuid := (db.issue? id).bind (·.parentId)

/-- Following parents from an issue never returns to it. -/
def Forest (db : Db) : Prop := Acyclic db.parent?

/-- `id` is `start` or one of its ancestors. -/
def Descends (db : Db) (start id : Uuid) : Prop := ReflTransGen (Climbs db.parent?) start id

/-! ## The cycle check -/

def Db.isLive (db : Db) (id : Uuid) : Bool := (db.issue? id).any Issue.live

/-- The check sees `id` from `start`: it is reached within `depth` issues, all
of them live. -/
def Visible (db : Db) (depth : Nat) (start id : Uuid) : Prop :=
  ∃ n < depth, climb db.parent? n start = some id ∧
    ∀ m ≤ n, ∀ k, climb db.parent? m start = some k → db.isLive k = true

variable {db : Db} {id : Uuid}

theorem isLive_iff :
    db.isLive id = true ↔ ∃ issue, (db.issue? id).filter Issue.live = some issue := by
  simp [Db.isLive, Option.any_eq_true]

/-- The rows of the recursive query are the visible ancestors. -/
theorem mem_chain_iff {depth : Nat} {start : Uuid} :
    id ∈ chain db depth start ↔ Visible db depth start id := by
  induction depth generalizing start with
  | zero => simp [chain, Visible]
  | succ depth ih =>
    rw [chain]
    cases hrow : (db.issue? start).filter Issue.live with
    | none =>
      constructor
      · intro h
        simp at h
      · rintro ⟨n, _, _, hlive⟩
        obtain ⟨issue, hissue⟩ := isLive_iff.mp (hlive 0 (Nat.zero_le n) start rfl)
        simp [hrow] at hissue
    | some issue =>
      have hfind : db.issue? start = some issue := (Option.filter_eq_some_iff.mp hrow).1
      have hid : issue.id = start := Table.key_of_find? hfind
      have hparent : db.parent? start = issue.parentId := by rw [Db.parent?, hfind]; rfl
      have hstart : db.isLive start = true := isLive_iff.mpr ⟨issue, hrow⟩
      simp only [List.mem_cons, hid]
      constructor
      · rintro (rfl | hrest)
        · refine ⟨0, Nat.succ_pos _, rfl, ?_⟩
          intro m hm k hk
          obtain rfl := Nat.le_zero.mp hm
          rw [← Option.some.inj hk]
          exact hstart
        · cases hp : issue.parentId with
          | none => simp [hp] at hrest
          | some parentId =>
            rw [hp] at hrest
            obtain ⟨n, hn, hclimb, hlive⟩ := ih.mp hrest
            have hstep : ∀ m, climb db.parent? (m + 1) start = climb db.parent? m parentId := by
              intro m
              rw [climb, hparent, hp, Option.bind_some]
            refine ⟨n + 1, Nat.succ_lt_succ hn, (hstep n).trans hclimb, ?_⟩
            intro m hm k hk
            cases m with
            | zero => rwa [← Option.some.inj hk]
            | succ m => exact hlive m (Nat.le_of_succ_le_succ hm) k ((hstep m).symm.trans hk)
      · rintro ⟨n, hn, hclimb, hlive⟩
        cases n with
        | zero => exact Or.inl (Option.some.inj hclimb).symm
        | succ n =>
          right
          cases hp : issue.parentId with
          | none => simp [climb, hparent, hp] at hclimb
          | some parentId =>
            have hstep : ∀ m, climb db.parent? (m + 1) start = climb db.parent? m parentId := by
              intro m
              rw [climb, hparent, hp, Option.bind_some]
            refine ih.mpr ⟨n, Nat.lt_of_succ_lt_succ hn, (hstep n).symm.trans hclimb, ?_⟩
            intro m hm k hk
            exact hlive (m + 1) (Nat.succ_le_succ hm) k ((hstep m).trans hk)

/-- What the cycle check answers. -/
theorem parentChainContains_iff {projectId start : Uuid} :
    parentChainContains db projectId start id = true ↔
      issueInProject db projectId start = true ∧ Visible db 100 start id := by
  rw [parentChainContains, Bool.and_eq_true, List.contains_iff_mem, mem_chain_iff]

/-! ## What the statements do to the links -/

theorem issue?_updateIssues (p : Issue → Bool) (f : Issue → Issue)
    (hf : ∀ issue, (f issue).id = issue.id) (db : Db) (id : Uuid) :
    (updateIssues p f hf db).issue? id = (db.issue? id).map fun issue =>
      if p issue then setModifiedAt db (milestoneFromEpic db (f issue)) else issue :=
  Table.find?_modify db.issues p (fun issue => setModifiedAt db (milestoneFromEpic db (f issue)))
    (fun issue => hf issue) id

theorem isSome_issue?_updateIssues (p : Issue → Bool) (f : Issue → Issue)
    (hf : ∀ issue, (f issue).id = issue.id) (db : Db) (id : Uuid) :
    ((updateIssues p f hf db).issue? id).isSome = (db.issue? id).isSome := by
  rw [issue?_updateIssues, Option.isSome_map]

theorem parent?_updateIssues (p : Issue → Bool) (f : Issue → Issue)
    (hf : ∀ issue, (f issue).id = issue.id) (db : Db) (id : Uuid) :
    (updateIssues p f hf db).parent? id = (db.issue? id).bind fun issue =>
      if p issue then (f issue).parentId else issue.parentId := by
  rw [Db.parent?, issue?_updateIssues]
  cases db.issue? id with
  | none => rfl
  | some issue =>
    simp only [Option.map_some, Option.bind_some]
    split <;> rfl

variable {p : Issue → Bool} {f : Issue → Issue} {hf : ∀ issue, (f issue).id = issue.id}

/-- An update that writes no parent. -/
theorem parent?_updateIssues_of_eq (hparent : ∀ issue, (f issue).parentId = issue.parentId) :
    (updateIssues p f hf db).parent? = db.parent? := by
  funext id
  rw [parent?_updateIssues, Db.parent?]
  cases db.issue? id with
  | none => rfl
  | some issue => simp [hparent issue]

/-- An update of one issue writes one link. -/
theorem parent?_updateIssues_one {old : Issue} (hold : db.issue? old.id = some old)
    (hp : ∀ issue, p issue = true → issue.id = old.id) (hpold : p old = true) :
    (updateIssues p f hf db).parent? = Function.update db.parent? old.id (f old).parentId := by
  funext id
  rw [parent?_updateIssues]
  by_cases hid : id = old.id
  · subst hid
    rw [hold, Function.update_self, Option.bind_some, if_pos hpold]
  · rw [Function.update_of_ne hid, Db.parent?]
    cases hfind : db.issue? id with
    | none => rfl
    | some issue =>
      have hne : ¬ p issue = true := by
        intro hissue
        exact hid ((Table.key_of_find? hfind).symm.trans (hp issue hissue))
      rw [Option.bind_some, if_neg hne]
      rfl

/-- An insert is refused, or adds one issue. -/
theorem createIssue_cases (id projectId : Uuid) (epicId parentId milestoneId : Option Uuid) (db : Db) :
    (createIssue id projectId epicId parentId milestoneId db = db ∧
        (references epicId db.epic? = false ∨ references parentId db.issue? = false ∨
          (db.issue? id).isSome)) ∨
      ∃ row : Issue, row.parentId = parentId ∧ db.issue? id = none ∧
        references parentId db.issue? = true ∧
        (createIssue id projectId epicId parentId milestoneId db).epics = db.epics ∧
        (createIssue id projectId epicId parentId milestoneId db).issue? =
          Function.update db.issue? id (some row) := by
  let row := milestoneFromEpic db
    ⟨id, projectId, epicId, parentId, milestoneId, 1, db.now, none⟩
  unfold createIssue
  split
  · rename_i hrefs
    rw [Bool.and_eq_true] at hrefs
    simp only
    cases hinsert : db.issues.insert? row with
    | none =>
      refine Or.inl ⟨rfl, Or.inr (Or.inr ?_)⟩
      by_contra hfree
      obtain ⟨issues, hissues⟩ : ∃ issues, db.issues.insert? row = some issues :=
        Table.exists_insert? (Option.not_isSome_iff_eq_none.mp hfree)
      rw [hinsert] at hissues
      cases hissues
    | some issues =>
      refine Or.inr ⟨row, rfl, Table.insert?_fresh hinsert, hrefs.2, rfl, ?_⟩
      funext k
      rw [Function.update_apply]
      exact Table.find?_insert? hinsert k
  · rename_i hrefs
    rw [Bool.and_eq_true, not_and_or, Bool.not_eq_true, Bool.not_eq_true] at hrefs
    exact Or.inl ⟨rfl, hrefs.imp_right Or.inl⟩

/-- An insert writes the link of the new issue. -/
theorem parent?_insert {db' : Db} {row : Issue}
    (h : db'.issue? = Function.update db.issue? id (some row)) :
    db'.parent? = Function.update db.parent? id row.parentId := by
  funext k
  rw [Db.parent?, h]
  by_cases hk : k = id
  · subst hk
    rw [Function.update_self, Function.update_self]
    rfl
  · rw [Function.update_of_ne hk, Function.update_of_ne hk]
    rfl

/-! ## Sound tables -/

/-- The foreign keys of `issues` hold, and its milestones are derived. -/
structure Sound (db : Db) : Prop where
  consistent : Consistent db
  parentKeys : ∀ id p, db.parent? id = some p → (db.issue? p).isSome

theorem Sound.at (h : Sound db) (now : Int) : Sound { db with now := now } :=
  ⟨h.consistent.congr rfl rfl, h.parentKeys⟩

/-- Issues stay, and every link is an old one or leads to an issue. -/
theorem Sound.links {db' : Db} (h : Sound db) (hconsistent : Consistent db')
    (hsome : ∀ p, (db.issue? p).isSome → (db'.issue? p).isSome)
    (hlinks : ∀ id p, db'.parent? id = some p → db.parent? id = some p ∨ (db.issue? p).isSome) :
    Sound db' := by
  refine ⟨hconsistent, ?_⟩
  intro id p hp
  rcases hlinks id p hp with hold | hissue
  · exact hsome p (h.parentKeys id p hold)
  · exact hsome p hissue

/-- A key that is referenced leads to an issue. -/
theorem isSome_of_references {key : Option Uuid} {p : Uuid} (h : references key db.issue? = true)
    (hp : key = some p) : (db.issue? p).isSome := by
  subst hp
  exact h

theorem Sound.createIssue (h : Sound db) (id projectId : Uuid)
    (epicId parentId milestoneId : Option Uuid) :
    Sound (Backlog.createIssue id projectId epicId parentId milestoneId db) := by
  have hconsistent : Consistent (Backlog.createIssue id projectId epicId parentId milestoneId db) :=
    h.consistent.exec (.createIssue id projectId epicId parentId milestoneId)
  rcases createIssue_cases id projectId epicId parentId milestoneId db with
    ⟨hsame, _⟩ | ⟨row, hrow, _, hrefs, _, hissue⟩
  · rw [hsame]
    exact h
  · apply h.links hconsistent
    · intro p hp
      rw [hissue, Function.update_apply]
      split
      · rfl
      · exact hp
    · intro k p hp
      rw [parent?_insert hissue, Function.update_apply] at hp
      split at hp
      · exact Or.inr (isSome_of_references hrefs (hrow.symm.trans hp))
      · exact Or.inl hp

/-- An update that writes parents which are referenced. -/
theorem Sound.updateIssues (h : Sound db)
    (hconsistent : Consistent (Backlog.updateIssues p f hf db))
    (hparent : ∀ issue parentId, (f issue).parentId = some parentId →
      issue.parentId = some parentId ∨ (db.issue? parentId).isSome) :
    Sound (Backlog.updateIssues p f hf db) := by
  apply h.links hconsistent
  · intro id hid
    rw [isSome_issue?_updateIssues]
    exact hid
  · intro id parentId hlink
    rw [parent?_updateIssues] at hlink
    obtain ⟨issue, hissue, hlink⟩ := Option.bind_eq_some_iff.mp hlink
    have hold : issue.parentId = some parentId → db.parent? id = some parentId := by
      intro hissue_parent
      rw [Db.parent?, hissue]
      exact hissue_parent
    split at hlink
    · rcases hparent issue parentId hlink with hsame | hissue
      · exact Or.inl (hold hsame)
      · exact Or.inr hissue
    · exact Or.inl (hold hlink)

theorem Sound.updateIssue (h : Sound db) (projectId id : Uuid) (version : Nat)
    (epicId parentId milestoneId : Option Uuid) :
    Sound (Backlog.updateIssue projectId id version epicId parentId milestoneId db) := by
  have hconsistent := h.consistent.exec
    (.updateIssue projectId id version epicId parentId milestoneId)
  simp only [Stmt.exec, Backlog.updateIssue] at hconsistent ⊢
  split
  · rename_i hrefs
    rw [if_pos hrefs] at hconsistent
    rw [Bool.and_eq_true] at hrefs
    apply h.updateIssues hconsistent
    intro issue p hp
    exact Or.inr (isSome_of_references hrefs.2 hp)
  · exact h

theorem Sound.importLinks (h : Sound db) (id : Uuid) (parentId epicId : Option Uuid) :
    Sound (Backlog.importLinks id parentId epicId db) := by
  have hconsistent := h.consistent.exec (.importLinks id parentId epicId)
  simp only [Stmt.exec, Backlog.importLinks] at hconsistent ⊢
  split
  · rename_i hrefs
    rw [if_pos hrefs] at hconsistent
    rw [Bool.and_eq_true] at hrefs
    apply h.updateIssues hconsistent
    intro issue p hp
    rcases Option.or_eq_some_iff.mp hp with hnew | ⟨_, hold⟩
    · exact Or.inr (isSome_of_references hrefs.2 hnew)
    · exact Or.inl hold
  · exact h

theorem Sound.softDeleteIssue (h : Sound db) (projectId id : Uuid) :
    Sound (Backlog.softDeleteIssue projectId id db) :=
  h.updateIssues (h.consistent.exec (.softDeleteIssue projectId id)) fun _ _ hp => Or.inl hp

theorem Sound.createEpic (h : Sound db) (id projectId : Uuid) (milestoneId : Option Uuid) :
    Sound (Backlog.createEpic id projectId milestoneId db) := by
  have hconsistent : Consistent (Backlog.createEpic id projectId milestoneId db) :=
    h.consistent.exec (.createEpic id projectId milestoneId)
  have hissues : (Backlog.createEpic id projectId milestoneId db).issues = db.issues := by
    unfold Backlog.createEpic
    split
    · cases db.epics.insert? ⟨id, projectId, milestoneId, 1, none⟩ <;> rfl
    · rfl
  have hfind : (Backlog.createEpic id projectId milestoneId db).issue? = db.issue? := by
    funext k
    rw [Db.issue?, hissues]
    rfl
  apply h.links hconsistent
  · intro p hp
    rw [hfind]
    exact hp
  · intro k p hp
    rw [Db.parent?, hfind] at hp
    exact Or.inl hp

end IntelliPilot.Backlog
