import IntelliPilot.Issues.Checks
import IntelliPilot.Statement.Requests

/-! # What the writes leave

The row of an issue is written in one statement and each of its sets in another.
Every way a handler can end is followed here, down to the statement that fails.
-/

namespace IntelliPilot.Issues

open Http Statement
open Imports (Uuid)
open Db (Aside Rewrites WritesRow)

variable {C : Choice → Prop} {s : Db}

/-! ## One statement -/

/-- A condition that the clock, the references and the remembered responses do not touch. -/
def Settled (R : Db → Prop) : Prop := ∀ s s', Aside s s' → R s → R s'

theorem settled_aside (db : Db) : Settled (Aside db) := fun _ _ h haside => haside.trans h

variable {I J : Db → Prop}

theorem Settled.and (hI : Settled I) (hJ : Settled J) :
    Settled fun s => I s ∧ J s :=
  fun s s' h hs => ⟨hI s s' h hs.1, hJ s s' h hs.2⟩

theorem settled_rewrites (id : Uuid) (mid : Db) : Settled (Rewrites id mid) :=
  fun _ _ haside h => h.trans (Rewrites.of_aside id haside)

variable {α : Type} {stmt : Stmt (Except DbError α)}

/-- A statement that writes no issue, set or version, whatever it returns. -/
theorem stays_quiet (hI : Settled I) (hquiet : ∀ choice db, Aside db (stmt.exec choice db).2) :
    Stays Stmt.exec C I (query stmt) (fun _ => True) fun _ => True := by
  intro s hs
  rw [ensures_query]
  intro choice _
  cases (stmt.exec choice s).1 with
  | ok a | error e => exact ⟨hI _ _ (hquiet choice s) hs, trivial⟩

theorem Reads.settled {f : Db → α} (h : Reads stmt f) (hI : Settled I) :
    Stays Stmt.exec C I (query stmt) (fun _ => True) fun _ => True :=
  stays_quiet hI fun choice db => (h.exec choice db).1

/-- A statement whose effect leaves the issues alone does so when it fails, too. -/
theorem aside_exec (h : ∀ db, Aside db (stmt.effect db).2) (choice : Choice) (db : Db) :
    Aside db (stmt.exec choice db).2 := by
  unfold Stmt.exec
  dsimp only
  split
  · exact aside_elapse db _
  · exact (aside_elapse db _).trans (h _)

theorem aside_allocRef (projectId : Uuid) (db : Db) :
    Aside db ((Stmt.allocRef projectId).effect db).2 :=
  ⟨rfl, rfl, rfl, rfl, rfl, rfl, rfl, rfl, rfl, rfl⟩

theorem aside_storeKey (row : StoredKey) (db : Db) : Aside db ((Stmt.storeKey row).effect db).2 := by
  show Aside db (db.storeKey row)
  unfold Db.storeKey
  split
  · exact Aside.refl db
  · exact ⟨rfl, rfl, rfl, rfl, rfl, rfl, rfl, rfl, rfl, rfl⟩

/-! ## The row -/

/-- `bl::create_issue` writes a row under a fresh id, or none. -/
theorem ensures_insertRow (projectId ownerId : Uuid) (w : IssueWrite) :
    Ensures Stmt.exec C (insertRow projectId ownerId w)
      (fun row s' => ∃ mid w', Aside s mid ∧ mid.issue? row.id = none ∧
        WritesRow row.id w' mid s' ∧ w'.releaseVersionId = w.releaseVersionId ∧
        w'.releaseText = w.releaseText)
      (fun _ s' => Aside s s') s := by
  unfold insertRow
  have halloc : Stays Stmt.exec C (Aside s) (query (.allocRef projectId)) (fun _ => True)
      fun _ => True := stays_quiet (settled_aside s) (aside_exec (aside_allocRef projectId))
  refine halloc.ensures (Aside.refl s) ?_ fun _ _ h _ => h
  intro reference s' hs' _
  have hstatus : Stays Stmt.exec C (Aside s) (query (.newStatusId projectId)) (fun _ => True)
      fun _ => True := stays_quiet (settled_aside s) (aside_exec Aside.refl)
  suffices hinsert : ∀ statusId s', Aside s s' → Ensures Stmt.exec C
      (query (.insertIssue projectId ownerId reference { w with statusId := statusId })) _ _ s' by
    cases w.statusId with
    | some id => exact hinsert (some id) s' hs'
    | none =>
      exact hstatus.ensures hs' (fun statusId s' hs' _ => hinsert statusId s' hs')
        fun _ _ h _ => h
  intro statusId s' hs'
  rw [ensures_query]
  intro choice _
  unfold Stmt.exec
  dsimp only
  split
  · exact hs'.trans (aside_elapse s' _)
  · generalize hresult : Stmt.effect (.insertIssue projectId ownerId reference _) _ = result
    obtain ⟨outcome, db'⟩ := result
    cases outcome with
    | error e =>
      rw [Db.insertIssue_refused hresult]
      exact hs'.trans (aside_elapse s' _)
    | ok row =>
      obtain ⟨hfresh, hrow⟩ := Db.insertIssue_writes hresult
      exact ⟨_, _, hs'.trans (aside_elapse s' _), hfresh, hrow, rfl, rfl⟩

/-- `bl::update_issue` writes the row of the version it expects, or none. -/
theorem ensures_updateRow (projectId id : Uuid) (version : Nat) (w : IssueWrite) :
    Ensures Stmt.exec C (updateRow projectId id version w)
      (fun outcome s' => (∃ row mid, outcome = .updated row ∧ row.id = id ∧ Aside s mid ∧
          WritesRow id w mid s') ∨ (∀ row, outcome ≠ .updated row) ∧ Aside s s')
      (fun _ s' => Aside s s') s := by
  unfold updateRow
  rw [ensures_bind, ensures_query]
  intro choice _
  unfold Stmt.exec
  dsimp only
  split
  · exact aside_elapse s _
  · have hmissed : (∀ row, (Db.updateIssue projectId id version w
        { s with now := s.now + choice.elapse }).1 ≠ .ok (some row)) → _ := Db.updateIssue_missed
    generalize hresult : Db.updateIssue projectId id version w
      { s with now := s.now + choice.elapse } = result at hmissed
    show Outcome _ _ (Db.updateIssue projectId id version w _).1
      (Db.updateIssue projectId id version w _).2
    rw [hresult]
    obtain ⟨outcome, db'⟩ := result
    have haside : (∀ row, outcome ≠ .ok (some row)) → Aside s db' := by
      intro hnone
      have hsame : db' = { s with now := s.now + choice.elapse } := hmissed hnone
      rw [hsame]
      exact aside_elapse s _
    cases outcome with
    | error e => exact haside (by simp)
    | ok found =>
      cases found with
      | some row =>
        obtain ⟨hid, hrow, -⟩ := Db.updateIssue_writes hresult
        exact .inl ⟨row, _, rfl, hid, aside_elapse s _, hrow⟩
      | none =>
        refine ((reads_issueExists projectId id).settled (settled_aside s)).ensures
          (haside (by simp)) ?_ fun _ _ h _ => h
        intro found s' hs' _
        refine .inr ⟨?_, hs'⟩
        intro row
        cases found with
        | true | false => exact UpdateOutcome.noConfusion

/-! ## The sets -/

variable {id : Uuid} {db : Db} {ids : List Uuid}

theorem isSome_setIssueLabels (h : ∀ label ∈ ids, (db.catalog.labels.find? label).isSome) :
    (db.setIssueLabels id ids).isSome := by
  rw [Db.setIssueLabels, if_pos (List.all_eq_true.mpr h)]
  rfl

theorem isSome_setIssueComponents
    (h : ∀ component ∈ ids, (db.catalog.components.find? component).isSome) :
    (db.setIssueComponents id ids).isSome := by
  rw [Db.setIssueComponents, if_pos (List.all_eq_true.mpr h)]
  rfl

theorem isSome_setIssueCustomers
    (h : ∀ customer ∈ ids, (db.catalog.customers.find? customer).isSome) :
    (db.setIssueCustomers id ids).isSome := by
  rw [Db.setIssueCustomers, if_pos (List.all_eq_true.mpr h)]
  rfl

/-- Each version is there, so none of the inserts fails. -/
theorem isSome_setIssueComponentVersions {pairs : List ComponentVersion}
    (h : ∀ pair ∈ pairs, (db.version? pair.releaseVersionId).isSome) :
    (db.setIssueComponentVersions id pairs).isSome := by
  have hcleared : (db.deleteVersionRows (·.issueId == id)).releaseVersions = db.releaseVersions :=
    Db.deleteVersionRows_versions _ db
  unfold Db.setIssueComponentVersions
  generalize db.deleteVersionRows (·.issueId == id) = cleared at hcleared
  induction pairs generalizing cleared with
  | nil => rfl
  | cons pair pairs ih =>
    have hversion : (cleared.version? pair.releaseVersionId).isSome := by
      rw [Db.version?, hcleared]
      exact h pair List.mem_cons_self
    obtain ⟨next, hnext, hversions⟩ : ∃ next, cleared.insertVersion id pair = some next ∧
        next.releaseVersions = db.releaseVersions := by
      unfold Db.insertVersion
      by_cases hassigned : cleared.issueComponents.contains (id, pair.componentId) = true
      · rw [if_pos hassigned, if_pos hversion]
        exact ⟨_, rfl, hcleared⟩
      · rw [if_neg hassigned]
        exact ⟨cleared, rfl, hcleared⟩
    rw [List.foldlM_cons, hnext]
    exact ih (fun other hother => h other (List.mem_cons_of_mem _ hother)) next hversions

section Checked

variable {seen db : Db} {patch : UpdateIssueRequest} {old : FullIssue} {id : Uuid}

theorem Checked.setsLabels (h : Checked seen patch old) (hcatalog : db.catalog = seen.catalog) :
    ∀ ids ∈ patch.labels, (db.setIssueLabels id ids).isSome := by
  intro ids hids
  apply isSome_setIssueLabels
  intro label hlabel
  rw [hcatalog]
  exact h.labels label (by rw [hids]; exact hlabel)

theorem Checked.setsComponents (h : Checked seen patch old) (hcatalog : db.catalog = seen.catalog) :
    ∀ ids ∈ patch.components, (db.setIssueComponents id ids).isSome := by
  intro ids hids
  apply isSome_setIssueComponents
  intro component hcomponent
  rw [hcatalog]
  exact h.components component (by rw [hids]; exact hcomponent)

theorem Checked.setsPairs (h : Checked seen patch old)
    (hversions : db.releaseVersions = seen.releaseVersions) :
    ∀ pairs ∈ patch.componentVersions, (db.setIssueComponentVersions id pairs).isSome := by
  intro pairs hpairs
  apply isSome_setIssueComponentVersions
  intro pair hpair
  rw [Db.version?, hversions]
  exact (h.pairs pairs hpairs pair hpair).2

theorem Checked.setsCustomers (h : Checked seen patch old) (hcatalog : db.catalog = seen.catalog) :
    ∀ ids ∈ patch.customerIds, (db.setIssueCustomers id ids).isSome := by
  intro ids hids
  apply isSome_setIssueCustomers
  intro customer hcustomer
  rw [hcatalog]
  exact h.customers customer (by rw [hids]; exact hcustomer)

end Checked

/-- Whichever way a handler ends, it leaves a state of `R`. -/
def Leaves {α : Type} (C : Choice → Prop) (p : Handler α) (R : Db → Prop) (s : Db) : Prop :=
  Ensures Stmt.exec C p (fun _ => R) (fun _ => R) s

/-- The replacement of a set, where a request gives one, takes states of `I` to
states of `J`; where it stops, it leaves a state of `R`. -/
structure Phase {α : Type} (C : Choice → Prop) (set : α → Db → Option Db) (given : Option α)
    (I J R : Db → Prop) : Prop where
  skipped : given = none → ∀ s, I s → J s
  done : ∀ a ∈ given, ∀ s s', I s → set a s = some s' → J s'
  refused : ∀ a ∈ given, ∀ s, I s → set a s = none → R s
  failed : ∀ choice, C choice → choice.fails = true → ∀ s, I s → R s

variable {set : α → Db → Option Db} {given : Option α}

/-- A phase that keeps what every failure may leave. -/
theorem Phase.of_kept (h : ∀ a s s', I s → set a s = some s' → I s') : Phase C set given I I I :=
  ⟨fun _ _ hs => hs, fun a _ s s' hs => h a s s' hs, fun _ _ _ hs _ => hs, fun _ _ _ _ hs => hs⟩

variable {R : Db → Prop}

/-- A phase of a run in which no statement fails and what is set is there. -/
theorem Phase.of_calm (hC : ∀ choice, C choice → choice.fails = false)
    (hskipped : given = none → ∀ s, I s → J s)
    (hdone : ∀ a ∈ given, ∀ s s', I s → set a s = some s' → J s')
    (hsome : ∀ a ∈ given, ∀ s, I s → (set a s).isSome) : Phase C set given I J R := by
  refine ⟨hskipped, hdone, ?_, ?_⟩
  · intro a ha s hs hset
    have hfound := hsome a ha s hs
    rw [hset] at hfound
    contradiction
  · intro choice hchoice hfails
    rw [hC choice hchoice] at hfails
    contradiction

/-- A phase whose states all satisfy what a failure may leave. -/
theorem Phase.of_within (hR : ∀ s, I s → R s) (hskipped : given = none → ∀ s, I s → J s)
    (hdone : ∀ a ∈ given, ∀ s s', I s → set a s = some s' → J s') : Phase C set given I J R :=
  ⟨hskipped, hdone, fun _ _ s hs _ => hR s hs, fun _ _ _ s hs => hR s hs⟩

theorem ensures_commit {stmt : Stmt (Except DbError Unit)} {set : Db → Option Db}
    (heffect : ∀ db, stmt.effect db = db.commit (set db))
    (hfailure : ∀ db, stmt.failure db = .error .failed) (hI : Settled I)
    (hdone : ∀ s s', I s → set s = some s' → J s') (hrefused : ∀ s, I s → set s = none → R s)
    (hfailed : ∀ choice, C choice → choice.fails = true → ∀ s, I s → R s) (hs : I s) :
    Ensures Stmt.exec C (orInternal (query stmt)) (fun _ => J)
      (fun problem s => problem = internal ∧ R s) s := by
  unfold orInternal
  rw [ensures_attempt, ensures_query]
  intro choice hchoice
  have hlater := hI _ _ (aside_elapse s choice.elapse) hs
  unfold Stmt.exec
  dsimp only
  split
  · rename_i hfails
    rw [hfailure]
    exact ⟨rfl, hfailed choice hchoice hfails _ hlater⟩
  · rw [heffect]
    unfold Db.commit
    cases hset : set { s with now := s.now + choice.elapse } with
    | some after => exact hdone _ _ hlater hset
    | none => exact ⟨rfl, hrefused _ hlater hset⟩

/-- What is done with a set that a request may give. -/
def withGiven {α : Type} (given : Option α) (set : α → Handler Unit) : Handler Unit :=
  match given with
  | none => pure ()
  | some a => set a

theorem ensures_phase {stmt : α → Stmt (Except DbError Unit)} (hphase : Phase C set given I J R)
    (heffect : ∀ a db, (stmt a).effect db = db.commit (set a db))
    (hfailure : ∀ a db, (stmt a).failure db = .error .failed) (hI : Settled I) (hs : I s) :
    Ensures Stmt.exec C (withGiven given fun a => orInternal (query (stmt a))) (fun _ => J)
      (fun problem s => problem = internal ∧ R s) s := by
  cases given with
  | none => exact hphase.skipped rfl s hs
  | some a =>
    exact ensures_commit (heffect a) (hfailure a) hI (hphase.done a rfl) (hphase.refused a rfl)
      hphase.failed hs

theorem replaceSets_eq (id : Uuid) (labels components customerIds : Option (List Uuid))
    (pairs : Option (List ComponentVersion)) :
    replaceSets id labels components pairs customerIds = (do
      withGiven labels fun ids => orInternal (query (.setIssueLabels id ids))
      withGiven components fun ids => orInternal (query (.setIssueComponents id ids))
      withGiven pairs fun pairs => orInternal (query (.setIssueComponentVersions id pairs))
      withGiven customerIds fun ids => orInternal (query (.setIssueCustomers id ids))) := by
  cases labels <;> cases components <;> cases pairs <;> cases customerIds <;> rfl

/-- The sets are replaced one after the other. -/
theorem ensures_replaceSets {labels components customerIds : Option (List Uuid)}
    {pairs : Option (List ComponentVersion)} {K : Db → Prop} (hI : Settled I) (hJ : Settled J)
    (hK : Settled K) (hlabels : Phase C (Db.setIssueLabels id) labels I I R)
    (hcomponents : Phase C (Db.setIssueComponents id) components I J R)
    (hpairs : Phase C (Db.setIssueComponentVersions id) pairs J K R)
    (hcustomers : Phase C (Db.setIssueCustomers id) customerIds K K R) (hs : I s) :
    Ensures Stmt.exec C (replaceSets id labels components pairs customerIds) (fun _ => K)
      (fun problem s => problem = internal ∧ R s) s := by
  rw [replaceSets_eq, ensures_bind]
  refine (ensures_phase hlabels (fun _ _ => rfl) (fun _ _ => rfl) hI hs).mono ?_ fun _ _ h => h
  intro _ s hs
  rw [ensures_bind]
  refine (ensures_phase hcomponents (fun _ _ => rfl) (fun _ _ => rfl) hI hs).mono ?_ fun _ _ h => h
  intro _ s hs
  rw [ensures_bind]
  refine (ensures_phase hpairs (fun _ _ => rfl) (fun _ _ => rfl) hJ hs).mono ?_ fun _ _ h => h
  exact fun _ s hs => ensures_phase hcustomers (fun _ _ => rfl) (fun _ _ => rfl) hK hs

/-! ## Handlers -/

theorem Settled.stays (hI : Settled I) {p : Handler α} {P : α → Prop} {E : Problem → Prop}
    (h : ∀ db, Stays Stmt.exec C (Aside db) p P E) :
    Stays Stmt.exec C I p P E := by
  intro s hs
  apply (h s s (Aside.refl s)).mono
  · exact fun _ s' h => ⟨hI s s' h.1 hs, h.2⟩
  · exact fun _ s' h => ⟨hI s s' h.1 hs, h.2⟩

/-- A handler that stays with what it found leaves it so. -/
theorem Stays.leaves {β : Type} {p : Handler α} {f : α → Handler β} {P : α → Prop}
    {E : Problem → Prop} (h : Stays Stmt.exec C I p P E) (hs : I s)
    (hf : ∀ a s, I s → P a → Leaves C (f a) R s) (hR : ∀ s, I s → R s) : Leaves C (p >>= f) R s :=
  h.ensures hs hf fun _ s hs _ => hR s hs

theorem stays_reread (projectId id : Uuid) (db : Db) :
    Stays Stmt.exec C (Aside db) (reread projectId id) (fun _ => True) Other := by
  unfold reread
  refine stays_bind (stays_orInternal (stays_getIssue projectId id) other_internal) fun found _ => ?_
  cases found with
  | none => exact stays_throw other_internal
  | some full => exact stays_pure trivial

theorem stays_replay (userId : Uuid) (key : Option String) (path : String) (db : Db) :
    Stays Stmt.exec C (Aside db) (replay userId key path) (fun _ => True) Other := by
  cases key with
  | none => exact stays_pure trivial
  | some key =>
    exact stays_attempt (stays_quiet (settled_aside db) (aside_exec Aside.refl))
      (stays_pure trivial)

theorem stays_remember (userId : Uuid) (key : Option String) (path : String) (body : FullIssue)
    (db : Db) : Stays Stmt.exec C (Aside db) (remember userId key path body) (fun _ => True)
      Other := by
  cases key with
  | none => exact stays_pure trivial
  | some key =>
    refine stays_bind (R := fun _ => True) ?_ fun now _ => ?_
    · intro s hs
      refine ensures_lift.mpr fun choice _ => ⟨?_, trivial⟩
      unfold Stmt.exec
      dsimp only
      split
      · exact hs.trans (aside_elapse s _)
      · exact hs.trans (aside_elapse s _)
    · exact stays_attempt (stays_quiet (settled_aside db) (aside_exec (aside_storeKey _)))
        (stays_pure trivial)

/-- The row of the request was inserted, and nothing else was written. -/
def Inserted (req : CreateIssueRequest) (id : Uuid) (s s' : Db) : Prop :=
  ∃ mid w after, Aside s mid ∧ mid.issue? id = none ∧ WritesRow id w mid after ∧
    w.releaseVersionId = req.releaseVersionId ∧ w.releaseText = req.releaseText ∧ Aside after s'

/-- What holds before an issue is written holds with its row and with its sets. -/
def Creates (C : Choice → Prop) (R : Db → Prop) (req : CreateIssueRequest) : Prop :=
  ∀ s id s', R s → Inserted req id s s' → R s' ∧ Leaves C (fillSets id req) R s'

variable {ctx : Context} {req : CreateIssueRequest}

theorem leaves_insertRow {next : Issue → Handler α} (hR : Settled R) (hs : R s)
    (h : ∀ row s', Inserted req row.id s s' → Leaves C (next row) R s') :
    Leaves C (do next (← orInternal (insertRow ctx.projectId ctx.actorId (writeFromCreate req))))
      R s := by
  unfold Leaves orInternal
  rw [ensures_bind, ensures_attempt]
  apply (ensures_insertRow ctx.projectId ctx.actorId (writeFromCreate req)).mono
  · rintro row s' ⟨mid, w, hmid, hfresh, hwrites, hversion, htext⟩
    exact h row s' ⟨mid, w, s', hmid, hfresh, hwrites, hversion, htext, Aside.refl s'⟩
  · exact fun _ s' haside => hR s s' haside hs

/-- The sets of a new issue, and what is read once they are there. -/
theorem leaves_fillSets {next : Unit → Handler α} (h : Leaves C (fillSets id req) R s)
    (hnext : ∀ s, R s → Leaves C (next ()) R s) : Leaves C (fillSets id req >>= next) R s := by
  unfold Leaves
  rw [ensures_bind]
  apply Ensures.mono h
  · exact fun _ s hs => hnext s hs
  · exact fun _ _ hs => hs

theorem leaves_createNew {key : Option String} (hR : Settled R) (h : Creates C R req) (hs : R s) :
    Leaves C (createNew ctx key req) R s := by
  unfold createNew
  apply leaves_insertRow hR hs
  rintro row s' ⟨mid, w, after, hmid, hfresh, hwrites, hversion, htext, hafter⟩
  have hinserted : ∀ s'', Aside s' s'' → Inserted req row.id s s'' := fun s'' h =>
    ⟨mid, w, after, hmid, hfresh, hwrites, hversion, htext, hafter.trans h⟩
  refine Stays.leaves (stays_validateComponentVersions _ _) (Aside.refl s') ?_
    fun s'' haside => (h s row.id s'' hs (hinserted s'' haside)).1
  intro _ s'' haside _
  apply leaves_fillSets (h s row.id s'' hs (hinserted s'' haside)).2
  intro s hs
  refine Stays.leaves (hR.stays (stays_reread ctx.projectId row.id)) hs ?_ fun _ hs => hs
  intro full s hs _
  refine Stays.leaves (hR.stays (stays_remember ctx.actorId key _ full)) hs ?_ fun _ hs => hs
  exact fun _ s hs _ => hs

variable {problem : Problem}

theorem other_status (h : problem.status ≠ 422) : Other problem :=
  fun heq => h (congrArg Problem.status heq)

theorem parseCreate_ok {body : CreateBody α} {req : α} (h : parseCreate body = .ok req) :
    body = .valid req := by
  cases body with
  | unreadable => contradiction
  | invalid => contradiction
  | valid req' => rw [Except.ok.inj h]

theorem parseCreate_error {body : CreateBody α} (h : parseCreate body = .error problem) :
    Other problem := by
  cases body with
  | unreadable =>
    rw [← Except.error.inj h]
    exact other_status (by decide)
  | invalid =>
    rw [← Except.error.inj h]
    exact other_unprocessable (by decide)
  | valid req => contradiction

/-- What the checks of a new issue let through. -/
structure NewPasses (db : Db) (projectId : Uuid) (req : CreateIssueRequest) : Prop where
  sets : SetsPass db projectId req.labels req.components
  associations : AssociationsPass db projectId req.epicId req.parentId req.milestoneId
  extras : ExtrasPass db projectId req.customerIds req.releaseVersionId req.releaseText

theorem stays_validateNew (projectId : Uuid) (req : CreateIssueRequest) (db : Db) :
    Stays Stmt.exec C (Aside db) (validateNew projectId req) (fun _ => NewPasses db projectId req)
      fun _ => True := by
  unfold validateNew
  refine stays_bind ((stays_validateLabelComponentIds projectId _ _).mono (fun _ h => h)
    fun _ _ => trivial) fun _ hsets => ?_
  refine stays_bind ((stays_validateIssueAssociations projectId _ _ _).mono (fun _ h => h)
    fun _ _ => trivial) fun _ hassociations => ?_
  exact (stays_validateIssueExtras projectId _ _ _).mono
    (fun _ hextras => ⟨hsets, hassociations, hextras⟩) fun _ _ => trivial

theorem stays_allowed (ctx : Context) (db : Db) :
    Stays Stmt.exec C (Aside db) (ensure ctx.allowed forbidden) (fun _ => ctx.allowed = true)
      Other := stays_ensure fun _ => other_status (by decide)

theorem leaves_createIssue {key : Option String} {body : CreateBody CreateIssueRequest}
    (hR : Settled R) (hs : R s)
    (h : ∀ req, body = .valid req → Exclusive req.releaseVersionId req.releaseText →
      Creates C R req) : Leaves C (createIssue ctx key body) R s := by
  unfold createIssue
  refine Stays.leaves (hR.stays (stays_allowed ctx)) hs ?_ fun _ hs => hs
  intro _ s hs _
  refine Stays.leaves (I := R) (stays_decided fun _ => parseCreate_error) hs ?_ fun _ hs => hs
  intro req s hs hbody
  refine Stays.leaves (hR.stays fun db => (stays_validateNew ctx.projectId req db).mono
    (fun _ h => h.extras.exclusive) fun _ h => h) hs ?_ fun _ hs => hs
  intro _ s hs hexclusive
  refine Stays.leaves (hR.stays (stays_replay ctx.actorId key _)) hs ?_ fun _ hs => hs
  intro stored s hs _
  cases stored with
  | some stored => exact hs
  | none => exact leaves_createNew hR (h req (parseCreate_ok hbody) hexclusive) hs

theorem leaves_createItems {items : List CreateIssueRequest} (hR : Settled R)
    (h : ∀ req ∈ items, Creates C R req) (hs : R s) :
    Leaves C (createItems ctx items) R s := by
  induction items generalizing s with
  | nil => exact hs
  | cons req rest ih =>
    rw [createItems]
    apply leaves_insertRow hR hs
    intro row s' hrow
    apply leaves_fillSets (h req List.mem_cons_self s row.id s' hs hrow).2
    intro s hs
    refine Stays.leaves (hR.stays (stays_reread ctx.projectId row.id)) hs ?_ fun _ hs => hs
    intro full s hs _
    have hrest := ih (fun other hother => h other (List.mem_cons_of_mem _ hother)) hs
    unfold Leaves at hrest ⊢
    rw [ensures_bind]
    exact hrest.mono (fun _ _ hs => hs) fun _ _ hs => hs

theorem leaves_bulkCreateIssues {body : CreateBody (List CreateIssueRequest)} (hR : Settled R)
    (hs : R s)
    (h : ∀ items, body = .valid items → ∀ req ∈ items,
      Exclusive req.releaseVersionId req.releaseText → Creates C R req) :
    Leaves C (bulkCreateIssues ctx body) R s := by
  unfold bulkCreateIssues
  refine Stays.leaves (hR.stays (stays_allowed ctx)) hs ?_ fun _ hs => hs
  intro _ s hs _
  refine Stays.leaves (I := R) (stays_decided fun _ => parseCreate_error) hs ?_ fun _ hs => hs
  intro items s hs hbody
  refine Stays.leaves (stays_forM fun req _ => hR.stays fun db =>
    (stays_validateNew ctx.projectId req db).mono (fun _ h => h.extras.exclusive) fun _ h => h) hs
    ?_ fun _ hs => hs
  intro _ s hs hexclusive
  have hitems : Leaves C (createItems ctx items) R s := leaves_createItems hR
    (fun req hreq => h items (parseCreate_ok hbody) req hreq (hexclusive req hreq)) hs
  unfold Leaves at hitems ⊢
  rw [ensures_bind]
  exact hitems.mono (fun _ _ hs => hs) fun _ _ hs => hs

/-- The write phase of a patch: the row, and then the sets. -/
theorem leaves_writePatch {projectId : Uuid} {patch : UpdateIssueRequest} {old : FullIssue}
    (hR : Settled R) (hs : R s)
    (h : ∀ mid s', Aside s mid → WritesRow old.id (patch.over old.toIssue) mid s' →
      Leaves C (replaceSets old.id patch.labels patch.components patch.componentVersions
        patch.customerIds) R s') : Leaves C (writePatch projectId patch old) R s := by
  unfold writePatch Leaves orInternal
  rw [ensures_bind, ensures_attempt]
  apply (ensures_updateRow projectId old.id old.version (patch.over old.toIssue)).mono
  · rintro outcome s' (⟨row, mid, rfl, hid, hmid, hwrites⟩ | ⟨hmissed, haside⟩)
    · have hsets := h mid s' hmid hwrites
      rw [← hid] at hsets
      refine ensures_bind.mpr (Ensures.mono hsets ?_ fun _ _ hs => hs)
      intro _ s hs
      exact Stays.leaves (hR.stays (stays_reread projectId row.id)) hs (fun _ _ hs _ => hs)
        fun _ hs => hs
    · cases outcome with
      | updated row => exact absurd rfl (hmissed row)
      | conflict => exact hR s s' haside hs
      | notFound => exact hR s s' haside hs
  · exact fun _ s' haside => hR s s' haside hs

theorem leaves_updateIssue {req : UpdateRequest} (hR : Settled R) (hs : R s)
    (h : ∀ patch old mid s', Comes s ctx req patch old → Checked s patch old →
      Aside s mid → WritesRow old.id (patch.over old.toIssue) mid s' →
      Leaves C (replaceSets old.id patch.labels patch.components patch.componentVersions
        patch.customerIds) R s') : Leaves C (updateIssue ctx req) R s := by
  apply ensures_updateIssue
  · exact fun s' _ haside _ => hR s s' haside hs
  · intro s' patch old haside hcomes hpasses
    apply leaves_writePatch hR (hR s s' haside hs)
    exact fun mid s'' hmid => h patch old mid s'' hcomes hpasses.checked (haside.trans hmid)

/-- A query that fails has done nothing but wait. -/
theorem leaves_attempt {β : Type} {next : α → Handler β} (hR : Settled R) (hs : R s)
    (h : ∀ s', Aside s s' → R (stmt.effect s').2 ∧
      ∀ a, (stmt.effect s').1 = .ok a → Leaves C (next a) R (stmt.effect s').2)
    (hfailure : ∀ db, stmt.failure db = .error .failed) :
    Leaves C (attempt (query stmt) (throw problem) >>= next) R s := by
  unfold Leaves
  rw [ensures_bind, ensures_attempt, ensures_query]
  intro choice _
  have haside := aside_elapse s choice.elapse
  unfold Stmt.exec
  dsimp only
  split
  · rw [hfailure]
    exact hR _ _ haside hs
  · obtain ⟨hstate, hnext⟩ := h _ haside
    cases hresult : (stmt.effect { s with now := s.now + choice.elapse }).1 with
    | ok a => exact hnext a hresult
    | error e => exact hstate

theorem ensures_version (outcome : Except DbError Unit) {db : Db} (hdb : R db) :
    Ensures Stmt.exec C (match outcome with
      | .ok () => pure Answer.version
      | .error .uniqueViolation =>
        throw (releaseProblem 409 "already_exists" (some "version already exists"))
      | .error .failed => throw (releaseProblem 500 "internal_error" none))
      (fun _ => R) (fun _ => R) db := by
  rcases outcome with (_ | _) | _
  · exact hdb
  · exact hdb
  · exact hdb

theorem leaves_createVersion {releaseId : Uuid} {body : CreateBody String} (hR : Settled R)
    (hs : R s) (h : ∀ version s', Aside s s' → R (s'.createVersion releaseId version).2) :
    Leaves C (createVersion ctx releaseId body) R s := by
  unfold createVersion
  refine Stays.leaves (stays_allowed ctx s) (Aside.refl s) ?_ fun s' haside => hR s s' haside hs
  intro _ s' haside _
  refine Stays.leaves (E := fun _ => True) (stays_decided fun _ _ => trivial) haside ?_
    fun s' haside => hR s s' haside hs
  intro version s' haside _
  refine Stays.leaves (stays_attempt (stays_read (reads_releaseInProject ctx.projectId releaseId))
    (stays_throw (E := fun _ => True) trivial)) haside ?_ fun s' haside => hR s s' haside hs
  intro found s' haside _
  refine Stays.leaves (E := fun _ => True) (stays_ensure fun _ => trivial) haside ?_
    fun s' haside => hR s s' haside hs
  intro _ s' haside _
  unfold Leaves
  rw [ensures_bind, ensures_lift]
  intro choice _
  have hlater := haside.trans (aside_elapse s' choice.elapse)
  have hstate : R ((Stmt.createVersion releaseId version).exec choice s').2 := by
    unfold Stmt.exec
    dsimp only
    split
    · exact hR _ _ hlater hs
    · exact h version _ hlater
  exact ensures_version _ hstate

theorem leaves_deleteVersion (hR : Settled R) (hs : R s)
    (h : ∀ s', Aside s s' → ctx.allowed = true → R (s'.deleteVersion ctx.projectId id).2) :
    Leaves C (deleteVersion ctx id) R s := by
  unfold deleteVersion
  refine Stays.leaves (stays_allowed ctx s) (Aside.refl s) ?_ fun s' haside => hR s s' haside hs
  intro _ s' haside hallowed
  refine leaves_attempt hR (hR s s' haside hs) ?_ fun _ => rfl
  intro s'' haside'
  have hdeleted := h s'' (haside.trans haside') hallowed
  refine ⟨hdeleted, ?_⟩
  intro found _
  refine Stays.leaves (I := R) (E := fun _ => True) (stays_ensure fun _ => trivial) hdeleted ?_
    fun _ hs => hs
  exact fun _ _ hs _ => hs

/-! ## One request after the other -/

/-- A request with what the environment does to its statements. -/
structure Turn where
  request : Request
  choices : Nat → Choice

/-- No statement fails. -/
def Turn.Calm (turn : Turn) : Prop := ∀ n, (turn.choices n).fails = false

/-- The handlers, each of which runs alone. -/
def server : Server Db Turn (Except Problem Answer) where
  handle turn db := turn.request.handler.run.alone Stmt.exec turn.choices db

theorem next_of_leaves {turn : Turn} (hC : ∀ n, C (turn.choices n))
    (h : Leaves C turn.request.handler R s) : R (server.next s turn) := by
  have houtcome := Prog.Ends.alone h hC
  show R (turn.request.handler.run.alone Stmt.exec turn.choices s).2
  cases hanswer : (turn.request.handler.run.alone Stmt.exec turn.choices s).1 with
  | ok answer | error problem =>
    rw [hanswer] at houtcome
    exact houtcome

/-- Whatever the environment does to the statements. -/
theorem next_of_leaves_any {turn : Turn} (h : Leaves (fun _ => True) turn.request.handler R s) :
    R (server.next s turn) :=
  next_of_leaves (fun _ => trivial) h

end IntelliPilot.Issues
