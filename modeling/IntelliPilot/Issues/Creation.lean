import IntelliPilot.Issues.ReleaseMirror
import IntelliPilot.Statement.Handlers

/-! # What a refused creation leaves

An issue is inserted before its component versions are checked and its sets are
written, each in a statement of its own, and nothing takes the row back. The
handlers are those of `create_issue` and `bulk_create_issues` with the history
entries they record.
-/

namespace IntelliPilot.Issues

open Http Statement
open Imports (Uuid)
open Db (Aside)

/-! ## History -/

/-- A row of `history_entries` whose diff is that the entity was created. -/
structure HistoryEntry where
  projectId : Uuid
  targetType : String
  targetId : Uuid
  actorId : Option Uuid
  deriving DecidableEq, Repr

inductive HistoryStmt : Type → Type where
  | insert (entry : HistoryEntry) : HistoryStmt (Except DbError Unit)

/-- The statements of a creation. -/
abbrev RecordedStmt (β : Type) : Type := Stmt β ⊕ HistoryStmt β

structure Store where
  db : Db
  history : List HistoryEntry

def Store.put (db : Db) (store : Store) : Store := { store with db := db }

/-- Time passes, then the statement runs or fails. -/
def execRecorded {β : Type} (stmt : RecordedStmt β) (choice : Choice) (store : Store) : β × Store :=
  match stmt with
  | .inl stmt => ((stmt.exec choice store.db).1, store.put (stmt.exec choice store.db).2)
  | .inr (.insert entry) =>
      let store := store.put { store.db with now := store.db.now + choice.elapse }
      if choice.fails then (.error .failed, store)
      else (.ok (), { store with history := store.history ++ [entry] })

abbrev Recorder := ExceptT Problem (Prog RecordedStmt)

/-- A part of a handler that records no history. -/
def plain {α : Type} (p : Handler α) : Recorder α := ExceptT.mk (p.run.translate .inl)

/-- `history::record`, whose failure is passed over. -/
def record (entry : HistoryEntry) : Recorder Unit :=
  ExceptT.lift do
    let _ ← Prog.call (.inr (.insert entry) : RecordedStmt (Except DbError Unit))
    pure ()

/-! ## The handlers -/

/-- `create_issue`. -/
def createRecorded (ctx : Context) (key : Option String) (body : CreateBody CreateIssueRequest) :
    Recorder Answer := do
  plain (ensure ctx.allowed forbidden)
  let req ← plain (decided (parseCreate body))
  plain (validateNew ctx.projectId req)
  match ← plain (replay ctx.actorId key (issuesPath ctx.projectId)) with
  | some (status, stored) => return .replayed status stored
  | none =>
      let row ← plain (orInternal (insertRow ctx.projectId ctx.actorId (writeFromCreate req)))
      plain (validateComponentVersions req.componentVersions req.components)
      plain (fillSets row.id req)
      let full ← plain (reread ctx.projectId row.id)
      record ⟨ctx.projectId, "issue", full.id, some ctx.actorId⟩
      plain (remember ctx.actorId key (issuesPath ctx.projectId) full)
      return .issue 201 full

/-- The loop of `bulk_create_issues` that writes. -/
def createItemsRecorded (ctx : Context) : List CreateIssueRequest → Recorder (List FullIssue)
  | [] => pure []
  | req :: rest => do
      let row ← plain (orInternal (insertRow ctx.projectId ctx.actorId (writeFromCreate req)))
      plain (fillSets row.id req)
      record ⟨ctx.projectId, "issue", row.id, some ctx.actorId⟩
      let full ← plain (reread ctx.projectId row.id)
      return full :: (← createItemsRecorded ctx rest)

/-- `bulk_create_issues`. -/
def bulkCreateRecorded (ctx : Context) (body : CreateBody (List CreateIssueRequest)) :
    Recorder Answer := do
  plain (ensure ctx.allowed forbidden)
  let items ← plain (decided (parseCreate body))
  plain (items.forM (validateNew ctx.projectId))
  return .issues (← createItemsRecorded ctx items)

/-- A request to create issues. -/
inductive Creation where
  | create (ctx : Context) (key : Option String) (body : CreateBody CreateIssueRequest)
  | bulk (ctx : Context) (body : CreateBody (List CreateIssueRequest))

namespace Creation

def handler : Creation → Recorder Answer
  | .create ctx key body => createRecorded ctx key body
  | .bulk ctx body => bulkCreateRecorded ctx body

def ctx : Creation → Context
  | .create ctx _ _ => ctx
  | .bulk ctx _ => ctx

/-- The issues that are asked for, where the body is fine. -/
def items? : Creation → Option (List CreateIssueRequest)
  | .create _ _ (.valid req) => some [req]
  | .bulk _ (.valid items) => some items
  | _ => none

end Creation

/-! ## The obligation -/

/-- No row of an issue, of its sets or of its history was added or lost. -/
structure Untouched (store store' : Store) : Prop where
  issues : store'.db.issues = store.db.issues
  labels : store'.db.issueLabels = store.db.issueLabels
  components : store'.db.issueComponents = store.db.issueComponents
  customers : store'.db.issueCustomers = store.db.issueCustomers
  versions : store'.db.componentVersions = store.db.componentVersions
  history : store'.history = store.history

/-- The rules of `create_issue` for an issue, in a project. -/
structure Obeys (db : Db) (projectId : Uuid) (req : CreateIssueRequest) : Prop where
  passes : NewPasses db projectId req
  pairs : PairsPass db req.componentVersions req.components

/-- What is stored keeps the rules; a replayed answer stores nothing. -/
def KeepsRules (db : Db) (request : Creation) : Answer → Prop
  | .replayed _ _ => True
  | _ => ∀ items, request.items? = some items → ∀ item ∈ items, Obeys db request.ctx.projectId item

/-- A refused request leaves nothing behind, and one that stores issues stores
such as keep the rules. -/
def AllOrNothing (store : Store) (request : Creation) (choices : Nat → Choice) : Prop :=
  match request.handler.run.alone execRecorded choices store with
  | (.error _, store') => Untouched store store'
  | (.ok answer, _) => KeepsRules store.db request answer

/-- The columns of a new issue, with the status it gets. -/
def landing (db : Db) (projectId : Uuid) (req : CreateIssueRequest) : IssueWrite :=
  { writeFromCreate req with
    statusId := match req.statusId with
      | some id => some id
      | none => db.catalog.newStatusId projectId }

/-- The request gets as far as to insert an issue: it is allowed, its items pass
the first checks, and the columns of the first one refer to what is there. -/
def ComesToInsert (db : Db) (request : Creation) : Prop :=
  request.ctx.allowed = true ∧ ∃ first rest, request.items? = some (first :: rest) ∧
    (∀ item ∈ first :: rest, NewPasses db request.ctx.projectId item) ∧
    db.accepts (landing db request.ctx.projectId first) = true

/-! ## Parts without history -/

section Plain

variable {C : Choice → Prop} {α : Type} {p : Handler α} {store : Store} {E : Problem → Store → Prop}

theorem ensures_plain {Q : α → Store → Prop} :
    Ensures execRecorded C (plain p) Q E store ↔
      Ensures Stmt.exec C p (fun a db => Q a (store.put db)) (fun e db => E e (store.put db))
        store.db := by
  unfold Ensures plain
  rw [ExceptT.run_mk, Prog.ends_translate Store.db Store.put (fun _ _ => rfl)
    (fun _ _ _ => rfl) (fun _ => rfl) (fun _ _ _ => rfl)]
  constructor
  · intro h
    apply h.mono
    rintro (e | a) s houtcome
    · exact houtcome
    · exact houtcome
  · intro h
    apply h.mono
    rintro (e | a) s houtcome
    · exact houtcome
    · exact houtcome

/-- Nothing was done to the issues and their history. -/
structure Idle (store store' : Store) : Prop where
  db : Aside store.db store'.db
  history : store'.history = store.history

theorem Idle.refl (store : Store) : Idle store store := ⟨Aside.refl _, rfl⟩

theorem Idle.untouched {store' : Store} (h : Idle store store') : Untouched store store' :=
  ⟨h.db.issues, h.db.labels, h.db.components, h.db.customers, h.db.rows, h.history⟩

/-- A part that leaves the issues alone, and what follows it. -/
theorem ensures_idle_bind {β : Type} {f : α → Recorder β} {P : α → Prop} {F : Problem → Prop}
    {Q : β → Store → Prop} {store' : Store} (hp : Stays Stmt.exec C (Aside store.db) p P F)
    (hidle : Idle store store')
    (hnext : ∀ a store'', Idle store store'' → P a → Ensures execRecorded C (f a) Q E store'')
    (herror : ∀ e store'', Idle store store'' → E e store'') :
    Ensures execRecorded C (plain p >>= f) Q E store' := by
  rw [ensures_bind, ensures_plain]
  apply (hp store'.db hidle.db).mono
  · intro a db h
    exact hnext a _ ⟨h.1, hidle.history⟩ h.2
  · intro e db h
    exact herror e _ ⟨h.1, hidle.history⟩

end Plain

/-! ## Requests that do not come to insert -/

section Refused

variable {C : Choice → Prop}

theorem accepts_aside {db db' : Db} (h : Aside db db') (w : IssueWrite) :
    db'.accepts w = db.accepts w := by
  simp only [Db.accepts, Db.hasItem, Db.hasUser, Db.issue?, Db.version?, h.catalog, h.epics,
    h.issues, h.versions]

/-- A row that refers to what is not there is not inserted. -/
theorem stays_insertRow_refused {db : Db} {projectId ownerId : Uuid} {req : CreateIssueRequest}
    (h : db.accepts (landing db projectId req) ≠ true) :
    Stays Stmt.exec C (Aside db) (insertRow projectId ownerId (writeFromCreate req))
      (fun _ => False) fun _ => True := by
  unfold insertRow
  refine stays_bind (stays_quiet (settled_aside db) (aside_exec (aside_allocRef projectId)))
    fun reference _ => ?_
  have hinsert : ∀ w, w = landing db projectId req → Stays Stmt.exec C (Aside db)
      (query (.insertIssue projectId ownerId reference w)) (fun _ => False) fun _ => True := by
    rintro _ rfl s hs
    rw [ensures_query]
    intro choice _
    have hlater := hs.trans (aside_elapse s choice.elapse)
    unfold Stmt.exec
    dsimp only
    split
    · exact ⟨hlater, trivial⟩
    · have hrefused : Db.insertIssue projectId ownerId reference (landing db projectId req)
          { s with now := s.now + choice.elapse } =
            (.error .failed, { s with now := s.now + choice.elapse }) := by
        unfold Db.insertIssue
        rw [if_neg]
        rw [accepts_aside hlater]
        exact h
      show Outcome _ _ (Db.insertIssue _ _ _ _ _).1 (Db.insertIssue _ _ _ _ _).2
      rw [hrefused]
      exact ⟨hlater, trivial⟩
  have hstatus : (writeFromCreate req).statusId = req.statusId := rfl
  rw [hstatus]
  cases hgiven : req.statusId with
  | some id => exact hinsert _ (by rw [landing, hgiven])
  | none =>
    refine stays_bind (stays_read (reads_newStatusId projectId)) fun statusId hfound => ?_
    exact hinsert _ (by rw [landing, hgiven, hfound])

/-- How a request ends that stores nothing. -/
def StoresNone (request : Creation) : Answer → Prop
  | .replayed _ _ => True
  | _ => request.items? = some []

theorem keepsRules_of_none {db : Db} {request : Creation} {answer : Answer}
    (h : StoresNone request answer) : KeepsRules db request answer := by
  have hnone : request.items? = some [] → ∀ items, request.items? = some items →
      ∀ item ∈ items, Obeys db request.ctx.projectId item := by
    intro hempty items hitems item hitem
    rw [← Option.some.inj (hempty.symm.trans hitems)] at hitem
    cases hitem
  cases answer with
  | replayed status stored => exact trivial
  | issue status full | issues created | version | noContent => exact hnone h

variable {store : Store}

theorem ensures_refused_create {ctx : Context} {key : Option String}
    {body : CreateBody CreateIssueRequest} (h : ¬ ComesToInsert store.db (.create ctx key body)) :
    Ensures execRecorded C (createRecorded ctx key body)
      (fun answer _ => StoresNone (.create ctx key body) answer)
      (fun _ store' => Untouched store store') store := by
  unfold createRecorded
  refine ensures_idle_bind (stays_allowed ctx store.db) (Idle.refl store) ?_
    fun _ _ hidle => hidle.untouched
  intro _ store₁ hidle₁ hallowed
  refine ensures_idle_bind (stays_decided fun _ _ => trivial) hidle₁ ?_
    fun _ _ hidle => hidle.untouched
  intro req store₂ hidle₂ hbody
  obtain rfl := parseCreate_ok hbody
  refine ensures_idle_bind (stays_validateNew ctx.projectId req store.db) hidle₂ ?_
    fun _ _ hidle => hidle.untouched
  intro _ store₃ hidle₃ hpasses
  refine ensures_idle_bind (stays_replay ctx.actorId key _ store.db) hidle₃ ?_
    fun _ _ hidle => hidle.untouched
  intro stored store₄ hidle₄ _
  cases stored with
  | some stored => exact trivial
  | none =>
    have hrefused : store.db.accepts (landing store.db ctx.projectId req) ≠ true := by
      intro haccepts
      refine h ⟨hallowed, req, [], rfl, ?_, haccepts⟩
      intro item hitem
      rw [List.mem_singleton.mp hitem]
      exact hpasses
    refine ensures_idle_bind (stays_orInternal (E := fun _ => True)
      (stays_insertRow_refused hrefused) trivial) hidle₄ ?_ fun _ _ hidle => hidle.untouched
    exact fun _ _ _ hfalse => hfalse.elim

theorem ensures_refused_bulk {ctx : Context} {body : CreateBody (List CreateIssueRequest)}
    (h : ¬ ComesToInsert store.db (.bulk ctx body)) :
    Ensures execRecorded C (bulkCreateRecorded ctx body)
      (fun answer _ => StoresNone (.bulk ctx body) answer)
      (fun _ store' => Untouched store store') store := by
  unfold bulkCreateRecorded
  refine ensures_idle_bind (stays_allowed ctx store.db) (Idle.refl store) ?_
    fun _ _ hidle => hidle.untouched
  intro _ store₁ hidle₁ hallowed
  refine ensures_idle_bind (stays_decided fun _ _ => trivial) hidle₁ ?_
    fun _ _ hidle => hidle.untouched
  intro items store₂ hidle₂ hbody
  obtain rfl := parseCreate_ok hbody
  refine ensures_idle_bind (stays_forM fun item _ => stays_validateNew ctx.projectId item store.db)
    hidle₂ ?_ fun _ _ hidle => hidle.untouched
  intro _ store₃ hidle₃ hpasses
  rw [ensures_bind]
  cases items with
  | nil => exact rfl
  | cons first rest =>
    have hrefused : store.db.accepts (landing store.db ctx.projectId first) ≠ true :=
      fun haccepts => h ⟨hallowed, first, rest, rfl, hpasses, haccepts⟩
    rw [createItemsRecorded]
    refine ensures_idle_bind (stays_orInternal (E := fun _ => True)
      (stays_insertRow_refused hrefused) trivial) hidle₃ ?_ fun _ _ hidle => hidle.untouched
    exact fun _ _ _ hfalse => hfalse.elim

/-- A request that does not come to insert an issue leaves nothing behind. -/
theorem allOrNothing_of_refused {request : Creation} (h : ¬ ComesToInsert store.db request)
    (choices : Nat → Choice) : AllOrNothing store request choices := by
  have hends : Ensures execRecorded (fun _ => True) request.handler
      (fun answer _ => StoresNone request answer) (fun _ store' => Untouched store store')
      store := by
    cases request with
    | create ctx key body => exact ensures_refused_create h
    | bulk ctx body => exact ensures_refused_bulk h
  have houtcome := @Prog.Ends.alone _ _ _ _ _ _ _ _ _ hends choices fun _ => trivial
  unfold AllOrNothing
  cases hrun : request.handler.run.alone execRecorded choices store with
  | mk answer store' =>
    rw [hrun] at houtcome
    cases answer with
    | error problem => exact houtcome
    | ok answer => exact keepsRules_of_none houtcome

end Refused

/-! ## Requests that come to insert -/

section Inserting

/-- Nothing fails, and no time passes. -/
def going : Choice := {}

def failing : Choice := { fails := true }

variable {β : Type}

theorem exec_going (stmt : Stmt β) (db : Db) : stmt.exec going db = stmt.effect db := by
  have hnow : ({ db with now := db.now + ((0 : Nat) : Int) } : Db) = db := by simp
  show stmt.effect { db with now := db.now + ((0 : Nat) : Int) } = stmt.effect db
  rw [hnow]

theorem exec_failing (stmt : Stmt β) (db : Db) : stmt.exec failing db = (stmt.failure db, db) := by
  have hnow : ({ db with now := db.now + ((0 : Nat) : Int) } : Db) = db := by simp
  show (stmt.failure { db with now := db.now + ((0 : Nat) : Int) },
    ({ db with now := db.now + ((0 : Nat) : Int) } : Db)) = (stmt.failure db, db)
  rw [hnow]

abbrev evaluate {α : Type} (choice : Choice) (p : Handler α) (db : Db) : Except Problem α × Db :=
  evaluated Stmt.exec choice p db

variable {α : Type} {choice : Choice} {db : Db}

theorem evaluated_query (stmt : Stmt (Except DbError α)) :
    evaluated Stmt.exec choice (query stmt) db = stmt.exec choice db := rfl

theorem evaluate_attempt (q : Query α) (failed : Handler α) :
    evaluate choice (attempt q failed) db =
      match evaluated Stmt.exec choice q db with
      | (.ok a, db') => (.ok a, db')
      | (.error _, db') => evaluate choice failed db' := by
  unfold attempt evaluate evaluated
  rw [ExceptT.run_bind, Prog.alone_const_bind, ExceptT.run_lift]
  have hlift : (Except.ok <$> q.run : Prog Stmt (Except Problem (Except DbError α))) =
      q.run >>= fun result => pure (Except.ok result) := rfl
  rw [hlift, Prog.alone_const_bind]
  cases q.run.alone Stmt.exec (fun _ => choice) db with
  | mk result db' =>
    cases result with
    | error e => rfl
    | ok a => rfl

variable {stmt : Stmt (Except DbError Bool)}

/-- A read that must find something, where it does. -/
theorem evaluate_found {f : Db → Bool} (hread : Reads stmt f) (hfound : f db = true) :
    evaluate going (orFalse (query stmt)) db = (.ok true, db) := by
  unfold orFalse
  rw [evaluate_attempt, evaluated_query, exec_going, hread.effect, hfound]

theorem evaluate_ensure (problem : Problem) :
    evaluate choice (ensure true problem) db = (.ok (), db) := rfl

/-- A part that succeeds and leaves everything as it was, and what follows it. -/
theorem evaluate_bind_of_ok {p : Handler α} {f : α → Handler β} {a : α}
    (h : evaluate choice p db = (.ok a, db)) :
    evaluate choice (p >>= f) db = evaluate choice (f a) db := by
  unfold evaluate at h ⊢
  rw [evaluated_bind, h]

theorem evaluate_counted {ids : List Uuid} {f : Db → Bool} (hread : Reads stmt f)
    (hfound : ids = [] ∨ f db = true) :
    evaluate going (orFalse (if ids.isEmpty then pure true else query stmt)) db =
      (.ok true, db) := by
  split
  · rfl
  · next hempty =>
    rcases hfound with rfl | hfound
    · exact absurd rfl hempty
    · exact evaluate_found hread hfound

theorem evaluate_forM {items : List α} {p : α → Handler Unit}
    (h : ∀ item ∈ items, evaluate going (p item) db = (.ok (), db)) :
    evaluate going (items.forM p) db = (.ok (), db) := by
  induction items with
  | nil => rfl
  | cons item rest ih =>
    show evaluate going (p item >>= fun _ => rest.forM p) db = _
    rw [evaluate_bind_of_ok (h item List.mem_cons_self)]
    exact ih fun other hother => h other (List.mem_cons_of_mem _ hother)

theorem evaluate_allowed {ctx : Context} (h : ctx.allowed = true) :
    evaluate going (ensure ctx.allowed forbidden) db = (.ok (), db) := by
  rw [h]
  rfl

variable {req : CreateIssueRequest}

theorem evaluate_parent {projectId : Uuid} {parentId : Option Uuid}
    (h : ∀ id, parentId = some id → (db.selectIssue projectId id).isSome = true) :
    evaluate going (match parentId with
      | none => pure ()
      | some id => do
          ensure (← orFalse (query (.issueInProject projectId id)))
            (unprocessable "invalid_association" "parent issue is not in this project")) db =
      (.ok (), db) := by
  cases parentId with
  | none => rfl
  | some id =>
    exact evaluate_bind_of_ok (evaluate_found (reads_issueInProject projectId id) (h id rfl))

theorem evaluate_validateNew {projectId : Uuid} (h : NewPasses db projectId req) :
    evaluate going (validateNew projectId req) db = (.ok (), db) := by
  have hsets : evaluate going (validateLabelComponentIds projectId req.labels req.components) db =
      (.ok (), db) := by
    unfold validateLabelComponentIds labelsInProject componentsInProject
    rw [evaluate_bind_of_ok (evaluate_counted (reads_labelsInProject projectId _) h.sets.labels),
      evaluate_bind_of_ok (evaluate_ensure _),
      evaluate_bind_of_ok
        (evaluate_counted (reads_componentsInProject projectId _) h.sets.components)]
    rfl
  have hassociations : evaluate going (validateIssueAssociations projectId req.epicId req.parentId
      req.milestoneId) db = (.ok (), db) := by
    have hmilestone : rejectIssueMilestoneWrite req.milestoneId = pure () := by
      rw [rejectIssueMilestoneWrite, h.associations.milestone]
      rfl
    have hparent := evaluate_parent h.associations.parent
    unfold validateIssueAssociations
    rw [hmilestone]
    cases hgiven : req.epicId with
    | none => exact hparent
    | some id =>
      exact (evaluate_bind_of_ok (evaluate_found (reads_epicInProject projectId id)
        (h.associations.epic id hgiven))).trans hparent
  have hextras : evaluate going (validateIssueExtras projectId req.customerIds req.releaseVersionId
      req.releaseText) db = (.ok (), db) := by
    have hversion : evaluate going (match req.releaseVersionId with
        | none => pure ()
        | some id => do
            ensure (← orFalse (query (.versionInProject projectId id)))
              (unprocessable "invalid_association"
                "release version not found in this project")) db = (.ok (), db) := by
      cases hgiven : req.releaseVersionId with
      | none => rfl
      | some id =>
        exact evaluate_bind_of_ok
          (evaluate_found (reads_versionInProject projectId id) (h.extras.version id hgiven))
    unfold validateIssueExtras
    have hone : (req.releaseVersionId.isSome && hasText req.releaseText) = false :=
      h.extras.exclusive
    rw [hone]
    refine (evaluate_bind_of_ok (evaluate_forM ?_)).trans hversion
    intro id hid
    exact evaluate_bind_of_ok
      (evaluate_found (reads_customerInProject projectId id) (h.extras.customers id hid))
  unfold validateNew
  rw [evaluate_bind_of_ok hsets, evaluate_bind_of_ok hassociations]
  exact hextras

/-- Where nothing fails, the row is inserted. -/
theorem evaluate_insertRow {projectId ownerId : Uuid}
    (h : db.accepts (landing db projectId req) = true) : ∃ row db',
    evaluate going (orInternal (insertRow projectId ownerId (writeFromCreate req))) db =
      (.ok row, db') ∧ db'.issues.rows.length = db.issues.rows.length + 1 := by
  have hinsert : ∀ reference db₁, Aside db db₁ → ∃ row db',
      evaluated Stmt.exec going (query (.insertIssue projectId ownerId reference
        (landing db projectId req))) db₁ = (.ok row, db') ∧
      db'.issues.rows.length = db.issues.rows.length + 1 := by
    intro reference db₁ haside
    have haccepts : db₁.accepts (landing db projectId req) = true := by
      rw [accepts_aside haside]
      exact h
    rw [evaluated_query, exec_going]
    show ∃ row db', Db.insertIssue projectId ownerId reference (landing db projectId req) db₁ =
      (.ok row, db') ∧ _
    unfold Db.insertIssue
    rw [if_pos haccepts]
    refine ⟨_, _, rfl, ?_⟩
    simp [Table.insert, haside.issues]
  have hrun : ∃ row db', evaluated Stmt.exec going
      (insertRow projectId ownerId (writeFromCreate req)) db = (.ok row, db') ∧
        db'.issues.rows.length = db.issues.rows.length + 1 := by
    unfold insertRow
    rw [evaluated_bind, evaluated_query, exec_going]
    have haside := aside_allocRef projectId db
    have hstatus : (writeFromCreate req).statusId = req.statusId := rfl
    have halloc : (Stmt.allocRef projectId).effect db =
      (.ok (db.lastRef projectId + 1), ((Stmt.allocRef projectId).effect db).2) := rfl
    rw [halloc, hstatus]
    cases hgiven : req.statusId with
    | some id =>
      have hlanding : { writeFromCreate req with statusId := some id } =
          landing db projectId req := by rw [landing, hgiven]
      have hthis := hinsert (db.lastRef projectId + 1) _ haside
      rw [← hlanding] at hthis
      exact hthis
    | none =>
      have hlanding : { writeFromCreate req with
          statusId := ((Stmt.allocRef projectId).effect db).2.catalog.newStatusId projectId } =
            landing db projectId req := by
        rw [landing, hgiven, haside.catalog]
      have hthis := hinsert (db.lastRef projectId + 1) _ haside
      rw [← hlanding] at hthis
      dsimp only
      rw [evaluated_bind, evaluated_query, exec_going]
      exact hthis
  obtain ⟨row, db', hrow, hlength⟩ := hrun
  refine ⟨row, db', ?_, hlength⟩
  unfold orInternal
  rw [evaluate_attempt, hrow]

theorem evaluate_fillSets (id : Uuid) (req : CreateIssueRequest) :
    evaluate failing (fillSets id req) db = (.error internal, db) := by
  have hlabels : evaluate failing (orInternal (query (.setIssueLabels id req.labels))) db =
      (.error internal, db) := by
    unfold orInternal
    rw [evaluate_attempt, evaluated_query, exec_failing]
    rfl
  unfold evaluate at hlabels ⊢
  unfold fillSets replaceSets
  rw [evaluated_bind, hlabels]

theorem evaluate_validateComponentVersions (pairs : List ComponentVersion)
    (components : List Uuid) : ∃ result,
      evaluate failing (validateComponentVersions pairs components) db = (result, db) := by
  unfold validateComponentVersions
  split
  · exact ⟨_, rfl⟩
  · unfold evaluate
    rw [evaluated_bind]
    cases hpairs : checkPairs components [] pairs with
    | error problem => exact ⟨_, rfl⟩
    | ok passed =>
      show ∃ result, evaluated Stmt.exec failing (_ >>= _) db = (result, db)
      rw [evaluated_bind]
      have hquery : evaluate failing (orInternal (query (.versionsOfComponents
          (pairs.map (·.componentId)) (pairs.map (·.releaseVersionId))))) db =
            (.error internal, db) := by
        unfold orInternal
        rw [evaluate_attempt, evaluated_query, exec_failing]
        rfl
      unfold evaluate at hquery
      rw [hquery]
      exact ⟨_, rfl⟩

theorem evaluate_replay (userId : Uuid) (key : Option String) (path : String) :
    evaluate failing (replay userId key path) db = (.ok none, db) := by
  cases key with
  | none => rfl
  | some key =>
    unfold replay
    rw [evaluate_attempt, evaluated_query, exec_failing]
    rfl

variable {p : Handler α} {store : Store}

theorem evaluated_plain (choice : Choice) (p : Handler α) (store : Store) :
    evaluated execRecorded choice (plain p) store =
      ((evaluate choice p store.db).1, store.put (evaluate choice p store.db).2) :=
  Prog.alone_translate Store.db Store.put (fun _ _ => rfl) (fun _ _ _ => rfl) (fun _ => rfl)
    (fun _ _ _ => rfl) p.run _ store

variable {E : Problem → Store → Prop}

/-- Whatever holds at every end holds at those that go on from here. -/
theorem ensures_after {f : α → Recorder β} {Q : β → Store → Prop} {a : α} {db' : Db}
    (h : Ensures execRecorded (fun _ => True) (plain p >>= f) Q E store)
    (hp : evaluate choice p store.db = (.ok a, db')) :
    Ensures execRecorded (fun _ => True) (f a) Q E (store.put db') := by
  rw [ensures_bind] at h
  have houtcome := @Prog.Ends.alone _ _ _ _ _ _ _ _ _ h (fun _ => choice) fun _ => trivial
  have hplain := evaluated_plain choice p store
  rw [hp] at hplain
  unfold evaluated at hplain
  rw [hplain] at houtcome
  exact houtcome

theorem ensures_stop {f : α → Recorder β} {Q : β → Store → Prop} {problem : Problem} {db' : Db}
    (h : Ensures execRecorded (fun _ => True) (plain p >>= f) Q E store)
    (hp : evaluate choice p store.db = (.error problem, db')) : E problem (store.put db') := by
  rw [ensures_bind] at h
  have houtcome := @Prog.Ends.alone _ _ _ _ _ _ _ _ _ h (fun _ => choice) fun _ => trivial
  have hplain := evaluated_plain choice p store
  rw [hp] at hplain
  unfold evaluated at hplain
  rw [hplain] at houtcome
  exact houtcome

/-- The row stays where what follows it fails. -/
theorem not_untouched_of_inserted {db' : Db} (store₁ : Store)
    (hlength : db'.issues.rows.length = store.db.issues.rows.length + 1) :
    ¬ Untouched store (store₁.put db') := by
  intro h
  have hissues := congrArg (fun t : Table Issue.id => t.rows.length) h.issues
  have hsame : db'.issues.rows.length = store.db.issues.rows.length := hissues
  omega

theorem left_by_create {ctx : Context} {key : Option String} {body : CreateBody CreateIssueRequest}
    (hcomes : ComesToInsert store.db (.create ctx key body)) :
    ¬ Ensures execRecorded (fun _ => True) (createRecorded ctx key body) (fun _ _ => True)
      (fun _ store' => Untouched store store') store := by
  intro h
  obtain ⟨hallowed, first, rest, hitems, hpasses, haccepts⟩ := hcomes
  cases body with
  | unreadable => cases hitems
  | invalid => cases hitems
  | valid req =>
    cases hitems
    unfold createRecorded at h
    have h₁ := ensures_after h (evaluate_allowed hallowed)
    have hbody : evaluate going (decided (parseCreate (.valid first))) store.db =
      (.ok first, store.db) := rfl
    have h₂ := ensures_after h₁ hbody
    have h₃ := ensures_after h₂ (evaluate_validateNew (hpasses first List.mem_cons_self))
    have h₄ := ensures_after h₃ (evaluate_replay ctx.actorId key _)
    obtain ⟨row, db', hrow, hlength⟩ :=
      @evaluate_insertRow store.db first ctx.projectId ctx.actorId haccepts
    have h₅ := ensures_after h₄ hrow
    obtain ⟨result, hversions⟩ :=
      @evaluate_validateComponentVersions db' first.componentVersions first.components
    cases result with
    | error problem =>
      exact not_untouched_of_inserted _ hlength (ensures_stop h₅ hversions)
    | ok passed =>
      have h₆ := ensures_after h₅ hversions
      exact not_untouched_of_inserted _ hlength
        (ensures_stop h₆ (evaluate_fillSets row.id first))

theorem left_by_bulk {ctx : Context} {body : CreateBody (List CreateIssueRequest)}
    (hcomes : ComesToInsert store.db (.bulk ctx body)) :
    ¬ Ensures execRecorded (fun _ => True) (bulkCreateRecorded ctx body) (fun _ _ => True)
      (fun _ store' => Untouched store store') store := by
  intro h
  obtain ⟨hallowed, first, rest, hitems, hpasses, haccepts⟩ := hcomes
  cases body with
  | unreadable => cases hitems
  | invalid => cases hitems
  | valid items =>
    cases hitems
    unfold bulkCreateRecorded at h
    have h₁ := ensures_after h (evaluate_allowed hallowed)
    have hbody : evaluate going (decided (parseCreate (.valid (first :: rest)))) store.db =
      (.ok (first :: rest), store.db) := rfl
    have h₂ := ensures_after h₁ hbody
    have h₃ := ensures_after h₂ (evaluate_forM fun item hitem =>
      evaluate_validateNew (hpasses item hitem))
    rw [ensures_bind, createItemsRecorded] at h₃
    obtain ⟨row, db', hrow, hlength⟩ :=
      @evaluate_insertRow store.db first ctx.projectId ctx.actorId haccepts
    have h₄ := ensures_after h₃ hrow
    exact not_untouched_of_inserted _ hlength (ensures_stop h₄ (evaluate_fillSets row.id first))

end Inserting

/-- A component that ships in no release, and a version of one. -/
def unshipped : Store where
  db :=
    { shippedTwice with
      releaseVersions := ⟨[⟨20, 10, "1.0", 1⟩], by decide⟩
      componentReleases := [] }
  history := []

/-- An issue of the component, to be fixed in the version. -/
def unrelated : CreateIssueRequest :=
  { subject := "crash", description := "", components := [5], componentVersions := [⟨5, 20⟩] }

def listsIssues : Except Problem Answer → Bool
  | .ok (.issues _) => true
  | _ => false

end IntelliPilot.Issues
