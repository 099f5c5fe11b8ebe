import IntelliPilot.TimeTracking.Handlers

/-! # Corrections

An entry is logged by its owner, and corrected by its owner or by who manages the
time of its project. A correction is applied to exactly the version it names. The
note that it leaves out, and the rule for the notes of work, are kept in exactly
the runs whose corrections neither fall back on another note nor blank a needed one.
-/

namespace IntelliPilot.TimeTracking

open Http Statement
open Service (initial)
open Auth (trim)

/-- The requests that write single entries. -/
inductive EntryRequest where
  | log (userId : Uuid) (body : Except Problem LogTimeRequest)
  | update (userId id : Uuid) (body : Except Problem UpdateTimeRequest)
  | adminUpdate (projectId actor id : Uuid) (body : Except Problem UpdateTimeRequest)

def EntryRequest.handler : EntryRequest → Handler Answer
  | .log userId body => logMyTime userId body
  | .update userId id body => updateMyEntry userId id body
  | .adminUpdate projectId actor id body => adminUpdateEntry projectId actor id body

/-- The statements of concurrent requests, any of which may fail. -/
def entryService : Service Stmt Db Bool EntryRequest (Except Problem Answer) where
  exec := Stmt.exec
  handler request := request.handler.run

abbrev EntryEvent := Event Stmt EntryRequest (Except Problem Answer)
abbrev EntryWorld := World Stmt Db EntryRequest (Except Problem Answer)

/-- The entry that a request corrects, and how. -/
def EntryRequest.correction : EntryRequest → Option (Uuid × UpdateTimeRequest)
  | .log _ _ => none
  | .update _ id body => body.toOption.map fun req => (id, req)
  | .adminUpdate _ _ id body => body.toOption.map fun req => (id, req)

/-! ## What is to be kept -/

/-- The entry that a correction makes of one. -/
def UpdateTimeRequest.applied (req : UpdateTimeRequest) (old : TimeEntry) : TimeEntry :=
  { old with
    minutes := req.minutes
    note := req.note.getD old.note
    entryDate := req.date.join.getD old.entryDate
    version := old.version + 1 }

/-- The entry is of an issue of its project. -/
def TimeEntry.OfIssue (db : Db) (entry : TimeEntry) : Prop :=
  ∃ projectId issueId issue, entry.projectId = some projectId ∧ entry.issueId = some issueId ∧
    db.issues.find? issueId = some issue ∧ issue.projectId = projectId

/-- Work is of a project, and has an issue of it or a note. -/
def TimeEntry.Ruled (db : Db) (entry : TimeEntry) : Prop :=
  entry.kind = .work → entry.projectId.isSome ∧ (entry.OfIssue db ∨ trim entry.note ≠ "")

def Db.Ruled (db : Db) : Prop :=
  ∀ id entry, db.entries.find? id = some entry → entry.Ruled db

/-- The entry that an event updated. -/
def updatedEntry : EntryEvent → Option TimeEntry
  | .ran (.updateEntry _ _ _ _ _) (.ok (some entry)) => some entry
  | _ => none

/-- An entry changes only by an update, which applies a correction to the version that
it names. -/
structure Faithful (w w' : EntryWorld) : Prop where
  applied : ∀ i event entry, w'.log = (i, event) :: w.log → updatedEntry event = some entry →
    ∃ request req old, (i, .began request) ∈ w.log ∧
      request.correction = some (entry.id, req) ∧
      w.state.entries.find? entry.id = some old ∧ old.version = req.version ∧
      entry = req.applied old ∧ w'.state.entries.find? entry.id = some entry
  kept : ∀ id old, w.state.entries.find? id = some old →
    w'.state.entries.find? id = some old ∨
      ∃ i event entry, w'.log = (i, event) :: w.log ∧ updatedEntry event = some entry ∧
        entry.id = id

/-- Every correction that answers success is an update of the run, every update is faithful
to its correction, and all work keeps its rule. -/
structure CorrectionsKept (db : Db) (labels : List (Label EntryRequest Bool)) : Prop where
  answered : ∀ i request answer, request.correction.isSome →
    Service.Answered (entryService.run (initial db) labels) i request (.ok answer) →
      ∃ entry event, answer = .entry 200 entry ∧ updatedEntry event = some entry ∧
        (i, event) ∈ (entryService.run (initial db) labels).world.log
  faithful : entryService.Admits (fun _ => Faithful) (initial db) labels
  ruled : entryService.Always (fun w => w.state.Ruled) (initial db) labels

/-! ## The condition -/

/-- The entry that an event read. -/
def readEntry : EntryEvent → Option TimeEntry
  | .ran (.getEntry _) (.ok (some entry)) => some entry
  | _ => none

/-- The first entry that a request read. -/
def firstRead (events : List EntryEvent) : Option TimeEntry :=
  (events.filterMap readEntry).getLast?

/-- The note that a correction without one falls back on: the owner's on the note that the
request first read, the other on the empty one. -/
def EntryRequest.fallback (request : EntryRequest) (events : List EntryEvent) : String :=
  match request with
  | .adminUpdate _ _ _ _ => ""
  | _ => (firstRead events).elim "" (·.note)

/-- A correction without a note updates an entry that still has the note it falls back
on, and one with a blank note updates no work that needs a note. -/
def Mindful : Nat → EntryWorld → EntryWorld → Prop := fun _ w w' =>
  ∀ i event entry request req old, w'.log = (i, event) :: w.log →
    updatedEntry event = some entry → (i, .began request) ∈ w.log →
    request.correction = some (entry.id, req) → w.state.entries.find? entry.id = some old →
      (req.note = none → old.note = request.fallback (w.own i)) ∧
      (∀ note, req.note = some note → trim note = "" → old.kind = .work → old.OfIssue w.state)

/-! ## What the statements do -/

/-- The statements of the requests on single entries. -/
def Stmt.single {β : Type} : Stmt β → Bool
  | .deleteEntry _ => false
  | .createBooking _ _ _ _ _ _ _ _ => false
  | .lockPeriod _ _ => false
  | .unlockPeriod _ _ => false
  | _ => true

/-- The row that an update writes. -/
def TimeEntry.written (minutes : Int) (note : String) (entryDate : Option Date)
    (entry : TimeEntry) : TimeEntry :=
  { entry with
    minutes := minutes
    note := note
    entryDate := entryDate.getD entry.entryDate
    version := entry.version + 1 }

/-- What a statement changes. -/
inductive Changes (db : Db) : {β : Type} → Stmt β → β → Db → Prop where
  | nothing {β : Type} (stmt : Stmt β) (result : β)
      (hnot : updatedEntry (.ran stmt result) = none) : Changes db stmt result db
  | created (new : NewEntry) (entry : TimeEntry) (later : Db)
      (hnew : entry.toNewEntry = new) (hfree : db.entries.find? entry.id = none)
      (hentries : ∀ id, later.entries.find? id =
        if id = entry.id then some entry else db.entries.find? id)
      (hissues : later.issues = db.issues) :
      Changes db (.createEntry new) (.ok entry) later
  | updated (id : Uuid) (minutes : Int) (note : String) (entryDate : Option Date) (old : TimeEntry)
      (later : Db) (hold : db.entries.find? id = some old)
      (hentries : ∀ k, later.entries.find? k =
        if k = id then some (old.written minutes note entryDate) else db.entries.find? k)
      (hissues : later.issues = db.issues) :
      Changes db (.updateEntry id minutes note entryDate old.version)
        (.ok (some (old.written minutes note entryDate))) later

theorem changes_create (new : NewEntry) (db : Db) :
    Changes db (.createEntry new) (db.createEntry new).1 (db.createEntry new).2 := by
  unfold Db.createEntry
  split
  · exact .created new _ _ rfl db.entries.find?_fresh
      (fun id => Table.find?_insert db.entries.find?_fresh id) rfl
  · exact .nothing _ _ rfl

theorem changes_update (id : Uuid) (minutes : Int) (note : String) (entryDate : Option Date)
    (version : Int) (db : Db) :
    Changes db (.updateEntry id minutes note entryDate version)
      (db.updateEntry id minutes note entryDate version).1
      (db.updateEntry id minutes note entryDate version).2 := by
  unfold Db.updateEntry
  cases hfound : (db.entries.find? id).filter (·.version == version) with
  | none => exact .nothing _ _ rfl
  | some old =>
    obtain ⟨hold, hversion⟩ := Option.filter_eq_some_iff.mp hfound
    obtain rfl : old.version = version := by simpa using hversion
    dsimp only
    split
    · refine .updated id minutes note entryDate old _ hold ?_ rfl
      intro k
      rw [Table.find?_modify]
      by_cases hk : k = id
      · rw [if_pos hk, hk, hold, Option.map_some, if_pos (by simpa using Table.key_of_find? hold)]
        rfl
      · rw [if_neg hk]
        cases hother : db.entries.find? k with
        | none => rfl
        | some other =>
          have hne : other.id ≠ id := fun heq => hk (by rw [← heq, Table.key_of_find? hother])
          rw [Option.map_some, if_neg (by simpa using hne)]
    · exact .nothing _ _ rfl

/-- The cases of a statement of the service. -/
theorem changes_exec {β : Type} {stmt : Stmt β} (hsingle : stmt.single = true) (fails : Bool)
    (db : Db) : Changes db stmt (stmt.exec fails db).1 (stmt.exec fails db).2 := by
  cases fails with
  | true =>
    show Changes db stmt stmt.failure db
    apply Changes.nothing
    cases stmt <;> rfl
  | false =>
    show Changes db stmt (stmt.effect db).1 (stmt.effect db).2
    cases stmt with
    | createEntry new => exact changes_create new db
    | updateEntry id minutes note entryDate version =>
      exact changes_update id minutes note entryDate version db
    | isPrivate projectId | access projectId userId | issueAssignment id
    | isLocked projectId month | workMinutesPerDay userId | getEntry id => exact .nothing _ _ rfl
    | deleteEntry id
    | createBooking userId kind start finish minutesPerDay note skipWeekends bookingId
    | lockPeriod projectId month | unlockPeriod projectId month => cases hsingle

/-! ## What a request tells -/

/-- A logged entry keeps the rule of work, by the issue that its request has read. -/
def LogRuled (new : NewEntry) (events : List EntryEvent) : Prop :=
  new.kind = .work → ∃ projectId, new.projectId = some projectId ∧
    (trim new.note ≠ "" ∨ ∃ issueId assignedTo, new.issueId = some issueId ∧
      .ran (.issueAssignment issueId) (.ok (some (projectId, assignedTo, false))) ∈ events)

variable {events : List EntryEvent}

theorem LogRuled.cons {new : NewEntry} (h : LogRuled new events) (event : EntryEvent) :
    LogRuled new (event :: events) := by
  intro hwork
  obtain ⟨projectId, hproject, hnote | ⟨issueId, assignedTo, hissue, hread⟩⟩ := h hwork
  · exact ⟨projectId, hproject, .inl hnote⟩
  · exact ⟨projectId, hproject,
      .inr ⟨issueId, assignedTo, hissue, List.mem_cons_of_mem _ hread⟩⟩

/-- What an event of a request tells after the earlier ones, whatever the others do. -/
def Told (request : EntryRequest) : EntryEvent → List EntryEvent → Prop
  | .ran (.updateEntry id minutes note date version) _, earlier => ∃ req,
      request.correction = some (id, req) ∧ minutes = req.minutes ∧
        note = req.note.getD (request.fallback earlier) ∧ date = req.date.join ∧
        version = req.version
  | .ran (.createEntry new) _, earlier => LogRuled new earlier
  | .ran stmt _, _ => stmt.single = true
  | .answered _ (.ok answer), earlier => request.correction.isSome → ∃ entry,
      answer = .entry 200 entry ∧ ∃ event ∈ earlier, updatedEntry event = some entry
  | _, _ => True

/-- A statement that only reads. -/
def Stmt.reads {β : Type} : Stmt β → Bool
  | .createEntry _ => false
  | .updateEntry _ _ _ _ _ => false
  | stmt => stmt.single

theorem told_of_reads {request : EntryRequest} {β : Type} {stmt : Stmt β}
    (hstmt : stmt.reads = true) (result : β) (events : List EntryEvent) :
    Told request (.ran stmt result) events := by
  cases stmt with
  | createEntry new => cases hstmt
  | updateEntry id minutes note entryDate version => cases hstmt
  | _ => exact hstmt

theorem single_of_told {request : EntryRequest} {β : Type} {stmt : Stmt β} {result : β}
    (h : Told request (.ran stmt result) events) : stmt.single = true := by
  cases stmt with
  | createEntry new => rfl
  | updateEntry id minutes note entryDate version => rfl
  | _ => exact h

/-! ### The handlers -/

section Handlers

variable {request : EntryRequest} {events : List EntryEvent}

abbrev Succeeded (request : EntryRequest) (answer : Answer) (events : List EntryEvent) : Prop :=
  Told request (.answered request (.ok answer)) events

/-- Any refusal is one. -/
def Refused (_ : Problem) (_ : List EntryEvent) : Prop := True

/-- A check that needs no statement. -/
theorem recounts_check {α : Type} {result : Except Problem α} {Q : α → List EntryEvent → Prop}
    (hQ : ∀ a, result = .ok a → Q a events) :
    Recounts (Newest (Told request)) (given result) Q Refused events :=
  recounts_given hQ fun _ _ => trivial

theorem recounts_require {ok : Bool} {problem : Problem} {Q : Unit → List EntryEvent → Prop}
    (hQ : Q () events) :
    Recounts (Newest (Told request)) (refuseUnless ok problem) Q Refused events :=
  recounts_refuseUnless (fun _ => hQ) fun _ => trivial

/-- Reads keep what further events do not change. -/
theorem recounts_reads {α : Type} {p : Handler α} (hp : p.run.Only fun stmt => stmt.reads = true)
    {P : List EntryEvent → Prop} (hcons : ∀ event events, P events → P (event :: events))
    (h : P events) : Recounts (Newest (Told request)) p (fun _ => P) Refused events := by
  apply (recounts_only (C := fun stmt => stmt.reads = true) (P := P) ?_ hp h).mono
  · exact fun _ _ h => h
  · exact fun _ _ _ => trivial
  · exact fun stmt result events hreads h =>
      ⟨told_of_reads hreads result events, hcons (.ran stmt result) events h⟩

theorem recounts_read {α : Type} {stmt : Stmt (Except DbError α)} (hstmt : stmt.reads = true)
    {problem : Problem} {Q : α → List EntryEvent → Prop}
    (hQ : ∀ a, Q a (.ran stmt (.ok a) :: events)) :
    Recounts (Newest (Told request)) (orRefuse stmt problem) Q Refused events :=
  recounts_orRefuse (fun result => told_of_reads hstmt result events) hQ fun _ => trivial

theorem reads_guardLocked (actor : Uuid) (projectId : Option Uuid) (date : Date) :
    (guardLocked actor projectId date).run.Only fun stmt => stmt.reads = true := by
  unfold guardLocked
  cases projectId with
  | none => exact only_run_pure _
  | some projectId =>
    apply only_run_bind (only_orRefuse rfl _)
    intro isLocked
    split
    · exact only_run_bind (only_orDefault rfl _) fun _ => only_refuseUnless _ _
    · exact only_run_pure _

theorem reads_guardMove (userId : Uuid) (entry : TimeEntry) (newDate : Option Date) :
    (guardMove userId entry newDate).run.Only fun stmt => stmt.reads = true := by
  unfold guardMove
  cases newDate with
  | none => exact only_run_pure _
  | some date =>
    dsimp only
    split
    · exact only_run_pure _
    · exact reads_guardLocked _ _ _

theorem reads_requireManage (projectId actor : Uuid) :
    (requireManage projectId actor).run.Only fun stmt => stmt.reads = true := by
  unfold requireManage
  apply only_run_bind (only_orRefuse rfl _)
  intro visibility
  cases visibility with
  | none => exact only_run_throw _
  | some isPrivate =>
    apply only_run_bind (only_orRefuse rfl _)
    intro access
    exact only_run_bind (only_refuseUnless _ _) fun _ => only_refuseUnless _ _

theorem reads_guardLog (userId : Uuid) (projectId : Option Uuid) (date : Date) :
    (guardLog userId projectId date).run.Only fun stmt => stmt.reads = true := by
  unfold guardLog
  cases projectId with
  | none => exact only_run_pure _
  | some projectId =>
    apply only_run_bind (only_orDefault rfl _)
    intro access
    apply only_run_bind (only_refuseUnless _ _)
    intro _
    exact only_run_bind (only_orRefuse rfl _) fun _ => only_refuseUnless _ _

/-- The project of an issue is the one that was read. -/
theorem recounts_logProject (issueId projectId : Option Uuid) :
    Recounts (Newest (Told request)) (logProject issueId projectId)
      (fun logged later => ∀ id, issueId = some id → ∃ pid assignedTo, logged = some pid ∧
        .ran (.issueAssignment id) (.ok (some (pid, assignedTo, false))) ∈ later)
      Refused events := by
  unfold logProject
  cases issueId with
  | none => exact recounts_pure fun id hid => by cases hid
  | some id =>
    refine recounts_bind (S := fun result later =>
        later = .ran (.issueAssignment id) result :: events)
      (recounts_attempted fun result => ⟨rfl, rfl⟩) ?_
    rintro result _ rfl
    rcases result with e | _ | ⟨pid, assignedTo, _ | _⟩
    · exact recounts_throw trivial
    · exact recounts_throw trivial
    · apply recounts_pure
      intro id' hid
      obtain rfl := Option.some.inj hid
      exact ⟨pid, assignedTo, rfl, List.mem_cons_self⟩
    · exact recounts_throw trivial

variable {note : String}

theorem logRuled_of_checkWork {userId : Uuid} {kind : EntryKind} {meetingType : Option MeetingType}
    {issueId projectId : Option Uuid} {date : Date} {minutes : Int}
    (hcheck : checkWork kind issueId projectId (trim note) = .ok ())
    (hissue : ∀ id, issueId = some id → ∃ pid assignedTo, projectId = some pid ∧
      .ran (.issueAssignment id) (.ok (some (pid, assignedTo, false))) ∈ events) :
    LogRuled ⟨userId, kind, meetingType, projectId, issueId, date, minutes, trim note, none⟩
      events := by
  intro hwork
  simp only at hwork
  unfold checkWork at hcheck
  rw [if_pos hwork] at hcheck
  split at hcheck
  · cases hcheck
  · rename_i hproject
    split at hcheck
    · cases hcheck
    · rename_i hnote
      obtain ⟨pid, hpid⟩ : ∃ pid, projectId = some pid :=
        Option.ne_none_iff_exists'.mp (by simpa using hproject)
      refine ⟨pid, hpid, ?_⟩
      cases issueId with
      | none => exact .inl (by simpa using hnote)
      | some id =>
        obtain ⟨pid', assignedTo, hpid', hread⟩ := hissue id rfl
        obtain rfl := Option.some.inj (hpid.symm.trans hpid')
        exact .inr ⟨id, assignedTo, rfl, hread⟩

theorem recounts_logMyTime (userId : Uuid) (body : Except Problem LogTimeRequest) :
    Recounts (Newest (Told (.log userId body))) (logMyTime userId body)
      (Succeeded (.log userId body)) Refused events := by
  unfold logMyTime
  refine recounts_bind (S := fun _ _ => True) (recounts_check fun _ _ => trivial) ?_
  intro req events _
  refine recounts_bind (S := fun _ _ => True) (recounts_check fun _ _ => trivial) ?_
  intro date events _
  refine recounts_bind (S := fun _ _ => True) (recounts_check fun _ _ => trivial) ?_
  intro kind events _
  refine recounts_bind (S := fun _ _ => True) (recounts_check fun _ _ => trivial) ?_
  intro meetingType events _
  dsimp only
  generalize (if kind = .work then req.issueId else none) = issueId
  refine recounts_bind (recounts_logProject issueId req.projectId) ?_
  intro projectId events hissue
  -- from here on the entry to be created keeps the rule
  refine recounts_bind (S := fun _ => LogRuled ⟨userId, kind, meetingType, projectId, issueId, date,
      req.minutes, trim (req.note.getD ""), none⟩)
    (recounts_check fun _ hcheck => logRuled_of_checkWork hcheck hissue) ?_
  intro _ events hruled
  refine recounts_bind (recounts_reads (P := LogRuled _) (reads_guardLog _ _ _)
    (fun event _ h => h.cons event) hruled) ?_
  intro _ events hruled
  refine recounts_bind (S := fun _ _ => True)
    (recounts_orRefuse (fun _ => hruled) (fun _ => trivial) fun _ => trivial) ?_
  exact fun entry later _ => recounts_pure fun hcorrection => by cases hcorrection

/-- The note that a correction falls back on is settled, whatever follows. -/
def Falls (request : EntryRequest) (note : String) (events : List EntryEvent) : Prop :=
  ∀ later, request.fallback (later ++ events) = note

theorem Falls.cons (h : Falls request note events) (event : EntryEvent) :
    Falls request note (event :: events) := by
  intro later
  rw [List.append_cons]
  exact h _

/-- An owner's correction falls back on what it has read first. -/
theorem falls_firstRead {userId id : Uuid} {body : Except Problem UpdateTimeRequest}
    {entry : TimeEntry} (h : firstRead events = some entry) :
    Falls (.update userId id body) entry.note events := by
  intro later
  have hlater : firstRead (later ++ events) = some entry := by
    rw [firstRead, List.filterMap_append, List.getLast?_append, ← firstRead, h, Option.some_or]
  show (firstRead (later ++ events)).elim "" (·.note) = entry.note
  rw [hlater]
  rfl

theorem parseNewDate_ok {date : Option (Option Date)} {newDate : Option Date}
    (h : parseNewDate date = .ok newDate) : newDate = date.join := by
  rcases date with _ | _ | date
  · exact (Except.ok.inj h).symm
  · cases h
  · exact (Except.ok.inj h).symm

theorem recounts_updateEntry {id : Uuid} {req : UpdateTimeRequest}
    (hcorrection : request.correction = some (id, req)) (hfalls : Falls request note events) :
    Recounts (Newest (Told request)) (updateEntry id req (req.note.getD note) req.date.join)
      (fun entry => Succeeded request (.entry 200 entry)) Refused events := by
  unfold updateEntry
  refine recounts_bind (S := fun _ => Falls request note)
    (recounts_read rfl fun _ => hfalls.cons _) ?_
  rintro (_ | current) events hfalls
  · exact recounts_throw trivial
  · refine recounts_bind (S := fun _ => Falls request note) (recounts_require hfalls) ?_
    intro _ events hfalls
    have hnote : request.fallback events = note := hfalls []
    refine recounts_bind (S := fun result later => later = .ran (.updateEntry id req.minutes
        (req.note.getD note) req.date.join req.version) (.ok result) :: events)
      (recounts_orRefuse (fun _ => ⟨req, hcorrection, rfl, by rw [hnote], rfl, rfl⟩)
        (fun _ => rfl) fun _ => trivial) ?_
    rintro (_ | entry) later rfl
    · exact recounts_throw trivial
    · exact recounts_pure fun _ => ⟨entry, rfl, _, List.mem_cons_self, rfl⟩

theorem recounts_myEntry (userId id : Uuid) (hfirst : firstRead events = none) :
    Recounts (Newest (Told request)) (myEntry userId id)
      (fun entry later => firstRead later = some entry) Refused events := by
  unfold myEntry
  refine recounts_bind (S := fun found later => later = .ran (.getEntry id) (.ok found) :: events)
    (recounts_read rfl fun _ => rfl) ?_
  rintro (_ | entry) later hlater
  · exact recounts_throw trivial
  · dsimp only
    split
    · apply recounts_pure
      have hnone : events.filterMap readEntry = [] := List.getLast?_eq_none_iff.mp hfirst
      rw [hlater, firstRead]
      simp [readEntry, hnone]
    · exact recounts_throw trivial

theorem recounts_updateMyEntry (userId id : Uuid) (req : UpdateTimeRequest)
    (hfirst : firstRead events = none) :
    Recounts (Newest (Told (.update userId id (.ok req)))) (updateMyEntry userId id (.ok req))
      (Succeeded (.update userId id (.ok req))) Refused events := by
  unfold updateMyEntry
  refine recounts_bind (S := fun body later => body = req ∧ later = events) ⟨rfl, rfl⟩ ?_
  rintro body events ⟨hbody, rfl⟩
  rw [hbody]
  refine recounts_bind (recounts_myEntry userId id hfirst) ?_
  intro entry events hfirst
  -- what follows keeps the note that was read
  have hreads : ∀ {events : List EntryEvent} {p : Handler Unit},
      (p.run.Only fun stmt => stmt.reads = true) →
      Falls (.update userId id (.ok req)) entry.note events →
      Recounts (Newest (Told (.update userId id (.ok req)))) p
        (fun _ => Falls (.update userId id (.ok req)) entry.note) Refused events :=
    fun hp h => recounts_reads hp (fun event _ h => h.cons event) h
  refine recounts_bind (hreads (reads_guardLocked _ _ _) (falls_firstRead hfirst)) ?_
  intro _ events hfalls
  refine recounts_bind (S := fun newDate later => later = events ∧ newDate = req.date.join)
    (recounts_check fun _ hdate => ⟨rfl, parseNewDate_ok hdate⟩) ?_
  rintro newDate events ⟨rfl, rfl⟩
  refine recounts_bind (hreads (reads_guardMove _ _ _) hfalls) ?_
  intro _ events hfalls
  refine recounts_bind (recounts_updateEntry rfl hfalls) ?_
  exact fun entry later hanswer => recounts_pure hanswer

theorem recounts_adminUpdateEntry (projectId actor id : Uuid) (req : UpdateTimeRequest) :
    Recounts (Newest (Told (.adminUpdate projectId actor id (.ok req))))
      (adminUpdateEntry projectId actor id (.ok req))
      (Succeeded (.adminUpdate projectId actor id (.ok req))) Refused events := by
  unfold adminUpdateEntry
  refine recounts_bind (recounts_reads (P := fun _ => True) (reads_requireManage _ _)
    (fun _ _ _ => trivial) trivial) ?_
  intro _ events _
  refine recounts_bind (S := fun body later => body = req ∧ later = events) ⟨rfl, rfl⟩ ?_
  rintro body events ⟨hbody, rfl⟩
  rw [hbody]
  refine recounts_bind (S := fun _ _ => True) (recounts_read rfl fun _ => trivial) ?_
  intro entry events _
  refine recounts_bind (S := fun _ _ => True) (recounts_require trivial) ?_
  intro _ events _
  refine recounts_bind (S := fun newDate later => later = events ∧ newDate = req.date.join)
    (recounts_check fun _ hdate => ⟨rfl, parseNewDate_ok hdate⟩) ?_
  rintro newDate events ⟨rfl, rfl⟩
  refine recounts_bind (recounts_updateEntry rfl fun _ => rfl) ?_
  exact fun entry later hanswer => recounts_pure hanswer

theorem tellsAll_told : entryService.TellsAll fun request => Justified (Told request) := by
  apply Service.tellsAll_justified
  intro request
  refine ⟨trivial, ?_⟩
  suffices hhandler : Recounts (Newest (Told request)) request.handler (Succeeded request) Refused
      [.began request] by
    apply Prog.Tells.post hhandler
    rintro (problem | answer) events houtcome
    · trivial
    · exact houtcome
  cases request with
  | log userId body => exact recounts_logMyTime userId body
  | update userId id body =>
    cases body with
    | ok req => exact recounts_updateMyEntry userId id req rfl
    | error problem => trivial
  | adminUpdate projectId actor id body =>
    cases body with
    | ok req => exact recounts_adminUpdateEntry projectId actor id req
    | error problem =>
      refine recounts_bind (recounts_reads (P := fun _ => True) (reads_requireManage _ _)
        (fun _ _ _ => trivial) trivial) ?_
      exact fun _ _ _ => trivial

end Handlers

/-! ## Runs -/

section Runs

variable {db : Db} {labels : List (Label EntryRequest Bool)} {w w' : EntryWorld}
  {request : EntryRequest}

theorem changes_of_told {β : Type} {stmt : Stmt β} {choice : Bool} {events : List EntryEvent}
    (htold : Told request (.ran stmt (stmt.exec choice db).1) events) :
    Changes db stmt (stmt.exec choice db).1 (stmt.exec choice db).2 :=
  changes_exec (single_of_told htold) choice db

variable {later : Db}

theorem issues_of_changes {β : Type} {stmt : Stmt β} {result : β}
    (hchanges : Changes db stmt result later) : later.issues = db.issues := by
  cases hchanges with
  | nothing _ _ _ => rfl
  | created new entry _ hnew hfree hentries hissues => exact hissues
  | updated id minutes note entryDate old _ hold hentries hissues => exact hissues

/-- Issues stay as they are. -/
theorem issues_run (db : Db) (labels : List (Label EntryRequest Bool)) :
    (entryService.run (initial db) labels).world.state.issues = db.issues := by
  induction labels using List.reverseRecOn with
  | nil => rfl
  | append_singleton labels label ih =>
    cases entryService.advances tellsAll_told db labels label with
    | quiet hstate _ => rw [hstate, ih]
    | ran i request stmt choice hbegan hunique htold hworld =>
      rw [hworld, ← ih]
      exact issues_of_changes (changes_of_told htold)

variable {i : Nat}

/-- What was read of an issue holds. -/
theorem issue_of_read {issueId projectId : Uuid} {assignedTo : Option Uuid} {deleted : Bool}
    (hread : (i, .ran (.issueAssignment issueId) (.ok (some (projectId, assignedTo, deleted)))) ∈
      (entryService.run (initial db) labels).world.log) :
    ∃ issue, db.issues.find? issueId = some issue ∧ issue.projectId = projectId := by
  obtain ⟨first, choice, -, -, -, -, hresult, -⟩ := entryService.ran_of_mem db hread
  cases choice with
  | true => cases hresult
  | false =>
    obtain ⟨issue, hissue, hpair⟩ := Option.map_eq_some_iff.mp (Except.ok.inj hresult).symm
    rw [issues_run] at hissue
    exact ⟨issue, hissue, (Prod.mk.inj hpair).1⟩

variable {entry : TimeEntry}

/-- An entry of an issue stays one while the issues stay. -/
theorem TimeEntry.OfIssue.congr {changed : TimeEntry} (h : entry.OfIssue db)
    (hissues : later.issues = db.issues) (hproject : changed.projectId = entry.projectId)
    (hissue : changed.issueId = entry.issueId) : changed.OfIssue later := by
  obtain ⟨projectId, issueId, issue, hpid, hid, hfound, hof⟩ := h
  exact ⟨projectId, issueId, issue, hproject.trans hpid, hissue.trans hid, by rw [hissues, hfound],
    hof⟩

theorem TimeEntry.Ruled.congr (h : entry.Ruled db) (hissues : later.issues = db.issues) :
    entry.Ruled later := by
  intro hwork
  obtain ⟨hproject, hof | hnote⟩ := h hwork
  · exact ⟨hproject, .inl (hof.congr hissues rfl rfl)⟩
  · exact ⟨hproject, .inr hnote⟩

/-- A step that updates no entry. -/
theorem step_quiet (hruled : w.state.Ruled)
    (hevent : ∀ i event, w'.log = (i, event) :: w.log → updatedEntry event = none)
    (hkept : ∀ id old, w.state.entries.find? id = some old → w'.state.entries.find? id = some old)
    (hnew : ∀ id entry, w'.state.entries.find? id = some entry →
      w.state.entries.find? id = some entry ∨ entry.Ruled w'.state)
    (hissues : w'.state.issues = w.state.issues) (n : Nat) :
    w'.state.Ruled ∧ Faithful w w' ↔ Mindful n w w' := by
  refine iff_of_true ⟨?_, ?_, ?_⟩ ?_
  · intro id entry hfound
    rcases hnew id entry hfound with hold | hnow
    · exact (hruled id entry hold).congr hissues
    · exact hnow
  · intro i event entry hlog hupdated
    rw [hevent i event hlog] at hupdated
    cases hupdated
  · exact fun id old hold => .inl (hkept id old hold)
  · intro i event entry request req old hlog hupdated
    rw [hevent i event hlog] at hupdated
    cases hupdated

/-- A step that changes nothing but the log. -/
theorem step_same (hruled : w.state.Ruled) (hstate : w'.state = w.state)
    (hevent : ∀ i event, w'.log = (i, event) :: w.log → updatedEntry event = none) (n : Nat) :
    w'.state.Ruled ∧ Faithful w w' ↔ Mindful n w w' := by
  refine step_quiet hruled hevent ?_ ?_ ?_ n
  · intro id old hold
    rw [hstate]
    exact hold
  · intro id entry hfound
    rw [hstate] at hfound
    exact .inl hfound
  · rw [hstate]

/-- A step that creates an entry. -/
theorem step_created (hruled : w.state.Ruled) {new : NewEntry} (hrow : entry.Ruled w'.state)
    (hlog : w'.log = (i, .ran (.createEntry new) (.ok entry)) :: w.log)
    (hfree : w.state.entries.find? entry.id = none) (hentries : ∀ id, w'.state.entries.find? id =
      if id = entry.id then some entry else w.state.entries.find? id)
    (hissues : w'.state.issues = w.state.issues) (n : Nat) :
    w'.state.Ruled ∧ Faithful w w' ↔ Mindful n w w' := by
  refine step_quiet hruled ?_ ?_ ?_ hissues n
  · intro j event hlog'
    rw [hlog] at hlog'
    obtain ⟨-, rfl⟩ := Prod.mk.inj (List.cons.inj hlog').1
    rfl
  · intro id old hold
    rw [hentries, if_neg, hold]
    rintro rfl
    rw [hfree] at hold
    cases hold
  · intro id other hfound
    rw [hentries] at hfound
    split at hfound
    · rw [← Option.some.inj hfound]
      exact .inr hrow
    · exact .inl hfound

/-- A step in which a request updates an entry as its correction says. -/
structure Updates (w w' : EntryWorld) (request : EntryRequest) (req : UpdateTimeRequest)
    (old entry : TimeEntry) : Prop where
  /-- The step is that of one event, whose program is the request's. -/
  event : ∃ i event, w'.log = (i, event) :: w.log ∧ updatedEntry event = some entry ∧
    (i, .began request) ∈ w.log ∧ ∀ other, (i, .began other) ∈ w.log → other = request
  correction : request.correction = some (old.id, req)
  version : old.version = req.version
  written : entry = old.written req.minutes entry.note req.date.join
  note : ∀ i event, w'.log = (i, event) :: w.log →
    entry.note = req.note.getD (request.fallback (w.own i))
  found : w.state.entries.find? old.id = some old
  entries : ∀ id, w'.state.entries.find? id =
    if id = old.id then some entry else w.state.entries.find? id
  issues : w'.state.issues = w.state.issues

namespace Updates

variable {request : EntryRequest} {req : UpdateTimeRequest} {old entry : TimeEntry}

theorem id_eq (h : Updates w w' request req old entry) : entry.id = old.id := by
  rw [h.written]
  rfl

theorem ofIssue_iff (h : Updates w w' request req old entry) :
    entry.OfIssue w'.state ↔ old.OfIssue w.state := by
  rw [h.written]
  exact ⟨fun hof => hof.congr h.issues.symm rfl rfl, fun hof => hof.congr h.issues rfl rfl⟩

/-- The event, the request and the entry of the step are the ones that any account of it names. -/
theorem named (h : Updates w w' request req old entry) {i : Nat} {event : EntryEvent}
    {entry' stored : TimeEntry} {other : EntryRequest} {otherReq : UpdateTimeRequest}
    (hlog : w'.log = (i, event) :: w.log) (hupdated : updatedEntry event = some entry')
    (hbegan : (i, .began other) ∈ w.log) (hcorrection : other.correction = some (entry'.id, otherReq))
    (hstored : w.state.entries.find? entry'.id = some stored) :
    entry' = entry ∧ other = request ∧ otherReq = req ∧ stored = old := by
  obtain ⟨j, event', hlog', hupdated', -, hunique⟩ := h.event
  obtain ⟨rfl, rfl⟩ := Prod.mk.inj (List.cons.inj (hlog.symm.trans hlog')).1
  obtain rfl := Option.some.inj (hupdated.symm.trans hupdated')
  obtain rfl := hunique other hbegan
  rw [h.id_eq] at hcorrection hstored
  rw [h.correction] at hcorrection
  rw [h.found] at hstored
  exact ⟨rfl, rfl, (Prod.mk.inj (Option.some.inj hcorrection)).2.symm,
    (Option.some.inj hstored).symm⟩

/-- The entry is what the correction makes of the one before if it has the right note. -/
theorem applied_iff (h : Updates w w' request req old entry) :
    entry = req.applied old ↔ entry.note = req.note.getD old.note := by
  constructor
  · exact fun happlied => congrArg (·.note) happlied
  · intro hnote
    rw [h.written, hnote]
    rfl

theorem mindful (h : Updates w w' request req old entry) (hruled : w'.state.Ruled)
    (hfaithful : Faithful w w') (n : Nat) : Mindful n w w' := by
  intro i event entry' other otherReq stored hlog hupdated hbegan hcorrection hstored
  obtain ⟨third, thirdReq, before, hthird, hcorrection', hbefore, -, happlied, -⟩ :=
    hfaithful.applied i event entry' hlog hupdated
  obtain ⟨rfl, rfl, rfl, rfl⟩ := h.named hlog hupdated hthird hcorrection' hbefore
  obtain ⟨-, rfl, rfl, rfl⟩ := h.named hlog hupdated hbegan hcorrection hstored
  have hkept := h.applied_iff.mp happlied
  refine ⟨?_, ?_⟩
  · intro hnone
    have hnote := h.note i event hlog
    rw [hnone] at hkept hnote
    exact hkept.symm.trans hnote
  · intro given hgiven hblank hwork
    have hfound : w'.state.entries.find? entry'.id = some entry' := by
      rw [h.entries, if_pos h.id_eq]
    have hkind : entry'.kind = .work := by
      rw [h.written]
      exact hwork
    obtain ⟨-, hissue | hnonblank⟩ := hruled _ _ hfound hkind
    · exact h.ofIssue_iff.mp hissue
    · rw [hkept, hgiven] at hnonblank
      exact absurd hblank hnonblank

/-- The new entry keeps the rule. -/
theorem ruled (h : Updates w w' request req old entry) (hold : old.Ruled w.state)
    (hnote : entry.note = req.note.getD old.note)
    (hblank : ∀ note, req.note = some note → trim note = "" → old.kind = .work →
      old.OfIssue w.state) : entry.Ruled w'.state := by
  intro hwork
  have hkind : old.kind = .work := by
    rw [h.written] at hwork
    exact hwork
  obtain ⟨hproject, hrest⟩ := hold hkind
  refine ⟨by rw [h.written]; exact hproject, ?_⟩
  rw [h.ofIssue_iff, hnote]
  cases hgiven : req.note with
  | none => exact hrest
  | some given =>
    by_cases htrim : trim given = ""
    · exact .inl (hblank given hgiven htrim hkind)
    · exact .inr htrim

theorem kept (h : Updates w w' request req old entry) (hruled : w.state.Ruled) {n : Nat}
    (hmindful : Mindful n w w') : w'.state.Ruled ∧ Faithful w w' := by
  obtain ⟨i, event, hlog, hupdated, hbegan, -⟩ := h.event
  have hcorrection := h.correction
  have hfound := h.found
  rw [← h.id_eq] at hcorrection hfound
  obtain ⟨hfall, hblank⟩ :=
    hmindful i event entry request req old hlog hupdated hbegan hcorrection hfound
  have hnote : entry.note = req.note.getD old.note := by
    rw [h.note i event hlog]
    cases hgiven : req.note with
    | none => exact (hfall hgiven).symm
    | some given => rfl
  refine ⟨?_, ?_, ?_⟩
  · intro id row hrow
    rw [h.entries] at hrow
    split at hrow
    · rw [← Option.some.inj hrow]
      exact h.ruled (hruled _ _ h.found) hnote hblank
    · exact (hruled id row hrow).congr h.issues
  · intro j event' entry' hlog' hupdated'
    obtain ⟨rfl, rfl⟩ := Prod.mk.inj (List.cons.inj (hlog.symm.trans hlog')).1
    obtain rfl := Option.some.inj (hupdated.symm.trans hupdated')
    refine ⟨request, req, old, hbegan, hcorrection, hfound, h.version, h.applied_iff.mpr hnote, ?_⟩
    rw [h.entries, if_pos h.id_eq]
  · intro id before hbefore
    by_cases hid : id = old.id
    · exact .inr ⟨i, event, entry, hlog, hupdated, h.id_eq.trans hid.symm⟩
    · left
      rw [h.entries, if_neg hid]
      exact hbefore

end Updates

/-- A step that updates an entry. -/
theorem updates_of_told (hbegan : (i, .began request) ∈ w.log)
    (hunique : ∀ other, (i, .began other) ∈ w.log → other = request) {id : Uuid} {minutes : Int}
    {note : String} {date : Option Date} {old : TimeEntry}
    (hlog : w'.log = (i, .ran (.updateEntry id minutes note date old.version)
      (.ok (some (old.written minutes note date)))) :: w.log)
    (htold : ∃ req, request.correction = some (id, req) ∧ minutes = req.minutes ∧
      note = req.note.getD (request.fallback (w.own i)) ∧ date = req.date.join ∧
      old.version = req.version) (hold : w.state.entries.find? id = some old)
    (hentries : ∀ k, w'.state.entries.find? k =
      if k = id then some (old.written minutes note date) else w.state.entries.find? k)
    (hissues : w'.state.issues = w.state.issues) :
    ∃ req, Updates w w' request req old (old.written minutes note date) := by
  obtain rfl : old.id = id := Table.key_of_find? hold
  obtain ⟨req, hcorrection, rfl, hnote, rfl, hversion⟩ := htold
  refine ⟨req, ⟨i, _, hlog, rfl, hbegan, hunique⟩, hcorrection, hversion, rfl, ?_, hold, hentries,
    hissues⟩
  intro j event hlog'
  obtain ⟨rfl, -⟩ := Prod.mk.inj (List.cons.inj (hlog.symm.trans hlog')).1
  exact hnote

/-- A logged entry keeps the rule. -/
theorem ruled_of_logRuled
    (hlogged : LogRuled entry.toNewEntry ((entryService.run (initial db) labels).world.own i)) :
    entry.Ruled db := by
  intro hwork
  obtain ⟨projectId, hproject, hnote | ⟨issueId, assignedTo, hissue, hmem⟩⟩ := hlogged hwork
  · exact ⟨by simp [hproject], .inr hnote⟩
  · obtain ⟨issue, hfound, hof⟩ := issue_of_read (World.mem_own.mp hmem)
    exact ⟨by simp [hproject], .inl ⟨projectId, issueId, issue, hproject, hissue, hfound, hof⟩⟩

/-- A step keeps the rule and is faithful in exactly the case that it is mindful. -/
theorem step_iff (label : Label EntryRequest Bool)
    (hruled : (entryService.run (initial db) labels).world.state.Ruled) (n : Nat) :
    (entryService.run (initial db) (labels ++ [label])).world.state.Ruled ∧
        Faithful (entryService.run (initial db) labels).world
          (entryService.run (initial db) (labels ++ [label])).world ↔
      Mindful n (entryService.run (initial db) labels).world
        (entryService.run (initial db) (labels ++ [label])).world := by
  have hlogged : ∀ {i : Nat} {entry : TimeEntry}, LogRuled entry.toNewEntry
      ((entryService.run (initial db) labels).world.own i) →
        entry.Ruled (entryService.run (initial db) (labels ++ [label])).world.state :=
    fun h => (ruled_of_logRuled h).congr (issues_run db _)
  have hadvances := entryService.advances tellsAll_told db labels label
  generalize (entryService.run (initial db) labels).world = w at *
  generalize (entryService.run (initial db) (labels ++ [label])).world = w' at *
  cases hadvances with
  | quiet hstate hnot =>
    refine step_same hruled hstate (fun i event hlog => ?_) n
    cases event with
    | ran stmt result => exact absurd hlog (hnot i stmt result)
    | began request => rfl
    | answered request answer => rfl
  | ran i request stmt choice hbegan hunique htold hworld =>
    have hchanges := changes_of_told htold
    have hlog : w'.log = (i, .ran stmt (stmt.exec choice w.state).1) :: w.log := by
      rw [hworld]
      rfl
    have hstate : w'.state = (stmt.exec choice w.state).2 := by
      rw [hworld]
      rfl
    obtain ⟨later, hlater⟩ : ∃ later, later = w'.state := ⟨_, rfl⟩
    rw [← hstate, ← hlater] at hchanges
    generalize (stmt.exec choice w.state).1 = result at hchanges hlog htold
    cases hchanges with
    | nothing _ _ hnot =>
      refine step_same hruled hlater.symm (fun j event hlog' => ?_) n
      rw [hlog] at hlog'
      rw [← (Prod.mk.inj (List.cons.inj hlog').1).2, hnot]
    | created new entry _ hnew hfree hentries hissues =>
      rw [hlater] at hentries hissues
      rw [← hnew] at htold
      exact step_created hruled (hlogged htold) hlog hfree hentries hissues n
    | updated id minutes note date old _ hold hentries hissues =>
      rw [hlater] at hentries hissues
      obtain ⟨req, hupdates⟩ := updates_of_told hbegan hunique hlog htold hold hentries hissues
      exact ⟨fun h => hupdates.mindful h.1 h.2 n, hupdates.kept hruled⟩

/-- A correction that answers success shows what an update of the run wrote. -/
theorem updated_of_answered (db : Db) (labels : List (Label EntryRequest Bool)) {answer : Answer}
    (hcorrection : request.correction.isSome)
    (hanswered : Service.Answered (entryService.run (initial db) labels) i request (.ok answer)) :
    ∃ entry event, answer = .entry 200 entry ∧ updatedEntry event = some entry ∧
      (i, event) ∈ (entryService.run (initial db) labels).world.log := by
  obtain ⟨earlier, -, htold, hlog⟩ := entryService.told_of_answered tellsAll_told db labels hanswered
  obtain ⟨entry, hentry, event, hevent, hupdated⟩ := htold hcorrection
  exact ⟨entry, event, hentry, hupdated, hlog event hevent⟩

/-- Corrections are faithful and keep the rule of work in exactly the runs in which no
correction without a note writes another note than the entry has, and none with a blank note
meets work that needs one. -/
theorem corrections_kept_iff (hdb : db.Ruled) (labels : List (Label EntryRequest Bool)) :
    CorrectionsKept db labels ↔ entryService.Admits Mindful (initial db) labels := by
  have hiff : entryService.Always (fun w => w.state.Ruled) (initial db) labels ∧
      entryService.Admits (fun _ => Faithful) (initial db) labels ↔
        entryService.Admits Mindful (initial db) labels :=
    entryService.always_and_admits_iff hdb (fun before label hruled => by
      have hstep := step_iff label hruled
        (Service.actor (entryService.run (initial db) before) label)
      rwa [Service.run_append] at hstep) labels
  constructor
  · exact fun h => hiff.mp ⟨h.ruled, h.faithful⟩
  · intro hmindful
    obtain ⟨hruled, hfaithful⟩ := hiff.mpr hmindful
    exact ⟨fun i request answer hcorrection hanswered =>
      updated_of_answered db labels hcorrection hanswered, hfaithful, hruled⟩

end Runs

/-- Work of user 3 on project 1, logged without an issue. -/
def meetingWork : TimeEntry :=
  ⟨⟨3, .work, none, some 1, none, 20000, 60, "Planning", none⟩, 1, 1⟩

/-- The project, whose time user 2 manages. -/
def office : Db where
  entries := ⟨[meetingWork], by decide⟩
  issues := Table.empty
  locks := []
  access projectId userId :=
    if projectId = 1 ∧ userId = 2 then some ⟨true, true⟩
    else if projectId = 1 ∧ userId = 3 then some ⟨true, false⟩
    else none
  workMinutes _ := none
  projects projectId := if projectId = 1 then some false else none

theorem office_ruled : office.Ruled := by
  intro id entry hfound _
  obtain rfl : entry = meetingWork := List.mem_singleton.mp (Table.mem_of_find? hfound)
  exact ⟨rfl, .inr (by decide)⟩

/-- The manager corrects the minutes, and leaves the note out. -/
def minutesCorrected : List (Label EntryRequest Bool) :=
  [.start (.adminUpdate 1 2 1 (.ok { minutes := 90, version := 1 })), .run 0 false, .run 0 false,
    .run 0 false, .run 0 false, .run 0 false, .run 0 false]

theorem corrections_kept_iff_office :
    CorrectionsKept office minutesCorrected ↔
      entryService.Admits Mindful (initial office) minutesCorrected :=
  corrections_kept_iff office_ruled minutesCorrected

/-- The note is erased, and the work is left without one. -/
theorem note_erased :
    ¬ ∀ (db : Db) (labels : List (Label EntryRequest Bool)), db.Ruled → CorrectionsKept db labels := by
  intro h
  have hruled := (h office minutesCorrected office_ruled).ruled minutesCorrected []
    (List.append_nil _).symm
  have hfound : (entryService.run (initial office) minutesCorrected).world.state.entries.find? 1 =
      some { meetingWork with minutes := 90, note := "", version := 2 } := by decide +kernel
  obtain ⟨-, ⟨projectId, issueId, issue, hproject, hissue, hrest⟩ | hnote⟩ := hruled 1 _ hfound rfl
  · cases hissue
  · exact hnote (by decide)

end IntelliPilot.TimeTracking
