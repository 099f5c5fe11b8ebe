import IntelliPilot.TimeTracking.Handlers

/-! # Locked months

Every handler that writes an entry asks for the lock of the months it writes
in, so that the entries of a locked month stay as they are.
-/

namespace IntelliPilot.TimeTracking

open Http Statement
open Rows

variable {projectId : Uuid} {month : Month} {db : Db}

/-- The entry is of the project, and dated in the month. -/
def TimeEntry.inMonth (projectId : Uuid) (month : Month) (entry : TimeEntry) : Bool :=
  entry.projectId == some projectId && yearMonth entry.entryDate == month

/-- The entries of the project in the month. -/
def Db.entriesIn (db : Db) (projectId : Uuid) (month : Month) : List TimeEntry :=
  db.entries.rows.filter (TimeEntry.inMonth projectId month)

/-- The month is locked. -/
def Db.Locked (db : Db) (projectId : Uuid) (month : Month) : Prop := (projectId, month) ∈ db.locks

/-- The user may manage the time of the project. -/
def Db.manages (db : Db) (projectId userId : Uuid) : Bool :=
  (db.access projectId userId).any (·.timeManage)

/-- The entries of the month, and its lock, are the same. -/
structure Kept (projectId : Uuid) (month : Month) (db db' : Db) : Prop where
  entries : db'.entriesIn projectId month = db.entriesIn projectId month
  locked : db.Locked projectId month → db'.Locked projectId month

theorem Kept.refl (db : Db) : Kept projectId month db db := ⟨rfl, id⟩

theorem Kept.trans {a b c : Db} (hab : Kept projectId month a b) (hbc : Kept projectId month b c) :
    Kept projectId month a c :=
  ⟨hbc.entries.trans hab.entries, fun h => hbc.locked (hab.locked h)⟩

/-! ## Writes -/

theorem kept_createEntry {new : NewEntry}
    (h : ¬ (new.projectId = some projectId ∧ yearMonth new.entryDate = month)) (db : Db) :
    Kept projectId month db (db.createEntry new).2 := by
  unfold Db.createEntry
  split
  · refine ⟨?_, id⟩
    have hout : TimeEntry.inMonth projectId month
        { toNewEntry := new, id := db.entries.fresh, version := 1 } = false := by
      simpa [TimeEntry.inMonth] using h
    simp only [Db.entriesIn, Table.insert, List.filter_append]
    rw [List.filter_cons_of_neg (by rw [hout]; exact Bool.false_ne_true), List.filter_nil,
      List.append_nil]
  · exact Kept.refl db

theorem kept_updateEntry {id : Uuid} {minutes : Int} {note : String} {entryDate : Option Date}
    {version : Int} (hold : ∀ entry, db.entries.find? id = some entry →
      entry.inMonth projectId month = false ∧ ∀ date ∈ entryDate,
        ¬ (entry.projectId = some projectId ∧ yearMonth date = month)) :
    Kept projectId month db (db.updateEntry id minutes note entryDate version).2 := by
  unfold Db.updateEntry
  split
  · exact Kept.refl db
  · rename_i old hfound
    dsimp only
    split
    · refine ⟨?_, fun h => h⟩
      apply filter_updateWhere_of_not
      intro row hrow hid
      have hrow : db.entries.find? id = some row :=
        Table.find?_eq_some_iff.mpr ⟨hrow, by simpa using hid⟩
      obtain ⟨hout, hmove⟩ := hold row hrow
      refine ⟨hout, ?_⟩
      cases entryDate with
      | none => exact hout
      | some date => simpa [TimeEntry.inMonth] using hmove date rfl
    · exact Kept.refl db

theorem kept_deleteEntry {id : Uuid} (hold : ∀ entry, db.entries.find? id = some entry →
    entry.inMonth projectId month = false) : Kept projectId month db (db.deleteEntry id).2 := by
  refine ⟨?_, fun h => h⟩
  simp only [Db.entriesIn, Db.deleteEntry, Table.erase, deleteWhere, List.filter_filter]
  apply List.filter_congr
  intro row hrow
  by_cases hid : row.id = id
  · rw [hold row (Table.find?_eq_some_iff.mpr ⟨hrow, hid⟩), Bool.false_and]
  · simp [hid]

theorem kept_insertDay {row : BookingRow} {date : Date} {entry : TimeEntry} {db' : Db}
    (h : db.insertDay row date = .ok (entry, db')) : Kept projectId month db db' := by
  have hcreated : Kept projectId month db (db.createEntry (row.entry date)).2 :=
    kept_createEntry (by simp [BookingRow.entry]) db
  unfold Db.insertDay at h
  split at h
  · contradiction
  · split at h
    · contradiction
    · rename_i created later hcreate
      rw [hcreate] at hcreated
      obtain ⟨rfl, rfl⟩ := Prod.mk.inj (Except.ok.inj h)
      exact hcreated

theorem kept_bookFrom {row : BookingRow} {finish : Date} {skipWeekends : Bool} {d : Date}
    {created entries : List TimeEntry} {db' : Db}
    (h : db.bookFrom row finish skipWeekends d created = .ok (entries, db')) :
    Kept projectId month db db' := by
  fun_induction Db.bookFrom row finish skipWeekends d created db with
  | case1 => contradiction
  | case2 d created db hd hwork entry later hinsert hlast ih =>
    exact (kept_insertDay hinsert).trans (ih h)
  | case3 => contradiction
  | case4 d created db hd hfree hlast ih => exact ih h
  | case5 => contradiction
  | case6 d created db hd =>
    rw [← (Prod.mk.inj (Except.ok.inj h)).2]
    exact Kept.refl db

theorem kept_createBooking (row : BookingRow) (start finish : Date) (skipWeekends : Bool) (db : Db) :
    Kept projectId month db (db.createBooking row start finish skipWeekends).2 := by
  unfold Db.createBooking
  split
  · exact Kept.refl db
  · rename_i hbooked
    exact kept_bookFrom hbooked

theorem kept_lockPeriod (other : Uuid × Month) (db : Db) :
    Kept projectId month db { db with locks := if db.locks.contains other then db.locks
      else other :: db.locks } := by
  refine ⟨rfl, ?_⟩
  intro h
  show (projectId, month) ∈ ite _ _ _
  split
  · exact h
  · exact List.mem_cons_of_mem _ h

theorem kept_unlockPeriod {other : Uuid × Month} (h : other.1 ≠ projectId) (db : Db) :
    Kept projectId month db { db with locks := db.locks.filter fun lock => lock != other } := by
  refine ⟨rfl, ?_⟩
  intro hlocked
  refine List.mem_filter.mpr ⟨hlocked, ?_⟩
  simp only [bne_iff_ne, ne_eq]
  rintro rfl
  exact h rfl

/-! ## Reads -/

abbrev AnyChoice : Bool → Prop := fun _ => True

/-- A read finds what is there, where it does not fail. -/
theorem finds_read {α : Type} {stmt : Stmt (Except DbError α)} {a : α}
    (h : stmt.effect db = (.ok a, db)) (hfailure : ∃ e, stmt.failure = .error e) :
    Finds Stmt.exec AnyChoice (· = db) stmt (· = a) := by
  intro fails s _ hs
  subst hs
  obtain ⟨e, he⟩ := hfailure
  cases fails with
  | true =>
    refine ⟨rfl, ?_⟩
    intro a' ha'
    have hresult : stmt.failure = .ok a' := ha'
    rw [he] at hresult
    contradiction
  | false =>
    show (stmt.effect s).2 = s ∧ ∀ a', (stmt.effect s).1 = .ok a' → a' = a
    rw [h]
    exact ⟨rfl, fun a' ha' => (Except.ok.inj ha').symm⟩

section Handlers

variable {userId : Uuid} {E : Problem → Prop}

theorem stays_access (pid : Uuid) :
    Stays Stmt.exec AnyChoice (· = db) (orDefault (.access pid userId) none : Handler (Option Access))
      (fun access => access = none ∨ access = db.access pid userId) E := by
  refine stays_orDefault ?_ (.inl rfl)
  intro fails s hfails hs
  have hread : Finds Stmt.exec AnyChoice (· = db) (.access pid userId)
      (· = db.access pid userId) := finds_read rfl ⟨_, rfl⟩
  obtain ⟨hstate, hresult⟩ := hread fails s hfails hs
  exact ⟨hstate, fun a ha => .inr (hresult a ha)⟩

/-- The lock of a locked month stops those who may not manage it. -/
theorem stays_guardLocked (hlocked : db.Locked projectId month)
    (hmanage : db.manages projectId userId = false) (pid : Option Uuid) (date : Date) :
    Stays Stmt.exec AnyChoice (· = db) (guardLocked userId pid date)
      (fun _ => ¬ (pid = some projectId ∧ yearMonth date = month)) fun _ => True := by
  unfold guardLocked
  cases pid with
  | none => exact stays_pure (by simp)
  | some pid =>
    refine stays_bind (stays_orRefuse (finds_read (a := db.locks.contains (pid, yearMonth date)) rfl
      ⟨_, rfl⟩) trivial) ?_
    rintro isLocked rfl
    apply stays_ite
    · intro hisLocked
      refine stays_bind (stays_access pid) ?_
      intro access haccess
      refine (stays_refuseUnless fun _ => trivial).mono ?_ fun _ h => h
      rintro _ hmay ⟨hpid, -⟩
      rcases haccess with rfl | rfl
      · contradiction
      · rw [Option.some.inj hpid] at hmay
        rw [Db.manages, hmay] at hmanage
        contradiction
    · intro hisLocked
      refine stays_pure ?_
      rintro ⟨hpid, hdate⟩
      rw [Option.some.inj hpid, hdate] at hisLocked
      exact hisLocked (List.contains_iff_mem.mpr hlocked)

theorem stays_myEntry (id : Uuid) :
    Stays Stmt.exec AnyChoice (· = db) (myEntry userId id)
      (fun entry => db.entries.find? id = some entry) fun _ => True := by
  unfold myEntry
  refine stays_bind (stays_orRefuse (finds_read (a := db.entries.find? id) rfl ⟨_, rfl⟩) trivial) ?_
  rintro found rfl
  cases hfound : db.entries.find? id with
  | none => exact stays_throw trivial
  | some entry =>
    apply stays_ite
    · exact fun _ => stays_pure rfl
    · exact fun _ => stays_throw trivial

theorem stays_logProject (issueId pid : Option Uuid) :
    Stays Stmt.exec AnyChoice (· = db) (logProject issueId pid) (fun _ => True) fun _ => True := by
  unfold logProject
  cases issueId with
  | none => exact stays_pure trivial
  | some id =>
    refine stays_bind (stays_attempted (finds_read rfl ⟨_, rfl⟩)) ?_
    intro result _
    rcases result with e | found
    · exact stays_throw trivial
    · rcases found with _ | ⟨pid, assigned, deleted⟩
      · exact stays_throw trivial
      · cases deleted with
        | false => exact stays_pure trivial
        | true => exact stays_throw trivial

/-- A month that is locked is not logged to. -/
theorem stays_guardLog (hlocked : db.Locked projectId month)
    (hmanage : db.manages projectId userId = false) (pid : Option Uuid) (date : Date) :
    Stays Stmt.exec AnyChoice (· = db) (guardLog userId pid date)
      (fun _ => ¬ (pid = some projectId ∧ yearMonth date = month)) fun _ => True := by
  unfold guardLog
  cases pid with
  | none => exact stays_pure (by simp)
  | some pid =>
    refine stays_bind (stays_access pid) ?_
    intro access haccess
    refine stays_bind (stays_refuseUnless fun _ => trivial) fun _ _ => ?_
    refine stays_bind (stays_orRefuse (finds_read (a := db.locks.contains (pid, yearMonth date)) rfl
      ⟨_, rfl⟩) trivial) ?_
    rintro isLocked rfl
    refine (stays_refuseUnless fun _ => trivial).mono ?_ fun _ h => h
    rintro _ hmay ⟨hpid, hdate⟩
    rw [Option.some.inj hpid] at haccess hmay
    have hcontains : db.locks.contains (projectId, yearMonth date) = true := by
      rw [hdate]
      exact List.contains_iff_mem.mpr hlocked
    rw [hcontains, Bool.true_and, Bool.not_not] at hmay
    rcases haccess with rfl | rfl
    · contradiction
    · rw [Db.manages, hmay] at hmanage
      contradiction

/-- What is done with a state that the reads before it left alone. -/
theorem Stays.keeps {α β : Type} {p : Handler α} {f : α → Handler β} {P : α → Prop}
    (hp : Stays Stmt.exec AnyChoice (· = db) p P fun _ => True)
    (hf : ∀ a, P a → Ensures Stmt.exec AnyChoice (f a) (fun _ => Kept projectId month db)
      (fun _ => Kept projectId month db) db) :
    Ensures Stmt.exec AnyChoice (p >>= f) (fun _ => Kept projectId month db)
      (fun _ => Kept projectId month db) db := by
  refine hp.ensures rfl ?_ ?_
  · rintro a s rfl hP
    exact hf a hP
  · rintro _ s rfl _
    exact Kept.refl s

/-- A write that keeps the month, and what follows it. -/
theorem keeps_write {α β : Type} {stmt : Stmt (Except DbError α)} {problem : Problem}
    {f : α → Handler β} (hwrite : Kept projectId month db (stmt.effect db).2)
    (hf : ∀ a, (∃ refusal, f a = throw refusal) ∨ ∃ b, f a = pure b) :
    Ensures Stmt.exec AnyChoice (orRefuse stmt problem >>= f) (fun _ => Kept projectId month db)
      (fun _ => Kept projectId month db) db := by
  have hdone : ∀ (result : Except DbError α) (s : Db), Kept projectId month db s →
      Outcome (fun a s => Ensures Stmt.exec AnyChoice (f a) (fun _ => Kept projectId month db)
        (fun _ => Kept projectId month db) s) (fun _ => Kept projectId month db)
        (result.mapError fun _ => problem) s := by
    intro result s hs
    rcases result with e | a
    · exact hs
    · rcases hf a with ⟨refusal, hthrow⟩ | ⟨b, hpure⟩
      · show Ensures _ _ (f a) _ _ s
        rw [hthrow]
        exact hs
      · show Ensures _ _ (f a) _ _ s
        rw [hpure]
        exact hs
  rw [ensures_bind]
  intro fails _
  cases fails with
  | true => exact hdone _ _ (Kept.refl db)
  | false => exact hdone _ _ hwrite

theorem keeps_done {α β : Type} {p : Handler α} {f : α → β}
    (h : Ensures Stmt.exec AnyChoice p (fun _ => Kept projectId month db)
      (fun _ => Kept projectId month db) db) :
    Ensures Stmt.exec AnyChoice (p >>= fun a => pure (f a)) (fun _ => Kept projectId month db)
      (fun _ => Kept projectId month db) db := by
  rw [ensures_bind]
  exact h.mono (fun _ _ h => h) fun _ _ h => h

/-! ## Handlers -/

theorem keeps_logMyTime (hlocked : db.Locked projectId month)
    (hmanage : db.manages projectId userId = false) (body : Except Problem LogTimeRequest) :
    Ensures Stmt.exec AnyChoice (logMyTime userId body) (fun _ => Kept projectId month db)
      (fun _ => Kept projectId month db) db := by
  unfold logMyTime
  refine Stays.keeps (stays_given fun _ _ => trivial) fun req _ => ?_
  refine Stays.keeps (stays_given fun _ _ => trivial) fun date _ => ?_
  refine Stays.keeps (stays_given fun _ _ => trivial) fun kind _ => ?_
  refine Stays.keeps (stays_given fun _ _ => trivial) fun meetingType _ => ?_
  refine Stays.keeps (stays_logProject _ _) fun pid _ => ?_
  refine Stays.keeps (stays_given fun _ _ => trivial) fun _ _ => ?_
  refine Stays.keeps (stays_guardLog hlocked hmanage pid date) fun _ hout => ?_
  exact keeps_write (kept_createEntry hout db) fun entry => .inr ⟨_, rfl⟩

theorem keeps_updateEntry {id : Uuid} {req : UpdateTimeRequest} {note : String}
    {newDate : Option Date} (hold : ∀ entry, db.entries.find? id = some entry →
      entry.inMonth projectId month = false ∧ ∀ date ∈ newDate,
        ¬ (entry.projectId = some projectId ∧ yearMonth date = month)) :
    Ensures Stmt.exec AnyChoice (updateEntry id req note newDate)
      (fun _ => Kept projectId month db) (fun _ => Kept projectId month db) db := by
  unfold updateEntry
  refine Stays.keeps (stays_orRefuse (finds_read rfl ⟨_, rfl⟩) trivial) fun found _ => ?_
  cases found with
  | none => exact Kept.refl db
  | some current =>
    refine Stays.keeps (stays_refuseUnless fun _ => trivial) fun _ _ => ?_
    refine keeps_write (kept_updateEntry hold) fun written => ?_
    cases written with
    | none => exact .inl ⟨_, rfl⟩
    | some entry => exact .inr ⟨entry, rfl⟩

theorem inMonth_eq_false {entry : TimeEntry}
    (h : ¬ (entry.projectId = some projectId ∧ yearMonth entry.entryDate = month)) :
    entry.inMonth projectId month = false := by
  simpa [TimeEntry.inMonth] using h

/-- The month that a patch moves the entry to is not locked either. -/
theorem stays_guardMove (hlocked : db.Locked projectId month)
    (hmanage : db.manages projectId userId = false) {entry : TimeEntry}
    (hout : ¬ (entry.projectId = some projectId ∧ yearMonth entry.entryDate = month))
    (newDate : Option Date) :
    Stays Stmt.exec AnyChoice (· = db) (guardMove userId entry newDate)
      (fun _ => ∀ date ∈ newDate, ¬ (entry.projectId = some projectId ∧ yearMonth date = month))
      fun _ => True := by
  unfold guardMove
  cases newDate with
  | none => exact stays_pure (by simp)
  | some date =>
    apply stays_ite
    · rintro rfl
      refine stays_pure ?_
      intro date hdate
      rw [← Option.some.inj hdate]
      exact hout
    · intro _
      refine (stays_guardLocked hlocked hmanage entry.projectId date).mono ?_ fun _ h => h
      intro _ hmove date' hdate
      rw [← Option.some.inj hdate]
      exact hmove

theorem keeps_updateMyEntry (hlocked : db.Locked projectId month)
    (hmanage : db.manages projectId userId = false) (id : Uuid)
    (body : Except Problem UpdateTimeRequest) :
    Ensures Stmt.exec AnyChoice (updateMyEntry userId id body) (fun _ => Kept projectId month db)
      (fun _ => Kept projectId month db) db := by
  unfold updateMyEntry
  refine Stays.keeps (stays_given fun _ _ => trivial) fun req _ => ?_
  refine Stays.keeps (stays_myEntry id) fun entry hentry => ?_
  refine Stays.keeps (stays_guardLocked hlocked hmanage entry.projectId entry.entryDate)
    fun _ hout => ?_
  refine Stays.keeps (stays_given fun _ _ => trivial) fun newDate _ => ?_
  refine Stays.keeps (stays_guardMove hlocked hmanage hout newDate) fun _ hmove => ?_
  refine keeps_done (keeps_updateEntry ?_)
  intro found hfound
  rw [← Option.some.inj (hentry.symm.trans hfound)]
  exact ⟨inMonth_eq_false hout, hmove⟩

theorem keeps_deleteMyEntry (hlocked : db.Locked projectId month)
    (hmanage : db.manages projectId userId = false) (id : Uuid) :
    Ensures Stmt.exec AnyChoice (deleteMyEntry userId id) (fun _ => Kept projectId month db)
      (fun _ => Kept projectId month db) db := by
  unfold deleteMyEntry
  refine Stays.keeps (stays_myEntry id) fun entry hentry => ?_
  refine Stays.keeps (stays_guardLocked hlocked hmanage entry.projectId entry.entryDate)
    fun _ hout => ?_
  refine keeps_write (kept_deleteEntry ?_) fun found => ?_
  · intro other hother
    rw [← Option.some.inj (hentry.symm.trans hother)]
    exact inMonth_eq_false hout
  · cases found with
    | false => exact .inl ⟨_, rfl⟩
    | true => exact .inr ⟨_, rfl⟩

/-- A booking has no project. -/
theorem keeps_bookAbsence (bookingId : Uuid) (body : Except Problem BookAbsenceRequest) :
    Ensures Stmt.exec AnyChoice (bookAbsence userId bookingId body)
      (fun _ => Kept projectId month db) (fun _ => Kept projectId month db) db := by
  unfold bookAbsence
  refine Stays.keeps (stays_given fun _ _ => trivial) fun req _ => ?_
  refine Stays.keeps (stays_given fun _ _ => trivial) fun checked _ => ?_
  obtain ⟨kind, start, finish⟩ := checked
  have hminutes : Stays Stmt.exec AnyChoice (· = db) (absenceMinutes userId req.minutesPerDay)
      (fun _ => True) fun _ => True := by
    unfold absenceMinutes
    cases req.minutesPerDay with
    | some minutes => exact stays_pure trivial
    | none =>
      refine stays_bind (stays_orDefault (P := fun _ => True) ?_ trivial)
        fun target _ => stays_pure trivial
      have hread : Finds Stmt.exec AnyChoice (· = db) (.workMinutesPerDay userId)
          (· = db.workMinutes userId) := finds_read rfl ⟨_, rfl⟩
      intro fails s hfails hs
      exact ⟨(hread fails s hfails hs).1, fun _ _ => trivial⟩
  refine Stays.keeps hminutes fun minutes _ => ?_
  refine keeps_write ?_ fun entries => .inr ⟨_, rfl⟩
  have hkept : Kept projectId month db
      (db.createBooking ⟨userId, kind, minutes, req.note.getD "", bookingId⟩ start finish
        (req.skipWeekends.getD true)).2 := kept_createBooking _ _ _ _ db
  unfold Stmt.effect
  dsimp only
  split <;> rename_i hbooked <;> rw [hbooked] at hkept <;> exact hkept

/-- Only those who manage the time of a project lock and unlock its months. -/
theorem stays_requireManage (pid : Uuid) :
    Stays Stmt.exec AnyChoice (· = db) (requireManage pid userId)
      (fun _ => db.manages pid userId = true) fun _ => True := by
  unfold requireManage
  refine stays_bind (stays_orRefuse (finds_read rfl ⟨_, rfl⟩) trivial) fun found _ => ?_
  cases found with
  | none => exact stays_throw trivial
  | some isPrivate =>
    refine stays_bind (stays_orRefuse (finds_read (a := db.access pid userId) rfl ⟨_, rfl⟩)
      trivial) ?_
    rintro access rfl
    refine stays_bind (stays_refuseUnless fun _ => trivial) fun _ _ => ?_
    exact stays_refuseUnless fun _ => trivial

theorem keeps_lockPeriod (pid : Uuid) (body : Except Problem Month) :
    Ensures Stmt.exec AnyChoice (lockPeriod pid userId body) (fun _ => Kept projectId month db)
      (fun _ => Kept projectId month db) db := by
  unfold lockPeriod
  refine Stays.keeps (stays_requireManage pid) fun _ _ => ?_
  refine Stays.keeps (stays_given fun _ _ => trivial) fun other _ => ?_
  exact keeps_write (kept_lockPeriod (pid, other) db) fun _ => .inr ⟨_, rfl⟩

theorem keeps_unlockPeriod (hmanage : db.manages projectId userId = false) (pid : Uuid)
    (other : Month) :
    Ensures Stmt.exec AnyChoice (unlockPeriod pid userId other) (fun _ => Kept projectId month db)
      (fun _ => Kept projectId month db) db := by
  unfold unlockPeriod
  refine Stays.keeps (stays_requireManage pid) fun _ hmay => ?_
  refine keeps_write (kept_unlockPeriod ?_ db) fun found => ?_
  · rintro rfl
    rw [hmanage] at hmay
    contradiction
  · cases found with
    | false => exact .inl ⟨_, rfl⟩
    | true => exact .inr ⟨_, rfl⟩

theorem keeps_request (hlocked : db.Locked projectId month)
    (hmanage : db.manages projectId userId = false) (request : Request) :
    Ensures Stmt.exec AnyChoice (request.handler userId) (fun _ => Kept projectId month db)
      (fun _ => Kept projectId month db) db := by
  cases request with
  | log body => exact keeps_logMyTime hlocked hmanage body
  | update id body => exact keeps_updateMyEntry hlocked hmanage id body
  | delete id => exact keeps_deleteMyEntry hlocked hmanage id
  | book bookingId body => exact keeps_bookAbsence bookingId body
  | lock pid body => exact keeps_lockPeriod pid body
  | unlock pid other => exact keeps_unlockPeriod hmanage pid other

end Handlers

/-! ## Runs -/

/-- The turn is not a request of someone who may manage the time of the project. -/
def Turn.unprivileged (projectId : Uuid) (db : Db) : Turn → Prop
  | .request userId _ _ => db.manages projectId userId = false
  | .rights _ _ _ => True

theorem kept_next {turn : Turn} (hlocked : db.Locked projectId month)
    (hturn : turn.unprivileged projectId db) : Kept projectId month db (server.next db turn) := by
  cases turn with
  | rights pid userId access => exact ⟨rfl, fun h => h⟩
  | request userId request fails =>
    have hfails : ∀ n, AnyChoice (fails n) := fun _ => trivial
    have hends := (keeps_request hlocked hturn request).alone hfails
    show Kept projectId month db ((request.handler userId).run.alone Stmt.exec fails db).2
    revert hends
    cases ((request.handler userId).run.alone Stmt.exec fails db).1 with
    | error problem => exact fun h => h
    | ok answer => exact fun h => h

/-- While a month is locked, those who may not manage the time of the project leave its
entries of the month as they are, whatever they may do else and whosever rights change. -/
theorem locked_month_immutable {turns : List Turn} (hlocked : db.Locked projectId month)
    (hturns : server.Each (fun db turn => turn.unprivileged projectId db) db turns) :
    (server.run db turns).entriesIn projectId month = db.entriesIn projectId month := by
  induction turns generalizing db with
  | nil => rfl
  | cons turn turns ih =>
    have hnext := kept_next hlocked hturns.1
    exact (ih (hnext.locked hlocked) hturns.2).trans hnext.entries

/-- Entry 1 of user 7 lies in a locked month of project 1; user 8 manages its time. -/
def closedJanuary : Db where
  entries := ⟨[⟨⟨7, .work, none, some 1, none, 3, 60, "setup", none⟩, 1, 1⟩], by decide⟩
  issues := Table.empty
  locks := [(1, (1970, 1))]
  access := fun _ user => if user = 8 then some ⟨true, true⟩ else some ⟨true, false⟩
  workMinutes := fun _ => none
  projects := fun _ => some true

/-- The entry is to be moved out, another one to be added, and the month to be unlocked;
on the way the user loses the right to log. -/
def intruding : List Turn :=
  [.request 7 (.update 1 (.ok { minutes := 30, date := some (some 40), version := 1 })) fun _ => false,
    .request 7 (.log (.ok { projectId := some 1, date := some 4, minutes := 15, note := some "late" }))
      fun _ => false,
    .rights 1 7 (some ⟨false, false⟩),
    .request 7 (.unlock 1 (1970, 1)) fun _ => false]

theorem locked_month_immutable_intruding :
    (server.run closedJanuary intruding).entriesIn 1 (1970, 1) =
      closedJanuary.entriesIn 1 (1970, 1) :=
  locked_month_immutable (by simp [Db.Locked, closedJanuary]) ⟨rfl, rfl, trivial, rfl, trivial⟩

end IntelliPilot.TimeTracking
