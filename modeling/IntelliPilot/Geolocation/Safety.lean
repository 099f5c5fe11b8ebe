import IntelliPilot.Geolocation.Updates
import IntelliPilot.Statement.Alone
import IntelliPilot.Statement.RelyGuarantee

/-! # What updates leave of the database

In a run that takes care the row names a file that is there and has passed the
validation, no other file is ever read from, and the lock is held for attempts
under way only. Whoever holds the lock is alone with the directory.
-/

namespace IntelliPilot.Geolocation

open Statement

variable {Bytes : Type}

abbrev GeoWorld (Bytes : Type) := World (Stmt Bytes) (State Bytes) Request Answer

abbrev GeoEvent (Bytes : Type) := Event (Stmt Bytes) Request Answer

/-! ## What is kept -/

/-- Attempt `i` has taken the connection out. -/
def Owns (i : Nat) (client : Client) (w : GeoWorld Bytes) : Prop :=
  ∃ process connection, (i, .ran (.checkOut process connection) (some client)) ∈ w.log

/-- The connection holds the lock. -/
def Locked (client : Client) (s : State Bytes) : Prop :=
  ∃ depth, s.lock = some (client.session, depth)

/-- The row names a file that has passed the validation, and nothing else is read from. -/
structure Kept (format : Format Bytes) (s : State Bytes) : Prop where
  installed : ∀ name, s.row.filePath = some name →
    ∃ bytes, s.files name = some bytes ∧ format.Valid bytes
  readers : ∀ process bytes, s.readers process = some bytes → format.Valid bytes
  named : ∀ name, s.row.filePath = some name → Text.endsWith name ".part" = false

/-- Starting the server restores the lookups, where its steps are done. -/
def Restores (format : Format Bytes) (s : State Bytes) : Prop :=
  ∀ name client, s.row.filePath = some name → client.process ∉ s.stopped →
    ∀ choices : Nat → Choice Bytes, (∀ n, (choices n).ok = true) →
      ∃ bytes, format.Valid bytes ∧
        ((initGeoip client).alone (exec format) choices s).2.readers client.process = some bytes

/-- No update has cost a working database. -/
structure Safe (format : Format Bytes) (w : GeoWorld Bytes) : Prop where
  installed : ∀ name, w.state.row.filePath = some name →
    ∃ bytes, w.state.files name = some bytes ∧ format.Valid bytes
  restores : Restores format w.state
  readers : ∀ process bytes, w.state.readers process = some bytes → format.Valid bytes
  lock : ∀ session depth, w.state.lock = some (session, depth) →
    ∃ i client, Owns i client w ∧ client.session = session ∧ w.Unanswered i

/-! ## Care -/

/-- What a step must not do: remove the file that the row names, record a file that is
gone, or fail to read the row under the lock or to release it. -/
def CarefulStep : {β : Type} → Stmt Bytes β → β → State Bytes → Prop
  | _, .removeFile _ name, result, s => result = .ok () → s.row.filePath ≠ some name
  | _, .setInstalled _ _ _ filePath _ _ _, result, s =>
      result.isOk = true → (s.files filePath).isSome = true
  | _, .get client, result, s =>
      client.process ∉ s.stopped → Locked client s → result.isOk = true
  | _, .unlockDownload client, result, s => client.process ∉ s.stopped → result.isOk = true
  | _, _, _, _ => True

/-- A step of a run that takes care. -/
def TakesCare (i : Nat) (w w' : GeoWorld Bytes) : Prop :=
  ∀ (β : Type) (stmt : Stmt Bytes β) (result : β), w'.log = (i, .ran stmt result) :: w.log →
    CarefulStep stmt result w.state

/-! ## The contract -/

/-- A file that is not a download is left alone, removed, or replaced by a valid one. -/
def FilesKeep (format : Format Bytes) (s s' : State Bytes) : Prop :=
  ∀ name, Text.endsWith name ".part" = false →
    s'.files name = s.files name ∨ s'.files name = none ∨
      ∃ bytes, s'.files name = some bytes ∧ format.Valid bytes

/-- What others leave of a connection, and of the directory while it holds the lock. -/
structure Apart (client : Client) (s s' : State Bytes) : Prop where
  returned : client ∉ s.clients → client ∉ s'.clients
  taken : client ∈ s.clients → client.process ∉ s'.stopped → client ∈ s'.clients
  locked : client ∈ s.clients → client.process ∉ s'.stopped → (Locked client s' ↔ Locked client s)
  files : client ∈ s.clients → client.process ∉ s'.stopped → Locked client s → s'.files = s.files

structure Rely (format : Format Bytes) (i : Nat) (w w' : GeoWorld Bytes) : Prop where
  grows : w.GrowsWithout i w'
  stopped : ∀ process ∈ w.state.stopped, process ∈ w'.state.stopped
  keep : FilesKeep format w.state w'.state
  apart : ∀ client, Owns i client w → Apart client w.state w'.state

structure Guar (format : Format Bytes) (i : Nat) (w w' : GeoWorld Bytes) : Prop where
  stopped : ∀ process ∈ w.state.stopped, process ∈ w'.state.stopped
  keep : FilesKeep format w.state w'.state
  apart : ∀ client, ¬ Owns i client w → client.lease < w.state.leases →
    Apart client w.state w'.state

structure Inv (format : Format Bytes) (w : GeoWorld Bytes) : Prop where
  kept : Kept format w.state
  lock : ∀ session depth, w.state.lock = some (session, depth) → depth = 1 ∧
    ∃ i client, Owns i client w ∧ client.session = session ∧ client ∈ w.state.clients ∧
      w.Unanswered i
  sessions : (w.state.clients.map Client.session).Nodup
  running : ∀ client ∈ w.state.clients, client.process ∉ w.state.stopped
  leases : ∀ i client, Owns i client w → client.lease < w.state.leases
  owners : ∀ i j client, Owns i client w → Owns j client w → i = j

variable {format : Format Bytes}

theorem FilesKeep.refl (s : State Bytes) : FilesKeep format s s := fun _ _ => .inl rfl

variable {s s' : State Bytes}

theorem FilesKeep.of_eq (h : s'.files = s.files) : FilesKeep format s s' :=
  fun name _ => .inl (congrFun h name)

theorem FilesKeep.trans {s'' : State Bytes} (h : FilesKeep format s s')
    (h' : FilesKeep format s' s'') : FilesKeep format s s'' := by
  intro name hname
  rcases h' name hname with hsame | hnew
  · rw [hsame]
    exact h name hname
  · exact .inr hnew

theorem Apart.refl (client : Client) (s : State Bytes) : Apart client s s :=
  ⟨id, fun h _ => h, fun _ _ => Iff.rfl, fun _ _ _ => rfl⟩

variable {client : Client}

theorem Apart.trans {s'' : State Bytes} (h : Apart client s s') (h' : Apart client s' s'')
    (hstopped : ∀ process ∈ s'.stopped, process ∈ s''.stopped) :
    Apart client s s'' where
  returned hnot := h'.returned (h.returned hnot)
  taken hmem hruns := h'.taken (h.taken hmem fun hgone => hruns (hstopped _ hgone)) hruns
  locked hmem hruns := by
    have hruns' : client.process ∉ s'.stopped := fun hgone => hruns (hstopped _ hgone)
    exact (h'.locked (h.taken hmem hruns') hruns).trans (h.locked hmem hruns')
  files hmem hruns hlocked := by
    have hruns' : client.process ∉ s'.stopped := fun hgone => hruns (hstopped _ hgone)
    exact (h'.files (h.taken hmem hruns') hruns ((h.locked hmem hruns').mpr hlocked)).trans
      (h.files hmem hruns' hlocked)

variable {i j : Nat} {w : GeoWorld Bytes}

theorem Owns.grows {w' : GeoWorld Bytes} (h : w.GrowsWithout i w') (howns : Owns j client w) :
    Owns j client w' := by
  obtain ⟨process, connection, hmem⟩ := howns
  exact ⟨process, connection, h.mem hmem⟩

theorem owns_grows_iff {w' : GeoWorld Bytes} (h : w.GrowsWithout i w') :
    Owns i client w' ↔ Owns i client w :=
  exists_congr fun _ => exists_congr fun _ => h.own_iff

/-- Every attempt may rely on what the others guarantee, since no connection is shared. -/
def contract (format : Format Bytes) : Contract (service format) where
  inv := Inv format
  allowed := TakesCare
  rely := Rely format
  guar := Guar format
  rely_refl i w := ⟨⟨[], rfl, by simp⟩, fun _ h => h, .refl _, fun client _ => .refl client _⟩
  rely_trans i w₁ w₂ w₃ h h' := by
    refine ⟨?_, fun process hmem => h'.stopped _ (h.stopped _ hmem), h.keep.trans h'.keep, ?_⟩
    · obtain ⟨first, hfirst, hfirstOther⟩ := h.grows
      obtain ⟨second, hsecond, hsecondOther⟩ := h'.grows
      refine ⟨second ++ first, by rw [hsecond, hfirst, List.append_assoc], ?_⟩
      intro entry hentry
      rcases List.mem_append.mp hentry with hmem | hmem
      · exact hsecondOther entry hmem
      · exact hfirstOther entry hmem
    · intro client howns
      exact (h.apart client howns).trans (h'.apart client (howns.grows h.grows)) h'.stopped
  guar_rely i j w w' hne hinv _ hgrows hguar := by
    refine ⟨hgrows, hguar.stopped, hguar.keep, fun client howns => ?_⟩
    apply hguar.apart client _ (hinv.leases j client howns)
    intro howns'
    exact hne (hinv.owners i j client howns' howns)

/-! ## Steps -/

/-- The instance that a step is of. -/
def processOf : {β : Type} → Stmt Bytes β → Process
  | _, .checkOut process _ => process
  | _, .giveBack client => client.process
  | _, .getSettings client => client.process
  | _, .get client => client.process
  | _, .setInstalled client _ _ _ _ _ _ => client.process
  | _, .markChecked client => client.process
  | _, .markError client _ => client.process
  | _, .tryLockDownload client => client.process
  | _, .unlockDownload client => client.process
  | _, .nowUtc process => process
  | _, .fetch process _ _ => process
  | _, .createDirAll process => process
  | _, .write process _ _ => process
  | _, .openReadfile process _ => process
  | _, .rename process _ _ => process
  | _, .removeFile process _ => process
  | _, .readDir process => process
  | _, .setReader process _ => process
  | _, .setEnabled process _ => process
  | _, .stop process => process

/-- Steps that leave the connections, the lock and the instances alone. -/
def plain : {β : Type} → Stmt Bytes β → Bool
  | _, .checkOut _ _ => false
  | _, .giveBack _ => false
  | _, .tryLockDownload _ => false
  | _, .unlockDownload _ => false
  | _, .stop _ => false
  | _, _ => true

/-- Only the row, the files and the readers may differ. -/
structure SameSessions (s s' : State Bytes) : Prop where
  clients : s'.clients = s.clients
  lock : s'.lock = s.lock
  leases : s'.leases = s.leases
  stopped : s'.stopped = s.stopped

theorem SameSessions.refl (s : State Bytes) : SameSessions s s := ⟨rfl, rfl, rfl, rfl⟩

theorem guarded_cases {α : Type} {process : Process} {choice : Choice Bytes} {failed : α}
    {done : α × State Bytes} {p : α × State Bytes → Prop} (hfailed : p (failed, s))
    (hdone : process ∉ s.stopped → choice.ok = true → p done) :
    p (guarded process choice s failed done) := by
  unfold guarded
  split
  next => exact hfailed
  next h =>
    obtain ⟨hruns, hok⟩ := not_or.mp h
    exact hdone hruns (by simpa using hok)

variable {β : Type} {stmt : Stmt Bytes β}

variable (format) in
theorem sameSessions_exec (h : plain stmt = true) (choice : Choice Bytes) (s : State Bytes) :
    SameSessions s (exec format stmt choice s).2 := by
  have hguarded : ∀ {α : Type} {process : Process} {failed : α} {done : α × State Bytes},
      SameSessions s done.2 → SameSessions s (guarded process choice s failed done).2 := by
    intro α process failed done hdone
    exact guarded_cases (p := fun r => SameSessions s r.2) (.refl s) fun _ _ => hdone
  cases stmt with
  | checkOut | giveBack | tryLockDownload | unlockDownload | stop => contradiction
  | nowUtc => exact .refl s
  | setEnabled process value =>
    change SameSessions s (setFlag process value s)
    unfold setFlag
    split
    · exact .refl s
    · exact ⟨rfl, rfl, rfl, rfl⟩
  | write process name bytes =>
    change SameSessions s (writeFile process name bytes choice s).2
    unfold writeFile
    split_ifs
    · exact .refl s
    · exact ⟨rfl, rfl, rfl, rfl⟩
    · exact ⟨rfl, rfl, rfl, rfl⟩
  | rename process source target =>
    apply hguarded
    unfold renameFile
    split
    · exact .refl s
    · exact ⟨rfl, rfl, rfl, rfl⟩
  | _ => exact hguarded ⟨rfl, rfl, rfl, rfl⟩

/-- Steps that ask or answer leave everything as it is. -/
def asks : {β : Type} → Stmt Bytes β → Bool
  | _, .getSettings _ => true
  | _, .get _ => true
  | _, .nowUtc _ => true
  | _, .fetch _ _ _ => true
  | _, .createDirAll _ => true
  | _, .openReadfile _ _ => true
  | _, .readDir _ => true
  | _, _ => false

theorem exec_asks (h : asks stmt = true) (choice : Choice Bytes) (s : State Bytes) :
    (exec format stmt choice s).2 = s := by
  have hguarded : ∀ {α : Type} {process : Process} {failed : α} {done : α × State Bytes},
      done.2 = s → (guarded process choice s failed done).2 = s := by
    intro α process failed done hdone
    exact guarded_cases (p := fun r => r.2 = s) rfl fun _ _ => hdone
  cases stmt <;> first | contradiction | rfl | exact hguarded rfl

/-- The instance of a plain step that has stopped does nothing. -/
theorem exec_stopped (h : plain stmt = true) {choice : Choice Bytes}
    (hgone : processOf stmt ∈ s.stopped) : (exec format stmt choice s).2 = s := by
  have hguarded : ∀ {α : Type} {process : Process} {failed : α} {done : α × State Bytes},
      process ∈ s.stopped → (guarded process choice s failed done).2 = s := by
    intro α process failed done hgone
    rw [guarded, if_pos (.inl hgone)]
  cases stmt with
  | checkOut | giveBack | tryLockDownload | unlockDownload | stop => contradiction
  | nowUtc => rfl
  | setEnabled process value => exact if_pos hgone
  | write process name bytes => exact congrArg Prod.snd (if_pos hgone)
  | _ => exact hguarded hgone

theorem owns_record_iff {event : GeoEvent Bytes}
    (hnew : ∀ process connection, event ≠ .ran (.checkOut process connection) (some client)) :
    Owns j client (w.record i event s) ↔ Owns j client w := by
  constructor
  · rintro ⟨process, connection, hmem⟩
    rcases List.mem_cons.mp hmem with heq | hmem
    · exact absurd (Prod.mk.inj heq).2.symm (hnew process connection)
    · exact ⟨process, connection, hmem⟩
  · rintro ⟨process, connection, hmem⟩
    exact ⟨process, connection, List.mem_cons_of_mem _ hmem⟩

/-- The step takes a connection out. -/
def takesOut : {β : Type} → Stmt Bytes β → Bool
  | _, .checkOut _ _ => true
  | _, _ => false

theorem takesOut_of_plain (h : plain stmt = true) : takesOut stmt = false := by
  cases stmt <;> first | rfl | contradiction

theorem ran_ne_checkOut (h : takesOut stmt = false) (result : β) (process : Process)
    (connection : Nat) (client : Client) :
    (.ran stmt result : GeoEvent Bytes) ≠ .ran (.checkOut process connection) (some client) := by
  intro heq
  cases heq
  contradiction

/-- Other steps leave it to each attempt what it has taken out. -/
theorem owns_ran_iff (h : takesOut stmt = false) {result : β} :
    Owns j client (w.record i (.ran stmt result) s) ↔ Owns j client w :=
  owns_record_iff fun process connection => ran_ne_checkOut h result process connection client

theorem unanswered_ran_iff {result : β} :
    (w.record i (.ran stmt result) s).Unanswered j ↔ w.Unanswered j := by
  constructor
  · exact fun h request answer hmem => h request answer (List.mem_cons_of_mem _ hmem)
  · intro h request answer hmem
    rcases List.mem_cons.mp hmem with heq | hmem
    · exact absurd (Prod.mk.inj heq).2 (by simp)
    · exact h request answer hmem

/-- Connections in use are told apart by their sessions. -/
theorem eq_of_session (h : (s.clients.map Client.session).Nodup) {other : Client}
    (hclient : client ∈ s.clients) (hother : other ∈ s.clients)
    (hsession : client.session = other.session) : client = other :=
  List.inj_on_of_nodup_map h hclient hother hsession

theorem eq_of_locked (h : (s.clients.map Client.session).Nodup) {other : Client}
    (hclient : client ∈ s.clients) (hother : other ∈ s.clients) (hlocked : Locked client s)
    (hlocked' : Locked other s) : client = other := by
  obtain ⟨depth, hdepth⟩ := hlocked
  obtain ⟨depth', hdepth'⟩ := hlocked'
  apply eq_of_session h hclient hother
  exact (Prod.mk.inj (Option.some.inj (hdepth.symm.trans hdepth'))).1

/-- A plain step keeps the contract where it keeps the row's file, and leaves the directory
alone unless its attempt holds the lock. -/
theorem plain_step (hplain : plain stmt = true) (choice : Choice Bytes) (hinv : Inv format w)
    (hmine : Owns i client w) (hkept : Kept format (exec format stmt choice w.state).2)
    (hkeep : FilesKeep format w.state (exec format stmt choice w.state).2)
    (hfiles : (exec format stmt choice w.state).2.files = w.state.files ∨
      (client ∈ w.state.clients ∧ Locked client w.state)) :
    Inv format ((service format).perform i stmt choice w) ∧
      Guar format i w ((service format).perform i stmt choice w) := by
  have hsame := sameSessions_exec format hplain choice w.state
  have howns : ∀ j other, Owns j other ((service format).perform i stmt choice w) ↔
      Owns j other w := fun _ _ => owns_ran_iff (takesOut_of_plain hplain)
  constructor
  · refine ⟨hkept, fun session depth hlock => ?_, ?_, ?_, fun j other hother => ?_,
      fun j k other hj hk => ?_⟩
    · obtain ⟨hdepth, j, other, hother, hsession, hmem, hopen⟩ :=
        hinv.lock session depth (hsame.lock ▸ hlock)
      exact ⟨hdepth, j, other, (howns j other).mpr hother, hsession, hsame.clients ▸ hmem,
        unanswered_ran_iff.mpr hopen⟩
    · exact hsame.clients ▸ hinv.sessions
    · intro other hother hgone
      exact hinv.running other (hsame.clients ▸ hother) (hsame.stopped ▸ hgone)
    · exact lt_of_lt_of_eq (hinv.leases j other ((howns j other).mp hother)) hsame.leases.symm
    · exact hinv.owners j k other ((howns j other).mp hj) ((howns k other).mp hk)
  · refine ⟨fun process hmem => hsame.stopped ▸ hmem, hkeep, fun other hother _ => ?_⟩
    refine ⟨fun hnot => hsame.clients ▸ hnot, fun hmem _ => hsame.clients ▸ hmem, fun _ _ => ?_,
      fun hmem _ hlocked => ?_⟩
    · exact exists_congr fun depth => by rw [Service.perform_state]; exact hsame.lock ▸ Iff.rfl
    · rcases hfiles with hfiles | ⟨hclient, hlock⟩
      · exact hfiles
      · obtain rfl := eq_of_locked hinv.sessions hclient hmem hlock hlocked
        exact absurd hmine hother

/-! ## What an attempt knows -/

/-- Attempt `i` has one connection, and its instance runs on with `K`, or has stopped. -/
structure Using (i : Nat) (client : Client) (K : State Bytes → Prop) (w : GeoWorld Bytes) :
    Prop where
  mine : ∀ other, Owns i other w ↔ other = client
  unanswered : w.Unanswered i
  state : client.process ∈ w.state.stopped ∨ (client ∈ w.state.clients ∧ K w.state)

/-- What others leave as the attempt knows it. -/
def Persists (format : Format Bytes) (client : Client) (K : State Bytes → Prop) : Prop :=
  ∀ s s', client ∈ s.clients → client.process ∉ s'.stopped → Apart client s s' →
    FilesKeep format s s' → K s → K s'

variable {K : State Bytes → Prop}

theorem stable_using (hK : Persists format client K) :
    (contract format).Stable i (Using i client K) := by
  intro w w' hrely _ _ h
  refine ⟨fun other => (owns_grows_iff hrely.grows).trans (h.mine other), ?_, ?_⟩
  · intro request answer hmem
    exact h.unanswered request answer (hrely.grows.own_iff.mp hmem)
  · by_cases hgone : client.process ∈ w'.state.stopped
    · exact .inl hgone
    · rcases h.state with hstopped | ⟨hclient, hknown⟩
      · exact absurd (hrely.stopped _ hstopped) hgone
      · have hapart := hrely.apart client ((h.mine client).mpr rfl)
        exact .inr ⟨hapart.taken hclient hgone,
          hK _ _ hclient hgone hapart hrely.keep hknown⟩

/-- A plain step of the attempt's instance, and what the attempt knows after it. -/
theorem triple_plain {R : β → State Bytes → Prop} (hplain : plain stmt = true)
    (hprocess : processOf stmt = client.process) (hK : Persists format client K)
    (hstep : ∀ s choice, Kept format s → client.process ∉ s.stopped → K s →
      CarefulStep stmt (exec format stmt choice s).1 s →
        Kept format (exec format stmt choice s).2 ∧
        FilesKeep format s (exec format stmt choice s).2 ∧
        ((exec format stmt choice s).2.files = s.files ∨ Locked client s) ∧
        R (exec format stmt choice s).1 (exec format stmt choice s).2) :
    (contract format).Triple i (Using i client K) (Prog.call stmt)
      fun result => Using i client (R result) := by
  apply Contract.triple_call _ (stable_using hK)
  intro w choice hinv h hcare
  have hmine := (h.mine client).mpr rfl
  have hsame := sameSessions_exec format hplain choice w.state
  have howns : ∀ other, Owns i other ((service format).perform i stmt choice w) ↔
      other = client := fun other =>
    (owns_ran_iff (takesOut_of_plain hplain)).trans (h.mine other)
  by_cases hgone : client.process ∈ w.state.stopped
  · -- the instance has stopped, and the step does nothing
    have hstill : (exec format stmt choice w.state).2 = w.state :=
      exec_stopped hplain (hprocess ▸ hgone)
    obtain ⟨hinv', hguar⟩ := plain_step hplain choice hinv hmine (hstill.symm ▸ hinv.kept)
      (.of_eq (by rw [hstill])) (.inl (by rw [hstill]))
    exact ⟨hinv', hguar, howns, unanswered_ran_iff.mpr h.unanswered, .inl (hsame.stopped ▸ hgone)⟩
  · obtain ⟨hclient, hknown⟩ := h.state.resolve_left hgone
    obtain ⟨hkept, hkeep, hfiles, hR⟩ := hstep w.state choice hinv.kept hgone hknown
      (hcare β stmt _ rfl)
    obtain ⟨hinv', hguar⟩ := plain_step hplain choice hinv hmine hkept hkeep
      (hfiles.imp_right fun hlocked => ⟨hclient, hlocked⟩)
    exact ⟨hinv', hguar, howns, unanswered_ran_iff.mpr h.unanswered,
      .inr ⟨hsame.clients ▸ hclient, hR⟩⟩

/-- A fact about the lock and the directory that others leave as it is. -/
structure Fact (format : Format Bytes) (client : Client) (K : State Bytes → Prop) : Prop where
  persists : Persists format client K
  elsewhere : ∀ s s', s'.files = s.files → s'.lock = s.lock → K s → K s'

/-- The attempt does not hold the lock. -/
def Idle (client : Client) (s : State Bytes) : Prop := ¬ Locked client s

/-- The attempt holds the lock and knows something about the directory. -/
def Holding (client : Client) (F : (String → Option Bytes) → Prop) (s : State Bytes) : Prop :=
  Locked client s ∧ F s.files

/-- What the file of a name is valid, where there is one. -/
def ValidAt (format : Format Bytes) (name : String) (files : String → Option Bytes) : Prop :=
  ∀ bytes, files name = some bytes → format.Valid bytes

theorem locked_congr (h : s'.lock = s.lock) : Locked client s' ↔ Locked client s :=
  exists_congr fun depth => by rw [h]

theorem fact_idle (client : Client) : Fact format client (Idle client) where
  persists _ _ hclient hruns hapart _ h := mt (hapart.locked hclient hruns).mp h
  elsewhere _ _ _ hlock h := mt (locked_congr hlock).mp h

theorem fact_holding (client : Client) (F : (String → Option Bytes) → Prop) :
    Fact format client (Holding client F) where
  persists _ _ hclient hruns hapart _ h :=
    ⟨(hapart.locked hclient hruns).mpr h.1, (hapart.files hclient hruns h.1).symm ▸ h.2⟩
  elsewhere _ _ hfiles hlock h := ⟨(locked_congr hlock).mpr h.1, hfiles.symm ▸ h.2⟩

/-- What holds for good is no less of a fact with another one. -/
theorem Fact.given (hK : Fact format client K) (P : Prop) :
    Fact format client fun s => P ∧ K s where
  persists s s' hclient hruns hapart hkeep h :=
    ⟨h.1, hK.persists s s' hclient hruns hapart hkeep h.2⟩
  elsewhere s s' hfiles hlock h := ⟨h.1, hK.elsewhere s s' hfiles hlock h.2⟩

/-- A file that has been installed stays valid, or goes. -/
theorem ValidAt.keep {name : String} (hname : Text.endsWith name ".part" = false)
    (hkeep : FilesKeep format s s') (h : ValidAt format name s.files) :
    ValidAt format name s'.files := by
  intro bytes hbytes
  rcases hkeep name hname with hsame | hnone | ⟨other, hother, hvalid⟩
  · exact h bytes (hsame ▸ hbytes)
  · rw [hnone] at hbytes
    contradiction
  · rw [hother] at hbytes
    exact Option.some.inj hbytes ▸ hvalid

/-- An attempt that has let go of the lock still knows what it has installed. -/
def Installed (format : Format Bytes) (client : Client) (names : String → Prop) (s : State Bytes) :
    Prop :=
  Idle client s ∧ ∀ name, names name → ValidAt format name s.files

theorem fact_installed (client : Client) {names : String → Prop}
    (hnames : ∀ name, names name → Text.endsWith name ".part" = false) :
    Fact format client (Installed format client names) where
  persists s s' hclient hruns hapart hkeep h :=
    ⟨(fact_idle client).persists s s' hclient hruns hapart hkeep h.1,
      fun name hname => (h.2 name hname).keep (hnames name hname) hkeep⟩
  elsewhere _ _ hfiles hlock h :=
    ⟨mt (locked_congr hlock).mp h.1, fun name hname => hfiles.symm ▸ h.2 name hname⟩

section Triples

variable {i : Nat} {client : Client} {K : State Bytes → Prop} {β : Type} {stmt : Stmt Bytes β}

/-- A step that asks tells what it finds. -/
theorem triple_asks {R : β → State Bytes → Prop} (hplain : plain stmt = true)
    (hasks : asks stmt = true) (hprocess : processOf stmt = client.process)
    (hK : Fact format client K) (hR : ∀ s choice, client.process ∉ s.stopped → K s →
      CarefulStep stmt (exec format stmt choice s).1 s → R (exec format stmt choice s).1 s) :
    (contract format).Triple i (Using i client K) (Prog.call stmt)
      fun result => Using i client (R result) := by
  apply triple_plain hplain hprocess hK.persists
  intro s choice hkept hruns hknown hcare
  rw [exec_asks hasks]
  exact ⟨hkept, .refl s, .inl rfl, hR s choice hruns hknown hcare⟩

/-- A step that asks, where the answer does not matter. -/
theorem triple_asks_any (hplain : plain stmt = true) (hasks : asks stmt = true)
    (hprocess : processOf stmt = client.process) (hK : Fact format client K) :
    (contract format).Triple i (Using i client K) (Prog.call stmt)
      fun _ => Using i client K :=
  triple_asks hplain hasks hprocess hK fun _ _ _ hknown _ => hknown

/-- A step that leaves the directory, and the name in the row, alone. -/
def Aside (format : Format Bytes) (s s' : State Bytes) : Prop :=
  s'.files = s.files ∧ s'.row.filePath = s.row.filePath ∧
    ∀ process bytes, s'.readers process = some bytes →
      s.readers process = some bytes ∨ format.Valid bytes

theorem Aside.refl (s : State Bytes) : Aside format s s := ⟨rfl, rfl, fun _ _ => .inl⟩

theorem triple_aside {L : State Bytes → Prop} (hplain : plain stmt = true)
    (hprocess : processOf stmt = client.process) (hL : Fact format client L)
    (hK : Fact format client K) (hLK : ∀ s, L s → K s)
    (hstep : ∀ s choice, L s → Aside format s (exec format stmt choice s).2) :
    (contract format).Triple i (Using i client L) (Prog.call stmt) fun _ => Using i client K := by
  apply triple_plain hplain hprocess hL.persists
  intro s choice hkept _ hknown _
  obtain ⟨hfiles, hpath, hreaders⟩ := hstep s choice hknown
  have hlock := (sameSessions_exec format hplain choice s).lock
  refine ⟨⟨?_, ?_, ?_⟩, .of_eq hfiles, .inl hfiles,
    hK.elsewhere s _ hfiles hlock (hLK s hknown)⟩
  · rw [hpath, hfiles]
    exact hkept.installed
  · intro process bytes hbytes
    exact (hreaders process bytes hbytes).elim (hkept.readers process bytes) id
  · rw [hpath]
    exact hkept.named

theorem triple_setEnabled (value : Bool) (hK : Fact format client K) :
    (contract format).Triple i (Using i client K) (Prog.call (.setEnabled client.process value))
      fun _ => Using i client K := by
  apply triple_aside rfl rfl hK hK fun _ => id
  intro s choice _
  change Aside format s (setFlag client.process value s)
  unfold setFlag
  split
  · exact .refl s
  · exact ⟨rfl, rfl, fun _ _ => .inl⟩

theorem triple_setReader {bytes : Bytes} (hK : Fact format client K) :
    (contract format).Triple i (Using i client fun s => format.Valid bytes ∧ K s)
      (Prog.call (.setReader client.process bytes)) fun _ => Using i client K := by
  apply triple_aside rfl rfl (hK.given _) hK fun _ h => h.2
  intro s choice hknown
  apply guarded_cases (p := fun r => Aside format s r.2) (.refl s)
  refine fun _ _ => ⟨rfl, rfl, fun process other hother => ?_⟩
  dsimp only at hother
  by_cases hprocess : process = client.process
  · subst hprocess
    rw [Function.update_self] at hother
    exact .inr (Option.some.inj hother ▸ hknown.1)
  · rw [Function.update_of_ne hprocess] at hother
    exact .inl hother

theorem triple_markChecked (hK : Fact format client K) :
    (contract format).Triple i (Using i client K) (Prog.call (.markChecked client))
      fun _ => Using i client K := by
  apply triple_aside rfl rfl hK hK fun _ => id
  intro s choice _
  exact guarded_cases (p := fun r => Aside format s r.2) (.refl s)
    fun _ _ => ⟨rfl, rfl, fun _ _ => .inl⟩

theorem triple_markError (error : String) (hK : Fact format client K) :
    (contract format).Triple i (Using i client K) (Prog.call (.markError client error))
      fun _ => Using i client K := by
  apply triple_aside rfl rfl hK hK fun _ => id
  intro s choice _
  exact guarded_cases (p := fun r => Aside format s r.2) (.refl s)
    fun _ _ => ⟨rfl, rfl, fun _ _ => .inl⟩

/-- The rule of `?`: an error ends the part, a result is what the rest knows. -/
theorem triple_orFail {ε α : Type} {P : GeoWorld Bytes → Prop} {p : Handler Bytes (Except ε α)}
    {f : α → Handler Bytes (Except ε β)} {Q : Except ε α → GeoWorld Bytes → Prop}
    {R : Except ε β → GeoWorld Bytes → Prop} (hp : (contract format).Triple i P p Q)
    (herror : ∀ e w, Q (.error e) w → R (.error e) w)
    (hf : ∀ a, (contract format).Triple i (Q (.ok a)) (f a) R) :
    (contract format).Triple i P (orFail p f) R := by
  apply Contract.triple_bind _ hp
  intro result
  cases result with
  | error e => exact Contract.triple_pure _ fun w _ h => herror e w h
  | ok a => exact hf a

/-- Knowledge may be given up. -/
theorem Using.mono {L : State Bytes → Prop} {w : GeoWorld Bytes} (h : Using i client L w)
    (hLK : ∀ s, L s → K s) : Using i client K w :=
  ⟨h.mine, h.unanswered, h.state.imp_right fun hknown => ⟨hknown.1, hLK _ hknown.2⟩⟩

/-- What opening a file tells of it. -/
theorem triple_open (name : String) (hK : Fact format client K) :
    (contract format).Triple i (Using i client K)
      (Prog.call (.openReadfile client.process name)) fun result => Using i client fun s =>
        (∀ file, result = .ok file →
          s.files name = some file.1 ∧ format.nodeCount file.1 = .ok file.2) ∧ K s := by
  apply triple_asks rfl rfl rfl hK
  intro s choice _ hknown _
  refine ⟨?_, hknown⟩
  apply guarded_cases (p := fun r : Except GeoIpError (Bytes × Nat) × State Bytes =>
    ∀ file, r.1 = .ok file → s.files name = some file.1 ∧ format.nodeCount file.1 = .ok file.2)
  · intro _ h
    contradiction
  · intro _ _ file hfile
    dsimp only [openFile] at hfile
    split at hfile
    next => contradiction
    next bytes hbytes =>
      split at hfile
      next => contradiction
      next nodes hnodes =>
        obtain rfl := Except.ok.inj hfile
        exact ⟨hbytes, hnodes⟩

/-- Loading a file validates what it reads. -/
theorem triple_load (name : String) (hK : Fact format client K) :
    (contract format).Triple i (Using i client K) (load client.process name)
      fun _ => Using i client K := by
  apply triple_orFail (triple_open name hK)
  · exact fun e w h => h.mono fun _ hknown => hknown.2
  · intro file
    apply Contract.triple_dite
    · exact fun _ => Contract.triple_pure _ fun w _ h => h.mono fun _ hknown => hknown.2
    · intro hnodes
      apply Contract.triple_weaken _ (triple_setReader hK)
      exact fun w _ h => h.mono fun _ hknown =>
        ⟨⟨file.2, (hknown.1 file rfl).2, hnodes⟩, hknown.2⟩

end Triples

end IntelliPilot.Geolocation
