import IntelliPilot.Statement.Interleaving
import IntelliPilot.Text.Strings
import Mathlib.Logic.Function.Basic

/-! # Updates of the geolocation database

The admin's update, the scheduled refresh and the start of the server, on any
number of instances that share one database and one storage directory. A
statement of the database, an operation on a file and a change of what an
instance holds in memory is one step each; any of them may fail, and an
instance may stop before any of them.
-/

namespace IntelliPilot.Geolocation

open Statement

/-! ## Values -/

/-- An instance, from its start to its stop. -/
abbrev Process := Nat

/-- A connection of an instance's pool that one attempt has taken out. -/
structure Client where
  process : Process
  connection : Nat
  lease : Nat
  deriving DecidableEq, Repr

/-- What the server knows of a connection. -/
def Client.session (client : Client) : Process × Nat := (client.process, client.connection)

inductive Variant where
  | country
  | city
  deriving DecidableEq, Repr

/-- `Variant::parse`. -/
def Variant.parse (raw : String) : Variant := if raw = "country" then .country else .city

/-- `Variant::as_str`. -/
def Variant.asStr : Variant → String
  | .country => "country"
  | .city => "city"

inductive GeoIpError where
  | database (text : String)
  | io (text : String)
  | download (text : String)
  | notPublished (month : String)
  | invalid (text : String)
  deriving DecidableEq, Repr

def GeoIpError.message : GeoIpError → String
  | .database text => "database error: " ++ text
  | .io text => "i/o error: " ++ text
  | .download text => "download failed: " ++ text
  | .notPublished month => "no database published for " ++ month
  | .invalid text => "invalid database: " ++ text

/-- A statement of the database that has failed. -/
inductive DbError where
  | failed
  deriving DecidableEq, Repr

/-- What the libraries make of a file: its number of nodes where it opens, its length
and its digest. -/
structure Format (Bytes : Type) where
  nodeCount : Bytes → Except String Nat
  length : Bytes → Int
  sha256 : Bytes → String

/-- The file has passed the validation. -/
def Format.Valid {Bytes : Type} (format : Format Bytes) (bytes : Bytes) : Prop :=
  ∃ nodes, format.nodeCount bytes = .ok nodes ∧ nodes ≠ 0

/-- The row of `geoip_database`. -/
structure GeoipDatabase where
  variant : Option String
  buildMonth : Option String
  filePath : Option String
  fileSize : Option Int
  sha256 : Option String
  source : Option String
  downloadedAt : Option Int
  checkedAt : Option Int
  lastError : Option String
  deriving DecidableEq, Repr

/-- The row that the migration inserts. -/
def GeoipDatabase.empty : GeoipDatabase := ⟨none, none, none, none, none, none, none, none, none⟩

structure Settings where
  geoipEnabled : Bool
  geoipAutoUpdate : Bool
  geoipVariant : String
  deriving DecidableEq, Repr

/-! ## State -/

/-- The shared database and directory, and what the instances hold in memory. The lock is
held by a connection, as often as it has been taken. -/
structure State (Bytes : Type) where
  row : GeoipDatabase
  files : String → Option Bytes
  lock : Option ((Process × Nat) × Nat)
  clients : List Client
  leases : Nat
  readers : Process → Option Bytes
  enabled : Process → Bool
  stopped : List Process

/-- The environment's part in a step: whether it is done, what it finds, and what a write
that fails leaves behind. -/
structure Choice (Bytes : Type) where
  ok : Bool
  settings : Settings
  year : Nat
  month : Nat
  now : Int
  fetched : Except GeoIpError Bytes
  entries : List String
  left : Option Bytes

/-! ## Steps -/

/-- The steps; each one is of one instance. -/
inductive Stmt (Bytes : Type) : Type → Type where
  | checkOut (process : Process) (connection : Nat) : Stmt Bytes (Option Client)
  | giveBack (client : Client) : Stmt Bytes Unit
  | getSettings (client : Client) : Stmt Bytes (Except DbError Settings)
  | get (client : Client) : Stmt Bytes (Except DbError GeoipDatabase)
  | setInstalled (client : Client) (variant buildMonth filePath : String) (fileSize : Int)
      (sha256 source : String) : Stmt Bytes (Except DbError GeoipDatabase)
  | markChecked (client : Client) : Stmt Bytes (Except DbError Unit)
  | markError (client : Client) (error : String) : Stmt Bytes (Except DbError Unit)
  | tryLockDownload (client : Client) : Stmt Bytes (Except DbError Bool)
  | unlockDownload (client : Client) : Stmt Bytes (Except DbError Unit)
  | nowUtc (process : Process) : Stmt Bytes (Nat × Nat)
  | fetch (process : Process) (variant : Variant) (month : String) :
      Stmt Bytes (Except GeoIpError Bytes)
  | createDirAll (process : Process) : Stmt Bytes (Except GeoIpError Unit)
  | write (process : Process) (name : String) (bytes : Bytes) : Stmt Bytes (Except GeoIpError Unit)
  | openReadfile (process : Process) (name : String) : Stmt Bytes (Except GeoIpError (Bytes × Nat))
  | rename (process : Process) (source target : String) : Stmt Bytes (Except GeoIpError Unit)
  | removeFile (process : Process) (name : String) : Stmt Bytes (Except GeoIpError Unit)
  | readDir (process : Process) : Stmt Bytes (Except GeoIpError (List String))
  | setReader (process : Process) (bytes : Bytes) : Stmt Bytes (Except GeoIpError Unit)
  | setEnabled (process : Process) (value : Bool) : Stmt Bytes Unit
  | stop (process : Process) : Stmt Bytes Unit

variable {Bytes : Type}

/-- The step is done where its instance runs and nothing fails. -/
def guarded {α : Type} (process : Process) (choice : Choice Bytes) (s : State Bytes) (failed : α)
    (done : α × State Bytes) : α × State Bytes :=
  if process ∈ s.stopped ∨ choice.ok = false then (failed, s) else done

/-- `pool.get`: a connection that no attempt has taken out. -/
def checkOut (process : Process) (connection : Nat) (s : State Bytes) :
    Option Client × State Bytes :=
  if (process, connection) ∈ s.clients.map Client.session then (none, s)
  else (some ⟨process, connection, s.leases⟩,
    { s with clients := ⟨process, connection, s.leases⟩ :: s.clients, leases := s.leases + 1 })

/-- `pg_try_advisory_lock`: a session may take the lock that it holds once more. -/
def tryLock (session : Process × Nat) (s : State Bytes) : Bool × State Bytes :=
  match s.lock with
  | none => (true, { s with lock := some (session, 1) })
  | some (holder, depth) =>
    if holder = session then (true, { s with lock := some (session, depth + 1) }) else (false, s)

/-- `pg_advisory_unlock`, which leaves a lock that another session holds alone. -/
def unlock (session : Process × Nat) (s : State Bytes) : State Bytes :=
  match s.lock with
  | none => s
  | some (holder, depth) =>
    if holder = session then { s with lock := if depth ≤ 1 then none else some (holder, depth - 1) }
    else s

/-- The instance is gone, with its memory and its connections. -/
def stop (process : Process) (s : State Bytes) : State Bytes :=
  { s with
    stopped := process :: s.stopped
    clients := s.clients.filter (·.process != process)
    lock := s.lock.filter (·.1.1 != process)
    readers := Function.update s.readers process none
    enabled := Function.update s.enabled process false }

/-- What opening a file comes to. -/
def openFile (format : Format Bytes) (name : String) (s : State Bytes) :
    Except GeoIpError (Bytes × Nat) :=
  match s.files name with
  | none => .error (.io "not found")
  | some bytes =>
    match format.nodeCount bytes with
    | .error text => .error (.database text)
    | .ok nodes => .ok (bytes, nodes)

/-- `fs::write`, which may leave a part of the file, or none, where it fails. -/
def writeFile (process : Process) (name : String) (bytes : Bytes) (choice : Choice Bytes)
    (s : State Bytes) : Except GeoIpError Unit × State Bytes :=
  if process ∈ s.stopped then (.error (.io "stopped"), s)
  else if choice.ok then (.ok (), { s with files := Function.update s.files name (some bytes) })
  else (.error (.io "write"), { s with files := Function.update s.files name choice.left })

/-- `fs::rename`, which replaces a file of the target's name. -/
def renameFile (source target : String) (s : State Bytes) : Except GeoIpError Unit × State Bytes :=
  match s.files source with
  | none => (.error (.io "not found"), s)
  | some bytes => (.ok (), { s with
      files := Function.update (Function.update s.files source none) target (some bytes) })

/-- `GeoIp::set_enabled`. -/
def setFlag (process : Process) (value : Bool) (s : State Bytes) : State Bytes :=
  if process ∈ s.stopped then s else { s with enabled := Function.update s.enabled process value }

/-- The effect of a step. -/
def exec (format : Format Bytes) {β : Type} (stmt : Stmt Bytes β) (choice : Choice Bytes)
    (s : State Bytes) : β × State Bytes :=
  match stmt with
  | .checkOut process connection =>
      guarded process choice s none (checkOut process connection s)
  | .giveBack client => ((), { s with clients := s.clients.filter (· != client) })
  | .getSettings client => guarded client.process choice s (.error .failed) (.ok choice.settings, s)
  | .get client => guarded client.process choice s (.error .failed) (.ok s.row, s)
  | .setInstalled client variant buildMonth filePath fileSize sha256 source =>
      let row : GeoipDatabase := ⟨some variant, some buildMonth, some filePath, some fileSize,
        some sha256, some source, some choice.now, some choice.now, none⟩
      guarded client.process choice s (.error .failed) (.ok row, { s with row := row })
  | .markChecked client =>
      guarded client.process choice s (.error .failed)
        (.ok (), { s with row := { s.row with checkedAt := some choice.now, lastError := none } })
  | .markError client error =>
      guarded client.process choice s (.error .failed)
        (.ok (), { s with
          row := { s.row with checkedAt := some choice.now, lastError := some error } })
  | .tryLockDownload client =>
      guarded client.process choice s (.error .failed)
        (.ok (tryLock client.session s).1, (tryLock client.session s).2)
  | .unlockDownload client =>
      guarded client.process choice s (.error .failed) (.ok (), unlock client.session s)
  | .nowUtc _ => ((choice.year, choice.month), s)
  | .fetch process _ _ =>
      guarded process choice s (.error (.download "connection closed")) (choice.fetched, s)
  | .createDirAll process => guarded process choice s (.error (.io "mkdir")) (.ok (), s)
  | .write process name bytes => writeFile process name bytes choice s
  | .openReadfile process name =>
      guarded process choice s (.error (.io "open")) (openFile format name s, s)
  | .rename process source target =>
      guarded process choice s (.error (.io "rename")) (renameFile source target s)
  | .removeFile process name =>
      guarded process choice s (.error (.io "unlink"))
        (.ok (), { s with files := Function.update s.files name none })
  | .readDir process =>
      guarded process choice s (.error (.io "readdir"))
        (.ok (choice.entries.filter fun name => (s.files name).isSome), s)
  | .setReader process bytes =>
      guarded process choice s (.error (.invalid "geoip lock poisoned"))
        (.ok (), { s with readers := Function.update s.readers process (some bytes) })
  | .setEnabled process value => ((), setFlag process value s)
  | .stop process => ((), stop process s)

/-! ## Programs -/

abbrev Handler (Bytes α : Type) := Prog (Stmt Bytes) α

/-- The operator `?`. -/
def orFail {ε α β : Type} (p : Handler Bytes (Except ε α))
    (f : α → Handler Bytes (Except ε β)) : Handler Bytes (Except ε β) := do
  match ← p with
  | .error e => pure (.error e)
  | .ok a => f a

/-- Digits, with zeros in front of them. -/
def padded (width n : Nat) : String :=
  let digits := (toString n).toList
  String.ofList (List.replicate (width - digits.length) '0' ++ digits)

/-- `month_label`. -/
def monthLabel (year month : Nat) : String := padded 4 year ++ "-" ++ padded 2 month

/-- `previous_month_label`. -/
def previousMonthLabel (year month : Nat) : String :=
  if month = 1 then monthLabel (year - 1) 12 else monthLabel year (month - 1)

/-- The name of an installed file. -/
def fileName (variant : Variant) (month : String) : String :=
  "dbip-" ++ variant.asStr ++ "-" ++ month ++ ".mmdb"

inductive UpdateOutcome where
  | installed (variant : Variant) (buildMonth : String) (fileSize : Int) (sha256 : String)
  | alreadyCurrent
  deriving DecidableEq, Repr

/-- `GeoIp::load`. -/
def load (process : Process) (name : String) : Handler Bytes (Except GeoIpError Unit) :=
  orFail (.call (.openReadfile process name)) fun file =>
    if file.2 = 0 then pure (.error (.invalid "database contains no records"))
    else .call (.setReader process file.1)

/-- The loop of `remove_stale_files`. -/
def removeAll (process : Process) (keep : String) : List String → Handler Bytes Unit
  | [] => pure ()
  | name :: rest => do
    if name ≠ keep ∧
        (Text.endsWith name ".mmdb" = true ∨ Text.endsWith name ".mmdb.part" = true) then
      let _ ← Prog.call (.removeFile process name)
      removeAll process keep rest
    else removeAll process keep rest

/-- `remove_stale_files`. -/
def removeStaleFiles (process : Process) (keep : String) : Handler Bytes Unit := do
  match ← Prog.call (.readDir process) with
  | .error _ => pure ()
  | .ok names => removeAll process keep names

/-- The validation of `install_bytes`, which removes a file that does not pass it. -/
def validate (process : Process) (name : String) : Handler Bytes (Except GeoIpError Unit) := do
  match ← Prog.call (.openReadfile process name) with
  | .ok (_, nodes) =>
    if nodes = 0 then
      let _ ← Prog.call (.removeFile process name)
      pure (.error (.invalid "database contains no records"))
    else pure (.ok ())
  | .error e =>
    let _ ← Prog.call (.removeFile process name)
    pure (.error e)

variable (format : Format Bytes)

/-- `install_bytes`. -/
def installBytes (process : Process) (variant : Variant) (month : String) (bytes : Bytes) :
    Handler Bytes (Except GeoIpError UpdateOutcome) :=
  let finalName := fileName variant month
  let tempName := finalName ++ ".part"
  orFail (.call (.createDirAll process)) fun _ =>
  orFail (.call (.write process tempName bytes)) fun _ =>
  orFail (validate process tempName) fun _ =>
  orFail (.call (.rename process tempName finalName)) fun _ =>
  orFail (load process finalName) fun _ => do
    removeStaleFiles process finalName
    pure (.ok (.installed variant month (format.length bytes) (format.sha256 bytes)))

/-- The loop of `update` over the months that are tried. -/
def updateFrom (process : Process) (variant : Variant) (installedMonth : Option String)
    (force : Bool) (lastErr : GeoIpError) :
    List String → Handler Bytes (Except GeoIpError UpdateOutcome)
  | [] => pure (.error lastErr)
  | month :: rest =>
    if force = false ∧ installedMonth = some month then pure (.ok .alreadyCurrent)
    else do
      match ← Prog.call (.fetch process variant month) with
      | .ok bytes => installBytes format process variant month bytes
      | .error (.notPublished m) =>
        updateFrom process variant installedMonth force (.notPublished m) rest
      | .error e => pure (.error e)

/-- `Updater::update`. -/
def update (process : Process) (variant : Variant) (installedMonth : Option String) (force : Bool)
    (now : Nat × Nat) : Handler Bytes (Except GeoIpError UpdateOutcome) :=
  let current := monthLabel now.1 now.2
  let previous := previousMonthLabel now.1 now.2
  if force = false ∧ installedMonth = some current then pure (.ok .alreadyCurrent)
  else updateFrom format process variant installedMonth force (.notPublished current)
    [current, previous]

/-- The month of the row, where its variant is the one that is asked for. -/
def installedMonth (row : GeoipDatabase) (variant : Variant) : Option String :=
  if row.variant = some variant.asStr then row.buildMonth else none

/-- The answers of the attempts. -/
inductive Answer where
  | internal
  | conflict
  | badGateway (message : String)
  | updated (installed : Bool) (row : GeoipDatabase)
  | refreshed
  | failed
  | started
  deriving DecidableEq, Repr

/-- `record_installed_database`. -/
def recordInstalledDatabase (client : Client) (variant : Variant) (buildMonth : String)
    (fileSize : Int) (sha256 : String) : Handler Bytes Answer := do
  match ← Prog.call (.setInstalled client variant.asStr buildMonth (fileName variant buildMonth)
    fileSize sha256 "download") with
  | .error _ => pure .internal
  | .ok _ =>
    match ← Prog.call (.get client) with
    | .error _ => pure .internal
    | .ok fresh => pure (.updated true fresh)

/-- The part of `update_geoip_database` that runs under the lock, and what follows. -/
def updateLocked (client : Client) (settings : Settings) (row : GeoipDatabase) :
    Handler Bytes Answer := do
  let variant := Variant.parse settings.geoipVariant
  let now ← Prog.call (.nowUtc client.process)
  let result ← update format client.process variant (installedMonth row variant) true now
  let _ ← Prog.call (.unlockDownload client)
  match result with
  | .ok (.installed variant buildMonth fileSize sha256) =>
    recordInstalledDatabase client variant buildMonth fileSize sha256
  | .ok .alreadyCurrent =>
    let _ ← Prog.call (.markChecked client)
    match ← Prog.call (.get client) with
    | .error _ => pure .internal
    | .ok fresh => pure (.updated false fresh)
  | .error e =>
    let _ ← Prog.call (.markError client (String.ofList (e.message.toList.take 500)))
    pure (.badGateway e.message)

/-- `update_geoip_database`, on its connection. -/
def updateGeoipDatabase (client : Client) : Handler Bytes Answer := do
  let settings ← Prog.call (.getSettings client)
  let row ← Prog.call (.get client)
  match settings, row with
  | .ok settings, .ok row =>
    match ← Prog.call (.tryLockDownload client) with
    | .ok true => updateLocked format client settings row
    | .ok false => pure .conflict
    | .error _ => pure .internal
  | _, _ => pure .internal

/-- The part of `geoip_refresh_once` that runs under the lock, and what follows. -/
def refreshLocked (client : Client) (settings : Settings) : Handler Bytes Answer := do
  match ← Prog.call (.get client) with
  | .error _ => pure .failed
  | .ok row =>
    let variant := Variant.parse settings.geoipVariant
    let now ← Prog.call (.nowUtc client.process)
    let result ← update format client.process variant (installedMonth row variant) false now
    let _ ← Prog.call (.unlockDownload client)
    match result with
    | .ok (.installed variant buildMonth fileSize sha256) =>
      match ← Prog.call (.setInstalled client variant.asStr buildMonth
        (fileName variant buildMonth) fileSize sha256 "download") with
      | .error _ => pure .failed
      | .ok _ => pure .refreshed
    | .ok .alreadyCurrent =>
      match ← Prog.call (.markChecked client) with
      | .error _ => pure .failed
      | .ok _ => pure .refreshed
    | .error e =>
      let _ ← Prog.call (.markError client (String.ofList (e.message.toList.take 500)))
      pure .failed

/-- `geoip_refresh_once`, on its connection. -/
def geoipRefreshOnce (client : Client) : Handler Bytes Answer := do
  match ← Prog.call (.getSettings client) with
  | .error _ => pure .failed
  | .ok settings =>
    let _ ← Prog.call (.setEnabled client.process settings.geoipEnabled)
    if settings.geoipEnabled = false ∨ settings.geoipAutoUpdate = false then pure .refreshed
    else
      match ← Prog.call (.tryLockDownload client) with
      | .error _ => pure .failed
      | .ok false => pure .refreshed
      | .ok true => refreshLocked format client settings

/-- `init_geoip`, on its connection. -/
def initGeoip (client : Client) : Handler Bytes Answer := do
  match ← Prog.call (.getSettings client) with
  | .error _ => pure .started
  | .ok settings =>
    let _ ← Prog.call (.setEnabled client.process settings.geoipEnabled)
    match ← Prog.call (.get client) with
    | .error _ => pure .started
    | .ok row =>
      match row.filePath with
      | none => pure .started
      | some name =>
        let _ ← load client.process name
        pure .started

/-- A handler with a connection of its instance, which goes back when it returns. -/
def withClient (process : Process) (connection : Nat) (unavailable : Answer)
    (body : Client → Handler Bytes Answer) : Handler Bytes Answer := do
  match ← Prog.call (.checkOut process connection) with
  | none => pure unavailable
  | some client =>
    let answer ← body client
    Prog.call (.giveBack client)
    pure answer

inductive Request where
  | update (process : Process) (connection : Nat)
  | refresh (process : Process) (connection : Nat)
  | init (process : Process) (connection : Nat)
  | stop (process : Process)
  deriving DecidableEq, Repr

def handler : Request → Handler Bytes Answer
  | .update process connection =>
      withClient process connection .internal (updateGeoipDatabase format)
  | .refresh process connection => withClient process connection .failed (geoipRefreshOnce format)
  | .init process connection => withClient process connection .started initGeoip
  | .stop process => do
      Prog.call (.stop process)
      pure .started

def service : Service (Stmt Bytes) (State Bytes) (Choice Bytes) Request Answer where
  exec := exec format
  handler := handler format

/-- A database without a build, whatever is in the directory, and no attempt under way. -/
def State.fresh (files : String → Option Bytes) : State Bytes where
  row := .empty
  files := files
  lock := none
  clients := []
  leases := 0
  readers := fun _ => none
  enabled := fun _ => false
  stopped := []

end IntelliPilot.Geolocation
