import IntelliPilot.Boards.Keys
import IntelliPilot.Http.Problem
import IntelliPilot.Projects.Context
import IntelliPilot.Relational.Table
import IntelliPilot.Statement.Handlers

/-! # Boards

The boards of all projects, the keys they were renamed away from, and the
requests on them. A handler runs without another request in between; the
database may still fail on any of its statements.
-/

namespace IntelliPilot.Boards

open Statement
open Auth (trim lengthBetween)
open Http (Problem internal notFound forbidden)
open Projects (Permission ProjectContext)

/-! ## Tables -/

inductive BoardVisibility where
  | personal
  | shared
  deriving DecidableEq, Repr

structure Board where
  id : Uuid
  projectId : Uuid
  ownerId : Option Uuid
  visibility : BoardVisibility
  name : String
  key : String
  color : String
  config : String
  deriving DecidableEq, Repr

/-- What an insert gives; the identifier comes from the table. -/
structure NewBoard where
  projectId : Uuid
  ownerId : Option Uuid
  visibility : BoardVisibility
  name : String
  key : String
  color : String
  config : String
  deriving DecidableEq, Repr

def NewBoard.row (new : NewBoard) (id : Uuid) : Board :=
  ⟨id, new.projectId, new.ownerId, new.visibility, new.name, new.key, new.color, new.config⟩

/-- What an update writes. -/
structure Edit where
  name : String
  key : String
  color : String
  config : String
  deriving DecidableEq, Repr

def Edit.row (edit : Edit) (row : Board) : Board :=
  { row with name := edit.name, key := edit.key, color := edit.color, config := edit.config }

/-- The table `boards` with its constraints: identifiers are never given twice, no two boards of a
project have one key, and every key has the format. -/
structure BoardTable where
  table : Table Board.id
  next : Uuid
  below : ∀ row ∈ table.rows, row.id < next
  distinct : ∀ row ∈ table.rows, ∀ other ∈ table.rows,
    row.projectId = other.projectId → row.key = other.key → row.id = other.id
  formatted : ∀ row ∈ table.rows, keyFormat row.key = true

namespace BoardTable

/-- Whether a board of the project other than `id` has the key. -/
def takenBeside (boards : BoardTable) (projectId : Uuid) (key : String) (id : Option Uuid) : Bool :=
  boards.table.rows.any fun row => row.projectId == projectId && row.key == key && id != some row.id

theorem takenBeside_eq_false {boards : BoardTable} {projectId : Uuid} {key : String}
    {id : Option Uuid} (h : boards.takenBeside projectId key id = false) {row : Board}
    (hrow : row ∈ boards.table.rows) (hproject : row.projectId = projectId) (hkey : row.key = key) : id = some row.id := by
  rw [takenBeside, List.any_eq_false] at h
  simpa [hproject, hkey] using h row hrow

def empty : BoardTable :=
  ⟨.empty, 0, by simp [Table.empty], by simp [Table.empty], by simp [Table.empty]⟩

theorem find?_next (boards : BoardTable) : boards.table.find? boards.next = none := by
  rw [Table.find?_eq_none_iff, List.mem_map]
  rintro ⟨row, hrow, hid⟩
  exact absurd (boards.below row hrow) (by rw [hid]; exact Nat.lt_irrefl _)

/-- `INSERT INTO boards`; the constraints may refuse it. -/
def insert? (boards : BoardTable) (new : NewBoard) : Option BoardTable :=
  if h : boards.takenBeside new.projectId new.key none = false ∧ keyFormat new.key = true then
    some {
      table := boards.table.insert (new.row boards.next) boards.find?_next
      next := boards.next + 1
      below := by
        intro row hrow
        rcases List.mem_append.mp hrow with hrow | hrow
        · exact Nat.lt_succ_of_lt (boards.below row hrow)
        · rw [List.mem_singleton.mp hrow]
          exact Nat.lt_succ_self _
      distinct := by
        intro row hrow other hother hproject hkey
        rcases List.mem_append.mp hrow with hrow | hrow
        · rcases List.mem_append.mp hother with hother | hother
          · exact boards.distinct row hrow other hother hproject hkey
          · rw [List.mem_singleton.mp hother] at hproject hkey
            cases takenBeside_eq_false h.1 hrow hproject hkey
        · rw [List.mem_singleton.mp hrow] at hproject hkey ⊢
          rcases List.mem_append.mp hother with hother | hother
          · cases takenBeside_eq_false h.1 hother hproject.symm hkey.symm
          · rw [List.mem_singleton.mp hother]
      formatted := by
        intro row hrow
        rcases List.mem_append.mp hrow with hrow | hrow
        · exact boards.formatted row hrow
        · rw [List.mem_singleton.mp hrow]
          exact h.2 }
  else none

/-- `UPDATE boards SET … WHERE id = $1 AND project_id = $2`; the constraints may refuse it. -/
def set? (boards : BoardTable) (projectId id : Uuid) (edit : Edit) : Option BoardTable :=
  if h : boards.takenBeside projectId edit.key (some id) = false ∧ keyFormat edit.key = true then
    some {
      table := boards.table.modify (fun row => row.id == id && row.projectId == projectId)
        edit.row fun _ => rfl
      next := boards.next
      below := by
        intro row hrow
        obtain ⟨old, hold, rfl⟩ := Rows.mem_updateWhere.mp hrow
        split
        · exact boards.below old hold
        · exact boards.below old hold
      distinct := by
        intro row hrow other hother
        obtain ⟨old, hold, rfl⟩ := Rows.mem_updateWhere.mp hrow
        obtain ⟨old', hold', rfl⟩ := Rows.mem_updateWhere.mp hother
        by_cases hp : (old.id == id && old.projectId == projectId) = true
        · rw [if_pos hp]
          rw [Bool.and_eq_true, beq_iff_eq, beq_iff_eq] at hp
          by_cases hp' : (old'.id == id && old'.projectId == projectId) = true
          · rw [if_pos hp']
            rw [Bool.and_eq_true, beq_iff_eq, beq_iff_eq] at hp'
            exact fun _ _ => hp.1.trans hp'.1.symm
          · rw [if_neg hp']
            intro hproject hkey
            have hid := takenBeside_eq_false h.1 hold' (hproject.symm.trans hp.2) hkey.symm
            exact hp.1.trans (Option.some.inj hid)
        · rw [if_neg hp]
          by_cases hp' : (old'.id == id && old'.projectId == projectId) = true
          · rw [if_pos hp']
            rw [Bool.and_eq_true, beq_iff_eq, beq_iff_eq] at hp'
            intro hproject hkey
            have hid := takenBeside_eq_false h.1 hold (hproject.trans hp'.2) hkey
            exact (Option.some.inj hid).symm.trans hp'.1.symm
          · rw [if_neg hp']
            exact boards.distinct old hold old' hold'
      formatted := by
        intro row hrow
        obtain ⟨old, hold, rfl⟩ := Rows.mem_updateWhere.mp hrow
        split
        · exact h.2
        · exact boards.formatted old hold }
  else none

/-- `DELETE FROM boards WHERE p`. -/
def erase (boards : BoardTable) (p : Board → Bool) : BoardTable where
  table := boards.table.erase p
  next := boards.next
  below := fun row hrow => boards.below row (Rows.mem_deleteWhere.mp hrow).1
  distinct := fun row hrow other hother =>
    boards.distinct row (Rows.mem_deleteWhere.mp hrow).1 other (Rows.mem_deleteWhere.mp hother).1
  formatted := fun row hrow => boards.formatted row (Rows.mem_deleteWhere.mp hrow).1

end BoardTable

/-- A key that a board was renamed away from. -/
structure HistoryEntry where
  id : Uuid
  projectId : Uuid
  boardId : Uuid
  key : String
  deriving DecidableEq, Repr

/-- `board_key_history_unique`. -/
def HistoryEntry.place (entry : HistoryEntry) : Uuid × String := (entry.projectId, entry.key)

structure LastOpened where
  projectId : Uuid
  userId : Uuid
  boardId : Option Uuid
  deriving DecidableEq, Repr

def LastOpened.place (pointer : LastOpened) : Uuid × Uuid := (pointer.projectId, pointer.userId)

structure Tables where
  boards : BoardTable
  history : Table HistoryEntry.place
  lastOpened : Table LastOpened.place
  nextEntry : Uuid

namespace Tables

def empty : Tables := ⟨.empty, .empty, .empty, 0⟩

/-- `boards::get`. -/
def get (s : Tables) (projectId id : Uuid) : Option Board :=
  (s.boards.table.find? id).filter fun row => row.projectId == projectId

/-- `boards::get_by_key`. -/
def getByKey (s : Tables) (projectId : Uuid) (key : String) : Option Board :=
  s.boards.table.rows.find? fun row => row.projectId == projectId && row.key == key

/-- `boards::record_key_history`. -/
def record (s : Tables) (projectId boardId : Uuid) (oldKey : String) : Tables :=
  { s with
    history := s.history.upsert ⟨s.nextEntry, projectId, boardId, oldKey⟩
      (fun entry => { entry with boardId := boardId }) fun _ => rfl
    nextEntry := s.nextEntry + 1 }

/-- `boards::delete`, with what refers to the board. -/
def erase (s : Tables) (projectId id : Uuid) : Tables :=
  { s with
    boards := s.boards.erase fun row => row.id == id && row.projectId == projectId
    history := s.history.erase fun entry => entry.boardId == id
    lastOpened := s.lastOpened.modify (fun pointer => pointer.boardId == some id)
      (fun pointer => { pointer with boardId := none }) fun _ => rfl }

end Tables

/-! ## Statements -/

inductive DbError where
  | failure
  deriving DecidableEq, Repr

inductive Stmt : Type → Type where
  | keyTaken (projectId : Uuid) (key : String) : Stmt (Except DbError Bool)
  | list (projectId userId : Uuid) : Stmt (Except DbError (List Board))
  | get (projectId id : Uuid) : Stmt (Except DbError (Option Board))
  | getByKey (projectId : Uuid) (key : String) : Stmt (Except DbError (Option Board))
  | findIdByHistoricKey (projectId : Uuid) (key : String) : Stmt (Except DbError (Option Uuid))
  | create (new : NewBoard) : Stmt (Except DbError Board)
  | update (projectId id : Uuid) (edit : Edit) : Stmt (Except DbError (Option Board))
  | recordKeyHistory (projectId boardId : Uuid) (oldKey : String) : Stmt (Except DbError Unit)
  | deleteKeyHistory (ids : List Uuid) : Stmt (Except DbError Nat)
  | delete (projectId id : Uuid) : Stmt (Except DbError Bool)
  | getLastOpened (projectId userId : Uuid) : Stmt (Except DbError (Option Uuid))
  | setLastOpened (projectId userId boardId : Uuid) : Stmt (Except DbError Unit)

/-- The statements of one request that the database fails on. -/
structure Faults where
  keyTaken : String → Bool := fun _ => false
  list : Bool := false
  get : Bool := false
  getByKey : Bool := false
  findIdByHistoricKey : Bool := false
  create : Bool := false
  update : Bool := false
  recordKeyHistory : Bool := false
  deleteKeyHistory : Bool := false
  delete : Bool := false
  getLastOpened : Bool := false
  setLastOpened : Bool := false

/-- A statement that fails leaves everything as it was. -/
def attempt {α : Type} (fails : Bool) (s : Tables) (result : α × Tables) :
    Except DbError α × Tables :=
  if fails then (.error .failure, s) else (.ok result.1, result.2)

def exec : {β : Type} → Stmt β → Faults → Tables → β × Tables
  | _, .keyTaken projectId key, faults, s =>
      attempt (faults.keyTaken key) s (s.boards.takenBeside projectId key none, s)
  | _, .list projectId userId, faults, s =>
      attempt faults.list s (s.boards.table.rows.filter fun row => row.projectId == projectId &&
        (row.visibility == .shared || row.ownerId == some userId), s)
  | _, .get projectId id, faults, s => attempt faults.get s (s.get projectId id, s)
  | _, .getByKey projectId key, faults, s => attempt faults.getByKey s (s.getByKey projectId key, s)
  | _, .findIdByHistoricKey projectId key, faults, s =>
      attempt faults.findIdByHistoricKey s
        ((s.history.find? (projectId, key)).map (·.boardId), s)
  | _, .create new, faults, s =>
      match s.boards.insert? new with
      | none => (.error .failure, s)
      | some boards => attempt faults.create s (new.row s.boards.next, { s with boards })
  | _, .update projectId id edit, faults, s =>
      match s.get projectId id with
      | none => attempt faults.update s (none, s)
      | some board =>
          match s.boards.set? projectId id edit with
          | none => (.error .failure, s)
          | some boards => attempt faults.update s (some (edit.row board), { s with boards })
  | _, .recordKeyHistory projectId boardId oldKey, faults, s =>
      attempt faults.recordKeyHistory s ((), s.record projectId boardId oldKey)
  | _, .deleteKeyHistory ids, faults, s =>
      let pruned (entry : HistoryEntry) := ids.contains entry.id
      attempt faults.deleteKeyHistory s
        ((s.history.rows.filter pruned).length, { s with history := s.history.erase pruned })
  | _, .delete projectId id, faults, s =>
      attempt faults.delete s ((s.get projectId id).isSome,
        if (s.get projectId id).isSome then s.erase projectId id else s)
  | _, .getLastOpened projectId userId, faults, s =>
      attempt faults.getLastOpened s
        ((s.lastOpened.find? (projectId, userId)).bind (·.boardId), s)
  | _, .setLastOpened projectId userId boardId, faults, s =>
      if (s.boards.table.find? boardId).isNone then (.error .failure, s)
      else attempt faults.setLastOpened s ((), { s with
        lastOpened := s.lastOpened.upsert ⟨projectId, userId, some boardId⟩
          (fun pointer => { pointer with boardId := some boardId }) fun _ => rfl })

/-! ## Handlers -/

abbrev Handler := ExceptT Problem (Prog Stmt)

inductive Response where
  | listed (boards : List Board)
  | created (board : Board)
  | shown (board : Board)
  | updated (board : Board)
  | lastOpened (boardId : Option Uuid)
  | pruned (count : Nat)
  | noContent
  deriving DecidableEq, Repr

structure CreateBoardRequest where
  name : String
  color : String
  shared : Bool
  config : String
  deriving DecidableEq, Repr

structure UpdateBoardRequest where
  name : String
  key : Option String
  color : String
  config : String
  deriving DecidableEq, Repr

def CreateBoardRequest.validate (req : CreateBoardRequest) : Bool :=
  lengthBetween 1 120 req.name && lengthBetween 0 16 req.color

def UpdateBoardRequest.validate (req : UpdateBoardRequest) : Bool :=
  lengthBetween 1 120 req.name && req.key.all (lengthBetween 1 12) && lengthBetween 0 16 req.color

/-- `parse_create` and `parse_update`; a body that is no JSON of the type is `none`. -/
def parse {α : Type} (validate : α → Bool) : Option α → Except Problem α
  | none => .error ⟨400, "invalid_body", "Invalid Request Body", none⟩
  | some req =>
      if validate req then .ok req
      else .error ⟨422, "validation_failed", "Validation failed", none⟩

def require (ctx : ProjectContext) (permission : Permission) : Handler Unit :=
  refuseUnless (ctx.has permission) forbidden

def found {α : Type} (value : Option α) : Handler α := given (value.elim (.error notFound) .ok)

def list (ctx : ProjectContext) : Handler Response := do
  require ctx .projectView
  return .listed (← orRefuse (.list ctx.projectId ctx.actorId) internal)

/-- The loop of `generate_key` from the `n`-th candidate on; `none` where it still runs after so
many turns. -/
def candidates (projectId : Uuid) (base : List Char) : Nat → Nat → Handler (Option String)
  | 0, _ => pure none
  | turns + 1, n => do
      let taken ← orRefuse (.keyTaken projectId (candidate base n)) internal
      if taken then candidates projectId base turns (min (n + 1) maxCandidate)
      else pure (some (candidate base n))

def generateKey (turns : Nat) (projectId : Uuid) (name : String) : Handler (Option String) :=
  candidates projectId (keyBase name) turns 1

def create (turns : Nat) (ctx : ProjectContext) (body : Option CreateBoardRequest) :
    Handler (Option Response) := do
  require ctx .projectView
  let req ← given (parse CreateBoardRequest.validate body)
  refuseUnless (!req.shared || ctx.has .boardSharedCreate) forbidden
  match ← generateKey turns ctx.projectId req.name with
  | none => pure none
  | some key =>
      let visibility := if req.shared then BoardVisibility.shared else .personal
      let board ← orRefuse (.create
        ⟨ctx.projectId, some ctx.actorId, visibility, req.name, key, req.color, req.config⟩)
        internal
      return some (.created board)

/-- Whether a board is shown to the actor. -/
def Board.visibleTo (board : Board) (actorId : Uuid) : Bool :=
  board.visibility == .shared || board.ownerId == some actorId

/-- The rest of `load_for_write`, once the board is read. -/
def mayWrite (ctx : ProjectContext) (sharedPerm : Permission) (board : Board) :
    Except Problem Board :=
  if board.visibility == .shared then
    if ctx.has sharedPerm then .ok board else .error forbidden
  else if board.ownerId == some ctx.actorId then .ok board
  else .error notFound

def loadForWrite (ctx : ProjectContext) (id : Uuid) (sharedPerm : Permission) : Handler Board := do
  let board ← orRefuse (.get ctx.projectId id) internal
  given (board.elim (.error notFound) (mayWrite ctx sharedPerm))

/-- The board a key stands for: live keys shadow the history. -/
def findByKey (projectId : Uuid) (key : String) : Handler (Option Board) := do
  match ← orRefuse (.getByKey projectId key) internal with
  | some board => return some board
  | none =>
      match ← orRefuse (.findIdByHistoricKey projectId key) internal with
      | some id => orRefuse (.get projectId id) internal
      | none => return none

/-- The board of a path segment: an identifier, or a key in any case of letters. -/
def findBoard (projectId : Uuid) (segment : String) : Handler (Option Board) :=
  match parseUuid segment with
  | some id => orRefuse (.get projectId id) internal
  | none => findByKey projectId (segmentKey segment)

/-- A board that is not shown to the actor is not there. -/
def shownTo (actorId : Uuid) : Option Board → Except Problem Response
  | some board => if board.visibleTo actorId then .ok (.shown board) else .error notFound
  | none => .error notFound

def get (ctx : ProjectContext) (segment : String) : Handler Response := do
  require ctx .projectView
  let board ← findBoard ctx.projectId segment
  given (shownTo ctx.actorId board)

/-- The key a board gets, where the request asks for one. -/
def newKey (req : UpdateBoardRequest) (board : Board) : Except Problem String :=
  match req.key with
  | none => .ok board.key
  | some raw =>
      let k := toAsciiLowercase (trim raw)
      if validKey k then .ok k else .error ⟨422, "invalid_key", "Invalid board key", none⟩

def keyTaken : Problem := ⟨409, "key_taken", "Board key already in use", none⟩

/-- The check of a key, where it changes. -/
def refuseTaken (projectId id : Uuid) (board : Board) (key : String) : Handler Unit :=
  if key = board.key then pure () else do
    let other ← orRefuse (.getByKey projectId key) internal
    refuseUnless (other.all fun other => other.id == id) keyTaken

/-- The old key goes into the history, where it changes. That is best-effort: the rename has already
stuck. -/
def recordOldKey (projectId id : Uuid) (board : Board) (key : String) : Handler Unit :=
  if key = board.key then pure () else do
    let _ ← attempted (.recordKeyHistory projectId id board.key)
    return ()

/-- The writes of an update. -/
def write (projectId id : Uuid) (board : Board) (edit : Edit) : Handler Response := do
  let row ← orRefuse (.update projectId id edit) internal
  let updated ← found row
  recordOldKey projectId id board edit.key
  return .updated updated

def update (ctx : ProjectContext) (segment : String) (body : Option UpdateBoardRequest) :
    Handler Response := do
  require ctx .projectView
  let id ← found (parseUuid segment)
  let req ← given (parse UpdateBoardRequest.validate body)
  let board ← loadForWrite ctx id .boardSharedModify
  let key ← given (newKey req board)
  refuseTaken ctx.projectId id board key
  write ctx.projectId id board ⟨req.name, key, req.color, req.config⟩

def delete (ctx : ProjectContext) (segment : String) : Handler Response := do
  require ctx .projectView
  let id ← found (parseUuid segment)
  let _ ← loadForWrite ctx id .boardSharedDelete
  let deleted ← orRefuse (.delete ctx.projectId id) internal
  refuseUnless deleted notFound
  return .noContent

def getLastOpened (ctx : ProjectContext) : Handler Response := do
  require ctx .projectView
  return .lastOpened (← orRefuse (.getLastOpened ctx.projectId ctx.actorId) internal)

def setLastOpened (ctx : ProjectContext) (segment : String) : Handler Response := do
  require ctx .projectView
  let id ← found (parseUuid segment)
  orRefuse (.setLastOpened ctx.projectId ctx.actorId id) internal
  return .noContent

/-- The route of `GET /boards/…`: a fixed segment comes before the one that is matched. -/
def getBoards (ctx : ProjectContext) (segment : String) : Handler Response :=
  if segment = "last-opened" then getLastOpened ctx else get ctx segment

/-- The last insert of `create_with_defaults`: the default board of a new project. -/
def seedBoard (projectId ownerId : Uuid) : Handler Response := do
  let board ← orRefuse (.create
    ⟨projectId, some ownerId, .shared, "Board", "board", "", "\x7b\x7d"⟩) internal
  return .created board

/-- The boards' part of `delete_short_link_history`. -/
def pruneKeyHistory (ids : List Uuid) : Handler Response := do
  if ids.isEmpty then return .pruned 0
  return .pruned (← orRefuse (.deleteKeyHistory ids) internal)

/-! ## Runs -/

inductive Request where
  | seedBoard (projectId ownerId : Uuid)
  | list (ctx : ProjectContext)
  | create (ctx : ProjectContext) (body : Option CreateBoardRequest)
  | get (ctx : ProjectContext) (segment : String)
  | update (ctx : ProjectContext) (segment : String) (body : Option UpdateBoardRequest)
  | delete (ctx : ProjectContext) (segment : String)
  | setLastOpened (ctx : ProjectContext) (segment : String)
  | pruneKeyHistory (ids : List Uuid)
  deriving DecidableEq, Repr

/-- A handler that ends for sure. -/
def ends (p : Handler Response) : Handler (Option Response) := do return some (← p)

/-- The handler of a request; `none` is the answer of one that has not ended yet. -/
def handler (turns : Nat) : Request → Handler (Option Response)
  | .seedBoard projectId ownerId => ends (seedBoard projectId ownerId)
  | .list ctx => ends (list ctx)
  | .create ctx body => create turns ctx body
  | .get ctx segment => ends (getBoards ctx segment)
  | .update ctx segment body => ends (update ctx segment body)
  | .delete ctx segment => ends (delete ctx segment)
  | .setLastOpened ctx segment => ends (setLastOpened ctx segment)
  | .pruneKeyHistory ids => ends (pruneKeyHistory ids)

/-- One request, and what the database fails on while it runs. -/
structure Step where
  request : Request
  faults : Faults

/-- A request that runs to its end with no other in between. The loop of `generate_key` gets as
many turns as there are candidates: after them it would ask for the last one for ever. -/
def perform (step : Step) (s : Tables) : Except Problem (Option Response) × Tables :=
  (handler maxCandidate step.request).run.alone exec (fun _ => step.faults) s

/-- The tables after the requests, the first first. -/
def after (steps : List Step) : Tables := steps.foldl (fun s step => (perform step s).2) .empty

end IntelliPilot.Boards
