import IntelliPilot.Prefixes.Derivation
import IntelliPilot.Search.Handlers
import IntelliPilot.Statement.Handlers

/-! # Prefixes of projects

The requests that give prefixes to projects and take them away, and the two
lookups of a prefix: the short link and the key search. A handler runs without
another request in between; the database may still fail on any statement.
-/

namespace IntelliPilot.Prefixes

open Statement
open Auth (trim lengthBetween)
open Http (Problem internal notFound forbidden conflict)
open Projects (Uuid Permission MemberAccess ProjectContext)
open Search (State Project KeyQuery KeyKind)

/-! ## Typed keys -/

/-- `str::strip_prefix` of a character, or the text itself. -/
def stripChar (c : Char) (s : List Char) : List Char := if s.head? = some c then s.drop 1 else s

/-- `parse_number`. -/
def parseNumber (s : List Char) : Option Nat :=
  if s.isEmpty || 18 < s.length || !s.all Char.isDigit then none
  else (some (Nat.ofDigitChars 10 s 0)).filter (0 < ·)

/-- The end of `parse_key`, after the prefix. -/
def parseKind (rest : List Char) : KeyKind × List Char :=
  if rest.head? = some 'E' ∨ rest.head? = some 'e' then (.epic, stripChar '-' (rest.drop 1))
  else (.issue, rest)

/-- `parse_key`. -/
def parseKey (q : String) : Option KeyQuery :=
  let q := (trim q).toList
  match parseNumber (stripChar '#' q) with
  | some number => some ⟨none, number, .any⟩
  | none =>
      let word := q.takeWhile Char.isAlpha
      if 2 ≤ word.length ∧ word.length ≤ 3 then
        let (kind, digits) := parseKind (stripChar '-' (q.dropWhile Char.isAlpha))
        (parseNumber digits).map fun number =>
          ⟨some (toAsciiUppercase (String.ofList word)), number, kind⟩
      else none

/-! ## Statements -/

inductive DbError where
  | failure
  | uniqueViolation
  /-- `DbError::Build("prefix space exhausted")`. -/
  | exhausted
  deriving DecidableEq, Repr

/-- What an update may change; what is absent stays. -/
structure ProjectUpdate where
  name : Option String
  isPrivate : Option Bool
  issuePrefix : Option String
  deriving DecidableEq, Repr

def ProjectUpdate.row (upd : ProjectUpdate) (row : Project) : Project :=
  { row with
    name := upd.name.getD row.name
    isPrivate := upd.isPrivate.getD row.isPrivate
    issuePrefix := upd.issuePrefix.getD row.issuePrefix }

inductive Stmt : Type → Type where
  | prefixExists (issuePrefix : String) (exclude : Option Uuid) : Stmt (Except DbError Bool)
  | create (name issuePrefix : String) (isPrivate : Bool) : Stmt (Except DbError Project)
  | update (id : Uuid) (upd : ProjectUpdate) : Stmt (Except DbError (Option Project))
  | recordPrefixHistory (projectId : Uuid) (oldPrefix : String) : Stmt (Except DbError Unit)
  | softDelete (id : Uuid) : Stmt (Except DbError Bool)
  | findById (id : Uuid) : Stmt (Except DbError (Option Project))
  | findByPrefix (issuePrefix : String) : Stmt (Except DbError (Option Project))
  | findIdByHistoricPrefix (issuePrefix : String) : Stmt (Except DbError (Option Uuid))
  | access (projectId userId : Uuid) : Stmt (Except DbError (Option MemberAccess))
  | isActiveSuperadmin (userId : Uuid) : Stmt (Except DbError Bool)

/-- The statements of one request that the database fails on. A slug that is taken makes the insert
fail as well. -/
structure Faults where
  prefixExists : String → Bool := fun _ => false
  create : Option DbError := none
  update : Bool := false
  recordPrefixHistory : Bool := false
  softDelete : Bool := false
  findById : Bool := false
  findByPrefix : Bool := false
  findIdByHistoricPrefix : Bool := false
  access : Bool := false
  isActiveSuperadmin : Bool := false

/-- `projects::prefix_exists`: deleted projects keep their prefix. -/
def prefixExists (s : State) (issuePrefix : String) (exclude : Option Uuid) : Bool :=
  s.projects.rows.any fun row => row.issuePrefix == issuePrefix && exclude != some row.id

/-- The constraints on a prefix. -/
def allows (s : State) (issuePrefix : String) (id : Option Uuid) : Bool :=
  !prefixExists s issuePrefix id && prefixFormat issuePrefix

/-- `projects::find_by_prefix`. -/
def findByPrefix (s : State) (issuePrefix : String) : Option Project :=
  s.projects.rows.find? fun row => row.issuePrefix == issuePrefix && row.deletedAt.isNone

/-- `projects::find_id_by_historic_prefix`. -/
def findIdByHistoricPrefix (s : State) (issuePrefix : String) : Option Uuid :=
  (s.prefixHistory.find? (·.1 == issuePrefix)).map (·.2)

/-- `projects::record_prefix_history`: the last claim of a prefix wins. -/
def recordPrefixHistory (s : State) (projectId : Uuid) (oldPrefix : String) : State :=
  { s with prefixHistory := (oldPrefix, projectId) :: s.prefixHistory.filter (·.1 != oldPrefix) }

/-- The rows of `projects::create_with_defaults` and `projects::update`. -/
def insertProject (s : State) (name issuePrefix : String) (isPrivate : Bool) : State :=
  let row : Project := ⟨s.projects.fresh, name, issuePrefix, isPrivate, none⟩
  { s with projects := s.projects.insert row s.projects.find?_fresh }

def setProject (s : State) (id : Uuid) (upd : ProjectUpdate) : State :=
  { s with projects := s.projects.modify (·.id == id) upd.row fun _ => rfl }

def attempt {α : Type} (fails : Bool) (s : State) (result : α × State) : Except DbError α × State :=
  if fails then (.error .failure, s) else (.ok result.1, result.2)

def exec : {β : Type} → Stmt β → Faults → State → β × State
  | _, .prefixExists issuePrefix exclude, faults, s =>
      attempt (faults.prefixExists issuePrefix) s (prefixExists s issuePrefix exclude, s)
  | _, .create name issuePrefix isPrivate, faults, s =>
      match faults.create with
      | some e => (.error e, s)
      | none =>
          if prefixExists s issuePrefix none then (.error .uniqueViolation, s)
          else if prefixFormat issuePrefix then
            (.ok ⟨s.projects.fresh, name, issuePrefix, isPrivate, none⟩,
              insertProject s name issuePrefix isPrivate)
          else (.error .failure, s)
  | _, .update id upd, faults, s =>
      match s.project? id with
      | none => attempt faults.update s (none, s)
      | some row =>
          if allows s (upd.row row).issuePrefix (some id) then
            attempt faults.update s (some (upd.row row), setProject s id upd)
          else (.error .failure, s)
  | _, .recordPrefixHistory projectId oldPrefix, faults, s =>
      attempt faults.recordPrefixHistory s ((), recordPrefixHistory s projectId oldPrefix)
  | _, .softDelete id, faults, s =>
      match s.softDeleteProject id with
      | none => attempt faults.softDelete s (false, s)
      | some s' => attempt faults.softDelete s (true, s')
  | _, .findById id, faults, s => attempt faults.findById s (s.project? id, s)
  | _, .findByPrefix issuePrefix, faults, s =>
      attempt faults.findByPrefix s (findByPrefix s issuePrefix, s)
  | _, .findIdByHistoricPrefix issuePrefix, faults, s =>
      attempt faults.findIdByHistoricPrefix s (findIdByHistoricPrefix s issuePrefix, s)
  | _, .access projectId userId, faults, s =>
      attempt faults.access s (s.access projectId userId, s)
  | _, .isActiveSuperadmin userId, faults, s =>
      attempt faults.isActiveSuperadmin s (s.isActiveSuperadmin userId, s)

/-! ## Handlers -/

abbrev Handler := ExceptT Problem (Prog Stmt)

/-- A statement of `db::projects` whose error goes to the caller. -/
def query {α : Type} (stmt : Stmt (Except DbError α)) : ExceptT DbError (Prog Stmt) α :=
  ExceptT.mk (Prog.call stmt)

/-- The first of the candidates that is free. -/
def firstFree : List String → ExceptT DbError (Prog Stmt) String
  | [] => throw .exhausted
  | cand :: rest => do
      if ← query (.prefixExists cand none) then firstFree rest else return cand

/-- `unique_prefix`. -/
def uniquePrefix (base : String) : ExceptT DbError (Prog Stmt) String :=
  firstFree (base :: combinations)

/-- The result of a part that fails with an error of the database. -/
def orInternal {α : Type} (p : ExceptT DbError (Prog Stmt) α) : Handler α :=
  ExceptT.mk (p.run >>= fun result => pure (result.mapError fun _ => internal))

structure CreateProjectRequest where
  name : String
  visibility : Option String
  issuePrefix : Option String
  deriving DecidableEq, Repr

structure UpdateProjectRequest where
  name : Option String
  visibility : Option String
  issuePrefix : Option String
  deriving DecidableEq, Repr

def CreateProjectRequest.validate (req : CreateProjectRequest) : Bool :=
  lengthBetween 1 200 req.name && req.visibility.all (lengthBetween 0 16) &&
    req.issuePrefix.all prefixPattern

def UpdateProjectRequest.validate (req : UpdateProjectRequest) : Bool :=
  req.name.all (lengthBetween 1 200) && req.visibility.all (lengthBetween 0 16) &&
    req.issuePrefix.all prefixPattern

/-- `parse_body`; a body that is no JSON of the type is `none`. -/
def parseBody {α : Type} (validate : α → Bool) : Option α → Except Problem α
  | none => .error ⟨400, "invalid_body", "Invalid Request Body", none⟩
  | some req =>
      if validate req then .ok req
      else .error ⟨422, "validation_failed", "Validation failed", none⟩

/-- `Visibility::parse`, as far as it tells private projects from others. -/
def parseVisibility : Option String → Except Problem (Option Bool)
  | none => .ok none
  | some "private" => .ok (some true)
  | some "internal" => .ok (some false)
  | some "public_readonly" => .ok (some false)
  | some _ => .error ⟨422, "invalid_visibility", "Invalid visibility", none⟩

def prefixInUse : Problem := conflict "issue prefix already in use"

/-- A prefix that a request names; it must be free. -/
def explicitPrefix (issuePrefix : String) (exclude : Option Uuid) : Handler String := do
  let p := toAsciiUppercase issuePrefix
  let taken ← orRefuse (.prefixExists p exclude) internal
  refuseUnless (!taken) prefixInUse
  return p

def created : Except DbError Project → Except Problem Project
  | .ok project => .ok project
  | .error .uniqueViolation => .error (conflict "project slug already exists")
  | .error _ => .error internal

def createProject (body : Option CreateProjectRequest) : Handler Project := do
  let req ← given (parseBody CreateProjectRequest.validate body)
  let isPrivate ← given (parseVisibility req.visibility)
  let issuePrefix ← match req.issuePrefix with
    | some p => explicitPrefix p none
    | none => orInternal (uniquePrefix (derivePrefix req.name))
  let result ← attempted (.create req.name issuePrefix (isPrivate.getD true))
  given (created result)

/-- The extraction of `ProjectContext`: the project it has loaded, for one who may know of it. -/
def loadProject (ctx : ProjectContext) : Handler Project := do
  let row ← orRefuse (.findById ctx.projectId) internal
  let project ← given (row.elim (.error notFound) .ok)
  refuseUnless (!(project.isPrivate && ctx.access.isNone && !ctx.isSuperadmin)) notFound
  return project

/-- The outgoing prefix goes into the history, where it changes. That is best-effort: the rename has
already stuck. -/
def recordOldPrefix (project : Project) (issuePrefix : Option String) : Handler Unit :=
  if issuePrefix.any (· != project.issuePrefix) then do
    let _ ← attempted (.recordPrefixHistory project.id project.issuePrefix)
    return ()
  else pure ()

/-- The prefix an update asks for. -/
def askedPrefix (projectId : Uuid) : Option String → Handler (Option String)
  | none => pure none
  | some p => do return some (← explicitPrefix p (some projectId))

/-- The writes of an update. -/
def write (project : Project) (upd : ProjectUpdate) : Handler Project := do
  let row ← orRefuse (.update project.id upd) internal
  let updated ← given (row.elim (.error notFound) .ok)
  recordOldPrefix project upd.issuePrefix
  return updated

def updateProject (ctx : ProjectContext) (body : Option UpdateProjectRequest) :
    Handler Project := do
  let project ← loadProject ctx
  refuseUnless (ctx.has .projectModify) forbidden
  let req ← given (parseBody UpdateProjectRequest.validate body)
  let isPrivate ← given (parseVisibility req.visibility)
  let issuePrefix ← askedPrefix project.id req.issuePrefix
  write project ⟨req.name, isPrivate, issuePrefix⟩

def deleteProject (ctx : ProjectContext) : Handler Unit := do
  let project ← loadProject ctx
  refuseUnless (ctx.has .projectDelete) forbidden
  let deleted ← orRefuse (.softDelete project.id) internal
  refuseUnless deleted notFound

/-- The project of a prefix: the live one, else the one the history leads to, if it is live. -/
def findProject (needle : String) : Handler (Option Project) := do
  match ← orRefuse (.findByPrefix needle) internal with
  | some project => return some project
  | none =>
      match ← orRefuse (.findIdByHistoricPrefix needle) internal with
      | some id => orRefuse (.findById id) internal
      | none => return none

/-- The prefix a short link asks for. -/
def needle (issuePrefix : String) : String := toAsciiUppercase (trim issuePrefix)

def resolveByPrefix (actorId : Uuid) (issuePrefix : String) : Handler Project := do
  let row ← findProject (needle issuePrefix)
  let project ← given (row.elim (.error notFound) .ok)
  if project.isPrivate then
    let access ← orDefault (.access project.id actorId) none
    let isSuperadmin ← orDefault (.isActiveSuperadmin actorId) false
    refuseUnless (access.isSome || isSuperadmin) notFound
    return project
  else return project

/-! ## Runs -/

inductive Request where
  | createProject (body : Option CreateProjectRequest)
  | updateProject (ctx : ProjectContext) (body : Option UpdateProjectRequest)
  | deleteProject (ctx : ProjectContext)

/-- What happens between the lookups: a request, or anything to the tables without prefixes. -/
inductive Step where
  | request (request : Request) (faults : Faults)
  | elsewhere (tables : State)

def handle (request : Request) (faults : Faults) (s : State) : State :=
  match request with
  | .createProject body => (evaluated exec faults (createProject body) s).2
  | .updateProject ctx body => (evaluated exec faults (updateProject ctx body) s).2
  | .deleteProject ctx => (evaluated exec faults (deleteProject ctx) s).2

def perform (step : Step) (s : State) : State :=
  match step with
  | .request request faults => handle request faults s
  | .elsewhere tables => { tables with projects := s.projects, prefixHistory := s.prefixHistory }

/-- No projects yet. -/
def start (tables : State) : State := { tables with projects := .empty, prefixHistory := [] }

end IntelliPilot.Prefixes
