import IntelliPilot.Docs.Edit
import IntelliPilot.Http.Problem
import IntelliPilot.Relational.Table
import IntelliPilot.Statement.Handlers

/-! # Adding documentation sources, repositories and keys

`create_source`, `create_repository` and `create_ssh_key`, statement by
statement. The remote and the key material are part of the choice a statement
meets. Audit entries, the first synchronisation and the order of the sources
are left out.
-/

namespace IntelliPilot.Registration

open Http Statement
open Docs (GitError isControl)
open Auth (trim)

abbrev Uuid := Nat

/-! ## Tables -/

structure NewSshKey where
  name : String
  readOnly : Bool
  keyType : String
  publicKey : String
  /-- The private key, sealed with the pepper. -/
  privateKeyEnc : String
  fingerprint : String
  createdBy : Uuid
  deriving DecidableEq, Repr

structure SshKey extends NewSshKey where
  id : Uuid
  projectId : Uuid
  deriving DecidableEq, Repr

inductive DocSourceKind where
  | git
  | web
  deriving DecidableEq, Repr

structure DocSourceNew where
  name : String
  kind : DocSourceKind
  sshUrl : Option String
  webUrl : String
  branch : Option String
  docPath : String
  sshKeyId : Option Uuid
  readOnly : Bool
  color : String
  emoji : String
  createdBy : Uuid
  deriving DecidableEq, Repr

structure DocSource extends DocSourceNew where
  id : Uuid
  projectId : Uuid
  deriving DecidableEq, Repr

structure NewRepository where
  name : String
  sshUrl : String
  sshKeyId : Option Uuid
  defaultBranch : Option String
  hostFingerprint : Option String
  createdBy : Uuid
  deriving DecidableEq, Repr

structure Repository extends NewRepository where
  id : Uuid
  projectId : Uuid
  deriving DecidableEq, Repr

structure Db where
  keys : Table SshKey.id
  sources : Table DocSource.id
  repositories : Table Repository.id

/-! ## Statements -/

/-- What `generate_ed25519` and the sealing of its private key give. -/
structure Generated where
  keyType : String
  publicKey : String
  privateKeyEnc : String
  fingerprint : String
  deriving DecidableEq, Repr

/-- What a remote advertises. -/
structure RemoteInfo where
  branches : List String
  defaultBranch : Option String
  hostFingerprint : Option String
  deriving DecidableEq, Repr

inductive Failure where
  | uniqueViolation
  | failed
  deriving DecidableEq, Repr

/-- The statements of the three tables, and the calls that reach outside. -/
inductive Stmt : Type → Type where
  | getClient : Stmt (Except Failure Unit)
  | countKeys (projectId : Uuid) : Stmt (Except Failure Nat)
  | countSources (projectId : Uuid) : Stmt (Except Failure Nat)
  | countRepositories (projectId : Uuid) : Stmt (Except Failure Nat)
  | getKey (projectId id : Uuid) : Stmt (Except Failure (Option SshKey))
  | privateKeyEnc (projectId id : Uuid) : Stmt (Except Failure (Option String))
  | decrypt (enc : String) : Stmt (Except Failure String)
  | generateKey : Stmt (Except Failure Generated)
  | listRemoteBranches (sshUrl pem : String) : Stmt (Except GitError RemoteInfo)
  | maxOrder (projectId : Uuid) : Stmt (Except Failure Unit)
  | createKey (projectId : Uuid) (new : NewSshKey) : Stmt (Except Failure SshKey)
  | createSource (projectId : Uuid) (new : DocSourceNew) : Stmt (Except Failure DocSource)
  | createRepository (projectId : Uuid) (new : NewRepository) : Stmt (Except Failure Repository)

/-- What a statement meets. -/
structure Choice where
  fails : Bool := false
  generated : Generated := ⟨"ssh-ed25519", "", "", ""⟩
  remote : Except GitError RemoteInfo := .error .unreachable

namespace Db

def countKeys (db : Db) (projectId : Uuid) : Nat :=
  db.keys.rows.countP fun key => key.projectId == projectId

def countSources (db : Db) (projectId : Uuid) : Nat :=
  db.sources.rows.countP fun source => source.projectId == projectId

def countRepositories (db : Db) (projectId : Uuid) : Nat :=
  db.repositories.rows.countP fun repository => repository.projectId == projectId

/-- `ssh_keys::get`. -/
def getKey (db : Db) (projectId id : Uuid) : Option SshKey :=
  (db.keys.find? id).filter fun key => key.projectId == projectId

/-- `UNIQUE (project_id, name)`. -/
def createKey (projectId : Uuid) (new : NewSshKey) (db : Db) : Except Failure SshKey × Db :=
  if db.keys.rows.any fun key => key.projectId == projectId && key.name == new.name then
    (.error .uniqueViolation, db)
  else
    let key : SshKey := ⟨new, db.keys.fresh, projectId⟩
    (.ok key, { db with keys := db.keys.insert key db.keys.find?_fresh })

/-- `UNIQUE (project_id, name)`. -/
def createSource (projectId : Uuid) (new : DocSourceNew) (db : Db) : Except Failure DocSource × Db :=
  if db.sources.rows.any fun source => source.projectId == projectId && source.name == new.name then
    (.error .uniqueViolation, db)
  else
    let source : DocSource := ⟨new, db.sources.fresh, projectId⟩
    (.ok source, { db with sources := db.sources.insert source db.sources.find?_fresh })

/-- `UNIQUE (project_id, ssh_url)`. -/
def createRepository (projectId : Uuid) (new : NewRepository) (db : Db) :
    Except Failure Repository × Db :=
  if db.repositories.rows.any fun repository =>
      repository.projectId == projectId && repository.sshUrl == new.sshUrl then
    (.error .uniqueViolation, db)
  else
    let repository : Repository := ⟨new, db.repositories.fresh, projectId⟩
    (.ok repository,
      { db with repositories := db.repositories.insert repository db.repositories.find?_fresh })

end Db

/-- What a statement does that does not fail. -/
def Stmt.effect {β : Type} (stmt : Stmt β) (choice : Choice) (db : Db) : β × Db :=
  match stmt with
  | .getClient => (.ok (), db)
  | .countKeys projectId => (.ok (db.countKeys projectId), db)
  | .countSources projectId => (.ok (db.countSources projectId), db)
  | .countRepositories projectId => (.ok (db.countRepositories projectId), db)
  | .getKey projectId id => (.ok (db.getKey projectId id), db)
  | .privateKeyEnc projectId id => (.ok ((db.getKey projectId id).map (·.privateKeyEnc)), db)
  | .decrypt enc => (.ok enc, db)
  | .generateKey => (.ok choice.generated, db)
  | .listRemoteBranches _ _ => (choice.remote, db)
  | .maxOrder _ => (.ok (), db)
  | .createKey projectId new => db.createKey projectId new
  | .createSource projectId new => db.createSource projectId new
  | .createRepository projectId new => db.createRepository projectId new

def Stmt.failure {β : Type} : Stmt β → β
  | .getClient => .error .failed
  | .countKeys _ => .error .failed
  | .countSources _ => .error .failed
  | .countRepositories _ => .error .failed
  | .getKey _ _ => .error .failed
  | .privateKeyEnc _ _ => .error .failed
  | .decrypt _ => .error .failed
  | .generateKey => .error .failed
  | .listRemoteBranches _ _ => .error .internal
  | .maxOrder _ => .error .failed
  | .createKey _ _ => .error .failed
  | .createSource _ _ => .error .failed
  | .createRepository _ _ => .error .failed

/-- A statement, which may fail. -/
def Stmt.exec {β : Type} (stmt : Stmt β) (choice : Choice) (db : Db) : β × Db :=
  if choice.fails then (stmt.failure, db) else stmt.effect choice db

/-! ## Requests -/

def maxSourcesPerProject : Nat := 10
def maxSshKeysPerProject : Nat := 100
def maxReposPerProject : Nat := 200

structure CreateSshKeyRequest where
  name : String
  readOnly : Bool
  deriving DecidableEq, Repr

structure CreateRepositoryRequest where
  name : String
  sshUrl : String
  sshKeyId : Option Uuid
  newKey : Option CreateSshKeyRequest
  defaultBranch : Option String
  deriving DecidableEq, Repr

structure CreateDocSourceRequest where
  name : String
  kind : DocSourceKind
  sshUrl : Option String
  webUrl : String
  branch : Option String
  docPath : String
  sshKeyId : Option Uuid
  newKey : Option CreateSshKeyRequest
  readOnly : Bool
  color : String
  emoji : String
  deriving DecidableEq, Repr

/-- The project context: whether the actor has the permission asked for. -/
structure Context where
  projectId : Uuid
  actorId : Uuid
  allowed : Bool
  deriving DecidableEq, Repr

/-! ## Problems -/

/-- `docs::conflict`. -/
def docsConflict (code detail : String) : Problem := ⟨409, code, "Conflict", some detail⟩

/-- `repositories::conflict`. -/
def alreadyExists (detail : String) : Problem := ⟨409, "already_exists", "Already Exists", some detail⟩

/-- `repositories::unprocessable`. -/
def invalid (detail : String) : Problem := ⟨422, "validation_failed", "Validation failed", some detail⟩

/-- `cap_reached`. -/
def capReached (detail : String) : Problem := ⟨409, "limit_reached", "Limit Reached", some detail⟩

def encryptionUnavailable : Problem :=
  ⟨503, "encryption_unavailable", "Encryption unavailable",
    some "server is not configured with a pepper for secret encryption"⟩

/-- `git_problem`. -/
def gitProblem : GitError → Problem
  | .authFailed => ⟨422, "git_auth_failed", "Git authentication failed", some "authentication failed"⟩
  | .notFound => ⟨422, "git_not_found", "Repository not found", some "repository not found"⟩
  | .invalidBranch => ⟨422, "git_invalid_branch", "Invalid branch name", some "invalid branch name"⟩
  | .tooLarge => ⟨422, "git_too_large", "Repository too large",
      some "repository exceeds the configured size limit"⟩
  | .unreachable => ⟨502, "git_unreachable", "Git host unreachable", some "host unreachable"⟩
  | .timeout => ⟨504, "git_timeout", "Git operation timed out", some "operation timed out"⟩
  | .internal => ⟨502, "git_internal", "Git error", some "internal git error"⟩

/-! ## Paths -/

/-- `has_illegal_chars`. -/
def hasIllegalChars (s : String) : Bool := s.toList.any fun c => isControl c || c == '\\'

/-- `normalize`. -/
def normalize (input : String) : Option String :=
  if hasIllegalChars input || 1024 < input.utf8ByteSize then none
  else
    let segments := (Text.split input '/').filter fun segment => segment != "" && segment != "."
    if segments.any fun segment => segment == ".." || 255 < segment.utf8ByteSize then none
    else
      let joined := "/".intercalate segments
      if 1024 < joined.utf8ByteSize then none else some joined

/-! ## Handlers -/

abbrev Handler := ExceptT Problem (Prog Stmt)

inductive Answer where
  | key (key : SshKey)
  | source (source : DocSource)
  | repository (repository : Repository)
  deriving DecidableEq, Repr

section

variable (pepper : Bool)

/-- `require_pepper`: whether the server has one. -/
def requirePepper : Handler Unit := refuseUnless pepper encryptionUnavailable

/-- `create_key_inner`. -/
def createKeyInner (ctx : Context) (name : String) (readOnly : Bool) : Handler SshKey := do
  let generated ← orRefuse .generateKey internal
  match ← attempted (.createKey ctx.projectId ⟨name, readOnly, generated.keyType,
      generated.publicKey, generated.privateKeyEnc, generated.fingerprint, ctx.actorId⟩) with
  | .ok key => return key
  | .error .uniqueViolation => throw (alreadyExists "key name already used")
  | .error .failed => throw internal

/-- `create_ssh_key`. -/
def createSshKey (ctx : Context) (body : Except Problem CreateSshKeyRequest) : Handler Answer := do
  refuseUnless ctx.allowed forbidden
  let req ← given body
  requirePepper pepper
  orRefuse .getClient internal
  let count ← orRefuse (.countKeys ctx.projectId) internal
  refuseUnless (count < maxSshKeysPerProject)
    (capReached "maximum number of SSH keys reached for this project")
  return .key (← createKeyInner ctx req.name req.readOnly)

/-- `resolve_key_for_repo`. -/
def resolveKeyForRepo (ctx : Context) (sshKeyId : Option Uuid)
    (newKey : Option CreateSshKeyRequest) : Handler (Option Uuid) := do
  match newKey, sshKeyId with
  | some spec, _ =>
      requirePepper pepper
      let key ← createKeyInner ctx spec.name spec.readOnly
      return some key.id
  | none, some id =>
      let found ← orRefuse (.getKey ctx.projectId id) internal
      refuseUnless found.isSome (invalid "ssh_key_id not found in this project")
      return some id
  | none, none => return none

/-- `remote_info_for_key`, whose failure is of no consequence. -/
def remoteInfoForKey (ctx : Context) (keyId : Uuid) (sshUrl : String) :
    Prog Stmt (Option RemoteInfo) :=
  if !pepper then .done none
  else .step (.privateKeyEnc ctx.projectId keyId) fun enc => match enc with
    | .ok (some enc) => .step (.decrypt enc) fun pem => match pem with
        | .ok pem => .step (.listRemoteBranches sshUrl pem) fun info => .done info.toOption
        | .error _ => .done none
    | _ => .done none

/-- What is known of the remote of a repository that has a key. -/
def reachability (ctx : Context) (keyId : Option Uuid) (sshUrl : String) :
    Handler (Option RemoteInfo) :=
  match keyId with
  | some keyId => ExceptT.lift (remoteInfoForKey pepper ctx keyId sshUrl)
  | none => return none

/-- `create_repository`. -/
def createRepository (ctx : Context) (body : Except Problem CreateRepositoryRequest) :
    Handler Answer := do
  refuseUnless ctx.allowed forbidden
  let req ← given body
  refuseUnless (!(req.sshKeyId.isSome && req.newKey.isSome))
    (invalid "provide either ssh_key_id or new_key, not both")
  orRefuse .getClient internal
  let count ← orRefuse (.countRepositories ctx.projectId) internal
  refuseUnless (count < maxReposPerProject)
    (capReached "maximum number of repositories reached for this project")
  let keyId ← resolveKeyForRepo pepper ctx req.sshKeyId req.newKey
  let info ← reachability pepper ctx keyId req.sshUrl
  match ← attempted (.createRepository ctx.projectId ⟨req.name, req.sshUrl, keyId,
      req.defaultBranch.orElse fun _ => info.bind (·.defaultBranch),
      info.bind (·.hostFingerprint), ctx.actorId⟩) with
  | .ok repository => return .repository repository
  | .error .uniqueViolation => throw (alreadyExists "repository URL already added")
  | .error .failed => throw internal

/-- `check_kind_fields`. -/
def checkKindFields (req : CreateDocSourceRequest) : Except Problem Unit :=
  match req.kind with
  | .git =>
      if trim (req.sshUrl.getD "") = "" then
        .error (unprocessable "ssh_url_required" "a git documentation source needs a repository SSH URL")
      else if trim (req.branch.getD "") = "" then
        .error (unprocessable "branch_required" "a git documentation source needs a branch")
      else .ok ()
  | .web =>
      if req.sshUrl.isSome || req.branch.isSome || req.sshKeyId.isSome || req.newKey.isSome ||
          req.docPath != "" then
        .error (unprocessable "web_source_fields"
          "a web documentation source takes only a name and a URL")
      else .ok ()

/-- `resolve_key`: a key that is there, or a new one. -/
def resolveKey (ctx : Context) (existing : Option Uuid) (newKey : Option CreateSshKeyRequest) :
    Handler Uuid := do
  match existing, newKey with
  | some id, _ =>
      let found ← orRefuse (.getKey ctx.projectId id) internal
      refuseUnless found.isSome (unprocessable "ssh_key_not_found" "no such SSH key in this project")
      return id
  | none, none =>
      throw (unprocessable "ssh_key_required" "either ssh_key_id or new_key must be supplied")
  | none, some spec =>
      requirePepper pepper
      let generated ← orRefuse .generateKey internal
      let created ← orRefuse (.createKey ctx.projectId ⟨spec.name, true, generated.keyType,
        generated.publicKey, generated.privateKeyEnc, generated.fingerprint, ctx.actorId⟩) internal
      return created.id

/-- `load_key_pem`. -/
def loadKeyPem (ctx : Context) (keyId : Uuid) : Handler String := do
  requirePepper pepper
  match ← orRefuse (.privateKeyEnc ctx.projectId keyId) internal with
  | none => throw internal
  | some enc => orRefuse (.decrypt enc) internal

/-- The key, the branch and the folder of a git source, once its remote has answered. -/
def verifyRemote (ctx : Context) (req : CreateDocSourceRequest) :
    Handler (Option Uuid × Option String × String) := do
  let keyId ← resolveKey pepper ctx req.sshKeyId req.newKey
  let pem ← loadKeyPem pepper ctx keyId
  match ← attempted (.listRemoteBranches (req.sshUrl.getD "") pem) with
  | .error e => throw (gitProblem e)
  | .ok info =>
      let branch := req.branch.getD ""
      refuseUnless (info.branches.contains branch)
        (unprocessable "branch_not_found" "the repository has no branch by that name")
      match normalize req.docPath with
      | none => throw (unprocessable "doc_path_illegal"
          "the documentation path must be relative and must not contain `..`")
      | some docPath => return (some keyId, some branch, docPath)

def DocSourceKind.isGit : DocSourceKind → Bool
  | .git => true
  | .web => false

/-- A web link is registered as it is. -/
def resolveRemote (ctx : Context) (req : CreateDocSourceRequest) :
    Handler (Option Uuid × Option String × String) :=
  if req.kind.isGit then verifyRemote pepper ctx req else pure (none, none, "")

/-- `trim_end_matches('/')`. -/
def trimEndSlashes (s : String) : String :=
  String.ofList (s.toList.reverse.dropWhile (· == '/')).reverse

/-- The row that a request asks for. -/
def CreateDocSourceRequest.row (req : CreateDocSourceRequest) (ctx : Context)
    (remote : Option Uuid × Option String × String) : DocSourceNew where
  name := trim req.name
  kind := req.kind
  sshUrl := req.sshUrl.map trim
  webUrl := if req.kind.isGit then trimEndSlashes (trim req.webUrl) else trim req.webUrl
  branch := remote.2.1
  docPath := remote.2.2
  sshKeyId := remote.1
  readOnly := !req.kind.isGit || req.readOnly
  color := req.color
  emoji := req.emoji
  createdBy := ctx.actorId

/-- `create_source`. -/
def createSource (ctx : Context) (body : Except Problem CreateDocSourceRequest) : Handler Answer := do
  refuseUnless ctx.allowed forbidden
  let req ← given body
  orRefuse .getClient internal
  let count ← orRefuse (.countSources ctx.projectId) internal
  refuseUnless (count < maxSourcesPerProject)
    (docsConflict "limit_reached" "a project may have at most 10 documentation sources")
  given (checkKindFields req)
  let remote ← resolveRemote pepper ctx req
  orRefuse (.maxOrder ctx.projectId) internal
  match ← attempted (.createSource ctx.projectId (req.row ctx remote)) with
  | .ok source => return .source source
  | .error .uniqueViolation => throw (docsConflict "already_exists"
      "a documentation source with that name already exists")
  | .error .failed => throw internal

end

inductive Request where
  | createSource (ctx : Context) (body : Except Problem CreateDocSourceRequest)
  | createRepository (ctx : Context) (body : Except Problem CreateRepositoryRequest)
  | createSshKey (ctx : Context) (body : Except Problem CreateSshKeyRequest)

def Request.handler (pepper : Bool) : Request → Handler Answer
  | .createSource ctx body => Registration.createSource pepper ctx body
  | .createRepository ctx body => Registration.createRepository pepper ctx body
  | .createSshKey ctx body => Registration.createSshKey pepper ctx body

/-- The requests that add sources, repositories and keys, with or without a pepper. -/
def service (pepper : Bool) : Service Stmt Db Choice Request (Except Problem Answer) where
  exec := Stmt.exec
  handler request := (request.handler pepper).run

end IntelliPilot.Registration
