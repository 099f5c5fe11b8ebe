import IntelliPilot.Auth.OidcStore
import IntelliPilot.Statement.RelyGuarantee

/-! # All statements of the service

The SQL statements of every store, the presence cache, and the steps that only
consult the environment: taking a pool connection, reading the clock, drawing
randomness, sealing a token, calling the directory or an identity provider. Every statement may
find that time has passed since the one before it.
-/

namespace IntelliPilot.Auth

open Rows Statement

/-- `refresh::NewRefreshToken`. -/
structure NewRefreshToken where
  raw : String
  hash : String
  deriving DecidableEq, Repr

inductive PlatformStmt : Type → Type where
  | getPool : PlatformStmt (Except DbError Unit)
  | now : PlatformStmt Time
  | random : PlatformStmt String
  | randomBytes : PlatformStmt Bytes
  | seal (tokenType : TokenType) (userId : Uuid) (ttl : Time) :
      PlatformStmt (Except DbError SealedToken)
  | directory (identifier password : String) : PlatformStmt (Except LdapError LdapUser)
  | startFlow (providerId : Uuid) (redirectUri : String) : PlatformStmt (Except OidcError StartedFlow)
  | startDevice (providerId : Uuid) : PlatformStmt (Except OidcError DeviceAuthorization)
  | exchange (providerId : Uuid) (redirectUri code codeVerifier nonce : String) :
      PlatformStmt (Except OidcError IdentityFacts)
  | pollDevice (providerId : Uuid) (deviceCode : String) :
      PlatformStmt (Except OidcError IdentityFacts)
  | localPasswordLoginDisabled : PlatformStmt (Except DbError Bool)
  | ldapEnabled : PlatformStmt (Except DbError Bool)
  | audit (actorId : Option Uuid) (action : String) : PlatformStmt Unit
  | countForActorActions (actorId : Uuid) (actions : List String) :
      PlatformStmt (Except DbError Nat)
  | recordAttempt (identifierHash ip : String) (succeeded : Bool) : PlatformStmt Unit
  | recentFailures (identifierHash ip : String) (since : Time) : PlatformStmt (Except DbError Nat)
  | cachedStatus (node : Nat) (userId : Uuid) : PlatformStmt (Option AccountStatus)
  | storeStatus (node : Nat) (userId : Uuid) (status : AccountStatus) : PlatformStmt Unit
  | invalidateStatus (node : Nat) (userId : Uuid) : PlatformStmt Unit

/-- `presence::CHECK_TTL`. -/
def checkTtl : Time := seconds 30

namespace Presence

/-- The cached entry of one user on one node. -/
def entryOf (node : Nat) (userId : Uuid) (entry : PresenceEntry) : Bool :=
  entry.node == node && entry.userId == userId

/-- `Presence::cached`: the status, if still fresh. -/
def cached (node : Nat) (userId : Uuid) (db : Db) : Option AccountStatus :=
  ((db.presence.find? (entryOf node userId)).filter
    fun entry => decide (db.now - entry.checked < checkTtl)).map (·.status)

/-- `presence::SWEEP_AFTER`. -/
def sweepAfter : Time := seconds 3600

/-- The sweep of `Presence::store`, on a node that tracks many users. -/
def sweep (node : Nat) (db : Db) : List PresenceEntry :=
  if 1024 < (db.presence.filter (·.node == node)).length then
    deleteWhere (fun entry => entry.node == node && decide (sweepAfter ≤ db.now - entry.checked))
      db.presence
  else db.presence

theorem mem_of_mem_sweep {node : Nat} {db : Db} {entry : PresenceEntry}
    (h : entry ∈ sweep node db) : entry ∈ db.presence := by
  unfold sweep at h
  split at h
  · exact (mem_deleteWhere.mp h).1
  · exact h

/-- `Presence::store`: replaces the entry, stamped with the present moment. -/
def store (node : Nat) (userId : Uuid) (status : AccountStatus) (db : Db) : Db :=
  { db with
    presence := deleteWhere (entryOf node userId) (sweep node db) ++
      [⟨node, userId, status, db.now⟩] }

/-- `Presence::invalidate`. -/
def invalidate (node : Nat) (userId : Uuid) (db : Db) : Db :=
  { db with presence := deleteWhere (entryOf node userId) db.presence }

end Presence

def PlatformStmt.exec {β : Type} (stmt : PlatformStmt β) (choice : Choice) (db : Db) : β × Db :=
  match stmt with
  | .getPool => attempt choice db fun db => (.ok (), db)
  | .now => (db.now, db)
  | .random => (choice.random, db)
  | .randomBytes => (choice.randomBytes, db)
  | .seal tokenType userId ttl => attempt choice db fun db =>
      (.ok ⟨tokenType, userId, db.now + ttl, choice.random⟩, db)
  | .directory _ _ => (choice.ldap, db)
  | .startFlow _ _ => (choice.started, db)
  | .startDevice _ => (choice.device, db)
  | .exchange _ _ _ _ _ => (choice.oidc, db)
  | .pollDevice _ _ => (choice.oidc, db)
  | .localPasswordLoginDisabled => attempt choice db fun db =>
      (.ok db.localPasswordLoginDisabled, db)
  | .ldapEnabled => attempt choice db fun db => (.ok db.ldapEnabled, db)
  | .audit actorId action => bestEffort choice db fun db =>
      { db with auditLog := db.auditLog ++ [⟨actorId, action⟩] }
  | .countForActorActions actorId actions => attempt choice db fun db =>
      (.ok (db.auditLog.countP fun row => row.actorId == some actorId &&
        actions.contains row.action), db)
  | .recordAttempt identifierHash ip succeeded => bestEffort choice db fun db =>
      { db with loginAttempts := db.loginAttempts ++ [⟨identifierHash, ip, succeeded, db.now⟩] }
  | .recentFailures identifierHash ip since => attempt choice db fun db =>
      (.ok (db.loginAttempts.countP fun row => !row.succeeded && decide (since ≤ row.createdAt) &&
        (row.identifierHash == identifierHash || row.ip == ip)), db)
  | .cachedStatus node userId => (Presence.cached node userId db, db)
  | .storeStatus node userId status => ((), Presence.store node userId status db)
  | .invalidateStatus node userId => ((), Presence.invalidate node userId db)

/-- A statement of any store. -/
inductive Stmt (β : Type) : Type where
  | session (stmt : SessionStmt β)
  | user (stmt : UserStmt β)
  | factor (stmt : FactorStmt β)
  | oidc (stmt : OidcStmt β)
  | platform (stmt : PlatformStmt β)

/-- The effect of a statement once it runs. -/
def Stmt.effect {β : Type} (stmt : Stmt β) (choice : Choice) (db : Db) : β × Db :=
  match stmt with
  | .session stmt => stmt.exec choice db
  | .user stmt => stmt.exec choice db
  | .factor stmt => stmt.exec choice db
  | .oidc stmt => stmt.exec choice db
  | .platform stmt => stmt.exec choice db

/-- Time passes, then the statement runs. -/
def Stmt.exec {β : Type} (stmt : Stmt β) (choice : Choice) (db : Db) : β × Db :=
  stmt.effect choice (db.advance choice.elapse)

/-- The programs of the handlers. -/
abbrev Handler (α : Type) : Type 1 := Prog Stmt α

/-- Statements as one-step programs. -/
def session {β : Type} (stmt : SessionStmt β) : Handler β := Prog.call (.session stmt)

def user {β : Type} (stmt : UserStmt β) : Handler β := Prog.call (.user stmt)

def factor {β : Type} (stmt : FactorStmt β) : Handler β := Prog.call (.factor stmt)

def oidc {β : Type} (stmt : OidcStmt β) : Handler β := Prog.call (.oidc stmt)

def platform {β : Type} (stmt : PlatformStmt β) : Handler β := Prog.call (.platform stmt)

/-- `refresh::generate`. -/
def generate (env : Env) : Handler NewRefreshToken := do
  let raw ← platform .random
  return ⟨raw, env.hashToken raw⟩

/-- The worlds of runs that answer with responses. -/
abbrev AuthWorld (κ : Type) : Type 1 := World Stmt Db κ Response

/-- The service running the handlers of one kind of requests. -/
def authService {κ ρ : Type} (handler : κ → Handler ρ) : Service Stmt Db Choice κ ρ where
  exec := Stmt.exec
  handler := handler

end IntelliPilot.Auth
