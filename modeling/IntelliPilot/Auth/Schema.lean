import IntelliPilot.Relational.Rows

/-! # The authentication database

The tables the sign-in, session and account handlers read and write, with the
columns any of these handlers looks at. Purely informational columns (profile
text, avatars, user agents, addresses, locations) are left out. Beside the
tables the state holds the presence cache of every node.

One clock serves both the application's `now()` and the database's; row
identifiers come from a counter, as `uuidv7()` never repeats one.
-/

namespace IntelliPilot.Auth

abbrev Uuid := Nat

/-- Microseconds since the epoch. -/
abbrev Time := Nat

abbrev Bytes := List UInt8

def seconds (n : Nat) : Time := n * 1000000

/-- How a statement can fail, as far as any handler distinguishes it. -/
inductive DbError where
  | uniqueViolation
  | foreignKeyViolation
  | other
  deriving DecidableEq, Repr

/-- `users.auth_source`. -/
inductive AuthSource where
  | localAccount
  | ldap
  | oidc
  deriving DecidableEq, Repr

structure User where
  id : Uuid
  email : String
  username : String
  fullName : String
  passwordHash : Option String
  isActive : Bool
  isSuperadmin : Bool
  mustChangePassword : Bool
  authSource : AuthSource
  ldapDn : Option String
  totpSecretEnc : Option Bytes
  totpConfirmedAt : Option Time
  bannedAt : Option Time
  deletedAt : Option Time
  oidcLinkArmedUntil : Option Time
  lastSeenAt : Option Time
  lastLoginAt : Option Time
  deriving DecidableEq, Repr

/-- `users::AccountStatus`. -/
structure AccountStatus where
  isActive : Bool
  isBanned : Bool
  deriving DecidableEq, Repr

/-- True when neither the ban nor the deactivation gate is closed. -/
def AccountStatus.mayAuthenticate (status : AccountStatus) : Bool :=
  status.isActive && !status.isBanned

/-- An entry of one node's presence cache. -/
structure PresenceEntry where
  node : Nat
  userId : Uuid
  status : AccountStatus
  checked : Time
  deriving DecidableEq, Repr

/-- A row of `refresh_token_families`: one logical session. -/
structure Family where
  id : Uuid
  userId : Uuid
  revokedAt : Option Time
  revokedReason : Option String
  lastSeenAt : Time
  deriving DecidableEq, Repr

/-- A row of `refresh_tokens`. -/
structure RefreshToken where
  id : Uuid
  familyId : Uuid
  tokenHash : String
  parentId : Option Uuid
  expiresAt : Time
  usedAt : Option Time
  deriving DecidableEq, Repr

structure PasswordResetToken where
  id : Uuid
  userId : Uuid
  tokenHash : String
  expiresAt : Time
  usedAt : Option Time
  deriving DecidableEq, Repr

structure RecoveryCode where
  id : Uuid
  userId : Uuid
  codeHash : String
  usedAt : Option Time
  deriving DecidableEq, Repr

/-- A stored passkey; `passkey` is the serialized credential. -/
structure WebauthnCredential where
  id : Uuid
  userId : Uuid
  credentialId : Bytes
  passkey : String
  signCount : Nat
  deriving DecidableEq, Repr

/-- `webauthn_states.kind`. -/
inductive CeremonyKind where
  | register
  | authenticate
  deriving DecidableEq, Repr

/-- A ceremony in progress; `state` is the sealed library state. -/
structure WebauthnState where
  id : Uuid
  userId : Option Uuid
  kind : CeremonyKind
  state : String
  expiresAt : Time
  deriving DecidableEq, Repr

structure OidcProvider where
  id : Uuid
  slug : String
  enabled : Bool
  issuerUrl : String
  superadminGroup : String
  allowJitProvisioning : Bool
  requireEmailVerified : Bool
  deviceFlowEnabled : Bool
  deriving DecidableEq, Repr

/-- The binding of an external subject to an account. -/
structure OidcIdentity where
  id : Uuid
  userId : Uuid
  providerId : Uuid
  issuer : String
  subject : String
  emailAtLink : String
  deriving DecidableEq, Repr

/-- An outstanding browser redirect. -/
structure OidcAuthRequest where
  state : String
  providerId : Uuid
  nonce : String
  codeVerifier : String
  linkUserId : Option Uuid
  redirectTo : String
  expiresAt : Time
  deriving DecidableEq, Repr

/-- An outstanding device-code flow. -/
structure OidcDeviceRequest where
  id : Uuid
  providerId : Uuid
  deviceCode : String
  intervalSecs : Nat
  pollTokenHash : String
  lastPolledAt : Option Time
  linkUserId : Option Uuid
  expiresAt : Time
  consumedAt : Option Time
  deriving DecidableEq, Repr

/-- A row of `audit_log`. -/
structure AuditEntry where
  actorId : Option Uuid
  action : String
  deriving DecidableEq, Repr

structure LoginAttempt where
  identifierHash : String
  ip : String
  succeeded : Bool
  createdAt : Time
  deriving DecidableEq, Repr

/-- All tables, the presence caches, the clock and the identifier counter. -/
structure Db where
  users : List User
  families : List Family
  tokens : List RefreshToken
  resetTokens : List PasswordResetToken
  recoveryCodes : List RecoveryCode
  webauthnCredentials : List WebauthnCredential
  webauthnStates : List WebauthnState
  oidcProviders : List OidcProvider
  oidcIdentities : List OidcIdentity
  oidcAuthRequests : List OidcAuthRequest
  oidcDeviceRequests : List OidcDeviceRequest
  auditLog : List AuditEntry
  loginAttempts : List LoginAttempt
  localPasswordLoginDisabled : Bool
  ldapEnabled : Bool
  presence : List PresenceEntry
  now : Time
  nextId : Uuid
  deriving DecidableEq, Repr

namespace Db

/-- A freshly migrated database. -/
def empty : Db where
  users := []
  families := []
  tokens := []
  resetTokens := []
  recoveryCodes := []
  webauthnCredentials := []
  webauthnStates := []
  oidcProviders := []
  oidcIdentities := []
  oidcAuthRequests := []
  oidcDeviceRequests := []
  auditLog := []
  loginAttempts := []
  localPasswordLoginDisabled := false
  ldapEnabled := false
  presence := []
  now := 0
  nextId := 0

/-- The database before the first session. -/
def withoutSessions (db : Db) : Db := { db with families := [], tokens := [] }

/-- The database with the caches of all nodes cold. -/
def withoutPresence (db : Db) : Db := { db with presence := [] }

/-- The database before the first sign-in proof that is stored in a row. -/
def withoutProofs (db : Db) : Db :=
  { db with recoveryCodes := [], webauthnStates := [], oidcAuthRequests := [],
            oidcDeviceRequests := [] }

/-- The database before the first TOTP enrolment. -/
def withoutTotp (db : Db) : Db :=
  { db with
    users := db.users.map fun user => { user with totpSecretEnc := none, totpConfirmedAt := none } }

/-- Time passes. -/
def advance (db : Db) (elapse : Nat) : Db := { db with now := db.now + elapse }

@[simp] theorem advance_users (db : Db) (elapse : Nat) : (db.advance elapse).users = db.users := rfl

end Db

end IntelliPilot.Auth
