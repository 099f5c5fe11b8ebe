import IntelliPilot.Auth.SessionHandlers

/-! # What statements leave alone

Every group of statements writes its own tables only. Identifiers are drawn
from a counter that never goes back, and the clock never goes back either.
-/

namespace IntelliPilot.Auth

open Rows Statement

/-- A fallible statement does what its run does, or nothing. -/
theorem attempt_state {α : Type} {choice : Choice} {db : Db}
    {run : Db → Except DbError α × Db} {P : Db → Prop} (hdb : P db) (hrun : P (run db).2) :
    P (attempt choice db run).2 := by
  unfold attempt
  split
  · exact hdb
  · exact hrun

theorem bestEffort_state {choice : Choice} {db : Db} {run : Db → Db} {P : Db → Prop}
    (hdb : P db) (hrun : P (run db)) : P (bestEffort choice db run).2 := by
  unfold bestEffort
  split
  · exact hdb
  · exact hrun

/-- Only the session tables may differ. -/
def SessionsOnly (db db' : Db) : Prop :=
  ∃ families tokens nextId, db.nextId ≤ nextId ∧
    db' = { db with families := families, tokens := tokens, nextId := nextId }

/-- Only the account table may differ. -/
def UsersOnly (db db' : Db) : Prop :=
  ∃ users nextId, db.nextId ≤ nextId ∧ db' = { db with users := users, nextId := nextId }

/-- Only the second-factor and reset tables may differ. -/
def FactorsOnly (db db' : Db) : Prop :=
  ∃ resets codes credentials states nextId, db.nextId ≤ nextId ∧
    db' = { db with resetTokens := resets, recoveryCodes := codes,
                    webauthnCredentials := credentials, webauthnStates := states,
                    nextId := nextId }

/-- Only the single sign-on tables may differ. -/
def OidcOnly (db db' : Db) : Prop :=
  ∃ providers identities authRequests deviceRequests nextId, db.nextId ≤ nextId ∧
    db' = { db with oidcProviders := providers, oidcIdentities := identities,
                    oidcAuthRequests := authRequests, oidcDeviceRequests := deviceRequests,
                    nextId := nextId }

/-- Only the logs and the presence caches may differ. -/
def PlatformOnly (db db' : Db) : Prop :=
  ∃ auditLog attempts presence,
    db' = { db with auditLog := auditLog, loginAttempts := attempts, presence := presence }

theorem UsersOnly.refl (db : Db) : UsersOnly db db := ⟨_, _, Nat.le_refl _, rfl⟩

theorem FactorsOnly.refl (db : Db) : FactorsOnly db db := ⟨_, _, _, _, _, Nat.le_refl _, rfl⟩

theorem OidcOnly.refl (db : Db) : OidcOnly db db := ⟨_, _, _, _, _, Nat.le_refl _, rfl⟩

theorem SessionsOnly.refl (db : Db) : SessionsOnly db db := ⟨_, _, _, Nat.le_refl _, rfl⟩

theorem PlatformOnly.refl (db : Db) : PlatformOnly db db := ⟨_, _, _, rfl⟩

variable {β : Type}

theorem SessionStmt.frame (stmt : SessionStmt β) (choice : Choice) (db : Db) :
    SessionsOnly db (stmt.exec choice db).2 := by
  cases stmt <;>
    first
    | refine attempt_state (P := SessionsOnly db) (.refl db) ?_
    | refine bestEffort_state (P := SessionsOnly db) (.refl db) ?_
  case createFamily userId =>
    simp only [Sessions.createFamily]
    split
    · exact ⟨_, _, _, Nat.le_succ _, rfl⟩
    · exact .refl db
  case insertToken familyId tokenHash parentId expiresAt =>
    simp only [Sessions.insertToken]
    split
    · exact .refl db
    · split
      · exact ⟨_, _, _, Nat.le_succ _, rfl⟩
      · exact .refl db
  all_goals exact ⟨_, _, _, Nat.le_refl _, rfl⟩

theorem guardedUpdate_usersOnly (id : Uuid) (guarded : Bool) (f : User → User) (db : Db) :
    UsersOnly db (Users.guardedUpdate id guarded f db).2 := by
  unfold Users.guardedUpdate
  split
  · exact .refl db
  · split
    · exact .refl db
    · split
      · exact .refl db
      · exact ⟨_, _, Nat.le_refl _, rfl⟩

theorem UserStmt.frame (stmt : UserStmt β) (choice : Choice) (db : Db) :
    UsersOnly db (stmt.exec choice db).2 := by
  cases stmt <;> refine attempt_state (P := UsersOnly db) (.refl db) ?_
  case insertUser new =>
    simp only [Users.insertUser]
    split
    · exact .refl db
    · exact ⟨_, _, Nat.le_succ _, rfl⟩
  case linkLdapUser id dn superadmin name =>
    simp only [Users.linkLdapUser]
    split
    · exact .refl db
    · exact ⟨_, _, Nat.le_refl _, rfl⟩
  case setSuperadmin id value => exact guardedUpdate_usersOnly id _ _ db
  case setActive id value => exact guardedUpdate_usersOnly id _ _ db
  case setBanned id banned => exact guardedUpdate_usersOnly id _ _ db
  case softDeleteGuarded id => exact guardedUpdate_usersOnly id _ _ db
  case setExcludeFromTimeReports id value => exact guardedUpdate_usersOnly id _ _ db
  all_goals exact ⟨_, _, Nat.le_refl _, rfl⟩

theorem insertCodes_factorsOnly (userId : Uuid) (hashes : List String) (db db' : Db)
    (h : FactorsOnly db db') : FactorsOnly db (hashes.foldl (Factors.insertCode userId) db') := by
  induction hashes generalizing db' with
  | nil => exact h
  | cons hash hashes ih =>
    apply ih
    obtain ⟨resets, codes, credentials, states, nextId, hle, rfl⟩ := h
    exact ⟨_, _, _, _, _, Nat.le_succ_of_le hle, rfl⟩

theorem FactorStmt.frame (stmt : FactorStmt β) (choice : Choice) (db : Db) :
    FactorsOnly db (stmt.exec choice db).2 := by
  cases stmt <;> refine attempt_state (P := FactorsOnly db) (.refl db) ?_
  case saveState userId kind state expiresAt =>
    simp only [Factors.saveState]
    split
    · exact ⟨_, _, _, _, _, Nat.le_succ _, rfl⟩
    · exact .refl db
  case insertCredential userId credentialId passkey =>
    simp only [Factors.insertCredential]
    split
    · exact .refl db
    · split
      · exact ⟨_, _, _, _, _, Nat.le_succ _, rfl⟩
      · exact .refl db
  case replaceRecoveryCodes userId hashes =>
    exact insertCodes_factorsOnly userId hashes _ _ ⟨_, _, _, _, _, Nat.le_refl _, rfl⟩
  case createReset userId tokenHash expiresAt =>
    simp only [Factors.createReset]
    split
    · exact .refl db
    · split
      · exact ⟨_, _, _, _, _, Nat.le_succ _, rfl⟩
      · exact .refl db
  all_goals exact ⟨_, _, _, _, _, Nat.le_refl _, rfl⟩

theorem OidcStmt.frame (stmt : OidcStmt β) (choice : Choice) (db : Db) :
    OidcOnly db (stmt.exec choice db).2 := by
  cases stmt <;>
    first
    | refine attempt_state (P := OidcOnly db) (.refl db) ?_
    | refine bestEffort_state (P := OidcOnly db) (.refl db) ?_
  case createProvider upd =>
    simp only [Oidc.createProvider]
    split
    · exact .refl db
    · exact ⟨_, _, _, _, _, Nat.le_succ _, rfl⟩
  case updateProvider id upd =>
    simp only [Oidc.updateProvider]
    split
    · exact .refl db
    · split
      · exact ⟨_, _, _, _, _, Nat.le_refl _, rfl⟩
      · exact .refl db
  case link userId providerId issuer subject emailAtLink =>
    simp only [Oidc.link]
    split
    · exact .refl db
    · split
      · exact ⟨_, _, _, _, _, Nat.le_succ _, rfl⟩
      · exact .refl db
  case insertAuthRequest new =>
    simp only [Oidc.insertAuthRequest]
    split
    · exact .refl db
    · split
      · exact ⟨_, _, _, _, _, Nat.le_refl _, rfl⟩
      · exact .refl db
  case insertDeviceRequest new =>
    simp only [Oidc.insertDeviceRequest]
    split
    · exact .refl db
    · split
      · exact ⟨_, _, _, _, _, Nat.le_succ _, rfl⟩
      · exact .refl db
  all_goals exact ⟨_, _, _, _, _, Nat.le_refl _, rfl⟩

theorem PlatformStmt.frame (stmt : PlatformStmt β) (choice : Choice) (db : Db) :
    PlatformOnly db (stmt.exec choice db).2 := by
  cases stmt <;>
    first
    | refine attempt_state (P := PlatformOnly db) (.refl db) ?_
    | refine bestEffort_state (P := PlatformOnly db) (.refl db) ?_
    | skip
  all_goals exact ⟨_, _, _, rfl⟩

/-- Whether a statement writes a presence cache. -/
def PlatformStmt.caches {β : Type} : PlatformStmt β → Bool
  | .storeStatus _ _ _ => true
  | .invalidateStatus _ _ => true
  | _ => false

theorem PlatformStmt.presence_unchanged (stmt : PlatformStmt β) (hcaches : stmt.caches = false)
    (choice : Choice) (db : Db) :
    (stmt.exec choice db).2.presence = db.presence := by
  let P : Db → Prop := fun db' => db'.presence = db.presence
  cases stmt <;>
    first
    | exact attempt_state (P := P) rfl rfl
    | exact bestEffort_state (P := P) rfl rfl
    | rfl
    | simp [PlatformStmt.caches] at hcaches

/-- Whether a statement is one of the session store's. -/
def Stmt.isSession {β : Type} : Stmt β → Bool
  | .session _ => true
  | _ => false

/-- Whether a statement is one of the account store's. -/
def Stmt.isUser {β : Type} : Stmt β → Bool
  | .user _ => true
  | _ => false

/-- Whether a statement is one of the second-factor store's. -/
def Stmt.isFactor {β : Type} : Stmt β → Bool
  | .factor _ => true
  | _ => false

/-- Whether a statement is one of the single sign-on store's. -/
def Stmt.isOidc {β : Type} : Stmt β → Bool
  | .oidc _ => true
  | _ => false

/-- What a statement leaves alone unless it is one of the store's that has it; neither the
identifier counter nor the clock goes back. -/
structure Unchanged (stmt : Stmt β) (db db' : Db) : Prop where
  sessions : stmt.isSession = false → db'.families = db.families ∧ db'.tokens = db.tokens
  users : stmt.isUser = false → db'.users = db.users
  factors : stmt.isFactor = false → db'.resetTokens = db.resetTokens ∧
    db'.recoveryCodes = db.recoveryCodes ∧ db'.webauthnCredentials = db.webauthnCredentials ∧
    db'.webauthnStates = db.webauthnStates
  oidc : stmt.isOidc = false → db'.oidcProviders = db.oidcProviders ∧
    db'.oidcIdentities = db.oidcIdentities ∧ db'.oidcAuthRequests = db.oidcAuthRequests ∧
    db'.oidcDeviceRequests = db.oidcDeviceRequests
  presence : (∀ platform, stmt ≠ .platform platform) → db'.presence = db.presence
  counters : db.nextId ≤ db'.nextId ∧ db.now ≤ db'.now

theorem Stmt.unchanged (stmt : Stmt β) (choice : Choice) (db : Db) :
    Unchanged stmt db (stmt.exec choice db).2 := by
  have hnow : db.now ≤ (db.advance choice.elapse).now := Nat.le_add_right _ _
  have hfour : ∀ {α β γ δ : Type} {a : α} {b : β} {c : γ} {d : δ},
      a = a ∧ b = b ∧ c = c ∧ d = d := ⟨rfl, rfl, rfl, rfl⟩
  cases stmt with
  | session stmt =>
    obtain ⟨_, _, _, hle, heq⟩ := stmt.frame choice (db.advance choice.elapse)
    simp only [Stmt.exec, Stmt.effect, heq]
    exact ⟨nofun, fun _ => rfl, fun _ => hfour, fun _ => hfour, fun _ => rfl, hle, hnow⟩
  | user stmt =>
    obtain ⟨_, _, hle, heq⟩ := stmt.frame choice (db.advance choice.elapse)
    simp only [Stmt.exec, Stmt.effect, heq]
    exact ⟨fun _ => ⟨rfl, rfl⟩, nofun, fun _ => hfour, fun _ => hfour, fun _ => rfl, hle, hnow⟩
  | factor stmt =>
    obtain ⟨_, _, _, _, _, hle, heq⟩ := stmt.frame choice (db.advance choice.elapse)
    simp only [Stmt.exec, Stmt.effect, heq]
    exact ⟨fun _ => ⟨rfl, rfl⟩, fun _ => rfl, nofun, fun _ => hfour, fun _ => rfl, hle, hnow⟩
  | oidc stmt =>
    obtain ⟨_, _, _, _, _, hle, heq⟩ := stmt.frame choice (db.advance choice.elapse)
    simp only [Stmt.exec, Stmt.effect, heq]
    exact ⟨fun _ => ⟨rfl, rfl⟩, fun _ => rfl, fun _ => hfour, nofun, fun _ => rfl, hle, hnow⟩
  | platform stmt =>
    obtain ⟨_, _, _, heq⟩ := stmt.frame choice (db.advance choice.elapse)
    simp only [Stmt.exec, Stmt.effect, heq]
    exact ⟨fun _ => ⟨rfl, rfl⟩, fun _ => rfl, fun _ => hfour, fun _ => hfour,
      fun h => absurd rfl (h stmt), Nat.le_refl _, hnow⟩

/-- The tables of the second-factor store. -/
inductive FactorTable where
  | resets
  | codes
  | credentials
  | states
  deriving DecidableEq

/-- The one table a statement of the second-factor store works on. -/
def FactorStmt.table {β : Type} : FactorStmt β → FactorTable
  | .saveState _ _ _ _ => .states
  | .takeState _ _ => .states
  | .insertCredential _ _ _ => .credentials
  | .listCredentials _ => .credentials
  | .deleteCredential _ _ => .credentials
  | .deleteCredentials _ => .credentials
  | .updateAfterAuth _ _ _ => .credentials
  | .replaceRecoveryCodes _ _ => .codes
  | .listUnusedCodes _ => .codes
  | .markCodeUsed _ => .codes
  | .deleteRecoveryCodes _ => .codes
  | .createReset _ _ _ => .resets
  | .consumeReset _ => .resets

/-- The tables a statement of the second-factor store does not work on are as before. -/
structure FactorTablesKept (table : FactorTable) (db db' : Db) : Prop where
  resets : table ≠ .resets → db'.resetTokens = db.resetTokens
  codes : table ≠ .codes → db'.recoveryCodes = db.recoveryCodes
  credentials : table ≠ .credentials → db'.webauthnCredentials = db.webauthnCredentials
  states : table ≠ .states → db'.webauthnStates = db.webauthnStates

theorem FactorTablesKept.refl (table : FactorTable) (db : Db) : FactorTablesKept table db db :=
  ⟨fun _ => rfl, fun _ => rfl, fun _ => rfl, fun _ => rfl⟩

theorem insertCodes_tables (userId : Uuid) (hashes : List String) (db db' : Db)
    (h : FactorTablesKept .codes db db') :
    FactorTablesKept .codes db (hashes.foldl (Factors.insertCode userId) db') := by
  induction hashes generalizing db' with
  | nil => exact h
  | cons hash hashes ih =>
    apply ih
    exact ⟨h.resets, fun hne => absurd rfl hne, h.credentials, h.states⟩

theorem FactorStmt.tables (stmt : FactorStmt β) (choice : Choice) (db : Db) :
    FactorTablesKept stmt.table db (stmt.exec choice db).2 := by
  cases stmt <;> refine attempt_state (P := FactorTablesKept _ db) (.refl _ db) ?_
  case saveState userId kind state expiresAt =>
    simp only [Factors.saveState]
    split
    · exact ⟨fun _ => rfl, fun _ => rfl, fun _ => rfl, fun hne => absurd rfl hne⟩
    · exact .refl _ db
  case insertCredential userId credentialId passkey =>
    simp only [Factors.insertCredential]
    split
    · exact .refl _ db
    · split
      · exact ⟨fun _ => rfl, fun _ => rfl, fun hne => absurd rfl hne, fun _ => rfl⟩
      · exact .refl _ db
  case replaceRecoveryCodes userId hashes =>
    apply insertCodes_tables
    exact ⟨fun _ => rfl, fun hne => absurd rfl hne, fun _ => rfl, fun _ => rfl⟩
  case createReset userId tokenHash expiresAt =>
    simp only [Factors.createReset]
    split
    · exact .refl _ db
    · split
      · exact ⟨fun hne => absurd rfl hne, fun _ => rfl, fun _ => rfl, fun _ => rfl⟩
      · exact .refl _ db
  all_goals
    constructor
    all_goals
      intro hne
      first
      | rfl
      | exact absurd rfl hne

/-- The tables of the single sign-on store. -/
inductive OidcTable where
  | providers
  | identities
  | authRequests
  | deviceRequests
  deriving DecidableEq

/-- The one table a statement of the single sign-on store works on. -/
def OidcStmt.table {β : Type} : OidcStmt β → OidcTable
  | .getProvider _ => .providers
  | .getBySlug _ => .providers
  | .createProvider _ => .providers
  | .updateProvider _ _ => .providers
  | .findBySubject _ _ => .identities
  | .link _ _ _ _ _ => .identities
  | .stampIdentityLogin _ => .identities
  | .countForUser _ => .identities
  | .unlink _ _ => .identities
  | .purgeAuthRequests => .authRequests
  | .purgeDeviceRequests => .deviceRequests
  | .insertAuthRequest _ => .authRequests
  | .takeAuthRequest _ => .authRequests
  | .insertDeviceRequest _ => .deviceRequests
  | .findDeviceRequest _ => .deviceRequests
  | .stampDevicePoll _ => .deviceRequests
  | .consumeDeviceRequest _ => .deviceRequests
  | .deleteDeviceRequest _ => .deviceRequests

/-- The tables a statement of the single sign-on store does not work on are as before. -/
structure OidcTablesKept (table : OidcTable) (db db' : Db) : Prop where
  providers : table ≠ .providers → db'.oidcProviders = db.oidcProviders
  identities : table ≠ .identities → db'.oidcIdentities = db.oidcIdentities
  authRequests : table ≠ .authRequests → db'.oidcAuthRequests = db.oidcAuthRequests
  deviceRequests : table ≠ .deviceRequests → db'.oidcDeviceRequests = db.oidcDeviceRequests

theorem OidcTablesKept.refl (table : OidcTable) (db : Db) : OidcTablesKept table db db :=
  ⟨fun _ => rfl, fun _ => rfl, fun _ => rfl, fun _ => rfl⟩

theorem OidcStmt.tables (stmt : OidcStmt β) (choice : Choice) (db : Db) :
    OidcTablesKept stmt.table db (stmt.exec choice db).2 := by
  cases stmt <;>
    first
    | refine attempt_state (P := OidcTablesKept _ db) (.refl _ db) ?_
    | refine bestEffort_state (P := OidcTablesKept _ db) (.refl _ db) ?_
  case createProvider upd =>
    simp only [Oidc.createProvider]
    split
    · exact .refl _ db
    · exact ⟨fun hne => absurd rfl hne, fun _ => rfl, fun _ => rfl, fun _ => rfl⟩
  case updateProvider id upd =>
    simp only [Oidc.updateProvider]
    split
    · exact .refl _ db
    · split
      · exact ⟨fun hne => absurd rfl hne, fun _ => rfl, fun _ => rfl, fun _ => rfl⟩
      · exact .refl _ db
  case link userId providerId issuer subject emailAtLink =>
    simp only [Oidc.link]
    split
    · exact .refl _ db
    · split
      · exact ⟨fun _ => rfl, fun hne => absurd rfl hne, fun _ => rfl, fun _ => rfl⟩
      · exact .refl _ db
  case insertAuthRequest new =>
    simp only [Oidc.insertAuthRequest]
    split
    · exact .refl _ db
    · split
      · exact ⟨fun _ => rfl, fun _ => rfl, fun hne => absurd rfl hne, fun _ => rfl⟩
      · exact .refl _ db
  case insertDeviceRequest new =>
    simp only [Oidc.insertDeviceRequest]
    split
    · exact .refl _ db
    · split
      · exact ⟨fun _ => rfl, fun _ => rfl, fun _ => rfl, fun hne => absurd rfl hne⟩
      · exact .refl _ db
  all_goals
    constructor
    all_goals
      intro hne
      first
      | rfl
      | exact absurd rfl hne

variable {stmt : Stmt β}

/-- The second-factor table a statement works on. -/
def Stmt.factorTable {β : Type} : Stmt β → Option FactorTable
  | .factor stmt => some stmt.table
  | _ => none

theorem Stmt.codes_unchanged (hstmt : stmt.factorTable ≠ some .codes) (choice : Choice) (db : Db) :
    (stmt.exec choice db).2.recoveryCodes = db.recoveryCodes := by
  cases stmt with
  | factor stmt =>
    exact (stmt.tables choice (db.advance choice.elapse)).codes fun heq =>
      hstmt (congrArg some heq)
  | _ => exact ((Stmt.unchanged _ choice db).factors rfl).2.1

theorem Stmt.states_unchanged (hstmt : stmt.factorTable ≠ some .states) (choice : Choice)
    (db : Db) : (stmt.exec choice db).2.webauthnStates = db.webauthnStates := by
  cases stmt with
  | factor stmt =>
    exact (stmt.tables choice (db.advance choice.elapse)).states fun heq =>
      hstmt (congrArg some heq)
  | _ => exact ((Stmt.unchanged _ choice db).factors rfl).2.2.2

/-- The single sign-on table a statement works on. -/
def Stmt.oidcTable {β : Type} : Stmt β → Option OidcTable
  | .oidc stmt => some stmt.table
  | _ => none

theorem Stmt.authRequests_unchanged (hstmt : stmt.oidcTable ≠ some .authRequests)
    (choice : Choice) (db : Db) :
    (stmt.exec choice db).2.oidcAuthRequests = db.oidcAuthRequests := by
  cases stmt with
  | oidc stmt =>
    exact (stmt.tables choice (db.advance choice.elapse)).authRequests fun heq =>
      hstmt (congrArg some heq)
  | _ => exact ((Stmt.unchanged _ choice db).oidc rfl).2.2.1

theorem Stmt.deviceRequests_unchanged (hstmt : stmt.oidcTable ≠ some .deviceRequests)
    (choice : Choice) (db : Db) :
    (stmt.exec choice db).2.oidcDeviceRequests = db.oidcDeviceRequests := by
  cases stmt with
  | oidc stmt =>
    exact (stmt.tables choice (db.advance choice.elapse)).deviceRequests fun heq =>
      hstmt (congrArg some heq)
  | _ => exact ((Stmt.unchanged _ choice db).oidc rfl).2.2.2

end IntelliPilot.Auth
