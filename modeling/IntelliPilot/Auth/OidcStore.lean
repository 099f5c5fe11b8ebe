import IntelliPilot.Auth.FactorStore

/-! # Single sign-on statements

The statements of `oidc_providers.rs`, `oidc_identities.rs` and
`oidc_requests.rs`.
-/

namespace IntelliPilot.Auth

open Rows

/-- `OidcProviderUpdate`, the fields the flows read. -/
structure OidcProviderUpdate where
  slug : String
  enabled : Bool
  issuerUrl : String
  superadminGroup : String
  allowJitProvisioning : Bool
  requireEmailVerified : Bool
  deviceFlowEnabled : Bool
  deriving DecidableEq, Repr

/-- `NewDeviceRequest`, the fields the flows read. -/
structure NewDeviceRequest where
  providerId : Uuid
  deviceCode : String
  intervalSecs : Nat
  pollTokenHash : String
  linkUserId : Option Uuid
  expiresAt : Time
  deriving DecidableEq, Repr

inductive OidcStmt : Type → Type where
  | getProvider (id : Uuid) : OidcStmt (Except DbError (Option OidcProvider))
  | getBySlug (slug : String) : OidcStmt (Except DbError (Option OidcProvider))
  | createProvider (upd : OidcProviderUpdate) : OidcStmt (Except DbError OidcProvider)
  | updateProvider (id : Uuid) (upd : OidcProviderUpdate) :
      OidcStmt (Except DbError (Option OidcProvider))
  | findBySubject (providerId : Uuid) (subject : String) :
      OidcStmt (Except DbError (Option OidcIdentity))
  | link (userId providerId : Uuid) (issuer subject emailAtLink : String) :
      OidcStmt (Except DbError OidcIdentity)
  | stampIdentityLogin (id : Uuid) : OidcStmt Unit
  | countForUser (userId : Uuid) : OidcStmt (Except DbError Nat)
  | unlink (userId id : Uuid) : OidcStmt (Except DbError Bool)
  | purgeAuthRequests : OidcStmt Unit
  | purgeDeviceRequests : OidcStmt Unit
  | insertAuthRequest (new : OidcAuthRequest) : OidcStmt (Except DbError Unit)
  | takeAuthRequest (state : String) : OidcStmt (Except DbError (Option OidcAuthRequest))
  | insertDeviceRequest (new : NewDeviceRequest) : OidcStmt (Except DbError OidcDeviceRequest)
  | findDeviceRequest (pollTokenHash : String) :
      OidcStmt (Except DbError (Option OidcDeviceRequest))
  | stampDevicePoll (id : Uuid) : OidcStmt Unit
  | consumeDeviceRequest (id : Uuid) : OidcStmt (Except DbError Bool)
  | deleteDeviceRequest (id : Uuid) : OidcStmt Unit

namespace Oidc

/-- The row a provider edit leaves behind. -/
def OidcProviderUpdate.row (upd : OidcProviderUpdate) (id : Uuid) : OidcProvider where
  id := id
  slug := upd.slug
  enabled := upd.enabled
  issuerUrl := upd.issuerUrl
  superadminGroup := upd.superadminGroup
  allowJitProvisioning := upd.allowJitProvisioning
  requireEmailVerified := upd.requireEmailVerified
  deviceFlowEnabled := upd.deviceFlowEnabled

/-- `oidc_providers::create`; `slug` is unique. -/
def createProvider (upd : OidcProviderUpdate) (db : Db) : Except DbError OidcProvider × Db :=
  if db.oidcProviders.any (·.slug == upd.slug) then (.error .uniqueViolation, db)
  else
    (.ok (OidcProviderUpdate.row upd db.nextId), { db with
      oidcProviders := db.oidcProviders ++ [OidcProviderUpdate.row upd db.nextId]
      nextId := db.nextId + 1 })

/-- `oidc_providers::update`: every mutable column is replaced. -/
def updateProvider (id : Uuid) (upd : OidcProviderUpdate) (db : Db) :
    Except DbError (Option OidcProvider) × Db :=
  if db.oidcProviders.any (fun row => row.slug == upd.slug && row.id != id) then
    (.error .uniqueViolation, db)
  else if db.oidcProviders.any (·.id == id) then
    (.ok (some (OidcProviderUpdate.row upd id)), { db with
      oidcProviders := updateWhere (·.id == id) (fun _ => OidcProviderUpdate.row upd id)
        db.oidcProviders })
  else (.ok none, db)

/-- `oidc_identities::link`; `(provider_id, subject)` is unique. -/
def link (userId providerId : Uuid) (issuer subject emailAtLink : String) (db : Db) :
    Except DbError OidcIdentity × Db :=
  if db.oidcIdentities.any (fun row => row.providerId == providerId && row.subject == subject) then
    (.error .uniqueViolation, db)
  else if db.users.any (·.id == userId) && db.oidcProviders.any (·.id == providerId) then
    (.ok ⟨db.nextId, userId, providerId, issuer, subject, emailAtLink⟩, { db with
      oidcIdentities := db.oidcIdentities ++
        [⟨db.nextId, userId, providerId, issuer, subject, emailAtLink⟩]
      nextId := db.nextId + 1 })
  else (.error .foreignKeyViolation, db)

/-- The `INSERT` of `create_auth_request`; `state` is the primary key. -/
def insertAuthRequest (new : OidcAuthRequest) (db : Db) : Except DbError Unit × Db :=
  if db.oidcAuthRequests.any (·.state == new.state) then (.error .uniqueViolation, db)
  else if db.oidcProviders.any (·.id == new.providerId) &&
      new.linkUserId.all (fun id => db.users.any (·.id == id)) then
    (.ok (), { db with oidcAuthRequests := db.oidcAuthRequests ++ [new] })
  else (.error .foreignKeyViolation, db)

/-- `take_auth_request`: the row is deleted, and answered only if unexpired. -/
def takeAuthRequest (state : String) (db : Db) : Option OidcAuthRequest × Db :=
  ((db.oidcAuthRequests.find? (·.state == state)).filter fun row => decide (db.now < row.expiresAt),
   { db with oidcAuthRequests := deleteWhere (·.state == state) db.oidcAuthRequests })

/-- The row `create_device_request` stores. -/
def NewDeviceRequest.row (new : NewDeviceRequest) (id : Uuid) : OidcDeviceRequest where
  id := id
  providerId := new.providerId
  deviceCode := new.deviceCode
  intervalSecs := new.intervalSecs
  pollTokenHash := new.pollTokenHash
  lastPolledAt := none
  linkUserId := new.linkUserId
  expiresAt := new.expiresAt
  consumedAt := none

/-- The `INSERT` of `create_device_request`; `poll_token_hash` is unique. -/
def insertDeviceRequest (new : NewDeviceRequest) (db : Db) :
    Except DbError OidcDeviceRequest × Db :=
  if db.oidcDeviceRequests.any (·.pollTokenHash == new.pollTokenHash) then
    (.error .uniqueViolation, db)
  else if db.oidcProviders.any (·.id == new.providerId) &&
      new.linkUserId.all (fun id => db.users.any (·.id == id)) then
    (.ok (NewDeviceRequest.row new db.nextId), { db with
      oidcDeviceRequests := db.oidcDeviceRequests ++ [NewDeviceRequest.row new db.nextId]
      nextId := db.nextId + 1 })
  else (.error .foreignKeyViolation, db)

/-- `find_device_request`: unconsumed and unexpired. -/
def findDeviceRequest (pollTokenHash : String) (db : Db) : Option OidcDeviceRequest :=
  db.oidcDeviceRequests.find? fun row =>
    row.pollTokenHash == pollTokenHash && row.consumedAt.isNone && decide (db.now < row.expiresAt)

/-- The row `consume_device_request` changes. -/
def unconsumed (id : Uuid) (row : OidcDeviceRequest) : Bool :=
  row.id == id && row.consumedAt.isNone

/-- `consume_device_request`: whether this call performed the transition. -/
def consumeDeviceRequest (id : Uuid) (db : Db) : Bool × Db :=
  (db.oidcDeviceRequests.any (unconsumed id),
   { db with
      oidcDeviceRequests := updateWhere (unconsumed id)
        (fun row => { row with consumedAt := some db.now }) db.oidcDeviceRequests })

end Oidc

/-- The effect of the single sign-on statements. -/
def OidcStmt.exec {β : Type} (stmt : OidcStmt β) (choice : Choice) (db : Db) : β × Db :=
  match stmt with
  | .getProvider id => attempt choice db fun db =>
      (.ok (db.oidcProviders.find? (·.id == id)), db)
  | .getBySlug slug => attempt choice db fun db =>
      (.ok (db.oidcProviders.find? (·.slug == slug)), db)
  | .createProvider upd => attempt choice db (Oidc.createProvider upd)
  | .updateProvider id upd => attempt choice db (Oidc.updateProvider id upd)
  | .findBySubject providerId subject => attempt choice db fun db =>
      (.ok (db.oidcIdentities.find? fun row =>
        row.providerId == providerId && row.subject == subject), db)
  | .link userId providerId issuer subject emailAtLink =>
      attempt choice db (Oidc.link userId providerId issuer subject emailAtLink)
  -- the only column it writes is read by nothing modelled here
  | .stampIdentityLogin _ => bestEffort choice db fun db => db
  | .countForUser userId => attempt choice db fun db =>
      (.ok (db.oidcIdentities.countP (·.userId == userId)), db)
  | .unlink userId id => attempt choice db fun db =>
      (.ok (db.oidcIdentities.any fun row => row.id == id && row.userId == userId),
       { db with oidcIdentities :=
          deleteWhere (fun row => row.id == id && row.userId == userId) db.oidcIdentities })
  | .purgeAuthRequests => bestEffort choice db fun db =>
      { db with oidcAuthRequests :=
          deleteWhere (fun row => decide (row.expiresAt < db.now)) db.oidcAuthRequests }
  | .purgeDeviceRequests => bestEffort choice db fun db =>
      { db with oidcDeviceRequests :=
          deleteWhere (fun row => decide (row.expiresAt < db.now)) db.oidcDeviceRequests }
  | .insertAuthRequest new => attempt choice db (Oidc.insertAuthRequest new)
  | .takeAuthRequest state => attempt choice db fun db =>
      (.ok (Oidc.takeAuthRequest state db).1, (Oidc.takeAuthRequest state db).2)
  | .insertDeviceRequest new => attempt choice db (Oidc.insertDeviceRequest new)
  | .findDeviceRequest pollTokenHash => attempt choice db fun db =>
      (.ok (Oidc.findDeviceRequest pollTokenHash db), db)
  | .stampDevicePoll id => bestEffort choice db fun db =>
      { db with
        oidcDeviceRequests := updateWhere (·.id == id)
          (fun row => { row with lastPolledAt := some db.now }) db.oidcDeviceRequests }
  | .consumeDeviceRequest id => attempt choice db fun db =>
      (.ok (Oidc.consumeDeviceRequest id db).1, (Oidc.consumeDeviceRequest id db).2)
  | .deleteDeviceRequest id => bestEffort choice db fun db =>
      { db with oidcDeviceRequests := deleteWhere (·.id == id) db.oidcDeviceRequests }

end IntelliPilot.Auth
