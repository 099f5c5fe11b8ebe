import IntelliPilot.Auth.UserStore

/-! # Second factors and reset tokens

The statements of `webauthn.rs`, `recovery.rs` and `password_reset.rs`.
-/

namespace IntelliPilot.Auth

open Rows

inductive FactorStmt : Type → Type where
  | saveState (userId : Option Uuid) (kind : CeremonyKind) (state : String) (expiresAt : Time) :
      FactorStmt (Except DbError Uuid)
  | takeState (id : Uuid) (kind : CeremonyKind) :
      FactorStmt (Except DbError (Option (Option Uuid × String)))
  | insertCredential (userId : Uuid) (credentialId : Bytes) (passkey : String) :
      FactorStmt (Except DbError Uuid)
  | listCredentials (userId : Uuid) : FactorStmt (Except DbError (List WebauthnCredential))
  | deleteCredential (userId id : Uuid) : FactorStmt (Except DbError Bool)
  | deleteCredentials (userId : Uuid) : FactorStmt (Except DbError Nat)
  | updateAfterAuth (credentialId : Bytes) (passkey : String) (signCount : Nat) :
      FactorStmt (Except DbError Unit)
  | replaceRecoveryCodes (userId : Uuid) (hashes : List String) : FactorStmt (Except DbError Unit)
  | listUnusedCodes (userId : Uuid) : FactorStmt (Except DbError (List RecoveryCode))
  | markCodeUsed (id : Uuid) : FactorStmt (Except DbError Bool)
  | deleteRecoveryCodes (userId : Uuid) : FactorStmt (Except DbError Nat)
  | createReset (userId : Uuid) (tokenHash : String) (expiresAt : Time) :
      FactorStmt (Except DbError Unit)
  | consumeReset (tokenHash : String) : FactorStmt (Except DbError (Option Uuid))

namespace Factors

/-- `save_state`. -/
def saveState (userId : Option Uuid) (kind : CeremonyKind) (state : String) (expiresAt : Time)
    (db : Db) : Except DbError Uuid × Db :=
  if userId.all fun id => db.users.any (·.id == id) then
    (.ok db.nextId, { db with
      webauthnStates := db.webauthnStates ++ [⟨db.nextId, userId, kind, state, expiresAt⟩]
      nextId := db.nextId + 1 })
  else (.error .foreignKeyViolation, db)

/-- The row `take_state` fetches and deletes. -/
def takenState (id : Uuid) (kind : CeremonyKind) (now : Time) (row : WebauthnState) : Bool :=
  row.id == id && row.kind == kind && decide (now < row.expiresAt)

/-- `take_state`: a ceremony state is handed out once. -/
def takeState (id : Uuid) (kind : CeremonyKind) (db : Db) :
    Option (Option Uuid × String) × Db :=
  ((db.webauthnStates.find? (takenState id kind db.now)).map fun row => (row.userId, row.state),
   { db with webauthnStates := deleteWhere (takenState id kind db.now) db.webauthnStates })

/-- `insert_credential`; `credential_id` is unique. -/
def insertCredential (userId : Uuid) (credentialId : Bytes) (passkey : String) (db : Db) :
    Except DbError Uuid × Db :=
  if db.webauthnCredentials.any (·.credentialId == credentialId) then
    (.error .uniqueViolation, db)
  else if db.users.any (·.id == userId) then
    (.ok db.nextId, { db with
      webauthnCredentials := db.webauthnCredentials ++
        [⟨db.nextId, userId, credentialId, passkey, 0⟩]
      nextId := db.nextId + 1 })
  else (.error .foreignKeyViolation, db)

/-- Drop the credentials matching `p`. -/
def dropCredentials (p : WebauthnCredential → Bool) (db : Db) : Db :=
  { db with webauthnCredentials := deleteWhere p db.webauthnCredentials }

def updateAfterAuth (credentialId : Bytes) (passkey : String) (signCount : Nat) (db : Db) : Db :=
  { db with
    webauthnCredentials := updateWhere (·.credentialId == credentialId)
      (fun row => { row with passkey := passkey, signCount := signCount })
      db.webauthnCredentials }

/-- Drop the recovery codes matching `p`. -/
def dropCodes (p : RecoveryCode → Bool) (db : Db) : Db :=
  { db with recoveryCodes := deleteWhere p db.recoveryCodes }

/-- One insert of `replace_all`. -/
def insertCode (userId : Uuid) (db : Db) (hash : String) : Db :=
  { db with
    recoveryCodes := db.recoveryCodes ++ [⟨db.nextId, userId, hash, none⟩]
    nextId := db.nextId + 1 }

/-- `replace_all`, one transaction. -/
def replaceRecoveryCodes (userId : Uuid) (hashes : List String) (db : Db) : Db :=
  hashes.foldl (insertCode userId) (dropCodes (·.userId == userId) db)

/-- The rows `mark_used` changes. -/
def unusedCode (id : Uuid) (code : RecoveryCode) : Bool := code.id == id && code.usedAt.isNone

/-- `mark_used`: whether this call performed the transition. -/
def markCodeUsed (id : Uuid) (db : Db) : Bool × Db :=
  (db.recoveryCodes.any (unusedCode id),
   { db with
      recoveryCodes := updateWhere (unusedCode id)
        (fun code => { code with usedAt := some db.now }) db.recoveryCodes })

/-- `password_reset::create`; `token_hash` is unique. -/
def createReset (userId : Uuid) (tokenHash : String) (expiresAt : Time) (db : Db) :
    Except DbError Unit × Db :=
  if db.resetTokens.any (·.tokenHash == tokenHash) then (.error .uniqueViolation, db)
  else if db.users.any (·.id == userId) then
    (.ok (), { db with
      resetTokens := db.resetTokens ++ [⟨db.nextId, userId, tokenHash, expiresAt, none⟩]
      nextId := db.nextId + 1 })
  else (.error .foreignKeyViolation, db)

/-- The row `consume` accepts. -/
def validReset (tokenHash : String) (now : Time) (token : PasswordResetToken) : Bool :=
  token.tokenHash == tokenHash && token.usedAt.isNone && decide (now < token.expiresAt)

/-- `password_reset::consume`: the owner of a valid token, which is then used. -/
def consumeReset (tokenHash : String) (db : Db) : Option Uuid × Db :=
  ((db.resetTokens.find? (validReset tokenHash db.now)).map (·.userId),
   { db with
      resetTokens := updateWhere (validReset tokenHash db.now)
        (fun token => { token with usedAt := some db.now }) db.resetTokens })

end Factors

/-- The effect of the second-factor and reset statements. -/
def FactorStmt.exec {β : Type} (stmt : FactorStmt β) (choice : Choice) (db : Db) : β × Db :=
  match stmt with
  | .saveState userId kind state expiresAt =>
      attempt choice db (Factors.saveState userId kind state expiresAt)
  | .takeState id kind => attempt choice db fun db =>
      (.ok (Factors.takeState id kind db).1, (Factors.takeState id kind db).2)
  | .insertCredential userId credentialId passkey =>
      attempt choice db (Factors.insertCredential userId credentialId passkey)
  | .listCredentials userId => attempt choice db fun db =>
      (.ok (db.webauthnCredentials.filter (·.userId == userId)), db)
  | .deleteCredential userId id => attempt choice db fun db =>
      (.ok (db.webauthnCredentials.any fun row => row.id == id && row.userId == userId),
       Factors.dropCredentials (fun row => row.id == id && row.userId == userId) db)
  | .deleteCredentials userId => attempt choice db fun db =>
      (.ok (db.webauthnCredentials.countP (·.userId == userId)),
       Factors.dropCredentials (·.userId == userId) db)
  | .updateAfterAuth credentialId passkey signCount => attempt choice db fun db =>
      (.ok (), Factors.updateAfterAuth credentialId passkey signCount db)
  | .replaceRecoveryCodes userId hashes => attempt choice db fun db =>
      (.ok (), Factors.replaceRecoveryCodes userId hashes db)
  | .listUnusedCodes userId => attempt choice db fun db =>
      (.ok (db.recoveryCodes.filter fun code => code.userId == userId && code.usedAt.isNone), db)
  | .markCodeUsed id => attempt choice db fun db =>
      (.ok (Factors.markCodeUsed id db).1, (Factors.markCodeUsed id db).2)
  | .deleteRecoveryCodes userId => attempt choice db fun db =>
      (.ok (db.recoveryCodes.countP (·.userId == userId)),
       Factors.dropCodes (·.userId == userId) db)
  | .createReset userId tokenHash expiresAt =>
      attempt choice db (Factors.createReset userId tokenHash expiresAt)
  | .consumeReset tokenHash => attempt choice db fun db =>
      (.ok (Factors.consumeReset tokenHash db).1, (Factors.consumeReset tokenHash db).2)

end IntelliPilot.Auth
