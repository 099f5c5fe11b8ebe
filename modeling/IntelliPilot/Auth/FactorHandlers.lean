import IntelliPilot.Auth.SessionHandlers

/-! # Second factors and passkeys

The handlers of `mfa.rs` and `passkeys.rs`. Where the source takes an
authenticated user, the handler takes the account the request acts for.
-/

namespace IntelliPilot.Auth

open Statement

def invalidBody : Response := problem 400 "invalid_body" "Invalid Request Body" none

def validationFailed : Response := problem 422 "validation_failed" "Validation failed" none

/-! ## TOTP -/

/-- The refusal of `require_pepper`. -/
def totpUnavailable : Response :=
  problem 503 "totp_unavailable" "TOTP unavailable"
    (some "server is not configured with a pepper for secret encryption")

/-- `totp_start`. -/
def totpStart (env : Env) (userId : Uuid) : Handler Response := do
  match env.pepper with
  | none => return totpUnavailable
  | some pepper =>
    match ← platform .getPool with
    | .error _ => return internal
    | .ok _ =>
      match ← user (.findById userId) with
      | .ok (some account) =>
        let secret ← platform .randomBytes
        let nonce ← platform .random
        match env.encrypt pepper secret nonce with
        | none => return internal
        | some enc =>
          match ← user (.setTotpSecret userId enc) with
          | .error _ => return internal
          | .ok _ =>
            match env.provisionTotp secret account.email with
            | none => return internal
            | some (uri, qr) => return ⟨200, .keep, .totpStarted secret uri qr⟩
      | _ => return internal

structure TotpConfirmRequest where
  code : String
  deriving DecidableEq, Repr

/-- `length(min = 6, max = 10)`, `^[0-9]+$`. -/
def TotpConfirmRequest.valid (req : TotpConfirmRequest) : Bool :=
  lengthBetween 6 10 req.code && req.code.toList.all fun c => '0' ≤ c && c ≤ '9'

/-- `recovery::normalize`. -/
def normalizeCode (env : Env) (code : String) : String :=
  String.ofList ((env.toUppercase (trim code)).toList.filter (· != ' '))

/-- `recovery::generate_set`: plaintexts and hashes. -/
def generateSet (env : Env) : Nat → Handler (Option (List (String × String)))
  | 0 => return some []
  | n + 1 => do
    let plaintext ← platform .random
    let salt ← platform .random
    match env.hashPassword (normalizeCode env plaintext) env.pepper salt with
    | none => return none
    | some hash =>
      let rest ← generateSet env n
      return rest.map fun codes => (plaintext, hash) :: codes

/-- `RECOVERY_CODE_COUNT`. -/
def recoveryCodeCount : Nat := 10

/-- `generate_and_store_recovery_codes`. -/
def generateAndStoreRecoveryCodes (env : Env) (userId : Uuid) :
    Handler (Except Response (List String)) := do
  match ← generateSet env recoveryCodeCount with
  | none => return .error internal
  | some codes =>
    match ← factor (.replaceRecoveryCodes userId (codes.map Prod.snd)) with
    | .error _ => return .error internal
    | .ok _ => return .ok (codes.map Prod.fst)

/-- The answer with fresh recovery codes, under the given audit action. -/
def answerRecoveryCodes (env : Env) (userId : Uuid) (action : String) : Handler Response := do
  match ← generateAndStoreRecoveryCodes env userId with
  | .error response => return response
  | .ok codes =>
    platform (.audit (some userId) action)
    return ⟨200, .keep, .recoveryCodes codes⟩

/-- `totp_confirm`. -/
def totpConfirm (env : Env) (userId : Uuid) (body : Except JsonRejection TotpConfirmRequest) :
    Handler Response := do
  match body with
  | .error _ => return invalidBody
  | .ok req =>
    if !req.valid then return validationFailed
    else
      match env.pepper with
      | none => return totpUnavailable
      | some pepper =>
        match ← platform .getPool with
        | .error _ => return internal
        | .ok _ =>
          match ← user (.getTotp userId) with
          | .ok (some (enc, _)) =>
            match env.decrypt pepper enc with
            | none => return internal
            | some secret =>
              let now ← platform .now
              if !env.verifyTotp secret req.code now then
                return problem 422 "invalid_code" "Invalid code" none
              else
                match ← user (.confirmTotp userId) with
                | .error _ => return internal
                | .ok _ => answerRecoveryCodes env userId "totp_enabled"
          | _ => return problem 409 "totp_not_started" "TOTP not started" none

/-- `totp_disable`. -/
def totpDisable (userId : Uuid) : Handler Response := do
  match ← platform .getPool with
  | .error _ => return internal
  | .ok _ =>
    match ← user (.disableTotp userId) with
    | .error _ => return internal
    | .ok _ =>
      platform (.audit (some userId) "totp_disabled")
      return noContent

/-- `recovery_regenerate`. -/
def recoveryRegenerate (env : Env) (userId : Uuid) : Handler Response := do
  match ← platform .getPool with
  | .error _ => return internal
  | .ok _ =>
    if (← user (.hasActive2fa userId)).toOption.getD false then
      answerRecoveryCodes env userId "recovery_codes_regenerated"
    else return problem 409 "no_2fa" "No active second factor" none

/-! ## The challenge of a login -/

/-- What a request may send as a sealed token: text of a length the request
type refuses, text the server's key does not open, or a token it sealed. -/
inductive PresentedToken where
  | badLength
  | foreign
  | genuine (token : SealedToken)
  deriving DecidableEq, Repr

/-- The token's owner, if it opens, is of the expected type and has not expired. -/
def PresentedToken.verify (expected : TokenType) (now : Time) : PresentedToken → Option Uuid
  | .genuine token => verifyTyped expected now token
  | _ => none

structure TwoFactorVerifyRequest where
  mfaToken : PresentedToken
  method : String
  code : String
  deriving DecidableEq, Repr

def TwoFactorVerifyRequest.valid (req : TwoFactorVerifyRequest) : Bool :=
  req.mfaToken != .badLength && lengthBetween 1 16 req.method && lengthBetween 1 64 req.code

/-- `verify_totp_factor`. -/
def verifyTotpFactor (env : Env) (userId : Uuid) (code : String) : Handler Bool := do
  match env.pepper with
  | none => return false
  | some pepper =>
    match ← user (.getTotp userId) with
    | .ok (some (enc, true)) =>
      match env.decrypt pepper enc with
      | none => return false
      | some secret =>
        let now ← platform .now
        return env.verifyTotp secret code now
    | _ => return false

/-- `recovery::verify`. -/
def verifyRecovery (env : Env) (code hash : String) : Bool :=
  (env.verifyPassword (normalizeCode env code) hash env.pepper).getD false

/-- `verify_recovery_factor`: the first unused code that matches is consumed. -/
def verifyRecoveryFactor (env : Env) (userId : Uuid) (code : String) : Handler Bool := do
  match ← factor (.listUnusedCodes userId) with
  | .error _ => return false
  | .ok unused =>
    match unused.find? fun row => verifyRecovery env code row.codeHash with
    | none => return false
    | some row => return (← factor (.markCodeUsed row.id)).toOption.getD false

/-- The second factor `two_factor_verify` dispatches to. -/
def verifyFactor (env : Env) (userId : Uuid) (method code : String) : Handler Bool :=
  if method = "totp" then verifyTotpFactor env userId code
  else if method = "recovery" then verifyRecoveryFactor env userId code
  else return false

/-- `two_factor_verify`. -/
def twoFactorVerify (env : Env) (headers : Headers)
    (body : Except JsonRejection TwoFactorVerifyRequest) : Handler Response := do
  match body with
  | .error _ => return invalidBody
  | .ok req =>
    if !req.valid then return validationFailed
    else
      let now ← platform .now
      match req.mfaToken.verify .mfa now with
      | none => return unauthorized
      | some userId =>
        match ← platform .getPool with
        | .error _ => return internal
        | .ok _ =>
          if ← verifyFactor env userId req.method req.code then
            issueSession env headers userId "login_2fa_success"
          else
            platform (.audit (some userId) "login_2fa_failure")
            return unauthorized

/-! ## Passkeys -/

def badRequest (detail : String) : Response :=
  problem 400 "invalid_request" "Bad Request" (some detail)

/-- `STATE_TTL_SECS`. -/
def stateTtl : Time := seconds (5 * 60)

/-- The end both ceremonies' first steps share: the state is stored and handed out. -/
def startCeremony (userId : Uuid) (kind : CeremonyKind) (started : Option (String × String)) :
    Handler Response := do
  match started with
  | none => return internal
  | some (options, state) =>
    let now ← platform .now
    match ← factor (.saveState (some userId) kind state (now + stateTtl)) with
    | .error _ => return internal
    | .ok stateId => return ⟨200, .keep, .ceremony stateId options⟩

/-- `register_start`. -/
def registerStart (env : Env) (userId : Uuid) : Handler Response := do
  match ← platform .getPool with
  | .error _ => return internal
  | .ok _ =>
    match ← user (.findById userId) with
    | .ok (some account) =>
      let display := if account.fullName.isEmpty then account.username else account.fullName
      let challenge ← platform .random
      startCeremony userId .register
        (env.startRegistration userId account.username display challenge)
    | _ => return internal

structure PasskeyFinishRequest where
  stateId : Uuid
  credential : String
  deriving DecidableEq, Repr

/-- `register_finish`. -/
def registerFinish (env : Env) (userId : Uuid)
    (body : Except JsonRejection PasskeyFinishRequest) : Handler Response := do
  match body with
  | .error _ => return badRequest "invalid body"
  | .ok req =>
    match ← platform .getPool with
    | .error _ => return internal
    | .ok _ =>
      match ← factor (.takeState req.stateId .register) with
      | .ok (some (owner, state)) =>
        if owner ≠ some userId then return unauthorized
        else
          match env.finishRegistration req.credential state with
          | .error .malformed => return badRequest "malformed credential"
          | .error .rejected => return badRequest "credential verification failed"
          | .ok (credentialId, passkey) =>
            match ← factor (.insertCredential userId credentialId passkey) with
            | .error _ => return internal
            | .ok _ =>
              platform (.audit (some userId) "passkey_registered")
              return ⟨201, .keep, .empty⟩
      | _ => return badRequest "unknown or expired ceremony state"

/-- `delete`, of a passkey of one's own. -/
def deletePasskey (userId id : Uuid) : Handler Response := do
  match ← platform .getPool with
  | .error _ => return internal
  | .ok _ =>
    match ← factor (.deleteCredential userId id) with
    | .error _ => return internal
    | .ok false => return notFound
    | .ok true =>
      platform (.audit (some userId) "passkey_deleted")
      return noContent

/-- `parse_passkeys`: every stored passkey must parse. -/
def parsePasskeys (env : Env) (creds : List WebauthnCredential) : Option (List String) :=
  creds.mapM fun cred => (env.parsePasskey cred.passkey).map fun _ => cred.passkey

/-- `authenticate_start`. -/
def authenticateStart (env : Env) (body : Except JsonRejection String) : Handler Response := do
  match body with
  | .error _ => return badRequest "invalid body"
  | .ok email =>
    if !(env.validEmail email && lengthBetween 0 254 email) then
      return badRequest "invalid email"
    else
      match ← platform .getPool with
      | .error _ => return internal
      | .ok _ =>
        match ← user (.findByEmail (env.normalizeEmail email)) with
        | .ok (some found) =>
          match ← factor (.listCredentials found.id) with
          | .error _ => return internal
          | .ok creds =>
            match parsePasskeys env creds with
            | none | some [] => return unauthorized
            | some passkeys =>
              let challenge ← platform .random
              startCeremony found.id .authenticate (env.startAuthentication passkeys challenge)
        | _ => return unauthorized

/-- `update_stored_passkey`; its failures are only logged. -/
def updateStoredPasskey (env : Env) (userId : Uuid) (result : AuthenticationResult) :
    Handler Unit := do
  match ← factor (.listCredentials userId) with
  | .error _ => return ()
  | .ok creds =>
    match creds.find? fun cred => env.parsePasskey cred.passkey == some result.credId with
    | none => return ()
    | some cred =>
      match env.updateCredential cred.passkey result with
      | none => return ()
      | some updated =>
        let _ ← factor (.updateAfterAuth cred.credentialId updated result.counter)
        return ()

/-- `authenticate_finish`. -/
def authenticateFinish (env : Env) (headers : Headers)
    (body : Except JsonRejection PasskeyFinishRequest) : Handler Response := do
  match body with
  | .error _ => return badRequest "invalid body"
  | .ok req =>
    match ← platform .getPool with
    | .error _ => return internal
    | .ok _ =>
      match ← factor (.takeState req.stateId .authenticate) with
      | .ok (some (some userId, state)) =>
        match env.finishAuthentication req.credential state with
        | .error .malformed => return badRequest "malformed credential"
        | .error .rejected => return unauthorized
        | .ok result =>
          if result.needsUpdate then
            updateStoredPasskey env userId result
          issueSession env headers userId "login_passkey_success"
      | _ => return unauthorized

end IntelliPilot.Auth
