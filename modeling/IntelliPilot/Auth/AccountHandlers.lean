import IntelliPilot.Auth.FactorHandlers

/-! # Passwords, account status and administration

The password handlers of `auth/handlers.rs` and `me.rs`, the presence check of
`presence.rs` with the extractor that enforces it, and the handlers of
`admin/handlers.rs` that act on an account.
-/

namespace IntelliPilot.Auth

open Statement

/-! ## Passwords -/

/-- `RESET_TTL_SECS`. -/
def resetTtl : Time := seconds (60 * 60)

/-- Whether reset tokens are handed out directly: no mailer, and in development. -/
def revealsResetToken (env : Env) : Bool := !env.mailerConfigured && env.isDev

/-- `check_strength`, as a test. -/
def checkStrength (env : Env) (password : String) (inputs : List String) : Bool :=
  12 ≤ password.utf8ByteSize && 3 ≤ env.zxcvbn password inputs

/-- `password_reset_request`; it answers the same whether or not the account exists. -/
def passwordResetRequest (env : Env) (body : Except JsonRejection String) : Handler Response := do
  match body with
  | .error rejection => return rejection.response
  | .ok email =>
    if !(env.validEmail email && lengthBetween 0 254 email) then
      return validationProblem ["email"]
    else
      match ← platform .getPool with
      | .error _ => return internal
      | .ok _ =>
        match ← user (.findByEmail (env.normalizeEmail email)) with
        | .ok (some found) =>
          let token ← generate env
          let now ← platform .now
          let _ ← factor (.createReset found.id token.hash (now + resetTtl))
          platform (.audit (some found.id) "password_reset_requested")
          return ⟨200, .keep, .resetRequested
            (if revealsResetToken env then some token.raw else none)⟩
        | _ => return ⟨200, .keep, .resetRequested none⟩

structure PasswordResetConfirmBody where
  token : String
  newPassword : String
  deriving DecidableEq, Repr

def PasswordResetConfirmBody.invalidFields (req : PasswordResetConfirmBody) : List String :=
  (if lengthBetween 1 512 req.token then [] else ["token"]) ++
    (if lengthBetween 1 1024 req.newPassword then [] else ["new_password"])

/-- `sessions::revoke_all_for_user`, whose failure is only logged. -/
def closeSessions (userId : Uuid) (reason : String) : Handler Unit := do
  let _ ← session (.revokeAllForUser userId reason)
  return ()

/-- `password_reset_confirm`. -/
def passwordResetConfirm (env : Env) (body : Except JsonRejection PasswordResetConfirmBody) :
    Handler Response := do
  match body with
  | .error rejection => return rejection.response
  | .ok req =>
    if req.invalidFields ≠ [] then return validationProblem req.invalidFields
    else if !checkStrength env req.newPassword [] then
      return problem 422 "weak_password" "Weak password"
        (some "password is too short or too guessable")
    else
      match ← platform .getPool with
      | .error _ => return internal
      | .ok _ =>
        match ← factor (.consumeReset (env.hashToken req.token)) with
        | .error _ => return internal
        | .ok none => return problem 400 "invalid_token" "Invalid or expired token" none
        | .ok (some userId) =>
          let salt ← platform .random
          match env.hashPassword req.newPassword env.pepper salt with
          | none => return internal
          | some hash =>
            match ← user (.setPassword userId hash) with
            | .error _ => return internal
            | .ok _ =>
              closeSessions userId "password_reset"
              platform (.audit (some userId) "password_changed")
              return noContent

structure ChangePasswordRequest where
  currentPassword : String
  newPassword : String
  deriving DecidableEq, Repr

/-- `me::validation_field`. -/
def validationField (field message : String) : Response :=
  ⟨422, .keep, .fieldError field message⟩

/-- `change_password`. -/
def changePassword (env : Env) (userId : Uuid)
    (body : Except JsonRejection ChangePasswordRequest) : Handler Response := do
  match body with
  | .error _ => return invalidBody
  | .ok req =>
    if !(lengthBetween 1 1024 req.currentPassword && lengthBetween 1 1024 req.newPassword) then
      return validationField "new_password" "password is required"
    else
      match ← platform .getPool with
      | .error _ => return internal
      | .ok _ =>
        match ← user (.findById userId) with
        | .error _ => return internal
        | .ok none => return notFound
        | .ok (some found) =>
          if found.authSource ≠ .localAccount then
            return problem 409 "password_managed_externally" "Conflict"
              (some "password is managed by your directory and cannot be changed here")
          else if !(found.passwordHash.any fun hash =>
              (env.verifyPassword req.currentPassword hash env.pepper).getD false) then
            return validationField "current_password" "current password is incorrect"
          else if !checkStrength env req.newPassword [found.email, found.username] then
            return validationField "new_password" "password is too weak"
          else
            let salt ← platform .random
            match env.hashPassword req.newPassword env.pepper salt with
            | none => return internal
            | some hash =>
              match ← user (.setPasswordByOwner userId hash) with
              | .error _ => return internal
              | .ok _ =>
                closeSessions userId "password_changed"
                platform (.audit (some userId) "password_changed")
                return noContent

/-! ## Account status -/

/-- `Presence::check` on a node. -/
def presenceCheck (node : Nat) (userId : Uuid) : Handler (Option AccountStatus) := do
  match ← platform (.cachedStatus node userId) with
  | some status => return some status
  | none =>
    match ← user (.touchLastSeen userId) with
    | .ok (some status) =>
      platform (.storeStatus node userId status)
      return some status
    | .ok none => return none
    -- availability over strictness: the request is let through
    | .error _ => return some ⟨true, false⟩

def accountInactive : Response :=
  problem 403 "account_inactive" "Forbidden" (some "this account is not active")

/-- `enforce_account_status`. -/
def enforceAccountStatus (node : Nat) (userId : Uuid) : Handler (Except Response Unit) := do
  match ← platform .getPool with
  | .error _ => return .error internal
  | .ok _ =>
    match ← presenceCheck node userId with
    | some status =>
      if status.mayAuthenticate then return .ok ()
      else if status.isBanned then return .error accountBanned
      else return .error accountInactive
    | none => return .error accountInactive

/-- The extractor `AuthUser` for an access token; `none` is a missing header. -/
def authUser (node : Nat) (bearer : Option PresentedToken) : Handler (Except Response Uuid) := do
  match bearer with
  | none => return .error unauthorized
  | some token =>
    let now ← platform .now
    match token.verify .access now with
    | none => return .error unauthorized
    | some userId =>
      match ← enforceAccountStatus node userId with
      | .error response => return .error response
      | .ok _ => return .ok userId

/-! ## Administration -/

/-- `outcome_to_response`. -/
def outcomeToResponse : AdminUpdateOutcome → Option Response
  | .updated => none
  | .notFound => some notFound
  | .lastSuperadmin => some (problem 409 "last_superadmin" "Last superadmin"
      (some "the requested change would leave the platform with no active superadmin"))

/-- An admin update and its refusal, if it was refused. -/
def applyUpdate (update : UserStmt (Except DbError AdminUpdateOutcome)) :
    Handler (Option Response) := do
  match ← user update with
  | .error _ => return some internal
  | .ok outcome => return outcomeToResponse outcome

/-- An update that is made only where its value is given. -/
def applyGiven {α : Type} (value : Option α)
    (update : α → UserStmt (Except DbError AdminUpdateOutcome)) : Handler (Option Response) := do
  match value with
  | none => return none
  | some value => applyUpdate (update value)

/-- The account as the answer shows it. -/
def answerUser (id : Uuid) : Handler Response := do
  match ← user (.findById id) with
  | .ok (some account) => return ⟨200, .keep, .user account⟩
  | .ok none => return notFound
  | .error _ => return internal

structure UpdateUserRequest where
  isActive : Option Bool
  isSuperadmin : Option Bool
  fullName : Option String
  excludeFromTimeReports : Option Bool
  deriving DecidableEq, Repr

/-- The profile update of `update_user`. -/
def applyFullName (id : Uuid) (fullName : Option String) : Handler (Option Response) := do
  match fullName with
  | none => return none
  | some fullName =>
    match ← user (.updateProfile id fullName) with
    | .ok none => return some notFound
    | .ok (some _) => return none
    | .error _ => return some internal

/-- `update_user`. -/
def updateUser (adminId id : Uuid) (body : Except JsonRejection UpdateUserRequest) :
    Handler Response := do
  match body with
  | .error rejection => return rejection.response
  | .ok req =>
    if !(req.fullName.all (lengthBetween 0 256)) then return validationProblem ["full_name"]
    else
      match ← platform .getPool with
      | .error _ => return internal
      | .ok _ =>
        match ← applyGiven req.isSuperadmin (.setSuperadmin id) with
        | some refusal => return refusal
        | none =>
          match ← applyGiven req.isActive (.setActive id) with
          | some refusal => return refusal
          | none =>
            match ← applyGiven req.excludeFromTimeReports (.setExcludeFromTimeReports id) with
            | some refusal => return refusal
            | none =>
              match ← applyFullName id req.fullName with
              | some refusal => return refusal
              | none =>
                match ← user (.findById id) with
                | .error _ => return internal
                | .ok none => return notFound
                | .ok (some updated) =>
                  platform (.audit (some adminId) "admin_user_updated")
                  return ⟨200, .keep, .user updated⟩

/-- `delete_user`. -/
def deleteUser (adminId id : Uuid) : Handler Response := do
  match ← platform .getPool with
  | .error _ => return internal
  | .ok _ =>
    match ← applyUpdate (.softDeleteGuarded id) with
    | some refusal => return refusal
    | none =>
      platform (.audit (some adminId) "admin_user_deleted")
      return noContent

/-- `reset_password`. -/
def resetPassword (env : Env) (adminId id : Uuid) : Handler Response := do
  match ← platform .getPool with
  | .error _ => return internal
  | .ok _ =>
    match ← user (.findById id) with
    | .error _ => return internal
    | .ok none => return notFound
    | .ok (some account) =>
      let token ← generate env
      let now ← platform .now
      match ← factor (.createReset account.id token.hash (now + resetTtl)) with
      | .error _ => return internal
      | .ok _ =>
        platform (.audit (some adminId) "admin_password_reset_issued")
        return ⟨201, .keep, .resetIssued
          (if revealsResetToken env then some token.raw else none) (now + resetTtl)⟩

/-- `reset_two_factor`. -/
def resetTwoFactor (adminId id : Uuid) : Handler Response := do
  match ← platform .getPool with
  | .error _ => return internal
  | .ok _ =>
    match ← user (.findById id) with
    | .error _ => return internal
    | .ok none => return notFound
    | .ok (some _) =>
      let totp ← user (.getTotp id)
      match ← user (.disableTotp id) with
      | .error _ => return internal
      | .ok _ =>
        match ← factor (.deleteCredentials id) with
        | .error _ => return internal
        | .ok passkeysRemoved =>
          match ← factor (.deleteRecoveryCodes id) with
          | .error _ => return internal
          | .ok codesRemoved =>
            let revoked ← session (.revokeAllForUser id "admin_2fa_reset")
            platform (.audit (some adminId) "admin_user_2fa_reset")
            return ⟨200, .keep, .twoFactorReset (totp.toOption.join.isSome) passkeysRemoved
              codesRemoved (revoked.toOption.getD 0)⟩

/-- `ban_user`; the reason is recorded but read by no handler. -/
def banUser (node : Nat) (adminId id : Uuid) (body : Except JsonRejection (Option String)) :
    Handler Response := do
  match body with
  | .error rejection => return rejection.response
  | .ok reason =>
    if !(reason.all (lengthBetween 0 500)) then return validationProblem ["reason"]
    else if id = adminId then
      return problem 400 "cannot_ban_self" "Bad Request"
        (some "an administrator cannot ban their own account")
    else
      match ← platform .getPool with
      | .error _ => return internal
      | .ok _ =>
        match ← applyUpdate (.setBanned id true) with
        | some refusal => return refusal
        | none =>
          let _ ← session (.revokeAllForUser id "account_banned")
          platform (.invalidateStatus node id)
          platform (.audit (some adminId) "admin_user_banned")
          answerUser id

/-- `unban_user`. -/
def unbanUser (node : Nat) (adminId id : Uuid) : Handler Response := do
  match ← platform .getPool with
  | .error _ => return internal
  | .ok _ =>
    match ← applyUpdate (.setBanned id false) with
    | some refusal => return refusal
    | none =>
      platform (.invalidateStatus node id)
      platform (.audit (some adminId) "admin_user_unbanned")
      answerUser id

end IntelliPilot.Auth
