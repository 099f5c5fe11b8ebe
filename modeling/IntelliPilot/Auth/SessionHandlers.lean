import IntelliPilot.Auth.Statements

/-! # Sessions: login, refresh, logout

The handlers of `auth/handlers.rs` that create, rotate and close sessions.
-/

namespace IntelliPilot.Auth

open Statement

/-- `RefreshRequest`, or nothing when the body is missing or unparsable. -/
abbrev OptionalRefreshBody := Option (Option String)

/-- The body's refresh token, trimmed and nonempty. -/
def bodyToken (body : OptionalRefreshBody) : Option String :=
  (body.join.map trim).filter fun token => !token.isEmpty

/-- `refresh_token_from`: the cookie wins, the body is the fallback. -/
def refreshTokenFrom (cookie : Option String) (body : OptionalRefreshBody) :
    Option (String × Bool) :=
  match cookie with
  | some raw => some (raw, false)
  | none => (bodyToken body).map fun raw => (raw, true)

/-- `should_echo_refresh`. -/
def shouldEchoRefresh (env : Env) (headers : Headers) (byBody : Bool) : Bool :=
  byBody || env.isDev ||
    headers.refreshInBody.any fun value => value == "1" || eqIgnoreAsciiCase value "true"

/-- What `establish_session` hands back: the cookie value and the payload. -/
structure NewSession where
  cookie : String
  accessToken : SealedToken
  refreshToken : Option String
  deriving DecidableEq, Repr

/-- `(jar, Json(body)).into_response()` for a token response. -/
def NewSession.response (new : NewSession) : Response :=
  ⟨200, .set new.cookie, .tokens new.accessToken new.refreshToken⟩

/-- `establish_session`: a fresh family with its first token. -/
def establishSession (env : Env) (headers : Headers) (userId : Uuid) (auditAction : String) :
    Handler (Except Response NewSession) := do
  match ← session (.createFamily userId) with
  | .error _ => return .error internal
  | .ok familyId =>
    let newRefresh ← generate env
    let now ← platform .now
    match ← session (.insertToken familyId newRefresh.hash none (now + refreshTtl)) with
    | .error _ => return .error internal
    | .ok _ =>
      match ← platform (.seal .access userId accessTtl) with
      | .error _ => return .error internal
      | .ok access =>
        let successes ← platform (.countForActorActions userId
          ["login_success", "login_success_ldap", "login_success_oidc"])
        platform (.audit (some userId) auditAction)
        if successes.toOption.getD 1 = 0 then
          platform (.audit (some userId) "login_first")
        let _ ← user (.stampLogin userId)
        return .ok ⟨newRefresh.raw, access,
          if shouldEchoRefresh env headers false then some newRefresh.raw else none⟩

/-- `issue_session`. -/
def issueSession (env : Env) (headers : Headers) (userId : Uuid) (auditAction : String) :
    Handler Response := do
  match ← establishSession env headers userId auditAction with
  | .ok new => return new.response
  | .error response => return response

/-- The end of the first factor, shared by the password and the directory
path: a challenge for accounts with a second factor, else the session. -/
def challengeOrSession (env : Env) (headers : Headers) (userId : Uuid) (auditAction : String) :
    Handler Response := do
  if (← user (.hasActive2fa userId)).toOption.getD false then
    match ← platform (.seal .mfa userId mfaTtl) with
    | .error _ => return internal
    | .ok mfaToken =>
      platform (.audit (some userId) "login_mfa_challenge")
      return ⟨200, .keep, .mfaRequired mfaToken ["totp", "recovery", "passkey"]⟩
  else issueSession env headers userId auditAction

structure LoginRequest where
  email : String
  password : String
  deriving DecidableEq, Repr

/-- The fields of a login request outside their length bounds. -/
def LoginRequest.invalidFields (req : LoginRequest) : List String :=
  (if lengthBetween 1 254 req.email then [] else ["email"]) ++
    (if lengthBetween 1 1024 req.password then [] else ["password"])

def accountBanned : Response :=
  problem 403 "account_banned" "Forbidden" (some "this account has been banned")

def invalidCredentials (detail : String) : Response :=
  problem 401 "invalid_credentials" "Unauthorized" (some detail)

/-- The candidates of `free_username`: the base, then suffixes from 2 on. -/
def usernameCandidate (base : String) (n : Nat) : String :=
  if n = 0 then base else base ++ toString (n + 1)

/-- The hint reduced to the characters a username may hold. -/
def usernameBase (hint : String) : String :=
  let cleaned := String.ofList ((hint.toList.filter fun c =>
    c.isAlphanum || c == '.' || c == '_' || c == '-').take 60)
  if cleaned.isEmpty then "user" else cleaned

/-- The search loop of `free_username` over the candidates from `n` on. -/
def freeUsernameFrom (base : String) (n : Nat) : Nat → Handler (Except DbError String)
  | 0 => return .ok base
  | fuel + 1 => do
    match ← user (.usernameTaken (usernameCandidate base n)) with
    | .error e => return .error e
    | .ok false => return .ok (usernameCandidate base n)
    | .ok true => freeUsernameFrom base (n + 1) fuel

/-- `free_username`. -/
def freeUsername (hint : String) : Handler (Except DbError String) :=
  freeUsernameFrom (usernameBase hint) 0 10000

/-- `find_or_link_ldap_user`. -/
def findOrLinkLdapUser (env : Env) (entry : LdapUser) : Handler (Except DbError User) := do
  match ← user (.findByEmail (env.normalizeEmail entry.email)) with
  | .error e => return .error e
  | .ok (some existing) =>
    user (.linkLdapUser existing.id entry.dn entry.isSuperadmin entry.displayName)
  | .ok none =>
    match ← freeUsername entry.username with
    | .error e => return .error e
    | .ok username =>
      user (.insertUser ⟨env.normalizeEmail entry.email, username, entry.displayName, none, .ldap,
        entry.dn, entry.isSuperadmin, false⟩)

/-- The directory branch of `login`. -/
def loginLdap (env : Env) (headers : Headers) (req : LoginRequest) (idHash : String)
    (found : Option User) : Handler Response := do
  match ← platform (.directory req.email req.password) with
  | .ok entry =>
    match ← findOrLinkLdapUser env entry with
    | .error _ => return internal
    | .ok account =>
      -- checked after the link, which re-enables `is_active` but never lifts a ban
      if (← user (.isBanned account.id)).toOption.getD false then
        platform (.recordAttempt idHash headers.ip false)
        platform (.audit (some account.id) "login_failure")
        return accountBanned
      else if !account.isActive then
        platform (.recordAttempt idHash headers.ip false)
        platform (.audit (some account.id) "login_failure")
        return invalidCredentials "account is inactive"
      else
        platform (.recordAttempt idHash headers.ip true)
        challengeOrSession env headers account.id "login_success_ldap"
  | .error .invalidCredentials =>
    platform (.recordAttempt idHash headers.ip false)
    platform (.audit (found.map (·.id)) "login_failure")
    return invalidCredentials "invalid email or password"
  | .error _ =>
    platform (.audit none "login_ldap_error")
    return problem 503 "ldap_unavailable" "Service Unavailable"
      (some "directory authentication is unavailable")

/-- The local-password branch of `login`. -/
def loginPassword (env : Env) (headers : Headers) (req : LoginRequest) (idHash : String)
    (found : Option User) : Handler Response := do
  let verified := (found.bind (·.passwordHash)).any fun hash =>
    (env.verifyPassword req.password hash env.pepper).getD false
  match found.filter fun account => verified && account.isActive with
  | none =>
    platform (.recordAttempt idHash headers.ip false)
    platform (.audit (found.map (·.id)) "login_failure")
    return invalidCredentials "invalid email or password"
  | some account =>
    if (← user (.isBanned account.id)).toOption.getD false then
      platform (.recordAttempt idHash headers.ip false)
      platform (.audit (some account.id) "login_failure")
      return accountBanned
    else
      platform (.recordAttempt idHash headers.ip true)
      challengeOrSession env headers account.id "login_success"

/-- The single sign-on switch, which never applies to a local superadmin. -/
def localLoginRefused (isLocalSuperadmin : Bool) : Handler Bool := do
  if isLocalSuperadmin then return false
  else return (← platform .localPasswordLoginDisabled).toOption.getD false

/-- `login` once the account has been looked up: every account except a local
superadmin goes to the directory when one is configured. -/
def loginFound (env : Env) (headers : Headers) (req : LoginRequest) (idHash : String)
    (found : Option User) : Handler Response := do
  let isLocalSuperadmin := found.any fun account =>
    account.isSuperadmin && account.passwordHash.isSome
  if ← localLoginRefused isLocalSuperadmin then
    platform (.audit (found.map (·.id)) "login_failure")
    return problem 403 "local_login_disabled" "Forbidden"
      (some "password sign-in is disabled on this server; use single sign-on")
  else if (← platform .ldapEnabled).toOption.getD false && !isLocalSuperadmin then
    loginLdap env headers req idHash found
  else loginPassword env headers req idHash found

/-- `login`. The progressive delay only waits, so its count is read and dropped. -/
def login (env : Env) (headers : Headers) (body : Except JsonRejection LoginRequest) :
    Handler Response := do
  match body with
  | .error rejection => return rejection.response
  | .ok req =>
    if req.invalidFields ≠ [] then return validationProblem req.invalidFields
    else
      let idHash := env.sha256Hex (env.normalizeEmail req.email)
      match ← platform .getPool with
      | .error _ => return internal
      | .ok _ =>
        let now ← platform .now
        let _ ← platform (.recentFailures idHash headers.ip (now - seconds (60 * 60)))
        let lookup ← user (.findByIdentifier (env.normalizeEmail req.email) (trim req.email))
        loginFound env headers req idHash lookup.toOption.join

/-- `unauthorized_clear`. -/
def unauthorizedClear : Response := { unauthorized with cookie := .clear }

/-- `refresh_superseded`: a lost rotation race, the cookie left alone. -/
def refreshSuperseded (lk : RefreshLookup) : Handler Response := do
  platform (.audit (some lk.userId) "refresh_superseded")
  return problem 401 "refresh_superseded" "Unauthorized"
    (some "this refresh token was just rotated by a concurrent request; retry")

/-- `REFRESH_REUSE_GRACE_SECS`. -/
def refreshReuseGrace : Time := seconds 30

/-- The rotation: the presented token is spent and its successor inserted. -/
def rotate (env : Env) (headers : Headers) (byBody : Bool) (lk : RefreshLookup) :
    Handler Response := do
  match ← session (.markUsed lk.tokenId) with
  | .error _ => return internal
  | .ok false => refreshSuperseded lk
  | .ok true =>
    let newRefresh ← generate env
    let now ← platform .now
    match ← session (.insertToken lk.familyId newRefresh.hash (some lk.tokenId)
        (now + refreshTtl)) with
    | .error _ => return internal
    | .ok _ =>
      match ← platform (.seal .access lk.userId accessTtl) with
      | .error _ => return internal
      | .ok access =>
        platform (.audit (some lk.userId) "refresh")
        session (.touchFamily lk.familyId)
        return ⟨200, .set newRefresh.raw, .tokens access
          (if shouldEchoRefresh env headers byBody then some newRefresh.raw else none)⟩

/-- `refresh`. -/
def refresh (env : Env) (headers : Headers) (cookie : Option String)
    (body : OptionalRefreshBody) : Handler Response := do
  match refreshTokenFrom cookie body with
  | none => return unauthorized
  | some (raw, byBody) =>
    match ← platform .getPool with
    | .error _ => return internal
    | .ok _ =>
      match ← session (.findByHash (env.hashToken raw)) with
      | .error _ => return internal
      | .ok none => return unauthorized
      | .ok (some lk) =>
        if lk.familyRevoked then return unauthorizedClear
        else
          let now ← platform .now
          if lk.usedAt.any (fun used => decide (now - used ≤ refreshReuseGrace)) then
            refreshSuperseded lk
          else if lk.usedAt.isSome then
            session (.revokeFamily lk.familyId "reuse_detected")
            platform (.audit (some lk.userId) "refresh_reuse_detected")
            return unauthorizedClear
          else if lk.expiresAt ≤ now then return unauthorizedClear
          else
            match ← user (.touchLastSeen lk.userId) with
            | .error _ => return internal
            | .ok status =>
              if status.any (·.mayAuthenticate) then rotate env headers byBody lk
              else
                session (.revokeFamily lk.familyId "account_blocked")
                return unauthorizedClear

/-- `logout`. -/
def logout (env : Env) (cookie : Option String) (body : OptionalRefreshBody) :
    Handler Response := do
  match cookie.or (bodyToken body) with
  | none => return { noContent with cookie := .clear }
  | some raw =>
    match ← platform .getPool with
    | .error _ => return internal
    | .ok _ =>
      match ← session (.findByHash (env.hashToken raw)) with
      | .ok (some lk) =>
        session (.revokeFamily lk.familyId "logout")
        platform (.audit (some lk.userId) "logout")
        return { noContent with cookie := .clear }
      | _ => return { noContent with cookie := .clear }

/-- `revoke_all_for_user`, the statement by which password changes, bans and
factor resets close every session. -/
def revokeAllForUser (userId : Uuid) (reason : String) : Handler Response := do
  let _ ← session (.revokeAllForUser userId reason)
  return noContent

end IntelliPilot.Auth
