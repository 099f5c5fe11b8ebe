import IntelliPilot.Auth.AccountHandlers
import Mathlib.Data.List.Infix

/-! # Single sign-on

The flows of `oidc/handlers.rs` with the account resolution of
`oidc/resolve.rs`, and the provider and linking-window administration of
`admin/oidc.rs`. What an identity provider answers is the environment's choice.
-/

namespace IntelliPilot.Auth

open Statement

/-- `str::trim_end_matches('/')`. -/
def trimEndSlashes (s : String) : String :=
  String.ofList ((s.toList.reverse.dropWhile (· == '/')).reverse)

/-- `redirect_uri`. -/
def redirectUri (publicOrigin slug : String) : String :=
  trimEndSlashes publicOrigin ++ "/api/v1/auth/oidc/" ++ slug ++ "/callback"

/-- `safe_redirect_to`: only app-relative paths survive. -/
def safeRedirectTo (raw : Option String) : String :=
  let candidate := trim (raw.getD "/")
  if candidate.startsWith "/" && !candidate.startsWith "//" && !candidate.toList.contains '\\' &&
      !decide ("://".toList <:+: candidate.toList) && candidate.utf8ByteSize ≤ 512 then candidate
  else "/"

/-- `redirect_to_app`. -/
def redirectToApp (origin path : String) : Response :=
  ⟨302, .keep, .redirect (trimEndSlashes origin ++ path)⟩

/-- `redirect_with_error`. -/
def redirectWithError (origin code : String) : Response :=
  redirectToApp origin ("/login?sso_error=" ++ code)

/-! ## Resolving an identity -/

inductive ResolveError where
  | emailUnverified
  | emailConflict
  | provisioningDisabled
  | subjectTaken
  | banned
  | inactive
  | insufficientClaims
  | db
  deriving DecidableEq, Repr

/-- `resolve_code`. -/
def resolveCode : ResolveError → String
  | .emailUnverified => "email_unverified"
  | .emailConflict => "email_conflict"
  | .provisioningDisabled => "provisioning_disabled"
  | .subjectTaken => "already_linked"
  | .banned => "account_banned"
  | .inactive => "account_inactive"
  | .insufficientClaims => "insufficient_claims"
  | .db => "internal_error"

/-- `resolve_problem`. -/
def resolveProblem : ResolveError → Response
  | .emailUnverified => problem 403 (resolveCode .emailUnverified) "Forbidden"
      (some "your identity provider has not verified your email address")
  | .emailConflict => problem 409 (resolveCode .emailConflict) "Conflict"
      (some ("an account already uses this email address. Sign in with your existing " ++
        "credentials and connect single sign-on from Security settings."))
  | .provisioningDisabled => problem 403 (resolveCode .provisioningDisabled) "Forbidden"
      (some "this provider may not create new accounts; ask an administrator to invite you")
  | .subjectTaken => problem 409 (resolveCode .subjectTaken) "Conflict"
      (some "this identity is already linked to another account")
  | .banned => problem 403 (resolveCode .banned) "Forbidden"
      (some "this account has been banned")
  | .inactive => problem 401 (resolveCode .inactive) "Unauthorized" (some "account is inactive")
  | .insufficientClaims => problem 403 (resolveCode .insufficientClaims) "Forbidden"
      (some "your identity provider returned no usable account details")
  | .db => internal

/-- `oidc_code`. -/
def oidcCode : OidcError → String
  | .config _ => "oidc_misconfigured"
  | .unavailable _ => "oidc_unavailable"
  | .rejected _ => "oidc_rejected"
  | .pending | .slowDown => "authorization_pending"

/-- `oidc_problem`. -/
def oidcProblem : OidcError → Response
  | .config detail => problem 500 "oidc_misconfigured" "Internal Server Error" (some detail)
  | .unavailable detail => problem 503 "oidc_unavailable" "Service Unavailable" (some detail)
  | .rejected detail => problem 401 "oidc_rejected" "Unauthorized" (some detail)
  | .pending | .slowDown => problem 202 "authorization_pending" "Accepted" none

/-- `grants_superadmin`; no group means the mapping is off. -/
def grantsSuperadmin (provider : OidcProvider) (facts : IdentityFacts) : Option Bool :=
  if (trim provider.superadminGroup).isEmpty then none
  else some (facts.groups.any fun group =>
    eqIgnoreAsciiCase (trim group) (trim provider.superadminGroup))

/-- `link_subject`. -/
def linkSubject (provider : OidcProvider) (facts : IdentityFacts) (userId : Uuid) :
    Handler (Except ResolveError Unit) := do
  match ← oidc (.link userId provider.id facts.issuer facts.subject facts.email) with
  | .ok _ => return .ok ()
  | .error .uniqueViolation => return .error .subjectTaken
  | .error _ => return .error .db

/-- `sync_oidc_display_name`, whose failure is only logged. -/
def syncOidcDisplayName (userId : Uuid) (fullName : String) : Handler Unit := do
  if (trim fullName).isEmpty then return ()
  else
    let _ ← user (.setFullName userId fullName)
    return ()

/-- `provision_oidc_user`. -/
def provisionOidcUser (env : Env) (email usernameHint fullName : String) (isSuperadmin : Bool) :
    Handler (Except DbError User) := do
  match ← freeUsername usernameHint with
  | .error e => return .error e
  | .ok username =>
    user (.insertUser ⟨env.normalizeEmail email, username, fullName, none, .oidc, none,
      isSuperadmin, false⟩)

/-- The just-in-time branch of `resolve_login`. -/
def provisionLogin (env : Env) (provider : OidcProvider) (facts : IdentityFacts) :
    Handler (Except ResolveError Uuid) := do
  if !provider.allowJitProvisioning then return .error .provisioningDisabled
  else
    match ← provisionOidcUser env facts.email facts.usernameHint facts.displayName
        ((grantsSuperadmin provider facts).getD false) with
    | .error _ => return .error .db
    | .ok account =>
      match ← linkSubject provider facts account.id with
      | .error e => return .error e
      | .ok _ =>
        platform (.audit (some account.id) "oidc_user_provisioned")
        return .ok account.id

/-- The branches of `resolve_login` for a subject without a binding: an armed
linking window, a conflict over the address, or a new account. -/
def resolveUnbound (env : Env) (provider : OidcProvider) (facts : IdentityFacts) :
    Handler (Except ResolveError Uuid) := do
  if facts.email.isEmpty then return .error .insufficientClaims
  else if provider.requireEmailVerified && !facts.emailVerified then
    return .error .emailUnverified
  else
    match ← user (.findArmedLinkByEmail (env.normalizeEmail facts.email)) with
    | .error _ => return .error .db
    | .ok (some account) =>
      match ← linkSubject provider facts account.id with
      | .error e => return .error e
      | .ok _ =>
        -- one-shot, though a failure to close the window is only logged
        let _ ← user (.setOidcLinkArm account.id none)
        platform (.audit (some account.id) "oidc_identity_linked")
        return .ok account.id
    | .ok none =>
      match ← user (.findByEmail (env.normalizeEmail facts.email)) with
      | .error _ => return .error .db
      | .ok (some _) => return .error .emailConflict
      | .ok none => provisionLogin env provider facts

/-- `resolve_login`. -/
def resolveLogin (env : Env) (provider : OidcProvider) (facts : IdentityFacts) :
    Handler (Except ResolveError Uuid) := do
  if (trim facts.subject).isEmpty then return .error .insufficientClaims
  else
    match ← oidc (.findBySubject provider.id facts.subject) with
    | .error _ => return .error .db
    | .ok (some identity) =>
      oidc (.stampIdentityLogin identity.id)
      syncOidcDisplayName identity.userId facts.displayName
      return .ok identity.userId
    | .ok none => resolveUnbound env provider facts

/-- `sync_superadmin`; it never fails a sign-in. -/
def syncSuperadmin (provider : OidcProvider) (facts : IdentityFacts) (userId : Uuid) :
    Handler Unit := do
  match grantsSuperadmin provider facts with
  | none => return ()
  | some desired =>
    match ← user (.findById userId) with
    | .ok (some account) =>
      if account.isSuperadmin = desired then return ()
      else
        match ← user (.setSuperadmin userId desired) with
        | .ok .updated => platform (.audit (some userId) "oidc_superadmin_synced")
        | .ok .lastSuperadmin => platform (.audit (some userId) "oidc_superadmin_sync_refused")
        | _ => return ()
    | _ => return ()

/-- `check_account_usable`. -/
def checkAccountUsable (userId : Uuid) : Handler (Except ResolveError Unit) := do
  if (← user (.isBanned userId)).toOption.getD false then return .error .banned
  else
    match ← user (.findById userId) with
    | .ok (some account) => if account.isActive then return .ok () else return .error .inactive
    | _ => return .error .db

/-! ## The browser flow -/

/-- `AUTH_REQUEST_TTL_SECS`. -/
def authRequestTtl : Time := seconds (10 * 60)

/-- `purge_expired`: both sweeps are best effort. -/
def purgeExpired : Handler Unit := do
  oidc .purgeAuthRequests
  oidc .purgeDeviceRequests

/-- `create_auth_request`. -/
def createAuthRequest (new : OidcAuthRequest) : Handler (Except DbError Unit) := do
  purgeExpired
  oidc (.insertAuthRequest new)

/-- `enabled_provider`. -/
def enabledProvider (slug : String) : Handler (Option OidcProvider) := do
  return ((← oidc (.getBySlug slug)).toOption.join).filter (·.enabled)

/-- `start_inner`. -/
def startInner (env : Env) (slug : String) (redirectTo : Option String)
    (linkUserId : Option Uuid) : Handler Response := do
  match ← platform .getPool with
  | .error _ => return internal
  | .ok _ =>
    match ← enabledProvider slug with
    | none => return notFound
    | some provider =>
      match ← platform (.startFlow provider.id (redirectUri env.publicOrigin provider.slug)) with
      | .error e => return redirectWithError env.publicOrigin (oidcCode e)
      | .ok started =>
        let now ← platform .now
        match ← createAuthRequest ⟨started.state, provider.id, started.nonce, started.codeVerifier,
            linkUserId, safeRedirectTo redirectTo, now + authRequestTtl⟩ with
        | .error _ => return internal
        | .ok _ => return ⟨302, .keep, .redirect started.authorizeUrl⟩

/-- `start`. -/
def start (env : Env) (slug : String) (redirectTo : Option String) : Handler Response :=
  startInner env slug redirectTo none

/-- `link_start`, of a signed-in user. -/
def linkStart (env : Env) (userId : Uuid) (slug : String) (redirectTo : Option String) :
    Handler Response :=
  startInner env slug redirectTo (some userId)

structure CallbackQuery where
  code : Option String
  state : Option String
  error : Option String
  deriving DecidableEq, Repr

/-- The link flow of `callback`: bind the identity, mint nothing. -/
def callbackLink (env : Env) (provider : OidcProvider) (facts : IdentityFacts)
    (linkUserId : Uuid) (redirectTo : String) : Handler Response := do
  match ← linkSubject provider facts linkUserId with
  | .error e => return redirectWithError env.publicOrigin (resolveCode e)
  | .ok _ =>
    platform (.audit (some linkUserId) "oidc_identity_linked")
    return redirectToApp env.publicOrigin (redirectTo ++ "?sso_linked=1")

/-- The login flow of `callback`. -/
def callbackLogin (env : Env) (headers : Headers) (provider : OidcProvider)
    (facts : IdentityFacts) (redirectTo : String) : Handler Response := do
  match ← resolveLogin env provider facts with
  | .error e => return redirectWithError env.publicOrigin (resolveCode e)
  | .ok userId =>
    match ← checkAccountUsable userId with
    | .error e => return redirectWithError env.publicOrigin (resolveCode e)
    | .ok _ =>
      match ← platform .getPool with
      | .error _ => return redirectWithError env.publicOrigin "internal_error"
      | .ok _ =>
        syncSuperadmin provider facts userId
        match ← establishSession env headers userId "login_success_oidc" with
        | .ok new => return { redirectToApp env.publicOrigin redirectTo with cookie := .set new.cookie }
        | .error _ => return redirectWithError env.publicOrigin "internal_error"

/-- `callback`. -/
def callback (env : Env) (headers : Headers) (q : CallbackQuery) : Handler Response := do
  match q with
  | ⟨_, _, some _⟩ => return redirectWithError env.publicOrigin "provider_refused"
  | ⟨some code, some state, none⟩ =>
    match ← platform .getPool with
    | .error _ => return redirectWithError env.publicOrigin "internal_error"
    | .ok _ =>
      match ← oidc (.takeAuthRequest state) with
      | .error _ => return redirectWithError env.publicOrigin "internal_error"
      | .ok none => return redirectWithError env.publicOrigin "invalid_state"
      | .ok (some pending) =>
        match ← oidc (.getProvider pending.providerId) with
        | .ok (some provider) =>
          if !provider.enabled then
            return redirectWithError env.publicOrigin "provider_disabled"
          else
            match ← platform (.exchange provider.id (redirectUri env.publicOrigin provider.slug)
                code pending.codeVerifier pending.nonce) with
            | .error e => return redirectWithError env.publicOrigin (oidcCode e)
            | .ok facts =>
              match pending.linkUserId with
              | some linkUserId =>
                callbackLink env provider facts linkUserId pending.redirectTo
              | none => callbackLogin env headers provider facts pending.redirectTo
        | _ => return redirectWithError env.publicOrigin "unknown_provider"
  | _ => return redirectWithError env.publicOrigin "invalid_callback"

/-! ## The device flow -/

/-- `clamp` of an optional number. -/
def clampOr (value : Option Int) (default low high : Int) : Nat :=
  (max low (min (value.getD default) high)).toNat

/-- `clamped_interval`. -/
def DeviceAuthorization.clampedInterval (authorization : DeviceAuthorization) : Nat :=
  clampOr authorization.interval 5 1 60

/-- `expires_in_secs`. -/
def DeviceAuthorization.expiresInSecs (authorization : DeviceAuthorization) : Nat :=
  clampOr authorization.expiresIn 600 30 3600

/-- `create_device_request`. -/
def createDeviceRequest (new : NewDeviceRequest) :
    Handler (Except DbError OidcDeviceRequest) := do
  purgeExpired
  oidc (.insertDeviceRequest new)

/-- `device_start_inner`. -/
def deviceStartInner (env : Env) (slug : String) (linkUserId : Option Uuid) :
    Handler Response := do
  match ← platform .getPool with
  | .error _ => return internal
  | .ok _ =>
    match ← enabledProvider slug with
    | none => return notFound
    | some provider =>
      if !provider.deviceFlowEnabled then return notFound
      else
        match ← platform (.startDevice provider.id) with
        | .error e => return oidcProblem e
        | .ok authorization =>
          let poll ← generate env
          let now ← platform .now
          match ← createDeviceRequest ⟨provider.id, authorization.deviceCode,
              authorization.clampedInterval, poll.hash, linkUserId,
              now + seconds authorization.expiresInSecs⟩ with
          | .error _ => return internal
          | .ok row => return ⟨200, .keep, .deviceStarted authorization.userCode
              authorization.verificationUri authorization.verificationUriComplete poll.raw
              row.intervalSecs authorization.expiresInSecs⟩

/-- `device_start`. -/
def deviceStart (env : Env) (slug : String) : Handler Response := deviceStartInner env slug none

/-- `device_link_start`, of a signed-in user. -/
def deviceLinkStart (env : Env) (userId : Uuid) (slug : String) : Handler Response :=
  deviceStartInner env slug (some userId)

/-- Whether the poll comes before the provider's interval has passed. -/
def polledTooSoon (pending : OidcDeviceRequest) : Handler Bool := do
  match pending.lastPolledAt with
  | none => return false
  | some last =>
    let now ← platform .now
    return decide (now - last < seconds pending.intervalSecs)

/-- The end of `device_poll`, once the request is consumed. -/
def deviceFinish (env : Env) (headers : Headers) (provider : OidcProvider)
    (facts : IdentityFacts) (linkUserId : Option Uuid) : Handler Response := do
  match linkUserId with
  | some linkUserId =>
    match ← linkSubject provider facts linkUserId with
    | .error e => return resolveProblem e
    | .ok _ =>
      platform (.audit (some linkUserId) "oidc_identity_linked")
      return noContent
  | none =>
    match ← resolveLogin env provider facts with
    | .error e => return resolveProblem e
    | .ok userId =>
      match ← checkAccountUsable userId with
      | .error e => return resolveProblem e
      | .ok _ =>
        match ← platform .getPool with
        | .error _ => return internal
        | .ok _ =>
          syncSuperadmin provider facts userId
          issueSession env headers userId "login_success_oidc"

/-- The terminal errors of a poll drop the request. -/
def devicePollEnded (pending : OidcDeviceRequest) (e : OidcError) : Handler Response := do
  match e with
  | .pending | .slowDown => return ⟨202, .keep, .pending pending.intervalSecs⟩
  | .rejected _ =>
    oidc (.deleteDeviceRequest pending.id)
    return oidcProblem e
  | _ => return oidcProblem e

/-- `device_poll`. -/
def devicePoll (env : Env) (headers : Headers) (body : Except JsonRejection String) :
    Handler Response := do
  match body with
  | .error _ => return invalidBody
  | .ok pollToken =>
    match ← platform .getPool with
    | .error _ => return internal
    | .ok _ =>
      match ← oidc (.findDeviceRequest (env.hashToken (trim pollToken))) with
      | .ok (some pending) =>
        if ← polledTooSoon pending then
          return problem 429 "slow_down" "Too Many Requests"
            (some ("wait " ++ toString pending.intervalSecs ++ " seconds between polls"))
        else
          oidc (.stampDevicePoll pending.id)
          match ← oidc (.getProvider pending.providerId) with
          | .ok (some provider) =>
            if !provider.enabled then
              oidc (.deleteDeviceRequest pending.id)
              return notFound
            else
              match ← platform (.pollDevice provider.id pending.deviceCode) with
              | .error e => devicePollEnded pending e
              | .ok facts =>
                match ← oidc (.consumeDeviceRequest pending.id) with
                | .error _ => return internal
                | .ok false => return problem 401 "unknown_poll_token" "Unauthorized" none
                | .ok true => deviceFinish env headers provider facts pending.linkUserId
          | _ => return notFound
      | _ =>
        return problem 401 "unknown_poll_token" "Unauthorized"
          (some "this sign-in attempt has expired; start again")

/-! ## Linked identities -/

/-- `unlink_identity`. -/
def unlinkIdentity (userId id : Uuid) : Handler Response := do
  match ← platform .getPool with
  | .error _ => return internal
  | .ok _ =>
    let hasPassword ← user (.hasLocalPassword userId)
    let count ← oidc (.countForUser userId)
    if !hasPassword.toOption.getD false && decide (count.toOption.getD 0 ≤ 1) then
      return problem 409 "last_auth_method" "Conflict"
        (some ("this is the only way you can sign in; set a password or link another " ++
          "provider first"))
    else
      match ← oidc (.unlink userId id) with
      | .error _ => return internal
      | .ok false => return notFound
      | .ok true =>
        platform (.audit (some userId) "oidc_identity_unlinked")
        return noContent

/-! ## Administration -/

structure UpsertOidcProviderRequest where
  slug : String
  displayName : String
  enabled : Bool
  issuerUrl : String
  clientId : String
  clientSecret : Option String
  scopes : String
  claimEmail : String
  claimUsername : String
  claimDisplayName : String
  claimGroups : String
  superadminGroup : String
  allowJitProvisioning : Bool
  requireEmailVerified : Bool
  deviceFlowEnabled : Bool
  sortOrder : Int
  skipTlsVerify : Bool
  deriving DecidableEq, Repr

/-- `^[a-z0-9][a-z0-9-]*$`. -/
def validSlug (slug : String) : Bool :=
  let plain (c : Char) : Bool := ('a' ≤ c && c ≤ 'z') || ('0' ≤ c && c ≤ '9')
  match slug.toList with
  | [] => false
  | first :: rest => plain first && rest.all fun c => plain c || c == '-'

def UpsertOidcProviderRequest.valid (req : UpsertOidcProviderRequest) : Bool :=
  lengthBetween 1 64 req.slug && validSlug req.slug && lengthBetween 1 128 req.displayName &&
    lengthBetween 1 512 req.issuerUrl && lengthBetween 1 512 req.clientId &&
    req.clientSecret.all (lengthBetween 0 1024) && lengthBetween 0 512 req.scopes &&
    lengthBetween 1 64 req.claimEmail && lengthBetween 1 64 req.claimUsername &&
    lengthBetween 1 64 req.claimDisplayName && lengthBetween 1 64 req.claimGroups &&
    lengthBetween 0 512 req.superadminGroup && decide (-1000 ≤ req.sortOrder) &&
    decide (req.sortOrder ≤ 1000)

/-- `update_from`, the columns the flows read. -/
def updateFrom (env : Env) (req : UpsertOidcProviderRequest) : OidcProviderUpdate where
  slug := env.toLowercase (trim req.slug)
  enabled := req.enabled
  issuerUrl := trim req.issuerUrl
  superadminGroup := trim req.superadminGroup
  allowJitProvisioning := req.allowJitProvisioning
  requireEmailVerified := req.requireEmailVerified
  deviceFlowEnabled := req.deviceFlowEnabled

/-- `parse_and_check`. -/
def parseAndCheck (env : Env) (body : Except JsonRejection UpsertOidcProviderRequest) :
    Except Response UpsertOidcProviderRequest :=
  match body with
  | .error _ => .error (problem 400 "invalid_body" "Invalid Request Body"
      (some "could not parse JSON"))
  | .ok req =>
    if !req.valid then .error validationFailed
    else
      match env.checkIssuerUrl req.issuerUrl env.isDev with
      | some why => .error (problem 422 "invalid_issuer_url" "Validation failed" (some why))
      | none => .ok req

def slugTaken : Response :=
  problem 409 "slug_taken" "Conflict" (some "another provider already uses this key")

/-- `create_provider`. -/
def createProvider (env : Env) (adminId : Uuid)
    (body : Except JsonRejection UpsertOidcProviderRequest) : Handler Response := do
  match parseAndCheck env body with
  | .error response => return response
  | .ok req =>
    match ← platform .getPool with
    | .error _ => return internal
    | .ok _ =>
      match ← oidc (.createProvider (updateFrom env req)) with
      | .ok provider =>
        platform (.audit (some adminId) "oidc_provider_created")
        return ⟨201, .keep, .provider provider⟩
      | .error .uniqueViolation => return slugTaken
      | .error _ => return internal

/-- `update_provider`. -/
def updateProvider (env : Env) (adminId id : Uuid)
    (body : Except JsonRejection UpsertOidcProviderRequest) : Handler Response := do
  match parseAndCheck env body with
  | .error response => return response
  | .ok req =>
    match ← platform .getPool with
    | .error _ => return internal
    | .ok _ =>
      match ← oidc (.updateProvider id (updateFrom env req)) with
      | .ok (some provider) =>
        platform (.audit (some adminId) "oidc_provider_updated")
        return ⟨200, .keep, .provider provider⟩
      | .ok none => return notFound
      | .error .uniqueViolation => return slugTaken
      | .error _ => return internal

/-- `LINK_ARM_TTL_SECS`. -/
def linkArmTtl : Time := seconds (24 * 60 * 60)

/-- `arm_link` and `disarm_link`. -/
def setLinkArm (adminId id : Uuid) (arm : Bool) : Handler Response := do
  match ← platform .getPool with
  | .error _ => return internal
  | .ok _ =>
    let now ← platform .now
    match ← user (.setOidcLinkArm id (if arm then some (now + linkArmTtl) else none)) with
    | .error _ => return internal
    | .ok false => return notFound
    | .ok true =>
      platform (.audit (some adminId) (if arm then "oidc_link_armed" else "oidc_link_disarmed"))
      return noContent

end IntelliPilot.Auth
