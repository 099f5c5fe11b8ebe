import IntelliPilot.Auth.AuthService

/-! # What each request may write

Every statement belongs to a group of columns it may write, and every request
only issues statements of a few groups, whatever the tables, the clock and the
outside services answer it.
-/

namespace IntelliPilot.Auth

open Statement Prog

/-- Columns that are written together, named by what they decide. -/
inductive Write where
  | sessions
  | accounts
  | standing
  | password
  | ownPassword
  | secondFactors
  | resetTokens
  | linkWindow
  | bindings
  | providers
  | ceremonies
  | profile
  deriving DecidableEq, Repr

@[simp] def SessionStmt.write {β : Type} : SessionStmt β → Option Write
  | .findByHash _ => none
  | _ => some .sessions

@[simp] def UserStmt.write {β : Type} : UserStmt β → Option Write
  | .insertUser _ => some .accounts
  | .linkLdapUser _ _ _ _ => some .accounts
  | .setSuperadmin _ _ => some .standing
  | .setActive _ _ => some .standing
  | .setBanned _ _ => some .standing
  | .softDeleteGuarded _ => some .standing
  | .setPassword _ _ => some .password
  | .setPasswordByOwner _ _ => some .ownPassword
  | .setTotpSecret _ _ => some .secondFactors
  | .confirmTotp _ => some .secondFactors
  | .disableTotp _ => some .secondFactors
  | .setOidcLinkArm _ _ => some .linkWindow
  | .touchLastSeen _ => some .profile
  | .stampLogin _ => some .profile
  | .setFullName _ _ => some .profile
  | .updateProfile _ _ => some .profile
  | .setExcludeFromTimeReports _ _ => some .profile
  | _ => none

@[simp] def FactorStmt.write {β : Type} : FactorStmt β → Option Write
  | .saveState _ _ _ _ => some .ceremonies
  | .takeState _ _ => some .ceremonies
  | .listCredentials _ => none
  | .listUnusedCodes _ => none
  | .createReset _ _ _ => some .resetTokens
  | .consumeReset _ => some .resetTokens
  | _ => some .secondFactors

@[simp] def OidcStmt.write {β : Type} : OidcStmt β → Option Write
  | .createProvider _ => some .providers
  | .updateProvider _ _ => some .providers
  | .link _ _ _ _ _ => some .bindings
  | .unlink _ _ => some .bindings
  | .getProvider _ => none
  | .getBySlug _ => none
  | .findBySubject _ _ => none
  | .stampIdentityLogin _ => none
  | .countForUser _ => none
  | .findDeviceRequest _ => none
  | _ => some .ceremonies

/-- What a statement may write; the audit log, the login attempts and the
presence caches are not followed. -/
@[simp] def Stmt.write {β : Type} : Stmt β → Option Write
  | .session stmt => stmt.write
  | .user stmt => stmt.write
  | .factor stmt => stmt.write
  | .oidc stmt => stmt.write
  | .platform _ => none

def Within (writes : List Write) {β : Type} (stmt : Stmt β) : Prop :=
  ∀ write ∈ stmt.write, write ∈ writes

/-- The groups each request may write. -/
def AuthRequest.writes : AuthRequest → List Write
  | .login _ _ => [.accounts, .sessions, .profile]
  | .refresh _ _ _ => [.sessions, .profile]
  | .logout _ _ => [.sessions]
  | .passwordResetRequest _ => [.resetTokens]
  | .passwordResetConfirm _ => [.resetTokens, .password, .sessions]
  | .changePassword _ _ => [.ownPassword, .sessions]
  | .totpStart _ => [.secondFactors]
  | .totpConfirm _ _ => [.secondFactors]
  | .totpDisable _ => [.secondFactors]
  | .recoveryRegenerate _ => [.secondFactors]
  | .twoFactorVerify _ _ => [.secondFactors, .sessions, .profile]
  | .registerStart _ => [.ceremonies]
  | .registerFinish _ _ => [.ceremonies, .secondFactors]
  | .deletePasskey _ _ => [.secondFactors]
  | .authenticateStart _ => [.ceremonies]
  | .authenticateFinish _ _ => [.ceremonies, .secondFactors, .sessions, .profile]
  | .oidcStart _ _ => [.ceremonies]
  | .oidcLinkStart _ _ _ => [.ceremonies]
  | .oidcCallback _ _ =>
      [.ceremonies, .bindings, .accounts, .linkWindow, .standing, .sessions, .profile]
  | .deviceStart _ => [.ceremonies]
  | .deviceLinkStart _ _ => [.ceremonies]
  | .devicePoll _ _ =>
      [.ceremonies, .bindings, .accounts, .linkWindow, .standing, .sessions, .profile]
  | .unlinkIdentity _ _ => [.bindings]
  | .updateUser _ _ _ => [.standing, .profile]
  | .deleteUser _ _ => [.standing]
  | .resetPassword _ _ => [.resetTokens]
  | .resetTwoFactor _ _ => [.secondFactors, .sessions]
  | .banUser _ _ _ _ => [.standing, .sessions]
  | .unbanUser _ _ _ => [.standing]
  | .createProvider _ _ => [.providers]
  | .updateProvider _ _ _ => [.providers]
  | .setLinkArm _ _ _ => [.linkWindow]

attribute [local simp] session user factor oidc platform Within
attribute [local simp] only_done_iff only_step_iff only_call_iff only_ite_iff
attribute [local simp] forall_except Option.forall
attribute [local irreducible] trim

/-! ## The parts of the handlers -/

section Parts

variable (env : Env) {writes : List Write}

theorem within_establishSession (headers : Headers) (userId : Uuid) (action : String)
    (h : [.sessions, .profile] ⊆ writes) :
    (establishSession env headers userId action).Only (Within writes) := by
  have hsessions : Write.sessions ∈ writes := h (by decide)
  have hprofile : Write.profile ∈ writes := h (by decide)
  simp [establishSession, generate, hsessions, hprofile]

theorem within_issueSession (headers : Headers) (userId : Uuid) (action : String)
    (h : [.sessions, .profile] ⊆ writes) :
    (issueSession env headers userId action).Only (Within writes) := by
  refine only_bind_except (within_establishSession env headers userId action h)
    (fun _ => only_pure _) fun new => ?_
  exact only_pure _

theorem within_challengeOrSession (headers : Headers) (userId : Uuid) (action : String)
    (h : [.sessions, .profile] ⊆ writes) :
    (challengeOrSession env headers userId action).Only (Within writes) := by
  have hissue := within_issueSession env headers userId action h
  simp [challengeOrSession, hissue]

theorem within_freeUsernameFrom (base : String) (n fuel : Nat) :
    (freeUsernameFrom base n fuel).Only (Within writes) := by
  induction fuel generalizing n with
  | zero => exact only_pure _
  | succ fuel ih => simp [freeUsernameFrom, ih]

theorem within_findOrLinkLdapUser (entry : LdapUser) (h : [.accounts] ⊆ writes) :
    (findOrLinkLdapUser env entry).Only (Within writes) := by
  have haccounts : Write.accounts ∈ writes := h (by decide)
  apply only_bind (by simp)
  intro existing
  rcases existing with e | _ | existing
  · exact only_pure _
  · refine only_bind_except (within_freeUsernameFrom _ _ _) (fun _ => only_pure _)
      fun username => ?_
    simp [haccounts]
  · simp [haccounts]

theorem within_loginLdap (headers : Headers) (req : LoginRequest) (idHash : String)
    (found : Option User) (h : [.accounts, .sessions, .profile] ⊆ writes) :
    (loginLdap env headers req idHash found).Only (Within writes) := by
  apply only_bind (by simp)
  intro entry
  rcases entry with (_ | _ | _) | entry
  · simp
  · simp
  · simp
  · refine only_bind_except (within_findOrLinkLdapUser env entry (List.Subset.trans (by decide) h))
      (fun _ => only_pure _) fun account => ?_
    have hchallenge := within_challengeOrSession env headers account.id "login_success_ldap"
      (List.Subset.trans (by decide) h)
    simp [hchallenge]

theorem within_loginPassword (headers : Headers) (req : LoginRequest) (idHash : String)
    (found : Option User) (h : [.sessions, .profile] ⊆ writes) :
    (loginPassword env headers req idHash found).Only (Within writes) := by
  unfold loginPassword
  dsimp only
  split
  · simp
  · rename_i account _
    have hchallenge := within_challengeOrSession env headers account.id "login_success" h
    simp [hchallenge]

theorem within_loginFound (headers : Headers) (req : LoginRequest) (idHash : String)
    (found : Option User) (h : [.accounts, .sessions, .profile] ⊆ writes) :
    (loginFound env headers req idHash found).Only (Within writes) := by
  have hldap := within_loginLdap env headers req idHash found h
  have hpassword := within_loginPassword env headers req idHash found
    (List.Subset.trans (by decide) h)
  apply only_bind
  · simp [localLoginRefused]
  · intro refused
    simp [hldap, hpassword]

theorem within_answerRecoveryCodes (userId : Uuid) (action : String)
    (h : [.secondFactors] ⊆ writes) :
    (answerRecoveryCodes env userId action).Only (Within writes) := by
  have hfactors : Write.secondFactors ∈ writes := h (by decide)
  have hset : ∀ n, (generateSet env n).Only (Within writes) := by
    intro n
    induction n with
    | zero => exact only_pure _
    | succ n ih =>
      apply only_bind (by simp)
      intro plaintext
      apply only_bind (by simp)
      intro salt
      split
      · exact only_pure _
      · exact only_bind ih fun _ => only_pure _
  apply only_bind
  · apply only_bind (hset _)
    intro codes
    cases codes with
    | none => exact only_pure _
    | some codes => simp [hfactors]
  · intro codes
    cases codes with
    | error response => exact only_pure _
    | ok codes => simp

theorem within_linkSubject (provider : OidcProvider) (facts : IdentityFacts) (userId : Uuid)
    (h : [.bindings] ⊆ writes) :
    (linkSubject provider facts userId).Only (Within writes) := by
  have hbindings : Write.bindings ∈ writes := h (by decide)
  apply only_bind (by simp [hbindings])
  intro linked
  rcases linked with (_ | _ | _) | identity
  · exact only_pure _
  · exact only_pure _
  · exact only_pure _
  · exact only_pure _

theorem within_provisionLogin (provider : OidcProvider) (facts : IdentityFacts)
    (h : [.bindings, .accounts] ⊆ writes) :
    (provisionLogin env provider facts).Only (Within writes) := by
  have haccounts : Write.accounts ∈ writes := h (by decide)
  apply only_ite (only_pure _)
  apply only_bind
  · refine only_bind_except (within_freeUsernameFrom _ _ _) (fun _ => only_pure _)
      fun username => ?_
    simp [haccounts]
  · intro account
    cases account with
    | error e => exact only_pure _
    | ok account =>
      refine only_bind_except (within_linkSubject provider facts account.id
        (List.Subset.trans (by decide) h)) (fun _ => only_pure _) fun _ => ?_
      simp

theorem within_resolveUnbound (provider : OidcProvider) (facts : IdentityFacts)
    (h : [.bindings, .accounts, .linkWindow] ⊆ writes) :
    (resolveUnbound env provider facts).Only (Within writes) := by
  have hwindow : Write.linkWindow ∈ writes := h (by decide)
  have hprovision := within_provisionLogin env provider facts (List.Subset.trans (by decide) h)
  apply only_ite (only_pure _)
  apply only_ite (only_pure _)
  apply only_bind (by simp)
  intro armed
  rcases armed with e | _ | account
  · exact only_pure _
  · simp [hprovision]
  · refine only_bind_except (within_linkSubject provider facts account.id (List.Subset.trans (by decide) h))
      (fun _ => only_pure _) fun _ => ?_
    simp [hwindow]

theorem within_resolveLogin (provider : OidcProvider) (facts : IdentityFacts)
    (h : [.bindings, .accounts, .linkWindow, .profile] ⊆ writes) :
    (resolveLogin env provider facts).Only (Within writes) := by
  have hprofile : Write.profile ∈ writes := h (by decide)
  have hunbound := within_resolveUnbound env provider facts (List.Subset.trans (by decide) h)
  apply only_ite (only_pure _)
  apply only_bind (by simp)
  intro identity
  rcases identity with e | _ | identity
  · exact only_pure _
  · exact hunbound
  · apply only_bind (by simp)
    intro _
    apply only_bind
    · simp [syncOidcDisplayName, hprofile]
    · exact fun _ => only_pure _

theorem within_syncSuperadmin (provider : OidcProvider) (facts : IdentityFacts) (userId : Uuid)
    (h : [.standing] ⊆ writes) :
    (syncSuperadmin provider facts userId).Only (Within writes) := by
  have hstanding : Write.standing ∈ writes := h (by decide)
  unfold syncSuperadmin
  split
  · exact only_pure _
  · refine only_bind_found (by simp) (fun _ => only_pure _) (only_pure _)
      fun account => ?_
    apply only_ite (only_pure _)
    apply only_bind (by simp [hstanding])
    intro outcome
    rcases outcome with e | _ | _ | _
    · exact only_pure _
    · simp
    · exact only_pure _
    · simp

theorem within_checkAccountUsable (userId : Uuid) :
    (checkAccountUsable userId).Only (Within writes) := by
  simp [checkAccountUsable]

theorem within_callbackLogin (headers : Headers) (provider : OidcProvider) (facts : IdentityFacts)
    (redirectTo : String)
    (h : [.bindings, .accounts, .linkWindow, .standing, .sessions, .profile] ⊆ writes) :
    (callbackLogin env headers provider facts redirectTo).Only (Within writes) := by
  refine only_bind_except (within_resolveLogin env provider facts (List.Subset.trans (by decide) h))
    (fun _ => only_pure _) fun userId => ?_
  refine only_bind_except (within_checkAccountUsable userId) (fun _ => only_pure _)
    fun _ => ?_
  refine only_bind_except (by simp) (fun _ => only_pure _) fun _ => ?_
  apply only_bind (within_syncSuperadmin provider facts userId
    (List.Subset.trans (by decide) h))
  intro _
  refine only_bind_except (within_establishSession env headers userId _
    (List.Subset.trans (by decide) h)) (fun _ => only_pure _) fun new => ?_
  exact only_pure _

theorem within_deviceFinish (headers : Headers) (provider : OidcProvider) (facts : IdentityFacts)
    (linkUserId : Option Uuid)
    (h : [.bindings, .accounts, .linkWindow, .standing, .sessions, .profile] ⊆ writes) :
    (deviceFinish env headers provider facts linkUserId).Only (Within writes) := by
  cases linkUserId with
  | some linkUserId =>
    refine only_bind_except (within_linkSubject provider facts linkUserId
      (List.Subset.trans (by decide) h)) (fun _ => only_pure _) fun _ => ?_
    simp
  | none =>
    refine only_bind_except (within_resolveLogin env provider facts (List.Subset.trans (by decide) h))
      (fun _ => only_pure _) fun userId => ?_
    refine only_bind_except (within_checkAccountUsable userId) (fun _ => only_pure _)
      fun _ => ?_
    refine only_bind_except (by simp) (fun _ => only_pure _) fun _ => ?_
    apply only_bind (within_syncSuperadmin provider facts userId
      (List.Subset.trans (by decide) h))
    exact fun _ => within_issueSession env headers userId _
      (List.Subset.trans (by decide) h)

theorem within_applyUpdate {update : UserStmt (Except DbError AdminUpdateOutcome)}
    (h : Within writes (.user update)) : (applyUpdate update).Only (Within writes) :=
  only_bind (only_call h) fun result => by
    cases result with
    | error e => exact only_pure _
    | ok outcome => exact only_pure _

theorem within_applyGiven {α : Type} {value : Option α}
    {update : α → UserStmt (Except DbError AdminUpdateOutcome)}
    (h : ∀ value, Within writes (.user (update value))) :
    (applyGiven value update).Only (Within writes) := by
  cases value with
  | none => exact only_pure _
  | some value => exact within_applyUpdate (h value)

theorem within_answerUser (id : Uuid) : (answerUser id).Only (Within writes) := by
  simp [answerUser]

end Parts

/-! ## The requests -/

section Requests

variable (env : Env)

theorem within_login (headers : Headers) (body : Except JsonRejection LoginRequest) :
    (login env headers body).Only (Within [.accounts, .sessions, .profile]) := by
  cases body with
  | error rejection => exact only_pure _
  | ok req =>
    have hfound := fun found => within_loginFound env headers req
      (env.sha256Hex (env.normalizeEmail req.email)) found (List.Subset.refl _)
    simp [login, hfound]

theorem within_refresh (headers : Headers) (cookie : Option String) (body : OptionalRefreshBody) :
    (refresh env headers cookie body).Only (Within [.sessions, .profile]) := by
  unfold refresh
  split
  · exact only_pure _
  · simp [refreshSuperseded, rotate, generate]

theorem within_logout (cookie : Option String) (body : OptionalRefreshBody) :
    (logout env cookie body).Only (Within [.sessions]) := by
  unfold logout
  split
  · exact only_pure _
  · simp

theorem within_passwordResetRequest (body : Except JsonRejection String) :
    (passwordResetRequest env body).Only (Within [.resetTokens]) := by
  cases body with
  | error rejection => exact only_pure _
  | ok email => simp [passwordResetRequest, generate]

theorem within_passwordResetConfirm (body : Except JsonRejection PasswordResetConfirmBody) :
    (passwordResetConfirm env body).Only (Within [.resetTokens, .password, .sessions]) := by
  cases body with
  | error rejection => exact only_pure _
  | ok req =>
    apply only_ite (only_pure _)
    apply only_ite (only_pure _)
    refine only_bind_except (by simp) (fun _ => only_pure _) fun _ => ?_
    refine only_bind_found (by simp) (fun _ => only_pure _) (only_pure _)
      fun userId => ?_
    apply only_bind (by simp)
    intro salt
    split
    · exact only_pure _
    · simp [closeSessions]

theorem within_changePassword (userId : Uuid) (body : Except JsonRejection ChangePasswordRequest) :
    (changePassword env userId body).Only (Within [.ownPassword, .sessions]) := by
  cases body with
  | error rejection => exact only_pure _
  | ok req =>
    apply only_ite (only_pure _)
    refine only_bind_except (by simp) (fun _ => only_pure _) fun _ => ?_
    refine only_bind_found (by simp) (fun _ => only_pure _) (only_pure _)
      fun found => ?_
    apply only_ite (only_pure _)
    apply only_ite (only_pure _)
    apply only_ite (only_pure _)
    apply only_bind (by simp)
    intro salt
    split
    · exact only_pure _
    · simp [closeSessions]

theorem within_totpStart (userId : Uuid) :
    (totpStart env userId).Only (Within [.secondFactors]) := by
  unfold totpStart
  split
  · exact only_pure _
  · refine only_bind_except (by simp) (fun _ => only_pure _) fun _ => ?_
    refine only_bind_found (by simp) (fun _ => only_pure _) (only_pure _)
      fun account => ?_
    apply only_bind (by simp)
    intro secret
    apply only_bind (by simp)
    intro nonce
    split
    · exact only_pure _
    · refine only_bind_except (by simp) (fun _ => only_pure _) fun _ => ?_
      dsimp only
      split
      · exact only_pure _
      · exact only_pure _

theorem within_totpConfirm (userId : Uuid) (body : Except JsonRejection TotpConfirmRequest) :
    (totpConfirm env userId body).Only (Within [.secondFactors]) := by
  cases body with
  | error rejection => exact only_pure _
  | ok req =>
    apply only_ite (only_pure _)
    split
    · exact only_pure _
    · refine only_bind_except (by simp) (fun _ => only_pure _) fun _ => ?_
      apply only_bind (by simp)
      intro totp
      rcases totp with e | _ | ⟨enc, confirmed⟩
      · exact only_pure _
      · exact only_pure _
      · dsimp only
        split
        · exact only_pure _
        · have hcodes := within_answerRecoveryCodes env userId "totp_enabled"
            (List.Subset.refl [Write.secondFactors])
          simp [hcodes]

theorem within_totpDisable (userId : Uuid) : (totpDisable userId).Only (Within [.secondFactors]) := by
  simp [totpDisable]

theorem within_recoveryRegenerate (userId : Uuid) :
    (recoveryRegenerate env userId).Only (Within [.secondFactors]) := by
  have hcodes := within_answerRecoveryCodes env userId "recovery_codes_regenerated"
    (List.Subset.refl [Write.secondFactors])
  simp [recoveryRegenerate, hcodes]

theorem within_verifyFactor {writes : List Write} (userId : Uuid) (method code : String)
    (h : [.secondFactors] ⊆ writes) :
    (verifyFactor env userId method code).Only (Within writes) := by
  have hfactors : Write.secondFactors ∈ writes := h (by decide)
  apply only_ite
  · unfold verifyTotpFactor
    split
    · exact only_pure _
    · apply only_bind (by simp)
      intro totp
      rcases totp with e | _ | ⟨enc, _ | _⟩
      · exact only_pure _
      · exact only_pure _
      · exact only_pure _
      · dsimp only
        split
        · exact only_pure _
        · simp
  · apply only_ite _ (only_pure _)
    refine only_bind_except (by simp) (fun _ => only_pure _) fun unused => ?_
    dsimp only
    split
    · exact only_pure _
    · simp [hfactors]

theorem within_twoFactorVerify (headers : Headers)
    (body : Except JsonRejection TwoFactorVerifyRequest) :
    (twoFactorVerify env headers body).Only (Within [.secondFactors, .sessions, .profile]) := by
  cases body with
  | error rejection => exact only_pure _
  | ok req =>
    apply only_ite (only_pure _)
    apply only_bind (by simp)
    intro now
    split
    · exact only_pure _
    · rename_i userId _
      refine only_bind_except (by simp) (fun _ => only_pure _) fun _ => ?_
      have hissue : (issueSession env headers userId "login_2fa_success").Only
          (Within [.secondFactors, .sessions, .profile]) :=
        within_issueSession env headers userId _ (by decide)
      apply only_bind (within_verifyFactor env userId _ _ (by decide))
      intro verified
      simp [hissue]

theorem within_startCeremony {writes : List Write} (userId : Uuid) (kind : CeremonyKind)
    (started : Option (String × String)) (h : [.ceremonies] ⊆ writes) :
    (startCeremony userId kind started).Only (Within writes) := by
  have hceremonies : Write.ceremonies ∈ writes := h (by decide)
  cases started with
  | none => exact only_pure _
  | some started => simp [startCeremony, hceremonies]

theorem within_registerStart (userId : Uuid) :
    (registerStart env userId).Only (Within [.ceremonies]) := by
  have hstart := fun started => within_startCeremony userId .register started
    (List.Subset.refl [Write.ceremonies])
  simp [registerStart, hstart]

theorem within_registerFinish (userId : Uuid) (body : Except JsonRejection PasskeyFinishRequest) :
    (registerFinish env userId body).Only (Within [.ceremonies, .secondFactors]) := by
  cases body with
  | error rejection => exact only_pure _
  | ok req =>
    refine only_bind_except (by simp) (fun _ => only_pure _) fun _ => ?_
    apply only_bind (by simp)
    intro taken
    rcases taken with e | _ | ⟨owner, state⟩
    · exact only_pure _
    · exact only_pure _
    · apply only_ite (only_pure _)
      split
      · exact only_pure _
      · exact only_pure _
      · simp

theorem within_deletePasskey (userId id : Uuid) :
    (deletePasskey userId id).Only (Within [.secondFactors]) := by
  simp [deletePasskey]

theorem within_authenticateStart (body : Except JsonRejection String) :
    (authenticateStart env body).Only (Within [.ceremonies]) := by
  cases body with
  | error rejection => exact only_pure _
  | ok email =>
    apply only_ite (only_pure _)
    refine only_bind_except (by simp) (fun _ => only_pure _) fun _ => ?_
    refine only_bind_found (by simp) (fun _ => only_pure _) (only_pure _)
      fun found => ?_
    refine only_bind_except (by simp) (fun _ => only_pure _) fun creds => ?_
    dsimp only
    split
    · exact only_pure _
    · exact only_pure _
    · apply only_bind (by simp)
      exact fun challenge => within_startCeremony found.id .authenticate _
        (List.Subset.refl _)

theorem within_authenticateFinish (headers : Headers)
    (body : Except JsonRejection PasskeyFinishRequest) :
    (authenticateFinish env headers body).Only
      (Within [.ceremonies, .secondFactors, .sessions, .profile]) := by
  cases body with
  | error rejection => exact only_pure _
  | ok req =>
    refine only_bind_except (by simp) (fun _ => only_pure _) fun _ => ?_
    apply only_bind (by simp)
    intro taken
    rcases taken with e | _ | ⟨_ | userId, state⟩
    · exact only_pure _
    · exact only_pure _
    · exact only_pure _
    · have hissue : (issueSession env headers userId "login_passkey_success").Only
          (Within [.ceremonies, .secondFactors, .sessions, .profile]) :=
        within_issueSession env headers userId _ (by decide)
      dsimp only
      split
      · exact only_pure _
      · exact only_pure _
      · rename_i result _
        have hupdate : (updateStoredPasskey env userId result).Only
            (Within [.ceremonies, .secondFactors, .sessions, .profile]) := by
          refine only_bind_except (by simp) (fun _ => only_pure _) fun creds => ?_
          dsimp only
          split
          · exact only_pure _
          · split
            · exact only_pure _
            · simp
        apply only_ite
        · exact only_bind hupdate fun _ => hissue
        · exact hissue

theorem within_startInner (slug : String) (redirectTo : Option String) (linkUserId : Option Uuid) :
    (startInner env slug redirectTo linkUserId).Only (Within [.ceremonies]) := by
  refine only_bind_except (by simp) (fun _ => only_pure _) fun _ => ?_
  apply only_bind (by simp [enabledProvider])
  intro provider
  cases provider with
  | none => exact only_pure _
  | some provider => simp [createAuthRequest, purgeExpired]

theorem within_callback (headers : Headers) (query : CallbackQuery) :
    (callback env headers query).Only
      (Within [.ceremonies, .bindings, .accounts, .linkWindow, .standing, .sessions, .profile]) := by
  unfold callback
  split
  · exact only_pure _
  · refine only_bind_except (by simp) (fun _ => only_pure _) fun _ => ?_
    refine only_bind_found (by simp) (fun _ => only_pure _) (only_pure _)
      fun pending => ?_
    refine only_bind_found (by simp) (fun _ => only_pure _) (only_pure _)
      fun provider => ?_
    apply only_ite (only_pure _)
    refine only_bind_except (by simp) (fun _ => only_pure _) fun facts => ?_
    dsimp only
    split
    · rename_i linkUserId _
      refine only_bind_except (within_linkSubject provider facts linkUserId (by decide))
        (fun _ => only_pure _) fun _ => ?_
      simp
    · exact within_callbackLogin env headers provider facts _ (by decide)
  · exact only_pure _

theorem within_deviceStartInner (slug : String) (linkUserId : Option Uuid) :
    (deviceStartInner env slug linkUserId).Only (Within [.ceremonies]) := by
  refine only_bind_except (by simp) (fun _ => only_pure _) fun _ => ?_
  apply only_bind (by simp [enabledProvider])
  intro provider
  cases provider with
  | none => exact only_pure _
  | some provider => simp [createDeviceRequest, purgeExpired, generate]

theorem within_devicePoll (headers : Headers) (body : Except JsonRejection String) :
    (devicePoll env headers body).Only
      (Within [.ceremonies, .bindings, .accounts, .linkWindow, .standing, .sessions, .profile]) := by
  cases body with
  | error rejection => exact only_pure _
  | ok pollToken =>
    refine only_bind_except (by simp) (fun _ => only_pure _) fun _ => ?_
    refine only_bind_found (by simp) (fun _ => only_pure _) (only_pure _)
      fun pending => ?_
    apply only_bind
    · unfold polledTooSoon
      split
      · exact only_pure _
      · simp
    · intro tooSoon
      apply only_ite (only_pure _)
      apply only_bind (by simp)
      intro _
      refine only_bind_found (by simp) (fun _ => only_pure _) (only_pure _)
        fun provider => ?_
      apply only_ite (by simp)
      apply only_bind (by simp)
      intro facts
      rcases facts with e | facts
      · cases e <;> simp [devicePollEnded]
      · refine only_bind_except (by simp) (fun _ => only_pure _) fun consumed => ?_
        cases consumed with
        | false => exact only_pure _
        | true => exact within_deviceFinish env headers provider facts _ (by decide)

theorem within_unlinkIdentity (userId id : Uuid) :
    (unlinkIdentity userId id).Only (Within [.bindings]) := by
  refine only_bind_except (by simp) (fun _ => only_pure _) fun _ => ?_
  apply only_bind (by simp)
  intro hasPassword
  apply only_bind (by simp)
  intro count
  apply only_ite (only_pure _)
  refine only_bind_except (by simp) (fun _ => only_pure _) fun unlinked => ?_
  cases unlinked with
  | false => exact only_pure _
  | true => simp

theorem within_updateUser (adminId id : Uuid) (body : Except JsonRejection UpdateUserRequest) :
    (updateUser adminId id body).Only (Within [.standing, .profile]) := by
  cases body with
  | error rejection => exact only_pure _
  | ok req =>
    apply only_ite (only_pure _)
    refine only_bind_except (by simp) (fun _ => only_pure _) fun _ => ?_
    apply only_bind (within_applyGiven (by simp))
    intro refusal
    cases refusal with
    | some refusal => exact only_pure _
    | none =>
      apply only_bind (within_applyGiven (by simp))
      intro refusal
      cases refusal with
      | some refusal => exact only_pure _
      | none =>
        apply only_bind (within_applyGiven (by simp))
        intro refusal
        cases refusal with
        | some refusal => exact only_pure _
        | none =>
          apply only_bind
          · cases req.fullName with
            | none => exact only_pure _
            | some fullName => simp [applyFullName]
          · intro refusal
            cases refusal with
            | some refusal => exact only_pure _
            | none => simp

theorem within_deleteUser (adminId id : Uuid) :
    (deleteUser adminId id).Only (Within [.standing]) := by
  refine only_bind_except (by simp) (fun _ => only_pure _) fun _ => ?_
  apply only_bind (within_applyUpdate (by simp))
  intro refusal
  cases refusal with
  | some refusal => exact only_pure _
  | none => simp

theorem within_resetPassword (adminId id : Uuid) :
    (resetPassword env adminId id).Only (Within [.resetTokens]) := by
  simp [resetPassword, generate]

theorem within_resetTwoFactor (adminId id : Uuid) :
    (resetTwoFactor adminId id).Only (Within [.secondFactors, .sessions]) := by
  simp [resetTwoFactor]

theorem within_banUser (node : Nat) (adminId id : Uuid)
    (body : Except JsonRejection (Option String)) :
    (banUser node adminId id body).Only (Within [.standing, .sessions]) := by
  cases body with
  | error rejection => exact only_pure _
  | ok reason =>
    apply only_ite (only_pure _)
    apply only_ite (only_pure _)
    refine only_bind_except (by simp) (fun _ => only_pure _) fun _ => ?_
    apply only_bind (within_applyUpdate (by simp))
    intro refusal
    cases refusal with
    | some refusal => exact only_pure _
    | none => simp [within_answerUser]

theorem within_unbanUser (node : Nat) (adminId id : Uuid) :
    (unbanUser node adminId id).Only (Within [.standing]) := by
  refine only_bind_except (by simp) (fun _ => only_pure _) fun _ => ?_
  apply only_bind (within_applyUpdate (by simp))
  intro refusal
  cases refusal with
  | some refusal => exact only_pure _
  | none => simp [within_answerUser]

theorem within_createProvider (adminId : Uuid)
    (body : Except JsonRejection UpsertOidcProviderRequest) :
    (createProvider env adminId body).Only (Within [.providers]) := by
  unfold createProvider
  split
  · exact only_pure _
  · refine only_bind_except (by simp) (fun _ => only_pure _) fun _ => ?_
    apply only_bind (by simp)
    intro created
    rcases created with (_ | _ | _) | provider
    · exact only_pure _
    · exact only_pure _
    · exact only_pure _
    · simp

theorem within_updateProvider (adminId id : Uuid)
    (body : Except JsonRejection UpsertOidcProviderRequest) :
    (updateProvider env adminId id body).Only (Within [.providers]) := by
  unfold updateProvider
  split
  · exact only_pure _
  · refine only_bind_except (by simp) (fun _ => only_pure _) fun _ => ?_
    apply only_bind (by simp)
    intro updated
    rcases updated with (_ | _ | _) | _ | provider
    · exact only_pure _
    · exact only_pure _
    · exact only_pure _
    · exact only_pure _
    · simp

theorem within_setLinkArm (adminId id : Uuid) (arm : Bool) :
    (setLinkArm adminId id arm).Only (Within [.linkWindow]) := by
  refine only_bind_except (by simp) (fun _ => only_pure _) fun _ => ?_
  apply only_bind (by simp)
  intro now
  refine only_bind_except (only_call (by simp)) (fun _ => only_pure _)
    fun armed => ?_
  cases armed with
  | false => exact only_pure _
  | true => simp

end Requests

/-- Every request keeps to its groups. -/
theorem handler_within (env : Env) (request : AuthRequest) :
    (request.handler env).Only (Within request.writes) := by
  cases request with
  | login headers body => exact within_login env headers body
  | refresh headers cookie body => exact within_refresh env headers cookie body
  | logout cookie body => exact within_logout env cookie body
  | passwordResetRequest body => exact within_passwordResetRequest env body
  | passwordResetConfirm body => exact within_passwordResetConfirm env body
  | changePassword userId body => exact within_changePassword env userId body
  | totpStart userId => exact within_totpStart env userId
  | totpConfirm userId body => exact within_totpConfirm env userId body
  | totpDisable userId => exact within_totpDisable userId
  | recoveryRegenerate userId => exact within_recoveryRegenerate env userId
  | twoFactorVerify headers body => exact within_twoFactorVerify env headers body
  | registerStart userId => exact within_registerStart env userId
  | registerFinish userId body => exact within_registerFinish env userId body
  | deletePasskey userId id => exact within_deletePasskey userId id
  | authenticateStart body => exact within_authenticateStart env body
  | authenticateFinish headers body => exact within_authenticateFinish env headers body
  | oidcStart slug redirectTo => exact within_startInner env slug redirectTo none
  | oidcLinkStart userId slug redirectTo => exact within_startInner env slug redirectTo (some userId)
  | oidcCallback headers query => exact within_callback env headers query
  | deviceStart slug => exact within_deviceStartInner env slug none
  | deviceLinkStart userId slug => exact within_deviceStartInner env slug (some userId)
  | devicePoll headers body => exact within_devicePoll env headers body
  | unlinkIdentity userId id => exact within_unlinkIdentity userId id
  | updateUser adminId id body => exact within_updateUser adminId id body
  | deleteUser adminId id => exact within_deleteUser adminId id
  | resetPassword adminId id => exact within_resetPassword env adminId id
  | resetTwoFactor adminId id => exact within_resetTwoFactor adminId id
  | banUser node adminId id body => exact within_banUser node adminId id body
  | unbanUser node adminId id => exact within_unbanUser node adminId id
  | createProvider adminId body => exact within_createProvider env adminId body
  | updateProvider adminId id body => exact within_updateProvider env adminId id body
  | setLinkArm adminId id arm => exact within_setLinkArm adminId id arm

end IntelliPilot.Auth
