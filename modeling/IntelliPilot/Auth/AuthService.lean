import IntelliPilot.Auth.OidcHandlers
import IntelliPilot.Auth.SessionService

/-! # The authentication service

Every request the handlers of the other modules answer, and the service that
answers them.
-/

namespace IntelliPilot.Auth

open Statement

inductive AuthRequest where
  | login (headers : Headers) (body : Except JsonRejection LoginRequest)
  | refresh (headers : Headers) (cookie : Option String) (body : OptionalRefreshBody)
  | logout (cookie : Option String) (body : OptionalRefreshBody)
  | passwordResetRequest (body : Except JsonRejection String)
  | passwordResetConfirm (body : Except JsonRejection PasswordResetConfirmBody)
  | changePassword (userId : Uuid) (body : Except JsonRejection ChangePasswordRequest)
  | totpStart (userId : Uuid)
  | totpConfirm (userId : Uuid) (body : Except JsonRejection TotpConfirmRequest)
  | totpDisable (userId : Uuid)
  | recoveryRegenerate (userId : Uuid)
  | twoFactorVerify (headers : Headers) (body : Except JsonRejection TwoFactorVerifyRequest)
  | registerStart (userId : Uuid)
  | registerFinish (userId : Uuid) (body : Except JsonRejection PasskeyFinishRequest)
  | deletePasskey (userId id : Uuid)
  | authenticateStart (body : Except JsonRejection String)
  | authenticateFinish (headers : Headers) (body : Except JsonRejection PasskeyFinishRequest)
  | oidcStart (slug : String) (redirectTo : Option String)
  | oidcLinkStart (userId : Uuid) (slug : String) (redirectTo : Option String)
  | oidcCallback (headers : Headers) (query : CallbackQuery)
  | deviceStart (slug : String)
  | deviceLinkStart (userId : Uuid) (slug : String)
  | devicePoll (headers : Headers) (body : Except JsonRejection String)
  | unlinkIdentity (userId id : Uuid)
  | updateUser (adminId id : Uuid) (body : Except JsonRejection UpdateUserRequest)
  | deleteUser (adminId id : Uuid)
  | resetPassword (adminId id : Uuid)
  | resetTwoFactor (adminId id : Uuid)
  | banUser (node : Nat) (adminId id : Uuid) (body : Except JsonRejection (Option String))
  | unbanUser (node : Nat) (adminId id : Uuid)
  | createProvider (adminId : Uuid) (body : Except JsonRejection UpsertOidcProviderRequest)
  | updateProvider (adminId id : Uuid) (body : Except JsonRejection UpsertOidcProviderRequest)
  | setLinkArm (adminId id : Uuid) (arm : Bool)
  deriving DecidableEq

def AuthRequest.handler (env : Env) : AuthRequest → Handler Response
  | .login headers body => Auth.login env headers body
  | .refresh headers cookie body => Auth.refresh env headers cookie body
  | .logout cookie body => Auth.logout env cookie body
  | .passwordResetRequest body => Auth.passwordResetRequest env body
  | .passwordResetConfirm body => Auth.passwordResetConfirm env body
  | .changePassword userId body => Auth.changePassword env userId body
  | .totpStart userId => Auth.totpStart env userId
  | .totpConfirm userId body => Auth.totpConfirm env userId body
  | .totpDisable userId => Auth.totpDisable userId
  | .recoveryRegenerate userId => Auth.recoveryRegenerate env userId
  | .twoFactorVerify headers body => Auth.twoFactorVerify env headers body
  | .registerStart userId => Auth.registerStart env userId
  | .registerFinish userId body => Auth.registerFinish env userId body
  | .deletePasskey userId id => Auth.deletePasskey userId id
  | .authenticateStart body => Auth.authenticateStart env body
  | .authenticateFinish headers body => Auth.authenticateFinish env headers body
  | .oidcStart slug redirectTo => Auth.start env slug redirectTo
  | .oidcLinkStart userId slug redirectTo => Auth.linkStart env userId slug redirectTo
  | .oidcCallback headers query => Auth.callback env headers query
  | .deviceStart slug => Auth.deviceStart env slug
  | .deviceLinkStart userId slug => Auth.deviceLinkStart env userId slug
  | .devicePoll headers body => Auth.devicePoll env headers body
  | .unlinkIdentity userId id => Auth.unlinkIdentity userId id
  | .updateUser adminId id body => Auth.updateUser adminId id body
  | .deleteUser adminId id => Auth.deleteUser adminId id
  | .resetPassword adminId id => Auth.resetPassword env adminId id
  | .resetTwoFactor adminId id => Auth.resetTwoFactor adminId id
  | .banUser node adminId id body => Auth.banUser node adminId id body
  | .unbanUser node adminId id => Auth.unbanUser node adminId id
  | .createProvider adminId body => Auth.createProvider env adminId body
  | .updateProvider adminId id body => Auth.updateProvider env adminId id body
  | .setLinkArm adminId id arm => Auth.setLinkArm adminId id arm

def fullService (env : Env) : Service Stmt Db Choice AuthRequest Response :=
  authService (AuthRequest.handler env)

abbrev FullWorld : Type 1 := World Stmt Db AuthRequest Response

abbrev FullEvent : Type 1 := Event Stmt AuthRequest Response

end IntelliPilot.Auth
