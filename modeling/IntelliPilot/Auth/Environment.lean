import IntelliPilot.Auth.Schema

/-! # What the handlers are given

The parameters of a deployment, the part of a statement the environment
decides, and the requests' and responses' common vocabulary. Cryptographic
primitives, Unicode case mapping and the WebAuthn ceremonies are library code
and stay parameters; none of the general results assumes anything of them.
-/

namespace IntelliPilot.Auth

-- What holds of all the characters of a text is decided over the text.
attribute [instance (1100)] List.decidableBAll List.decidableBEx Option.decidableForallMem

/-- Characters `str::trim` strips (Unicode `White_Space`). -/
def isWhitespace (c : Char) : Bool :=
  (9 ≤ c.toNat && c.toNat ≤ 13) || c.toNat == 0x20 || c.toNat == 0x85 || c.toNat == 0xA0 ||
    c.toNat == 0x1680 || (0x2000 ≤ c.toNat && c.toNat ≤ 0x200A) || c.toNat == 0x2028 ||
    c.toNat == 0x2029 || c.toNat == 0x202F || c.toNat == 0x205F || c.toNat == 0x3000

/-- `str::trim`. -/
def trim (s : String) : String :=
  String.ofList (((s.toList.dropWhile isWhitespace).reverse.dropWhile isWhitespace).reverse)

/-- `str::eq_ignore_ascii_case`. -/
def eqIgnoreAsciiCase (s t : String) : Bool :=
  s.toList.map Char.toLower == t.toList.map Char.toLower

/-- The result a WebAuthn authentication hands back. -/
structure AuthenticationResult where
  credId : Bytes
  counter : Nat
  needsUpdate : Bool
  deriving DecidableEq, Repr

/-- Why a WebAuthn response is turned down. -/
inductive CeremonyError where
  | malformed
  | rejected
  deriving DecidableEq, Repr

/-- A deployment: its configuration and the library functions it calls. -/
structure Env where
  isDev : Bool
  mailerConfigured : Bool
  pepper : Option Bytes
  publicOrigin : String
  toLowercase : String → String
  toUppercase : String → String
  validEmail : String → Bool
  hashToken : String → String
  sha256Hex : String → String
  verifyPassword : String → String → Option Bytes → Option Bool
  hashPassword : String → Option Bytes → String → Option String
  zxcvbn : String → List String → Nat
  encrypt : Bytes → Bytes → String → Option Bytes
  decrypt : Bytes → Bytes → Option Bytes
  verifyTotp : Bytes → String → Time → Bool
  provisionTotp : Bytes → String → Option (String × String)
  parsePasskey : String → Option Bytes
  startRegistration : Uuid → String → String → String → Option (String × String)
  finishRegistration : String → String → Except CeremonyError (Bytes × String)
  startAuthentication : List String → String → Option (String × String)
  finishAuthentication : String → String → Except CeremonyError AuthenticationResult
  updateCredential : String → AuthenticationResult → Option String
  checkIssuerUrl : String → Bool → Option String

/-- The characters of a text as bytes. -/
def bytesOf (s : String) : Bytes := s.toList.map fun c => UInt8.ofNat c.toNat

/-- A development deployment with transparent primitives: a hash is its text
behind a mark, a password verifies against the hash of its own text and a
passkey is its own credential. -/
def Env.transparent : Env where
  isDev := true
  mailerConfigured := false
  pepper := some []
  publicOrigin := "https://app.example"
  toLowercase := id
  toUppercase := id
  validEmail _ := true
  hashToken raw := "#" ++ raw
  sha256Hex input := "#" ++ input
  verifyPassword password hash _ := some ("#" ++ password == hash)
  hashPassword password _ _ := some ("#" ++ password)
  zxcvbn _ _ := 4
  encrypt _ plaintext _ := some plaintext
  decrypt _ data := some data
  verifyTotp secret code _ := secret.map (fun byte => Char.ofNat byte.toNat) == code.toList
  provisionTotp _ email := some ("otpauth://totp/" ++ email, "")
  parsePasskey passkey := some (bytesOf passkey)
  startRegistration _ _ _ challenge := some (challenge, challenge)
  finishRegistration credential _ := .ok (bytesOf credential, credential)
  startAuthentication passkeys challenge := some (challenge, challenge ++ String.join passkeys)
  finishAuthentication credential state :=
    if state.endsWith credential then .ok ⟨bytesOf credential, 1, true⟩ else .error .rejected
  updateCredential passkey result :=
    if bytesOf passkey = result.credId then some passkey else none
  checkIssuerUrl _ _ := none

/-- An account with the password `secret` there. -/
def aliceDb : Db :=
  { Db.empty with
    users := [⟨0, "alice@example.org", "alice", "Alice", some "#secret", true, false, false,
      .localAccount, none, none, none, none, none, none, none, none⟩]
    nextId := 1 }

/-- `users::normalize_email`. -/
def Env.normalizeEmail (env : Env) (email : String) : String := env.toLowercase (trim email)

/-- The two kinds of PASETO tokens the server issues. -/
inductive TokenType where
  | access
  | mfa
  deriving DecidableEq, Repr

/-- A token of the server's own key. The encryption is authenticated, so a
token is as good as the claims inside it; the nonce tells two issues apart. -/
structure SealedToken where
  tokenType : TokenType
  userId : Uuid
  expiresAt : Time
  nonce : String
  deriving DecidableEq, Repr

/-- `token::verify_typed`. -/
def verifyTyped (expected : TokenType) (now : Time) (token : SealedToken) : Option Uuid :=
  if token.tokenType = expected ∧ now < token.expiresAt then some token.userId else none

def accessTtl : Time := seconds (15 * 60)

def mfaTtl : Time := seconds 60

def refreshTtl : Time := seconds (30 * 24 * 60 * 60)

/-- `ldap::LdapUser`. -/
structure LdapUser where
  email : String
  username : String
  displayName : String
  dn : Option String
  isSuperadmin : Bool
  deriving DecidableEq, Repr

inductive LdapError where
  | invalidCredentials
  | unavailable (detail : String)
  | config (detail : String)
  deriving DecidableEq, Repr

/-- `resolve::IdentityFacts`: what a verified ID token says. -/
structure IdentityFacts where
  issuer : String
  subject : String
  email : String
  emailVerified : Bool
  usernameHint : String
  displayName : String
  groups : List String
  deriving DecidableEq, Repr

inductive OidcError where
  | config (detail : String)
  | unavailable (detail : String)
  | rejected (detail : String)
  | pending
  | slowDown
  deriving DecidableEq, Repr

/-- `flow::StartedFlow`: where to send the browser, and what stays here. -/
structure StartedFlow where
  authorizeUrl : String
  state : String
  nonce : String
  codeVerifier : String
  deriving DecidableEq, Repr

/-- `device::DeviceAuthorization`. -/
structure DeviceAuthorization where
  deviceCode : String
  userCode : String
  verificationUri : String
  verificationUriComplete : Option String
  expiresIn : Option Int
  interval : Option Int
  deriving DecidableEq, Repr

/-- What the environment decides about one statement: how much time has passed
before it, whether it fails, which row an unordered `LIMIT 1` returns, what
the random generator draws and what an outside service answers. -/
structure Choice where
  elapse : Nat := 0
  fault : Bool := false
  pick : Nat := 0
  random : String := ""
  randomBytes : Bytes := []
  ldap : Except LdapError LdapUser := .error .invalidCredentials
  oidc : Except OidcError IdentityFacts := .error .pending
  started : Except OidcError StartedFlow := .error .pending
  device : Except OidcError DeviceAuthorization := .error .pending

/-- The request headers the handlers look at. -/
structure Headers where
  ip : String := ""
  refreshInBody : Option String := none
  deriving DecidableEq, Repr

/-- Why a JSON body could not be read. -/
inductive JsonRejection where
  | missingContentType
  | malformed
  deriving DecidableEq, Repr

/-- What the response does to the refresh cookie. -/
inductive RefreshCookie where
  | keep
  | set (raw : String)
  | clear
  deriving DecidableEq, Repr

inductive Body where
  | empty
  | problem (code title : String) (detail : Option String)
  | invalidFields (fields : List String)
  | fieldError (field message : String)
  | tokens (accessToken : SealedToken) (refreshToken : Option String)
  | mfaRequired (mfaToken : SealedToken) (methods : List String)
  | totpStarted (secret : Bytes) (provisioningUri qr : String)
  | recoveryCodes (codes : List String)
  | resetRequested (resetToken : Option String)
  | resetIssued (resetToken : Option String) (expiresAt : Time)
  | ceremony (stateId : Uuid) (options : String)
  | user (user : User)
  | twoFactorReset (totpCleared : Bool) (passkeysRemoved recoveryCodesRemoved sessionsRevoked : Nat)
  | redirect (location : String)
  | deviceStarted (userCode verificationUri : String) (verificationUriComplete : Option String)
      (pollToken : String) (interval expiresIn : Nat)
  | pending (interval : Nat)
  | provider (provider : OidcProvider)
  deriving DecidableEq, Repr

structure Response where
  status : Nat
  cookie : RefreshCookie
  body : Body
  deriving DecidableEq, Repr

/-- `handlers::problem`. -/
def problem (status : Nat) (code title : String) (detail : Option String) : Response :=
  ⟨status, .keep, .problem code title detail⟩

/-- `handlers::internal`. -/
def internal : Response := problem 500 "internal_error" "Internal Server Error" none

/-- `handlers::unauthorized`. -/
def unauthorized : Response := problem 401 "unauthorized" "Unauthorized" none

def notFound : Response := problem 404 "not_found" "Not Found" none

/-- `StatusCode::NO_CONTENT.into_response()`. -/
def noContent : Response := ⟨204, .keep, .empty⟩

/-- `handlers::parse_json`, the refusals. -/
def JsonRejection.response : JsonRejection → Response
  | .missingContentType =>
      problem 415 "unsupported_media_type" "Unsupported Media Type"
        (some "expected application/json")
  | .malformed =>
      problem 400 "invalid_body" "Invalid Request Body" (some "could not parse JSON")

/-- `handlers::validation_problem`, with the paths of the offending fields. -/
def validationProblem (fields : List String) : Response :=
  ⟨422, .keep, .invalidFields fields⟩

/-- `length(min, max)` of a request field: bytes, both ends included. -/
def lengthBetween (low high : Nat) (s : String) : Bool :=
  low ≤ s.utf8ByteSize && s.utf8ByteSize ≤ high

end IntelliPilot.Auth
