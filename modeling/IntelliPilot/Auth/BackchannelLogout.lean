import IntelliPilot.Auth.Frames
import IntelliPilot.Auth.OidcHandlers
import IntelliPilot.Statement.Alone
import IntelliPilot.Text.Strings
import Mathlib

/-! # Back-channel logout

`backchannel::verify` and the handler behind it. Base64, JSON and the
signature check are library code and stay parameters; everything the module
decides itself is written out. A token is accepted exactly if it is a signed
logout token for this client, and an answer 200 means that everybody is signed
out exactly if neither the look-up nor a revocation that matters has failed.
-/

namespace IntelliPilot.Auth

open Rows Statement

namespace Backchannel

/-- `JwsHeader`. -/
structure JwsHeader where
  alg : String
  kid : Option String
  enc : Option String
  deriving DecidableEq, Repr

/-- `Audience`. -/
inductive Audience where
  | one (client : String)
  | many (clients : List String)
  deriving DecidableEq, Repr

/-- `Audience::contains`. -/
def Audience.contains (audience : Audience) (clientId : String) : Bool :=
  match audience with
  | .one client => client == clientId
  | .many clients => clients.any (· == clientId)

/-- A `serde_json::Value`: an object with its keys, or something else. -/
inductive JsonValue where
  | object (keys : List String)
  | other
  deriving DecidableEq, Repr

/-- `LogoutClaims`. -/
structure LogoutClaims where
  iss : String
  sub : Option String
  sid : Option String
  aud : Audience
  iat : Int
  events : Option JsonValue
  nonce : Option JsonValue
  deriving DecidableEq, Repr

/-- `LogoutSubject`. -/
structure LogoutSubject where
  issuer : String
  subject : Option String
  deriving DecidableEq, Repr

/-- The library code the token checks call. A key verifies a signature of the
input under an algorithm, or it does not. -/
structure Jose (Key : Type) where
  decodeBase64 : String → Option Bytes
  readHeader : Bytes → Except String JwsHeader
  readClaims : Bytes → Except String LogoutClaims
  algorithms : List String
  keyId : Key → Option String
  verifySignature : Key → String → String → Bytes → Bool

/-- The discovered metadata: `issuer()` and the keys of `jwks()`. -/
structure Metadata (Key : Type) where
  issuer : String
  jwks : List Key
  deriving DecidableEq, Repr

variable {Key : Type}

/-! ## The checks of `verify` -/

/-- `LOGOUT_EVENT`. -/
def logoutEvent : String := "http://schemas.openid.net/event/backchannel-logout"

/-- `MAX_IAT_SKEW_SECS`. -/
def maxIatSkew : Int := 300

/-- `MAX_IAT_AGE_SECS`. -/
def maxIatAge : Int := 600

/-- A check of the token. -/
def ensure (holds : Bool) (detail : String) : Except OidcError Unit :=
  if holds then .ok () else .error (.rejected detail)

/-- `decode_json`. -/
def decodeJson {α : Type} (lib : Jose Key) (read : Bytes → Except String α) (part what : String) :
    Except OidcError α :=
  match lib.decodeBase64 part with
  | none => .error (.rejected ("logout token " ++ what ++ " is not base64url"))
  | some raw =>
    match read raw with
    | .error e => .error (.rejected ("logout token " ++ what ++ " is not valid JSON: " ++ e))
    | .ok value => .ok value

/-- A token taken apart, its header read. -/
structure Parts where
  header : String
  payload : String
  signature : String
  alg : String
  kid : Option String
  deriving DecidableEq, Repr

/-- The beginning of `verify`: the parts and the header. -/
def takeApart (lib : Jose Key) (logoutToken : String) : Except OidcError Parts :=
  match Text.split logoutToken '.' with
  | [header64, payload64, signature64] => do
    let header ← decodeJson lib lib.readHeader header64 "header"
    ensure header.enc.isNone "encrypted logout tokens are not supported"
    ensure (lib.algorithms.contains header.alg) ("unsupported alg " ++ header.alg)
    ensure (header.alg != "none") "unsigned logout token refused"
    return ⟨header64, payload64, signature64, header.alg, header.kid⟩
  | _ => .error (.rejected "logout token is not a compact JWS")

/-- With a `kid`, only that key may be used. -/
def keyFits (kid keyId : Option String) : Bool :=
  match kid, keyId with
  | some want, some held => want == held
  | some _, none => false
  | none, _ => true

/-- The signature check, against the published keys. -/
def checkSignature (lib : Jose Key) (metadata : Metadata Key) (parts : Parts) :
    Except OidcError Unit :=
  match lib.decodeBase64 parts.signature with
  | none => .error (.rejected "logout token signature is not base64url")
  | some signature =>
    ensure (metadata.jwks.any fun key => keyFits parts.kid (lib.keyId key) &&
        lib.verifySignature key parts.alg (parts.header ++ "." ++ parts.payload) signature)
      "logout token signature did not verify"

/-- The claims, up to the audience. -/
def identify (lib : Jose Key) (metadata : Metadata Key) (clientId : String) (parts : Parts) :
    Except OidcError LogoutClaims := do
  let claims ← decodeJson lib lib.readClaims parts.payload "payload"
  ensure claims.nonce.isNone "logout token carries a nonce, which the specification prohibits"
  ensure (claims.iss == metadata.issuer) "logout token issuer mismatch"
  ensure (claims.aud.contains clientId) "logout token audience mismatch"
  return claims

/-- `i64::saturating_sub`. -/
def saturatingSub (a b : Int) : Int := max (-2 ^ 63) (min (2 ^ 63 - 1) (a - b))

/-- The event is announced. -/
def LogoutClaims.hasEvent (claims : LogoutClaims) : Bool :=
  match claims.events with
  | some (.object keys) => keys.contains logoutEvent
  | _ => false

/-- The end of `verify`, at a moment. -/
def checkCurrent (now : Int) (claims : LogoutClaims) : Except OidcError LogoutSubject := do
  let age := saturatingSub now claims.iat
  ensure (decide (-maxIatSkew ≤ age) && decide (age ≤ maxIatAge)) "logout token is not current"
  ensure (claims.sub.isSome || claims.sid.isSome) "logout token identifies no session"
  ensure claims.hasEvent "logout token carries no back-channel logout event"
  return ⟨claims.iss, claims.sub⟩

/-! ## The handler -/

/-- The metadata cache and the look-up by issuer. -/
inductive IssuerStmt (Key : Type) : Type → Type where
  | metadata (providerId : Uuid) : IssuerStmt Key (Except OidcError (Metadata Key))
  | findUsersByIssuerSubject (issuer subject : String) :
      IssuerStmt Key (Except DbError (List Uuid))

/-- These, and the statements of the other modules. -/
inductive LogoutStmt (Key β : Type) : Type where
  | auth (stmt : Stmt β)
  | issuer (stmt : IssuerStmt Key β)

/-- The environment's part in a statement. -/
structure LogoutChoice (Key : Type) where
  base : Choice := {}
  metadata : Except OidcError (Metadata Key)

/-- `find_users_by_issuer_subject`. -/
def findUsersByIssuerSubject (issuer subject : String) (db : Db) : List Uuid :=
  ((db.oidcIdentities.filter fun row =>
    row.issuer == issuer && row.subject == subject).map (·.userId)).dedup

def IssuerStmt.exec {β : Type} (stmt : IssuerStmt Key β) (choice : LogoutChoice Key) (db : Db) :
    β × Db :=
  match stmt with
  | .metadata _ => (choice.metadata, db.advance choice.base.elapse)
  | .findUsersByIssuerSubject issuer subject =>
      attempt choice.base (db.advance choice.base.elapse) fun db =>
        (.ok (Backchannel.findUsersByIssuerSubject issuer subject db), db)

def exec {β : Type} (stmt : LogoutStmt Key β) (choice : LogoutChoice Key) (db : Db) : β × Db :=
  match stmt with
  | .auth stmt => stmt.exec choice.base db
  | .issuer stmt => stmt.exec choice db

def auth {β : Type} (stmt : Stmt β) : Prog (LogoutStmt Key) β := Prog.call (.auth stmt)

/-- `OffsetDateTime::unix_timestamp`. -/
def unixTimestamp (now : Time) : Int := ((now / seconds 1 : Nat) : Int)

/-- `backchannel::verify`. -/
def verify (lib : Jose Key) (provider : OidcProvider) (clientId logoutToken : String) :
    Prog (LogoutStmt Key) (Except OidcError LogoutSubject) := do
  match takeApart lib logoutToken with
  | .error e => return .error e
  | .ok parts =>
    match ← Prog.call (.issuer (.metadata provider.id)) with
    | .error e => return .error e
    | .ok metadata =>
      match checkSignature lib metadata parts with
      | .error e => return .error e
      | .ok _ =>
        match identify lib metadata clientId parts with
        | .error e => return .error e
        | .ok claims =>
          let now ← auth (.platform .now)
          return checkCurrent (unixTimestamp now) claims

/-- The answer 200 without a body. -/
def ok : Response := ⟨200, .keep, .empty⟩

/-- The loop over the accounts; failures are dropped. -/
def signOut : List Uuid → Prog (LogoutStmt Key) Response
  | [] => return ok
  | userId :: rest => do
    let _ ← auth (.session (.revokeAllForUser userId "oidc_backchannel_logout"))
    auth (.platform (.audit (some userId) "oidc_backchannel_logout"))
    signOut rest

/-- `OidcError`'s `Display`. -/
def errorText : OidcError → String
  | .config detail => "provider is misconfigured: " ++ detail
  | .unavailable detail => "identity provider unavailable: " ++ detail
  | .rejected detail => "identity provider rejected the request: " ++ detail
  | .pending => "authorization pending"
  | .slowDown => "slow down"

/-- `backchannel_logout`; `clientIds` are the providers' `client_id`s. -/
def backchannelLogout (lib : Jose Key) (clientIds : Uuid → String) (slug logoutToken : String) :
    Prog (LogoutStmt Key) Response := do
  match ← auth (.platform .getPool) with
  | .error _ => return internal
  | .ok _ =>
    let found ← auth (.oidc (.getBySlug slug))
    match found.toOption.join.filter (·.enabled) with
    | none => return notFound
    | some provider =>
      match ← verify lib provider (clientIds provider.id) logoutToken with
      | .error e => return problem 400 "invalid_logout_token" "Bad Request" (some (errorText e))
      | .ok ⟨_, none⟩ => return ok
      | .ok ⟨issuer, some sub⟩ =>
        let userIds ← Prog.call (.issuer (.findUsersByIssuerSubject issuer sub))
        signOut (userIds.toOption.getD [])

/-! ## Which tokens are accepted -/

/-- A token and what its signature rests on. -/
structure Evidence (Key : Type) where
  parts : Parts
  key : Key
  claims : LogoutClaims

/-- A signed token, not an encrypted one, under an algorithm other than `none`.
Its signature is that of a published key, the one it names if it names one. -/
structure Signed (lib : Jose Key) (metadata : Metadata Key) (logoutToken : String)
    (evidence : Evidence Key) : Prop where
  compact : Text.split logoutToken '.' =
    [evidence.parts.header, evidence.parts.payload, evidence.parts.signature]
  header : ∃ raw, lib.decodeBase64 evidence.parts.header = some raw ∧
    lib.readHeader raw = .ok ⟨evidence.parts.alg, evidence.parts.kid, none⟩
  algorithm : evidence.parts.alg ∈ lib.algorithms ∧ evidence.parts.alg ≠ "none"
  published : evidence.key ∈ metadata.jwks
  named : ∀ kid, evidence.parts.kid = some kid → lib.keyId evidence.key = some kid
  signature : ∃ raw, lib.decodeBase64 evidence.parts.signature = some raw ∧
    lib.verifySignature evidence.key evidence.parts.alg
      (evidence.parts.header ++ "." ++ evidence.parts.payload) raw = true
  payload : ∃ raw, lib.decodeBase64 evidence.parts.payload = some raw ∧
    lib.readClaims raw = .ok evidence.claims

/-- The claims of a logout token of this issuer, for this client, at this moment. -/
structure LogsOut (issuer clientId : String) (now : Int) (claims : LogoutClaims) : Prop where
  issuer : claims.iss = issuer
  audience : claims.aud.contains clientId = true
  current : -maxIatSkew ≤ now - claims.iat ∧ now - claims.iat ≤ maxIatAge
  event : claims.hasEvent = true
  session : claims.sub ≠ none ∨ claims.sid ≠ none
  noNonce : claims.nonce = none

theorem keyFits_iff {kid keyId : Option String} :
    keyFits kid keyId = true ↔ ∀ want, kid = some want → keyId = some want := by
  cases kid with
  | none => simp [keyFits]
  | some want =>
    cases keyId with
    | none => simp [keyFits]
    | some held =>
      simp only [keyFits, beq_iff_eq, Option.some.injEq, forall_eq']
      exact eq_comm

theorem bind_ok_iff {α β : Type} {first : Except OidcError α} {rest : α → Except OidcError β}
    {result : β} : first >>= rest = .ok result ↔ ∃ a, first = .ok a ∧ rest a = .ok result := by
  cases first with
  | error e =>
    constructor
    · exact fun h => by cases h
    · rintro ⟨a, ha, _⟩
      cases ha
  | ok a =>
    constructor
    · exact fun h => ⟨a, rfl, h⟩
    · rintro ⟨a', ha, h⟩
      cases ha
      exact h

theorem ensure_ok_iff {holds : Bool} {detail : String} {u : Unit} :
    ensure holds detail = .ok u ↔ holds = true := by
  cases holds <;> simp [ensure]

variable {lib : Jose Key}

theorem decodeJson_ok_iff {α : Type} {read : Bytes → Except String α} {part what : String}
    {value : α} : decodeJson lib read part what = .ok value ↔
      ∃ raw, lib.decodeBase64 part = some raw ∧ read raw = .ok value := by
  unfold decodeJson
  cases lib.decodeBase64 part with
  | none => simp
  | some raw => cases hread : read raw <;> simp [hread]

variable {logoutToken : String} {parts : Parts}

theorem takeApart_ok_iff :
    takeApart lib logoutToken = .ok parts ↔
      Text.split logoutToken '.' = [parts.header, parts.payload, parts.signature] ∧
      (∃ raw, lib.decodeBase64 parts.header = some raw ∧
        lib.readHeader raw = .ok ⟨parts.alg, parts.kid, none⟩) ∧
      parts.alg ∈ lib.algorithms ∧ parts.alg ≠ "none" := by
  unfold takeApart
  split
  · rename_i header64 payload64 signature64 hsplit
    simp only [bind_ok_iff, ensure_ok_iff, decodeJson_ok_iff, pure, Except.pure, Except.ok.injEq,
      List.contains_iff_mem, bne_iff_ne, Option.isNone_iff_eq_none, exists_const]
    constructor
    · rintro ⟨⟨alg, kid, enc⟩, hheader, rfl, hknown, hnone, rfl⟩
      exact ⟨hsplit, hheader, hknown, hnone⟩
    · obtain ⟨header, payload, signature, alg, kid⟩ := parts
      rintro ⟨hparts, hheader, hknown, hnone⟩
      rw [hsplit] at hparts
      simp only [List.cons.injEq, and_true] at hparts
      obtain ⟨rfl, rfl, rfl⟩ := hparts
      exact ⟨⟨alg, kid, none⟩, hheader, rfl, hknown, hnone, rfl⟩
  · rename_i hsplit
    constructor
    · intro h
      cases h
    · rintro ⟨hparts, _⟩
      exact absurd hparts (hsplit _ _ _)

variable {metadata : Metadata Key}

theorem checkSignature_ok_iff {u : Unit} :
    checkSignature lib metadata parts = .ok u ↔ ∃ signature,
      lib.decodeBase64 parts.signature = some signature ∧ ∃ key ∈ metadata.jwks,
        (∀ kid, parts.kid = some kid → lib.keyId key = some kid) ∧
          lib.verifySignature key parts.alg (parts.header ++ "." ++ parts.payload) signature =
            true := by
  unfold checkSignature
  cases lib.decodeBase64 parts.signature with
  | none => simp
  | some signature => simp [ensure_ok_iff, keyFits_iff]

variable {clientId : String}

theorem identify_ok_iff {claims : LogoutClaims} :
    identify lib metadata clientId parts = .ok claims ↔
      (∃ raw, lib.decodeBase64 parts.payload = some raw ∧ lib.readClaims raw = .ok claims) ∧
        claims.nonce = none ∧ claims.iss = metadata.issuer ∧
          claims.aud.contains clientId = true := by
  simp only [identify, bind_ok_iff, ensure_ok_iff, decodeJson_ok_iff, pure, Except.pure,
    Except.ok.injEq, Option.isNone_iff_eq_none, beq_iff_eq, exists_const]
  constructor
  · rintro ⟨claims', hread, hnonce, hissuer, haudience, rfl⟩
    exact ⟨hread, hnonce, hissuer, haudience⟩
  · rintro ⟨hread, hnonce, hissuer, haudience⟩
    exact ⟨claims, hread, hnonce, hissuer, haudience, rfl⟩

/-- Saturation plays no part in the bounds. -/
theorem saturatingSub_bounds {a b : Int} :
    -maxIatSkew ≤ saturatingSub a b ∧ saturatingSub a b ≤ maxIatAge ↔
      -maxIatSkew ≤ a - b ∧ a - b ≤ maxIatAge := by
  unfold saturatingSub maxIatSkew maxIatAge
  omega

variable {subject : LogoutSubject}

theorem checkCurrent_ok_iff {now : Int} {claims : LogoutClaims} :
    checkCurrent now claims = .ok subject ↔
      (-maxIatSkew ≤ now - claims.iat ∧ now - claims.iat ≤ maxIatAge) ∧
        (claims.sub ≠ none ∨ claims.sid ≠ none) ∧ claims.hasEvent = true ∧
          subject = ⟨claims.iss, claims.sub⟩ := by
  simp only [checkCurrent, bind_ok_iff, ensure_ok_iff, pure, Except.pure, Except.ok.injEq,
    Bool.and_eq_true, decide_eq_true_eq, Bool.or_eq_true, saturatingSub_bounds, exists_const,
    Option.isSome_iff_ne_none]
  rw [eq_comm (a := subject)]

/-- The verdict of `verify` on a token, given the metadata and the moment. -/
def verified (lib : Jose Key) (metadata : Except OidcError (Metadata Key)) (now : Int)
    (clientId logoutToken : String) : Except OidcError LogoutSubject := do
  let parts ← takeApart lib logoutToken
  let metadata ← metadata
  checkSignature lib metadata parts
  let claims ← identify lib metadata clientId parts
  checkCurrent now claims

theorem verified_ok_iff {metadata : Except OidcError (Metadata Key)} {now : Int} :
    verified lib metadata now clientId logoutToken = .ok subject ↔
      ∃ published, metadata = .ok published ∧ ∃ evidence,
        Signed lib published logoutToken evidence ∧
          LogsOut published.issuer clientId now evidence.claims ∧
            subject = ⟨evidence.claims.iss, evidence.claims.sub⟩ := by
  simp only [verified, bind_ok_iff, takeApart_ok_iff, checkSignature_ok_iff, identify_ok_iff,
    checkCurrent_ok_iff]
  constructor
  · rintro ⟨parts, ⟨hcompact, hheader, hknown, hnone⟩, published, hpublished, -,
      ⟨signature, hsignature, key, hkey, hnamed, hverifies⟩, claims,
      ⟨hpayload, hnonce, hissuer, haudience⟩, hcurrent, hsession, hevent, hsubject⟩
    exact ⟨published, hpublished, ⟨parts, key, claims⟩,
      ⟨hcompact, hheader, ⟨hknown, hnone⟩, hkey, hnamed, ⟨signature, hsignature, hverifies⟩,
        hpayload⟩,
      ⟨hissuer, haudience, hcurrent, hevent, hsession, hnonce⟩, hsubject⟩
  · rintro ⟨published, hpublished, ⟨parts, key, claims⟩, hsigned, hlogsOut, hsubject⟩
    obtain ⟨signature, hsignature, hverifies⟩ := hsigned.signature
    exact ⟨parts, ⟨hsigned.compact, hsigned.header, hsigned.algorithm.1, hsigned.algorithm.2⟩,
      published, hpublished, (), ⟨signature, hsignature, key, hsigned.published, hsigned.named,
        hverifies⟩, claims, ⟨hsigned.payload, hlogsOut.noNonce, hlogsOut.issuer,
        hlogsOut.audience⟩, hlogsOut.current, hlogsOut.session, hlogsOut.event, hsubject⟩

/-- The moment of the second of two statements. -/
def moment (choices : Nat → LogoutChoice Key) (db : Db) : Int :=
  unixTimestamp ((db.advance (choices 0).base.elapse).advance (choices 1).base.elapse).now

theorem verify_alone (lib : Jose Key) (provider : OidcProvider) (clientId logoutToken : String)
    (choices : Nat → LogoutChoice Key) (db : Db) :
    ((verify lib provider clientId logoutToken).alone exec choices db).1 =
      verified lib (choices 0).metadata (moment choices db) clientId logoutToken := by
  unfold verify verified
  cases htaken : takeApart lib logoutToken with
  | error e => rfl
  | ok parts =>
    show (Prog.alone exec (match (choices 0).metadata with
      | .error e => _
      | .ok metadata => _) _ _).1 = _
    cases hmetadata : (choices 0).metadata with
    | error e => rfl
    | ok metadata =>
      cases hsignature : checkSignature lib metadata parts with
      | error e => simp [hsignature, bind, Except.bind, Prog.alone]
      | ok _ =>
        cases hclaims : identify lib metadata clientId parts with
        | error e => simp [hsignature, hclaims, bind, Except.bind, Prog.alone]
        | ok claims =>
          simp only [hsignature, hclaims]
          show _ = (checkSignature lib metadata parts >>= fun _ =>
            identify lib metadata clientId parts >>= checkCurrent (moment choices db))
          rw [hsignature]
          show _ = identify lib metadata clientId parts >>= checkCurrent (moment choices db)
          rw [hclaims]
          rfl

/-- A token that is accepted has taken its two statements. -/
theorem verify_bind_alone {ρ : Type} {provider : OidcProvider} {choices : Nat → LogoutChoice Key}
    {db : Db}
    (h : verified lib (choices 0).metadata (moment choices db) clientId logoutToken = .ok subject)
    (next : Except OidcError LogoutSubject → Prog (LogoutStmt Key) ρ) :
    (verify lib provider clientId logoutToken >>= next).alone exec choices db =
      (next (.ok subject)).alone exec (fun n => choices (n + 2))
        ((db.advance (choices 0).base.elapse).advance (choices 1).base.elapse) := by
  unfold verified at h
  obtain ⟨parts, hparts, h⟩ := bind_ok_iff.mp h
  obtain ⟨metadata, hmetadata, h⟩ := bind_ok_iff.mp h
  obtain ⟨u, hsignature, h⟩ := bind_ok_iff.mp h
  obtain ⟨claims, hclaims, hcurrent⟩ := bind_ok_iff.mp h
  unfold verify
  simp only [hparts]
  show Prog.alone exec ((match (choices 0).metadata with
    | .error e => _
    | .ok metadata => _) >>= next) _ _ = _
  simp only [hmetadata, hsignature, hclaims]
  show (next (checkCurrent (moment choices db) claims)).alone exec _ _ = _
  rw [hcurrent]
  rfl

/-! ## Who is signed out -/

/-- The account holds the identity. -/
def Holds (db : Db) (issuer sub : String) (userId : Uuid) : Prop :=
  ∃ row ∈ db.oidcIdentities, row.issuer = issuer ∧ row.subject = sub ∧ row.userId = userId

theorem mem_findUsers {db : Db} {issuer sub : String} {userId : Uuid} :
    userId ∈ findUsersByIssuerSubject issuer sub db ↔ Holds db issuer sub userId := by
  simp only [findUsersByIssuerSubject, List.mem_dedup, List.mem_map, List.mem_filter,
    Bool.and_eq_true, beq_iff_eq, Holds]
  constructor
  · rintro ⟨row, ⟨hrow, hissuer, hsub⟩, huser⟩
    exact ⟨row, hrow, hissuer, hsub, huser⟩
  · rintro ⟨row, hrow, hissuer, hsub, huser⟩
    exact ⟨row, ⟨hrow, hissuer, hsub⟩, huser⟩

theorem families_advance (db : Db) (elapse : Nat) :
    (db.advance elapse).families = db.families := rfl

theorem findUsers_advance (issuer sub : String) (db : Db) (elapse : Nat) :
    findUsersByIssuerSubject issuer sub (db.advance elapse) =
      findUsersByIssuerSubject issuer sub db := rfl

/-- What became of the families the loop passed: those of the accounts whose
revocation went through are revoked, all others as before. -/
structure Closes (userIds : List Uuid) (choices : Nat → LogoutChoice Key) (family after : Family) :
    Prop where
  id : after.id = family.id
  userId : after.userId = family.userId
  others : family.userId ∉ userIds → after = family
  revoked : after.revokedAt ≠ none ↔ family.revokedAt ≠ none ∨
    ∃ k, userIds[k]? = some family.userId ∧ (choices (2 * k)).base.fault = false

/-- One revocation, that goes through or fails. -/
theorem revoke_families (userId : Uuid) (choice : LogoutChoice Key) (db : Db) :
    ∃ g : Family → Family, (exec (.auth (.session
        (.revokeAllForUser userId "oidc_backchannel_logout"))) choice db).2.families =
          db.families.map g ∧
      ∀ family, (g family).id = family.id ∧ (g family).userId = family.userId ∧
        (family.userId ≠ userId → g family = family) ∧
        ((g family).revokedAt ≠ none ↔ family.revokedAt ≠ none ∨
          family.userId = userId ∧ choice.base.fault = false) := by
  cases hfault : choice.base.fault with
  | true =>
    refine ⟨fun family => family, ?_, fun family => ⟨rfl, rfl, fun _ => rfl, by simp⟩⟩
    simp [exec, Stmt.exec, Stmt.effect, SessionStmt.exec, attempt_error hfault, Db.advance]
  | false =>
    refine ⟨fun family => if family.userId == userId && family.revokedAt.isNone then
      { family with revokedAt := some (db.advance choice.base.elapse).now,
                    revokedReason := some "oidc_backchannel_logout" } else family, ?_, ?_⟩
    · simp [exec, Stmt.exec, Stmt.effect, SessionStmt.exec, attempt_ok hfault,
        Sessions.revokeWhere, updateWhere, Db.advance]
    · intro family
      dsimp only
      split
      · rename_i hopen
        simp only [Bool.and_eq_true, beq_iff_eq, Option.isNone_iff_eq_none] at hopen
        simp [hopen.1]
      · rename_i hshut
        simp only [Bool.and_eq_true, beq_iff_eq, Option.isNone_iff_eq_none, not_and] at hshut
        refine ⟨rfl, rfl, fun _ => rfl, ?_⟩
        constructor
        · exact Or.inl
        · rintro (hrevoked | ⟨huser, -⟩)
          · exact hrevoked
          · exact hshut huser

/-- The audit entry changes no family. -/
theorem audit_families (userId : Option Uuid) (action : String) (choice : LogoutChoice Key)
    (db : Db) : (exec (.auth (.platform (.audit userId action))) choice db).2.families =
      db.families :=
  ((Stmt.unchanged _ choice.base db).sessions rfl).1

theorem signOut_alone (userIds : List Uuid) (choices : Nat → LogoutChoice Key) (db : Db) :
    ((signOut userIds).alone exec choices db).1 = ok ∧ ∃ g : Family → Family,
      ((signOut userIds).alone exec choices db).2.families = db.families.map g ∧
        ∀ family, Closes userIds choices family (g family) := by
  induction userIds generalizing choices db with
  | nil =>
    refine ⟨rfl, fun family => family, (List.map_id' _).symm, ?_⟩
    exact fun family => ⟨rfl, rfl, fun _ => rfl, by simp⟩
  | cons userId rest ih =>
    obtain ⟨g, hg, hfamily⟩ := revoke_families userId (choices 0) db
    obtain ⟨hanswer, g', hg', hcloses⟩ := ih (fun n => choices (n + 2)) (exec (.auth (.platform
      (.audit (some userId) "oidc_backchannel_logout"))) (choices 1) (exec (.auth (.session
        (.revokeAllForUser userId "oidc_backchannel_logout"))) (choices 0) db).2).2
    refine ⟨hanswer, fun family => g' (g family), ?_, ?_⟩
    · show ((signOut rest).alone exec _ _).2.families = _
      rw [hg', audit_families, hg, List.map_map]
      rfl
    · intro family
      obtain ⟨hid, huser, hothers, hrevoked⟩ := hfamily family
      have hlater := hcloses (g family)
      refine ⟨hlater.id.trans hid, hlater.userId.trans huser, ?_, ?_⟩
      · intro hnot
        rw [List.mem_cons, not_or] at hnot
        have hsame := hothers hnot.1
        exact (hlater.others (by rw [hsame]; exact hnot.2)).trans hsame
      · rw [hlater.revoked, hrevoked, huser, or_assoc]
        apply or_congr_right
        constructor
        · rintro (⟨rfl, hfault⟩ | ⟨k, hk, hfault⟩)
          · exact ⟨0, rfl, hfault⟩
          · exact ⟨k + 1, hk, hfault⟩
        · rintro ⟨k, hk, hfault⟩
          cases k with
          | zero => exact .inl ⟨(Option.some.inj hk).symm, hfault⟩
          | succ k => exact .inr ⟨k, hk, hfault⟩

/-- Row by row: the families of the identity's accounts are revoked, all others
are as before. -/
def LoggedOut (before : Db) (issuer sub : String) (after : Db) : Prop :=
  List.Forall₂ (fun family family' : Family => family'.id = family.id ∧
      family'.userId = family.userId ∧
      (Holds before issuer sub family.userId → family'.revokedAt ≠ none) ∧
      (¬ Holds before issuer sub family.userId → family' = family))
    before.families after.families

/-- The handler answers 200 only when everybody is signed out. -/
def Complete (lib : Jose Key) (clientIds : Uuid → String) (slug logoutToken : String)
    (issuer sub : String) (choices : Nat → LogoutChoice Key) (db : Db) : Prop :=
  let outcome := (backchannelLogout lib clientIds slug logoutToken).alone exec choices db
  outcome.1.status = 200 → LoggedOut db issuer sub outcome.2

/-- The account has a session that is not revoked. -/
def HasOpen (db : Db) (userId : Uuid) : Prop :=
  ∃ family ∈ db.families, family.userId = userId ∧ family.revokedAt = none

/-- The request fails early, or neither the look-up nor a revocation fails of an
account with an open session. -/
def NoneMissed (issuer sub : String) (choices : Nat → LogoutChoice Key) (db : Db) : Prop :=
  (choices 0).base.fault = true ∨ (choices 1).base.fault = true ∨
    if (choices 4).base.fault then ∀ userId, Holds db issuer sub userId → ¬ HasOpen db userId
    else ∀ k userId, (findUsersByIssuerSubject issuer sub db)[k]? = some userId →
      (choices (2 * k + 5)).base.fault = true → ¬ HasOpen db userId

/-- A token is accepted exactly if it is a signed logout token of the provider
for this client; what lacks the event or has a nonce, as an ID token does, is not. -/
structure AcceptsExactly (lib : Jose Key) : Prop where
  exactly : ∀ provider clientId logoutToken choices db subject,
    ((verify lib provider clientId logoutToken).alone exec choices db).1 = .ok subject ↔
      ∃ published, (choices 0).metadata = .ok published ∧ ∃ evidence,
        Signed lib published logoutToken evidence ∧
          LogsOut published.issuer clientId (moment choices db) evidence.claims ∧
            subject = ⟨evidence.claims.iss, evidence.claims.sub⟩
  noIdToken : ∀ provider clientId logoutToken choices db subject header payload signature raw
    claims, Text.split logoutToken '.' = [header, payload, signature] →
      lib.decodeBase64 payload = some raw → lib.readClaims raw = .ok claims →
      (claims.hasEvent = false ∨ claims.nonce ≠ none) →
      ((verify lib provider clientId logoutToken).alone exec choices db).1 ≠ .ok subject

theorem acceptsExactly (lib : Jose Key) : AcceptsExactly lib := by
  have hexactly : ∀ provider clientId logoutToken choices db subject,
      ((verify lib provider clientId logoutToken).alone exec choices db).1 = .ok subject ↔
        ∃ published, (choices 0).metadata = .ok published ∧ ∃ evidence,
          Signed lib published logoutToken evidence ∧
            LogsOut published.issuer clientId (moment choices db) evidence.claims ∧
              subject = ⟨evidence.claims.iss, evidence.claims.sub⟩ := by
    intro provider clientId logoutToken choices db subject
    rw [verify_alone, verified_ok_iff]
  refine ⟨hexactly, ?_⟩
  intro provider clientId logoutToken choices db subject header payload signature raw claims hparts
    hraw hclaims hno haccepted
  obtain ⟨published, -, evidence, hsigned, hlogsOut, -⟩ := (hexactly _ _ _ _ _ _).mp haccepted
  -- the payload is read once only
  obtain ⟨raw', hraw', hclaims'⟩ := hsigned.payload
  have hpayload : evidence.parts.payload = payload := by
    have hsame := hsigned.compact.symm.trans hparts
    simp only [List.cons.injEq, and_true] at hsame
    exact hsame.2.1
  rw [hpayload, hraw] at hraw'
  cases hraw'
  rw [hclaims] at hclaims'
  cases hclaims'
  rcases hno with hevent | hnonce
  · rw [hlogsOut.event] at hevent
    contradiction
  · exact hnonce hlogsOut.noNonce

section Handler

/-- A statement and what the program makes of its result. -/
theorem call_bind_alone {β ρ : Type} {stmt : LogoutStmt Key β} {f : β → Prog (LogoutStmt Key) ρ}
    {choices : Nat → LogoutChoice Key} {db db' : Db} {result : β}
    (h : exec stmt (choices 0) db = (result, db')) :
    (Prog.call stmt >>= f).alone exec choices db =
      (f result).alone exec (fun n => choices (n + 1)) db' := by
  show (f (exec stmt (choices 0) db).1).alone exec _ (exec stmt (choices 0) db).2 = _
  rw [h]

variable {lib : Jose Key} {clientIds : Uuid → String} {slug logoutToken issuer sub : String}
  {choices : Nat → LogoutChoice Key} {db : Db} {provider : OidcProvider}

/-- Where the sessions of the identity's accounts are revoked but for those of
some accounts, everybody is signed out if and only if these have none open. -/
theorem loggedOut_iff {missed : Uuid → Prop} {userIds : List Uuid} {g : Family → Family}
    {after : Db} (hafter : after.families = db.families.map g)
    (hcloses : ∀ family, Closes userIds choices family (g family))
    (hothers : ∀ userId ∈ userIds, Holds db issuer sub userId)
    (hmissed : ∀ userId, Holds db issuer sub userId → (missed userId ↔
      ¬ ∃ k, userIds[k]? = some userId ∧ (choices (2 * k)).base.fault = false)) :
    LoggedOut db issuer sub after ↔
      ∀ userId, Holds db issuer sub userId → missed userId → ¬ HasOpen db userId := by
  rw [LoggedOut, hafter, List.forall₂_map_right_iff, List.forall₂_same]
  constructor
  · rintro hrows userId hholds hmissing ⟨family, hfamily, rfl, hopen⟩
    obtain ⟨-, -, hrevoked, -⟩ := hrows family hfamily
    rcases (hcloses family).revoked.mp (hrevoked hholds) with hbefore | hdone
    · exact hbefore hopen
    · exact (hmissed _ hholds).mp hmissing hdone
  · intro hnone family hfamily
    refine ⟨(hcloses family).id, (hcloses family).userId, ?_, ?_⟩
    · intro hholds
      rw [(hcloses family).revoked]
      by_cases hmissing : missed family.userId
      · left
        intro hopen
        exact hnone family.userId hholds hmissing ⟨family, hfamily, rfl, hopen⟩
      · right
        rw [hmissed _ hholds, not_not] at hmissing
        exact hmissing
    · intro hnot
      exact (hcloses family).others fun hmem => hnot (hothers _ hmem)

/-- In a list without repetition each account is missed or not. -/
theorem missed_iff (choices : Nat → LogoutChoice Key) {userIds : List Uuid}
    (hnodup : userIds.Nodup) {userId : Uuid} (hmem : userId ∈ userIds) :
    (∃ k, userIds[k]? = some userId ∧ (choices (2 * k)).base.fault = true) ↔
      ¬ ∃ k, userIds[k]? = some userId ∧ (choices (2 * k)).base.fault = false := by
  obtain ⟨k, hk⟩ := List.mem_iff_getElem?.mp hmem
  have hunique : ∀ k', userIds[k']? = some userId → k' = k := by
    intro k' hk'
    obtain ⟨hlt, heq⟩ := List.getElem?_eq_some_iff.mp hk
    obtain ⟨hlt', heq'⟩ := List.getElem?_eq_some_iff.mp hk'
    exact (hnodup.getElem_inj_iff).mp (heq'.trans heq.symm)
  constructor
  · rintro ⟨k₁, hk₁, hfault⟩ ⟨k₂, hk₂, hdone⟩
    rw [hunique k₁ hk₁, ← hunique k₂ hk₂, hdone] at hfault
    contradiction
  · intro hnone
    refine ⟨k, hk, ?_⟩
    by_contra hdone
    exact hnone ⟨k, hk, Bool.not_eq_true _ ▸ hdone⟩

/-- A request that verifies runs on to the loop over what the look-up found. -/
theorem backchannelLogout_alone
    (hprovider : db.oidcProviders.find? (·.slug == slug) = some provider)
    (henabled : provider.enabled = true) (hpool : (choices 0).base.fault = false)
    (hfound : (choices 1).base.fault = false)
    (hverified : verified lib (choices 2).metadata (moment (fun n => choices (n + 2))
      ((db.advance (choices 0).base.elapse).advance (choices 1).base.elapse))
      (clientIds provider.id) logoutToken = .ok ⟨issuer, some sub⟩) :
    ∃ looked : Db, looked.families = db.families ∧
      (backchannelLogout lib clientIds slug logoutToken).alone exec choices db =
        (signOut (if (choices 4).base.fault then [] else
          findUsersByIssuerSubject issuer sub db)).alone exec (fun n => choices (n + 5)) looked := by
  have hpool' : exec (.auth (.platform .getPool) : LogoutStmt Key _) (choices 0) db =
      (.ok (), db.advance (choices 0).base.elapse) := attempt_ok hpool
  have hfound' : exec (.auth (.oidc (.getBySlug slug)) : LogoutStmt Key _) (choices 1)
      (db.advance (choices 0).base.elapse) = (.ok (some provider),
        (db.advance (choices 0).base.elapse).advance (choices 1).base.elapse) := by
    have hran : exec (.auth (.oidc (.getBySlug slug)) : LogoutStmt Key _) (choices 1)
        (db.advance (choices 0).base.elapse) =
        (.ok (db.oidcProviders.find? (·.slug == slug)), _) := attempt_ok hfound
    rw [hran, hprovider]
  have henabled' : Option.filter (·.enabled) (some provider) = some provider := by
    simp [henabled]
  unfold backchannelLogout
  rw [auth, call_bind_alone hpool']
  simp only
  rw [auth, call_bind_alone hfound']
  simp only [Except.toOption, Option.join_some, henabled']
  rw [verify_bind_alone hverified]
  simp only
  have hsame : (((((db.advance (choices 0).base.elapse).advance (choices 1).base.elapse).advance
      (choices 2).base.elapse).advance (choices 3).base.elapse).advance
        (choices 4).base.elapse).families = db.families := by
    simp only [families_advance]
  cases hlookup : (choices 4).base.fault with
  | true =>
    have hlooked : ∀ db : Db, exec
        (.issuer (.findUsersByIssuerSubject issuer sub) : LogoutStmt Key _) (choices 4) db =
          (.error .other, db.advance (choices 4).base.elapse) := fun db => attempt_error hlookup
    rw [call_bind_alone (hlooked _), if_pos rfl]
    exact ⟨_, hsame, rfl⟩
  | false =>
    have hlooked : ∀ db : Db, exec
        (.issuer (.findUsersByIssuerSubject issuer sub) : LogoutStmt Key _) (choices 4) db =
          (.ok (findUsersByIssuerSubject issuer sub db), db.advance (choices 4).base.elapse) :=
      fun db => attempt_ok hlookup
    rw [call_bind_alone (hlooked _), if_neg Bool.false_ne_true]
    refine ⟨_, hsame, ?_⟩
    rw [findUsers_advance, findUsers_advance, findUsers_advance, findUsers_advance]
    rfl

/-- Before the token is looked at, a failure is answered as one. -/
theorem backchannelLogout_early
    (h : (choices 0).base.fault = true ∨ (choices 1).base.fault = true) :
    ((backchannelLogout lib clientIds slug logoutToken).alone exec choices db).1.status ≠ 200 := by
  unfold backchannelLogout
  cases hpool : (choices 0).base.fault with
  | true =>
    have hpool' : exec (.auth (.platform .getPool) : LogoutStmt Key _) (choices 0) db =
        (.error .other, db.advance (choices 0).base.elapse) := attempt_error hpool
    rw [auth, call_bind_alone hpool']
    exact (by decide : internal.status ≠ 200)
  | false =>
    have hpool' : exec (.auth (.platform .getPool) : LogoutStmt Key _) (choices 0) db =
        (.ok (), db.advance (choices 0).base.elapse) := attempt_ok hpool
    have hfound' : exec (.auth (.oidc (.getBySlug slug)) : LogoutStmt Key _) (choices 1)
        (db.advance (choices 0).base.elapse) = (.error .other,
          (db.advance (choices 0).base.elapse).advance (choices 1).base.elapse) :=
      attempt_error (h.resolve_left (by simp [hpool]))
    rw [auth, call_bind_alone hpool']
    simp only
    rw [auth, call_bind_alone hfound']
    exact (by decide : notFound.status ≠ 200)

/-- Where a token verifies for an enabled provider and names a subject, an
answer 200 means that exactly the sessions of the accounts with this identity
are revoked, if and only if nothing that matters was dropped. -/
theorem backchannel_logout_complete_iff (lib : Jose Key) (clientIds : Uuid → String)
    (slug logoutToken issuer sub : String) (choices : Nat → LogoutChoice Key) (db : Db)
    (provider : OidcProvider)
    (hprovider : db.oidcProviders.find? (·.slug == slug) = some provider)
    (henabled : provider.enabled = true)
    (hverified : verified lib (choices 2).metadata (moment (fun n => choices (n + 2))
      ((db.advance (choices 0).base.elapse).advance (choices 1).base.elapse))
      (clientIds provider.id) logoutToken = .ok ⟨issuer, some sub⟩) :
    Complete lib clientIds slug logoutToken issuer sub choices db ∧ AcceptsExactly lib ↔
      NoneMissed issuer sub choices db := by
  rw [and_iff_left (acceptsExactly lib), NoneMissed, ← or_assoc]
  by_cases hearly : (choices 0).base.fault = true ∨ (choices 1).base.fault = true
  · exact iff_of_true (fun hok => absurd hok (backchannelLogout_early hearly)) (.inl hearly)
  · rw [or_iff_right hearly]
    rw [not_or, Bool.not_eq_true, Bool.not_eq_true] at hearly
    obtain ⟨looked, hfamilies, hrun⟩ := backchannelLogout_alone hprovider henabled
      hearly.1 hearly.2 hverified
    cases hlookup : (choices 4).base.fault with
    | true =>
      obtain ⟨hanswer, g, hg, hcloses⟩ := signOut_alone [] (fun n => choices (n + 5)) looked
      rw [if_pos hlookup] at hrun
      rw [hfamilies] at hg
      rw [if_pos rfl, Complete, hrun, hanswer]
      have hmissed : ∀ userId, Holds db issuer sub userId → (True ↔ ¬ ∃ k,
          ([] : List Uuid)[k]? = some userId ∧ (choices (2 * k + 5)).base.fault = false) := by
        intro userId _
        refine iff_of_true trivial ?_
        rintro ⟨k, hk, -⟩
        cases hk
      refine (imp_iff_right rfl).trans ((loggedOut_iff hg hcloses
        (fun _ hmem => absurd hmem List.not_mem_nil) hmissed).trans ?_)
      exact forall_congr' fun userId => imp_congr_right fun _ => imp_iff_right trivial
    | false =>
      obtain ⟨hanswer, g, hg, hcloses⟩ := signOut_alone (findUsersByIssuerSubject issuer sub db)
        (fun n => choices (n + 5)) looked
      rw [if_neg (by simp [hlookup])] at hrun
      rw [hfamilies] at hg
      rw [if_neg Bool.false_ne_true, Complete, hrun, hanswer]
      have hnodup : (findUsersByIssuerSubject issuer sub db).Nodup := List.nodup_dedup _
      have hmissed := fun userId (hholds : Holds db issuer sub userId) =>
        missed_iff (fun n => choices (n + 5)) hnodup (mem_findUsers.mpr hholds)
      refine (imp_iff_right rfl).trans ((loggedOut_iff hg hcloses
        (fun _ => mem_findUsers.mp) hmissed).trans ?_)
      constructor
      · intro h k userId hk hfault
        exact h userId (mem_findUsers.mp (List.mem_of_getElem? hk)) ⟨k, hk, hfault⟩
      · rintro h userId - ⟨k, hk, hfault⟩
        exact h k userId hk hfault

end Handler

/-! ## Concrete requests -/

/-- A library for which every text is its own encoding, with one header, one
payload and one signature. -/
def plainJose : Jose String where
  decodeBase64 text := some (bytesOf text)
  readHeader raw := if raw = bytesOf "header" then .ok ⟨"RS256", some "key", none⟩
    else .error "expected value"
  readClaims raw := if raw = bytesOf "payload" then
      .ok ⟨"https://idp.example", some "alice", none, .one "client", 0,
        some (.object [logoutEvent]), none⟩
    else .error "expected value"
  algorithms := ["RS256", "none"]
  keyId := some
  verifySignature key _ _ signature := signature == bytesOf key

/-- Alice, her identity at the provider and her session. -/
def signedInDb : Db :=
  { aliceDb with
    oidcProviders := [⟨5, "idp", true, "https://idp.example", "", false, false, true⟩]
    oidcIdentities := [⟨7, 0, 5, "https://idp.example", "alice", "alice@example.org"⟩]
    families := [⟨8, 0, none, none, 0⟩]
    nextId := 9 }

/-- The provider publishes its key, and one statement at most fails. -/
def failingAt (failing : Option Nat) (n : Nat) : LogoutChoice String :=
  ⟨{ fault := failing == some n }, .ok ⟨"https://idp.example", ["key"]⟩⟩

theorem backchannel_logout_complete_iff_alice :
    Complete plainJose (fun _ => "client") "idp" "header.payload.key" "https://idp.example" "alice"
        (failingAt none) signedInDb ∧ AcceptsExactly plainJose ↔
      NoneMissed "https://idp.example" "alice" (failingAt none) signedInDb :=
  backchannel_logout_complete_iff plainJose (fun _ => "client") "idp" "header.payload.key"
    "https://idp.example" "alice" (failingAt none) signedInDb
    ⟨5, "idp", true, "https://idp.example", "", false, false, true⟩ (by decide +kernel) rfl
    (by decide +kernel)

/-- The families a request leaves behind, and its status. -/
def leaves (failing : Option Nat) : Nat × List Family :=
  let outcome := (backchannelLogout plainJose (fun _ => "client") "idp" "header.payload.key").alone
    exec (failingAt failing) signedInDb
  (outcome.1.status, outcome.2.families)

theorem not_complete_of_leaves {failing : Option Nat}
    (h : leaves failing = (200, signedInDb.families)) : ¬ Complete plainJose (fun _ => "client")
      "idp" "header.payload.key" "https://idp.example" "alice" (failingAt failing) signedInDb := by
  intro hcomplete
  have hrows := hcomplete (congrArg Prod.fst h)
  have hholds : Holds signedInDb "https://idp.example" "alice" 0 :=
    ⟨_, List.mem_singleton.mpr rfl, rfl, rfl, rfl⟩
  have hafter : ((backchannelLogout plainJose (fun _ => "client") "idp" "header.payload.key").alone
      exec (failingAt failing) signedInDb).2.families = signedInDb.families := congrArg Prod.snd h
  rw [LoggedOut, hafter] at hrows
  obtain ⟨-, -, hrevoked, -⟩ := (List.forall₂_cons.mp hrows).1
  exact hrevoked hholds rfl

/-- The look-up fails, or the revocation does: the answer is 200, and Alice
stays signed in. -/
theorem logout_dropped :
    ¬ Complete plainJose (fun _ => "client") "idp" "header.payload.key" "https://idp.example"
        "alice" (failingAt (some 4)) signedInDb ∧
      ¬ Complete plainJose (fun _ => "client") "idp" "header.payload.key" "https://idp.example"
        "alice" (failingAt (some 5)) signedInDb :=
  ⟨not_complete_of_leaves (by decide +kernel), not_complete_of_leaves (by decide +kernel)⟩

end Backchannel

end IntelliPilot.Auth
