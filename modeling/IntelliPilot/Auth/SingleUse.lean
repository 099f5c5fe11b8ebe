import IntelliPilot.Auth.SignInProofs
import IntelliPilot.Statement.OwnEvents

/-! # Sign-in proofs are single-use

A request that opens a session or links an identity with a recovery code, a
passkey ceremony, an authorization state or a device request has taken that
proof before, opens at most one session and links at most one identity. As no
proof is taken twice, each leads to one request's session or link at most.
-/

namespace IntelliPilot.Auth

open Rows Statement Prog
open Service (initial)

-- unification must not evaluate the handlers' tests on trimmed texts
attribute [local irreducible] trim

/-- A session family was created. -/
def opensSession : FullEvent → Bool
  | .ran (.session (.createFamily _)) (.ok _) => true
  | _ => false

/-- An identity was linked. -/
def linksIdentity : FullEvent → Bool
  | .ran (.oidc (.link _ _ _ _ _)) (.ok _) => true
  | _ => false

/-- The requests that complete a sign-in or a link with a proof. -/
def AuthRequest.bearsProof : AuthRequest → Bool
  | .twoFactorVerify _ _ => true
  | .authenticateFinish _ _ => true
  | .oidcCallback _ _ => true
  | .devicePoll _ _ => true
  | _ => false

/-- The proofs in a request's body. -/
def bears : AuthRequest → SignInProof → Prop
  | .twoFactorVerify _ (.ok req), .mfaToken token => req.mfaToken = .genuine token
  | .twoFactorVerify _ (.ok req), .totpCode userId code => req.method = "totp" ∧ req.code = code ∧
      ∃ token, req.mfaToken = .genuine token ∧ token.userId = userId
  | .authenticateFinish _ (.ok req), .ceremony id => req.stateId = id
  | .oidcCallback _ query, .authState state => query.state = some state
  | _, _ => False

/-- The proofs a request comes to show on its way: the recovery code it matched
and the device request it found. -/
def shows : SignInProof → FullEvent → Bool
  | .recoveryCode id, .ran (.factor (.markCodeUsed id')) _ => id' == id
  | .deviceRequest id, .ran (.oidc (.findDeviceRequest _)) (.ok (some row)) => row.id == id
  | _, _ => false

def presents (request : AuthRequest) (events : List FullEvent) (proof : SignInProof) : Prop :=
  bears request proof ∨ ∃ event ∈ events, shows proof event = true

/-- Every consumable proof the request has shown so far has been taken by it. -/
def Settled (request : AuthRequest) (events : List FullEvent) : Prop :=
  ∀ proof, proof.consumable = true → presents request events proof →
    ∃ event ∈ events, consumes proof event = true

/-- A request whose proofs are taken, with at most so many links and sessions. -/
structure AtMost (request : AuthRequest) (links sessions : Nat) (events : List FullEvent) :
    Prop where
  settled : Settled request events
  links : events.countP linksIdentity ≤ links
  sessions : events.countP opensSession ≤ sessions

/-- Neither a link nor a session yet. -/
structure Idle (events : List FullEvent) : Prop where
  links : events.countP linksIdentity = 0
  sessions : events.countP opensSession = 0

/-- Nothing done, or the proofs taken and one link and one session at most. -/
def Once (request : AuthRequest) (events : List FullEvent) : Prop :=
  AtMost request 1 1 events ∨ Idle events

/-- What holds of a request with a proof at any moment. -/
def UsesOnce (request : AuthRequest) (events : List FullEvent) : Prop :=
  request.bearsProof = true → Once request events

variable {request : AuthRequest} {events : List FullEvent} {links sessions : Nat}

theorem AtMost.once (h : AtMost request links sessions events) (hlinks : links ≤ 1)
    (hsessions : sessions ≤ 1) : UsesOnce request events := fun _ =>
  Or.inl ⟨h.settled, Nat.le_trans h.links hlinks, Nat.le_trans h.sessions hsessions⟩

theorem Idle.once (h : Idle events) : UsesOnce request events := fun _ => Or.inr h

theorem AtMost.idle (h : AtMost request 0 0 events) : Idle events :=
  ⟨Nat.le_zero.mp h.links, Nat.le_zero.mp h.sessions⟩

theorem Idle.atMost (h : Idle events) (hsettled : Settled request events) :
    AtMost request 0 0 events := ⟨hsettled, Nat.le_of_eq h.links, Nat.le_of_eq h.sessions⟩

/-! ## Statements that neither show a proof nor link nor open -/

/-- Statements with no part in the count. -/
def plain : {β : Type} → Stmt β → Bool
  | _, .session (.createFamily _) => false
  | _, .oidc (.link _ _ _ _ _) => false
  | _, .oidc (.findDeviceRequest _) => false
  | _, .factor (.markCodeUsed _) => false
  | _, _ => true

theorem links_cons (event : FullEvent) (events : List FullEvent) :
    (event :: events).countP linksIdentity =
      events.countP linksIdentity + (linksIdentity event).toNat := by
  rw [List.countP_cons]
  cases linksIdentity event <;> rfl

theorem sessions_cons (event : FullEvent) (events : List FullEvent) :
    (event :: events).countP opensSession =
      events.countP opensSession + (opensSession event).toNat := by
  rw [List.countP_cons]
  cases opensSession event <;> rfl

variable {β : Type} {stmt : Stmt β}

theorem plain_links (hplain : plain stmt = true) (result : β) :
    linksIdentity (.ran stmt result) = false := by
  cases stmt with
  | oidc stmt =>
    cases stmt with
    | link userId providerId issuer subject email => cases hplain
    | _ => rfl
  | _ => rfl

theorem plain_sessions (hplain : plain stmt = true) (result : β) :
    opensSession (.ran stmt result) = false := by
  cases stmt with
  | session stmt =>
    cases stmt with
    | createFamily userId => cases hplain
    | _ => rfl
  | _ => rfl

theorem plain_shows (hplain : plain stmt = true) (result : β) (proof : SignInProof) :
    shows proof (.ran stmt result) = false := by
  cases stmt with
  | factor stmt =>
    cases stmt with
    | markCodeUsed id => cases hplain
    | _ => cases proof <;> rfl
  | oidc stmt =>
    cases stmt with
    | findDeviceRequest hash => cases hplain
    | _ => cases proof <;> rfl
  | _ => cases proof <;> rfl

variable {proof : SignInProof}

/-- A proof that the last event does not show was shown before. -/
theorem presents_cons {event : FullEvent} (hshows : shows proof event = false)
    (hpresents : presents request (event :: events) proof) :
    presents request events proof := by
  rcases hpresents with hbears | ⟨shown, hmem, hshown⟩
  · exact Or.inl hbears
  · rcases List.mem_cons.mp hmem with rfl | hold
    · rw [hshows] at hshown
      contradiction
    · exact Or.inr ⟨shown, hold, hshown⟩

/-- An event that shows no further proof keeps the request settled. -/
theorem Settled.cons (h : Settled request events) {event : FullEvent}
    (hshows : ∀ proof, shows proof event = false) : Settled request (event :: events) := by
  intro proof hconsumable hpresents
  obtain ⟨taken, hmem, hconsumes⟩ := h proof hconsumable (presents_cons (hshows proof) hpresents)
  exact ⟨taken, List.mem_cons_of_mem _ hmem, hconsumes⟩

theorem AtMost.plain (h : AtMost request links sessions events) (hplain : plain stmt = true)
    (result : β) :
    AtMost request links sessions (.ran stmt result :: events) where
  settled := h.settled.cons (plain_shows hplain result)
  links := by
    rw [links_cons, plain_links hplain]
    exact h.links
  sessions := by
    rw [sessions_cons, plain_sessions hplain]
    exact h.sessions

theorem Idle.plain (h : Idle events) (hplain : plain stmt = true) (result : β) :
    Idle (.ran stmt result :: events) where
  links := by rw [links_cons, plain_links hplain, h.links]; rfl
  sessions := by rw [sessions_cons, plain_sessions hplain, h.sessions]; rfl

/-- Nothing done yet by a request that shows one consumable proof at most. -/
structure Awaiting (request : AuthRequest) (proof : SignInProof) (events : List FullEvent) :
    Prop where
  idle : Idle events
  only : ∀ proof', proof'.consumable = true → presents request events proof' → proof' = proof

theorem Awaiting.plain (h : Awaiting request proof events) (hplain : plain stmt = true)
    (result : β) :
    Awaiting request proof (.ran stmt result :: events) where
  idle := h.idle.plain hplain result
  only proof' hconsumable hpresents :=
    h.only proof' hconsumable (presents_cons (plain_shows hplain result _) hpresents)

/-- Taking the awaited proof settles the request. -/
theorem Awaiting.taken (h : Awaiting request proof events) (hplain : Auth.plain stmt = true)
    {result : β} (hconsumes : consumes proof (.ran stmt result) = true) :
    AtMost request 0 0 (.ran stmt result :: events) := by
  apply (h.idle.plain hplain result).atMost
  intro proof' hconsumable hpresents
  obtain rfl := h.only proof' hconsumable (presents_cons (plain_shows hplain result _) hpresents)
  exact ⟨_, List.mem_cons_self, hconsumes⟩

/-- Only statements with no part in the count. -/
def Plain {α : Type} (p : Handler α) : Prop := p.Only fun stmt => Auth.plain stmt = true

variable {α : Type} {p : Handler α}

instance le_self (n : Nat) : Fact (n ≤ n) := ⟨Nat.le_refl n⟩

instance zero_le_any (n : Nat) : Fact (0 ≤ n) := ⟨Nat.zero_le n⟩

theorem tells_atMost [hlinks : Fact (links ≤ 1)] [hsessions : Fact (sessions ≤ 1)]
    (hp : Plain p) (h : AtMost request links sessions events) :
    p.Tells (UsesOnce request) (fun _ => AtMost request links sessions) events := by
  apply tells_only _ hp h
  intro β stmt result events hplain h
  have h' := h.plain hplain result
  exact ⟨h'.once hlinks.out hsessions.out, h'⟩

theorem AtMost.weaken {links' sessions' : Nat} [hlinks : Fact (links ≤ links')]
    [hsessions : Fact (sessions ≤ sessions')] (h : AtMost request links sessions events) :
    AtMost request links' sessions' events :=
  ⟨h.settled, Nat.le_trans h.links hlinks.out, Nat.le_trans h.sessions hsessions.out⟩

/-- An error refuses the request, and any other result goes on. -/
theorem tells_try {ε γ : Type} {p : Handler (Except ε α)} {g : Except ε α → Handler γ}
    {links' sessions' : Nat} [Fact (links ≤ links')] [Fact (sessions ≤ sessions')]
    (hrefuses : ∀ e, ∃ answer, g (.error e) = .done answer)
    (hp : p.Tells (UsesOnce request) (fun _ => AtMost request links sessions) events)
    (hg : ∀ a events, AtMost request links sessions events →
      (g (.ok a)).Tells (UsesOnce request) (fun _ => AtMost request links' sessions') events) :
    (p >>= g).Tells (UsesOnce request) (fun _ => AtMost request links' sessions') events := by
  apply tells_bind hp
  intro result events h
  cases result with
  | error e =>
    obtain ⟨answer, hanswer⟩ := hrefuses e
    rw [hanswer]
    exact h.weaken
  | ok a => exact hg a events h

theorem tells_idle (hp : Plain p) (h : Idle events) :
    p.Tells (UsesOnce request) (fun _ => Idle) events := by
  apply tells_only _ hp h
  intro β stmt result events hplain h
  have h' := h.plain hplain result
  exact ⟨h'.once, h'⟩

theorem tells_awaiting (hp : Plain p) (h : Awaiting request proof events) :
    p.Tells (UsesOnce request) (fun _ => Awaiting request proof) events := by
  apply tells_only _ hp h
  intro β stmt result events hplain h
  have h' := h.plain hplain result
  exact ⟨h'.idle.once, h'⟩

theorem plain_platform (stmt : PlatformStmt β) : Plain (platform stmt) :=
  only_call rfl

theorem plain_user (stmt : UserStmt β) : Plain (user stmt) := only_call rfl

theorem plain_oidc {stmt : OidcStmt β} (h : Auth.plain (.oidc stmt) = true) :
    Plain (oidc stmt) := only_call h

theorem plain_generate (env : Env) : Plain (generate env) :=
  only_bind (plain_platform _) fun _ => only_pure _

theorem plain_freeUsernameFrom (base : String) (n fuel : Nat) :
    Plain (freeUsernameFrom base n fuel) := by
  induction fuel generalizing n with
  | zero => exact only_pure _
  | succ fuel ih =>
    refine only_bind_except (plain_user _) (fun _ => only_pure _) fun taken => ?_
    cases taken with
    | false => exact only_pure _
    | true => exact ih (n + 1)

theorem plain_provisionOidcUser (env : Env) (email hint name : String) (superadmin : Bool) :
    Plain (provisionOidcUser env email hint name superadmin) := by
  refine only_bind_except (plain_freeUsernameFrom _ _ _) (fun _ => only_pure _)
    fun username => ?_
  exact plain_user _

theorem plain_syncOidcDisplayName (userId : Uuid) (name : String) :
    Plain (syncOidcDisplayName userId name) := by
  apply only_ite
  · exact only_pure _
  · exact only_bind (plain_user _) fun _ => only_pure _

theorem plain_syncSuperadmin (provider : OidcProvider) (facts : IdentityFacts) (userId : Uuid) :
    Plain (syncSuperadmin provider facts userId) := by
  unfold syncSuperadmin
  split
  · exact only_pure _
  · refine only_bind_found (plain_user _) (fun _ => only_pure _) (only_pure _)
      fun account => ?_
    apply only_ite
    · exact only_pure _
    · apply only_bind (plain_user _)
      intro outcome
      rcases outcome with e | _ | _ | _
      · exact only_pure _
      · exact plain_platform _
      · exact only_pure _
      · exact plain_platform _

theorem plain_checkAccountUsable (userId : Uuid) : Plain (checkAccountUsable userId) := by
  apply only_bind (plain_user _)
  intro banned
  apply only_ite
  · exact only_pure _
  · refine only_bind_found (plain_user _) (fun _ => only_pure _) (only_pure _)
      fun account => ?_
    exact only_ite (only_pure _) (only_pure _)

/-! ## Opening a session and linking an identity -/

/-- A session is opened once the proofs are taken. -/
theorem tells_establishSession (env : Env) (headers : Headers) (userId : Uuid) (action : String)
    [hlinks : Fact (links ≤ 1)] (h : AtMost request links 0 events) :
    (establishSession env headers userId action).Tells (UsesOnce request)
      (fun _ => AtMost request links 1) events := by
  have hopened : ∀ result : Except DbError Uuid,
      AtMost request links 1 (.ran (.session (.createFamily userId)) result :: events) := by
    intro result
    refine ⟨?_, ?_, ?_⟩
    · exact h.settled.cons (by intro proof; cases proof <;> rfl)
    · rw [links_cons]
      exact h.links
    · rw [sessions_cons]
      exact Nat.add_le_add h.sessions (Bool.toNat_le _)
  intro result
  refine ⟨(hopened result).once hlinks.out (Nat.le_refl _), ?_⟩
  apply tells_atMost _ (hopened result)
  cases result with
  | error e => exact only_pure _
  | ok familyId =>
    apply only_bind (plain_generate env)
    intro newRefresh
    apply only_bind (plain_platform _)
    intro now
    refine only_bind_except (only_call rfl) (fun _ => only_pure _) fun _ => ?_
    refine only_bind_except (plain_platform _) (fun _ => only_pure _) fun access => ?_
    apply only_bind (plain_platform _)
    intro successes
    apply only_bind (plain_platform _)
    intro _
    apply only_ite
    · apply only_bind (plain_platform _)
      intro _
      exact only_bind (plain_user _) fun _ => only_pure _
    · exact only_bind (plain_user _) fun _ => only_pure _

theorem tells_issueSession (env : Env) (headers : Headers) (userId : Uuid) (action : String)
    [hlinks : Fact (links ≤ 1)] (h : AtMost request links 0 events) :
    (issueSession env headers userId action).Tells (UsesOnce request)
      (fun _ => AtMost request links 1) events := by
  apply tells_bind (tells_establishSession env headers userId action h)
  intro result events h
  cases result with
  | error response => exact h
  | ok new => exact h

theorem tells_linkSubject (provider : OidcProvider) (facts : IdentityFacts) (userId : Uuid)
    [hsessions : Fact (sessions ≤ 1)] (h : AtMost request 0 sessions events) :
    (linkSubject provider facts userId).Tells (UsesOnce request)
      (fun _ => AtMost request 1 sessions) events := by
  intro result
  have hlinked : AtMost request 1 sessions (.ran (.oidc (.link userId provider.id facts.issuer
      facts.subject facts.email)) result :: events) := by
    refine ⟨?_, ?_, ?_⟩
    · exact h.settled.cons (by intro proof; cases proof <;> rfl)
    · rw [links_cons]
      exact Nat.add_le_add h.links (Bool.toNat_le _)
    · rw [sessions_cons]
      exact h.sessions
  refine ⟨hlinked.once (Nat.le_refl _) hsessions.out, ?_⟩
  rcases result with e | identity
  · cases e <;> exact hlinked
  · exact hlinked

theorem tells_provisionLogin (env : Env) (provider : OidcProvider) (facts : IdentityFacts)
    (h : AtMost request 0 0 events) :
    (provisionLogin env provider facts).Tells (UsesOnce request)
      (fun _ => AtMost request 1 0) events := by
  unfold provisionLogin
  split
  · exact h.weaken
  · refine tells_try (fun _ => ⟨_, rfl⟩) (tells_atMost (plain_provisionOidcUser env _ _ _ _) h)
      fun account events h => ?_
    refine tells_try (fun _ => ⟨_, rfl⟩) (tells_linkSubject provider facts account.id h)
      fun _ events h => ?_
    exact tells_atMost (only_bind (plain_platform _) fun _ => only_pure _) h

theorem tells_resolveUnbound (env : Env) (provider : OidcProvider) (facts : IdentityFacts)
    (h : AtMost request 0 0 events) :
    (resolveUnbound env provider facts).Tells (UsesOnce request)
      (fun _ => AtMost request 1 0) events := by
  unfold resolveUnbound
  split
  · exact h.weaken
  · split
    · exact h.weaken
    · refine tells_try (fun _ => ⟨_, rfl⟩) (tells_atMost (plain_user _) h) fun armed events h => ?_
      cases armed with
      | none =>
        refine tells_try (fun _ => ⟨_, rfl⟩) (tells_atMost (plain_user _) h)
          fun existing events h => ?_
        cases existing with
        | none => exact tells_provisionLogin env provider facts h
        | some existing => exact h.weaken
      | some account =>
        refine tells_try (fun _ => ⟨_, rfl⟩) (tells_linkSubject provider facts account.id h)
          fun _ events h => ?_
        apply tells_atMost _ h
        apply only_bind (plain_user _)
        intro _
        exact only_bind (plain_platform _) fun _ => only_pure _

theorem plain_stampLogin (identity : OidcIdentity) (name : String) : Plain (do
    oidc (.stampIdentityLogin identity.id)
    syncOidcDisplayName identity.userId name
    return (.ok identity.userId : Except ResolveError Uuid)) := by
  have hsync := plain_syncOidcDisplayName identity.userId name
  generalize syncOidcDisplayName identity.userId name = sync at hsync
  apply only_bind (plain_oidc rfl)
  intro _
  exact only_bind hsync fun _ => only_pure _

theorem tells_resolveLogin (env : Env) (provider : OidcProvider) (facts : IdentityFacts)
    (h : AtMost request 0 0 events) :
    (resolveLogin env provider facts).Tells (UsesOnce request)
      (fun _ => AtMost request 1 0) events := by
  have hfind : Plain (oidc (.findBySubject provider.id facts.subject)) := plain_oidc rfl
  unfold resolveLogin
  split
  · exact h.weaken
  · refine tells_try (fun _ => ⟨_, rfl⟩) (tells_atMost hfind h) fun found events h => ?_
    cases found with
    | none => exact tells_resolveUnbound env provider facts h
    | some identity =>
      exact tells_atMost (plain_stampLogin identity facts.displayName) h.weaken

/-! ## The requests that bear a proof -/

/-- A request before its first statement. -/
theorem idle_began (request : AuthRequest) : Idle [.began request] := ⟨rfl, rfl⟩

/-- Such a request shows what is in its body only. -/
theorem presents_began (hpresents : presents request [.began request] proof) :
    bears request proof := by
  rcases hpresents with hbears | ⟨event, hmem, hshown⟩
  · exact hbears
  · rw [List.mem_singleton.mp hmem] at hshown
    cases proof <;> contradiction

theorem tells_callbackLogin (env : Env) (headers : Headers) (provider : OidcProvider)
    (facts : IdentityFacts) (redirectTo : String) (h : AtMost request 0 0 events) :
    (callbackLogin env headers provider facts redirectTo).Tells (UsesOnce request)
      (fun _ => AtMost request 1 1) events := by
  refine tells_try (fun _ => ⟨_, rfl⟩) (tells_resolveLogin env provider facts h)
    fun userId events h => ?_
  refine tells_try (fun _ => ⟨_, rfl⟩) (tells_atMost (plain_checkAccountUsable userId) h)
    fun _ events h => ?_
  refine tells_try (fun _ => ⟨_, rfl⟩) (tells_atMost (plain_platform _) h) fun _ events h => ?_
  apply tells_bind (tells_atMost (plain_syncSuperadmin provider facts userId) h)
  intro _ events h
  apply tells_bind (tells_establishSession env headers userId _ h)
  intro new events h
  cases new with
  | error e => exact h
  | ok new => exact h

theorem tells_callbackLink (env : Env) (provider : OidcProvider) (facts : IdentityFacts)
    (linkUserId : Uuid) (redirectTo : String) (h : AtMost request 0 0 events) :
    (callbackLink env provider facts linkUserId redirectTo).Tells (UsesOnce request)
      (fun _ => AtMost request 1 1) events := by
  refine tells_try (fun _ => ⟨_, rfl⟩) (tells_linkSubject provider facts linkUserId h)
    fun _ events h => ?_
  exact tells_atMost (only_bind (plain_platform _) fun _ => only_pure _) h.weaken

theorem Once.finish (h : Once request events) (answer : Response) :
    UsesOnce request (.answered request answer :: events) := by
  intro _
  rcases h with h | h
  · exact Or.inl ⟨h.settled.cons (by intro proof; cases proof <;> rfl), h.links, h.sessions⟩
  · exact Or.inr ⟨h.links, h.sessions⟩

/-- A refusal before any proof is taken. -/
theorem tells_refuse (hp : Plain p) (h : Idle events) :
    p.Tells (UsesOnce request) (fun _ => Once request) events :=
  (tells_idle hp h).post fun _ _ h => Or.inr h

/-- What is done once the proofs are taken. -/
theorem tells_done (hp : p.Tells (UsesOnce request) (fun _ => AtMost request 1 1) events) :
    p.Tells (UsesOnce request) (fun _ => Once request) events :=
  hp.post fun _ _ h => Or.inl h

theorem tells_callback (env : Env) (headers : Headers) (query : CallbackQuery) :
    (callback env headers query).Tells (UsesOnce (.oidcCallback headers query))
      (fun _ => Once (.oidcCallback headers query)) [.began (.oidcCallback headers query)] := by
  have hbegan := idle_began (.oidcCallback headers query)
  obtain ⟨code, state, error⟩ := query
  rcases error with _ | error
  · rcases code with _ | code
    · exact Or.inr hbegan
    · rcases state with _ | state
      · exact Or.inr hbegan
      · -- the state in the query is the one proof shown
        have hawaiting : Awaiting (.oidcCallback headers ⟨some code, some state, none⟩)
            (.authState state) [.began (.oidcCallback headers ⟨some code, some state, none⟩)] := by
          refine ⟨hbegan, ?_⟩
          intro proof _ hpresents
          have hbears := presents_began hpresents
          cases proof with
          | authState state' => rw [Option.some.inj hbears]
          | _ => exact hbears.elim
        apply tells_bind (tells_awaiting (plain_platform _) hawaiting)
        intro pool events hawaiting
        cases pool with
        | error e => exact Or.inr hawaiting.idle
        | ok _ =>
          intro taken
          have hplain : plain (.oidc (.takeAuthRequest state)) = true := rfl
          have hidle := hawaiting.idle.plain hplain taken
          refine ⟨hidle.once, ?_⟩
          rcases taken with e | _ | pending
          · exact Or.inr hidle
          · exact Or.inr hidle
          · have hconsumes : consumes (.authState state)
                (.ran (.oidc (.takeAuthRequest state)) (.ok (some pending))) = true := by
              exact beq_self_eq_true state
            have h := hawaiting.taken hplain hconsumes
            apply tells_done
            refine tells_try (fun _ => ⟨_, rfl⟩) (p := oidc (.getProvider pending.providerId))
              (tells_atMost (plain_oidc rfl) h) fun provider events h => ?_
            cases provider with
            | none => exact h.weaken
            | some provider =>
              apply tells_ite
              · exact h.weaken
              · refine tells_try (fun _ => ⟨_, rfl⟩) (tells_atMost (plain_platform _) h)
                  fun facts events h => ?_
                cases pending.linkUserId with
                | none => exact tells_callbackLogin env headers provider facts _ h
                | some linkUserId => exact tells_callbackLink env provider facts linkUserId _ h
  · exact Or.inr hbegan

theorem tells_deviceFinish (env : Env) (headers : Headers) (provider : OidcProvider)
    (facts : IdentityFacts) (linkUserId : Option Uuid) (h : AtMost request 0 0 events) :
    (deviceFinish env headers provider facts linkUserId).Tells (UsesOnce request)
      (fun _ => AtMost request 1 1) events := by
  cases linkUserId with
  | some linkUserId =>
    refine tells_try (fun _ => ⟨_, rfl⟩) (tells_linkSubject provider facts linkUserId h)
      fun _ events h => ?_
    exact tells_atMost (only_bind (plain_platform _) fun _ => only_pure _) h.weaken
  | none =>
    refine tells_try (fun _ => ⟨_, rfl⟩) (tells_resolveLogin env provider facts h)
      fun userId events h => ?_
    refine tells_try (fun _ => ⟨_, rfl⟩) (tells_atMost (plain_checkAccountUsable userId) h)
      fun _ events h => ?_
    refine tells_try (fun _ => ⟨_, rfl⟩) (tells_atMost (plain_platform _) h) fun _ events h => ?_
    apply tells_bind (tells_atMost (plain_syncSuperadmin provider facts userId) h)
    intro _ events h
    exact tells_issueSession env headers userId _ h

theorem plain_devicePollEnded (pending : OidcDeviceRequest) (e : OidcError) :
    Plain (devicePollEnded pending e) := by
  cases e with
  | rejected detail => exact only_bind (plain_oidc rfl) fun _ => only_pure _
  | _ => exact only_pure _

theorem plain_polledTooSoon (pending : OidcDeviceRequest) : Plain (polledTooSoon pending) := by
  unfold polledTooSoon
  split
  · exact only_pure _
  · exact only_bind (plain_platform _) fun _ => only_pure _

/-- Once it has found a device request, that is the one proof a poll shows. -/
theorem awaiting_found {headers : Headers} {body : Except JsonRejection String}
    {hash : String} {pending : OidcDeviceRequest} (hidle : Idle events)
    (hshown : ∀ proof, ¬presents (.devicePoll headers body) events proof) :
    Awaiting (.devicePoll headers body) (.deviceRequest pending.id)
      (.ran (.oidc (.findDeviceRequest hash)) (.ok (some pending)) :: events) where
  idle := ⟨hidle.links, hidle.sessions⟩
  only := by
    intro proof _ hpresents
    by_cases hshows : shows proof (.ran (.oidc (.findDeviceRequest hash)) (.ok (some pending))) = true
    · cases proof with
      | deviceRequest id => rw [beq_iff_eq.mp hshows]
      | _ => contradiction
    · exact absurd (presents_cons (Bool.eq_false_iff.mpr hshows) hpresents) (hshown proof)

theorem presents_plain (h : ¬presents request events proof) (hplain : plain stmt = true)
    (result : β) :
    ¬presents request (.ran stmt result :: events) proof :=
  fun hpresents => h (presents_cons (plain_shows hplain result proof) hpresents)

theorem tells_devicePoll (env : Env) (headers : Headers) (body : Except JsonRejection String) :
    (devicePoll env headers body).Tells (UsesOnce (.devicePoll headers body))
      (fun _ => Once (.devicePoll headers body)) [.began (.devicePoll headers body)] := by
  have hbegan := idle_began (.devicePoll headers body)
  cases body with
  | error e => exact Or.inr hbegan
  | ok pollToken =>
    intro pool
    have hpool : plain (.platform .getPool) = true := rfl
    have hshown : ∀ proof, ¬presents (.devicePoll headers (.ok pollToken))
        [.ran (.platform .getPool) pool, .began (.devicePoll headers (.ok pollToken))] proof :=
      fun proof => presents_plain (fun h => by cases proof <;> exact presents_began h) hpool pool
    have hidle := hbegan.plain hpool pool
    refine ⟨hidle.once, ?_⟩
    cases pool with
    | error e => exact Or.inr hidle
    | ok _ =>
      intro found
      rcases found with e | _ | pending
      · exact ⟨Idle.once ⟨hidle.links, hidle.sessions⟩, Or.inr ⟨hidle.links, hidle.sessions⟩⟩
      · exact ⟨Idle.once ⟨hidle.links, hidle.sessions⟩, Or.inr ⟨hidle.links, hidle.sessions⟩⟩
      · have h : Awaiting (.devicePoll headers (.ok pollToken)) (.deviceRequest pending.id)
            (.ran (.oidc (.findDeviceRequest (env.hashToken (trim pollToken)))) (.ok (some pending))
              :: _) := awaiting_found hidle hshown
        refine ⟨h.idle.once, ?_⟩
        apply tells_bind (tells_awaiting (plain_polledTooSoon pending) h)
        intro tooSoon events h
        apply tells_ite
        · exact Or.inr h.idle
        · apply tells_bind (tells_awaiting (plain_oidc rfl) h)
          intro _ events h
          apply tells_bind (tells_awaiting (plain_oidc rfl) h)
          intro provider events h
          rcases provider with e | _ | provider
          · exact Or.inr h.idle
          · exact Or.inr h.idle
          · apply tells_ite
            · exact tells_refuse (only_bind (plain_oidc rfl) fun _ => only_pure _)
                h.idle
            · apply tells_bind (tells_awaiting (plain_platform _) h)
              intro facts events h
              rcases facts with e | facts
              · exact tells_refuse (plain_devicePollEnded pending e) h.idle
              · intro consumed
                have hplain : plain (.oidc (.consumeDeviceRequest pending.id)) = true := rfl
                have hidle := h.idle.plain hplain consumed
                refine ⟨hidle.once, ?_⟩
                rcases consumed with e | _ | _
                · exact Or.inr hidle
                · exact Or.inr hidle
                · exact tells_done (tells_deviceFinish env headers provider facts _
                    (h.taken hplain (beq_self_eq_true _)))

/-- Consuming the recovery code it shows leaves a request settled. -/
theorem Settled.marked (h : Settled request events) (id : Uuid) :
    Settled request (.ran (.factor (.markCodeUsed id)) (.ok true) :: events) := by
  intro proof hconsumable hpresents
  by_cases hshows : shows proof (.ran (.factor (.markCodeUsed id)) (.ok true)) = true
  · cases proof with
    | recoveryCode id' => exact ⟨_, List.mem_cons_self, hshows⟩
    | _ => contradiction
  · have hbefore := presents_cons (Bool.eq_false_iff.mpr hshows) hpresents
    obtain ⟨taken, hmem, hconsumes⟩ := h proof hconsumable hbefore
    exact ⟨taken, List.mem_cons_of_mem _ hmem, hconsumes⟩

/-- What holds once the second factor has been checked. -/
def Checked (request : AuthRequest) (ok : Bool) (events : List FullEvent) : Prop :=
  if ok = true then AtMost request 0 0 events else Idle events

theorem checked_of_atMost (h : AtMost request 0 0 events) (ok : Bool) : Checked request ok events := by
  cases ok with
  | true => exact h
  | false => exact h.idle

theorem tells_verifyTotpFactor (env : Env) (userId : Uuid) (code : String)
    (h : AtMost request 0 0 events) :
    (verifyTotpFactor env userId code).Tells (UsesOnce request) (Checked request) events := by
  have hplain : Plain (verifyTotpFactor env userId code) := by
    unfold verifyTotpFactor
    split
    · exact only_pure _
    · rename_i pepper _
      apply only_bind (plain_user _)
      intro found
      rcases found with e | _ | ⟨enc, _ | _⟩
      · exact only_pure _
      · exact only_pure _
      · exact only_pure _
      · dsimp only
        split
        · exact only_pure _
        · exact only_bind (plain_platform _) fun _ => only_pure _
  exact (tells_atMost hplain h).post
    fun ok _ h => checked_of_atMost h ok

theorem tells_verifyRecoveryFactor (env : Env) (userId : Uuid) (code : String)
    (h : AtMost request 0 0 events) :
    (verifyRecoveryFactor env userId code).Tells (UsesOnce request) (Checked request) events := by
  have hlist : Plain (factor (.listUnusedCodes userId)) := only_call rfl
  apply tells_bind (tells_atMost hlist h)
  intro unused events h
  cases unused with
  | error e => exact h.idle
  | ok unused =>
    cases hmatched : unused.find? fun row => verifyRecovery env code row.codeHash with
    | none =>
      simp only [hmatched]
      exact h.idle
    | some row =>
      simp only [hmatched]
      intro marked
      have hidle : Idle (.ran (.factor (.markCodeUsed row.id)) marked :: events) :=
        ⟨h.idle.links, h.idle.sessions⟩
      refine ⟨hidle.once, ?_⟩
      rcases marked with e | _ | _
      · exact hidle
      · exact hidle
      · exact hidle.atMost (h.settled.marked row.id)

theorem tells_verifyFactor (env : Env) (userId : Uuid) (method code : String)
    (h : AtMost request 0 0 events) :
    (verifyFactor env userId method code).Tells (UsesOnce request) (Checked request) events := by
  apply tells_ite (tells_verifyTotpFactor env userId code h)
  exact tells_ite (tells_verifyRecoveryFactor env userId code h) h.idle

theorem tells_twoFactorVerify (env : Env) (headers : Headers)
    (body : Except JsonRejection TwoFactorVerifyRequest) :
    (twoFactorVerify env headers body).Tells (UsesOnce (.twoFactorVerify headers body))
      (fun _ => Once (.twoFactorVerify headers body)) [.began (.twoFactorVerify headers body)] := by
  have hidle := idle_began (.twoFactorVerify headers body)
  have hbegan : AtMost (.twoFactorVerify headers body) 0 0
      [.began (.twoFactorVerify headers body)] := by
    apply hidle.atMost
    intro proof hconsumable hpresents
    have hbears := presents_began hpresents
    cases proof with
    | mfaToken token => contradiction
    | totpCode userId code => contradiction
    | _ => cases body <;> exact hbears.elim
  cases body with
  | error e => exact Or.inr hidle
  | ok req =>
    apply tells_ite
    · exact Or.inr hidle
    · apply tells_bind (tells_atMost (plain_platform _) hbegan)
      intro now events h
      cases req.mfaToken.verify .mfa now with
      | none => exact Or.inr h.idle
      | some userId =>
        apply tells_bind (tells_atMost (plain_platform _) h)
        intro pool events h
        cases pool with
        | error e => exact Or.inr h.idle
        | ok _ =>
          apply tells_bind (tells_verifyFactor env userId req.method req.code h)
          intro ok events h
          cases ok with
          | true =>
            refine tells_done ((tells_issueSession env headers userId _ h).post ?_)
            exact fun _ _ h => h.weaken
          | false =>
            exact tells_refuse (only_bind (plain_platform _) fun _ => only_pure _) h

theorem plain_updateStoredPasskey (env : Env) (userId : Uuid) (result : AuthenticationResult) :
    Plain (updateStoredPasskey env userId result) := by
  refine only_bind_except (only_call rfl) (fun _ => only_pure _) fun creds => ?_
  dsimp only
  split
  · exact only_pure _
  · split
    · exact only_pure _
    · exact only_bind (only_call rfl) fun _ => only_pure _

theorem tells_authenticateFinish (env : Env) (headers : Headers)
    (body : Except JsonRejection PasskeyFinishRequest) :
    (authenticateFinish env headers body).Tells (UsesOnce (.authenticateFinish headers body))
      (fun _ => Once (.authenticateFinish headers body))
      [.began (.authenticateFinish headers body)] := by
  have hidle := idle_began (.authenticateFinish headers body)
  cases body with
  | error e => exact Or.inr hidle
  | ok req =>
    have hawaiting : Awaiting (.authenticateFinish headers (.ok req)) (.ceremony req.stateId)
        [.began (.authenticateFinish headers (.ok req))] := by
      refine ⟨hidle, ?_⟩
      intro proof _ hpresents
      have hbears := presents_began hpresents
      cases proof with
      | ceremony id => exact congrArg _ (Eq.symm hbears)
      | _ => exact hbears.elim
    apply tells_bind (tells_awaiting (plain_platform _) hawaiting)
    intro pool events hawaiting
    cases pool with
    | error e => exact Or.inr hawaiting.idle
    | ok _ =>
      intro taken
      have hplain : plain (.factor (.takeState req.stateId .authenticate)) = true := rfl
      have hidle := hawaiting.idle.plain hplain taken
      refine ⟨hidle.once, ?_⟩
      rcases taken with e | _ | ⟨_ | userId, state⟩
      · exact Or.inr hidle
      · exact Or.inr hidle
      · exact Or.inr hidle
      · have hconsumes : consumes (.ceremony req.stateId)
            (.ran (.factor (.takeState req.stateId .authenticate))
              (.ok (some (some userId, state)))) = true := beq_self_eq_true _
        have h := hawaiting.taken hplain hconsumes
        have hissue : ∀ events, AtMost (.authenticateFinish headers (.ok req)) 0 0 events →
            (issueSession env headers userId "login_passkey_success").Tells
              (UsesOnce (.authenticateFinish headers (.ok req)))
              (fun _ => Once (.authenticateFinish headers (.ok req))) events := by
          intro events h
          exact tells_done ((tells_issueSession env headers userId _ h).post fun _ _ h => h.weaken)
        dsimp only [Prog.bind]
        split
        · exact Or.inr hidle
        · exact Or.inr hidle
        · rename_i result _
          apply tells_ite
          · apply tells_bind (tells_atMost (plain_updateStoredPasskey env userId result) h)
            exact fun _ events h => hissue events h
          · exact hissue _ h

/-! ## Every run -/

theorem tells_usesOnce (env : Env) : (fullService env).TellsAll UsesOnce := by
  intro request
  refine ⟨(idle_began request).once, ?_⟩
  have hfinish : ∀ {p : Handler Response}, p.Tells (UsesOnce request) (fun _ => Once request)
      [.began request] → p.Tells (UsesOnce request)
        (fun answer events => UsesOnce request (.answered request answer :: events))
        [.began request] :=
    fun hp => hp.post fun answer _ h => h.finish answer
  have hother : request.bearsProof = false → (request.handler env).Tells (UsesOnce request)
      (fun answer events => UsesOnce request (.answered request answer :: events))
      [.began request] := by
    intro hproof
    have hnone : ∀ events, UsesOnce request events := by
      intro events hbears
      rw [hproof] at hbears
      contradiction
    have htrue : (request.handler env).Tells (UsesOnce request) (fun _ _ => True)
        [.began request] :=
      tells_only (fun _ _ _ _ _ => ⟨hnone _, trivial⟩) (only_true _) trivial
    exact htrue.post fun _ _ _ => hnone _
  cases request with
  | twoFactorVerify headers body => exact hfinish (tells_twoFactorVerify env headers body)
  | authenticateFinish headers body => exact hfinish (tells_authenticateFinish env headers body)
  | oidcCallback headers query => exact hfinish (tells_callback env headers query)
  | devicePoll headers body => exact hfinish (tells_devicePoll env headers body)
  | _ => exact hother rfl

/-- A request has shown the proof and opened a session or linked an identity. -/
def LeadsTo (cfg : Config Stmt Db AuthRequest Response) (proof : SignInProof) (i : Nat) : Prop :=
  ∃ thread, cfg.threads[i]? = some thread ∧ thread.request.bearsProof = true ∧
    presents thread.request (cfg.world.own i) proof ∧
    ∃ event ∈ cfg.world.own i, (opensSession event || linksIdentity event) = true

/-- Such a request has taken every consumable proof it has shown. -/
theorem settled_of_leadsTo (env : Env) (db : Db) (labels : List (Label AuthRequest Choice))
    {i : Nat} (h : LeadsTo ((fullService env).run (initial db) labels) proof i)
    (hconsumable : proof.consumable = true) :
    ∃ event, (i, event) ∈ ((fullService env).run (initial db) labels).world.log ∧
      consumes proof event = true := by
  obtain ⟨thread, hthread, hbears, hpresents, event, hmem, hleads⟩ := h
  have honce := (fullService env).own_run (tells_usesOnce env) db labels i thread hthread hbears
  rcases honce with hatMost | hidle
  · obtain ⟨taken, htaken, hconsumes⟩ := hatMost.settled proof hconsumable hpresents
    exact ⟨taken, World.mem_own.mp htaken, hconsumes⟩
  · rcases Bool.or_eq_true_iff.mp hleads with hopens | hlinks
    · exact absurd hopens (List.countP_eq_zero.mp hidle.sessions event hmem)
    · exact absurd hlinks (List.countP_eq_zero.mp hidle.links event hmem)

/-- At most one request of the run leads from the proof to a session or a link,
and it opens one session and links one identity at most. A proof that was issued
a second time counts twice. -/
def SingleUse (env : Env) (db : Db) (labels : List (Label AuthRequest Choice))
    (proof : SignInProof) : Prop :=
  let cfg := (fullService env).run (initial db.withoutProofs) labels
  (∀ i j, LeadsTo cfg proof i → LeadsTo cfg proof j → i = j ∨ Reissued proof cfg.world) ∧
    ∀ i, LeadsTo cfg proof i → (cfg.world.own i).countP opensSession ≤ 1 ∧
      (cfg.world.own i).countP linksIdentity ≤ 1

/-- In every run a recovery code, a passkey ceremony, an authorization state and
a device request are of use once. -/
theorem sign_in_proof_single_use (env : Env) (db : Db) (labels : List (Label AuthRequest Choice))
    (proof : SignInProof) (hconsumable : proof.consumable = true) :
    SingleUse env db labels proof := by
  refine ⟨?_, ?_⟩
  · intro i j hi hj
    obtain ⟨event, hevent, hconsumes⟩ := settled_of_leadsTo env db.withoutProofs labels hi hconsumable
    obtain ⟨event', hevent', hconsumes'⟩ :=
      settled_of_leadsTo env db.withoutProofs labels hj hconsumable
    exact consumed_once env db labels hevent hevent' hconsumes hconsumes'
  · intro i hi
    obtain ⟨thread, hthread, hbears, _⟩ := hi
    have honce := (fullService env).own_run (tells_usesOnce env) db.withoutProofs labels i thread
      hthread hbears
    rcases honce with hatMost | hidle
    · exact ⟨hatMost.sessions, hatMost.links⟩
    · rw [hidle.sessions, hidle.links]
      exact ⟨Nat.zero_le _, Nat.zero_le _⟩

/-- Alice with a passkey and a confirmed authenticator app. -/
def aliceFactorDb : Db :=
  { aliceDb with
    users := aliceDb.users.map fun user =>
      { user with totpSecretEnc := some (bytesOf "7"), totpConfirmedAt := some 0 }
    webauthnCredentials := [⟨0, 0, bytesOf "key", "key", 0⟩] }

/-- Two requests finish the same passkey ceremony side by side. -/
def ceremonyTwice : List (Label AuthRequest Choice) :=
  let finish : AuthRequest := .authenticateFinish {} (.ok ⟨1, "key"⟩)
  .start (.authenticateStart (.ok "alice@example.org")) :: List.replicate 8 (.run 0 {}) ++
    .start finish :: .start finish :: .run 1 {} :: .run 2 {} ::
      List.replicate 16 (.run 2 {}) ++ List.replicate 16 (.run 1 {})

theorem sign_in_proof_single_use_ceremony :
    SingleUse Env.transparent aliceFactorDb ceremonyTwice (.ceremony 1) :=
  sign_in_proof_single_use Env.transparent aliceFactorDb ceremonyTwice (.ceremony 1) rfl

/-- Alice enters her password and two requests answer the challenge with one code. -/
def challengeTwice : List (Label AuthRequest Choice) :=
  let verify : AuthRequest :=
    .twoFactorVerify {} (.ok ⟨.genuine ⟨.mfa, 0, mfaTtl, ""⟩, "totp", "7"⟩)
  .start (.login {} (.ok ⟨"alice@example.org", "secret"⟩)) :: List.replicate 14 (.run 0 {}) ++
    .start verify :: List.replicate 16 (.run 1 {}) ++
      .start verify :: List.replicate 16 (.run 2 { random := "b" })

/-- Both answers to the challenge open a session. -/
theorem leadsTo_challengeTwice {i : Nat} (hi : i = 1 ∨ i = 2)
    (hbears : bears (.twoFactorVerify {} (.ok ⟨.genuine ⟨.mfa, 0, mfaTtl, ""⟩, "totp", "7"⟩)) proof) :
    LeadsTo ((fullService Env.transparent).run (initial aliceFactorDb.withoutProofs)
      challengeTwice) proof i := by
  have hrequest : (((fullService Env.transparent).run (initial aliceFactorDb.withoutProofs)
      challengeTwice).threads[i]?).map (·.request) =
        some (.twoFactorVerify {} (.ok ⟨.genuine ⟨.mfa, 0, mfaTtl, ""⟩, "totp", "7"⟩)) := by
    rcases hi with rfl | rfl <;> decide +kernel
  have hopens : (((fullService Env.transparent).run (initial aliceFactorDb.withoutProofs)
      challengeTwice).world.own i).any
        (fun event => opensSession event || linksIdentity event) = true := by
    rcases hi with rfl | rfl <;> decide +kernel
  obtain ⟨thread, hthread, heq⟩ := Option.map_eq_some_iff.mp hrequest
  refine ⟨thread, hthread, ?_, ?_, List.any_eq_true.mp hopens⟩
  · rw [heq]
    rfl
  · rw [heq]
    exact Or.inl hbears

theorem not_singleUse_challengeTwice (hstate : ∀ state, proof ≠ .authState state)
    (hbears : bears (.twoFactorVerify {} (.ok ⟨.genuine ⟨.mfa, 0, mfaTtl, ""⟩, "totp", "7"⟩)) proof) :
    ¬ SingleUse Env.transparent aliceFactorDb challengeTwice proof := by
  intro hsingle
  rcases hsingle.1 1 2 (leadsTo_challengeTwice (Or.inl rfl) hbears)
    (leadsTo_challengeTwice (Or.inr rfl) hbears) with heq | hreissued
  · contradiction
  · rw [Reissued, not_issued hstate] at hreissued
    contradiction

/-- Neither a challenge token nor a TOTP code is of use only once. -/
theorem challenge_reused :
    ¬ SingleUse Env.transparent aliceFactorDb challengeTwice (.mfaToken ⟨.mfa, 0, mfaTtl, ""⟩) ∧
      ¬ SingleUse Env.transparent aliceFactorDb challengeTwice (.totpCode 0 "7") := by
  refine ⟨?_, ?_⟩
  · exact not_singleUse_challengeTwice (by intro state heq; contradiction) rfl
  · exact not_singleUse_challengeTwice (by intro state heq; contradiction) ⟨rfl, rfl, _, rfl, rfl⟩

end IntelliPilot.Auth
