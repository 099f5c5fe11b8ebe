import IntelliPilot.Auth.Footprints

/-! # Polling a device sign-in

`device_poll` again, now with the calls `device::poll` makes to the provider's
token endpoint, each with its time and what came of it. Requests carrying one
poll token run in any interleaving. The calls keep the distance the provider
asks for, and stop once the sign-in is over, in every run in which no poll is
overtaken between its look-up and its call.
-/

namespace IntelliPilot.Auth

open Rows Statement Contract Prog
open Service (initial)

namespace DevicePolling

/-! ## One call of the token endpoint -/

/-- `OauthErrorBody`. -/
structure OauthErrorBody where
  error : String
  errorDescription : Option String
  deriving DecidableEq, Repr

/-- `map_oauth_error`, of a body that parses or does not. -/
def mapOauthError (body : Option OauthErrorBody) (status : Nat) : OidcError :=
  match body with
  | none => .unavailable ("provider returned HTTP " ++ toString status)
  | some parsed =>
    let detail := parsed.errorDescription.getD parsed.error
    if parsed.error = "authorization_pending" then .pending
    else if parsed.error = "slow_down" then .slowDown
    else if parsed.error = "access_denied" ∨ parsed.error = "expired_token" then .rejected detail
    else .config detail

/-- The text of a response: an error body, or a token response whose ID token verifies. -/
structure TokenBody where
  oauthError : Option OauthErrorBody
  claims : Except String IdentityFacts
  deriving DecidableEq, Repr

/-- How the parts of `device::poll` go: the metadata, with or without a token
endpoint, the HTTP client, the status of the response and its text. -/
structure Exchange where
  metadata : Except OidcError Bool
  httpClient : Except OidcError Unit
  send : Except String Nat
  text : Except String TokenBody
  deriving DecidableEq, Repr

/-- `StatusCode::is_success`. -/
def isSuccess (status : Nat) : Bool := decide (200 ≤ status) && decide (status < 300)

/-- `device::poll`. -/
def poll (exchange : Exchange) : Except OidcError IdentityFacts :=
  match exchange.metadata with
  | .error e => .error e
  | .ok false => .error (.config "provider publishes no token endpoint")
  | .ok true =>
    match exchange.httpClient with
    | .error e => .error e
    | .ok _ =>
      match exchange.send with
      | .error e => .error (.unavailable ("device token request failed: " ++ e))
      | .ok status =>
        match exchange.text with
        | .error e => .error (.unavailable ("device token body: " ++ e))
        | .ok body =>
          if !isSuccess status then .error (mapOauthError body.oauthError status)
          else
            match body.claims with
            | .error detail => .error (.rejected detail)
            | .ok facts => .ok facts

/-- Whether the token endpoint is called at all. -/
def Exchange.sent (exchange : Exchange) : Bool :=
  match exchange.metadata, exchange.httpClient with
  | .ok true, .ok _ => true
  | _, _ => false

/-- The provider answers `slow_down`. -/
def Exchange.slowsDown (exchange : Exchange) : Bool :=
  exchange.sent && poll exchange == .error .slowDown

/-- The provider answers that the human declined or took too long. -/
def Exchange.refuses (exchange : Exchange) : Bool :=
  exchange.sent &&
    match exchange.send, exchange.text with
    | .ok status, .ok body => !isSuccess status &&
        body.oauthError.any fun parsed =>
          parsed.error == "access_denied" || parsed.error == "expired_token"
    | _, _ => false

/-! ## The runs -/

/-- A call of the token endpoint, in the provider's books. -/
structure TokenCall where
  deviceCode : String
  time : Time
  exchange : Exchange
  deriving DecidableEq, Repr

/-- The tables, and the calls of the token endpoint so far, newest first. -/
structure Polled where
  db : Db
  calls : List TokenCall

/-- The environment's part in a statement. -/
structure PollChoice where
  base : Choice := {}
  exchange : Exchange

/-- The device code a statement polls with. -/
def polledCode : {β : Type} → Stmt β → Option String
  | _, .platform (.pollDevice _ deviceCode) => some deviceCode
  | _, _ => none

/-- The provider's books after a statement. -/
def book (code : Option String) (exchange : Exchange) (now : Time) (calls : List TokenCall) :
    List TokenCall :=
  match code with
  | none => calls
  | some deviceCode => if exchange.sent then ⟨deviceCode, now, exchange⟩ :: calls else calls

def exec {β : Type} (stmt : Stmt β) (choice : PollChoice) (s : Polled) : β × Polled :=
  let outcome := stmt.exec { choice.base with oidc := poll choice.exchange } s.db
  (outcome.1, ⟨outcome.2, book (polledCode stmt) choice.exchange outcome.2.now s.calls⟩)

/-- Polls carrying one token. -/
def service (env : Env) (pollToken : String) : Service Stmt Polled PollChoice Headers Response where
  exec := exec
  handler headers := devicePoll env headers (.ok pollToken)

abbrev PollWorld : Type 1 := World Stmt Polled Headers Response

abbrev PollEvent : Type 1 := Event Stmt Headers Response

/-! ## Discipline -/

/-- How often the provider has asked to slow down. -/
def slowDowns (calls : List TokenCall) : Nat := calls.countP (·.exchange.slowsDown)

/-- The distance the provider asks for: the interval, and five seconds more for
each `slow_down`. -/
def gap (request : OidcDeviceRequest) (calls : List TokenCall) : Time :=
  seconds (request.intervalSecs + 5 * slowDowns calls)

/-- A call at `now` keeps the distance from all earlier ones. -/
def Due (request : OidcDeviceRequest) (calls : List TokenCall) (now : Time) : Prop :=
  ∀ call ∈ calls, call.time + gap request calls ≤ now

/-- Every call keeps the distance from the earlier ones. -/
def Spaced (request : OidcDeviceRequest) : List TokenCall → Prop
  | [] => True
  | call :: earlier => Due request earlier call.time ∧ Spaced request earlier

instance (request : OidcDeviceRequest) (calls : List TokenCall) (now : Time) :
    Decidable (Due request calls now) :=
  inferInstanceAs (Decidable (∀ call ∈ calls, call.time + gap request calls ≤ now))

instance decidableSpaced (request : OidcDeviceRequest) :
    ∀ calls, Decidable (Spaced request calls)
  | [] => instDecidableTrue
  | call :: earlier =>
      have := decidableSpaced request earlier
      inferInstanceAs (Decidable (Due request earlier call.time ∧ Spaced request earlier))

/-- The answer establishes a session or a link. -/
def signsIn (answer : Response) : Bool := answer.status == 200 || answer.status == 204

def SignedIn (w : PollWorld) : Prop :=
  ∃ i headers answer, (i, .answered headers answer) ∈ w.log ∧ signsIn answer = true

/-- Some call was refused for good. -/
def Refused (calls : List TokenCall) : Prop := ∃ call ∈ calls, call.exchange.refuses = true

/-- A poll was answered with a session or a link, the provider has refused, or
the request has expired. -/
def Over (request : OidcDeviceRequest) (w : PollWorld) : Prop :=
  SignedIn w ∨ Refused w.state.calls ∨ request.expiresAt ≤ w.state.db.now

/-- The calls keep their distance, and none comes once the sign-in is over. -/
structure Disciplined (env : Env) (pollToken : String) (request : OidcDeviceRequest) (s : Polled)
    (labels : List (Label Headers PollChoice)) : Prop where
  spaced : Spaced request
    ((service env pollToken).run (initial s) labels).world.state.calls
  stopped : ∀ first last, labels = first ++ last →
    Over request ((service env pollToken).run (initial s) first).world →
      ((service env pollToken).run (initial s) labels).world.state.calls =
        ((service env pollToken).run (initial s) first).world.state.calls

/-! ## What a run is asked for -/

/-- A look-up that finds the request. -/
def finds : PollEvent → Bool
  | .ran (.oidc (.findDeviceRequest _)) (.ok (some _)) => true
  | _ => false

def stamps : PollEvent → Bool
  | .ran (.oidc (.stampDevicePoll _)) _ => true
  | _ => false

def turnsToProvider : PollEvent → Bool
  | .ran stmt _ => (polledCode stmt).isSome
  | _ => false

/-- What must not happen between a poll's look-up and its call. -/
def disturbs : PollEvent → Bool
  | .answered _ answer => signsIn answer
  | event => turnsToProvider event

/-- A statement that stores a new request. -/
def inserts : {β : Type} → Stmt β → Bool
  | _, .oidc (.insertDeviceRequest _) => true
  | _, _ => false

/-- A statement that looks a request up. -/
def looksUp : {β : Type} → Stmt β → Bool
  | _, .oidc (.findDeviceRequest _) => true
  | _, _ => false

/-- What has happened since poll `i` found the request, newest first. -/
def sinceFound (i : Nat) (log : List (Nat × PollEvent)) : List (Nat × PollEvent) :=
  log.takeWhile fun entry => !(entry.1 == i && finds entry.2)

def Undisturbed (i : Nat) (w : PollWorld) : Prop :=
  ∀ entry ∈ sinceFound i w.log, disturbs entry.2 = false

/-- The steps of a run in which nobody is overtaken: no poll finds the request
after a refusal; none gets past the code's own interval check before the
provider's interval, lengthened by its `slow_down`s, has passed since the last
call; and when a poll turns to the provider, nobody else has turned to it or
signed in since the poll found the request, which has not expired either. -/
structure Careful (request : OidcDeviceRequest) (i : Nat) (w w' : PollWorld) (event : PollEvent) :
    Prop where
  found : finds event = true → ¬ Refused w.state.calls
  stamped : stamps event = true → Due request w.state.calls w'.state.db.now
  called : turnsToProvider event = true →
    Undisturbed i w ∧ w'.state.db.now < request.expiresAt

def TakesCare (request : OidcDeviceRequest) (i : Nat) (w w' : PollWorld) : Prop :=
  ∀ event, w'.log = (i, event) :: w.log → Careful request i w w' event

/-! ## The row -/

/-- The row is `request` but for its last poll and its consumption. -/
def IsRequest (request row : OidcDeviceRequest) : Prop :=
  { row with lastPolledAt := request.lastPolledAt, consumedAt := request.consumedAt } = request

/-- The token belongs to `request` alone. -/
def Belongs (request : OidcDeviceRequest) (db : Db) : Prop :=
  ∀ row ∈ db.oidcDeviceRequests, row.pollTokenHash = request.pollTokenHash → IsRequest request row

/-- No look-up finds the request any more. -/
def Spent (request : OidcDeviceRequest) (db : Db) : Prop :=
  ∀ row ∈ db.oidcDeviceRequests, row.pollTokenHash = request.pollTokenHash →
    row.consumedAt ≠ none ∨ row.expiresAt ≤ db.now

/-- What a row may become: polled again or consumed. -/
structure Follows (row row' : OidcDeviceRequest) : Prop where
  same : ∃ last consumed, row' = { row with lastPolledAt := last, consumedAt := consumed }
  consumed : row.consumedAt ≠ none → row'.consumedAt ≠ none

theorem Follows.refl (row : OidcDeviceRequest) : Follows row row := ⟨⟨_, _, rfl⟩, id⟩

/-- The clock has moved on, and no request is new. -/
structure Ages (db db' : Db) : Prop where
  now : db.now ≤ db'.now
  rows : ∀ row' ∈ db'.oidcDeviceRequests, ∃ row ∈ db.oidcDeviceRequests, Follows row row'

theorem Ages.of_rows {db db' : Db} (hnow : db.now ≤ db'.now)
    (h : db'.oidcDeviceRequests ⊆ db.oidcDeviceRequests) : Ages db db' :=
  ⟨hnow, fun row hrow => ⟨row, h hrow, .refl row⟩⟩

section Ages

variable {request : OidcDeviceRequest} {db db' : Db}

theorem Belongs.ages (h : Belongs request db) (hages : Ages db db') : Belongs request db' := by
  intro row' hrow' hhash
  obtain ⟨row, hrow, ⟨last, consumed, rfl⟩, _⟩ := hages.rows row' hrow'
  exact h row hrow hhash

theorem Spent.ages (h : Spent request db) (hages : Ages db db') : Spent request db' := by
  intro row' hrow' hhash
  obtain ⟨row, hrow, ⟨last, consumed, rfl⟩, hconsumed⟩ := hages.rows row' hrow'
  rcases h row hrow hhash with hspent | hexpired
  · exact .inl (hconsumed hspent)
  · exact .inr (Nat.le_trans hexpired hages.now)

/-- The request a look-up finds. -/
theorem found_isRequest (h : Belongs request db) {pending : OidcDeviceRequest}
    (hfind : Oidc.findDeviceRequest request.pollTokenHash db = some pending) :
    IsRequest request pending ∧ ¬ Spent request db := by
  have hmem := List.mem_of_find?_eq_some hfind
  have hlive := List.find?_some hfind
  simp only [Bool.and_eq_true, beq_iff_eq, Option.isNone_iff_eq_none, decide_eq_true_eq] at hlive
  obtain ⟨⟨hhash, hunconsumed⟩, hunexpired⟩ := hlive
  refine ⟨h pending hmem hhash, ?_⟩
  intro hspent
  rcases hspent pending hmem hhash with hconsumed | hexpired
  · exact hconsumed hunconsumed
  · exact Nat.not_lt.mpr hexpired hunexpired

theorem updateWhere_ages {p : OidcDeviceRequest → Bool} {f : OidcDeviceRequest → OidcDeviceRequest}
    (hf : ∀ row, Follows row (f row)) (rows : List OidcDeviceRequest) :
    ∀ row' ∈ updateWhere p f rows, ∃ row ∈ rows, Follows row row' := by
  intro row' hrow'
  obtain ⟨row, hrow, rfl⟩ := List.mem_map.mp hrow'
  refine ⟨row, hrow, ?_⟩
  split
  · exact hf row
  · exact .refl row

/-- Only a new request makes a row that follows none. -/
theorem ages_exec {β : Type} {stmt : Stmt β} (hnew : inserts stmt = false) (choice : Choice)
    (db : Db) : Ages db (stmt.exec choice db).2 := by
  have hnow := (stmt.unchanged choice db).counters.2
  by_cases htable : stmt.oidcTable = some .deviceRequests
  · cases stmt with
    | oidc stmt =>
      have hlater : db.now ≤ (db.advance choice.elapse).now := Nat.le_add_right _ _
      have hsame : Ages db (db.advance choice.elapse) := .of_rows hlater (List.Subset.refl _)
      have hmapped : ∀ (p : OidcDeviceRequest → Bool) (f : OidcDeviceRequest → OidcDeviceRequest),
          (∀ row, Follows row (f row)) → Ages db { db.advance choice.elapse with
            oidcDeviceRequests :=
              updateWhere p f (db.advance choice.elapse).oidcDeviceRequests } := fun p f hf =>
        ⟨hlater, updateWhere_ages hf _⟩
      have hfiltered : ∀ p : OidcDeviceRequest → Bool, Ages db { db.advance choice.elapse with
          oidcDeviceRequests :=
            deleteWhere p (db.advance choice.elapse).oidcDeviceRequests } := fun p =>
        .of_rows hlater fun row hrow => (mem_deleteWhere.mp hrow).1
      cases stmt with
      | purgeDeviceRequests | deleteDeviceRequest id => exact bestEffort_state hsame (hfiltered _)
      | findDeviceRequest hash => exact attempt_state hsame hsame
      | stampDevicePoll id =>
        exact bestEffort_state hsame (hmapped _ _ fun row => ⟨⟨_, _, rfl⟩, fun h => h⟩)
      | consumeDeviceRequest id =>
        exact attempt_state hsame (hmapped _ _ fun row => ⟨⟨_, _, rfl⟩, by simp⟩)
      | insertDeviceRequest new => simp [inserts] at hnew
      | _ => simp [Stmt.oidcTable, OidcStmt.table] at htable
    | _ => simp [Stmt.oidcTable] at htable
  · apply Ages.of_rows hnow
    rw [stmt.deviceRequests_unchanged htable choice db]
    exact List.Subset.refl _

/-- Consumption leaves nothing to find. -/
theorem spent_of_consumed {id : Uuid} (h : Belongs request db) (hid : id = request.id) :
    Spent request (Oidc.consumeDeviceRequest id db).2 := by
  intro row' hrow' hhash
  obtain ⟨row, hrow, rfl⟩ := List.mem_map.mp hrow'
  left
  split
  · simp
  · rename_i hconsumed
    have hrequest : IsRequest request row := by
      apply h row hrow
      rwa [if_neg hconsumed] at hhash
    have hrow : row.id = id := by
      rw [hid, ← hrequest]
    simpa [Oidc.unconsumed, hrow, Option.isNone_iff_eq_none] using hconsumed

end Ages

/-! ## The contract of a poll -/

section Events

variable {i j : Nat} {w : PollWorld} {event : PollEvent} {s : Polled}

/-- Whoever has an event, unless it is the look-up of `i`, `i` was undisturbed before. -/
theorem undisturbed_record (hnew : (i == j && finds event) = false) :
    Undisturbed j (w.record i event s) ↔ disturbs event = false ∧ Undisturbed j w := by
  rw [Undisturbed, World.record_log, sinceFound, List.takeWhile_cons_of_pos (by simp [hnew])]
  exact List.forall_mem_cons

theorem SignedIn.of_record (hquiet : disturbs event = false)
    (h : SignedIn (w.record i event s)) : SignedIn w := by
  obtain ⟨k, headers, answer, hmem, hsigns⟩ := h
  rcases List.mem_cons.mp hmem with heq | hold
  · obtain ⟨_, rfl⟩ := Prod.mk.inj heq
    rw [disturbs, hsigns] at hquiet
    contradiction
  · exact ⟨k, headers, answer, hold, hsigns⟩

end Events

theorem Due.mono {request : OidcDeviceRequest} {calls : List TokenCall} {now now' : Time}
    (h : Due request calls now) (hle : now ≤ now') : Due request calls now' :=
  fun call hcall => Nat.le_trans (h call hcall) hle

/-- What the others may do between two statements of poll `i`. -/
structure Beside (request : OidcDeviceRequest) (i : Nat) (w w' : PollWorld) : Prop where
  now : w.state.db.now ≤ w'.state.db.now
  spent : Spent request w.state.db → Spent request w'.state.db
  quiet : Undisturbed i w' →
    Undisturbed i w ∧ w'.state.calls = w.state.calls ∧ (SignedIn w' → SignedIn w)

/-- What a step of poll `i` does. -/
structure Steps (request : OidcDeviceRequest) (i : Nat) (w w' : PollWorld) : Prop where
  now : w.state.db.now ≤ w'.state.db.now
  spent : Spent request w.state.db → Spent request w'.state.db
  stopped : Over request w → w'.state.calls = w.state.calls
  event : ∃ event, w'.log = (i, event) :: w.log ∧ (disturbs event = false →
    w'.state.calls = w.state.calls ∧ (SignedIn w' → SignedIn w))

/-- The token belongs to the request, the calls are spaced, and a sign-in has spent it. -/
structure Inv (request : OidcDeviceRequest) (w : PollWorld) : Prop where
  belongs : Belongs request w.state.db
  spaced : Spaced request w.state.calls
  spent : SignedIn w → Spent request w.state.db

variable {env : Env} {pollToken : String} {request : OidcDeviceRequest}

theorem Beside.trans {i : Nat} {w₁ w₂ w₃ : PollWorld} (h : Beside request i w₁ w₂)
    (h' : Beside request i w₂ w₃) : Beside request i w₁ w₃ where
  now := Nat.le_trans h.now h'.now
  spent hspent := h'.spent (h.spent hspent)
  quiet hquiet := by
    obtain ⟨hquiet₂, hcalls₂, hsigned₂⟩ := h'.quiet hquiet
    obtain ⟨hquiet₁, hcalls₁, hsigned₁⟩ := h.quiet hquiet₂
    exact ⟨hquiet₁, hcalls₂.trans hcalls₁, fun hsigned => hsigned₁ (hsigned₂ hsigned)⟩

/-- A step is the others' doing for every other poll. -/
theorem Steps.beside {i j : Nat} {w w' : PollWorld} (h : Steps request i w w') (hne : i ≠ j) :
    Beside request j w w' := by
  obtain ⟨event, hlog, hevent⟩ := h.event
  refine ⟨h.now, h.spent, ?_⟩
  intro hquiet
  have hrecord : Undisturbed j (w.record i event w'.state) := by
    rw [Undisturbed, World.record_log, ← hlog]
    exact hquiet
  obtain ⟨hevent', hbefore⟩ := (undisturbed_record (by simp [hne])).mp hrecord
  exact ⟨hbefore, hevent hevent'⟩

def contract (env : Env) (pollToken : String) (request : OidcDeviceRequest) :
    Contract (service env pollToken) where
  inv := Inv request
  allowed := TakesCare request
  rely := Beside request
  guar := Steps request
  rely_refl _ _ := ⟨Nat.le_refl _, id, fun hquiet => ⟨hquiet, rfl, id⟩⟩
  rely_trans _ _ _ _ := Beside.trans
  guar_rely _ _ _ _ hne _ _ _ h := h.beside hne

section Step

variable {i : Nat} {w : PollWorld} {β : Type} {stmt : Stmt β}

theorem book_none {calls : List TokenCall} (exchange : Exchange) (now : Time)
    (h : (polledCode stmt).isSome = false) : book (polledCode stmt) exchange now calls = calls := by
  rw [Option.isSome_eq_false_iff, Option.isNone_iff_eq_none] at h
  rw [h]
  rfl

/-- What a statement other than a call does to the world. -/
theorem perform_steps (env : Env) (pollToken : String) (i : Nat) (stmt : Stmt β)
    (hcode : (polledCode stmt).isSome = false) (hnew : inserts stmt = false) (choice : PollChoice)
    (hinv : Inv request w) :
    Inv request ((service env pollToken).perform i stmt choice w) ∧
      Steps request i w ((service env pollToken).perform i stmt choice w) := by
  have hages : Ages w.state.db ((service env pollToken).perform i stmt choice w).state.db :=
    ages_exec hnew _ _
  have hcalls : ((service env pollToken).perform i stmt choice w).state.calls = w.state.calls :=
    book_none _ _ hcode
  have hsigned : SignedIn ((service env pollToken).perform i stmt choice w) → SignedIn w :=
    SignedIn.of_record hcode
  refine ⟨⟨hinv.belongs.ages hages, ?_, fun h => (hinv.spent (hsigned h)).ages hages⟩,
    ⟨hages.now, fun h => h.ages hages, fun _ => hcalls, _, rfl, fun _ => ⟨hcalls, hsigned⟩⟩⟩
  rw [hcalls]
  exact hinv.spaced

/-- A statement that is no look-up, no call and no new request. -/
def calm {β : Type} (stmt : Stmt β) : Bool :=
  !(polledCode stmt).isSome && !inserts stmt && !looksUp stmt

theorem calm_iff : calm stmt = true ↔
    ((polledCode stmt).isSome = false ∧ inserts stmt = false) ∧ looksUp stmt = false := by
  simp [calm]

theorem finds_of_looksUp (h : looksUp stmt = false) (result : β) :
    finds (.ran stmt result) = false := by
  cases stmt with
  | oidc stmt =>
    cases stmt with
    | findDeviceRequest hash => simp [looksUp] at h
    | _ => rfl
  | _ => rfl

/-- Calm statements disturb nobody. -/
theorem quiet_of_calm (env : Env) (pollToken : String) (stmt : Stmt β) (hcalm : calm stmt = true) :
    (contract env pollToken request).Quiet stmt := by
  intro i w choice hinv _
  obtain ⟨⟨hcode, hnew⟩, hlooks⟩ := calm_iff.mp hcalm
  obtain ⟨hinv', hsteps⟩ := perform_steps env pollToken i stmt hcode hnew choice hinv
  have hcalls : ((service env pollToken).perform i stmt choice w).state.calls = w.state.calls :=
    book_none _ _ hcode
  refine ⟨hinv', hsteps, hsteps.now, hsteps.spent, ?_⟩
  intro hquiet
  have hfinds := finds_of_looksUp hlooks ((service env pollToken).exec stmt choice w.state).1
  obtain ⟨hevent, hbefore⟩ := (undisturbed_record (by simp [hfinds])).mp hquiet
  exact ⟨hbefore, hcalls, SignedIn.of_record hevent⟩

end Step

/-! ## The statements after the consumption -/

section Calm

attribute [local simp] session user factor oidc platform calm polledCode inserts looksUp
attribute [local simp] only_done_iff only_step_iff only_call_iff only_ite_iff
attribute [local simp] forall_except Option.forall
attribute [local irreducible] trim

/-- Programs of calm statements. -/
def Calm {α : Type} (p : Handler α) : Prop := p.Only fun stmt => calm stmt = true

theorem calm_issueSession (env : Env) (headers : Headers) (userId : Uuid) (action : String) :
    Calm (issueSession env headers userId action) := by
  apply only_bind
  · simp [establishSession, generate]
  · intro established
    cases established with
    | error response => exact only_pure _
    | ok new => exact only_pure _

theorem calm_freeUsernameFrom (base : String) (n fuel : Nat) :
    Calm (freeUsernameFrom base n fuel) := by
  induction fuel generalizing n with
  | zero => exact only_pure _
  | succ fuel ih => simpa [Calm, freeUsernameFrom] using ih (n + 1)

theorem calm_linkSubject (provider : OidcProvider) (facts : IdentityFacts) (userId : Uuid) :
    Calm (linkSubject provider facts userId) := by
  apply only_bind (by simp)
  intro linked
  rcases linked with (_ | _ | _) | identity
  · exact only_pure _
  · exact only_pure _
  · exact only_pure _
  · exact only_pure _

theorem calm_provisionLogin (env : Env) (provider : OidcProvider) (facts : IdentityFacts) :
    Calm (provisionLogin env provider facts) := by
  apply only_ite (only_pure _)
  apply only_bind
  · refine only_bind_except (calm_freeUsernameFrom _ _ _) (fun _ => only_pure _)
      fun username => ?_
    simp
  · intro account
    cases account with
    | error e => exact only_pure _
    | ok account =>
      refine only_bind_except (calm_linkSubject provider facts account.id)
        (fun _ => only_pure _) fun _ => ?_
      simp

theorem calm_resolveUnbound (env : Env) (provider : OidcProvider) (facts : IdentityFacts) :
    Calm (resolveUnbound env provider facts) := by
  have hprovision := calm_provisionLogin env provider facts
  rw [Calm] at hprovision
  apply only_ite (only_pure _)
  apply only_ite (only_pure _)
  apply only_bind (by simp)
  intro armed
  rcases armed with e | _ | account
  · exact only_pure _
  · simpa using hprovision
  · refine only_bind_except (calm_linkSubject provider facts account.id)
      (fun _ => only_pure _) fun _ => ?_
    simp

theorem calm_resolveLogin (env : Env) (provider : OidcProvider) (facts : IdentityFacts) :
    Calm (resolveLogin env provider facts) := by
  apply only_ite (only_pure _)
  apply only_bind (by simp)
  intro identity
  rcases identity with e | _ | identity
  · exact only_pure _
  · exact calm_resolveUnbound env provider facts
  · apply only_bind (by simp)
    intro _
    apply only_bind
    · simp [syncOidcDisplayName]
    · exact fun _ => only_pure _

theorem calm_syncSuperadmin (provider : OidcProvider) (facts : IdentityFacts) (userId : Uuid) :
    Calm (syncSuperadmin provider facts userId) := by
  unfold syncSuperadmin
  split
  · exact only_pure _
  · refine only_bind_found (by simp) (fun _ => only_pure _) (only_pure _)
      fun account => ?_
    apply only_ite (only_pure _)
    apply only_bind (by simp)
    intro outcome
    rcases outcome with e | _ | _ | _
    · exact only_pure _
    · simp
    · exact only_pure _
    · simp

theorem calm_polledTooSoon (pending : OidcDeviceRequest) : Calm (polledTooSoon pending) := by
  unfold polledTooSoon
  split
  · exact only_pure _
  · exact only_bind (only_call rfl) fun _ => only_pure _

/-- What is done with a consumed request neither looks one up nor calls the provider. -/
theorem calm_deviceFinish (env : Env) (headers : Headers) (provider : OidcProvider)
    (facts : IdentityFacts) (linkUserId : Option Uuid) :
    Calm (deviceFinish env headers provider facts linkUserId) := by
  cases linkUserId with
  | some linkUserId =>
    refine only_bind_except (calm_linkSubject provider facts linkUserId)
      (fun _ => only_pure _) fun _ => ?_
    simp
  | none =>
    refine only_bind_except (calm_resolveLogin env provider facts) (fun _ => only_pure _)
      fun userId => ?_
    refine only_bind_except (by simp [checkAccountUsable]) (fun _ => only_pure _)
      fun _ => ?_
    refine only_bind_except (by simp) (fun _ => only_pure _) fun _ => ?_
    apply only_bind (calm_syncSuperadmin provider facts userId)
    exact fun _ => calm_issueSession env headers userId _

end Calm

/-! ## One poll -/

/-- What poll `i` knows of the request it has found, as long as it is undisturbed. -/
structure Open (i : Nat) (w : PollWorld) : Prop where
  signedOut : Undisturbed i w → ¬ SignedIn w
  unrefused : Undisturbed i w → ¬ Refused w.state.calls

/-- And what it knows once its poll is stamped. -/
structure Timely (request : OidcDeviceRequest) (i : Nat) (w : PollWorld) : Prop extends
    Open i w where
  due : Undisturbed i w → Due request w.state.calls w.state.db.now

/-- An answer that signs in comes of a spent request. -/
def Honest (request : OidcDeviceRequest) (answer : Response) (w : PollWorld) : Prop :=
  signsIn answer = true → Spent request w.state.db

section Poll

variable {i : Nat} {w w' : PollWorld}

theorem Open.beside (h : Open i w) (hbeside : Beside request i w w') : Open i w' where
  signedOut hquiet hsigned := by
    obtain ⟨hbefore, _, hback⟩ := hbeside.quiet hquiet
    exact h.signedOut hbefore (hback hsigned)
  unrefused hquiet := by
    obtain ⟨hbefore, hcalls, _⟩ := hbeside.quiet hquiet
    rw [hcalls]
    exact h.unrefused hbefore

theorem Timely.beside (h : Timely request i w) (hbeside : Beside request i w w') :
    Timely request i w' where
  toOpen := h.toOpen.beside hbeside
  due hquiet := by
    obtain ⟨hbefore, hcalls, _⟩ := hbeside.quiet hquiet
    rw [hcalls]
    exact (h.due hbefore).mono hbeside.now

theorem stable_open : (contract env pollToken request).Stable i (Open i) :=
  fun w w' (hbeside : Beside request i w w') _ _ h => h.beside hbeside

theorem stable_timely : (contract env pollToken request).Stable i (Timely request i) :=
  fun _ _ hbeside _ _ h => h.beside hbeside

theorem stable_spent :
    (contract env pollToken request).Stable i fun w => Spent request w.state.db :=
  fun _ _ hbeside _ _ h => hbeside.spent h

theorem stable_honest (answer : Response) :
    (contract env pollToken request).Stable i (Honest request answer) :=
  fun _ _ hbeside _ _ h hsigns => hbeside.spent (h hsigns)

theorem triple_calm {K : PollWorld → Prop} (hK : (contract env pollToken request).Stable i K)
    {α : Type} {p : Handler α} (hp : Calm p) :
    (contract env pollToken request).Triple i K p fun _ => K :=
  triple_only _ (fun _ hcalm => (quiet_of_calm env pollToken _ hcalm).triple _ hK) hp

/-- A refusal may be answered whatever is known. -/
theorem triple_refuse {K : PollWorld → Prop} {answer : Response} (h : signsIn answer = false) :
    (contract env pollToken request).Triple i K (pure answer) (Honest request) := by
  apply triple_pure
  intro w _ _ hsigns
  rw [h] at hsigns
  contradiction

/-- A statement that answers with a value has run. -/
theorem attempt_of_ok {α : Type} {choice : Choice} {db : Db} {run : Db → Except DbError α × Db}
    {result : α} (h : (attempt choice db run).1 = .ok result) :
    attempt choice db run = run db := by
  unfold attempt at h ⊢
  split at h
  · contradiction
  · rename_i hfault
    rw [if_neg hfault]

theorem triple_lookup (hhash : env.hashToken (trim pollToken) = request.pollTokenHash) :
    (contract env pollToken request).Triple i (fun _ => True)
      (oidc (.findDeviceRequest (env.hashToken (trim pollToken))))
      fun result w => ∀ pending, result = .ok (some pending) →
        IsRequest request pending ∧ Open i w := by
  apply triple_call _ (stable_true _)
  intro w choice hinv _ hcare
  obtain ⟨hinv', hsteps⟩ := perform_steps env pollToken i
    (.oidc (.findDeviceRequest (env.hashToken (trim pollToken)))) rfl rfl choice hinv
  refine ⟨hinv', hsteps, ?_⟩
  intro pending hfound
  have hfinds : finds (.ran (.oidc (.findDeviceRequest (env.hashToken (trim pollToken))))
      ((service env pollToken).exec (.oidc (.findDeviceRequest (env.hashToken (trim pollToken))))
        choice w.state).1) = true := by
    rw [hfound]
    rfl
  have hunrefused := (hcare _ rfl).found hfinds
  have hfind : Oidc.findDeviceRequest request.pollTokenHash
      (w.state.db.advance choice.base.elapse) = some pending := by
    have hran := congrArg Prod.fst (attempt_of_ok hfound)
    rw [← hhash]
    exact Except.ok.inj (hran.symm.trans hfound)
  have hlater : Ages w.state.db (w.state.db.advance choice.base.elapse) :=
    .of_rows (Nat.le_add_right _ _) (List.Subset.refl _)
  obtain ⟨hrequest, hunspent⟩ := found_isRequest (hinv.belongs.ages hlater) hfind
  have hsignedOut : ¬ SignedIn w := fun hsigned => hunspent ((hinv.spent hsigned).ages hlater)
  refine ⟨hrequest, fun _ hsigned => hsignedOut (hsigned.of_record rfl), fun _ => ?_⟩
  exact hunrefused

theorem triple_stamp (id : Uuid) :
    (contract env pollToken request).Triple i (Open i) (oidc (.stampDevicePoll id))
      fun _ => Timely request i := by
  apply triple_call _ stable_open
  intro w choice hinv hopen hcare
  obtain ⟨hinv', hsteps, hbeside⟩ := quiet_of_calm env pollToken
    (.oidc (.stampDevicePoll id)) rfl i w choice hinv hcare
  have hopen' : Open i _ := Open.beside hopen (show Beside request i w _ from hbeside)
  refine ⟨hinv', hsteps, hopen', fun _ => ?_⟩
  exact (hcare _ rfl).stamped rfl

/-- The call itself: undisturbed and in time, it keeps its distance and comes before the end. -/
theorem triple_poll (providerId : Uuid) (deviceCode : String) :
    (contract env pollToken request).Triple i (Timely request i)
      (platform (.pollDevice providerId deviceCode)) fun _ _ => True := by
  apply triple_call _ stable_timely
  intro w choice hinv htimely hcare
  obtain ⟨hquiet, hunexpired⟩ := (hcare _ rfl).called rfl
  have hages : Ages w.state.db ((service env pollToken).perform i
      (.platform (.pollDevice providerId deviceCode)) choice w).state.db := ages_exec rfl _ _
  have hspaced : Spaced request ((service env pollToken).perform i
      (.platform (.pollDevice providerId deviceCode)) choice w).state.calls := by
    simp only [Service.perform_state, service, exec, polledCode, book]
    split
    · exact ⟨(htimely.due hquiet).mono hages.now, hinv.spaced⟩
    · exact hinv.spaced
  have hnone : ¬ Over request w := by
    rintro (hsigned | hrefused | hexpired)
    · exact htimely.signedOut hquiet hsigned
    · exact htimely.unrefused hquiet hrefused
    · exact Nat.not_lt.mpr (Nat.le_trans hexpired hages.now) hunexpired
  have hsigned : ¬ SignedIn ((service env pollToken).perform i
      (.platform (.pollDevice providerId deviceCode)) choice w) := by
    rintro ⟨j, headers, answer, hmem, hsigns⟩
    rcases List.mem_cons.mp hmem with heq | hold
    · cases (Prod.mk.inj heq).2
    · exact hnone (.inl ⟨j, headers, answer, hold, hsigns⟩)
  refine ⟨⟨hinv.belongs.ages hages, hspaced, fun h => absurd h hsigned⟩,
    ⟨hages.now, fun h => h.ages hages, fun hover => absurd hover hnone, _, rfl, ?_⟩, trivial⟩
  intro hevent
  simp [disturbs, turnsToProvider, polledCode] at hevent

theorem triple_consume {pending : OidcDeviceRequest} (hpending : IsRequest request pending) :
    (contract env pollToken request).Triple i (fun _ => True)
      (oidc (.consumeDeviceRequest pending.id))
      fun result w => result = .ok true → Spent request w.state.db := by
  apply triple_call _ (stable_true _)
  intro w choice hinv _ hcare
  obtain ⟨hinv', hsteps, _⟩ := quiet_of_calm env pollToken
    (.oidc (.consumeDeviceRequest pending.id)) rfl i w choice hinv hcare
  refine ⟨hinv', hsteps, ?_⟩
  intro hresult
  have hid : pending.id = request.id := by
    rw [← hpending]
  have hlater : Ages w.state.db (w.state.db.advance choice.base.elapse) :=
    .of_rows (Nat.le_add_right _ _) (List.Subset.refl _)
  have hspent := spent_of_consumed (hinv.belongs.ages hlater) hid
  have hran := congrArg Prod.snd (attempt_of_ok hresult)
  exact Eq.subst (motive := Spent request) hran.symm hspent

theorem triple_devicePollEnded (pending : OidcDeviceRequest) (e : OidcError) :
    (contract env pollToken request).Triple i (fun _ => True) (devicePollEnded pending e)
      (Honest request) := by
  cases e with
  | rejected detail =>
    apply triple_bind _ (triple_calm (stable_true _) (only_call rfl))
    exact fun _ => triple_refuse rfl
  | _ => exact triple_refuse rfl

theorem triple_devicePoll (hhash : env.hashToken (trim pollToken) = request.pollTokenHash)
    (headers : Headers) :
    (contract env pollToken request).Triple i (fun _ => True)
      (devicePoll env headers (.ok pollToken)) (Honest request) := by
  have htrue := stable_true (contract env pollToken request) (i := i)
  apply triple_bind _ (triple_calm htrue (only_call rfl))
  intro pool
  cases pool with
  | error e => exact triple_refuse rfl
  | ok _ =>
    apply triple_bind _ (triple_lookup hhash)
    intro found
    rcases found with e | _ | pending
    · exact triple_refuse rfl
    · exact triple_refuse rfl
    · apply triple_weaken _ (triple_given _ ?_) fun w _ h => h pending rfl
      intro hpending
      apply triple_bind _ (triple_calm stable_open (calm_polledTooSoon pending))
      intro tooSoon
      apply triple_ite _ (triple_refuse rfl)
      apply triple_bind _ (triple_stamp pending.id)
      intro _
      apply triple_bind _ (triple_calm stable_timely (only_call rfl))
      intro provider
      rcases provider with e | _ | provider
      · exact triple_refuse rfl
      · exact triple_refuse rfl
      · apply triple_ite
        · apply triple_bind _ (triple_calm stable_timely (only_call rfl))
          exact fun _ => triple_refuse rfl
        · apply triple_bind _ (triple_poll provider.id pending.deviceCode)
          intro facts
          cases facts with
          | error e => exact triple_devicePollEnded pending e
          | ok facts =>
            apply triple_bind _ (triple_consume hpending)
            intro consumed
            rcases consumed with e | _ | _
            · exact triple_refuse rfl
            · exact triple_refuse rfl
            · apply triple_weaken _ _ fun w _ h => h rfl
              exact triple_post _ (triple_calm stable_spent
                (calm_deviceFinish env headers provider facts pending.linkUserId))
                fun _ _ _ hspent _ => hspent

end Poll

/-! ## Whole runs -/

theorem starts (hhash : env.hashToken (trim pollToken) = request.pollTokenHash) :
    (contract env pollToken request).Starts := by
  intro i headers w hinv _ _
  have hrecord : ∀ (w : PollWorld) (event : PollEvent), Inv request w →
      (SignedIn (w.record i event w.state) → Spent request w.state.db) →
      Inv request (w.record i event w.state) ∧
        Steps request i w (w.record i event w.state) := by
    intro w event hinv hspent
    refine ⟨⟨hinv.belongs, hinv.spaced, hspent⟩,
      ⟨Nat.le_refl _, fun h => h, fun _ => rfl, event, rfl, fun hevent => ⟨rfl, ?_⟩⟩⟩
    exact SignedIn.of_record hevent
  obtain ⟨hinv', hsteps⟩ := hrecord w (.began headers) hinv fun hsigned =>
    hinv.spent (hsigned.of_record rfl)
  refine ⟨hinv', hsteps, ?_⟩
  apply (triple_devicePoll (i := i) hhash headers).meets _ _ _ hinv' trivial
  intro answer
  apply Contract.Meets.done _ (stable_honest answer)
  intro w hinv hhonest _
  apply hrecord w (.answered headers answer) hinv
  rintro ⟨j, headers', answer', hmem, hsigns⟩
  rcases List.mem_cons.mp hmem with heq | hold
  · obtain ⟨_, hanswer⟩ := Prod.mk.inj heq
    cases hanswer
    exact hhonest hsigns
  · exact hinv.spent ⟨j, headers', answer', hold, hsigns⟩

/-- What is over stays over. -/
theorem Over.steps {i : Nat} {w w' : PollWorld} (h : Over request w)
    (hsteps : Steps request i w w') : Over request w' := by
  obtain ⟨event, hlog, _⟩ := hsteps.event
  have hcalls := hsteps.stopped h
  rcases h with ⟨j, headers, answer, hmem, hsigns⟩ | hrefused | hexpired
  · refine .inl ⟨j, headers, answer, ?_, hsigns⟩
    rw [hlog]
    exact List.mem_cons_of_mem _ hmem
  · refine .inr (.inl ?_)
    rw [hcalls]
    exact hrefused
  · exact .inr (.inr (Nat.le_trans hexpired hsteps.now))

theorem calls_of_over (hhash : env.hashToken (trim pollToken) = request.pollTokenHash)
    {cfg : Config Stmt Polled Headers Response}
    (hgood : (contract env pollToken request).Good cfg) (hover : Over request cfg.world)
    (labels : List (Label Headers PollChoice))
    (hcare : (service env pollToken).Admits (TakesCare request) cfg labels) :
    ((service env pollToken).run cfg labels).world.state.calls = cfg.world.state.calls := by
  induction labels generalizing cfg with
  | nil => rfl
  | cons label labels ih =>
    have hgood' := Contract.good_step _ (starts hhash) hgood label hcare.1
    rcases Contract.guar_step _ (starts hhash) hgood label hcare.1 with hsame | hsteps
    · rw [Service.run_cons, ih hgood' (by rw [hsame]; exact hover) hcare.2, hsame]
    · rw [Service.run_cons, ih hgood' (hover.steps hsteps) hcare.2]
      exact Steps.stopped hsteps hover

theorem belongs_of_unique {db : Db} (hmem : request ∈ db.oidcDeviceRequests)
    (hunique : (db.oidcDeviceRequests.map (·.pollTokenHash)).Nodup) : Belongs request db := by
  intro row hrow hhash
  rw [eq_of_nodup_map hunique hrow hmem hhash]
  rfl

/-- A request of Alice, to link the provider `5` every five seconds. -/
def linking : OidcDeviceRequest := ⟨9, 5, "device", 5, "#token", none, some 0, seconds 600, none⟩

def linkDb : Db :=
  { aliceDb with
    oidcProviders := [⟨5, "idp", true, "https://idp.example", "", false, false, true⟩]
    oidcDeviceRequests := [linking]
    nextId := 10 }

/-- The provider answers with a verified identity. -/
def granting : Exchange :=
  ⟨.ok true, .ok (), .ok 200,
    .ok ⟨none, .ok ⟨"https://idp.example", "subject", "", false, "", "", []⟩⟩⟩

/-- The human has not finished. -/
def waiting : Exchange :=
  ⟨.ok true, .ok (), .ok 400, .ok ⟨some ⟨"authorization_pending", none⟩, .error ""⟩⟩

/-- The provider asks to slow down. -/
def slowing : Exchange := ⟨.ok true, .ok (), .ok 400, .ok ⟨some ⟨"slow_down", none⟩, .error ""⟩⟩

/-- The human declines. -/
def declining : Exchange :=
  ⟨.ok true, .ok (), .ok 400, .ok ⟨some ⟨"access_denied", none⟩, .error ""⟩⟩

/-- The next statement of a poll, some seconds after the last one. -/
def after (wait thread : Nat) : Label Headers PollChoice :=
  .run thread ⟨{ elapse := seconds wait }, granting⟩

def next (thread : Nat) : Label Headers PollChoice := after 0 thread

/-- The call of a poll, and what comes of it. -/
def calling (exchange : Exchange) (thread : Nat) : Label Headers PollChoice :=
  .run thread ⟨{}, exchange⟩

def failing (thread : Nat) : Label Headers PollChoice := .run thread ⟨{ fault := true }, granting⟩

/-- Both polls find the request before either is stamped. -/
def overlapping : List (Label Headers PollChoice) :=
  [.start {}, .start {}] ++ List.replicate 2 (next 0) ++ List.replicate 2 (next 1) ++
    List.replicate 3 (next 0) ++ List.replicate 3 (next 1)

/-- The first poll, up to its call, and a second one five seconds later. -/
def firstPoll : List (Label Headers PollChoice) := .start {} :: List.replicate 4 (next 0)

def secondPoll : List (Label Headers PollChoice) :=
  .start {} :: after 5 1 :: List.replicate 5 (next 1)

/-- The provider asks to slow down, and is called again after five seconds. -/
def slowedDown : List (Label Headers PollChoice) :=
  firstPoll ++ [calling slowing 0, next 0] ++ secondPoll

/-- The human declines, and the request is not deleted. -/
def declined : List (Label Headers PollChoice) :=
  firstPoll ++ [calling declining 0, failing 0, next 0]

/-- A poll is told to wait, and the next one links the identity. -/
def patient : List (Label Headers PollChoice) :=
  firstPoll ++ [calling waiting 0, next 0] ++ secondPoll ++ List.replicate 4 (next 1)

def takesCareTest (request : OidcDeviceRequest) (w w' : PollWorld) : Bool :=
  match w'.log with
  | [] => true
  | (i, event) :: _ =>
    (!finds event || w.state.calls.all fun call => !call.exchange.refuses) &&
      (!stamps event || decide (Due request w.state.calls w'.state.db.now)) &&
      (!turnsToProvider event || ((sinceFound i w.log).all fun entry => !disturbs entry.2) &&
        decide (w'.state.db.now < request.expiresAt))

theorem takesCare_of_test (i : Nat) (w w' : PollWorld) (htest : takesCareTest request w w' = true) :
    TakesCare request i w w' := by
  intro event hlog
  simp only [takesCareTest, hlog, Bool.and_eq_true, Bool.or_eq_true, Bool.not_eq_true',
    List.all_eq_true, decide_eq_true_eq] at htest
  obtain ⟨⟨hfound, hstamped⟩, hcalled⟩ := htest
  refine ⟨fun h => ?_, fun h => ?_, fun h => ?_⟩
  · rintro ⟨call, hcall, hrefused⟩
    have hunrefused := hfound.resolve_left (by simp [h]) call hcall
    rw [hunrefused] at hrefused
    contradiction
  · exact hstamped.resolve_left (by simp [h])
  · exact hcalled.resolve_left (by simp [h])

theorem overlapping_close : ¬ Spaced linking ((service Env.transparent "token").run
    (initial ⟨linkDb, []⟩) overlapping).world.state.calls := by decide +kernel

theorem slowedDown_close : ¬ Spaced linking ((service Env.transparent "token").run
    (initial ⟨linkDb, []⟩) slowedDown).world.state.calls := by decide +kernel

theorem declined_refused : Refused ((service Env.transparent "token").run
    (initial ⟨linkDb, []⟩) declined).world.state.calls := by
  rw [Refused]
  decide +kernel

theorem declined_called : ((service Env.transparent "token").run (initial ⟨linkDb, []⟩)
    (declined ++ secondPoll)).world.state.calls ≠ ((service Env.transparent "token").run
      (initial ⟨linkDb, []⟩) declined).world.state.calls := by decide +kernel

end DevicePolling

end IntelliPilot.Auth
