import IntelliPilot.Auth.Rotation

/-! # The session handlers keep the rotation contract

First what each session statement may do under the contract and what its
caller learns, then the handlers, statement by statement.
-/

namespace IntelliPilot.Auth

open Rows Statement Contract

variable {κ : Type} {env : Env} {presented : κ → Option String} {handler : κ → Handler Response}

/-- Whether a statement inserts a token. -/
def SessionStmt.inserts {β : Type} : SessionStmt β → Bool
  | .insertToken _ _ _ _ => true
  | _ => false

theorem inPlace_advance (db : Db) (elapse : Nat) : InPlace db (db.advance elapse) :=
  .of_tokens_eq rfl (Nat.le_refl _)

theorem markUsed_inPlace (id : Uuid) (db : Db) (elapse : Nat) :
    InPlace db (Sessions.markUsed id (db.advance elapse)).2 := by
  refine ⟨Nat.le_refl _, _, rfl, ?_⟩
  intro token
  simp only
  split
  · exact ⟨rfl, rfl, rfl, rfl, fun _ => rfl⟩
  · exact ⟨rfl, rfl, rfl, rfl, fun h => h⟩

variable {β : Type}

theorem session_inPlace (stmt : SessionStmt β) (hinserts : stmt.inserts = false) (choice : Choice)
    (db : Db) : InPlace db ((Stmt.session stmt).exec choice db).2 := by
  have hadvance := inPlace_advance db choice.elapse
  cases stmt with
  | createFamily userId =>
    refine attempt_state (P := InPlace db) hadvance ?_
    unfold Sessions.createFamily
    split
    · exact .of_tokens_eq rfl (Nat.le_succ _)
    · exact hadvance
  | insertToken familyId tokenHash parentId expiresAt => simp [SessionStmt.inserts] at hinserts
  | findByHash tokenHash => exact attempt_state (P := InPlace db) hadvance hadvance
  | markUsed tokenId =>
    exact attempt_state (P := InPlace db) hadvance (markUsed_inPlace tokenId db _)
  | revokeFamily familyId reason | touchFamily familyId =>
    exact bestEffort_state (P := InPlace db) hadvance (.of_tokens_eq rfl (Nat.le_refl _))
  | revokeAllForUser userId reason =>
    exact attempt_state (P := InPlace db) hadvance (.of_tokens_eq rfl (Nat.le_refl _))

/-- `mark_used` reports a transition only of a token that was unused. -/
theorem markUsed_accounted {id : Uuid} {db : Db} (h : (Sessions.markUsed id db).1 = true) :
    (∃ token ∈ db.tokens, token.id = id ∧ token.usedAt = none) ∧
      ∃ token ∈ (Sessions.markUsed id db).2.tokens, token.id = id ∧
        token.usedAt.isSome = true := by
  obtain ⟨token, htoken, hunused⟩ := List.any_eq_true.mp h
  have hpair : token.id = id ∧ token.usedAt = none := by
    simpa [Sessions.unusedToken] using hunused
  refine ⟨⟨token, htoken, hpair⟩, { token with usedAt := some db.now }, ?_, hpair.1, rfl⟩
  exact mem_updateWhere.mpr ⟨token, htoken, by simp [hunused]⟩

theorem markUsed_ok {id : Uuid} {choice : Choice} {db : Db}
    (h : ((Stmt.session (.markUsed id)).exec choice db).1 = .ok true) :
    (∃ token ∈ db.tokens, token.id = id ∧ token.usedAt = none) ∧
      ∃ token ∈ ((Stmt.session (.markUsed id)).exec choice db).2.tokens, token.id = id ∧
        token.usedAt.isSome = true := by
  simp only [Stmt.exec, Stmt.effect, SessionStmt.exec] at h ⊢
  by_cases hfault : choice.fault = true
  · rw [attempt_error hfault] at h
    contradiction
  · have hok : choice.fault = false := by simpa using hfault
    rw [attempt_ok hok] at h ⊢
    exact markUsed_accounted (Except.ok.inj h)

/-- A new family takes the next identifier. -/
theorem createFamily_ok {userId family : Uuid} {choice : Choice} {db : Db}
    (h : ((Stmt.session (.createFamily userId)).exec choice db).1 = .ok family) :
    db.nextId ≤ family ∧
      family < ((Stmt.session (.createFamily userId)).exec choice db).2.nextId := by
  simp only [Stmt.exec, Stmt.effect, SessionStmt.exec, attempt, Sessions.createFamily] at h ⊢
  split at h
  · contradiction
  · split at h
    · obtain rfl := Except.ok.inj h
      rename_i hfault hmem
      rw [if_neg hfault, if_pos hmem]
      exact ⟨Nat.le_refl _, Nat.lt_succ_self _⟩
    · contradiction

theorem session_accounted (stmt : SessionStmt β) (choice : Choice) (w : AuthWorld κ) (i : Nat) :
    Accounted env presented w i
      (.ran (.session stmt) ((Stmt.session stmt).exec choice w.state).1)
      ((Stmt.session stmt).exec choice w.state).2 := by
  cases stmt with
  | createFamily userId =>
    refine ⟨by simp [marks], ?_, by simp⟩
    intro family hcreates
    cases hresult : ((Stmt.session (.createFamily userId)).exec choice w.state).1 with
    | error e =>
      rw [hresult] at hcreates
      contradiction
    | ok created =>
      rw [hresult] at hcreates
      obtain rfl := Option.some.inj hcreates
      exact createFamily_ok hresult
  | markUsed tokenId =>
    refine ⟨?_, by simp [creates], by simp⟩
    intro id hmarks
    rcases hresult : ((Stmt.session (.markUsed tokenId)).exec choice w.state).1 with e | _ | _
    · rw [hresult] at hmarks
      contradiction
    · rw [hresult] at hmarks
      contradiction
    · rw [hresult] at hmarks
      obtain rfl := Option.some.inj hmarks
      exact markUsed_ok hresult
  | insertToken familyId tokenHash parentId expiresAt =>
    exact accounted_of_silent rfl rfl (by simp)
  | findByHash tokenHash | revokeFamily familyId reason | revokeAllForUser userId reason
  | touchFamily familyId => exact accounted_of_silent rfl rfl (by simp)

theorem quiet_session (stmt : SessionStmt β) (hinserts : stmt.inserts = false) :
    (rotationContract env presented handler).Quiet (.session stmt) := by
  intro i w choice hinv _
  have hplace := session_inPlace stmt hinserts choice w.state
  exact ⟨inv_inPlace hinv hplace (session_accounted stmt choice w i), guar_inPlace hplace,
    rely_inPlace hplace⟩

theorem quiet_other {stmt : Stmt β} (hstmt : stmt.isSession = false) :
    (rotationContract env presented handler).Quiet stmt := by
  intro i w choice hinv _
  have hplace : InPlace w.state (stmt.exec choice w.state).2 :=
    .of_tokens_eq ((Stmt.unchanged _ choice w.state).sessions hstmt).2
      (stmt.unchanged choice w.state).counters.1
  have hsilent : Accounted env presented w i (.ran stmt (stmt.exec choice w.state).1)
      (stmt.exec choice w.state).2 := by
    cases stmt with
    | session stmt => simp [Stmt.isSession] at hstmt
    | user stmt | factor stmt | oidc stmt
    | platform stmt => exact accounted_of_silent rfl rfl (by simp)
  exact ⟨inv_inPlace hinv hplace hsilent, guar_inPlace hplace, rely_inPlace hplace⟩

/-! ## What the callers learn -/

/-- The looked-up token is in the table, under the presented hash. -/
def Known (hash : String) (lk : RefreshLookup) (w : AuthWorld κ) : Prop :=
  ∃ token ∈ w.state.tokens, token.id = lk.tokenId ∧ token.familyId = lk.familyId ∧
    token.tokenHash = hash

/-- The right to insert the successor of a token. -/
def HoldsToken (i : Nat) (lk : RefreshLookup) (w : AuthWorld κ) : Prop :=
  Marked w i lk.tokenId ∧ Childless w.state lk.tokenId

/-- The right to insert the first token of a family. -/
def HoldsFamily (i : Nat) (family : Uuid) (w : AuthWorld κ) : Prop :=
  Created w i family ∧ Unstarted w.state family

theorem Known.persist {hash : String} {lk : RefreshLookup} {w w' : AuthWorld κ}
    (htokens : TokensPersist w.state w'.state) (h : Known hash lk w) : Known hash lk w' := by
  obtain ⟨token, htoken, hid, hfamily, hhash⟩ := h
  obtain ⟨token', htoken', hid', hfamily', hhash', _⟩ := htokens token htoken
  exact ⟨token', htoken', hid'.trans hid, hfamily'.trans hfamily, hhash'.trans hhash⟩

variable {i : Nat}

theorem stable_known (hash : String) (lk : RefreshLookup) :
    (rotationContract env presented handler).Stable i (Known hash lk) :=
  fun _ _ hrely _ _ h => h.persist hrely.tokens

theorem stable_holdsToken (lk : RefreshLookup) :
    (rotationContract env presented handler).Stable i (HoldsToken i lk) :=
  fun _ _ hrely _ _ h => ⟨h.1.mono hrely.log, hrely.childless _ h.1 h.2⟩

theorem stable_holdsFamily (family : Uuid) :
    (rotationContract env presented handler).Stable i (HoldsFamily i family) :=
  fun _ _ hrely _ _ h => ⟨h.1.mono hrely.log, hrely.unstarted _ h.1 h.2⟩

theorem stable_marked (id : Uuid) :
    (rotationContract env presented handler).Stable i fun w => Marked w i id :=
  fun _ _ hrely _ _ h => h.mono hrely.log

/-- An unused token is the end of its chain. -/
theorem childless_of_unused {w : AuthWorld κ} (hinv : RotationInv env presented w)
    {token : RefreshToken} (htoken : token ∈ w.state.tokens) (hunused : token.usedAt = none) :
    Childless w.state token.id := by
  intro child hchild hparent
  have hmem : child ∈ familyTokens w.state child.familyId := by simp [familyTokens, hchild]
  rcases (hinv.chains child.familyId).parent_mem hmem with hroot | ⟨prior, hprior, hused, hprior'⟩
  · rw [hroot] at hparent
    contradiction
  · rw [hprior', Option.some.injEq] at hparent
    have heq := eq_of_nodup_map hinv.ids (List.mem_of_mem_filter hprior) htoken hparent
    simp [heq, hunused] at hused

theorem triple_createFamily (userId : Uuid) :
    (rotationContract env presented handler).Triple i (fun _ => True)
      (session (.createFamily userId))
      fun result w => ∀ family, result = .ok family → HoldsFamily i family w := by
  have hquiet : (rotationContract env presented handler).Quiet (.session (.createFamily userId)) :=
    quiet_session _ rfl
  apply triple_call _ (stable_true _)
  intro w choice hinv _ hallowed
  obtain ⟨hinv', hguar, _⟩ := hquiet i w choice hinv hallowed
  refine ⟨hinv', hguar, ?_⟩
  intro family hfamily
  have hresult : ((Stmt.session (.createFamily userId)).exec choice w.state).1 = .ok family :=
    hfamily
  refine ⟨⟨_, List.mem_cons_self, ?_⟩, ?_⟩
  · rw [hfamily]
    rfl
  · apply (session_inPlace (.createFamily userId) rfl choice w.state).unstarted
    intro token htoken heq
    have hlt := (hinv.below token htoken).2
    rw [heq] at hlt
    exact Nat.not_lt.mpr (createFamily_ok hresult).1 hlt

/-- A successful lookup tells the token and its family as the statement found them. -/
theorem findByHash_ok {hash : String} {choice : Choice} {w : AuthWorld κ} {lk : RefreshLookup}
    (h : ((Stmt.session (.findByHash hash)).exec choice w.state).1 = .ok (some lk)) :
    Known hash lk ((authService handler).perform i (.session (.findByHash hash)) choice w) ∧
      revoked ((Stmt.session (.findByHash hash)).exec choice w.state).2 lk.familyId =
        lk.familyRevoked := by
  have hplace := session_inPlace (.findByHash hash) rfl choice w.state
  simp only [Stmt.exec, Stmt.effect, SessionStmt.exec] at h
  by_cases hfault : choice.fault = true
  · rw [attempt_error hfault] at h
    contradiction
  · have hok : choice.fault = false := by simpa using hfault
    rw [attempt_ok hok] at h
    have hfound := Except.ok.inj h
    simp only [Sessions.findByHash, Option.bind_eq_bind, Option.bind_eq_some_iff] at hfound
    obtain ⟨token, htoken, family, hfamily, hlk⟩ := hfound
    obtain rfl := Option.some.inj hlk
    constructor
    · have hknown : Known hash ⟨token.id, token.familyId, family.userId, token.usedAt,
          token.expiresAt, family.revokedAt.isSome⟩ w :=
        ⟨token, List.mem_of_find?_eq_some htoken, rfl, rfl, by
          simpa using List.find?_some htoken⟩
      exact hknown.persist hplace.persist
    · simp only [Stmt.exec, Stmt.effect, SessionStmt.exec, attempt_ok hok, revoked]
      rw [hfamily]
      rfl

theorem triple_findByHash (hash : String) :
    (rotationContract env presented handler).Triple i (fun _ => True)
      (session (.findByHash hash))
      fun result w => ∀ lk, result = .ok (some lk) → Known hash lk w := by
  have hquiet : (rotationContract env presented handler).Quiet (.session (.findByHash hash)) :=
    quiet_session _ rfl
  apply triple_call _ (stable_true _)
  intro w choice hinv _ hallowed
  obtain ⟨hinv', hguar, _⟩ := hquiet i w choice hinv hallowed
  refine ⟨hinv', hguar, ?_⟩
  intro lk hlk
  exact (findByHash_ok hlk).1

/-- What the log says about a `mark_used` that performed the transition. -/
theorem marks_of_ok {id : Uuid} {result : Except DbError Bool} (h : result = .ok true) :
    marks (.ran (.session (.markUsed id)) result : Event Stmt κ Response) = some id := by
  rw [h]
  rfl

theorem triple_markUsed (hash : String) (lk : RefreshLookup) :
    (rotationContract env presented handler).Triple i (Known hash lk)
      (session (.markUsed lk.tokenId))
      fun result w => Known hash lk w ∧ (result = .ok true → HoldsToken i lk w) := by
  have hquiet : (rotationContract env presented handler).Quiet
      (.session (.markUsed lk.tokenId)) := quiet_session _ rfl
  apply triple_call _ (stable_known hash lk)
  intro w choice hinv hknown hallowed
  obtain ⟨hinv', hguar, hrely⟩ := hquiet i w choice hinv hallowed
  refine ⟨hinv', hguar, hknown.persist hrely.tokens, ?_⟩
  intro hresult
  refine ⟨⟨_, List.mem_cons_self, marks_of_ok hresult⟩, ?_⟩
  obtain ⟨token, htoken, hid, hunused⟩ := (markUsed_ok hresult).1
  have hchildless := childless_of_unused hinv htoken hunused
  rw [hid] at hchildless
  exact (session_inPlace (.markUsed lk.tokenId) rfl choice w.state).childless hchildless

/-- What an insert does when it succeeds. -/
theorem insertToken_cases (familyId : Uuid) (hash : String) (parentId : Option Uuid)
    (expiresAt : Time) (choice : Choice) (db : Db) :
    InPlace db ((Stmt.session (.insertToken familyId hash parentId expiresAt)).exec choice db).2 ∨
      Appends db ((Stmt.session (.insertToken familyId hash parentId expiresAt)).exec choice db).2
        ⟨db.nextId, familyId, hash, parentId, expiresAt, none⟩ := by
  simp only [Stmt.exec, Stmt.effect, SessionStmt.exec, attempt, Sessions.insertToken]
  split
  · exact Or.inl (inPlace_advance db _)
  · split
    · exact Or.inl (inPlace_advance db _)
    · rename_i hhash
      split
      · refine Or.inr ⟨rfl, ⟨Nat.le_refl _, Nat.lt_succ_self _⟩, ?_⟩
        intro token htoken heq
        exact hhash (List.any_eq_true.mpr ⟨token, htoken, by simpa using heq⟩)
      · exact Or.inl (inPlace_advance db _)

variable {K : AuthWorld κ → Prop}

/-- An insert is safe for whoever holds the right to it. -/
theorem triple_insertToken (familyId : Uuid) (hash : String) (parentId : Option Uuid)
    (expiresAt : Time) (hstable : (rotationContract env presented handler).Stable i K)
    (hmay : ∀ w, RotationInv env presented w → K w → ∀ id expiresAt,
      familyId < w.state.nextId ∧ MayInsert w i ⟨id, familyId, hash, parentId, expiresAt, none⟩) :
    (rotationContract env presented handler).Triple i K
      (session (.insertToken familyId hash parentId expiresAt))
      fun _ w => ∃ w₀, K w₀ ∧ (∀ entry ∈ w₀.log, entry ∈ w.log) ∧
        TokensPersist w₀.state w.state := by
  refine triple_call _ hstable fun w choice hinv hK _ => ?_
  have hlog : ∀ {event : Event Stmt κ Response} {db : Db}, ∀ entry ∈ w.log,
      entry ∈ (w.record i event db).log := fun _ hentry => List.mem_cons_of_mem _ hentry
  rcases insertToken_cases familyId hash parentId expiresAt choice w.state with hplace | happends
  · refine ⟨inv_inPlace hinv hplace ?_, guar_inPlace hplace, w, hK, hlog, hplace.persist⟩
    exact session_accounted _ choice w i
  · obtain ⟨hbelow, hright⟩ := hmay w hinv hK w.state.nextId expiresAt
    exact ⟨inv_append hinv happends hbelow hright rfl rfl (by simp),
      guar_append hinv happends hright, w, hK, hlog, happends.persist⟩

/-! ## The handlers -/

theorem triple_platform (stmt : PlatformStmt β)
    (hstable : (rotationContract env presented handler).Stable i K) :
    (rotationContract env presented handler).Triple i K (platform stmt) fun _ => K :=
  Contract.Quiet.triple _ (quiet_other rfl) hstable

theorem keeps_platform (stmt : PlatformStmt β) :
    (rotationContract env presented handler).Keeps (platform stmt) :=
  Contract.Quiet.keeps _ (quiet_other rfl)

theorem keeps_user (stmt : UserStmt β) :
    (rotationContract env presented handler).Keeps (user stmt) :=
  Contract.Quiet.keeps _ (quiet_other rfl)

theorem keeps_session (stmt : SessionStmt β) (hinserts : stmt.inserts = false) :
    (rotationContract env presented handler).Keeps (session stmt) :=
  Contract.Quiet.keeps _ (quiet_session stmt hinserts)

theorem triple_generate (hstable : (rotationContract env presented handler).Stable i K) :
    (rotationContract env presented handler).Triple i K (generate env) fun _ => K :=
  triple_bind _ (triple_platform .random hstable) fun _ =>
    triple_pure _ fun _ _ hK => hK

/-- The family is created, and its root inserted, by the same program. -/
theorem keeps_establishSession (headers : Headers) (userId : Uuid) (auditAction : String) :
    (rotationContract env presented handler).Keeps
      (establishSession env headers userId auditAction) := by
  intro i
  unfold establishSession
  refine triple_bind _ (triple_createFamily userId) fun result => ?_
  cases result with
  | error e => exact triple_pure _ fun _ _ _ => trivial
  | ok family =>
    apply triple_weaken (L := HoldsFamily i family)
    · refine triple_bind _ (triple_generate (stable_holdsFamily family))
        fun newRefresh => ?_
      refine triple_bind _ (triple_platform .now (stable_holdsFamily family))
        fun now => ?_
      refine triple_bind _ (triple_insertToken family newRefresh.hash none _
        (stable_holdsFamily family) ?_) fun inserted => ?_
      · intro w hinv hholds id expiresAt
        exact ⟨hinv.created i family hholds.1, Or.inl ⟨rfl, hholds⟩⟩
      · cases inserted with
        | error e => exact triple_pure _ fun _ _ _ => trivial
        | ok id =>
          apply Contract.Keeps.triple
          refine keeps_bind _ (keeps_platform _) fun access => ?_
          cases access with
          | error e => exact keeps_pure _ _
          | ok access =>
            refine keeps_bind _ (keeps_platform _) fun successes => ?_
            refine keeps_bind _ (keeps_platform _) fun _ => ?_
            dsimp only
            apply keeps_ite
            · refine keeps_bind _ (keeps_platform _) fun _ => ?_
              exact keeps_bind _ (keeps_user _) fun _ => keeps_pure _ _
            · exact keeps_bind _ (keeps_user _) fun _ => keeps_pure _ _
    · intro w _ h
      exact h family rfl

theorem keeps_issueSession (headers : Headers) (userId : Uuid) (auditAction : String) :
    (rotationContract env presented handler).Keeps
      (issueSession env headers userId auditAction) := by
  refine keeps_bind _ (keeps_establishSession headers userId auditAction)
    fun result => ?_
  cases result with
  | error response => exact keeps_pure _ _
  | ok new => exact keeps_pure _ _

theorem keeps_challengeOrSession (headers : Headers) (userId : Uuid) (auditAction : String) :
    (rotationContract env presented handler).Keeps
      (challengeOrSession env headers userId auditAction) := by
  refine keeps_bind _ (keeps_user _) fun active => ?_
  split
  · refine keeps_bind _ (keeps_platform _) fun token => ?_
    cases token with
    | error e => exact keeps_pure _ _
    | ok token => exact keeps_bind _ (keeps_platform _) fun _ => keeps_pure _ _
  · exact keeps_issueSession headers userId auditAction

theorem keeps_freeUsernameFrom (base : String) (n fuel : Nat) :
    (rotationContract env presented handler).Keeps (freeUsernameFrom base n fuel) := by
  induction fuel generalizing n with
  | zero => exact keeps_pure _ _
  | succ fuel ih =>
    refine keeps_bind _ (keeps_user _) fun taken => ?_
    rcases taken with e | _ | _
    · exact keeps_pure _ _
    · exact keeps_pure _ _
    · exact ih (n + 1)

theorem keeps_findOrLinkLdapUser (entry : LdapUser) :
    (rotationContract env presented handler).Keeps (findOrLinkLdapUser env entry) := by
  refine keeps_bind _ (keeps_user _) fun existing => ?_
  rcases existing with e | _ | existing
  · exact keeps_pure _ _
  · refine keeps_bind _ (keeps_freeUsernameFrom _ _ _) fun username => ?_
    cases username with
    | error e => exact keeps_pure _ _
    | ok username => exact keeps_user _
  · exact keeps_user _

/-- A refused login records the attempt and the reason, then answers. -/
theorem keeps_refusal (first second : PlatformStmt Unit) (response : Response) :
    (rotationContract env presented handler).Keeps
      (platform first >>= fun _ => platform second >>= fun _ => pure response) :=
  keeps_bind _ (keeps_platform first) fun _ =>
    keeps_bind _ (keeps_platform second) fun _ => keeps_pure _ _

theorem keeps_loginLdap (headers : Headers) (req : LoginRequest) (idHash : String)
    (found : Option User) :
    (rotationContract env presented handler).Keeps (loginLdap env headers req idHash found) := by
  refine keeps_bind _ (keeps_platform _) fun entry => ?_
  rcases entry with (_ | _ | _) | entry
  · exact keeps_refusal _ _ _
  · exact keeps_bind _ (keeps_platform _) fun _ => keeps_pure _ _
  · exact keeps_bind _ (keeps_platform _) fun _ => keeps_pure _ _
  · refine keeps_bind _ (keeps_findOrLinkLdapUser entry) fun account => ?_
    cases account with
    | error e => exact keeps_pure _ _
    | ok account =>
      refine keeps_bind _ (keeps_user _) fun banned => ?_
      split
      · exact keeps_refusal _ _ _
      · split
        · exact keeps_refusal _ _ _
        · exact keeps_bind _ (keeps_platform _) fun _ =>
            keeps_challengeOrSession headers account.id _

theorem keeps_loginPassword (headers : Headers) (req : LoginRequest) (idHash : String)
    (found : Option User) :
    (rotationContract env presented handler).Keeps
      (loginPassword env headers req idHash found) := by
  unfold loginPassword
  dsimp only
  split
  · exact keeps_refusal _ _ _
  · refine keeps_bind _ (keeps_user _) fun banned => ?_
    split
    · exact keeps_refusal _ _ _
    · exact keeps_bind _ (keeps_platform _) fun _ => keeps_challengeOrSession headers _ _

theorem keeps_loginFound (headers : Headers) (req : LoginRequest) (idHash : String)
    (found : Option User) :
    (rotationContract env presented handler).Keeps (loginFound env headers req idHash found) := by
  have hrefused : ∀ flag, (rotationContract env presented handler).Keeps
      (localLoginRefused flag) := fun flag =>
    keeps_ite _ (keeps_pure _ _)
      (keeps_bind _ (keeps_platform _) fun _ => keeps_pure _ _)
  refine keeps_bind _ (hrefused _) fun refused => ?_
  apply keeps_ite
  · exact keeps_bind _ (keeps_platform _) fun _ => keeps_pure _ _
  · refine keeps_bind _ (keeps_platform _) fun ldap => ?_
    exact keeps_ite _ (keeps_loginLdap _ _ _ _) (keeps_loginPassword _ _ _ _)

theorem keeps_login (headers : Headers) (body : Except JsonRejection LoginRequest) :
    (rotationContract env presented handler).Keeps (login env headers body) := by
  unfold login
  cases body with
  | error rejection => exact keeps_pure _ _
  | ok req =>
    apply keeps_ite
    · exact keeps_pure _ _
    · refine keeps_bind _ (keeps_platform _) fun pool => ?_
      cases pool with
      | error e => exact keeps_pure _ _
      | ok _ =>
        refine keeps_bind _ (keeps_platform _) fun now => ?_
        refine keeps_bind _ (keeps_platform _) fun _ => ?_
        exact keeps_bind _ (keeps_user _) fun _ => keeps_loginFound _ _ _ _

theorem keeps_logout (cookie : Option String) (body : OptionalRefreshBody) :
    (rotationContract env presented handler).Keeps (logout env cookie body) := by
  unfold logout
  split
  · exact keeps_pure _ _
  · refine keeps_bind _ (keeps_platform _) fun pool => ?_
    cases pool with
    | error e => exact keeps_pure _ _
    | ok _ =>
      refine keeps_bind _ (keeps_session _ rfl) fun lookup => ?_
      rcases lookup with e | _ | lk
      · exact keeps_pure _ _
      · exact keeps_pure _ _
      · refine keeps_bind _ (keeps_session _ rfl) fun _ => ?_
        exact keeps_bind _ (keeps_platform _) fun _ => keeps_pure _ _

theorem keeps_revokeAllForUser (userId : Uuid) (reason : String) :
    (rotationContract env presented handler).Keeps (revokeAllForUser userId reason) :=
  keeps_bind _ (keeps_session _ rfl) fun _ => keeps_pure _ _

/-- A 200 is given only by the program that spent the looked-up token. -/
def SpentBy (i : Nat) (hash : String) (response : Response) (w : AuthWorld κ) : Prop :=
  response.status = 200 → ∃ token ∈ w.state.tokens, token.tokenHash = hash ∧ Marked w i token.id

theorem triple_refusal (hash : String) {response : Response} (hstatus : response.status ≠ 200) :
    (rotationContract env presented handler).Triple i K (pure response) (SpentBy i hash) :=
  triple_pure _ fun _ _ _ h => absurd h hstatus

theorem triple_superseded (hash : String) (lk : RefreshLookup) :
    (rotationContract env presented handler).Triple i K (refreshSuperseded lk)
      (SpentBy i hash) := by
  refine triple_bind _ (Contract.Keeps.triple _ (keeps_platform _)) fun _ => ?_
  exact triple_refusal hash (by simp [problem])

theorem triple_rotate (headers : Headers) (byBody : Bool) (hash : String) (lk : RefreshLookup) :
    (rotationContract env presented handler).Triple i (Known hash lk)
      (rotate env headers byBody lk) (SpentBy i hash) := by
  refine triple_bind _ (triple_markUsed hash lk) fun result => ?_
  rcases result with e | _ | _
  · exact triple_refusal hash (by simp [internal, problem])
  · exact triple_superseded hash lk
  · -- from here on the program holds the right to insert the successor
    let K : AuthWorld κ → Prop := fun w => Known hash lk w ∧ HoldsToken i lk w
    have hstable : (rotationContract env presented handler).Stable i K :=
      (stable_known hash lk).and _ (stable_holdsToken lk)
    let L : AuthWorld κ → Prop := fun w => Known hash lk w ∧ Marked w i lk.tokenId
    have hstable' : (rotationContract env presented handler).Stable i L :=
      (stable_known hash lk).and _ (stable_marked lk.tokenId)
    apply triple_weaken (L := K) _ _ fun w _ h => ⟨h.1, h.2 rfl⟩
    refine triple_bind _ (triple_generate hstable) fun newRefresh => ?_
    refine triple_bind _ (triple_platform .now hstable) fun now => ?_
    refine triple_bind _ (triple_insertToken lk.familyId newRefresh.hash
      (some lk.tokenId) _ hstable ?_) fun inserted => ?_
    · intro w hinv hK id expiresAt
      obtain ⟨token, htoken, hid, hfamily, _⟩ := hK.1
      refine ⟨hfamily ▸ (hinv.below token htoken).2, Or.inr ⟨token, htoken, ?_, hfamily, ?_⟩⟩
      · simp [hid]
      · rw [hid]
        exact hK.2
    · apply triple_weaken (L := L)
      · cases inserted with
        | error e => exact triple_refusal hash (by simp [internal, problem])
        | ok id =>
          refine triple_bind _ (triple_platform _ hstable') fun access => ?_
          cases access with
          | error e => exact triple_refusal hash (by simp [internal, problem])
          | ok access =>
            refine triple_bind _ (triple_platform _ hstable') fun _ => ?_
            refine triple_bind _
              ((quiet_session (.touchFamily lk.familyId) rfl).triple _ hstable') fun _ => ?_
            refine triple_pure _ fun w _ hL _ => ?_
            obtain ⟨⟨token, htoken, hid, _, hhash⟩, hmarked⟩ := hL
            exact ⟨token, htoken, hhash, hid ▸ hmarked⟩
      · rintro w - ⟨w₀, hK, hlog, htokens⟩
        exact ⟨hK.1.persist htokens, hK.2.1.mono hlog⟩

theorem triple_refresh (headers : Headers) (cookie : Option String) (body : OptionalRefreshBody) :
    (rotationContract env presented handler).Triple i (fun _ => True)
      (refresh env headers cookie body) fun response w => response.status = 200 →
        ∃ raw byBody, refreshTokenFrom cookie body = some (raw, byBody) ∧
          SpentBy i (env.hashToken raw) response w := by
  unfold refresh
  split
  · exact triple_pure _ fun _ _ _ h => by simp [unauthorized, problem] at h
  · rename_i raw byBody hpresented
    refine triple_post (R := SpentBy i (env.hashToken raw)) _ ?_
      fun response w _ h hstatus => ⟨raw, byBody, hpresented, h⟩
    refine triple_bind _ (Contract.Keeps.triple _ (keeps_platform _)) fun pool => ?_
    cases pool with
    | error e => exact triple_refusal _ (by simp [internal, problem])
    | ok _ =>
      refine triple_bind _ (triple_findByHash (env.hashToken raw)) fun lookup => ?_
      rcases lookup with e | _ | lk
      · exact triple_refusal _ (by simp [internal, problem])
      · exact triple_refusal _ (by simp [unauthorized, problem])
      · apply triple_weaken (L := Known (env.hashToken raw) lk) _ _
          fun w _ h => h lk rfl
        have hstable : (rotationContract env presented handler).Stable i
            (Known (env.hashToken raw) lk) := stable_known _ lk
        have hclear : ∀ K, (rotationContract env presented handler).Triple i K
            (pure unauthorizedClear) (SpentBy i (env.hashToken raw)) := fun K =>
          triple_refusal _ (by simp [unauthorizedClear, unauthorized, problem])
        apply triple_ite
        · exact hclear _
        · refine triple_bind _ (triple_platform .now hstable) fun now => ?_
          apply triple_ite
          · exact triple_superseded _ lk
          · apply triple_ite
            · refine triple_bind _ (Contract.Keeps.triple _ (keeps_session _ rfl))
                fun _ => ?_
              exact triple_bind _ (Contract.Keeps.triple _ (keeps_platform _))
                fun _ => hclear _
            · apply triple_ite
              · exact hclear _
              · refine triple_bind _ ((quiet_other rfl).triple _ hstable)
                  fun status => ?_
                cases status with
                | error e => exact triple_refusal _ (by simp [internal, problem])
                | ok status =>
                  apply triple_ite
                  · exact triple_rotate headers byBody _ lk
                  · exact triple_bind _
                      (Contract.Keeps.triple _ (keeps_session _ rfl)) fun _ => hclear _

end IntelliPilot.Auth
