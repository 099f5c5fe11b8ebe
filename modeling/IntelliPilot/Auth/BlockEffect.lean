import IntelliPilot.Auth.BanInvalidation
import IntelliPilot.Statement.RelyGuarantee

/-! # When a block is effective

Runs in which no status read before a block is stored after it, the status of
the account can always be read, and a deactivation or deletion answers only
when the account's permitting entries on its node have expired. In these runs a
block holds on its node from its answer on, and everywhere one cache lifetime
after its commit.
-/

namespace IntelliPilot.Auth

open Rows Statement Contract
open Service (initial)

/-- What a step must satisfy for blocks of the account to be effective: while it
is blocked its status can be read and no permitting status is stored; and a
deactivation or deletion, which leaves the cache alone, is answered only when
no permitting entry is fresh on its node. -/
structure PresenceSound (userId : Uuid) (w w' : AccountWorld) : Prop where
  touch : ∀ i event, w'.log = (i, event) :: w.log → Blocked w.state userId →
    touchFails event ≠ some userId
  store : ∀ i (β : Type) (stmt : Stmt β) (result : β), w'.log = (i, .ran stmt result) :: w.log →
    Blocked w.state userId → ∀ node status, stores stmt = some (node, userId, status) →
      status.mayAuthenticate = false
  answer : ∀ i request answer event, w'.log = (i, .answered request answer) :: w.log →
    request.bans = false → (i, event) ∈ w.log → blocks event = some userId →
      Stale w.state request.node userId

/-- The account stays blocked. -/
def StaysBlocked (userId : Uuid) (_ : Nat) (_ w' : AccountWorld) : Prop := Blocked w'.state userId

/-- Both conditions along a run. -/
def SoundBlocked (userId : Uuid) (i : Nat) (w w' : AccountWorld) : Prop :=
  PresenceSound userId w w' ∧ StaysBlocked userId i w w'

/-! ## Entries grow old -/

/-- No entry is from the future. -/
def Clocked (db : Db) : Prop := ∀ entry ∈ db.presence, entry.checked ≤ db.now

/-- The permitting entries of the account, on any node, are from before `moment`. -/
def Aged (moment : Time) (db : Db) (userId : Uuid) : Prop :=
  ∀ entry ∈ db.presence, entry.userId = userId → entry.status.mayAuthenticate = true →
    entry.checked ≤ moment

variable {β : Type} {db : Db}

theorem clocked_exec (stmt : Stmt β) (choice : Choice) (h : Clocked db) :
    Clocked (stmt.exec choice db).2 := by
  intro entry hentry
  rcases presence_exec stmt choice db hentry with hold | ⟨_, hchecked⟩
  · exact Nat.le_trans (h entry hold) (stmt.unchanged choice db).counters.2
  · exact Nat.le_of_eq hchecked

theorem aged_exec (stmt : Stmt β) (choice : Choice) {moment : Time} {userId : Uuid}
    (hstore : ∀ node status, stores stmt = some (node, userId, status) →
      status.mayAuthenticate = false) (h : Aged moment db userId) :
    Aged moment (stmt.exec choice db).2 userId := by
  intro entry hentry huser hmay
  rcases presence_exec stmt choice db hentry with hold | ⟨hstored, _⟩
  · exact h entry hold huser hmay
  · rw [huser] at hstored
    rw [hstore _ _ hstored] at hmay
    contradiction

/-- One cache lifetime after the moment every entry from before it has expired. -/
theorem stale_of_aged {moment : Time} {userId : Uuid} (h : Aged moment db userId)
    (hpassed : moment + checkTtl ≤ db.now) (node : Nat) : Stale db node userId := by
  intro entry hentry hof hmay
  simp only [Presence.entryOf, Bool.and_eq_true, beq_iff_eq] at hof
  have hchecked := h entry hentry hof.2 hmay
  exact Nat.le_sub_of_add_le' (Nat.le_trans (Nat.add_le_add_right hchecked _) hpassed)

/-! ## From the block to its answer -/

/-- Program `b` has blocked the account when the log was `old`. Since then it is
blocked, its permitting entries only grew older, and they are stale on the node
once the entry was dropped there or a request other than a ban has answered for
the block. -/
structure Settling (userId : Uuid) (node b : Nat) (moment : Time) (old : List (Nat × AccountEvent))
    (w : AccountWorld) : Prop where
  blocked : Blocked w.state userId
  aged : Aged moment w.state userId
  began : ∃ event, (b, event) ∈ old ∧ blocks event = some userId
  cleared : ∃ new, w.log = new ++ old ∧
    ((∃ i event, (i, event) ∈ new ∧ invalidates event = some (node, userId)) ∨
        (∃ request answer, (b, .answered request answer) ∈ new ∧ request.bans = false ∧
          request.node = node) → Stale w.state node userId)

variable {userId : Uuid} {node b : Nat} {moment : Time} {old : List (Nat × AccountEvent)}

variable {w : AccountWorld} {event : AccountEvent}

/-- An event that clears nothing keeps the account settling. -/
theorem Settling.record (h : Settling userId node b moment old w) {i : Nat}
    (hblocked : Blocked db userId) (haged : Aged moment db userId)
    (hstale : Stale w.state node userId → Stale db node userId)
    (hevent : invalidates event = some (node, userId) ∨
      (∃ request answer, event = .answered request answer ∧ i = b ∧ request.bans = false ∧
        request.node = node) → Stale db node userId) :
    Settling userId node b moment old (w.record i event db) := by
  obtain ⟨new, hlog, hcleared⟩ := h.cleared
  refine ⟨hblocked, haged, h.began, (i, event) :: new, by rw [World.record_log, hlog]; rfl, ?_⟩
  rintro (⟨j, event', hmem, hinvalidates⟩ | ⟨request, answer, hmem, hbans, hnode⟩)
  · rcases List.mem_cons.mp hmem with heq | hold
    · obtain ⟨rfl, rfl⟩ := Prod.mk.inj heq
      exact hevent (Or.inl hinvalidates)
    · exact hstale (hcleared (Or.inl ⟨j, event', hold, hinvalidates⟩))
  · rcases List.mem_cons.mp hmem with heq | hold
    · obtain ⟨rfl, rfl⟩ := Prod.mk.inj heq
      exact hevent (Or.inr ⟨request, answer, rfl, rfl, hbans, hnode⟩)
    · exact hstale (hcleared (Or.inr ⟨request, answer, hold, hbans, hnode⟩))

variable {P : AccountRequest → {β : Type} → Stmt β → Prop}

theorem settling_step (i : Nat) (w w' : AccountWorld) (hstep : Service.StepOf accountService P w w')
    (hallowed : SoundBlocked userId i w w') (h : Settling userId node b moment old w) :
    Settling userId node b moment old w' := by
  obtain ⟨hsound, hblocked⟩ := hallowed
  cases hstep with
  | void => exact h
  | began j request =>
    apply h.record hblocked h.aged (fun hstale => hstale)
    rintro (hinvalidates | ⟨request', answer, heq, _⟩)
    · cases hinvalidates
    · contradiction
  | answered j request answer _ =>
    apply h.record hblocked h.aged (fun hstale => hstale)
    rintro (hinvalidates | ⟨request', answer', heq, rfl, hbans, hnode⟩)
    · cases hinvalidates
    · obtain ⟨rfl, rfl⟩ := Event.answered.inj heq
      obtain ⟨event, hevent, hblocks⟩ := h.began
      obtain ⟨new, hlog, _⟩ := h.cleared
      rw [← hnode]
      apply hsound.answer j request answer event rfl hbans _ hblocks
      rw [hlog]
      exact List.mem_append_right _ hevent
  | issued j request stmt choice _ _ =>
    have hstore := hsound.store j _ stmt _ rfl h.blocked
    apply h.record hblocked (aged_exec stmt choice hstore h.aged)
      (stale_exec stmt choice (hstore ·))
    rintro (hinvalidates | ⟨request', answer, heq, _⟩)
    · cases stmt with
      | platform stmt =>
        cases stmt with
        | invalidateStatus node' userId' =>
          obtain ⟨rfl, rfl⟩ := Prod.mk.inj (Option.some.inj hinvalidates)
          exact stale_invalidate _ _ choice w.state
        | _ => cases hinvalidates
      | _ => cases hinvalidates
    · contradiction

/-! ## Requests that start later -/

/-- The answer that lets the account in on the node. -/
def LetsIn (userId : Uuid) (node : Nat) (event : AccountEvent) : Prop :=
  ∃ bearer, event = .answered (.access node bearer) (.authenticated userId)

/-- Of a blocked account without fresh permitting entries on the node, only the
first `count` requests may still be let in there. -/
def refusalContract (userId : Uuid) (node count : Nat) : Contract accountService where
  inv w := Blocked w.state userId ∧ Stale w.state node userId
  allowed := SoundBlocked userId
  rely _ _ _ := True
  guar i w w' := ∀ event, w'.log = (i, event) :: w.log → LetsIn userId node event → i < count
  rely_refl _ _ := trivial
  rely_trans _ _ _ _ _ _ := trivial
  guar_rely _ _ _ _ _ _ _ _ _ := trivial

variable {count i : Nat}

theorem refusal_record (hinv : (refusalContract userId node count).inv w)
    (hevent : ¬ LetsIn userId node event) :
    (refusalContract userId node count).inv (w.record i event w.state) ∧
      (refusalContract userId node count).guar i w (w.record i event w.state) := by
  refine ⟨hinv, ?_⟩
  intro event' hlog hlets
  obtain ⟨heq, _⟩ := List.cons.inj hlog
  rw [← (Prod.mk.inj heq).2] at hlets
  exact absurd hlets hevent

theorem refusal_perform {stmt : Stmt β} {choice : Choice}
    (hinv : (refusalContract userId node count).inv w)
    (hallowed : (refusalContract userId node count).allowed i w
      (accountService.perform i stmt choice w)) :
    (refusalContract userId node count).inv (accountService.perform i stmt choice w) ∧
      (refusalContract userId node count).guar i w (accountService.perform i stmt choice w) := by
  obtain ⟨hsound, hblocked⟩ := hallowed
  refine ⟨⟨hblocked, stale_exec stmt choice (hsound.store i _ stmt _ rfl hinv.1 ·) hinv.2⟩, ?_⟩
  rintro event hlog ⟨bearer, rfl⟩
  obtain ⟨heq, _⟩ := List.cons.inj hlog
  exact absurd (Prod.mk.inj heq).2 (by simp)

theorem refusal_keeps {α : Type} (p : Handler α) : (refusalContract userId node count).Keeps p :=
  keeps_all _ (fun _ _ _ _ => refusal_perform) p

/-- A statement teaches its caller what holds of its result in every admitted step. -/
theorem triple_refusing {stmt : Stmt β} {Q : β → Prop}
    (hQ : ∀ (w : AccountWorld) choice, Blocked w.state userId →
      Stale (stmt.exec choice w.state).2 node userId →
      touchFails (.ran stmt (stmt.exec choice w.state).1) ≠ some userId →
      Q (stmt.exec choice w.state).1) :
    (refusalContract userId node count).Triple i (fun _ => True) (Prog.call stmt)
      fun result _ => Q result := by
  apply triple_call _ (stable_true _)
  intro w choice hinv _ hallowed
  obtain ⟨hinv', hguar⟩ := refusal_perform hinv hallowed
  exact ⟨hinv', hguar, hQ w choice hinv.1 hinv'.2 (hallowed.1.touch i _ rfl hinv.1)⟩

/-- The status read for an account is that of its row. -/
theorem touchLastSeen_ok {choice : Choice} {found : Option AccountStatus}
    (h : ((Stmt.user (.touchLastSeen userId)).exec choice db).1 = .ok found) :
    found = accountStatus db userId := by
  simp only [Stmt.exec, Stmt.effect, UserStmt.exec] at h
  by_cases hfault : choice.fault = true
  · rw [attempt_error hfault] at h
    contradiction
  · rw [attempt_ok (by simpa using hfault)] at h
    exact (Except.ok.inj h).symm

/-- No permitting status. -/
def Refusing (status : Option AccountStatus) : Prop :=
  ∀ found, status = some found → found.mayAuthenticate = false

theorem triple_presenceCheck :
    (refusalContract userId node count).Triple i (fun _ => True) (presenceCheck node userId)
      fun status _ => Refusing status := by
  have hcached : (refusalContract userId node count).Triple i (fun _ => True)
      (platform (.cachedStatus node userId)) fun status _ => Refusing status :=
    triple_refusing fun w choice _ hstale _ found hfound => cachedStatus_of_stale hstale hfound
  have htouch : (refusalContract userId node count).Triple i (fun _ => True)
      (user (.touchLastSeen userId))
      fun result _ => ∃ status, result = .ok status ∧ Refusing status := by
    apply triple_refusing
    intro w choice hblocked _ hfails
    cases hresult : ((Stmt.user (.touchLastSeen userId)).exec choice w.state).1 with
    | error e =>
      rw [hresult] at hfails
      exact absurd rfl hfails
    | ok status =>
      refine ⟨status, rfl, ?_⟩
      rw [touchLastSeen_ok hresult]
      exact hblocked
  apply triple_bind _ hcached
  intro status
  cases status with
  | some status => exact triple_pure _ fun _ _ h => h
  | none =>
    apply triple_weaken _ _ fun _ _ _ => trivial
    apply triple_bind _ htouch
    intro result
    rcases result with e | _ | status
    · apply triple_pure
      rintro w _ ⟨status, hok, _⟩
      contradiction
    · apply triple_pure
      intro w _ _ found hfound
      contradiction
    · by_cases hmay : status.mayAuthenticate = true
      · intro request f _ w _ hresult
        obtain ⟨status', hok, hrefusing⟩ := hresult
        rw [hrefusing status (Except.ok.inj hok).symm] at hmay
        contradiction
      · apply triple_bind _ (refusal_keeps _).triple
        intro _
        apply triple_pure
        intro w _ _ found hfound
        rw [← Option.some.inj hfound]
        simpa using hmay

theorem triple_enforceAccountStatus :
    (refusalContract userId node count).Triple i (fun _ => True)
      (enforceAccountStatus node userId)
      fun result _ => ∃ response, result = .error response := by
  apply triple_bind _ (refusal_keeps _).triple
  intro pool
  cases pool with
  | error e => exact triple_pure _ fun _ _ _ => ⟨_, rfl⟩
  | ok _ =>
    apply triple_bind _ triple_presenceCheck
    intro status
    cases status with
    | none => exact triple_pure _ fun _ _ _ => ⟨_, rfl⟩
    | some status =>
      apply triple_dite
      · intro hmay
        apply triple_pure
        intro w _ hrefusing
        rw [hrefusing status rfl] at hmay
        contradiction
      · intro _
        apply triple_ite
        · exact triple_pure _ fun _ _ _ => ⟨_, rfl⟩
        · exact triple_pure _ fun _ _ _ => ⟨_, rfl⟩

/-- No bearer of the account gets past the extractor on the node. -/
theorem triple_authUser (bearer : Option PresentedToken) :
    (refusalContract userId node count).Triple i (fun _ => True) (authUser node bearer)
      fun result _ => result ≠ .ok userId := by
  cases bearer with
  | none => exact triple_pure _ fun _ _ _ => by simp
  | some token =>
    apply triple_bind _ (refusal_keeps _).triple
    intro now
    cases hverify : token.verify .access now with
    | none => exact triple_pure _ fun _ _ _ => by simp
    | some holder =>
      by_cases hholder : holder = userId
      · subst hholder
        apply triple_bind _ triple_enforceAccountStatus
        intro result
        cases result with
        | error response => exact triple_pure _ fun _ _ _ => by simp
        | ok _ =>
          apply triple_pure
          rintro w _ ⟨response, hresponse⟩
          contradiction
      · apply triple_bind _ (refusal_keeps _).triple
        intro result
        cases result with
        | error response => exact triple_pure _ fun _ _ _ => by simp
        | ok _ => exact triple_pure _ fun _ _ _ => by simpa using hholder

theorem refusal_starts : (refusalContract userId node count).Starts := by
  intro i request w hinv _ _
  have hbegan : ¬ LetsIn userId node (.began request) := by
    rintro ⟨bearer, heq⟩
    contradiction
  obtain ⟨hinv', hguar⟩ := refusal_record hinv hbegan
  refine ⟨hinv', hguar, ?_⟩
  by_cases haccess : ∃ bearer, request = .access node bearer
  · obtain ⟨bearer, rfl⟩ := haccess
    have htriple : (refusalContract userId node count).Triple i (fun _ => True)
        (access node bearer) fun answer _ => answer ≠ .authenticated userId := by
      apply triple_bind _ (triple_authUser bearer)
      intro result
      cases result with
      | error response => exact triple_pure _ fun _ _ _ => by simp
      | ok holder => exact triple_pure _ fun _ _ hne => by simpa using hne
    apply Contract.Triple.meets _ htriple _ _ hinv' trivial
    intro answer
    apply Contract.Meets.done
    · exact fun _ _ _ _ _ h => h
    · intro w' hinv hne _
      apply refusal_record hinv
      rintro ⟨bearer', heq⟩
      exact hne (Event.answered.inj heq).2
  · have hmeets : (refusalContract userId node count).Meets i request (fun _ => True)
        request.handler := by
      apply Contract.Triple.meets _ (refusal_keeps _).triple
      intro answer
      apply Contract.Meets.done _ (stable_true _)
      intro w' hinv _ _
      apply refusal_record hinv
      rintro ⟨bearer, heq⟩
      exact haccess ⟨bearer, (Event.answered.inj heq).1⟩
    exact hmeets _ hinv' trivial

/-- From a state on in which the account is blocked and its entries on the node
are stale, no request that starts later is let in there. -/
theorem refused_after {cfg : Config Stmt Db AccountRequest AccountAnswer}
    (hstarted : Service.Started cfg) (hblocked : Blocked cfg.world.state userId)
    (hstale : Stale cfg.world.state node userId) (labels : List (Label AccountRequest Choice))
    (hadmits : accountService.Admits (SoundBlocked userId) cfg labels) (hi : cfg.threads.length ≤ i)
    (bearer : Option PresentedToken) :
    ¬ Service.Answered (accountService.run cfg labels) i (.access node bearer)
      (.authenticated userId) := by
  intro hanswered
  have hgood : (refusalContract userId node cfg.threads.length).Good cfg := by
    refine ⟨⟨hblocked, hstale⟩, hstarted, ?_⟩
    intro j request todo hthread
    have hj : j < cfg.threads.length := (List.getElem?_eq_some_iff.mp hthread).1
    have hmeets : (refusalContract userId node cfg.threads.length).Meets j request
        (fun _ => True) todo := by
      apply Contract.Triple.meets _ (refusal_keeps todo).triple
      intro answer
      apply Contract.Meets.done _ (stable_true _)
      intro w hinv _ _
      exact ⟨hinv, fun _ _ _ => hj⟩
    exact hmeets _ ⟨hblocked, hstale⟩ trivial
  rcases Contract.guar_answered _ refusal_starts hgood labels hadmits hanswered with
    ⟨todo, hthread⟩ | ⟨w, hguar⟩
  · exact absurd (List.getElem?_eq_some_iff.mp hthread).1 (Nat.not_lt.mpr hi)
  · exact absurd (hguar _ rfl ⟨bearer, rfl⟩) (Nat.not_lt.mpr hi)

/-! ## Blocks are effective -/

/-- The last thing `first` did was to commit a block of the account. From the
answer to it, if it comes in `second`, no request that starts later on its node
is let in, nor on any node once a cache lifetime has passed, while the account
stays blocked. -/
def BlockEffective (userId : Uuid) (db : Db)
    (first second third : List (Label AccountRequest Choice)) : Prop :=
  let committed := accountService.run (initial db.withoutPresence) first
  let later := accountService.run committed second
  let cfg := accountService.run later third
  ∀ b event rest node, committed.world.log = (b, event) :: rest → blocks event = some userId →
    accountService.Admits (StaysBlocked userId) committed (second ++ third) →
    ((∃ request answer, Service.Answered later b request answer ∧ request.node = node) ∨
      committed.world.state.now + checkTtl ≤ later.world.state.now) →
    ∀ i bearer, later.threads.length ≤ i →
      ¬ Service.Answered cfg i (.access node bearer) (.authenticated userId)

variable {rest : List (Nat × AccountEvent)}

/-- A statement runs on the world before it. -/
theorem blocked_of_log {w' : AccountWorld} (hstep : Service.StepOf accountService P w w')
    (h : ∀ b event rest, w.log = (b, event) :: rest →
      blocks event = some userId → Blocked w.state userId) (hlog : w'.log = (b, event) :: rest)
    (hblocks : blocks event = some userId) : Blocked w'.state userId := by
  cases hstep with
  | void => exact h b event rest hlog hblocks
  | began j request | answered j request answer _ =>
    obtain ⟨heq, _⟩ := List.cons.inj hlog
    rw [← (Prod.mk.inj heq).2] at hblocks
    cases hblocks
  | issued j request stmt choice _ _ =>
    obtain ⟨heq, _⟩ := List.cons.inj hlog
    rw [← (Prod.mk.inj heq).2] at hblocks
    exact blocked_of_blocks stmt choice w.state hblocks

theorem account_attributed (db : Db) (labels : List (Label AccountRequest Choice)) :
    Service.Attributed (fun _ _ _ => True)
      (accountService.run (initial db) labels) :=
  accountService.attributed_run (fun request => Prog.only_true request.handler)
    (Service.attributed_initial db) labels

/-- What a run that ends with a block starts the settling of the account with. -/
theorem settling_committed (db : Db) (first : List (Label AccountRequest Choice))
    (hlog : (accountService.run (initial db.withoutPresence) first).world.log =
      (b, event) :: rest) (hblocks : blocks event = some userId) (node : Nat) :
    Settling userId node b
      (accountService.run (initial db.withoutPresence) first).world.state.now
      ((b, event) :: rest)
      (accountService.run (initial db.withoutPresence) first).world := by
  have hrun : (Clocked (accountService.run (initial db.withoutPresence) first).world.state ∧
      ∀ b event rest, (accountService.run (initial db.withoutPresence) first).world.log =
        (b, event) :: rest → blocks event = some userId →
        Blocked (accountService.run (initial db.withoutPresence) first).world.state
          userId) := by
    apply accountService.stepOf_run (fun request => Prog.only_true request.handler)
      (I := fun w : AccountWorld => Clocked w.state ∧ ∀ b event rest, w.log = (b, event) :: rest →
        blocks event = some userId → Blocked w.state userId) _ (account_attributed db.withoutPresence [])
    · refine ⟨?_, by simp [initial]⟩
      intro entry hentry
      contradiction
    · rintro w w' hstep ⟨hclocked, hblocked⟩
      refine ⟨?_, fun b event rest => blocked_of_log hstep hblocked⟩
      cases hstep with
      | void | began j request | answered j request answer _ => exact hclocked
      | issued j request stmt choice _ _ => exact clocked_exec stmt choice hclocked
  obtain ⟨hclocked, hblocked⟩ := hrun
  refine ⟨hblocked b event rest hlog hblocks, fun entry hentry _ _ => hclocked entry hentry,
    ⟨event, List.mem_cons_self, hblocks⟩, [], hlog, ?_⟩
  rintro (⟨_, _, hmem, _⟩ | ⟨_, _, hmem, _⟩)
  · contradiction
  · contradiction

variable {request : AccountRequest}

/-- A program that has answered since its block did so after the block, and so
did everything it issued in between. -/
theorem answered_since {new : List (Nat × AccountEvent)} {answer : AccountAnswer}
    {earlier : List AccountEvent} (hlog : w.log = new ++ (b, event) :: rest)
    (hblocks : blocks event = some userId) (hown : w.own b = .answered request answer :: earlier) :
    (b, .answered request answer) ∈ new ∧ ∃ mid tail, earlier = mid ++ event :: tail ∧
      ∀ event' ∈ mid, (b, event') ∈ new := by
  have hsplit : w.own b = (new.filter (·.1 == b)).map (·.2) ++
      event :: (rest.filter (·.1 == b)).map (·.2) := by
    rw [World.own, hlog, List.filter_append, List.map_append, List.filter_cons]
    simp
  have hnew : ∀ event' ∈ (new.filter (·.1 == b)).map (·.2), (b, event') ∈ new := by
    intro event' hmem
    obtain ⟨⟨j, _⟩, hfiltered, rfl⟩ := List.mem_map.mp hmem
    obtain ⟨hmem, hj⟩ := List.mem_filter.mp hfiltered
    rw [← beq_iff_eq.mp hj]
    exact hmem
  rw [hown] at hsplit
  cases hown' : (new.filter (·.1 == b)).map (·.2) with
  | nil =>
    rw [hown', List.nil_append] at hsplit
    rw [← (List.cons.inj hsplit).1] at hblocks
    cases hblocks
  | cons head mid =>
    rw [hown', List.cons_append] at hsplit
    obtain ⟨rfl, hearlier⟩ := List.cons.inj hsplit
    rw [hown'] at hnew
    exact ⟨hnew _ List.mem_cons_self, mid, _, hearlier,
      fun event' hmem => hnew event' (List.mem_cons_of_mem _ hmem)⟩

/-- Once the block has been answered the account's entries on the node of the
answer are stale. -/
theorem Settling.stale {labels : List (Label AccountRequest Choice)} {answer : AccountAnswer}
    (h : Settling userId request.node b moment ((b, event) :: rest)
      (accountService.run (initial db) labels).world) (hblocks : blocks event = some userId)
    (hanswered : Service.Answered (accountService.run (initial db) labels) b request answer) :
    Stale (accountService.run (initial db) labels).world.state request.node userId := by
  obtain ⟨new, hlog, hcleared⟩ := h.cleared
  have htraced := accountService.traced_run (Service.traced_initial db) labels b request answer
    hanswered
  obtain ⟨_, earlier, hown⟩ :=
    accountService.closed_run (Service.closed_initial db) labels b request answer htraced
  obtain ⟨hnew, mid, tail, hearlier, hmid⟩ := answered_since hlog hblocks hown
  apply hcleared
  cases hbans : request.bans with
  | false => exact Or.inr ⟨request, answer, hnew, hbans, rfl⟩
  | true =>
    cases request with
    | banUser node adminId id body =>
      have hcovered := ban_covered db labels hanswered hown userId
      rw [hearlier] at hcovered
      obtain ⟨event', hevent', hinvalidates⟩ := hcovered.invalidated hblocks
      exact Or.inl ⟨b, event', hmid event' hevent', hinvalidates⟩
    | _ => simp [AccountRequest.bans] at hbans

/-- Blocks are effective in every run in which, while the account is blocked, its
status can be read and no permitting status is stored, and in which a
deactivation or deletion answers only once the account's permitting entries on
its node have expired. -/
theorem block_effective (userId : Uuid) (db : Db)
    (first second third : List (Label AccountRequest Choice))
    (hsound : accountService.Admits (fun _ => PresenceSound userId)
      (initial db.withoutPresence) (first ++ (second ++ third))) :
    BlockEffective userId db first second third := by
  intro b event rest node hlog hblocks hblocked hnode i bearer hi
  rw [Service.admits_append] at hsound
  have hadmits := accountService.admits_and hsound.2 hblocked
  rw [Service.admits_append] at hadmits
  have hsettling := accountService.admitted_run (fun request => Prog.only_true request.handler)
    settling_step (account_attributed db.withoutPresence first)
    (settling_committed db first hlog hblocks node) second hadmits.1
  have hstale : Stale (accountService.run (accountService.run
      (initial db.withoutPresence) first) second).world.state node userId := by
    rcases hnode with ⟨request, answer, hanswered, rfl⟩ | hpassed
    · rw [← Service.run_append] at hsettling hanswered ⊢
      exact hsettling.stale hblocks hanswered
    · exact stale_of_aged hsettling.aged hpassed node
  have hstarted := accountService.started_run (Service.started_initial db.withoutPresence)
    (first ++ second)
  rw [Service.run_append] at hstarted
  exact refused_after hstarted hsettling.blocked hstale third hadmits.2 hi bearer

/-! ## Concrete runs -/

/-- `Blocked`, as a test. -/
def blockedTest (db : Db) (userId : Uuid) : Bool :=
  (accountStatus db userId).all fun status => !status.mayAuthenticate

theorem blocked_iff : Blocked db userId ↔ blockedTest db userId = true := by
  rw [blockedTest, Blocked]
  cases accountStatus db userId with
  | none => simp
  | some status => simp

/-- Sufficient for a step to be sound: no status read fails, no permitting status
is stored while the account is blocked, and no request but a ban answers after a
block of its own. -/
def presenceStep (userId : Uuid) (w w' : AccountWorld) : Bool :=
  match w'.log with
  | [] => true
  | (i, event) :: _ =>
      touchFails event != some userId &&
        match event with
        | .began _ => true
        | .ran stmt _ => (stores stmt).all fun entry =>
            entry.2.1 != userId || !entry.2.2.mayAuthenticate || !blockedTest w.state userId
        | .answered request _ => request.bans ||
            w.log.all fun entry => entry.1 != i || blocks entry.2 != some userId

theorem presenceSound_of_presenceStep (_ : Nat) (w w' : AccountWorld)
    (htest : presenceStep userId w w' = true) : PresenceSound userId w w' := by
  constructor
  · intro j event hlog _
    rw [presenceStep, hlog, Bool.and_eq_true] at htest
    simpa using htest.1
  · intro j β stmt result hlog hblocked node status hstores
    rw [presenceStep, hlog, Bool.and_eq_true] at htest
    simpa [hstores, blocked_iff.mp hblocked] using htest.2
  · intro j request answer event hlog hbans hevent hblocks
    rw [presenceStep, hlog, Bool.and_eq_true] at htest
    have hall : w.log.all (fun entry => entry.1 != j || blocks entry.2 != some userId) = true := by
      simpa only [hbans, Bool.false_or] using htest.2
    have hentry := List.all_eq_true.mp hall _ hevent
    simp [hblocks] at hentry

theorem staysBlocked_of_blockedTest (i : Nat) (w w' : AccountWorld)
    (htest : blockedTest w'.state userId = true) : StaysBlocked userId i w w' :=
  blocked_iff.mpr htest

/-- Alice's access token. -/
def aliceBearer : PresentedToken := .genuine ⟨.access, 0, accessTtl, "a"⟩

/-- Alice uses her token, so that the node caches her status. -/
def aliceAccess : List (Label AccountRequest Choice) :=
  .start (.access 0 (some aliceBearer)) :: List.replicate 6 (.run 0 {})

/-- An administrator bans Alice. -/
def aliceBanned : List (Label AccountRequest Choice) :=
  aliceAccess ++ .start (.banUser 0 9 0 (.ok none)) :: List.replicate 2 (.run 1 {})

/-- Once the ban is answered, Alice's token is refused on the node. -/
theorem block_effective_ban :
    ¬ Service.Answered (accountService.run (accountService.run (accountService.run
        (initial aliceDb.withoutPresence) aliceBanned) (List.replicate 5 (.run 1 {})))
      (.start (.access 0 (some aliceBearer)) :: List.replicate 7 (.run 2 {}))) 2
      (.access 0 (some aliceBearer)) (.authenticated 0) := by
  have hsound : accountService.Admits (fun _ => PresenceSound 0)
      (initial aliceDb.withoutPresence) (aliceBanned ++ (List.replicate 5 (.run 1 {}) ++
        .start (.access 0 (some aliceBearer)) :: List.replicate 7 (.run 2 {}))) :=
    Service.admits_of_tested _ presenceSound_of_presenceStep (by decide +kernel)
  have heffective := block_effective 0 aliceDb aliceBanned _ _ hsound
  have hlength : (accountService.run (accountService.run
      (initial aliceDb.withoutPresence) aliceBanned)
      (List.replicate 5 (.run 1 {}))).threads.length = 2 := by decide +kernel
  obtain ⟨rest, hlog⟩ : ∃ rest, (accountService.run (initial aliceDb.withoutPresence)
      aliceBanned).world.log = (1, .ran (.user (.setBanned 0 true)) (.ok .updated)) :: rest :=
    ⟨_, rfl⟩
  apply heffective 1 _ rest 0 hlog rfl _ _ 2 (some aliceBearer) (Nat.le_of_eq hlength)
  · exact Service.admits_of_tested _ staysBlocked_of_blockedTest (by decide +kernel)
  · exact Or.inl ⟨_, _, ⟨_, rfl⟩, rfl⟩

/-- An administrator deactivates Alice. -/
def aliceDeactivated : List (Label AccountRequest Choice) :=
  aliceAccess ++ .start (.updateUser 0 9 0 (.ok ⟨some false, none, none, none⟩)) ::
    List.replicate 2 (.run 1 {})

/-- After the deactivation is answered, Alice's token still lets her in on the node. -/
theorem block_cached :
    ¬ BlockEffective 0 aliceDb aliceDeactivated (List.replicate 3 (.run 1 {}))
      (.start (.access 0 (some aliceBearer)) :: List.replicate 4 (.run 2 {})) := by
  intro heffective
  have hlength : (accountService.run (accountService.run
      (initial aliceDb.withoutPresence) aliceDeactivated)
      (List.replicate 3 (.run 1 {}))).threads.length = 2 := by decide +kernel
  obtain ⟨rest, hlog⟩ : ∃ rest, (accountService.run (initial aliceDb.withoutPresence)
      aliceDeactivated).world.log =
        (1, .ran (.user (.setActive 0 false)) (.ok .updated)) :: rest := ⟨_, rfl⟩
  apply heffective 1 _ rest 0 hlog rfl _ (Or.inl ⟨_, _, ⟨_, rfl⟩, rfl⟩) 2 (some aliceBearer)
    (Nat.le_of_eq hlength)
  · exact Service.answered_iff.mpr (by decide +kernel)
  · exact Service.admits_of_tested _ staysBlocked_of_blockedTest (by decide +kernel)

end IntelliPilot.Auth
