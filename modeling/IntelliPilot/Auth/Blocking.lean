import IntelliPilot.Auth.AccountHandlers
import IntelliPilot.Auth.Frames

/-! # Blocking an account

An access token is checked against the status of its account, and that status
may come from the node's presence cache. What a block needs to be effective is
that no permitting entry of the account outlives it: none is stored after it,
and none that was there before is still fresh.
-/

namespace IntelliPilot.Auth

open Rows Statement

/-- The requests that use, block or restore an account, each on one node. -/
inductive AccountRequest where
  | access (node : Nat) (bearer : Option PresentedToken)
  | banUser (node : Nat) (adminId id : Uuid) (body : Except JsonRejection (Option String))
  | unbanUser (node : Nat) (adminId id : Uuid)
  | updateUser (node : Nat) (adminId id : Uuid) (body : Except JsonRejection UpdateUserRequest)
  | deleteUser (node : Nat) (adminId id : Uuid)
  deriving DecidableEq

/-- An access either passes the extractor or is refused like any other request. -/
inductive AccountAnswer where
  | authenticated (userId : Uuid)
  | response (response : Response)
  deriving DecidableEq

/-- The answer of a request that needs nothing but an authenticated user. -/
def access (node : Nat) (bearer : Option PresentedToken) : Handler AccountAnswer := do
  match ← authUser node bearer with
  | .ok userId => return .authenticated userId
  | .error response => return .response response

def AccountRequest.handler : AccountRequest → Handler AccountAnswer
  | .access node bearer => Auth.access node bearer
  | .banUser node adminId id body => do return .response (← Auth.banUser node adminId id body)
  | .unbanUser node adminId id => do return .response (← Auth.unbanUser node adminId id)
  | .updateUser _ adminId id body => do return .response (← Auth.updateUser adminId id body)
  | .deleteUser _ adminId id => do return .response (← Auth.deleteUser adminId id)

def AccountRequest.node : AccountRequest → Nat
  | .access node _ => node
  | .banUser node _ _ _ => node
  | .unbanUser node _ _ => node
  | .updateUser node _ _ _ => node
  | .deleteUser node _ _ => node

/-- Whether a request is a ban. -/
def AccountRequest.bans : AccountRequest → Bool
  | .banUser _ _ _ _ => true
  | _ => false

def accountService : Service Stmt Db Choice AccountRequest AccountAnswer :=
  authService AccountRequest.handler

abbrev AccountWorld : Type 1 := World Stmt Db AccountRequest AccountAnswer

abbrev AccountEvent : Type 1 := Event Stmt AccountRequest AccountAnswer

/-! ## What the log tells -/

/-- The account a successful statement has blocked. -/
def blocks : AccountEvent → Option Uuid
  | .ran (.user (.setBanned id true)) (.ok .updated) => some id
  | .ran (.user (.setActive id false)) (.ok .updated) => some id
  | .ran (.user (.softDeleteGuarded id)) (.ok .updated) => some id
  | _ => none

/-- The entry an invalidation has dropped. -/
def invalidates : AccountEvent → Option (Nat × Uuid)
  | .ran (.platform (.invalidateStatus node userId)) _ => some (node, userId)
  | _ => none

/-- The account whose status could not be read. -/
def touchFails : AccountEvent → Option Uuid
  | .ran (.user (.touchLastSeen userId)) (.error _) => some userId
  | _ => none

/-- The status a statement puts into a node's cache. -/
def stores : {β : Type} → Stmt β → Option (Nat × Uuid × AccountStatus)
  | _, .platform (.storeStatus node userId status) => some (node, userId, status)
  | _, _ => none

/-! ## Blocked accounts and stale entries -/

/-- The status `touch_last_seen` reads. -/
def accountStatus (db : Db) (userId : Uuid) : Option AccountStatus :=
  (db.users.find? (Users.liveId userId)).map fun account =>
    ⟨account.isActive, account.bannedAt.isSome⟩

/-- The account is banned, inactive, deleted or does not exist. -/
def Blocked (db : Db) (userId : Uuid) : Prop :=
  ∀ status, accountStatus db userId = some status → status.mayAuthenticate = false

/-- Every permitting entry of the account on the node has expired. -/
def Stale (db : Db) (node : Nat) (userId : Uuid) : Prop :=
  ∀ entry ∈ db.presence, Presence.entryOf node userId entry = true →
    entry.status.mayAuthenticate = true → checkTtl ≤ db.now - entry.checked

/-- An entry of the caches after a statement was there before, or was stored by it. -/
theorem presence_exec {β : Type} (stmt : Stmt β) (choice : Choice) (db : Db)
    {entry : PresenceEntry} (hentry : entry ∈ (stmt.exec choice db).2.presence) :
    entry ∈ db.presence ∨ stores stmt = some (entry.node, entry.userId, entry.status) ∧
      entry.checked = (stmt.exec choice db).2.now := by
  have hother : (∀ platform, stmt ≠ .platform platform) → entry ∈ db.presence :=
    fun h => (stmt.unchanged choice db).presence h ▸ hentry
  cases stmt with
  | session stmt | user stmt | factor stmt | oidc stmt => exact Or.inl (hother nofun)
  | platform stmt =>
    cases hcaches : stmt.caches with
    | false =>
      have hsame := stmt.presence_unchanged hcaches choice (db.advance choice.elapse)
      rw [Stmt.exec, Stmt.effect, hsame] at hentry
      exact Or.inl hentry
    | true =>
      cases stmt with
      | storeStatus node userId status =>
        rcases List.mem_append.mp hentry with hold | hnew
        · have hkept := Presence.mem_of_mem_sweep (mem_deleteWhere.mp hold).1
          exact Or.inl hkept
        · obtain rfl := List.mem_singleton.mp hnew
          exact Or.inr ⟨rfl, rfl⟩
      | invalidateStatus node userId => exact Or.inl (mem_deleteWhere.mp hentry).1
      | _ => cases hcaches

/-- A statement that stores no permitting status of the account leaves its entries stale. -/
theorem stale_exec {β : Type} (stmt : Stmt β) (choice : Choice) {db : Db} {node : Nat}
    {userId : Uuid} (hstore : ∀ node status, stores stmt = some (node, userId, status) →
      status.mayAuthenticate = false) (hstale : Stale db node userId) :
    Stale (stmt.exec choice db).2 node userId := by
  intro entry hentry hof hmay
  rcases presence_exec stmt choice db hentry with hold | ⟨hstored, _⟩
  · exact Nat.le_trans (hstale entry hold hof hmay)
      (Nat.sub_le_sub_right (stmt.unchanged choice db).counters.2 _)
  · have huser : entry.userId = userId := by
      simp only [Presence.entryOf, Bool.and_eq_true, beq_iff_eq] at hof
      exact hof.2
    rw [huser] at hstored
    rw [hstore _ _ hstored] at hmay
    contradiction

/-- The entries of an account are stale on the node that has just dropped them. -/
theorem stale_invalidate (node : Nat) (userId : Uuid) (choice : Choice) (db : Db) :
    Stale ((Stmt.platform (.invalidateStatus node userId)).exec choice db).2 node userId := by
  intro entry hentry hof
  have hdropped := (mem_deleteWhere.mp hentry).2
  rw [hof] at hdropped
  contradiction

/-- A fresh cached status of a stale account refuses it. -/
theorem cachedStatus_of_stale {db : Db} {node : Nat} {userId : Uuid}
    (hstale : Stale db node userId) {status : AccountStatus}
    (hcached : Presence.cached node userId db = some status) : status.mayAuthenticate = false := by
  simp only [Presence.cached, Option.map_eq_some_iff, Option.filter_eq_some_iff,
    decide_eq_true_eq] at hcached
  obtain ⟨entry, ⟨hfound, hfresh⟩, rfl⟩ := hcached
  cases hmay : entry.status.mayAuthenticate with
  | false => rfl
  | true =>
    have hexpired := hstale entry (List.mem_of_find?_eq_some hfound) (List.find?_some hfound) hmay
    exact absurd hfresh (Nat.not_lt.mpr hexpired)

/-! ## A blocking statement blocks -/

/-- An admin update that went through has rewritten the account. -/
theorem guardedUpdate_updated {id : Uuid} {guarded : Bool} {f : User → User} {db : Db}
    (h : (Users.guardedUpdate id guarded f db).1 = .updated) :
    (Users.guardedUpdate id guarded f db).2 = Users.modify (·.id == id) f db := by
  unfold Users.guardedUpdate at h ⊢
  split
  · simp_all
  · split
    · simp_all
    · split
      · simp_all
      · rfl

/-- An update after which no rewritten row lets its account in blocks the account. -/
theorem blocked_modify {id : Uuid} {f : User → User} (db : Db)
    (hblocks : ∀ account, Users.live (f account) = true →
      (f account).isActive = false ∨ (f account).bannedAt.isSome = true) :
    Blocked (Users.modify (·.id == id) f db) id := by
  intro status hstatus
  obtain ⟨account, hfound, rfl⟩ := Option.map_eq_some_iff.mp hstatus
  obtain ⟨old, _, hold⟩ := mem_updateWhere.mp (List.mem_of_find?_eq_some hfound)
  have hmatch : account.id = id ∧ Users.live account = true := by
    simpa [Users.liveId] using List.find?_some hfound
  have hrewritten : f old = account := by
    by_cases hold' : (old.id == id) = true
    · rw [if_pos hold'] at hold
      exact hold
    · rw [if_neg hold'] at hold
      rw [hold] at hold'
      exact absurd (beq_iff_eq.mpr hmatch.1) hold'
  rw [← hrewritten] at hmatch ⊢
  rcases hblocks old hmatch.2 with h | h
  · simp [AccountStatus.mayAuthenticate, h]
  · simp [AccountStatus.mayAuthenticate, h]

/-- An admin update reported as made has been made. -/
theorem attempt_updated {choice : Choice} {db : Db} {update : Db → AdminUpdateOutcome × Db}
    (h : (attempt choice db fun db => (.ok (update db).1, (update db).2)).1 = .ok .updated) :
    (update db).1 = .updated ∧
      (attempt choice db fun db => (.ok (update db).1, (update db).2)).2 = (update db).2 := by
  by_cases hfault : choice.fault = true
  · rw [attempt_error hfault] at h
    contradiction
  · rw [attempt_ok (by simpa using hfault)] at h ⊢
    exact ⟨Except.ok.inj h, rfl⟩

/-- A blocking statement leaves its account blocked. -/
theorem blocked_of_blocks {β : Type} (stmt : Stmt β) (choice : Choice) (db : Db) {userId : Uuid}
    (h : blocks (.ran stmt (stmt.exec choice db).1) = some userId) :
    Blocked (stmt.exec choice db).2 userId := by
  have hupdate : ∀ (id : Uuid) (update : Db → AdminUpdateOutcome × Db) (f : Db → User → User),
      (∀ db, update db = Users.guardedUpdate id true (f db) db) →
      (∀ db account, Users.live (f db account) = true →
        (f db account).isActive = false ∨ (f db account).bannedAt.isSome = true) →
      (attempt choice (db.advance choice.elapse) fun db =>
        (.ok (update db).1, (update db).2)).1 = .ok .updated →
      Blocked (attempt choice (db.advance choice.elapse) fun db =>
        ((.ok (update db).1 : Except DbError AdminUpdateOutcome), (update db).2)).2 id := by
    intro id update f hguarded hblocks hresult
    obtain ⟨hupdated, hstate⟩ := attempt_updated hresult
    rw [hguarded] at hupdated
    rw [hstate, hguarded, guardedUpdate_updated hupdated]
    exact blocked_modify _ (hblocks _)
  have hresult : ∀ (id : Uuid) (result : Except DbError AdminUpdateOutcome)
      (wrap : Except DbError AdminUpdateOutcome → AccountEvent),
      (∀ result, blocks (wrap result) = if result = .ok .updated then some id else none) →
      blocks (wrap result) = some userId → result = .ok .updated ∧ id = userId := by
    intro id result wrap hwrap h
    rw [hwrap] at h
    split at h
    · exact ⟨‹_›, Option.some.inj h⟩
    · contradiction
  cases stmt with
  | user stmt =>
    cases stmt with
    | setBanned id banned =>
      cases banned with
      | false => cases h
      | true =>
        obtain ⟨hok, rfl⟩ := hresult id _ (.ran (.user (.setBanned id true)))
          (by rintro (e | _ | _ | _) <;> rfl) h
        exact hupdate id _ _ (by intros; rfl) (by simp) hok
    | setActive id value =>
      cases value with
      | true => cases h
      | false =>
        obtain ⟨hok, rfl⟩ := hresult id _ (.ran (.user (.setActive id false)))
          (by rintro (e | _ | _ | _) <;> rfl) h
        exact hupdate id _ _ (by intros; rfl) (by simp) hok
    | softDeleteGuarded id =>
      obtain ⟨hok, rfl⟩ := hresult id _ (.ran (.user (.softDeleteGuarded id)))
        (by rintro (e | _ | _ | _) <;> rfl) h
      exact hupdate id _ _ (by intros; rfl) (by simp [Users.live]) hok
    | _ => cases h
  | _ => cases h

end IntelliPilot.Auth
