import IntelliPilot.Auth.Footprints
import IntelliPilot.Auth.UserRows
import IntelliPilot.Statement.OwnEvents

/-! # Passwords of accounts managed elsewhere

An account that comes from a directory or an identity provider has no local
password. `change_password` looks at the source of the account and needs its
current password, so it never gives such an account one; the confirmation of a
password reset looks at neither.
-/

namespace IntelliPilot.Auth

open Rows Statement Prog
open Service (initial)

/-- The account comes from elsewhere and has no password of its own. -/
def ExternallyManaged (db : Db) (id : Uuid) : Prop :=
  ∃ account ∈ db.users, account.id = id ∧ account.authSource ≠ .localAccount ∧
    account.passwordHash = none

instance (db : Db) (id : Uuid) : Decidable (ExternallyManaged db id) :=
  inferInstanceAs (Decidable (∃ account ∈ db.users, _))

/-- The account is known and has a password. -/
def HasPassword (db : Db) (id : Uuid) : Prop :=
  id < db.nextId ∧ ∀ account ∈ db.users, account.id = id → account.passwordHash.isSome = true

/-- The account a statement opens a session for. -/
def SessionStmt.letsIn {β : Type} : SessionStmt β → Option Uuid
  | .createFamily id => some id
  | _ => none

/-- The account a statement seals the challenge for the second factor of. -/
def PlatformStmt.letsIn {β : Type} : PlatformStmt β → Option Uuid
  | .seal tokenType id _ => if tokenType = .mfa then some id else none
  | _ => none

/-- The account a statement of a sign-in lets in. -/
def Stmt.letsIn {β : Type} : Stmt β → Option Uuid
  | .session stmt => stmt.letsIn
  | .platform stmt => stmt.letsIn
  | _ => none

/-- Program `i` is a login that let the account in and did not ask the directory. -/
def LocalLogin (cfg : Config Stmt Db AuthRequest Response) (i : Nat) (id : Uuid) : Prop :=
  (∃ headers body todo answer, cfg.threads[i]? = some ⟨.login headers body, todo, answer⟩) ∧
    (∃ β, ∃ stmt : Stmt β, ∃ result, .ran stmt result ∈ cfg.world.own i ∧ stmt.letsIn = some id) ∧
    ∀ identifier password result,
      .ran (.platform (.directory identifier password)) result ∉ cfg.world.own i

/-- The accounts managed elsewhere keep having no password, and no login lets
them in without the directory. -/
structure StaysExternal (env : Env) (db : Db) (labels : List (Label AuthRequest Choice)) : Prop where
  passwordless : (fullService env).Persists ExternallyManaged (initial db) labels
  directory : ∀ first second, labels = first ++ second → ∀ id,
    ExternallyManaged ((fullService env).run (initial db) first).world.state id →
    ∀ i, ¬ LocalLogin ((fullService env).run (initial db) labels) i id

/-- The account whose password a confirmed reset has written. -/
def resetWrites : FullEvent → Option Uuid
  | .ran (.user (.setPassword id _)) (.ok _) => some id
  | _ => none

/-- A confirmed reset writes no account that is managed elsewhere and has no password. -/
def ResetsSpare (_ : Nat) (w w' : FullWorld) : Prop :=
  ∀ i event id, w'.log = (i, event) :: w.log → resetWrites event = some id →
    ¬ ExternallyManaged w.state id

/-! ## What one statement does -/

variable {db : Db}

theorem Keyed.hasPassword_of_mem (h : Keyed db) {account : User} (hmem : account ∈ db.users)
    (hhash : account.passwordHash.isSome = true) : HasPassword db account.id := by
  refine ⟨h.lt account hmem, fun other hother hid => ?_⟩
  rw [h.eq_of_id hother hmem hid]
  exact hhash

variable {id : Uuid}

theorem HasPassword.not_external (h : HasPassword db id) :
    ¬ ExternallyManaged db id := by
  rintro ⟨account, hmem, hid, _, hhash⟩
  have hsome := h.2 account hmem hid
  rw [hhash] at hsome
  contradiction

/-- The accounts whose password a statement may write. -/
def Stmt.passwordOf {β : Type} : Stmt β → Option Uuid
  | .user stmt => stmt.passwordOf
  | _ => none

variable {β : Type}

theorem HasPassword.exec (stmt : Stmt β) (choice : Choice) (h : HasPassword db id) :
    HasPassword (stmt.exec choice db).2 id := by
  refine ⟨Nat.lt_of_lt_of_le h.1 (stmt.unchanged choice db).counters.1, ?_⟩
  cases hstmt : stmt.isUser with
  | false =>
    rw [(stmt.unchanged choice db).users hstmt]
    exact h.2
  | true =>
    cases stmt with
    | user stmt =>
      obtain ⟨f, new, husers, hf, hnew⟩ := stmt.rowsKept choice (db.advance choice.elapse)
      intro account hmem hid
      simp only [Stmt.exec, Stmt.effect, husers] at hmem
      rcases List.mem_append.mp hmem with hold | hfresh
      · obtain ⟨old, hmap, rfl⟩ := List.mem_map.mp hold
        rcases (hf old).passwordHash with hsame | ⟨_, hsome⟩
        · rw [hsame]
          exact h.2 old hmap ((hf old).id.symm.trans hid)
        · exact hsome
      · -- a new account does not have an id that was handed out before
        rcases hnew with rfl | ⟨user, rfl, huser, _⟩
        · contradiction
        · rw [List.mem_singleton.mp hfresh, huser] at hid
          exact absurd hid.symm (Nat.ne_of_lt h.1)
    | _ => simp [Stmt.isUser] at hstmt

variable {stmt : Stmt β}

theorem ExternallyManaged.exec (choice : Choice) (h : ExternallyManaged db id)
    (hstmt : stmt.passwordOf ≠ some id) : ExternallyManaged (stmt.exec choice db).2 id := by
  cases huser : stmt.isUser with
  | false =>
    rw [ExternallyManaged, (stmt.unchanged choice db).users huser]
    exact h
  | true =>
    cases stmt with
    | user stmt =>
      obtain ⟨account, hmem, rfl, hsource, hhash⟩ := h
      obtain ⟨f, new, husers, hf, _⟩ := stmt.rowsKept choice (db.advance choice.elapse)
      refine ⟨f account, ?_, (hf account).id, ?_, ?_⟩
      · simp only [Stmt.exec, Stmt.effect, husers]
        exact List.mem_append_left _ (List.mem_map_of_mem hmem)
      · rcases (hf account).authSource with hsame | hldap
        · rw [hsame]
          exact hsource
        · rw [hldap]
          exact fun h => by contradiction
      · rcases (hf account).passwordHash with hsame | ⟨hwritten, _⟩
        · rw [hsame]
          exact hhash
        · exact absurd hwritten hstmt
    | _ => simp [Stmt.isUser] at huser

variable {choice : Choice}

/-- A password that was written is there. -/
theorem setPassword_ok {hash : String}
    (hok : ((Stmt.user (.setPassword id hash)).exec choice db).1 = .ok ()) :
    ¬ ExternallyManaged ((Stmt.user (.setPassword id hash)).exec choice db).2 id := by
  cases hfault : choice.fault with
  | true =>
    simp only [Stmt.exec, Stmt.effect, UserStmt.exec, attempt_error hfault] at hok
    contradiction
  | false =>
    simp only [Stmt.exec, Stmt.effect, UserStmt.exec, attempt_ok hfault]
    rintro ⟨account, hmem, hid, _, hhash⟩
    obtain ⟨old, _, rfl⟩ := mem_updateWhere.mp hmem
    split at hhash
    · contradiction
    · rename_i hother
      rw [if_neg hother] at hid
      exact hother (beq_iff_eq.mpr hid)

theorem setPassword_error {hash : String}
    (herror : ((Stmt.user (.setPassword id hash)).exec choice db).1 ≠ .ok ()) :
    ((Stmt.user (.setPassword id hash)).exec choice db).2.users = db.users := by
  cases hfault : choice.fault with
  | true => simp only [Stmt.exec, Stmt.effect, UserStmt.exec, attempt_error hfault, Db.advance_users]
  | false =>
    simp only [Stmt.exec, Stmt.effect, UserStmt.exec, attempt_ok hfault] at herror
    exact absurd rfl herror

/-! ## The owner's change -/

/-- The account whose password its owner has written. -/
def ownerWrites : FullEvent → Option Uuid
  | .ran (.user (.setPasswordByOwner id _)) _ => some id
  | _ => none

/-- The account that was read with a password. -/
def readsPassword : FullEvent → Option Uuid
  | .ran (.user (.findById id)) (.ok (some found)) =>
      if found.passwordHash.isSome then some id else none
  | .ran (.user (.findByIdentifier _ _)) (.ok (some found)) =>
      if found.passwordHash.isSome then some found.id else none
  | _ => none

/-- Every write of an owner comes after a read that found a password. -/
def OwnerChecked : List FullEvent → Prop
  | [] => True
  | event :: earlier => (∀ id, ownerWrites event = some id →
      ∃ read ∈ earlier, readsPassword read = some id) ∧ OwnerChecked earlier

theorem OwnerChecked.cons {events : List FullEvent} (h : OwnerChecked events) (event : FullEvent)
    (hevent : ownerWrites event = none) : OwnerChecked (event :: events) := by
  refine ⟨fun id hid => ?_, h⟩
  rw [hevent] at hid
  contradiction

variable {events : List FullEvent}

theorem OwnerChecked.write (h : OwnerChecked events) (hash : String)
    (result : Except DbError Unit) (hread : ∃ read ∈ events, readsPassword read = some id) :
    OwnerChecked (.ran (.user (.setPasswordByOwner id hash)) result :: events) := by
  refine ⟨fun id' hid => ?_, h⟩
  obtain rfl := Option.some.inj hid
  exact hread

theorem ownerWrites_none {writes : List Write} (hstmt : Within writes stmt)
    (hwrites : Write.ownPassword ∉ writes) (result : β) :
    ownerWrites (.ran stmt result) = none := by
  cases stmt with
  | user stmt =>
    cases stmt with
    | setPasswordByOwner id hash => exact absurd (hstmt .ownPassword rfl) hwrites
    | _ => rfl
  | _ => rfl

variable {α : Type} {p : Handler α}

theorem tells_ownerChecked {writes : List Write} (hp : p.Only (Within writes))
    (hwrites : Write.ownPassword ∉ writes) (h : OwnerChecked events) :
    p.Tells OwnerChecked (fun _ => OwnerChecked) events := by
  apply tells_only _ hp h
  intro β stmt result events hstmt h
  have h' := h.cons _ (ownerWrites_none hstmt hwrites result)
  exact ⟨h', h'⟩

theorem tells_changePassword (env : Env) (userId : Uuid)
    (body : Except JsonRejection ChangePasswordRequest) (h : OwnerChecked events) :
    (changePassword env userId body).Tells OwnerChecked (fun _ => OwnerChecked) events := by
  have hplain : ∀ {α : Type} {p : Handler α} {events : List FullEvent},
      p.Only (Within [.sessions]) → OwnerChecked events →
      p.Tells OwnerChecked (fun _ => OwnerChecked) events :=
    fun hp => tells_ownerChecked hp (by decide)
  have hdone : ∀ {answer : Response} {events : List FullEvent}, OwnerChecked events →
      (pure answer : Handler Response).Tells OwnerChecked (fun _ => OwnerChecked) events :=
    fun h => h
  cases body with
  | error rejection => exact h
  | ok req =>
    apply tells_ite (hdone h)
    intro pool
    have h := h.cons (.ran (.platform .getPool) pool) rfl
    refine ⟨h, ?_⟩
    cases pool with
    | error e => exact h
    | ok _ =>
      intro found
      have h := h.cons (.ran (.user (.findById userId)) found) rfl
      refine ⟨h, ?_⟩
      rcases found with e | _ | found
      · exact h
      · exact h
      · apply tells_ite (hdone h)
        apply tells_dite
        · exact fun _ => h
        · intro hverified
          apply tells_ite (hdone h)
          intro salt
          have h' := h.cons (.ran (.platform .random) salt) rfl
          refine ⟨h', ?_⟩
          simp only [Prog.bind]
          cases env.hashPassword req.newPassword env.pepper salt with
          | none => exact h'
          | some hash =>
            intro written
            have hsome : found.passwordHash.isSome = true := by
              cases hhash : found.passwordHash with
              | none => simp [hhash] at hverified
              | some old => rfl
            have hread : readsPassword (.ran (.user (.findById userId)) (.ok (some found))) =
                some userId := by simp [readsPassword, hsome]
            have hchecked := h'.write hash written
              ⟨_, List.mem_cons_of_mem _ List.mem_cons_self, hread⟩
            refine ⟨hchecked, ?_⟩
            simp only [Prog.bind]
            cases written with
            | error e => exact hchecked
            | ok _ =>
              apply hplain _ hchecked
              simp [closeSessions, session, platform, only_step_iff,
                only_done_iff, Within]

theorem tellsAll_ownerChecked (env : Env) :
    (fullService env).TellsAll fun _ => OwnerChecked := by
  intro request
  have hnil : OwnerChecked [] := trivial
  have hbegan : OwnerChecked [.began request] := hnil.cons _ rfl
  refine ⟨hbegan, ?_⟩
  have hanswered : ∀ (answer : Response) (events : List FullEvent), OwnerChecked events →
      OwnerChecked (.answered request answer :: events) := fun _ _ h => h.cons _ rfl
  cases hrequest : decide (Write.ownPassword ∈ request.writes) with
  | false =>
    have hwithin := handler_within env request
    exact (tells_ownerChecked hwithin (of_decide_eq_false hrequest) hbegan).post hanswered
  | true =>
    cases request with
    | changePassword userId body => exact (tells_changePassword env userId body hbegan).post hanswered
    | _ => simp [AuthRequest.writes] at hrequest

theorem ownerChecked_run (env : Env) (db : Db) (labels : List (Label AuthRequest Choice)) :
    ∀ entry ∈ ((fullService env).run (initial db) labels).world.log,
      OwnerChecked (((fullService env).run (initial db) labels).world.own entry.1) := by
  intro entry hentry
  have hi := (fullService env).started_run (Service.started_initial db) labels entry hentry
  exact (fullService env).own_run (tellsAll_ownerChecked env) db labels _ _
    (List.getElem?_eq_getElem hi)

/-! ## Runs -/

/-- The accounts read with a password have one. -/
structure Remembered (w : FullWorld) : Prop where
  keyed : Keyed w.state
  reads : ∀ i event id, (i, event) ∈ w.log → readsPassword event = some id →
    HasPassword w.state id

theorem readsPassword_exec (hkeyed : Keyed db)
    (hread : readsPassword (.ran stmt (stmt.exec choice db).1) = some id) : HasPassword db id := by
  cases stmt with
  | user stmt =>
    cases stmt with
    | findById id' =>
      cases hfault : choice.fault with
      | true =>
        simp only [Stmt.exec, Stmt.effect, UserStmt.exec, attempt_error hfault] at hread
        contradiction
      | false =>
        simp only [Stmt.exec, Stmt.effect, UserStmt.exec, attempt_ok hfault,
          Db.advance_users] at hread
        cases hfound : db.users.find? (Users.liveId id') with
        | none =>
          rw [hfound] at hread
          contradiction
        | some found =>
          rw [hfound] at hread
          simp only [readsPassword] at hread
          split at hread
          · obtain rfl := Option.some.inj hread
            have hid : found.id = id' := by
              have hlive := List.find?_some hfound
              simp only [Users.liveId, Bool.and_eq_true, beq_iff_eq] at hlive
              exact hlive.1
            rw [← hid]
            exact hkeyed.hasPassword_of_mem (List.mem_of_find?_eq_some hfound) ‹_›
          · contradiction
    | findByIdentifier email uname =>
      cases hfault : choice.fault with
      | true =>
        simp only [Stmt.exec, Stmt.effect, UserStmt.exec, attempt_error hfault] at hread
        contradiction
      | false =>
        simp only [Stmt.exec, Stmt.effect, UserStmt.exec, attempt_ok hfault,
          Db.advance_users] at hread
        generalize hfound : anyWhere choice.pick _ db.users = found at hread
        cases found with
        | none => contradiction
        | some found =>
          simp only [readsPassword] at hread
          split at hread
          · obtain rfl := Option.some.inj hread
            exact hkeyed.hasPassword_of_mem (anyWhere_some hfound).1 ‹_›
          · contradiction
    | _ => simp [readsPassword] at hread
  | _ => simp [readsPassword] at hread

theorem remembered_step {env : Env} {w w' : FullWorld}
    (hstep : Service.StepOf (fullService env) (fun _ _ _ => True) w w') (h : Remembered w) :
    Remembered w' := by
  cases hstep with
  | void => exact h
  | began i request | answered i request answer hbegan =>
    refine ⟨h.keyed, fun j event id hmem hread => ?_⟩
    rcases List.mem_cons.mp hmem with heq | hold
    · rw [(Prod.mk.inj heq).2] at hread
      contradiction
    · exact h.reads j event id hold hread
  | issued i request stmt choice hbegan hmay =>
    refine ⟨keyed_exec stmt choice h.keyed, fun j event id hmem hread => ?_⟩
    rcases List.mem_cons.mp hmem with heq | hold
    · rw [(Prod.mk.inj heq).2] at hread
      exact (readsPassword_exec h.keyed hread).exec stmt choice
    · exact (h.reads j event id hold hread).exec stmt choice

theorem remembered_run (env : Env) (hkeyed : Keyed db) (labels : List (Label AuthRequest Choice)) :
    Remembered ((fullService env).run (initial db) labels).world := by
  apply (fullService env).stepOf_run (P := fun _ _ _ => True) (fun _ => only_true _)
    (fun w w' hstep => remembered_step hstep) (Service.attributed_initial db)
  exact ⟨hkeyed, fun _ _ _ hmem => by contradiction⟩

theorem resetsSpare_of_none {j i : Nat} {w : FullWorld} {event : FullEvent}
    (h : resetWrites event = none) : ResetsSpare j w (w.record i event db) := by
  intro i' event' id hlog hwrites
  rw [(Prod.mk.inj (List.cons.inj hlog).1).2.symm, h] at hwrites
  contradiction

theorem resetWrites_none (h : stmt.passwordOf = none) (result : β) :
    resetWrites (.ran stmt result) = none := by
  cases stmt with
  | user stmt =>
    cases stmt with
    | setPassword id hash => simp [Stmt.passwordOf, UserStmt.passwordOf] at h
    | _ => rfl
  | _ => rfl

section Issued

variable {env : Env} {w : FullWorld} {i j : Nat} {choice : Choice}

theorem external_reset_iff (id : Uuid) (hash : String) :
    (∀ id', ExternallyManaged w.state id' → ExternallyManaged
        ((fullService env).perform i (.user (.setPassword id hash)) choice w).state id') ↔
      ResetsSpare j w ((fullService env).perform i (.user (.setPassword id hash)) choice w) := by
  let stmt : Stmt (Except DbError Unit) := .user (.setPassword id hash)
  change (∀ id', ExternallyManaged w.state id' →
    ExternallyManaged (stmt.exec choice w.state).2 id') ↔ _
  cases hresult : (stmt.exec choice w.state).1 with
  | error e =>
    -- a failed write changes no account and resets no password
    have hsame : (stmt.exec choice w.state).2.users = w.state.users :=
      setPassword_error (by rw [hresult]; exact fun h => by contradiction)
    refine iff_of_true (fun id' h => ?_) (resetsSpare_of_none ?_)
    · rw [ExternallyManaged, hsame]
      exact h
    · change resetWrites (.ran stmt (stmt.exec choice w.state).1) = none
      rw [hresult]
      rfl
  | ok _ =>
    have hwrites : resetWrites (.ran stmt (stmt.exec choice w.state).1) = some id := by
      rw [hresult]
      rfl
    constructor
    · intro hkept i' event id' hlog hevent hexternal
      obtain rfl := (Prod.mk.inj (List.cons.inj hlog).1).2
      obtain rfl : id = id' := Option.some.inj (hwrites.symm.trans hevent)
      exact setPassword_ok hresult (hkept id hexternal)
    · intro hspares id' hexternal
      apply hexternal.exec choice
      intro heq
      obtain rfl := Option.some.inj heq
      exact hspares i _ id rfl hwrites hexternal

theorem external_issued_iff {β : Type} {stmt : Stmt β} (hremembered : Remembered w)
    (hchecked : OwnerChecked (((fullService env).perform i stmt choice w).own i)) :
    (∀ id, ExternallyManaged w.state id →
        ExternallyManaged ((fullService env).perform i stmt choice w).state id) ↔
      ResetsSpare j w ((fullService env).perform i stmt choice w) := by
  have hquiet : stmt.passwordOf = none → ((∀ id, ExternallyManaged w.state id →
        ExternallyManaged ((fullService env).perform i stmt choice w).state id) ↔
      ResetsSpare j w ((fullService env).perform i stmt choice w)) := fun hnone =>
    iff_of_true (fun id h => h.exec choice (by rw [hnone]; exact fun h => by contradiction))
      (resetsSpare_of_none (resetWrites_none hnone _))
  cases stmt with
  | user stmt =>
    cases stmt with
    | setPassword id hash => exact external_reset_iff id hash
    | setPasswordByOwner id hash =>
      -- its owner has shown a password before
      simp only [Service.perform, World.own_record_self] at hchecked
      obtain ⟨read, hread, hreads⟩ := hchecked.1 id rfl
      have hhas := hremembered.reads i read id (World.mem_own.mp hread) hreads
      refine iff_of_true (fun id' h => h.exec choice ?_) (resetsSpare_of_none rfl)
      intro heq
      obtain rfl := Option.some.inj heq
      exact hhas.not_external h
    | _ => exact hquiet rfl
  | _ => exact hquiet rfl

end Issued

/-- A step keeps the accounts managed elsewhere passwordless exactly if no reset
gives one of them a password. -/
theorem external_step_iff (env : Env) (hkeyed : Keyed db)
    (labels : List (Label AuthRequest Choice)) (label : Label AuthRequest Choice) :
    let cfg := (fullService env).run (initial db) labels
    (∀ id, ExternallyManaged cfg.world.state id →
        ExternallyManaged ((fullService env).step cfg label).world.state id) ↔
      ResetsSpare (Service.actor cfg label) cfg.world ((fullService env).step cfg label).world := by
  intro cfg
  have hremembered := remembered_run env hkeyed labels
  have hchecked := ownerChecked_run env db (labels ++ [label])
  rw [Service.run_append] at hchecked
  simp only [Service.run_cons, Service.run_nil] at hchecked
  have hstep := (fullService env).stepOf (P := fun _ _ _ => True)
    ((fullService env).attributed_run (fun _ => only_true _)
      (Service.attributed_initial db) labels) label
  change Remembered cfg.world at hremembered
  generalize ((fullService env).step cfg label).world = w' at *
  cases hstep with
  | void =>
    refine iff_of_true (fun _ h => h) fun i event id hlog => ?_
    exact absurd hlog.symm (List.cons_ne_self _ _)
  | began i request | answered i request answer hbegan =>
    exact iff_of_true (fun _ h => h) (resetsSpare_of_none rfl)
  | issued i request stmt choice hbegan hmay =>
    exact external_issued_iff hremembered (hchecked _ List.mem_cons_self)

/-! ## What a login relies on -/

def asksDirectory : FullEvent → Bool
  | .ran (.platform (.directory _ _)) _ => true
  | _ => false

def eventLetsIn : FullEvent → Option Uuid
  | .ran stmt _ => stmt.letsIn
  | _ => none

/-- Whoever was let in was vouched for by the directory or was found with a password. -/
def Vouched (events : List FullEvent) : Prop :=
  ∀ event ∈ events, ∀ id, eventLetsIn event = some id →
    (∃ asked ∈ events, asksDirectory asked = true) ∨
      ∃ read ∈ events, readsPassword read = some id

/-- The statement lets nobody in. -/
def LetsNone {β : Type} (stmt : Stmt β) : Prop := stmt.letsIn = none

/-- The statement lets nobody in but `id`. -/
def LetsOnly (id : Uuid) {β : Type} (stmt : Stmt β) : Prop :=
  ∀ id', stmt.letsIn = some id' → id' = id

/-- Nobody but `id`, who was found with a password, has been let in so far. -/
structure FoundFor (id : Uuid) (events : List FullEvent) : Prop where
  read : ∃ read ∈ events, readsPassword read = some id
  only : ∀ event ∈ events, ∀ id', eventLetsIn event = some id' → id' = id

/-- Nobody has been let in so far. -/
def NobodyIn (events : List FullEvent) : Prop := ∀ event ∈ events, eventLetsIn event = none

/-- The account has been looked up and nobody let in so far. -/
structure Identified (found : Option User) (events : List FullEvent) : Prop where
  nobody : NobodyIn events
  read : ∀ account, found = some account → account.passwordHash.isSome = true →
    ∃ read ∈ events, readsPassword read = some account.id

theorem NobodyIn.vouched (h : NobodyIn events) : Vouched events := by
  intro event hmem id hid
  rw [h event hmem] at hid
  contradiction

theorem FoundFor.vouched (h : FoundFor id events) :
    Vouched events := by
  intro event hmem id' hid
  obtain rfl := h.only event hmem id' hid
  exact Or.inr h.read

theorem NobodyIn.cons (h : NobodyIn events) (event : FullEvent)
    (hevent : eventLetsIn event = none) : NobodyIn (event :: events) := by
  intro event' hmem
  rcases List.mem_cons.mp hmem with rfl | hold
  · exact hevent
  · exact h event' hold

theorem tells_identified (hp : p.Only LetsNone) {found : Option User}
    (h : Identified found events) : p.Tells Vouched (fun _ => Identified found) events := by
  apply tells_only _ hp h
  intro β stmt result events hstmt h
  have h' : NobodyIn (.ran stmt result :: events) := h.nobody.cons _ hstmt
  refine ⟨h'.vouched, h', fun account haccount hhash => ?_⟩
  obtain ⟨read, hmem, hread⟩ := h.read account haccount hhash
  exact ⟨read, List.mem_cons_of_mem _ hmem, hread⟩

theorem tells_asked (p : Handler α) (h : ∃ asked ∈ events, asksDirectory asked = true) :
    p.Tells Vouched (fun _ => Vouched) events := by
  have hvouched : ∀ {events : List FullEvent}, (∃ asked ∈ events, asksDirectory asked = true) →
      Vouched events := fun h _ _ _ _ => Or.inl h
  refine Prog.Tells.post (tells_only (P := fun events =>
    ∃ asked ∈ events, asksDirectory asked = true) ?_ (only_true p) h) fun _ _ => hvouched
  rintro β stmt result events - ⟨asked, hmem, hasks⟩
  have h' : ∃ asked ∈ .ran stmt result :: events, asksDirectory asked = true :=
    ⟨asked, List.mem_cons_of_mem _ hmem, hasks⟩
  exact ⟨hvouched h', h'⟩

theorem tells_foundFor (hp : p.Only (LetsOnly id)) (h : FoundFor id events) :
    p.Tells Vouched (fun _ => Vouched) events := by
  refine Prog.Tells.post (tells_only (P := FoundFor id) ?_ hp h) fun _ _ h => h.vouched
  intro β stmt result events hstmt h
  have h' : FoundFor id (.ran stmt result :: events) := by
    refine ⟨?_, ?_⟩
    · obtain ⟨read, hmem, hread⟩ := h.read
      exact ⟨read, List.mem_cons_of_mem _ hmem, hread⟩
    · intro event hmem id' hid
      rcases List.mem_cons.mp hmem with rfl | hold
      · exact hstmt id' hid
      · exact h.only event hold id' hid
  exact ⟨h'.vouched, h'⟩

section Login

attribute [local simp] session user platform forall_except LetsNone LetsOnly
attribute [local simp] Stmt.letsIn SessionStmt.letsIn PlatformStmt.letsIn
attribute [local simp] only_done_iff only_step_iff only_call_iff only_ite_iff

theorem letsIn_challengeOrSession (env : Env) (headers : Headers) (userId : Uuid)
    (action : String) :
    (challengeOrSession env headers userId action).Only (LetsOnly userId) := by
  have hissue : (issueSession env headers userId action).Only (LetsOnly userId) := by
    apply only_bind
    · simp [establishSession, generate]
    · intro established
      cases established with
      | error response => exact only_pure _
      | ok new => exact only_pure _
  simp [challengeOrSession, hissue]

theorem tells_loginPassword (env : Env) (headers : Headers) (req : LoginRequest) (idHash : String)
    (found : Option User) (h : Identified found events) :
    (loginPassword env headers req idHash found).Tells Vouched (fun _ => Vouched) events := by
  have hrefused : ∀ {p : Handler Response}, p.Only LetsNone →
      p.Tells Vouched (fun _ => Vouched) events :=
    fun hp => (tells_identified hp h).post fun _ _ h => h.nobody.vouched
  cases found with
  | none => exact hrefused (by simp [loginPassword])
  | some account =>
    cases hhash : account.passwordHash with
    | none => exact hrefused (by simp [loginPassword, hhash])
    | some hash =>
      have hfound : FoundFor account.id events := by
        refine ⟨h.read account rfl (by rw [hhash]; rfl), fun event hmem id hid => ?_⟩
        rw [h.nobody event hmem] at hid
        contradiction
      apply tells_foundFor _ hfound
      have hchallenge := letsIn_challengeOrSession env headers account.id "login_success"
      unfold loginPassword
      dsimp only
      split
      · simp
      · rename_i account' haccount
        obtain rfl : account = account' := Option.some.inj (Option.filter_eq_some_iff.mp haccount).1
        simp [hchallenge]

theorem tells_loginFound (env : Env) (headers : Headers) (req : LoginRequest) (idHash : String)
    (found : Option User) (h : Identified found events) :
    (loginFound env headers req idHash found).Tells Vouched (fun _ => Vouched) events := by
  apply tells_bind (tells_identified (by simp [localLoginRefused]) h)
  intro refused events h
  apply tells_ite
  · exact (tells_identified (by simp) h).post fun _ _ h => h.nobody.vouched
  · apply tells_bind (tells_identified (by simp) h)
    intro enabled events h
    apply tells_ite
    · -- whatever the directory answers, it has been asked
      intro entry
      have hasked : ∃ asked ∈ .ran (.platform (.directory req.email req.password)) entry :: events,
          asksDirectory asked = true := ⟨_, List.mem_cons_self, rfl⟩
      exact ⟨fun _ _ _ _ => Or.inl hasked, tells_asked _ hasked⟩
    · exact tells_loginPassword env headers req idHash found h

theorem tells_login (env : Env) (headers : Headers) (body : Except JsonRejection LoginRequest)
    (h : NobodyIn events) : (login env headers body).Tells Vouched (fun _ => Vouched) events := by
  have hdone : ∀ {answer : Response} {events : List FullEvent}, NobodyIn events →
      (pure answer : Handler Response).Tells Vouched (fun _ => Vouched) events :=
    fun h => h.vouched
  cases body with
  | error rejection => exact hdone h
  | ok req =>
    apply tells_ite (hdone h)
    intro pool
    have h := h.cons (.ran (.platform .getPool) pool) rfl
    refine ⟨h.vouched, ?_⟩
    simp only [Prog.bind]
    cases pool with
    | error e => exact hdone h
    | ok _ =>
      intro now
      have h := h.cons (.ran (.platform .now) now) rfl
      refine ⟨h.vouched, fun failures => ?_⟩
      have h := h.cons (.ran (.platform (.recentFailures
        (env.sha256Hex (env.normalizeEmail req.email)) headers.ip (now - seconds (60 * 60))))
        failures) rfl
      refine ⟨h.vouched, fun lookup => ?_⟩
      have h := h.cons (.ran (.user (.findByIdentifier (env.normalizeEmail req.email)
        (trim req.email))) lookup) rfl
      refine ⟨h.vouched, ?_⟩
      apply tells_loginFound env headers req _ _ ⟨h, ?_⟩
      intro account hfound hhash
      refine ⟨_, List.mem_cons_self, ?_⟩
      rcases lookup with e | found
      · contradiction
      · obtain rfl : found = some account := hfound
        simp [readsPassword, hhash]

end Login

/-- What holds of the events of a request: a login lets in who was vouched for. -/
def LoginVouched : AuthRequest → List FullEvent → Prop
  | .login _ _, events => Vouched events
  | _, _ => True

theorem Vouched.answered {request : AuthRequest} {answer : Response} (h : Vouched events) :
    Vouched (.answered request answer :: events) := by
  intro event hmem id hid
  rcases List.mem_cons.mp hmem with rfl | hold
  · contradiction
  · rcases h event hold id hid with ⟨asked, hasked, hasks⟩ | ⟨read, hread, hreads⟩
    · exact Or.inl ⟨asked, List.mem_cons_of_mem _ hasked, hasks⟩
    · exact Or.inr ⟨read, List.mem_cons_of_mem _ hread, hreads⟩

theorem tellsAll_loginVouched (env : Env) : (fullService env).TellsAll LoginVouched := by
  intro request
  cases request with
  | login headers body =>
    have hbegan : NobodyIn [.began (.login headers body)] := by
      intro event hmem
      rw [List.mem_singleton.mp hmem]
      rfl
    exact ⟨hbegan.vouched, (tells_login env headers body hbegan).post fun _ _ h => h.answered⟩
  | _ =>
    refine ⟨trivial, ?_⟩
    exact tells_only (P := fun _ => True) (fun _ _ _ _ _ => ⟨trivial, trivial⟩)
      (only_true _) trivial

theorem not_localLogin {env : Env} (hkeyed : Keyed db) {labels : List (Label AuthRequest Choice)}
    (hexternal : ExternallyManaged
      ((fullService env).run (initial db) labels).world.state id) (i : Nat) :
    ¬ LocalLogin ((fullService env).run (initial db) labels) i id := by
  rintro ⟨⟨headers, body, todo, answer, hthread⟩, ⟨β, stmt, result, hmem, hletsIn⟩, hdirectory⟩
  have hvouched : Vouched _ :=
    (fullService env).own_run (tellsAll_loginVouched env) db labels i _ hthread
  rcases hvouched _ hmem id hletsIn with ⟨asked, hasked, hasks⟩ | ⟨read, hread, hreads⟩
  · cases asked with
    | ran stmt result =>
      cases stmt with
      | platform stmt =>
        cases stmt with
        | directory identifier password => exact hdirectory identifier password result hasked
        | _ => simp [asksDirectory] at hasks
      | _ => simp [asksDirectory] at hasks
    | _ => simp [asksDirectory] at hasks
  · have hhas := (remembered_run env hkeyed labels).reads i read id (World.mem_own.mp hread) hreads
    exact hhas.not_external hexternal

/-- Accounts managed elsewhere stay so, and stay with the directory, exactly as
long as no confirmed reset gives one of them a password. -/
theorem stays_external_iff (env : Env) (db : Db) (hkeyed : Keyed db)
    (labels : List (Label AuthRequest Choice)) :
    StaysExternal env db labels ↔
      (fullService env).Admits ResetsSpare (initial db) labels := by
  have hpersists : (fullService env).Persists ExternallyManaged (initial db) labels ↔
      (fullService env).Admits ResetsSpare (initial db) labels :=
    (fullService env).persists_iff_admits.trans
      ((fullService env).admits_congr (fun first label => external_step_iff env hkeyed first label)
        labels)
  rw [← hpersists]
  constructor
  · exact StaysExternal.passwordless
  · intro hkept
    refine ⟨hkept, fun first second hsplit id hexternal i => ?_⟩
    apply not_localLogin hkeyed
    have hlater := hkept first second [] (by rw [hsplit, List.append_nil]) id hexternal
    rwa [← hsplit] at hlater

/-! ## Resetting the password of a directory account -/

/-- `ResetsSpare` as a test. -/
def spares (w w' : FullWorld) : Bool :=
  match w'.log with
  | (_, event) :: _ => (resetWrites event).all fun id => !decide (ExternallyManaged w.state id)
  | [] => true

theorem resetsSpare_of_test (i : Nat) (w w' : FullWorld) (h : spares w w' = true) :
    ResetsSpare i w w' := by
  intro i' event id hlog hwrites
  simp only [spares, hlog, hwrites, Option.all_some, Bool.not_eq_true', decide_eq_false_iff_not] at h
  exact h

/-- Alice has a local account, Root is a superadmin of the directory. -/
def officeDb : Db :=
  { Db.empty with
    users := [⟨0, "alice@example.org", "alice", "Alice", some "#secret", true, false, false,
        .localAccount, none, none, none, none, none, none, none, none⟩,
      ⟨1, "root@example.org", "root", "Root", none, true, true, false, .ldap,
        some "uid=root,dc=example,dc=org", none, none, none, none, none, none, none⟩]
    ldapEnabled := true
    nextId := 2 }

/-- A password is reset with the token that was sent for it, then used. -/
def resetAndLogin (email : String) : List (Label AuthRequest Choice) :=
  [.start (.passwordResetRequest (.ok email)), .run 0 {}, .run 0 {}, .run 0 { random := "t" },
    .run 0 {}, .run 0 {}, .run 0 {}, .run 0 {},
    .start (.passwordResetConfirm (.ok ⟨"t", "correct horse battery"⟩))] ++
  List.replicate 7 (.run 1 {}) ++
  [.start (.login {} (.ok ⟨email, "correct horse battery"⟩))] ++ List.replicate 18 (.run 2 {})

theorem keyed_officeDb : Keyed officeDb := ⟨by decide, by decide⟩

/-- Alice resets her own password. -/
theorem stays_external_local_reset :
    StaysExternal .transparent officeDb (resetAndLogin "alice@example.org") := by
  refine (stays_external_iff .transparent officeDb keyed_officeDb _).mpr ?_
  exact (fullService .transparent).admits_of_tested resetsSpare_of_test (by decide +kernel)

/-- Root gets a local password and signs in with it; the directory is not asked. -/
theorem directory_superadmin_detached :
    ¬ StaysExternal .transparent officeDb (resetAndLogin "root@example.org") ∧
      (((fullService .transparent).run (initial officeDb)
        (resetAndLogin "root@example.org")).world.own 2).any
          (fun event => eventLetsIn event == some 1) = true ∧
      (((fullService .transparent).run (initial officeDb)
        (resetAndLogin "root@example.org")).world.own 2).any asksDirectory = false := by
  refine ⟨fun hstays => ?_, by decide +kernel, by decide +kernel⟩
  have hbefore : ExternallyManaged officeDb 1 := by decide
  have hafter := hstays.passwordless [] (resetAndLogin "root@example.org") []
    (by rw [List.append_nil, List.nil_append]) 1 hbefore
  revert hafter
  decide +kernel

end IntelliPilot.Auth
