import IntelliPilot.Auth.Frames
import IntelliPilot.Auth.OidcHandlers
import IntelliPilot.Statement.OwnEvents

/-! # Unlinking an identity

`unlink_identity` refuses to remove the last identity of an account without a
password. It reads the password and the count before it deletes, and it does
not ask whether a login would accept the password, nor whether the providers of
the other identities are enabled.
-/

namespace IntelliPilot.Auth

open Rows Statement
open Service (initial)

/-- The platform's switches leave an account its local password: a login checks
it here, and neither refuses it nor goes to the directory. -/
def acceptsPassword (db : Db) (account : User) : Bool :=
  account.passwordHash.isSome &&
    (account.isSuperadmin || !db.localPasswordLoginDisabled && !db.ldapEnabled)

/-- The account has a password a login accepts. -/
def PasswordAccepted (db : Db) (userId : Uuid) : Prop :=
  (db.users.find? (Users.liveId userId)).any (acceptsPassword db) = true

/-- The identity is one of the user's and its provider is enabled. -/
def usableIdentity (db : Db) (userId : Uuid) (row : OidcIdentity) : Bool :=
  row.userId == userId && db.oidcProviders.any fun provider =>
    provider.id == row.providerId && provider.enabled

/-- The account can be signed in to, by its password or by an identity. -/
def CanSignIn (db : Db) (userId : Uuid) : Prop :=
  PasswordAccepted db userId ∨ ∃ row ∈ db.oidcIdentities, usableIdentity db userId row = true

instance (db : Db) (userId : Uuid) : Decidable (PasswordAccepted db userId) :=
  inferInstanceAs (Decidable (_ = true))

instance (db : Db) (userId : Uuid) : Decidable (CanSignIn db userId) :=
  inferInstanceAs (Decidable (_ ∨ _))

/-! ## What a login accepts -/

section Login

variable (env : Env) (headers : Headers) (req : LoginRequest) (idHash : String) {db : Db}
  {account : User} {results : {β : Type} → Stmt β → β}

end Login

/-! ## The requests of one user -/

/-- The identities one user asks to unlink. -/
def unlinkService (userId : Uuid) : Service Stmt Db Choice Uuid Response :=
  authService (unlinkIdentity userId)

abbrev UnlinkWorld : Type 1 := AuthWorld Uuid

abbrev UnlinkEvent : Type 1 := Event Stmt Uuid Response

/-- The request found a password. -/
def foundPassword : UnlinkEvent → Bool
  | .ran (.user (.hasLocalPassword _)) (.ok true) => true
  | _ => false

/-- The number of identities the request counted. -/
def counted : UnlinkEvent → Option Nat
  | .ran (.oidc (.countForUser _)) (.ok count) => some count
  | _ => none

/-- The identity that was unlinked. -/
def unlinked : UnlinkEvent → Option Uuid
  | .ran (.oidc (.unlink _ id)) (.ok true) => some id
  | _ => none

/-- The user's identities other than `id`. -/
def others (db : Db) (userId id : Uuid) : List OidcIdentity :=
  db.oidcIdentities.filter fun row => row.userId == userId && row.id != id

/-- The ways in which a removal locks the user out: the request was let through
for a password no login accepts, for a count that has fallen since, or for
identities whose providers are disabled. -/
inductive Lapse (userId : Uuid) (w : UnlinkWorld) (i : Nat) (id : Uuid) : Prop where
  | refusedPassword (hfound : ∃ event ∈ w.own i, foundPassword event = true)
      (hrefused : ¬ PasswordAccepted w.state userId)
      (hothers : ∀ row ∈ others w.state userId id, usableIdentity w.state userId row = false)
  | fallenCount (count : Nat) (hcounted : ∃ event ∈ w.own i, counted event = some count)
      (htwo : 2 ≤ count) (hrefused : ¬ PasswordAccepted w.state userId)
      (hgone : others w.state userId id = [])
  | disabledProviders (count : Nat) (hcounted : ∃ event ∈ w.own i, counted event = some count)
      (htwo : 2 ≤ count) (hrefused : ¬ PasswordAccepted w.state userId)
      (hleft : others w.state userId id ≠ [])
      (hdisabled : ∀ row ∈ others w.state userId id, usableIdentity w.state userId row = false)

/-- No removal is a lapse. -/
def NoLapse (userId : Uuid) (_ : Nat) (w w' : UnlinkWorld) : Prop :=
  ∀ i event id, w'.log = (i, event) :: w.log → unlinked event = some id → ¬ Lapse userId w i id

/-- Once an identity has been unlinked, the account can still be signed in to. -/
def StillOpen (userId : Uuid) (w : UnlinkWorld) : Prop :=
  (∃ entry ∈ w.log, (unlinked entry.2).isSome = true) → CanSignIn w.state userId

/-! ## What a statement changes -/

/-- What signing in depends on is the same in both states. -/
structure SameWays (db db' : Db) : Prop where
  users : db'.users = db.users
  identities : db'.oidcIdentities = db.oidcIdentities
  providers : db'.oidcProviders = db.oidcProviders
  switch : db'.localPasswordLoginDisabled = db.localPasswordLoginDisabled
  ldapEnabled : db'.ldapEnabled = db.ldapEnabled

theorem SameWays.advance (db : Db) (elapse : Nat) : SameWays db (db.advance elapse) :=
  ⟨rfl, rfl, rfl, rfl, rfl⟩

variable {db : Db}

theorem SameWays.passwordAccepted {db' : Db} (h : SameWays db db') (userId : Uuid) :
    PasswordAccepted db' userId ↔ PasswordAccepted db userId := by
  have haccepts : acceptsPassword db' = acceptsPassword db := by
    funext account
    simp only [acceptsPassword, h.switch, h.ldapEnabled]
  rw [PasswordAccepted, PasswordAccepted, h.users, haccepts]

theorem SameWays.usableIdentity {db' : Db} (h : SameWays db db') (userId : Uuid) :
    usableIdentity db' userId = usableIdentity db userId := by
  funext row
  simp only [Auth.usableIdentity, h.providers]

theorem SameWays.canSignIn {db' : Db} (h : SameWays db db') (userId : Uuid) :
    CanSignIn db' userId ↔ CanSignIn db userId := by
  rw [CanSignIn, CanSignIn, h.passwordAccepted, h.usableIdentity, h.identities]

/-- What an unlinking request may issue: statements that leave the ways to sign
in alone, and its own removal. -/
inductive MayUnlink (userId id : Uuid) : {β : Type} → Stmt β → Prop where
  | reads {β : Type} {stmt : Stmt β} (hsame : ∀ choice db, SameWays db (stmt.exec choice db).2)
      (hquiet : ∀ result, unlinked (.ran stmt result) = none) : MayUnlink userId id stmt
  | unlink : MayUnlink userId id (.oidc (.unlink userId id))

variable {userId : Uuid} {id : Uuid}

theorem mayUnlink_platform {β : Type} {stmt : PlatformStmt β} :
    MayUnlink userId id (.platform stmt) := by
  refine .reads (fun choice db => ?_) fun _ => rfl
  obtain ⟨_, _, _, heq⟩ := stmt.frame choice (db.advance choice.elapse)
  simp only [Stmt.exec, Stmt.effect, heq]
  exact ⟨rfl, rfl, rfl, rfl, rfl⟩

theorem mayUnlink_hasLocalPassword : MayUnlink userId id (.user (.hasLocalPassword userId)) := by
  refine .reads (fun choice db => ?_) fun _ => rfl
  exact attempt_state (P := SameWays db) (.advance db _) (.advance db _)

theorem mayUnlink_countForUser : MayUnlink userId id (.oidc (.countForUser userId)) := by
  refine .reads (fun choice db => ?_) fun _ => rfl
  exact attempt_state (P := SameWays db) (.advance db _) (.advance db _)

theorem unlink_mayUnlink (userId id : Uuid) :
    (unlinkIdentity userId id).Only (MayUnlink userId id) := by
  refine Prog.only_bind_except (Prog.only_call mayUnlink_platform) (fun _ => Prog.only_pure _)
    fun _ => ?_
  apply Prog.only_bind (Prog.only_call mayUnlink_hasLocalPassword)
  intro hasPassword
  apply Prog.only_bind (Prog.only_call mayUnlink_countForUser)
  intro count
  apply Prog.only_ite (Prog.only_pure _)
  refine Prog.only_bind_except (Prog.only_call .unlink) (fun _ => Prog.only_pure _)
    fun unlinked => ?_
  cases unlinked with
  | false => exact Prog.only_pure _
  | true => exact Prog.only_bind (Prog.only_call mayUnlink_platform) fun _ => Prog.only_pure _

variable {choice : Choice}

/-- A removal that went through leaves the user's other identities. -/
theorem canSignIn_unlink
    (hremoved : ((Stmt.oidc (.unlink userId id)).exec choice db).1 = .ok true) :
    CanSignIn ((Stmt.oidc (.unlink userId id)).exec choice db).2 userId ↔
      PasswordAccepted db userId ∨
        ∃ row ∈ others db userId id, usableIdentity db userId row = true := by
  cases hfault : choice.fault with
  | true =>
    simp only [Stmt.exec, Stmt.effect, OidcStmt.exec, attempt_error hfault] at hremoved
    contradiction
  | false =>
    simp only [Stmt.exec, Stmt.effect, OidcStmt.exec, attempt_ok hfault]
    refine or_congr Iff.rfl ?_
    constructor
    · rintro ⟨row, hmem, husable⟩
      obtain ⟨hold, hkept⟩ := mem_deleteWhere.mp hmem
      refine ⟨row, List.mem_filter.mpr ⟨hold, ?_⟩, husable⟩
      have howner : (row.userId == userId) = true := by
        simp only [usableIdentity, Bool.and_eq_true] at husable
        exact husable.1
      rw [howner, Bool.and_true] at hkept
      simp [howner, bne, hkept]
    · rintro ⟨row, hmem, husable⟩
      obtain ⟨hold, hother⟩ := List.mem_filter.mp hmem
      refine ⟨row, mem_deleteWhere.mpr ⟨hold, ?_⟩, husable⟩
      simp only [Bool.and_eq_true, bne_iff_ne] at hother
      simp [hother.2]

/-- A removal that failed, or found nothing, changes no way to sign in. -/
theorem sameWays_unlink (hmissed : ((Stmt.oidc (.unlink userId id)).exec choice db).1 ≠ .ok true) :
    SameWays db ((Stmt.oidc (.unlink userId id)).exec choice db).2 := by
  cases hfault : choice.fault with
  | true =>
    simp only [Stmt.exec, Stmt.effect, OidcStmt.exec, attempt_error hfault]
    exact .advance db choice.elapse
  | false =>
    simp only [Stmt.exec, Stmt.effect, OidcStmt.exec, attempt_ok hfault] at hmissed ⊢
    refine ⟨rfl, ?_, rfl, rfl, rfl⟩
    apply List.filter_eq_self.mpr
    intro row hmem
    rw [Bool.not_eq_true']
    by_contra hmatch
    refine hmissed (congrArg Except.ok (List.any_eq_true.mpr ⟨row, hmem, ?_⟩))
    simpa using hmatch

/-! ## The guard -/

/-- Every removal comes after a look that found a password or two identities. -/
def Guarded : List UnlinkEvent → Prop
  | [] => True
  | event :: earlier => ((unlinked event).isSome = true →
      (∃ found ∈ earlier, foundPassword found = true) ∨
        ∃ count ∈ earlier, ∃ n, counted count = some n ∧ 2 ≤ n) ∧ Guarded earlier

variable {events : List UnlinkEvent}

theorem Guarded.cons (h : Guarded events) (event : UnlinkEvent) (hevent : unlinked event = none) :
    Guarded (event :: events) := by
  refine ⟨fun hsome => ?_, h⟩
  rw [hevent] at hsome
  contradiction

theorem Guarded.remove (h : Guarded events) (userId id : Uuid) (removed : Except DbError Bool)
    (hseen : (∃ found ∈ events, foundPassword found = true) ∨
      ∃ count ∈ events, ∃ n, counted count = some n ∧ 2 ≤ n) :
    Guarded (.ran (.oidc (.unlink userId id)) removed :: events) := ⟨fun _ => hseen, h⟩

theorem tells_guarded (userId id : Uuid) (h : Guarded events) :
    (unlinkIdentity userId id).Tells Guarded (fun _ => Guarded) events := by
  have hdone : ∀ {answer : Response} {events : List UnlinkEvent}, Guarded events →
      (pure answer : Handler Response).Tells Guarded (fun _ => Guarded) events := fun h => h
  intro pool
  have h := h.cons (.ran (.platform .getPool) pool) rfl
  refine ⟨h, ?_⟩
  simp only [Prog.bind]
  cases pool with
  | error e => exact hdone h
  | ok _ =>
    intro hasPassword
    have h := h.cons (.ran (.user (.hasLocalPassword userId)) hasPassword) rfl
    refine ⟨h, fun count => ?_⟩
    have h := h.cons (.ran (.oidc (.countForUser userId)) count) rfl
    refine ⟨h, Prog.tells_dite (fun _ => hdone h) fun hguard removed => ?_⟩
    have hcount : ∀ n : Nat, decide (n ≤ 1) = false → 2 ≤ n := fun n hn =>
      Nat.lt_of_not_le (of_decide_eq_false hn)
    have hguarded := h.remove userId id removed (by
      rcases hasPassword with e | _ | _
      · right
        rcases count with e | n
        · simp [Except.toOption] at hguard
        · simp [Except.toOption] at hguard
          exact ⟨_, List.mem_cons_self, n, rfl, hcount n hguard⟩
      · right
        rcases count with e | n
        · simp [Except.toOption] at hguard
        · simp [Except.toOption] at hguard
          exact ⟨_, List.mem_cons_self, n, rfl, hcount n hguard⟩
      · left
        exact ⟨_, List.mem_cons_of_mem _ List.mem_cons_self, rfl⟩)
    refine ⟨hguarded, ?_⟩
    simp only [Prog.bind]
    rcases removed with e | _ | _
    · exact hdone hguarded
    · exact hdone hguarded
    · intro _
      have h' := hguarded.cons (.ran (.platform (.audit (some userId) "oidc_identity_unlinked")) ())
        rfl
      exact ⟨h', h'⟩

theorem tellsAll_guarded (userId : Uuid) : (unlinkService userId).TellsAll fun _ => Guarded := by
  intro id
  have hbegan : Guarded [.began id] := ⟨fun hsome => by contradiction, trivial⟩
  exact ⟨hbegan, (tells_guarded userId id hbegan).post fun _ _ h => h.cons _ rfl⟩

theorem guarded_run (userId : Uuid) (db : Db) (labels : List (Label Uuid Choice)) :
    ∀ entry ∈ ((unlinkService userId).run (initial db) labels).world.log,
      Guarded (((unlinkService userId).run (initial db) labels).world.own entry.1) := by
  intro entry hentry
  have hi := (unlinkService userId).started_run (Service.started_initial db) labels entry hentry
  exact (unlinkService userId).own_run (tellsAll_guarded userId) db labels _ _
    (List.getElem?_eq_getElem hi)

/-! ## Lapses -/

variable {w : UnlinkWorld} {i : Nat}

/-- A removal that was let through leaves no way to sign in exactly if it is a lapse. -/
theorem lapse_iff (userId id : Uuid) (hseen : (∃ found ∈ w.own i, foundPassword found = true) ∨
      ∃ count ∈ w.own i, ∃ n, counted count = some n ∧ 2 ≤ n) :
    Lapse userId w i id ↔ ¬ (PasswordAccepted w.state userId ∨
      ∃ row ∈ others w.state userId id, usableIdentity w.state userId row = true) := by
  constructor
  · intro hlapse hway
    cases hlapse with
    | refusedPassword hfound hrefused hothers =>
      rcases hway with haccepted | ⟨row, hmem, husable⟩
      · exact hrefused haccepted
      · rw [hothers row hmem] at husable
        contradiction
    | fallenCount count hcounted htwo hrefused hgone =>
      rcases hway with haccepted | ⟨row, hmem, husable⟩
      · exact hrefused haccepted
      · rw [hgone] at hmem
        contradiction
    | disabledProviders count hcounted htwo hrefused hleft hdisabled =>
      rcases hway with haccepted | ⟨row, hmem, husable⟩
      · exact hrefused haccepted
      · rw [hdisabled row hmem] at husable
        contradiction
  · intro hnone
    have hrefused : ¬ PasswordAccepted w.state userId := fun haccepted => hnone (Or.inl haccepted)
    have hothers : ∀ row ∈ others w.state userId id,
        usableIdentity w.state userId row = false := by
      intro row hmem
      by_contra husable
      exact hnone (Or.inr ⟨row, hmem, by simpa using husable⟩)
    rcases hseen with hfound | ⟨count, hmem, n, hcount, htwo⟩
    · exact .refusedPassword hfound hrefused hothers
    · by_cases hgone : others w.state userId id = []
      · exact .fallenCount n ⟨count, hmem, hcount⟩ htwo hrefused hgone
      · exact .disabledProviders n ⟨count, hmem, hcount⟩ htwo hrefused hgone hothers

theorem noLapse_of_none {j : Nat} {event : UnlinkEvent} (h : unlinked event = none) :
    NoLapse userId j w (w.record i event db) := by
  intro i' event' id hlog hunlinked
  rw [(Prod.mk.inj (List.cons.inj hlog).1).2.symm, h] at hunlinked
  contradiction

theorem stillOpen_of_none {event : UnlinkEvent} (hopen : StillOpen userId w)
    (h : unlinked event = none) (hsame : SameWays w.state db) :
    StillOpen userId (w.record i event db) := by
  rintro ⟨entry, hmem, hunlinked⟩
  rw [World.record_state, hsame.canSignIn]
  rcases List.mem_cons.mp hmem with rfl | hold
  · rw [h] at hunlinked
    contradiction
  · exact hopen ⟨entry, hold, hunlinked⟩

theorem stillOpen_unlink_iff {j : Nat} (hopen : StillOpen userId w) (hguarded : Guarded
      (((unlinkService userId).perform i (.oidc (.unlink userId id)) choice w).own i)) :
    StillOpen userId ((unlinkService userId).perform i (.oidc (.unlink userId id)) choice w) ↔
      NoLapse userId j w
        ((unlinkService userId).perform i (.oidc (.unlink userId id)) choice w) := by
  let stmt : Stmt (Except DbError Bool) := .oidc (.unlink userId id)
  simp only [Service.perform, World.own_record_self] at hguarded
  by_cases hremoved : (stmt.exec choice w.state).1 = .ok true
  · have hunlinked : unlinked (.ran stmt (stmt.exec choice w.state).1) = some id := by
      rw [hremoved]
      rfl
    have hlapse := lapse_iff userId id (hguarded.1 (by
      change (unlinked (.ran stmt (stmt.exec choice w.state).1)).isSome = true
      rw [hunlinked]
      rfl))
    have hopen_iff : StillOpen userId ((unlinkService userId).perform i stmt choice w) ↔
        CanSignIn (stmt.exec choice w.state).2 userId := by
      refine ⟨fun hopen => hopen ⟨_, List.mem_cons_self, ?_⟩, fun hway _ => hway⟩
      change (unlinked (.ran stmt (stmt.exec choice w.state).1)).isSome = true
      rw [hunlinked]
      rfl
    rw [hopen_iff, canSignIn_unlink hremoved, ← not_iff_not, ← hlapse]
    constructor
    · intro hlapsed hspared
      exact hspared i _ id rfl hunlinked hlapsed
    · intro hbroken
      by_contra hnone
      refine hbroken fun i' event id' hlog hevent hlapsed => hnone ?_
      obtain ⟨rfl, rfl⟩ := Prod.mk.inj (List.cons.inj hlog).1
      rw [← Option.some.inj (hunlinked.symm.trans hevent)] at hlapsed
      exact hlapsed
  · have hnone : unlinked (.ran stmt (stmt.exec choice w.state).1) = none := by
      rcases hresult : (stmt.exec choice w.state).1 with e | _ | _
      · rfl
      · rfl
      · exact absurd hresult hremoved
    exact iff_of_true (stillOpen_of_none hopen hnone (sameWays_unlink hremoved))
      (noLapse_of_none hnone)

theorem stillOpen_step_iff (db : Db) (labels : List (Label Uuid Choice))
    (label : Label Uuid Choice)
    (hopen : StillOpen userId ((unlinkService userId).run (initial db) labels).world) :
    StillOpen userId ((unlinkService userId).step
        ((unlinkService userId).run (initial db) labels) label).world ↔
      NoLapse userId (Service.actor ((unlinkService userId).run (initial db) labels) label)
        ((unlinkService userId).run (initial db) labels).world
        ((unlinkService userId).step
          ((unlinkService userId).run (initial db) labels) label).world := by
  have hguarded := guarded_run userId db (labels ++ [label])
  rw [Service.run_append] at hguarded
  simp only [Service.run_cons, Service.run_nil] at hguarded
  have hstep := (unlinkService userId).stepOf (P := fun id => MayUnlink userId id)
    ((unlinkService userId).attributed_run (unlink_mayUnlink userId)
      (Service.attributed_initial db) labels) label
  generalize ((unlinkService userId).step _ label).world = w' at *
  cases hstep with
  | void =>
    refine iff_of_true hopen fun i event id hlog => ?_
    exact absurd hlog.symm (List.cons_ne_self _ _)
  | began i id | answered i id answer hbegan =>
    exact iff_of_true (stillOpen_of_none hopen rfl (.advance _ 0)) (noLapse_of_none rfl)
  | issued i id stmt choice hbegan hmay =>
    cases hmay with
    | reads hsame hquiet =>
      exact iff_of_true (stillOpen_of_none hopen (hquiet _) (hsame choice _))
        (noLapse_of_none (hquiet _))
    | unlink => exact stillOpen_unlink_iff hopen (hguarded _ List.mem_cons_self)

/-- Unlinking leaves a way to sign in exactly as long as no removal is a lapse. -/
theorem unlink_leaves_way_iff (userId : Uuid) (db : Db) (labels : List (Label Uuid Choice)) :
    (unlinkService userId).Always (StillOpen userId) (initial db) labels ↔
      (unlinkService userId).Admits (NoLapse userId) (initial db) labels := by
  refine (unlinkService userId).always_iff_admits ?_
    (fun labels label hopen => stillOpen_step_iff db labels label hopen) labels
  rintro ⟨entry, hmem, _⟩
  contradiction

/-! ## A password nobody accepts -/

/-- Alice signs in by her one identity; the password form is switched off. -/
def ssoOnlyDb : Db :=
  { aliceDb with
    oidcProviders := [⟨1, "corp", true, "https://id.example.org", "", true, true, false⟩]
    oidcIdentities := [⟨2, 0, 1, "https://id.example.org", "alice", "alice@example.org"⟩]
    localPasswordLoginDisabled := true
    nextId := 3 }

/-- She may unlink it, since she has a password, and is locked out. -/
theorem unlink_locks_out :
    ¬ (unlinkService 0).Always (StillOpen 0) (initial ssoOnlyDb)
      (.start 2 :: List.replicate 6 (.run 0 {})) := by
  intro halways
  have hopen := halways _ [] (List.append_nil _).symm
  have hremoved : (((unlinkService 0).run (initial ssoOnlyDb)
      (.start 2 :: List.replicate 6 (.run 0 {}))).world.log.any fun entry =>
        (unlinked entry.2).isSome) = true := by decide +kernel
  have hlocked : ¬ CanSignIn ((unlinkService 0).run (initial ssoOnlyDb)
      (.start 2 :: List.replicate 6 (.run 0 {}))).world.state 0 := by decide +kernel
  exact hlocked (hopen (List.any_eq_true.mp hremoved))

end IntelliPilot.Auth
