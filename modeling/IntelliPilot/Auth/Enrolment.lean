import IntelliPilot.Auth.AccountHandlers
import IntelliPilot.Auth.Frames

/-! # TOTP enrolment

One row holds an account's secret and whether it is confirmed. `totp_start`
replaces the secret and leaves it unconfirmed, `totp_confirm` reads the secret,
checks a code against it and confirms whatever secret is there by then. So a
confirmed secret is one a code was presented for as long as nobody replaces a
secret while it is being confirmed.
-/

namespace IntelliPilot.Auth

open Rows Statement Prog

/-- The enrolment requests, with the account each acts on. -/
inductive EnrolmentRequest where
  | totpStart (userId : Uuid)
  | totpConfirm (userId : Uuid) (body : Except JsonRejection TotpConfirmRequest)
  | totpDisable (userId : Uuid)
  | resetTwoFactor (adminId userId : Uuid)
  deriving DecidableEq

def EnrolmentRequest.handler (env : Env) : EnrolmentRequest → Handler Response
  | .totpStart userId => Auth.totpStart env userId
  | .totpConfirm userId body => Auth.totpConfirm env userId body
  | .totpDisable userId => Auth.totpDisable userId
  | .resetTwoFactor adminId userId => Auth.resetTwoFactor adminId userId

/-- The account whose secret a request replaces or removes. -/
def EnrolmentRequest.replaces : EnrolmentRequest → Option Uuid
  | .totpStart userId => some userId
  | .totpConfirm _ _ => none
  | .totpDisable userId => some userId
  | .resetTwoFactor _ userId => some userId

def enrolmentService (env : Env) : Service Stmt Db Choice EnrolmentRequest Response :=
  authService (EnrolmentRequest.handler env)

abbrev EnrolmentWorld : Type 1 := AuthWorld EnrolmentRequest

/-! ## The row of an account -/

/-- The stored secret of a live account and whether it is confirmed. -/
def totpOf (db : Db) (userId : Uuid) : Option (Option Bytes × Bool) :=
  (db.users.find? (Users.liveId userId)).map fun account =>
    (account.totpSecretEnc, account.totpConfirmedAt.isSome)

/-- The stored secret, confirmed or not. -/
def secretOf (db : Db) (userId : Uuid) : Option Bytes := (totpOf db userId).bind Prod.fst

/-- The confirmed second factor of an account. -/
def InForce (db : Db) (userId : Uuid) (enc : Bytes) : Prop :=
  totpOf db userId = some (some enc, true)

theorem totpOf_congr {db db' : Db} (h : db'.users = db.users) (userId : Uuid) :
    totpOf db' userId = totpOf db userId := by rw [totpOf, totpOf, h]

variable {g : Option Bytes × Bool → Option Bytes × Bool}

/-- An update of one live account, as the pair of its TOTP columns sees it. -/
theorem totpOf_modify {f : User → User}
    (hlive : ∀ userId account, Users.liveId userId (f account) = Users.liveId userId account)
    (hpair : ∀ account, ((f account).totpSecretEnc, (f account).totpConfirmedAt.isSome) =
      g (account.totpSecretEnc, account.totpConfirmedAt.isSome)) (db : Db) (id userId : Uuid) :
    totpOf (Users.modify (Users.liveId id) f db) userId =
      if id = userId then (totpOf db userId).map g else totpOf db userId := by
  simp only [totpOf, Users.modify]
  rw [find?_updateWhere (hlive userId), Option.map_map]
  cases hfind : db.users.find? (Users.liveId userId) with
  | none => simp
  | some account =>
    have hfound : account.id = userId ∧ Users.live account = true := by
      simpa [Users.liveId] using List.find?_some hfind
    have hmatch : Users.liveId id account = true ↔ id = userId := by
      rw [Users.liveId, hfound.1, hfound.2, Bool.and_true, beq_iff_eq]
      exact eq_comm
    simp only [Option.map_some, Function.comp_apply, hmatch]
    by_cases hid : id = userId
    · rw [if_pos hid, if_pos hid, hpair]
    · rw [if_neg hid, if_neg hid]

/-- The account a TOTP statement writes and what it makes of the pair. -/
def totpEffect : {β : Type} → UserStmt β →
    Option (Uuid × (Option Bytes × Bool → Option Bytes × Bool))
  | _, .setTotpSecret id secretEnc => some (id, fun _ => (some secretEnc, false))
  | _, .confirmTotp id => some (id, fun pair => (pair.1, true))
  | _, .disableTotp id => some (id, fun _ => (none, false))
  | _, _ => none

variable {β : Type}

/-- The three TOTP statements act on the row of their account, or fail. -/
theorem totpOf_exec {stmt : UserStmt β} {id : Uuid} (heffect : totpEffect stmt = some (id, g))
    (choice : Choice) (db : Db) (userId : Uuid) :
    totpOf ((Stmt.user stmt).exec choice db).2 userId = totpOf db userId ∨
      id = userId ∧
        totpOf ((Stmt.user stmt).exec choice db).2 userId = (totpOf db userId).map g := by
  have hattempt : ∀ f : Db → User → User,
      (∀ db userId account, Users.liveId userId (f db account) = Users.liveId userId account) →
      (∀ db account, ((f db account).totpSecretEnc, (f db account).totpConfirmedAt.isSome) =
        g (account.totpSecretEnc, account.totpConfirmedAt.isSome)) →
      let db' := (attempt choice (db.advance choice.elapse) fun db =>
        ((.ok () : Except DbError Unit), Users.modify (Users.liveId id) (f db) db)).2
      totpOf db' userId = totpOf db userId ∨
        id = userId ∧ totpOf db' userId = (totpOf db userId).map g := by
    intro f hlive hpair
    let P : Db → Prop := fun db' => totpOf db' userId = totpOf db userId ∨
      id = userId ∧ totpOf db' userId = (totpOf db userId).map g
    apply attempt_state (P := P)
    · exact Or.inl rfl
    · have hmodify := totpOf_modify (hlive (db.advance choice.elapse))
        (hpair (db.advance choice.elapse)) (db.advance choice.elapse) id userId
      by_cases hid : id = userId
      · rw [if_pos hid] at hmodify
        exact Or.inr ⟨hid, hmodify⟩
      · rw [if_neg hid] at hmodify
        exact Or.inl hmodify
  cases stmt with
  | setTotpSecret id' enc | confirmTotp id' | disableTotp id' =>
    obtain ⟨rfl, rfl⟩ := Prod.mk.inj (Option.some.inj heffect)
    exact hattempt _ (by intros; rfl) (by intros; rfl)
  | _ => simp [totpEffect] at heffect

/-- The statements that leave the account table alone. -/
def KeepsUsers {β : Type} (stmt : Stmt β) : Prop :=
  ∀ choice db, (stmt.exec choice db).2.users = db.users

variable {stmt : Stmt β}

theorem KeepsUsers.totpOf (h : KeepsUsers stmt) (choice : Choice) (db : Db) (userId : Uuid) :
    totpOf (stmt.exec choice db).2 userId = totpOf db userId :=
  totpOf_congr (h choice db) userId

theorem keepsUsers_of_other (hstmt : stmt.isUser = false) :
    KeepsUsers stmt := fun choice db => (Stmt.unchanged _ choice db).users hstmt

theorem keepsUsers_findById (id : Uuid) : KeepsUsers (.user (.findById id)) := by
  intro choice db
  let P : Db → Prop := fun db' => db'.users = db.users
  exact attempt_state (P := P) rfl rfl

theorem keepsUsers_getTotp (id : Uuid) : KeepsUsers (.user (.getTotp id)) := by
  intro choice db
  let P : Db → Prop := fun db' => db'.users = db.users
  exact attempt_state (P := P) rfl rfl

/-! ## What each request issues -/

/-- The account whose secret a statement replaces or removes. -/
def rewrites : {β : Type} → Stmt β → Option Uuid
  | _, .user (.setTotpSecret id _) => some id
  | _, .user (.disableTotp id) => some id
  | _, _ => none

/-- What an enrolment request may issue: only the requests that replace a
secret write one, and only `totp_confirm` confirms. -/
inductive MayIssue (request : EnrolmentRequest) : {β : Type} → Stmt β → Prop where
  | keeps {β : Type} {stmt : Stmt β} (hkeeps : KeepsUsers stmt) : MayIssue request stmt
  | replaces {β : Type} {stmt : UserStmt β} {userId : Uuid}
      (hrewrites : rewrites (.user stmt) = some userId) (hrequest : request.replaces = some userId) :
      MayIssue request (.user stmt)
  | confirms (userId : Uuid) (body : Except JsonRejection TotpConfirmRequest)
      (hrequest : request = .totpConfirm userId body) :
      MayIssue request (.user (.confirmTotp userId))

/-- Programs that leave the account table alone. -/
def Reads {α : Type} (p : Handler α) : Prop := p.Only KeepsUsers

theorem reads_platform (stmt : PlatformStmt β) : Reads (platform stmt) :=
  only_call (keepsUsers_of_other rfl)

theorem reads_factor (stmt : FactorStmt β) : Reads (factor stmt) :=
  only_call (keepsUsers_of_other rfl)

theorem reads_generateSet (env : Env) (n : Nat) : Reads (generateSet env n) := by
  induction n with
  | zero => exact only_pure _
  | succ n ih =>
    apply only_bind (reads_platform _)
    intro plaintext
    apply only_bind (reads_platform _)
    intro salt
    split
    · exact only_pure _
    · exact only_bind ih fun _ => only_pure _

theorem reads_answerRecoveryCodes (env : Env) (userId : Uuid) (action : String) :
    Reads (answerRecoveryCodes env userId action) := by
  have hstore : Reads (generateAndStoreRecoveryCodes env userId) := by
    apply only_bind (reads_generateSet env _)
    intro codes
    cases codes with
    | none => exact only_pure _
    | some codes =>
      refine only_bind_except (reads_factor _) (fun _ => only_pure _) fun _ => ?_
      exact only_pure _
  refine only_bind_except hstore (fun _ => only_pure _) fun codes => ?_
  exact only_bind (reads_platform _) fun _ => only_pure _

theorem Reads.mayIssue {α : Type} {p : Handler α} (h : Reads p) (request : EnrolmentRequest) :
    p.Only (MayIssue request) := h.mono fun _ hkeeps => .keeps hkeeps

theorem mayIssue_totpStart (env : Env) (userId : Uuid) :
    (totpStart env userId).Only (MayIssue (.totpStart userId)) := by
  unfold totpStart
  split
  · exact only_pure _
  · refine only_bind_except ((reads_platform _).mayIssue _) (fun _ => only_pure _)
      fun _ => ?_
    refine only_bind_found (only_call (.keeps (keepsUsers_findById userId)))
      (fun _ => only_pure _) (only_pure _) fun account => ?_
    apply only_bind ((reads_platform _).mayIssue _)
    intro secret
    apply only_bind ((reads_platform _).mayIssue _)
    intro nonce
    split
    · exact only_pure _
    · refine only_bind_except (only_call (.replaces rfl rfl)) (fun _ => only_pure _)
        fun _ => ?_
      dsimp only
      split
      · exact only_pure _
      · exact only_pure _

theorem mayIssue_totpConfirm (env : Env) (userId : Uuid)
    (body : Except JsonRejection TotpConfirmRequest) :
    (totpConfirm env userId body).Only (MayIssue (.totpConfirm userId body)) := by
  unfold totpConfirm
  split
  · exact only_pure _
  · apply only_ite
    · exact only_pure _
    · split
      · exact only_pure _
      · refine only_bind_except ((reads_platform _).mayIssue _) (fun _ => only_pure _)
          fun _ => ?_
        apply only_bind (only_call (.keeps (keepsUsers_getTotp userId)))
        intro found
        rcases found with e | _ | ⟨enc, confirmed⟩
        · exact only_pure _
        · exact only_pure _
        · dsimp only
          split
          · exact only_pure _
          · apply only_bind ((reads_platform _).mayIssue _)
            intro now
            apply only_ite
            · exact only_pure _
            · refine only_bind_except (only_call (.confirms userId _ rfl))
                (fun _ => only_pure _) fun _ => ?_
              exact (reads_answerRecoveryCodes env userId _).mayIssue _

theorem mayIssue_totpDisable (userId : Uuid) :
    (totpDisable userId).Only (MayIssue (.totpDisable userId)) := by
  refine only_bind_except ((reads_platform _).mayIssue _) (fun _ => only_pure _)
    fun _ => ?_
  refine only_bind_except (only_call (.replaces rfl rfl)) (fun _ => only_pure _)
    fun _ => ?_
  apply only_bind ((reads_platform _).mayIssue _)
  intro _
  exact only_pure _

theorem mayIssue_resetTwoFactor (adminId userId : Uuid) :
    (resetTwoFactor adminId userId).Only (MayIssue (.resetTwoFactor adminId userId)) := by
  refine only_bind_except ((reads_platform _).mayIssue _) (fun _ => only_pure _)
    fun _ => ?_
  refine only_bind_found (only_call (.keeps (keepsUsers_findById userId)))
    (fun _ => only_pure _) (only_pure _) fun account => ?_
  apply only_bind (only_call (.keeps (keepsUsers_getTotp userId)))
  intro totp
  refine only_bind_except (only_call (.replaces rfl rfl)) (fun _ => only_pure _)
    fun _ => ?_
  refine only_bind_except ((reads_factor _).mayIssue _) (fun _ => only_pure _)
    fun passkeys => ?_
  refine only_bind_except ((reads_factor _).mayIssue _) (fun _ => only_pure _)
    fun codes => ?_
  apply only_bind (only_call (.keeps (keepsUsers_of_other rfl)))
  intro revoked
  apply only_bind ((reads_platform _).mayIssue _)
  intro _
  exact only_pure _

theorem enrolment_mayIssue (env : Env) (request : EnrolmentRequest) :
    (request.handler env).Only (MayIssue request) := by
  cases request with
  | totpStart userId => exact mayIssue_totpStart env userId
  | totpConfirm userId body => exact mayIssue_totpConfirm env userId body
  | totpDisable userId => exact mayIssue_totpDisable userId
  | resetTwoFactor adminId userId => exact mayIssue_resetTwoFactor adminId userId

/-! ## A confirmed factor stays until it is replaced -/

/-- A request of the account in `userId` has replaced or removed its secret in
the part `new` of the log. -/
def Replaced (w : EnrolmentWorld) (new : List (Nat × Event Stmt EnrolmentRequest Response))
    (userId : Uuid) : Prop :=
  ∃ i request, ∃ β : Type, ∃ stmt : Stmt β, ∃ result : β, (i, .ran stmt result) ∈ new ∧
    rewrites stmt = some userId ∧ (i, .began request) ∈ w.log ∧ request.replaces = some userId

variable {userId : Uuid} {enc : Bytes}

/-- The pair of columns a TOTP statement writes is no longer in force only if
the statement replaces the secret. -/
theorem inForce_issued {request : EnrolmentRequest} (hmay : MayIssue request stmt) (choice : Choice)
    {db : Db} (hforce : InForce db userId enc) :
    InForce (stmt.exec choice db).2 userId enc ∨
      rewrites stmt = some userId ∧ request.replaces = some userId := by
  cases hmay with
  | keeps hkeeps => exact Or.inl ((hkeeps.totpOf choice db userId).trans hforce)
  | @replaces _ stmt id hrewrites hrequest =>
    have heffect : ∃ g, totpEffect stmt = some (id, g) := by
      cases stmt with
      | setTotpSecret id' enc' | disableTotp id' =>
        obtain rfl := Option.some.inj hrewrites
        exact ⟨_, rfl⟩
      | _ => simp [rewrites] at hrewrites
    obtain ⟨g, heffect⟩ := heffect
    rcases totpOf_exec heffect choice db userId with hsame | ⟨rfl, _⟩
    · exact Or.inl (hsame.trans hforce)
    · exact Or.inr ⟨hrewrites, hrequest⟩
  | confirms id body hrequest =>
    left
    have heffect : totpEffect (.confirmTotp id) = some (id, fun pair => (pair.1, true)) := rfl
    rcases totpOf_exec heffect choice db userId with hsame | ⟨rfl, hpair⟩
    · exact hsame.trans hforce
    · rw [InForce, hpair, hforce]
      rfl

theorem Replaced.mono {w w' : EnrolmentWorld}
    {new new' : List (Nat × Event Stmt EnrolmentRequest Response)}
    (hlog : ∀ entry ∈ w.log, entry ∈ w'.log) (hnew : ∀ entry ∈ new, entry ∈ new')
    (h : Replaced w new userId) : Replaced w' new' userId := by
  obtain ⟨i, request, β, stmt, result, hran, hrewrites, hbegan, hrequest⟩ := h
  exact ⟨i, request, β, stmt, result, hnew _ hran, hrewrites, hlog _ hbegan, hrequest⟩

/-- The state of a factor that was in force when the log was `old`. -/
def StillInForce (old : List (Nat × Event Stmt EnrolmentRequest Response)) (userId : Uuid)
    (enc : Bytes) (w : EnrolmentWorld) : Prop :=
  ∃ new, w.log = new ++ old ∧ (InForce w.state userId enc ∨ Replaced w new userId)

theorem stillInForce_step {env : Env} {old : List (Nat × Event Stmt EnrolmentRequest Response)}
    {w w' : EnrolmentWorld} (hstep : Service.StepOf (enrolmentService env) MayIssue w w')
    (h : StillInForce old userId enc w) : StillInForce old userId enc w' := by
  obtain ⟨new, hlog, hforce⟩ := h
  have hgrown : ∀ i event db, (InForce db userId enc ∨
      Replaced (w.record i event db) ((i, event) :: new) userId) →
      StillInForce old userId enc (w.record i event db) := by
    intro i event db h
    exact ⟨(i, event) :: new, by rw [World.record_log, hlog, List.cons_append], h⟩
  have hold : ∀ i event db, Replaced w new userId →
      Replaced (w.record i event db) ((i, event) :: new) userId := by
    intro i event db h
    exact h.mono (fun _ => List.mem_cons_of_mem _) fun _ => List.mem_cons_of_mem _
  cases hstep with
  | void => exact ⟨new, hlog, hforce⟩
  | began i request
  | answered i request answer hbegan => exact hgrown _ _ _ (hforce.imp_right (hold _ _ _))
  | @issued β i request stmt choice hbegan hmay =>
    apply hgrown
    rcases hforce with hforce | hreplaced
    · rcases inForce_issued hmay choice hforce with hkept | ⟨hrewrites, hrequest⟩
      · exact Or.inl hkept
      · exact Or.inr ⟨i, request, β, stmt, _, List.mem_cons_self, hrewrites,
          List.mem_cons_of_mem _ hbegan, hrequest⟩
    · exact Or.inr (hold _ _ _ hreplaced)

/-- A confirmed factor stays in force until a request of its account replaces it. -/
theorem inForce_run (env : Env) {cfg : Config Stmt Db EnrolmentRequest Response}
    (hattributed : Service.Attributed MayIssue cfg) (hforce : InForce cfg.world.state userId enc)
    (labels : List (Label EnrolmentRequest Choice)) :
    StillInForce cfg.world.log userId enc ((enrolmentService env).run cfg labels).world :=
  (enrolmentService env).stepOf_run (enrolment_mayIssue env) (fun _ _ => stillInForce_step)
    hattributed ⟨[], rfl, Or.inl hforce⟩ labels

end IntelliPilot.Auth
