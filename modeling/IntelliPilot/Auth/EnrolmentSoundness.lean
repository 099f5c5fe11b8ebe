import IntelliPilot.Auth.Enrolment

/-! # A confirmed secret was verified

The contract of runs in which no secret is replaced or removed while another
request is confirming it. In these runs `totp_confirm` confirms the very secret
it has checked a code against.
-/

namespace IntelliPilot.Auth

open Rows Statement Contract
open Service (initial)

/-- A correct code for the secret was presented to `totp_confirm`. -/
def Verified (env : Env) (w : EnrolmentWorld) (userId : Uuid) (enc : Bytes) : Prop :=
  ∃ i req pepper secret confirmed now, (i, .began (.totpConfirm userId (.ok req))) ∈ w.log ∧
    (i, .ran (.user (.getTotp userId)) (.ok (some (enc, confirmed)))) ∈ w.log ∧
    (i, .ran (.platform .now) now) ∈ w.log ∧ env.pepper = some pepper ∧
    env.decrypt pepper enc = some secret ∧ env.verifyTotp secret req.code now = true

/-- The account whose secret a statement of the log confirmed, or tried to. -/
def confirms : Event Stmt EnrolmentRequest Response → Option Uuid
  | .ran (.user (.confirmTotp id)) _ => some id
  | _ => none

/-- Program `i` has read the secret of an account to confirm it, and has neither
confirmed it nor answered. -/
structure Confirming (w : EnrolmentWorld) (i : Nat) (userId : Uuid) : Prop where
  began : ∃ body, (i, .began (.totpConfirm userId body)) ∈ w.log
  read : ∃ found, (i, .ran (.user (.getTotp userId)) (.ok (some found))) ∈ w.log
  unconfirmed : ∀ event, (i, event) ∈ w.log → confirms event ≠ some userId
  unanswered : w.Unanswered i

/-- A step that changes a secret does so while no other request is confirming it. -/
def ConfirmsAlone (i : Nat) (w w' : EnrolmentWorld) : Prop :=
  ∀ userId, secretOf w'.state userId ≠ secretOf w.state userId →
    ∀ j, j ≠ i → ¬ Confirming w j userId

/-- Every confirmed secret was verified. -/
def TotpInv (env : Env) (w : EnrolmentWorld) : Prop :=
  ∀ userId secret, totpOf w.state userId = some (secret, true) →
    ∃ enc, secret = some enc ∧ Verified env w userId enc

/-- What a program sees of the others: they leave its own log alone and the
secret it is confirming. -/
structure EnrolmentRely (i : Nat) (w w' : EnrolmentWorld) : Prop where
  log : ∀ entry ∈ w.log, entry ∈ w'.log
  own : ∀ event, (i, event) ∈ w'.log → (i, event) ∈ w.log
  secret : ∀ userId, Confirming w i userId → secretOf w'.state userId = secretOf w.state userId

variable {w : EnrolmentWorld} {w' : EnrolmentWorld} {userId : Uuid}

theorem Verified.mono {env : Env} (hlog : ∀ entry ∈ w.log, entry ∈ w'.log) {enc : Bytes}
    (h : Verified env w userId enc) : Verified env w' userId enc := by
  obtain ⟨i, req, pepper, secret, confirmed, now, hbegan, hread, hnow, hrest⟩ := h
  exact ⟨i, req, pepper, secret, confirmed, now, hlog _ hbegan, hlog _ hread, hlog _ hnow, hrest⟩

theorem Confirming.mono {i : Nat} (hlog : ∀ entry ∈ w.log, entry ∈ w'.log)
    (hown : ∀ event, (i, event) ∈ w'.log → (i, event) ∈ w.log) (h : Confirming w i userId) :
    Confirming w' i userId where
  began := h.began.imp fun _ hbegan => hlog _ hbegan
  read := h.read.imp fun _ hread => hlog _ hread
  unconfirmed event hevent := h.unconfirmed event (hown _ hevent)
  unanswered request answer hanswered := h.unanswered request answer (hown _ hanswered)

def enrolmentContract (env : Env) : Contract (enrolmentService env) where
  inv := TotpInv env
  allowed := ConfirmsAlone
  rely := EnrolmentRely
  guar := ConfirmsAlone
  rely_refl _ _ := ⟨fun _ h => h, fun _ h => h, fun _ _ => rfl⟩
  rely_trans _ _ _ _ h₁ h₂ :=
    { log := fun entry hentry => h₂.log entry (h₁.log entry hentry)
      own := fun event hevent => h₁.own event (h₂.own event hevent)
      secret := fun userId hconfirming =>
        (h₂.secret userId (hconfirming.mono h₁.log h₁.own)).trans (h₁.secret userId hconfirming) }
  guar_rely i j w w' hne _ _ hgrows halone :=
    { log := fun _ hentry => hgrows.mem hentry
      own := fun _ hevent => hgrows.own_iff.mp hevent
      secret := by
        intro userId hconfirming
        by_contra hchanged
        exact halone userId hchanged j (Ne.symm hne) hconfirming }

variable {env : Env} {i : Nat} {db : Db}

/-- A step that confirms no secret keeps the invariant. -/
theorem totpInv_record (hinv : TotpInv env w) {event : Event Stmt EnrolmentRequest Response}
    (hkept : ∀ userId secret, totpOf db userId = some (secret, true) →
      totpOf w.state userId = some (secret, true)) : TotpInv env (w.record i event db) := by
  intro userId secret hconfirmed
  obtain ⟨enc, hsecret, hverified⟩ := hinv userId secret (hkept userId secret hconfirmed)
  exact ⟨enc, hsecret, hverified.mono fun _ => List.mem_cons_of_mem _⟩

variable {β : Type} {request : EnrolmentRequest} {stmt : Stmt β}

/-- A statement other than `confirm_totp` confirms nothing. -/
theorem confirmed_of_issued (hmay : MayIssue request stmt)
    (hconfirm : ∀ userId body, request ≠ .totpConfirm userId body) (choice : Choice)
    {secret : Option Bytes}
    (hconfirmed : totpOf (stmt.exec choice db).2 userId = some (secret, true)) :
    totpOf db userId = some (secret, true) := by
  cases hmay with
  | keeps hkeeps => exact (hkeeps.totpOf choice db userId).symm.trans hconfirmed
  | confirms id body hrequest => exact absurd hrequest (hconfirm id body)
  | @replaces _ stmt id hrewrites hrequest =>
    have heffect : ∃ secret, totpEffect stmt = some (id, fun _ => (secret, false)) := by
      cases stmt with
      | setTotpSecret id' enc' =>
        obtain rfl := Option.some.inj hrewrites
        exact ⟨some enc', rfl⟩
      | disableTotp id' =>
        obtain rfl := Option.some.inj hrewrites
        exact ⟨none, rfl⟩
      | _ => simp [rewrites] at hrewrites
    obtain ⟨secret', heffect⟩ := heffect
    rcases totpOf_exec heffect choice db userId with hsame | ⟨_, hpair⟩
    · exact hsame.symm.trans hconfirmed
    · rw [hpair, Option.map_eq_some_iff] at hconfirmed
      obtain ⟨_, _, heq⟩ := hconfirmed
      simp at heq

/-- A request that confirms nothing meets the contract. -/
theorem meets_unconfirming (hconfirm : ∀ userId body, request ≠ .totpConfirm userId body)
    {p : Handler Response} (hp : p.Only (MayIssue request)) :
    (enrolmentContract env).Meets i request (fun _ => True) p := by
  have hcall : ∀ {β : Type} (stmt : Stmt β), MayIssue request stmt →
      (enrolmentContract env).Triple i (fun _ => True) (Prog.call stmt) fun _ _ => True := by
    intro β stmt hmay
    apply triple_call _ (stable_true _)
    intro w choice hinv _ hallowed
    exact ⟨totpInv_record hinv fun _ _ => confirmed_of_issued hmay hconfirm choice, hallowed,
      trivial⟩
  apply Contract.Triple.meets _ (triple_only _ hcall hp)
  intro answer
  apply Contract.Meets.done _ (stable_true _)
  intro w hinv _ hallowed
  exact ⟨totpInv_record hinv fun _ _ h => h, hallowed⟩

/-! ## `totp_confirm` -/

/-- A confirmation that has not confirmed anything yet. -/
structure Asked (i : Nat) (userId : Uuid) (req : TotpConfirmRequest) (w : EnrolmentWorld) :
    Prop where
  began : (i, .began (.totpConfirm userId (.ok req))) ∈ w.log
  unconfirmed : ∀ event, (i, event) ∈ w.log → confirms event ≠ some userId
  unanswered : w.Unanswered i

/-- A confirmation that has read the secret: it is still the stored one. -/
structure ReadSecret (i : Nat) (userId : Uuid) (req : TotpConfirmRequest) (enc : Bytes)
    (confirmed : Bool) (w : EnrolmentWorld) : Prop where
  asked : Asked i userId req w
  read : (i, .ran (.user (.getTotp userId)) (.ok (some (enc, confirmed)))) ∈ w.log
  stored : secretOf w.state userId = some enc

variable {userId : Uuid} {req : TotpConfirmRequest} {enc : Bytes} {confirmed : Bool}

theorem Asked.mono (hlog : ∀ entry ∈ w.log, entry ∈ w'.log)
    (hown : ∀ event, (i, event) ∈ w'.log → (i, event) ∈ w.log) (h : Asked i userId req w) :
    Asked i userId req w' where
  began := hlog _ h.began
  unconfirmed event hevent := h.unconfirmed event (hown _ hevent)
  unanswered request answer hanswered := h.unanswered request answer (hown _ hanswered)

theorem ReadSecret.confirming (h : ReadSecret i userId req enc confirmed w) :
    Confirming w i userId where
  began := ⟨_, h.asked.began⟩
  read := ⟨_, h.read⟩
  unconfirmed := h.asked.unconfirmed
  unanswered := h.asked.unanswered

theorem stable_asked : (enrolmentContract env).Stable i (Asked i userId req) :=
  fun _ _ hrely _ _ h => h.mono hrely.log hrely.own

theorem stable_readSecret :
    (enrolmentContract env).Stable i (ReadSecret i userId req enc confirmed) := by
  intro w w' hrely _ _ h
  refine ⟨h.asked.mono hrely.log hrely.own, hrely.log _ h.read, ?_⟩
  exact (hrely.secret userId h.confirming).trans h.stored

/-- A statement of its own other than `confirm_totp` leaves a confirmation as it was. -/
theorem Asked.perform (choice : Choice) (hstmt : ∀ result : β, confirms (.ran stmt result) = none)
    (h : Asked i userId req w) :
    Asked i userId req ((enrolmentService env).perform i stmt choice w) where
  began := List.mem_cons_of_mem _ h.began
  unconfirmed event hevent := by
    rcases List.mem_cons.mp hevent with heq | hold
    · rw [(Prod.mk.inj heq).2, hstmt]
      simp
    · exact h.unconfirmed event hold
  unanswered request answer hanswered := by
    rcases List.mem_cons.mp hanswered with heq | hold
    · exact absurd (Prod.mk.inj heq).2 (by simp)
    · exact h.unanswered request answer hold

theorem ReadSecret.perform (hkeeps : KeepsUsers stmt) (choice : Choice)
    (hstmt : ∀ result : β, confirms (.ran stmt result) = none)
    (h : ReadSecret i userId req enc confirmed w) :
    ReadSecret i userId req enc confirmed ((enrolmentService env).perform i stmt choice w) where
  asked := h.asked.perform choice hstmt
  read := List.mem_cons_of_mem _ h.read
  stored := by
    rw [Service.perform_state, secretOf]
    exact (congrArg (·.bind Prod.fst) (hkeeps.totpOf choice w.state userId)).trans h.stored

/-- A statement that leaves the accounts alone keeps the contract and teaches its
caller what `Q` says. -/
theorem triple_keepsUsers (hkeeps : KeepsUsers stmt) {K : EnrolmentWorld → Prop}
    {Q : β → EnrolmentWorld → Prop} (hstable : (enrolmentContract env).Stable i K)
    (hQ : ∀ w choice, K w → Q (stmt.exec choice w.state).1
      ((enrolmentService env).perform i stmt choice w)) :
    (enrolmentContract env).Triple i K (Prog.call stmt) Q := by
  apply triple_call _ hstable
  intro w choice hinv hK hallowed
  refine ⟨totpInv_record hinv ?_, hallowed, hQ w choice hK⟩
  intro userId secret hconfirmed
  exact (hkeeps.totpOf choice w.state userId).symm.trans hconfirmed

theorem getTotp_ok {choice : Choice}
    (h : ((Stmt.user (.getTotp userId)).exec choice db).1 = .ok (some (enc, confirmed))) :
    secretOf ((Stmt.user (.getTotp userId)).exec choice db).2 userId = some enc := by
  rw [secretOf, (keepsUsers_getTotp userId).totpOf, totpOf]
  simp only [Stmt.exec, Stmt.effect, UserStmt.exec] at h
  by_cases hfault : choice.fault = true
  · rw [attempt_error hfault] at h
    contradiction
  · rw [attempt_ok (by simpa using hfault)] at h
    have hfound := Except.ok.inj h
    simp only [Users.getTotp, Option.bind_eq_bind, Option.bind_eq_some_iff] at hfound
    obtain ⟨account, haccount, secret, hsecret, hpair⟩ := hfound
    obtain ⟨rfl, _⟩ := Prod.mk.inj (Option.some.inj hpair)
    rw [Db.advance_users] at haccount
    rw [haccount]
    exact hsecret

theorem triple_getTotp :
    (enrolmentContract env).Triple i (Asked i userId req) (user (.getTotp userId))
      fun result w => ∀ enc confirmed, result = .ok (some (enc, confirmed)) →
        ReadSecret i userId req enc confirmed w := by
  apply triple_keepsUsers (keepsUsers_getTotp userId) stable_asked
  intro w choice hasked enc confirmed hresult
  refine ⟨hasked.perform choice (fun _ => rfl), ?_, getTotp_ok hresult⟩
  rw [← hresult]
  exact List.mem_cons_self

theorem triple_now :
    (enrolmentContract env).Triple i (ReadSecret i userId req enc confirmed) (platform .now)
      fun now w => ReadSecret i userId req enc confirmed w ∧
        (i, .ran (.platform .now) now) ∈ w.log := by
  apply triple_keepsUsers (keepsUsers_of_other rfl) stable_readSecret
  intro w choice h
  exact ⟨h.perform (keepsUsers_of_other rfl) choice fun _ => rfl, List.mem_cons_self⟩

/-- Confirming the secret that was read and checked keeps the invariant. -/
theorem totpInv_confirm (hinv : TotpInv env w) (choice : Choice)
    (hstored : secretOf w.state userId = some enc) (hverified : Verified env w userId enc) :
    TotpInv env ((enrolmentService env).perform i (.user (.confirmTotp userId)) choice w) := by
  have hlog : ∀ entry ∈ w.log, entry ∈ ((enrolmentService env).perform i
      (.user (.confirmTotp userId)) choice w).log := fun _ hentry => List.mem_cons_of_mem _ hentry
  have heffect : totpEffect (.confirmTotp userId) = some (userId, fun pair => (pair.1, true)) := rfl
  intro userId' secret hconfirmed
  rcases totpOf_exec heffect choice w.state userId' with hsame | ⟨rfl, hpair⟩
  · obtain ⟨enc', hsecret, hverified'⟩ := hinv userId' secret (hsame.symm.trans hconfirmed)
    exact ⟨enc', hsecret, hverified'.mono hlog⟩
  · obtain ⟨pair, hbefore, hafter⟩ := Option.map_eq_some_iff.mp (hpair.symm.trans hconfirmed)
    rw [secretOf, hbefore] at hstored
    obtain ⟨rfl, _⟩ := Prod.mk.inj hafter
    exact ⟨enc, hstored, hverified.mono hlog⟩

theorem triple_confirmTotp {secret pepper : Bytes} {now : Time} (hpepper : env.pepper = some pepper)
    (hdecrypt : env.decrypt pepper enc = some secret)
    (hverify : env.verifyTotp secret req.code now = true) :
    (enrolmentContract env).Triple i (fun w => ReadSecret i userId req enc confirmed w ∧
        (i, .ran (.platform .now) now) ∈ w.log) (user (.confirmTotp userId)) fun _ _ => True := by
  have hstable : (enrolmentContract env).Stable i fun w =>
      ReadSecret i userId req enc confirmed w ∧ (i, .ran (.platform .now) now) ∈ w.log :=
    Contract.Stable.and _ stable_readSecret fun _ _ hrely _ _ h => hrely.log _ h
  apply triple_call _ hstable
  rintro w choice hinv ⟨hread, hnow⟩ hallowed
  refine ⟨totpInv_confirm hinv choice hread.stored ?_, hallowed, trivial⟩
  exact ⟨i, req, pepper, secret, confirmed, now, hread.asked.began, hread.read, hnow, hpepper,
    hdecrypt, hverify⟩

theorem triple_totpConfirm :
    (enrolmentContract env).Triple i (Asked i userId req) (totpConfirm env userId (.ok req))
      fun _ _ => True := by
  have hdone : ∀ {K : EnrolmentWorld → Prop} (answer : Response),
      (enrolmentContract env).Triple i K (pure answer) fun _ _ => True :=
    fun _ => triple_pure _ fun _ _ _ => trivial
  apply triple_ite
  · exact hdone _
  · split
    · exact hdone _
    · rename_i pepper hpepper
      have hpool : (enrolmentContract env).Triple i (Asked i userId req) (platform .getPool)
          fun _ => Asked i userId req :=
        triple_keepsUsers (keepsUsers_of_other rfl) stable_asked fun _ choice h =>
          h.perform choice fun _ => rfl
      apply triple_bind _ hpool
      intro pool
      cases pool with
      | error e => exact hdone _
      | ok _ =>
        apply triple_bind _ triple_getTotp
        intro found
        rcases found with e | _ | ⟨enc, confirmed⟩
        · exact hdone _
        · exact hdone _
        · apply triple_weaken _ _ fun w _ h => h enc confirmed rfl
          dsimp only
          split
          · exact hdone _
          · rename_i secret hdecrypt
            apply triple_bind _ triple_now
            intro now
            apply triple_dite
            · intro _
              exact hdone _
            · intro hverify
              apply triple_bind _ (triple_confirmTotp hpepper hdecrypt
                (by simpa using hverify))
              intro result
              cases result with
              | error e => exact hdone _
              | ok _ =>
                have hcall : ∀ {β : Type} (stmt : Stmt β), KeepsUsers stmt →
                    (enrolmentContract env).Triple i (fun _ => True) (Prog.call stmt)
                      fun _ _ => True := fun _ hkeeps =>
                  triple_keepsUsers hkeeps (stable_true _) fun _ _ _ => trivial
                exact triple_only _ hcall (reads_answerRecoveryCodes env userId _)

theorem enrolment_starts : (enrolmentContract env).Starts := by
  intro i request w hinv hfresh hallowed
  have hinv' : TotpInv env (w.record i (.began request) w.state) :=
    totpInv_record hinv fun _ _ h => h
  refine ⟨hinv', hallowed, ?_⟩
  have hother : (∀ userId body, request ≠ .totpConfirm userId body) →
      (enrolmentContract env).Safe i request (request.handler env)
        (w.record i (.began request) w.state) := fun hconfirm =>
    meets_unconfirming hconfirm (enrolment_mayIssue env request) _ hinv' trivial
  cases request with
  | totpStart userId | totpDisable userId | resetTwoFactor adminId userId => exact hother (by simp)
  | totpConfirm userId body =>
    have hmeets : ∀ {K : EnrolmentWorld → Prop}, (enrolmentContract env).Triple i K
        (totpConfirm env userId body) (fun _ _ => True) →
        (enrolmentContract env).Meets i (.totpConfirm userId body) K
          (totpConfirm env userId body) := by
      intro K htriple
      apply Contract.Triple.meets _ htriple
      intro answer
      apply Contract.Meets.done _ (stable_true _)
      intro w hinv _ hallowed
      exact ⟨totpInv_record hinv fun _ _ h => h, hallowed⟩
    cases body with
    | error rejection =>
      have hpure : (enrolmentContract env).Triple i (fun _ => True)
          (totpConfirm env userId (.error rejection)) fun _ _ => True :=
        triple_pure _ fun _ _ _ => trivial
      exact hmeets hpure _ hinv' trivial
    | ok req =>
      apply hmeets triple_totpConfirm _ hinv'
      refine ⟨List.mem_cons_self, ?_, ?_⟩
      · intro event hevent
        rcases List.mem_cons.mp hevent with heq | hold
        · rw [(Prod.mk.inj heq).2]
          simp [confirms]
        · exact absurd rfl (hfresh _ hold)
      · intro request answer hanswered
        rcases List.mem_cons.mp hanswered with heq | hold
        · exact absurd (Prod.mk.inj heq).2 (by simp)
        · exact hfresh _ hold rfl

/-! ## Runs -/

theorem totpOf_withoutTotp (db : Db) (userId : Uuid) {secret : Option Bytes} :
    totpOf db.withoutTotp userId ≠ some (secret, true) := by
  intro h
  obtain ⟨account, haccount, hpair⟩ := Option.map_eq_some_iff.mp h
  obtain ⟨old, _, rfl⟩ := List.mem_map.mp (List.mem_of_find?_eq_some haccount)
  simp at hpair

/-- Enrolment is sound: in a run in which no secret changes while another request
is confirming it, every confirmed secret was verified; and in every run a
confirmed factor stays in force until a `totp_start`, `totp_disable` or
`reset_two_factor` of its account writes the row. -/
theorem enrolment_sound (env : Env) (db : Db) (first second : List (Label EnrolmentRequest Choice)) :
    let before := (enrolmentService env).run (initial db.withoutTotp) first
    let cfg := (enrolmentService env).run before second
    ((enrolmentService env).Admits ConfirmsAlone (initial db.withoutTotp)
        (first ++ second) → TotpInv env cfg.world) ∧
      ∀ userId enc, InForce before.world.state userId enc →
        StillInForce before.world.log userId enc cfg.world := by
  intro before cfg
  constructor
  · intro hadmits
    have hinitial : TotpInv env ⟨db.withoutTotp, []⟩ := fun userId secret hconfirmed =>
      absurd hconfirmed (totpOf_withoutTotp db userId)
    have h := (enrolmentContract env).inv_run enrolment_starts hinitial (first ++ second) hadmits
    rwa [Service.run_append] at h
  · intro userId enc hforce
    have hattributed : Service.Attributed MayIssue before :=
      (enrolmentService env).attributed_run (enrolment_mayIssue env)
        (Service.attributed_initial _) first
    exact inForce_run env hattributed hforce second

/-! ## Concrete runs -/

/-- The columns that decide which secret an account has. -/
def secretColumns (account : User) : Uuid × Bool × Option Bytes :=
  (account.id, Users.live account, account.totpSecretEnc)

/-- Either no confirmation is under way, or no secret changes. -/
def aloneStep (w w' : EnrolmentWorld) : Bool :=
  w.settled (fun request => request.replaces.isNone) ||
    decide (w'.state.users.map secretColumns = w.state.users.map secretColumns)

theorem secretOf_eq_of_map {db' : Db} (h : db'.users.map secretColumns = db.users.map secretColumns)
    (userId : Uuid) : secretOf db' userId = secretOf db userId := by
  have hread : ∀ db : Db, secretOf db userId =
      ((db.users.map secretColumns).find? fun row => row.1 == userId && row.2.1).bind (·.2.2) := by
    intro db
    rw [List.find?_map, Option.bind_map, secretOf, totpOf, Option.bind_map]
    rfl
  rw [hread, hread, h]

theorem confirmsAlone_of_aloneStep (i : Nat) (w w' : EnrolmentWorld)
    (htest : aloneStep w w' = true) : ConfirmsAlone i w w' := by
  rw [aloneStep, Bool.or_eq_true, decide_eq_true_eq] at htest
  intro userId hchanged j _ hconfirming
  rcases htest with hsettled | hsame
  · obtain ⟨body, hbegan⟩ := hconfirming.began
    exact World.not_unanswered_of_settled hsettled hbegan rfl hconfirming.unanswered
  · exact hchanged (secretOf_eq_of_map hsame userId)

/-- Alice enrols the secret `123456` and confirms it with the code of that name. -/
def enrolled : List (Label EnrolmentRequest Choice) :=
  .start (.totpStart 0) :: List.replicate 6 (.run 0 { randomBytes := bytesOf "123456" }) ++
    .start (.totpConfirm 0 (.ok ⟨"123456"⟩)) :: List.replicate 27 (.run 1 {})

/-- Alice starts over with the secret `654321` and leaves it at that. -/
def restarted : List (Label EnrolmentRequest Choice) :=
  .start (.totpStart 0) :: List.replicate 6 (.run 2 { randomBytes := bytesOf "654321" })

/-- After Alice's enrolment her factor is in force, verified, and stays so until
she starts over. -/
theorem enrolment_sound_enrolled :
    let before := (enrolmentService Env.transparent).run (initial aliceDb.withoutTotp)
      enrolled
    InForce before.world.state 0 (bytesOf "123456") ∧
      Verified Env.transparent before.world 0 (bytesOf "123456") ∧
      StillInForce before.world.log 0 (bytesOf "123456")
        ((enrolmentService Env.transparent).run before restarted).world := by
  have hforce : InForce ((enrolmentService Env.transparent).run
      (initial aliceDb.withoutTotp) enrolled).world.state 0 (bytesOf "123456") := by
    rw [InForce]
    decide +kernel
  refine ⟨hforce, ?_, (enrolment_sound Env.transparent aliceDb enrolled restarted).2 0 _ hforce⟩
  have hadmits : (enrolmentService Env.transparent).Admits ConfirmsAlone
      (initial aliceDb.withoutTotp) (enrolled ++ []) :=
    Service.admits_of_tested _ confirmsAlone_of_aloneStep (by decide +kernel)
  have hsound := (enrolment_sound Env.transparent aliceDb enrolled []).1 hadmits
  rw [Service.run_nil] at hsound
  obtain ⟨enc, heq, hverified⟩ := hsound 0 _ hforce
  rw [Option.some.inj heq]
  exact hverified

/-- A factor that is in force after `first` is in force after `first ++ second`
unless a `totp_disable` or `reset_two_factor` of its account has succeeded. -/
def StaysInForce (env : Env) (db : Db) (first second : List (Label EnrolmentRequest Choice)) :
    Prop :=
  let before := (enrolmentService env).run (initial db.withoutTotp) first
  let cfg := (enrolmentService env).run before second
  ∀ userId enc, InForce before.world.state userId enc →
    (∃ enc', InForce cfg.world.state userId enc') ∨
      ∃ i request response, Service.Answered cfg i request response ∧
        (request = .totpDisable userId ∧ response.status = 204 ∨
          ∃ adminId, request = .resetTwoFactor adminId userId ∧ response.status = 200)

/-- Starting a new enrolment and abandoning it leaves Alice without her factor. -/
theorem enrolment_abandoned : ¬ StaysInForce Env.transparent aliceDb enrolled restarted := by
  intro hstays
  have hpair : totpOf ((enrolmentService Env.transparent).run ((enrolmentService
      Env.transparent).run (initial aliceDb.withoutTotp) enrolled) restarted).world.state 0 =
      some (some (bytesOf "654321"), false) := by decide +kernel
  have hrequests : ((enrolmentService Env.transparent).run ((enrolmentService
      Env.transparent).run (initial aliceDb.withoutTotp) enrolled) restarted).threads.map
      (·.request) = [.totpStart 0, .totpConfirm 0 (.ok ⟨"123456"⟩), .totpStart 0] := by
    decide +kernel
  rcases hstays 0 (bytesOf "123456") (by rw [InForce]; decide +kernel) with
    ⟨enc, hforce⟩ | ⟨i, request, response, ⟨todo, hthread⟩, hrequest⟩
  · rw [InForce, hpair] at hforce
    simp at hforce
  · have hmem := List.mem_map_of_mem (f := (·.request)) (List.mem_of_getElem? hthread)
    rw [hrequests] at hmem
    rcases hrequest with ⟨rfl, _⟩ | ⟨adminId, rfl, _⟩
    · simp at hmem
    · simp at hmem

end IntelliPilot.Auth
