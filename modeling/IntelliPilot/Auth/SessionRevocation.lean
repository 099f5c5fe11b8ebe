import IntelliPilot.Auth.RevocationSteps

/-! # When revocation is final

A run whose revocations all come while no other refresh of the family is in
flight never answers a refresh after its family was revoked. Without that
condition a refresh that has looked its token up before a logout still
succeeds after it.
-/

namespace IntelliPilot.Auth

open Rows Statement
open Service (initial)

variable {κ : Type} {env : Env} {presented : κ → Option String} {handler : κ → Handler Response}

/-! ## Steps and runs -/

/-- Revocations last, tokens persist, and an answer given now is to a token of an
open family. -/
theorem revocation_step (hstarts : (revocationContract env presented handler).Starts)
    {cfg : Config Stmt Db κ Response}
    (hgood : (revocationContract env presented handler).Good cfg) (label : Label κ Choice)
    (hallowed : (revocationContract env presented handler).allowed (Service.actor cfg label)
      cfg.world ((authService handler).step cfg label).world) :
    TokensPersist cfg.world.state ((authService handler).step cfg label).world.state ∧
    (∀ family, revoked cfg.world.state family = true →
      revoked ((authService handler).step cfg label).world.state family = true) ∧
    ∀ i request response raw,
      Service.Answered ((authService handler).step cfg label) i request response →
      presented request = some raw → response.status = 200 →
      Service.Answered cfg i request response ∨
        ∃ token ∈ cfg.world.state.tokens, token.tokenHash = env.hashToken raw ∧
          revoked cfg.world.state token.familyId = false := by
  rcases Contract.guar_step _ hstarts hgood label hallowed with hsame | hguar
  · rw [hsame]
    refine ⟨.refl _, fun _ h => h, ?_⟩
    intro i request response raw hanswered _ _
    rcases (authService handler).answered_step hanswered with hold | ⟨_, hworld⟩
    · exact Or.inl hold
    · -- a delivered answer makes the log longer
      have hlog := congrArg World.log (hsame.symm.trans hworld)
      rw [World.record_log] at hlog
      exact absurd hlog.symm (List.cons_ne_self _ _)
  · refine ⟨hguar.tokens, hguar.lasts, ?_⟩
    intro i request response raw hanswered hpresented hstatus
    rcases (authService handler).answered_step hanswered with hold | ⟨hactor, hworld⟩
    · exact Or.inl hold
    · rw [hactor, hworld] at hguar
      exact Or.inr (hguar.answers request response raw rfl hpresented hstatus)

/-- What a family revoked at `cfg` means for every later answer. -/
theorem revocation_run (hstarts : (revocationContract env presented handler).Starts)
    {cfg : Config Stmt Db κ Response}
    (hgood : (revocationContract env presented handler).Good cfg)
    (labels : List (Label κ Choice))
    (hadmits : (authService handler).Admits (revocationContract env presented handler).allowed
      cfg labels) :
    TokensPersist cfg.world.state ((authService handler).run cfg labels).world.state ∧
    ∀ i request response raw,
      Service.Answered ((authService handler).run cfg labels) i request response →
      presented request = some raw → response.status = 200 →
      Service.Answered cfg i request response ∨
        ∃ token ∈ ((authService handler).run cfg labels).world.state.tokens,
          token.tokenHash = env.hashToken raw ∧
          ∀ family, revoked cfg.world.state family = true → token.familyId ≠ family := by
  induction labels generalizing cfg with
  | nil => exact ⟨.refl _, fun _ _ _ _ hanswered _ _ => Or.inl hanswered⟩
  | cons label labels ih =>
    obtain ⟨hpersist, hlasts, hanswers⟩ := revocation_step hstarts hgood label hadmits.1
    obtain ⟨hpersist', hlater⟩ := ih (Contract.good_step _ hstarts hgood label hadmits.1) hadmits.2
    refine ⟨hpersist.trans hpersist', ?_⟩
    intro i request response raw hanswered hpresented hstatus
    rcases hlater i request response raw hanswered hpresented hstatus with
      hstep | ⟨token, htoken, hhash, hopen⟩
    · rcases hanswers i request response raw hstep hpresented hstatus with
        hold | ⟨token, htoken, hhash, hopen⟩
      · exact Or.inl hold
      · obtain ⟨token', htoken', _, hfamily, hhash', _⟩ :=
          (hpersist.trans hpersist') token htoken
        refine Or.inr ⟨token', htoken', hhash'.trans hhash, ?_⟩
        intro family hrevoked heq
        rw [← heq, hfamily, hopen] at hrevoked
        contradiction
    · exact Or.inr ⟨token, htoken, hhash, fun family h => hopen family (hlasts family h)⟩

/-! ## The session service -/

/-- The revocation contract of the session service. -/
def sessionRevocation (env : Env) : Contract (sessionService env) :=
  revocationContract env SessionRequest.presented (SessionRequest.handler env)

/-- An answer that changes nothing keeps the guarantee if it is granted. -/
theorem revocationGuar_record {w : AuthWorld κ} {i : Nat} {event : Event Stmt κ Response}
    (hanswers : ∀ request response raw, event = .answered request response →
      presented request = some raw → response.status = 200 →
      ∃ token ∈ w.state.tokens, token.tokenHash = env.hashToken raw ∧
        revoked w.state token.familyId = false) :
    RevocationGuar env presented i w (w.record i event w.state) where
  tokens := .refl _
  lasts _ h := h
  idle family hopen hrevoked := by
    rw [World.record_state, hopen] at hrevoked
    contradiction
  answers request response raw hlog := by
    rw [World.record_log, List.cons.injEq, Prod.mk.injEq] at hlog
    exact hanswers request response raw hlog.1.2

/-- A request that presents no refresh token may answer anything. -/
theorem meets_unpresented {request : κ} (hpresented : presented request = none) {i : Nat}
    (p : Handler Response) :
    (revocationContract env presented handler).Meets i request (fun _ => True) p := by
  apply Contract.Triple.meets _ (keeps_revocation p i)
  intro answer
  apply Contract.Meets.done _ (Contract.stable_true _)
  intro w _ _ _
  refine ⟨trivial, revocationGuar_record ?_⟩
  intro request' response raw heq hraw
  obtain ⟨rfl, _⟩ := Event.answered.inj heq
  rw [hpresented] at hraw
  contradiction

/-- A refresh that is granted only while its family is open may answer. -/
theorem meets_refreshing {request : κ} {i : Nat} {p : Handler Response}
    {Q : Response → AuthWorld κ → Prop}
    (hp : (revocationContract env presented handler).Triple i (Revocation.Pending presented i) p Q)
    (hstable : ∀ answer, (revocationContract env presented handler).Stable i (Q answer))
    (hgranted : ∀ answer w raw, Q answer w → presented request = some raw →
      answer.status = 200 → ∃ lk, Revocation.Rotating presented i (env.hashToken raw) lk w) :
    (revocationContract env presented handler).Meets i request
      (Revocation.Pending presented i) p := by
  apply Contract.Triple.meets _ hp
  intro answer
  apply Contract.Meets.done _ (hstable answer)
  intro w _ hQ _
  refine ⟨trivial, revocationGuar_record ?_⟩
  intro request' response raw heq hpresented hstatus
  obtain ⟨rfl, rfl⟩ := Event.answered.inj heq
  obtain ⟨lk, hrotating⟩ := hgranted _ w raw hQ hpresented hstatus
  obtain ⟨token, htoken, _, hfamily, hhash⟩ := hrotating.known
  exact ⟨token, htoken, hhash, hfamily ▸ hrotating.stands⟩

theorem sessionRevocation_starts : (sessionRevocation env).Starts := by
  intro i request w _ hfresh _
  refine ⟨trivial, revocationGuar_record (by simp), ?_⟩
  cases request with
  | login headers body | logout cookie body
  | revokeAllForUser userId reason => exact meets_unpresented rfl _ _ trivial trivial
  | refresh headers cookie body =>
    cases hpresented : refreshTokenFrom cookie body with
    | none =>
      exact meets_unpresented (by simp [SessionRequest.presented, hpresented]) _ _ trivial
        trivial
    | some found =>
      have hpending : Revocation.Pending SessionRequest.presented i
          (w.record i (.began (.refresh headers cookie body)) w.state) := by
        refine ⟨⟨_, List.mem_cons_self, by simp [SessionRequest.presented, hpresented]⟩, ?_⟩
        intro request response hanswered
        rcases List.mem_cons.mp hanswered with heq | hold
        · exact absurd (Prod.mk.inj heq).2 (by simp)
        · exact hfresh _ hold rfl
      apply meets_refreshing (Revocation.triple_refresh headers cookie body) _ _ _ trivial
        hpending
      · intro answer w w' hrely hinv hinv' h hstatus
        obtain ⟨raw, byBody, hraw, hgranted⟩ := h hstatus
        obtain ⟨lk, hrotating⟩ := hgranted hstatus
        exact ⟨raw, byBody, hraw, fun _ =>
          ⟨lk, Revocation.stable_rotating w w' hrely hinv hinv' hrotating⟩⟩
      · intro answer w raw h hraw hstatus
        obtain ⟨raw', byBody, hraw', hgranted⟩ := h hstatus
        simp only [SessionRequest.presented, hraw', Option.map_some, Option.some.injEq] at hraw
        exact hraw ▸ hgranted hstatus

/-- Revocation is final in the run `first ++ second`: a refresh of a family that is
revoked after `first` is answered 200 in `first` or never. -/
def RevocationFinal (env : Env) (db : Db) (first second : List (Label SessionRequest Choice)) :
    Prop :=
  let before := (sessionService env).run (initial db.withoutSessions) first
  let cfg := (sessionService env).run before second
  ∀ i request response raw, Service.Answered cfg i request response →
    request.presented = some raw → response.status = 200 →
    ∀ token ∈ cfg.world.state.tokens, token.tokenHash = env.hashToken raw →
      revoked before.world.state token.familyId = true →
      Service.Answered before i request response

/-- Revocation is final in every run that revokes families only while no other
refresh of the family is in flight. -/
theorem revocation_final (env : Env) (db : Db) (first second : List (Label SessionRequest Choice))
    (hidle : (sessionService env).Admits (RevokesIdle SessionRequest.presented)
      (initial db.withoutSessions) (first ++ second)) :
    RevocationFinal env db first second := by
  intro i request response raw hanswered hpresented hstatus token htoken hhash hrevoked
  have hadmits : (sessionService env).Admits (sessionRevocation env).allowed
      (initial db.withoutSessions) (first ++ second) :=
    Contract.admits_inv _ session_starts (fun _ _ _ _ => trivial)
      (Contract.good_initial _ (rotationInv_initial rfl)) _ hidle
  rw [Service.admits_append] at hadmits
  have hgood : (sessionRevocation env).Good
      ((sessionService env).run (initial db.withoutSessions) first) :=
    Contract.good_run _ sessionRevocation_starts (Contract.good_initial _ trivial) first hadmits.1
  obtain ⟨_, hanswers⟩ := revocation_run sessionRevocation_starts hgood second hadmits.2
  rcases hanswers i request response raw hanswered hpresented hstatus with
    hold | ⟨token', htoken', hhash', hopen⟩
  · exact hold
  · have hinv : RotationInv env SessionRequest.presented
        ((sessionService env).run (initial db.withoutSessions) (first ++ second)).world :=
      sessions_inv db _
    rw [Service.run_append] at hinv
    have heq : token = token' :=
      eq_of_nodup_map hinv.hashes htoken htoken' (hhash.trans hhash'.symm)
    exact absurd (congrArg RefreshToken.familyId heq).symm (hopen _ hrevoked)

/-- Alice refreshes, signs out and refreshes once more. -/
def settledLogout : List (Label SessionRequest Choice) :=
  aliceLogin "r0" ++ [.start (.refresh {} (some "r0") none)] ++
    List.replicate 20 (.run 1 { random := "r1" }) ++ [.start (.logout (some "r1") none)] ++
    List.replicate 12 (.run 2 {})

/-- The refresh after the logout is not answered 200. -/
theorem revocation_final_settledLogout :
    ∃ response, Service.Answered
      ((sessionService Env.transparent).run ((sessionService Env.transparent).run
        (initial aliceDb.withoutSessions) settledLogout)
        (.start (.refresh {} (some "r1") none) :: List.replicate 12 (.run 3 { random := "r2" })))
      3 (.refresh {} (some "r1") none) response ∧ response.status ≠ 200 := by
  refine ⟨unauthorizedClear, Service.answered_iff.mpr (by decide +kernel), ?_⟩
  intro hstatus
  have hfinal := revocation_final Env.transparent aliceDb settledLogout
    (.start (.refresh {} (some "r1") none) :: List.replicate 12 (.run 3 { random := "r2" }))
    (Service.admits_of_tested _ revokesIdle_of_idleStep (by decide +kernel))
  obtain ⟨_, hthread⟩ := hfinal 3 (.refresh {} (some "r1") none) unauthorizedClear "r1"
    (Service.answered_iff.mpr (by decide +kernel)) rfl hstatus
    ⟨3, 1, "#r1", some 2, 2592000000000, none⟩ (by decide +kernel) rfl (by decide +kernel)
  have hlength : ((sessionService Env.transparent).run
      (initial aliceDb.withoutSessions) settledLogout).threads.length = 3 := by
    decide +kernel
  rw [List.getElem?_eq_none (Nat.le_of_eq hlength)] at hthread
  contradiction

/-- Alice's refresh looks its token up, then she signs out. -/
def overtakenLogout : List (Label SessionRequest Choice) :=
  aliceLogin "r0" ++ [.start (.refresh {} (some "r0") none), .run 1 {}, .run 1 {},
    .start (.logout (some "r0") none)] ++ List.replicate 12 (.run 2 {})

/-- The refresh overtaken by the logout is still answered 200. -/
theorem revocation_overtaken :
    ¬ RevocationFinal Env.transparent aliceDb overtakenLogout
      (List.replicate 20 (.run 1 { random := "r1" })) := by
  intro hfinal
  have hanswered := hfinal 1 (.refresh {} (some "r0") none)
    ⟨200, .set "r1", .tokens ⟨.access, 0, 900000000, "r1"⟩ (some "r1")⟩ "r0"
    (Service.answered_iff.mpr (by decide +kernel)) rfl rfl
    ⟨2, 1, "#r0", none, 2592000000000, some 0⟩ (by decide +kernel) rfl (by decide +kernel)
  rw [Service.answered_iff] at hanswered
  revert hanswered
  decide +kernel

end IntelliPilot.Auth
