import IntelliPilot.Auth.RotationSteps

/-! # The session service

Login, refresh, logout and the closing of all sessions of an account as one
service, and what holds in every state any interleaving of them reaches.
-/

namespace IntelliPilot.Auth

open Rows Statement

inductive SessionRequest where
  | login (headers : Headers) (body : Except JsonRejection LoginRequest)
  | refresh (headers : Headers) (cookie : Option String) (body : OptionalRefreshBody)
  | logout (cookie : Option String) (body : OptionalRefreshBody)
  | revokeAllForUser (userId : Uuid) (reason : String)
  deriving DecidableEq

def SessionRequest.handler (env : Env) : SessionRequest → Handler Response
  | .login headers body => Auth.login env headers body
  | .refresh headers cookie body => Auth.refresh env headers cookie body
  | .logout cookie body => Auth.logout env cookie body
  | .revokeAllForUser userId reason => Auth.revokeAllForUser userId reason

/-- The refresh token a refresh request presents. -/
def SessionRequest.presented : SessionRequest → Option String
  | .refresh _ cookie body => (refreshTokenFrom cookie body).map Prod.fst
  | _ => none

def sessionService (env : Env) : Service Stmt Db Choice SessionRequest Response :=
  authService (SessionRequest.handler env)

/-- The contract of the session service. -/
def sessionContract (env : Env) : Contract (sessionService env) :=
  rotationContract env SessionRequest.presented (SessionRequest.handler env)

variable {env : Env}

/-- A request other than a refresh may answer anything. -/
theorem meets_of_keeps {i : Nat} {request : SessionRequest} {p : Handler Response}
    (hkeeps : (sessionContract env).Keeps p) (hpresented : request.presented = none) :
    (sessionContract env).Meets i request (fun _ => True) p := by
  apply Contract.Triple.meets _ (hkeeps i)
  intro answer
  apply Contract.Meets.done _ (Contract.stable_true _)
  intro w hinv _ _
  have hplace : InPlace w.state w.state := .of_tokens_eq rfl (Nat.le_refl _)
  refine ⟨inv_inPlace hinv hplace ⟨by simp [marks], by simp [creates], ?_⟩, guar_inPlace hplace⟩
  intro request' response heq raw hraw
  obtain ⟨rfl, rfl⟩ := Event.answered.inj heq
  rw [hpresented] at hraw
  contradiction

theorem meets_refresh {i : Nat} (headers : Headers) (cookie : Option String)
    (body : OptionalRefreshBody) : (sessionContract env).Meets i (.refresh headers cookie body)
      (fun _ => True) (refresh env headers cookie body) := by
  apply Contract.Triple.meets _ (triple_refresh headers cookie body)
  intro answer
  apply Contract.Meets.done
  · intro w w' hrely _ _ h hstatus
    obtain ⟨raw, byBody, hpresented, hspent⟩ := h hstatus
    obtain ⟨token, htoken, hhash, hmarked⟩ := hspent hstatus
    obtain ⟨token', htoken', hid, _, hhash', _⟩ := hrely.tokens token htoken
    exact ⟨raw, byBody, hpresented, fun _ =>
      ⟨token', htoken', hhash'.trans hhash, hid ▸ hmarked.mono hrely.log⟩⟩
  · intro w hinv h _
    have hplace : InPlace w.state w.state := .of_tokens_eq rfl (Nat.le_refl _)
    refine ⟨inv_inPlace hinv hplace ⟨by simp [marks], by simp [creates], ?_⟩,
      guar_inPlace hplace⟩
    intro request response heq raw hraw hstatus
    obtain ⟨rfl, rfl⟩ := Event.answered.inj heq
    obtain ⟨raw', byBody, hpresented, hspent⟩ := h hstatus
    simp only [SessionRequest.presented, hpresented, Option.map_some, Option.some.injEq] at hraw
    exact hraw ▸ hspent hstatus

theorem session_starts : (sessionContract env).Starts := by
  intro i request w hinv _ _
  have hplace : InPlace w.state w.state := .of_tokens_eq rfl (Nat.le_refl _)
  have hinv' : RotationInv env SessionRequest.presented (w.record i (.began request) w.state) :=
    inv_inPlace hinv hplace (accounted_of_silent rfl rfl (by simp))
  refine ⟨hinv', guar_inPlace hplace, ?_⟩
  cases request with
  | login headers body => exact meets_of_keeps (keeps_login headers body) rfl _ hinv' trivial
  | refresh headers cookie body => exact meets_refresh headers cookie body _ hinv' trivial
  | logout cookie body => exact meets_of_keeps (keeps_logout cookie body) rfl _ hinv' trivial
  | revokeAllForUser userId reason =>
    exact meets_of_keeps (keeps_revokeAllForUser userId reason) rfl _ hinv' trivial

/-- Before the first session the invariant holds. -/
theorem rotationInv_initial {κ : Type} {presented : κ → Option String} {db : Db}
    (hempty : db.tokens = []) : RotationInv env presented ⟨db, []⟩ where
  ids := by simp [hempty]
  hashes := by simp [hempty]
  below := by simp [hempty]
  chains family := by
    have hnil : familyTokens db family = [] := by simp [familyTokens, hempty]
    rw [hnil]
    trivial
  created := by simp [Created]
  createdOnce := by simp [Created]
  marked := by simp [Marked]
  markedOnce := by simp [Marked]
  earned := by simp

theorem sessions_inv (db : Db) (labels : List (Label SessionRequest Choice)) :
    RotationInv env SessionRequest.presented
      ((sessionService env).run (Service.initial db.withoutSessions) labels).world :=
  (sessionContract env).inv_run session_starts (rotationInv_initial rfl) labels
    (Service.admits_true _ _ labels)

section Reading

variable {κ : Type} {presented : κ → Option String} {w : AuthWorld κ}

/-- The parent of a token is a token of the same family. -/
theorem parent_in_family (hinv : RotationInv env presented w) {token : RefreshToken}
    (htoken : token ∈ w.state.tokens) {id : Uuid} (hparent : token.parentId = some id) :
    ∃ parent ∈ familyTokens w.state token.familyId, parent.id = id := by
  have hmem : token ∈ familyTokens w.state token.familyId := by simp [familyTokens, htoken]
  rcases (hinv.chains token.familyId).parent_mem hmem with hroot | ⟨prior, hprior, _, hid⟩
  · rw [hparent] at hroot
    contradiction
  · rw [hparent, Option.some.injEq] at hid
    exact ⟨prior, hprior, hid.symm⟩

/-- Two tokens with the same parent are the same token. -/
theorem parent_unique (hinv : RotationInv env presented w) {token token' : RefreshToken}
    (htoken : token ∈ w.state.tokens) (htoken' : token' ∈ w.state.tokens) {id : Uuid}
    (hparent : token.parentId = some id) (hparent' : token'.parentId = some id) :
    token = token' := by
  obtain ⟨parent, hmem, hid⟩ := parent_in_family hinv htoken hparent
  obtain ⟨other, hmem', hid'⟩ := parent_in_family hinv htoken' hparent'
  have hsame : parent = other := eq_of_nodup_map hinv.ids (List.mem_of_mem_filter hmem)
    (List.mem_of_mem_filter hmem') (hid.trans hid'.symm)
  have hfamily : token.familyId = token'.familyId := by
    have h := List.of_mem_filter hmem
    have h' := List.of_mem_filter hmem'
    simp only [beq_iff_eq] at h h'
    rw [← h, ← h', hsame]
  refine (hinv.chains token.familyId).parent_inj ?_ (by simp) ?_ ?_ (hparent.trans hparent'.symm)
  · exact List.Nodup.sublist (List.Sublist.map _ List.filter_sublist) hinv.ids
  · simp [familyTokens, htoken]
  · simp [familyTokens, htoken', hfamily]

end Reading

/-- Alice signs in and is given the refresh token `raw`. -/
def aliceLogin (raw : String) : List (Label SessionRequest Choice) :=
  .start (.login {} (.ok ⟨"alice@example.org", "secret"⟩)) ::
    List.replicate 25 (.run 0 { random := raw })

/-- Rotation is linear: whatever the interleaving, a token has at most one
successor, a family is one chain with at most one unused token, and no
refresh-token value is ever answered by two successful refreshes. -/
theorem rotation_linear (env : Env) (db : Db) (labels : List (Label SessionRequest Choice)) :
    let cfg := (sessionService env).run (Service.initial db.withoutSessions) labels
    (∀ token ∈ cfg.world.state.tokens, ∀ token' ∈ cfg.world.state.tokens, ∀ id,
      token.parentId = some id → token'.parentId = some id → token = token') ∧
    (∀ family, TokenChain (familyTokens cfg.world.state family) ∧
      ((familyTokens cfg.world.state family).filter (·.usedAt.isNone)).length ≤ 1) ∧
    (∀ i j request request' response response' raw,
      Service.Answered cfg i request response → Service.Answered cfg j request' response' →
      request.presented = some raw → request'.presented = some raw →
      response.status = 200 → response'.status = 200 → i = j) := by
  intro cfg
  have hinv : RotationInv env SessionRequest.presented cfg.world :=
    sessions_inv db labels
  have htraced : Service.Traced cfg :=
    (sessionService env).traced_run (Service.traced_initial _) labels
  refine ⟨?_, ?_, ?_⟩
  · intro token htoken token' htoken' id hparent hparent'
    exact parent_unique hinv htoken htoken' hparent hparent'
  · intro family
    refine ⟨hinv.chains family, ?_⟩
    have hle := (hinv.chains family).unspent_le_one
    simpa using hle
  · intro i j request request' response response' raw hi hj hraw hraw' hstatus hstatus'
    obtain ⟨token, htoken, hhash, hmarked⟩ :=
      hinv.earned i request response (htraced i request response hi) raw hraw hstatus
    obtain ⟨token', htoken', hhash', hmarked'⟩ :=
      hinv.earned j request' response' (htraced j request' response' hj) raw hraw' hstatus'
    have hsame : token = token' :=
      eq_of_nodup_map hinv.hashes htoken htoken' (hhash.trans hhash'.symm)
    exact hinv.markedOnce i j token.id hmarked (hsame ▸ hmarked')

/-- Two refreshes race for one token: one of them is answered 200. -/
example : (((sessionService Env.transparent).run (Service.initial aliceDb.withoutSessions)
    (aliceLogin "r0" ++ [.start (.refresh {} (some "r0") none), .start (.refresh {} (some "r0") none),
      .run 1 {}, .run 2 {}, .run 1 {}, .run 2 {}] ++ List.replicate 20 (.run 2 { random := "r2" }) ++
      List.replicate 20 (.run 1 { random := "r1" }))).threads.map
        fun thread => thread.answer.map (·.status)) = [some 200, some 401, some 200] := by
  decide +kernel

end IntelliPilot.Auth
