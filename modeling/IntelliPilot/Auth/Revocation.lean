import IntelliPilot.Auth.SessionService

/-! # Revoking a session family

A refresh reads the family's `revoked_at` once, in its lookup. The statements
that follow (`mark_used`, `insert_token`) do not look at it again, so a
revocation that commits between the two is overtaken. This file isolates the
runs in which that cannot happen and shows that revocation is final there.
-/

namespace IntelliPilot.Auth

open Rows Statement

variable {κ : Type}

/-- What a successful lookup returned. -/
def looks : Event Stmt κ Response → Option RefreshLookup
  | .ran (.session (.findByHash _)) (.ok (some lk)) => some lk
  | _ => none

/-- Program `i` has looked a refresh token up. -/
def LookedUp (w : AuthWorld κ) (i : Nat) (lk : RefreshLookup) : Prop :=
  ∃ event, (i, event) ∈ w.log ∧ looks event = some lk

/-- Some row says that token `id` is spent. -/
def Spent (db : Db) (id : Uuid) : Prop :=
  ∃ token ∈ db.tokens, token.id = id ∧ token.usedAt.isSome = true

/-- Program `i` is a refresh. -/
def Refreshing (presented : κ → Option String) (w : AuthWorld κ) (i : Nat) : Prop :=
  ∃ request, (i, .began request) ∈ w.log ∧ (presented request).isSome = true

/-- Program `i` found the token of `lk` unused and its family open, and no
other program has spent the token since. -/
def Holding (w : AuthWorld κ) (i : Nat) (lk : RefreshLookup) : Prop :=
  lk.usedAt = none ∧ lk.familyRevoked = false ∧
    (¬ Spent w.state lk.tokenId ∨ Marked w i lk.tokenId)

/-- Program `i` is an unanswered refresh holding a token of `family`. -/
def InFlight (presented : κ → Option String) (w : AuthWorld κ) (i : Nat) (family : Uuid) : Prop :=
  Refreshing presented w i ∧ w.Unanswered i ∧
    ∃ lk, LookedUp w i lk ∧ lk.familyId = family ∧ Holding w i lk

/-- A step that revokes a family does so while no other refresh of it is in flight. -/
def RevokesIdle (presented : κ → Option String) (i : Nat) (w w' : AuthWorld κ) : Prop :=
  ∀ family, revoked w.state family = false → revoked w'.state family = true →
    ∀ j, j ≠ i → ¬ InFlight presented w j family

/-! ## A test for idle revocations -/

/-- Either no refresh is under way, or no family changes but for its times. -/
def idleStep (presented : κ → Option String) (w w' : AuthWorld κ) : Bool :=
  w.settled (fun request => (presented request).isSome) ||
    decide (w'.state.families.map (fun family => (family.id, family.revokedAt.isSome)) =
      w.state.families.map fun family => (family.id, family.revokedAt.isSome))

variable {db db' : Db}

/-- Whether a family is revoked can be read off the pairs of `id` and `revoked_at`. -/
theorem revoked_eq_of_map
    (h : db'.families.map (fun family => (family.id, family.revokedAt.isSome)) =
      db.families.map fun family => (family.id, family.revokedAt.isSome)) (family : Uuid) :
    revoked db' family = revoked db family := by
  have hread : ∀ db : Db, revoked db family =
      ((db.families.map fun row => (row.id, row.revokedAt.isSome)).find?
        (·.1 == family)).any (·.2) := by
    intro db
    rw [List.find?_map, Option.any_map]
    rfl
  rw [hread, hread, h]

theorem revokesIdle_of_idleStep {presented : κ → Option String} (i : Nat) (w w' : AuthWorld κ)
    (htest : idleStep presented w w' = true) : RevokesIdle presented i w w' := by
  rw [idleStep, Bool.or_eq_true, decide_eq_true_eq] at htest
  intro family hopen hrevoked j _
  rcases htest with hsettled | hsame
  · rintro ⟨⟨request, hbegan, hpresented⟩, hunanswered, _⟩
    exact World.not_unanswered_of_settled hsettled hbegan hpresented hunanswered
  · rw [revoked_eq_of_map hsame, hopen] at hrevoked
    contradiction

/-! ## What statements do to families -/

theorem revoked_congr (h : db'.families = db.families) (family : Uuid) :
    revoked db' family = revoked db family := by rw [revoked, revoked, h]

variable {family : Uuid}

/-- Rewriting a family never clears `revoked_at`. -/
theorem revoked_updateWhere {p : Family → Bool} {f : Family → Family}
    (hfamilies : db'.families = updateWhere p f db.families) (hid : ∀ row, (f row).id = row.id)
    (hrevoked : ∀ row, row.revokedAt.isSome = true → (f row).revokedAt.isSome = true)
    (h : revoked db family = true) : revoked db' family = true := by
  rw [revoked, hfamilies, find?_updateWhere (fun row => by rw [hid row])]
  rw [revoked] at h
  cases hfind : db.families.find? (·.id == family) with
  | none => simp [hfind] at h
  | some row =>
    rw [hfind] at h
    simp only [Option.any_some, Option.map_some] at h ⊢
    split
    · exact hrevoked row h
    · exact h

theorem revoked_createFamily (userId : Uuid) (db : Db) (family : Uuid) :
    revoked (Sessions.createFamily userId db).2 family = revoked db family := by
  unfold Sessions.createFamily
  split
  · simp only [revoked, List.find?_append]
    cases db.families.find? (·.id == family) with
    | some row => rfl
    | none =>
      simp only [Option.none_or, List.find?_cons]
      split <;> rfl
  · rfl

theorem revoked_touchFamily (id : Uuid) (db : Db) (family : Uuid) :
    revoked (Sessions.touchFamily id db) family = revoked db family := by
  simp only [revoked, Sessions.touchFamily]
  rw [find?_updateWhere fun row => show (row.id == family) = (row.id == family) from rfl]
  cases db.families.find? (·.id == family) with
  | none => rfl
  | some row =>
    simp only [Option.map_some, Option.any_some]
    split <;> rfl

theorem revoked_insertToken (familyId : Uuid) (hash : String) (parentId : Option Uuid)
    (expiresAt : Time) (db : Db) (family : Uuid) :
    revoked (Sessions.insertToken familyId hash parentId expiresAt db).2 family =
      revoked db family := by
  unfold Sessions.insertToken
  split
  · rfl
  · split <;> rfl

/-- Whether a statement revokes families. -/
def SessionStmt.revokes {β : Type} : SessionStmt β → Bool
  | .revokeFamily _ _ => true
  | .revokeAllForUser _ _ => true
  | _ => false

def Stmt.revokes {β : Type} : Stmt β → Bool
  | .session stmt => stmt.revokes
  | _ => false

variable {β : Type}

theorem Stmt.revoked_eq {stmt : Stmt β} (hstmt : stmt.revokes = false) (choice : Choice) (db : Db)
    (family : Uuid) : revoked (stmt.exec choice db).2 family = revoked db family := by
  cases hsession : stmt.isSession with
  | false => exact revoked_congr ((Stmt.unchanged _ choice db).sessions hsession).1 family
  | true =>
    cases stmt with
    | session stmt =>
      let P : Db → Prop := fun db' => revoked db' family = revoked db family
      cases stmt with
      | createFamily userId =>
        exact attempt_state (P := P) rfl (revoked_createFamily userId _ family)
      | insertToken familyId hash parentId expiresAt =>
        exact attempt_state (P := P) rfl (revoked_insertToken familyId hash parentId _ _ _)
      | findByHash hash | markUsed id => exact attempt_state (P := P) rfl rfl
      | revokeFamily id reason
      | revokeAllForUser id reason => simp [Stmt.revokes, SessionStmt.revokes] at hstmt
      | touchFamily id => exact bestEffort_state (P := P) rfl (revoked_touchFamily id _ family)
    | user stmt | factor stmt | oidc stmt | platform stmt => simp [Stmt.isSession] at hsession

theorem revokeWhere_revoked (p : Family → Bool) (reason : String) (db : Db)
    (h : revoked db family = true) : revoked (Sessions.revokeWhere p reason db) family = true := by
  apply revoked_updateWhere rfl _ _ h
  · intro row
    rfl
  · intro row _
    rfl

/-- No statement reopens a revoked family. -/
theorem Stmt.revoked_mono (stmt : Stmt β) (choice : Choice) (db : Db)
    (h : revoked db family = true) : revoked (stmt.exec choice db).2 family = true := by
  cases hrevokes : stmt.revokes with
  | false => rw [Stmt.revoked_eq hrevokes, h]
  | true =>
    let P : Db → Prop := fun db' => revoked db' family = true
    cases stmt with
    | session stmt =>
      cases stmt with
      | revokeFamily id reason =>
        exact bestEffort_state (P := P) h (revokeWhere_revoked _ reason _ h)
      | revokeAllForUser id reason =>
        exact attempt_state (P := P) h (revokeWhere_revoked _ reason _ h)
      | _ => simp [Stmt.revokes, SessionStmt.revokes] at hrevokes
    | _ => simp [Stmt.revokes] at hrevokes

/-- No statement removes a token or makes it unused again. -/
theorem Stmt.tokensPersist (stmt : Stmt β) (choice : Choice) (db : Db) :
    TokensPersist db (stmt.exec choice db).2 := by
  cases hsession : stmt.isSession with
  | false =>
    have hplace : InPlace db (stmt.exec choice db).2 :=
      .of_tokens_eq ((Stmt.unchanged _ choice db).sessions hsession).2
        (stmt.unchanged choice db).counters.1
    exact hplace.persist
  | true =>
    cases stmt with
    | session stmt =>
      cases hinserts : stmt.inserts with
      | false => exact (session_inPlace stmt hinserts choice db).persist
      | true =>
        cases stmt with
        | insertToken familyId hash parentId expiresAt =>
          rcases insertToken_cases familyId hash parentId expiresAt choice db with h | h
          · exact h.persist
          · exact h.persist
        | _ => simp [SessionStmt.inserts] at hinserts
    | _ => simp [Stmt.isSession] at hsession

/-! ## The contract -/

variable (env : Env) (presented : κ → Option String)

/-- What a program sees of the others: they leave its own log alone, tokens
persist, and a family it holds a token of is not revoked. -/
structure RevocationRely (i : Nat) (w w' : AuthWorld κ) : Prop where
  log : ∀ entry ∈ w.log, entry ∈ w'.log
  own : ∀ event, (i, event) ∈ w'.log → (i, event) ∈ w.log
  tokens : TokensPersist w.state w'.state
  revokes : ∀ family, revoked w.state family = false → revoked w'.state family = true →
    ¬ InFlight presented w' i family

/-- What every step keeps: revocations last, they meet the condition, and a
refresh answers 200 only while the family of its token is open. -/
structure RevocationGuar (i : Nat) (w w' : AuthWorld κ) : Prop where
  tokens : TokensPersist w.state w'.state
  lasts : ∀ family, revoked w.state family = true → revoked w'.state family = true
  idle : RevokesIdle presented i w w'
  answers : ∀ request response raw, w'.log = (i, .answered request response) :: w.log →
    presented request = some raw → response.status = 200 →
    ∃ token ∈ w.state.tokens, token.tokenHash = env.hashToken raw ∧
      revoked w.state token.familyId = false

variable {env presented}

theorem Spent.persist (h : TokensPersist db db') {id : Uuid} (hspent : Spent db id) :
    Spent db' id := by
  obtain ⟨token, htoken, hid, hused⟩ := hspent
  obtain ⟨token', htoken', hid', _, _, hused'⟩ := h token htoken
  exact ⟨token', htoken', hid'.trans hid, hused' hused⟩

/-- While others run, a token can only stop being held. -/
theorem Holding.of_later {w w' : AuthWorld κ} {i : Nat} {lk : RefreshLookup}
    (hown : ∀ event, (i, event) ∈ w'.log → (i, event) ∈ w.log)
    (htokens : TokensPersist w.state w'.state) (h : Holding w' i lk) : Holding w i lk := by
  obtain ⟨hunused, hopen, hheld⟩ := h
  refine ⟨hunused, hopen, ?_⟩
  rcases hheld with hunspent | ⟨event, hevent, hmarks⟩
  · exact Or.inl fun hspent => hunspent (hspent.persist htokens)
  · exact Or.inr ⟨event, hown _ hevent, hmarks⟩

/-- While others run, a program in flight can only stop being so. -/
theorem InFlight.of_later {w w' : AuthWorld κ} {i : Nat}
    (hown : ∀ event, (i, event) ∈ w'.log → (i, event) ∈ w.log)
    (hlog : ∀ entry ∈ w.log, entry ∈ w'.log) (htokens : TokensPersist w.state w'.state)
    (h : InFlight presented w' i family) : InFlight presented w i family := by
  obtain ⟨⟨request, hbegan, hpresented⟩, hunanswered, lk, ⟨event, hevent, hlooks⟩, hfamily,
    hholding⟩ := h
  refine ⟨⟨request, hown _ hbegan, hpresented⟩, ?_, lk, ⟨event, hown _ hevent, hlooks⟩, hfamily,
    hholding.of_later hown htokens⟩
  intro request response hanswered
  exact hunanswered request response (hlog _ hanswered)

/-- The contract of the runs whose revocations all come at an idle moment. What
rotation guarantees of every run may be used at every step. -/
def revocationContract (env : Env) (presented : κ → Option String)
    (handler : κ → Handler Response) : Contract (authService handler) where
  inv _ := True
  allowed i w w' := RotationInv env presented w ∧ RotationInv env presented w' ∧
    RevokesIdle presented i w w'
  rely := RevocationRely presented
  guar := RevocationGuar env presented
  rely_refl i w := ⟨fun _ h => h, fun _ h => h, .refl _, fun _ h h' => by simp [h] at h'⟩
  rely_trans i w₁ w₂ w₃ h₁ h₂ :=
    { log := fun entry hentry => h₂.log entry (h₁.log entry hentry)
      own := fun event hevent => h₁.own event (h₂.own event hevent)
      tokens := h₁.tokens.trans h₂.tokens
      revokes := by
        intro family hopen hrevoked
        cases hmiddle : revoked w₂.state family with
        | false => exact h₂.revokes family hmiddle hrevoked
        | true =>
            intro hflight
            exact h₁.revokes family hopen hmiddle (hflight.of_later h₂.own h₂.log h₂.tokens) }
  guar_rely i j w w' hne _ _ hgrows hguar :=
    { log := fun _ hentry => hgrows.mem hentry
      own := fun _ hevent => hgrows.own_iff.mp hevent
      tokens := hguar.tokens
      revokes := by
        intro family hopen hrevoked hflight
        refine hguar.idle family hopen hrevoked j (Ne.symm hne) ?_
        exact hflight.of_later (fun _ hevent => hgrows.own_iff.mp hevent)
          (fun _ hentry => hgrows.mem hentry) hguar.tokens }

variable {handler : κ → Handler Response}

/-- Every statement keeps the guarantee; the condition on revocations is the run's. -/
theorem revocation_guar (stmt : Stmt β) (i : Nat) (w : AuthWorld κ) (choice : Choice)
    (hidle : RevokesIdle presented i w ((authService handler).perform i stmt choice w)) :
    RevocationGuar env presented i w ((authService handler).perform i stmt choice w) where
  tokens := stmt.tokensPersist choice w.state
  lasts _ h := stmt.revoked_mono choice w.state h
  idle := hidle
  answers request response raw hlog := by simp [Service.perform] at hlog

theorem keeps_revocation {α : Type} (p : Handler α) :
    (revocationContract env presented handler).Keeps p := by
  apply Contract.keeps_all
  intro β stmt i w choice _ hallowed
  exact ⟨trivial, revocation_guar stmt i w choice hallowed.2.2⟩

end IntelliPilot.Auth
