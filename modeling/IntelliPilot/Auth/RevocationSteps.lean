import IntelliPilot.Auth.Revocation

/-! # Refresh under idle revocations

The refresh handler, statement by statement, in runs that revoke families at
idle moments only. After its lookup the program knows that a revocation of the
family means its token is gone; once `mark_used` succeeds it knows that the
family is open and stays so until it answers.
-/

namespace IntelliPilot.Auth.Revocation

open Rows Statement Contract

variable {κ : Type} {env : Env} {presented : κ → Option String} {handler : κ → Handler Response}
variable {i : Nat} {hash : String} {lk : RefreshLookup}

/-- An unanswered refresh. -/
structure Pending (presented : κ → Option String) (i : Nat) (w : AuthWorld κ) : Prop where
  refreshing : Refreshing presented w i
  unanswered : w.Unanswered i

/-- After the lookup: a revoked family means that the token is gone. -/
structure Reading (presented : κ → Option String) (i : Nat) (hash : String) (lk : RefreshLookup)
    (w : AuthWorld κ) : Prop where
  pending : Pending presented i w
  looked : LookedUp w i lk
  known : Known hash lk w
  gone : revoked w.state lk.familyId = true → ¬ Holding w i lk

/-- After `mark_used`: the family is open. -/
structure Rotating (presented : κ → Option String) (i : Nat) (hash : String) (lk : RefreshLookup)
    (w : AuthWorld κ) : Prop where
  pending : Pending presented i w
  looked : LookedUp w i lk
  known : Known hash lk w
  holding : Holding w i lk
  marked : Marked w i lk.tokenId
  stands : revoked w.state lk.familyId = false

variable {w : AuthWorld κ}

theorem Pending.mono {w' : AuthWorld κ} (hlog : ∀ entry ∈ w.log, entry ∈ w'.log)
    (hown : ∀ request response, (i, .answered request response) ∈ w'.log →
      (i, .answered request response) ∈ w.log) (h : Pending presented i w) :
    Pending presented i w' := by
  obtain ⟨⟨request, hbegan, hpresented⟩, hunanswered⟩ := h
  refine ⟨⟨request, hlog _ hbegan, hpresented⟩, ?_⟩
  intro request' response hanswered
  exact hunanswered request' response (hown _ _ hanswered)

theorem LookedUp.mono {w' : AuthWorld κ} (hlog : ∀ entry ∈ w.log, entry ∈ w'.log)
    (h : LookedUp w i lk) : LookedUp w' i lk := by
  obtain ⟨event, hevent, hlooks⟩ := h
  exact ⟨event, hlog _ hevent, hlooks⟩

/-! ## Between the program's own statements -/

theorem stable_pending :
    (revocationContract env presented handler).Stable i (Pending presented i) :=
  fun _ _ hrely _ _ h => h.mono hrely.log fun _ _ => hrely.own _

theorem stable_reading :
    (revocationContract env presented handler).Stable i (Reading presented i hash lk) := by
  intro w w' hrely _ _ h
  have hpending : Pending presented i w' := h.pending.mono hrely.log fun _ _ => hrely.own _
  have hlooked : LookedUp w' i lk := LookedUp.mono hrely.log h.looked
  refine ⟨hpending, hlooked, h.known.persist hrely.tokens, ?_⟩
  intro hrevoked hholding
  have hflight : InFlight presented w' i lk.familyId :=
    ⟨hpending.refreshing, hpending.unanswered, lk, hlooked, rfl, hholding⟩
  cases hbefore : revoked w.state lk.familyId with
  | false => exact hrely.revokes _ hbefore hrevoked hflight
  | true => exact h.gone hbefore (hholding.of_later hrely.own hrely.tokens)

theorem stable_rotating :
    (revocationContract env presented handler).Stable i (Rotating presented i hash lk) := by
  intro w w' hrely _ _ h
  have hpending : Pending presented i w' := h.pending.mono hrely.log fun _ _ => hrely.own _
  have hlooked : LookedUp w' i lk := LookedUp.mono hrely.log h.looked
  have hmarked : Marked w' i lk.tokenId := h.marked.mono hrely.log
  have hholding : Holding w' i lk := ⟨h.holding.1, h.holding.2.1, Or.inr hmarked⟩
  refine ⟨hpending, hlooked, h.known.persist hrely.tokens, hholding, hmarked, ?_⟩
  cases hafter : revoked w'.state lk.familyId with
  | false => rfl
  | true =>
    exact absurd ⟨hpending.refreshing, hpending.unanswered, lk, hlooked, rfl, hholding⟩
      (hrely.revokes _ h.stands hafter)

/-! ## The program's own statements -/

/-- A statement that neither revokes a family nor spends a token. -/
structure Neutral {β : Type} (κ : Type) (stmt : Stmt β) : Prop where
  revokes : stmt.revokes = false
  marks : ∀ result : β, marks (.ran stmt result : Event Stmt κ Response) = none

variable {β : Type}

theorem neutral_platform (stmt : PlatformStmt β) : Neutral κ (.platform stmt) :=
  ⟨rfl, fun _ => rfl⟩

theorem neutral_user (stmt : UserStmt β) : Neutral κ (.user stmt) :=
  ⟨rfl, fun _ => rfl⟩

theorem perform_log (stmt : Stmt β) (choice : Choice) (w : AuthWorld κ) :
    ∀ entry ∈ w.log, entry ∈ ((authService handler).perform i stmt choice w).log :=
  fun _ hentry => List.mem_cons_of_mem _ hentry

theorem Pending.perform (stmt : Stmt β) (choice : Choice) (h : Pending presented i w) :
    Pending presented i ((authService handler).perform i stmt choice w) := by
  apply h.mono (perform_log stmt choice w)
  intro request response hanswered
  rcases List.mem_cons.mp hanswered with heq | hold
  · exact absurd (Prod.mk.inj heq).2 (by simp)
  · exact hold

variable {stmt : Stmt β}

theorem Holding.of_perform (hneutral : Neutral κ stmt) {choice : Choice}
    (h : Holding ((authService handler).perform i stmt choice w) i lk) : Holding w i lk := by
  obtain ⟨hunused, hopen, hheld⟩ := h
  refine ⟨hunused, hopen, ?_⟩
  rcases hheld with hunspent | hmarked
  · exact Or.inl fun hspent => hunspent (hspent.persist (stmt.tokensPersist choice w.state))
  · rcases marked_record.mp hmarked with ⟨_, hmarks⟩ | hold
    · rw [hneutral.marks] at hmarks
      contradiction
    · exact Or.inr hold

theorem Reading.perform (hneutral : Neutral κ stmt) (choice : Choice)
    (h : Reading presented i hash lk w) :
    Reading presented i hash lk ((authService handler).perform i stmt choice w) := by
  refine ⟨h.pending.perform stmt choice, LookedUp.mono (perform_log stmt choice w) h.looked,
    h.known.persist (stmt.tokensPersist choice w.state), ?_⟩
  intro hrevoked hholding
  rw [Service.perform_state] at hrevoked
  have hbefore := (Stmt.revoked_eq hneutral.revokes choice w.state lk.familyId).symm.trans hrevoked
  exact h.gone hbefore (Holding.of_perform hneutral hholding)

theorem Rotating.perform (hneutral : Neutral κ stmt) (choice : Choice)
    (h : Rotating presented i hash lk w) :
    Rotating presented i hash lk ((authService handler).perform i stmt choice w) where
  pending := h.pending.perform stmt choice
  looked := LookedUp.mono (perform_log stmt choice w) h.looked
  known := h.known.persist (stmt.tokensPersist choice w.state)
  holding := ⟨h.holding.1, h.holding.2.1, Or.inr (h.marked.mono (perform_log stmt choice w))⟩
  marked := h.marked.mono (perform_log stmt choice w)
  stands := (Stmt.revoked_eq hneutral.revokes choice w.state lk.familyId).trans h.stands

variable {K : AuthWorld κ → Prop}

/-- Knowledge that survives a statement and the others' steps is kept by the call. -/
theorem triple_keep (hstable : (revocationContract env presented handler).Stable i K)
    (hperform : ∀ w choice, K w → K ((authService handler).perform i stmt choice w)) :
    (revocationContract env presented handler).Triple i K (Prog.call stmt) fun _ => K := by
  apply triple_call _ hstable
  intro w choice _ hK hallowed
  exact ⟨trivial, revocation_guar stmt i w choice hallowed.2.2, hperform w choice hK⟩

theorem triple_reading (hneutral : Neutral κ stmt) :
    (revocationContract env presented handler).Triple i (Reading presented i hash lk)
      (Prog.call stmt) fun _ => Reading presented i hash lk :=
  triple_keep stable_reading fun _ choice h => h.perform hneutral choice

theorem triple_rotating (hneutral : Neutral κ stmt) :
    (revocationContract env presented handler).Triple i (Rotating presented i hash lk)
      (Prog.call stmt) fun _ => Rotating presented i hash lk :=
  triple_keep stable_rotating fun _ choice h => h.perform hneutral choice

theorem triple_generate :
    (revocationContract env presented handler).Triple i (Rotating presented i hash lk)
      (generate env) fun _ => Rotating presented i hash lk := by
  apply triple_bind _ (triple_rotating (neutral_platform _))
  intro raw
  exact triple_pure _ fun _ _ h => h

/-- The lookup reads `revoked_at` in the same statement as the token. -/
theorem triple_findByHash (hash : String) :
    (revocationContract env presented handler).Triple i (Pending presented i)
      (session (.findByHash hash))
      fun result w => ∀ lk, result = .ok (some lk) → Reading presented i hash lk w := by
  apply triple_call _ stable_pending
  intro w choice _ hpending hallowed
  refine ⟨trivial, revocation_guar _ i w choice hallowed.2.2, ?_⟩
  intro lk hlk
  have hresult : ((Stmt.session (.findByHash hash)).exec choice w.state).1 = .ok (some lk) := hlk
  obtain ⟨hknown, hrevoked⟩ := findByHash_ok hresult
  refine ⟨hpending.perform _ choice, ⟨_, List.mem_cons_self, ?_⟩, hknown, ?_⟩
  · rw [hlk]
    rfl
  · intro hclosed hholding
    rw [Service.perform_state] at hclosed
    have hflag := hrevoked.symm.trans hclosed
    rw [hholding.2.1] at hflag
    contradiction

/-- A token that `mark_used` takes was unspent until then. -/
theorem unspent_of_marks (hinv : RotationInv env presented w) {id : Uuid}
    (h : ∃ token ∈ w.state.tokens, token.id = id ∧ token.usedAt = none) : ¬ Spent w.state id := by
  rintro ⟨token, htoken, hid, hused⟩
  obtain ⟨token', htoken', hid', hunused⟩ := h
  have heq := eq_of_nodup_map hinv.ids htoken htoken' (hid.trans hid'.symm)
  simp [heq, hunused] at hused

theorem triple_markUsed (hunused : lk.usedAt = none) (hopen : lk.familyRevoked = false) :
    (revocationContract env presented handler).Triple i (Reading presented i hash lk)
      (session (.markUsed lk.tokenId))
      fun result w => result = .ok true → Rotating presented i hash lk w := by
  apply triple_call _ stable_reading
  intro w choice _ h hallowed
  refine ⟨trivial, revocation_guar _ i w choice hallowed.2.2, ?_⟩
  intro hresult
  have hunspent : ¬ Spent w.state lk.tokenId :=
    unspent_of_marks hallowed.1 (markUsed_ok hresult).1
  -- the token was held when it was spent, so the family was not revoked yet
  have hstood : revoked w.state lk.familyId = false := by
    cases hrevoked : revoked w.state lk.familyId with
    | false => rfl
    | true => exact absurd ⟨hunused, hopen, Or.inl hunspent⟩ (h.gone hrevoked)
  have hmarked : Marked ((authService handler).perform i (.session (.markUsed lk.tokenId)) choice w)
      i lk.tokenId := ⟨_, List.mem_cons_self, marks_of_ok hresult⟩
  exact
    { pending := h.pending.perform _ choice
      looked := LookedUp.mono (perform_log _ choice w) h.looked
      known := h.known.persist (Stmt.tokensPersist _ choice w.state)
      holding := ⟨hunused, hopen, Or.inr hmarked⟩
      marked := hmarked
      stands := (Stmt.revoked_eq rfl choice w.state lk.familyId).trans hstood }

/-! ## The refresh handler -/

/-- A 200 is given only while the family of the presented token is open. -/
def Granted (presented : κ → Option String) (i : Nat) (hash : String) (response : Response)
    (w : AuthWorld κ) : Prop :=
  response.status = 200 → ∃ lk, Rotating presented i hash lk w

theorem triple_refusal {response : Response} (hstatus : response.status ≠ 200) :
    (revocationContract env presented handler).Triple i K (pure response)
      (Granted presented i hash) :=
  triple_pure _ fun _ _ _ h => absurd h hstatus

/-- Whatever a program does before refusing keeps the contract. -/
theorem triple_before_refusal {α : Type} (p : Handler α) {response : Response}
    (hstatus : response.status ≠ 200) :
    (revocationContract env presented handler).Triple i K (p >>= fun _ => pure response)
      (Granted presented i hash) := by
  apply triple_bind _ (Contract.Keeps.triple _ (keeps_revocation p))
  intro _
  exact triple_refusal hstatus

theorem triple_rotate (headers : Headers) (byBody : Bool) (hunused : lk.usedAt = none)
    (hopen : lk.familyRevoked = false) :
    (revocationContract env presented handler).Triple i (Reading presented i hash lk)
      (rotate env headers byBody lk) (Granted presented i hash) := by
  apply triple_bind _ (triple_markUsed hunused hopen)
  intro result
  rcases result with e | _ | _
  · exact triple_refusal (by simp [internal, problem])
  · exact triple_before_refusal _ (by simp [problem])
  · apply triple_weaken (L := Rotating presented i hash lk) _ _ fun w _ h => h rfl
    apply triple_bind _ triple_generate
    intro newRefresh
    apply triple_bind _ (triple_rotating (neutral_platform _))
    intro now
    apply triple_bind _ (triple_rotating ⟨rfl, fun _ => rfl⟩)
    intro inserted
    cases inserted with
    | error e => exact triple_refusal (by simp [internal, problem])
    | ok id =>
      apply triple_bind _ (triple_rotating (neutral_platform _))
      intro access
      cases access with
      | error e => exact triple_refusal (by simp [internal, problem])
      | ok access =>
        apply triple_bind _ (triple_rotating (neutral_platform _))
        intro _
        apply triple_bind _ (triple_rotating ⟨rfl, fun _ => rfl⟩)
        intro _
        exact triple_pure _ fun _ _ h _ => ⟨lk, h⟩

theorem triple_refresh (headers : Headers) (cookie : Option String) (body : OptionalRefreshBody) :
    (revocationContract env presented handler).Triple i (Pending presented i)
      (refresh env headers cookie body) fun response w => response.status = 200 →
        ∃ raw byBody, refreshTokenFrom cookie body = some (raw, byBody) ∧
          Granted presented i (env.hashToken raw) response w := by
  unfold refresh
  split
  · exact triple_pure _ fun _ _ _ h => by simp [unauthorized, problem] at h
  · rename_i raw byBody hpresented
    apply triple_post (R := Granted presented i (env.hashToken raw)) _ _
      fun response w _ h hstatus => ⟨raw, byBody, hpresented, h⟩
    apply triple_bind _ (triple_keep stable_pending fun _ choice h => h.perform _ choice)
    intro pool
    cases pool with
    | error e => exact triple_refusal (by simp [internal, problem])
    | ok _ =>
      apply triple_bind _ (triple_findByHash (env.hashToken raw))
      intro lookup
      rcases lookup with e | _ | lk
      · exact triple_refusal (by simp [internal, problem])
      · exact triple_refusal (by simp [unauthorized, problem])
      · apply triple_weaken (L := Reading presented i (env.hashToken raw) lk) _ _
          fun w _ h => h lk rfl
        have hclear : unauthorizedClear.status ≠ 200 := by
          simp [unauthorizedClear, unauthorized, problem]
        apply triple_dite
        · intro _
          exact triple_refusal hclear
        · intro hopen
          apply triple_bind _ (triple_reading (neutral_platform _))
          intro now
          apply triple_ite
          · exact triple_before_refusal _ (by simp [problem])
          · apply triple_dite
            · intro _
              apply triple_bind _
                (Contract.Keeps.triple _ (keeps_revocation (session _)))
              intro _
              exact triple_before_refusal _ hclear
            · intro hunused
              apply triple_ite
              · exact triple_refusal hclear
              · apply triple_bind _ (triple_reading (neutral_user _))
                intro status
                cases status with
                | error e => exact triple_refusal (by simp [internal, problem])
                | ok status =>
                  apply triple_ite
                  · exact triple_rotate headers byBody (by simpa using hunused)
                      (by simpa using hopen)
                  · exact triple_before_refusal _ hclear

end IntelliPilot.Auth.Revocation
