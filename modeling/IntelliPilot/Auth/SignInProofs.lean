import IntelliPilot.Auth.AuthService
import IntelliPilot.Statement.Ledger

/-! # Sign-in proofs

What a request shows beyond a password: a challenge token with a one-time code
or a recovery code, a passkey ceremony, the state of a single sign-on redirect
or a device request. Four of the six are rows, and the statement that accepts
one takes it away. The potential of a proof counts the rows from which it can
still be taken.
-/

namespace IntelliPilot.Auth

open Rows Statement

inductive SignInProof where
  | mfaToken (token : SealedToken)
  | totpCode (userId : Uuid) (code : String)
  | recoveryCode (id : Uuid)
  | ceremony (id : Uuid)
  | authState (state : String)
  | deviceRequest (id : Uuid)
  deriving DecidableEq

/-- The proofs that a statement takes away. -/
def SignInProof.consumable : SignInProof → Bool
  | .mfaToken _ => false
  | .totpCode _ _ => false
  | _ => true

/-- A statement has taken the proof. -/
def consumes : SignInProof → FullEvent → Bool
  | .recoveryCode id, .ran (.factor (.markCodeUsed id')) (.ok true) => id' == id
  | .ceremony id, .ran (.factor (.takeState id' .authenticate)) (.ok (some _)) => id' == id
  | .authState state, .ran (.oidc (.takeAuthRequest state')) (.ok (some _)) => state' == state
  | .deviceRequest id, .ran (.oidc (.consumeDeviceRequest id')) (.ok true) => id' == id
  | _, _ => false

/-- A statement has issued the proof anew; the other kinds of rows never repeat an identifier. -/
def issues : SignInProof → FullEvent → Bool
  | .authState state, .ran (.oidc (.insertAuthRequest new)) (.ok _) => new.state == state
  | _, _ => false

/-- Whether an identifier is still to be drawn from the counter. -/
def undrawn (nextId id : Uuid) : Nat := (decide (nextId ≤ id)).toNat

/-- How often the proof can still be taken without being issued. -/
def potential : SignInProof → Db → Nat
  | .recoveryCode id, db => db.recoveryCodes.countP (Factors.unusedCode id) + undrawn db.nextId id
  | .ceremony id, db =>
      db.webauthnStates.countP (Factors.takenState id .authenticate db.now) + undrawn db.nextId id
  | .authState state, db => db.oidcAuthRequests.countP (·.state == state)
  | .deviceRequest id, db => db.oidcDeviceRequests.countP (Oidc.unconsumed id) + undrawn db.nextId id
  | _, _ => 0

theorem undrawn_mono {nextId nextId' : Uuid} (h : nextId ≤ nextId') (id : Uuid) :
    undrawn nextId' id ≤ undrawn nextId id := by
  unfold undrawn
  by_cases hid : nextId' ≤ id
  · exact Nat.le_of_eq (by rw [decide_eq_true hid, decide_eq_true (Nat.le_trans h hid)])
  · rw [decide_eq_false hid]
    exact Nat.zero_le _

/-- Drawing an identifier. -/
theorem undrawn_next (nextId id : Uuid) :
    (nextId == id).toNat + undrawn (nextId + 1) id = undrawn nextId id := by
  unfold undrawn
  rcases Nat.lt_trichotomy nextId id with hlt | rfl | hgt
  · rw [decide_eq_true (Nat.succ_le_of_lt hlt), decide_eq_true (Nat.le_of_lt hlt),
      beq_false_of_ne (Nat.ne_of_lt hlt)]
    rfl
  · rw [decide_eq_false (Nat.not_succ_le_self _), decide_eq_true (Nat.le_refl _), beq_self_eq_true]
    rfl
  · rw [decide_eq_false (Nat.not_le_of_lt (Nat.lt_succ_of_lt hgt)),
      decide_eq_false (Nat.not_le_of_lt hgt), beq_false_of_ne (Nat.ne_of_gt hgt)]
    rfl

/-- A new row counts for the identifier it draws only. -/
theorem countP_draw {α : Type} {p : α → Bool} {rows : List α} {row : α} {nextId id : Uuid}
    (hrow : p row = true → nextId = id) :
    (rows ++ [row]).countP p + undrawn (nextId + 1) id ≤ rows.countP p + undrawn nextId id := by
  have hdraw := undrawn_next nextId id
  rw [List.countP_append, List.countP_singleton]
  by_cases hp : p row = true
  · rw [hrow hp, beq_self_eq_true, Bool.toNat_true] at hdraw
    rw [if_pos hp, hrow hp]
    omega
  · rw [if_neg hp]
    omega

/-- The passing of time takes no row away but may let a ceremony expire. -/
theorem potential_advance (proof : SignInProof) (db : Db) (elapse : Nat) :
    potential proof (db.advance elapse) ≤ potential proof db := by
  cases proof with
  | ceremony id =>
    apply Nat.add_le_add_right
    apply List.countP_mono_left
    intro row _ htaken
    simp only [Factors.takenState, Bool.and_eq_true, decide_eq_true_eq] at htaken ⊢
    exact ⟨htaken.1, Nat.lt_of_le_of_lt (Nat.le_add_right _ _) htaken.2⟩
  | _ => exact Nat.le_refl _

/-- The statement spends no more of the proof than it takes from the potential and issues. -/
def Spends (proof : SignInProof) {β : Type} (stmt : Stmt β) (choice : Choice) (db : Db) : Prop :=
  (consumes proof (.ran stmt (stmt.exec choice db).1)).toNat +
      potential proof (stmt.exec choice db).2 ≤
    potential proof db + (issues proof (.ran stmt (stmt.exec choice db).1)).toNat

variable {proof : SignInProof} {β : Type} {choice : Choice} {db : Db}

/-- A statement that spends nothing and leaves no more rows to take. -/
theorem spends_none {stmt : Stmt β}
    (hspends : ∀ result : β, consumes proof (.ran stmt result) = false)
    (hle : potential proof (stmt.exec choice db).2 ≤ potential proof db) :
    Spends proof stmt choice db := by
  rw [Spends, hspends, Bool.toNat_false, Nat.zero_add]
  exact Nat.le_trans hle (Nat.le_add_right _ _)

/-- A fallible statement spends what its run spends, or nothing. -/
theorem spends_attempt {α : Type} {stmt : Stmt (Except DbError α)}
    {run : Db → Except DbError α × Db}
    (heffect : ∀ db, stmt.effect choice db = attempt choice db run)
    (hfault : consumes proof (.ran stmt (.error .other)) = false)
    (hrun : ∀ db, (consumes proof (.ran stmt (run db).1)).toNat + potential proof (run db).2 ≤
      potential proof db + (issues proof (.ran stmt (run db).1)).toNat) :
    Spends proof stmt choice db := by
  have hadvance := potential_advance proof db choice.elapse
  rw [Spends, Stmt.exec, heffect]
  unfold attempt
  split
  · rw [hfault, Bool.toNat_false, Nat.zero_add]
    exact Nat.le_trans hadvance (Nat.le_add_right _ _)
  · exact Nat.le_trans (hrun _) (Nat.add_le_add_right hadvance _)

/-- A fallible statement that spends nothing and leaves no more rows to take. -/
theorem spends_quiet {α : Type} {stmt : Stmt (Except DbError α)} {run : Db → Except DbError α × Db}
    (heffect : ∀ db, stmt.effect choice db = attempt choice db run)
    (hspends : ∀ result, consumes proof (.ran stmt result) = false)
    (hrun : ∀ db, potential proof (run db).2 ≤ potential proof db) :
    Spends proof stmt choice db := by
  apply spends_attempt heffect (hspends _)
  intro db
  rw [hspends, Bool.toNat_false, Nat.zero_add]
  exact Nat.le_trans (hrun db) (Nat.le_add_right _ _)

/-- A best-effort statement that spends nothing and deletes or leaves rows. -/
theorem spends_bestEffort {stmt : Stmt Unit} {run : Db → Db}
    (heffect : ∀ db, stmt.effect choice db = bestEffort choice db run)
    (hspends : consumes proof (.ran stmt ()) = false)
    (hrun : ∀ db, potential proof (run db) ≤ potential proof db) : Spends proof stmt choice db := by
  have hadvance := potential_advance proof db choice.elapse
  apply spends_none (fun _ => hspends)
  rw [Stmt.exec, heffect]
  unfold bestEffort
  dsimp only
  split
  · exact hadvance
  · exact Nat.le_trans (hrun _) hadvance

theorem ledger_of_spends (env : Env)
    (h : ∀ {β : Type} (stmt : Stmt β) (choice : Choice) (db : Db), Spends proof stmt choice db) :
    (fullService env).Ledger (consumes proof) (issues proof) (potential proof) where
  statement := h
  began _ := by cases proof <;> rfl
  answered _ _ := by cases proof <;> rfl

/-! ## Recovery codes -/

theorem insertCodes_potential (userId : Uuid) (hashes : List String) (db : Db) (id : Uuid) :
    potential (.recoveryCode id) (hashes.foldl (Factors.insertCode userId) db) ≤
      potential (.recoveryCode id) db := by
  induction hashes generalizing db with
  | nil => exact Nat.le_refl _
  | cons hash hashes ih =>
    have hinsert : potential (.recoveryCode id) (Factors.insertCode userId db hash) ≤
        potential (.recoveryCode id) db := by
      apply countP_draw
      intro hunused
      simpa [Factors.unusedCode] using hunused
    exact Nat.le_trans (ih _) hinsert

theorem markCodeUsed_potential (id id' : Uuid) (db : Db) :
    ((Factors.markCodeUsed id' db).1 && id' == id).toNat +
        potential (.recoveryCode id) (Factors.markCodeUsed id' db).2 ≤
      potential (.recoveryCode id) db := by
  have hle : (updateWhere (Factors.unusedCode id')
      (fun code : RecoveryCode => { code with usedAt := some db.now }) db.recoveryCodes).countP
      (Factors.unusedCode id) ≤ db.recoveryCodes.countP (Factors.unusedCode id) := by
    apply countP_updateWhere_le
    intro row hrow
    simp [Factors.unusedCode] at hrow
  simp only [potential, Factors.markCodeUsed]
  by_cases hspent : (db.recoveryCodes.any (Factors.unusedCode id') && id' == id) = true
  · -- the row that was taken no longer counts
    obtain ⟨hany, hid⟩ := Bool.and_eq_true_iff.mp hspent
    obtain rfl := beq_iff_eq.mp hid
    have hpos := countP_pos_of_any hany
    have hzero : (updateWhere (Factors.unusedCode id')
        (fun code : RecoveryCode => { code with usedAt := some db.now }) db.recoveryCodes).countP
        (Factors.unusedCode id') = 0 := by
      apply countP_updateWhere_self
      intro row
      simp [Factors.unusedCode]
    rw [hspent, hzero]
    rw [Bool.toNat_true]
    omega
  · rw [Bool.eq_false_iff.mpr hspent]
    rw [Bool.toNat_false]
    omega

theorem spends_code (id : Uuid) (stmt : Stmt β) (choice : Choice) (db : Db) :
    Spends (.recoveryCode id) stmt choice db := by
  by_cases htable : stmt.factorTable = some .codes
  · cases stmt with
    | factor stmt =>
      cases stmt with
      | replaceRecoveryCodes userId hashes =>
        apply spends_quiet (fun _ => rfl) (fun _ => rfl)
        intro db
        exact Nat.le_trans (insertCodes_potential userId hashes _ id)
          (Nat.add_le_add_right (countP_deleteWhere_le _ _ _) _)
      | markCodeUsed id' =>
        apply spends_attempt (fun _ => rfl) rfl
        intro db
        have hle := markCodeUsed_potential id id' db
        cases hmarked : (Factors.markCodeUsed id' db).1 with
        | false | true =>
          rw [hmarked] at hle
          exact hle
      | deleteRecoveryCodes userId =>
        apply spends_quiet (fun _ => rfl) (fun _ => rfl)
        intro db
        exact Nat.add_le_add_right (countP_deleteWhere_le _ _ _) _
      | listUnusedCodes userId =>
        exact spends_quiet (fun _ => rfl) (fun _ => rfl) fun _ => Nat.le_refl _
      | _ => simp [Stmt.factorTable, FactorStmt.table] at htable
    | _ => simp [Stmt.factorTable] at htable
  · apply spends_none
    · intro result
      cases stmt with
      | factor stmt =>
        cases stmt with
        | markCodeUsed id' => exact absurd rfl htable
        | _ => rfl
      | _ => rfl
    · simp only [potential, Stmt.codes_unchanged htable]
      exact Nat.add_le_add_left (undrawn_mono (stmt.unchanged choice db).counters.1 id) _

/-! ## Passkey ceremonies -/

theorem saveState_potential (userId : Option Uuid) (kind : CeremonyKind) (state : String)
    (expiresAt : Time) (id : Uuid) (db : Db) :
    potential (.ceremony id) (Factors.saveState userId kind state expiresAt db).2 ≤
      potential (.ceremony id) db := by
  unfold Factors.saveState
  split
  · apply countP_draw
    intro htaken
    simp only [Factors.takenState, Bool.and_eq_true, beq_iff_eq] at htaken
    exact htaken.1.1
  · exact Nat.le_refl _

theorem takeState_potential (id id' : Uuid) (kind : CeremonyKind) (db : Db) :
    (kind == .authenticate && ((Factors.takeState id' kind db).1.isSome && id' == id)).toNat +
        potential (.ceremony id) (Factors.takeState id' kind db).2 ≤
      potential (.ceremony id) db := by
  have hle := countP_deleteWhere_le (Factors.takenState id .authenticate db.now)
    (Factors.takenState id' kind db.now) db.webauthnStates
  simp only [potential, Factors.takeState]
  by_cases hspent : (kind == .authenticate && (((db.webauthnStates.find? (Factors.takenState id' kind
      db.now)).map fun row => (row.userId, row.state)).isSome && id' == id)) = true
  · simp only [Bool.and_eq_true, beq_iff_eq, Option.isSome_map] at hspent
    obtain ⟨rfl, hfound, rfl⟩ := hspent
    rw [List.find?_isSome] at hfound
    obtain ⟨row, hrow, htaken⟩ := hfound
    have hpos := List.countP_pos_iff.mpr ⟨row, hrow, htaken⟩
    rw [countP_deleteWhere_self]
    have hone := Bool.toNat_le (CeremonyKind.authenticate == .authenticate &&
      (((db.webauthnStates.find? (Factors.takenState id' .authenticate db.now)).map
        fun row => (row.userId, row.state)).isSome && id' == id'))
    omega
  · rw [Bool.eq_false_iff.mpr hspent]
    rw [Bool.toNat_false]
    omega

theorem spends_ceremony (id : Uuid) (stmt : Stmt β) (choice : Choice) (db : Db) :
    Spends (.ceremony id) stmt choice db := by
  by_cases htable : stmt.factorTable = some .states
  · cases stmt with
    | factor stmt =>
      cases stmt with
      | saveState userId kind state expiresAt =>
        exact spends_quiet (fun _ => rfl) (fun _ => rfl)
          (saveState_potential userId kind state expiresAt id)
      | takeState id' kind =>
        apply spends_attempt (fun _ => rfl) (by cases kind <;> rfl)
        intro db
        have hle := takeState_potential id id' kind db
        cases kind with
        | register => exact hle
        | authenticate =>
          cases htaken : (Factors.takeState id' .authenticate db).1 with
          | none | some found =>
            rw [htaken] at hle
            exact hle
      | _ => simp [Stmt.factorTable, FactorStmt.table] at htable
    | _ => simp [Stmt.factorTable] at htable
  · apply spends_none
    · intro result
      cases stmt with
      | factor stmt =>
        cases stmt with
        | takeState id' kind => exact absurd rfl htable
        | _ => rfl
      | _ => rfl
    · -- the ceremonies are the same, though some may have expired
      have hnow := (stmt.unchanged choice db).counters.2
      simp only [potential, Stmt.states_unchanged htable]
      apply Nat.add_le_add _ (undrawn_mono (stmt.unchanged choice db).counters.1 id)
      apply List.countP_mono_left
      intro row _ htaken
      simp only [Factors.takenState, Bool.and_eq_true, decide_eq_true_eq] at htaken ⊢
      exact ⟨htaken.1, Nat.lt_of_le_of_lt hnow htaken.2⟩

/-! ## Authorization states -/

theorem insertAuthRequest_potential (new : OidcAuthRequest) (state : String) (db : Db) :
    potential (.authState state) (Oidc.insertAuthRequest new db).2 ≤
      potential (.authState state) db +
        (issues (.authState state) (.ran (.oidc (.insertAuthRequest new))
          (Oidc.insertAuthRequest new db).1)).toNat := by
  unfold Oidc.insertAuthRequest
  split
  · exact Nat.le_add_right _ _
  · split
    · simp only [potential, issues, List.countP_append, List.countP_singleton]
      cases new.state == state with
      | true => exact Nat.le_refl _
      | false => exact Nat.le_refl _
    · exact Nat.le_add_right _ _

theorem takeAuthRequest_potential (state state' : String) (db : Db) :
    ((Oidc.takeAuthRequest state' db).1.isSome && state' == state).toNat +
        potential (.authState state) (Oidc.takeAuthRequest state' db).2 ≤
      potential (.authState state) db := by
  have hle := countP_deleteWhere_le (·.state == state) (·.state == state') db.oidcAuthRequests
  simp only [potential, Oidc.takeAuthRequest]
  by_cases hspent : (((db.oidcAuthRequests.find? (·.state == state')).filter
      fun row => decide (db.now < row.expiresAt)).isSome && state' == state) = true
  · obtain ⟨hfound, hstate⟩ := Bool.and_eq_true_iff.mp hspent
    obtain rfl := beq_iff_eq.mp hstate
    obtain ⟨row, hrow⟩ := Option.isSome_iff_exists.mp hfound
    have hmem := List.mem_of_find?_eq_some (Option.filter_eq_some_iff.mp hrow).1
    have hmatch := List.find?_some (Option.filter_eq_some_iff.mp hrow).1
    have hpos : 0 < db.oidcAuthRequests.countP (·.state == state') :=
      List.countP_pos_iff.mpr ⟨row, hmem, hmatch⟩
    rw [hspent, countP_deleteWhere_self, Bool.toNat_true]
    omega
  · rw [Bool.eq_false_iff.mpr hspent, Bool.toNat_false]
    omega

theorem spends_authState (state : String) (stmt : Stmt β) (choice : Choice) (db : Db) :
    Spends (.authState state) stmt choice db := by
  by_cases htable : stmt.oidcTable = some .authRequests
  · cases stmt with
    | oidc stmt =>
      cases stmt with
      | purgeAuthRequests =>
        apply spends_bestEffort (fun _ => rfl) rfl
        intro db
        exact countP_deleteWhere_le _ _ _
      | insertAuthRequest new =>
        apply spends_attempt (fun _ => rfl) rfl
        intro db
        exact Nat.le_trans (Nat.le_of_eq (Nat.zero_add _)) (insertAuthRequest_potential new state db)
      | takeAuthRequest state' =>
        apply spends_attempt (fun _ => rfl) rfl
        intro db
        have hle := takeAuthRequest_potential state state' db
        cases htaken : (Oidc.takeAuthRequest state' db).1 with
        | none | some found =>
          rw [htaken] at hle
          exact hle
      | _ => simp [Stmt.oidcTable, OidcStmt.table] at htable
    | _ => simp [Stmt.oidcTable] at htable
  · apply spends_none
    · intro result
      cases stmt with
      | oidc stmt =>
        cases stmt with
        | takeAuthRequest state' => exact absurd rfl htable
        | _ => rfl
      | _ => rfl
    · exact Nat.le_of_eq (by rw [potential, potential, Stmt.authRequests_unchanged htable])

/-! ## Device requests -/

theorem insertDeviceRequest_potential (new : NewDeviceRequest) (id : Uuid) (db : Db) :
    potential (.deviceRequest id) (Oidc.insertDeviceRequest new db).2 ≤
      potential (.deviceRequest id) db := by
  unfold Oidc.insertDeviceRequest
  split
  · exact Nat.le_refl _
  · split
    · apply countP_draw
      intro hunconsumed
      simpa [Oidc.unconsumed, Oidc.NewDeviceRequest.row] using hunconsumed
    · exact Nat.le_refl _

theorem consumeDeviceRequest_potential (id id' : Uuid) (db : Db) :
    ((Oidc.consumeDeviceRequest id' db).1 && id' == id).toNat +
        potential (.deviceRequest id) (Oidc.consumeDeviceRequest id' db).2 ≤
      potential (.deviceRequest id) db := by
  have hle : (updateWhere (Oidc.unconsumed id')
      (fun row : OidcDeviceRequest => { row with consumedAt := some db.now })
      db.oidcDeviceRequests).countP (Oidc.unconsumed id) ≤
      db.oidcDeviceRequests.countP (Oidc.unconsumed id) := by
    apply countP_updateWhere_le
    intro row hrow
    simp [Oidc.unconsumed] at hrow
  simp only [potential, Oidc.consumeDeviceRequest]
  by_cases hspent : (db.oidcDeviceRequests.any (Oidc.unconsumed id') && id' == id) = true
  · obtain ⟨hany, hid⟩ := Bool.and_eq_true_iff.mp hspent
    obtain rfl := beq_iff_eq.mp hid
    have hpos := countP_pos_of_any hany
    have hzero : (updateWhere (Oidc.unconsumed id')
        (fun row : OidcDeviceRequest => { row with consumedAt := some db.now })
        db.oidcDeviceRequests).countP (Oidc.unconsumed id') = 0 := by
      apply countP_updateWhere_self
      intro row
      simp [Oidc.unconsumed]
    rw [hspent, hzero, Bool.toNat_true]
    omega
  · rw [Bool.eq_false_iff.mpr hspent, Bool.toNat_false]
    omega

theorem spends_deviceRequest (id : Uuid) (stmt : Stmt β) (choice : Choice) (db : Db) :
    Spends (.deviceRequest id) stmt choice db := by
  by_cases htable : stmt.oidcTable = some .deviceRequests
  · cases stmt with
    | oidc stmt =>
      cases stmt with
      | purgeDeviceRequests | deleteDeviceRequest id' =>
        apply spends_bestEffort (fun _ => rfl) rfl
        intro db
        exact Nat.add_le_add_right (countP_deleteWhere_le _ _ _) _
      | insertDeviceRequest new =>
        exact spends_quiet (fun _ => rfl) (fun _ => rfl) (insertDeviceRequest_potential new id)
      | findDeviceRequest pollTokenHash =>
        exact spends_quiet (fun _ => rfl) (fun _ => rfl) fun _ => Nat.le_refl _
      | stampDevicePoll id' =>
        apply spends_bestEffort (fun _ => rfl) rfl
        intro db
        apply Nat.add_le_add_right
        apply countP_updateWhere_le
        exact fun _ h => h
      | consumeDeviceRequest id' =>
        apply spends_attempt (fun _ => rfl) rfl
        intro db
        have hle := consumeDeviceRequest_potential id id' db
        cases hconsumed : (Oidc.consumeDeviceRequest id' db).1 with
        | false | true =>
          rw [hconsumed] at hle
          exact hle
      | _ => simp [Stmt.oidcTable, OidcStmt.table] at htable
    | _ => simp [Stmt.oidcTable] at htable
  · apply spends_none
    · intro result
      cases stmt with
      | oidc stmt =>
        cases stmt with
        | consumeDeviceRequest id' => exact absurd rfl htable
        | _ => rfl
      | _ => rfl
    · simp only [potential, Stmt.deviceRequests_unchanged htable]
      exact Nat.add_le_add_left (undrawn_mono (stmt.unchanged choice db).counters.1 id) _

/-! ## Every run -/

theorem potential_withoutProofs (proof : SignInProof) (db : Db) :
    potential proof db.withoutProofs ≤ 1 := by
  have hundrawn : ∀ nextId id, undrawn nextId id ≤ 1 := fun _ _ => Bool.toNat_le _
  cases proof with
  | mfaToken token | totpCode userId code | authState state => exact Nat.zero_le _
  | recoveryCode id | ceremony id | deviceRequest id =>
    exact Nat.le_trans (Nat.le_of_eq (Nat.zero_add _)) (hundrawn _ _)

theorem spends_any (proof : SignInProof) (stmt : Stmt β) (choice : Choice) (db : Db) :
    Spends proof stmt choice db := by
  cases proof with
  | mfaToken token | totpCode userId code => exact spends_none (fun _ => rfl) (Nat.le_refl _)
  | recoveryCode id => exact spends_code id stmt choice db
  | ceremony id => exact spends_ceremony id stmt choice db
  | authState state => exact spends_authState state stmt choice db
  | deviceRequest id => exact spends_deviceRequest id stmt choice db

/-- The state was issued a second time. -/
def Reissued (proof : SignInProof) (w : FullWorld) : Prop := 2 ≤ w.count (issues proof)

/-- A row keeps its identifier, so it is not issued anew. -/
theorem not_issued (hstate : ∀ state, proof ≠ .authState state) (w : FullWorld) :
    w.count (issues proof) = 0 := by
  apply List.countP_eq_zero.mpr
  intro entry _
  cases proof with
  | authState state => exact absurd rfl (hstate state)
  | _ => simp [issues]

/-- No two requests take the same proof, unless it was issued a second time. -/
theorem consumed_once (env : Env) (db : Db) (labels : List (Label AuthRequest Choice)) {i j : Nat}
    {event event' : FullEvent}
    (hevent : (i, event) ∈ ((fullService env).run (Service.initial db.withoutProofs) labels).world.log)
    (hevent' : (j, event') ∈
      ((fullService env).run (Service.initial db.withoutProofs) labels).world.log)
    (hconsumes : consumes proof event = true) (hconsumes' : consumes proof event' = true) :
    i = j ∨
      Reissued proof ((fullService env).run (Service.initial db.withoutProofs) labels).world := by
  by_cases hne : i = j
  · exact Or.inl hne
  · right
    have htwo := World.two_le_count hne hevent hevent' hconsumes hconsumes'
    have hledger := Service.ledger_run _ (ledger_of_spends env (spends_any proof)) db.withoutProofs
      labels
    have hpotential := potential_withoutProofs proof db
    unfold Reissued
    by_cases hstate : ∃ state, proof = .authState state
    · obtain ⟨state, rfl⟩ := hstate
      have hzero : potential (.authState state) db.withoutProofs = 0 := rfl
      omega
    · have hissues := not_issued (fun state heq => hstate ⟨state, heq⟩)
        ((fullService env).run (Service.initial db.withoutProofs) labels).world
      omega

end IntelliPilot.Auth
