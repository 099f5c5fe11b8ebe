import IntelliPilot.Auth.Frames

/-! # What a statement does to the accounts

No statement removes an account or changes its id. Passwords are written by
two statements only and never taken away, and an account that is managed
elsewhere never becomes a local one.
-/

namespace IntelliPilot.Auth

open Rows

/-- The account whose password a statement writes. -/
def UserStmt.passwordOf {β : Type} : UserStmt β → Option Uuid
  | .setPassword id _ => some id
  | .setPasswordByOwner id _ => some id
  | _ => none

namespace Users

/-- What a statement may make of an account's id, source and password. -/
structure Rewritten {β : Type} (stmt : UserStmt β) (old new : User) : Prop where
  id : new.id = old.id
  authSource : new.authSource = old.authSource ∨ new.authSource = .ldap
  passwordHash : new.passwordHash = old.passwordHash ∨
    stmt.passwordOf = some old.id ∧ new.passwordHash.isSome = true

theorem Rewritten.refl {β : Type} (stmt : UserStmt β) (user : User) : Rewritten stmt user user :=
  ⟨rfl, Or.inl rfl, Or.inl rfl⟩

/-- The accounts after a statement: the old ones rewritten, then at most a new one. -/
def RowsKept {β : Type} (stmt : UserStmt β) (db db' : Db) : Prop :=
  ∃ (f : User → User) (new : List User), db'.users = db.users.map f ++ new ∧
    (∀ user, Rewritten stmt user (f user)) ∧
    (new = [] ∨ ∃ user, new = [user] ∧ user.id = db.nextId ∧ db'.nextId = db.nextId + 1)

theorem RowsKept.refl {β : Type} (stmt : UserStmt β) (db : Db) : RowsKept stmt db db :=
  ⟨id, [], by simp, Rewritten.refl stmt, Or.inl rfl⟩

theorem rowsKept_modify {β : Type} {stmt : UserStmt β} {f : User → User} {p : User → Bool}
    (hf : ∀ user, p user = true → Rewritten stmt user (f user)) (db : Db) :
    RowsKept stmt db (modify p f db) := by
  refine ⟨fun user => if p user then f user else user, [], by simp [modify, updateWhere], ?_,
    Or.inl rfl⟩
  intro user
  dsimp only
  split
  · exact hf user ‹_›
  · exact .refl stmt user

theorem rowsKept_guardedUpdate {β : Type} {stmt : UserStmt β} {id : Uuid} {guarded : Bool}
    {f : User → User} (hf : ∀ user, Rewritten stmt user (f user)) (db : Db) :
    RowsKept stmt db (guardedUpdate id guarded f db).2 := by
  unfold guardedUpdate
  split
  · exact .refl stmt db
  · split
    · exact .refl stmt db
    · split
      · exact .refl stmt db
      · exact rowsKept_modify (fun user _ => hf user) db

end Users

open Users in
theorem UserStmt.rowsKept {β : Type} (stmt : UserStmt β) (choice : Choice) (db : Db) :
    RowsKept stmt db (stmt.exec choice db).2 := by
  have hkept : ∀ {stmt : UserStmt β} {old new : User}, new.id = old.id →
      new.authSource = old.authSource → new.passwordHash = old.passwordHash →
      Rewritten stmt old new := fun hid hsource hhash => ⟨hid, Or.inl hsource, Or.inl hhash⟩
  cases stmt <;> refine attempt_state (P := RowsKept _ db) (.refl _ db) ?_
  case insertUser new =>
    simp only [Users.insertUser]
    split
    · exact .refl _ db
    · exact ⟨id, [NewUser.row new db.nextId], by simp, .refl _, Or.inr ⟨_, rfl, rfl, rfl⟩⟩
  case linkLdapUser id dn superadmin name =>
    simp only [Users.linkLdapUser]
    split
    · exact .refl _ db
    · refine rowsKept_modify ?_ db
      exact fun user _ => ⟨rfl, Or.inr rfl, Or.inl rfl⟩
  case setPassword id hash =>
    refine rowsKept_modify ?_ db
    intro user hmatch
    refine ⟨rfl, Or.inl rfl, Or.inr ⟨?_, rfl⟩⟩
    rw [UserStmt.passwordOf, beq_iff_eq.mp hmatch]
  case setPasswordByOwner id hash =>
    refine rowsKept_modify ?_ db
    intro user hmatch
    refine ⟨rfl, Or.inl rfl, Or.inr ⟨?_, rfl⟩⟩
    rw [UserStmt.passwordOf, beq_iff_eq.mp hmatch]
  case setSuperadmin id value =>
    refine rowsKept_guardedUpdate ?_ db
    exact fun _ => hkept rfl rfl rfl
  case setActive id value =>
    refine rowsKept_guardedUpdate ?_ db
    exact fun _ => hkept rfl rfl rfl
  case setBanned id value =>
    refine rowsKept_guardedUpdate ?_ db
    exact fun _ => hkept rfl rfl rfl
  case softDeleteGuarded id =>
    refine rowsKept_guardedUpdate ?_ db
    exact fun _ => hkept rfl rfl rfl
  case setExcludeFromTimeReports id value =>
    refine rowsKept_guardedUpdate ?_ db
    exact fun _ => hkept rfl rfl rfl
  all_goals
    first
    | exact .refl _ db
    | refine rowsKept_modify ?_ db
      exact fun _ _ => hkept rfl rfl rfl

/-! ## The primary key -/

/-- The ids of the accounts are distinct and have been handed out. -/
structure Keyed (db : Db) : Prop where
  nodup : (db.users.map (·.id)).Nodup
  lt : ∀ user ∈ db.users, user.id < db.nextId

theorem Keyed.eq_of_id {db : Db} (h : Keyed db) {user user' : User} (huser : user ∈ db.users)
    (huser' : user' ∈ db.users) (hid : user.id = user'.id) : user = user' :=
  List.inj_on_of_nodup_map h.nodup huser huser' hid

theorem Keyed.of_users {db db' : Db} (h : Keyed db) (husers : db'.users = db.users)
    (hle : db.nextId ≤ db'.nextId) : Keyed db' where
  nodup := by
    rw [husers]
    exact h.nodup
  lt user huser := by
    rw [husers] at huser
    exact Nat.lt_of_lt_of_le (h.lt user huser) hle

theorem Keyed.rowsKept {β : Type} {stmt : UserStmt β} {db db' : Db} (h : Keyed db)
    (hkept : Users.RowsKept stmt db db') (hle : db.nextId ≤ db'.nextId) : Keyed db' := by
  obtain ⟨f, new, husers, hf, hnew⟩ := hkept
  have hids : (db.users.map f).map (·.id) = db.users.map (·.id) := by
    rw [List.map_map]
    exact List.map_congr_left fun user _ => (hf user).id
  have hold : ∀ user ∈ db.users.map f, user.id < db.nextId := by
    intro user huser
    obtain ⟨old, hmem, rfl⟩ := List.mem_map.mp huser
    rw [(hf old).id]
    exact h.lt old hmem
  rcases hnew with rfl | ⟨fresh, rfl, hfresh, hnext⟩
  · rw [List.append_nil] at husers
    refine ⟨?_, ?_⟩
    · rw [husers, hids]
      exact h.nodup
    · intro user huser
      rw [husers] at huser
      exact Nat.lt_of_lt_of_le (hold user huser) hle
  · refine ⟨?_, ?_⟩
    · rw [husers, List.map_append, List.nodup_append, hids]
      refine ⟨h.nodup, List.nodup_singleton _, ?_⟩
      intro id hid id' hid'
      obtain ⟨old, hmem, rfl⟩ := List.mem_map.mp hid
      rw [List.mem_singleton.mp hid']
      change old.id ≠ fresh.id
      rw [hfresh]
      exact Nat.ne_of_lt (h.lt old hmem)
    · intro user huser
      rw [husers] at huser
      rw [hnext]
      rcases List.mem_append.mp huser with hmem | hmem
      · exact Nat.lt_succ_of_lt (hold user hmem)
      · rw [List.mem_singleton.mp hmem, hfresh]
        exact Nat.lt_succ_self _

theorem Keyed.advance {db : Db} (h : Keyed db) (elapse : Nat) : Keyed (db.advance elapse) :=
  ⟨h.nodup, h.lt⟩

theorem keyed_exec {β : Type} (stmt : Stmt β) (choice : Choice) {db : Db} (h : Keyed db) :
    Keyed (stmt.exec choice db).2 := by
  have hle := (stmt.unchanged choice db).counters.1
  cases hstmt : stmt.isUser with
  | false => exact h.of_users ((stmt.unchanged choice db).users hstmt) hle
  | true =>
    cases stmt with
    | user stmt =>
      exact (h.advance choice.elapse).rowsKept (stmt.rowsKept choice _) hle
    | _ => simp [Stmt.isUser] at hstmt

end IntelliPilot.Auth
