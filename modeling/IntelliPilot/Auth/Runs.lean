import IntelliPilot.Auth.ExternalPasswords
import IntelliPilot.Auth.Revocation

/-! # Runs of all the requests

What holds of every run of the authentication service, whichever requests
interleave: closed sessions stay closed, passwords stay set, and a table is only
written while a request runs that has business with it.
-/

namespace IntelliPilot.Auth

open Statement

/-- Sessions only move forward: no family reopens, and no token goes or becomes unused. -/
structure Forward (db db' : Db) : Prop where
  closed : ∀ family, revoked db family = true → revoked db' family = true
  tokens : TokensPersist db db'

/-- An account that has a password keeps one, if not the same. -/
theorem passwords_stay (env : Env) (cfg : Config Stmt Db AuthRequest Response)
    (labels : List (Label AuthRequest Choice)) (userId : Uuid)
    (h : HasPassword cfg.world.state userId) :
    HasPassword ((fullService env).run cfg labels).world.state userId := by
  apply (fullService env).state_run (R := fun db db' => HasPassword db userId →
    HasPassword db' userId)
  · exact fun _ => id
  · exact fun _ _ _ h h' => h' ∘ h
  · exact fun stmt choice db => HasPassword.exec stmt choice
  · exact h

theorem passwords_stay_alice : HasPassword ((fullService Env.transparent).run
    (Service.initial aliceDb) [.start (.totpDisable 0), .run 0 {}]).world.state 0 :=
  passwords_stay _ _ _ 0 ⟨by decide, by decide⟩

/-- The tables of a group that has tables of its own are as before. -/
def Unwritten : Write → Db → Db → Prop
  | .sessions, db, db' => db'.families = db.families ∧ db'.tokens = db.tokens
  | .resetTokens, db, db' => db'.resetTokens = db.resetTokens
  | .bindings, db, db' => db'.oidcIdentities = db.oidcIdentities
  | .providers, db, db' => db'.oidcProviders = db.oidcProviders
  | _, _, _ => True

theorem Unwritten.trans {write : Write} {db₁ db₂ db₃ : Db} (h : Unwritten write db₁ db₂)
    (h' : Unwritten write db₂ db₃) : Unwritten write db₁ db₃ := by
  cases write <;> simp_all [Unwritten]

theorem unwritten_exec {β : Type} {stmt : Stmt β} {write : Write} (h : stmt.write ≠ some write)
    (choice : Choice) (db : Db) : Unwritten write db (stmt.exec choice db).2 := by
  have hkept := stmt.unchanged choice db
  have hread : ∀ {α : Type} (run : Db → Except DbError α × Db), (∀ db, (run db).2 = db) →
      Unwritten write db (attempt choice (db.advance choice.elapse) run).2 := by
    intro α run hrun
    have hdb : Unwritten write db (db.advance choice.elapse) := by
      cases write <;> simp [Unwritten, Db.advance]
    exact attempt_state hdb (by rwa [hrun])
  cases write with
  | sessions =>
    cases stmt with
    | session stmt =>
      cases stmt with
      | findByHash hash => exact hread _ fun _ => rfl
      | _ => exact absurd rfl h
    | _ => exact hkept.sessions rfl
  | resetTokens =>
    cases stmt with
    | factor stmt =>
      apply (stmt.tables choice (db.advance choice.elapse)).resets
      cases stmt with
      | createReset _ _ _ | consumeReset _ => exact absurd rfl h
      | _ => exact nofun
    | _ => exact (hkept.factors rfl).1
  | bindings =>
    cases stmt with
    | oidc stmt =>
      cases stmt with
      | findBySubject providerId subject | countForUser userId => exact hread _ fun _ => rfl
      | stampIdentityLogin id =>
        exact bestEffort_state (P := Unwritten .bindings db) rfl rfl
      | link _ _ _ _ _ | unlink _ _ => exact absurd rfl h
      | _ => exact (OidcStmt.tables _ choice (db.advance choice.elapse)).identities nofun
    | _ => exact (hkept.oidc rfl).2.1
  | providers =>
    cases stmt with
    | oidc stmt =>
      cases stmt with
      | getProvider id | getBySlug slug => exact hread _ fun _ => rfl
      | createProvider _ | updateProvider _ _ => exact absurd rfl h
      | _ => exact (OidcStmt.tables _ choice (db.advance choice.elapse)).providers nofun
    | _ => exact (hkept.oidc rfl).1
  | _ => trivial

/-- A table stays as it is through every run in which no request with business there starts. -/
theorem written_by_entitled (env : Env) (db : Db) (labels : List (Label AuthRequest Choice))
    (write : Write) (hothers : ∀ request, .start request ∈ labels → write ∉ request.writes) :
    Unwritten write db ((fullService env).run (Service.initial db) labels).world.state := by
  have hrun := (fullService env).stepOf_run (P := fun request {_} stmt => Within request.writes stmt)
    (I := fun w => (∀ i request, (i, .began request) ∈ w.log → write ∉ request.writes) →
      Unwritten write db w.state) (handler_within env) ?_
    (Service.attributed_initial db) (fun _ => by cases write <;> simp [Unwritten, Service.initial])
    labels
  · refine hrun fun i request hbegan => hothers request ?_
    exact ((fullService env).started_of_began _ hbegan).resolve_left List.not_mem_nil
  · intro w w' hstep hI hbegan
    cases hstep with
    | void => exact hI hbegan
    | began _ _ | answered _ _ _ _ =>
      exact hI fun j other h => hbegan j other (List.mem_cons_of_mem _ h)
    | issued i request stmt choice hrequest hmay =>
      have hlater : ∀ j other, (j, .began other) ∈ w.log → write ∉ other.writes :=
        fun j other h => hbegan j other (List.mem_cons_of_mem _ h)
      refine (hI hlater).trans (unwritten_exec (fun heq => ?_) choice w.state)
      exact hlater i request hrequest (hmay write heq)

theorem written_by_entitled_logout : Unwritten .bindings aliceDb
    ((fullService Env.transparent).run (Service.initial aliceDb)
      [.start (.logout none (some (some "#a"))), .run 0 {}, .run 0 {}]).world.state :=
  written_by_entitled Env.transparent aliceDb _ .bindings (by simp [AuthRequest.writes])

end IntelliPilot.Auth
