import IntelliPilot.Statement.Beside

/-! # Handlers over statements that may fail

A handler is a program that may stop with a refusal. Its statements return a
result or the error of the database; the handler refuses, goes on with a
default, or decides on the result itself.
-/

namespace IntelliPilot.Statement

variable {Stmt : Type → Type} {σ ι δ π α β : Type}

/-- The result of a statement, whichever it is. -/
def attempted (stmt : Stmt (Except δ α)) : ExceptT π (Prog Stmt) (Except δ α) :=
  ExceptT.mk (.step stmt fun result => .done (.ok result))

/-- The result of a statement; where it fails, the handler refuses. -/
def orRefuse (stmt : Stmt (Except δ α)) (problem : π) : ExceptT π (Prog Stmt) α :=
  ExceptT.mk (.step stmt fun result => .done (result.mapError fun _ => problem))

/-- The result of a statement, or a default where it fails. -/
def orDefault (stmt : Stmt (Except δ α)) (default : α) : ExceptT π (Prog Stmt) α :=
  ExceptT.mk (.step stmt fun result => .done (.ok (result.toOption.getD default)))

/-- A decision made without the database. -/
def given (result : Except π α) : ExceptT π (Prog Stmt) α := ExceptT.mk (.done result)

def refuseUnless (ok : Bool) (problem : π) : ExceptT π (Prog Stmt) Unit :=
  if ok then pure () else throw problem

/-! ## Alone -/

section Stays

variable {exec : {β : Type} → Stmt β → ι → σ → β × σ} {C : ι → Prop} {I : σ → Prop} {E : π → Prop}

/-- A statement that keeps `I` and whose results, where it does not fail, are of `P`. -/
def Finds (exec : {β : Type} → Stmt β → ι → σ → β × σ) (C : ι → Prop) (I : σ → Prop)
    (stmt : Stmt (Except δ α)) (P : α → Prop) : Prop :=
  ∀ choice s, C choice → I s →
    I (exec stmt choice s).2 ∧ ∀ a, (exec stmt choice s).1 = .ok a → P a

variable {stmt : Stmt (Except δ α)} {P : α → Prop}

theorem stays_attempted (h : Finds exec C I stmt P) :
    Stays exec C I (attempted stmt) (fun result => ∀ a, result = .ok a → P a) E := by
  intro s hI choice hchoice
  exact h choice s hchoice hI

theorem stays_orRefuse (h : Finds exec C I stmt P) {problem : π} (hE : E problem) :
    Stays exec C I (orRefuse stmt problem) P E := by
  intro s hI choice hchoice
  obtain ⟨hstate, hresult⟩ := h choice s hchoice hI
  cases hexec : (exec stmt choice s).1 with
  | error e => exact ⟨hstate, hE⟩
  | ok a => exact ⟨hstate, hresult a hexec⟩

theorem stays_orDefault (h : Finds exec C I stmt P) {default : α} (hdefault : P default) :
    Stays exec C I (orDefault stmt default) P E := by
  intro s hI choice hchoice
  obtain ⟨hstate, hresult⟩ := h choice s hchoice hI
  cases hexec : (exec stmt choice s).1 with
  | error e => exact ⟨hstate, hdefault⟩
  | ok a => exact ⟨hstate, hresult a hexec⟩

theorem stays_given {result : Except π α} (hE : ∀ problem, result = .error problem → E problem) :
    Stays exec C I (given result : ExceptT π (Prog Stmt) α) (fun a => result = .ok a) E := by
  intro s hI
  cases result with
  | error problem => exact ⟨hI, hE problem rfl⟩
  | ok a => exact ⟨hI, rfl⟩

theorem stays_refuseUnless {ok : Bool} {problem : π} (hE : ok = false → E problem) :
    Stays exec C I (refuseUnless ok problem : ExceptT π (Prog Stmt) Unit) (fun _ => ok = true) E := by
  intro s hI
  cases ok with
  | false => exact ⟨hI, hE rfl⟩
  | true => exact ⟨hI, rfl⟩

end Stays

/-! ## Run alone -/

section RunAlone

variable {τ : Type} {exec : {β : Type} → Stmt β → ι → σ → β × σ} {stmt : Stmt (Except δ α)}
  {choices : Nat → ι} {s : σ} {f : α → ExceptT π (Prog Stmt) τ}

/-- A statement that fails ends the handler; what it returns goes on. -/
theorem alone_orRefuse_bind {problem : π} :
    (orRefuse stmt problem >>= f).run.alone exec choices s =
      match (exec stmt (choices 0) s).1 with
      | .ok a => (f a).run.alone exec (fun n => choices (n + 1)) (exec stmt (choices 0) s).2
      | .error _ => (.error problem, (exec stmt (choices 0) s).2) := by
  show Prog.alone exec (.step stmt _) choices s = _
  rw [Prog.alone]
  cases (exec stmt (choices 0) s).1 with
  | error e => rfl
  | ok a => rfl

theorem alone_given_bind {result : Except π α} :
    (given result >>= f).run.alone exec choices s =
      match result with
      | .ok a => (f a).run.alone exec choices s
      | .error problem => (.error problem, s) := by
  cases result with
  | error problem => rfl
  | ok a => rfl

theorem alone_refuseUnless_bind {ok : Bool} {problem : π} {f : Unit → ExceptT π (Prog Stmt) τ} :
    (refuseUnless ok problem >>= f).run.alone exec choices s =
      if ok then (f ()).run.alone exec choices s else (.error problem, s) := by
  cases ok with
  | false => rfl
  | true => rfl

end RunAlone

/-! ## Run alone under one choice -/

section Evaluated

variable {exec : {β : Type} → Stmt β → ι → σ → β × σ} {choice : ι} {s : σ}

theorem Prog.alone_const_bind {ρ : Type} (p : Prog Stmt α) (f : α → Prog Stmt ρ) (s : σ) :
    (p >>= f).alone exec (fun _ => choice) s =
      (f (p.alone exec (fun _ => choice) s).1).alone exec (fun _ => choice)
        (p.alone exec (fun _ => choice) s).2 := by
  induction p generalizing s with
  | done answer => rfl
  | step stmt next ih => exact ih _ _

/-- Answer and final state of a handler whose statements all meet the same choice. -/
def evaluated (exec : {β : Type} → Stmt β → ι → σ → β × σ) (choice : ι)
    (p : ExceptT π (Prog Stmt) α) (s : σ) : Except π α × σ :=
  p.run.alone exec (fun _ => choice) s

variable {p : ExceptT π (Prog Stmt) α} {f : α → ExceptT π (Prog Stmt) β}

theorem evaluated_bind :
    evaluated exec choice (p >>= f) s =
      match evaluated exec choice p s with
      | (.ok a, s') => evaluated exec choice (f a) s'
      | (.error problem, s') => (.error problem, s') := by
  unfold evaluated
  rw [ExceptT.run_bind, Prog.alone_const_bind]
  cases hp : p.run.alone exec (fun _ => choice) s with
  | mk result s' =>
    cases result with
    | error problem => rfl
    | ok a => rfl

theorem evaluated_pure (a : α) :
    evaluated exec choice (pure a : ExceptT π (Prog Stmt) α) s = (.ok a, s) := rfl

theorem evaluated_attempted (stmt : Stmt (Except δ α)) :
    evaluated exec choice (attempted stmt : ExceptT π (Prog Stmt) (Except δ α)) s =
      (.ok (exec stmt choice s).1, (exec stmt choice s).2) := rfl

theorem evaluated_orRefuse (stmt : Stmt (Except δ α)) (problem : π) :
    evaluated exec choice (orRefuse stmt problem) s =
      ((exec stmt choice s).1.mapError fun _ => problem, (exec stmt choice s).2) := rfl

theorem evaluated_orDefault (stmt : Stmt (Except δ α)) (default : α) :
    evaluated exec choice (orDefault stmt default : ExceptT π (Prog Stmt) α) s =
      (.ok ((exec stmt choice s).1.toOption.getD default), (exec stmt choice s).2) := rfl

theorem evaluated_given (result : Except π α) :
    evaluated exec choice (given result : ExceptT π (Prog Stmt) α) s = (result, s) := rfl

theorem evaluated_refuseUnless (ok : Bool) (problem : π) :
    evaluated exec choice (refuseUnless ok problem : ExceptT π (Prog Stmt) Unit) s =
      (if ok then .ok () else .error problem, s) := by
  cases ok with
  | false => rfl
  | true => rfl

/-- How a handler in two parts can end well. -/
theorem evaluated_bind_ok {b : β} {s' : σ} :
    evaluated exec choice (p >>= f) s = (.ok b, s') ↔
      ∃ a s₁, evaluated exec choice p s = (.ok a, s₁) ∧ evaluated exec choice (f a) s₁ = (.ok b, s') := by
  rw [evaluated_bind]
  constructor
  · intro h
    split at h
    · rename_i a s₁ heq
      exact ⟨a, s₁, heq, h⟩
    · cases h
  · rintro ⟨a, s₁, hp, hf⟩
    rw [hp]
    exact hf

/-- A handler of statements that only read leaves everything as it was. -/
theorem evaluated_reads {P : {β : Type} → Stmt β → Prop}
    (hreads : ∀ {β : Type} (stmt : Stmt β) (choice : ι) (s : σ), P stmt → (exec stmt choice s).2 = s)
    (hp : p.run.Only P) (s : σ) : (evaluated exec choice p s).2 = s := by
  have hends : p.run.Ends exec (fun _ => True) (fun _ s' => s' = s) s :=
    Prog.ends_of_only
      (fun stmt choice s' hstmt hs' => (hreads stmt choice s' hstmt).trans hs') hp rfl
  exact hends.alone fun _ => trivial

/-- A handler in two parts, where the first only reads: it ends there, or goes on from the state it
found. -/
theorem evaluated_bind_reads (f : α → ExceptT π (Prog Stmt) β)
    (hp : (evaluated exec choice p s).2 = s) :
    (evaluated exec choice (p >>= f) s).2 = s ∨
      ∃ a, evaluated exec choice p s = (.ok a, s) ∧
        evaluated exec choice (p >>= f) s = evaluated exec choice (f a) s := by
  rw [evaluated_bind]
  cases hresult : evaluated exec choice p s with
  | mk result s₁ =>
    rw [hresult] at hp
    obtain rfl : s₁ = s := hp
    cases result with
    | error problem => exact Or.inl rfl
    | ok a => exact Or.inr ⟨a, rfl, rfl⟩

end Evaluated

/-! ## Among others -/

section Only

variable {P : {β : Type} → Stmt β → Prop} {stmt : Stmt (Except δ α)}

theorem only_attempted (h : P stmt) :
    (attempted stmt : ExceptT π (Prog Stmt) (Except δ α)).run.Only P := ⟨h, fun _ => trivial⟩

theorem only_orRefuse (h : P stmt) (problem : π) : (orRefuse stmt problem).run.Only P :=
  ⟨h, fun _ => trivial⟩

theorem only_orDefault (h : P stmt) (default : α) :
    (orDefault stmt default : ExceptT π (Prog Stmt) α).run.Only P := ⟨h, fun _ => trivial⟩

theorem only_given (result : Except π α) :
    (given result : ExceptT π (Prog Stmt) α).run.Only P := trivial

theorem only_refuseUnless (ok : Bool) (problem : π) :
    (refuseUnless ok problem : ExceptT π (Prog Stmt) Unit).run.Only P := by
  cases ok <;> trivial

/-- What comes after a check may use it. -/
theorem only_refuseUnless_bind {ok : Bool} {problem : π} {f : Unit → ExceptT π (Prog Stmt) α}
    (h : ok = true → (f ()).run.Only P) : (refuseUnless ok problem >>= f).run.Only P := by
  cases ok with
  | false => trivial
  | true => exact h rfl

end Only

section Recounts

variable {κ ρ : Type} {ok : List (Event Stmt κ ρ) → Prop} {events : List (Event Stmt κ ρ)}
  {E : π → List (Event Stmt κ ρ) → Prop} {stmt : Stmt (Except δ α)}

theorem recounts_attempted {Q : Except δ α → List (Event Stmt κ ρ) → Prop}
    (h : ∀ result, ok (.ran stmt result :: events) ∧ Q result (.ran stmt result :: events)) :
    Recounts ok (attempted stmt) Q E events := h

variable {Q : α → List (Event Stmt κ ρ) → Prop}

theorem recounts_orRefuse {problem : π} (hok : ∀ result, ok (.ran stmt result :: events))
    (hQ : ∀ a, Q a (.ran stmt (.ok a) :: events))
    (hE : ∀ e, E problem (.ran stmt (.error e) :: events)) :
    Recounts ok (orRefuse stmt problem) Q E events := by
  intro result
  refine ⟨hok result, ?_⟩
  cases result with
  | error e => exact hE e
  | ok a => exact hQ a

theorem recounts_orDefault {default : α} (hok : ∀ result, ok (.ran stmt result :: events))
    (hQ : ∀ a, Q a (.ran stmt (.ok a) :: events))
    (hdefault : ∀ e, Q default (.ran stmt (.error e) :: events)) :
    Recounts ok (orDefault stmt default) Q E events := by
  intro result
  refine ⟨hok result, ?_⟩
  cases result with
  | error e => exact hdefault e
  | ok a => exact hQ a

theorem recounts_given {result : Except π α} (hok : ∀ a, result = .ok a → Q a events)
    (herror : ∀ problem, result = .error problem → E problem events) :
    Recounts ok (given result) Q E events := by
  cases result with
  | ok a => exact hok a rfl
  | error problem => exact herror problem rfl

theorem recounts_refuseUnless {Q : Unit → List (Event Stmt κ ρ) → Prop} {test : Bool} {problem : π}
    (hok : test = true → Q () events) (herror : test = false → E problem events) :
    Recounts ok (refuseUnless test problem) Q E events := by
  cases test with
  | true => exact hok rfl
  | false => exact herror rfl

end Recounts

end IntelliPilot.Statement
