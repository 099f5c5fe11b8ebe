import Mathlib.Data.List.Basic

/-! # Programs of atomic statements

A program is a finite tree whose inner nodes issue one statement each and
branch on the statement's result. Between two statements of a program any
number of statements of other programs may run; inside one statement nothing
else runs. The meaning of the statements is not fixed here.
-/

namespace IntelliPilot.Statement

/-- The results of a statement that may fail. -/
theorem forall_except {ε α : Type} {p : Except ε α → Prop} :
    (∀ result, p result) ↔ (∀ e, p (.error e)) ∧ ∀ a, p (.ok a) := by
  constructor
  · exact fun h => ⟨fun e => h (.error e), fun a => h (.ok a)⟩
  · rintro ⟨herror, hok⟩ (e | a)
    · exact herror e
    · exact hok a

/-- A program over the statement signature `Stmt` that ends with an answer. -/
inductive Prog (Stmt : Type → Type) (ρ : Type) : Type 1 where
  | done (answer : ρ)
  | step {β : Type} (stmt : Stmt β) (next : β → Prog Stmt ρ)

namespace Prog

variable {Stmt : Type → Type} {α ρ τ : Type}

/-- Sequencing: run the first program and continue with its answer. -/
def bind : Prog Stmt α → (α → Prog Stmt ρ) → Prog Stmt ρ
  | .done answer, f => f answer
  | .step stmt next, f => .step stmt fun result => (next result).bind f

instance : Monad (Prog Stmt) where
  pure := .done
  bind := bind

/-- The program that issues one statement and answers with its result. -/
def call {β : Type} (stmt : Stmt β) : Prog Stmt β := .step stmt .done

@[simp] theorem pure_eq (answer : ρ) : (pure answer : Prog Stmt ρ) = .done answer := rfl

@[simp] theorem done_bind (answer : α) (f : α → Prog Stmt ρ) :
    (.done answer : Prog Stmt α) >>= f = f answer := rfl

@[simp] theorem step_bind {β : Type} (stmt : Stmt β) (next : β → Prog Stmt α)
    (f : α → Prog Stmt ρ) :
    (.step stmt next : Prog Stmt α) >>= f = .step stmt fun result => next result >>= f := rfl

@[simp] theorem call_bind {β : Type} (stmt : Stmt β) (f : β → Prog Stmt ρ) :
    call stmt >>= f = .step stmt f := rfl

theorem bind_pure (p : Prog Stmt α) : p >>= pure = p := by
  induction p with
  | done answer => rfl
  | step stmt next ih =>
    simp only [step_bind]
    exact congrArg (Prog.step stmt) (funext ih)

theorem bind_assoc (p : Prog Stmt α) (f : α → Prog Stmt ρ) (g : ρ → Prog Stmt τ) :
    p >>= f >>= g = p >>= fun answer => f answer >>= g := by
  induction p with
  | done answer => rfl
  | step stmt next ih =>
    simp only [step_bind]
    exact congrArg (Prog.step stmt) (funext ih)

/-- Whatever the results, the program issues only statements satisfying `P`. -/
def Only (P : {β : Type} → Stmt β → Prop) : Prog Stmt ρ → Prop
  | .done _ => True
  | .step stmt next => P stmt ∧ ∀ result, (next result).Only P

section Only

variable {P : {β : Type} → Stmt β → Prop}

theorem only_pure (answer : ρ) : (pure answer : Prog Stmt ρ).Only P := trivial

theorem only_call {β : Type} {stmt : Stmt β} (h : P stmt) : (call stmt).Only P :=
  ⟨h, fun _ => trivial⟩

theorem only_bind {p : Prog Stmt α} {f : α → Prog Stmt ρ} (hp : p.Only P)
    (hf : ∀ result, (f result).Only P) : (p >>= f).Only P := by
  induction p with
  | done answer => exact hf answer
  | step stmt next ih => exact ⟨hp.1, fun result => ih result (hp.2 result)⟩

/-- A result that ends the program when it is an error. -/
theorem only_bind_except {ε : Type} {p : Prog Stmt (Except ε α)} {f : Except ε α → Prog Stmt ρ}
    (hp : p.Only P) (herror : ∀ e, (f (.error e)).Only P) (hok : ∀ a, (f (.ok a)).Only P) :
    (p >>= f).Only P := by
  apply only_bind hp
  intro result
  cases result with
  | error e => exact herror e
  | ok a => exact hok a

/-- A row looked up, where an error and a missing row end the program. -/
theorem only_bind_found {ε : Type} {p : Prog Stmt (Except ε (Option α))}
    {f : Except ε (Option α) → Prog Stmt ρ} (hp : p.Only P) (herror : ∀ e, (f (.error e)).Only P)
    (hnone : (f (.ok none)).Only P) (hsome : ∀ a, (f (.ok (some a))).Only P) :
    (p >>= f).Only P := by
  apply only_bind_except hp herror
  intro found
  cases found with
  | none => exact hnone
  | some a => exact hsome a

theorem only_ite {c : Prop} [Decidable c] {p q : Prog Stmt ρ} (hp : p.Only P) (hq : q.Only P) :
    (if c then p else q).Only P := by
  split
  · exact hp
  · exact hq

theorem only_true (p : Prog Stmt ρ) : p.Only fun _ => True := by
  induction p with
  | done answer => trivial
  | step stmt next ih => exact ⟨trivial, ih⟩

theorem only_done_iff (answer : ρ) : (.done answer : Prog Stmt ρ).Only P ↔ True := Iff.rfl

theorem only_step_iff {β : Type} (stmt : Stmt β) (next : β → Prog Stmt ρ) :
    (Prog.step stmt next).Only P ↔ P stmt ∧ ∀ result, (next result).Only P := Iff.rfl

theorem only_call_iff {β : Type} (stmt : Stmt β) : (call stmt).Only P ↔ P stmt :=
  ⟨And.left, only_call⟩

theorem only_ite_iff {c : Prop} [Decidable c] {p q : Prog Stmt ρ} :
    (if c then p else q).Only P ↔ (c → p.Only P) ∧ (¬ c → q.Only P) := by
  split
  · simp_all
  · simp_all

theorem Only.mono {Q : {β : Type} → Stmt β → Prop} {p : Prog Stmt ρ} (hp : p.Only P)
    (hPQ : ∀ {β : Type} (stmt : Stmt β), P stmt → Q stmt) : p.Only Q := by
  induction p with
  | done answer => trivial
  | step stmt next ih => exact ⟨hPQ stmt hp.1, fun result => ih result (hp.2 result)⟩

/-- The same program over a richer signature. -/
def translate {Stmt' : Type → Type} (f : {β : Type} → Stmt β → Stmt' β) :
    Prog Stmt ρ → Prog Stmt' ρ
  | .done answer => .done answer
  | .step stmt next => .step (f stmt) fun result => (next result).translate f

theorem only_translate {Stmt' : Type → Type} {f : {β : Type} → Stmt β → Stmt' β}
    {Q : {β : Type} → Stmt' β → Prop} {p : Prog Stmt ρ} (hp : p.Only fun stmt => Q (f stmt)) :
    (p.translate f).Only Q := by
  induction p with
  | done answer => trivial
  | step stmt next ih => exact ⟨hp.1, fun result => ih result (hp.2 result)⟩

end Only

end Prog

end IntelliPilot.Statement
