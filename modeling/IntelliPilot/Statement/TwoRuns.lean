import IntelliPilot.Statement.Alone
import IntelliPilot.Statement.Requests

/-! # Two runs of one server

What an observer can tell apart by sending the same requests to two states. A
relation between the states is kept as long as the answers agree; where they
agree exactly under a condition on single requests, two whole runs are alike
exactly under the condition on all of their requests.
-/

namespace IntelliPilot.Statement

namespace Server

variable {σ κ ρ o : Type} (srv : Server σ κ ρ)

/-- What is observed of the answers is the same in both runs. -/
def Alike (observe : κ → ρ → o) : σ → σ → List κ → Prop
  | _, _, [] => True
  | s, s', request :: requests =>
      observe request (srv.answer s request) = observe request (srv.answer s' request) ∧
        Alike observe (srv.next s request) (srv.next s' request) requests

/-- Every request meets `P` in the two states it finds. -/
def EachPair (P : σ → σ → κ → Prop) : σ → σ → List κ → Prop
  | _, _, [] => True
  | s, s', request :: requests =>
      P s s' request ∧ EachPair P (srv.next s request) (srv.next s' request) requests

variable {srv}

/-- What single requests show of the difference of two states is what runs show. -/
theorem alike_iff {observe : κ → ρ → o} {R : σ → σ → Prop} {A : κ → Prop} {P : σ → σ → κ → Prop}
    (hobserve : ∀ s s' request, R s s' → A request →
      (observe request (srv.answer s request) = observe request (srv.answer s' request) ↔
        P s s' request))
    (hstep : ∀ s s' request, R s s' → A request → P s s' request →
      R (srv.next s request) (srv.next s' request))
    {s s' : σ} (hR : R s s') {requests : List κ} (hA : ∀ request ∈ requests, A request) :
    srv.Alike observe s s' requests ↔ srv.EachPair P s s' requests := by
  induction requests generalizing s s' with
  | nil => exact Iff.rfl
  | cons request requests ih =>
    have hnow := hA request List.mem_cons_self
    have hlater : ∀ request ∈ requests, A request := fun request hmem =>
      hA request (List.mem_cons_of_mem _ hmem)
    constructor
    · intro h
      have hP := (hobserve s s' request hR hnow).mp h.1
      exact ⟨hP, (ih (hstep s s' request hR hnow hP) hlater).mp h.2⟩
    · intro h
      refine ⟨(hobserve s s' request hR hnow).mpr h.1, ?_⟩
      exact (ih (hstep s s' request hR hnow h.1) hlater).mpr h.2

end Server

/-! ## Programs -/

variable {Stmt : Type → Type} {σ ι α β ρ : Type}

/-- The statement does not show the difference of two related states, nor makes more of it. -/
def Agrees (exec : {β : Type} → Stmt β → ι → σ → β × σ) (R : σ → σ → Prop) (stmt : Stmt β) :
    Prop :=
  ∀ choice s s', R s s' → (exec stmt choice s).1 = (exec stmt choice s').1 ∧
    R (exec stmt choice s).2 (exec stmt choice s').2

/-- Neither does a program of such statements. -/
theorem Prog.alone_agrees {exec : {β : Type} → Stmt β → ι → σ → β × σ} {R : σ → σ → Prop}
    {p : Prog Stmt ρ} (hp : p.Only (Agrees exec R)) {s s' : σ} (hR : R s s') (choices : Nat → ι) :
    (p.alone exec choices s).1 = (p.alone exec choices s').1 ∧
      R (p.alone exec choices s).2 (p.alone exec choices s').2 := by
  induction p generalizing s s' choices with
  | done answer => exact ⟨rfl, hR⟩
  | step stmt next ih =>
    obtain ⟨hresult, hnext⟩ := hp.1 (choices 0) s s' hR
    unfold Prog.alone
    rw [hresult]
    exact ih _ (hp.2 _) hnext fun n => choices (n + 1)

end IntelliPilot.Statement
