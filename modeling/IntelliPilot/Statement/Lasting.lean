import IntelliPilot.Statement.Handlers
import IntelliPilot.Statement.RelyGuarantee

/-! # Knowledge that lasts

Where every statement of every program changes the state only in ways of one
relation, a program may keep what it has learned as long as the relation
preserves it. Such a policy is a contract whose rely and guarantee are the same.
-/

namespace IntelliPilot.Statement

variable {Stmt : Type → Type} {σ ι κ ρ δ ε α β : Type}

/-- An invariant of the state and what any step may do to it. -/
structure Policy (σ : Type) where
  inv : σ → Prop
  step : σ → σ → Prop
  refl : ∀ s, step s s
  trans : ∀ s s' s'', step s s' → step s' s'' → step s s''

namespace Policy

variable (P : Policy σ)

/-- What a step of the policy takes to another state of it. -/
def To (s s' : σ) : Prop := P.inv s' ∧ P.step s s'

variable {P}

theorem To.refl {s : σ} (h : P.inv s) : P.To s s := ⟨h, P.refl s⟩

theorem To.trans {s s' s'' : σ} (h : P.To s s') (h' : P.To s' s'') : P.To s s'' :=
  ⟨h'.1, P.trans _ _ _ h.2 h'.2⟩

variable (P)

/-- What is known of a state stays true of those it leads to. -/
def Lasting (K : σ → Prop) : Prop := ∀ s s', P.inv s → P.To s s' → K s → K s'

variable {P}

theorem lasting_true : P.Lasting fun _ => True := fun _ _ _ _ _ => trivial

variable {L : σ → Prop}

theorem Lasting.and {K : σ → Prop} (hK : P.Lasting K) (hL : P.Lasting L) :
    P.Lasting fun s => K s ∧ L s :=
  fun s s' hinv hto h => ⟨hK s s' hinv hto h.1, hL s s' hinv hto h.2⟩

variable (P) (svc : Service Stmt σ ι κ ρ)

/-- The policy as a contract of a service. -/
def contract : Contract svc where
  inv w := P.inv w.state
  allowed _ _ _ := True
  rely _ w w' := P.step w.state w'.state
  guar _ w w' := P.step w.state w'.state
  rely_refl _ w := P.refl w.state
  rely_trans _ _ _ _ h h' := P.trans _ _ _ h h'
  guar_rely _ _ _ _ _ _ _ _ h := h

/-- From `K` on, a statement keeps to the policy, and what it returns tells `Q`. -/
def Grants (K : σ → Prop) (stmt : Stmt (Except δ α)) (Q : α → σ → Prop) : Prop :=
  ∀ s choice, P.inv s → K s → P.To s (svc.exec stmt choice s).2 ∧
    ∀ a, (svc.exec stmt choice s).1 = .ok a → Q a (svc.exec stmt choice s).2

/-- Among programs that keep to the policy, a handler that starts with the
knowledge `K` keeps to it as well and returns with the knowledge `Q`; whatever
else lasts is still known then, also where it stops. -/
def Learns (K : σ → Prop) (p : ExceptT ε (Prog Stmt) α) (Q : α → σ → Prop) : Prop :=
  ∀ L, P.Lasting L → ∀ i, (P.contract svc).Triple i (fun w => K w.state ∧ L w.state) p.run
    fun result w => L w.state ∧ ∀ a, result = .ok a → Q a w.state

variable {P svc} {K : σ → Prop} {Q : α → σ → Prop}

theorem stable_of_lasting (h : P.Lasting K) (i : Nat) :
    (P.contract svc).Stable i fun w => K w.state :=
  fun w w' hrely hinv hinv' hK => h w.state w'.state hinv ⟨hinv', hrely⟩ hK

theorem learns_pure {a : α} (h : ∀ s, P.inv s → K s → Q a s) :
    P.Learns svc K (pure a : ExceptT ε (Prog Stmt) α) Q := by
  intro L hL i
  apply Contract.triple_pure
  intro w hinv hK
  refine ⟨hK.2, ?_⟩
  intro a' heq
  rw [← Except.ok.inj heq]
  exact h w.state hinv hK.1

theorem learns_throw {e : ε} : P.Learns svc K (throw e : ExceptT ε (Prog Stmt) α) Q := by
  intro L hL i
  apply Contract.triple_pure
  intro w _ hK
  refine ⟨hK.2, ?_⟩
  intro a heq
  cases heq

variable {p : ExceptT ε (Prog Stmt) α} {f : α → ExceptT ε (Prog Stmt) β} {R : β → σ → Prop}

theorem learns_bind (hp : P.Learns svc K p Q) (hf : ∀ a, P.Learns svc (Q a) (f a) R) :
    P.Learns svc K (p >>= f) R := by
  intro L hL i
  rw [ExceptT.run_bind]
  refine Contract.triple_bind _ (hp L hL i) ?_
  intro result
  cases result with
  | error e =>
    apply Contract.triple_pure
    intro w _ hQ
    refine ⟨hQ.1, ?_⟩
    intro b heq
    cases heq
  | ok a =>
    refine Contract.triple_weaken _ (hf a L hL i) ?_
    intro w _ hQ
    exact ⟨hQ.2 a rfl, hQ.1⟩

/-- What is known may be made use of in part. -/
theorem Learns.weaken (h : P.Learns svc L p Q) (hK : ∀ s, P.inv s → K s → L s) :
    P.Learns svc K p Q := by
  intro F hF i
  refine Contract.triple_weaken _ (h F hF i) ?_
  intro w hinv hK'
  exact ⟨hK w.state hinv hK'.1, hK'.2⟩

theorem Learns.post {R : α → σ → Prop} (h : P.Learns svc K p R)
    (hQ : ∀ a s, P.inv s → R a s → Q a s) : P.Learns svc K p Q := by
  intro L hL i
  refine Contract.triple_post _ (h L hL i) ?_
  intro result w hinv hR
  refine ⟨hR.1, ?_⟩
  intro a heq
  exact hQ a w.state hinv (hR.2 a heq)

/-- What lasts is still known afterwards. -/
theorem Learns.frame (h : P.Learns svc K p Q) (hL : P.Lasting L) :
    P.Learns svc (fun s => K s ∧ L s) p fun a s => L s ∧ Q a s := by
  intro F hF i
  have hframed := h (fun s => L s ∧ F s) (hL.and hF) i
  refine Contract.triple_post _ (Contract.triple_weaken _ hframed ?_) ?_
  · intro w _ hK
    exact ⟨hK.1.1, hK.1.2, hK.2⟩
  · intro result w _ hQ
    exact ⟨hQ.1.2, fun a heq => ⟨hQ.1.1, hQ.2 a heq⟩⟩

/-- The second part of a handler knows what the first knew, and what it learned. -/
theorem learns_next (hK : P.Lasting K) (hp : P.Learns svc K p Q)
    (hf : ∀ a, P.Learns svc (fun s => K s ∧ Q a s) (f a) R) : P.Learns svc K (p >>= f) R := by
  have hframed : P.Learns svc K p fun a s => K s ∧ Q a s :=
    (hp.frame hK).weaken fun s _ hKs => ⟨hKs, hKs⟩
  exact learns_bind hframed hf

/-- The same where the first part needs to know nothing. -/
theorem learns_after (hK : P.Lasting K) (hp : P.Learns svc (fun _ => True) p Q)
    (hf : ∀ a, P.Learns svc (fun s => K s ∧ Q a s) (f a) R) : P.Learns svc K (p >>= f) R :=
  learns_next hK (hp.weaken fun _ _ _ => trivial) hf

theorem learns_given {result : Except ε α} :
    P.Learns svc K (given result : ExceptT ε (Prog Stmt) α) fun a _ => result = .ok a := by
  cases result with
  | error e => exact learns_throw
  | ok a => exact learns_pure fun _ _ _ => rfl

theorem learns_refuseUnless {ok : Bool} {e : ε} :
    P.Learns svc K (refuseUnless ok e : ExceptT ε (Prog Stmt) Unit) fun _ _ => ok = true := by
  cases ok with
  | false => exact learns_throw
  | true => exact learns_pure fun _ _ _ => rfl

section Statements

variable {stmt : Stmt (Except δ α)}

/-- A statement: what it keeps, and what its result tells where it does not fail. -/
theorem learns_attempted (hK : P.Lasting K) (h : P.Grants svc K stmt Q) :
    P.Learns svc K (attempted stmt : ExceptT ε (Prog Stmt) (Except δ α))
      fun result s => ∀ a, result = .ok a → Q a s := by
  intro L hL i
  have hcall : (P.contract svc).Triple i (fun w => K w.state ∧ L w.state) (Prog.call stmt)
      fun result w => L w.state ∧ ∀ a, result = .ok a → Q a w.state := by
    apply Contract.triple_call _ (stable_of_lasting (hK.and hL) i)
    intro w choice hinv hknown _
    obtain ⟨hto, hresult⟩ := h w.state choice hinv hknown.1
    exact ⟨hto.1, hto.2, hL _ _ hinv hto hknown.2, hresult⟩
  refine Contract.triple_bind _ hcall ?_
  intro result
  apply Contract.triple_pure
  intro w _ hQ
  refine ⟨hQ.1, ?_⟩
  intro result' heq
  rw [← Except.ok.inj heq]
  exact hQ.2

theorem learns_orRefuse {e : ε} (hK : P.Lasting K) (h : P.Grants svc K stmt Q) :
    P.Learns svc K (orRefuse stmt e) Q := by
  apply learns_bind (learns_attempted hK h)
  intro result
  cases result with
  | error _ => exact learns_throw
  | ok a => exact learns_pure fun s _ hQ => hQ a rfl

theorem learns_orDefault {default : α} (hK : P.Lasting K) (h : P.Grants svc K stmt Q)
    (hdefault : ∀ s, P.inv s → Q default s) :
    P.Learns svc K (orDefault stmt default : ExceptT ε (Prog Stmt) α) Q := by
  apply learns_bind (learns_attempted hK h)
  intro result
  cases result with
  | error _ => exact learns_pure fun s hinv _ => hdefault s hinv
  | ok a => exact learns_pure fun s _ hQ => hQ a rfl

end Statements

/-! ## Loops -/

/-- A loop keeps what each of its rounds keeps. -/
theorem learns_foldlM {γ : Type} {f : γ → α → ExceptT ε (Prog Stmt) γ} {I : γ → σ → Prop}
    {rows : List α} (hf : ∀ c, ∀ a ∈ rows, P.Learns svc (I c) (f c a) I) (c : γ) :
    P.Learns svc (I c) (rows.foldlM f c) I := by
  induction rows generalizing c with
  | nil => exact learns_pure fun s _ hI => hI
  | cons row rows ih =>
    rw [List.foldlM_cons]
    refine learns_bind (hf c row List.mem_cons_self) (ih ?_)
    exact fun c a ha => hf c a (List.mem_cons_of_mem _ ha)

theorem learns_forM {f : α → ExceptT ε (Prog Stmt) PUnit} {rows : List α}
    (hf : ∀ row ∈ rows, P.Learns svc K (f row) fun _ => K) :
    P.Learns svc K (rows.forM f) fun _ => K := by
  induction rows with
  | nil => exact learns_pure fun s _ hK => hK
  | cons row rows ih =>
    refine learns_bind (hf row List.mem_cons_self) fun _ => ih ?_
    exact fun row hrow => hf row (List.mem_cons_of_mem _ hrow)

/-- A loop learns what each of its rounds learns. -/
theorem learns_forM_each {f : α → ExceptT ε (Prog Stmt) PUnit} {G : α → σ → Prop}
    (hG : ∀ a, P.Lasting (G a)) (hf : ∀ a, P.Learns svc (fun _ => True) (f a) fun _ => G a)
    (rows : List α) :
    P.Learns svc (fun _ => True) (rows.forM f) fun _ s => ∀ row ∈ rows, G row s := by
  induction rows with
  | nil => exact learns_pure fun s _ _ row hrow => nomatch hrow
  | cons row rows ih =>
    refine learns_bind (hf row) fun _ => ?_
    refine ((ih.frame (hG row)).weaken fun s _ h => ⟨trivial, h⟩).post ?_
    intro _ s _ h other hother
    rcases List.mem_cons.mp hother with rfl | hrest
    · exact h.1
    · exact h.2 other hrest

/-! ## Runs -/

/-- Where every handler keeps to the policy, every run does. -/
theorem inv_run (svc : Service Stmt σ ι κ (Except ε ρ))
    {handler : κ → ExceptT ε (Prog Stmt) ρ}
    (hsvc : ∀ request, svc.handler request = (handler request).run)
    (h : ∀ request, P.Learns svc (fun _ => True) (handler request) fun _ _ => True) {s : σ}
    (hinv : P.inv s) (labels : List (Label κ ι)) :
    P.inv (svc.run (Service.initial s) labels).world.state := by
  apply (P.contract svc).inv_run _ hinv labels
  · exact svc.admits_true _ _
  · intro i request w hnow _ _
    refine ⟨hnow, P.refl _, ?_⟩
    rw [hsvc]
    refine (Contract.Triple.meets _ (h request _ lasting_true i) ?_) _ hnow ⟨trivial, trivial⟩
    intro answer _ _ _ w' _ hthen _
    exact ⟨hthen, P.refl _⟩

end Policy

end IntelliPilot.Statement
