import IntelliPilot.Statement.Alone
import IntelliPilot.Statement.OwnEvents
import Mathlib.Data.List.GetD

/-! # Programs beside programs that write nothing

Where every statement of the other programs leaves the state as it was, but for
what a program cannot see, a program runs as it does alone. A program that may
stop with an error tells of its own events in either case.
-/

namespace IntelliPilot.Statement

variable {Stmt : Type → Type} {σ ι κ ρ α τ ε : Type}

/-! ## A program in part -/

namespace Prog

/-- What is left of the program when the choices are used up, and the state. -/
def after (exec : {β : Type} → Stmt β → ι → σ → β × σ) :
    Prog Stmt ρ → List ι → σ → Prog Stmt ρ × σ
  | .done answer, _, s => (.done answer, s)
  | .step stmt next, [], s => (.step stmt next, s)
  | .step stmt next, choice :: choices, s =>
      (next (exec stmt choice s).1).after exec choices (exec stmt choice s).2

variable {exec : {β : Type} → Stmt β → ι → σ → β × σ}

@[simp] theorem after_nil (p : Prog Stmt ρ) (s : σ) : p.after exec [] s = (p, s) := by
  cases p with
  | done answer => rfl
  | step stmt next => rfl

variable {p : Prog Stmt ρ}

/-- One statement more. -/
theorem after_append {choices : List ι} {s s' : σ} {stmt : Stmt β} {next : β → Prog Stmt ρ}
    (h : p.after exec choices s = (.step stmt next, s')) (choice : ι) :
    p.after exec (choices ++ [choice]) s =
      (next (exec stmt choice s').1, (exec stmt choice s').2) := by
  induction choices generalizing p s with
  | nil =>
    rw [after_nil] at h
    obtain ⟨rfl, rfl⟩ := Prod.mk.inj h
    exact after_nil _ _
  | cons head rest ih =>
    cases p with
    | done answer => cases (Prod.mk.inj h).1
    | step stmt' next' => exact ih h

/-- A program that is done in part is done alone, whatever choices would come. -/
theorem alone_of_after {choices : List ι} {s s' : σ} {answer : ρ}
    (h : p.after exec choices s = (.done answer, s')) (default : ι) :
    p.alone exec (fun n => choices.getD n default) s = (answer, s') := by
  induction choices generalizing p s with
  | nil =>
    rw [after_nil] at h
    obtain ⟨rfl, rfl⟩ := Prod.mk.inj h
    rfl
  | cons head rest ih =>
    cases p with
    | done answer' =>
      obtain ⟨hanswer, rfl⟩ := Prod.mk.inj h
      rw [Prog.done.inj hanswer]
      rfl
    | step stmt next => exact ih h

theorem Only.after {P : {β : Type} → Stmt β → Prop} (exec : {β : Type} → Stmt β → ι → σ → β × σ)
    (hp : p.Only P) (choices : List ι) (s : σ) : (p.after exec choices s).1.Only P := by
  induction choices generalizing p s with
  | nil =>
    rw [after_nil]
    exact hp
  | cons choice choices ih =>
    cases p with
    | done answer => trivial
    | step stmt next => exact ih (hp.2 _) _

end Prog

/-! ## A program among others -/

namespace Service

variable (svc : Service Stmt σ ι κ ρ) {R : σ → σ → Prop} {k : Nat} {request : κ} {s : σ}

/-- The entry that the step adds to the log, if it is of another program than `k`,
comes with a state that is the same up to `R`. -/
def Silent (R : σ → σ → Prop) (k : Nat) : Nat → World Stmt σ κ ρ → World Stmt σ κ ρ → Prop :=
  fun _ w w' => ∀ j event, w'.log = (j, event) :: w.log → j ≠ k → R w.state w'.state

/-- Statements that cannot see what `R` leaves open. -/
def Blind (R : σ → σ → Prop) (P : {β : Type} → Stmt β → Prop) : Prop :=
  ∀ {β : Type} (stmt : Stmt β) (choice : ι) (s s' : σ), P stmt → R s s' →
    (svc.exec stmt choice s).1 = (svc.exec stmt choice s').1 ∧
      R (svc.exec stmt choice s).2 (svc.exec stmt choice s').2

/-- Program `k` is where it would be alone, under some of the choices made for it. -/
def Shadowed (R : σ → σ → Prop) (C : ι → Prop) (k : Nat) (s : σ) (cfg : Config Stmt σ κ ρ) :
    Prop :=
  (cfg.threads[k]? = none → R s cfg.world.state) ∧
    ∀ thread, cfg.threads[k]? = some thread → ∃ choices s', (∀ choice ∈ choices, C choice) ∧
      (svc.handler thread.request).after svc.exec choices s = (thread.todo, s') ∧
      R s' cfg.world.state ∧ ∀ answer, thread.answer = some answer → thread.todo = .done answer

variable {P : {β : Type} → Stmt β → Prop} {cfg : Config Stmt σ κ ρ}

theorem shadowed_step {C : ι → Prop} (hrefl : ∀ s, R s s) (htrans : ∀ a b c, R a b → R b c → R a c)
    (hblind : svc.Blind R P) (honly : ∀ request, (svc.handler request).Only P)
    (h : svc.Shadowed R C k s cfg) (label : Label κ ι)
    (hC : ∀ choice, label = .run k choice → C choice)
    (hsilent : Silent R k (actor cfg label) cfg.world (svc.step cfg label).world) :
    svc.Shadowed R C k s (svc.step cfg label) := by
  obtain ⟨hnone, hsome⟩ := h
  cases label with
  | start request =>
    have hsame : R cfg.world.state cfg.world.state := hrefl _
    refine ⟨?_, ?_⟩
    · intro hk
      apply hnone
      rw [List.getElem?_eq_none_iff] at hk ⊢
      exact Nat.le_trans (by simp [step]) hk
    · intro thread hthread
      simp only [step] at hthread
      rw [List.getElem?_append] at hthread
      split at hthread
      · exact hsome thread hthread
      · rename_i hk
        rw [List.getElem?_singleton] at hthread
        split at hthread
        · rw [← Option.some.inj hthread]
          refine ⟨[], s, by simp, Prog.after_nil _ _, ?_, by simp⟩
          exact hnone (List.getElem?_eq_none_iff.mpr (Nat.le_of_not_lt hk))
        · contradiction
  | run j choice =>
    cases hcurrent : cfg.threads[j]? with
    | none =>
      simp only [step, hcurrent]
      exact ⟨hnone, hsome⟩
    | some current =>
      obtain ⟨request, todo, answer⟩ := current
      have hj : j < cfg.threads.length := (List.getElem?_eq_some_iff.mp hcurrent).1
      -- a step of another program
      have hother : ∀ event s' thread, (j ≠ k → R cfg.world.state s') → j ≠ k →
          svc.Shadowed R C k s
            ⟨cfg.world.record j event s', cfg.threads.set j thread⟩ := by
        intro event s' thread hR hjk
        refine ⟨?_, ?_⟩
        · intro hk
          rw [List.getElem?_set_ne hjk] at hk
          exact htrans _ _ _ (hnone hk) (hR hjk)
        · intro thread' hthread
          rw [List.getElem?_set_ne hjk] at hthread
          obtain ⟨choices, s'', hchoices, hafter, hstate, hanswer⟩ := hsome thread' hthread
          exact ⟨choices, s'', hchoices, hafter, htrans _ _ _ hstate (hR hjk), hanswer⟩
      cases answer with
      | some answer =>
        cases todo <;> simp only [step, hcurrent] <;> exact ⟨hnone, hsome⟩
      | none =>
        cases todo with
        | done answer =>
          simp only [step, hcurrent] at hsilent ⊢
          by_cases hjk : j = k
          · subst hjk
            obtain ⟨choices, s', hchoices, hafter, hstate, -⟩ := hsome _ hcurrent
            refine ⟨by simp [List.getElem?_set_self hj], ?_⟩
            intro thread hthread
            rw [List.getElem?_set_self hj] at hthread
            rw [← Option.some.inj hthread]
            exact ⟨choices, s', hchoices, hafter, hstate,
              fun _ heq => by rw [Option.some.inj heq]⟩
          · exact hother _ _ _ (fun _ => hrefl _) hjk
        | step stmt next =>
          simp only [step, hcurrent] at hsilent ⊢
          by_cases hjk : j = k
          · subst hjk
            obtain ⟨choices, s', hchoices, hafter, hstate, -⟩ := hsome _ hcurrent
            have hmay : P stmt := by
              have hrest := Prog.Only.after (svc.exec) (honly request) choices s
              rw [hafter] at hrest
              exact hrest.1
            obtain ⟨hresult, hnext⟩ := hblind stmt choice _ _ hmay hstate
            refine ⟨by simp [List.getElem?_set_self hj], ?_⟩
            intro thread hthread
            rw [List.getElem?_set_self hj] at hthread
            rw [← Option.some.inj hthread, ← hresult]
            refine ⟨choices ++ [choice], _, ?_, Prog.after_append hafter choice, hnext,
              by simp⟩
            intro c hc
            rcases List.mem_append.mp hc with hold | hnew
            · exact hchoices c hold
            · rw [List.mem_singleton.mp hnew]
              exact hC choice rfl
          · exact hother _ _ _ (fun hjk => hsilent _ _ rfl hjk) hjk

theorem shadowed_run {C : ι → Prop} (hrefl : ∀ s, R s s) (htrans : ∀ a b c, R a b → R b c → R a c)
    (hblind : svc.Blind R P) (honly : ∀ request, (svc.handler request).Only P)
    (h : svc.Shadowed R C k s cfg) (labels : List (Label κ ι))
    (hC : ∀ choice, .run k choice ∈ labels → C choice)
    (hsilent : svc.Admits (Silent R k) cfg labels) : svc.Shadowed R C k s (svc.run cfg labels) := by
  induction labels generalizing cfg with
  | nil => exact h
  | cons label labels ih =>
    refine ih ?_ (fun choice hchoice => hC choice (List.mem_cons_of_mem _ hchoice)) hsilent.2
    refine svc.shadowed_step hrefl htrans hblind honly h label ?_ hsilent.1
    rintro choice rfl
    exact hC choice List.mem_cons_self

/-- Beside programs that write nothing, a program ends as it does alone under the
choices made for it. -/
theorem alone_of_silent (hrefl : ∀ s, R s s) (htrans : ∀ a b c, R a b → R b c → R a c)
    (hblind : svc.Blind R P) (honly : ∀ request, (svc.handler request).Only P)
    {labels : List (Label κ ι)} (hsilent : svc.Admits (Silent R k) (initial s) labels)
    {answer : ρ} (hanswered : Answered (svc.run (initial s) labels) k request answer)
    (default : ι) :
    ∃ choices : Nat → ι, (∀ n, choices n = default ∨ .run k (choices n) ∈ labels) ∧
      ∃ s', (svc.handler request).alone svc.exec choices s = (answer, s') ∧
        R s' (svc.run (initial s) labels).world.state := by
  have hstart : svc.Shadowed R (fun choice => .run k choice ∈ labels) k s (initial s) :=
    ⟨fun _ => hrefl s, fun _ hthread => by simp [initial] at hthread⟩
  obtain ⟨-, hsome⟩ :=
    svc.shadowed_run hrefl htrans hblind honly hstart labels (fun _ h => h) hsilent
  obtain ⟨todo, hthread⟩ := hanswered
  obtain ⟨choices, s', hchoices, hafter, hstate, hdone⟩ := hsome _ hthread
  have htodo : todo = .done answer := hdone answer rfl
  rw [htodo] at hafter
  refine ⟨fun n => choices.getD n default, ?_, s', Prog.alone_of_after hafter default, hstate⟩
  intro n
  rcases Nat.lt_or_ge n choices.length with hn | hn
  · right
    show Label.run k (choices.getD n default) ∈ labels
    rw [List.getD_eq_getElem _ _ hn]
    exact hchoices _ (List.getElem_mem hn)
  · exact .inl (List.getD_eq_default _ _ hn)

end Service

/-! ## Own events of programs that may stop with an error -/

/-- Whatever the results, the program keeps `ok` and leaves its result with events of
`Q`, or its error with events of `E`. -/
def Recounts (ok : List (Event Stmt κ ρ) → Prop) (p : ExceptT ε (Prog Stmt) α)
    (Q : α → List (Event Stmt κ ρ) → Prop) (E : ε → List (Event Stmt κ ρ) → Prop)
    (events : List (Event Stmt κ ρ)) : Prop :=
  p.run.Tells ok (Outcome Q E) events

section Recounts

variable {ok : List (Event Stmt κ ρ) → Prop} {Q : α → List (Event Stmt κ ρ) → Prop}
  {E : ε → List (Event Stmt κ ρ) → Prop} {events : List (Event Stmt κ ρ)}
  {p : ExceptT ε (Prog Stmt) α}

theorem Recounts.mono {S : α → List (Event Stmt κ ρ) → Prop} {F : ε → List (Event Stmt κ ρ) → Prop}
    (h : Recounts ok p Q E events) (hQ : ∀ answer events, Q answer events → S answer events)
    (hE : ∀ e events, E e events → F e events) : Recounts ok p S F events := by
  apply Prog.Tells.post h
  rintro (e | answer) events houtcome
  · exact hE e events houtcome
  · exact hQ answer events houtcome

theorem recounts_pure {answer : α} (h : Q answer events) :
    Recounts ok (pure answer : ExceptT ε (Prog Stmt) α) Q E events := h

theorem recounts_throw {e : ε} (h : E e events) :
    Recounts ok (throw e : ExceptT ε (Prog Stmt) α) Q E events := h

theorem recounts_bind {p : ExceptT ε (Prog Stmt) τ} {f : τ → ExceptT ε (Prog Stmt) α}
    {S : τ → List (Event Stmt κ ρ) → Prop} (hp : Recounts ok p S E events)
    (hf : ∀ answer events, S answer events → Recounts ok (f answer) Q E events) :
    Recounts ok (p >>= f) Q E events := by
  unfold Recounts
  rw [ExceptT.run_bind]
  apply Prog.tells_bind hp
  rintro (e | answer) events houtcome
  · exact houtcome
  · exact hf answer events houtcome

/-- A program part of statements that all keep `P`. -/
theorem recounts_only {C : {β : Type} → Stmt β → Prop} {P : List (Event Stmt κ ρ) → Prop}
    (hcall : ∀ {β : Type} (stmt : Stmt β) (result : β) (events : List (Event Stmt κ ρ)), C stmt →
      P events → ok (.ran stmt result :: events) ∧ P (.ran stmt result :: events))
    (hp : p.run.Only C) (hP : P events) : Recounts ok p (fun _ => P) (fun _ => P) events := by
  apply (Prog.tells_only hcall hp hP).post
  rintro (e | answer) events hP
  · exact hP
  · exact hP

end Recounts

/-! ## Statements of programs that may stop with an error -/

section Only

variable {P : {β : Type} → Stmt β → Prop}

theorem only_run_pure (answer : α) : (pure answer : ExceptT ε (Prog Stmt) α).run.Only P := trivial

theorem only_run_throw (e : ε) : (throw e : ExceptT ε (Prog Stmt) α).run.Only P := trivial

theorem only_run_bind {p : ExceptT ε (Prog Stmt) τ} {f : τ → ExceptT ε (Prog Stmt) α}
    (hp : p.run.Only P) (hf : ∀ answer, (f answer).run.Only P) : (p >>= f).run.Only P := by
  rw [ExceptT.run_bind]
  apply Prog.only_bind hp
  rintro (e | answer)
  · trivial
  · exact hf answer

theorem only_run_forM {f : α → ExceptT ε (Prog Stmt) PUnit} {rows : List α}
    (hf : ∀ row, (f row).run.Only P) : (rows.forM f).run.Only P := by
  induction rows with
  | nil => trivial
  | cons row rows ih => exact only_run_bind (hf row) fun _ => ih

end Only

end IntelliPilot.Statement
