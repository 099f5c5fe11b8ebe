import IntelliPilot.Statement.Interleaving

/-! # Rely-guarantee reasoning about interleaved programs

A contract names an invariant of the world, what every program may rely on
between two of its statements, and what each of its own steps guarantees to
the others. A program is safe when, started in any world the others can lead
to, each of its steps keeps the invariant and the guarantee. If every handler
is safe when it starts, the invariant holds in every world of every run.

A contract may restrict the runs it speaks about: `allowed` is a condition on
single steps, and the conclusions hold of runs all of whose steps meet it.
-/

namespace IntelliPilot.Statement

variable {Stmt : Type → Type} {σ ι κ ρ : Type}

/-- The invariant, rely and guarantee a set of handlers is checked against. -/
structure Contract (svc : Service Stmt σ ι κ ρ) where
  inv : World Stmt σ κ ρ → Prop
  allowed : Nat → World Stmt σ κ ρ → World Stmt σ κ ρ → Prop
  rely : Nat → World Stmt σ κ ρ → World Stmt σ κ ρ → Prop
  guar : Nat → World Stmt σ κ ρ → World Stmt σ κ ρ → Prop
  rely_refl : ∀ i w, rely i w w
  rely_trans : ∀ i w₁ w₂ w₃, rely i w₁ w₂ → rely i w₂ w₃ → rely i w₁ w₃
  guar_rely : ∀ i j w w', i ≠ j → inv w → inv w' → w.GrowsWithout j w' →
    guar i w w' → rely j w w'

namespace Contract

variable {svc : Service Stmt σ ι κ ρ} (C : Contract svc)

/-- From `w` on, and whatever the others do, program `i` keeps the contract. -/
def Safe (i : Nat) (request : κ) : Prog Stmt ρ → World Stmt σ κ ρ → Prop
  | .done answer, w => ∀ w', C.rely i w w' → C.inv w' →
      C.allowed i w' (w'.record i (.answered request answer) w'.state) →
      C.inv (w'.record i (.answered request answer) w'.state) ∧
        C.guar i w' (w'.record i (.answered request answer) w'.state)
  | .step stmt next, w => ∀ w', C.rely i w w' → C.inv w' → ∀ choice,
      C.allowed i w' (svc.perform i stmt choice w') →
      C.inv (svc.perform i stmt choice w') ∧ C.guar i w' (svc.perform i stmt choice w') ∧
        Safe i request (next (svc.exec stmt choice w'.state).1) (svc.perform i stmt choice w')

variable {request : κ}

theorem Safe.mono {i : Nat} {p : Prog Stmt ρ} {w w' : World Stmt σ κ ρ}
    (hsafe : C.Safe i request p w) (hrely : C.rely i w w') : C.Safe i request p w' := by
  cases p with
  | done answer | step stmt next =>
    intro w'' hrely' hinv
    exact hsafe w'' (C.rely_trans i _ _ _ hrely hrely') hinv

/-- What a program knows about the world, if the others cannot invalidate it. -/
def Stable (i : Nat) (K : World Stmt σ κ ρ → Prop) : Prop :=
  ∀ w w', C.rely i w w' → C.inv w → C.inv w' → K w → K w'

/-- Program `p` keeps the contract from every world in which `K` is known. -/
def Meets (i : Nat) (request : κ) (K : World Stmt σ κ ρ → Prop) (p : Prog Stmt ρ) : Prop :=
  ∀ w, C.inv w → K w → C.Safe i request p w

variable {K L : World Stmt σ κ ρ → Prop}

theorem Meets.weaken {i : Nat} {p : Prog Stmt ρ} (hmeets : C.Meets i request L p)
    (hweaker : ∀ w, C.inv w → K w → L w) :
    C.Meets i request K p := fun w hinv hK => hmeets w hinv (hweaker w hinv hK)

/-- An answer is checked at the worlds where its precondition is known. -/
theorem Meets.done {i : Nat} {answer : ρ} (hstable : C.Stable i K) (hanswer : ∀ w, C.inv w → K w →
      C.allowed i w (w.record i (.answered request answer) w.state) →
      C.inv (w.record i (.answered request answer) w.state) ∧
        C.guar i w (w.record i (.answered request answer) w.state)) :
    C.Meets i request K (.done answer) := by
  intro w hinv hK w' hrely hinv' hallowed
  exact hanswer w' hinv' (hstable w w' hrely hinv hinv' hK) hallowed

/-- The part `p` of program `i` keeps the contract from `K` on and leaves its
result with the knowledge `Q`, whatever the program goes on to do. -/
def Triple {α : Type} (i : Nat) (K : World Stmt σ κ ρ → Prop) (p : Prog Stmt α)
    (Q : α → World Stmt σ κ ρ → Prop) : Prop :=
  ∀ request (f : α → Prog Stmt ρ), (∀ result, C.Meets i request (Q result) (f result)) →
    C.Meets i request K (p >>= f)

variable {α τ : Type} {i : Nat} {K : World Stmt σ κ ρ → Prop}

variable {Q : α → World Stmt σ κ ρ → Prop}

theorem triple_pure {result : α} (hQ : ∀ w, C.inv w → K w → Q result w) :
    C.Triple i K (pure result) Q :=
  fun _ _ hf => (hf result).weaken C hQ

variable {p : Prog Stmt α}

theorem triple_bind {g : α → Prog Stmt τ} {R : τ → World Stmt σ κ ρ → Prop}
    (hp : C.Triple i K p Q) (hg : ∀ result, C.Triple i (Q result) (g result) R) :
    C.Triple i K (p >>= g) R := by
  intro request f hf
  rw [Prog.bind_assoc]
  exact hp request _ fun result => hg result request f hf

variable {q : Prog Stmt α}

/-- Each branch of a test may use what the test found. -/
theorem triple_dite {c : Prop} [Decidable c] (hp : c → C.Triple i K p Q)
    (hq : ¬ c → C.Triple i K q Q) : C.Triple i K (if c then p else q) Q := by
  by_cases hc : c
  · rw [if_pos hc]
    exact hp hc
  · rw [if_neg hc]
    exact hq hc

theorem triple_ite {c : Prop} [Decidable c] (hp : C.Triple i K p Q) (hq : C.Triple i K q Q) :
    C.Triple i K (if c then p else q) Q :=
  C.triple_dite (fun _ => hp) fun _ => hq

theorem triple_weaken (hp : C.Triple i L p Q) (hweaker : ∀ w, C.inv w → K w → L w) :
    C.Triple i K p Q :=
  fun request f hf => (hp request f hf).weaken C hweaker

/-- What is known for good is known to the whole part. -/
theorem triple_given {P : Prop} (hp : P → C.Triple i K p Q) : C.Triple i (fun w => P ∧ K w) p Q :=
  fun request f hf w hinv hK => hp hK.1 request f hf w hinv hK.2

theorem triple_post {R : α → World Stmt σ κ ρ → Prop} (hp : C.Triple i K p R)
    (hQ : ∀ result w, C.inv w → R result w → Q result w) :
    C.Triple i K p Q :=
  fun request f hf => hp request f fun result => (hf result).weaken C (hQ result)

/-- One statement: what it must preserve and what its caller learns. -/
theorem triple_call {β : Type} {stmt : Stmt β} {Q : β → World Stmt σ κ ρ → Prop}
    (hstable : C.Stable i K)
    (hstep : ∀ w choice, C.inv w → K w → C.allowed i w (svc.perform i stmt choice w) →
      C.inv (svc.perform i stmt choice w) ∧ C.guar i w (svc.perform i stmt choice w) ∧
        Q (svc.exec stmt choice w.state).1 (svc.perform i stmt choice w)) :
    C.Triple i K (Prog.call stmt) Q := by
  intro request f hf w hinv hK w' hrely hinv' choice hallowed
  obtain ⟨hinv'', hguar, hQ⟩ :=
    hstep w' choice hinv' (hstable w w' hrely hinv hinv' hK) hallowed
  exact ⟨hinv'', hguar, hf _ _ hinv'' hQ⟩

/-- A program whose answer is known to be `Q` keeps the contract if such
answers may be given. -/
theorem Triple.meets {p : Prog Stmt ρ} {Q : ρ → World Stmt σ κ ρ → Prop} (hp : C.Triple i K p Q)
    (hdone : ∀ answer, C.Meets i request (Q answer) (.done answer)) : C.Meets i request K p := by
  have h := hp request pure hdone
  rwa [Prog.bind_pure] at h

/-- A program part all of whose statements keep what is known keeps it itself. -/
theorem triple_only {P : {β : Type} → Stmt β → Prop}
    (hcall : ∀ {β : Type} (stmt : Stmt β), P stmt → C.Triple i K (Prog.call stmt) fun _ => K)
    (hp : p.Only P) : C.Triple i K p fun _ => K := by
  induction p with
  | done result => exact C.triple_pure fun _ _ hK => hK
  | step stmt next ih =>
    exact C.triple_bind (hcall stmt hp.1) fun result => ih result (hp.2 result)

theorem stable_true : C.Stable i fun _ => True := fun _ _ _ _ _ _ => trivial

theorem Stable.and {K' : World Stmt σ κ ρ → Prop} (hK : C.Stable i K) (hK' : C.Stable i K') :
    C.Stable i fun w => K w ∧ K' w :=
  fun w w' hrely hinv hinv' h => ⟨hK w w' hrely hinv hinv' h.1, hK' w w' hrely hinv hinv' h.2⟩

/-- A statement any program may issue at any moment: it keeps the invariant and
the guarantee, and disturbs its own program no more than the others may. -/
def Quiet {β : Type} (stmt : Stmt β) : Prop :=
  ∀ i w choice, C.inv w → C.allowed i w (svc.perform i stmt choice w) →
    C.inv (svc.perform i stmt choice w) ∧ C.guar i w (svc.perform i stmt choice w) ∧
      C.rely i w (svc.perform i stmt choice w)

theorem Quiet.triple {β : Type} {stmt : Stmt β} (hquiet : C.Quiet stmt)
    (hstable : C.Stable i K) : C.Triple i K (Prog.call stmt) fun _ => K := by
  refine C.triple_call hstable fun w choice hinv hK hallowed => ?_
  obtain ⟨hinv', hguar, hrely⟩ := hquiet i w choice hinv hallowed
  exact ⟨hinv', hguar, hstable _ _ hrely hinv hinv' hK⟩

/-- A program part that needs to know nothing, whichever program it is part of. -/
def Keeps (p : Prog Stmt α) : Prop :=
  ∀ i, C.Triple i (fun _ => True) p fun _ _ => True

theorem keeps_pure (result : α) : C.Keeps (pure result) :=
  fun _ => C.triple_pure fun _ _ _ => trivial

theorem keeps_bind {g : α → Prog Stmt τ} (hp : C.Keeps p) (hg : ∀ result, C.Keeps (g result)) :
    C.Keeps (p >>= g) :=
  fun i => C.triple_bind (hp i) fun result => hg result i

theorem keeps_ite {c : Prop} [Decidable c] (hp : C.Keeps p) (hq : C.Keeps q) :
    C.Keeps (if c then p else q) := by
  split
  · exact hp
  · exact hq

theorem Quiet.keeps {β : Type} {stmt : Stmt β} (hquiet : C.Quiet stmt) :
    C.Keeps (Prog.call stmt) := fun _ => hquiet.triple C C.stable_true

/-- Where no statement ever needs a right, every program part keeps the contract. -/
theorem keeps_all (hstep : ∀ {β : Type} (stmt : Stmt β) i w choice, C.inv w →
      C.allowed i w (svc.perform i stmt choice w) →
      C.inv (svc.perform i stmt choice w) ∧ C.guar i w (svc.perform i stmt choice w))
    (p : Prog Stmt α) : C.Keeps p := by
  induction p with
  | done result => exact C.keeps_pure result
  | step stmt next ih =>
    have hcall : C.Keeps (Prog.call stmt) := fun i =>
      C.triple_call C.stable_true fun w choice hinv _ hallowed =>
        let ⟨hinv', hguar⟩ := hstep stmt i w choice hinv hallowed
        ⟨hinv', hguar, trivial⟩
    exact C.keeps_bind hcall ih

theorem Keeps.triple (hp : C.Keeps p) :
    C.Triple i K p fun _ _ => True := C.triple_weaken (hp i) fun _ _ _ => trivial

/-- Every handler keeps the contract from the moment its request arrives. -/
def Starts : Prop :=
  ∀ i request w, C.inv w → (∀ entry ∈ w.log, entry.1 ≠ i) →
    C.allowed i w (w.record i (.began request) w.state) →
    C.inv (w.record i (.began request) w.state) ∧
      C.guar i w (w.record i (.began request) w.state) ∧
      C.Safe i request (svc.handler request) (w.record i (.began request) w.state)

/-- The invariant of configurations that carries `Starts` over whole runs. -/
structure Good (cfg : Config Stmt σ κ ρ) : Prop where
  inv : C.inv cfg.world
  started : ∀ entry ∈ cfg.world.log, entry.1 < cfg.threads.length
  safe : ∀ i request todo, cfg.threads[i]? = some ⟨request, todo, none⟩ →
    C.Safe i request todo cfg.world

theorem good_initial {s : σ} (hinv : C.inv ⟨s, []⟩) :
    C.Good (Service.initial s : Config Stmt σ κ ρ) where
  inv := hinv
  started := by simp [Service.initial]
  safe := by simp [Service.initial]

variable {cfg : Config Stmt σ κ ρ}

/-- A step of program `i` leaves every other unfinished program safe. -/
theorem safe_of_other (hgood : C.Good cfg) {event : Event Stmt κ ρ} {s : σ}
    (hinv : C.inv (cfg.world.record i event s))
    (hguar : C.guar i cfg.world (cfg.world.record i event s)) {j : Nat} {todo : Prog Stmt ρ}
    (hne : i ≠ j) (hthread : cfg.threads[j]? = some ⟨request, todo, none⟩) :
    C.Safe j request todo (cfg.world.record i event s) := by
  have hrely : C.rely j cfg.world (cfg.world.record i event s) :=
    C.guar_rely i j _ _ hne hgood.inv hinv (.record hne _ _ _) hguar
  exact (hgood.safe j request todo hthread).mono C hrely

theorem good_start (hstarts : C.Starts) (hgood : C.Good cfg) (request : κ)
    (hallowed : C.allowed cfg.threads.length cfg.world
      (svc.step cfg (.start request)).world) :
    C.Good (svc.step cfg (.start request)) := by
  have hfresh : ∀ entry ∈ cfg.world.log, entry.1 ≠ cfg.threads.length := fun entry hentry =>
    Nat.ne_of_lt (hgood.started entry hentry)
  obtain ⟨hinv, hguar, hsafe⟩ := hstarts _ request _ hgood.inv hfresh hallowed
  refine ⟨hinv, ?_, ?_⟩
  · intro entry hentry
    simp only [Service.step, World.record_log, List.mem_cons, List.length_append,
      List.length_singleton] at hentry ⊢
    rcases hentry with rfl | hold
    · exact Nat.lt_succ_self _
    · exact Nat.lt_succ_of_lt (hgood.started entry hold)
  · intro j request' todo hthread
    simp only [Service.step] at hthread ⊢
    rcases Nat.lt_trichotomy j cfg.threads.length with hlt | rfl | hgt
    · rw [List.getElem?_append_left hlt] at hthread
      exact C.safe_of_other hgood hinv hguar (Nat.ne_of_gt hlt) hthread
    · simp only [List.getElem?_concat_length, Option.some.injEq, Thread.mk.injEq,
        and_true] at hthread
      obtain ⟨rfl, rfl⟩ := hthread
      exact hsafe
    · rw [List.getElem?_eq_none (by simp; omega)] at hthread
      simp at hthread

/-- Replacing thread `i` after one of its own steps keeps the configuration good. -/
theorem good_set (hgood : C.Good cfg) {event : Event Stmt κ ρ} {s : σ} {thread : Thread Stmt κ ρ}
    (hi : i < cfg.threads.length) (hinv : C.inv (cfg.world.record i event s))
    (hguar : C.guar i cfg.world (cfg.world.record i event s)) (hsafe : thread.answer = none →
      C.Safe i thread.request thread.todo (cfg.world.record i event s)) :
    C.Good ⟨cfg.world.record i event s, cfg.threads.set i thread⟩ := by
  refine ⟨hinv, ?_, ?_⟩
  · intro entry hentry
    simp only [World.record_log, List.mem_cons, List.length_set] at hentry ⊢
    rcases hentry with rfl | hold
    · exact hi
    · exact hgood.started entry hold
  · intro j request todo hthread
    by_cases hij : i = j
    · subst hij
      rw [List.getElem?_set_self hi] at hthread
      obtain rfl := Option.some.inj hthread
      exact hsafe rfl
    · rw [List.getElem?_set_ne hij] at hthread
      exact C.safe_of_other hgood hinv hguar hij hthread

theorem good_run_label (hgood : C.Good cfg) (i : Nat) (choice : ι)
    (hallowed : C.allowed i cfg.world (svc.step cfg (.run i choice)).world) :
    C.Good (svc.step cfg (.run i choice)) := by
  cases hthread : cfg.threads[i]? with
  | none => simpa only [Service.step, hthread] using hgood
  | some thread =>
    obtain ⟨request, todo, answer⟩ := thread
    have hi : i < cfg.threads.length := (List.getElem?_eq_some_iff.mp hthread).1
    cases answer with
    | some answer => cases todo <;> simpa only [Service.step, hthread] using hgood
    | none =>
      have hsafe := hgood.safe i request todo hthread
      cases todo with
      | done answer =>
        simp only [Service.step, hthread] at hallowed ⊢
        obtain ⟨hinv, hguar⟩ := hsafe _ (C.rely_refl i _) hgood.inv hallowed
        exact C.good_set hgood hi hinv hguar (by simp)
      | step stmt next =>
        simp only [Service.step, hthread] at hallowed ⊢
        obtain ⟨hinv, hguar, hnext⟩ :=
          hsafe _ (C.rely_refl i _) hgood.inv choice hallowed
        exact C.good_set hgood hi hinv hguar fun _ => hnext

theorem good_step (hstarts : C.Starts) (hgood : C.Good cfg) (label : Label κ ι)
    (hallowed : C.allowed (Service.actor cfg label) cfg.world (svc.step cfg label).world) :
    C.Good (svc.step cfg label) := by
  cases label with
  | start request => exact C.good_start hstarts hgood request hallowed
  | run i choice => exact C.good_run_label hgood i choice hallowed

theorem good_run (hstarts : C.Starts) (hgood : C.Good cfg) (labels : List (Label κ ι))
    (hadmits : svc.Admits C.allowed cfg labels) :
    C.Good (svc.run cfg labels) := by
  induction labels generalizing cfg with
  | nil => exact hgood
  | cons label labels ih =>
    exact ih (C.good_step hstarts hgood label hadmits.1) hadmits.2

/-- Every admitted step of a good configuration keeps the guarantee, unless it is void. -/
theorem guar_step (hstarts : C.Starts) (hgood : C.Good cfg) (label : Label κ ι)
    (hallowed : C.allowed (Service.actor cfg label) cfg.world (svc.step cfg label).world) :
    (svc.step cfg label).world = cfg.world ∨
      C.guar (Service.actor cfg label) cfg.world (svc.step cfg label).world := by
  cases label with
  | start request =>
    have hfresh : ∀ entry ∈ cfg.world.log, entry.1 ≠ cfg.threads.length :=
      fun entry hentry => Nat.ne_of_lt (hgood.started entry hentry)
    exact Or.inr (hstarts _ request _ hgood.inv hfresh hallowed).2.1
  | run i choice =>
    cases hthread : cfg.threads[i]? with
    | none => exact Or.inl (by simp only [Service.step, hthread])
    | some thread =>
      obtain ⟨request, todo, answer⟩ := thread
      cases answer with
      | some answer =>
        left
        cases todo <;> simp only [Service.step, hthread]
      | none =>
        have hsafe := hgood.safe i request todo hthread
        cases todo with
        | done answer =>
          simp only [Service.step, hthread, Service.actor] at hallowed ⊢
          exact Or.inr (hsafe _ (C.rely_refl i _) hgood.inv hallowed).2
        | step stmt next =>
          simp only [Service.step, hthread, Service.actor] at hallowed ⊢
          exact Or.inr (hsafe _ (C.rely_refl i _) hgood.inv choice hallowed).2.1

/-- Every answer of a run is delivered by a step that keeps the guarantee. -/
theorem guar_answered (hstarts : C.Starts) (hgood : C.Good cfg) (labels : List (Label κ ι))
    (hadmits : svc.Admits C.allowed cfg labels) {answer : ρ}
    (hanswered : Service.Answered (svc.run cfg labels) i request answer) :
    Service.Answered cfg i request answer ∨
      ∃ w, C.guar i w (w.record i (.answered request answer) w.state) := by
  induction labels generalizing cfg with
  | nil => exact Or.inl hanswered
  | cons label labels ih =>
    rcases ih (C.good_step hstarts hgood label hadmits.1) hadmits.2 hanswered with hstep | hlater
    · rcases svc.answered_step hstep with hold | ⟨hactor, hworld⟩
      · exact Or.inl hold
      · right
        rcases C.guar_step hstarts hgood label hadmits.1 with hsame | hguar
        · -- a delivered answer makes the log longer
          have hlog := congrArg World.log (hsame.symm.trans hworld)
          exact absurd hlog.symm (List.cons_ne_self _ _)
        · rw [hactor, hworld] at hguar
          exact ⟨cfg.world, hguar⟩
    · exact Or.inr hlater

/-- What a contract establishes for all runs may be assumed of every step when
another property of the same runs is proved. -/
theorem admits_inv (hstarts : C.Starts) {A : Nat → World Stmt σ κ ρ → World Stmt σ κ ρ → Prop}
    (hall : ∀ i w w', A i w w' → C.allowed i w w') (hgood : C.Good cfg)
    (labels : List (Label κ ι)) (hadmits : svc.Admits A cfg labels) :
    svc.Admits (fun i w w' => C.inv w ∧ C.inv w' ∧ A i w w') cfg labels := by
  induction labels generalizing cfg with
  | nil => trivial
  | cons label labels ih =>
    have hgood' := C.good_step hstarts hgood label (hall _ _ _ hadmits.1)
    exact ⟨⟨hgood.inv, hgood'.inv, hadmits.1⟩, ih hgood' hadmits.2⟩

/-- The contract's invariant holds in every world its runs reach. -/
theorem inv_run (hstarts : C.Starts) {s : σ} (hinv : C.inv ⟨s, []⟩)
    (labels : List (Label κ ι)) (hadmits : svc.Admits C.allowed (Service.initial s) labels) :
    C.inv (svc.run (Service.initial s) labels).world :=
  (C.good_run hstarts (C.good_initial hinv) labels hadmits).inv

end Contract

end IntelliPilot.Statement
