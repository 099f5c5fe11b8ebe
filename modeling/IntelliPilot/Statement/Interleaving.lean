import IntelliPilot.Statement.Program
import Mathlib.Data.List.Induction

/-! # Interleaved execution of programs

A service gives the statements their effect on a shared state and every
request its program. A run starts requests at any moment and lets any started
program issue its next statement, or deliver its answer, at any moment, so it
is an arbitrary interleaving. The environment's part in a statement (a failure,
an outside answer, the passing of time) is the choice carried by the label.

The world keeps a log of everything that happened, newest entry first, so that
properties of whole runs can be read off a single world.
-/

namespace IntelliPilot.Statement

/-- What the log records about one program. -/
inductive Event (Stmt : Type → Type) (κ ρ : Type) : Type 1 where
  | began (request : κ)
  | ran {β : Type} (stmt : Stmt β) (result : β)
  | answered (request : κ) (answer : ρ)

/-- The shared state and the log of the run that led to it. -/
structure World (Stmt : Type → Type) (σ κ ρ : Type) : Type 1 where
  state : σ
  log : List (Nat × Event Stmt κ ρ)

/-- A started request, what is left of its program, and the delivered answer. -/
structure Thread (Stmt : Type → Type) (κ ρ : Type) : Type 1 where
  request : κ
  todo : Prog Stmt ρ
  answer : Option ρ

/-- The world and all requests started so far, in starting order. -/
structure Config (Stmt : Type → Type) (σ κ ρ : Type) : Type 1 where
  world : World Stmt σ κ ρ
  threads : List (Thread Stmt κ ρ)

/-- One scheduling decision. -/
inductive Label (κ ι : Type) where
  | start (request : κ)
  | run (thread : Nat) (choice : ι)
  deriving DecidableEq, Repr

/-- The effect of the statements and the program of every request. -/
structure Service (Stmt : Type → Type) (σ ι κ ρ : Type) : Type 1 where
  exec : {β : Type} → Stmt β → ι → σ → β × σ
  handler : κ → Prog Stmt ρ

variable {Stmt : Type → Type} {σ ι κ ρ : Type}

namespace World

/-- Extend the log by an event of program `i`. -/
def record (w : World Stmt σ κ ρ) (i : Nat) (event : Event Stmt κ ρ) (s : σ) :
    World Stmt σ κ ρ where
  state := s
  log := (i, event) :: w.log

@[simp] theorem record_state (w : World Stmt σ κ ρ) (i : Nat) (event : Event Stmt κ ρ) (s : σ) :
    (w.record i event s).state = s := rfl

@[simp] theorem record_log (w : World Stmt σ κ ρ) (i : Nat) (event : Event Stmt κ ρ) (s : σ) :
    (w.record i event s).log = (i, event) :: w.log := rfl

/-- Program `i` has not answered yet. -/
def Unanswered (w : World Stmt σ κ ρ) (i : Nat) : Prop :=
  ∀ request answer, (i, .answered request answer) ∉ w.log

/-- Every request satisfying `p` has been answered. -/
def settled (p : κ → Bool) (w : World Stmt σ κ ρ) : Bool :=
  w.log.all fun entry => match entry.2 with
    | .began request => !p request || w.log.any fun later =>
        later.1 == entry.1 && match later.2 with
          | .answered _ _ => true
          | _ => false
    | _ => true

variable {w : World Stmt σ κ ρ} {i : Nat}

theorem not_unanswered_of_settled {p : κ → Bool} (hsettled : w.settled p = true) {request : κ}
    (hbegan : (i, .began request) ∈ w.log) (hp : p request = true) : ¬ w.Unanswered i := by
  intro hunanswered
  have h := List.all_eq_true.mp hsettled _ hbegan
  simp only [hp, Bool.not_true, Bool.false_or, List.any_eq_true, Bool.and_eq_true,
    beq_iff_eq] at h
  obtain ⟨⟨j, event⟩, hmem, rfl, hevent⟩ := h
  cases event with
  | answered request' answer => exact hunanswered request' answer hmem
  | began request' => simp at hevent
  | ran stmt result => simp at hevent

/-- Only programs other than `i` acted between the two worlds. -/
def GrowsWithout (i : Nat) (w w' : World Stmt σ κ ρ) : Prop :=
  ∃ new, w'.log = new ++ w.log ∧ ∀ entry ∈ new, entry.1 ≠ i

theorem GrowsWithout.record {j : Nat} (hne : j ≠ i) (w : World Stmt σ κ ρ) (event : Event Stmt κ ρ)
    (s : σ) : w.GrowsWithout i (w.record j event s) := by
  refine ⟨[(j, event)], rfl, ?_⟩
  intro entry hentry
  rw [List.mem_singleton.mp hentry]
  exact hne

theorem GrowsWithout.mem {w' : World Stmt σ κ ρ} (h : w.GrowsWithout i w')
    {entry : Nat × Event Stmt κ ρ} (hentry : entry ∈ w.log) : entry ∈ w'.log := by
  obtain ⟨new, hlog, _⟩ := h
  rw [hlog]
  exact List.mem_append_right _ hentry

theorem GrowsWithout.own_iff {w' : World Stmt σ κ ρ} (h : w.GrowsWithout i w')
    {event : Event Stmt κ ρ} : (i, event) ∈ w'.log ↔ (i, event) ∈ w.log := by
  obtain ⟨new, hlog, hother⟩ := h
  rw [hlog, List.mem_append]
  constructor
  · rintro (hnew | hold)
    · exact absurd rfl (hother _ hnew)
    · exact hold
  · exact Or.inr

/-- The events of one program, newest first. -/
def own (w : World Stmt σ κ ρ) (i : Nat) : List (Event Stmt κ ρ) :=
  (w.log.filter (·.1 == i)).map (·.2)

theorem mem_own {event : Event Stmt κ ρ} : event ∈ w.own i ↔ (i, event) ∈ w.log := by
  simp [own]

@[simp] theorem own_record_self (w : World Stmt σ κ ρ) (i : Nat) (event : Event Stmt κ ρ) (s : σ) :
    (w.record i event s).own i = event :: w.own i := by simp [own]

theorem own_record_of_ne {j : Nat} (hne : j ≠ i) (w : World Stmt σ κ ρ) (event : Event Stmt κ ρ)
    (s : σ) : (w.record j event s).own i = w.own i := by
  simp [own, hne]

end World

namespace Service

variable (svc : Service Stmt σ ι κ ρ)

/-- Program `i` issues a statement. -/
def perform {β : Type} (i : Nat) (stmt : Stmt β) (choice : ι) (w : World Stmt σ κ ρ) :
    World Stmt σ κ ρ :=
  w.record i (.ran stmt (svc.exec stmt choice w.state).1) (svc.exec stmt choice w.state).2

@[simp] theorem perform_state {β : Type} (i : Nat) (stmt : Stmt β) (choice : ι)
    (w : World Stmt σ κ ρ) :
    (svc.perform i stmt choice w).state = (svc.exec stmt choice w.state).2 := rfl

@[simp] theorem perform_log {β : Type} (i : Nat) (stmt : Stmt β) (choice : ι)
    (w : World Stmt σ κ ρ) :
    (svc.perform i stmt choice w).log =
      (i, .ran stmt (svc.exec stmt choice w.state).1) :: w.log := rfl

/-- One scheduling decision; it is void when the named program has answered. -/
def step (cfg : Config Stmt σ κ ρ) : Label κ ι → Config Stmt σ κ ρ
  | .start request =>
      { world := cfg.world.record cfg.threads.length (.began request) cfg.world.state
        threads := cfg.threads ++ [⟨request, svc.handler request, none⟩] }
  | .run i choice =>
      match cfg.threads[i]? with
      | some ⟨request, .step stmt next, none⟩ =>
          { world := svc.perform i stmt choice cfg.world
            threads := cfg.threads.set i
              ⟨request, next (svc.exec stmt choice cfg.world.state).1, none⟩ }
      | some ⟨request, .done answer, none⟩ =>
          { world := cfg.world.record i (.answered request answer) cfg.world.state
            threads := cfg.threads.set i ⟨request, .done answer, some answer⟩ }
      | _ => cfg

/-- Follow a list of scheduling decisions. -/
def run (cfg : Config Stmt σ κ ρ) (labels : List (Label κ ι)) : Config Stmt σ κ ρ :=
  labels.foldl svc.step cfg

/-- No request has arrived yet. -/
def initial (s : σ) : Config Stmt σ κ ρ := ⟨⟨s, []⟩, []⟩

@[simp] theorem run_nil (cfg : Config Stmt σ κ ρ) : svc.run cfg [] = cfg := rfl

@[simp] theorem run_cons (cfg : Config Stmt σ κ ρ) (label : Label κ ι)
    (labels : List (Label κ ι)) :
    svc.run cfg (label :: labels) = svc.run (svc.step cfg label) labels := rfl

theorem run_append (cfg : Config Stmt σ κ ρ) (first second : List (Label κ ι)) :
    svc.run cfg (first ++ second) = svc.run (svc.run cfg first) second :=
  List.foldl_append

/-- The program a scheduling decision concerns. -/
def actor (cfg : Config Stmt σ κ ρ) : Label κ ι → Nat
  | .start _ => cfg.threads.length
  | .run i _ => i

/-- Request `i` is `request` and has been answered by `answer`. -/
def Answered (cfg : Config Stmt σ κ ρ) (i : Nat) (request : κ) (answer : ρ) : Prop :=
  ∃ todo, cfg.threads[i]? = some ⟨request, todo, some answer⟩

variable {cfg : Config Stmt σ κ ρ} {request : κ}

theorem answered_iff {i : Nat} {answer : ρ} :
    Answered cfg i request answer ↔
      cfg.threads[i]?.map (fun thread => (thread.request, thread.answer)) =
        some (request, some answer) := by
  constructor
  · rintro ⟨todo, hthread⟩
    rw [hthread]
    rfl
  · intro h
    obtain ⟨⟨request', todo, answer'⟩, hthread, heq⟩ := Option.map_eq_some_iff.mp h
    obtain ⟨rfl, rfl⟩ := Prod.mk.inj heq
    exact ⟨todo, hthread⟩

/-- An answer is delivered by a step of its own. -/
theorem answered_step {label : Label κ ι} {i : Nat} {answer : ρ}
    (hanswered : Answered (svc.step cfg label) i request answer) :
    Answered cfg i request answer ∨ actor cfg label = i ∧
      (svc.step cfg label).world =
        cfg.world.record i (.answered request answer) cfg.world.state := by
  obtain ⟨todo, hthread⟩ := hanswered
  cases label with
  | start request' =>
    simp only [step] at hthread
    rw [List.getElem?_append] at hthread
    split at hthread
    · exact Or.inl ⟨todo, hthread⟩
    · rw [List.getElem?_singleton] at hthread
      split at hthread <;> simp at hthread
  | run j choice =>
    cases hcurrent : cfg.threads[j]? with
    | none =>
      simp only [step, hcurrent] at hthread
      exact Or.inl ⟨todo, hthread⟩
    | some thread =>
      have hj : j < cfg.threads.length := (List.getElem?_eq_some_iff.mp hcurrent).1
      obtain ⟨request', todo', answer'⟩ := thread
      cases answer' with
      | some answer' =>
        cases todo' <;> simp only [step, hcurrent] at hthread <;>
          exact Or.inl ⟨todo, hthread⟩
      | none =>
        cases todo' with
        | done answer' =>
          simp only [step, hcurrent] at hthread ⊢
          rcases eq_or_ne j i with rfl | hji
          · rw [List.getElem?_set_self hj] at hthread
            simp only [Option.some.injEq, Thread.mk.injEq] at hthread
            obtain ⟨rfl, _, rfl⟩ := hthread
            exact Or.inr ⟨rfl, rfl⟩
          · rw [List.getElem?_set_ne hji] at hthread
            exact Or.inl ⟨todo, hthread⟩
        | step stmt next =>
          simp only [step, hcurrent] at hthread
          rcases eq_or_ne j i with rfl | hji
          · rw [List.getElem?_set_self hj] at hthread
            simp at hthread
          · rw [List.getElem?_set_ne hji] at hthread
            exact Or.inl ⟨todo, hthread⟩

/-- Events stay in the log. -/
theorem log_step (cfg : Config Stmt σ κ ρ) (label : Label κ ι) :
    ∀ entry ∈ cfg.world.log, entry ∈ (svc.step cfg label).world.log := by
  intro entry hentry
  cases label with
  | start request => exact List.mem_cons_of_mem _ hentry
  | run i choice =>
    simp only [step]
    split
    · exact List.mem_cons_of_mem _ hentry
    · exact List.mem_cons_of_mem _ hentry
    · exact hentry

theorem log_run (cfg : Config Stmt σ κ ρ) (labels : List (Label κ ι)) :
    ∀ entry ∈ cfg.world.log, entry ∈ (svc.run cfg labels).world.log := by
  induction labels generalizing cfg with
  | nil => exact fun _ hentry => hentry
  | cons label labels ih =>
    intro entry hentry
    exact ih _ entry (svc.log_step cfg label entry hentry)

variable {labels : List (Label κ ι)}

/-- An event of the log is that of one of the steps. -/
theorem exists_step_of_mem (cfg : Config Stmt σ κ ρ) {entry : Nat × Event Stmt κ ρ}
    (h : entry ∈ (svc.run cfg labels).world.log) :
    entry ∈ cfg.world.log ∨ ∃ first label last, labels = first ++ label :: last ∧
      (svc.step (svc.run cfg first) label).world.log = entry :: (svc.run cfg first).world.log := by
  induction labels generalizing cfg with
  | nil => exact .inl h
  | cons label labels ih =>
    rcases ih (svc.step cfg label) h with hbefore | ⟨first, later, last, hsplit, hlog⟩
    · have hstep : entry ∈ cfg.world.log ∨
          (svc.step cfg label).world.log = entry :: cfg.world.log := by
        cases label with
        | start request =>
          rcases List.mem_cons.mp hbefore with heq | hold
          · exact .inr (by rw [heq]; rfl)
          · exact .inl hold
        | run i choice =>
          simp only [step] at hbefore ⊢
          split at hbefore
          · rcases List.mem_cons.mp hbefore with heq | hold
            · exact .inr (by rw [heq]; rfl)
            · exact .inl hold
          · rcases List.mem_cons.mp hbefore with heq | hold
            · exact .inr (by rw [heq]; rfl)
            · exact .inl hold
          · exact .inl hbefore
      rcases hstep with hold | hnew
      · exact .inl hold
      · exact .inr ⟨[], label, labels, rfl, hnew⟩
    · exact .inr ⟨label :: first, later, last, by rw [hsplit]; rfl, hlog⟩

/-- A run relates its states where every statement does. -/
theorem state_run {R : σ → σ → Prop} (hrefl : ∀ s, R s s)
    (htrans : ∀ s s' s'', R s s' → R s' s'' → R s s'')
    (hexec : ∀ {β : Type} (stmt : Stmt β) choice s, R s (svc.exec stmt choice s).2)
    (cfg : Config Stmt σ κ ρ) (labels : List (Label κ ι)) :
    R cfg.world.state (svc.run cfg labels).world.state := by
  induction labels generalizing cfg with
  | nil => exact hrefl _
  | cons label labels ih =>
    refine htrans _ _ _ ?_ (ih _)
    cases label with
    | start request => exact hrefl _
    | run i choice =>
      simp only [step]
      split
      · exact hexec _ _ _
      · exact hrefl _
      · exact hrefl _

/-- A request that has begun was started by the run. -/
theorem started_of_began (cfg : Config Stmt σ κ ρ) {i : Nat}
    (h : (i, .began request) ∈ (svc.run cfg labels).world.log) :
    (i, .began request) ∈ cfg.world.log ∨ .start request ∈ labels := by
  induction labels generalizing cfg with
  | nil => exact .inl h
  | cons label labels ih =>
    rcases ih (svc.step cfg label) h with hbefore | hlater
    · cases label with
      | start request' =>
        rcases List.mem_cons.mp hbefore with heq | hold
        · cases (Prod.mk.inj heq).2
          exact .inr List.mem_cons_self
        · exact .inl hold
      | run j choice =>
        simp only [step] at hbefore
        split at hbefore
        · rcases List.mem_cons.mp hbefore with heq | hold
          · cases (Prod.mk.inj heq).2
          · exact .inl hold
        · rcases List.mem_cons.mp hbefore with heq | hold
          · cases (Prod.mk.inj heq).2
          · exact .inl hold
        · exact .inl hbefore
    · exact .inr (List.mem_cons_of_mem _ hlater)

/-- Only started programs have events. -/
def Started (cfg : Config Stmt σ κ ρ) : Prop :=
  ∀ entry ∈ cfg.world.log, entry.1 < cfg.threads.length

theorem started_initial (s : σ) : Started (initial s : Config Stmt σ κ ρ) := by
  intro entry hentry
  contradiction

theorem started_step (hstarted : Started cfg) (label : Label κ ι) :
    Started (svc.step cfg label) := by
  intro entry hentry
  cases label with
  | start request =>
    simp only [step, World.record_log, List.mem_cons, List.length_append,
      List.length_singleton] at hentry ⊢
    rcases hentry with rfl | hold
    · exact Nat.lt_succ_self _
    · exact Nat.lt_succ_of_lt (hstarted entry hold)
  | run i choice =>
    simp only [step] at hentry ⊢
    split at hentry
    · rename_i hthread
      simp only [perform_log, List.mem_cons, List.length_set] at hentry ⊢
      rcases hentry with rfl | hold
      · exact (List.getElem?_eq_some_iff.mp hthread).1
      · exact hstarted entry hold
    · rename_i hthread
      simp only [World.record_log, List.mem_cons, List.length_set] at hentry ⊢
      rcases hentry with rfl | hold
      · exact (List.getElem?_eq_some_iff.mp hthread).1
      · exact hstarted entry hold
    · exact hstarted entry hentry

theorem started_run (hstarted : Started cfg) (labels : List (Label κ ι)) :
    Started (svc.run cfg labels) := by
  induction labels generalizing cfg with
  | nil => exact hstarted
  | cons label labels ih => exact ih (svc.started_step hstarted label)

/-- Every delivered answer is in the log. -/
def Traced (cfg : Config Stmt σ κ ρ) : Prop :=
  ∀ i request answer, Answered cfg i request answer → (i, .answered request answer) ∈ cfg.world.log

theorem traced_step (htraced : Traced cfg) (label : Label κ ι) :
    Traced (svc.step cfg label) := by
  intro i request answer hanswered
  rcases svc.answered_step hanswered with hold | ⟨_, hworld⟩
  · exact svc.log_step cfg label _ (htraced i request answer hold)
  · rw [hworld]
    exact List.mem_cons_self

theorem traced_run (htraced : Traced cfg) (labels : List (Label κ ι)) :
    Traced (svc.run cfg labels) := by
  induction labels generalizing cfg with
  | nil => exact htraced
  | cons label labels ih => exact ih (svc.traced_step htraced label)

theorem traced_initial (s : σ) : Traced (initial s : Config Stmt σ κ ρ) := by
  rintro i request answer ⟨todo, hthread⟩
  simp [initial] at hthread

/-! ## After the answer -/

/-- Every answer in the log has been delivered and is the last event of its program. -/
def Closed (cfg : Config Stmt σ κ ρ) : Prop :=
  ∀ i request answer, (i, .answered request answer) ∈ cfg.world.log →
    Answered cfg i request answer ∧
      ∃ rest, cfg.world.own i = .answered request answer :: rest

theorem closed_initial (s : σ) : Closed (initial s : Config Stmt σ κ ρ) := by
  intro i request answer hanswered
  simp [initial] at hanswered

theorem closed_step (hclosed : Closed cfg) (label : Label κ ι) :
    Closed (svc.step cfg label) := by
  intro i request answer hanswered
  cases label with
  | start request' =>
    simp only [step] at hanswered ⊢
    rcases List.mem_cons.mp hanswered with heq | hold
    · exact absurd (Prod.mk.inj heq).2 (by simp)
    · obtain ⟨⟨todo, hthread⟩, rest, hown⟩ := hclosed i request answer hold
      have hi : i < cfg.threads.length := (List.getElem?_eq_some_iff.mp hthread).1
      refine ⟨⟨todo, by rw [List.getElem?_append_left hi]; exact hthread⟩, rest, ?_⟩
      rw [World.own_record_of_ne (Nat.ne_of_gt hi), hown]
  | run j choice =>
    cases hcurrent : cfg.threads[j]? with
    | none =>
      simp only [step, hcurrent] at hanswered ⊢
      exact hclosed i request answer hanswered
    | some thread =>
      have hj : j < cfg.threads.length := (List.getElem?_eq_some_iff.mp hcurrent).1
      obtain ⟨request', todo', answer'⟩ := thread
      -- a program that still runs has no answer in the log
      have hne : answer' = none → (i, .answered request answer) ∈ cfg.world.log → j ≠ i := by
        rintro rfl hold rfl
        obtain ⟨⟨todo, hthread⟩, _⟩ := hclosed _ request answer hold
        rw [hcurrent] at hthread
        simp at hthread
      cases answer' with
      | some answer' =>
        cases todo' <;> simp only [step, hcurrent] at hanswered ⊢ <;>
          exact hclosed i request answer hanswered
      | none =>
        have hkept : ∀ event s thread, (i, .answered request answer) ∈ cfg.world.log →
            Answered ⟨cfg.world.record j event s, cfg.threads.set j thread⟩ i request answer ∧
              ∃ rest, (cfg.world.record j event s).own i =
                .answered request answer :: rest := by
          intro event s thread hold
          obtain ⟨⟨todo, hthread⟩, rest, hown⟩ := hclosed i request answer hold
          refine ⟨⟨todo, ?_⟩, rest, ?_⟩
          · rw [List.getElem?_set_ne (hne rfl hold)]
            exact hthread
          · rw [World.own_record_of_ne (hne rfl hold), hown]
        cases todo' with
        | done answer' =>
          simp only [step, hcurrent] at hanswered ⊢
          rcases List.mem_cons.mp hanswered with heq | hold
          · obtain ⟨rfl, hevent⟩ := Prod.mk.inj heq
            obtain ⟨rfl, rfl⟩ := Event.answered.inj hevent
            exact ⟨⟨_, List.getElem?_set_self hj⟩, _, World.own_record_self _ _ _ _⟩
          · exact hkept _ _ _ hold
        | step stmt next =>
          simp only [step, hcurrent] at hanswered ⊢
          rcases List.mem_cons.mp hanswered with heq | hold
          · exact absurd (Prod.mk.inj heq).2 (by simp)
          · exact hkept _ _ _ hold

theorem closed_run (hclosed : Closed cfg) (labels : List (Label κ ι)) :
    Closed (svc.run cfg labels) := by
  induction labels generalizing cfg with
  | nil => exact hclosed
  | cons label labels ih => exact ih (svc.closed_step hclosed label)

/-! ## Who issues what -/

/-- Every thread's request is in the log, and the rest of its program issues
only statements its request may issue. -/
def Attributed (P : κ → {β : Type} → Stmt β → Prop) (cfg : Config Stmt σ κ ρ) : Prop :=
  ∀ i thread, cfg.threads[i]? = some thread →
    (i, .began thread.request) ∈ cfg.world.log ∧ thread.todo.Only (P thread.request)

/-- What a step does: nothing, or it starts a request, delivers an answer or
issues a statement that the request behind it may issue. -/
inductive StepOf (svc : Service Stmt σ ι κ ρ) (P : κ → {β : Type} → Stmt β → Prop)
    (w : World Stmt σ κ ρ) : World Stmt σ κ ρ → Prop where
  | void : StepOf svc P w w
  | began (i : Nat) (request : κ) : StepOf svc P w (w.record i (.began request) w.state)
  | answered (i : Nat) (request : κ) (answer : ρ) (hbegan : (i, .began request) ∈ w.log) :
      StepOf svc P w (w.record i (.answered request answer) w.state)
  | issued {β : Type} (i : Nat) (request : κ) (stmt : Stmt β) (choice : ι)
      (hbegan : (i, .began request) ∈ w.log) (hmay : P request stmt) :
      StepOf svc P w (svc.perform i stmt choice w)

variable {P : κ → {β : Type} → Stmt β → Prop}

theorem attributed_initial (s : σ) : Attributed P (initial s : Config Stmt σ κ ρ) := by
  intro i thread hthread
  simp [initial] at hthread

theorem stepOf (hattributed : Attributed P cfg) (label : Label κ ι) :
    StepOf svc P cfg.world (svc.step cfg label).world := by
  cases label with
  | start request => exact .began _ request
  | run i choice =>
    simp only [step]
    split
    · rename_i request β stmt next hthread
      obtain ⟨hbegan, honly⟩ := hattributed _ _ hthread
      exact .issued i request stmt choice hbegan honly.1
    · rename_i request answer hthread
      exact .answered i request answer (hattributed _ _ hthread).1
    · exact .void

theorem attributed_step (hhandler : ∀ request, (svc.handler request).Only (P request))
    (hattributed : Attributed P cfg) (label : Label κ ι) :
    Attributed P (svc.step cfg label) := by
  have hkeep : ∀ i thread, cfg.threads[i]? = some thread →
      (i, .began thread.request) ∈ (svc.step cfg label).world.log ∧
        thread.todo.Only (P thread.request) := fun i thread hthread =>
    ⟨svc.log_step cfg label _ (hattributed i thread hthread).1, (hattributed i thread hthread).2⟩
  intro i thread hthread
  cases label with
  | start request =>
    simp only [step] at hthread hkeep ⊢
    rw [List.getElem?_append] at hthread
    split at hthread
    · exact hkeep i thread hthread
    · rename_i hlt
      rw [List.getElem?_singleton] at hthread
      split at hthread
      · obtain rfl := Option.some.inj hthread
        have hi : i = cfg.threads.length := by omega
        rw [hi]
        exact ⟨List.mem_cons_self, hhandler request⟩
      · contradiction
  | run j choice =>
    simp only [step] at hthread hkeep ⊢
    split at hthread
    · rename_i request β stmt next hcurrent
      simp only [hcurrent] at hkeep ⊢
      rcases eq_or_ne j i with rfl | hne
      · rw [List.getElem?_set_self (List.getElem?_eq_some_iff.mp hcurrent).1] at hthread
        obtain rfl := Option.some.inj hthread
        obtain ⟨hbegan, honly⟩ := hkeep _ _ hcurrent
        exact ⟨hbegan, honly.2 _⟩
      · rw [List.getElem?_set_ne hne] at hthread
        exact hkeep i thread hthread
    · rename_i request answer hcurrent
      simp only [hcurrent] at hkeep ⊢
      rcases eq_or_ne j i with rfl | hne
      · rw [List.getElem?_set_self (List.getElem?_eq_some_iff.mp hcurrent).1] at hthread
        obtain rfl := Option.some.inj hthread
        obtain ⟨hbegan, honly⟩ := hkeep j ⟨request, .done answer, none⟩ hcurrent
        exact ⟨hbegan, honly⟩
      · rw [List.getElem?_set_ne hne] at hthread
        exact hkeep i thread hthread
    · exact hattributed i thread hthread

theorem attributed_run (hhandler : ∀ request, (svc.handler request).Only (P request))
    (hattributed : Attributed P cfg) (labels : List (Label κ ι)) :
    Attributed P (svc.run cfg labels) := by
  induction labels generalizing cfg with
  | nil => exact hattributed
  | cons label labels ih => exact ih (svc.attributed_step hhandler hattributed label)

/-- The run from `cfg` under the given decisions takes only steps that `allowed` admits. -/
def Admits (svc : Service Stmt σ ι κ ρ)
    (allowed : Nat → World Stmt σ κ ρ → World Stmt σ κ ρ → Prop) :
    Config Stmt σ κ ρ → List (Label κ ι) → Prop
  | _, [] => True
  | cfg, label :: labels =>
      allowed (actor cfg label) cfg.world (svc.step cfg label).world ∧
        Admits svc allowed (svc.step cfg label) labels

theorem admits_true (cfg : Config Stmt σ κ ρ) (labels : List (Label κ ι)) :
    svc.Admits (fun _ _ _ => True) cfg labels := by
  induction labels generalizing cfg with
  | nil => trivial
  | cons label labels ih => exact ⟨trivial, ih _⟩

variable {A B : Nat → World Stmt σ κ ρ → World Stmt σ κ ρ → Prop}

theorem admits_and (hA : svc.Admits A cfg labels) (hB : svc.Admits B cfg labels) :
    svc.Admits (fun i w w' => A i w w' ∧ B i w w') cfg labels := by
  induction labels generalizing cfg with
  | nil => trivial
  | cons label labels ih => exact ⟨⟨hA.1, hB.1⟩, ih hA.2 hB.2⟩

/-- A test of the two worlds of every step, along a run. -/
def tested (svc : Service Stmt σ ι κ ρ) (test : World Stmt σ κ ρ → World Stmt σ κ ρ → Bool) :
    Config Stmt σ κ ρ → List (Label κ ι) → Bool
  | _, [] => true
  | cfg, label :: labels =>
      test cfg.world (svc.step cfg label).world && tested svc test (svc.step cfg label) labels

variable {allowed : Nat → World Stmt σ κ ρ → World Stmt σ κ ρ → Prop}

theorem admits_of_tested {test : World Stmt σ κ ρ → World Stmt σ κ ρ → Bool}
    (htest : ∀ i w w', test w w' = true → allowed i w w')
    (hrun : svc.tested test cfg labels = true) :
    svc.Admits allowed cfg labels := by
  induction labels generalizing cfg with
  | nil => trivial
  | cons label labels ih =>
    rw [tested, Bool.and_eq_true] at hrun
    exact ⟨htest _ _ _ hrun.1, ih hrun.2⟩

variable {I : World Stmt σ κ ρ → Prop}

/-- What every step of the allowed kinds preserves holds at the end of a run. -/
theorem admitted_run (hhandler : ∀ request, (svc.handler request).Only (P request))
    (hstep : ∀ i w w', StepOf svc P w w' → allowed i w w' → I w → I w')
    (hattributed : Attributed P cfg) (hI : I cfg.world) (labels : List (Label κ ι))
    (hadmits : svc.Admits allowed cfg labels) :
    I (svc.run cfg labels).world := by
  induction labels generalizing cfg with
  | nil => exact hI
  | cons label labels ih =>
    exact ih (svc.attributed_step hhandler hattributed label)
      (hstep _ _ _ (svc.stepOf hattributed label) hadmits.1 hI) hadmits.2

theorem stepOf_run (hhandler : ∀ request, (svc.handler request).Only (P request))
    (hstep : ∀ w w', StepOf svc P w w' → I w → I w') (hattributed : Attributed P cfg)
    (hI : I cfg.world) (labels : List (Label κ ι)) : I (svc.run cfg labels).world :=
  svc.admitted_run hhandler (fun _ w w' h _ => hstep w w' h) hattributed hI labels
    (svc.admits_true cfg labels)

theorem admits_append (allowed : Nat → World Stmt σ κ ρ → World Stmt σ κ ρ → Prop)
    (cfg : Config Stmt σ κ ρ) (first second : List (Label κ ι)) :
    svc.Admits allowed cfg (first ++ second) ↔
      svc.Admits allowed cfg first ∧ svc.Admits allowed (svc.run cfg first) second := by
  induction first generalizing cfg with
  | nil => simp [Admits]
  | cons label labels ih => simp [Admits, ih, and_assoc]

/-- A run takes only allowed steps if and only if every step on the way is allowed. -/
theorem admits_iff :
    svc.Admits allowed cfg labels ↔ ∀ first label last, labels = first ++ label :: last →
      allowed (actor (svc.run cfg first) label) (svc.run cfg first).world
        (svc.step (svc.run cfg first) label).world := by
  constructor
  · rintro hadmits first label last rfl
    exact ((svc.admits_append allowed cfg first (label :: last)).mp hadmits).2.1
  · intro hsteps
    induction labels generalizing cfg with
    | nil => trivial
    | cons head tail ih =>
      refine ⟨hsteps [] head tail rfl, ih ?_⟩
      rintro first label last rfl
      exact hsteps (head :: first) label last rfl

/-- Two conditions that agree on the steps of every run agree on runs. -/
theorem admits_congr
    (h : ∀ first label, A (actor (svc.run cfg first) label) (svc.run cfg first).world
        (svc.step (svc.run cfg first) label).world ↔
      B (actor (svc.run cfg first) label) (svc.run cfg first).world
        (svc.step (svc.run cfg first) label).world) (labels : List (Label κ ι)) :
    svc.Admits A cfg labels ↔ svc.Admits B cfg labels := by
  rw [admits_iff, admits_iff]
  exact forall_congr' fun first => forall_congr' fun label => forall_congr' fun _ =>
    imp_congr_right fun _ => h first label

/-- Whatever `K` holds of in some state of the run, it holds of in every later one. -/
def Persists {α : Type} (K : σ → α → Prop) (cfg : Config Stmt σ κ ρ)
    (labels : List (Label κ ι)) : Prop :=
  ∀ first middle last, labels = first ++ middle ++ last → ∀ x,
    K (svc.run cfg first).world.state x → K (svc.run cfg (first ++ middle)).world.state x

/-- What persists in a run is what each of its steps keeps. -/
theorem persists_iff_admits {α : Type} {K : σ → α → Prop} : svc.Persists K cfg labels ↔
      svc.Admits (fun _ w w' => ∀ x, K w.state x → K w'.state x) cfg labels := by
  rw [admits_iff]
  constructor
  · intro hpersists first label last hsplit x hx
    have hlater := hpersists first [label] last (by simpa using hsplit) x hx
    rwa [run_append] at hlater
  · intro hsteps first middle last hsplit x hx
    induction middle using List.reverseRecOn generalizing last with
    | nil => simpa using hx
    | append_singleton middle label ih =>
      have hbefore := ih (label :: last) (by simpa using hsplit)
      rw [← List.append_assoc, run_append]
      exact hsteps (first ++ middle) label last (by simpa using hsplit) x hbefore

/-- `I` holds of every world on the way. -/
def Always (I : World Stmt σ κ ρ → Prop) (cfg : Config Stmt σ κ ρ) (labels : List (Label κ ι)) :
    Prop := ∀ first second, labels = first ++ second → I (svc.run cfg first).world

theorem always_append_singleton {label : Label κ ι} :
    svc.Always I cfg (labels ++ [label]) ↔
      svc.Always I cfg labels ∧ I (svc.step (svc.run cfg labels) label).world := by
  constructor
  · intro h
    refine ⟨fun first second hsplit => h first (second ++ [label]) ?_, ?_⟩
    · rw [hsplit, List.append_assoc]
    · have hlast := h (labels ++ [label]) [] (List.append_nil _).symm
      rwa [run_append] at hlast
  · rintro ⟨hbefore, hlast⟩ first second hsplit
    rcases List.eq_nil_or_concat second with rfl | ⟨init, last, rfl⟩
    · rw [List.append_nil] at hsplit
      rw [← hsplit, run_append]
      exact hlast
    · rw [List.concat_eq_append, ← List.append_assoc] at hsplit
      exact hbefore first init (List.append_inj_left' hsplit rfl)

/-- What every allowed step of a reachable configuration preserves always holds. -/
theorem always_of_admits (hI : I cfg.world)
    (hstep : ∀ labels label, I (svc.run cfg labels).world →
      allowed (actor (svc.run cfg labels) label) (svc.run cfg labels).world
        (svc.step (svc.run cfg labels) label).world →
      I (svc.step (svc.run cfg labels) label).world) (labels : List (Label κ ι))
    (hadmits : svc.Admits allowed cfg labels) :
    svc.Always I cfg labels := by
  induction labels using List.reverseRecOn with
  | nil =>
    intro first second hsplit
    rw [(List.append_eq_nil_iff.mp hsplit.symm).1]
    exact hI
  | append_singleton labels label ih =>
    rw [admits_append] at hadmits
    have halways := ih hadmits.1
    have hnow := halways labels [] (List.append_nil _).symm
    exact svc.always_append_singleton.mpr ⟨halways, hstep labels label hnow hadmits.2.1⟩

/-- Where a step keeps `I` and meets `Q` exactly if it is allowed, a run does so exactly if
its steps are allowed. -/
theorem always_and_admits_iff {Q : Nat → World Stmt σ κ ρ → World Stmt σ κ ρ → Prop}
    (hI : I cfg.world)
    (hstep : ∀ labels label, I (svc.run cfg labels).world →
      (I (svc.step (svc.run cfg labels) label).world ∧
          Q (actor (svc.run cfg labels) label) (svc.run cfg labels).world
            (svc.step (svc.run cfg labels) label).world ↔
        allowed (actor (svc.run cfg labels) label) (svc.run cfg labels).world
          (svc.step (svc.run cfg labels) label).world)) (labels : List (Label κ ι)) :
    svc.Always I cfg labels ∧ svc.Admits Q cfg labels ↔ svc.Admits allowed cfg labels := by
  induction labels using List.reverseRecOn with
  | nil =>
    refine iff_of_true ⟨fun first second hsplit => ?_, trivial⟩ trivial
    rw [(List.append_eq_nil_iff.mp hsplit.symm).1]
    exact hI
  | append_singleton labels label ih =>
    rw [always_append_singleton, admits_append, admits_append, ← ih]
    constructor
    · rintro ⟨⟨halways, hnext⟩, hQ, hlast⟩
      have hnow := halways labels [] (List.append_nil _).symm
      exact ⟨⟨halways, hQ⟩, (hstep labels label hnow).mp ⟨hnext, hlast.1⟩, trivial⟩
    · rintro ⟨⟨halways, hQ⟩, hallowed, -⟩
      have hnow := halways labels [] (List.append_nil _).symm
      obtain ⟨hnext, hlast⟩ := (hstep labels label hnow).mpr hallowed
      exact ⟨⟨halways, hnext⟩, hQ, hlast, trivial⟩

/-- Where a step keeps `I` exactly if it is allowed, a run keeps it exactly if
its steps are. -/
theorem always_iff_admits (hI : I cfg.world)
    (hstep : ∀ labels label, I (svc.run cfg labels).world →
      (I (svc.step (svc.run cfg labels) label).world ↔
        allowed (actor (svc.run cfg labels) label) (svc.run cfg labels).world
          (svc.step (svc.run cfg labels) label).world)) (labels : List (Label κ ι)) :
    svc.Always I cfg labels ↔ svc.Admits allowed cfg labels := by
  rw [← svc.always_and_admits_iff (Q := fun _ _ _ => True) hI ?_ labels]
  · exact (and_iff_left (svc.admits_true cfg labels)).symm
  · intro before label hnow
    rw [and_iff_left trivial]
    exact hstep before label hnow

end Service

end IntelliPilot.Statement
