import IntelliPilot.Statement.Interleaving

/-! # Counting what a run spends

A potential of the shared state bounds how often some event can still happen:
an event that spends lowers it, an event that issues may raise it. Over a run,
whatever the interleaving, no more is spent than there was and was issued.
-/

namespace IntelliPilot.Statement

variable {Stmt : Type → Type} {σ ι κ ρ : Type}

/-- How often the events of a log satisfy `p`. -/
def World.count (p : Event Stmt κ ρ → Bool) (w : World Stmt σ κ ρ) : Nat :=
  w.log.countP fun entry => p entry.2

@[simp] theorem World.count_record (p : Event Stmt κ ρ → Bool) (w : World Stmt σ κ ρ) (i : Nat)
    (event : Event Stmt κ ρ) (s : σ) :
    (w.record i event s).count p = w.count p + (p event).toNat := by
  cases h : p event with
  | true => simp [World.count, h]
  | false => simp [World.count, h]

/-- Two programs with an event satisfying `p` make two such events. -/
theorem World.two_le_count {p : Event Stmt κ ρ → Bool} {w : World Stmt σ κ ρ} {i j : Nat}
    (hne : i ≠ j) {event event' : Event Stmt κ ρ} (hevent : (i, event) ∈ w.log)
    (hevent' : (j, event') ∈ w.log) (hp : p event = true) (hp' : p event' = true) :
    2 ≤ w.count p := by
  have hsub : ∀ (log : List (Nat × Event Stmt κ ρ)), (i, event) ∈ log → (j, event') ∈ log →
      2 ≤ log.countP fun entry => p entry.2 := by
    intro log
    induction log with
    | nil => intro h _; contradiction
    | cons entry log ih =>
      intro hi hj
      rw [List.countP_cons]
      -- each of the two is the head or in the tail, and they are not both the head
      rcases List.mem_cons.mp hi with rfl | hi'
      · rcases List.mem_cons.mp hj with heq | hj'
        · exact absurd (Prod.mk.inj heq).1.symm hne
        · have hpos : 0 < log.countP fun entry => p entry.2 :=
            List.countP_pos_iff.mpr ⟨_, hj', hp'⟩
          simp only [hp, if_true]
          omega
      · rcases List.mem_cons.mp hj with rfl | hj'
        · have hpos : 0 < log.countP fun entry => p entry.2 :=
            List.countP_pos_iff.mpr ⟨_, hi', hp⟩
          simp only [hp', if_true]
          omega
        · have htail := ih hi' hj'
          omega
  exact hsub w.log hevent hevent'

namespace Service

variable (svc : Service Stmt σ ι κ ρ) {spends issues : Event Stmt κ ρ → Bool} {potential : σ → Nat}

/-- Every statement spends no more than it takes from the potential and issues,
and nothing else spends. -/
structure Ledger (spends issues : Event Stmt κ ρ → Bool) (potential : σ → Nat) : Prop where
  statement : ∀ {β : Type} (stmt : Stmt β) (choice : ι) (s : σ),
    (spends (.ran stmt (svc.exec stmt choice s).1)).toNat + potential (svc.exec stmt choice s).2 ≤
      potential s + (issues (.ran stmt (svc.exec stmt choice s).1)).toNat
  began : ∀ request, spends (.began request) = false
  answered : ∀ request answer, spends (.answered request answer) = false

/-- A step spends no more than it takes from the potential and issues. -/
theorem ledger_step (hledger : svc.Ledger spends issues potential) {start : Nat}
    {cfg : Config Stmt σ κ ρ} (h : cfg.world.count spends + potential cfg.world.state ≤
      start + cfg.world.count issues) (label : Label κ ι) :
    (svc.step cfg label).world.count spends + potential (svc.step cfg label).world.state ≤
      start + (svc.step cfg label).world.count issues := by
  cases label with
  | start request =>
    simp only [step, World.count_record, World.record_state, hledger.began, Bool.toNat_false]
    omega
  | run i choice =>
    simp only [step]
    split
    · rename_i stmt _ _
      simp only [perform, World.count_record, World.record_state]
      have hstmt := hledger.statement stmt choice cfg.world.state
      omega
    · simp only [World.count_record, World.record_state, hledger.answered, Bool.toNat_false]
      omega
    · exact h

/-- A run spends no more than the initial potential and what it issues. -/
theorem ledger_run (hledger : svc.Ledger spends issues potential) (s : σ)
    (labels : List (Label κ ι)) :
    (svc.run (initial s) labels).world.count spends +
        potential (svc.run (initial s) labels).world.state ≤
      potential s + (svc.run (initial s) labels).world.count issues := by
  have hrun : ∀ cfg : Config Stmt σ κ ρ, cfg.world.count spends + potential cfg.world.state ≤
      potential s + cfg.world.count issues →
      (svc.run cfg labels).world.count spends + potential (svc.run cfg labels).world.state ≤
        potential s + (svc.run cfg labels).world.count issues := by
    induction labels with
    | nil => exact fun _ h => h
    | cons label labels ih => exact fun cfg h => ih _ (svc.ledger_step hledger h label)
  apply hrun
  simp [initial, World.count]

end Service

end IntelliPilot.Statement
