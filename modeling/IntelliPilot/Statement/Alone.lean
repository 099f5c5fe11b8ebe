import IntelliPilot.Statement.Program

/-! # Programs that run alone

What a program does when no other statement runs between two of its own: its
answer and the state it leaves, given the environment's choice for each
statement. `Ends` says what holds of both for all choices of a kind; of a
program that may stop with an error, `Ensures` says what holds for each of the
two ways to end.
-/

namespace IntelliPilot.Statement

variable {Stmt : Type → Type} {σ ι α β ρ ε : Type}

namespace Prog

/-- Answer and final state; the environment's choices come in order. -/
def alone (exec : {β : Type} → Stmt β → ι → σ → β × σ) : Prog Stmt ρ → (Nat → ι) → σ → ρ × σ
  | .done answer, _, s => (answer, s)
  | .step stmt next, choices, s =>
      (next (exec stmt (choices 0) s).1).alone exec (fun n => choices (n + 1))
        (exec stmt (choices 0) s).2

/-- Whatever the environment chooses among `C`, the program ends with `Q`. -/
def Ends (exec : {β : Type} → Stmt β → ι → σ → β × σ) (C : ι → Prop) :
    Prog Stmt α → (α → σ → Prop) → σ → Prop
  | .done answer, Q, s => Q answer s
  | .step stmt next, Q, s => ∀ choice, C choice →
      (next (exec stmt choice s).1).Ends exec C Q (exec stmt choice s).2

variable {exec : {β : Type} → Stmt β → ι → σ → β × σ} {C : ι → Prop} {p : Prog Stmt α}
  {Q : α → σ → Prop} {s : σ}

theorem Ends.mono {R : α → σ → Prop} (h : p.Ends exec C Q s)
    (hQR : ∀ answer s, Q answer s → R answer s) : p.Ends exec C R s := by
  induction p generalizing s with
  | done answer => exact hQR answer s h
  | step stmt next ih => exact fun choice hchoice => ih _ (h choice hchoice)

theorem ends_bind {f : α → Prog Stmt ρ} {Q : ρ → σ → Prop} :
    (p >>= f).Ends exec C Q s ↔
      p.Ends exec C (fun answer s => (f answer).Ends exec C Q s) s := by
  induction p generalizing s with
  | done answer => exact Iff.rfl
  | step stmt next ih =>
    exact forall_congr' fun choice => imp_congr_right fun _ => ih _

theorem ends_call {stmt : Stmt β} {Q : β → σ → Prop} :
    (call stmt).Ends exec C Q s ↔
      ∀ choice, C choice → Q (exec stmt choice s).1 (exec stmt choice s).2 := Iff.rfl

theorem Ends.and {R : α → σ → Prop} (hQ : p.Ends exec C Q s) (hR : p.Ends exec C R s) :
    p.Ends exec C (fun answer s => Q answer s ∧ R answer s) s := by
  induction p generalizing s with
  | done answer => exact ⟨hQ, hR⟩
  | step stmt next ih => exact fun choice hchoice => ih _ (hQ choice hchoice) (hR choice hchoice)

/-- What every statement of a program preserves holds when the program ends. -/
theorem ends_of_only {P : {β : Type} → Stmt β → Prop} {I : σ → Prop}
    (hstep : ∀ {β : Type} (stmt : Stmt β) choice s, P stmt → I s → I (exec stmt choice s).2)
    (hp : p.Only P) (hs : I s) : p.Ends exec C (fun _ s => I s) s := by
  induction p generalizing s with
  | done answer => exact hs
  | step stmt next ih =>
    exact fun choice _ => ih _ (hp.2 _) (hstep stmt choice s hp.1 hs)

/-- How a program can end is how it ends when it runs alone. -/
theorem Ends.alone (h : p.Ends exec C Q s) {choices : Nat → ι} (hchoices : ∀ n, C (choices n)) :
    Q (p.alone exec choices s).1 (p.alone exec choices s).2 := by
  induction p generalizing s choices with
  | done answer => exact h
  | step stmt next ih =>
    exact ih _ (h (choices 0) (hchoices 0)) fun n => hchoices (n + 1)

/-- What holds at every end holds whatever the choices are, one after the other. -/
theorem ends_iff_alone {p : Prog Stmt ρ} {Q : ρ → σ → Prop} (idle : ι) (hidle : C idle) :
    p.Ends exec C Q s ↔ ∀ choices : Nat → ι, (∀ n, C (choices n)) →
      Q (p.alone exec choices s).1 (p.alone exec choices s).2 := by
  constructor
  · exact fun h choices hchoices => h.alone hchoices
  · intro h
    induction p generalizing s with
    | done answer => exact h (fun _ => idle) fun _ => hidle
    | step stmt next ih =>
      intro choice hchoice
      apply ih
      intro choices hchoices
      apply h fun n => n.casesOn choice choices
      intro n
      cases n with
      | zero => exact hchoice
      | succ n => exact hchoices n

section Translate

variable {Stmt' : Type → Type} {σ' : Type} {exec' : {β : Type} → Stmt' β → ι → σ' → β × σ'}
  {f : {β : Type} → Stmt β → Stmt' β} (get : σ' → σ) (put : σ → σ' → σ')
  (hget : ∀ s s', get (put s s') = s) (hput : ∀ s t s', put s (put t s') = put s s')
  (hself : ∀ s', put (get s') s' = s')
  (hexec : ∀ {β : Type} (stmt : Stmt β) choice s',
    exec' (f stmt) choice s' =
      ((exec stmt choice (get s')).1, put (exec stmt choice (get s')).2 s'))

include hget hput hself hexec

/-- A program over a richer signature, whose statements act on a part of the state. -/
theorem ends_translate {p : Prog Stmt ρ} {Q : ρ → σ' → Prop} {s' : σ'} :
    (p.translate f).Ends exec' C Q s' ↔
      p.Ends exec C (fun answer s => Q answer (put s s')) (get s') := by
  induction p generalizing s' with
  | done answer =>
    show Q answer s' ↔ Q answer (put (get s') s')
    rw [hself]
  | step stmt next ih =>
    apply forall_congr'
    intro choice
    apply imp_congr_right
    intro _
    show ((next (exec' (f stmt) choice s').1).translate f).Ends exec' C Q
      (exec' (f stmt) choice s').2 ↔ _
    rw [hexec, ih, hget]
    simp only [hput]

/-- The run of such a program. -/
theorem alone_translate (p : Prog Stmt ρ) (choices : Nat → ι) (s' : σ') :
    (p.translate f).alone exec' choices s' =
      ((p.alone exec choices (get s')).1, put (p.alone exec choices (get s')).2 s') := by
  induction p generalizing choices s' with
  | done answer =>
    show (answer, s') = (answer, put (get s') s')
    rw [hself]
  | step stmt next ih =>
    show ((next (exec' (f stmt) (choices 0) s').1).translate f).alone exec'
      (fun n => choices (n + 1)) (exec' (f stmt) (choices 0) s').2 = _
    rw [hexec, ih, hget, hput]
    rfl

end Translate

end Prog

/-! ## Programs that may stop with an error -/

/-- A condition for each of the two ways to end. -/
def Outcome {σ : Type*} (Q : α → σ → Prop) (E : ε → σ → Prop) : Except ε α → σ → Prop
  | .ok answer => Q answer
  | .error e => E e

/-- The program ends with `Q`, or with an error and `E`. -/
def Ensures (exec : {β : Type} → Stmt β → ι → σ → β × σ) (C : ι → Prop)
    (p : ExceptT ε (Prog Stmt) α) (Q : α → σ → Prop) (E : ε → σ → Prop) (s : σ) : Prop :=
  Prog.Ends exec C p.run (Outcome Q E) s

section Ensures

variable {exec : {β : Type} → Stmt β → ι → σ → β × σ} {C : ι → Prop} {Q : α → σ → Prop}
  {E : ε → σ → Prop} {s : σ}

theorem Ensures.mono {p : ExceptT ε (Prog Stmt) α} {R : α → σ → Prop} {F : ε → σ → Prop}
    (h : Ensures exec C p Q E s) (hQR : ∀ answer s, Q answer s → R answer s)
    (hEF : ∀ e s, E e s → F e s) : Ensures exec C p R F s := by
  apply Prog.Ends.mono h
  intro outcome s
  cases outcome with
  | ok answer => exact hQR answer s
  | error e => exact hEF e s

theorem ensures_bind {p : ExceptT ε (Prog Stmt) β} {f : β → ExceptT ε (Prog Stmt) α} :
    Ensures exec C (p >>= f) Q E s ↔
      Ensures exec C p (fun answer s => Ensures exec C (f answer) Q E s) E s := by
  unfold Ensures
  rw [ExceptT.run_bind, Prog.ends_bind]
  constructor
  · intro h
    apply h.mono
    rintro (e | answer) s houtcome
    · exact houtcome
    · exact houtcome
  · intro h
    apply h.mono
    rintro (e | answer) s houtcome
    · exact houtcome
    · exact houtcome

theorem ensures_lift {p : Prog Stmt α} :
    Ensures exec C (ExceptT.lift p : ExceptT ε (Prog Stmt) α) Q E s ↔ p.Ends exec C Q s := by
  unfold Ensures
  rw [ExceptT.run_lift]
  show Prog.Ends exec C (p >>= fun a => pure (Except.ok a)) _ s ↔ _
  rw [Prog.ends_bind]
  exact Iff.rfl

end Ensures

/-! ## Programs that keep a condition on the state -/

/-- The program keeps `I`, and ends with a result of `P` or an error of `E`. -/
def Stays (exec : {β : Type} → Stmt β → ι → σ → β × σ) (C : ι → Prop) (I : σ → Prop)
    (p : ExceptT ε (Prog Stmt) α) (P : α → Prop) (E : ε → Prop) : Prop :=
  ∀ s, I s → Ensures exec C p (fun answer s => I s ∧ P answer) (fun e s => I s ∧ E e) s

section Stays

variable {exec : {β : Type} → Stmt β → ι → σ → β × σ} {C : ι → Prop} {I : σ → Prop}
  {P : α → Prop} {E : ε → Prop}

theorem stays_pure {answer : α} (h : P answer) :
    Stays exec C I (pure answer : ExceptT ε (Prog Stmt) α) P E := fun _ hI => ⟨hI, h⟩

theorem stays_throw {e : ε} (h : E e) :
    Stays exec C I (throw e : ExceptT ε (Prog Stmt) α) P E := fun _ hI => ⟨hI, h⟩

variable {f : β → ExceptT ε (Prog Stmt) α} {R : β → Prop}

theorem stays_bind {p : ExceptT ε (Prog Stmt) β} (hp : Stays exec C I p R E)
    (hf : ∀ answer, R answer → Stays exec C I (f answer) P E) : Stays exec C I (p >>= f) P E := by
  intro s hI
  rw [ensures_bind]
  apply (hp s hI).mono
  · exact fun answer s h => hf answer h.2 s h.1
  · exact fun e s h => h

theorem Stays.mono {p : ExceptT ε (Prog Stmt) α} {R : α → Prop} {F : ε → Prop}
    (h : Stays exec C I p P E) (hPR : ∀ answer, P answer → R answer) (hEF : ∀ e, E e → F e) :
    Stays exec C I p R F := by
  intro s hI
  apply (h s hI).mono
  · exact fun answer s h => ⟨h.1, hPR answer h.2⟩
  · exact fun e s h => ⟨h.1, hEF e h.2⟩

theorem stays_ite {c : Prop} [Decidable c] {p q : ExceptT ε (Prog Stmt) α}
    (hp : c → Stays exec C I p P E) (hq : ¬ c → Stays exec C I q P E) :
    Stays exec C I (if c then p else q) P E := by
  split
  · rename_i hc
    exact hp hc
  · rename_i hc
    exact hq hc

theorem stays_forM {f : β → ExceptT ε (Prog Stmt) PUnit} {rows : List β}
    (hf : ∀ row ∈ rows, Stays exec C I (f row) (fun _ => R row) E) :
    Stays exec C I (rows.forM f) (fun _ => ∀ row ∈ rows, R row) E := by
  induction rows with
  | nil => exact stays_pure fun _ hrow => absurd hrow List.not_mem_nil
  | cons row rows ih =>
    refine stays_bind (hf row List.mem_cons_self) fun _ hrow => ?_
    apply (ih fun other hother => hf other (List.mem_cons_of_mem _ hother)).mono
    · intro _ hrest other hother
      rcases List.mem_cons.mp hother with rfl | hother
      · exact hrow
      · exact hrest other hother
    · exact fun _ h => h

/-- What a program that keeps `I` is followed by starts where `I` holds. -/
theorem Stays.ensures {p : ExceptT ε (Prog Stmt) β} {Q : α → σ → Prop} {F : ε → σ → Prop} {s : σ}
    (hp : Stays exec C I p R E) (hI : I s)
    (hf : ∀ answer s, I s → R answer → Ensures exec C (f answer) Q F s)
    (hE : ∀ e s, I s → E e → F e s) : Ensures exec C (p >>= f) Q F s := by
  rw [ensures_bind]
  apply (hp s hI).mono
  · exact fun answer s h => hf answer s h.1 h.2
  · exact fun e s h => hE e s h.1 h.2

end Stays

end IntelliPilot.Statement
