import IntelliPilot.Statement.Interleaving

/-! # What a program's own events tell

Some properties of a program need nothing of the shared state: they follow
from the statements the program issues and their results, whatever the results
are. Such a property is a predicate of the program's events so far, newest
first. It is proved along the program, and then holds of every program in
every interleaving.
-/

namespace IntelliPilot.Statement

variable {Stmt : Type → Type} {σ ι κ ρ α τ : Type}

/-- From the events so far on, and whatever the results, `p` keeps `ok` and
leaves its answer with events of which `Q` holds. -/
def Prog.Tells (ok : List (Event Stmt κ ρ) → Prop) :
    Prog Stmt α → (α → List (Event Stmt κ ρ) → Prop) → List (Event Stmt κ ρ) → Prop
  | .done answer, Q, events => Q answer events
  | .step stmt next, Q, events => ∀ result, ok (.ran stmt result :: events) ∧
      (next result).Tells ok Q (.ran stmt result :: events)

namespace Prog

variable {ok : List (Event Stmt κ ρ) → Prop} {P : List (Event Stmt κ ρ) → Prop}

variable {p : Prog Stmt α} {Q : α → List (Event Stmt κ ρ) → Prop} {events : List (Event Stmt κ ρ)}

theorem Tells.post {R : α → List (Event Stmt κ ρ) → Prop} (hp : p.Tells ok Q events)
    (hR : ∀ answer events, Q answer events → R answer events) : p.Tells ok R events := by
  induction p generalizing events with
  | done answer => exact hR answer events hp
  | step stmt next ih => exact fun result => ⟨(hp result).1, ih result (hp result).2⟩

theorem tells_bind {g : α → Prog Stmt τ} {R : τ → List (Event Stmt κ ρ) → Prop}
    (hp : p.Tells ok Q events)
    (hg : ∀ answer events, Q answer events → (g answer).Tells ok R events) :
    (p >>= g).Tells ok R events := by
  induction p generalizing events with
  | done answer => exact hg answer events hp
  | step stmt next ih => exact fun result => ⟨(hp result).1, ih result (hp result).2⟩

/-- Each branch of a test may use what the test found. -/
theorem tells_dite {c : Prop} [Decidable c] {q : Prog Stmt α} (hp : c → p.Tells ok Q events)
    (hq : ¬ c → q.Tells ok Q events) :
    (if c then p else q).Tells ok Q events := by
  split
  · rename_i hc
    exact hp hc
  · rename_i hc
    exact hq hc

theorem tells_ite {c : Prop} [Decidable c] {q : Prog Stmt α} (hp : p.Tells ok Q events)
    (hq : q.Tells ok Q events) :
    (if c then p else q).Tells ok Q events := tells_dite (fun _ => hp) fun _ => hq

/-- A program part all of whose statements keep `P` keeps it itself. -/
theorem tells_only {C : {β : Type} → Stmt β → Prop}
    (hcall : ∀ {β : Type} (stmt : Stmt β) (result : β) (events : List (Event Stmt κ ρ)), C stmt →
      P events → ok (.ran stmt result :: events) ∧ P (.ran stmt result :: events)) (hp : p.Only C)
    (hP : P events) :
    p.Tells ok (fun _ => P) events := by
  induction p generalizing events with
  | done answer => exact hP
  | step stmt next ih =>
    intro result
    obtain ⟨hok, hP'⟩ := hcall stmt result events hp.1 hP
    exact ⟨hok, ih result (hp.2 result) hP'⟩

end Prog

/-! ## Events that are justified by those before -/

/-- `R` holds of every event and of those before it. -/
def Justified (R : Event Stmt κ ρ → List (Event Stmt κ ρ) → Prop) : List (Event Stmt κ ρ) → Prop
  | [] => True
  | event :: earlier => R event earlier ∧ Justified R earlier

/-- `R` holds of the newest event and of those before it. -/
def Newest (R : Event Stmt κ ρ → List (Event Stmt κ ρ) → Prop) : List (Event Stmt κ ρ) → Prop
  | [] => True
  | event :: earlier => R event earlier

variable {R : Event Stmt κ ρ → List (Event Stmt κ ρ) → Prop} {events : List (Event Stmt κ ρ)}

theorem Justified.of_mem (h : Justified R events) {event : Event Stmt κ ρ} (hmem : event ∈ events) :
    ∃ later earlier, events = later ++ event :: earlier ∧ R event earlier := by
  induction events with
  | nil => cases hmem
  | cons newest events ih =>
    rcases List.mem_cons.mp hmem with rfl | hold
    · exact ⟨[], events, rfl, h.1⟩
    · obtain ⟨later, earlier, rfl, hR⟩ := ih h.2 hold
      exact ⟨newest :: later, earlier, rfl, hR⟩

theorem justified_of_newest {p : Prog Stmt α} {Q : α → List (Event Stmt κ ρ) → Prop}
    (hp : p.Tells (Newest R) Q events) (h : Justified R events) :
    p.Tells (Justified R) (fun answer later => Q answer later ∧ Justified R later) events := by
  induction p generalizing events with
  | done answer => exact ⟨hp, h⟩
  | step stmt next ih =>
    intro result
    have hlater : Justified R (.ran stmt result :: events) := ⟨(hp result).1, h⟩
    exact ⟨hlater, ih result (hp result).2 hlater⟩

namespace Service

variable (svc : Service Stmt σ ι κ ρ) {ok : κ → List (Event Stmt κ ρ) → Prop}

/-- What is left of an unfinished program keeps `ok` up to and with its answer. -/
def Unfinished (ok : κ → List (Event Stmt κ ρ) → Prop) (thread : Thread Stmt κ ρ)
    (events : List (Event Stmt κ ρ)) : Prop :=
  thread.answer = none → thread.todo.Tells (ok thread.request)
    (fun answer events => ok thread.request (.answered thread.request answer :: events)) events

/-- Every program's events are `ok` for its request, and those of unfinished
programs stay so. -/
structure Telling (ok : κ → List (Event Stmt κ ρ) → Prop) (cfg : Config Stmt σ κ ρ) : Prop where
  own : ∀ i thread, cfg.threads[i]? = some thread → ok thread.request (cfg.world.own i)
  unstarted : ∀ i, cfg.threads.length ≤ i → cfg.world.own i = []
  unfinished : ∀ i thread, cfg.threads[i]? = some thread → Unfinished ok thread (cfg.world.own i)

theorem telling_initial (s : σ) : Telling ok (initial s : Config Stmt σ κ ρ) where
  own i thread hthread := by simp [initial] at hthread
  unstarted _ _ := rfl
  unfinished i thread hthread := by simp [initial] at hthread

variable {cfg : Config Stmt σ κ ρ} {i : Nat}

/-- A step of program `i` that replaces its thread. -/
theorem telling_set (htelling : Telling ok cfg) {event : Event Stmt κ ρ} {s : σ}
    {thread : Thread Stmt κ ρ} (hi : i < cfg.threads.length)
    (hok : ok thread.request (event :: cfg.world.own i))
    (hunfinished : Unfinished ok thread (event :: cfg.world.own i)) :
    Telling ok ⟨cfg.world.record i event s, cfg.threads.set i thread⟩ := by
  refine ⟨?_, ?_, ?_⟩
  · intro j thread' hthread
    rcases eq_or_ne i j with rfl | hij
    · rw [List.getElem?_set_self hi] at hthread
      rw [← Option.some.inj hthread, World.own_record_self]
      exact hok
    · rw [List.getElem?_set_ne hij] at hthread
      rw [World.own_record_of_ne hij]
      exact htelling.own j thread' hthread
  · intro j hj
    rw [List.length_set] at hj
    rw [World.own_record_of_ne (Nat.ne_of_lt (Nat.lt_of_lt_of_le hi hj))]
    exact htelling.unstarted j hj
  · intro j thread' hthread
    rcases eq_or_ne i j with rfl | hij
    · rw [List.getElem?_set_self hi] at hthread
      rw [← Option.some.inj hthread, World.own_record_self]
      exact hunfinished
    · rw [List.getElem?_set_ne hij] at hthread
      rw [World.own_record_of_ne hij]
      exact htelling.unfinished j thread' hthread

/-- A handler that keeps `ok` from the arrival of its request to its answer. -/
def TellsAll (ok : κ → List (Event Stmt κ ρ) → Prop) : Prop :=
  ∀ request, ok request [.began request] ∧ (svc.handler request).Tells (ok request)
    (fun answer events => ok request (.answered request answer :: events)) [.began request]

theorem telling_start (htells : svc.TellsAll ok) (htelling : Telling ok cfg) (request : κ) :
    Telling ok (svc.step cfg (.start request)) := by
  have hnone := htelling.unstarted cfg.threads.length (Nat.le_refl _)
  -- the threads of the new configuration, old or new
  have hthreads : ∀ j thread, (svc.step cfg (.start request)).threads[j]? = some thread →
      (j ≠ cfg.threads.length ∧ cfg.threads[j]? = some thread) ∨
        (j = cfg.threads.length ∧ thread = ⟨request, svc.handler request, none⟩) := by
    intro j thread hthread
    simp only [step] at hthread
    rw [List.getElem?_append] at hthread
    split at hthread
    · rename_i hj
      exact Or.inl ⟨Nat.ne_of_lt hj, hthread⟩
    · rename_i hj
      rw [List.getElem?_singleton] at hthread
      split at hthread
      · exact Or.inr ⟨by omega, (Option.some.inj hthread).symm⟩
      · contradiction
  refine ⟨?_, ?_, ?_⟩
  · intro j thread hthread
    simp only [step]
    rcases hthreads j thread hthread with ⟨hne, hold⟩ | ⟨rfl, rfl⟩
    · rw [World.own_record_of_ne hne.symm]
      exact htelling.own j thread hold
    · rw [World.own_record_self, hnone]
      exact (htells request).1
  · intro j hj
    simp only [step, List.length_append, List.length_singleton] at hj ⊢
    rw [World.own_record_of_ne (by omega)]
    exact htelling.unstarted j (by omega)
  · intro j thread hthread
    simp only [step]
    rcases hthreads j thread hthread with ⟨hne, hold⟩ | ⟨rfl, rfl⟩
    · rw [World.own_record_of_ne hne.symm]
      exact htelling.unfinished j thread hold
    · rw [World.own_record_self, hnone]
      exact fun _ => (htells request).2

theorem telling_step (htells : svc.TellsAll ok) (htelling : Telling ok cfg) (label : Label κ ι) :
    Telling ok (svc.step cfg label) := by
  cases label with
  | start request => exact svc.telling_start htells htelling request
  | run i choice =>
    cases hthread : cfg.threads[i]? with
    | none => simpa only [step, hthread] using htelling
    | some thread =>
      obtain ⟨request, todo, answer⟩ := thread
      have hi : i < cfg.threads.length := (List.getElem?_eq_some_iff.mp hthread).1
      cases answer with
      | some answer => cases todo <;> simpa only [step, hthread] using htelling
      | none =>
        have htodo := htelling.unfinished i _ hthread rfl
        cases todo with
        | done answer =>
          simp only [step, hthread]
          exact telling_set htelling hi htodo (by intro hnone; contradiction)
        | step stmt next =>
          simp only [step, hthread, perform]
          obtain ⟨hok, hnext⟩ := htodo (svc.exec stmt choice cfg.world.state).1
          exact telling_set htelling hi hok fun _ => hnext

/-- What every handler tells of its own events holds in every run. -/
theorem own_run (htells : svc.TellsAll ok) (s : σ) (labels : List (Label κ ι)) :
    ∀ i thread, (svc.run (initial s) labels).threads[i]? = some thread →
      ok thread.request ((svc.run (initial s) labels).world.own i) := by
  have htelling : ∀ cfg, Telling ok cfg → Telling ok (svc.run cfg labels) := by
    induction labels with
    | nil => exact fun _ h => h
    | cons label labels ih => exact fun cfg h => ih _ (svc.telling_step htells h label)
  exact (htelling _ (telling_initial s)).own

variable {R : κ → Event Stmt κ ρ → List (Event Stmt κ ρ) → Prop}

/-- It is enough to justify each event when it comes. -/
theorem tellsAll_justified (htells : svc.TellsAll fun request => Newest (R request)) :
    svc.TellsAll fun request => Justified (R request) := by
  intro request
  obtain ⟨hbegan, hhandler⟩ := htells request
  have hstart : Justified (R request) [.began request] := ⟨hbegan, trivial⟩
  exact ⟨hstart, (justified_of_newest hhandler hstart).post fun _ _ h => h⟩

/-- Only one request begins a program. -/
theorem tellsAll_began : svc.TellsAll fun request =>
    Justified fun event _ => ∀ other, event = .began other → other = request := by
  apply svc.tellsAll_justified
  intro request
  refine ⟨fun other h => (Event.began.inj h).symm, ?_⟩
  apply (Prog.tells_only (C := fun _ => True) (P := fun _ => True) ?_ (Prog.only_true _) trivial).post
  · exact fun _ _ _ other h => by cases h
  · exact fun _ _ _ _ _ => ⟨(fun other h => by cases h), trivial⟩

variable {request : κ}

/-- The request that began program `i` is that of its thread. -/
theorem thread_of_began (s : σ) (labels : List (Label κ ι))
    (h : (i, .began request) ∈ (svc.run (initial s) labels).world.log) :
    ∃ thread, (svc.run (initial s) labels).threads[i]? = some thread ∧
      thread.request = request := by
  have hi := svc.started_run (started_initial s) labels _ h
  have hown := svc.own_run svc.tellsAll_began s labels i _ (List.getElem?_eq_getElem hi)
  obtain ⟨-, -, -, hbegan⟩ := hown.of_mem (World.mem_own.mpr h)
  exact ⟨_, List.getElem?_eq_getElem hi, (hbegan request rfl).symm⟩

/-- A program has events only after its request. -/
theorem began_of_event (s : σ) {first rest : List (Label κ ι)} {event : Event Stmt κ ρ}
    (hearly : (i, event) ∈ (svc.run (initial s) first).world.log)
    (hbegan : (i, .began request) ∈ (svc.run (initial s) (first ++ rest)).world.log) :
    (i, .began request) ∈ (svc.run (initial s) first).world.log := by
  have hi := svc.started_run (started_initial s) first _ hearly
  obtain ⟨hearlier, -⟩ := svc.attributed_run (P := fun _ {_} _ => True)
    (fun request => Prog.only_true _) (attributed_initial s) first i _ (List.getElem?_eq_getElem hi)
  have hlater := svc.log_run (svc.run (initial s) first) rest _ hearlier
  rw [← run_append] at hlater
  obtain ⟨thread, hthread, rfl⟩ := svc.thread_of_began s (first ++ rest) hbegan
  obtain ⟨other, hother, hrequest⟩ := svc.thread_of_began s (first ++ rest) hlater
  rw [Option.some.inj (hthread.symm.trans hother), hrequest]
  exact hearlier

variable {labels : List (Label κ ι)}

/-- A statement of the log was issued by a started request, and its result is that of the state
it was issued in. -/
theorem ran_of_mem (s : σ) {β : Type} {stmt : Stmt β} {result : β}
    (h : (i, .ran stmt result) ∈ (svc.run (initial s) labels).world.log) :
    ∃ first choice last request, labels = first ++ .run i choice :: last ∧
      (i, .began request) ∈ (svc.run (initial s) first).world.log ∧
      result = (svc.exec stmt choice (svc.run (initial s) first).world.state).1 ∧
      (svc.run (initial s) (first ++ [.run i choice])).world =
        svc.perform i stmt choice (svc.run (initial s) first).world := by
  rcases svc.exists_step_of_mem (initial s) h with hnone | ⟨first, label, last, hsplit, hlog⟩
  · cases hnone
  · have hattributed := svc.attributed_run (P := fun _ {_} _ => True)
      (fun request => Prog.only_true _) (attributed_initial s) first
    cases label with
    | start request => cases (List.cons.inj hlog).1
    | run j choice =>
      have hrun : svc.run (initial s) (first ++ [.run j choice]) =
          svc.step (svc.run (initial s) first) (.run j choice) := by
        rw [run_append]
        rfl
      simp only [step] at hlog hrun
      split at hlog
      · rename_i request _ stmt' next hthread
        cases (List.cons.inj hlog).1
        refine ⟨first, choice, last, request, hsplit, (hattributed _ _ hthread).1, rfl, ?_⟩
        rw [hrun, hthread]
      · cases (List.cons.inj hlog).1
      · exact absurd hlog (List.cons_ne_self _ _).symm

/-- What every handler tells of its own events, told of a request that has begun. -/
theorem own_of_began (htells : svc.TellsAll ok) (s : σ) (labels : List (Label κ ι))
    (h : (i, .began request) ∈ (svc.run (initial s) labels).world.log) :
    ok request ((svc.run (initial s) labels).world.own i) := by
  obtain ⟨thread, hthread, rfl⟩ := svc.thread_of_began s labels h
  exact svc.own_run htells s labels i thread hthread

/-- What every handler tells of its own events, told of a statement at the time it was issued. -/
theorem own_of_ran (htells : svc.TellsAll ok) (s : σ) {β : Type} {stmt : Stmt β} {result : β}
    (h : (i, .ran stmt result) ∈ (svc.run (initial s) labels).world.log) :
    ∃ first label last request, labels = first ++ label :: last ∧
      (i, .began request) ∈ (svc.run (initial s) first).world.log ∧
      ok request (.ran stmt result :: (svc.run (initial s) first).world.own i) := by
  obtain ⟨first, choice, last, request, hsplit, hbegan, hresult, hworld⟩ := svc.ran_of_mem s h
  refine ⟨first, _, last, request, hsplit, hbegan, ?_⟩
  have hlater : (i, .began request) ∈
      (svc.run (initial s) (first ++ [.run i choice])).world.log := by
    rw [hworld]
    exact List.mem_cons_of_mem _ hbegan
  have hok := svc.own_of_began htells s _ hlater
  rwa [hworld, perform, World.own_record_self, ← hresult] at hok

/-- What holds of the log of a run: every program was begun by one request, which justifies its
events. -/
structure Attested (R : κ → Event Stmt κ ρ → List (Event Stmt κ ρ) → Prop) (w : World Stmt σ κ ρ) :
    Prop where
  begun : ∀ i event, (i, event) ∈ w.log → ∃ request, (i, .began request) ∈ w.log
  unique : ∀ i first second, (i, .began first) ∈ w.log → (i, .began second) ∈ w.log →
    first = second
  told : ∀ i request, (i, .began request) ∈ w.log → Justified (R request) (w.own i)

theorem attested (htells : svc.TellsAll fun request => Justified (R request)) (s : σ)
    (labels : List (Label κ ι)) : Attested R (svc.run (initial s) labels).world where
  begun i event hmem := by
    have hi := svc.started_run (started_initial s) labels _ hmem
    exact ⟨_, (svc.attributed_run (P := fun _ {_} _ => True) (fun _ => Prog.only_true _)
      (attributed_initial s) labels i _ (List.getElem?_eq_getElem hi)).1⟩
  unique i first second hfirst hsecond := by
    obtain ⟨thread, hthread, rfl⟩ := svc.thread_of_began s labels hfirst
    obtain ⟨other, hother, rfl⟩ := svc.thread_of_began s labels hsecond
    rw [Option.some.inj (hthread.symm.trans hother)]
  told i request hbegan := svc.own_of_began htells s labels hbegan

/-- Nothing follows the answer of a request. -/
theorem tellsAll_open : svc.TellsAll fun _ =>
    Justified fun _ earlier => ∀ request answer, .answered request answer ∉ earlier := by
  apply svc.tellsAll_justified
  intro request
  have hstart : ∀ other answer,
      (.answered other answer : Event Stmt κ ρ) ∉ [.began request] := by simp
  refine ⟨fun _ _ => List.not_mem_nil, ?_⟩
  apply (Prog.tells_only (C := fun _ => True)
    (P := fun events => ∀ other answer, .answered other answer ∉ events) ?_ (Prog.only_true _)
    hstart).post
  · exact fun _ _ h => h
  · exact fun stmt result events _ h => ⟨h, by simpa using h⟩

/-- An answer is the last event of its request, justified. -/
theorem told_of_answered (htells : svc.TellsAll fun request => Justified (R request)) (s : σ)
    (labels : List (Label κ ι)) {answer : ρ}
    (hanswered : Answered (svc.run (initial s) labels) i request answer) :
    ∃ earlier, (svc.run (initial s) labels).world.own i = .answered request answer :: earlier ∧
      R request (.answered request answer) earlier ∧
      ∀ event ∈ earlier, (i, event) ∈ (svc.run (initial s) labels).world.log := by
  have hlog := svc.traced_run (traced_initial s) labels i request _ hanswered
  obtain ⟨todo, hthread⟩ := hanswered
  have hown := svc.own_run htells s labels i _ hthread
  have hopen := svc.own_run svc.tellsAll_open s labels i _ hthread
  obtain ⟨later, earlier, hevents, htold⟩ := hown.of_mem (World.mem_own.mpr hlog)
  rw [hevents] at hopen
  cases later with
  | cons newest later => exact absurd (by simp) (hopen.1 request answer)
  | nil =>
    refine ⟨earlier, hevents, htold, fun event hevent => World.mem_own.mp ?_⟩
    rw [hevents]
    exact List.mem_cons_of_mem _ hevent

/-- The step at which a request issued a statement, justified. -/
theorem told_of_ran (htells : svc.TellsAll fun request => Justified (R request)) (s : σ) {β : Type}
    {stmt : Stmt β} {result : β}
    (hbegan : (i, .began request) ∈ (svc.run (initial s) labels).world.log)
    (h : (i, .ran stmt result) ∈ (svc.run (initial s) labels).world.log) :
    ∃ first choice last, labels = first ++ .run i choice :: last ∧
      result = (svc.exec stmt choice (svc.run (initial s) first).world.state).1 ∧
      R request (.ran stmt result) ((svc.run (initial s) first).world.own i) ∧
      (svc.run (initial s) (first ++ [.run i choice])).world =
        svc.perform i stmt choice (svc.run (initial s) first).world := by
  obtain ⟨first, choice, last, other, rfl, hother, hresult, hworld⟩ := svc.ran_of_mem s h
  refine ⟨first, choice, last, rfl, hresult, ?_, hworld⟩
  have hearly := svc.began_of_event s hother hbegan
  have hlater : (i, .began request) ∈
      (svc.run (initial s) (first ++ [.run i choice])).world.log := by
    rw [hworld]
    exact List.mem_cons_of_mem _ hearly
  have hown := (svc.attested htells s _).told i request hlater
  rw [hworld, perform, World.own_record_self, ← hresult] at hown
  exact hown.1

/-- A step of a run: it issues no statement, or one that its request justifies. -/
inductive Advances (svc : Service Stmt σ ι κ ρ)
    (R : κ → Event Stmt κ ρ → List (Event Stmt κ ρ) → Prop) (w w' : World Stmt σ κ ρ) : Prop where
  | quiet (hstate : w'.state = w.state)
      (hnot : ∀ {β : Type} (i : Nat) (stmt : Stmt β) (result : β),
        w'.log ≠ (i, .ran stmt result) :: w.log)
  | ran {β : Type} (i : Nat) (request : κ) (stmt : Stmt β) (choice : ι)
      (hbegan : (i, .began request) ∈ w.log)
      (hunique : ∀ other, (i, .began other) ∈ w.log → other = request)
      (htold : R request (.ran stmt (svc.exec stmt choice w.state).1) (w.own i))
      (hworld : w' = svc.perform i stmt choice w)

theorem advances (htells : svc.TellsAll fun request => Justified (R request)) (s : σ)
    (labels : List (Label κ ι)) (label : Label κ ι) :
    Advances svc R (svc.run (initial s) labels).world
      (svc.run (initial s) (labels ++ [label])).world := by
  have hstep := svc.stepOf (P := fun _ {_} _ => True)
    (svc.attributed_run (fun _ => Prog.only_true _) (attributed_initial s) labels) label
  have hrun : svc.step (svc.run (initial s) labels) label =
      svc.run (initial s) (labels ++ [label]) := by
    rw [run_append]
    rfl
  rw [hrun] at hstep
  generalize hworld : (svc.run (initial s) (labels ++ [label])).world = w' at hstep ⊢
  cases hstep with
  | void => exact .quiet rfl fun i stmt result hlog => absurd hlog.symm (List.cons_ne_self _ _)
  | began j request | answered j request answer hbegan =>
    refine .quiet rfl fun i stmt result hlog => ?_
    cases (Prod.mk.inj (List.cons.inj hlog).1).2
  | issued j request stmt choice hbegan hmay =>
    refine .ran j request stmt choice hbegan ?_ ?_ rfl
    · exact fun other hother => (svc.attested htells s labels).unique j other request hother hbegan
    · have hlater : (j, .began request) ∈ (svc.run (initial s) (labels ++ [label])).world.log := by
        rw [hworld]
        exact List.mem_cons_of_mem _ hbegan
      have hown := (svc.attested htells s _).told j request hlater
      rw [hworld, perform, World.own_record_self] at hown
      exact hown.1

end Service

end IntelliPilot.Statement
