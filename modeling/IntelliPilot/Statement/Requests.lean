import Mathlib.Data.List.Induction

/-! # Requests one after the other

A server whose handlers are atomic: a request takes the state to an answer and
the next state. A condition on single requests and an invariant of the states
are connected once, here; what a server guarantees over whole runs is then read
off its requests.
-/

namespace IntelliPilot.Statement

/-- A server that runs each request as one step. -/
structure Server (σ κ ρ : Type) where
  handle : κ → σ → ρ × σ

namespace Server

variable {σ κ ρ : Type} (srv : Server σ κ ρ)

def answer (s : σ) (request : κ) : ρ := (srv.handle request s).1

def next (s : σ) (request : κ) : σ := (srv.handle request s).2

def run (s : σ) (requests : List κ) : σ := requests.foldl srv.next s

@[simp] theorem run_nil (s : σ) : srv.run s [] = s := rfl

@[simp] theorem run_cons (s : σ) (request : κ) (requests : List κ) :
    srv.run s (request :: requests) = srv.run (srv.next s request) requests := rfl

theorem run_append (s : σ) (first second : List κ) :
    srv.run s (first ++ second) = srv.run (srv.run s first) second := List.foldl_append

/-- Every request of the run meets `P` in the state it finds. -/
def Each (P : σ → κ → Prop) : σ → List κ → Prop
  | _, [] => True
  | s, request :: requests => P s request ∧ Each P (srv.next s request) requests

/-- `I` holds of every state of the run. -/
def Always (I : σ → Prop) (s : σ) (requests : List κ) : Prop :=
  ∀ first last, requests = first ++ last → I (srv.run s first)

instance decidableEach (P : σ → κ → Prop) [∀ s request, Decidable (P s request)] :
    ∀ s requests, Decidable (srv.Each P s requests)
  | _, [] => instDecidableTrue
  | s, request :: requests =>
      have := decidableEach P (srv.next s request) requests
      inferInstanceAs (Decidable (P s request ∧ srv.Each P (srv.next s request) requests))

variable {srv}

variable {P : σ → κ → Prop} {s : σ} {requests : List κ}

theorem each_iff :
    srv.Each P s requests ↔ ∀ first request last, requests = first ++ request :: last →
      P (srv.run s first) request := by
  induction requests generalizing s with
  | nil => simp [Each]
  | cons head tail ih =>
    constructor
    · rintro ⟨hhead, htail⟩ first request last hsplit
      cases first with
      | nil =>
        obtain ⟨rfl, rfl⟩ := List.cons.inj hsplit
        exact hhead
      | cons head' first =>
        obtain ⟨rfl, htail'⟩ := List.cons.inj hsplit
        exact ih.mp htail first request last htail'
    · intro h
      refine ⟨h [] head tail rfl, ih.mpr ?_⟩
      rintro first request last rfl
      exact h (head :: first) request last rfl

theorem each_append {first second : List κ} :
    srv.Each P s (first ++ second) ↔ srv.Each P s first ∧ srv.Each P (srv.run s first) second := by
  induction first generalizing s with
  | nil => exact ⟨fun h => ⟨trivial, h⟩, fun h => h.2⟩
  | cons request first ih =>
    rw [List.cons_append, Each, ih, Each, run_cons, and_assoc]

variable {I : σ → Prop}

theorem always_nil : srv.Always I s [] ↔ I s := by
  constructor
  · exact fun h => h [] [] rfl
  · rintro h first last hsplit
    rw [(List.append_eq_nil_iff.mp hsplit.symm).1]
    exact h

theorem always_cons {request : κ} :
    srv.Always I s (request :: requests) ↔ I s ∧ srv.Always I (srv.next s request) requests := by
  constructor
  · intro h
    refine ⟨h [] _ rfl, ?_⟩
    rintro first last rfl
    exact h (request :: first) last rfl
  · rintro ⟨hnow, hlater⟩ first last hsplit
    cases first with
    | nil => exact hnow
    | cons head first =>
      obtain ⟨rfl, htail⟩ := List.cons.inj hsplit
      exact hlater first last htail

/-- What every request of the allowed kinds preserves holds in every state of a run. -/
theorem always_of_each (hstep : ∀ s request, I s → P s request → I (srv.next s request)) (hI : I s)
    (heach : srv.Each P s requests) : srv.Always I s requests := by
  induction requests generalizing s with
  | nil => exact always_nil.mpr hI
  | cons request requests ih =>
    exact always_cons.mpr ⟨hI, ih (hstep s request hI heach.1) heach.2⟩

/-- What every request preserves holds in every state of a run. -/
theorem always_of_step (hstep : ∀ s request, I s → I (srv.next s request)) (hI : I s)
    (requests : List κ) : srv.Always I s requests := by
  induction requests generalizing s with
  | nil => exact always_nil.mpr hI
  | cons request requests ih => exact always_cons.mpr ⟨hI, ih (hstep s request hI)⟩

/-- Where a request keeps `I` and is answered within `Q` exactly if it meets
`P`, a run does so exactly if its requests meet `P`. -/
theorem always_and_each_iff {Q : σ → κ → Prop}
    (hstep : ∀ s request, I s → (I (srv.next s request) ∧ Q s request ↔ P s request)) (hI : I s)
    (requests : List κ) :
    srv.Always I s requests ∧ srv.Each Q s requests ↔ srv.Each P s requests := by
  induction requests generalizing s with
  | nil => exact iff_of_true ⟨always_nil.mpr hI, trivial⟩ trivial
  | cons request requests ih =>
    constructor
    · rintro ⟨halways, hQ, hrest⟩
      have hlater := (always_cons.mp halways).2
      have hnext := hlater [] requests rfl
      exact ⟨(hstep s request hI).mp ⟨hnext, hQ⟩, (ih hnext).mp ⟨hlater, hrest⟩⟩
    · rintro ⟨hP, hrest⟩
      obtain ⟨hnext, hQ⟩ := (hstep s request hI).mpr hP
      obtain ⟨hlater, heach⟩ := (ih hnext).mpr hrest
      exact ⟨always_cons.mpr ⟨hI, hlater⟩, hQ, heach⟩

end Server

end IntelliPilot.Statement
