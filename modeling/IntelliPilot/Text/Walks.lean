import Mathlib.Data.List.Basic

/-! # Walks along a tree of names

A path is read as steps: down to a name, up to the parent, or none at all. A
walk keeps the names between its start and where it is, innermost first, and
fails where it would leave its start upwards.
-/

namespace IntelliPilot.Text

inductive Step (α : Type) where
  | stay
  | up
  | down (name : α)
  deriving DecidableEq, Repr

namespace Step

variable {α : Type}

def isUp : Step α → Bool
  | .up => true
  | _ => false

def isDown : Step α → Bool
  | .down _ => true
  | _ => false

/-- Where the steps lead, and that they lead nowhere above the start. -/
def walk : List (Step α) → List α → Option (List α)
  | [], here => some here
  | .stay :: rest, here => walk rest here
  | .up :: _, [] => none
  | .up :: rest, _ :: above => walk rest above
  | .down name :: rest, here => walk rest (name :: here)

/-- The first `k` steps lead up more often than down. -/
def Climbs (steps : List (Step α)) (k : Nat) : Prop :=
  (steps.take k).countP isDown < (steps.take k).countP isUp

/-- A walk fails exactly where some of its first steps lead out of its start. -/
theorem walk_eq_none_iff {steps : List (Step α)} {here : List α} :
    walk steps here = none ↔
      ∃ k, (steps.take k).countP isDown + here.length < (steps.take k).countP isUp := by
  induction steps generalizing here with
  | nil => simp [walk]
  | cons step rest ih =>
    have hsplit : (∃ k, ((step :: rest).take k).countP isDown + here.length <
          ((step :: rest).take k).countP isUp) ↔
        ∃ k, ((step :: rest).take (k + 1)).countP isDown + here.length <
          ((step :: rest).take (k + 1)).countP isUp := by
      constructor
      · rintro ⟨k, hk⟩
        cases k with
        | zero => simp at hk
        | succ k => exact ⟨k, hk⟩
      · exact fun ⟨k, hk⟩ => ⟨k + 1, hk⟩
    rw [hsplit]
    simp only [List.take_succ_cons, List.countP_cons]
    cases step with
    | stay => simpa [walk, isUp, isDown] using ih
    | down name =>
      simp only [walk, ih, isUp, isDown, List.length_cons]
      apply exists_congr
      intro k
      simp only [if_true, Bool.false_eq_true, if_false]
      omega
    | up =>
      cases here with
      | nil =>
        simp only [walk, true_iff]
        exact ⟨0, by simp [isUp, isDown]⟩
      | cons name above =>
        simp only [walk, ih, isUp, isDown, List.length_cons]
        apply exists_congr
        intro k
        simp only [if_true, Bool.false_eq_true, if_false]
        omega

theorem walk_nil_eq_none_iff {steps : List (Step α)} :
    walk steps [] = none ↔ ∃ k, Climbs steps k := walk_eq_none_iff

end Step

end IntelliPilot.Text
