import Mathlib.Logic.Function.Basic
import Mathlib.Logic.Relation

/-! # Ancestry

Keys with at most one parent each. A new parent closes a cycle if and only if
it descends from its child already, and a region that no parent leads out of
can be judged on its own.
-/

namespace IntelliPilot

open Relation

variable {κ : Type}

/-- `above` is the parent of `k`. -/
def Climbs (parent : κ → Option κ) (k above : κ) : Prop := parent k = some above

/-- Following parents from a key never returns to it. -/
def Acyclic (parent : κ → Option κ) : Prop := ∀ k, ¬ TransGen (Climbs parent) k k

/-- The `n`-th ancestor of a key. -/
def climb (parent : κ → Option κ) : Nat → κ → Option κ
  | 0, k => some k
  | n + 1, k => (parent k).bind (climb parent n)

/-- A relation with fewer links has no more cycles. -/
theorem Acyclic.mono {parent parent' : κ → Option κ} (h : Acyclic parent)
    (hsub : ∀ k above, parent' k = some above → parent k = some above) : Acyclic parent' :=
  fun k hcycle => h k (TransGen.mono hsub k k hcycle)

/-! ## Another parent for one key -/

section Update

variable [DecidableEq κ] {parent : κ → Option κ} {k : κ} {above : Option κ}

theorem climbs_update {a b : κ} (h : Climbs (Function.update parent k above) a b) :
    (a = k ∧ above = some b) ∨ (a ≠ k ∧ Climbs parent a b) := by
  by_cases ha : a = k
  · subst ha
    rw [Climbs, Function.update_self] at h
    exact Or.inl ⟨rfl, h⟩
  · rw [Climbs, Function.update_of_ne ha] at h
    exact Or.inr ⟨ha, h⟩

/-- The new ancestors of a key are old ones, or the key has always led to `k`. -/
theorem reaches_of_update {a b : κ}
    (h : ReflTransGen (Climbs (Function.update parent k above)) a b) :
    ReflTransGen (Climbs parent) a b ∨ ReflTransGen (Climbs parent) a k := by
  induction h with
  | refl => exact Or.inl ReflTransGen.refl
  | tail _ hstep ih =>
    rcases ih with hold | hk
    · rcases climbs_update hstep with ⟨rfl, _⟩ | ⟨_, hstep⟩
      · exact Or.inr hold
      · exact Or.inl (hold.tail hstep)
    · exact Or.inr hk

/-- A path with the new link is an old one, or splits at the last use of the link. -/
theorem transGen_of_update {a b : κ}
    (h : TransGen (Climbs (Function.update parent k above)) a b) :
    TransGen (Climbs parent) a b ∨ ∃ p, above = some p ∧ ReflTransGen (Climbs parent) a k ∧
      ReflTransGen (Climbs (Function.update parent k above)) p b := by
  induction h with
  | single hstep =>
    rcases climbs_update hstep with ⟨rfl, hp⟩ | ⟨_, hstep⟩
    · exact Or.inr ⟨_, hp, ReflTransGen.refl, ReflTransGen.refl⟩
    · exact Or.inl (TransGen.single hstep)
  | tail _ hstep ih =>
    rcases ih with hold | ⟨p, hp, hak, hpc⟩
    · rcases climbs_update hstep with ⟨rfl, hp⟩ | ⟨_, hstep⟩
      · exact Or.inr ⟨_, hp, hold.to_reflTransGen, ReflTransGen.refl⟩
      · exact Or.inl (hold.tail hstep)
    · exact Or.inr ⟨p, hp, hak, hpc.tail hstep⟩

/-- A path to `k` does not need the link that leaves `k`. -/
theorem reaches_update {a : κ} (h : ReflTransGen (Climbs parent) a k) :
    ReflTransGen (Climbs (Function.update parent k above)) a k := by
  induction h using ReflTransGen.head_induction_on with
  | refl => exact ReflTransGen.refl
  | @head a c hstep _ ih =>
    by_cases ha : a = k
    · rw [ha]
    · apply ReflTransGen.head _ ih
      rw [Climbs, Function.update_of_ne ha]
      exact hstep

/-- A new parent is safe if and only if it does not descend from its child. -/
theorem acyclic_update_iff (h : Acyclic parent) : Acyclic (Function.update parent k above) ↔
    ∀ p, above = some p → ¬ ReflTransGen (Climbs parent) p k := by
  constructor
  · intro hacyclic p hp hpk
    apply hacyclic k
    apply TransGen.head' _ (reaches_update hpk)
    rw [Climbs, Function.update_self, hp]
  · intro hnot a hcycle
    rcases transGen_of_update hcycle with hold | ⟨p, hp, hak, hpa⟩
    · exact h a hold
    · rcases reaches_of_update hpa with hpa | hpk
      · exact hnot p hp (hpa.trans hak)
      · exact hnot p hp hpk

/-- A key without children can hang below any other. -/
theorem Acyclic.hang (h : Acyclic parent) (hleaf : ∀ a, parent a ≠ some k)
    (hne : above ≠ some k) : Acyclic (Function.update parent k above) := by
  rw [acyclic_update_iff h]
  intro p hp hpk
  rcases hpk.cases_tail with heq | ⟨a, _, hstep⟩
  · exact hne (heq ▸ hp)
  · exact hleaf a hstep

end Update

/-! ## Closed regions -/

/-- Paths that start in a region which no link leaves stay in it. -/
theorem transGen_within (inside : κ → Prop) {parent parent' : κ → Option κ}
    (hlinks : ∀ k above, inside k → parent' k = some above → parent k = some above ∧ inside above)
    {k above : κ} (hk : inside k) (h : TransGen (Climbs parent') k above) :
    TransGen (Climbs parent) k above ∧ inside above := by
  induction h with
  | single hstep =>
    obtain ⟨hlink, hin⟩ := hlinks _ _ hk hstep
    exact ⟨TransGen.single hlink, hin⟩
  | tail _ hstep ih =>
    obtain ⟨hlink, hin⟩ := hlinks _ _ ih.2 hstep
    exact ⟨ih.1.tail hlink, hin⟩

/-- Where `parent` is `new` on a region, `old` outside, and no link crosses
between the two, only `new` can close a cycle. -/
theorem acyclic_overlay_iff (inside : κ → Prop) {old new parent : κ → Option κ}
    (hold : Acyclic old) (hin : ∀ k, inside k → parent k = new k)
    (hout : ∀ k, ¬ inside k → parent k = old k)
    (hnew : ∀ k above, new k = some above → inside k ∧ inside above)
    (hclosed : ∀ k above, ¬ inside k → old k = some above → ¬ inside above) :
    Acyclic parent ↔ Acyclic new := by
  constructor
  · intro h
    apply h.mono
    intro k above hlink
    rw [hin k (hnew k above hlink).1]
    exact hlink
  · intro h k hcycle
    by_cases hk : inside k
    · apply h k
      apply (transGen_within inside _ hk hcycle).1
      intro k above hk hlink
      rw [hin k hk] at hlink
      exact ⟨hlink, (hnew k above hlink).2⟩
    · apply hold k
      apply (transGen_within (fun k => ¬ inside k) _ hk hcycle).1
      intro k above hk hlink
      rw [hout k hk] at hlink
      exact ⟨hlink, hclosed k above hk hlink⟩

end IntelliPilot
