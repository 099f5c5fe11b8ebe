import Mathlib.Data.List.Nodup

/-! # Chains of rows linked to their predecessor

Rows in insertion order, each naming the row before it as its parent, all but
the last one spent. Appending a child of a spent last row keeps the chain, and
only the last row of a chain has no child in it.
-/

namespace IntelliPilot.Rows

variable {α κ : Type} (id : α → κ) (parent : α → Option κ) (spent : α → Bool)

/-- The rows hang below `above` one by one, and every row with a successor is spent. -/
def ParentChain : Option κ → List α → Prop
  | _, [] => True
  | above, row :: rest =>
      parent row = above ∧ (rest ≠ [] → spent row = true) ∧ ParentChain (some (id row)) rest

variable {id parent spent}

variable {above : Option κ} {rows : List α}

theorem parentChain_map {f : α → α} (hid : ∀ row, id (f row) = id row)
    (hparent : ∀ row, parent (f row) = parent row)
    (hspent : ∀ row, spent row = true → spent (f row) = true)
    (hchain : ParentChain id parent spent above rows) :
    ParentChain id parent spent above (rows.map f) := by
  induction rows generalizing above with
  | nil => trivial
  | cons row rest ih =>
    obtain ⟨habove, hrow, hrest⟩ := hchain
    refine ⟨(hparent row).trans habove, ?_, ?_⟩
    · intro hne
      exact hspent row (hrow (by simpa using hne))
    · rw [hid row]
      exact ih hrest

/-- The parent of a row of the chain is a spent row of it, or what it hangs below. -/
theorem ParentChain.parent_mem (hchain : ParentChain id parent spent above rows) {row : α}
    (hrow : row ∈ rows) :
    parent row = above ∨ ∃ prior ∈ rows, spent prior = true ∧ parent row = some (id prior) := by
  induction rows generalizing above with
  | nil => simp at hrow
  | cons first rest ih =>
    obtain ⟨habove, hfirst, hrest⟩ := hchain
    rcases List.mem_cons.mp hrow with rfl | hmem
    · exact Or.inl habove
    · right
      rcases ih hrest hmem with hparent | ⟨prior, hprior, hspent, hparent⟩
      · exact ⟨first, List.mem_cons_self, hfirst (List.ne_nil_of_mem hmem), hparent⟩
      · exact ⟨prior, List.mem_cons_of_mem _ hprior, hspent, hparent⟩

/-- A row without a child is the last one, so a spent childless row can be extended. -/
theorem ParentChain.append (hchain : ParentChain id parent spent above rows) {last new : α}
    (hlast : last ∈ rows) (hspent : spent last = true)
    (hchildless : ∀ row ∈ rows, parent row ≠ some (id last)) (hnew : parent new = some (id last)) :
    ParentChain id parent spent above (rows ++ [new]) := by
  induction rows generalizing above with
  | nil => simp at hlast
  | cons first rest ih =>
    obtain ⟨habove, hfirst, hrest⟩ := hchain
    cases rest with
    | nil =>
      obtain rfl := List.mem_singleton.mp hlast
      exact ⟨habove, fun _ => hspent, hnew, by simp, trivial⟩
    | cons second others =>
      have hne : last ≠ first := by
        rintro rfl
        exact hchildless second (by simp) hrest.1
      have hmem : last ∈ second :: others := by
        rcases List.mem_cons.mp hlast with h | h
        · exact absurd h hne
        · exact h
      refine ⟨habove, fun _ => hfirst (by simp), ?_⟩
      exact ih hrest hmem fun row hrow => hchildless row (List.mem_cons_of_mem _ hrow)

/-- The first row of a chain. -/
theorem parentChain_singleton {row : α} (h : parent row = above) :
    ParentChain id parent spent above [row] := ⟨h, by simp, trivial⟩

theorem ParentChain.unspent_le_one (hchain : ParentChain id parent spent above rows) :
    (rows.filter fun row => !spent row).length ≤ 1 := by
  induction rows generalizing above with
  | nil => simp
  | cons row rest ih =>
    obtain ⟨_, hrow, hrest⟩ := hchain
    cases rest with
    | nil => exact List.length_filter_le _ _
    | cons second others =>
      rw [List.filter_cons_of_neg (by simp [hrow (by simp)])]
      exact ih hrest

/-- Two rows of one chain with the same parent are the same row. -/
theorem ParentChain.parent_inj (hchain : ParentChain id parent spent above rows)
    (hnodup : (rows.map id).Nodup) (habove : ∀ row ∈ rows, above ≠ some (id row)) {row row' : α}
    (hrow : row ∈ rows) (hrow' : row' ∈ rows) (heq : parent row = parent row') : row = row' := by
  induction rows generalizing above with
  | nil => simp at hrow
  | cons first rest ih =>
    obtain ⟨hparent, hfirst, hrest⟩ := hchain
    rw [List.map_cons, List.nodup_cons] at hnodup
    have hbelow : ∀ row ∈ rest, parent row ≠ above := by
      intro row hmem hsame
      rcases hrest.parent_mem hmem with h | ⟨prior, hprior, _, h⟩
      · exact habove first List.mem_cons_self (hsame.symm.trans h)
      · exact habove prior (List.mem_cons_of_mem _ hprior) (hsame.symm.trans h)
    rcases List.mem_cons.mp hrow with rfl | hmem <;>
      rcases List.mem_cons.mp hrow' with rfl | hmem'
    · rfl
    · exact absurd (heq.symm.trans hparent) (hbelow row' hmem')
    · exact absurd (heq.trans hparent) (hbelow row hmem)
    · refine ih hrest hnodup.2 (fun row hmem h => ?_) hmem hmem'
      exact hnodup.1 (List.mem_map.mpr ⟨row, hmem, (Option.some.inj h).symm⟩)

end IntelliPilot.Rows
