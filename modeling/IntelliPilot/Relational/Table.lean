import IntelliPilot.Relational.Rows

/-! # Tables with a primary key

A table whose type keeps the key of its rows unique. Through `find?` it is a
partial function from keys to rows, and every change of a table is a pointwise
change of that function.
-/

namespace IntelliPilot

open Rows

/-- Rows in insertion order, no two of them with the same key. -/
structure Table {κ α : Type} (key : α → κ) where
  rows : List α
  nodup : (rows.map key).Nodup

namespace Table

variable {κ α : Type} [DecidableEq κ] {key : α → κ}

def empty : Table key := ⟨[], List.nodup_nil⟩

/-- `SELECT … WHERE key = k`. -/
def find? (t : Table key) (k : κ) : Option α := t.rows.find? fun row => key row == k

/-- `INSERT`, which fails where the key is taken. -/
def insert? (t : Table key) (row : α) : Option (Table key) :=
  if h : key row ∈ t.rows.map key then none
  else some ⟨t.rows ++ [row], by
    rw [List.map_append, List.map_singleton]
    exact List.Nodup.append t.nodup (List.nodup_singleton _) (by simpa using h)⟩

/-- `UPDATE … SET f WHERE p`, for an `f` that leaves the key alone. -/
def modify (t : Table key) (p : α → Bool) (f : α → α) (hf : ∀ row, key (f row) = key row) :
    Table key where
  rows := updateWhere p f t.rows
  nodup := by
    rw [map_updateWhere hf]
    exact t.nodup

/-- `DELETE … WHERE p`. -/
def erase (t : Table key) (p : α → Bool) : Table key where
  rows := deleteWhere p t.rows
  nodup := t.nodup.sublist (List.filter_sublist.map key)

variable {row : α} {t : Table key}

theorem key_of_find? {k : κ} (h : t.find? k = some row) : key row = k := by
  simpa using List.find?_some (show t.rows.find? (fun row => key row == k) = some row from h)

theorem mem_of_find? {k : κ} (h : t.find? k = some row) : row ∈ t.rows :=
  List.mem_of_find?_eq_some h

/-- A row is in the table if and only if its key leads to it. -/
theorem find?_eq_some_iff {k : κ} : t.find? k = some row ↔ row ∈ t.rows ∧ key row = k := by
  constructor
  · exact fun h => ⟨mem_of_find? h, key_of_find? h⟩
  · rintro ⟨hrow, rfl⟩
    have hsome : (t.find? (key row)).isSome := by
      rw [find?, List.find?_isSome]
      exact ⟨row, hrow, beq_self_eq_true _⟩
    obtain ⟨found, hfound⟩ := Option.isSome_iff_exists.mp hsome
    rw [hfound, eq_of_nodup_map t.nodup (mem_of_find? hfound) hrow (key_of_find? hfound)]

theorem find?_key (h : row ∈ t.rows) : t.find? (key row) = some row :=
  find?_eq_some_iff.mpr ⟨h, rfl⟩

theorem find?_eq_none_iff {k : κ} : t.find? k = none ↔ k ∉ t.rows.map key := by
  rw [find?, List.find?_eq_none, List.mem_map]
  simp only [beq_iff_eq]
  constructor
  · rintro h ⟨row, hrow, hkey⟩
    exact h row hrow hkey
  · intro h row hrow hkey
    exact h ⟨row, hrow, hkey⟩

/-- `INSERT` of a row whose key is known to be free. -/
def insert (t : Table key) (row : α) (hfree : t.find? (key row) = none) : Table key where
  rows := t.rows ++ [row]
  nodup := by
    rw [List.map_append, List.map_singleton]
    exact List.Nodup.append t.nodup (List.nodup_singleton _)
      (by simpa using find?_eq_none_iff.mp hfree)

theorem find?_insert (hfree : t.find? (key row) = none) (k : κ) :
    (t.insert row hfree).find? k = if k = key row then some row else t.find? k := by
  by_cases hk : k = key row
  · subst hk
    rw [if_pos rfl, find?_eq_some_iff]
    exact ⟨List.mem_append_right _ List.mem_cons_self, rfl⟩
  · rw [if_neg hk, find?, insert, List.find?_append, List.find?_singleton, find?]
    rw [if_neg (by simpa using Ne.symm hk), Option.or_none]

@[simp] theorem find?_modify (t : Table key) (p : α → Bool) (f : α → α)
    (hf : ∀ row, key (f row) = key row) (k : κ) :
    (t.modify p f hf).find? k = (t.find? k).map fun row => if p row then f row else row :=
  find?_updateWhere (fun row => by rw [hf]) p t.rows

theorem find?_erase (t : Table key) (p : α → Bool) (k : κ) :
    (t.erase p).find? k = (t.find? k).filter fun row => !p row := by
  ext row
  rw [find?_eq_some_iff, Option.filter_eq_some_iff, find?_eq_some_iff]
  simp only [erase, mem_deleteWhere, Bool.not_eq_true']
  constructor
  · rintro ⟨⟨hrow, hp⟩, hkey⟩
    exact ⟨⟨hrow, hkey⟩, hp⟩
  · rintro ⟨⟨hrow, hkey⟩, hp⟩
    exact ⟨⟨hrow, hp⟩, hkey⟩

variable {t' : Table key}

theorem insert?_rows (h : t.insert? row = some t') : t'.rows = t.rows ++ [row] := by
  unfold insert? at h
  split at h
  · contradiction
  · rw [← Option.some.inj h]

/-- A free key can be inserted. -/
theorem exists_insert? (h : t.find? (key row) = none) :
    ∃ t', t.insert? row = some t' := ⟨_, dif_neg (find?_eq_none_iff.mp h)⟩

/-- An insert takes a key that was free. -/
theorem insert?_fresh (h : t.insert? row = some t') : t.find? (key row) = none := by
  unfold insert? at h
  split at h
  · contradiction
  · rename_i hfree
    exact find?_eq_none_iff.mpr hfree

theorem find?_insert? (h : t.insert? row = some t') (k : κ) :
    t'.find? k = if k = key row then some row else t.find? k := by
  by_cases hk : k = key row
  · subst hk
    rw [if_pos rfl, find?_eq_some_iff, insert?_rows h]
    exact ⟨List.mem_append_right _ List.mem_cons_self, rfl⟩
  · rw [if_neg hk, find?, insert?_rows h, List.find?_append, List.find?_singleton, find?]
    rw [if_neg (by simpa using Ne.symm hk), Option.or_none]

omit [DecidableEq κ] in
theorem mem_modify {p : α → Bool} {f : α → α} {hf : ∀ row, key (f row) = key row} :
    row ∈ (t.modify p f hf).rows ↔ ∃ old ∈ t.rows, (if p old then f old else old) = row :=
  mem_updateWhere

/-- `INSERT … ON CONFLICT (key) DO UPDATE SET f`. -/
def upsert (t : Table key) (row : α) (f : α → α) (hf : ∀ row, key (f row) = key row) : Table key :=
  if hfree : t.find? (key row) = none then t.insert row hfree
  else t.modify (fun old => key old == key row) f hf

theorem find?_upsert (t : Table key) (row : α) (f : α → α) (hf : ∀ row, key (f row) = key row)
    (k : κ) : (t.upsert row f hf).find? k =
      if k = key row then some ((t.find? k).elim row f) else t.find? k := by
  unfold upsert
  by_cases hfree : t.find? (key row) = none
  · rw [dif_pos hfree, find?_insert]
    split
    · rename_i heq
      rw [heq, hfree]
      rfl
    · rfl
  · rw [dif_neg hfree, find?_modify]
    obtain ⟨old, hold⟩ := Option.ne_none_iff_exists'.mp hfree
    split
    · rename_i heq
      rw [heq, hold, Option.map_some, Option.elim_some, if_pos (by simpa using key_of_find? hold)]
    · rename_i hne
      cases hfind : t.find? k with
      | none => rfl
      | some other =>
        rw [Option.map_some, if_neg]
        rw [beq_iff_eq, key_of_find? hfind]
        exact hne

/-- A key above all that are taken, for tables that number their rows. -/
def fresh {key : α → Nat} (t : Table key) : Nat := (t.rows.map key).foldr max 0 + 1

theorem find?_fresh {key : α → Nat} (t : Table key) : t.find? t.fresh = none := by
  have hbound : ∀ keys : List Nat, ∀ k ∈ keys, k < keys.foldr max 0 + 1 := by
    intro keys
    induction keys with
    | nil => simp
    | cons head tail ih =>
      intro k hk
      rw [List.foldr_cons]
      rcases List.mem_cons.mp hk with rfl | htail
      · omega
      · have := ih k htail
        omega
  rw [find?_eq_none_iff]
  intro hmem
  exact absurd (hbound _ _ hmem) (Nat.lt_irrefl _)

end Table

end IntelliPilot
