import IntelliPilot.Relational.Table

/-! # Row locks under READ COMMITTED

A table with the row locks and the uncommitted writes of its open
transactions. A statement sees the committed rows and its own transaction's
writes. A statement that has to lock a row cannot run while another
transaction holds it. Committing makes the writes visible and releases the
locks; rolling back only releases them.

What a transaction has locked stays as it is until that transaction ends.
-/

namespace IntelliPilot

/-- A rewrite of the row of one key. -/
structure Write {κ α : Type} (key : α → κ) where
  row : κ
  set : α → α
  keeps : ∀ a, key (set a) = key a

/-- A transaction is named by a number. -/
structure LockedTable {κ α : Type} (key : α → κ) where
  rows : Table key
  locks : List (κ × Nat)
  writes : List (Nat × Write key)
  exclusive : ∀ k tx tx', (k, tx) ∈ locks → (k, tx') ∈ locks → tx = tx'
  locked : ∀ tx write, (tx, write) ∈ writes → (write.row, tx) ∈ locks

variable {κ α : Type} [DecidableEq κ] {key : α → κ}

namespace Table

/-- `UPDATE … WHERE key = write.row`. -/
def apply (t : Table key) (write : Write key) : Table key :=
  t.modify (fun row => key row == write.row) write.set write.keeps

theorem find?_apply (t : Table key) (write : Write key) (k : κ) :
    (t.apply write).find? k =
      if k = write.row then (t.find? k).map write.set else t.find? k := by
  rw [apply, find?_modify]
  cases hfind : t.find? k with
  | none => split <;> rfl
  | some row =>
    rw [Option.map_some, key_of_find? hfind]
    by_cases hk : k = write.row
    · rw [if_pos hk, if_pos (beq_iff_eq.mpr hk), Option.map_some]
    · rw [if_neg hk, if_neg fun h => hk (beq_iff_eq.mp h)]

/-- The writes of a transaction, in order. -/
def applyAll (t : Table key) (writes : List (Write key)) : Table key := writes.foldl apply t

variable {writes : List (Write key)}

theorem find?_applyAll_of_unwritten {k : κ} (h : ∀ write ∈ writes, write.row ≠ k) (t : Table key) :
    (t.applyAll writes).find? k = t.find? k := by
  induction writes generalizing t with
  | nil => rfl
  | cons write writes ih =>
    obtain ⟨hwrite, hrest⟩ := List.forall_mem_cons.mp h
    rw [applyAll, List.foldl_cons]
    refine (ih hrest (t.apply write)).trans ?_
    rw [find?_apply, if_neg hwrite.symm]

/-- A property of a row that every write keeps. -/
theorem applyAll_keeps {p : α → Prop} {k : κ}
    (h : ∀ write ∈ writes, write.row = k → ∀ row, p row → p (write.set row)) {t : Table key}
    (hrow : ∃ row, t.find? k = some row ∧ p row) :
    ∃ row, (t.applyAll writes).find? k = some row ∧ p row := by
  induction writes generalizing t with
  | nil => exact hrow
  | cons write writes ih =>
    obtain ⟨hwrite, hrest⟩ := List.forall_mem_cons.mp h
    apply ih hrest
    obtain ⟨row, hfind, hp⟩ := hrow
    rw [find?_apply, hfind]
    by_cases hk : k = write.row
    · exact ⟨write.set row, by rw [if_pos hk]; rfl, hwrite hk.symm row hp⟩
    · exact ⟨row, by rw [if_neg hk], hp⟩

end Table

namespace LockedTable

variable (t : LockedTable key)

/-- No transaction is open. -/
def ofTable (rows : Table key) : LockedTable key :=
  ⟨rows, [], [], fun _ _ _ h _ => absurd h (List.not_mem_nil), fun _ _ h =>
    absurd h (List.not_mem_nil)⟩

/-- Whether the transaction has to wait for the row. -/
def waits (tx : Nat) (k : κ) : Bool := t.locks.any fun lock => lock.1 == k && lock.2 != tx

/-- Whether any transaction holds the row. -/
def held (k : κ) : Bool := t.locks.any fun lock => lock.1 == k

def writesOf (tx : Nat) : List (Write key) :=
  (t.writes.filter fun write => write.1 == tx).map (·.2)

/-- The rows as the transaction sees them. -/
def view (tx : Nat) : Table key := t.rows.applyAll (t.writesOf tx)

variable {tx : Nat} {k : κ}

theorem not_waits_iff : t.waits tx k = false ↔ ∀ tx', (k, tx') ∈ t.locks → tx' = tx := by
  simp only [waits, List.any_eq_false, Bool.and_eq_true, beq_iff_eq, bne_iff_ne, not_and, not_not]
  constructor
  · exact fun h tx' hlock => h (k, tx') hlock rfl
  · rintro h ⟨k', tx'⟩ hlock rfl
    exact h tx' hlock

omit [DecidableEq κ] in
theorem mem_writesOf {write : Write key} : write ∈ t.writesOf tx ↔ (tx, write) ∈ t.writes := by
  simp [writesOf]

/-- `SELECT … FOR UPDATE`, unless the transaction has to wait. -/
def lock? (tx : Nat) (k : κ) : Option (LockedTable key) :=
  if h : t.waits tx k = false then
    some
      { t with
        locks := (k, tx) :: t.locks
        exclusive := by
          have hfree := t.not_waits_iff.mp h
          intro k' tx₁ tx₂ h₁ h₂
          simp only [List.mem_cons, Prod.mk.injEq] at h₁ h₂
          rcases h₁ with ⟨rfl, rfl⟩ | h₁
          · rcases h₂ with ⟨_, rfl⟩ | h₂
            · rfl
            · exact (hfree tx₂ h₂).symm
          · rcases h₂ with ⟨rfl, rfl⟩ | h₂
            · exact hfree tx₁ h₁
            · exact t.exclusive k' tx₁ tx₂ h₁ h₂
        locked := fun tx' write hwrite => List.mem_cons_of_mem _ (t.locked tx' write hwrite) }
  else none

/-- `UPDATE` within the transaction, which locks the row. -/
def write? (tx : Nat) (write : Write key) : Option (LockedTable key) :=
  match h : t.lock? tx write.row with
  | none => none
  | some t' => some
      { t' with
        writes := t'.writes ++ [(tx, write)]
        locked := by
          intro tx' write' hwrite
          rcases List.mem_append.mp hwrite with hold | hnew
          · exact t'.locked tx' write' hold
          · obtain ⟨rfl, rfl⟩ := Prod.mk.inj (List.mem_singleton.mp hnew)
            unfold lock? at h
            split at h
            · rw [← Option.some.inj h]
              exact List.mem_cons_self
            · contradiction }

/-- The transaction ends and leaves the given rows. -/
def release (tx : Nat) (rows : Table key) : LockedTable key where
  rows := rows
  locks := t.locks.filter fun lock => lock.2 != tx
  writes := t.writes.filter fun write => write.1 != tx
  exclusive k tx₁ tx₂ h₁ h₂ :=
    t.exclusive k tx₁ tx₂ (List.mem_of_mem_filter h₁) (List.mem_of_mem_filter h₂)
  locked tx' write h := by
    obtain ⟨hwrite, hother⟩ := List.mem_filter.mp h
    exact List.mem_filter.mpr ⟨t.locked tx' write hwrite, hother⟩

def commit (tx : Nat) : LockedTable key := t.release tx (t.view tx)

def rollback (tx : Nat) : LockedTable key := t.release tx t.rows

/-- An `UPDATE` outside of any transaction, unless it has to wait. -/
def update? (write : Write key) : Option (LockedTable key) :=
  if t.held write.row then none else some { t with rows := t.rows.apply write }

/-- An `INSERT` outside of any transaction; it fails where the key is taken. -/
def insert? (row : α) : Option (LockedTable key) :=
  (t.rows.insert? row).map fun rows => { t with rows := rows }

/-! ## What is locked stays as it is -/

/-- The transaction has locked the row and sees it so. -/
def Holds (tx : Nat) (k : κ) (row : α) : Prop :=
  (k, tx) ∈ t.locks ∧ t.rows.find? k = some row

variable {t} {t' : LockedTable key}

theorem lock?_rows (h : t.lock? tx k = some t') :
    t'.rows = t.rows ∧ t'.locks = (k, tx) :: t.locks ∧ t'.writes = t.writes := by
  unfold lock? at h
  split at h
  · rw [← Option.some.inj h]
    exact ⟨rfl, rfl, rfl⟩
  · contradiction

theorem write?_rows {write : Write key} (h : t.write? tx write = some t') : t'.rows = t.rows ∧
      t'.locks = (write.row, tx) :: t.locks ∧ t'.writes = t.writes ++ [(tx, write)] := by
  unfold write? at h
  split at h
  · contradiction
  · rename_i locked hlock
    obtain ⟨hrows, hlocks, hwrites⟩ := lock?_rows hlock
    rw [← Option.some.inj h]
    exact ⟨hrows, hlocks, congrArg (· ++ [(tx, write)]) hwrites⟩

theorem update?_rows {write : Write key} (h : t.update? write = some t') :
    t.held write.row = false ∧ t'.rows = t.rows.apply write ∧ t'.locks = t.locks ∧
      t'.writes = t.writes := by
  unfold update? at h
  split at h
  · contradiction
  · rename_i hfree
    rw [← Option.some.inj h]
    exact ⟨by simpa using hfree, rfl, rfl, rfl⟩

variable {row : α}

theorem insert?_rows (h : t.insert? row = some t') :
    t.rows.insert? row = some t'.rows ∧ t'.locks = t.locks ∧ t'.writes = t.writes := by
  obtain ⟨rows, hrows, rfl⟩ := Option.map_eq_some_iff.mp h
  exact ⟨hrows, rfl, rfl⟩

theorem holds_lock (h : t.lock? tx k = some t') (hrow : t.rows.find? k = some row) :
    t'.Holds tx k row := by
  obtain ⟨hrows, hlocks, _⟩ := lock?_rows h
  exact ⟨by rw [hlocks]; exact List.mem_cons_self, by rw [hrows]; exact hrow⟩

variable {tx' : Nat}

theorem Holds.lock (hholds : t.Holds tx k row) {k' : κ} (h : t.lock? tx' k' = some t') :
    t'.Holds tx k row := by
  obtain ⟨hrows, hlocks, _⟩ := lock?_rows h
  exact ⟨by rw [hlocks]; exact List.mem_cons_of_mem _ hholds.1, by rw [hrows]; exact hholds.2⟩

theorem Holds.write (hholds : t.Holds tx k row) {write : Write key}
    (h : t.write? tx' write = some t') : t'.Holds tx k row := by
  obtain ⟨hrows, hlocks, _⟩ := write?_rows h
  exact ⟨by rw [hlocks]; exact List.mem_cons_of_mem _ hholds.1, by rw [hrows]; exact hholds.2⟩

theorem Holds.update (hholds : t.Holds tx k row) {write : Write key}
    (h : t.update? write = some t') : t'.Holds tx k row := by
  obtain ⟨hfree, hrows, hlocks, _⟩ := update?_rows h
  have hne : k ≠ write.row := by
    rintro rfl
    have hheld : t.held write.row = true :=
      List.any_eq_true.mpr ⟨_, hholds.1, beq_self_eq_true _⟩
    rw [hheld] at hfree
    contradiction
  refine ⟨hlocks ▸ hholds.1, ?_⟩
  rw [hrows, Table.find?_apply, if_neg hne]
  exact hholds.2

theorem Holds.insert (hholds : t.Holds tx k row) {row' : α} (h : t.insert? row' = some t') :
    t'.Holds tx k row := by
  obtain ⟨hinsert, hlocks, _⟩ := insert?_rows h
  refine ⟨hlocks ▸ hholds.1, ?_⟩
  rw [Table.find?_insert? hinsert]
  split
  · rename_i hk
    have hfree := Table.insert?_fresh hinsert
    rw [← hk, hholds.2] at hfree
    contradiction
  · exact hholds.2

omit [DecidableEq κ] in
theorem mem_release_locks {rows : Table key} :
    (k, tx') ∈ (t.release tx rows).locks ↔ (k, tx') ∈ t.locks ∧ tx' ≠ tx := by
  simp [release]

omit [DecidableEq κ] in
theorem mem_release_writes {write : Write key} {rows : Table key} :
    (tx', write) ∈ (t.release tx rows).writes ↔ (tx', write) ∈ t.writes ∧ tx' ≠ tx := by
  simp [release]

theorem Holds.rollback (hholds : t.Holds tx k row) (hne : tx ≠ tx') :
    (t.rollback tx').Holds tx k row :=
  ⟨mem_release_locks.mpr ⟨hholds.1, hne⟩, hholds.2⟩

/-- Another transaction commits nothing to a row this one has locked. -/
theorem Holds.commit (hholds : t.Holds tx k row) (hne : tx ≠ tx') :
    (t.commit tx').Holds tx k row := by
  refine ⟨mem_release_locks.mpr ⟨hholds.1, hne⟩, ?_⟩
  have hunwritten : ∀ write ∈ t.writesOf tx', write.row ≠ k := by
    rintro write hwrite rfl
    have hlock := t.locked tx' write (t.mem_writesOf.mp hwrite)
    exact hne (t.exclusive _ _ _ hholds.1 hlock)
  exact (Table.find?_applyAll_of_unwritten hunwritten t.rows).trans hholds.2

end LockedTable

end IntelliPilot
