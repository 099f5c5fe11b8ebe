import IntelliPilot.Relational.Table

/-! # A table of copies

Several tables may be copied into one, each under a tag of its own, by triggers
that run for every row that is written. Some rows have no copy. The table of
copies then is what the tables make it, whatever statements have run.
-/

namespace IntelliPilot

open Rows

variable {κ ι α β : Type} {key : α → κ} {ckey : β → ι × κ}

/-- How the rows of one table are copied: `copy` is the row that is inserted, and
`merge` overwrites an old copy by a new one. -/
structure Feed (key : α → κ) (ckey : β → ι × κ) where
  tag : ι
  copy : α → Option β
  merge : β → β → β
  key_copy : ∀ row c, copy row = some c → ckey c = (tag, key row)
  key_merge : ∀ old new, ckey (merge old new) = ckey old
  merge_copy : ∀ row row' c c', key row = key row' → copy row = some c → copy row' = some c' →
    merge c c' = c'

namespace Feed

/-- A feed that copies the rows that are live. -/
def ofLive (tag : ι) (live : α → Bool) (entry : α → β) (merge : β → β → β)
    (hkey : ∀ row, ckey (entry row) = (tag, key row))
    (hmerge : ∀ old new, ckey (merge old new) = ckey old)
    (hentry : ∀ row row', key row = key row' → merge (entry row) (entry row') = entry row') :
    Feed key ckey where
  tag := tag
  copy row := if live row then some (entry row) else none
  merge := merge
  key_copy row c h := by
    split at h
    · rw [← Option.some.inj h]
      exact hkey row
    · contradiction
  key_merge := hmerge
  merge_copy row row' c c' hsame h h' := by
    split at h
    · split at h'
      · rw [← Option.some.inj h, ← Option.some.inj h']
        exact hentry row row' hsame
      · contradiction
    · contradiction

variable [DecidableEq κ] [DecidableEq ι] (feed : Feed key ckey)

/-- `DELETE FROM … WHERE` the key of a copy. -/
def drop (k : ι × κ) (copies : Table ckey) : Table ckey := copies.erase fun c => ckey c == k

/-- `INSERT … ON CONFLICT DO UPDATE`. -/
def put (c : β) (copies : Table ckey) : Table ckey :=
  match copies.insert? c with
  | some copies => copies
  | none => copies.modify (fun old => ckey old == ckey c) (fun old => feed.merge old c)
      fun old => feed.key_merge old c

/-- The trigger for a row that is inserted or updated. -/
def written (row : α) (copies : Table ckey) : Table ckey :=
  match feed.copy row with
  | some c => feed.put c copies
  | none => drop (feed.tag, key row) copies

/-- The trigger for a row that is deleted. -/
def deleted (copies : Table ckey) (row : α) : Table ckey := drop (feed.tag, key row) copies

/-- The copies of the table are those of its rows. -/
def Mirrors (t : Table key) (copies : Table ckey) : Prop :=
  ∀ k, copies.find? (feed.tag, k) = (t.find? k).bind feed.copy

/-- Only copies of this feed have changed. -/
def Apart (copies copies' : Table ckey) : Prop :=
  ∀ tag k, tag ≠ feed.tag → copies'.find? (tag, k) = copies.find? (tag, k)

variable {feed} {t : Table key} {copies copies' : Table ckey}

theorem find?_drop (k k' : ι × κ) (copies : Table ckey) :
    (drop k copies).find? k' = if k' = k then none else copies.find? k' := by
  rw [drop, Table.find?_erase]
  cases hfound : copies.find? k' with
  | none => simp
  | some c =>
    have hkey := Table.key_of_find? hfound
    by_cases hk : k' = k
    · simp [Option.filter, hkey, hk]
    · simp [Option.filter, hkey, hk]

/-- A copy that is put overwrites the old one. -/
theorem find?_put {c : β} (hmerge : ∀ old, copies.find? (ckey c) = some old → feed.merge old c = c)
    (k : ι × κ) : (feed.put c copies).find? k = if k = ckey c then some c else copies.find? k := by
  unfold put
  cases hinsert : copies.insert? c with
  | some inserted => exact Table.find?_insert? hinsert k
  | none =>
    dsimp only
    rw [Table.find?_modify]
    cases hfound : copies.find? k with
    | none =>
      have hk : k ≠ ckey c := by
        intro hk
        obtain ⟨_, hsome⟩ := Table.exists_insert? (hk ▸ hfound)
        rw [hinsert] at hsome
        contradiction
      simp [hk]
    | some old =>
      have hkey := Table.key_of_find? hfound
      by_cases hk : k = ckey c
      · simp [hkey, hk, hmerge old (hk ▸ hfound)]
      · simp [hkey, hk]

/-- The trigger leaves the copy of the row in place of that of an older row. -/
theorem find?_written {row : α} {old : Option α}
    (hold : ∀ row', old = some row' → key row' = key row)
    (hcopy : copies.find? (feed.tag, key row) = old.bind feed.copy) (k : ι × κ) :
    (feed.written row copies).find? k =
      if k = (feed.tag, key row) then feed.copy row else copies.find? k := by
  unfold written
  cases hrow : feed.copy row with
  | none => exact find?_drop _ k copies
  | some c =>
    have hkey := feed.key_copy row c hrow
    dsimp only
    rw [find?_put, hkey]
    intro c' hc'
    rw [hkey, hcopy] at hc'
    obtain ⟨row', hrow', hcopied⟩ := Option.bind_eq_some_iff.mp hc'
    exact feed.merge_copy row' row c' c (hold row' hrow') hcopied hrow

theorem apart_of_find? {k : κ} {found : Option β}
    (h : ∀ k', copies'.find? k' = if k' = (feed.tag, k) then found else copies.find? k') :
    feed.Apart copies copies' := by
  intro tag k' htag
  rw [h, if_neg]
  intro hk
  exact htag (Prod.mk.inj hk).1

/-! ## Statements -/

/-- `INSERT`, of a row whose key is free. -/
theorem mirrors_insert (h : feed.Mirrors t copies) {row : α} {t' : Table key}
    (hinsert : t.insert? row = some t') :
    feed.Mirrors t' (feed.written row copies) ∧ feed.Apart copies (feed.written row copies) := by
  have hfresh := Table.insert?_fresh hinsert
  have hfind : ∀ k, (feed.written row copies).find? k =
      if k = (feed.tag, key row) then feed.copy row else copies.find? k :=
    find?_written (fun row' (h : none = some row') => absurd h (by simp))
      ((h (key row)).trans (by rw [hfresh]))
  refine ⟨?_, apart_of_find? hfind⟩
  intro k
  rw [hfind, Table.find?_insert? hinsert]
  by_cases hk : k = key row
  · rw [if_pos (by rw [hk]), if_pos hk]
    rfl
  · rw [if_neg (fun heq => hk (Prod.mk.inj heq).2), if_neg hk]
    exact h k

/-- `UPDATE … SET f`, of the row with a key. -/
theorem mirrors_modify (h : feed.Mirrors t copies) {row : α} {f : α → α}
    (hf : ∀ row, key (f row) = key row) (hrow : t.find? (key row) = some row) :
    feed.Mirrors (t.modify (fun old => key old == key row) f hf) (feed.written (f row) copies) ∧
      feed.Apart copies (feed.written (f row) copies) := by
  have hfind : ∀ k, (feed.written (f row) copies).find? k =
      if k = (feed.tag, key (f row)) then feed.copy (f row) else copies.find? k :=
    find?_written (fun row' (h : some row = some row') => by rw [← Option.some.inj h, hf])
      ((congrArg (fun k => copies.find? (feed.tag, k)) (hf row)).trans
      ((h (key row)).trans (by rw [hrow])))
  refine ⟨?_, apart_of_find? hfind⟩
  intro k
  rw [hfind, Table.find?_modify, hf]
  by_cases hk : k = key row
  · subst hk
    rw [if_pos rfl, hrow, Option.map_some, if_pos (beq_self_eq_true _)]
    rfl
  · rw [if_neg (fun heq => hk (Prod.mk.inj heq).2), h k]
    cases hfound : t.find? k with
    | none => rfl
    | some other =>
      have hkey : key other ≠ key row := by
        rw [Table.key_of_find? hfound]
        exact hk
      rw [Option.map_some, if_neg (by simpa using hkey)]

theorem find?_deleted (rows : List α) (copies : Table ckey) (k : ι × κ) :
    (rows.foldl feed.deleted copies).find? k =
      if ∃ row ∈ rows, k = (feed.tag, key row) then none else copies.find? k := by
  induction rows generalizing copies with
  | nil => simp
  | cons row rows ih =>
    rw [List.foldl_cons, ih, deleted, find?_drop]
    by_cases hlater : ∃ row ∈ rows, k = (feed.tag, key row)
    · obtain ⟨row', hrow', hk⟩ := hlater
      rw [if_pos ⟨row', hrow', hk⟩, if_pos ⟨row', List.mem_cons_of_mem _ hrow', hk⟩]
    · rw [if_neg hlater]
      by_cases hk : k = (feed.tag, key row)
      · rw [if_pos hk, if_pos ⟨row, List.mem_cons_self, hk⟩]
      · rw [if_neg hk, if_neg]
        rintro ⟨row', hrow', hk'⟩
        rcases List.mem_cons.mp hrow' with rfl | hrow'
        · exact hk hk'
        · exact hlater ⟨row', hrow', hk'⟩

/-- `DELETE … WHERE p`, of any number of rows. -/
theorem mirrors_erase (h : feed.Mirrors t copies) (p : α → Bool) :
    feed.Mirrors (t.erase p) ((t.rows.filter p).foldl feed.deleted copies) ∧
      feed.Apart copies ((t.rows.filter p).foldl feed.deleted copies) := by
  constructor
  · intro k
    rw [find?_deleted, Table.find?_erase, h k]
    cases hfound : t.find? k with
    | none => simp
    | some row =>
      obtain ⟨hrow, rfl⟩ := Table.find?_eq_some_iff.mp hfound
      by_cases hp : p row = true
      · rw [if_pos ⟨row, List.mem_filter.mpr ⟨hrow, hp⟩, rfl⟩]
        simp [Option.filter, hp]
      · rw [if_neg]
        · simp [Option.filter, hp]
        · rintro ⟨row', hrow', hk⟩
          obtain ⟨hmem, hp'⟩ := List.mem_filter.mp hrow'
          have hsame := eq_of_nodup_map t.nodup hmem hrow (Prod.mk.inj hk).2.symm
          rw [hsame] at hp'
          exact hp hp'
  · intro tag k htag
    rw [find?_deleted, if_neg]
    rintro ⟨row, _, hk⟩
    exact htag (Prod.mk.inj hk).1

/-- Another table's copies are left alone. -/
theorem Mirrors.apart {α' : Type} {key' : α' → κ} {feed' : Feed key' ckey} {t' : Table key'}
    (h : feed'.Mirrors t' copies) (hapart : feed.Apart copies copies')
    (htag : feed'.tag ≠ feed.tag) : feed'.Mirrors t' copies' := by
  intro k
  rw [hapart _ k htag]
  exact h k

/-- A copy with the tag of the feed is that of a row. -/
theorem Mirrors.row_of_copy (h : feed.Mirrors t copies) {c : β} (hc : c ∈ copies.rows) {k : κ}
    (htag : ckey c = (feed.tag, k)) : ∃ row, t.find? k = some row ∧ feed.copy row = some c := by
  have hfound := Table.find?_key hc
  rw [htag, h k] at hfound
  exact Option.bind_eq_some_iff.mp hfound

end Feed

end IntelliPilot
