import Mathlib.Data.List.Induction
import Mathlib.Data.List.Sort
import Mathlib.Logic.Function.Basic

/-! # Ordered rows, windows and groups

`ORDER BY` with `LIMIT` and `OFFSET`, the window functions over a partition, and
the grouping of rows by a key as a loop does it.
-/

namespace IntelliPilot.Windows

variable {α β γ κ : Type}

/-! ## Pages -/

/-- `ORDER BY`. -/
def orderBy (le : α → α → Prop) [DecidableRel le] (rows : List α) : List α := rows.insertionSort le

/-- `LIMIT … OFFSET …`. -/
def page (limit offset : Nat) (rows : List α) : List α := (rows.drop offset).take limit

/-- Pages one after another are the rows from the start. -/
theorem flatten_pages (limit count : Nat) (rows : List α) :
    ((List.range count).map fun n => page limit (n * limit) rows).flatten =
      rows.take (count * limit) := by
  induction count with
  | zero => simp
  | succ count ih =>
    rw [List.range_succ, List.map_append, List.flatten_append, ih, Nat.succ_mul, List.take_add]
    simp [page]

/-! ## Answers -/

/-- What a query with `WHERE` and `ORDER BY` may return. Rows with one key come in any order. -/
structure Answers [LE κ] (chosen : α → Bool) (key : α → κ) (rows answer : List α) : Prop where
  perm : answer.Perm (rows.filter chosen)
  sorted : answer.Pairwise fun a b => key a ≤ key b

variable {key : α → κ}

/-- A query for more rows answers those of a narrower one in their order, where the key tells
these apart. -/
theorem Answers.filter_eq [PartialOrder κ] {wide narrow : α → Bool} {rows many few : List α}
    (hmany : Answers wide key rows many) (hfew : Answers narrow key rows few)
    (hwide : ∀ row ∈ rows, narrow row = true → wide row = true)
    (hkey : ∀ a ∈ rows, ∀ b ∈ rows, narrow a = true → narrow b = true → key a = key b → a = b) :
    many.filter narrow = few := by
  have hperm : (many.filter narrow).Perm few := by
    apply (hmany.perm.filter narrow).trans
    rw [List.filter_filter]
    refine (List.Perm.of_eq ?_).trans hfew.perm.symm
    apply List.filter_congr
    intro row hrow
    cases hnarrow : narrow row with
    | false => rfl
    | true => simp [hwide row hrow hnarrow]
  have hmem : ∀ row ∈ few, row ∈ rows ∧ narrow row = true := fun row hrow =>
    List.mem_filter.mp (hfew.perm.mem_iff.mp hrow)
  apply List.Perm.eq_of_pairwise _ (hmany.sorted.filter narrow) hfew.sorted hperm
  intro a b ha hb hab hba
  obtain ⟨harows, hanarrow⟩ := hmem a (hperm.mem_iff.mp ha)
  obtain ⟨hbrows, hbnarrow⟩ := hmem b hb
  exact hkey a harows b hbrows hanarrow hbnarrow (le_antisymm hab hba)

/-- The map of a loop that pushes every row's value under its group. -/
def groupBy [DecidableEq γ] (group : α → γ) (value : α → β) (rows : List α) :
    γ → Option (List β) :=
  rows.foldl (fun map row =>
    Function.update map (group row) (some ((map (group row)).getD [] ++ [value row]))) fun _ => none

/-- A group has the values of its rows in their order. -/
theorem getD_groupBy [DecidableEq γ] (group : α → γ) (value : α → β) (rows : List α) (g : γ) :
    (groupBy group value rows g).getD [] =
      (rows.filter fun row => group row = g).map value := by
  induction rows using List.reverseRecOn with
  | nil => rfl
  | append_singleton rows row ih =>
    have hstep : groupBy group value (rows ++ [row]) = Function.update (groupBy group value rows)
        (group row) (some ((groupBy group value rows (group row)).getD [] ++ [value row])) :=
      List.foldl_concat _ _ _ _
    rw [hstep, List.filter_append, List.map_append, ← ih]
    by_cases hg : group row = g
    · subst hg
      simp
    · rw [Function.update_of_ne (Ne.symm hg)]
      simp [hg]

/-! ## Windows -/

/-- `row_number() OVER (PARTITION BY key ORDER BY …)`. -/
def rowNumber [DecidableEq κ] (key : α → κ) (before : α → α → Prop) [DecidableRel before]
    (rows : List α) (row : α) : Nat :=
  (rows.countP fun other => key other = key row ∧ before other row) + 1

/-- `count(*) OVER (PARTITION BY key)`. -/
def partitionTotal [DecidableEq κ] (key : α → κ) (rows : List α) (row : α) : Nat :=
  rows.countP fun other => key other = key row

/-- Rows of one partition have one total. -/
theorem partitionTotal_congr [DecidableEq κ] {a b : α} (h : key a = key b) (rows : List α) :
    partitionTotal key rows a = partitionTotal key rows b := by
  unfold partitionTotal
  rw [h]

/-- No row has a number beyond the number of rows. -/
theorem rowNumber_le_length [DecidableEq κ] {before : α → α → Prop} [DecidableRel before]
    (hirrefl : ∀ row, ¬ before row row) {rows : List α} {row : α} (hrow : row ∈ rows) :
    rowNumber key before rows row ≤ rows.length := by
  have hle := List.countP_le_length (p := fun other => decide (key other = key row ∧ before other row))
    (l := rows)
  have hne : rows.countP (fun other => decide (key other = key row ∧ before other row)) ≠
      rows.length := by
    intro hall
    have hself := of_decide_eq_true (List.countP_eq_length.mp hall row hrow)
    exact hirrefl row hself.2
  unfold rowNumber
  omega

/-! ## Groups -/

/-- What stands under a key in a list is changed; a key that is new comes last. -/
def upsert [DecidableEq κ] (key : α → κ) (k : κ) (new : α) (f : α → α) : List α → List α
  | [] => [f new]
  | a :: rest => if key a = k then f a :: rest else a :: upsert key k new f rest

variable {k : κ} {new : α} {f : α → α}

/-- A change under one key changes what the list holds by what it adds there. -/
theorem upsert_flatMap_perm [DecidableEq κ] {held : α → List β} {extra : List β}
    (hnew : key new = k) (hempty : held new = [])
    (hf : ∀ a, key a = k → (held (f a)).Perm (held a ++ extra)) (l : List α) :
    ((upsert key k new f l).flatMap held).Perm (l.flatMap held ++ extra) := by
  induction l with
  | nil => simpa [upsert, hempty] using hf new hnew
  | cons a l ih =>
    rw [upsert]
    split
    next ha =>
      rw [List.flatMap_cons, List.flatMap_cons, List.append_assoc]
      calc (held (f a) ++ l.flatMap held).Perm ((held a ++ extra) ++ l.flatMap held) :=
            (hf a ha).append_right _
        _ = held a ++ (extra ++ l.flatMap held) := List.append_assoc _ _ _
        (held a ++ (extra ++ l.flatMap held)).Perm (held a ++ (l.flatMap held ++ extra)) :=
            List.perm_append_comm.append_left _
    next =>
      rw [List.flatMap_cons, List.flatMap_cons, List.append_assoc]
      exact ih.append_left _

theorem map_key_upsert [DecidableEq κ] (hnew : key new = k) (hf : ∀ a, key (f a) = key a)
    (l : List α) :
    (upsert key k new f l).map key =
      if k ∈ l.map key then l.map key else l.map key ++ [k] := by
  induction l with
  | nil => simp [upsert, hf, hnew]
  | cons a l ih =>
    rw [upsert]
    by_cases ha : key a = k
    · simp [ha, hf]
    · have hne : k ≠ key a := fun h => ha h.symm
      rw [if_neg ha, List.map_cons, ih, List.map_cons]
      by_cases hk : k ∈ l.map key
      · simp [hk]
      · simp [hk, hne]

variable {l : List α}

theorem exists_key_upsert_iff [DecidableEq κ] (hnew : key new = k) (hf : ∀ a, key (f a) = key a)
    {k' : κ} :
    (∃ a ∈ upsert key k new f l, key a = k') ↔ k' = k ∨ ∃ a ∈ l, key a = k' := by
  have hkeys := map_key_upsert hnew hf l
  rw [← List.mem_map, hkeys, ← List.mem_map]
  split
  next hk =>
    constructor
    · exact .inr
    · rintro (rfl | hk')
      · exact hk
      · exact hk'
  next => rw [List.mem_append, List.mem_singleton, or_comm]

/-- Keys stay unique. -/
theorem nodup_upsert [DecidableEq κ] (hnew : key new = k) (hf : ∀ a, key (f a) = key a)
    (h : (l.map key).Nodup) :
    ((upsert key k new f l).map key).Nodup := by
  rw [map_key_upsert hnew hf]
  split
  next => exact h
  next hk => exact h.append (List.nodup_singleton k) (by simpa using hk)

/-- A change keeps what it keeps at the key and what a new entry starts with. -/
theorem forall_mem_upsert [DecidableEq κ] {p : α → Prop} (hnew : key new = k) (hpnew : p new)
    (hf : ∀ a, key a = k → p a → p (f a)) (h : ∀ a ∈ l, p a) : ∀ a ∈ upsert key k new f l, p a := by
  induction l with
  | nil => simpa [upsert] using hf new hnew hpnew
  | cons a l ih =>
    obtain ⟨ha, hl⟩ := List.forall_mem_cons.mp h
    rw [upsert]
    split
    next hk => exact List.forall_mem_cons.mpr ⟨hf a hk ha, hl⟩
    next => exact List.forall_mem_cons.mpr ⟨ha, ih hl⟩

/-- What stands under a key after a change. -/
theorem find?_upsert [DecidableEq κ] (hnew : key new = k) (hf : ∀ a, key (f a) = key a)
    (l : List α) (k' : κ) :
    (upsert key k new f l).find? (fun a => key a = k') =
      if k' = k then some (f ((l.find? fun a => key a = k).getD new))
      else l.find? fun a => key a = k' := by
  induction l with
  | nil =>
    by_cases hk : k' = k
    · simp [upsert, hf, hnew, hk]
    · simp [upsert, hf, hnew, hk, Ne.symm hk]
  | cons a l ih =>
    rw [upsert]
    by_cases ha : key a = k
    · rw [if_pos ha]
      by_cases hk : k' = k
      · simp [hf, ha, hk]
      · have hne : ¬ key a = k' := fun h => hk (h.symm.trans ha)
        simp [hf, hne, hk]
    · rw [if_neg ha, List.find?_cons, ih]
      by_cases hk : k' = k
      · subst hk
        simp [ha]
      · by_cases ha' : key a = k'
        · simp [ha', hk]
        · simp [ha', hk]

/-- An entry is what stands under its key. -/
theorem mem_iff_find? [DecidableEq κ] (h : (l.map key).Nodup) {a : α} :
    a ∈ l ↔ l.find? (fun b => key b = key a) = some a := by
  constructor
  · intro ha
    cases hfind : l.find? (fun b => key b = key a) with
    | none => exact absurd (by simp) (List.find?_eq_none.mp hfind a ha)
    | some b =>
      have hkey : key b = key a := by simpa using List.find?_some hfind
      rw [List.inj_on_of_nodup_map h (List.mem_of_find?_eq_some hfind) ha hkey]
  · exact List.mem_of_find?_eq_some

/-- The entries after a change: the changed one under the key, and the others. -/
theorem mem_upsert_iff [DecidableEq κ] (hnew : key new = k) (hf : ∀ a, key (f a) = key a)
    (h : (l.map key).Nodup) {a : α} : a ∈ upsert key k new f l ↔
      if key a = k then a = f ((l.find? fun b => key b = k).getD new) else a ∈ l := by
  rw [mem_iff_find? (nodup_upsert hnew hf h), find?_upsert hnew hf]
  split
  next => exact ⟨fun heq => (Option.some.inj heq).symm, fun heq => congrArg some heq.symm⟩
  next => exact (mem_iff_find? h).symm

/-- Changing by key is changing at the index of the key, or adding at the end. -/
theorem upsert_eq_modify [DecidableEq κ] (l : List α) :
    upsert key k new f l = match l.findIdx? fun a => key a = k with
      | some i => l.modify i f
      | none => l ++ [f new] := by
  induction l with
  | nil => rfl
  | cons a l ih =>
    rw [upsert, List.findIdx?_cons]
    by_cases ha : key a = k
    · simp [ha]
    · rw [if_neg ha, ih]
      cases hidx : l.findIdx? fun a => key a = k with
      | none => simp [ha]
      | some i => simp [ha]

/-- A change leaves the index of every key as it is; a new key comes last. -/
theorem findIdx?_upsert [DecidableEq κ] (hnew : key new = k) (hf : ∀ a, key (f a) = key a)
    (l : List α) (k' : κ) :
    (upsert key k new f l).findIdx? (fun a => key a = k') =
      if k' = k then some ((l.findIdx? fun a => key a = k).getD l.length)
      else l.findIdx? fun a => key a = k' := by
  induction l with
  | nil =>
    by_cases hk : k' = k
    · simp [upsert, hf, hnew, hk]
    · simp [upsert, hf, hnew, hk, Ne.symm hk]
  | cons a l ih =>
    rw [upsert]
    by_cases ha : key a = k
    · rw [if_pos ha]
      by_cases hk : k' = k
      · simp [List.findIdx?_cons, hf, ha, hk]
      · have hne : ¬ key a = k' := fun h => hk (h.symm.trans ha)
        simp [List.findIdx?_cons, hf, hne, hk]
    · rw [if_neg ha, List.findIdx?_cons, ih, List.findIdx?_cons, List.findIdx?_cons]
      by_cases hk : k' = k
      · subst hk
        cases hidx : l.findIdx? fun a => key a = k' with
        | none => simp [ha]
        | some i => simp [ha]
      · by_cases ha' : key a = k'
        · simp [ha', hk]
        · simp [ha', hk]

/-- What stands under a key is what is at its index. -/
theorem getElem?_of_findIdx? {p : α → Bool} {i : Nat} (h : l.findIdx? p = some i) :
    l[i]? = l.find? p := by
  induction l generalizing i with
  | nil => contradiction
  | cons a l ih =>
    rw [List.findIdx?_cons] at h
    by_cases ha : p a = true
    · simp only [ha, if_true, Option.some.injEq] at h
      simp [← h, ha]
    · simp only [ha, Bool.false_eq_true, if_false, Option.map_eq_some_iff] at h
      obtain ⟨j, hj, rfl⟩ := h
      simpa [ha] using ih hj

theorem modify_concat (l : List α) (a : α) (f : α → α) :
    (l ++ [a]).modify l.length f = l ++ [f a] := by
  induction l with
  | nil => rfl
  | cons b l ih => simpa using ih

theorem modify_congr {i : Nat} {a : α} {f' : α → α} (ha : l[i]? = some a) (h : f a = f' a) :
    l.modify i f = l.modify i f' := by
  induction l generalizing i with
  | nil => contradiction
  | cons b l ih =>
    cases i with
    | zero =>
      obtain rfl := Option.some.inj ha
      simp [h]
    | succ i => simpa using ih (by simpa using ha)

end IntelliPilot.Windows
