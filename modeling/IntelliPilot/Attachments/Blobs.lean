import IntelliPilot.Attachments.Handlers

/-! # Rows and objects

An attachment row has its object in exactly the runs where no object is removed
while a row names it, and none is gone when its row is inserted. An object has a
row or a request at work on it, as long as requests whose steps fail leave their
objects to others.
-/

namespace IntelliPilot.Attachments

open Http Statement
open Service (initial)
open Rows

abbrev BlobEvent := Event Stmt Request (Except Problem Answer)

abbrev BlobWorld := World Stmt Db Request (Except Problem Answer)

/-! ## What the statements do -/

section Statements

variable {db : Db} {key : StorageKey}

theorem named_iff : db.named key = true ↔ ∃ row ∈ db.attachments.rows, row.storageKey = key := by
  simp [Db.named]

theorem named_insert {new : NewAttachment} :
    (db.insert new).2.named key = true ↔ db.named key = true ∨ new.storageKey = key := by
  rw [named_iff, named_iff]
  constructor
  · rintro ⟨row, hrow, hkey⟩
    rcases List.mem_append.mp hrow with hold | hnew
    · exact .inl ⟨row, hold, hkey⟩
    · rw [List.mem_singleton.mp hnew] at hkey
      exact .inr hkey
  · rintro (⟨row, hrow, hkey⟩ | hkey)
    · exact ⟨row, List.mem_append_left _ hrow, hkey⟩
    · exact ⟨_, List.mem_append_right _ List.mem_cons_self, hkey⟩

variable {p : Attachment → Bool}

theorem named_markDeleted {now : Timestamp} :
    (db.markDeleted now p).named key = db.named key := by
  rw [Bool.eq_iff_iff, named_iff, named_iff]
  constructor
  · rintro ⟨row, hrow, hkey⟩
    obtain ⟨old, hold, rfl⟩ := mem_updateWhere.mp hrow
    refine ⟨old, hold, ?_⟩
    rw [← hkey]
    split <;> rfl
  · rintro ⟨row, hrow, hkey⟩
    refine ⟨_, mem_updateWhere.mpr ⟨row, hrow, rfl⟩, ?_⟩
    rw [← hkey]
    split <;> rfl

/-- A key that a row names is named by one that stays, or it is returned. -/
theorem named_deleteRows (h : db.named key = true) :
    (db.deleteRows p).2.named key = true ∨ key ∈ (db.deleteRows p).1 := by
  obtain ⟨row, hrow, hkey⟩ := named_iff.mp h
  cases hp : p row with
  | false => exact .inl (named_iff.mpr ⟨row, mem_deleteWhere.mpr ⟨hrow, hp⟩, hkey⟩)
  | true => exact .inr (List.mem_map.mpr ⟨row, List.mem_filter.mpr ⟨hrow, hp⟩, hkey⟩)

theorem named_of_deleteRows (h : (db.deleteRows p).2.named key = true) :
    db.named key = true := by
  obtain ⟨row, hrow, hkey⟩ := named_iff.mp h
  exact named_iff.mpr ⟨row, (mem_deleteWhere.mp hrow).1, hkey⟩

theorem mem_distinct {keys : List StorageKey} : key ∈ Db.distinct keys ↔ key ∈ keys := by
  rw [Db.distinct, List.mem_dedup, List.mem_insertionSort]

theorem mem_stillReferenced {keys : List StorageKey} :
    key ∈ db.stillReferenced keys ↔ db.named key = true ∧ key ∈ keys := by
  simp [Db.stillReferenced, Db.named]

/-- A key that a row names is named by one that the purge leaves, or it is an orphan. -/
theorem named_purge {item : TargetType} {projectId : Uuid} (h : db.named key = true) :
    (db.purge item projectId).2.named key = true ∨ key ∈ (db.purge item projectId).1.2 := by
  have hrows := named_deleteRows (p := fun row => row.targetType == item &&
    (db.items.filter fun row => row.1 == item && row.2.2 == projectId).any
      fun target => target.2.1 == row.targetId) h
  by_cases hstill : (db.purge item projectId).2.named key = true
  · exact .inl hstill
  · right
    rcases hrows with hnamed | hremoved
    · exact absurd hnamed hstill
    · refine List.mem_filter.mpr ⟨mem_distinct.mpr hremoved, ?_⟩
      rw [Bool.not_eq_true', ← Bool.not_eq_true, List.contains_iff_mem]
      intro hmem
      exact hstill (mem_stillReferenced.mp hmem).1

theorem named_of_purge {item : TargetType} {projectId : Uuid}
    (h : (db.purge item projectId).2.named key = true) : db.named key = true :=
  named_of_deleteRows h

end Statements

/-! ## Rows keep their objects -/

/-- Every row has its object. -/
def Stored (w : BlobWorld) : Prop :=
  ∀ key, w.state.named key = true → key ∈ w.state.objects

/-- The object that an event removed. -/
def removed : BlobEvent → Option StorageKey
  | .ran (.removeObject key) (.ok _) => some key
  | _ => none

/-- The object of the row that an event inserted. -/
def recorded : BlobEvent → Option StorageKey
  | .ran (.create new) (.ok _) => some new.storageKey
  | _ => none

/-- An object is removed only while no row names it, and a row inserted only while its
object is there. -/
def Guarded : Nat → BlobWorld → BlobWorld → Prop := fun _ w w' =>
  ∀ i event, w'.log = (i, event) :: w.log →
    (∀ key, removed event = some key → w.state.named key = false) ∧
      ∀ key, recorded event = some key → key ∈ w.state.objects

variable {w : BlobWorld} {i n : Nat} {event : BlobEvent}

/-- A step that neither removes an object nor inserts a row. -/
theorem stored_plain {w' : BlobWorld} (hw : Stored w) (hlog : w'.log = (i, event) :: w.log)
    (hremoved : removed event = none) (hrecorded : recorded event = none)
    (hnamed : ∀ key, w'.state.named key = true → w.state.named key = true)
    (hobjects : w.state.objects ⊆ w'.state.objects) : Stored w' ↔ Guarded n w w' := by
  refine iff_of_true (fun key hkey => hobjects (hw key (hnamed key hkey))) ?_
  intro j event' hlog'
  rw [hlog] at hlog'
  obtain ⟨-, rfl⟩ := Prod.mk.inj (List.cons.inj hlog').1
  rw [hremoved, hrecorded]
  exact ⟨fun key heq => by contradiction, fun key heq => by contradiction⟩

theorem stored_removeObject {key : StorageKey} (hw : Stored w) :
    Stored (w.record i (.ran (.removeObject key) (.ok ()))
        { w.state with objects := w.state.objects.erase key }) ↔
      Guarded n w (w.record i (.ran (.removeObject key) (.ok ()))
        { w.state with objects := w.state.objects.erase key }) := by
  constructor
  · intro hstored j event hlog
    obtain ⟨-, rfl⟩ := Prod.mk.inj (List.cons.inj hlog).1
    refine ⟨?_, fun key' heq => by contradiction⟩
    intro key' heq
    obtain rfl := Option.some.inj heq
    rw [← Bool.not_eq_true]
    intro hnamed
    exact Finset.notMem_erase _ _ (hstored key hnamed)
  · intro hguarded key' hnamed
    have hfree := (hguarded i _ rfl).1 key rfl
    refine Finset.mem_erase.mpr ⟨?_, hw key' hnamed⟩
    rintro rfl
    have hnamed' : w.state.named key' = true := hnamed
    rw [hfree] at hnamed'
    contradiction

theorem stored_create {new : NewAttachment} (hw : Stored w) :
    Stored (w.record i (.ran (.create new) (.ok (w.state.insert new).1)) (w.state.insert new).2) ↔
      Guarded n w
        (w.record i (.ran (.create new) (.ok (w.state.insert new).1)) (w.state.insert new).2) := by
  constructor
  · intro hstored j event hlog
    obtain ⟨-, rfl⟩ := Prod.mk.inj (List.cons.inj hlog).1
    refine ⟨fun key heq => by contradiction, ?_⟩
    intro key heq
    exact hstored key (named_insert.mpr (.inr (Option.some.inj heq)))
  · intro hguarded key hnamed
    rcases named_insert.mp hnamed with hold | rfl
    · exact hw key hold
    · exact (hguarded i _ rfl).2 _ rfl

/-- A statement keeps the objects of the rows in exactly the case that it is guarded. -/
theorem stored_perform (hw : Stored w) (i n : Nat) {β : Type} (stmt : Stmt β) (choice : Choice) :
    Stored (service.perform i stmt choice w) ↔ Guarded n w (service.perform i stmt choice w) := by
  have hperform : service.perform i stmt choice w =
      w.record i (.ran stmt (stmt.exec choice w.state).1) (stmt.exec choice w.state).2 := rfl
  rw [hperform]
  unfold Stmt.exec
  cases choice.fails with
  | true =>
    have hstate : ∀ key, (stmt.remains choice.leaves w.state).named key = w.state.named key := by
      intro key
      cases stmt with
      | putFile key' => cases choice.leaves <;> rfl
      | _ => rfl
    refine stored_plain hw rfl ?_ ?_ (fun key hkey => ?_) ?_
    · cases stmt <;> rfl
    · cases stmt <;> rfl
    · rw [← hstate]
      exact hkey
    · cases stmt with
      | putFile key' =>
        cases choice.leaves with
        | true => exact Finset.subset_insert _ _
        | false => exact Finset.Subset.refl _
      | _ => exact Finset.Subset.refl _
  | false =>
    simp only [Bool.false_eq_true, if_false]
    cases stmt with
    | removeObject key => exact stored_removeObject hw
    | create new => exact stored_create hw
    | putFile key =>
      exact stored_plain hw rfl rfl rfl (fun _ h => h) (Finset.subset_insert _ _)
    | get projectId id | stillReferenced keys =>
      exact stored_plain hw rfl rfl rfl (fun _ h => h) (Finset.Subset.refl _)
    | softDelete projectId id | softDeleteForTarget targetType targetId =>
      exact stored_plain hw rfl rfl rfl (fun key h => named_markDeleted.symm.trans h)
        (Finset.Subset.refl _)
    | deleteExpired cutoff =>
      exact stored_plain hw rfl rfl rfl (fun key h => named_of_deleteRows h)
        (Finset.Subset.refl _)
    | purge item projectId =>
      exact stored_plain hw rfl rfl rfl (fun key h => named_of_purge h) (Finset.Subset.refl _)

variable {db : Db}

theorem stored_iff_guarded (hdb : ∀ key, db.named key = true → key ∈ db.objects)
    (labels : List (Label Request Choice)) :
    service.Always Stored (initial db) labels ↔
      service.Admits Guarded (initial db) labels := by
  refine service.always_iff_admits hdb ?_ labels
  intro labels label hbefore
  have hstep := service.stepOf (P := fun _ {_} _ => True)
    (service.attributed_run (fun request => Prog.only_true _) (Service.attributed_initial db) labels)
    label
  generalize (service.run (initial db) labels).world = w at *
  generalize (service.step (service.run (initial db) labels) label).world = w' at *
  cases hstep with
  | void =>
    refine iff_of_true hbefore ?_
    intro i event hlog
    exact absurd hlog.symm (List.cons_ne_self _ _)
  | began i request | answered i request answer hbegan =>
    exact stored_plain hbefore rfl rfl rfl (fun _ h => h) (Finset.Subset.refl _)
  | issued i request stmt choice hbegan hmay => exact stored_perform hbefore i _ stmt choice

/-! ## Objects have a row or a request -/

/-- The keys that a request has taken on, after one more of its events. -/
def taking (event : BlobEvent) (held : Finset StorageKey) : Finset StorageKey :=
  match event with
  | .ran (.putFile key) (.ok _) => insert key held
  | .ran (.create new) _ => held.erase new.storageKey
  | .ran (.deleteExpired _) (.ok keys) => held ∪ keys.toFinset
  | .ran (.stillReferenced _) (.ok still) => held \ still.toFinset
  | .ran (.stillReferenced keys) (.error _) => held \ keys.toFinset
  | .ran (.purge _ _) (.ok result) => held ∪ result.2.toFinset
  | .ran (.removeObject key) _ => held.erase key
  | _ => held

/-- The keys that a request has still to give a row, to ask about or to remove. -/
def holds (events : List BlobEvent) : Finset StorageKey := events.foldr taking ∅

/-- The keys that a request lets go of because a step of it failed. -/
def dropped : BlobEvent → List StorageKey
  | .ran (.putFile key) (.error _) => [key]
  | .ran (.create new) (.error _) => [new.storageKey]
  | .ran (.stillReferenced keys) (.error _) => keys
  | .ran (.removeObject key) (.error _) => [key]
  | _ => []

/-- Every object has a row or a request. -/
def Covered (w : BlobWorld) : Prop :=
  ∀ key ∈ w.state.objects, w.state.named key = true ∨ ∃ i, key ∈ holds (w.own i)

/-- A request whose step fails leaves its objects to a row or to another request. -/
def Handed : Nat → BlobWorld → BlobWorld → Prop := fun _ w w' =>
  ∀ i event, w'.log = (i, event) :: w.log → ∀ key ∈ dropped event, key ∈ w'.state.objects →
    w.state.named key = true ∨ ∃ j, j ≠ i ∧ key ∈ holds (w.own j)

/-- What has to hold of one event for the objects to stay covered. -/
theorem Covered.record (h : Covered w) (hnamed : ∀ key, w.state.named key = true →
      db.named key = true ∨ key ∈ taking event (holds (w.own i)))
    (hnew : ∀ key ∈ db.objects, key ∉ w.state.objects → key ∉ taking event (holds (w.own i)) →
      w.state.named key = true ∨ ∃ j, j ≠ i ∧ key ∈ holds (w.own j))
    (hheld : ∀ key ∈ holds (w.own i), key ∉ taking event (holds (w.own i)) → key ∈ db.objects →
      db.named key = true ∨ w.state.named key = true ∨ ∃ j, j ≠ i ∧ key ∈ holds (w.own j)) :
    Covered (w.record i event db) := by
  have hself : holds ((w.record i event db).own i) = taking event (holds (w.own i)) := by
    rw [World.own_record_self]
    rfl
  have hother : ∀ j, j ≠ i → (w.record i event db).own j = w.own j :=
    fun j hne => World.own_record_of_ne (Ne.symm hne) w event db
  have hrow : ∀ key, w.state.named key = true →
      db.named key = true ∨ ∃ j, key ∈ holds ((w.record i event db).own j) := by
    intro key hkey
    refine (hnamed key hkey).imp_right fun hmem => ⟨i, ?_⟩
    rw [hself]
    exact hmem
  have hothers : ∀ key, (∃ j, j ≠ i ∧ key ∈ holds (w.own j)) →
      ∃ j, key ∈ holds ((w.record i event db).own j) := by
    rintro key ⟨j, hne, hmem⟩
    refine ⟨j, ?_⟩
    rw [hother j hne]
    exact hmem
  intro key hkey
  by_cases htaken : key ∈ taking event (holds (w.own i))
  · refine .inr ⟨i, ?_⟩
    rw [hself]
    exact htaken
  · by_cases hold : key ∈ w.state.objects
    · rcases h key hold with hrows | ⟨j, hmem⟩
      · exact hrow key hrows
      · by_cases hji : j = i
        · rw [hji] at hmem
          rcases hheld key hmem htaken hkey with hlater | hrows | hj
          · exact .inl hlater
          · exact hrow key hrows
          · exact .inr (hothers key hj)
        · exact .inr (hothers key ⟨j, hji, hmem⟩)
    · rcases hnew key hkey hold htaken with hrows | hj
      · exact hrow key hrows
      · exact .inr (hothers key hj)

/-- An event after which the request holds what it held, and the rest is as it was. -/
theorem Covered.plain (h : Covered w) (hevent : ∀ held, taking event held = held)
    (hnamed : ∀ key, w.state.named key = true → db.named key = true)
    (hobjects : db.objects = w.state.objects) : Covered (w.record i event db) := by
  refine h.record (fun key hkey => .inl (hnamed key hkey)) ?_ ?_
  · intro key hkey hnew
    rw [hobjects] at hkey
    contradiction
  · intro key hmem hnot
    rw [hevent] at hnot
    contradiction

/-- A statement that fails, and leaves what it deals with to others. -/
theorem covered_failed (h : Covered w) {β : Type} (stmt : Stmt β) (leaves : Bool)
    (hhanded : Handed n w (w.record i (.ran stmt stmt.failure) (stmt.remains leaves w.state))) :
    Covered (w.record i (.ran stmt stmt.failure) (stmt.remains leaves w.state)) := by
  have hdropped := hhanded i _ rfl
  cases stmt with
  | putFile key =>
    have hnamed : ∀ key', (Stmt.remains (.putFile key) leaves w.state).named key' =
        w.state.named key' := by
      intro key'
      cases leaves <;> rfl
    refine h.record ?_ ?_ ?_
    · intro key' hkey
      exact .inl ((hnamed key').trans hkey)
    · intro key' hkey hnew _
      have hsame : key' = key := by
        cases leaves with
        | true => exact (Finset.mem_insert.mp hkey).resolve_right hnew
        | false => exact absurd hkey hnew
      exact hdropped key' (by rw [hsame]; exact List.mem_cons_self) hkey
    · intro key' hmem hnot
      exact absurd hmem hnot
  | create new =>
    refine h.record (fun key hkey => .inl hkey) (fun key hkey hnew => absurd hkey hnew) ?_
    intro key hmem hnot hkey
    have hsame : key = new.storageKey := by
      by_contra hne
      exact hnot (Finset.mem_erase.mpr ⟨hne, hmem⟩)
    exact .inr (hdropped key (by rw [hsame]; exact List.mem_cons_self) hkey)
  | stillReferenced keys =>
    refine h.record (fun key hkey => .inl hkey) (fun key hkey hnew => absurd hkey hnew) ?_
    intro key hmem hnot hkey
    have hasked : key ∈ keys := by
      by_contra hne
      exact hnot (Finset.mem_sdiff.mpr ⟨hmem, fun hin => hne (List.mem_toFinset.mp hin)⟩)
    exact .inr (hdropped key hasked hkey)
  | removeObject key =>
    refine h.record (fun key hkey => .inl hkey) (fun key hkey hnew => absurd hkey hnew) ?_
    intro key' hmem hnot hkey
    have hsame : key' = key := by
      by_contra hne
      exact hnot (Finset.mem_erase.mpr ⟨hne, hmem⟩)
    exact .inr (hdropped key' (by rw [hsame]; exact List.mem_cons_self) hkey)
  | get projectId id | softDelete projectId id | deleteExpired cutoff
  | purge item projectId => exact h.plain (fun _ => rfl) (fun _ hkey => hkey) rfl
  | softDeleteForTarget targetType targetId =>
    exact h.plain (fun _ => rfl) (fun _ hkey => hkey) rfl

/-- A statement that does not fail. -/
theorem covered_done (h : Covered w) (i : Nat) {β : Type} (stmt : Stmt β) (now : Timestamp) :
    Covered (w.record i (.ran stmt (stmt.effect now w.state).1) (stmt.effect now w.state).2) := by
  cases stmt with
  | putFile key =>
    refine h.record (fun _ hkey => .inl hkey) ?_ ?_
    · intro key' hkey hnew hnot
      have hsame := (Finset.mem_insert.mp hkey).resolve_right hnew
      exact absurd (Finset.mem_insert.mpr (.inl hsame)) hnot
    · intro key' hmem hnot
      exact absurd (Finset.mem_insert_of_mem hmem) hnot
  | create new =>
    refine h.record (fun _ hkey => .inl (named_insert.mpr (.inl hkey)))
      (fun key hkey hnew => absurd hkey hnew) ?_
    intro key hmem hnot _
    have hsame : new.storageKey = key := by
      by_contra hne
      exact hnot (Finset.mem_erase.mpr ⟨Ne.symm hne, hmem⟩)
    exact .inl (named_insert.mpr (.inr hsame))
  | get projectId id => exact h.plain (fun _ => rfl) (fun _ hkey => hkey) rfl
  | softDelete projectId id | softDeleteForTarget targetType targetId =>
    exact h.plain (fun _ => rfl) (fun _ hkey => named_markDeleted.trans hkey) rfl
  | deleteExpired cutoff =>
    refine h.record ?_ (fun key hkey hnew => absurd hkey hnew) ?_
    · intro key hkey
      refine (named_deleteRows hkey).imp_right fun hmem => ?_
      exact Finset.mem_union_right _ (List.mem_toFinset.mpr hmem)
    · intro key hmem hnot
      exact absurd (Finset.mem_union_left _ hmem) hnot
  | stillReferenced keys =>
    refine h.record (fun _ hkey => .inl hkey) (fun key hkey hnew => absurd hkey hnew) ?_
    intro key hmem hnot _
    have hstill : key ∈ w.state.stillReferenced keys := by
      by_contra hne
      exact hnot (Finset.mem_sdiff.mpr ⟨hmem, fun hin => hne (List.mem_toFinset.mp hin)⟩)
    exact .inl (mem_stillReferenced.mp hstill).1
  | purge item projectId =>
    refine h.record ?_ (fun key hkey hnew => absurd hkey hnew) ?_
    · intro key hkey
      refine (named_purge hkey).imp_right fun hmem => ?_
      exact Finset.mem_union_right _ (List.mem_toFinset.mpr hmem)
    · intro key hmem hnot
      exact absurd (Finset.mem_union_left _ hmem) hnot
  | removeObject key =>
    refine h.record (fun _ hkey => .inl hkey) ?_ ?_
    · intro key' hkey hnew
      exact absurd (Finset.mem_of_mem_erase hkey) hnew
    · intro key' hmem hnot hkey
      exact absurd (Finset.mem_erase.mpr ⟨Finset.ne_of_mem_erase hkey, hmem⟩) hnot

theorem covered_run (hdb : ∀ key ∈ db.objects, db.named key = true)
    (labels : List (Label Request Choice)) (hhanded : service.Admits Handed (initial db) labels) :
    Covered (service.run (initial db) labels).world := by
  refine service.admitted_run (P := fun _ {_} _ => True) (I := Covered)
    (fun request => Prog.only_true _) ?_ (Service.attributed_initial db) ?_ labels hhanded
  · intro n w w' hstep hhanded hw
    cases hstep with
    | void => exact hw
    | began i request
    | answered i request answer hbegan => exact hw.plain (fun _ => rfl) (fun _ hkey => hkey) rfl
    | issued i request stmt choice hbegan hmay =>
      have hperform : service.perform i stmt choice w =
          w.record i (.ran stmt (stmt.exec choice w.state).1) (stmt.exec choice w.state).2 := rfl
      rw [hperform] at hhanded ⊢
      unfold Stmt.exec at hhanded ⊢
      cases hfails : choice.fails with
      | true =>
        simp only [hfails, if_true] at hhanded ⊢
        exact covered_failed hw stmt choice.leaves hhanded
      | false =>
        simp only [Bool.false_eq_true, if_false]
        exact covered_done hw i stmt choice.now
  · intro key hkey
    exact .inl (hdb key hkey)

/-! ### Requests that have answered -/

/-- A request that has answered holds nothing. -/
def Told (request : Request) (events : List BlobEvent) : Prop :=
  (∃ answer, .answered request answer ∈ events) → holds events = ∅

/-- A request that has not answered and holds at most these keys. -/
structure Working (request : Request) (keys : List StorageKey) (events : List BlobEvent) : Prop where
  unanswered : ∀ answer, .answered request answer ∉ events
  within : ∀ key ∈ holds events, key ∈ keys

section Tells

variable {request : Request} {keys : List StorageKey} {events : List BlobEvent}

theorem Working.told (h : Working request keys events) : Told request events := by
  rintro ⟨answer, hanswer⟩
  exact absurd hanswer (h.unanswered answer)

theorem Working.ran (h : Working request keys events) {β : Type} {stmt : Stmt β} {result : β}
    {rest : List StorageKey}
    (hrest : ∀ key ∈ taking (.ran stmt result) (holds events), key ∈ rest) :
    Working request rest (.ran stmt result :: events) := by
  refine ⟨?_, hrest⟩
  intro answer hanswer
  rcases List.mem_cons.mp hanswer with heq | hold
  · cases heq
  · exact h.unanswered answer hold

theorem Working.answered (h : Working request [] events) (answer : Except Problem Answer) :
    Told request (.answered request answer :: events) := by
  intro _
  show holds events = ∅
  rw [Finset.eq_empty_iff_forall_notMem]
  intro key hkey
  exact List.not_mem_nil (h.within key hkey)

/-- A part of a handler that leaves the request with nothing on its hands. -/
abbrev Finishes {α : Type} (request : Request) (p : Handler α) (events : List BlobEvent) : Prop :=
  Recounts (Told request) p (fun _ => Working request []) (fun _ => Working request []) events

theorem finishes_storeAndRecord {ctx : Context} {received : Received} {targetType : TargetType}
    {targetId : Uuid} {kind : Option String} (h : Working request [] events) :
    Finishes request (storeAndRecord ctx received targetType targetId kind) events := by
  have hstored : Working request [shardKey received.sha256]
      (.ran (.putFile (shardKey received.sha256)) (.ok ()) :: events) := by
    refine h.ran fun key hkey => ?_
    rcases Finset.mem_insert.mp hkey with rfl | hheld
    · exact List.mem_cons_self
    · exact absurd (h.within key hheld) List.not_mem_nil
  have hfailed : ∀ e, Working request []
      (.ran (.putFile (shardKey received.sha256)) (.error e) :: events) :=
    fun e => h.ran h.within
  unfold storeAndRecord
  refine recounts_bind (S := fun _ => Working request [shardKey received.sha256])
    (recounts_orRefuse ?_ (fun _ => hstored) hfailed) ?_
  · intro result
    cases result with
    | error e => exact (hfailed e).told
    | ok _ => exact hstored.told
  · intro _ events h
    have hcreated : ∀ result : Except Failure Attachment, Working request []
        (.ran (.create ⟨ctx.projectId, targetType, targetId, ctx.actorId, received.filename,
          received.contentType, received.size, received.sha256, shardKey received.sha256, kind⟩)
          result :: events) := by
      intro result
      refine h.ran fun key hkey => ?_
      obtain ⟨hne, hheld⟩ := Finset.mem_erase.mp hkey
      exact absurd (List.mem_singleton.mp (h.within key hheld)) hne
    refine recounts_bind (recounts_orRefuse (fun result => (hcreated result).told)
      (fun row => hcreated (.ok row)) fun e => hcreated (.error e)) ?_
    intro row events h
    exact recounts_pure h

theorem finishes_removeObjects (h : Working request keys events) :
    Finishes request (removeObjects keys) events := by
  induction keys generalizing events with
  | nil => exact recounts_pure h
  | cons key keys ih =>
    have hremoved : ∀ result : Except Failure Unit,
        Working request keys (.ran (.removeObject key) result :: events) := by
      intro result
      refine h.ran fun key' hkey => ?_
      obtain ⟨hne, hheld⟩ := Finset.mem_erase.mp hkey
      exact (List.mem_cons.mp (h.within key' hheld)).resolve_left hne
    unfold removeObjects
    refine recounts_bind (S := fun _ => Working request keys)
      (recounts_attempted fun result => ⟨(hremoved result).told, hremoved result⟩) ?_
    intro result events h
    refine recounts_bind (ih h) ?_
    intro purged events h
    exact recounts_pure h

theorem finishes_runGc {cutoff : Timestamp} (h : Working request [] events) :
    Finishes request (runGc cutoff) events := by
  have hdeleted : ∀ result : Except Failure (List StorageKey),
      Working request (result.toOption.getD []) (.ran (.deleteExpired cutoff) result :: events) := by
    intro result
    refine h.ran fun key hkey => ?_
    cases result with
    | error e => exact h.within key hkey
    | ok removed =>
      rcases Finset.mem_union.mp hkey with hheld | hnew
      · exact absurd (h.within key hheld) List.not_mem_nil
      · exact List.mem_toFinset.mp hnew
  unfold runGc
  refine recounts_bind (S := fun result => Working request (result.toOption.getD []))
    (recounts_attempted fun result => ⟨(hdeleted result).told, hdeleted result⟩) ?_
  intro result events h
  cases result with
  | error e => exact recounts_pure h
  | ok removed =>
    have hkeys : Working request (Db.distinct removed) events :=
      ⟨h.unanswered, fun key hkey => mem_distinct.mpr (h.within key hkey)⟩
    dsimp only
    by_cases hempty : (Db.distinct removed).isEmpty = true
    · rw [if_pos hempty]
      rw [List.isEmpty_iff.mp hempty] at hkeys
      exact recounts_pure hkeys
    · rw [if_neg hempty]
      have hasked : ∀ still : Except Failure (List StorageKey),
          Working request (match still with
            | .ok still => (Db.distinct removed).filter fun key => !still.contains key
            | .error _ => []) (.ran (.stillReferenced (Db.distinct removed)) still :: events) := by
        intro still
        refine hkeys.ran fun key hkey => ?_
        cases still with
        | error e =>
          obtain ⟨hheld, hnot⟩ := Finset.mem_sdiff.mp hkey
          exact absurd (List.mem_toFinset.mpr (hkeys.within key hheld)) hnot
        | ok still =>
          obtain ⟨hheld, hnot⟩ := Finset.mem_sdiff.mp hkey
          refine List.mem_filter.mpr ⟨hkeys.within key hheld, ?_⟩
          simpa using hnot
      refine recounts_bind (S := fun still => Working request (match still with
            | .ok still => (Db.distinct removed).filter fun key => !still.contains key
            | .error _ => []))
        (recounts_attempted fun still => ⟨(hasked still).told, hasked still⟩) ?_
      intro still events h
      cases still with
      | error e => exact recounts_pure h
      | ok still =>
        refine recounts_bind (finishes_removeObjects h) ?_
        intro purged events h
        exact recounts_pure h

theorem finishes_purgeItems {item : TargetType} {ctx : Context} (h : Working request [] events) :
    Finishes request (purgeItems item ctx) events := by
  have hpurged : ∀ result : Except Failure (Nat × List StorageKey),
      Working request ((result.toOption.getD (0, [])).2)
        (.ran (.purge item ctx.projectId) result :: events) := by
    intro result
    refine h.ran fun key hkey => ?_
    cases result with
    | error e => exact h.within key hkey
    | ok purged =>
      rcases Finset.mem_union.mp hkey with hheld | hnew
      · exact absurd (h.within key hheld) List.not_mem_nil
      · exact List.mem_toFinset.mp hnew
  unfold purgeItems require
  refine recounts_bind (S := fun _ later => later = events)
    (recounts_refuseUnless (fun _ => rfl) fun _ => h) ?_
  rintro _ later rfl
  refine recounts_bind (S := fun purged => Working request purged.2)
    (recounts_orRefuse (fun result => (hpurged result).told) (fun purged => hpurged (.ok purged))
      fun e => hpurged (.error e)) ?_
  intro purged events h
  refine recounts_bind (finishes_removeObjects h) ?_
  intro count events h
  exact recounts_pure h

/-- A statement that takes nothing on. -/
def Stmt.plain {β : Type} (stmt : Stmt β) : Prop :=
  ∀ result held, taking (.ran stmt result) held = held

theorem finishes_of_plain {α : Type} {p : Handler α} (hp : p.run.Only Stmt.plain)
    (h : Working request [] events) : Finishes request p events := by
  refine recounts_only ?_ hp h
  intro β stmt result events hstmt h
  have hlater : Working request [] (.ran stmt result :: events) := by
    refine h.ran fun key hkey => ?_
    rw [hstmt] at hkey
    exact h.within key hkey
  exact ⟨hlater.told, hlater⟩

theorem only_delete (ctx : Context) (id : Uuid) :
    (Attachments.delete ctx id).run.Only Stmt.plain := by
  unfold Attachments.delete require
  refine only_run_bind (only_attempted fun _ _ => rfl) fun existing => ?_
  refine only_run_bind (only_refuseUnless _ _) fun _ => ?_
  refine only_run_bind (only_orRefuse (fun _ _ => rfl) _) fun _ => ?_
  exact only_run_bind (only_refuseUnless _ _) fun _ => only_run_pure _

theorem only_deleteForTarget (targetType : TargetType) (targetId : Uuid) :
    (deleteForTarget targetType targetId).run.Only Stmt.plain := by
  unfold deleteForTarget
  exact only_run_bind (only_orRefuse (fun _ _ => rfl) _) fun _ => only_run_pure _

theorem finishes_handler (h : Working request [] events) :
    Finishes request request.handler events := by
  cases request with
  | delete ctx id => exact finishes_of_plain (only_delete ctx id) h
  | deleteForTarget targetType targetId =>
    exact finishes_of_plain (only_deleteForTarget targetType targetId) h
  | gc cutoff => exact finishes_runGc h
  | purgeIssues ctx | purgeEpics ctx => exact finishes_purgeItems h
  | upload ctx entity targetId file =>
    show Finishes _ (Attachments.upload ctx entity targetId file) events
    unfold Attachments.upload require
    refine recounts_bind (S := fun _ => Working _ [])
      (recounts_refuseUnless (fun _ => h) fun _ => h) ?_
    intro _ events h
    cases entityTarget entity with
    | none => exact recounts_throw h
    | some targetType =>
      refine recounts_bind (S := fun _ => Working _ [])
        (recounts_given (fun _ _ => h) fun _ _ => h) ?_
      intro received events h
      exact finishes_storeAndRecord h
  | uploadArtifact ctx meetingId file =>
    show Finishes _ (Attachments.uploadArtifact ctx meetingId file) events
    unfold Attachments.uploadArtifact require
    refine recounts_bind (S := fun _ => Working _ [])
      (recounts_refuseUnless (fun _ => h) fun _ => h) ?_
    intro _ events h
    refine recounts_bind (S := fun _ => Working _ [])
      (recounts_given (fun _ _ => h) fun _ _ => h) ?_
    intro received events h
    exact finishes_storeAndRecord h

theorem tellsAll_told : service.TellsAll Told := by
  intro request
  have hbegan : Working request [] [.began request] := by
    refine ⟨?_, ?_⟩
    · intro answer hanswer
      rw [List.mem_singleton] at hanswer
      cases hanswer
    · intro key hkey
      exact absurd hkey (Finset.notMem_empty key)
  refine ⟨hbegan.told, Prog.Tells.post (finishes_handler hbegan) ?_⟩
  rintro (problem | answer) events h
  · exact Working.answered h _
  · exact Working.answered h _

end Tells

/-! ## Runs -/

/-- Every request that has been started has answered. -/
def Quiet (cfg : Config Stmt Db Request (Except Problem Answer)) : Prop :=
  ∀ (i : Nat) (thread : Thread Stmt Request (Except Problem Answer)),
    cfg.threads[i]? = some thread → thread.answer.isSome = true

/-- Every object has a row. -/
def Collected (db : Db) : Prop := ∀ key ∈ db.objects, db.named key = true

theorem holds_of_quiet {labels : List (Label Request Choice)}
    (hquiet : Quiet (service.run (initial db) labels)) (i : Nat) :
    holds ((service.run (initial db) labels).world.own i) = ∅ := by
  rcases List.eq_nil_or_concat ((service.run (initial db) labels).world.own i) with hnil | hsome
  · rw [hnil]
    rfl
  · -- a request with an event is that of a thread, which has answered
    obtain ⟨events, event, hevents⟩ := hsome
    have hevent : (i, event) ∈ (service.run (initial db) labels).world.log := by
      refine World.mem_own.mp ?_
      rw [hevents, List.concat_eq_append]
      exact List.mem_append_right _ List.mem_cons_self
    have hi := service.started_run (Service.started_initial db) labels _ hevent
    have hthread := List.getElem?_eq_getElem hi
    obtain ⟨answer, hanswer⟩ := Option.isSome_iff_exists.mp (hquiet i _ hthread)
    have hlog := service.traced_run (Service.traced_initial db) labels i _ answer
      ⟨_, hthread.trans (by rw [← hanswer])⟩
    exact service.own_run tellsAll_told db labels i _ hthread ⟨answer, World.mem_own.mpr hlog⟩

theorem quiet_of_all {cfg : Config Stmt Db Request (Except Problem Answer)}
    (h : cfg.threads.all (fun thread => thread.answer.isSome) = true) : Quiet cfg :=
  fun _ _ hthread => List.all_eq_true.mp h _ (List.mem_of_getElem? hthread)

def member : Context := ⟨1, 7, [.attachmentCreate, .attachmentDelete]⟩

def notes : Received := ⟨"notes.txt", 3, "a1b2", "application/octet-stream"⟩

/-- A file is attached to issue 5. -/
def attached : List (Label Request Choice) :=
  [.start (.upload member "issues" 5 (.ok notes)), .run 0 {}, .run 0 {}, .run 0 {}]

/-- The attachment is deleted, and collected later on. -/
def collected : List (Label Request Choice) :=
  attached ++ [.start (.delete member 1), .run 1 {}, .run 1 { now := 1 }, .run 1 {},
    .start (.gc 10), .run 2 {}, .run 2 {}, .run 2 {}, .run 2 {}]

/-- No step of the run failed. -/
def nothingDropped (_w w' : BlobWorld) : Bool :=
  match w'.log with
  | (_, event) :: _ => (dropped event).isEmpty
  | [] => true

theorem handed_of_nothingDropped (n : Nat) (w w' : BlobWorld) (h : nothingDropped w w' = true) :
    Handed n w w' := by
  intro i event hlog key hkey
  rw [nothingDropped, hlog] at h
  rw [List.isEmpty_iff.mp h] at hkey
  exact absurd hkey List.not_mem_nil

/-- The same file is attached again after the collector has found no row and before it
removes the object. -/
def raced : List (Label Request Choice) :=
  attached ++ [.start (.delete member 1), .run 1 {}, .run 1 { now := 1 }, .run 1 {},
    .start (.gc 10), .run 2 {}, .run 2 {},
    .start (.upload member "issues" 5 (.ok notes)), .run 3 {}, .run 3 {}, .run 3 {},
    .run 2 {}, .run 2 {}]

/-- The insert of an upload fails, and a collection follows. -/
def unrecorded : List (Label Request Choice) :=
  [.start (.upload member "issues" 5 (.ok notes)), .run 0 {}, .run 0 { fails := true }, .run 0 {},
    .start (.gc 10), .run 1 {}, .run 1 {}]

end IntelliPilot.Attachments
