import IntelliPilot.Issues.EntityTags
import IntelliPilot.Meetings.Handlers

/-! # Versions of meetings

Every change of a meeting or of its links raises its version, except its
deletion, after which nothing is written. So a save that finds the version that
its request has read finds the meeting that it has read.
-/

namespace IntelliPilot.Meetings

open Http Statement
open Issues (etag checkIfMatch Carries)

abbrev MeetingEvent := Event Stmt Request (Except Problem Answer)

abbrev MeetingWorld := World Stmt Db Request (Except Problem Answer)

/-! ## What the statements do -/

/-- A row has got a higher version, or it is the same but for its deletion. -/
def Raises (row row' : MeetingRow) : Prop :=
  row.version < row'.version ∨ row' = row ∨ row' = { row with deleted := true }

variable {row : MeetingRow} {row' : MeetingRow}

theorem Raises.version_le (h : Raises row row') : row.version ≤ row'.version := by
  rcases h with hlt | rfl | rfl
  · exact hlt.le
  · exact le_rfl
  · exact le_rfl

/-- At the same version and not deleted, it is the same row. -/
theorem Raises.eq (h : Raises row row') (hversion : row'.version = row.version)
    (hlive : row'.deleted = false) : row' = row := by
  rcases h with hlt | heq | rfl
  · omega
  · exact heq
  · contradiction

/-- Once deleted, a row of the same version stays deleted. -/
theorem Raises.deleted (h : Raises row row') (hversion : row'.version = row.version)
    (hdeleted : row.deleted = true) : row'.deleted = true := by
  rcases h with hlt | rfl | rfl
  · omega
  · exact hdeleted
  · rfl

theorem Raises.trans {row'' : MeetingRow} (h : Raises row row') (h' : Raises row' row'') :
    Raises row row'' := by
  rcases h with hlt | rfl | rfl
  · exact .inl (hlt.trans_le h'.version_le)
  · exact h'
  · rcases h' with hlt | rfl | rfl
    · exact .inl hlt
    · exact .inr (.inr rfl)
    · exact .inr (.inr rfl)

/-- No meeting goes, and each is the same with its links while its version is. -/
def Grows (db later : Db) : Prop :=
  ∀ id row, db.meetings.find? id = some row → ∃ row', later.meetings.find? id = some row' ∧
    Raises row row' ∧ (row'.version = row.version → later.linksOf id = db.linksOf id)

theorem Grows.refl (db : Db) : Grows db db :=
  fun _ row hrow => ⟨row, hrow, .inr (.inl rfl), fun _ => rfl⟩

theorem Grows.trans {a b c : Db} (hab : Grows a b) (hbc : Grows b c) : Grows a c := by
  intro id row hrow
  obtain ⟨row', hrow', hraises, hlinks⟩ := hab id row hrow
  obtain ⟨row'', hrow'', hraises', hlinks'⟩ := hbc id row' hrow'
  refine ⟨row'', hrow'', hraises.trans hraises', ?_⟩
  intro hversion
  have hfirst := hraises.version_le
  have hsecond := hraises'.version_le
  rw [hlinks' (by omega), hlinks (by omega)]

variable {db later : Db} {projectId id : Uuid}

theorem get_eq_some_iff : db.get projectId id = some row ↔
    db.meetings.find? id = some row ∧ row.projectId = projectId ∧ row.deleted = false := by
  simp [Db.get, Option.filter_eq_some_iff]

/-- An update of one row that raises its version or deletes it. -/
theorem grows_modify {f : MeetingRow → MeetingRow}
    (hraises : ∀ row, row.version < (f row).version ∨ f row = { row with deleted := true })
    (hrows : ∃ hf, later.meetings = db.meetings.modify (·.id == id) f hf)
    (hlinks : ∀ row, db.meetings.find? id = some row → (f row).version = row.version →
      later.linksOf id = db.linksOf id)
    (hothers : ∀ other, other ≠ id → later.linksOf other = db.linksOf other) : Grows db later := by
  intro other row hrow
  have hid := Table.key_of_find? hrow
  obtain ⟨hf, hrows⟩ := hrows
  rw [hrows, Table.find?_modify, hrow, Option.map_some]
  by_cases hsame : other = id
  · rw [if_pos (by simp [hid, hsame])]
    refine ⟨f row, rfl, (hraises row).imp_right .inr, ?_⟩
    rw [hsame] at hrow ⊢
    exact hlinks row hrow
  · rw [if_neg (by simp [hid, hsame])]
    exact ⟨row, rfl, .inr (.inl rfl), fun _ => hothers other hsame⟩

/-- The set of one kind that is given. -/
def MeetingLinks.of (links : MeetingLinks) : LinkKind → Option (List Uuid)
  | .participants => links.participantIds
  | .issues => links.issueIds
  | .epics => links.epicIds
  | .customers => links.customerIds

variable {link : Link}

theorem mem_replaceSet {table : Finset Link} {kind : LinkKind} {given : Option (List Uuid)} :
    link ∈ Db.replaceSet id table (kind, given) ↔
      if link.meetingId = id ∧ link.kind = kind ∧ given.isSome then link.target ∈ given.getD []
      else link ∈ table := by
  cases given with
  | none => simp [Db.replaceSet]
  | some ids =>
    obtain ⟨linkKind, meetingId, target⟩ := link
    by_cases hown : meetingId = id ∧ linkKind = kind
    · obtain ⟨rfl, rfl⟩ := hown
      simp [Db.replaceSet]
    · have hnew : ¬ ∃ t ∈ ids, Link.mk kind id t = ⟨linkKind, meetingId, target⟩ := by
        rintro ⟨t, -, heq⟩
        cases heq
        exact hown ⟨rfl, rfl⟩
      have hkept : ¬ (linkKind = kind ∧ meetingId = id) := fun h => hown h.symm
      simp only [Db.replaceSet, Finset.mem_union, Finset.mem_filter, List.mem_toFinset,
        List.mem_map, hnew, hkept, not_false_eq_true, and_true, or_false]
      rw [if_neg (fun h => hown ⟨h.1, h.2.1⟩)]

variable {links : MeetingLinks}

/-- The links after a replacement: the sets that are given, and what was there of the others. -/
theorem mem_replaceLinks {table : Finset Link} :
    link ∈ Db.replaceLinks id links table ↔
      if link.meetingId = id ∧ (links.of link.kind).isSome then
        link.target ∈ (links.of link.kind).getD []
      else link ∈ table := by
  simp only [Db.replaceLinks, MeetingLinks.sets, List.foldl_cons, List.foldl_nil, mem_replaceSet]
  obtain ⟨kind, meetingId, target⟩ := link
  cases kind <;> simp [MeetingLinks.of] <;> rfl

theorem mem_linksOf : link ∈ db.linksOf id ↔ link ∈ db.links ∧ link.meetingId = id := by
  simp [Db.linksOf]

theorem linksOf_replaceLinks_of_ne {other : Uuid} (hne : other ≠ id)
    (hlinks : later.links = Db.replaceLinks id links db.links) :
    later.linksOf other = db.linksOf other := by
  ext link
  rw [mem_linksOf, mem_linksOf, hlinks, mem_replaceLinks]
  apply and_congr_left
  rintro rfl
  rw [if_neg fun h => hne h.1]

variable {live : LinkKind → Uuid → Bool} {outcome : UpdateOutcome}

/-- What a successful update finds and leaves. -/
theorem update_eq_ok {expectedVersion : Nat} {patch : MeetingPatch}
    (h : db.update projectId id expectedVersion patch links live = .ok (outcome, later)) :
    (later = db ∧ ∀ meeting, outcome ≠ .updated meeting) ∨
      ∃ row times, db.get projectId id = some row ∧ row.version = expectedVersion ∧
        Db.timesAfter patch row.times = some times ∧
        (∃ hf, later.meetings = db.meetings.modify (·.id == id) (Db.patched patch times) hf) ∧
        later.links = Db.replaceLinks id links db.links ∧
        outcome = .updated (later.shown live (Db.patched patch times row)) := by
  unfold Db.update at h
  cases hget : db.get projectId id with
  | none =>
    rw [hget] at h
    cases h
    exact .inl ⟨rfl, fun _ heq => by contradiction⟩
  | some row =>
    rw [hget] at h
    dsimp only at h
    by_cases hversion : row.version = expectedVersion
    · rw [if_neg (not_not.mpr hversion)] at h
      cases htimes : Db.timesAfter patch row.times with
      | none =>
        rw [htimes] at h
        contradiction
      | some times =>
        rw [htimes] at h
        cases h
        exact .inr ⟨row, times, rfl, hversion, htimes, ⟨fun _ => rfl, rfl⟩, rfl, rfl⟩
    · rw [if_pos hversion] at h
      cases h
      exact .inl ⟨rfl, fun _ heq => by contradiction⟩

theorem grows_update {expectedVersion : Nat} {patch : MeetingPatch}
    (h : db.update projectId id expectedVersion patch links live = .ok (outcome, later)) :
    Grows db later := by
  rcases update_eq_ok h with ⟨rfl, -⟩ | ⟨row, times, -, -, -, hrows, hlinks, -⟩
  · exact Grows.refl _
  · refine grows_modify (fun row => .inl (Nat.lt_succ_self _)) hrows ?_ ?_
    · intro row _ hversion
      exact absurd hversion (Nat.succ_ne_self _)
    · intro other hne
      exact linksOf_replaceLinks_of_ne hne hlinks

theorem grows_create {createdBy : Uuid} {new : MeetingNew}
    (h : db.create projectId createdBy new links = .ok (row, later)) : Grows db later := by
  unfold Db.create at h
  cases htimes : Times.of? new.startTime new.endTime with
  | none =>
    rw [htimes] at h
    contradiction
  | some times =>
    rw [htimes] at h
    cases h
    intro id old hold
    have hne : id ≠ db.meetings.fresh := by
      rintro rfl
      rw [db.meetings.find?_fresh] at hold
      contradiction
    refine ⟨old, ?_, .inr (.inl rfl), fun _ => linksOf_replaceLinks_of_ne hne rfl⟩
    rw [Table.find?_insert, if_neg hne]
    exact hold

theorem grows_setText {transcript summary : Option String} :
    Grows db (db.setText projectId id transcript summary).2 := by
  unfold Db.setText
  cases db.get projectId id with
  | none => exact Grows.refl _
  | some row =>
    refine grows_modify (f := Db.withText transcript summary)
      (fun row => .inl (Nat.lt_succ_self _)) ⟨fun _ => rfl, rfl⟩ ?_ fun _ _ => rfl
    intro row _ hversion
    exact absurd hversion (Nat.succ_ne_self _)

theorem grows_softDelete : Grows db (db.softDelete projectId id).2 := by
  unfold Db.softDelete
  cases db.get projectId id with
  | none => exact Grows.refl _
  | some row => exact grows_modify (fun row => .inr rfl) ⟨fun _ => rfl, rfl⟩ (fun _ _ _ => rfl) fun _ _ => rfl

theorem grows_toggleLink {kind : LinkKind} {target : Uuid} {add : Bool} :
    Grows db (db.toggleLink projectId id kind target add live).2 := by
  unfold Db.toggleLink
  cases db.get projectId id with
  | none => exact Grows.refl _
  | some row =>
    have hothers : ∀ other, other ≠ id →
        Db.linksOf ⟨db.meetings, if add then insert ⟨kind, id, target⟩ db.links
          else db.links.erase ⟨kind, id, target⟩⟩ other = db.linksOf other := by
      intro other hne
      ext link
      rw [mem_linksOf, mem_linksOf]
      apply and_congr_left
      rintro rfl
      have hlink : link ≠ ⟨kind, id, target⟩ := fun heq => hne (by rw [heq])
      cases add with
      | true => exact Finset.mem_insert.trans (or_iff_right hlink)
      | false => exact Finset.mem_erase.trans (and_iff_right hlink)
    dsimp only
    generalize (if add then insert ⟨kind, id, target⟩ db.links
      else db.links.erase ⟨kind, id, target⟩) = links at hothers ⊢
    by_cases hsame : links = db.links
    · rw [if_pos hsame]
      exact Grows.refl _
    · rw [if_neg hsame]
      refine grows_modify (f := Db.touched) (fun row => .inl (Nat.lt_succ_self _))
        ⟨fun _ => rfl, rfl⟩ ?_ hothers
      intro row _ hversion
      exact absurd hversion (Nat.succ_ne_self _)

theorem grows_exec {β : Type} (stmt : Stmt β) (choice : Choice) (db : Db) :
    Grows db (stmt.exec choice db).2 := by
  unfold Stmt.exec
  cases choice.fails with
  | true => exact Grows.refl db
  | false =>
    show Grows db (stmt.effect choice db).2
    cases stmt with
    | create pid createdBy new links =>
      unfold Stmt.effect
      dsimp only
      cases hcreate : db.create pid createdBy new links with
      | error e => exact Grows.refl db
      | ok result => exact grows_create hcreate
    | update pid id expectedVersion patch links =>
      unfold Stmt.effect
      dsimp only
      cases hupdate : db.update pid id expectedVersion patch links choice.live with
      | error e => exact Grows.refl db
      | ok result => exact grows_update hupdate
    | setText pid id transcript summary => exact grows_setText
    | toggleLink pid id kind target add => exact grows_toggleLink
    | softDelete pid id => exact grows_softDelete
    | timezoneExists tz | countTargets kind pid ids | get pid id | listFiles id
    | storeAndRecord id => exact Grows.refl db

end IntelliPilot.Meetings
