import IntelliPilot.Issues.Statements

/-! # The mirrored fix version

What the statements of the issue handlers do to the fix version of an issue: the
trigger of migration V022 sets the column to the first of the component
versions, whenever a statement changes these.
-/

namespace IntelliPilot.Issues

open Rows
open Imports (Uuid Catalog)

/-! ## The first version -/

namespace ReleaseVersion

theorem comesBefore_refl (a : ReleaseVersion) : a.comesBefore a := .inr ⟨rfl, Nat.le_refl _⟩

theorem comesBefore_trans {a b c : ReleaseVersion} (hab : a.comesBefore b)
    (hbc : b.comesBefore c) : a.comesBefore c := by
  rcases hab with hlt | ⟨heq, hle⟩
  · rcases hbc with hlt' | ⟨heq', -⟩
    · exact .inl (Nat.lt_trans hlt hlt')
    · exact .inl (heq' ▸ hlt)
  · rcases hbc with hlt' | ⟨heq', hle'⟩
    · exact .inl (heq ▸ hlt')
    · exact .inr ⟨heq.trans heq', Nat.le_trans hle hle'⟩

theorem comesBefore_total {a b : ReleaseVersion} (h : ¬ a.comesBefore b) : b.comesBefore a := by
  rcases Nat.lt_trichotomy a.order b.order with hlt | heq | hgt
  · exact absurd (.inl hlt) h
  · rcases Nat.le_total a.id b.id with hle | hge
    · exact absurd (.inr ⟨heq, hle⟩) h
    · exact .inr ⟨heq.symm, hge⟩
  · exact .inl hgt

end ReleaseVersion

/-- Comes first by order and id. -/
def IsFirst (version : ReleaseVersion) (versions : List ReleaseVersion) : Prop :=
  version ∈ versions ∧ ∀ other ∈ versions, version.comesBefore other

variable {versions : List ReleaseVersion}

theorem firstOf_eq_none (h : firstOf versions = none) : versions = [] := by
  cases versions with
  | nil => rfl
  | cons version rest =>
    rw [firstOf] at h
    split at h
    · contradiction
    · split at h
      · contradiction
      · contradiction

theorem isFirst_of_firstOf {version : ReleaseVersion} (h : firstOf versions = some version) :
    IsFirst version versions := by
  induction versions generalizing version with
  | nil => contradiction
  | cons head rest ih =>
    rw [firstOf] at h
    cases hrest : firstOf rest with
    | none =>
      rw [hrest] at h
      rw [firstOf_eq_none hrest, ← Option.some.inj h]
      exact ⟨List.mem_cons_self, by simpa using head.comesBefore_refl⟩
    | some best =>
      obtain ⟨hmem, hbest⟩ := ih hrest
      simp only [hrest] at h
      by_cases hhead : head.comesBefore best
      · rw [if_pos hhead] at h
        rw [← Option.some.inj h]
        refine ⟨List.mem_cons_self, ?_⟩
        intro other hother
        rcases List.mem_cons.mp hother with rfl | hother
        · exact other.comesBefore_refl
        · exact ReleaseVersion.comesBefore_trans hhead (hbest other hother)
      · rw [if_neg hhead] at h
        rw [← Option.some.inj h]
        refine ⟨List.mem_cons_of_mem _ hmem, ?_⟩
        intro other hother
        rcases List.mem_cons.mp hother with rfl | hother
        · exact ReleaseVersion.comesBefore_total hhead
        · exact hbest other hother

namespace Db

/-! ## The fix version of an issue -/

/-- The two columns of the fix version. -/
def fix (db : Db) (id : Uuid) : Option (Option Uuid × Option String) :=
  (db.issue? id).map fun issue => (issue.releaseVersionId, issue.releaseText)

/-- What the trigger sets the column to. -/
def mirrorOf (db : Db) (id : Uuid) : Option Uuid := (firstOf (db.versionsOf id)).map (·.id)

/-- The column is what the trigger sets it to. -/
def Mirrored (db : Db) (id : Uuid) : Prop := ∀ f ∈ db.fix id, f.1 = db.mirrorOf id

/-- The column follows the component versions, where there are any. -/
def Tracks (db : Db) (id : Uuid) : Prop := db.versionRows id ≠ [] → db.Mirrored id

/-- The keys of the component versions lead to rows. -/
structure Sound (db : Db) : Prop where
  versions : ∀ row ∈ db.componentVersions, (db.version? row.releaseVersionId).isSome
  issues : ∀ row ∈ db.componentVersions, (db.fix row.issueId).isSome
  assigned : ∀ row ∈ db.componentVersions, (row.issueId, row.componentId) ∈ db.issueComponents

variable {db : Db} {id : Uuid}

theorem mem_versionRows {row : VersionRow} :
    row ∈ db.versionRows id ↔ row ∈ db.componentVersions ∧ row.issueId = id := by
  simp [versionRows]

/-- An issue with component versions that the column follows has the first of them. -/
theorem Tracks.isFirst (htracks : db.Tracks id) (hsound : db.Sound)
    (hrows : db.versionRows id ≠ []) {issue : Issue} (hissue : db.issue? id = some issue) :
    ∃ version, IsFirst version (db.versionsOf id) ∧ issue.releaseVersionId = some version.id := by
  have hfix : db.fix id = some (issue.releaseVersionId, issue.releaseText) := by
    rw [fix, hissue]
    rfl
  have hcolumn : issue.releaseVersionId = db.mirrorOf id := htracks hrows _ hfix
  cases hfirst : firstOf (db.versionsOf id) with
  | some version =>
    refine ⟨version, isFirst_of_firstOf hfirst, ?_⟩
    rw [hcolumn, mirrorOf, hfirst]
    rfl
  | none =>
    obtain ⟨row, hrow⟩ := List.exists_mem_of_ne_nil _ hrows
    obtain ⟨version, hversion⟩ := Option.isSome_iff_exists.mp
      (hsound.versions row (mem_versionRows.mp hrow).1)
    have hmem : version ∈ db.versionsOf id := List.mem_filterMap.mpr ⟨row, hrow, hversion⟩
    rw [firstOf_eq_none hfirst] at hmem
    contradiction

variable {db' : Db}

theorem mirrorOf_congr (hrows : db'.versionRows id = db.versionRows id)
    (hversions : ∀ row ∈ db.versionRows id,
      db'.version? row.releaseVersionId = db.version? row.releaseVersionId) :
    db'.mirrorOf id = db.mirrorOf id := by
  rw [mirrorOf, mirrorOf, versionsOf, versionsOf, hrows, List.filterMap_congr hversions]

/-! ## The trigger -/

theorem issue?_updateIssues (p : Issue → Bool) (f : Issue → Issue)
    (hf : ∀ issue, (f issue).id = issue.id) (db : Db) (id : Uuid) :
    (db.updateIssues p f hf).issue? id = (db.issue? id).map fun issue =>
      if p issue then db.milestoneFromEpic (f issue) else issue :=
  Table.find?_modify db.issues p (fun issue => db.milestoneFromEpic (f issue)) hf id

theorem fix_updateIssues (p : Issue → Bool) (f : Issue → Issue)
    (hf : ∀ issue, (f issue).id = issue.id) (db : Db) (id : Uuid) :
    (db.updateIssues p f hf).fix id = (db.issue? id).map fun issue =>
      if p issue then ((f issue).releaseVersionId, (f issue).releaseText)
      else (issue.releaseVersionId, issue.releaseText) := by
  rw [fix, issue?_updateIssues, Option.map_map]
  apply Option.map_congr
  intro issue _
  simp only [Function.comp_apply]
  split
  · rfl
  · rfl

theorem fix_mirror (i id : Uuid) (db : Db) : (db.mirror i).fix id =
    if id = i then (db.fix id).map fun f => (db.mirrorOf id, f.2) else db.fix id := by
  rw [mirror, fix_updateIssues, fix]
  by_cases hid : id = i
  · rw [if_pos hid, Option.map_map]
    subst hid
    apply Option.map_congr
    intro issue hissue
    have hkey : issue.id = id := Table.key_of_find? hissue
    by_cases hsame : issue.releaseVersionId = (firstOf (db.versionsOf id)).map (·.id)
    · simp [hkey, hsame, mirrorOf]
    · simp [hkey, hsame, mirrorOf]
  · rw [if_neg hid]
    apply Option.map_congr
    intro issue hissue
    have hkey : issue.id = id := Table.key_of_find? hissue
    simp [hkey, hid]

/-- The trigger for several rows. -/
def mirrorAll (ids : List Uuid) (db : Db) : Db := ids.foldl (fun db id => db.mirror id) db

theorem mirrorAll_eq (ids : List Uuid) (db : Db) :
    mirrorAll ids db = { db with issues := (mirrorAll ids db).issues } := by
  unfold mirrorAll
  induction ids generalizing db with
  | nil => rfl
  | cons id ids ih =>
    rw [List.foldl_cons, ih]
    rfl

theorem fix_mirrorAll (ids : List Uuid) (id : Uuid) (db : Db) : (mirrorAll ids db).fix id =
    if id ∈ ids then (db.fix id).map fun f => (db.mirrorOf id, f.2) else db.fix id := by
  unfold mirrorAll
  induction ids generalizing db with
  | nil => simp
  | cons i ids ih =>
    have hmirror : (db.mirror i).mirrorOf id = db.mirrorOf id := mirrorOf_congr rfl fun _ _ => rfl
    rw [List.foldl_cons, ih, hmirror, fix_mirror]
    by_cases hid : id = i
    · simp [hid, Function.comp_def]
    · simp [hid]

theorem deleteVersionRows_eq (p : VersionRow → Bool) (db : Db) : db.deleteVersionRows p =
    mirrorAll ((db.componentVersions.filter p).map (·.issueId))
      { db with componentVersions := deleteWhere p db.componentVersions } := by
  rw [deleteVersionRows, mirrorAll, List.foldl_map]

theorem deleteVersionRows_only (p : VersionRow → Bool) (db : Db) : db.deleteVersionRows p =
    { db with
      componentVersions := deleteWhere p db.componentVersions
      issues := (db.deleteVersionRows p).issues } := by
  rw [deleteVersionRows_eq, mirrorAll_eq]

theorem deleteVersionRows_catalog (p : VersionRow → Bool) (db : Db) :
    (db.deleteVersionRows p).catalog = db.catalog := by
  rw [deleteVersionRows_only]

theorem deleteVersionRows_versions (p : VersionRow → Bool) (db : Db) :
    (db.deleteVersionRows p).releaseVersions = db.releaseVersions := by
  rw [deleteVersionRows_only]

theorem deleteVersionRows_components (p : VersionRow → Bool) (db : Db) :
    (db.deleteVersionRows p).issueComponents = db.issueComponents := by
  rw [deleteVersionRows_only]

theorem deleteVersionRows_rows (p : VersionRow → Bool) (db : Db) :
    (db.deleteVersionRows p).componentVersions = deleteWhere p db.componentVersions := by
  rw [deleteVersionRows_only]

theorem versionRows_deleteVersionRows (p : VersionRow → Bool) (db : Db) (id : Uuid) :
    (db.deleteVersionRows p).versionRows id = (db.versionRows id).filter fun row => !p row := by
  rw [versionRows, deleteVersionRows_rows, versionRows, deleteWhere, List.filter_filter,
    List.filter_filter]
  apply List.filter_congr
  intro row _
  exact Bool.and_comm _ _

/-- The column is mirrored where a row of the issue goes, and stays elsewhere. -/
theorem fix_deleteVersionRows (p : VersionRow → Bool) (db : Db) (id : Uuid) :
    (db.deleteVersionRows p).fix id = if (db.versionRows id).any p then
        (db.fix id).map fun f => ((db.deleteVersionRows p).mirrorOf id, f.2)
      else db.fix id := by
  have hmem : id ∈ (db.componentVersions.filter p).map (·.issueId) ↔
      (db.versionRows id).any p = true := by
    simp only [List.mem_map, List.mem_filter, List.any_eq_true, mem_versionRows]
    constructor
    · rintro ⟨row, ⟨hrow, hp⟩, hid⟩
      exact ⟨row, ⟨hrow, hid⟩, hp⟩
    · rintro ⟨row, ⟨hrow, hid⟩, hp⟩
      exact ⟨row, ⟨hrow, hp⟩, hid⟩
  have hmirror : (db.deleteVersionRows p).mirrorOf id =
      mirrorOf { db with componentVersions := deleteWhere p db.componentVersions } id := by
    rw [deleteVersionRows_only]
    rfl
  rw [hmirror, deleteVersionRows_eq, fix_mirrorAll]
  by_cases hany : (db.versionRows id).any p = true
  · rw [if_pos (hmem.mpr hany), if_pos hany]
    rfl
  · rw [if_neg fun h => hany (hmem.mp h), if_neg hany]
    rfl

theorem mirrored_deleteVersionRows {p : VersionRow → Bool} (h : (db.versionRows id).any p = true) :
    (db.deleteVersionRows p).Mirrored id := by
  intro f hf
  rw [fix_deleteVersionRows, if_pos h] at hf
  obtain ⟨old, -, rfl⟩ := Option.map_eq_some_iff.mp hf
  rfl

theorem isSome_fix_deleteVersionRows (p : VersionRow → Bool) (db : Db) (id : Uuid) :
    ((db.deleteVersionRows p).fix id).isSome = (db.fix id).isSome := by
  rw [fix_deleteVersionRows]
  split
  · rw [Option.isSome_map]
  · rfl

theorem sound_deleteVersionRows (p : VersionRow → Bool) (hsound : db.Sound) :
    (db.deleteVersionRows p).Sound := by
  have hold : ∀ row ∈ (db.deleteVersionRows p).componentVersions, row ∈ db.componentVersions := by
    rw [deleteVersionRows_rows]
    exact fun row hrow => (mem_deleteWhere.mp hrow).1
  refine ⟨?_, ?_, ?_⟩
  · intro row hrow
    rw [version?, deleteVersionRows_versions]
    exact hsound.versions row (hold row hrow)
  · intro row hrow
    rw [isSome_fix_deleteVersionRows]
    exact hsound.issues row (hold row hrow)
  · intro row hrow
    rw [deleteVersionRows_components]
    exact hsound.assigned row (hold row hrow)

/-! ## Replacing an issue's sets -/

/-- What the replacement of one of an issue's sets does: it leaves the other
issues alone, and the issue's own component versions stay with the column as it
is or are followed by it. -/
structure Rewrites (id : Uuid) (db db' : Db) : Prop where
  catalog : db'.catalog = db.catalog
  versions : db'.releaseVersions = db.releaseVersions
  sound : db.Sound → db'.Sound
  rows : ∀ other, other ≠ id → db'.versionRows other = db.versionRows other
  fix : ∀ other, other ≠ id → db'.fix other = db.fix other
  text : (db'.fix id).map (·.2) = (db.fix id).map (·.2)
  own : db'.versionRows id = db.versionRows id ∧ db'.fix id = db.fix id ∨ db'.Mirrored id

theorem Rewrites.version? (h : Rewrites id db db') {rows : List VersionRow} :
    ∀ row ∈ rows, db'.version? row.releaseVersionId = db.version? row.releaseVersionId := by
  intro row _
  rw [Db.version?, Db.version?, h.versions]

theorem Rewrites.refl (id : Uuid) (db : Db) : Rewrites id db db :=
  ⟨rfl, rfl, fun h => h, fun _ _ => rfl, fun _ _ => rfl, rfl, .inl ⟨rfl, rfl⟩⟩

theorem Rewrites.trans {a b c : Db} (hab : Rewrites id a b) (hbc : Rewrites id b c) :
    Rewrites id a c := by
  refine ⟨hbc.catalog.trans hab.catalog, hbc.versions.trans hab.versions,
    fun h => hbc.sound (hab.sound h), ?_, ?_, hbc.text.trans hab.text, ?_⟩
  · exact fun other hother => (hbc.rows other hother).trans (hab.rows other hother)
  · exact fun other hother => (hbc.fix other hother).trans (hab.fix other hother)
  · rcases hbc.own with ⟨hrows, hfix⟩ | hmirrored
    · rcases hab.own with ⟨hrows', hfix'⟩ | hmirrored
      · exact .inl ⟨hrows.trans hrows', hfix.trans hfix'⟩
      · right
        intro f hf
        rw [hfix] at hf
        rw [mirrorOf_congr hrows hbc.version?]
        exact hmirrored f hf
    · exact .inr hmirrored

theorem Rewrites.isSome (h : Rewrites id db db') (hissue : (db.fix id).isSome) :
    (db'.fix id).isSome := by
  have htext := congrArg Option.isSome h.text
  rw [Option.isSome_map, Option.isSome_map] at htext
  rw [htext]
  exact hissue

/-- What the column follows, it follows after a replacement. -/
theorem Rewrites.tracks (h : Rewrites id db db') {other : Uuid} (htracks : db.Tracks other) :
    db'.Tracks other := by
  intro hrows f hf
  by_cases hother : other = id
  · subst hother
    rcases h.own with ⟨hsame, hfix⟩ | hmirrored
    · rw [hfix] at hf
      rw [mirrorOf_congr hsame h.version?]
      exact htracks (hsame ▸ hrows) f hf
    · exact hmirrored f hf
  · rw [h.fix other hother] at hf
    rw [mirrorOf_congr (h.rows other hother) h.version?]
    exact htracks (h.rows other hother ▸ hrows) f hf

/-- A change of rows of one issue, with the mirrors it fires. -/
theorem rewrites_deleteVersionRows {p : VersionRow → Bool} (db : Db)
    (hp : ∀ row, p row = true → row.issueId = id) : Rewrites id db (db.deleteVersionRows p) := by
  have hother : ∀ other, other ≠ id → ∀ row ∈ db.versionRows other, p row = false := by
    intro other hother row hrow
    by_contra hpRow
    exact hother ((mem_versionRows.mp hrow).2.symm.trans (hp row (by simpa using hpRow)))
  refine ⟨deleteVersionRows_catalog p db, deleteVersionRows_versions p db,
    sound_deleteVersionRows p, ?_, ?_, ?_, ?_⟩
  · intro other hne
    rw [versionRows_deleteVersionRows]
    exact List.filter_eq_self.mpr fun row hrow => by rw [hother other hne row hrow, Bool.not_false]
  · intro other hne
    rw [fix_deleteVersionRows, if_neg]
    intro hany
    obtain ⟨row, hrow, hpRow⟩ := List.any_eq_true.mp hany
    rw [hother other hne row hrow] at hpRow
    contradiction
  · rw [fix_deleteVersionRows]
    split
    · rw [Option.map_map]
      rfl
    · rfl
  · by_cases hany : (db.versionRows id).any p = true
    · exact .inr (mirrored_deleteVersionRows hany)
    · refine .inl ⟨?_, by rw [fix_deleteVersionRows, if_neg hany]⟩
      rw [versionRows_deleteVersionRows]
      apply List.filter_eq_self.mpr
      intro row hrow
      rw [Bool.not_eq_true']
      by_contra hpRow
      exact hany (List.any_eq_true.mpr ⟨row, hrow, by simpa using hpRow⟩)

variable {ids : List Uuid}

theorem rewrites_setIssueLabels (h : db.setIssueLabels id ids = some db') : Rewrites id db db' := by
  unfold setIssueLabels at h
  split at h
  · rw [← Option.some.inj h]
    exact ⟨rfl, rfl, fun hsound => ⟨hsound.1, hsound.2, hsound.3⟩, fun _ _ => rfl, fun _ _ => rfl,
      rfl, .inl ⟨rfl, rfl⟩⟩
  · contradiction

theorem rewrites_setIssueCustomers (h : db.setIssueCustomers id ids = some db') :
    Rewrites id db db' := by
  unfold setIssueCustomers at h
  split at h
  · rw [← Option.some.inj h]
    exact ⟨rfl, rfl, fun hsound => ⟨hsound.1, hsound.2, hsound.3⟩, fun _ _ => rfl, fun _ _ => rfl,
      rfl, .inl ⟨rfl, rfl⟩⟩
  · contradiction

/-- The rows of the components that go. -/
def leaves (db : Db) (id : Uuid) (ids : List Uuid) (row : VersionRow) : Bool :=
  row.issueId == id && db.issueComponents.contains (id, row.componentId) &&
    !ids.contains row.componentId

theorem rewrites_setIssueComponents (h : db.setIssueComponents id ids = some db') :
    Rewrites id db db' := by
  unfold setIssueComponents at h
  split at h
  · have hdelete : Rewrites id db (db.deleteVersionRows (db.leaves id ids)) :=
      db.rewrites_deleteVersionRows (fun _ hrow => by
        simp only [leaves, Bool.and_eq_true, beq_iff_eq] at hrow
        exact hrow.1.1)
    rw [← Option.some.inj h]
    refine ⟨hdelete.catalog, hdelete.versions, ?_, hdelete.rows, hdelete.fix, hdelete.text,
      hdelete.own⟩
    intro hsound
    have hkept := hdelete.sound hsound
    refine ⟨hkept.versions, hkept.issues, ?_⟩
    intro row hrow
    have hstored : row ∈ deleteWhere (db.leaves id ids) db.componentVersions := by
      rw [← deleteVersionRows_rows]
      exact hrow
    obtain ⟨hold, hstays⟩ := mem_deleteWhere.mp hstored
    have hassigned := hsound.assigned row hold
    have hlinked : (row.issueId, row.componentId) ∈
        (db.deleteVersionRows (db.leaves id ids)).issueComponents := by
      rw [deleteVersionRows_components]
      exact hassigned
    refine Imports.mem_addLinks.mpr (.inl (mem_deleteWhere.mpr ⟨hlinked, ?_⟩))
    simp only [leaves, Bool.and_eq_false_iff, beq_eq_false_iff_ne] at hstays ⊢
    rcases hstays with (hother | hunassigned) | hkept
    · exact .inl hother
    · by_cases hid : row.issueId = id
      · rw [← hid, List.contains_iff_mem.mpr hassigned] at hunassigned
        contradiction
      · exact .inl hid
    · exact .inr hkept
  · contradiction

/-- A change of the rows of one issue, followed by its mirror. -/
theorem rewrites_mirror (rows : List VersionRow)
    (hothers : ∀ other, other ≠ id → rows.filter (·.issueId == other) = db.versionRows other)
    (hsound : db.Sound → Sound { db with componentVersions := rows }) :
    Rewrites id db (mirror id { db with componentVersions := rows }) := by
  have hfix := fun other => fix_mirror id other { db with componentVersions := rows }
  refine ⟨rfl, rfl, ?_, hothers, ?_, ?_, .inr ?_⟩
  · intro h
    obtain ⟨hversions, hissues, hassigned⟩ := hsound h
    refine ⟨hversions, ?_, hassigned⟩
    intro row hrow
    have hissue := hissues row hrow
    rw [hfix]
    split
    · rw [Option.isSome_map]
      exact hissue
    · exact hissue
  · intro other hother
    rw [hfix, if_neg hother]
    rfl
  · rw [hfix, if_pos rfl, Option.map_map]
    rfl
  · intro f hf
    rw [hfix, if_pos rfl] at hf
    obtain ⟨old, -, rfl⟩ := Option.map_eq_some_iff.mp hf
    exact (mirrorOf_congr rfl fun _ _ => rfl).symm

theorem rewrites_insertVersion {pair : ComponentVersion} (hissue : (db.fix id).isSome)
    (h : db.insertVersion id pair = some db') :
    Rewrites id db db' := by
  unfold insertVersion at h
  split at h
  · split at h
    · rename_i hassigned hversion
      rw [← Option.some.inj h]
      refine rewrites_mirror _ ?_ ?_
      · intro other hother
        rw [List.filter_append, deleteWhere, List.filter_filter, versionRows]
        have hnew : [(⟨id, pair.componentId, pair.releaseVersionId⟩ : VersionRow)].filter
            (·.issueId == other) = [] := by simp [Ne.symm hother]
        rw [hnew, List.append_nil]
        apply List.filter_congr
        intro row _
        by_cases hid : row.issueId = other
        · simp [hid, hother]
        · simp [hid]
      · intro hsound
        have hrow : ∀ row ∈ deleteWhere (fun row => row.issueId == id &&
              row.componentId == pair.componentId) db.componentVersions ++
              [⟨id, pair.componentId, pair.releaseVersionId⟩],
            row ∈ db.componentVersions ∨ row = ⟨id, pair.componentId, pair.releaseVersionId⟩ := by
          intro row hrow
          rcases List.mem_append.mp hrow with hold | hnew
          · exact .inl (mem_deleteWhere.mp hold).1
          · exact .inr (List.mem_singleton.mp hnew)
        refine ⟨?_, ?_, ?_⟩
        · intro row hmem
          rcases hrow row hmem with hold | rfl
          · exact hsound.versions row hold
          · exact hversion
        · intro row hmem
          rcases hrow row hmem with hold | rfl
          · exact hsound.issues row hold
          · exact hissue
        · intro row hmem
          rcases hrow row hmem with hold | rfl
          · exact hsound.assigned row hold
          · exact List.contains_iff_mem.mp hassigned
    · contradiction
  · rw [← Option.some.inj h]
    exact Rewrites.refl id db

theorem rewrites_setIssueComponentVersions {pairs : List ComponentVersion}
    (hissue : (db.fix id).isSome) (h : db.setIssueComponentVersions id pairs = some db') :
    Rewrites id db db' ∧ db'.Tracks id := by
  have hcleared : Rewrites id db (db.deleteVersionRows (·.issueId == id)) :=
    db.rewrites_deleteVersionRows fun _ hrow => by simpa using hrow
  have hnone : (db.deleteVersionRows (·.issueId == id)).versionRows id = [] := by
    rw [versionRows_deleteVersionRows]
    apply List.filter_eq_nil_iff.mpr
    intro row hrow
    simp [(mem_versionRows.mp hrow).2]
  have htracks : (db.deleteVersionRows (·.issueId == id)).Tracks id :=
    fun hrows => absurd hnone hrows
  unfold setIssueComponentVersions at h
  have hfound : ((db.deleteVersionRows (·.issueId == id)).fix id).isSome :=
    hcleared.isSome hissue
  generalize db.deleteVersionRows (·.issueId == id) = cleared at hcleared htracks h hfound
  suffices hinserted : Rewrites id cleared db' from
    ⟨hcleared.trans hinserted, hinserted.tracks htracks⟩
  clear hcleared htracks hissue hnone
  induction pairs generalizing cleared with
  | nil =>
    rw [← Option.some.inj h]
    exact Rewrites.refl id cleared
  | cons pair pairs ih =>
    rw [List.foldlM_cons] at h
    obtain ⟨next, hnext, hrest⟩ := Option.bind_eq_some_iff.mp h
    have hstep := rewrites_insertVersion hfound hnext
    exact hstep.trans (ih next hrest (hstep.isSome hfound))

/-! ## The other statements -/

/-- The statement left the issues, their component versions and the versions alone. -/
structure Aside (db db' : Db) : Prop where
  catalog : db'.catalog = db.catalog
  releases : db'.releases = db.releases
  versions : db'.releaseVersions = db.releaseVersions
  links : db'.componentReleases = db.componentReleases
  epics : db'.epics = db.epics
  issues : db'.issues = db.issues
  labels : db'.issueLabels = db.issueLabels
  components : db'.issueComponents = db.issueComponents
  customers : db'.issueCustomers = db.issueCustomers
  rows : db'.componentVersions = db.componentVersions

theorem Aside.refl (db : Db) : Aside db db := ⟨rfl, rfl, rfl, rfl, rfl, rfl, rfl, rfl, rfl, rfl⟩

theorem Aside.trans {a b c : Db} (hab : Aside a b) (hbc : Aside b c) : Aside a c :=
  ⟨hbc.catalog.trans hab.catalog, hbc.releases.trans hab.releases, hbc.versions.trans hab.versions,
    hbc.links.trans hab.links, hbc.epics.trans hab.epics, hbc.issues.trans hab.issues,
    hbc.labels.trans hab.labels, hbc.components.trans hab.components,
    hbc.customers.trans hab.customers, hbc.rows.trans hab.rows⟩

theorem Aside.issue? (h : Aside db db') (id : Uuid) :
    db'.issue? id = db.issue? id := by
  rw [Db.issue?, Db.issue?, h.issues]

theorem Aside.version? (h : Aside db db') (id : Uuid) :
    db'.version? id = db.version? id := by
  rw [Db.version?, Db.version?, h.versions]

theorem Aside.fix (h : Aside db db') (id : Uuid) : db'.fix id = db.fix id := by
  rw [Db.fix, Db.fix, h.issue?]

theorem Aside.versionRows (h : Aside db db') (id : Uuid) :
    db'.versionRows id = db.versionRows id := by
  rw [Db.versionRows, Db.versionRows, h.rows]

theorem Aside.mirrorOf (h : Aside db db') (id : Uuid) :
    db'.mirrorOf id = db.mirrorOf id := mirrorOf_congr (h.versionRows id) fun _ _ => h.version? _

theorem Aside.tracks (h : Aside db db') (htracks : db.Tracks id) :
    db'.Tracks id := by
  intro hrows f hf
  rw [h.versionRows] at hrows
  rw [h.fix] at hf
  rw [h.mirrorOf]
  exact htracks hrows f hf

theorem Aside.sound (h : Aside db db') (hsound : db.Sound) : db'.Sound := by
  refine ⟨?_, ?_, ?_⟩
  · intro row hrow
    rw [h.version?]
    exact hsound.versions row (h.rows ▸ hrow)
  · intro row hrow
    rw [h.fix]
    exact hsound.issues row (h.rows ▸ hrow)
  · intro row hrow
    rw [h.components]
    exact hsound.assigned row (h.rows ▸ hrow)

theorem Rewrites.of_aside (id : Uuid) (h : Aside db db') : Rewrites id db db' :=
  ⟨h.catalog, h.versions, h.sound, fun other _ => h.versionRows other, fun other _ => h.fix other,
    congrArg _ (h.fix id), .inl ⟨h.versionRows id, h.fix id⟩⟩

/-- A row of `issues` was written: nothing but the fix version of one issue may
be another. -/
structure WritesRow (id : Uuid) (w : IssueWrite) (db db' : Db) : Prop where
  only : db' = { db with issues := db'.issues }
  own : db'.fix id = some (w.releaseVersionId, w.releaseText)
  fix : ∀ other, other ≠ id → db'.fix other = db.fix other

variable {w : IssueWrite}

theorem WritesRow.versionRows (h : WritesRow id w db db') (other : Uuid) :
    db'.versionRows other = db.versionRows other := by
  rw [h.only]
  rfl

theorem WritesRow.mirrorOf (h : WritesRow id w db db') (other : Uuid) :
    db'.mirrorOf other = db.mirrorOf other := by
  rw [h.only]
  rfl

theorem WritesRow.sound (h : WritesRow id w db db') (hsound : db.Sound) : db'.Sound := by
  have hrows : db'.componentVersions = db.componentVersions := by rw [h.only]
  have hversions : db'.releaseVersions = db.releaseVersions := by rw [h.only]
  have hcomponents : db'.issueComponents = db.issueComponents := by rw [h.only]
  refine ⟨?_, ?_, ?_⟩
  · intro row hrow
    rw [version?, hversions]
    exact hsound.versions row (hrows ▸ hrow)
  · intro row hrow
    by_cases hid : row.issueId = id
    · rw [hid, h.own]
      rfl
    · rw [h.fix _ hid]
      exact hsound.issues row (hrows ▸ hrow)
  · intro row hrow
    rw [hcomponents]
    exact hsound.assigned row (hrows ▸ hrow)

/-- The column follows the component versions of another issue as it did. -/
theorem WritesRow.tracks (h : WritesRow id w db db') {other : Uuid} (hother : other ≠ id)
    (htracks : db.Tracks other) : db'.Tracks other := by
  intro hrows f hf
  rw [h.versionRows] at hrows
  rw [h.fix other hother] at hf
  rw [h.mirrorOf]
  exact htracks hrows f hf

theorem issue?_insert (db : Db) (row : Issue) (hfree : db.issues.find? row.id = none)
    (other : Uuid) :
    issue? { db with issues := db.issues.insert row hfree } other =
      if other = row.id then some row else db.issue? other := Table.find?_insert hfree other

variable {projectId : Uuid}

/-- A new row has an id that no component version has. -/
theorem insertIssue_writes {ownerId : Uuid} {reference : Nat} {issue : Issue}
    (h : db.insertIssue projectId ownerId reference w = (.ok issue, db')) :
    db.issue? issue.id = none ∧ WritesRow issue.id w db db' := by
  unfold insertIssue at h
  split at h
  · obtain ⟨hissue, hdb⟩ := Prod.mk.inj h
    subst hdb
    rw [← Except.ok.inj hissue]
    refine ⟨db.issues.find?_fresh, rfl, ?_, ?_⟩
    · refine (congrArg (Option.map _) (issue?_insert db _ _ _)).trans ?_
      rw [if_pos rfl]
      rfl
    · intro other hother
      refine (congrArg (Option.map _) (issue?_insert db _ _ other)).trans ?_
      rw [if_neg hother]
      rfl
  · cases (Prod.mk.inj h).1

theorem insertIssue_refused {ownerId : Uuid} {reference : Nat} {e : DbError}
    (h : db.insertIssue projectId ownerId reference w = (.error e, db')) : db' = db := by
  unfold insertIssue at h
  split at h
  · cases (Prod.mk.inj h).1
  · exact (Prod.mk.inj h).2.symm

/-- The guarded update writes the row of the version it expects. -/
theorem updateIssue_writes {version : Nat} {row : Issue}
    (h : db.updateIssue projectId id version w = (.ok (some row), db')) :
    row.id = id ∧ WritesRow id w db db' ∧
      ∃ old, db.issue? id = some old ∧ isCurrent projectId id version old = true := by
  unfold updateIssue at h
  split at h
  · cases Except.ok.inj (Prod.mk.inj h).1
  · rename_i old hold
    obtain ⟨hfound, hcurrent⟩ := Option.filter_eq_some_iff.mp hold
    split at h
    · obtain ⟨hrow, hdb⟩ := Prod.mk.inj h
      subst hdb
      refine ⟨Table.key_of_find? (Except.ok.inj hrow), ⟨rfl, ?_, ?_⟩, old, hfound, hcurrent⟩
      · rw [fix_updateIssues, hfound, Option.map_some, if_pos hcurrent]
      · intro other hother
        rw [fix_updateIssues, fix]
        apply Option.map_congr
        intro issue hissue
        have hkey : issue.id = other := Table.key_of_find? hissue
        have hstale : isCurrent projectId id version issue = false := by
          simp [isCurrent, hkey, hother]
        rw [hstale]
        rfl
    · cases (Prod.mk.inj h).1

/-- An update that returns no row changes nothing. -/
theorem updateIssue_missed {version : Nat}
    (h : ∀ row, (db.updateIssue projectId id version w).1 ≠ .ok (some row)) :
    (db.updateIssue projectId id version w).2 = db := by
  unfold updateIssue at h ⊢
  split
  · rfl
  · rename_i old hold
    obtain ⟨hfound, hcurrent⟩ := Option.filter_eq_some_iff.mp hold
    by_cases haccepts : db.accepts w = true
    · simp only [hold, if_pos haccepts] at h
      have hfix := fix_updateIssues (isCurrent projectId id version)
        (fun issue => { issue with toIssueWrite := w, version := issue.version + 1 })
        (fun _ => rfl) db id
      rw [hfound, fix] at hfix
      obtain ⟨row, hrow, -⟩ := Option.map_eq_some_iff.mp hfix
      exact absurd (congrArg Except.ok hrow) (h row)
    · rw [if_neg haccepts]

/-- Versions were added: the ones there were are found as before. -/
structure VersionsGrow (db db' : Db) : Prop where
  only : db' = { db with releaseVersions := db'.releaseVersions }
  kept : ∀ id, (db.version? id).isSome → db'.version? id = db.version? id

theorem VersionsGrow.fix (h : VersionsGrow db db') (id : Uuid) :
    db'.fix id = db.fix id := by
  rw [h.only]
  rfl

theorem VersionsGrow.versionRows (h : VersionsGrow db db') (id : Uuid) :
    db'.versionRows id = db.versionRows id := by
  rw [h.only]
  rfl

theorem VersionsGrow.sound (h : VersionsGrow db db') (hsound : db.Sound) :
    db'.Sound := by
  have hrows : db'.componentVersions = db.componentVersions := by rw [h.only]
  have hcomponents : db'.issueComponents = db.issueComponents := by rw [h.only]
  refine ⟨?_, ?_, ?_⟩
  · intro row hrow
    have hversion := hsound.versions row (hrows ▸ hrow)
    rw [h.kept _ hversion]
    exact hversion
  · intro row hrow
    rw [h.fix]
    exact hsound.issues row (hrows ▸ hrow)
  · intro row hrow
    rw [hcomponents]
    exact hsound.assigned row (hrows ▸ hrow)

theorem VersionsGrow.tracks (h : VersionsGrow db db') (hsound : db.Sound) (htracks : db.Tracks id) :
    db'.Tracks id := by
  intro hrows f hf
  rw [h.versionRows] at hrows
  rw [h.fix] at hf
  rw [mirrorOf_congr (h.versionRows id) fun row hrow =>
    h.kept _ (hsound.versions row (mem_versionRows.mp hrow).1)]
  exact htracks hrows f hf

theorem createVersion_grows (releaseId : Uuid) (version : String) (db : Db) :
    VersionsGrow db (db.createVersion releaseId version).2 := by
  unfold createVersion
  dsimp only
  split
  · exact ⟨rfl, fun _ _ => rfl⟩
  · split
    · refine ⟨rfl, ?_⟩
      intro id hid
      refine (Table.find?_insert db.releaseVersions.find?_fresh id).trans (if_neg ?_)
      rintro rfl
      rw [version?, db.releaseVersions.find?_fresh] at hid
      contradiction
    · exact ⟨rfl, fun _ _ => rfl⟩

/-- A version is gone: its component versions went with it, with the mirrors of
their issues, and the columns that named it are cleared. -/
structure Without (id : Uuid) (db db' : Db) : Prop where
  components : db'.issueComponents = db.issueComponents
  rows : db'.componentVersions = deleteWhere (·.releaseVersionId == id) db.componentVersions
  version : ∀ other, other ≠ id → db'.version? other = db.version? other
  fix : ∀ issueId, db'.fix issueId =
    if (db.versionRows issueId).any (·.releaseVersionId == id) then
      (db.fix issueId).map fun f => (db'.mirrorOf issueId, f.2)
    else (db.fix issueId).map fun f => (if f.1 = some id then none else f.1, f.2)

theorem deleteVersion_without (projectId id : Uuid) (db : Db) :
    (db.deleteVersion projectId id).2 = db ∨ db.versionInProject projectId id = true ∧
      Without id db (db.deleteVersion projectId id).2 := by
  unfold deleteVersion
  split
  · rename_i hfound
    refine .inr ⟨hfound, ?_⟩
    dsimp only
    generalize hcleared : ({ db with
      releaseVersions := db.releaseVersions.erase (·.id == id) } : Db).updateIssues
        (·.releaseVersionId == some id) (fun issue => { issue with releaseVersionId := none })
        (fun _ => rfl) = cleared
    have hrows : cleared.componentVersions = db.componentVersions := by rw [← hcleared]; rfl
    have hversionRows : ∀ issueId, cleared.versionRows issueId = db.versionRows issueId := by
      intro issueId
      rw [versionRows, hrows, versionRows]
    have hfix : ∀ issueId, cleared.fix issueId =
        (db.fix issueId).map fun f => (if f.1 = some id then none else f.1, f.2) := by
      intro issueId
      rw [← hcleared, fix_updateIssues, fix, Option.map_map]
      apply Option.map_congr
      intro issue _
      by_cases hnamed : issue.releaseVersionId = some id
      · simp [hnamed]
      · simp [hnamed]
    refine ⟨?_, ?_, ?_, ?_⟩
    · rw [deleteVersionRows_components, ← hcleared]
      rfl
    · rw [deleteVersionRows_rows, hrows]
    · intro other hother
      rw [version?, deleteVersionRows_versions, ← hcleared]
      refine (Table.find?_erase _ _ _).trans ?_
      show (db.version? other).filter (fun version => !(version.id == id)) = db.version? other
      cases hfound : db.version? other with
      | none => rfl
      | some version =>
        have hkey : version.id = other := Table.key_of_find? hfound
        simp [hkey, hother]
    · intro issueId
      rw [fix_deleteVersionRows, hversionRows, hfix]
      split
      · rw [Option.map_map]
        rfl
      · rfl
  · exact .inl rfl

section Without

variable {id : Uuid} {db db' : Db}

theorem Without.versionRows (h : Without id db db') (issueId : Uuid) : db'.versionRows issueId =
    (db.versionRows issueId).filter fun row => row.releaseVersionId != id := by
  rw [Db.versionRows, h.rows, Db.versionRows, deleteWhere, List.filter_filter, List.filter_filter]
  apply List.filter_congr
  intro row _
  exact Bool.and_comm _ _

theorem Without.sound (h : Without id db db') (hsound : db.Sound) : db'.Sound := by
  have hstored : ∀ row ∈ db'.componentVersions,
      row ∈ db.componentVersions ∧ row.releaseVersionId ≠ id := by
    intro row hrow
    obtain ⟨hold, hother⟩ := mem_deleteWhere.mp (h.rows ▸ hrow)
    exact ⟨hold, by simpa using hother⟩
  refine ⟨?_, ?_, ?_⟩
  · intro row hrow
    obtain ⟨hold, hother⟩ := hstored row hrow
    rw [h.version _ hother]
    exact hsound.versions row hold
  · intro row hrow
    have hissue := hsound.issues row (hstored row hrow).1
    rw [h.fix]
    split
    · rw [Option.isSome_map]
      exact hissue
    · rw [Option.isSome_map]
      exact hissue
  · intro row hrow
    rw [h.components]
    exact hsound.assigned row (hstored row hrow).1

/-- Where the column follows the versions of an issue, it does so without one of them. -/
theorem Without.tracks (h : Without id db db') {issueId : Uuid} (htracks : db.Tracks issueId) :
    db'.Tracks issueId := by
  intro hrows f hf
  rw [h.fix] at hf
  by_cases hany : (db.versionRows issueId).any (·.releaseVersionId == id) = true
  · rw [if_pos hany] at hf
    obtain ⟨old, -, rfl⟩ := Option.map_eq_some_iff.mp hf
    rfl
  · have hother : ∀ row ∈ db.versionRows issueId, row.releaseVersionId ≠ id := by
      intro row hrow hid
      exact hany (List.any_eq_true.mpr ⟨row, hrow, by simpa using hid⟩)
    have hsame : db'.versionRows issueId = db.versionRows issueId := by
      rw [h.versionRows]
      exact List.filter_eq_self.mpr fun row hrow => by simpa using hother row hrow
    rw [if_neg hany] at hf
    obtain ⟨old, hold, rfl⟩ := Option.map_eq_some_iff.mp hf
    have hcolumn : old.1 = db.mirrorOf issueId := htracks (hsame ▸ hrows) old hold
    rw [mirrorOf_congr hsame fun row hrow => h.version _ (hother row hrow), ← hcolumn]
    -- the column names a version of the issue, which is another
    have hnamed : old.1 ≠ some id := by
      rw [hcolumn]
      intro hfirst
      obtain ⟨first, hfound, hkey⟩ := Option.map_eq_some_iff.mp hfirst
      obtain ⟨row, hrow, hversion⟩ := List.mem_filterMap.mp (isFirst_of_firstOf hfound).1
      have hfirstId : first.id = row.releaseVersionId := Table.key_of_find? hversion
      exact hother row hrow (hfirstId.symm.trans hkey)
    exact if_neg hnamed

end Without

end Db

end IntelliPilot.Issues
