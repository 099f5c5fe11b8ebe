import IntelliPilot.Issues.Writes

/-! # The release mirror over whole runs

Every statement but one keeps the fix version of an issue in step with its
component versions. The exception is the update of the row itself, which writes
the fix version of a patch over the mirrored one.
-/

namespace IntelliPilot.Issues

open Http Statement
open Imports (Uuid)
open Db (Aside Rewrites WritesRow)

/-- An issue with component versions has the first of them as its fix version. -/
def MirrorExact (db : Db) : Prop :=
  ∀ id issue, db.issue? id = some issue → db.versionRows id ≠ [] →
    ∃ version, IsFirst version (db.versionsOf id) ∧ issue.releaseVersionId = some version.id

/-- The invariant behind the exact mirror. -/
structure Mirroring (db : Db) : Prop where
  sound : db.Sound
  tracks : ∀ id, db.Tracks id

theorem Mirroring.exact {db : Db} (h : Mirroring db) : MirrorExact db :=
  fun id _ hissue hrows => (h.tracks id).isFirst h.sound hrows hissue

theorem mirroring_of_empty {db : Db} (h : db.componentVersions = []) : Mirroring db := by
  refine ⟨⟨?_, ?_, ?_⟩, ?_⟩
  · simp [h]
  · simp [h]
  · simp [h]
  · intro id hrows
    exact absurd (by rw [Db.versionRows, h]; rfl) hrows

theorem settled_mirroring : Settled Mirroring :=
  fun _ _ haside hs => ⟨haside.sound hs.sound, fun id => haside.tracks (hs.tracks id)⟩

section

variable {C : Choice → Prop} {s : Db}

/-! ## Writes that keep the mirror -/

variable {id : Uuid}

theorem mirroring_of_rewrites {s' : Db} (h : Rewrites id s s') (hs : Mirroring s) :
    Mirroring s' := ⟨h.sound hs.sound, fun id => h.tracks (hs.tracks id)⟩

/-- The replacements of the sets keep the mirror, wherever they stop. -/
theorem mirroring_replaceSets {labels components customerIds : Option (List Uuid)}
    {pairs : Option (List ComponentVersion)} (hs : Mirroring s) (hissue : (s.fix id).isSome) :
    Leaves C (replaceSets id labels components pairs customerIds) Mirroring s := by
  let I : Db → Prop := fun s => Mirroring s ∧ (s.fix id).isSome
  have hI : Settled I := fun s s' haside h =>
    ⟨settled_mirroring s s' haside h.1, by rw [haside.fix]; exact h.2⟩
  have hkept : ∀ {s s' : Db}, I s → Rewrites id s s' → I s' := fun h hrewrites =>
    ⟨mirroring_of_rewrites hrewrites h.1, hrewrites.isSome h.2⟩
  have hsets : Ensures Stmt.exec C (replaceSets id labels components pairs customerIds) (fun _ => I)
      (fun problem s => problem = internal ∧ I s) s := by
    apply ensures_replaceSets hI hI hI ?_ ?_ ?_ ?_ ⟨hs, hissue⟩
    · exact Phase.of_kept fun _ _ _ h hset => hkept h (Db.rewrites_setIssueLabels hset)
    · exact Phase.of_kept fun _ _ _ h hset => hkept h (Db.rewrites_setIssueComponents hset)
    · exact Phase.of_kept fun _ _ _ h hset =>
        hkept h (Db.rewrites_setIssueComponentVersions h.2 hset).1
    · exact Phase.of_kept fun _ _ _ h hset => hkept h (Db.rewrites_setIssueCustomers hset)
  exact hsets.mono (fun _ _ h => h.1) fun _ _ h => h.2.1

/-- An issue that is not there has no component versions. -/
theorem versionRows_of_none (hsound : s.Sound) (h : s.issue? id = none) :
    s.versionRows id = [] := by
  apply List.eq_nil_iff_forall_not_mem.mpr
  intro row hrow
  obtain ⟨hstored, rfl⟩ := Db.mem_versionRows.mp hrow
  have hissue := hsound.issues row hstored
  rw [Db.fix, h] at hissue
  contradiction

theorem creates_mirroring (req : CreateIssueRequest) : Creates C Mirroring req := by
  rintro s id s' hs ⟨mid, w, after, hmid, hfresh, hwrites, -, -, hafter⟩
  have hbefore := settled_mirroring s mid hmid hs
  have hinserted : Mirroring after := by
    refine ⟨hwrites.sound hbefore.sound, ?_⟩
    intro other
    by_cases hother : other = id
    · intro hrows
      rw [hother, hwrites.versionRows, versionRows_of_none hbefore.sound hfresh] at hrows
      contradiction
    · exact hwrites.tracks hother (hbefore.tracks other)
  have hdone := settled_mirroring after s' hafter hinserted
  refine ⟨hdone, mirroring_replaceSets hdone ?_⟩
  rw [hafter.fix, hwrites.own]
  rfl

/-! ## Patches -/

/-- The fix version of the patch is that of the issue, or the issue has no
component versions, or they are replaced and no statement fails. -/
def KeepsMirror (db : Db) (turn : Turn) : Prop :=
  match turn.request with
  | .updateIssue ctx req => ∀ patch old, Comes db ctx req patch old →
      db.versionRows old.id = [] ∨
      (patch.over old.toIssue).releaseVersionId = old.releaseVersionId ∨
      turn.Calm ∧ (patch.componentVersions.isSome ∨
        ∃ row ∈ db.versionRows old.id, ∃ ids ∈ patch.components, row.componentId ∉ ids)
  | _ => True

/-- A component that goes takes its version with it, and the mirror follows. -/
theorem mirrored_setIssueComponents {ids : List Uuid} {db db' : Db}
    (h : db.setIssueComponents id ids = some db') (hsound : db.Sound) {row : VersionRow}
    (hrow : row ∈ db.versionRows id) (hgoes : row.componentId ∉ ids) : db'.Mirrored id := by
  obtain ⟨hstored, hid⟩ := Db.mem_versionRows.mp hrow
  have hleaves : (db.versionRows id).any (db.leaves id ids) = true := by
    refine List.any_eq_true.mpr ⟨row, hrow, ?_⟩
    have hassigned := hsound.assigned row hstored
    rw [hid] at hassigned
    simp [Db.leaves, hid, hassigned, hgoes]
  unfold Db.setIssueComponents at h
  split at h
  · rw [← Option.some.inj h]
    exact Db.mirrored_deleteVersionRows hleaves
  · contradiction

theorem versionRows_setIssueLabels {ids : List Uuid} {db db' : Db}
    (h : db.setIssueLabels id ids = some db') (other : Uuid) :
    db'.versionRows other = db.versionRows other := by
  unfold Db.setIssueLabels at h
  split at h
  · rw [← Option.some.inj h]
    rfl
  · contradiction

variable {patch : UpdateIssueRequest} {old : FullIssue}

/-- Where nothing fails, the replacement of the component versions, or the loss
of one of them, mends the mirror of the issue. -/
theorem mirroring_of_replaced {seen : Db} (hC : ∀ choice, C choice → choice.fails = false)
    (hchecked : Checked seen patch old) (hcatalog : s.catalog = seen.catalog)
    (hversions : s.releaseVersions = seen.releaseVersions) (hsound : s.Sound)
    (hothers : ∀ other, other ≠ id → s.Tracks other) (hissue : (s.fix id).isSome)
    (hreplaced : patch.componentVersions.isSome ∨
      ∃ row ∈ s.versionRows id, ∃ ids ∈ patch.components, row.componentId ∉ ids) :
    Leaves C (replaceSets id patch.labels patch.components patch.componentVersions
      patch.customerIds) Mirroring s := by
  have hsettled : ∀ {J : Db → Prop}, Settled J → Settled fun s' => Rewrites id s s' ∧ J s' := by
    intro J hJ
    exact (settled_rewrites id s).and hJ
  have hsets : Ensures Stmt.exec C (replaceSets id patch.labels patch.components
      patch.componentVersions patch.customerIds)
      (fun _ s' => Rewrites id s s' ∧ s'.Tracks id)
      (fun problem s => problem = internal ∧ Mirroring s) s := by
    apply ensures_replaceSets (I := fun s' => Rewrites id s s' ∧ s'.versionRows id = s.versionRows id)
      (J := fun s' => Rewrites id s s' ∧ (patch.componentVersions = none → s'.Tracks id))
    · exact hsettled fun _ _ haside h => (haside.versionRows id).trans h
    · exact hsettled fun _ _ haside h hnone => haside.tracks (h hnone)
    · exact hsettled fun _ _ haside h => haside.tracks h
    · apply Phase.of_calm hC (fun _ _ h => h)
      · intro ids _ s₁ s₂ h hset
        exact ⟨h.1.trans (Db.rewrites_setIssueLabels hset),
          (versionRows_setIssueLabels hset id).trans h.2⟩
      · exact fun ids hids s₁ h => hchecked.setsLabels (h.1.catalog.trans hcatalog) ids hids
    · apply Phase.of_calm hC
      · intro hnone s₁ h
        refine ⟨h.1, ?_⟩
        intro hpairs
        rcases hreplaced with hsome | ⟨_, _, ids, hids, _⟩
        · rw [hpairs] at hsome
          contradiction
        · rw [hnone] at hids
          contradiction
      · intro ids hids s₁ s₂ h hset
        refine ⟨h.1.trans (Db.rewrites_setIssueComponents hset), ?_⟩
        intro hpairs _
        rcases hreplaced with hsome | ⟨row, hrow, ids', hids', hgoes⟩
        · rw [hpairs] at hsome
          contradiction
        · rw [hids] at hids'
          rw [← Option.some.inj hids'] at hgoes
          exact mirrored_setIssueComponents hset (h.1.sound hsound) (h.2 ▸ hrow) hgoes
      · exact fun ids hids s₁ h => hchecked.setsComponents (h.1.catalog.trans hcatalog) ids hids
    · apply Phase.of_calm hC (fun hnone _ h => ⟨h.1, h.2 hnone⟩)
      · intro pairs _ s₁ s₂ h hset
        have hrewrites := Db.rewrites_setIssueComponentVersions (h.1.isSome hissue) hset
        exact ⟨h.1.trans hrewrites.1, hrewrites.2⟩
      · exact fun pairs hpairs s₁ h => hchecked.setsPairs (h.1.versions.trans hversions) pairs hpairs
    · apply Phase.of_calm hC (fun _ _ h => h)
      · intro ids _ s₁ s₂ h hset
        have hrewrites := Db.rewrites_setIssueCustomers hset
        exact ⟨h.1.trans hrewrites, hrewrites.tracks h.2⟩
      · exact fun ids hids s₁ h => hchecked.setsCustomers (h.1.catalog.trans hcatalog) ids hids
    · exact ⟨Rewrites.refl id s, rfl⟩
  refine hsets.mono ?_ fun _ _ h => h.2
  rintro _ s' ⟨hrewrites, htracks⟩
  refine ⟨hrewrites.sound hsound, ?_⟩
  intro other
  by_cases hother : other = id
  · exact hother ▸ htracks
  · exact hrewrites.tracks (hothers other hother)

/-- A row that is written keeps the mirrors of the other issues, and its own where it
keeps its fix version. -/
theorem mirroring_of_writesRow {w : IssueWrite} {s' : Db} (hs : Mirroring s)
    (h : WritesRow id w s s')
    (hkept : s.versionRows id = [] ∨ ∀ f ∈ s.fix id, w.releaseVersionId = f.1)
    (hissue : (s.fix id).isSome) : Mirroring s' := by
  refine ⟨h.sound hs.sound, ?_⟩
  intro other
  by_cases hother : other = id
  · subst hother
    intro hrows f hf
    rw [h.versionRows] at hrows
    obtain ⟨before, hbefore⟩ := Option.isSome_iff_exists.mp hissue
    rw [h.own] at hf
    rw [← Option.some.inj hf, h.mirrorOf, hkept.resolve_left hrows before hbefore]
    exact hs.tracks other hrows before hbefore
  · exact h.tracks hother (hs.tracks other)

theorem fix_of_fullIssue {projectId : Uuid} (h : s.fullIssue projectId id = some old) :
    s.fix old.id = some (old.releaseVersionId, old.releaseText) := by
  obtain ⟨row, hrow, rfl⟩ := Option.map_eq_some_iff.mp h
  have hissue : s.issue? id = some row := (Option.filter_eq_some_iff.mp hrow).1
  have hkey : row.id = id := Table.key_of_find? hissue
  rw [Db.fix, hkey, hissue]
  rfl

/-- A patch that keeps the fix version of an issue with component versions. -/
theorem mirroring_of_kept {ctx : Context} {req : UpdateRequest} {mid s' : Db} (hs : Mirroring s)
    (hcomes : Comes s ctx req patch old) (hmid : Aside s mid)
    (hwrites : WritesRow old.id (patch.over old.toIssue) mid s')
    (hkept : s.versionRows old.id = [] ∨
      (patch.over old.toIssue).releaseVersionId = old.releaseVersionId) :
    Leaves C (replaceSets old.id patch.labels patch.components patch.componentVersions
      patch.customerIds) Mirroring s' := by
  have hfix : mid.fix old.id = some (old.releaseVersionId, old.releaseText) := by
    rw [hmid.fix, fix_of_fullIssue hcomes.found]
  have hwritten : Mirroring s' := by
    apply mirroring_of_writesRow (settled_mirroring s mid hmid hs) hwrites ?_ (by rw [hfix]; rfl)
    rw [hmid.versionRows, hfix]
    rcases hkept with hnone | hsame
    · exact .inl hnone
    · right
      intro f hf
      rw [← Option.some.inj hf]
      exact hsame
  apply mirroring_replaceSets hwritten
  rw [hwrites.own]
  rfl

/-- A request that keeps the mirror leaves it exact. -/
theorem mirroring_next {turn : Turn} (hs : Mirroring s) (h : KeepsMirror s turn) :
    Mirroring (server.next s turn) := by
  obtain ⟨request, choices⟩ := turn
  cases request with
  | createIssue ctx key body =>
    exact next_of_leaves_any
      (leaves_createIssue settled_mirroring hs fun req _ _ => creates_mirroring req)
  | bulkCreateIssues ctx body =>
    exact next_of_leaves_any
      (leaves_bulkCreateIssues settled_mirroring hs fun _ _ req _ _ => creates_mirroring req)
  | createVersion ctx releaseId body =>
    refine next_of_leaves_any (leaves_createVersion settled_mirroring hs ?_)
    intro version s' haside
    have hbefore := settled_mirroring s s' haside hs
    have hgrows := Db.createVersion_grows releaseId version s'
    exact ⟨hgrows.sound hbefore.sound,
      fun id => hgrows.tracks hbefore.sound (hbefore.tracks id)⟩
  | deleteVersion ctx id =>
    refine next_of_leaves_any (leaves_deleteVersion settled_mirroring hs ?_)
    intro s' haside _
    have hbefore := settled_mirroring s s' haside hs
    rcases Db.deleteVersion_without ctx.projectId id s' with hsame | ⟨-, hwithout⟩
    · rw [hsame]
      exact hbefore
    · exact ⟨hwithout.sound hbefore.sound, fun id => hwithout.tracks (hbefore.tracks id)⟩
  | updateIssue ctx req =>
    -- what fails is bounded only where the mirror must be mended
    by_cases hcalm : Turn.Calm ⟨.updateIssue ctx req, choices⟩
    · refine next_of_leaves (C := fun choice => choice.fails = false) hcalm
        (leaves_updateIssue settled_mirroring hs ?_)
      intro patch old mid s' hcomes hchecked hmid hwrites
      rcases or_assoc.mpr (h patch old hcomes) with hkept | ⟨-, hreplaced⟩
      · exact mirroring_of_kept hs hcomes hmid hwrites hkept
      · have hbefore := settled_mirroring s mid hmid hs
        apply mirroring_of_replaced (fun _ h => h) hchecked ?_ ?_
          (hwrites.sound hbefore.sound) ?_ (by rw [hwrites.own]; rfl) ?_
        · rw [hwrites.only]
          exact hmid.catalog
        · rw [hwrites.only]
          exact hmid.versions
        · exact fun other hother => hwrites.tracks hother (hbefore.tracks other)
        · rw [hwrites.versionRows, hmid.versionRows]
          exact hreplaced
    · refine next_of_leaves_any (leaves_updateIssue settled_mirroring hs ?_)
      intro patch old mid s' hcomes hchecked hmid hwrites
      apply mirroring_of_kept hs hcomes hmid hwrites
      rcases h patch old hcomes with hnone | hsame | ⟨hnofault, -⟩
      · exact .inl hnone
      · exact .inr hsame
      · exact absurd hnofault hcalm

end

/-! ## Whole runs -/

/-- From an issue tracker without component versions, a run whose patches keep the
mirror has an exact mirror in every state. -/
theorem release_mirror_exact {db : Db} (hdb : db.componentVersions = []) {turns : List Turn}
    (h : server.Each KeepsMirror db turns) : server.Always MirrorExact db turns := by
  have hmirroring : server.Always Mirroring db turns :=
    Server.always_of_each (fun _ _ hs hturn => mirroring_next hs hturn) (mirroring_of_empty hdb) h
  exact fun first last hsplit => (hmirroring first last hsplit).exact

/-- A project with one component that ships in two versions of a release. -/
def shippedTwice : Db where
  catalog :=
    { taxonomy := Table.empty
      components := ⟨[⟨5, 1, "core"⟩], by decide⟩
      customers := Table.empty
      labels := Table.empty
      users := Table.empty
      memberships := [] }
  releases := ⟨[⟨10, 1⟩], by decide⟩
  releaseVersions := ⟨[⟨20, 10, "1.0", 1⟩, ⟨21, 10, "2.0", 2⟩], by decide⟩
  componentReleases := [(5, 10)]
  epics := Table.empty
  issues := Table.empty
  issueLabels := []
  issueComponents := []
  issueCustomers := []
  componentVersions := []
  lastRef := fun _ => 0
  keys := []
  now := 0

def planner : Context := ⟨1, 7, true⟩

def calm (request : Request) : Turn := ⟨request, fun _ => {}⟩

/-- An issue with the first version of its component. -/
def versioned : Turn :=
  calm (.createIssue planner none (.valid
    { subject := "crash", components := [5], componentVersions := [⟨5, 20⟩] }))

/-- The other version, given to the issue itself. -/
def overwriting : Turn :=
  calm (.updateIssue planner ⟨1, some "*", .ok { releaseVersionId := some (some 21) }⟩)

/-- The other version for the component, and with it for the issue. -/
def moving : Turn :=
  calm (.updateIssue planner ⟨1, some "*", .ok
    { releaseVersionId := some (some 21), componentVersions := some [⟨5, 21⟩] }⟩)

theorem release_mirror_exact_moving : server.Always MirrorExact shippedTwice [versioned, moving] := by
  refine release_mirror_exact rfl ⟨trivial, ?_, trivial⟩
  intro patch old hcomes
  have hpatch : patch.componentVersions = some [⟨5, 21⟩] := by
    rw [← Except.ok.inj hcomes.body]
  exact .inr (.inr ⟨fun _ => rfl, .inl (by rw [hpatch]; rfl)⟩)

theorem overwriting_run :
    ((server.run shippedTwice [versioned, overwriting]).issue? 1).map (·.releaseVersionId) =
      some (some 21) ∧
    (server.run shippedTwice [versioned, overwriting]).versionRows 1 = [⟨1, 5, 20⟩] := by
  decide +kernel

/-- A patch overwrites the mirror of an issue with a component version. -/
theorem release_mirror_overwritten :
    ¬ ∀ db : Db, db.componentVersions = [] → ∀ turns, server.Always MirrorExact db turns := by
  intro h
  obtain ⟨hcolumn, hrows⟩ := overwriting_run
  obtain ⟨issue, hissue, hnamed⟩ := Option.map_eq_some_iff.mp hcolumn
  obtain ⟨version, hfirst, hmirrored⟩ := h shippedTwice rfl [versioned, overwriting]
    [versioned, overwriting] [] rfl 1 issue hissue (by rw [hrows]; exact List.cons_ne_nil _ _)
  obtain ⟨row, hrow, hversion⟩ := List.mem_filterMap.mp hfirst.1
  rw [hrows, List.mem_singleton] at hrow
  have hkey : version.id = row.releaseVersionId := Table.key_of_find? hversion
  rw [hmirrored, hkey, hrow] at hnamed
  exact absurd (Option.some.inj hnamed) (by decide)

end IntelliPilot.Issues
