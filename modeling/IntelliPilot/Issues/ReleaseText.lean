import IntelliPilot.Issues.ReleaseMirror

/-! # Two forms of the fix version

An issue names a release version or carries a free text. The rule is checked
before a write, on the request and the stored row; the mirror of the component
versions comes after it and knows nothing of the text.
-/

namespace IntelliPilot.Issues

open Http Statement
open Imports (Uuid)
open Db (Aside Rewrites WritesRow)

/-- No issue has both a release version and a text that is not blank. -/
def FormsExclusive (db : Db) : Prop :=
  ∀ id issue, db.issue? id = some issue → Exclusive issue.releaseVersionId issue.releaseText

/-- The invariant behind the two forms. -/
structure Separate (db : Db) : Prop where
  sound : db.Sound
  forms : ∀ id, ∀ f ∈ db.fix id, Exclusive f.1 f.2

theorem Separate.exclusive {db : Db} (h : Separate db) : FormsExclusive db := by
  intro id issue hissue
  apply h.forms id (issue.releaseVersionId, issue.releaseText)
  rw [Db.fix, hissue]
  rfl

theorem settled_separate : Settled Separate := by
  refine fun s s' haside hs => ⟨haside.sound hs.sound, ?_⟩
  intro id f hf
  rw [haside.fix] at hf
  exact hs.forms id f hf

/-! ## What a replacement of sets does to a text -/

section

variable {C : Choice → Prop} {s : Db} {releaseVersionId : Option Uuid} {releaseText : Option String}

theorem exclusive_of_blank (h : hasText releaseText = false) :
    Exclusive releaseVersionId releaseText := by
  rw [Exclusive, h, Bool.and_false]

theorem exclusive_of_none : Exclusive none releaseText := rfl

/-- With a text that is not blank there is no version. -/
theorem none_of_exclusive (h : Exclusive releaseVersionId releaseText)
    (htext : hasText releaseText = true) : releaseVersionId = none := by
  rw [Exclusive, htext, Bool.and_true] at h
  simpa using h

variable {id : Uuid} {mid s' : Db}

/-- The other issues are as they were; the own one keeps its text. -/
theorem separate_of_rewrites (h : Rewrites id mid s') (hmid : Separate mid)
    (hown : ∀ f ∈ s'.fix id, Exclusive f.1 f.2) : Separate s' := by
  refine ⟨h.sound hmid.sound, ?_⟩
  intro other f hf
  by_cases hother : other = id
  · subst hother
    exact hown f hf
  · rw [h.fix other hother] at hf
    exact hmid.forms other f hf

variable {w : Option Uuid × Option String}

theorem exclusive_of_rewrites_blank (h : Rewrites id mid s') (hmid : mid.fix id = some w)
    (hblank : hasText w.2 = false) : ∀ f ∈ s'.fix id, Exclusive f.1 f.2 := by
  intro f hf
  have htext := h.text
  rw [hmid, hf] at htext
  have hsame : f.2 = w.2 := Option.some.inj htext
  rw [← hsame] at hblank
  exact exclusive_of_blank hblank

variable {text : Option String}

/-- Where no component version is left, nothing is mirrored. -/
theorem fix_of_rows_empty (h : Rewrites id mid s') (hmid : mid.fix id = some (none, text))
    (hrows : s'.versionRows id = []) : s'.fix id = some (none, text) := by
  rcases h.own with ⟨-, hfix⟩ | hmirrored
  · rw [hfix, hmid]
  · have htext := h.text
    rw [hmid] at htext
    obtain ⟨⟨version, text'⟩, hf, rfl⟩ := Option.map_eq_some_iff.mp htext
    have hnone : version = s'.mirrorOf id := hmirrored _ hf
    rw [hf, hnone, Db.mirrorOf, Db.versionsOf, hrows]
    rfl

variable {ids : List Uuid} {db db' : Db}

theorem fix_setIssueCustomers (h : db.setIssueCustomers id ids = some db') (other : Uuid) :
    db'.fix other = db.fix other := by
  unfold Db.setIssueCustomers at h
  split at h
  · rw [← Option.some.inj h]
    rfl
  · contradiction

theorem fix_setIssueLabels (h : db.setIssueLabels id ids = some db') (other : Uuid) :
    db'.fix other = db.fix other := by
  unfold Db.setIssueLabels at h
  split at h
  · rw [← Option.some.inj h]
    rfl
  · contradiction

theorem versionRows_setIssueCustomers (h : db.setIssueCustomers id ids = some db') (other : Uuid) :
    db'.versionRows other = db.versionRows other := by
  unfold Db.setIssueCustomers at h
  split at h
  · rw [← Option.some.inj h]
    rfl
  · contradiction

theorem versionRows_setIssueComponents (h : db.setIssueComponents id ids = some db') :
    db'.versionRows id = (db.versionRows id).filter fun row => !db.leaves id ids row := by
  unfold Db.setIssueComponents at h
  split at h
  · rw [← Option.some.inj h]
    exact Db.versionRows_deleteVersionRows (db.leaves id ids) db id
  · contradiction

/-- The components of an issue are among those given. -/
theorem assigned_setIssueComponents (h : db.setIssueComponents id ids = some db') {component : Uuid}
    (hassigned : (id, component) ∈ db'.issueComponents) : component ∈ ids := by
  unfold Db.setIssueComponents at h
  split at h
  · rw [← Option.some.inj h] at hassigned
    rcases Imports.mem_addLinks.mp hassigned with hkept | ⟨-, hgiven⟩
    · have hstays := (Rows.mem_deleteWhere.mp hkept).2
      simpa using hstays
    · exact hgiven
  · contradiction

/-- Components that stay take no version with them. -/
theorem fix_setIssueComponents_of_stay (h : db.setIssueComponents id ids = some db')
    (hstay : ∀ row ∈ db.versionRows id, row.componentId ∈ ids) : db'.fix id = db.fix id := by
  have hnone : (db.versionRows id).any (db.leaves id ids) = false := by
    apply List.any_eq_false.mpr
    intro row hrow
    simp [Db.leaves, hstay row hrow]
  unfold Db.setIssueComponents at h
  split at h
  · rw [← Option.some.inj h]
    refine (Db.fix_deleteVersionRows (db.leaves id ids) db id).trans ?_
    rw [hnone]
    rfl
  · contradiction

/-- Components that go take their versions with them. -/
theorem versionRows_setIssueComponents_of_go (h : db.setIssueComponents id ids = some db')
    (hsound : db.Sound) (hgo : ∀ row ∈ db.versionRows id, row.componentId ∉ ids) :
    db'.versionRows id = [] := by
  rw [versionRows_setIssueComponents h]
  apply List.filter_eq_nil_iff.mpr
  intro row hrow
  obtain ⟨hstored, hid⟩ := Db.mem_versionRows.mp hrow
  have hassigned := hsound.assigned row hstored
  rw [hid] at hassigned
  simp [Db.leaves, hid, hassigned, hgo row hrow]

/-- Pairs for components that the issue does not have are passed over. -/
theorem versionRows_setIssueComponentVersions {pairs : List ComponentVersion}
    (h : db.setIssueComponentVersions id pairs = some db')
    (hnone : ∀ pair ∈ pairs, (id, pair.componentId) ∉ db.issueComponents) :
    db'.versionRows id = [] := by
  have hcleared : (db.deleteVersionRows (·.issueId == id)).versionRows id = [] := by
    rw [Db.versionRows_deleteVersionRows]
    apply List.filter_eq_nil_iff.mpr
    intro row hrow
    simp [(Db.mem_versionRows.mp hrow).2]
  have hcomponents := Db.deleteVersionRows_components (·.issueId == id) db
  unfold Db.setIssueComponentVersions at h
  generalize db.deleteVersionRows (·.issueId == id) = cleared at hcleared hcomponents h
  suffices hpassed : pairs.foldlM (Db.insertVersion id) cleared = some cleared by
    rw [hpassed] at h
    rw [← Option.some.inj h]
    exact hcleared
  clear h
  induction pairs with
  | nil => rfl
  | cons pair pairs ih =>
    have hunassigned : cleared.issueComponents.contains (id, pair.componentId) = false := by
      rw [hcomponents]
      simpa using hnone pair List.mem_cons_self
    have hskipped : cleared.insertVersion id pair = some cleared := by
      rw [Db.insertVersion, hunassigned]
      rfl
    rw [List.foldlM_cons, hskipped]
    exact ih fun other hother => hnone other (List.mem_cons_of_mem _ hother)

/-! ## New issues -/

/-- A text that is not blank comes without a version for a component it is given with. -/
def CreateIssueRequest.Apart (req : CreateIssueRequest) : Prop :=
  hasText req.releaseText = true → ∀ pair ∈ req.componentVersions,
    pair.componentId ∉ req.components

/-- Under a text that is blank, any replacement keeps the forms apart. -/
theorem separate_replaceSets_of_blank {labels components customerIds : Option (List Uuid)}
    {pairs : Option (List ComponentVersion)} (hs : Separate s) (hfix : s.fix id = some w)
    (hblank : hasText w.2 = false) :
    Leaves C (replaceSets id labels components pairs customerIds) Separate s := by
  have hissue : (s.fix id).isSome := by rw [hfix]; rfl
  have hsets : Ensures Stmt.exec C (replaceSets id labels components pairs customerIds)
      (fun _ => Rewrites id s) (fun problem s' => problem = internal ∧ Rewrites id s s') s := by
    have hsettled := settled_rewrites id s
    apply ensures_replaceSets hsettled hsettled hsettled ?_ ?_ ?_ ?_ (Rewrites.refl id s)
    · exact Phase.of_kept fun _ _ _ h hset => h.trans (Db.rewrites_setIssueLabels hset)
    · exact Phase.of_kept fun _ _ _ h hset => h.trans (Db.rewrites_setIssueComponents hset)
    · exact Phase.of_kept fun _ _ _ h hset =>
        h.trans (Db.rewrites_setIssueComponentVersions (h.isSome hissue) hset).1
    · exact Phase.of_kept fun _ _ _ h hset => h.trans (Db.rewrites_setIssueCustomers hset)
  have hdone : ∀ s', Rewrites id s s' → Separate s' := fun s' h =>
    separate_of_rewrites h hs (exclusive_of_rewrites_blank h hfix hblank)
  exact hsets.mono (fun _ s' h => hdone s' h) fun _ s' h => hdone s' h.2

variable {req : CreateIssueRequest}

/-- A new issue has no component versions, and is given none. -/
theorem separate_fillSets (hs : Separate s) (hfix : s.fix id = some (none, text))
    (hrows : s.versionRows id = [])
    (hapart : ∀ pair ∈ req.componentVersions, pair.componentId ∉ req.components) :
    Leaves C (fillSets id req) Separate s := by
  have hissue : (s.fix id).isSome := by rw [hfix]; rfl
  have hseparate : ∀ s', Rewrites id s s' ∧ s'.versionRows id = [] → Separate s' := by
    rintro s' ⟨h, hrows'⟩
    refine separate_of_rewrites h hs ?_
    intro f hf
    rw [fix_of_rows_empty h hfix hrows'] at hf
    rw [← Option.some.inj hf]
    exact exclusive_of_none
  have hI : Settled fun s' => Rewrites id s s' ∧ s'.versionRows id = [] :=
    (settled_rewrites id s).and fun _ _ haside h => (haside.versionRows id).trans h
  have hsets : Ensures Stmt.exec C (fillSets id req)
      (fun _ s' => Rewrites id s s' ∧ s'.versionRows id = [])
      (fun problem s => problem = internal ∧ Separate s) s := by
    apply ensures_replaceSets (J := fun s' => (Rewrites id s s' ∧ s'.versionRows id = []) ∧
      ∀ component, (id, component) ∈ s'.issueComponents → component ∈ req.components)
    · exact hI
    · exact hI.and fun _ _ haside h => by rw [haside.components]; exact h
    · exact hI
    · apply Phase.of_within hseparate fun _ _ h => h
      intro ids _ s₁ s₂ h hset
      exact ⟨h.1.trans (Db.rewrites_setIssueLabels hset),
        (versionRows_setIssueLabels hset id).trans h.2⟩
    · apply Phase.of_within hseparate (fun hnone => absurd hnone (Option.some_ne_none _))
      intro ids hids s₁ s₂ h hset
      rw [← Option.some.inj hids] at hset
      refine ⟨⟨h.1.trans (Db.rewrites_setIssueComponents hset), ?_⟩,
        fun _ hassigned => assigned_setIssueComponents hset hassigned⟩
      rw [versionRows_setIssueComponents hset, h.2]
      rfl
    · apply Phase.of_within (fun s' h => hseparate s' h.1)
        (fun hnone => absurd hnone (Option.some_ne_none _))
      intro pairs hpairs s₁ s₂ h hset
      rw [← Option.some.inj hpairs] at hset
      refine ⟨h.1.1.trans (Db.rewrites_setIssueComponentVersions (h.1.1.isSome hissue) hset).1, ?_⟩
      apply versionRows_setIssueComponentVersions hset
      exact fun pair hpair hassigned => hapart pair hpair (h.2 _ hassigned)
    · apply Phase.of_within hseparate fun _ _ h => h
      intro ids _ s₁ s₂ h hset
      refine ⟨h.1.trans (Db.rewrites_setIssueCustomers hset), ?_⟩
      rw [versionRows_setIssueCustomers hset, h.2]
    · exact ⟨Rewrites.refl id s, hrows⟩
  exact hsets.mono (fun _ s' h => hseparate s' h) fun _ _ h => h.2

theorem creates_separate (hexclusive : Exclusive req.releaseVersionId req.releaseText)
    (hapart : req.Apart) : Creates C Separate req := by
  rintro s id s' hs ⟨mid, w, after, hmid, hfresh, hwrites, hversion, htext, hafter⟩
  have hbefore := settled_separate s mid hmid hs
  have hinserted : Separate after := by
    refine ⟨hwrites.sound hbefore.sound, ?_⟩
    intro other f hf
    by_cases hother : other = id
    · rw [hother, hwrites.own] at hf
      rw [← Option.some.inj hf, hversion, htext]
      exact hexclusive
    · rw [hwrites.fix other hother] at hf
      exact hbefore.forms other f hf
  have hdone := settled_separate after s' hafter hinserted
  have hfix : s'.fix id = some (req.releaseVersionId, req.releaseText) := by
    rw [hafter.fix, hwrites.own, hversion, htext]
  have hrows : s'.versionRows id = [] := by
    rw [hafter.versionRows, hwrites.versionRows]
    exact versionRows_of_none hbefore.sound hfresh
  refine ⟨hdone, ?_⟩
  by_cases hblank : hasText req.releaseText = true
  · rw [none_of_exclusive hexclusive hblank] at hfix
    exact separate_fillSets hdone hfix hrows (hapart hblank)
  · exact separate_replaceSets_of_blank hdone hfix (by simpa using hblank)

/-! ## Patches -/

/-- The components that the patch leaves keep all component versions, or lose all. -/
def UpdateIssueRequest.Whole (patch : UpdateIssueRequest) (rows : List VersionRow) : Prop :=
  (∀ row ∈ rows, ∀ ids ∈ patch.components, row.componentId ∈ ids) ∨
    ∀ row ∈ rows, ∃ ids ∈ patch.components, row.componentId ∉ ids

theorem separate_of_cleared (hs : Separate s)
    (h : Rewrites id s s' ∧ s'.fix id = some (none, text)) : Separate s' := by
  refine separate_of_rewrites h.1 hs ?_
  intro f hf
  rw [h.2] at hf
  rw [← Option.some.inj hf]
  exact exclusive_of_none

variable {patch : UpdateIssueRequest}

/-- A patch that gives no component version, and takes all or none away. -/
theorem separate_of_whole (hs : Separate s) (hfix : s.fix id = some (none, text))
    (hpairs : patch.componentVersions.getD [] = []) (hwhole : patch.Whole (s.versionRows id)) :
    Leaves C (replaceSets id patch.labels patch.components patch.componentVersions
      patch.customerIds) Separate s := by
  have hissue : (s.fix id).isSome := by rw [hfix]; rfl
  have hseparate : ∀ s', Rewrites id s s' ∧ s'.fix id = some (none, text) → Separate s' :=
    fun s' => separate_of_cleared hs
  have hK : Settled fun s' => Rewrites id s s' ∧ s'.fix id = some (none, text) :=
    (settled_rewrites id s).and fun _ _ haside h => (haside.fix id).trans h
  have hsets : Ensures Stmt.exec C (replaceSets id patch.labels patch.components
      patch.componentVersions patch.customerIds)
      (fun _ s' => Rewrites id s s' ∧ s'.fix id = some (none, text))
      (fun problem s => problem = internal ∧ Separate s) s := by
    apply ensures_replaceSets (I := fun s' => (Rewrites id s s' ∧ s'.fix id = some (none, text)) ∧
      s'.versionRows id = s.versionRows id)
    · exact hK.and fun _ _ haside h => (haside.versionRows id).trans h
    · exact hK
    · exact hK
    · apply Phase.of_within (fun s' h => hseparate s' h.1) fun _ _ h => h
      intro ids _ s₁ s₂ h hset
      exact ⟨⟨h.1.1.trans (Db.rewrites_setIssueLabels hset),
        (fix_setIssueLabels hset id).trans h.1.2⟩, (versionRows_setIssueLabels hset id).trans h.2⟩
    · apply Phase.of_within (fun s' h => hseparate s' h.1) fun _ _ h => h.1
      intro ids hids s₁ s₂ h hset
      have hrewrites := h.1.1.trans (Db.rewrites_setIssueComponents hset)
      refine ⟨hrewrites, ?_⟩
      rcases hwhole with hstay | hgo
      · rw [fix_setIssueComponents_of_stay hset fun row hrow => hstay row (h.2 ▸ hrow) ids hids]
        exact h.1.2
      · apply fix_of_rows_empty hrewrites hfix
        apply versionRows_setIssueComponents_of_go hset (h.1.1.sound hs.sound)
        intro row hrow
        obtain ⟨ids', hids', hgoes⟩ := hgo row (h.2 ▸ hrow)
        rw [hids] at hids'
        rw [Option.some.inj hids']
        exact hgoes
    · apply Phase.of_within hseparate fun _ _ h => h
      intro pairs hgiven s₁ s₂ h hset
      have hempty : pairs = [] := by
        rw [hgiven] at hpairs
        exact hpairs
      have hrewrites :=
        h.1.trans (Db.rewrites_setIssueComponentVersions (h.1.isSome hissue) hset).1
      refine ⟨hrewrites, fix_of_rows_empty hrewrites hfix ?_⟩
      exact versionRows_setIssueComponentVersions hset (by simp [hempty])
    · apply Phase.of_within hseparate fun _ _ h => h
      intro ids _ s₁ s₂ h hset
      exact ⟨h.1.trans (Db.rewrites_setIssueCustomers hset),
        (fix_setIssueCustomers hset id).trans h.2⟩
    · exact ⟨⟨Rewrites.refl id s, hfix⟩, rfl⟩
  exact hsets.mono (fun _ s' h => hseparate s' h) fun _ _ h => h.2

/-- A patch that takes the component versions away, where nothing fails. -/
theorem separate_of_emptied {old : FullIssue} {seen : Db}
    (hC : ∀ choice, C choice → choice.fails = false) (hchecked : Checked seen patch old)
    (hcatalog : s.catalog = seen.catalog) (hversions : s.releaseVersions = seen.releaseVersions)
    (hs : Separate s) (hfix : s.fix id = some (none, text))
    (hpairs : patch.componentVersions = some []) :
    Leaves C (replaceSets id patch.labels patch.components patch.componentVersions
      patch.customerIds) Separate s := by
  have hissue : (s.fix id).isSome := by rw [hfix]; rfl
  have hI := settled_rewrites id s
  have hsets : Ensures Stmt.exec C (replaceSets id patch.labels patch.components
      patch.componentVersions patch.customerIds)
      (fun _ s' => Rewrites id s s' ∧ s'.fix id = some (none, text))
      (fun problem s => problem = internal ∧ Separate s) s := by
    apply ensures_replaceSets hI hI (hI.and fun _ _ haside h => (haside.fix id).trans h)
    · apply Phase.of_calm hC fun _ _ h => h
      · exact fun ids _ s₁ s₂ h hset => h.trans (Db.rewrites_setIssueLabels hset)
      · exact fun ids hids s₁ h => hchecked.setsLabels (h.catalog.trans hcatalog) ids hids
    · apply Phase.of_calm hC fun _ _ h => h
      · exact fun ids _ s₁ s₂ h hset => h.trans (Db.rewrites_setIssueComponents hset)
      · exact fun ids hids s₁ h => hchecked.setsComponents (h.catalog.trans hcatalog) ids hids
    · apply Phase.of_calm hC
      · intro hnone
        rw [hpairs] at hnone
        contradiction
      · intro pairs hgiven s₁ s₂ h hset
        rw [hpairs] at hgiven
        have hrewrites := h.trans (Db.rewrites_setIssueComponentVersions (h.isSome hissue) hset).1
        refine ⟨hrewrites, fix_of_rows_empty hrewrites hfix ?_⟩
        apply versionRows_setIssueComponentVersions hset
        simp [← Option.some.inj hgiven]
      · exact fun pairs hgiven s₁ h => hchecked.setsPairs (h.versions.trans hversions) pairs hgiven
    · apply Phase.of_calm hC fun _ _ h => h
      · exact fun ids _ s₁ s₂ h hset => ⟨h.1.trans (Db.rewrites_setIssueCustomers hset),
          (fix_setIssueCustomers hset id).trans h.2⟩
      · exact fun ids hids s₁ h => hchecked.setsCustomers (h.1.catalog.trans hcatalog) ids hids
    · exact Rewrites.refl id s
  exact hsets.mono (fun _ _ h => separate_of_cleared hs h) fun _ _ h => h.2

/-! ## Requests -/

/-- The request keeps the forms apart. -/
def KeepsForms (db : Db) (turn : Turn) : Prop :=
  match turn.request with
  | .createIssue _ _ body => ∀ req, body = .valid req → req.Apart
  | .bulkCreateIssues _ body => ∀ items, body = .valid items → ∀ req ∈ items, req.Apart
  | .updateIssue ctx req => ∀ patch old, Comes db ctx req patch old →
      hasText (patch.over old.toIssue).releaseText = true →
        patch.componentVersions.getD [] = [] ∧ (patch.Whole (db.versionRows old.id) ∨
          turn.Calm ∧ patch.componentVersions = some [])
  | .createVersion _ _ _ => True
  | .deleteVersion ctx id => ctx.allowed = true → db.versionInProject ctx.projectId id = true →
      ∀ issueId, ∀ f ∈ db.fix issueId, hasText f.2 = true → (∃ row ∈ db.versionRows issueId,
        row.releaseVersionId = id) → ∀ row ∈ db.versionRows issueId, row.releaseVersionId = id

/-- A version that goes is mirrored away from the issues that had no other. -/
theorem separate_deleteVersion (hs : Separate s) (h : Db.Without id s s')
    (hlast : ∀ issueId, ∀ f ∈ s.fix issueId, hasText f.2 = true →
      (∃ row ∈ s.versionRows issueId, row.releaseVersionId = id) →
        ∀ row ∈ s.versionRows issueId, row.releaseVersionId = id) : Separate s' := by
  refine ⟨h.sound hs.sound, ?_⟩
  intro issueId f hf
  rw [h.fix] at hf
  by_cases hany : (s.versionRows issueId).any (·.releaseVersionId == id) = true
  · rw [if_pos hany] at hf
    obtain ⟨old, hold, rfl⟩ := Option.map_eq_some_iff.mp hf
    by_cases htext : hasText old.2 = true
    · obtain ⟨row, hrow, hid⟩ := List.any_eq_true.mp hany
      have hall := hlast issueId old hold htext ⟨row, hrow, by simpa using hid⟩
      have hrows : s'.versionRows issueId = [] := by
        rw [h.versionRows]
        apply List.filter_eq_nil_iff.mpr
        intro row hrow
        simp [hall row hrow]
      rw [Db.mirrorOf, Db.versionsOf, hrows]
      exact exclusive_of_none
    · exact exclusive_of_blank (by simpa using htext)
  · rw [if_neg hany] at hf
    obtain ⟨old, hold, rfl⟩ := Option.map_eq_some_iff.mp hf
    by_cases hnamed : old.1 = some id
    · rw [if_pos hnamed]
      exact exclusive_of_none
    · rw [if_neg hnamed]
      exact hs.forms issueId old hold

/-- A patch under a text that is blank, or that keeps it apart from the versions. -/
theorem separate_patch {old : FullIssue} (hs : Separate s) (hchecked : Checked s patch old)
    (hmid : Aside s mid) (hwrites : WritesRow old.id (patch.over old.toIssue) mid s')
    (h : hasText (patch.over old.toIssue).releaseText = true →
      patch.componentVersions.getD [] = [] ∧ (patch.Whole (s.versionRows old.id) ∨
        (∀ choice, C choice → choice.fails = false) ∧ patch.componentVersions = some [])) :
    Leaves C (replaceSets old.id patch.labels patch.components patch.componentVersions
      patch.customerIds) Separate s' := by
  have hbefore := settled_separate s mid hmid hs
  have hdone : Separate s' := by
    refine ⟨hwrites.sound hbefore.sound, ?_⟩
    intro other f hf
    by_cases hother : other = old.id
    · rw [hother, hwrites.own] at hf
      rw [← Option.some.inj hf]
      exact hchecked.exclusive
    · rw [hwrites.fix other hother] at hf
      exact hbefore.forms other f hf
  by_cases htext : hasText (patch.over old.toIssue).releaseText = true
  · have hfix := hwrites.own
    rw [none_of_exclusive hchecked.exclusive htext] at hfix
    obtain ⟨hpairs, hwhole | ⟨hC, hempty⟩⟩ := h htext
    · apply separate_of_whole hdone hfix hpairs
      rw [hwrites.versionRows, hmid.versionRows]
      exact hwhole
    · apply separate_of_emptied hC hchecked ?_ ?_ hdone hfix hempty
      · rw [hwrites.only]
        exact hmid.catalog
      · rw [hwrites.only]
        exact hmid.versions
  · exact separate_replaceSets_of_blank hdone hwrites.own (by simpa using htext)

theorem separate_next {turn : Turn} (hs : Separate s) (h : KeepsForms s turn) :
    Separate (server.next s turn) := by
  obtain ⟨request, choices⟩ := turn
  cases request with
  | createIssue ctx key body =>
    exact next_of_leaves_any (leaves_createIssue settled_separate hs
      fun req hbody hexclusive => creates_separate hexclusive (h req hbody))
  | bulkCreateIssues ctx body =>
    exact next_of_leaves_any (leaves_bulkCreateIssues settled_separate hs
      fun items hbody req hreq hexclusive => creates_separate hexclusive (h items hbody req hreq))
  | createVersion ctx releaseId body =>
    refine next_of_leaves_any (leaves_createVersion settled_separate hs ?_)
    intro version s' haside
    have hbefore := settled_separate s s' haside hs
    have hgrows := Db.createVersion_grows releaseId version s'
    refine ⟨hgrows.sound hbefore.sound, ?_⟩
    intro id f hf
    rw [hgrows.fix] at hf
    exact hbefore.forms id f hf
  | deleteVersion ctx id =>
    refine next_of_leaves_any (leaves_deleteVersion settled_separate hs ?_)
    intro s' haside hallowed
    have hbefore := settled_separate s s' haside hs
    rcases Db.deleteVersion_without ctx.projectId id s' with hsame | ⟨hfound, hwithout⟩
    · rw [hsame]
      exact hbefore
    · apply separate_deleteVersion hbefore hwithout
      rw [(reads_versionInProject ctx.projectId id).same haside] at hfound
      intro issueId
      rw [haside.fix, haside.versionRows]
      exact h hallowed hfound issueId
  | updateIssue ctx req =>
    -- what fails is bounded only where the component versions must go
    by_cases hcalm : Turn.Calm ⟨.updateIssue ctx req, choices⟩
    · refine next_of_leaves (C := fun choice => choice.fails = false) hcalm
        (leaves_updateIssue settled_separate hs ?_)
      intro patch old mid s' hcomes hchecked hmid hwrites
      apply separate_patch hs hchecked hmid hwrites
      intro htext
      obtain ⟨hpairs, hways⟩ := h patch old hcomes htext
      exact ⟨hpairs, hways.imp_right fun hempty => ⟨fun _ h => h, hempty.2⟩⟩
    · refine next_of_leaves_any (leaves_updateIssue settled_separate hs ?_)
      intro patch old mid s' hcomes hchecked hmid hwrites
      apply separate_patch hs hchecked hmid hwrites
      intro htext
      obtain ⟨hpairs, hways⟩ := h patch old hcomes htext
      exact ⟨hpairs, hways.imp_right fun hempty => absurd hempty.1 hcalm⟩

/-! ## Refusals -/

/-- The write phase has other problems. -/
theorem other_writePatch (projectId : Uuid) (patch : UpdateIssueRequest) (old : FullIssue) :
    Ensures Stmt.exec C (writePatch projectId patch old) (fun _ _ => True)
      (fun problem _ => Other problem) s := by
  have hphase : ∀ {α : Type} (set : α → Db → Option Db) (given : Option α),
      Phase C set given (fun _ => True) (fun _ => True) fun _ => True :=
    fun _ _ => Phase.of_kept fun _ _ _ _ _ => trivial
  unfold writePatch orInternal
  rw [ensures_bind, ensures_attempt]
  apply (ensures_updateRow projectId old.id old.version (patch.over old.toIssue)).mono
  · intro outcome s' _
    cases outcome with
    | notFound => exact other_notFound
    | conflict => exact other_status (by decide)
    | updated row =>
      have hsettled : Settled fun _ => True := fun _ _ _ _ => trivial
      refine ensures_bind.mpr ((ensures_replaceSets hsettled hsettled hsettled (hphase _ _)
        (hphase _ _) (hphase _ _) (hphase _ _) trivial).mono ?_ ?_)
      · intro _ s _
        refine (stays_reread projectId row.id s).ensures (Aside.refl s) ?_ fun _ _ _ h => h
        exact fun _ _ _ _ => trivial
      · rintro problem _ ⟨rfl, -⟩
        exact other_internal
  · exact fun _ _ _ => other_internal

/-- A patch that mentions neither form is not refused for giving both. -/
def Unrefused (db : Db) (turn : Turn) : Prop :=
  ∀ ctx req patch, turn.request = .updateIssue ctx req → req.body = .ok patch →
    patch.releaseVersionId = none → patch.releaseText = none →
      server.answer db turn ≠ .error invalidFixVersion

theorem unrefused_of_separate {turn : Turn} (hs : Separate s) : Unrefused s turn := by
  obtain ⟨request, choices⟩ := turn
  rintro ctx req patch rfl hbody hversion htext hanswer
  have hends : Ensures Stmt.exec (fun _ => True) (updateIssue ctx req) (fun _ _ => True)
      (fun problem _ => Other problem) s := by
    apply ensures_updateIssue
    · intro s' problem haside hboth hproblem
      obtain ⟨patch', old, hcomes, hgiven⟩ := hboth hproblem
      have hsame : patch' = patch := Except.ok.inj (hcomes.body.symm.trans hbody)
      -- the patch merges to the two columns as they are stored
      have hmerged : ((patch'.over old.toIssue).releaseVersionId,
          (patch'.over old.toIssue).releaseText) = (old.releaseVersionId, old.releaseText) := by
        simp [UpdateIssueRequest.over, hsame, hversion, htext]
      have hstored := hs.forms old.id _ (fix_of_fullIssue hcomes.found)
      rw [← hmerged, Exclusive, hgiven] at hstored
      contradiction
    · exact fun s' patch old _ _ _ => (other_writePatch ctx.projectId patch old)
  have houtcome : Outcome _ _ ((updateIssue ctx req).run.alone Stmt.exec choices s).1 _ :=
    Prog.Ends.alone hends fun _ => trivial
  have hrefused : ((updateIssue ctx req).run.alone Stmt.exec choices s).1 =
      .error invalidFixVersion := hanswer
  rw [hrefused] at houtcome
  exact houtcome rfl

end

/-! ## Whole runs -/

/-- From an issue tracker without issues, a run that keeps the forms apart reaches no
issue with both, and refuses no patch that mentions neither. -/
theorem release_forms_exclusive {db : Db} (hissues : db.issues.rows = [])
    (hrows : db.componentVersions = []) {turns : List Turn} (h : server.Each KeepsForms db turns) :
    server.Always FormsExclusive db turns ∧ server.Each Unrefused db turns := by
  have hempty : Separate db := by
    refine ⟨(mirroring_of_empty hrows).sound, ?_⟩
    intro id f hf
    have hnone : db.issue? id = none := by
      rw [Db.issue?, Table.find?, hissues]
      rfl
    rw [Db.fix, hnone] at hf
    contradiction
  have hseparate : server.Always Separate db turns :=
    Server.always_of_each (fun _ _ hs hturn => separate_next hs hturn) hempty h
  refine ⟨fun first last hsplit => (hseparate first last hsplit).exclusive, ?_⟩
  apply Server.each_iff.mpr
  intro first turn last hsplit
  exact unrefused_of_separate (hseparate first (turn :: last) hsplit)

/-- A free text, with a version for its component. -/
def promised (pairs : List ComponentVersion) : Turn :=
  calm (.createIssue planner none (.valid
    { subject := "crash"
      releaseText := some "soon"
      components := [5]
      componentVersions := pairs }))

/-- A patch of another column. -/
def retitling : Turn := calm (.updateIssue planner ⟨1, some "*", .ok { subject := some "stall" }⟩)

theorem release_forms_exclusive_promised :
    server.Always FormsExclusive shippedTwice [promised [], retitling] ∧
      server.Each Unrefused shippedTwice [promised [], retitling] := by
  refine release_forms_exclusive rfl rfl ⟨?_, ?_, trivial⟩
  · rintro req hbody - pair hpair
    rw [← CreateBody.valid.inj hbody] at hpair
    contradiction
  · intro patch old hcomes _
    rw [← Except.ok.inj hcomes.body]
    exact ⟨rfl, .inl (.inl fun _ _ _ hids => absurd hids.symm (Option.some_ne_none _))⟩

theorem promised_run : ((server.run shippedTwice [promised [⟨5, 20⟩]]).issue? 1).map
    (fun issue => (issue.releaseVersionId, issue.releaseText)) = some (some 20, some "soon") := by
  decide +kernel

/-- A new issue with a text gets the version of its component, too. -/
theorem release_forms_meet :
    ¬ ∀ db : Db, db.issues.rows = [] → db.componentVersions = [] →
      ∀ turns, server.Always FormsExclusive db turns ∧ server.Each Unrefused db turns := by
  intro h
  obtain ⟨issue, hissue, hboth⟩ := Option.map_eq_some_iff.mp promised_run
  have hexclusive := (h shippedTwice rfl rfl [promised [⟨5, 20⟩]]).1 [promised [⟨5, 20⟩]] [] rfl 1
    issue hissue
  obtain ⟨hversion, htext⟩ := Prod.mk.inj hboth
  rw [Exclusive, hversion, htext] at hexclusive
  exact absurd hexclusive (by decide +kernel)

end IntelliPilot.Issues
