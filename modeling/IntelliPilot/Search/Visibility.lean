import IntelliPilot.Search.Handlers

/-! # Search reveals what can be opened

The index holds the live rows of each table, so a hit is a live item of a live
project, and its kind is readable there. A comment is found for as long as it is
live itself, and by those who may view issues: it is as it should be where the
item is live and whoever views issues may view the item.
-/

namespace IntelliPilot.Search

open Http Statement
open Projects (Uuid Permission Role Membership ProjectContext)
open Projects.Activity (Comment Target TargetType Params admitComment)

namespace State

/-- The index holds a copy of every live row, and nothing else. -/
structure InSync (s : State) : Prop where
  items : ∀ kind, (syncSearchWorkitem kind).Mirrors (s.items kind) s.searchIndex
  wikiPages : syncSearchWiki.Mirrors s.wikiPages s.searchIndex
  meetings : syncSearchMeeting.Mirrors s.meetings s.searchIndex
  comments : syncSearchComment.Mirrors s.comments s.searchIndex

/-- What the actor may do in a live project. -/
def holds (s : State) (actorId projectId : Uuid) (permission : Permission) : Bool :=
  (s.isActiveSuperadmin actorId && permission.isSuperadminGrant) ||
    (s.access projectId actorId).any (·.has permission)

/-- The actor is let into the project with the permission. -/
def Permits (s : State) (actorId projectId : Uuid) (permission : Permission) : Prop :=
  ∃ ctx, s.context projectId actorId = some ctx ∧ ctx.require permission = none

/-- The target is a live item of the project. -/
def ItemLive (s : State) (projectId : Uuid) (target : Target) : Prop :=
  ∃ kind : ItemKind, target.1 = kind.entityType ∧ (s.item? kind projectId target.2).isSome = true

/-- The hit is live, in a live project, and the actor may open it. -/
def Openable (s : State) (actorId : Uuid) (hit : SearchHit) : Prop :=
  match hit.entityType with
  | .epic => (s.item? .epic hit.projectId hit.entityId).isSome = true ∧
      s.Permits actorId hit.projectId .epicView
  | .issue => (s.item? .issue hit.projectId hit.entityId).isSome = true ∧
      s.Permits actorId hit.projectId .issueView
  | .wiki => (s.wikiPage? hit.projectId hit.entityId).isSome = true ∧
      s.Permits actorId hit.projectId .wikiView
  | .meeting => (s.meeting? hit.projectId hit.entityId).isSome = true ∧
      s.Permits actorId hit.projectId .meetingView
  | .comment => ∃ comment, s.liveComment? hit.entityId = some comment ∧
      comment.projectId = hit.projectId ∧ s.ItemLive hit.projectId comment.target ∧
        s.Permits actorId hit.projectId comment.target.1.viewPerm

/-- Whoever views the issues of the project may view what the comment is on. -/
def OpenToReaders (s : State) (projectId : Uuid) (target : Target) : Prop :=
  ∀ actorId, s.holds actorId projectId .issueView = true →
    s.holds actorId projectId target.1.viewPerm = true

/-- The comments of live projects are on live items, which their readers may view. -/
def CommentsTidy (s : State) : Prop :=
  ∀ id comment, s.liveComment? id = some comment → (s.project? comment.projectId).isSome = true →
    s.ItemLive comment.projectId comment.target ∧
      s.OpenToReaders comment.projectId comment.target

/-- An index in step, and tidy comments. -/
structure Tidy (s : State) : Prop where
  inSync : s.InSync
  comments : s.CommentsTidy
  /-- The foreign key of `comments`. -/
  projects : ∀ id comment, s.liveComment? id = some comment →
    (s.projects.find? comment.projectId).isSome = true

end State

section Search

variable {s : State} {scope : SearchScope} {entry : Entry} {hit : SearchHit}

/-! ## Who may read -/

theorem memberMayRead_eq (s : State) (scope : SearchScope) (entry : Entry) :
    s.memberMayRead scope entry =
      (s.access entry.projectId scope.actorId).any (·.has (accessPermission entry.entityType)) := by
  rw [Bool.eq_iff_iff]
  simp only [State.memberMayRead, State.access, List.any_eq_true, Bool.and_eq_true, beq_iff_eq,
    Bool.or_eq_true]
  constructor
  · rintro ⟨membership, hmembership, ⟨hproject, hactor⟩, role, hrole, hid, hmay⟩
    have hmember := Table.find?_key hmembership
    rw [Membership.key, hproject, hactor] at hmember
    have hfound := Table.find?_key hrole
    rw [hid] at hfound
    simpa [hmember, hfound, Projects.MemberAccess.has] using hmay
  · intro hmay
    cases hmember : s.memberships.find? (entry.projectId, scope.actorId) with
    | none => simp [hmember] at hmay
    | some membership =>
      cases hfound : s.roles.find? membership.roleId with
      | none => simp [hmember, hfound] at hmay
      | some role =>
        have hkey : membership.key = (entry.projectId, scope.actorId) :=
          Table.key_of_find? hmember
        obtain ⟨hproject, hactor⟩ := Prod.mk.inj hkey
        refine ⟨membership, Table.mem_of_find? hmember, ⟨hproject, hactor⟩, role,
          Table.mem_of_find? hfound, Table.key_of_find? hfound, ?_⟩
        simpa [hmember, hfound, Projects.MemberAccess.has] using hmay

/-- A permission that is held lets the actor into a live project. -/
theorem permits_of_holds {actorId projectId : Uuid} {permission : Permission}
    (hproject : (s.project? projectId).isSome = true)
    (hholds : s.holds actorId projectId permission = true) :
    s.Permits actorId projectId permission := by
  obtain ⟨project, hfound⟩ := Option.isSome_iff_exists.mp hproject
  refine ⟨⟨projectId, actorId, s.access projectId actorId, s.isActiveSuperadmin actorId⟩, ?_, ?_⟩
  · have hseen : (project.isPrivate && (s.access projectId actorId).isNone &&
        !s.isActiveSuperadmin actorId) = false := by
      unfold State.holds at hholds
      cases haccess : s.access projectId actorId with
      | some access => simp
      | none =>
        rw [haccess] at hholds
        simp only [Option.any_none, Bool.or_false, Bool.and_eq_true] at hholds
        simp [hholds.1]
    unfold State.context
    rw [hfound]
    show (if _ then none else some _) = some _
    rw [if_neg (by rw [hseen]; exact Bool.noConfusion)]
  · rw [ProjectContext.require, if_pos]
    exact hholds

theorem holds_of_readable (hsuper : scope.isSuperadmin = s.isActiveSuperadmin scope.actorId)
    (h : s.readable scope entry = true) :
    s.holds scope.actorId entry.projectId (accessPermission entry.entityType) = true := by
  simp only [State.readable, Bool.and_eq_true, Bool.or_eq_true, memberMayRead_eq] at h
  obtain ⟨⟨⟨_, hmay⟩, _⟩, _⟩ := h
  rw [State.holds, Bool.or_eq_true, Bool.and_eq_true]
  rcases hmay with hadmin | hmember
  · left
    refine ⟨hsuper ▸ hadmin, ?_⟩
    cases entry.entityType <;> rfl
  · exact .inr hmember

theorem project_of_readable (h : s.readable scope entry = true) :
    (s.project? entry.projectId).isSome = true := by
  simp only [State.readable, Bool.and_eq_true] at h
  exact h.1.1.1

/-! ## What a hit shows -/

/-- The hit shows a readable entry of the index. -/
def Shows (s : State) (scope : SearchScope) (hit : SearchHit) : Prop :=
  ∃ entry ∈ s.searchIndex.rows, s.readable scope entry = true ∧
    hit.entityType = entry.entityType ∧ hit.entityId = entry.entityId ∧
      hit.projectId = entry.projectId

theorem shows_of_searchKeys {engine : Engine} {key : KeyQuery} {limit : Nat}
    (h : hit ∈ s.searchKeys engine scope key limit) : Shows s scope hit := by
  obtain ⟨entry, hentry, rfl⟩ := List.mem_map.mp h
  have hfound := List.mem_mergeSort.mp (List.mem_of_mem_take hentry)
  obtain ⟨hmem, hmatch⟩ := List.mem_filter.mp hfound
  rw [Bool.and_eq_true] at hmatch
  exact ⟨entry, hmem, hmatch.1, rfl, rfl, rfl⟩

theorem shows_of_searchText {engine : Engine} {query : TextQuery} {limit : Nat}
    (h : hit ∈ s.searchText engine scope query limit) : Shows s scope hit := by
  obtain ⟨row, hrow, rfl⟩ := List.mem_map.mp h
  have hfound := List.mem_mergeSort.mp (List.mem_of_mem_take hrow)
  obtain ⟨entry, hentry, hmatch⟩ := List.mem_filterMap.mp hfound
  obtain ⟨textMatch, _, rfl⟩ := Option.map_eq_some_iff.mp hmatch
  obtain ⟨hmem, hreadable⟩ := List.mem_filter.mp hentry
  exact ⟨entry, hmem, hreadable, rfl, rfl, rfl⟩

/-- The row that a feed of live rows has copied. -/
theorem row_of_entry {α : Type} {key : α → Uuid} {feed : Feed key Entry.key} {t : Table key}
    {live : α → Bool} {copied : α → Entry} (h : feed.Mirrors t s.searchIndex)
    (hcopy : ∀ row, feed.copy row = if live row then some (copied row) else none)
    (hentry : entry ∈ s.searchIndex.rows) (htag : entry.entityType = feed.tag) :
    ∃ row, t.find? entry.entityId = some row ∧ live row = true ∧ entry = copied row := by
  obtain ⟨row, hrow, hcopied⟩ := h.row_of_copy hentry (k := entry.entityId) (Prod.ext htag rfl)
  rw [hcopy] at hcopied
  split at hcopied
  · rename_i hlive
    exact ⟨row, hrow, hlive, (Option.some.inj hcopied).symm⟩
  · contradiction

theorem item_of_entry (h : s.InSync) (kind : ItemKind) (hentry : entry ∈ s.searchIndex.rows)
    (htype : entry.entityType = kind.entityType) :
    (s.item? kind entry.projectId entry.entityId).isSome = true := by
  obtain ⟨row, hrow, hlive, hcopied⟩ := row_of_entry (h.items kind) (fun _ => rfl) hentry htype
  have hproject : entry.projectId = row.projectId := by rw [hcopied]; rfl
  rw [State.item?, hrow, Option.filter_some, hproject]
  simp [hlive]

/-- Where the comments are tidy, what is shown can be opened. -/
theorem openable_of_shows (h : s.Tidy)
    (hsuper : scope.isSuperadmin = s.isActiveSuperadmin scope.actorId)
    (hshows : Shows s scope hit) : s.Openable scope.actorId hit := by
  obtain ⟨entry, hentry, hreadable, htype, hid, hproject⟩ := hshows
  have hlive := project_of_readable hreadable
  have hholds := holds_of_readable hsuper hreadable
  unfold State.Openable
  rw [htype, hid, hproject]
  cases hkind : entry.entityType with
  | epic =>
    rw [hkind] at hholds
    exact ⟨item_of_entry h.inSync .epic hentry hkind, permits_of_holds hlive hholds⟩
  | issue =>
    rw [hkind] at hholds
    exact ⟨item_of_entry h.inSync .issue hentry hkind, permits_of_holds hlive hholds⟩
  | wiki =>
    rw [hkind] at hholds
    obtain ⟨row, hrow, hrowLive, hcopied⟩ :=
      row_of_entry h.inSync.wikiPages (fun _ => rfl) hentry hkind
    refine ⟨?_, permits_of_holds hlive hholds⟩
    have hof : entry.projectId = row.projectId := by rw [hcopied]; rfl
    rw [State.wikiPage?, hrow, Option.filter_some, hof]
    simp [hrowLive]
  | meeting =>
    rw [hkind] at hholds
    obtain ⟨row, hrow, hrowLive, hcopied⟩ :=
      row_of_entry h.inSync.meetings (fun _ => rfl) hentry hkind
    refine ⟨?_, permits_of_holds hlive hholds⟩
    have hof : entry.projectId = row.projectId := by rw [hcopied]; rfl
    rw [State.meeting?, hrow, Option.filter_some, hof]
    simp [hrowLive]
  | comment =>
    rw [hkind] at hholds
    obtain ⟨comment, hrow, hrowLive, hcopied⟩ :=
      row_of_entry h.inSync.comments (fun _ => rfl) hentry hkind
    have hof : entry.projectId = comment.projectId := by rw [hcopied]; rfl
    have hcomment : s.liveComment? entry.entityId = some comment := by
      rw [State.liveComment?, hrow, Option.filter_some, if_pos hrowLive]
    rw [hof] at hlive hholds ⊢
    obtain ⟨hitem, hreaders⟩ := h.comments _ comment hcomment hlive
    exact ⟨comment, hcomment, rfl, hitem, permits_of_holds hlive (hreaders _ hholds)⟩

end Search

end IntelliPilot.Search
