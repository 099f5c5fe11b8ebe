import IntelliPilot.Search.Visibility

/-! # What requests leave in the index

Every statement keeps the index in step with its tables. Comments stay tidy
unless one is made on an item that is not there, an item goes that has some, or
readers of issues may not view the epic that a comment is on.
-/

namespace IntelliPilot.Search

open Http Statement
open Projects (Uuid Permission Role Membership ProjectContext)
open Projects.Activity (Comment Target TargetType Params admitComment)

/-! ## The index -/

namespace State.InSync

variable {s : State}

theorem congr {s' : State} (h : s.InSync) (hitems : s'.items = s.items)
    (hpages : s'.wikiPages = s.wikiPages) (hmeetings : s'.meetings = s.meetings)
    (hcomments : s'.comments = s.comments) (hindex : s'.searchIndex = s.searchIndex) :
    s'.InSync := by
  refine ⟨fun kind => ?_, ?_, ?_, ?_⟩
  · rw [hitems, hindex]
    exact h.items kind
  · rw [hpages, hindex]
    exact h.wikiPages
  · rw [hmeetings, hindex]
    exact h.meetings
  · rw [hcomments, hindex]
    exact h.comments

variable {index : Table Entry.key}

theorem setItems (h : s.InSync) {kind : ItemKind} {table : Table WorkItem.id}
    (hwritten : (syncSearchWorkitem kind).Mirrors table index ∧
      (syncSearchWorkitem kind).Apart s.searchIndex index) :
    (s.setItems kind table index).InSync := by
  obtain ⟨hmirrors, hapart⟩ := hwritten
  refine ⟨?_, h.wikiPages.apart hapart ?_, h.meetings.apart hapart ?_, h.comments.apart hapart ?_⟩
  · intro other
    show (syncSearchWorkitem other).Mirrors (if other = kind then table else s.items other) index
    split
    · rename_i hsame
      subst hsame
      exact hmirrors
    · rename_i hother
      apply (h.items other).apart hapart
      intro htag
      cases other <;> cases kind <;> first | exact hother rfl | cases htag
  all_goals
    intro htag
    cases kind <;> cases htag

theorem setWikiPages (h : s.InSync) {table : Table WikiPage.id}
    (hwritten : syncSearchWiki.Mirrors table index ∧ syncSearchWiki.Apart s.searchIndex index) :
    InSync { s with wikiPages := table, searchIndex := index } := by
  obtain ⟨hmirrors, hapart⟩ := hwritten
  refine ⟨fun kind => (h.items kind).apart hapart ?_, hmirrors, h.meetings.apart hapart ?_,
    h.comments.apart hapart ?_⟩
  · cases kind <;> exact fun htag => by cases htag
  all_goals exact fun htag => by cases htag

theorem setMeetings (h : s.InSync) {table : Table Meeting.id}
    (hwritten : syncSearchMeeting.Mirrors table index ∧
      syncSearchMeeting.Apart s.searchIndex index) :
    InSync { s with meetings := table, searchIndex := index } := by
  obtain ⟨hmirrors, hapart⟩ := hwritten
  refine ⟨fun kind => (h.items kind).apart hapart ?_, h.wikiPages.apart hapart ?_, hmirrors,
    h.comments.apart hapart ?_⟩
  · cases kind <;> exact fun htag => by cases htag
  all_goals exact fun htag => by cases htag

theorem setComments (h : s.InSync) {table : Table Comment.id}
    (hwritten : syncSearchComment.Mirrors table index ∧
      syncSearchComment.Apart s.searchIndex index) :
    InSync { s with comments := table, searchIndex := index } := by
  obtain ⟨hmirrors, hapart⟩ := hwritten
  refine ⟨fun kind => (h.items kind).apart hapart ?_, h.wikiPages.apart hapart ?_,
    h.meetings.apart hapart ?_, hmirrors⟩
  · cases kind <;> exact fun htag => by cases htag
  all_goals exact fun htag => by cases htag

end State.InSync

/-- What a request may do that leaves the comments tidy. -/
structure Keeps (s s' : State) : Prop where
  inSync : s.InSync → s'.InSync
  comments : ∀ id comment, s'.liveComment? id = some comment →
    ∃ old, s.liveComment? id = some old ∧ comment.projectId = old.projectId ∧
      comment.target = old.target
  stored : ∀ id, (s.projects.find? id).isSome = true → (s'.projects.find? id).isSome = true
  projects : ∀ id, (s.projects.find? id).isSome = true → (s'.project? id).isSome = true →
    (s.project? id).isSome = true
  items : ∀ id comment, s'.liveComment? id = some comment →
    s.ItemLive comment.projectId comment.target → s'.ItemLive comment.projectId comment.target
  rights : ∀ actorId projectId permission,
    s'.holds actorId projectId permission = s.holds actorId projectId permission

section Keeps

variable {s s' : State}

theorem Keeps.tidy (h : Keeps s s') (htidy : s.Tidy) : s'.Tidy := by
  refine ⟨h.inSync htidy.inSync, ?_, ?_⟩
  · intro id comment hcomment hproject
    obtain ⟨old, hold, hof, htarget⟩ := h.comments id comment hcomment
    have hstored := htidy.projects id old hold
    have hlive := h.projects _ (hof ▸ hstored) hproject
    rw [hof] at hlive
    obtain ⟨hitem, hreaders⟩ := htidy.comments id old hold hlive
    rw [← hof, ← htarget] at hitem hreaders
    refine ⟨h.items id comment hcomment hitem, ?_⟩
    intro actorId hholds
    rw [h.rights] at hholds ⊢
    exact hreaders actorId hholds
  · intro id comment hcomment
    obtain ⟨old, hold, hof, _⟩ := h.comments id comment hcomment
    rw [hof]
    exact h.stored _ (htidy.projects id old hold)

/-- Comments, projects, items and rights stay, whatever becomes of pages and meetings. -/
theorem Keeps.of_same (hsync : s.InSync → s'.InSync) (hcomments : s'.comments = s.comments)
    (hprojects : s'.projects = s.projects) (hitems : s'.items = s.items)
    (hrights : ∀ actorId projectId permission,
      s'.holds actorId projectId permission = s.holds actorId projectId permission) :
    Keeps s s' := by
  refine ⟨hsync, ?_, ?_, ?_, ?_, hrights⟩
  · intro id comment hcomment
    rw [State.liveComment?, hcomments] at hcomment
    exact ⟨comment, hcomment, rfl, rfl⟩
  · intro id hstored
    rw [hprojects]
    exact hstored
  · intro id _ hlive
    rw [State.project?, hprojects] at hlive
    exact hlive
  · rintro id comment _ ⟨kind, htype, hitem⟩
    refine ⟨kind, htype, ?_⟩
    rw [State.item?, hitems]
    exact hitem

theorem Keeps.refl (s : State) : Keeps s s := .of_same id rfl rfl rfl fun _ _ _ => rfl

theorem keeps_wait (elapse : Nat) (s : State) : Keeps s (s.wait elapse) :=
  .of_same (fun h => ⟨h.items, h.wikiPages, h.meetings, h.comments⟩) rfl rfl rfl fun _ _ _ => rfl

/-! ## Items -/

theorem setItems_item (kind other : ItemKind) (table : Table WorkItem.id)
    (index : Table Entry.key) : (s.setItems kind table index).items other = if other = kind then table else s.items other := rfl

variable {kind : ItemKind}

theorem Keeps.of_items {table : Table WorkItem.id} {index : Table Entry.key}
    (hwritten : s.InSync → (syncSearchWorkitem kind).Mirrors table index ∧
      (syncSearchWorkitem kind).Apart s.searchIndex index)
    (hitems : ∀ id comment, s.liveComment? id = some comment →
      comment.target.1 = kind.entityType →
        (s.item? kind comment.projectId comment.target.2).isSome = true →
          ((table.find? comment.target.2).any fun row =>
            row.projectId == comment.projectId && row.deletedAt.isNone) = true) :
    Keeps s (s.setItems kind table index) := by
  refine ⟨fun h => h.setItems (hwritten h), fun _ _ h => ⟨_, h, rfl, rfl⟩, fun _ h => h,
    fun _ _ h => h, ?_, fun _ _ _ => rfl⟩
  rintro id comment hcomment ⟨other, htype, hitem⟩
  refine ⟨other, htype, ?_⟩
  rw [State.item?, setItems_item]
  split
  · rename_i hsame
    subst hsame
    rw [Option.isSome_filter]
    exact hitems id comment hcomment htype hitem
  · exact hitem

variable {projectId id : Uuid}

theorem keeps_insertItem {subject description : String}
    (h : s.insertItem kind projectId id subject description = some s') : Keeps s s' := by
  obtain ⟨table, hinsert, rfl⟩ := Option.map_eq_some_iff.mp h
  have hkeeps : Keeps s (s.setItems kind table
      ((syncSearchWorkitem kind).written
        ⟨id, projectId, s.lastRef kind projectId + 1, subject, description, none⟩
        s.searchIndex)) := by
    apply Keeps.of_items
    · exact fun hsync => Feed.mirrors_insert (hsync.items kind) hinsert
    · intro _ comment _ _ hitem
      rw [State.item?, Option.isSome_filter] at hitem
      have hother : comment.target.2 ≠ id := by
        intro hsame
        have hfresh : (s.items kind).find? id = none := Table.insert?_fresh hinsert
        rw [hsame, hfresh] at hitem
        contradiction
      rw [Table.find?_insert? hinsert, if_neg hother]
      exact hitem
  exact ⟨fun hsync => (hkeeps.inSync hsync).congr rfl rfl rfl rfl rfl, hkeeps.comments,
    hkeeps.stored, hkeeps.projects, hkeeps.items, hkeeps.rights⟩

theorem item_found {row : WorkItem} (h : s.item? kind projectId id = some row) :
    (s.items kind).find? row.id = some row ∧ row.id = id := by
  obtain ⟨hfound, _⟩ := Option.filter_eq_some_iff.mp h
  have hid := Table.key_of_find? hfound
  exact ⟨hid ▸ hfound, hid⟩

/-- An item that is written stays in its project, and live where it has comments. -/
theorem keeps_writeItem {row : WorkItem} {f : WorkItem → WorkItem}
    {hf : ∀ row, (f row).id = row.id} (hrow : (s.items kind).find? row.id = some row)
    (hproject : (f row).projectId = row.projectId)
    (hlive : (∃ id comment, s.liveComment? id = some comment ∧
      comment.target = (kind.entityType, row.id)) → (f row).deletedAt = row.deletedAt) :
    Keeps s (s.writeItem kind f hf row) := by
  apply Keeps.of_items
  · exact fun hsync => Feed.mirrors_modify (hsync.items kind) hf hrow
  · intro id comment hcomment htype hitem
    rw [State.item?, Option.isSome_filter] at hitem
    rw [Table.find?_modify]
    by_cases htarget : comment.target.2 = row.id
    · rw [htarget, hrow, Option.any_some] at hitem
      rw [htarget, hrow, Option.map_some, if_pos (beq_self_eq_true _), Option.any_some, hproject,
        hlive ⟨id, comment, hcomment, Prod.ext htype htarget⟩]
      exact hitem
    · cases hfound : (s.items kind).find? comment.target.2 with
      | none =>
        rw [hfound] at hitem
        contradiction
      | some other =>
        have hother : other.id ≠ row.id := by
          rw [Table.key_of_find? hfound]
          exact htarget
        rw [hfound] at hitem
        rw [Option.map_some, if_neg (by simpa using hother)]
        exact hitem

/-- A comment on the item is live. -/
def Commented (s : State) (kind : ItemKind) (itemId : Uuid) : Prop :=
  ∃ id comment, s.liveComment? id = some comment ∧ comment.target = (kind.entityType, itemId)

theorem keeps_updateItem {subject description : String}
    (h : s.updateItem kind projectId id subject description = some s') : Keeps s s' := by
  obtain ⟨row, hrow, rfl⟩ := Option.map_eq_some_iff.mp h
  exact keeps_writeItem (item_found hrow).1 rfl fun _ => rfl

theorem keeps_softDeleteItem (h : s.softDeleteItem kind projectId id = some s')
    (hcommented : ¬ Commented s kind id) :
    Keeps s s' := by
  obtain ⟨row, hrow, rfl⟩ := Option.map_eq_some_iff.mp h
  obtain ⟨hfound, hid⟩ := item_found hrow
  refine keeps_writeItem hfound rfl fun hcomment => ?_
  rw [hid] at hcomment
  exact absurd hcomment hcommented

/-- The comments on purged items go with them. -/
theorem keeps_purgeItems (kind : ItemKind) (projectId : Uuid) :
    Keeps s (s.purgeItems kind projectId) := by
  have hcomments : ∀ id, (s.purgeItems kind projectId).liveComment? id =
      (s.liveComment? id).filter fun comment => !s.onItemOf kind projectId comment := by
    intro id
    show ((s.comments.erase (s.onItemOf kind projectId)).find? id).filter _ = _
    rw [Table.find?_erase, State.liveComment?, Option.filter_filter, Option.filter_filter]
    congr 1
    funext comment
    exact Bool.and_comm _ _
  refine ⟨?_, ?_, fun _ h => h, fun _ _ h => h, ?_, fun _ _ _ => rfl⟩
  · intro hsync
    have hdropped : (s.deleteComments (s.onItemOf kind projectId)).InSync :=
      hsync.setComments (Feed.mirrors_erase hsync.comments _)
    exact hdropped.setItems (Feed.mirrors_erase (hdropped.items kind) _)
  · intro id comment hcomment
    rw [hcomments] at hcomment
    exact ⟨comment, (Option.filter_eq_some_iff.mp hcomment).1, rfl, rfl⟩
  · rintro id comment hcomment ⟨other, htype, hitem⟩
    rw [hcomments] at hcomment
    obtain ⟨_, hkept⟩ := Option.filter_eq_some_iff.mp hcomment
    refine ⟨other, htype, ?_⟩
    rw [State.item?, Option.isSome_filter] at hitem ⊢
    show Option.any _ (Table.find? (if other = kind then (s.items kind).erase _ else s.items other)
      _) = true
    split
    · rename_i hsame
      subst hsame
      rw [Table.find?_erase]
      cases hfound : (s.items other).find? comment.target.2 with
      | none =>
        rw [hfound] at hitem
        contradiction
      | some row =>
        -- an item of the purged project would have lost the comment
        have hstays : (row.projectId == projectId) = false := by
          simpa [State.onItemOf, htype, hfound] using hkept
        rw [hfound] at hitem
        rw [Option.filter_some, if_pos (by rw [hstays]; rfl)]
        exact hitem
    · exact hitem

/-! ## Pages and meetings -/

theorem keeps_insertWikiPage {title body : String}
    (h : s.insertWikiPage projectId id title body = some s') : Keeps s s' := by
  obtain ⟨table, hinsert, rfl⟩ := Option.map_eq_some_iff.mp h
  refine .of_same (fun hsync => hsync.setWikiPages ?_) rfl rfl rfl fun _ _ _ => rfl
  exact Feed.mirrors_insert hsync.wikiPages hinsert

theorem keeps_writeWikiPage {f : WikiPage → WikiPage} {hf : ∀ row, (f row).id = row.id}
    (h : (s.wikiPage? projectId id).map (s.writeWikiPage f hf) = some s') : Keeps s s' := by
  obtain ⟨row, hrow, rfl⟩ := Option.map_eq_some_iff.mp h
  obtain ⟨hfound, _⟩ := Option.filter_eq_some_iff.mp hrow
  refine .of_same (fun hsync => hsync.setWikiPages ?_) rfl rfl rfl fun _ _ _ => rfl
  exact Feed.mirrors_modify hsync.wikiPages hf (Table.key_of_find? hfound ▸ hfound)

theorem keeps_insertMeeting {title description summary transcript : String}
    (h : s.insertMeeting projectId id title description summary transcript = some s') :
    Keeps s s' := by
  obtain ⟨table, hinsert, rfl⟩ := Option.map_eq_some_iff.mp h
  refine .of_same (fun hsync => hsync.setMeetings ?_) rfl rfl rfl fun _ _ _ => rfl
  exact Feed.mirrors_insert hsync.meetings hinsert

theorem keeps_writeMeeting {f : Meeting → Meeting} {hf : ∀ row, (f row).id = row.id}
    (h : (s.meeting? projectId id).map (s.writeMeeting f hf) = some s') : Keeps s s' := by
  obtain ⟨row, hrow, rfl⟩ := Option.map_eq_some_iff.mp h
  obtain ⟨hfound, _⟩ := Option.filter_eq_some_iff.mp hrow
  refine .of_same (fun hsync => hsync.setMeetings ?_) rfl rfl rfl fun _ _ _ => rfl
  exact Feed.mirrors_modify hsync.meetings hf (Table.key_of_find? hfound ▸ hfound)

/-! ## Comments -/

/-- A comment that is written keeps its project and its target. -/
theorem keeps_writeComment {f : Comment → Comment} {hf : ∀ row, (f row).id = row.id}
    (hproject : ∀ row, (f row).projectId = row.projectId)
    (htarget : ∀ row, (f row).target = row.target)
    (hdeleted : ∀ row, (f row).deletedAt = none → row.deletedAt = none)
    (h : (s.liveComment? id).map (s.writeComment f hf) = some s') : Keeps s s' := by
  obtain ⟨row, hrow, rfl⟩ := Option.map_eq_some_iff.mp h
  obtain ⟨hfound, _⟩ := Option.filter_eq_some_iff.mp hrow
  refine ⟨fun hsync => hsync.setComments ?_, ?_, fun _ h => h, fun _ _ h => h, ?_, fun _ _ _ => rfl⟩
  · exact Feed.mirrors_modify hsync.comments hf (Table.key_of_find? hfound ▸ hfound)
  · intro other comment hcomment
    obtain ⟨hstored, hlive⟩ := Option.filter_eq_some_iff.mp hcomment
    rw [State.writeComment, Table.find?_modify] at hstored
    obtain ⟨old, hold, hwritten⟩ := Option.map_eq_some_iff.mp hstored
    refine ⟨old, ?_⟩
    rw [State.liveComment?, hold, Option.filter_some]
    split at hwritten
    · rw [← hwritten] at hlive ⊢
      rw [if_pos (by simpa using hdeleted old (by simpa using hlive))]
      exact ⟨rfl, hproject old, htarget old⟩
    · rw [← hwritten] at hlive ⊢
      rw [if_pos hlive]
      exact ⟨rfl, rfl, rfl⟩
  · exact fun _ _ _ hitem => hitem

theorem keeps_updateComment {body bodyHtml : String}
    (h : s.updateComment id body bodyHtml = some s') : Keeps s s' :=
  keeps_writeComment (f := Comment.edit body bodyHtml s.now) (fun _ => rfl) (fun _ => rfl)
    (fun _ h => h) h

theorem keeps_softDeleteComment (h : s.softDeleteComment id = some s') : Keeps s s' :=
  keeps_writeComment (f := Comment.erase s.now) (fun _ => rfl) (fun _ => rfl)
    (fun _ h => by cases h) h

/-- A comment on a live item that its readers may view. -/
theorem tidy_insertComment (htidy : s.Tidy) {row : Comment} (h : s.insertComment row = some s')
    (hproject : (s.projects.find? row.projectId).isSome = true)
    (hitem : s.ItemLive row.projectId row.target)
    (hreaders : s.OpenToReaders row.projectId row.target) : s'.Tidy := by
  obtain ⟨table, hinsert, rfl⟩ := Option.map_eq_some_iff.mp h
  have hcases : ∀ id comment, (table.find? id).filter (·.deletedAt.isNone) = some comment →
      comment = row ∨ s.liveComment? id = some comment := by
    intro id comment hcomment
    obtain ⟨hfound, hlive⟩ := Option.filter_eq_some_iff.mp hcomment
    rw [Table.find?_insert? hinsert] at hfound
    split at hfound
    · exact .inl (Option.some.inj hfound).symm
    · right
      rw [State.liveComment?, hfound, Option.filter_some, if_pos hlive]
  refine ⟨htidy.inSync.setComments (Feed.mirrors_insert htidy.inSync.comments hinsert), ?_, ?_⟩
  · intro id comment hcomment hlive
    rcases hcases id comment hcomment with rfl | hold
    · exact ⟨hitem, hreaders⟩
    · exact htidy.comments id comment hold hlive
  · intro id comment hcomment
    rcases hcases id comment hcomment with rfl | hold
    · exact hproject
    · exact htidy.projects id comment hold

/-! ## Projects -/

theorem keeps_insertProject {name issuePrefix : String} {isPrivate : Bool}
    (h : s.insertProject id name issuePrefix isPrivate = some s') : Keeps s s' := by
  obtain ⟨table, hinsert, rfl⟩ := Option.map_eq_some_iff.mp h
  have hold : ∀ other, (s.projects.find? other).isSome = true →
      table.find? other = s.projects.find? other := by
    intro other hstored
    have hother : other ≠ id := by
      rintro rfl
      have hfresh : s.projects.find? other = none := Table.insert?_fresh hinsert
      rw [hfresh] at hstored
      contradiction
    rw [Table.find?_insert? hinsert, if_neg hother]
  refine ⟨fun hsync => ⟨hsync.items, hsync.wikiPages, hsync.meetings, hsync.comments⟩,
    fun _ _ h => ⟨_, h, rfl, rfl⟩, ?_, ?_, fun _ _ _ h => h, fun _ _ _ => rfl⟩
  · intro other hstored
    rw [hold other hstored]
    exact hstored
  · intro other hstored hlive
    rw [State.project?, hold other hstored] at hlive
    exact hlive

/-- A project that is written does not come back. -/
theorem keeps_modifyProject {p : Project → Bool} {f : Project → Project}
    {hf : ∀ row, (f row).id = row.id} {history : List (String × Uuid)}
    (hdeleted : ∀ row, (f row).deletedAt = none → row.deletedAt = none) :
    Keeps s { s with projects := s.projects.modify p f hf, prefixHistory := history } := by
  refine ⟨fun hsync => ⟨hsync.items, hsync.wikiPages, hsync.meetings, hsync.comments⟩,
    fun _ _ h => ⟨_, h, rfl, rfl⟩, ?_, ?_, fun _ _ _ h => h, fun _ _ _ => rfl⟩
  · intro id hstored
    rw [Table.find?_modify, Option.isSome_map]
    exact hstored
  · intro id _ hlive
    rw [State.project?, Option.isSome_filter, Table.find?_modify] at hlive
    rw [State.project?, Option.isSome_filter]
    cases hfound : s.projects.find? id with
    | none =>
      rw [hfound] at hlive
      contradiction
    | some row =>
      rw [hfound, Option.map_some, Option.any_some] at hlive
      rw [Option.any_some]
      split at hlive
      · simpa using hdeleted row (by simpa using hlive)
      · exact hlive

theorem keeps_updateProject {name issuePrefix : String} {isPrivate : Bool}
    (h : s.updateProject id name issuePrefix isPrivate = some s') : Keeps s s' := by
  obtain ⟨row, _, rfl⟩ := Option.map_eq_some_iff.mp h
  exact keeps_modifyProject fun _ h => h

theorem keeps_softDeleteProject (h : s.softDeleteProject id = some s') :
    Keeps s s' := by
  obtain ⟨row, _, rfl⟩ := Option.map_eq_some_iff.mp h
  exact keeps_modifyProject fun _ h => by cases h

end Keeps

/-! ## Runs -/

/-- No comment is made on what is not there or is hidden from its readers, no item
goes while it has comments, and nobody becomes such a reader. -/
def Careful (s : State) (turn : Turn) : Prop :=
  match turn.request with
  | .inProject projectId _ true (.deleteItem kind id) =>
      (s.item? kind projectId id).isSome = true → ¬ Commented s kind id
  | .createComment projectId actorId params body => ∀ ctx target text,
      s.context projectId actorId = some ctx → admitComment ctx params body = .ok (target, text) →
        s.ItemLive projectId target ∧ s.OpenToReaders projectId target
  | .setAccess roles memberships superadmins => ∀ id comment, s.liveComment? id = some comment →
      (s.project? comment.projectId).isSome = true →
        State.OpenToReaders
          { s with roles := roles, memberships := memberships, superadmins := superadmins }
          comment.projectId comment.target
  | _ => True

section Runs

variable {s : State}

theorem tidy_orElse {problem : Problem} {written : Option State} (htidy : s.Tidy)
    (h : ∀ s', written = some s' → s'.Tidy) : (orElse s problem written).2.Tidy := by
  cases written with
  | none => exact htidy
  | some s' => exact h s' rfl

theorem tidy_perform (htidy : s.Tidy) (projectId drawn : Uuid) {action : Action}
    (hcareful : ∀ kind id, action = .deleteItem kind id →
      (s.item? kind projectId id).isSome = true → ¬ Commented s kind id) :
    (perform projectId drawn s action).2.Tidy := by
  have hkeeps : ∀ {problem written}, (∀ s', written = some s' → Keeps s s') →
      (orElse s problem written).2.Tidy :=
    fun h => tidy_orElse htidy fun s' hs' => (h s' hs').tidy htidy
  cases action with
  | createItem kind subject description => exact hkeeps fun _ h => keeps_insertItem h
  | updateItem kind id subject description => exact hkeeps fun _ h => keeps_updateItem h
  | deleteItem kind id =>
    apply hkeeps
    intro s' h
    obtain ⟨row, hrow, _⟩ := Option.map_eq_some_iff.mp h
    exact keeps_softDeleteItem h (hcareful kind id rfl (by rw [hrow]; rfl))
  | purgeItems kind => exact (keeps_purgeItems kind projectId).tidy htidy
  | createWikiPage title body => exact hkeeps fun _ h => keeps_insertWikiPage h
  | updateWikiPage id title body
  | deleteWikiPage id => exact hkeeps fun _ h => keeps_writeWikiPage h
  | createMeeting title description summary transcript =>
    exact hkeeps fun _ h => keeps_insertMeeting h
  | updateMeeting id title description summary transcript =>
    exact hkeeps fun _ h => keeps_writeMeeting h
  | deleteMeeting id => exact hkeeps fun _ h => keeps_writeMeeting h
  | updateProject name issuePrefix isPrivate => exact hkeeps fun _ h => keeps_updateProject h
  | deleteProject => exact hkeeps fun _ h => keeps_softDeleteProject h

theorem context_found {projectId actorId : Uuid} {ctx : ProjectContext}
    (h : s.context projectId actorId = some ctx) :
    ctx.projectId = projectId ∧ (s.project? projectId).isSome = true := by
  obtain ⟨project, hproject, hrest⟩ := Option.bind_eq_some_iff.mp h
  dsimp only at hrest
  split at hrest
  · contradiction
  · rw [← Option.some.inj hrest, hproject]
    exact ⟨rfl, rfl⟩

theorem tidy_createComment (render : String → String) {ctx : ProjectContext} {drawn : Uuid}
    {params : Params} {body : Option String} (htidy : s.Tidy)
    (hproject : (s.project? ctx.projectId).isSome = true)
    (hcareful : ∀ target text, admitComment ctx params body = .ok (target, text) →
      s.ItemLive ctx.projectId target ∧ s.OpenToReaders ctx.projectId target) :
    (createComment render ctx drawn params body s).2.Tidy := by
  unfold createComment
  split
  · exact htidy
  · rename_i target text hadmit
    obtain ⟨hitem, hreaders⟩ := hcareful target text hadmit
    apply tidy_orElse htidy
    intro s' h
    apply tidy_insertComment htidy h ?_ hitem hreaders
    rw [State.project?, Option.isSome_filter] at hproject
    cases hfound : s.projects.find? ctx.projectId with
    | none =>
      rw [hfound] at hproject
      contradiction
    | some project => rfl

theorem tidy_updateComment (render : String → String) (ctx : ProjectContext) (params : Params)
    (body : Option String) (htidy : s.Tidy) :
    (updateComment render ctx params body s).2.Tidy := by
  unfold updateComment
  split
  · exact htidy
  · exact htidy
  · split
    · exact htidy
    · exact tidy_orElse htidy fun s' h => (keeps_updateComment h).tidy htidy

theorem tidy_deleteComment (ctx : ProjectContext) (params : Params) (htidy : s.Tidy) :
    (deleteComment ctx params s).2.Tidy := by
  unfold deleteComment
  split
  · exact htidy
  · exact tidy_orElse htidy fun s' h => (keeps_softDeleteComment h).tidy htidy

theorem tidy_withContext {projectId actorId : Uuid} {handler : ProjectContext → Response × State}
    (htidy : s.Tidy) (h : ∀ ctx, s.context projectId actorId = some ctx → (handler ctx).2.Tidy) :
    (withContext s projectId actorId handler).2.Tidy := by
  unfold withContext
  split
  · exact htidy
  · rename_i ctx hctx
    exact h ctx hctx

/-- A careful request leaves the comments tidy. -/
theorem tidy_next (render : String → String) {turn : Turn} (htidy : s.Tidy)
    (hcareful : Careful s turn) : ((server render).next s turn).Tidy := by
  obtain ⟨request, drawn, elapse⟩ := turn
  have hlater : (s.wait elapse).Tidy := (keeps_wait elapse s).tidy htidy
  show (serve render drawn (s.wait elapse) request).2.Tidy
  cases request with
  | createProject name issuePrefix isPrivate =>
    exact tidy_orElse hlater fun s' h => (keeps_insertProject h).tidy hlater
  | inProject projectId actorId allowed action =>
    apply tidy_withContext hlater
    intro ctx _
    cases allowed with
    | false => exact hlater
    | true =>
      apply tidy_perform hlater
      rintro kind id rfl
      exact hcareful
  | createComment projectId actorId params body =>
    apply tidy_withContext hlater
    intro ctx hctx
    obtain ⟨hsame, hproject⟩ := context_found hctx
    apply tidy_createComment render hlater
    · rw [hsame]
      exact hproject
    · rw [hsame]
      exact fun target text hadmit => hcareful ctx target text hctx hadmit
  | updateComment projectId actorId params body =>
    exact tidy_withContext hlater fun ctx _ => tidy_updateComment render ctx params body hlater
  | deleteComment projectId actorId params =>
    exact tidy_withContext hlater fun ctx _ => tidy_deleteComment ctx params hlater
  | setAccess roles memberships superadmins =>
    refine ⟨hlater.inSync.congr rfl rfl rfl rfl rfl, ?_, hlater.projects⟩
    intro id comment hcomment hproject
    exact ⟨(hlater.comments id comment hcomment hproject).1,
      hcareful id comment hcomment hproject⟩

/-- The actor finds what can be opened, and nothing else. -/
def RevealsOpenable (engine : Engine) (s : State) : Prop :=
  ∀ scope, scope.isSuperadmin = s.isActiveSuperadmin scope.actorId →
    (∀ key limit, ∀ hit ∈ s.searchKeys engine scope key limit, s.Openable scope.actorId hit) ∧
      ∀ query limit, ∀ hit ∈ s.searchText engine scope query limit, s.Openable scope.actorId hit

/-- A new deployment. -/
def State.empty : State where
  projects := Table.empty
  prefixHistory := []
  items := fun _ => Table.empty
  lastRef := fun _ _ => 0
  wikiPages := Table.empty
  meetings := Table.empty
  comments := Table.empty
  searchIndex := Table.empty
  roles := Table.empty
  memberships := Table.empty
  superadmins := []
  now := 0

theorem tidy_empty : State.empty.Tidy := by
  refine ⟨⟨fun _ _ => rfl, fun _ => rfl, fun _ => rfl, fun _ => rfl⟩, ?_, ?_⟩
  · intro id comment hcomment
    cases hcomment
  · intro id comment hcomment
    cases hcomment

/-- In every state of a run of careful requests, whatever anyone finds is live and
open to them. -/
theorem search_reveals_openable (render : String → String) (engine : Engine) {turns : List Turn}
    (hcareful : (server render).Each Careful State.empty turns) :
    (server render).Always (RevealsOpenable engine) State.empty turns := by
  have halways : (server render).Always State.Tidy State.empty turns :=
    Server.always_of_each (I := State.Tidy) (fun _ _ hs h => tidy_next render hs h) tidy_empty
      hcareful
  intro first last hturns scope hsuper
  have hreached := halways first last hturns
  exact ⟨fun _ _ _ hhit => openable_of_shows hreached hsuper (shows_of_searchKeys hhit),
    fun _ _ _ hhit => openable_of_shows hreached hsuper (shows_of_searchText hhit)⟩

end Runs

/-- An engine that knows whole texts only. -/
def wholeTexts : Engine where
  matchText query entry := if query.q = entry.body then some ⟨1, entry.body⟩ else none
  nameLe a b := decide (a ≤ b)
  writtenBefore _ _ := false

/-- User 3 views issues and comments on them in project 1, which has issue 5. -/
def setUp : List Turn :=
  [⟨.setAccess ⟨[⟨9, 1, "dev", false, [.issueView, .commentCreate]⟩], by decide⟩
      ⟨[⟨1, 3, 9⟩], by decide⟩ [], 0, 0⟩,
   ⟨.createProject "Plan" "PL" true, 1, 0⟩,
   ⟨.inProject 1 3 true (.createItem .issue "Task" ""), 5, 0⟩]

def remark : Turn := ⟨.createComment 1 3 ⟨"issues", some 5, none⟩ (some "secret"), 6, 0⟩

def removal : Turn := ⟨.inProject 1 3 true (.deleteItem .issue 5), 0, 0⟩

/-- The comment on a deleted issue is still found. -/
theorem deleted_issue_revealed : ¬ ∀ (render : String → String) (engine : Engine)
    (turns : List Turn), (server render).Always (RevealsOpenable engine) State.empty turns := by
  intro h
  have hreveals := h id wholeTexts (setUp ++ [remark, removal]) _ []
    (List.append_nil _).symm ⟨3, false, none, none, none⟩ (by decide +kernel)
  have hindex : ((server id).run State.empty (setUp ++ [remark, removal])).searchIndex.rows =
      [⟨.comment, 6, 1, none, "", "secret"⟩] := by decide +kernel
  have hreadable : ((server id).run State.empty (setUp ++ [remark, removal])).readable
      ⟨3, false, none, none, none⟩ ⟨.comment, 6, 1, none, "", "secret"⟩ = true := by decide +kernel
  obtain ⟨comment, hcomment, _, ⟨kind, htype, hitem⟩, _⟩ := hreveals.2 ⟨"secret", none, false⟩ 1
    ⟨.comment, 6, 1, none, none, false, "", "secret"⟩ (by
      simp [State.searchText, hindex, hreadable, wholeTexts, State.hit, keyCol])
  have htarget : comment.target = (.issue, 5) := by
    have hfound : (((server id).run State.empty (setUp ++ [remark, removal])).liveComment? 6).map
        (·.target) = some (.issue, 5) := by decide +kernel
    rw [hcomment] at hfound
    exact Option.some.inj hfound
  rw [htarget] at htype hitem
  have hgone : ((server id).run State.empty (setUp ++ [remark, removal])).item? .issue 1 5 =
      none := by decide +kernel
  cases kind with
  | epic => cases htype
  | issue =>
    rw [hgone] at hitem
    exact Bool.noConfusion hitem

def erasure : Turn := ⟨.deleteComment 1 3 ⟨"issues", some 5, some 6⟩, 0, 0⟩

/-- An issue whose comment has gone before it. -/
theorem search_reveals_openable_erased :
    (server fun body => body).Always (RevealsOpenable wholeTexts) State.empty
      (setUp ++ [remark, erasure, removal]) := by
  apply search_reveals_openable
  refine ⟨?_, trivial, trivial, ?_, trivial, ?_, trivial⟩
  · intro id comment hcomment
    cases hcomment
  · intro ctx target text _ hadmit
    have htarget : target = (.issue, 5) := by
      unfold admitComment at hadmit
      split at hadmit
      · cases hadmit
      · rename_i found hfound
        split at hadmit
        · cases hadmit
        · cases hfound
          cases hadmit
          rfl
    rw [htarget]
    exact ⟨⟨.issue, rfl, by decide +kernel⟩, fun _ h => h⟩
  · rintro _ ⟨id, comment, hcomment, _⟩
    obtain ⟨hfound, hlive⟩ := Option.filter_eq_some_iff.mp hcomment
    have hdeleted : ∀ row ∈ ((server fun body => body).run State.empty
        (setUp ++ [remark, erasure])).comments.rows, row.deletedAt.isNone = false := by
      decide +kernel
    rw [hdeleted comment (Table.mem_of_find? hfound)] at hlive
    exact Bool.noConfusion hlive

end IntelliPilot.Search
