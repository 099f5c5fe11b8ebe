import IntelliPilot.Wiki.Handlers
import Mathlib.Data.List.Range

/-! # Page revisions

A page and its revisions are written together, so the history is faithful in
every run. A patch takes the half that it leaves out from an earlier read, which
no version guards: it is kept in exactly the runs where nobody saves another one
in between.
-/

namespace IntelliPilot.Wiki

open Http Statement
open Service (initial)
open Rows

abbrev WikiEvent := Event Stmt Request (Except Problem Answer)

/-! ## What the statements do -/

/-- The revisions of a page, oldest first. -/
def Db.revisionsOf (db : Db) (id : Uuid) : List WikiRevision :=
  db.revisions.filter fun revision => revision.pageId == id

/-- The page that an event saved. -/
def savedPage : WikiEvent → Option WikiPage
  | .ran (.update _ _ _ _ _) (.ok (some page)) => some page
  | _ => none

/-- What a statement changes. -/
inductive Changes (db : Db) : {β : Type} → Stmt β → β → Db → Prop where
  | nothing {β : Type} (stmt : Stmt β) (result : β)
      (hnot : savedPage (.ran stmt result) = none) :
      Changes db stmt result db
  | created (projectId : Uuid) (slug title body : String) (editorId : Uuid) (page : WikiPage)
      (later : Db) (hid : page.id = db.pages.fresh) (hversion : page.version = 1)
      (hpages : later.pages.rows = db.pages.rows ++ [page])
      (hrevisions : later.revisions = db.revisions ++ [Db.snapshot page]) :
      Changes db (.create projectId slug title body editorId) (.ok page) later
  | saved (projectId id : Uuid) (title body : String) (editorId : Uuid) (old : WikiPage) (later : Db)
      (hold : db.get projectId id = some old)
      (hpages : later.pages.rows =
        updateWhere (·.id == id) (Db.saved title body editorId) db.pages.rows)
      (hrevisions : later.revisions =
        db.revisions ++ [Db.snapshot (Db.saved title body editorId old)]) :
      Changes db (.update projectId id title body editorId)
        (.ok (some (Db.saved title body editorId old))) later
  | deleted (projectId id : Uuid) (result : Except DbError Bool) (later : Db)
      (hpages : later.pages.rows =
        updateWhere (·.id == id) (fun page => { page with deleted := true }) db.pages.rows)
      (hrevisions : later.revisions = db.revisions) :
      Changes db (.softDelete projectId id) result later

theorem changes_create (projectId : Uuid) (slug title body : String) (editorId : Uuid) (db : Db) :
    Changes db (.create projectId slug title body editorId)
      (Stmt.effect (.create projectId slug title body editorId) db).1
      (Stmt.effect (.create projectId slug title body editorId) db).2 := by
  unfold Stmt.effect
  dsimp only
  cases hcreate : db.create projectId slug title body editorId with
  | error e => exact .nothing _ _ rfl
  | ok result =>
    obtain ⟨page, later⟩ := result
    unfold Db.create at hcreate
    simp only [bind, Except.bind, pure, Except.pure, throw, throwThe, MonadExceptOf.throw]
      at hcreate
    split at hcreate
    · contradiction
    · split at hcreate
      · contradiction
      · unfold Db.insertRevision at hcreate
        split at hcreate
        · rename_i heq
          split at heq <;> contradiction
        · rename_i later' heq
          split at heq
          · contradiction
          · obtain ⟨rfl, rfl⟩ := Prod.mk.inj (Except.ok.inj hcreate)
            rw [← Except.ok.inj heq]
            exact .created projectId slug title body editorId _ _ rfl rfl rfl rfl

theorem changes_update (projectId id : Uuid) (title body : String) (editorId : Uuid) (db : Db) :
    Changes db (.update projectId id title body editorId)
      (Stmt.effect (.update projectId id title body editorId) db).1
      (Stmt.effect (.update projectId id title body editorId) db).2 := by
  unfold Stmt.effect
  dsimp only
  unfold Db.update
  cases hget : db.get projectId id with
  | none => exact .nothing _ _ rfl
  | some old =>
    simp only [Db.insertRevision]
    by_cases htaken : (Db.getRevision
        { db with pages := db.pages.modify (·.id == id) (Db.saved title body editorId) fun _ => rfl }
        (Db.saved title body editorId old).id (Db.saved title body editorId old).version).isSome
    · rw [if_pos htaken]
      exact .nothing _ _ rfl
    · rw [if_neg htaken]
      exact .saved projectId id title body editorId old _ hget rfl rfl

/-- The cases of a statement of the service. -/
theorem changes_exec {β : Type} (stmt : Stmt β) (fails : Bool) (db : Db) :
    Changes db stmt (stmt.exec fails db).1 (stmt.exec fails db).2 := by
  cases fails with
  | true =>
    show Changes db stmt stmt.failure db
    refine .nothing _ _ ?_
    cases stmt <;> rfl
  | false =>
    show Changes db stmt (stmt.effect db).1 (stmt.effect db).2
    cases stmt with
    | create projectId slug title body editorId =>
      exact changes_create projectId slug title body editorId db
    | update projectId id title body editorId =>
      exact changes_update projectId id title body editorId db
    | get projectId id => exact .nothing _ _ rfl
    | getRevision pageId rev => exact .nothing _ _ rfl
    | softDelete projectId id =>
      by_cases hthere : (db.get projectId id).isSome
      · have hstate : (Stmt.effect (.softDelete projectId id) db).2 =
            { db with
              pages := db.pages.modify (·.id == id) (fun page => { page with deleted := true })
                (fun _ => rfl) } := if_pos hthere
        rw [hstate]
        exact .deleted projectId id _ _ rfl rfl
      · have hstate : (Stmt.effect (.softDelete projectId id) db).2 = db := if_neg hthere
        rw [hstate]
        exact .nothing _ _ rfl

/-! ## The history of a page -/

/-- The revisions of every page are numbered up to its version, whose title and body
are those of the page. -/
structure Faithful (db : Db) : Prop where
  numbered : ∀ page ∈ db.pages.rows,
    (db.revisionsOf page.id).map (·.rev) = List.range' 1 page.version
  current : ∀ page ∈ db.pages.rows, ∃ revision ∈ db.revisionsOf page.id,
    revision.rev = page.version ∧ revision.title = page.title ∧ revision.body = page.body
  owned : ∀ revision ∈ db.revisions, ∃ page ∈ db.pages.rows, page.id = revision.pageId

theorem faithful_empty : Faithful Db.empty := by
  refine ⟨?_, ?_, ?_⟩
  · exact fun page hpage => by contradiction
  · exact fun page hpage => by contradiction
  · exact fun revision hrevision => by contradiction

variable {db later : Db}

variable {page : WikiPage}

theorem revisionsOf_append (h : later.revisions = db.revisions ++ [Db.snapshot page]) (id : Uuid) :
    later.revisionsOf id =
      db.revisionsOf id ++ if page.id = id then [Db.snapshot page] else [] := by
  rw [Db.revisionsOf, Db.revisionsOf, h, List.filter_append, List.filter_singleton]
  by_cases hid : page.id = id
  · simp [Db.snapshot, hid]
  · have hother : (page.id == id) = false := by simpa using hid
    simp [Db.snapshot, hid, hother]

variable {id : Uuid} {revision : WikiRevision}

theorem mem_revisionsOf_append (h : later.revisions = db.revisions ++ [Db.snapshot page])
    (hrevision : revision ∈ db.revisionsOf id) : revision ∈ later.revisionsOf id := by
  rw [revisionsOf_append h]
  exact List.mem_append_left _ hrevision

variable {projectId editorId : Uuid} {title body : String}

/-- Only the page that is saved gets a revision. -/
theorem Faithful.saved (h : Faithful db) {old : WikiPage} (hold : db.get projectId id = some old)
    (hpages : later.pages.rows =
      updateWhere (·.id == id) (Db.saved title body editorId) db.pages.rows)
    (hrevisions : later.revisions =
      db.revisions ++ [Db.snapshot (Db.saved title body editorId old)]) : Faithful later := by
  have hfound := (Option.filter_eq_some_iff.mp hold).1
  have hid : old.id = id := Table.key_of_find? hfound
  have hsaved : (Db.saved title body editorId old).id = id := hid
  have hrows : ∀ page ∈ later.pages.rows, page = Db.saved title body editorId old ∨
      (page ∈ db.pages.rows ∧ page.id ≠ id) := by
    intro page hpage
    rw [hpages] at hpage
    obtain ⟨before, hbefore, rfl⟩ := mem_updateWhere.mp hpage
    by_cases hsame : before.id = id
    · left
      have heq : before = old := eq_of_nodup_map db.pages.nodup hbefore
        (Table.mem_of_find? hfound) (hsame.trans hid.symm)
      rw [if_pos (by simpa using hsame), heq]
    · right
      rw [if_neg (by simpa using hsame)]
      exact ⟨hbefore, hsame⟩
  refine ⟨?_, ?_, ?_⟩
  · intro page hpage
    rw [revisionsOf_append hrevisions]
    rcases hrows page hpage with rfl | ⟨hbefore, hother⟩
    · rw [if_pos rfl, hsaved, List.map_append, ← hid, h.numbered old (Table.mem_of_find? hfound)]
      show List.range' 1 old.version ++ [old.version + 1] = List.range' 1 (old.version + 1)
      rw [List.range'_concat, Nat.one_mul, Nat.add_comm 1]
    · rw [hsaved, if_neg (Ne.symm hother), List.append_nil]
      exact h.numbered page hbefore
  · intro page hpage
    rcases hrows page hpage with rfl | ⟨hbefore, -⟩
    · refine ⟨Db.snapshot (Db.saved title body editorId old), ?_, rfl, rfl, rfl⟩
      rw [revisionsOf_append hrevisions, if_pos rfl]
      exact List.mem_append_right _ List.mem_cons_self
    · obtain ⟨revision, hrevision, hcurrent⟩ := h.current page hbefore
      exact ⟨revision, mem_revisionsOf_append hrevisions hrevision, hcurrent⟩
  · intro revision hrevision
    have hkept : ∀ page ∈ db.pages.rows, ∃ page' ∈ later.pages.rows, page'.id = page.id := by
      intro page hpage
      rw [hpages]
      refine ⟨_, mem_updateWhere.mpr ⟨page, hpage, rfl⟩, ?_⟩
      split <;> rfl
    rw [hrevisions] at hrevision
    rcases List.mem_append.mp hrevision with hbefore | hnew
    · obtain ⟨page, hpage, heq⟩ := h.owned revision hbefore
      rw [← heq]
      exact hkept page hpage
    · rw [List.mem_singleton.mp hnew]
      exact hkept old (Table.mem_of_find? hfound)

theorem Faithful.created (h : Faithful db) (hid : page.id = db.pages.fresh)
    (hversion : page.version = 1) (hpages : later.pages.rows = db.pages.rows ++ [page])
    (hrevisions : later.revisions = db.revisions ++ [Db.snapshot page]) : Faithful later := by
  have hfree : ∀ other ∈ db.pages.rows, other.id ≠ page.id := by
    intro other hother heq
    have hnone := Table.find?_eq_none_iff.mp db.pages.find?_fresh
    exact hnone (List.mem_map.mpr ⟨other, hother, heq.trans hid⟩)
  have hnew : db.revisionsOf page.id = [] := by
    rw [Db.revisionsOf, List.filter_eq_nil_iff]
    intro revision hrevision hown
    obtain ⟨other, hother, heq⟩ := h.owned revision hrevision
    exact hfree other hother (heq.trans (by simpa using hown))
  refine ⟨?_, ?_, ?_⟩
  · intro other hother
    rw [revisionsOf_append hrevisions]
    rw [hpages] at hother
    rcases List.mem_append.mp hother with hbefore | hlast
    · rw [if_neg (hfree other hbefore).symm, List.append_nil]
      exact h.numbered other hbefore
    · rw [List.mem_singleton.mp hlast, if_pos rfl, hnew, hversion]
      simp [Db.snapshot, hversion]
  · intro other hother
    rw [hpages] at hother
    rcases List.mem_append.mp hother with hbefore | hlast
    · obtain ⟨revision, hrevision, hcurrent⟩ := h.current other hbefore
      exact ⟨revision, mem_revisionsOf_append hrevisions hrevision, hcurrent⟩
    · rw [List.mem_singleton.mp hlast]
      refine ⟨Db.snapshot page, ?_, rfl, rfl, rfl⟩
      rw [revisionsOf_append hrevisions, if_pos rfl]
      exact List.mem_append_right _ List.mem_cons_self
  · intro revision hrevision
    rw [hpages]
    rw [hrevisions] at hrevision
    rcases List.mem_append.mp hrevision with hbefore | hlast
    · obtain ⟨other, hother, heq⟩ := h.owned revision hbefore
      exact ⟨other, List.mem_append_left _ hother, heq⟩
    · rw [List.mem_singleton.mp hlast]
      exact ⟨page, List.mem_append_right _ List.mem_cons_self, rfl⟩

theorem Faithful.deleted (h : Faithful db)
    (hpages : later.pages.rows =
      updateWhere (·.id == id) (fun page => { page with deleted := true }) db.pages.rows)
    (hrevisions : later.revisions = db.revisions) : Faithful later := by
  have hrows : ∀ page ∈ later.pages.rows, ∃ before ∈ db.pages.rows, page.id = before.id ∧
      page.version = before.version ∧ page.title = before.title ∧ page.body = before.body := by
    intro page hpage
    rw [hpages] at hpage
    obtain ⟨before, hbefore, rfl⟩ := mem_updateWhere.mp hpage
    refine ⟨before, hbefore, ?_⟩
    split <;> exact ⟨rfl, rfl, rfl, rfl⟩
  have hof : ∀ id, later.revisionsOf id = db.revisionsOf id := by
    intro id
    rw [Db.revisionsOf, hrevisions]
    rfl
  refine ⟨?_, ?_, ?_⟩
  · intro page hpage
    obtain ⟨before, hbefore, hid, hversion, -, -⟩ := hrows page hpage
    rw [hof, hid, hversion]
    exact h.numbered before hbefore
  · intro page hpage
    obtain ⟨before, hbefore, hid, hversion, htitle, hbody⟩ := hrows page hpage
    rw [hof, hid, hversion, htitle, hbody]
    exact h.current before hbefore
  · intro revision hrevision
    rw [hrevisions] at hrevision
    obtain ⟨page, hpage, heq⟩ := h.owned revision hrevision
    rw [hpages]
    refine ⟨_, mem_updateWhere.mpr ⟨page, hpage, rfl⟩, ?_⟩
    rw [← heq]
    split <;> rfl

/-- Every statement keeps the history faithful. -/
theorem Faithful.changes (h : Faithful db) {β : Type} {stmt : Stmt β} {result : β}
    (hchanges : Changes db stmt result later) : Faithful later := by
  cases hchanges with
  | nothing _ _ _ => exact h
  | created projectId slug title body editorId page _ hid hversion hpages hrevisions =>
    exact h.created hid hversion hpages hrevisions
  | saved projectId id title body editorId old _ hold hpages hrevisions =>
    exact h.saved hold hpages hrevisions
  | deleted projectId id _ _ hpages hrevisions => exact h.deleted hpages hrevisions

/-- Revisions are only added. -/
theorem prefix_of_changes {β : Type} {stmt : Stmt β} {result : β}
    (hchanges : Changes db stmt result later) : db.revisions <+: later.revisions := by
  cases hchanges with
  | nothing _ _ _ => exact List.prefix_refl _
  | created projectId slug title body editorId page _ hid hversion hpages hrevisions
  | saved projectId id title body editorId old _ hold hpages hrevisions =>
    rw [hrevisions]
    exact List.prefix_append _ _
  | deleted projectId id _ _ hpages hrevisions => exact hrevisions ▸ List.prefix_refl _

/-! ## Patches -/

/-- What a request patches. -/
def Request.patch : Request → Option UpdateWikiPageRequest
  | .update _ _ (.ok req) => some req
  | _ => none

/-- What an event of a request tells after the earlier ones, whatever the others do: a patch
reads its page once, and saves what it gives over what it read. -/
def Told (request : Request) : WikiEvent → List WikiEvent → Prop
  | .ran (.get _ _) _, earlier => request.patch.isSome → earlier = [.began request]
  | .ran (.update projectId id title body _) _, earlier => ∀ patch, request.patch = some patch →
      ∃ existing, .ran (.get projectId id) (.ok (some existing)) ∈ earlier ∧
        title = patch.title.getD existing.title ∧ body = patch.body.getD existing.body
  | .answered _ (.ok answer), earlier => request.patch.isSome → ∃ page, answer = .page 200 page ∧
      ∃ event ∈ earlier, savedPage event = some page
  | _, _ => True

variable {request : Request}

theorem told_of_patch_none (h : request.patch = none) (event : WikiEvent)
    (events : List WikiEvent) : Told request event events := by
  unfold Told
  split
  · simp [h]
  · simp [h]
  · simp [h]
  · trivial

variable {events : List WikiEvent}

/-- All reads of a patch that find the page find the same. -/
theorem eq_of_told (h : Justified (Told request) events) (hpatch : request.patch.isSome)
    {projectId' id' : Uuid} {first second : WikiPage}
    (hfirst : .ran (.get projectId id) (.ok (some first)) ∈ events)
    (hsecond : .ran (.get projectId' id') (.ok (some second)) ∈ events) : first = second := by
  obtain ⟨later, earlier, heq, htold⟩ := h.of_mem hfirst
  obtain ⟨later', earlier', heq', htold'⟩ := h.of_mem hsecond
  obtain rfl := htold hpatch
  obtain rfl := htold' hpatch
  cases (List.cons.inj (List.append_inj_right' (heq.symm.trans heq') rfl)).1
  rfl

variable {patch : UpdateWikiPageRequest}

/-- A save keeps what a patch leaves out as it was read. -/
theorem merged_of_told (h : Justified (Told request) events) (hpatch : request.patch = some patch)
    {result : Except DbError (Option WikiPage)}
    (hmem : .ran (.update projectId id title body editorId) result ∈ events) : ∃ existing,
      .ran (.get projectId id) (.ok (some existing)) ∈ events ∧
        title = patch.title.getD existing.title ∧ body = patch.body.getD existing.body := by
  obtain ⟨later, earlier, heq, htold⟩ := h.of_mem hmem
  obtain ⟨existing, hread, hmerged⟩ := htold patch hpatch
  refine ⟨existing, ?_, hmerged⟩
  rw [heq]
  exact List.mem_append_right _ (List.mem_cons_of_mem _ hread)

theorem recounts_update (ctx : Context) (id : Uuid) (req : UpdateWikiPageRequest) :
    Recounts (Newest (Told (.update ctx id (.ok req)))) (Wiki.update ctx id (.ok req))
      (fun answer => Told (.update ctx id (.ok req)) (.answered (.update ctx id (.ok req)) (.ok answer)))
      (fun _ _ => True) [.began (.update ctx id (.ok req))] := by
  unfold Wiki.update
  refine recounts_bind (S := fun _ events => events = [.began (.update ctx id (.ok req))])
    (recounts_given (fun _ _ => rfl) fun _ _ => trivial) ?_
  rintro _ events rfl
  refine recounts_bind (S := fun a events => a = req ∧
    events = [.began (.update ctx id (.ok req))]) ⟨rfl, rfl⟩ ?_
  rintro given events ⟨hgiven, rfl⟩
  rw [hgiven]
  unfold found
  refine recounts_bind (S := fun existing later =>
    .ran (.get ctx.projectId id) (.ok (some existing)) ∈ later)
    (recounts_bind (S := fun result later => .ran (.get ctx.projectId id) result ∈ later)
      (recounts_attempted fun result => ⟨fun _ => rfl, List.mem_cons_self⟩) ?_) ?_
  · rintro (e | _ | existing) later hread
    · exact recounts_throw trivial
    · exact recounts_throw trivial
    · exact recounts_pure hread
  · intro existing events hread
    unfold save
    refine recounts_bind (S := fun result later =>
      .ran (.update ctx.projectId id (req.title.getD existing.title)
        (req.body.getD existing.body) ctx.actorId) (.ok result) ∈ later)
      (recounts_orRefuse ?_ (fun _ => List.mem_cons_self) fun _ => trivial) ?_
    · intro result patch hpatch
      obtain rfl := Option.some.inj hpatch
      exact ⟨existing, hread, rfl, rfl⟩
    · rintro (_ | page) later hsaved
      · exact recounts_throw trivial
      · exact recounts_pure fun _ => ⟨page, rfl, _, hsaved, rfl⟩

theorem tellsAll_told : service.TellsAll fun request => Justified (Told request) := by
  apply Service.tellsAll_justified
  intro request
  by_cases hpatch : request.patch = none
  · have htold : ∀ event events, Newest (Told request) (event :: events) :=
      told_of_patch_none hpatch
    refine ⟨htold _ _, ?_⟩
    exact (Prog.tells_only (C := fun _ => True) (P := fun _ => True)
      (fun _ _ _ _ _ => ⟨htold _ _, trivial⟩) (Prog.only_true _) trivial).post
        fun _ _ _ => htold _ _
  · rcases request with _ | ⟨ctx, id, problem | req⟩ | _ | _
    · exact absurd rfl hpatch
    · exact absurd rfl hpatch
    · refine ⟨trivial, Prog.Tells.post (recounts_update ctx id req) ?_⟩
      rintro (problem | answer) events houtcome
      · trivial
      · exact houtcome
    · exact absurd rfl hpatch
    · exact absurd rfl hpatch

/-! ## The half that a patch leaves out -/

abbrev WikiWorld := World Stmt Db Request (Except Problem Answer)

/-- Request `i` saved the page. -/
def Saved (w : WikiWorld) (i : Nat) (page : WikiPage) : Prop :=
  ∃ event, (i, event) ∈ w.log ∧ savedPage event = some page

/-- The revision of a saved page has the half that the patch leaves out from the one before. -/
def HalvesKept (patch : UpdateWikiPageRequest) (page : WikiPage) (db : Db) : Prop :=
  ∃ previous revision, db.getRevision page.id (page.version - 1) = some previous ∧
    db.getRevision page.id page.version = some revision ∧
    (patch.title = none → revision.title = previous.title) ∧
    (patch.body = none → revision.body = previous.body)

/-- Every patch that saved a page kept the half that it leaves out. -/
def KeepsHalves (w : WikiWorld) : Prop :=
  ∀ i request patch page, (i, .began request) ∈ w.log → request.patch = some patch →
    Saved w i page → HalvesKept patch page w.state

/-- A patch saves a page whose half it leaves out is still the one it read. -/
def Undisturbed : Nat → WikiWorld → WikiWorld → Prop := fun _ w w' =>
  ∀ i request patch projectId id title body editorId page,
    (i, .began request) ∈ w.log → request.patch = some patch →
      w'.log = (i, .ran (.update projectId id title body editorId) (.ok (some page))) :: w.log →
        ∀ existing, (i, .ran (.get projectId id) (.ok (some existing))) ∈ w.log →
          ∀ now, w.state.get projectId id = some now →
            (patch.title = none → now.title = existing.title) ∧
              (patch.body = none → now.body = existing.body)

theorem getRevision_eq_some_iff (h : Faithful db) (hpage : page ∈ db.pages.rows) {rev : Nat} :
    db.getRevision page.id rev = some revision ↔
      revision ∈ db.revisionsOf page.id ∧ revision.rev = rev := by
  have hnodup : ((db.revisionsOf page.id).map (·.rev)).Nodup := by
    rw [h.numbered page hpage]
    exact List.nodup_range'
  constructor
  · intro hfound
    have hrev := List.find?_some hfound
    rw [Bool.and_eq_true, beq_iff_eq, beq_iff_eq] at hrev
    exact ⟨List.mem_filter.mpr ⟨List.mem_of_find?_eq_some hfound, by simpa using hrev.1⟩, hrev.2⟩
  · rintro ⟨hrevision, rfl⟩
    obtain ⟨hmem, hid⟩ := List.mem_filter.mp hrevision
    have hsome : (db.getRevision page.id revision.rev).isSome := by
      rw [Db.getRevision, List.find?_isSome]
      exact ⟨revision, hmem, by simpa using hid⟩
    obtain ⟨other, hother⟩ := Option.isSome_iff_exists.mp hsome
    have hkey := List.find?_some hother
    rw [Bool.and_eq_true, beq_iff_eq, beq_iff_eq] at hkey
    have hown : other ∈ db.revisionsOf page.id :=
      List.mem_filter.mpr ⟨List.mem_of_find?_eq_some hother, by simpa using hkey.1⟩
    rw [hother, eq_of_nodup_map hnodup hown hrevision hkey.2]

/-- A revision that was found is found later. -/
theorem getRevision_of_prefix (h : db.revisions <+: later.revisions) {rev : Nat}
    (hfound : db.getRevision id rev = some revision) :
    later.getRevision id rev = some revision := by
  obtain ⟨new, hnew⟩ := h
  rw [Db.getRevision, ← hnew, List.find?_append]
  have hbefore : db.revisions.find? (fun revision => revision.pageId == id && revision.rev == rev) =
      some revision := hfound
  rw [hbefore, Option.some_or]

theorem HalvesKept.mono (h : HalvesKept patch page db) (hgrown : db.revisions <+: later.revisions) :
    HalvesKept patch page later := by
  obtain ⟨previous, revision, hprevious, hrevision, hkept⟩ := h
  exact ⟨previous, revision, getRevision_of_prefix hgrown hprevious,
    getRevision_of_prefix hgrown hrevision, hkept⟩

/-- A save keeps the halves that are as they were. -/
theorem halvesKept_saved (h : Faithful db) {old : WikiPage} (hold : db.get projectId id = some old)
    (hpages : later.pages.rows =
      updateWhere (·.id == id) (Db.saved title body editorId) db.pages.rows)
    (hrevisions : later.revisions =
      db.revisions ++ [Db.snapshot (Db.saved title body editorId old)]) :
    HalvesKept patch (Db.saved title body editorId old) later ↔
      (patch.title = none → title = old.title) ∧ (patch.body = none → body = old.body) := by
  have hfound := (Option.filter_eq_some_iff.mp hold).1
  have hrow := Table.mem_of_find? hfound
  have hid : old.id = id := Table.key_of_find? hfound
  have hlater : Db.saved title body editorId old ∈ later.pages.rows := by
    rw [hpages]
    exact mem_updateWhere.mpr ⟨old, hrow, by simp [hid]⟩
  -- the revision before the new one is that of the page before
  obtain ⟨current, hcurrent, hversion, htitle, hbody⟩ := h.current old hrow
  have hprevious : later.getRevision (Db.saved title body editorId old).id
      ((Db.saved title body editorId old).version - 1) = some current :=
    getRevision_of_prefix ⟨_, hrevisions.symm⟩
      ((getRevision_eq_some_iff h hrow).mpr ⟨hcurrent, hversion⟩)
  have hnew : later.getRevision (Db.saved title body editorId old).id
      (Db.saved title body editorId old).version =
        some (Db.snapshot (Db.saved title body editorId old)) := by
    refine (getRevision_eq_some_iff (h.saved hold hpages hrevisions) hlater).mpr ⟨?_, rfl⟩
    rw [revisionsOf_append hrevisions, if_pos rfl]
    exact List.mem_append_right _ List.mem_cons_self
  constructor
  · rintro ⟨previous, revision, hfirst, hsecond, htitles, hbodies⟩
    obtain rfl := Option.some.inj (hprevious.symm.trans hfirst)
    obtain rfl := Option.some.inj (hnew.symm.trans hsecond)
    exact ⟨fun hnone => (htitles hnone).trans htitle, fun hnone => (hbodies hnone).trans hbody⟩
  · rintro ⟨htitles, hbodies⟩
    exact ⟨current, _, hprevious, hnew, fun hnone => (htitles hnone).trans htitle.symm,
      fun hnone => (hbodies hnone).trans hbody.symm⟩

/-! ## Runs -/

section Runs

variable {labels : List (Label Request Bool)}

theorem only_true_service (request : Request) :
    (service.handler request).Only fun {_} _ => True := Prog.only_true _

theorem faithful_run (h : Faithful db) (labels : List (Label Request Bool)) :
    Faithful (service.run (initial db) labels).world.state := by
  refine service.stepOf_run (P := fun _ {_} _ => True) (I := fun w => Faithful w.state)
    only_true_service ?_ (Service.attributed_initial db) h labels
  intro w w' hstep hw
  cases hstep with
  | void => exact hw
  | began i request => exact hw
  | answered i request answer hbegan => exact hw
  | issued i request stmt choice hbegan hmay => exact hw.changes (changes_exec stmt choice w.state)

/-- No revision ever changes. -/
theorem revisions_persist (cfg : Config Stmt Db Request (Except Problem Answer))
    (labels : List (Label Request Bool)) :
    service.Persists (fun s revision => revision ∈ s.revisions) cfg labels := by
  rw [Service.persists_iff_admits, Service.admits_iff]
  intro first label last _ revision hrevision
  generalize service.run cfg first = cfg' at hrevision ⊢
  cases label with
  | start request => exact hrevision
  | run i choice =>
    simp only [Service.step]
    split
    · rename_i request β stmt next hthread
      exact (prefix_of_changes (changes_exec stmt choice cfg'.world.state)).subset hrevision
    · exact hrevision
    · exact hrevision

/-- A step that saves no page. -/
theorem keepsHalves_quiet {w w' : WikiWorld} (hattested : Service.Attested Told w)
    (hattested' : Service.Attested Told w') (hbefore : KeepsHalves w)
    {j : Nat} {event : WikiEvent} (hlog : w'.log = (j, event) :: w.log)
    (hevent : savedPage event = none) (hgrown : w.state.revisions <+: w'.state.revisions) (n : Nat) :
    KeepsHalves w' ↔ Undisturbed n w w' := by
  refine iff_of_true ?_ ?_
  · rintro i request patch page hbegan hpatch ⟨event', hmem, hsaved⟩
    rw [hlog] at hmem
    rcases List.mem_cons.mp hmem with heq | hold
    · obtain ⟨-, rfl⟩ := Prod.mk.inj heq
      rw [hevent] at hsaved
      contradiction
    · obtain ⟨request', hbegan'⟩ := hattested.begun i event' hold
      have hlater : (i, .began request') ∈ w'.log := by
        rw [hlog]
        exact List.mem_cons_of_mem _ hbegan'
      obtain rfl := hattested'.unique i request request' hbegan hlater
      exact (hbefore i request patch page hbegan' hpatch ⟨event', hold, hsaved⟩).mono hgrown
  · intro i request patch projectId id title body editorId page _ _ hlog'
    rw [hlog] at hlog'
    obtain ⟨-, rfl⟩ := Prod.mk.inj (List.cons.inj hlog').1
    contradiction

/-- A step that saves a page. -/
theorem keepsHalves_save {w w' : WikiWorld} (hattested' : Service.Attested Told w')
    (hbefore : KeepsHalves w) (hfaithful : Faithful w.state) {j : Nat} {projectId : Uuid}
    {title body : String} {editorId : Uuid} {old : WikiPage}
    (hlog : w'.log = (j, .ran (.update projectId id title body editorId)
      (.ok (some (Db.saved title body editorId old)))) :: w.log)
    (hold : w.state.get projectId id = some old) (hpages : w'.state.pages.rows =
      updateWhere (·.id == id) (Db.saved title body editorId) w.state.pages.rows)
    (hrevisions : w'.state.revisions =
      w.state.revisions ++ [Db.snapshot (Db.saved title body editorId old)]) (n : Nat) :
    KeepsHalves w' ↔ Undisturbed n w w' := by
  have hmem : (j, .ran (.update projectId id title body editorId)
      (.ok (some (Db.saved title body editorId old)))) ∈ w'.log := by
    rw [hlog]
    exact List.mem_cons_self
  have hhalves : ∀ patch, HalvesKept patch (Db.saved title body editorId old) w'.state ↔
      (patch.title = none → title = old.title) ∧ (patch.body = none → body = old.body) :=
    fun patch => halvesKept_saved hfaithful hold hpages hrevisions
  constructor
  · intro hkeeps i request patch projectId' id' title' body' editorId' page hbegan hpatch hlog'
      existing hread now hnow
    rw [hlog] at hlog'
    obtain ⟨rfl, hevent⟩ := Prod.mk.inj (List.cons.inj hlog').1
    cases hevent
    rw [hold] at hnow
    obtain rfl := Option.some.inj hnow
    have hbegan' : (j, .began request) ∈ w'.log := by
      rw [hlog]
      exact List.mem_cons_of_mem _ hbegan
    have hread' : (j, .ran (.get projectId id) (.ok (some existing))) ∈ w'.log := by
      rw [hlog]
      exact List.mem_cons_of_mem _ hread
    have htold := hattested'.told j request hbegan'
    obtain ⟨read, hfound, htitle, hbody⟩ := merged_of_told htold hpatch (World.mem_own.mpr hmem)
    obtain rfl := eq_of_told htold (by simp [hpatch]) hfound (World.mem_own.mpr hread')
    obtain ⟨htitles, hbodies⟩ :=
      (hhalves patch).mp (hkeeps j request patch _ hbegan' hpatch ⟨_, hmem, rfl⟩)
    refine ⟨?_, ?_⟩
    · intro hnone
      rw [← htitles hnone, htitle, hnone]
      rfl
    · intro hnone
      rw [← hbodies hnone, hbody, hnone]
      rfl
  · rintro hundisturbed i request patch page hbegan hpatch ⟨event', hevent', hsaved⟩
    rw [hlog] at hbegan hevent'
    rcases List.mem_cons.mp hbegan with heq | hearly
    · cases (Prod.mk.inj heq).2
    · have hbegan' : (i, .began request) ∈ w'.log := by
        rw [hlog]
        exact List.mem_cons_of_mem _ hearly
      rcases List.mem_cons.mp hevent' with heq | hearlier
      · obtain ⟨rfl, rfl⟩ := Prod.mk.inj heq
        obtain rfl := Option.some.inj hsaved
        obtain ⟨read, hfound, htitle, hbody⟩ :=
          merged_of_told (hattested'.told i request hbegan') hpatch (World.mem_own.mpr hmem)
        have hread : (i, .ran (.get projectId id) (.ok (some read))) ∈ w.log := by
          have hlater := World.mem_own.mp hfound
          rw [hlog] at hlater
          rcases List.mem_cons.mp hlater with heq | hread
          · cases (Prod.mk.inj heq).2
          · exact hread
        obtain ⟨htitles, hbodies⟩ := hundisturbed i request patch projectId id title body editorId _
          hearly hpatch hlog read hread old hold
        refine (hhalves patch).mpr ⟨?_, ?_⟩
        · intro hnone
          rw [htitles hnone, htitle, hnone]
          rfl
        · intro hnone
          rw [hbodies hnone, hbody, hnone]
          rfl
      · exact (hbefore i request patch page hearly hpatch ⟨event', hearlier, hsaved⟩).mono
          ⟨_, hrevisions.symm⟩

/-- A step keeps the halves in exactly the case that it is undisturbed. -/
theorem keepsHalves_step (hdb : Faithful db) (label : Label Request Bool)
    (hbefore : KeepsHalves (service.run (initial db) labels).world) :
    KeepsHalves (service.step (service.run (initial db) labels) label).world ↔
      Undisturbed (Service.actor (service.run (initial db) labels) label)
        (service.run (initial db) labels).world
        (service.step (service.run (initial db) labels) label).world := by
  have hfaithful := faithful_run hdb labels
  have hattested := service.attested tellsAll_told db labels
  have hattested' := service.attested tellsAll_told db (labels ++ [label])
  rw [Service.run_append] at hattested'
  have hattested' : Service.Attested Told
    (service.step (service.run (initial db) labels) label).world := hattested'
  have hstep := service.stepOf (P := fun _ {_} _ => True)
    (service.attributed_run only_true_service (Service.attributed_initial db) labels) label
  generalize (service.run (initial db) labels).world = w at *
  generalize (service.step (service.run (initial db) labels) label).world = w' at *
  cases hstep with
  | void =>
    refine iff_of_true hbefore ?_
    intro i request patch projectId id title body editorId page _ _ hlog
    exact absurd hlog.symm (List.cons_ne_self _ _)
  | began j request | answered j request answer hbegan =>
    exact keepsHalves_quiet hattested hattested' hbefore rfl rfl (List.prefix_refl _) _
  | issued j request stmt choice hbegan hmay =>
    have hchanges := changes_exec stmt choice w.state
    have hlog : (service.perform j stmt choice w).log =
      (j, .ran stmt (stmt.exec choice w.state).1) :: w.log := rfl
    have hgrown : w.state.revisions <+: (service.perform j stmt choice w).state.revisions :=
      prefix_of_changes hchanges
    have hstate : (service.perform j stmt choice w).state = (stmt.exec choice w.state).2 := rfl
    generalize service.perform j stmt choice w = w' at *
    generalize (stmt.exec choice w.state).1 = result at hchanges hlog
    rw [← hstate] at hchanges
    generalize hlater : w'.state = later at hchanges
    cases hchanges with
    | nothing _ _ hnot => exact keepsHalves_quiet hattested hattested' hbefore hlog hnot hgrown _
    | created projectId slug title body editorId page _ hid hversion hpages hrevisions
    | deleted projectId id _ _ hpages hrevisions =>
      exact keepsHalves_quiet hattested hattested' hbefore hlog rfl hgrown _
    | saved projectId id title body editorId old _ hold hpages hrevisions =>
      exact keepsHalves_save hattested' hbefore hfaithful hlog hold (by rw [hlater]; exact hpages)
        (by rw [hlater]; exact hrevisions) _

/-- A patch that answers success has saved the page that it shows. -/
theorem saved_of_answered (db : Db) (labels : List (Label Request Bool)) {i : Nat} {request : Request}
    {answer : Answer} (hpatch : request.patch.isSome)
    (hanswered : Service.Answered (service.run (initial db) labels) i request (.ok answer)) :
    ∃ page, answer = .page 200 page ∧
      Saved (service.run (initial db) labels).world i page := by
  obtain ⟨earlier, -, htold, hlog⟩ := service.told_of_answered tellsAll_told db labels hanswered
  obtain ⟨page, hpage, event, hevent, hsaved⟩ := htold hpatch
  exact ⟨page, hpage, event, hlog event hevent, hsaved⟩

/-- The history stays faithful and only grows, and every patch that answers success has
saved a revision; it has the half that the patch leaves out from the revision before in
exactly the runs where no other save changed that half since the patch read it. -/
theorem halves_kept_iff (hdb : Faithful db) (labels : List (Label Request Bool)) :
    Faithful (service.run (initial db) labels).world.state ∧
      service.Persists (fun s revision => revision ∈ s.revisions) (initial db) labels ∧
      (∀ i request answer, request.patch.isSome →
        Service.Answered (service.run (initial db) labels) i request (.ok answer) →
          ∃ page, answer = .page 200 page ∧
            Saved (service.run (initial db) labels).world i page) ∧
      (service.Always KeepsHalves (initial db) labels ↔
        service.Admits Undisturbed (initial db) labels) := by
  refine ⟨faithful_run hdb labels, revisions_persist _ labels, ?_, ?_⟩
  · intro i request answer hpatch hanswered
    exact saved_of_answered db labels hpatch hanswered
  · refine service.always_iff_admits ?_ (fun _ label => keepsHalves_step hdb label) labels
    intro i request patch page hbegan
    contradiction

end Runs

def editor : Context := ⟨1, 7, true, true⟩

/-- A page is created, and its title and its body are patched by two requests that both
read it before either saves. -/
def partialEdits : List (Label Request Bool) :=
  [.start (.create editor (.ok ⟨some "setup", "Setup", "Install it"⟩)), .run 0 false, .run 0 false,
    .start (.update editor 1 (.ok { title := some "Guide" })),
    .start (.update editor 1 (.ok { body := some "Build it" })),
    .run 1 false, .run 2 false, .run 1 false, .run 2 false, .run 1 false, .run 2 false]

/-! ## What becomes of a page -/

/-- A page keeps its place, its version never goes down, and once deleted it stays as it is. -/
structure Follows (page later : WikiPage) : Prop where
  id : later.id = page.id
  projectId : later.projectId = page.projectId
  slug : later.slug = page.slug
  version : page.version ≤ later.version
  final : page.deleted = true → later = page

theorem Follows.refl (page : WikiPage) : Follows page page :=
  ⟨rfl, rfl, rfl, Nat.le_refl _, fun _ => rfl⟩

theorem follows_of_changes {β : Type} {stmt : Stmt β} {result : β}
    (hchanges : Changes db stmt result later) {page : WikiPage} (hpage : page ∈ db.pages.rows) :
    ∃ page' ∈ later.pages.rows, Follows page page' := by
  cases hchanges with
  | nothing _ _ _ => exact ⟨page, hpage, .refl page⟩
  | created _ _ _ _ _ new _ _ _ hpages _ =>
    exact ⟨page, hpages ▸ List.mem_append_left _ hpage, .refl page⟩
  | saved projectId id title body editorId old _ hold hpages _ =>
    refine ⟨_, hpages ▸ mem_updateWhere.mpr ⟨page, hpage, rfl⟩, ?_⟩
    split
    · rename_i hid
      obtain ⟨hfound, hlive⟩ := Option.filter_eq_some_iff.mp hold
      rw [← beq_iff_eq.mp hid, Table.find?_key hpage] at hfound
      obtain rfl := Option.some.inj hfound
      -- only a live page is saved
      exact ⟨rfl, rfl, rfl, Nat.le_succ _, fun hdeleted => by simp [hdeleted] at hlive⟩
    · exact .refl page
  | deleted projectId id _ _ hpages _ =>
    refine ⟨_, hpages ▸ mem_updateWhere.mpr ⟨page, hpage, rfl⟩, ?_⟩
    split
    · exact ⟨rfl, rfl, rfl, Nat.le_refl _, fun hdeleted => by rw [← hdeleted]⟩
    · exact .refl page

theorem pages_follow (cfg : Config Stmt Db Request (Except Problem Answer))
    (labels : List (Label Request Bool)) : ∀ page ∈ cfg.world.state.pages.rows,
      ∃ page' ∈ (service.run cfg labels).world.state.pages.rows, Follows page page' := by
  apply service.state_run (R := fun db db' => ∀ page ∈ db.pages.rows,
    ∃ page' ∈ db'.pages.rows, Follows page page')
  · exact fun _ page hpage => ⟨page, hpage, .refl page⟩
  · intro _ _ _ h h' page hpage
    obtain ⟨page', hpage', hfollows⟩ := h page hpage
    obtain ⟨page'', hpage'', hfollows'⟩ := h' page' hpage'
    refine ⟨page'', hpage'', hfollows'.id.trans hfollows.id,
      hfollows'.projectId.trans hfollows.projectId, hfollows'.slug.trans hfollows.slug,
      hfollows.version.trans hfollows'.version, fun hdeleted => ?_⟩
    obtain rfl := hfollows.final hdeleted
    exact hfollows'.final hdeleted
  · exact fun stmt choice db page => follows_of_changes (changes_exec stmt choice db)

theorem pages_follow_edits : ∃ page' ∈ (service.run (service.run (initial Db.empty)
    (partialEdits.take 3)) (partialEdits.drop 3)).world.state.pages.rows,
    Follows ⟨1, 1, "setup", "Setup", "Install it", 1, 7, false⟩ page' :=
  pages_follow _ _ _ (by decide +kernel)

theorem halves_kept_iff_edits :
    Faithful (service.run (initial Db.empty) partialEdits).world.state ∧
      (service.Always KeepsHalves (initial Db.empty) partialEdits ↔
        service.Admits Undisturbed (initial Db.empty) partialEdits) := by
  obtain ⟨hfaithful, -, -, hkept⟩ := halves_kept_iff faithful_empty partialEdits
  exact ⟨hfaithful, hkept⟩

/-- The new title is lost with the save of the body. -/
theorem halves_not_kept :
    ¬ ∀ (labels : List (Label Request Bool)) (i : Nat) (request : Request)
        (patch : UpdateWikiPageRequest) (page : WikiPage), request.patch = some patch →
          Service.Answered (service.run (initial Db.empty) labels) i request
            (.ok (.page 200 page)) →
          HalvesKept patch page (service.run (initial Db.empty) labels).world.state := by
  intro h
  have hanswered : Service.Answered (service.run (initial Db.empty) partialEdits) 2
      (.update editor 1 (.ok { body := some "Build it" }))
      (.ok (.page 200 ⟨1, 1, "setup", "Setup", "Build it", 3, 7, false⟩)) := ⟨_, rfl⟩
  obtain ⟨previous, revision, hprevious, hrevision, htitle, -⟩ :=
    h partialEdits 2 _ _ _ rfl hanswered
  have hsecond : (service.run (initial Db.empty) partialEdits).world.state.getRevision 1 2 =
      some ⟨1, 2, "Guide", "Install it", 7⟩ := by decide +kernel
  have hthird : (service.run (initial Db.empty) partialEdits).world.state.getRevision 1 3 =
      some ⟨1, 3, "Setup", "Build it", 7⟩ := by decide +kernel
  obtain rfl := Option.some.inj (hsecond.symm.trans hprevious)
  obtain rfl := Option.some.inj (hthird.symm.trans hrevision)
  exact absurd (htitle rfl) (by decide)

end IntelliPilot.Wiki
