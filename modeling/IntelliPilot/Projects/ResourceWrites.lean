import IntelliPilot.Projects.ResourceIsolation

/-! # What the requests on resources write

The handlers that look up the things of a request under the project write only
rows of that project. `remove_watcher` and the two `unlink` handlers delete by
the ids alone, versions take any repository there is, the count of what uses a
taxonomy item goes over all projects, and any board can be the one last opened.
-/

namespace IntelliPilot.Projects.Resources

open Http Rows

variable {remote : Remote} {ctx : Context} {now : Int} {db : Db} {projectId other : Uuid}

/-! ## Deletions by bare ids -/

variable {α : Type} {p : α → Bool}

/-- The rows of a project survive a deletion if and only if none of them is meant. -/
theorem filter_deleteWhere_eq_iff {q : α → Bool} {rows : List α} :
    (deleteWhere q rows).filter p = rows.filter p ↔ ∀ row ∈ rows, p row = true → q row = false := by
  rw [deleteWhere, List.filter_filter]
  constructor
  · intro heq row hrow hp
    have hmem : row ∈ rows.filter p := List.mem_filter.mpr ⟨hrow, hp⟩
    rw [← heq] at hmem
    simpa using (Bool.and_eq_true_iff.mp (List.mem_filter.mp hmem).2).2
  · intro hnone
    apply List.filter_congr
    intro row hrow
    cases hp : p row with
    | false => rfl
    | true => rw [hnone row hrow hp]; rfl

theorem isolated_deleteLink (hne : ctx.projectId ≠ other) (linkId : Option Uuid) :
    Isolated remote ctx now db other (.deleteLink linkId) := by
  refine isolates_of_admitted rfl fun id _ => ?_
  have hsame : ((db.without other).issueLinks.find? id).any (·.projectId == ctx.projectId) =
      (db.issueLinks.find? id).any (·.projectId == ctx.projectId) := by
    rw [Db.without, Table.find?_erase]
    exact any_own fun _ => apart_of_ne hne
  rw [isolates_iff]
  unfold eraseLink
  rw [hsame]
  split
  · refine ⟨rfl, ?_, ?_⟩
    · have hlinks : (deleteWhere (fun row => row.id == id && row.projectId == ctx.projectId)
          db.issueLinks.rows).filter (·.projectId == other) =
            db.issueLinks.rows.filter (·.projectId == other) := by
        apply filter_deleteWhere_eq_iff.mpr
        intro row _ hrow
        rw [apart_of_ne (Ne.symm hne) hrow, Bool.and_false]
      exact congrArg (fun rows => { db.holdings other with issueLinks := rows }) hlinks
    · intro r _ hrefers
      cases r with
      | link source target =>
        obtain ⟨row, hrow, hmatch⟩ := List.any_eq_true.mp hrefers
        exact List.any_eq_true.mpr ⟨row, (mem_deleteWhere.mp hrow).1, hmatch⟩
      | version issueId versionId | release componentId releaseId
      | repository componentId repositoryId | source versionId repositoryId
      | opened userId boardId => exact hrefers
  · exact ⟨rfl, rfl, fun _ _ h => h⟩

/-- A row that is looked up by its key belongs to the other project or is found without it. -/
theorem isSome_filter {o : Option α} {gone : α → Bool} :
    (o.filter fun row => !gone row).isSome = o.isSome ↔ ∀ row, o = some row → gone row = false := by
  cases o with
  | none => simp
  | some row => cases hgone : gone row <;> simp [Option.filter, hgone]

theorem isSome_of_filter {o : Option α} (h : (o.filter p).isSome = true) : o.isSome = true := by
  cases o with
  | none => exact h
  | some row => rfl

/-- The deletion of a row of a table by its pair of ids, without a look at whose it is. -/
theorem isolates_erasePair_iff {key : α → Uuid × Uuid} {T : Db → Table key}
    {P : Table key → Db → Db} {own : Uuid → Bool} {pair : Uuid × Uuid} {refusal : Problem}
    (hwithout : T (db.without other) = (T db).erase fun row => own (key row).1)
    (hholdings : ∀ t : Table key, (t.rows.filter fun row => own (key row).1) =
      ((T db).rows.filter fun row => own (key row).1) →
        (P t db).holdings other = db.holdings other)
    (hrefers : ∀ r, (P ((T db).erase fun row => key row == pair) db).refers projectId r =
      true → db.refers projectId r = true) :
    Isolates projectId other db (fun db =>
      if ((T db).find? pair).isSome then
        (.noContent, P ((T db).erase fun row => key row == pair) db)
      else (.problem refusal, db)) ↔
        (((T db).find? pair).isSome → own pair.1 = false) := by
  have hleft : ((T (db.without other)).find? pair).isSome = ((T db).find? pair).isSome ↔
      (((T db).find? pair).isSome → own pair.1 = false) := by
    rw [hwithout, Table.find?_erase, isSome_filter]
    cases hfound : (T db).find? pair with
    | none => simp
    | some row => simp [Table.key_of_find? hfound]
  rw [isolates_iff, ← hleft]
  cases hfound : ((T db).find? pair).isSome with
  | false => cases ((T (db.without other)).find? pair).isSome <;> simp
  | true =>
    cases hkept : ((T (db.without other)).find? pair).isSome with
    | false => simp
    | true =>
      have hown := hleft.mp (hkept.trans hfound.symm) hfound
      refine iff_of_true ⟨rfl, ?_, fun r _ hr => hrefers r hr⟩ rfl
      apply hholdings
      apply filter_deleteWhere_eq_iff.mpr
      intro row _ hrow
      apply beq_false_of_ne
      intro hkey
      rw [hkey, hown] at hrow
      contradiction

theorem isolated_removeWatcher_iff (id userId : Option Uuid) :
    Isolated remote ctx now db other (.removeWatcher id userId) ↔
      Harmless ctx db other (.removeWatcher id userId) := by
  refine isolates_admitted_iff rfl fun pair _ => ?_
  refine isolates_erasePair_iff (T := Db.issueWatchers)
    (P := fun t db => { db with issueWatchers := t }) rfl ?_ ?_
  · intro t hrows
    exact congrArg (fun rows => { db.holdings other with issueWatchers := rows }) hrows
  · intro r hr
    cases r <;> exact hr

theorem isolated_unlinkComponentRelease_iff (componentId releaseId : Option Uuid) :
    Isolated remote ctx now db other (.unlinkComponentRelease componentId releaseId) ↔
      Harmless ctx db other (.unlinkComponentRelease componentId releaseId) := by
  refine isolates_admitted_iff rfl fun pair _ => ?_
  refine isolates_erasePair_iff (T := Db.componentReleases)
    (P := fun t db => { db with componentReleases := t }) rfl ?_ ?_
  · intro t hrows
    exact congrArg (fun rows => { db.holdings other with componentReleases := rows }) hrows
  · intro r hr
    cases r with
    | release componentId releaseId =>
      obtain ⟨hcomponent, hlink⟩ := Bool.and_eq_true_iff.mp hr
      refine Bool.and_eq_true_iff.mpr ⟨hcomponent, ?_⟩
      rw [Table.find?_erase] at hlink
      exact isSome_of_filter hlink
    | link source target | version issueId versionId | repository componentId repositoryId
    | source versionId repositoryId | opened userId boardId => exact hr

theorem isolated_unlinkComponentRepository_iff (componentId repositoryId : Option Uuid) :
    Isolated remote ctx now db other (.unlinkComponentRepository componentId repositoryId) ↔
      Harmless ctx db other (.unlinkComponentRepository componentId repositoryId) := by
  refine isolates_admitted_iff rfl fun pair _ => ?_
  refine isolates_erasePair_iff (T := Db.componentRepositories)
    (P := fun t db => { db with componentRepositories := t }) rfl ?_ ?_
  · intro t hrows
    exact congrArg (fun rows => { db.holdings other with componentRepositories := rows }) hrows
  · intro r hr
    cases r with
    | repository componentId repositoryId =>
      obtain ⟨hcomponent, hlink⟩ := Bool.and_eq_true_iff.mp hr
      refine Bool.and_eq_true_iff.mpr ⟨hcomponent, ?_⟩
      rw [Table.find?_erase] at hlink
      exact isSome_of_filter hlink
    | link source target | version issueId versionId | release componentId releaseId
    | source versionId repositoryId | opened userId boardId => exact hr

/-! ## Taxonomy items and boards -/

/-- A count is the same without some of the rows if and only if none of them counted. -/
theorem count_deleteWhere_le (p q : α → Bool) (rows : List α) :
    ((deleteWhere q rows).filter p).length ≤ (rows.filter p).length :=
  (List.Sublist.filter p List.filter_sublist).length_le

theorem count_deleteWhere_iff {q : α → Bool} {rows : List α} :
    ((deleteWhere q rows).filter p).length = (rows.filter p).length ↔
      ∀ row ∈ rows, q row = true → p row = false := by
  have hsub : ((deleteWhere q rows).filter p).Sublist (rows.filter p) :=
    List.Sublist.filter p List.filter_sublist
  constructor
  · intro hlength row hrow hq
    have heq := hsub.eq_of_length hlength
    cases hp : p row with
    | false => rfl
    | true =>
      have hkept := filter_deleteWhere_eq_iff.mp heq row hrow hp
      exact absurd hq (by simp [hkept])
  · intro hnone
    rw [filter_deleteWhere_eq_iff.mpr]
    intro row hrow hp
    cases hq : q row with
    | false => rfl
    | true => exact absurd hp (by simp [hnone row hrow hq])

theorem taxonomyReferenceCount_without_iff {itemId : Uuid} :
    (db.without other).taxonomyReferenceCount itemId = db.taxonomyReferenceCount itemId ↔
      (∀ epic ∈ db.epics.rows, epic.projectId = other → epic.statusId ≠ some itemId) ∧
        ∀ issue ∈ db.issues.rows, issue.projectId = other →
          issue.statusId ≠ some itemId ∧ issue.typeId ≠ some itemId ∧
            issue.priorityId ≠ some itemId ∧ issue.sizeId ≠ some itemId := by
  unfold Db.taxonomyReferenceCount
  -- neither of the two counts grows, so their sum stays only if both do
  have hepics := count_deleteWhere_le (fun epic : Epic => epic.statusId == some itemId)
    (fun epic => epic.projectId == other) db.epics.rows
  have hissues := count_deleteWhere_le (fun issue : Issue => issue.statusId == some itemId ||
      issue.typeId == some itemId || issue.priorityId == some itemId ||
      issue.sizeId == some itemId) (fun issue => issue.projectId == other) db.issues.rows
  have hsplit : ∀ {a b c d : Nat}, a ≤ b → c ≤ d → (a + c = b + d ↔ a = b ∧ c = d) := by omega
  refine (hsplit hepics hissues).trans (and_congr ?_ ?_)
  · exact count_deleteWhere_iff.trans (by simp)
  · exact count_deleteWhere_iff.trans (by simp [and_assoc])

theorem isolated_deleteTaxonomyItem_iff (hne : ctx.projectId ≠ other)
    (kind : Option TaxonomyKind) (itemId : Option Uuid) :
    Isolated remote ctx now db other (.deleteTaxonomyItem kind itemId) ↔
      Harmless ctx db other (.deleteTaxonomyItem kind itemId) := by
  refine isolates_admitted_iff rfl fun item _ => ?_
  rw [← taxonomyReferenceCount_without_iff, isolates_iff]
  have hitem : ((db.without other).taxonomyItems.find? item.2).any (fun row =>
      row.projectId == ctx.projectId && row.kind == item.1) =
        (db.taxonomyItems.find? item.2).any fun row =>
          row.projectId == ctx.projectId && row.kind == item.1 := by
    rw [Db.without, Table.find?_erase]
    apply any_own
    intro row hrow
    exact apart_of_ne hne (Bool.and_eq_true_iff.mp hrow).1
  have hle : (db.without other).taxonomyReferenceCount item.2 ≤
      db.taxonomyReferenceCount item.2 :=
    Nat.add_le_add (count_deleteWhere_le _ _ _) (count_deleteWhere_le _ _ _)
  unfold eraseTaxonomyItem
  simp only [hitem]
  by_cases hcount : 0 < db.taxonomyReferenceCount item.2
  · rw [if_pos hcount]
    by_cases hleft : 0 < (db.without other).taxonomyReferenceCount item.2
    · rw [if_pos hleft]
      constructor
      · intro h
        exact (Response.inUse.inj h.1).1.symm
      · intro h
        rw [h]
        exact ⟨rfl, rfl, fun _ _ hr => hr⟩
    · rw [if_neg hleft]
      refine iff_of_false ?_ (by omega)
      intro h
      split at h
      · exact Response.noConfusion h.1
      · exact Response.noConfusion h.1
  · have hnone : ¬ 0 < (db.without other).taxonomyReferenceCount item.2 := by omega
    rw [if_neg hcount, if_neg hnone]
    refine iff_of_true ?_ (by omega)
    split
    · refine ⟨rfl, ?_, fun r _ hr => by cases r <;> exact hr⟩
      have hrows : (deleteWhere (fun row => row.id == item.2 && row.projectId == ctx.projectId &&
          row.kind == item.1) db.taxonomyItems.rows).filter (·.projectId == other) =
            db.taxonomyItems.rows.filter (·.projectId == other) := by
        apply filter_deleteWhere_eq_iff.mpr
        intro row _ hrow
        simp [apart_of_ne (Ne.symm hne) hrow]
      exact congrArg (fun rows => { db.holdings other with taxonomyItems := rows }) hrows
    · exact ⟨rfl, rfl, fun _ _ hr => hr⟩

theorem filter_insert? {κ : Type} [DecidableEq κ] {key : α → κ} {t t' : Table key} {row : α}
    (h : t.insert? row = some t') (hp : p row = false) :
    t'.rows.filter p = t.rows.filter p := by
  rw [Table.insert?_rows h, List.filter_append, List.filter_singleton, hp]
  simp

variable {id : Uuid}

/-- What is written down as opened last is written down for the actor, under the own project. -/
theorem holdings_writeLastOpened (hne : ctx.projectId ≠ other) :
    (writeLastOpened ctx db id).2.holdings other = db.holdings other := by
  unfold writeLastOpened
  split
  · split
    · rename_i table htable
      have hrows := filter_insert? (p := fun row : LastOpened => row.projectId == other) htable
        (beq_false_of_ne hne)
      exact congrArg (fun rows => { db.holdings other with lastOpened := rows }) hrows
    · have hrows : (updateWhere (fun row : LastOpened => row.key == (ctx.projectId, ctx.actorId))
          (fun row => { row with boardId := some id }) db.lastOpened.rows).filter
            (·.projectId == other) = db.lastOpened.rows.filter (·.projectId == other) := by
        apply filter_updateWhere_of_not
        intro row _ hkey
        rw [beq_iff_eq] at hkey
        have hproject : row.projectId = ctx.projectId := congrArg Prod.fst hkey
        rw [hproject]
        exact ⟨beq_false_of_ne hne, beq_false_of_ne hne⟩
      exact congrArg (fun rows => { db.holdings other with lastOpened := rows }) hrows
  · rfl

/-- What is opened last is found under the actor; everyone else's stays. -/
theorem find?_writeLastOpened (hboard : (db.boards.find? id).isSome = true) (key : Uuid × Uuid) :
    (writeLastOpened ctx db id).2.lastOpened.find? key =
      if key = (ctx.projectId, ctx.actorId) then some ⟨ctx.projectId, ctx.actorId, some id⟩
      else db.lastOpened.find? key := by
  unfold writeLastOpened
  rw [if_pos hboard]
  split
  · rename_i table htable
    exact Table.find?_insert? htable key
  · rename_i htaken
    refine (Table.find?_modify db.lastOpened
      (fun row => row.key == (ctx.projectId, ctx.actorId))
      (fun row => { row with boardId := some id }) (fun _ => rfl) key).trans ?_
    cases hfound : db.lastOpened.find? key with
    | none =>
      by_cases hkey : key = (ctx.projectId, ctx.actorId)
      · rw [hkey] at hfound
        have hfree : db.lastOpened.find?
            (⟨ctx.projectId, ctx.actorId, some id⟩ : LastOpened).key = none := hfound
        obtain ⟨table, htable⟩ := Table.exists_insert? hfree
        rw [htable] at htaken
        contradiction
      · rw [if_neg hkey]
        rfl
    | some row =>
      have hrow : row.key = key := Table.key_of_find? hfound
      by_cases hkey : key = (ctx.projectId, ctx.actorId)
      · rw [Option.map_some, hrow, hkey, if_pos rfl, if_pos (beq_self_eq_true _)]
        have hproject : row.projectId = ctx.projectId := congrArg Prod.fst (hrow.trans hkey)
        have huser : row.userId = ctx.actorId := congrArg Prod.snd (hrow.trans hkey)
        rw [hproject, huser]
      · rw [Option.map_some, hrow, if_neg hkey, if_neg (by simpa using hkey)]

variable {r : Reference}

/-- Opening a board refers to it and to nothing else that was not referred to before. -/
theorem refers_writeLastOpened (h : (writeLastOpened ctx db id).2.refers ctx.projectId r = true) :
    db.refers ctx.projectId r = true ∨ r = .opened ctx.actorId id := by
  cases hboard : (db.boards.find? id).isSome with
  | false =>
    left
    simpa [writeLastOpened, hboard] using h
  | true =>
    cases r with
    | opened userId boardId =>
      rw [Db.refers, find?_writeLastOpened hboard] at h
      by_cases hkey : (ctx.projectId, userId) = (ctx.projectId, ctx.actorId)
      · rw [if_pos hkey, Option.any_some, beq_iff_eq] at h
        right
        rw [(Prod.mk.inj hkey).2, Option.some.inj h]
      · rw [if_neg hkey] at h
        exact .inl h
    | link source target | version issueId versionId | release componentId releaseId
    | repository componentId repositoryId | source versionId repositoryId =>
      left
      unfold writeLastOpened at h
      rw [if_pos hboard] at h
      split at h <;> exact h

theorem isolated_setLastOpened_iff (hne : ctx.projectId ≠ other) (boardId : Option Uuid) :
    Isolated remote ctx now db other (.setLastOpened boardId) ↔
      Harmless ctx db other (.setLastOpened boardId) := by
  refine isolates_admitted_iff rfl fun id _ => ?_
  have hleft : ((db.without other).boards.find? id).isSome = (db.boards.find? id).isSome ↔
      db.boardOf other id = false := by
    rw [Db.without, Table.find?_erase, isSome_filter, Db.boardOf]
    cases db.boards.find? id <;> simp
  have hanswer : ∀ db : Db, (writeLastOpened ctx db id).1 =
      if (db.boards.find? id).isSome then .noContent else .problem internal := by
    intro db
    unfold writeLastOpened
    split
    · split <;> rfl
    · rfl
  rw [isolates_iff, hanswer, hanswer, ← hleft]
  constructor
  · rintro ⟨hresponse, _⟩
    generalize ((db.without other).boards.find? id).isSome = left at hresponse ⊢
    generalize (db.boards.find? id).isSome = found at hresponse ⊢
    cases left <;> cases found <;> first | rfl | contradiction
  · intro hsame
    refine ⟨by rw [hsame], holdings_writeLastOpened hne, fun r hleads hr => ?_⟩
    rcases refers_writeLastOpened hr with hold | rfl
    · exact hold
    · have hforeign : db.boardOf other id = true := hleads
      rw [hleft.mp hsame] at hforeign
      contradiction

/-! ## Additions -/

theorem isolated_addWatcher (hne : ctx.projectId ≠ other) (id userId : Option Uuid) :
    Isolated remote ctx now db other (.addWatcher id userId) := by
  refine isolates_of_admitted (admitIssue_without hne id) fun id' hadmit => ?_
  have hown := issueOf_of_inProject hne (of_admitIssue hadmit)
  have hanswer : ∀ db : Db, (writeWatcher db (userId.getD ctx.actorId) id').1 =
      if db.users.contains (userId.getD ctx.actorId) then .noContent
      else .problem codedInternal := by
    intro db
    unfold writeWatcher
    split
    · split <;> rfl
    · rfl
  rw [isolates_iff, hanswer, hanswer]
  refine ⟨rfl, ?_, fun r _ hr => ?_⟩
  · unfold writeWatcher
    split
    · split
      · rename_i table htable
        have hrows := filter_insert?
          (p := fun row : IssueWatcher => db.issueOf other row.issueId) htable hown
        exact congrArg (fun rows => { db.holdings other with issueWatchers := rows }) hrows
      · rfl
    · rfl
  · unfold writeWatcher at hr
    split at hr
    · split at hr
      · cases r <;> exact hr
      · exact hr
    · exact hr

theorem of_admitLink {id : Option Uuid} {body : Except Problem (Uuid × LinkType)}
    {link : Uuid × Uuid × LinkType} (h : admitLink ctx db id body = .ok link) :
    db.issueInProject ctx.projectId link.1 = true ∧
      db.issueInProject ctx.projectId link.2.1 = true := by
  obtain ⟨_, h⟩ := ensure_bind h
  obtain ⟨source, _, h⟩ := parsed_bind h
  obtain ⟨target, _, h⟩ := body_bind h
  obtain ⟨_, h⟩ := ensure_bind h
  obtain ⟨hsource, h⟩ := ensure_bind h
  obtain ⟨htarget, h⟩ := ensure_bind h
  cases h
  exact ⟨hsource, htarget⟩

theorem find?_of_inProject (hne : projectId ≠ other) (h : db.issueInProject projectId id = true) :
    ∃ issue, db.issues.find? id = some issue ∧ (db.without other).issues.find? id = some issue := by
  have hown := issueOf_of_inProject hne h
  unfold Db.issueInProject at h
  unfold Db.issueOf at hown
  cases hfound : db.issues.find? id with
  | none => simp [hfound] at h
  | some issue =>
    refine ⟨issue, rfl, ?_⟩
    rw [Db.without, Table.find?_erase, hfound]
    simpa [hfound] using hown

/-- The links that stand in the way of a new one. -/
def sameLink (link : Uuid × Uuid × LinkType) (row : IssueLink) : Bool :=
  row.sourceIssueId == link.1 && row.targetIssueId == link.2.1 && row.linkType == link.2.2

theorem any_without_iff {link : Uuid × Uuid × LinkType} :
    (db.without other).issueLinks.rows.any (sameLink link) =
        db.issueLinks.rows.any (sameLink link) ↔
      HarmlessLink db other link := by
  have hleft : (db.without other).issueLinks.rows.any (sameLink link) = true ↔
      ∃ row ∈ db.issueLinks.rows, row.sourceIssueId = link.1 ∧ row.targetIssueId = link.2.1 ∧
        row.linkType = link.2.2 ∧ row.projectId ≠ other := by
    rw [List.any_eq_true]
    constructor
    · rintro ⟨row, hrow, hsame⟩
      obtain ⟨hrow, hproject⟩ := mem_deleteWhere.mp hrow
      simp only [sameLink, Bool.and_eq_true, beq_iff_eq] at hsame
      exact ⟨row, hrow, hsame.1.1, hsame.1.2, hsame.2, by simpa using hproject⟩
    · rintro ⟨row, hrow, hsource, htarget, htype, hproject⟩
      exact ⟨row, mem_deleteWhere.mpr ⟨hrow, by simpa using hproject⟩,
        by simp [sameLink, hsource, htarget, htype]⟩
  rw [Bool.eq_iff_iff, hleft, List.any_eq_true]
  constructor
  · intro hsame row hrow hsource htarget htype _
    exact hsame.mpr ⟨row, hrow, by simp [sameLink, hsource, htarget, htype]⟩
  · intro hharmless
    constructor
    · rintro ⟨row, hrow, hsource, htarget, htype, _⟩
      exact ⟨row, hrow, by simp [sameLink, hsource, htarget, htype]⟩
    · rintro ⟨row, hrow, hsame⟩
      simp only [sameLink, Bool.and_eq_true, beq_iff_eq] at hsame
      by_cases hproject : row.projectId = other
      · exact hharmless row hrow hsame.1.1 hsame.1.2 hsame.2 hproject
      · exact ⟨row, hrow, hsame.1.1, hsame.1.2, hsame.2, hproject⟩

theorem isolated_createLink_iff (hne : ctx.projectId ≠ other) (id : Option Uuid)
    (body : Except Problem (Uuid × LinkType)) :
    Isolated remote ctx now db other (.createLink id body) ↔
      Harmless ctx db other (.createLink id body) := by
  refine isolates_admitted_iff (admitLink_without hne id body) fun link hadmit => ?_
  obtain ⟨hsource, htarget⟩ := of_admitLink hadmit
  obtain ⟨issue, hfound, hleft⟩ := find?_of_inProject hne htarget
  have hwrite : ∀ tables : Db, tables.issues.find? link.2.1 = some issue →
      writeLink ctx now tables link = if tables.issueLinks.rows.any (sameLink link) then
        (.problem (codedConflict "link already exists"), tables)
      else (.link ⟨tables.nextId, issue.id, issue.reference, issue.subject, link.2.2, .outgoing,
          now⟩, tables.insertLink ⟨tables.nextId, ctx.projectId, link.1, link.2.1, link.2.2, now⟩
            rfl) := by
    intro tables htables
    simp only [writeLink, htables]
    rfl
  rw [isolates_iff, hwrite db hfound, hwrite _ hleft, ← any_without_iff]
  cases htaken : db.issueLinks.rows.any (sameLink link) with
  | true =>
    cases htaken' : (db.without other).issueLinks.rows.any (sameLink link) with
    | true => simp
    | false => simp
  | false =>
    cases htaken' : (db.without other).issueLinks.rows.any (sameLink link) with
    | true => simp
    | false =>
      refine iff_of_true ⟨rfl, ?_, fun r hleads hr => ?_⟩ rfl
      · have hrows : (db.issueLinks.rows ++ [(⟨db.nextId, ctx.projectId, link.1, link.2.1,
            link.2.2, now⟩ : IssueLink)]).filter (·.projectId == other) =
              db.issueLinks.rows.filter (·.projectId == other) := by
          simp [hne]
        exact congrArg (fun rows => { db.holdings other with issueLinks := rows }) hrows
      · cases r with
        | link source target =>
          obtain ⟨row, hrow, hmatch⟩ := List.any_eq_true.mp hr
          rcases List.mem_append.mp hrow with hold | hnew
          · exact List.any_eq_true.mpr ⟨row, hold, hmatch⟩
          · rw [List.mem_singleton.mp hnew] at hmatch
            simp only [Bool.and_eq_true, beq_iff_eq] at hmatch
            simp [Db.leadsTo, ← hmatch.1.2, ← hmatch.2, issueOf_of_inProject hne hsource,
              issueOf_of_inProject hne htarget] at hleads
        | version issueId versionId | release componentId releaseId
        | repository componentId repositoryId | source versionId repositoryId
        | opened userId boardId => exact hr

/-! ## Versions -/

variable {releaseId : Uuid} {row : ReleaseVersion}

theorem mem_without_versions (hown : db.releaseOf other releaseId = false)
    (hrelease : row.releaseId = releaseId) :
    row ∈ (db.without other).releaseVersions.rows ↔ row ∈ db.releaseVersions.rows := by
  refine mem_deleteWhere.trans (and_iff_left ?_)
  rw [hrelease]
  exact hown

theorem versionTaken_without (hown : db.releaseOf other releaseId = false) (version : String)
    (id : Option Uuid) :
    (db.without other).versionTaken releaseId version id =
      db.versionTaken releaseId version id := by
  rw [Bool.eq_iff_iff, Db.versionTaken, Db.versionTaken, List.any_eq_true, List.any_eq_true]
  refine exists_congr fun row => and_congr_left fun hmatch => ?_
  simp only [Bool.and_eq_true, beq_iff_eq] at hmatch
  exact mem_without_versions hown hmatch.1.1

theorem nextOrder_without (hown : db.releaseOf other releaseId = false) :
    (db.without other).nextOrder releaseId = db.nextOrder releaseId := by
  have hrows : (db.without other).releaseVersions.rows.filter (·.releaseId == releaseId) =
      db.releaseVersions.rows.filter (·.releaseId == releaseId) := by
    apply filter_deleteWhere_eq_iff.mpr
    intro row _ hrow
    rw [beq_iff_eq.mp hrow]
    exact hown
  rw [Db.nextOrder, Db.nextOrder, hrows]

variable {repositoryId : Option Uuid}

/-- A repository is found without the other project unless it belongs to it. -/
theorem hasRepository_without_iff :
    (db.without other).hasRepository repositoryId = db.hasRepository repositoryId ↔
      ∀ id, repositoryId = some id → db.repositoryOf other id = false := by
  cases repositoryId with
  | none => simp [Db.hasRepository]
  | some id =>
    have hfound : (db.without other).hasRepository (some id) =
        ((db.repositories.find? id).filter fun row => !(row.projectId == other)).isSome := by
      rw [← Table.find?_erase]
      rfl
    rw [hfound, Db.hasRepository, Option.all_some, isSome_filter]
    unfold Db.repositoryOf
    cases hrow : db.repositories.find? id <;> simp [hrow]

theorem of_admitVersion {releaseId : Option Uuid} {body : Except Problem VersionWrite}
    {new : Uuid × VersionWrite} (h : admitVersion ctx db releaseId body = .ok new) :
    db.releaseOf ctx.projectId new.1 = true := by
  obtain ⟨_, h⟩ := ensure_bind h
  obtain ⟨id, _, h⟩ := parsed_bind h
  obtain ⟨w, _, h⟩ := body_bind h
  obtain ⟨hrelease, h⟩ := ensure_bind h
  cases h
  rw [← release?_isSome]
  exact hrelease

/-- A new version refers to its repository; nothing else is referred to anew. -/
theorem refers_insertVersion {hid : row.id = db.nextId}
    (h : (db.insertVersion row hid).refers projectId r = true) :
    db.refers projectId r = true ∨ ∃ versionId repositoryId, r = .source versionId repositoryId ∧
      row.repositoryId = some repositoryId := by
  cases r with
  | source versionId repositoryId =>
    have hfind : (db.insertVersion row hid).releaseVersions.find? versionId =
        if versionId = row.id then some row else db.releaseVersions.find? versionId :=
      Table.find?_insert (db.fresh_version hid) versionId
    rw [Db.refers, Db.versionOf, hfind] at h
    by_cases hnew : versionId = row.id
    · rw [if_pos hnew] at h
      exact .inr ⟨versionId, repositoryId, rfl, beq_iff_eq.mp (Bool.and_eq_true_iff.mp h).2⟩
    · rw [if_neg hnew] at h
      exact .inl h
  | link source target | version issueId versionId | release componentId releaseId
  | repository componentId repositoryId | opened userId boardId => exact .inl h

theorem isolated_createVersion_iff (hne : ctx.projectId ≠ other) (releaseId : Option Uuid)
    (body : Except Problem VersionWrite) :
    Isolated remote ctx now db other (.createVersion releaseId body) ↔
      Harmless ctx db other (.createVersion releaseId body) := by
  refine isolates_admitted_iff (admitVersion_without hne releaseId body) fun new hadmit => ?_
  obtain ⟨release, w⟩ := new
  have hown := releaseOf_apart hne (of_admitVersion hadmit)
  rw [isolates_iff]
  unfold writeVersion
  simp only [versionTaken_without hown, nextOrder_without hown, ← hasRepository_without_iff]
  cases htaken : db.versionTaken release w.version none with
  | true => simp
  | false =>
    cases hfound : db.hasRepository w.repositoryId with
    | false =>
      cases hleft : (db.without other).hasRepository w.repositoryId with
      | true => simp
      | false => simp
    | true =>
      cases hleft : (db.without other).hasRepository w.repositoryId with
      | false => simp
      | true =>
        refine iff_of_true ⟨rfl, ?_, fun r hleads hr => ?_⟩ fun _ => rfl
        · have hrows : (db.releaseVersions.rows ++ [(⟨w, db.nextId, release,
              db.nextOrder release, now⟩ : ReleaseVersion)]).filter
                (fun row => db.releaseOf other row.releaseId) =
                  db.releaseVersions.rows.filter fun row =>
                    db.releaseOf other row.releaseId := by
            rw [List.filter_append, List.filter_singleton]
            simp [hown]
          exact congrArg (fun rows => { db.holdings other with releaseVersions := rows })
            hrows
        · have hnew : (db.insertVersion ⟨w, db.nextId, release, db.nextOrder release, now⟩
              rfl).refers ctx.projectId r = true := hr
          rcases refers_insertVersion hnew with
            hold | ⟨versionId, repositoryId, rfl, hrepository⟩
          · exact hold
          · have hsame := hasRepository_without_iff.mp (hleft.trans hfound.symm)
            have hforeign : db.repositoryOf other repositoryId = true := hleads
            rw [hsame repositoryId hrepository] at hforeign
            contradiction

theorem of_admitVersionPatch {versionId : Option Uuid} {body : Except Problem UpdateVersionRequest}
    {patch : ReleaseVersion × VersionWrite}
    (h : admitVersionPatch ctx db versionId body = .ok patch) :
    db.releaseVersions.find? patch.1.id = some patch.1 ∧
      db.releaseOf ctx.projectId patch.1.releaseId = true := by
  obtain ⟨_, h⟩ := ensure_bind h
  obtain ⟨id, _, h⟩ := parsed_bind h
  obtain ⟨req, _, h⟩ := body_bind h
  cases hversion : db.version? ctx.projectId id with
  | none => simp [hversion] at h
  | some old =>
    rw [hversion] at h
    cases h
    rw [Db.version?, Option.filter_eq_some_iff] at hversion
    refine ⟨?_, ?_⟩
    · rw [Table.key_of_find? hversion.1]
      exact hversion.1
    · rw [← release?_isSome]
      exact hversion.2

/-- The row that is rewritten refers to the repository written; nothing else changes. -/
theorem refers_modifyVersions {old : ReleaseVersion} {w : VersionWrite}
    (h : (db.modifyVersions (·.id == old.id) (fun row => { row with toVersionWrite := w })
      fun _ => rfl).refers projectId r = true) :
    db.refers projectId r = true ∨ ∃ repositoryId, r = .source old.id repositoryId ∧
      w.repositoryId = some repositoryId := by
  cases r with
  | source versionId repositoryId =>
    have hfind : (db.modifyVersions (·.id == old.id) (fun row => { row with toVersionWrite := w })
        fun _ => rfl).releaseVersions.find? versionId =
          (db.releaseVersions.find? versionId).map fun row =>
            if row.id == old.id then { row with toVersionWrite := w } else row :=
      Table.find?_modify db.releaseVersions (·.id == old.id)
        (fun row => { row with toVersionWrite := w }) (fun _ => rfl) versionId
    rw [Db.refers, Db.versionOf, hfind] at h
    cases hfound : db.releaseVersions.find? versionId with
    | none => simp [hfound] at h
    | some row =>
      rw [hfound, Option.map_some] at h
      cases hkey : row.id == old.id with
      | true =>
        rw [hkey, if_pos rfl] at h
        have hid : versionId = old.id :=
          (Table.key_of_find? hfound).symm.trans (beq_iff_eq.mp hkey)
        exact .inr ⟨repositoryId, by rw [hid], beq_iff_eq.mp (Bool.and_eq_true_iff.mp h).2⟩
      | false =>
        rw [hkey, if_neg Bool.false_ne_true] at h
        left
        rw [Db.refers, Db.versionOf, hfound]
        exact h
  | link source target | version issueId versionId | release componentId releaseId
  | repository componentId repositoryId | opened userId boardId => exact .inl h

theorem isolated_updateVersion_iff (hne : ctx.projectId ≠ other) (versionId : Option Uuid)
    (body : Except Problem UpdateVersionRequest) :
    Isolated remote ctx now db other (.updateVersion versionId body) ↔
      Harmless ctx db other (.updateVersion versionId body) := by
  refine isolates_admitted_iff (admitVersionPatch_without hne versionId body) fun patch hadmit => ?_
  obtain ⟨old, w⟩ := patch
  obtain ⟨hold, hrelease⟩ := of_admitVersionPatch hadmit
  have hown := releaseOf_apart hne hrelease
  rw [isolates_iff]
  unfold rewriteVersion
  simp only [versionTaken_without hown, ← hasRepository_without_iff]
  cases htaken : db.versionTaken old.releaseId w.version (some old.id) with
  | true => simp
  | false =>
    have hwritten : (updateWhere (fun row : ReleaseVersion => row.id == old.id)
        (fun row => { row with toVersionWrite := w }) db.releaseVersions.rows).filter
          (fun row => db.releaseOf other row.releaseId) =
            db.releaseVersions.rows.filter fun row => db.releaseOf other row.releaseId := by
      apply filter_updateWhere_of_not
      intro row hrow hkey
      have hfound := Table.find?_key hrow
      rw [beq_iff_eq.mp hkey, hold] at hfound
      rw [← Option.some.inj hfound]
      exact ⟨hown, hown⟩
    have hholdings := congrArg (fun rows => { db.holdings other with releaseVersions := rows })
      hwritten
    by_cases hkept : w.repositoryId = old.repositoryId
    · rw [if_neg Bool.false_ne_true, if_neg Bool.false_ne_true, beq_iff_eq.mpr hkept,
        Bool.true_or, Bool.true_or]
      refine iff_of_true ⟨rfl, hholdings, fun r hleads hr => ?_⟩ fun _ h => absurd hkept h
      rcases refers_modifyVersions hr with hbefore | ⟨repositoryId, rfl, hsame⟩
      · exact hbefore
      · -- the version already names the repository
        rw [Db.refers, Db.versionOf, hold, Option.any_some, Option.any_some, hrelease,
          ← hkept, hsame]
        simp
    · rw [if_neg Bool.false_ne_true, if_neg Bool.false_ne_true, beq_false_of_ne hkept,
        Bool.false_or, Bool.false_or]
      cases hfound : db.hasRepository w.repositoryId with
      | false =>
        cases hleft : (db.without other).hasRepository w.repositoryId with
        | true => simp [hkept]
        | false => simp
      | true =>
        cases hleft : (db.without other).hasRepository w.repositoryId with
        | false => simp [hkept]
        | true =>
          refine iff_of_true ⟨rfl, hholdings, fun r hleads hr => ?_⟩ fun _ _ => rfl
          rcases refers_modifyVersions hr with hbefore | ⟨repositoryId, rfl, hw⟩
          · exact hbefore
          · have hforeign : db.repositoryOf other repositoryId = true := hleads
            rw [hasRepository_without_iff.mp (hleft.trans hfound.symm) repositoryId hw]
              at hforeign
            contradiction

theorem version?_owner (h : db.version? projectId id = some row) :
    db.releaseVersions.find? id = some row ∧ db.releaseOf projectId row.releaseId = true := by
  rw [Db.version?, Option.filter_eq_some_iff, release?_isSome] at h
  exact h

/-- The version that an issue's column mirrors is one of its component versions. -/
theorem mem_of_mirrorOf {versions : Table ReleaseVersion.id} {rows : List IssueVersion}
    {issueId : Uuid} (h : Db.mirrorOf versions rows issueId = some id) :
    ∃ row ∈ rows, row.issueId = issueId ∧ row.versionId = id ∧
      ∃ version ∈ versions.rows, version.id = id := by
  obtain ⟨version, hhead, rfl⟩ := Option.map_eq_some_iff.mp h
  have hmem := List.mem_mergeSort.mp (List.mem_of_head? hhead)
  obtain ⟨row, hrow, hfound⟩ := List.mem_filterMap.mp hmem
  obtain ⟨hrow, hissue⟩ := List.mem_filter.mp hrow
  exact ⟨row, hrow, beq_iff_eq.mp hissue, (Table.key_of_find? hfound).symm, version,
    Table.mem_of_find? hfound, rfl⟩

/-- The issues whose column or component versions name the deleted version. -/
def names (db : Db) (id : Uuid) (issue : Issue) : Bool :=
  issue.releaseVersionId == some id ||
    (db.issueVersions.rows.filter (·.versionId == id)).any (·.issueId == issue.id)

/-- What the column of such an issue holds afterwards. -/
def unname (db : Db) (id : Uuid) (issue : Issue) : Issue :=
  { issue with
    releaseVersionId :=
      if (db.issueVersions.rows.filter (·.versionId == id)).any (·.issueId == issue.id) then
        Db.mirrorOf (db.releaseVersions.erase (·.id == id))
          (db.issueVersions.erase (·.versionId == id)).rows issue.id
      else none }

/-- No issue is left with the deleted version in its column. -/
theorem unname_ne (id : Uuid) (issue : Issue) :
    (unname db id issue).releaseVersionId ≠ some id := by
  intro h
  unfold unname at h
  simp only at h
  split at h
  · obtain ⟨_, _, _, _, version, hversion, hid⟩ := mem_of_mirrorOf h
    obtain ⟨_, hkept⟩ := mem_deleteWhere.mp hversion
    exact absurd hid (by simpa using hkept)
  · contradiction

theorem find?_issues_eraseVersion (id issueId : Uuid) :
    (db.eraseVersion id).issues.find? issueId = (db.issues.find? issueId).map fun issue =>
      if names db id issue then unname db id issue else issue :=
  Table.find?_modify db.issues (names db id) (unname db id) (fun _ => rfl) issueId

theorem issueOf_eraseVersion (id issueId : Uuid) :
    (db.eraseVersion id).issueOf projectId issueId = db.issueOf projectId issueId := by
  rw [Db.issueOf, find?_issues_eraseVersion, Db.issueOf]
  cases db.issues.find? issueId with
  | none => rfl
  | some issue =>
    rw [Option.map_some, Option.any_some, Option.any_some]
    split <;> rfl

/-- Issues come to show only versions they named before. -/
theorem refers_eraseVersion (h : (db.eraseVersion id).refers projectId r = true) :
    db.refers projectId r = true := by
  cases r with
  | version issueId versionId =>
    rw [Db.refers, issueOf_eraseVersion, find?_issues_eraseVersion] at h
    obtain ⟨hown, hnames⟩ := Bool.and_eq_true_iff.mp h
    refine Bool.and_eq_true_iff.mpr ⟨hown, Bool.or_eq_true_iff.mpr ?_⟩
    rcases Bool.or_eq_true_iff.mp hnames with hcolumn | hrows
    · cases hfound : db.issues.find? issueId with
      | none => simp [hfound] at hcolumn
      | some issue =>
        rw [hfound, Option.map_some, Option.any_some] at hcolumn
        split at hcolumn
        · right
          have hmirror := beq_iff_eq.mp hcolumn
          unfold unname at hmirror
          simp only at hmirror
          split at hmirror
          · obtain ⟨row, hrow, hissue, hversion, _⟩ := mem_of_mirrorOf hmirror
            rw [Table.key_of_find? hfound] at hissue
            exact List.any_eq_true.mpr ⟨row, (mem_deleteWhere.mp hrow).1,
              by simp [hissue, hversion]⟩
          · contradiction
        · left
          exact hcolumn
    · right
      obtain ⟨row, hrow, hmatch⟩ := List.any_eq_true.mp hrows
      exact List.any_eq_true.mpr ⟨row, (mem_deleteWhere.mp hrow).1, hmatch⟩
  | source versionId repositoryId =>
    have hfind : (db.eraseVersion id).releaseVersions.find? versionId =
        (db.releaseVersions.find? versionId).filter fun row => !(row.id == id) :=
      Table.find?_erase db.releaseVersions _ versionId
    rw [Db.refers, Db.versionOf, hfind] at h
    rw [Db.refers, Db.versionOf]
    cases hfound : db.releaseVersions.find? versionId with
    | none => simp [hfound] at h
    | some row =>
      rw [hfound] at h
      cases hgone : row.id == id with
      | true => simp [Option.filter, hgone] at h
      | false =>
        rw [Option.filter_some, hgone] at h
        exact h
  | link source target => exact h
  | release componentId releaseId => exact h
  | repository componentId repositoryId => exact h
  | opened userId boardId => exact h

/-- Deleting an own version leaves the rows of another project if and only if
none of its issues names the version. -/
theorem holdings_eraseVersion_iff (hne : projectId ≠ other) {version : ReleaseVersion}
    (hversion : db.version? projectId id = some version) :
    (db.eraseVersion id).holdings other = db.holdings other ↔
      (∀ issue ∈ db.issues.rows, issue.projectId = other → issue.releaseVersionId ≠ some id) ∧
        ∀ row ∈ db.issueVersions.rows, db.issueOf other row.issueId = true →
          row.versionId ≠ id := by
  obtain ⟨hfound, hrelease⟩ := version?_owner hversion
  have hversions : (deleteWhere (fun row : ReleaseVersion => row.id == id)
      db.releaseVersions.rows).filter (fun row => db.releaseOf other row.releaseId) =
        db.releaseVersions.rows.filter fun row => db.releaseOf other row.releaseId := by
    apply filter_deleteWhere_eq_iff.mpr
    intro row hrow hforeign
    apply beq_false_of_ne
    intro hid
    have hsame := Table.find?_key hrow
    rw [hid, hfound] at hsame
    rw [← Option.some.inj hsame, releaseOf_apart hne hrelease] at hforeign
    contradiction
  have hrows : (deleteWhere (fun row : IssueVersion => row.versionId == id)
      db.issueVersions.rows).filter (fun row => db.issueOf other row.issueId) =
        db.issueVersions.rows.filter (fun row => db.issueOf other row.issueId) ↔
          ∀ row ∈ db.issueVersions.rows, db.issueOf other row.issueId = true →
            row.versionId ≠ id := by
    rw [filter_deleteWhere_eq_iff]
    simp
  have hholdings : (db.eraseVersion id).holdings other =
      { db.holdings other with
        issues := (updateWhere (names db id) (unname db id) db.issues.rows).filter
          (·.projectId == other)
        releaseVersions := (deleteWhere (fun row : ReleaseVersion => row.id == id)
          db.releaseVersions.rows).filter fun row => db.releaseOf other row.releaseId
        issueWatchers := db.issueWatchers.rows.filter fun row =>
          (db.eraseVersion id).issueOf other row.issueId
        issueVersions := (deleteWhere (fun row : IssueVersion => row.versionId == id)
          db.issueVersions.rows).filter fun row =>
            (db.eraseVersion id).issueOf other row.issueId } := rfl
  simp only [issueOf_eraseVersion] at hholdings
  rw [hholdings, hversions]
  constructor
  · intro hsame
    refine ⟨fun issue hissue hproject hcolumn => ?_,
      hrows.mp (congrArg Holdings.issueVersions hsame)⟩
    have hissues : (updateWhere (names db id) (unname db id) db.issues.rows).filter
        (·.projectId == other) = db.issues.rows.filter (·.projectId == other) :=
      congrArg Holdings.issues hsame
    have hmem : issue ∈ db.issues.rows.filter (·.projectId == other) :=
      List.mem_filter.mpr ⟨hissue, beq_iff_eq.mpr hproject⟩
    rw [← hissues] at hmem
    obtain ⟨old, _, hold⟩ := mem_updateWhere.mp (List.mem_of_mem_filter hmem)
    split at hold
    · rw [← hold] at hcolumn
      exact unname_ne id old hcolumn
    · rename_i hnames
      rw [hold] at hnames
      exact hnames (by simp [names, hcolumn])
  · rintro ⟨hcolumns, hnamed⟩
    have hissues : (updateWhere (names db id) (unname db id) db.issues.rows).filter
        (·.projectId == other) = db.issues.rows.filter (·.projectId == other) := by
      apply filter_updateWhere_of_not
      intro issue hissue hnames
      have hforeign : (issue.projectId == other) = false := by
        apply beq_false_of_ne
        intro hproject
        rcases Bool.or_eq_true_iff.mp hnames with hcolumn | hgone
        · exact hcolumns issue hissue hproject (beq_iff_eq.mp hcolumn)
        · obtain ⟨row, hrow, hkey⟩ := List.any_eq_true.mp hgone
          obtain ⟨hrow, hid⟩ := List.mem_filter.mp hrow
          refine hnamed row hrow ?_ (beq_iff_eq.mp hid)
          rw [beq_iff_eq.mp hkey, Db.issueOf, Table.find?_key hissue, Option.any_some]
          exact beq_iff_eq.mpr hproject
      exact ⟨hforeign, hforeign⟩
    rw [hissues, hrows.mpr hnamed]
    rfl

theorem isolated_deleteVersion_iff (hne : ctx.projectId ≠ other) (versionId : Option Uuid) :
    Isolated remote ctx now db other (.deleteVersion versionId) ↔
      Harmless ctx db other (.deleteVersion versionId) := by
  refine isolates_admitted_iff rfl fun id _ => ?_
  rw [isolates_iff]
  unfold deleteVersion
  rw [version?_without hne]
  cases hversion : db.version? ctx.projectId id with
  | none => simp
  | some version =>
    rw [Option.isSome_some, if_pos rfl, if_pos rfl, holdings_eraseVersion_iff hne hversion]
    constructor
    · intro h _
      exact h.2.1
    · intro h
      exact ⟨rfl, h rfl, fun r _ hr => refers_eraseVersion hr⟩

/-! ## Releases and repositories of a component -/

variable {componentId : Option Uuid}

theorem of_admitReleaseLink {body : Except Problem Uuid} {link : Uuid × Release}
    (h : admitReleaseLink ctx db componentId body = .ok link) :
    db.componentInProject ctx.projectId link.1 = true ∧
      db.releaseOf ctx.projectId link.2.id = true := by
  obtain ⟨_, h⟩ := ensure_bind h
  obtain ⟨id, _, h⟩ := parsed_bind h
  obtain ⟨releaseId, _, h⟩ := body_bind h
  obtain ⟨hcomponent, h⟩ := ensure_bind h
  cases hrelease : db.release? ctx.projectId releaseId with
  | none => simp [hrelease] at h
  | some release =>
    rw [hrelease] at h
    cases h
    refine ⟨hcomponent, ?_⟩
    rw [Db.release?, Option.filter_eq_some_iff] at hrelease
    rw [Db.releaseOf, Table.key_of_find? hrelease.1, hrelease.1]
    exact hrelease.2

/-- Of the rows of the own things, a pair of ids is taken or free without the other project, too. -/
theorem insert?_isSome_without {key : α → Uuid × Uuid} {table : Table key} (own : Uuid → Bool)
    {row : α} (hown : own (key row).1 = false) :
    ((table.erase fun row => own (key row).1).insert? row).isSome =
      (table.insert? row).isSome := by
  have hmem : key row ∈ (table.erase fun row => own (key row).1).rows.map key ↔
      key row ∈ table.rows.map key := by
    rw [List.mem_map, List.mem_map]
    refine exists_congr fun row' => and_congr_left fun hkey => mem_deleteWhere.trans ?_
    rw [hkey]
    exact and_iff_left hown
  unfold Table.insert?
  by_cases htaken : key row ∈ table.rows.map key
  · rw [dif_pos htaken, dif_pos (hmem.mpr htaken)]
  · rw [dif_neg htaken, dif_neg (mt hmem.mp htaken)]
    rfl

theorem isolated_linkComponentRelease (hne : ctx.projectId ≠ other) (componentId : Option Uuid)
    (body : Except Problem Uuid) :
    Isolated remote ctx now db other (.linkComponentRelease componentId body) := by
  refine isolates_of_admitted (admitReleaseLink_without hne componentId body) fun link hadmit => ?_
  obtain ⟨component, release⟩ := link
  obtain ⟨hcomponent, hrelease⟩ := of_admitReleaseLink hadmit
  have hown := componentOf_of_inProject hne hcomponent
  have hsame : ((db.without other).componentReleases.insert? ⟨component, release.id, now⟩).isSome =
      (db.componentReleases.insert? ⟨component, release.id, now⟩).isSome :=
    insert?_isSome_without (db.componentOf other) hown
  rw [isolates_iff]
  unfold writeReleaseLink
  cases htable : db.componentReleases.insert? ⟨component, release.id, now⟩ with
  | none =>
    rw [htable, Option.isSome_none, Option.isSome_eq_false_iff,
      Option.isNone_iff_eq_none] at hsame
    simp [htable, hsame]
  | some table =>
    rw [htable, Option.isSome_some] at hsame
    obtain ⟨left, hleft⟩ := Option.isSome_iff_exists.mp hsame
    simp only [htable, hleft]
    refine ⟨trivial, ?_, fun r hleads hr => ?_⟩
    · have hrows := filter_insert?
        (p := fun row : ComponentRelease => db.componentOf other row.componentId) htable hown
      exact congrArg (fun rows => { db.holdings other with componentReleases := rows }) hrows
    · cases r with
      | release componentId releaseId =>
        simp only [Db.refers, Table.find?_insert? htable] at hr
        by_cases hkey : (componentId, releaseId) =
            (⟨component, release.id, now⟩ : ComponentRelease).key
        · have hforeign : db.releaseOf other releaseId = true := hleads
          rw [(Prod.mk.inj hkey).2, releaseOf_apart hne hrelease] at hforeign
          contradiction
        · rw [if_neg hkey] at hr
          exact hr
      | link source target | version issueId versionId | repository componentId repositoryId
      | source versionId repositoryId | opened userId boardId => exact hr

theorem repository?_owner {row : Repository} (h : db.repository? projectId id = some row) :
    db.repositoryOf projectId row.id = true := by
  rw [Db.repository?, Option.filter_eq_some_iff] at h
  rw [Db.repositoryOf, Table.key_of_find? h.1, h.1]
  exact h.2

theorem of_admitRepositoryLink {body : Except Problem (Uuid × String)}
    {link : Uuid × Repository × String}
    (h : admitRepositoryLink ctx db remote componentId body = .ok link) :
    db.componentInProject ctx.projectId link.1 = true ∧
      db.repositoryOf ctx.projectId link.2.1.id = true := by
  obtain ⟨_, h⟩ := ensure_bind h
  obtain ⟨id, _, h⟩ := parsed_bind h
  obtain ⟨⟨repositoryId, branch⟩, _, h⟩ := body_bind h
  obtain ⟨hcomponent, h⟩ := ensure_bind h
  cases hrepository : db.repository? ctx.projectId repositoryId with
  | none => simp [hrepository] at h
  | some repository =>
    rw [hrepository] at h
    obtain ⟨_, h⟩ := ensure_bind h
    cases h
    exact ⟨hcomponent, repository?_owner hrepository⟩

theorem of_admitBranch {body : Except Problem String} {link : Uuid × Repository × String}
    (h : admitBranch ctx db remote componentId repositoryId body = .ok link) :
    db.componentInProject ctx.projectId link.1 = true := by
  obtain ⟨_, h⟩ := ensure_bind h
  obtain ⟨id, _, h⟩ := parsed_bind h
  obtain ⟨repositoryId, _, h⟩ := parsed_bind h
  obtain ⟨branch, _, h⟩ := body_bind h
  obtain ⟨hcomponent, h⟩ := ensure_bind h
  cases hrepository : db.repository? ctx.projectId repositoryId with
  | none => simp [hrepository] at h
  | some repository =>
    rw [hrepository] at h
    obtain ⟨_, h⟩ := ensure_bind h
    cases h
    exact hcomponent

theorem repositoryOf_apart (hne : projectId ≠ other) (h : db.repositoryOf projectId id = true) :
    db.repositoryOf other id = false := by
  unfold Db.repositoryOf at h ⊢
  cases hfound : db.repositories.find? id with
  | none => rfl
  | some row =>
    rw [hfound] at h
    exact apart_of_ne hne h

theorem isolated_linkComponentRepository (hne : ctx.projectId ≠ other)
    (componentId : Option Uuid) (body : Except Problem (Uuid × String)) :
    Isolated remote ctx now db other (.linkComponentRepository componentId body) := by
  refine isolates_of_admitted (admitRepositoryLink_without hne componentId body)
    fun link hadmit => ?_
  obtain ⟨component, repository, branch⟩ := link
  obtain ⟨hcomponent, hrepository⟩ := of_admitRepositoryLink hadmit
  have hown := componentOf_of_inProject hne hcomponent
  have hsame : ((db.without other).componentRepositories.insert?
        ⟨component, repository.id, branch, now⟩).isSome =
      (db.componentRepositories.insert? ⟨component, repository.id, branch, now⟩).isSome :=
    insert?_isSome_without (db.componentOf other) hown
  rw [isolates_iff]
  unfold writeRepositoryLink
  cases htable : db.componentRepositories.insert? ⟨component, repository.id, branch, now⟩ with
  | none =>
    rw [htable, Option.isSome_none, Option.isSome_eq_false_iff,
      Option.isNone_iff_eq_none] at hsame
    simp [htable, hsame]
  | some table =>
    rw [htable, Option.isSome_some] at hsame
    obtain ⟨left, hleft⟩ := Option.isSome_iff_exists.mp hsame
    simp only [htable, hleft]
    refine ⟨trivial, ?_, fun r hleads hr => ?_⟩
    · have hrows := filter_insert?
        (p := fun row : ComponentRepository => db.componentOf other row.componentId) htable hown
      exact congrArg (fun rows => { db.holdings other with componentRepositories := rows }) hrows
    · cases r with
      | repository componentId repositoryId =>
        simp only [Db.refers, Table.find?_insert? htable] at hr
        by_cases hkey : (componentId, repositoryId) =
            (⟨component, repository.id, branch, now⟩ : ComponentRepository).key
        · have hforeign : db.repositoryOf other repositoryId = true := hleads
          rw [(Prod.mk.inj hkey).2, repositoryOf_apart hne hrepository] at hforeign
          contradiction
        · rw [if_neg hkey] at hr
          exact hr
      | link source target | version issueId versionId | release componentId releaseId
      | source versionId repositoryId | opened userId boardId => exact hr

theorem isolated_updateComponentRepository (hne : ctx.projectId ≠ other)
    (componentId repositoryId : Option Uuid) (body : Except Problem String) :
    Isolated remote ctx now db other
      (.updateComponentRepository componentId repositoryId body) := by
  refine isolates_of_admitted (admitBranch_without hne componentId repositoryId body)
    fun link hadmit => ?_
  obtain ⟨component, repository, branch⟩ := link
  have hown := componentOf_of_inProject hne (of_admitBranch hadmit)
  have hsame : (db.without other).componentRepositories.find? (component, repository.id) =
      db.componentRepositories.find? (component, repository.id) := by
    rw [Db.without, Table.find?_erase]
    cases hfound : db.componentRepositories.find? (component, repository.id) with
    | none => rfl
    | some row =>
      have hrow : row.componentId = component := congrArg Prod.fst (Table.key_of_find? hfound)
      simp only at hown
      simp [Option.filter, hrow, hown]
  rw [isolates_iff]
  unfold writeBranch
  simp only [hsame]
  cases hfound : db.componentRepositories.find? (component, repository.id) with
  | none => simp
  | some row =>
    refine ⟨rfl, ?_, fun r _ hr => ?_⟩
    · have hrows : (updateWhere (fun row : ComponentRepository =>
          row.key == (component, repository.id)) (fun row => { row with branch := branch })
            db.componentRepositories.rows).filter (fun row =>
              db.componentOf other row.componentId) =
          db.componentRepositories.rows.filter fun row =>
            db.componentOf other row.componentId := by
        apply filter_updateWhere_of_not
        intro row _ hkey
        have hcomponent : row.componentId = component :=
          congrArg Prod.fst (beq_iff_eq.mp hkey)
        rw [hcomponent]
        exact ⟨hown, hown⟩
      exact congrArg (fun rows => { db.holdings other with componentRepositories := rows }) hrows
    · cases r with
      | repository componentId repositoryId =>
        obtain ⟨hcomponent, hlink⟩ := Bool.and_eq_true_iff.mp hr
        refine Bool.and_eq_true_iff.mpr ⟨hcomponent, ?_⟩
        have hfind := Table.find?_modify db.componentRepositories
          (fun row => row.key == (component, repository.id))
          (fun row => { row with branch := branch }) (fun _ => rfl) (componentId, repositoryId)
        rw [← Option.isSome_map, ← hfind]
        exact hlink
      | link source target | version issueId versionId | release componentId releaseId
      | source versionId repositoryId | opened userId boardId => exact hr

/-! ## Every request -/

/-- A request under one project is isolated from another one if and only if it
is refused by its checks or its ids lead to nothing of that project. -/
theorem resources_isolated_iff (remote : Remote) (ctx : Context) (now : Int) (db : Db)
    (other : Uuid) (hother : ctx.projectId ≠ other) (request : Request) :
    Isolated remote ctx now db other request ↔ Harmless ctx db other request := by
  cases request with
  | listLinks id => exact isolated_listLinks_iff hother id
  | createLink id body => exact isolated_createLink_iff hother id body
  | deleteLink linkId => exact iff_of_true (isolated_deleteLink hother linkId) trivial
  | listWatchers id => exact iff_of_true (isolated_listWatchers hother id) trivial
  | addWatcher id userId => exact iff_of_true (isolated_addWatcher hother id userId) trivial
  | removeWatcher id userId => exact isolated_removeWatcher_iff id userId
  | listVersions releaseId => exact iff_of_true (isolated_listVersions hother releaseId) trivial
  | createVersion releaseId body => exact isolated_createVersion_iff hother releaseId body
  | updateVersion versionId body => exact isolated_updateVersion_iff hother versionId body
  | deleteVersion versionId => exact isolated_deleteVersion_iff hother versionId
  | versionsForComponents body => exact isolated_versionsForComponents_iff body
  | listAllReleaseVersions => exact iff_of_true (isolated_listAllReleaseVersions hother) trivial
  | listComponentReleases componentId => exact isolated_listComponentReleases_iff hother componentId
  | linkComponentRelease componentId body =>
    exact iff_of_true (isolated_linkComponentRelease hother componentId body) trivial
  | unlinkComponentRelease componentId releaseId =>
    exact isolated_unlinkComponentRelease_iff componentId releaseId
  | listComponentRepositories componentId =>
    exact isolated_listComponentRepositories_iff hother componentId
  | linkComponentRepository componentId body =>
    exact iff_of_true (isolated_linkComponentRepository hother componentId body) trivial
  | updateComponentRepository componentId repositoryId body =>
    exact iff_of_true (isolated_updateComponentRepository hother componentId repositoryId body)
      trivial
  | unlinkComponentRepository componentId repositoryId =>
    exact isolated_unlinkComponentRepository_iff componentId repositoryId
  | deleteTaxonomyItem kind itemId => exact isolated_deleteTaxonomyItem_iff hother kind itemId
  | getLastOpened => exact iff_of_true (isolated_getLastOpened hother) trivial
  | setLastOpened boardId => exact isolated_setLastOpened_iff hother boardId

/-! ## A watcher next door -/

namespace Neighbours

def issue (id projectId : Uuid) : Issue :=
  ⟨id, projectId, 1, "subject", none, none, none, none, none, none⟩

/-- Projects 1 and 2 have one issue each, watched by user 7. -/
def tables : Db where
  users := [5, 7]
  issues := ⟨[issue 10 1, issue 20 2], by decide⟩
  epics := .empty
  issueWatchers := ⟨[⟨10, 7⟩, ⟨20, 7⟩], by decide⟩
  issueLinks := .empty
  components := .empty
  releases := .empty
  releaseVersions := .empty
  componentReleases := .empty
  repositories := .empty
  sshKeys := .empty
  componentRepositories := .empty
  issueVersions := .empty
  taxonomyItems := .empty
  boards := .empty
  lastOpened := .empty
  nextId := 30
  links_lt := fun _ h => absurd h List.not_mem_nil
  versions_lt := fun _ h => absurd h List.not_mem_nil

/-- A member of project 1 who may modify issues there. -/
def member : Context := ⟨1, 5, true⟩

def offline : Remote := fun _ _ => none

end Neighbours

open Neighbours in
theorem resources_isolated_own_watcher :
    Isolated offline member 0 tables 2 (.removeWatcher (some 10) (some 7)) := by
  refine (resources_isolated_iff offline member 0 tables 2 (by decide) _).mpr ?_
  intro pair hadmit _
  cases hadmit
  decide

open Neighbours in
/-- The member of project 1 takes a watcher off an issue of project 2. -/
theorem neighbour_unwatched :
    ((serve member 0 offline tables (.removeWatcher (some 20) (some 7))).2.holdings 2 ≠
        tables.holdings 2) ∧
      ¬ Isolated offline member 0 tables 2 (.removeWatcher (some 20) (some 7)) := by
  have hchanged : (serve member 0 offline tables (.removeWatcher (some 20) (some 7))).2.holdings 2 ≠
      tables.holdings 2 := by decide
  exact ⟨hchanged, fun hisolated => hchanged hisolated.holdings⟩

end IntelliPilot.Projects.Resources
