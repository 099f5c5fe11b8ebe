import IntelliPilot.Projects.Activity

/-! # Isolation of the activity of a project

A request under one project is isolated from another one where it is answered
as if the other project had no comments, history or attachments, changes none
of them and attaches nothing to the other project's items. The handlers tie no
id of the path to the project, so this holds exactly where the ids happen to
lead nowhere into the other project, or where the request is refused before it
comes to the tables.
-/

namespace IntelliPilot.Projects.Activity

open Http Rows

namespace Db

variable (db : Db) (projectId : Uuid)

/-- The tables without the activity of a project. -/
def without : Db :=
  { db with
    comments := db.comments.erase fun row => row.projectId == projectId
    history := deleteWhere (fun row => row.projectId == projectId) db.history
    attachments := db.attachments.erase fun row => row.projectId == projectId
    comments_lt := fun row hrow => db.comments_lt row (mem_deleteWhere.mp hrow).1
    attachments_lt := fun row hrow => db.attachments_lt row (mem_deleteWhere.mp hrow).1 }

def commentsOf : List Comment := db.comments.rows.filter fun row => row.projectId == projectId

def historyOf : List HistoryEntry := db.history.filter fun row => row.projectId == projectId

def attachmentsOf : List Attachment :=
  db.attachments.rows.filter fun row => row.projectId == projectId

/-- The target is an item of the project; comments are items, too. -/
def itemOf (target : Target) : Bool :=
  db.items.any (fun item => item.target == target && item.projectId == projectId) ||
    target.1 == .comment && (db.comments.find? target.2).any (·.projectId == projectId)

end Db

variable (env : Env) (ctx : ProjectContext) (params : Params) (c : Circumstances) (db : Db)
  (other : Uuid)

/-- A request leaves another project alone: what is answered does not depend on
its rows, they stay as they are, and nothing new hangs off its items. -/
structure Isolated (request : Request) : Prop where
  response : (serve env ctx params c db request).1 =
    (serve env ctx params c (db.without other) request).1
  comments : (serve env ctx params c db request).2.commentsOf other = db.commentsOf other
  history : (serve env ctx params c db request).2.historyOf other = db.historyOf other
  attachments : (serve env ctx params c db request).2.attachmentsOf other =
    db.attachmentsOf other
  noComment : ∀ row ∈ (serve env ctx params c db request).2.comments.rows,
    db.itemOf other row.target = true →
      ∃ old ∈ db.comments.rows, old.id = row.id ∧ old.target = row.target
  noAttachment : ∀ row ∈ (serve env ctx params c db request).2.attachments.rows,
    db.itemOf other row.target = true →
      ∃ old ∈ db.attachments.rows, old.id = row.id ∧ old.target = row.target

/-- The request is turned away before it comes to the tables, or the ids of its
path lead to nothing of the other project. -/
def Harmless : Request → Prop
  | .listComments => ∀ target, admitList ctx params.backlogTarget = .ok target →
      c.poolFails = false → c.queryFails = false →
      ∀ row ∈ db.comments.rows, Db.hangsOn target row = true → row.projectId ≠ other
  | .createComment body => ∀ target text, admitComment ctx params body = .ok (target, text) →
      c.poolFails = false → c.writeFails = false → db.itemOf other target = false
  | .updateComment body => ∀ id text, params.commentId = some id → parseComment body = .ok text →
      c.poolFails = false → c.queryFails = false →
      ∀ comment, db.liveComment? id = some comment → comment.projectId ≠ other
  | .deleteComment => ∀ id, params.commentId = some id →
      c.poolFails = false → c.queryFails = false →
      ∀ comment, db.liveComment? id = some comment → comment.projectId ≠ other ∧
        (mayMutateComment ctx c.now comment = true → c.writeFails = false → c.tidyFails = false →
          ∀ row ∈ db.attachments.rows, Db.attachedTo (.comment, id) row = true →
            row.projectId ≠ other)
  | .listHistory => ∀ target, admitList ctx params.backlogTarget = .ok target →
      c.poolFails = false → c.queryFails = false →
      ∀ row ∈ db.history, row.target = target → row.projectId ≠ other
  | .listAttachments => ∀ target, admitList ctx params.attachmentTarget = .ok target →
      c.poolFails = false → c.queryFails = false →
      ∀ row ∈ db.attachments.rows, Db.attachedTo target row = true → row.projectId ≠ other
  | .upload received => ∀ target file contentType,
      admitUpload env ctx params received = .ok (target, file, contentType) →
      c.storageFails = false → c.poolFails = false → c.writeFails = false →
      db.itemOf other target = false

variable {env ctx params c db other}

/-- A request that writes nothing is isolated if its answer is. -/
theorem isolated_iff_of_same {request : Request}
    (hsame : (serve env ctx params c db request).2 = db) :
    Isolated env ctx params c db other request ↔ (serve env ctx params c db request).1 =
      (serve env ctx params c (db.without other) request).1 := by
  constructor
  · exact Isolated.response
  · intro hresponse
    refine ⟨hresponse, ?_, ?_, ?_, ?_, ?_⟩
    · rw [hsame]
    · rw [hsame]
    · rw [hsame]
    · rw [hsame]
      exact fun row hrow _ => ⟨row, hrow, rfl, rfl⟩
    · rw [hsame]
      exact fun row hrow _ => ⟨row, hrow, rfl, rfl⟩

/-! ## Listings -/

/-- Leaving out rows shows in a listing if and only if one of them was in it. -/
theorem listing_eq_iff {α β : Type} {created : α → Int} {tie : α → Nat} {f : α → β}
    {p q : α → Bool} {rows : List α} :
    (byCreation created tie (rows.filter p)).map f =
        (byCreation created tie ((deleteWhere q rows).filter p)).map f ↔
      ∀ row ∈ rows, p row = true → q row = false := by
  have hsub : ((deleteWhere q rows).filter p).Sublist (rows.filter p) :=
    List.Sublist.filter p List.filter_sublist
  constructor
  · intro heq row hrow hp
    have hlength := congrArg List.length heq
    simp only [byCreation, List.length_map, List.length_mergeSort] at hlength
    have hsame := hsub.eq_of_length hlength.symm
    have hmem : row ∈ rows.filter p := List.mem_filter.mpr ⟨hrow, hp⟩
    rw [← hsame] at hmem
    exact (mem_deleteWhere.mp (List.mem_of_mem_filter hmem)).2
  · intro hnone
    have hsame : (deleteWhere q rows).filter p = rows.filter p := by
      rw [deleteWhere, List.filter_filter]
      apply List.filter_congr
      intro row hrow
      cases hp : p row with
      | false => rfl
      | true => rw [hnone row hrow hp]; rfl
    rw [hsame]

theorem isolated_listing_iff (answer : Db → Target → Response) {request : Request}
    {target : Option Target} {P : Target → Prop}
    (hserve : ∀ db, serve env ctx params c db request = listing ctx c db target (answer db))
    (hanswer : ∀ t, answer db t = answer (db.without other) t ↔ P t) :
    Isolated env ctx params c db other request ↔
      ∀ t, admitList ctx target = .ok t → c.poolFails = false → c.queryFails = false → P t := by
  have hsame : (serve env ctx params c db request).2 = db := by
    rw [hserve, listing]
    split
    · rfl
    · split <;> rfl
  rw [isolated_iff_of_same hsame, hserve, hserve, listing, listing]
  cases hadmit : admitList ctx target with
  | error refusal => simp
  | ok t =>
    cases hpool : c.poolFails with
    | true => simp
    | false =>
      cases hquery : c.queryFails with
      | true => simp
      | false => simpa using hanswer t

theorem isolated_listComments_iff :
    Isolated env ctx params c db other .listComments ↔
      Harmless env ctx params c db other .listComments := by
  refine isolated_listing_iff (fun db target => .comments (db.listComments c.tie target))
    (fun _ => rfl) fun target => ?_
  rw [Response.comments.injEq]
  exact listing_eq_iff.trans (by simp)

theorem isolated_listHistory_iff :
    Isolated env ctx params c db other .listHistory ↔
      Harmless env ctx params c db other .listHistory := by
  refine isolated_listing_iff (fun db target => .history (db.listHistory c.tie target))
    (fun _ => rfl) fun target => ?_
  rw [Response.history.injEq]
  exact listing_eq_iff.trans (by simp)

theorem isolated_listAttachments_iff :
    Isolated env ctx params c db other .listAttachments ↔
      Harmless env ctx params c db other .listAttachments := by
  refine isolated_listing_iff (fun db target => .attachments (db.listAttachments c.tie target))
    (fun _ => rfl) fun target => ?_
  rw [Response.attachments.injEq]
  exact listing_eq_iff.trans (by simp)

/-! ## Inserts -/

theorem commentsOf_insert {row : Comment} (hid : row.id = db.nextId)
    (hproject : row.projectId ≠ other) :
    (db.insertComment row hid).commentsOf other = db.commentsOf other := by
  simp [Db.commentsOf, Db.insertComment, Table.insert, hproject]

theorem attachmentsOf_insert {row : Attachment} (hid : row.id = db.nextId)
    (hproject : row.projectId ≠ other) :
    (db.insertAttachment row hid).attachmentsOf other = db.attachmentsOf other := by
  simp [Db.attachmentsOf, Db.insertAttachment, Table.insert, hproject]

variable {response : Response}

/-- A request that only inserts a comment is isolated if its target is no item
of the other project. -/
theorem isolated_insertComment_iff {request : Request} (row : Comment) (hid : row.id = db.nextId)
    (hproject : row.projectId ≠ other)
    (hserve : serve env ctx params c db request = (response, db.insertComment row hid))
    (hresponse : (serve env ctx params c (db.without other) request).1 = response) :
    Isolated env ctx params c db other request ↔ db.itemOf other row.target = false := by
  constructor
  · intro hisolated
    by_contra hitem
    have hadded : row ∈ (serve env ctx params c db request).2.comments.rows := by
      rw [hserve]
      exact List.mem_append_right _ List.mem_cons_self
    obtain ⟨old, hold, heq, _⟩ := hisolated.noComment row hadded (by simpa using hitem)
    exact Nat.ne_of_lt (db.comments_lt old hold) (heq.trans hid)
  · intro hitem
    refine ⟨?_, ?_, ?_, ?_, ?_, ?_⟩
    · rw [hserve, hresponse]
    · rw [hserve]
      exact commentsOf_insert hid hproject
    · rw [hserve]
      rfl
    · rw [hserve]
      rfl
    · intro row' hrow' hitem'
      rw [hserve] at hrow'
      rcases List.mem_append.mp hrow' with hold | hnew
      · exact ⟨row', hold, rfl, rfl⟩
      · rw [List.mem_singleton.mp hnew, hitem] at hitem'
        contradiction
    · intro row' hrow' _
      rw [hserve] at hrow'
      exact ⟨row', hrow', rfl, rfl⟩

theorem isolated_insertAttachment_iff {request : Request} (row : Attachment)
    (hid : row.id = db.nextId) (hproject : row.projectId ≠ other)
    (hserve : serve env ctx params c db request = (response, db.insertAttachment row hid))
    (hresponse : (serve env ctx params c (db.without other) request).1 = response) :
    Isolated env ctx params c db other request ↔ db.itemOf other row.target = false := by
  constructor
  · intro hisolated
    by_contra hitem
    have hadded : row ∈ (serve env ctx params c db request).2.attachments.rows := by
      rw [hserve]
      exact List.mem_append_right _ List.mem_cons_self
    obtain ⟨old, hold, heq, _⟩ := hisolated.noAttachment row hadded (by simpa using hitem)
    exact Nat.ne_of_lt (db.attachments_lt old hold) (heq.trans hid)
  · intro hitem
    refine ⟨?_, ?_, ?_, ?_, ?_, ?_⟩
    · rw [hserve, hresponse]
    · rw [hserve]
      rfl
    · rw [hserve]
      rfl
    · rw [hserve]
      exact attachmentsOf_insert hid hproject
    · intro row' hrow' _
      rw [hserve] at hrow'
      exact ⟨row', hrow', rfl, rfl⟩
    · intro row' hrow' hitem'
      rw [hserve] at hrow'
      rcases List.mem_append.mp hrow' with hold | hnew
      · exact ⟨row', hold, rfl, rfl⟩
      · rw [List.mem_singleton.mp hnew, hitem] at hitem'
        contradiction

/-- A request that answers the same whatever the tables hold is isolated. -/
theorem isolated_of_refused {request : Request}
    (hserve : ∀ db, serve env ctx params c db request = (response, db)) :
    Isolated env ctx params c db other request := by
  rw [isolated_iff_of_same (by rw [hserve]), hserve, hserve]

theorem isolated_createComment_iff (hother : ctx.projectId ≠ other) (body : Option String) :
    Isolated env ctx params c db other (.createComment body) ↔
      Harmless env ctx params c db other (.createComment body) := by
  simp only [Harmless]
  cases hadmit : admitComment ctx params body with
  | error refusal =>
    have hserve : ∀ db, serve env ctx params c db (.createComment body) =
        (.problem refusal, db) := fun db => by simp [serve, createComment, hadmit]
    exact iff_of_true (isolated_of_refused hserve) (by simp)
  | ok admitted =>
    obtain ⟨target, text⟩ := admitted
    cases hfails : c.poolFails || c.writeFails with
    | true =>
      have hserve : ∀ db, serve env ctx params c db (.createComment body) =
          (.problem internal, db) := fun db => by simp [serve, createComment, hadmit, hfails]
      refine iff_of_true (isolated_of_refused hserve) fun _ _ _ hpool hwrite => ?_
      rw [hpool, hwrite] at hfails
      contradiction
    | false =>
      have hserve : ∀ db, serve env ctx params c db (.createComment body) =
          (.commentCreated (Db.commentView none (db.newComment ctx.projectId target
              ctx.actorId text (env.render text) c.now)),
            db.insertComment (db.newComment ctx.projectId target ctx.actorId text
              (env.render text) c.now) rfl) := fun db => by
        simp [serve, createComment, hadmit, hfails]
      rw [isolated_insertComment_iff (db.newComment ctx.projectId target ctx.actorId
        text (env.render text) c.now) rfl hother (hserve db) (by rw [hserve]; rfl)]
      obtain ⟨hpool, hwrite⟩ := Bool.or_eq_false_iff.mp hfails
      simp [hpool, hwrite, Db.newComment]

theorem isolated_upload_iff (hother : ctx.projectId ≠ other)
    (received : Except ReceiveError Received) :
    Isolated env ctx params c db other (.upload received) ↔
      Harmless env ctx params c db other (.upload received) := by
  simp only [Harmless]
  cases hadmit : admitUpload env ctx params received with
  | error refusal =>
    have hserve : ∀ db, serve env ctx params c db (.upload received) =
        (.problem refusal, db) := fun db => by simp [serve, upload, hadmit]
    exact iff_of_true (isolated_of_refused hserve) (by simp)
  | ok admitted =>
    obtain ⟨target, file, contentType⟩ := admitted
    cases hfails : c.storageFails || c.poolFails || c.writeFails with
    | true =>
      have hserve : ∀ db, serve env ctx params c db (.upload received) =
          (.problem internal, db) := fun db => by simp [serve, upload, hadmit, hfails]
      refine iff_of_true (isolated_of_refused hserve) fun _ _ _ _ hstorage hpool hwrite => ?_
      rw [hstorage, hpool, hwrite] at hfails
      contradiction
    | false =>
      have hserve : ∀ db, serve env ctx params c db (.upload received) =
          (.attachmentCreated (Db.attachmentView (newAttachment ctx c db target file
              contentType)),
            db.insertAttachment (newAttachment ctx c db target file contentType) rfl) :=
        fun db => by simp [serve, upload, hadmit, hfails]
      rw [isolated_insertAttachment_iff (newAttachment ctx c db target file contentType)
        rfl hother (hserve db) (by rw [hserve]; rfl)]
      simp only [Bool.or_eq_false_iff] at hfails
      simp [hfails.1.1, hfails.1.2, hfails.2, newAttachment]

/-! ## Updates -/

theorem liveComment?_without (id : Uuid) : (db.without other).liveComment? id =
    (db.liveComment? id).filter fun row => row.projectId != other := by
  rw [Db.liveComment?, Db.without, Table.find?_erase, Db.liveComment?]
  cases db.comments.find? id with
  | none => rfl
  | some row =>
    cases hproject : row.projectId == other <;> cases hlive : row.deletedAt.isNone <;>
      simp [Option.filter, hproject, hlive, bne]

section Comments

variable {id : Uuid}

theorem liveComment?_without_of_ne {comment : Comment} (hlive : db.liveComment? id = some comment)
    (hproject : comment.projectId ≠ other) : (db.without other).liveComment? id = some comment := by
  rw [liveComment?_without, hlive, Option.filter_some, if_pos (by simpa using hproject)]

theorem liveComment?_without_of_eq {comment : Comment} (hlive : db.liveComment? id = some comment)
    (hproject : comment.projectId = other) : (db.without other).liveComment? id = none := by
  rw [liveComment?_without, hlive, Option.filter_some, if_neg (by simpa using hproject)]

theorem liveComment?_without_of_none (hlive : db.liveComment? id = none) :
    (db.without other).liveComment? id = none := by
  rw [liveComment?_without, hlive]
  rfl

/-- Rewriting a live comment of another project leaves the comments alone. -/
theorem commentsOf_modify {comment : Comment} (hlive : db.liveComment? id = some comment)
    (hproject : comment.projectId ≠ other) {f : Comment → Comment} (hf : ∀ row, (f row).id = row.id)
    (hfproject : ∀ row, (f row).projectId = row.projectId) :
    (db.modifyComments (Comment.liveAs id) f hf).commentsOf other = db.commentsOf other := by
  have hselect : ∀ row, ((f row).projectId == other) = (row.projectId == other) := fun row => by
    rw [hfproject]
  refine (filter_updateWhere hselect _ _).trans (updateWhere_eq_self (fun row hrow => ?_) f)
  obtain ⟨hmem, hrowproject⟩ := List.mem_filter.mp hrow
  by_contra hmatches
  -- the id belongs to one row only
  have hid : row.id = id := by
    have hboth : Comment.liveAs id row = true := by simpa using hmatches
    rw [Comment.liveAs, Bool.and_eq_true, beq_iff_eq] at hboth
    exact hboth.1
  have hfind : db.comments.find? id = some row := hid ▸ Table.find?_key hmem
  rw [Db.liveComment?, hfind] at hlive
  obtain ⟨heq, _⟩ := Option.filter_eq_some_iff.mp hlive
  rw [← Option.some.inj heq] at hproject
  exact hproject (beq_iff_eq.mp hrowproject)

theorem target_modify {p : Comment → Bool} (f : Comment → Comment)
    (hf : ∀ row, (f row).id = row.id) (hftarget : ∀ row, (f row).target = row.target)
    {row : Comment} (hrow : row ∈ (db.modifyComments p f hf).comments.rows) :
    ∃ old ∈ db.comments.rows, old.id = row.id ∧ old.target = row.target := by
  have hmem : row ∈ (db.comments.modify p f hf).rows := hrow
  obtain ⟨old, hold, rfl⟩ := Table.mem_modify.mp hmem
  refine ⟨old, hold, ?_⟩
  split
  · exact ⟨(hf old).symm, (hftarget old).symm⟩
  · exact ⟨rfl, rfl⟩

/-- What an update and a deletion share: which comment they come to, if any. -/
theorem isolated_mutation_iff {request : Request} {act : Db → Comment → Response × Db}
    {P : Comment → Prop} (hserve : ∀ db, serve env ctx params c db request =
      match db.liveComment? id with
      | none => (.problem notFound, db)
      | some comment => act db comment)
    (hanswers : ∀ db comment, db.liveComment? id = some comment →
      (act db comment).1 ≠ .problem notFound)
    (hact : ∀ comment, db.liveComment? id = some comment → comment.projectId ≠ other →
      (Isolated env ctx params c db other request ↔ P comment)) :
    Isolated env ctx params c db other request ↔
      ∀ comment, db.liveComment? id = some comment → comment.projectId ≠ other ∧ P comment := by
  cases hlive : db.liveComment? id with
  | none =>
    have hsame : serve env ctx params c db request = (.problem notFound, db) := by
      rw [hserve, hlive]
    refine iff_of_true ?_ (fun comment hsome => by contradiction)
    rw [isolated_iff_of_same (by rw [hsame]), hsame, hserve,
      liveComment?_without_of_none hlive]
  | some comment =>
    by_cases hproject : comment.projectId = other
    · refine iff_of_false (fun hisolated => ?_) fun hall => (hall comment rfl).1 hproject
      have hresponse := hisolated.response
      rw [hserve, hserve, liveComment?_without_of_eq hlive hproject, hlive] at hresponse
      exact hanswers db comment hlive hresponse
    · rw [hact comment hlive hproject]
      constructor
      · intro hP found hfound
        rw [← Option.some.inj hfound]
        exact ⟨hproject, hP⟩
      · exact fun hall => (hall comment rfl).2

theorem forbidden_ne_notFound : Response.problem forbidden ≠ .problem notFound := by decide

theorem internal_ne_notFound : Response.problem internal ≠ .problem notFound := by decide

/-- `update_comment` once it has found the comment. -/
def updateFound (env : Env) (ctx : ProjectContext) (c : Circumstances) (id : Uuid) (text : String)
    (db : Db) (comment : Comment) : Response × Db :=
  if !mayMutateComment ctx c.now comment then (.problem forbidden, db)
  else if c.writeFails then (.problem internal, db)
  else (.comment (Db.commentView none (comment.edit text (env.render text) c.now)),
    (db.updateComment id text (env.render text) c.now).2)

theorem updateComment_found {body : Option String} {text : String}
    (hid : params.commentId = some id) (hbody : parseComment body = .ok text)
    (hpool : c.poolFails = false) (hquery : c.queryFails = false) (db : Db) :
    serve env ctx params c db (.updateComment body) =
      match db.liveComment? id with
      | none => (.problem notFound, db)
      | some comment => updateFound env ctx c id text db comment := by
  cases hlive : db.liveComment? id with
  | none => simp [serve, updateComment, hid, hbody, hpool, hquery, hlive]
  | some comment =>
    simp [serve, updateComment, hid, hbody, hpool, hquery, hlive, updateFound, Db.updateComment]

theorem isolated_updateFound {body : Option String} {text : String} {comment : Comment}
    (hserve : ∀ db, serve env ctx params c db (.updateComment body) =
      match db.liveComment? id with
      | none => (.problem notFound, db)
      | some comment => updateFound env ctx c id text db comment)
    (hlive : db.liveComment? id = some comment) (hproject : comment.projectId ≠ other) :
    Isolated env ctx params c db other (.updateComment body) := by
  have hnow : serve env ctx params c db (.updateComment body) =
      updateFound env ctx c id text db comment := by
    rw [hserve, hlive]
  have hwithout : serve env ctx params c (db.without other) (.updateComment body) =
      updateFound env ctx c id text (db.without other) comment := by
    rw [hserve, liveComment?_without_of_ne hlive hproject]
  cases hmay : mayMutateComment ctx c.now comment with
  | false =>
    simp only [updateFound, hmay, Bool.not_false, if_true] at hnow hwithout
    rw [isolated_iff_of_same (by rw [hnow]), hnow, hwithout]
  | true =>
    simp only [updateFound, hmay, Bool.not_true, Bool.false_eq_true, if_false] at hnow hwithout
    cases hwrite : c.writeFails with
    | true =>
      simp only [hwrite, if_true] at hnow hwithout
      rw [isolated_iff_of_same (by rw [hnow]), hnow, hwithout]
    | false =>
      simp only [hwrite, Bool.false_eq_true, if_false] at hnow hwithout
      refine ⟨by rw [hnow, hwithout], ?_, ?_, ?_, ?_, ?_⟩
      · rw [hnow]
        exact commentsOf_modify hlive hproject
          (f := Comment.edit text (env.render text) c.now) (fun _ => rfl) fun _ => rfl
      · rw [hnow]
        rfl
      · rw [hnow]
        rfl
      · rw [hnow]
        exact fun row hrow _ =>
          target_modify (Comment.edit text (env.render text) c.now) (fun _ => rfl)
            (fun _ => rfl) hrow
      · rw [hnow]
        exact fun row hrow _ => ⟨row, hrow, rfl, rfl⟩

theorem isolated_updateComment_iff (body : Option String) :
    Isolated env ctx params c db other (.updateComment body) ↔
      Harmless env ctx params c db other (.updateComment body) := by
  simp only [Harmless]
  cases hid : params.commentId with
  | none =>
    have hserve : ∀ db, serve env ctx params c db (.updateComment body) =
        (.problem notFound, db) := fun db => by simp [serve, updateComment, hid]
    exact iff_of_true (isolated_of_refused hserve) (by simp)
  | some id =>
    cases hbody : parseComment body with
    | error refusal =>
      have hserve : ∀ db, serve env ctx params c db (.updateComment body) =
          (.problem refusal, db) := fun db => by simp [serve, updateComment, hid, hbody]
      exact iff_of_true (isolated_of_refused hserve) (by simp)
    | ok text =>
      cases hpool : c.poolFails with
      | true =>
        have hserve : ∀ db, serve env ctx params c db (.updateComment body) =
            (.problem internal, db) := fun db => by
          simp [serve, updateComment, hid, hbody, hpool]
        exact iff_of_true (isolated_of_refused hserve) (by simp)
      | false =>
        cases hquery : c.queryFails with
        | true =>
          have hserve : ∀ db, serve env ctx params c db (.updateComment body) =
              (.problem notFound, db) := fun db => by
            simp [serve, updateComment, hid, hbody, hpool, hquery]
          exact iff_of_true (isolated_of_refused hserve) (by simp)
        | false =>
          have hserve : ∀ db, serve env ctx params c db (.updateComment body) =
              match db.liveComment? id with
              | none => (.problem notFound, db)
              | some comment => updateFound env ctx c id text db comment :=
            updateComment_found hid hbody hpool hquery
          rw [isolated_mutation_iff (P := fun _ => True) hserve ?_ fun comment hlive hne =>
            iff_of_true (isolated_updateFound hserve hlive hne) trivial]
          · simp
          · intro db comment _
            unfold updateFound
            split
            · exact forbidden_ne_notFound
            · split
              · exact internal_ne_notFound
              · exact fun h => by contradiction

/-- `delete_comment` once it has found the comment. -/
def deleteFound (ctx : ProjectContext) (c : Circumstances) (id : Uuid) (db : Db)
    (comment : Comment) : Response × Db :=
  if !mayMutateComment ctx c.now comment then (.problem forbidden, db)
  else if c.writeFails then (.problem internal, db)
  else (.noContent, if c.tidyFails then (db.softDeleteComment id c.now).2
    else (db.softDeleteComment id c.now).2.softDeleteForTarget (.comment, id) c.now)

theorem deleteComment_found (hid : params.commentId = some id) (hpool : c.poolFails = false)
    (hquery : c.queryFails = false) (db : Db) :
    serve env ctx params c db .deleteComment =
      match db.liveComment? id with
      | none => (.problem notFound, db)
      | some comment => deleteFound ctx c id db comment := by
  cases hlive : db.liveComment? id with
  | none => simp [serve, deleteComment, hid, hpool, hquery, hlive]
  | some comment =>
    simp [serve, deleteComment, hid, hpool, hquery, hlive, deleteFound, Db.softDeleteComment]

/-- Erasing what is attached to a target shows if and only if some of it is the
other project's. -/
theorem attachmentsOf_erase_iff (target : Target) (now : Int) :
    (db.softDeleteForTarget target now).attachmentsOf other = db.attachmentsOf other ↔
      ∀ row ∈ db.attachments.rows, Db.attachedTo target row = true → row.projectId ≠ other := by
  have hfilter : (db.softDeleteForTarget target now).attachmentsOf other =
      updateWhere (Db.attachedTo target) (Attachment.erase now) (db.attachmentsOf other) := by
    have hselect : ∀ row, ((Attachment.erase now row).projectId == other) =
        (row.projectId == other) := fun _ => rfl
    exact filter_updateWhere hselect _ _
  rw [hfilter]
  constructor
  · intro hsame row hrow hattached hproject
    have hmem : row ∈ db.attachmentsOf other := List.mem_filter.mpr ⟨hrow, beq_iff_eq.mpr hproject⟩
    rw [← hsame] at hmem
    obtain ⟨old, _, heq⟩ := mem_updateWhere.mp hmem
    split at heq
    · -- an erased attachment is not live
      rw [← heq] at hattached
      simp [Db.attachedTo, Attachment.erase] at hattached
    · rename_i hnot
      rw [heq] at hnot
      exact hnot hattached
  · intro hnone
    refine updateWhere_eq_self (fun row hrow => ?_) _
    obtain ⟨hmem, hproject⟩ := List.mem_filter.mp hrow
    by_contra hattached
    exact hnone row hmem (by simpa using hattached) (beq_iff_eq.mp hproject)

theorem target_erase {target : Target} {now : Int} {row : Attachment}
    (hrow : row ∈ (db.softDeleteForTarget target now).attachments.rows) :
    ∃ old ∈ db.attachments.rows, old.id = row.id ∧ old.target = row.target := by
  obtain ⟨old, hold, rfl⟩ := mem_updateWhere.mp hrow
  refine ⟨old, hold, ?_⟩
  split
  · exact ⟨rfl, rfl⟩
  · exact ⟨rfl, rfl⟩

theorem isolated_deleteFound_iff {comment : Comment}
    (hserve : ∀ db, serve env ctx params c db .deleteComment =
      match db.liveComment? id with
      | none => (.problem notFound, db)
      | some comment => deleteFound ctx c id db comment) (hlive : db.liveComment? id = some comment)
    (hproject : comment.projectId ≠ other) :
    Isolated env ctx params c db other .deleteComment ↔
      (mayMutateComment ctx c.now comment = true → c.writeFails = false → c.tidyFails = false →
        ∀ row ∈ db.attachments.rows, Db.attachedTo (.comment, id) row = true →
          row.projectId ≠ other) := by
  have hnow : serve env ctx params c db .deleteComment = deleteFound ctx c id db comment := by
    rw [hserve, hlive]
  have hwithout : serve env ctx params c (db.without other) .deleteComment =
      deleteFound ctx c id (db.without other) comment := by
    rw [hserve, liveComment?_without_of_ne hlive hproject]
  cases hmay : mayMutateComment ctx c.now comment with
  | false =>
    simp only [deleteFound, hmay, Bool.not_false, if_true] at hnow hwithout
    rw [isolated_iff_of_same (by rw [hnow]), hnow, hwithout]
    simp
  | true =>
    simp only [deleteFound, hmay, Bool.not_true, Bool.false_eq_true, if_false] at hnow hwithout
    cases hwrite : c.writeFails with
    | true =>
      simp only [hwrite, if_true] at hnow hwithout
      rw [isolated_iff_of_same (by rw [hnow]), hnow, hwithout]
      simp
    | false =>
      simp only [hwrite, Bool.false_eq_true, if_false] at hnow hwithout
      cases htidy : c.tidyFails with
      | true =>
        simp only [htidy, if_true] at hnow hwithout
        refine iff_of_true ⟨by rw [hnow, hwithout], ?_, ?_, ?_, ?_, ?_⟩ (by simp)
        · rw [hnow]
          exact commentsOf_modify hlive hproject (f := Comment.erase c.now) (fun _ => rfl)
            fun _ => rfl
        · rw [hnow]
          rfl
        · rw [hnow]
          rfl
        · rw [hnow]
          exact fun row hrow _ =>
            target_modify (Comment.erase c.now) (fun _ => rfl) (fun _ => rfl) hrow
        · rw [hnow]
          exact fun row hrow _ => ⟨row, hrow, rfl, rfl⟩
      | false =>
        simp only [htidy, Bool.false_eq_true, if_false] at hnow hwithout
        simp only [true_implies]
        rw [← attachmentsOf_erase_iff _ c.now]
        constructor
        · intro hisolated
          have hattachments := hisolated.attachments
          rw [hnow] at hattachments
          exact hattachments
        · intro hattachments
          refine ⟨by rw [hnow, hwithout], ?_, ?_, ?_, ?_, ?_⟩
          · rw [hnow]
            -- the attachments' statement leaves the comments as the first one wrote them
            change (db.softDeleteComment id c.now).2.commentsOf other = _
            exact commentsOf_modify hlive hproject (f := Comment.erase c.now) (fun _ => rfl)
              fun _ => rfl
          · rw [hnow]
            rfl
          · rw [hnow]
            exact hattachments
          · rw [hnow]
            exact fun row hrow _ =>
              target_modify (Comment.erase c.now) (fun _ => rfl) (fun _ => rfl) hrow
          · rw [hnow]
            exact fun row hrow _ => target_erase hrow

theorem isolated_deleteComment_iff :
    Isolated env ctx params c db other .deleteComment ↔
      Harmless env ctx params c db other .deleteComment := by
  simp only [Harmless]
  cases hid : params.commentId with
  | none =>
    have hserve : ∀ db, serve env ctx params c db .deleteComment = (.problem notFound, db) :=
      fun db => by simp [serve, deleteComment, hid]
    exact iff_of_true (isolated_of_refused hserve) (by simp)
  | some id =>
    cases hpool : c.poolFails with
    | true =>
      have hserve : ∀ db, serve env ctx params c db .deleteComment = (.problem internal, db) :=
        fun db => by simp [serve, deleteComment, hid, hpool]
      exact iff_of_true (isolated_of_refused hserve) (by simp)
    | false =>
      cases hquery : c.queryFails with
      | true =>
        have hserve : ∀ db, serve env ctx params c db .deleteComment =
            (.problem notFound, db) := fun db => by
          simp [serve, deleteComment, hid, hpool, hquery]
        exact iff_of_true (isolated_of_refused hserve) (by simp)
      | false =>
        have hserve : ∀ db, serve env ctx params c db .deleteComment =
            match db.liveComment? id with
            | none => (.problem notFound, db)
            | some comment => deleteFound ctx c id db comment :=
          deleteComment_found hid hpool hquery
        rw [isolated_mutation_iff hserve ?_ fun comment hlive hne =>
          isolated_deleteFound_iff hserve hlive hne]
        · simp
        · intro db comment _
          unfold deleteFound
          split
          · exact forbidden_ne_notFound
          · split
            · exact internal_ne_notFound
            · exact fun h => by contradiction

/-! ## Every request -/

/-- A request under one project is isolated from another one if and only if it
is refused before the tables or its ids lead to nothing of that project. -/
theorem activity_isolated_iff (env : Env) (ctx : ProjectContext) (params : Params)
    (c : Circumstances) (db : Db) (other : Uuid) (hother : ctx.projectId ≠ other)
    (request : Request) :
    Isolated env ctx params c db other request ↔ Harmless env ctx params c db other request := by
  cases request with
  | listComments => exact isolated_listComments_iff
  | createComment body => exact isolated_createComment_iff hother body
  | updateComment body => exact isolated_updateComment_iff body
  | deleteComment => exact isolated_deleteComment_iff
  | listHistory => exact isolated_listHistory_iff
  | listAttachments => exact isolated_listAttachments_iff
  | upload received => exact isolated_upload_iff hother received

end Comments

/-! ## A moderator next door -/

namespace Neighbours

def comment (id projectId issueId : Uuid) : Comment :=
  ⟨id, projectId, (.issue, issueId), some 9, "text", "<p>text</p>", none, 0, none⟩

/-- Projects 1 and 2 have one issue and one comment each. -/
def tables : Db where
  comments := ⟨[comment 1 1 10, comment 2 2 20], by decide⟩
  history := []
  attachments := .empty
  items := [⟨(.issue, 10), 1⟩, ⟨(.issue, 20), 2⟩]
  users := []
  nextId := 3
  comments_lt := by decide
  attachments_lt := fun _ h => absurd h List.not_mem_nil

def deployment : Env := ⟨id, fun _ => none, 1000⟩

/-- A member of project 1 who may moderate comments there. -/
def moderator : ProjectContext := ⟨1, 5, some ⟨10, false, [.commentModerate]⟩, false⟩

/-- `PATCH /projects/1/issues/10/comments/{id}`. -/
def path (commentId : Uuid) : Params := ⟨"issues", some 10, some commentId⟩

def request : Request := .updateComment (some "edited")

end Neighbours

open Neighbours in
theorem activity_isolated_own_comment : Isolated deployment moderator (path 1) {} tables 2 request := by
  refine (activity_isolated_iff deployment moderator (path 1) {} tables 2 (by decide) request).mpr ?_
  intro id text hid hbody hpool hquery comment hlive
  obtain rfl : 1 = id := Option.some.inj hid
  have hfound : tables.liveComment? 1 = some (Neighbours.comment 1 1 10) := by decide
  rw [hfound] at hlive
  rw [← Option.some.inj hlive]
  decide

open Neighbours in
/-- The moderator of project 1 edits a comment of project 2. -/
theorem neighbour_edited :
    ((serve deployment moderator (path 2) {} tables request).2.commentsOf 2 ≠ tables.commentsOf 2) ∧
      ¬ Isolated deployment moderator (path 2) {} tables 2 request := by
  have hchanged : (serve deployment moderator (path 2) {} tables request).2.commentsOf 2 ≠ tables.commentsOf 2 := by
    decide
  exact ⟨hchanged, fun hisolated => hchanged hisolated.comments⟩

end IntelliPilot.Projects.Activity
