import IntelliPilot.Http.Problem
import IntelliPilot.Relational.Table
import IntelliPilot.Statement.Handlers
import IntelliPilot.Text.Strings

/-! # Wiki pages

The handlers of `api::wiki` that write pages, over the statements of
`db::wiki`. The rendered body, which no handler reads, and the times of the rows
are left out.
-/

namespace IntelliPilot.Wiki

open Http Statement

abbrev Uuid := Nat

structure WikiPage where
  id : Uuid
  projectId : Uuid
  slug : String
  title : String
  body : String
  version : Nat
  editorId : Uuid
  deleted : Bool
  deriving DecidableEq, Repr

structure WikiRevision where
  pageId : Uuid
  rev : Nat
  title : String
  body : String
  editorId : Uuid
  deriving DecidableEq, Repr

structure Db where
  pages : Table WikiPage.id
  revisions : List WikiRevision

def Db.empty : Db := ⟨Table.empty, []⟩

inductive DbError where
  | uniqueViolation
  | valueTooLong
  | failed
  deriving DecidableEq, Repr

/-! ## Statements -/

/-- The statements and transactions of `db::wiki`. -/
inductive Stmt : Type → Type where
  | create (projectId : Uuid) (slug title body : String) (editorId : Uuid) :
      Stmt (Except DbError WikiPage)
  | get (projectId id : Uuid) : Stmt (Except DbError (Option WikiPage))
  | update (projectId id : Uuid) (title body : String) (editorId : Uuid) :
      Stmt (Except DbError (Option WikiPage))
  | softDelete (projectId id : Uuid) : Stmt (Except DbError Bool)
  | getRevision (pageId : Uuid) (rev : Nat) : Stmt (Except DbError (Option WikiRevision))

namespace Db

/-- A page that is there for its project. -/
def get (db : Db) (projectId id : Uuid) : Option WikiPage :=
  (db.pages.find? id).filter fun page => page.projectId == projectId && !page.deleted

def getRevision (db : Db) (pageId : Uuid) (rev : Nat) : Option WikiRevision :=
  db.revisions.find? fun revision => revision.pageId == pageId && revision.rev == rev

/-- The revision that a page is saved as. -/
def snapshot (page : WikiPage) : WikiRevision where
  pageId := page.id
  rev := page.version
  title := page.title
  body := page.body
  editorId := page.editorId

/-- `INSERT INTO wiki_page_revisions`, with `UNIQUE (page_id, rev)`. -/
def insertRevision (page : WikiPage) (db : Db) : Except DbError Db :=
  if (db.getRevision page.id page.version).isSome then .error .uniqueViolation
  else .ok { db with revisions := db.revisions ++ [snapshot page] }

/-- `create`, with `UNIQUE (project_id, slug)`, which deleted pages count for; the column
`slug` is a `varchar(200)`. -/
def create (projectId : Uuid) (slug title body : String) (editorId : Uuid) (db : Db) :
    Except DbError (WikiPage × Db) := do
  if 200 < slug.length then throw .valueTooLong
  if db.pages.rows.any fun page => page.projectId == projectId && page.slug == slug then
    throw .uniqueViolation
  let page : WikiPage := ⟨db.pages.fresh, projectId, slug, title, body, 1, editorId, false⟩
  let later ← insertRevision page
    { db with pages := db.pages.insert page db.pages.find?_fresh }
  return (page, later)

/-- The row that `update` writes. -/
def saved (title body : String) (editorId : Uuid) (page : WikiPage) : WikiPage :=
  { page with title := title, body := body, editorId := editorId, version := page.version + 1 }

/-- `update`. -/
def update (projectId id : Uuid) (title body : String) (editorId : Uuid) (db : Db) :
    Except DbError (Option (WikiPage × Db)) :=
  match db.get projectId id with
  | none => .ok none
  | some page => do
      let later ← insertRevision (saved title body editorId page)
        { db with pages := db.pages.modify (·.id == id) (saved title body editorId) fun _ => rfl }
      return some (saved title body editorId page, later)

/-- `soft_delete`. -/
def softDelete (projectId id : Uuid) (db : Db) : Bool × Db :=
  ((db.get projectId id).isSome,
    if (db.get projectId id).isSome then
      { db with
        pages := db.pages.modify (·.id == id) (fun page => { page with deleted := true })
          (fun _ => rfl) }
    else db)

end Db

/-- What a statement does that does not fail; an error rolls it back. -/
def Stmt.effect {β : Type} (stmt : Stmt β) (db : Db) : β × Db :=
  match stmt with
  | .create projectId slug title body editorId =>
      match db.create projectId slug title body editorId with
      | .ok (page, later) => (.ok page, later)
      | .error e => (.error e, db)
  | .get projectId id => (.ok (db.get projectId id), db)
  | .update projectId id title body editorId =>
      match db.update projectId id title body editorId with
      | .ok (some (page, later)) => (.ok (some page), later)
      | .ok none => (.ok none, db)
      | .error e => (.error e, db)
  | .softDelete projectId id => (.ok (db.softDelete projectId id).1, (db.softDelete projectId id).2)
  | .getRevision pageId rev => (.ok (db.getRevision pageId rev), db)

def Stmt.failure {β : Type} : Stmt β → β
  | .create _ _ _ _ _ => .error .failed
  | .get _ _ => .error .failed
  | .update _ _ _ _ _ => .error .failed
  | .softDelete _ _ => .error .failed
  | .getRevision _ _ => .error .failed

/-- A statement, which may fail. -/
def Stmt.exec {β : Type} (stmt : Stmt β) (fails : Bool) (db : Db) : β × Db :=
  if fails then (stmt.failure, db) else stmt.effect db

/-! ## Handlers -/

abbrev Handler := ExceptT Problem (Prog Stmt)

/-- The project context: its wiki, and whether the actor has the permission asked for. -/
structure Context where
  projectId : Uuid
  actorId : Uuid
  wikiEnabled : Bool
  allowed : Bool
  deriving DecidableEq, Repr

/-- `require_wiki`: a disabled wiki reads as absent. -/
def requireWiki (ctx : Context) : Except Problem Unit :=
  if !ctx.wikiEnabled then .error notFound
  else if !ctx.allowed then .error forbidden
  else .ok ()

structure CreateWikiPageRequest where
  slug : Option String := none
  title : String
  body : String
  deriving DecidableEq, Repr

structure UpdateWikiPageRequest where
  title : Option String := none
  body : Option String := none
  deriving DecidableEq, Repr

inductive Answer where
  | page (status : Nat) (page : WikiPage)
  | noContent
  deriving DecidableEq, Repr

/-- `create`. -/
def create (ctx : Context) (body : Except Problem CreateWikiPageRequest) : Handler Answer := do
  given (requireWiki ctx)
  let req ← given body
  match ← attempted (.create ctx.projectId (req.slug.getD (Text.slugify req.title)) req.title
      req.body ctx.actorId) with
  | .ok page => return .page 201 page
  | .error .uniqueViolation =>
      throw ⟨409, "already_exists", "Already Exists", some "wiki slug already used"⟩
  | .error _ => throw internal

/-- A page or a revision that a handler starts from; a query that fails finds none. -/
def found {α : Type} (stmt : Stmt (Except DbError (Option α))) : Handler α := do
  match ← attempted stmt with
  | .ok (some row) => pure row
  | _ => throw notFound

/-- The save of an existing page. -/
def save (ctx : Context) (id : Uuid) (title body : String) : Handler Answer := do
  match ← orRefuse (.update ctx.projectId id title body ctx.actorId) internal with
  | some page => return .page 200 page
  | none => throw notFound

/-- `update`. -/
def update (ctx : Context) (id : Uuid) (body : Except Problem UpdateWikiPageRequest) :
    Handler Answer := do
  given (requireWiki ctx)
  let req ← given body
  let existing ← found (.get ctx.projectId id)
  save ctx id (req.title.getD existing.title) (req.body.getD existing.body)

/-- `restore`: the revision is saved as a new one. -/
def restore (ctx : Context) (id : Uuid) (rev : Nat) : Handler Answer := do
  given (requireWiki ctx)
  let snapshot ← found (.getRevision id rev)
  save ctx id snapshot.title snapshot.body

/-- `delete`. -/
def delete (ctx : Context) (id : Uuid) : Handler Answer := do
  given (requireWiki ctx)
  refuseUnless (← orRefuse (.softDelete ctx.projectId id) internal) notFound
  return .noContent

inductive Request where
  | create (ctx : Context) (body : Except Problem CreateWikiPageRequest)
  | update (ctx : Context) (id : Uuid) (body : Except Problem UpdateWikiPageRequest)
  | restore (ctx : Context) (id : Uuid) (rev : Nat)
  | delete (ctx : Context) (id : Uuid)

def Request.handler : Request → Handler Answer
  | .create ctx body => Wiki.create ctx body
  | .update ctx id body => Wiki.update ctx id body
  | .restore ctx id rev => Wiki.restore ctx id rev
  | .delete ctx id => Wiki.delete ctx id

/-- The writing endpoints of the wiki, statement by statement. -/
def service : Service Stmt Db Bool Request (Except Problem Answer) where
  exec := Stmt.exec
  handler request := request.handler.run

end IntelliPilot.Wiki
