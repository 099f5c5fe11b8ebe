import IntelliPilot.Imports.Tables

/-! # Taxonomy items and what refers to them

The rows of `taxonomy_items` with the columns of issues and epics that refer to
them, and the statements of `db::taxonomy` and `db::backlog` on these. An item
that is deleted is taken off the issues and epics that have it. Ranks and sizes
are of any type; what `f64` does with them is a parameter.
-/

namespace IntelliPilot.Taxonomy

open Imports (Uuid TaxonomyKind)

/-! ## Kinds -/

namespace Kind

def hasClosed : TaxonomyKind → Bool
  | .issueStatus => true
  | _ => false

def hasCountsAsDone : TaxonomyKind → Bool
  | .issueStatus => true
  | _ => false

def hasNew : TaxonomyKind → Bool
  | .issueStatus => true
  | _ => false

def hasValue : TaxonomyKind → Bool
  | .size => true
  | _ => false

/-- `TaxonomyKind::parse`. -/
def parse : String → Option TaxonomyKind
  | "issue_status" => some .issueStatus
  | "issue_type" => some .issueType
  | "priority" => some .priority
  | "size" => some .size
  | _ => none

end Kind

/-! ## Ranks -/

/-- What `f64` offers to `ordering`. -/
structure Arithmetic (F : Type) where
  ofNat : Nat → F
  add : F → F → F
  sub : F → F → F
  half : F → F
  le : F → F → Bool
  lt : F → F → Bool

namespace Arithmetic

variable {F : Type} (ar : Arithmetic F)

/-- `APPEND_GAP`. -/
def appendGap : F := ar.ofNat 1

/-- `rank_between`. -/
def rankBetween : Option F → Option F → Option F
  | none, none => some ar.appendGap
  | some before, none => some (ar.add before ar.appendGap)
  | none, some after => some (ar.sub after ar.appendGap)
  | some before, some after =>
      let lo := if ar.le before after then before else after
      let hi := if ar.le before after then after else before
      let mid := ar.add lo (ar.half (ar.sub hi lo))
      if ar.lt lo mid && ar.lt mid hi then some mid else none

/-- `normalized_ranks`. -/
def normalizedRanks (count : Nat) : List F :=
  (List.range count).map fun i => ar.add (ar.ofNat i) ar.appendGap

end Arithmetic

/-! ## Rows -/

/-- A row of `taxonomy_items`. -/
structure Item (F : Type) where
  id : Uuid
  projectId : Uuid
  kind : TaxonomyKind
  name : String
  slug : String
  color : String
  emoji : String
  order : F
  isClosed : Option Bool
  countsAsDone : Option Bool
  isNew : Option Bool
  value : Option F
  deriving DecidableEq, Repr

/-- The columns of an issue that refer to items. -/
structure IssueWrite where
  statusId : Option Uuid := none
  typeId : Option Uuid := none
  priorityId : Option Uuid := none
  sizeId : Option Uuid := none
  deriving DecidableEq, Repr

structure Issue extends IssueWrite where
  id : Uuid
  projectId : Uuid
  version : Nat
  resolvedAt : Option Int
  deletedAt : Option Int
  deriving DecidableEq, Repr

structure Epic where
  id : Uuid
  projectId : Uuid
  statusId : Option Uuid
  version : Nat
  deletedAt : Option Int
  deriving DecidableEq, Repr

structure Db (F : Type) where
  items : Table fun item : Item F => item.id
  issues : Table Issue.id
  epics : Table Epic.id
  now : Int

inductive DbError where
  | failed
  | uniqueViolation
  deriving DecidableEq, Repr

namespace IssueWrite

/-- The item is one of the four. -/
def carries (w : IssueWrite) (item : Uuid) : Bool :=
  w.statusId == some item || w.typeId == some item || w.priorityId == some item ||
    w.sizeId == some item

/-- `ON DELETE SET NULL`, for an item that is deleted. -/
def without (w : IssueWrite) (item : Uuid) : IssueWrite where
  statusId := w.statusId.filter (· != item)
  typeId := w.typeId.filter (· != item)
  priorityId := w.priorityId.filter (· != item)
  sizeId := w.sizeId.filter (· != item)

end IssueWrite

/-- A change of an item; what is not given stays. -/
structure ItemPatch (F : Type) where
  name : Option String := none
  color : Option String := none
  emoji : Option String := none
  isClosed : Option Bool := none
  countsAsDone : Option Bool := none
  isNew : Option Bool := none
  value : Option F := none
  deriving DecidableEq, Repr

/-- The `SET` list of `taxonomy::update`. -/
def ItemPatch.apply {F : Type} (patch : ItemPatch F) (item : Item F) : Item F :=
  { item with
    name := patch.name.getD item.name
    color := patch.color.getD item.color
    emoji := patch.emoji.getD item.emoji
    isClosed := patch.isClosed.or item.isClosed
    countsAsDone := patch.countsAsDone.or item.countsAsDone
    isNew := patch.isNew.or item.isNew
    value := patch.value.or item.value }

/-- What `taxonomy::create` writes, its rank aside. -/
structure ItemNew (F : Type) where
  name : String
  slug : String
  color : String
  emoji : String
  isClosed : Option Bool
  countsAsDone : Option Bool
  isNew : Option Bool
  value : Option F
  deriving DecidableEq, Repr

def ItemNew.item {F : Type} (new : ItemNew F) (id projectId : Uuid) (kind : TaxonomyKind)
    (order : F) : Item F where
  id := id
  projectId := projectId
  kind := kind
  name := new.name
  slug := new.slug
  color := new.color
  emoji := new.emoji
  order := order
  isClosed := new.isClosed
  countsAsDone := new.countsAsDone
  isNew := new.isNew
  value := new.value

namespace Db

variable {F : Type}

/-! ## Statements on items -/

/-- `kind = 'issue_status' AND is_new IS TRUE`, in a project. -/
def isLanding (projectId : Uuid) (item : Item F) : Bool :=
  item.projectId == projectId && item.kind == .issueStatus && item.isNew == some true

def inKind (projectId : Uuid) (kind : TaxonomyKind) (item : Item F) : Bool :=
  item.projectId == projectId && item.kind == kind

/-- `new_status_id`. -/
def newStatusId (projectId : Uuid) (db : Db F) : Option Uuid :=
  (db.items.rows.find? (isLanding projectId)).map (·.id)

/-- `clear_is_new`. -/
def clearIsNew (projectId : Uuid) (db : Db F) : Db F :=
  { db with
    items := db.items.modify (isLanding projectId) (fun item => { item with isNew := some false })
      fun _ => rfl }

/-- `list`. -/
def list (ar : Arithmetic F) (projectId : Uuid) (kind : TaxonomyKind) (db : Db F) : List (Item F) :=
  (db.items.rows.filter (inKind projectId kind)).mergeSort fun a b => ar.le a.order b.order

/-- `max_order`. -/
def maxOrder (ar : Arithmetic F) (projectId : Uuid) (kind : TaxonomyKind) (db : Db F) : Option F :=
  ((db.items.rows.filter (inKind projectId kind)).map (·.order)).foldl
    (fun best order => some (best.elim order fun best => if ar.le best order then order else best))
    none

/-- A row that one of the two unique indexes does not allow beside another. -/
def clashes (row other : Item F) : Bool :=
  inKind row.projectId row.kind other && other.slug == row.slug ||
    isLanding row.projectId row && isLanding row.projectId other

/-- `INSERT INTO taxonomy_items`, in `create`. -/
def insertItem (projectId : Uuid) (kind : TaxonomyKind) (new : ItemNew F) (order : F) (db : Db F) :
    Except DbError (Item F) × Db F :=
  let item := new.item db.items.fresh projectId kind order
  if db.items.rows.any (clashes item) then (.error .uniqueViolation, db)
  else (.ok item, { db with items := db.items.insert item db.items.find?_fresh })

/-- `WHERE id = $1 AND project_id = $2 AND kind = $3`. -/
def find (projectId : Uuid) (kind : TaxonomyKind) (id : Uuid) (db : Db F) : Option (Item F) :=
  (db.items.find? id).filter (inKind projectId kind)

/-- `update`. -/
def updateItem (projectId : Uuid) (kind : TaxonomyKind) (id : Uuid) (patch : ItemPatch F)
    (db : Db F) : Except DbError (Option (Item F)) × Db F :=
  match db.find projectId kind id with
  | none => (.ok none, db)
  | some item =>
      if db.items.rows.any fun other => other.id != id && clashes (patch.apply item) other then
        (.error .uniqueViolation, db)
      else
        (.ok (some (patch.apply item)),
          { db with items := db.items.modify (·.id == id) patch.apply fun _ => rfl })

/-- `delete`, with the references that it clears. -/
def deleteItem (projectId : Uuid) (kind : TaxonomyKind) (id : Uuid) (db : Db F) : Bool × Db F :=
  match db.find projectId kind id with
  | none => (false, db)
  | some _ =>
      (true, { db with
        items := db.items.erase (·.id == id)
        issues := db.issues.modify (·.carries id)
          (fun issue => { issue with toIssueWrite := issue.without id }) fun _ => rfl
        epics := db.epics.modify (·.statusId == some id)
          (fun epic => { epic with statusId := none }) fun _ => rfl })

/-- The rank that `move_item` writes. -/
def setOrder (projectId : Uuid) (kind : TaxonomyKind) (id : Uuid) (rank : F) (db : Db F) :
    Bool × Db F :=
  match db.find projectId kind id with
  | none => (false, db)
  | some _ =>
      (true, { db with
        items := db.items.modify (·.id == id) (fun item => { item with order := rank })
          fun _ => rfl })

/-- The transaction of `renormalize_with_move`. -/
def setOrders (projectId : Uuid) (kind : TaxonomyKind) (ranks : List (Uuid × F)) (db : Db F) :
    Db F :=
  ranks.foldl (fun db rank => (db.setOrder projectId kind rank.1 rank.2).2) db

/-! ## Statements on issues and epics -/

/-- `taxonomy_reference_count`. -/
def referenceCount (id : Uuid) (db : Db F) : Nat :=
  (db.epics.rows.filter (·.statusId == some id)).length +
    (db.issues.rows.filter (·.carries id)).length

def hasItem (db : Db F) (id : Option Uuid) : Bool := id.all fun id => (db.items.find? id).isSome

/-- The foreign keys of an issue. -/
def accepts (w : IssueWrite) (db : Db F) : Bool :=
  db.hasItem w.statusId && db.hasItem w.typeId && db.hasItem w.priorityId && db.hasItem w.sizeId

/-- `(SELECT is_closed FROM taxonomy_items WHERE id = status_id) IS TRUE`. -/
def closes (db : Db F) (statusId : Option Uuid) : Bool :=
  statusId.any fun id => (db.items.find? id).any (·.isClosed == some true)

/-- `INSERT INTO issues`, in `create_issue`. -/
def insertIssue (projectId : Uuid) (w : IssueWrite) (db : Db F) : Except DbError Issue × Db F :=
  if db.accepts w then
    let issue : Issue :=
      { w with
        id := db.issues.fresh
        projectId := projectId
        version := 1
        resolvedAt := if db.closes w.statusId then some db.now else none
        deletedAt := none }
    (.ok issue, { db with issues := db.issues.insert issue db.issues.find?_fresh })
  else (.error .failed, db)

/-- `WHERE id = $1 AND project_id = $2 AND deleted_at IS NULL`. -/
def selectIssue (projectId id : Uuid) (db : Db F) : Option Issue :=
  (db.issues.find? id).filter fun issue => issue.projectId == projectId && issue.deletedAt.isNone

/-- The `SET` list of `update_issue`. -/
def written (w : IssueWrite) (db : Db F) (issue : Issue) : Issue :=
  { issue with
    toIssueWrite := w
    resolvedAt := if db.closes w.statusId then some (issue.resolvedAt.getD db.now) else none
    version := issue.version + 1 }

/-- `UPDATE issues` in `update_issue`; without a row nothing is found. -/
def updateIssue (projectId id : Uuid) (version : Nat) (w : IssueWrite) (db : Db F) :
    Except DbError (Option Issue) × Db F :=
  match (db.selectIssue projectId id).filter (·.version == version) with
  | none => (.ok none, db)
  | some issue =>
      if db.accepts w then
        (.ok (some (db.written w issue)),
          { db with issues := db.issues.modify (·.id == id) (db.written w) fun _ => rfl })
      else (.error .failed, db)

/-- `soft_delete` of an issue. -/
def softDelete (projectId id : Uuid) (db : Db F) : Bool × Db F :=
  match db.selectIssue projectId id with
  | none => (false, db)
  | some _ =>
      (true, { db with
        issues := db.issues.modify (·.id == id)
          (fun issue => { issue with deletedAt := some db.now }) fun _ => rfl })

/-- `INSERT INTO epics`, in `create_epic`. -/
def insertEpic (projectId : Uuid) (statusId : Option Uuid) (db : Db F) :
    Except DbError Epic × Db F :=
  if db.hasItem statusId then
    let epic : Epic := ⟨db.epics.fresh, projectId, statusId, 1, none⟩
    (.ok epic, { db with epics := db.epics.insert epic db.epics.find?_fresh })
  else (.error .failed, db)

def selectEpic (projectId id : Uuid) (db : Db F) : Option Epic :=
  (db.epics.find? id).filter fun epic => epic.projectId == projectId && epic.deletedAt.isNone

/-- `UPDATE epics` in `update_epic`; without a row nothing is found. -/
def updateEpic (projectId id : Uuid) (version : Nat) (statusId : Option Uuid) (db : Db F) :
    Except DbError (Option Epic) × Db F :=
  match (db.selectEpic projectId id).filter (·.version == version) with
  | none => (.ok none, db)
  | some epic =>
      if db.hasItem statusId then
        (.ok (some { epic with statusId := statusId, version := epic.version + 1 }),
          { db with
            epics := db.epics.modify (·.id == id)
              (fun epic => { epic with statusId := statusId, version := epic.version + 1 })
              fun _ => rfl })
      else (.error .failed, db)

end Db

end IntelliPilot.Taxonomy
