import IntelliPilot.Backlog.IssueHandlers

/-! # The issue delta

`issues_delta` and the query behind it, the calls of a client that passes on
the cursor it was given, and what the client holds after each answer.
-/

namespace IntelliPilot.Backlog

/-- `DELTA_OVERLAP_SECS`, `DELTA_PAGE_LIMIT` and `ERASE_GRACE_DAYS`. -/
def deltaOverlap : Int := 5 * 1000000

def deltaPageLimit : Nat := 500

def eraseGrace : Int := 30 * 24 * 60 * 60 * 1000000

/-- `ORDER BY modified_at, id`. -/
def modifiedLE (a b : Issue) : Bool :=
  decide (a.modifiedAt < b.modifiedAt ∨ a.modifiedAt = b.modifiedAt ∧ a.id ≤ b.id)

/-- The live issues of a project in the order of their last change. -/
def liveByModified (db : Db) (projectId : Uuid) : List Issue :=
  (db.issues.rows.filter (inProject projectId)).mergeSort modifiedLE

/-- `WHERE project_id = $1 AND deleted_at IS NOT NULL`. -/
def deletedIn (projectId : Uuid) (issue : Issue) : Bool :=
  issue.projectId == projectId && !issue.live

/-- `ORDER BY modified_at`; `tie` is the order in which the rows of one moment
happen to come. -/
def deletedByModified (tie : Issue → Nat) (db : Db) (projectId : Uuid) : List Issue :=
  (db.issues.rows.filter (deletedIn projectId)).mergeSort fun a b =>
    decide (a.modifiedAt < b.modifiedAt ∨ a.modifiedAt = b.modifiedAt ∧ tie a ≤ tie b)

/-- `WHERE modified_at > $2 … LIMIT $3`. -/
def newerThan (since : Int) (limit : Nat) (issues : List Issue) : List Issue :=
  (issues.filter fun issue => decide (since < issue.modifiedAt)).take limit

structure IssueTombstone where
  id : Uuid
  modifiedAt : Int
  deriving DecidableEq, Repr

structure IssueDelta where
  issues : List Issue
  tombstones : List IssueTombstone
  cursor : Int
  hasMore : Bool
  deriving DecidableEq, Repr

/-- `list_issues_delta`; `db.now` is the clock read before the rows. -/
def listIssuesDelta (tie : Issue → Nat) (db : Db) (projectId : Uuid) (since : Int) (limit : Nat) : IssueDelta :=
  let issues := newerThan since limit (liveByModified db projectId)
  let hasMore := decide (limit ≤ issues.length)
  { issues := issues
    tombstones := (newerThan since limit (deletedByModified tie db projectId)).map
      fun issue => ⟨issue.id, issue.modifiedAt⟩
    cursor := if hasMore then issues.getLast?.elim db.now (·.modifiedAt) else db.now
    hasMore := hasMore }

namespace Api

open Http

inductive DeltaAnswer where
  | problem (problem : Problem)
  | delta (delta : IssueDelta)
  deriving DecidableEq, Repr

def invalidSince : Problem :=
  ⟨400, "invalid_since", "Invalid Cursor", some "`since` must be an RFC 3339 timestamp"⟩

def resyncRequired : Problem :=
  ⟨410, "resync_required", "Resync Required",
    some "cursor is older than the deletion grace window; reload fully"⟩

/-- `issues_delta`; `since` is `none` where the parameter does not parse. -/
def issuesDelta (tie : Issue → Nat) (projectId : Uuid) (since : Option Int) (db : Db) : DeltaAnswer :=
  match since with
  | none => .problem invalidSince
  | some since =>
      if since < db.now - eraseGrace then .problem resyncRequired
      else .delta (listIssuesDelta tie db projectId (since - deltaOverlap) deltaPageLimit)

end Api

/-! ## A client that follows the cursor -/

/-- The tables at a moment when nothing has been written since. -/
def Db.at (db : Db) (now : Int) : Db := { db with now := now }

section Calls

variable (tie : Issue → Nat) (db : Db) (projectId : Uuid) (clock : Nat → Int) (since : Int)

/-- The cursor that call `n` passes, as long as the calls go on. -/
def cursorAt : Nat → Option Int
  | 0 => some since
  | n + 1 =>
      (cursorAt n).bind fun cursor =>
        match Api.issuesDelta tie projectId (some cursor) (db.at (clock n)) with
        | .delta delta => if delta.hasMore then some delta.cursor else none
        | .problem _ => none

/-- What call `n` is answered. -/
def answerAt (n : Nat) : Option Api.DeltaAnswer :=
  (cursorAt tie db projectId clock since n).map fun cursor =>
    Api.issuesDelta tie projectId (some cursor) (db.at (clock n))

def deltaAt (n : Nat) : Option IssueDelta :=
  (answerAt tie db projectId clock since n).bind fun answer =>
    match answer with
    | .delta delta => some delta
    | .problem _ => none

/-- The issues that calls before `n` have delivered. -/
def deliveredBefore (n : Nat) : List Issue :=
  (List.range n).flatMap fun i =>
    ((deltaAt tie db projectId clock since i).map (·.issues)).getD []

/-- The issues newer than `since` that have not been delivered before call `n`. -/
def undelivered (n : Nat) : List Issue :=
  (liveByModified db projectId).filter fun issue =>
    decide (since - deltaOverlap < issue.modifiedAt ∧
      issue ∉ deliveredBefore tie db projectId clock since n)

/-- The rounds end: some answer has `has_more = false`. -/
def Completes : Prop :=
  ∃ n delta, deltaAt tie db projectId clock since n = some delta ∧ delta.hasMore = false

/-- What the client holds before call `n`: it upserts the issues of an answer
and drops its tombstones. -/
def heldAt (held : Uuid → Option Issue) : Nat → Uuid → Option Issue
  | 0 => held
  | n + 1 => fun id =>
      match deltaAt tie db projectId clock since n with
      | none => heldAt held n id
      | some delta =>
          if (delta.tombstones.map (·.id)).contains id then none
          else (delta.issues.find? (·.id == id)).or (heldAt held n id)

end Calls

end IntelliPilot.Backlog
