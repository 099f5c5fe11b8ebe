import IntelliPilot.Auth.Environment

/-! # Session statements

The statements of `sessions.rs`. Each is one SQL statement and so runs
atomically; a failed statement changes nothing.
-/

namespace IntelliPilot.Auth

open Rows

/-- A fallible statement: on a fault the table is untouched and the caller
gets an error. -/
def attempt {α : Type} (choice : Choice) (db : Db) (run : Db → Except DbError α × Db) :
    Except DbError α × Db :=
  if choice.fault then (.error .other, db) else run db

/-- A best-effort statement, whose failure is only logged. -/
def bestEffort (choice : Choice) (db : Db) (run : Db → Db) : Unit × Db :=
  ((), if choice.fault then db else run db)

theorem attempt_error {α : Type} {choice : Choice} {db : Db}
    {run : Db → Except DbError α × Db} (h : choice.fault = true) :
    attempt choice db run = (.error .other, db) := by simp [attempt, h]

theorem attempt_ok {α : Type} {choice : Choice} {db : Db}
    {run : Db → Except DbError α × Db} (h : choice.fault = false) :
    attempt choice db run = run db := by simp [attempt, h]

/-- `sessions::RefreshLookup`. -/
structure RefreshLookup where
  tokenId : Uuid
  familyId : Uuid
  userId : Uuid
  usedAt : Option Time
  expiresAt : Time
  familyRevoked : Bool
  deriving DecidableEq, Repr

inductive SessionStmt : Type → Type where
  | createFamily (userId : Uuid) : SessionStmt (Except DbError Uuid)
  | insertToken (familyId : Uuid) (tokenHash : String) (parentId : Option Uuid)
      (expiresAt : Time) : SessionStmt (Except DbError Uuid)
  | findByHash (tokenHash : String) : SessionStmt (Except DbError (Option RefreshLookup))
  | markUsed (tokenId : Uuid) : SessionStmt (Except DbError Bool)
  | revokeFamily (familyId : Uuid) (reason : String) : SessionStmt Unit
  | revokeAllForUser (userId : Uuid) (reason : String) : SessionStmt (Except DbError Nat)
  | touchFamily (familyId : Uuid) : SessionStmt Unit

namespace Sessions

/-- `create_family`; `user_id` references `users`. -/
def createFamily (userId : Uuid) (db : Db) : Except DbError Uuid × Db :=
  if db.users.any (·.id == userId) then
    (.ok db.nextId, { db with
      families := db.families ++ [⟨db.nextId, userId, none, none, db.now⟩]
      nextId := db.nextId + 1 })
  else (.error .foreignKeyViolation, db)

/-- `insert_token`; `token_hash` is unique, `family_id` and `parent_id` are references. -/
def insertToken (familyId : Uuid) (tokenHash : String) (parentId : Option Uuid)
    (expiresAt : Time) (db : Db) : Except DbError Uuid × Db :=
  if db.tokens.any (·.tokenHash == tokenHash) then (.error .uniqueViolation, db)
  else if db.families.any (·.id == familyId) &&
      parentId.all (fun parent => db.tokens.any (·.id == parent)) then
    (.ok db.nextId, { db with
      tokens := db.tokens ++ [⟨db.nextId, familyId, tokenHash, parentId, expiresAt, none⟩]
      nextId := db.nextId + 1 })
  else (.error .foreignKeyViolation, db)

/-- `find_by_hash`: the token joined with its family. -/
def findByHash (tokenHash : String) (db : Db) : Option RefreshLookup := do
  let token ← db.tokens.find? (·.tokenHash == tokenHash)
  let family ← db.families.find? (·.id == token.familyId)
  return { tokenId := token.id, familyId := token.familyId, userId := family.userId,
           usedAt := token.usedAt, expiresAt := token.expiresAt,
           familyRevoked := family.revokedAt.isSome }

/-- The rows `mark_used` changes. -/
def unusedToken (tokenId : Uuid) (token : RefreshToken) : Bool :=
  token.id == tokenId && token.usedAt.isNone

/-- `mark_used`: whether this call performed the transition. -/
def markUsed (tokenId : Uuid) (db : Db) : Bool × Db :=
  (db.tokens.any (unusedToken tokenId),
   { db with
      tokens := updateWhere (unusedToken tokenId)
        (fun token => { token with usedAt := some db.now }) db.tokens })

/-- `UPDATE refresh_token_families SET revoked_at = now(), revoked_reason = $2
WHERE … AND revoked_at IS NULL`. -/
def revokeWhere (p : Family → Bool) (reason : String) (db : Db) : Db :=
  { db with
    families := updateWhere (fun family => p family && family.revokedAt.isNone)
      (fun family => { family with revokedAt := some db.now, revokedReason := some reason })
      db.families }

/-- How many families `revokeWhere` closes. -/
def openCount (p : Family → Bool) (db : Db) : Nat :=
  db.families.countP fun family => p family && family.revokedAt.isNone

/-- `touch_family`, without the location columns. -/
def touchFamily (familyId : Uuid) (db : Db) : Db :=
  { db with
    families := updateWhere (·.id == familyId) (fun family => { family with lastSeenAt := db.now })
      db.families }

end Sessions

/-- Whether `revoked_at` is set on a family. -/
def revoked (db : Db) (family : Uuid) : Bool :=
  (db.families.find? (·.id == family)).any (·.revokedAt.isSome)

/-- The effect of the session statements. -/
def SessionStmt.exec {β : Type} (stmt : SessionStmt β) (choice : Choice) (db : Db) : β × Db :=
  match stmt with
  | .createFamily userId => attempt choice db (Sessions.createFamily userId)
  | .insertToken familyId tokenHash parentId expiresAt =>
      attempt choice db (Sessions.insertToken familyId tokenHash parentId expiresAt)
  | .findByHash tokenHash => attempt choice db fun db =>
      (.ok (Sessions.findByHash tokenHash db), db)
  | .markUsed tokenId => attempt choice db fun db =>
      (.ok (Sessions.markUsed tokenId db).1, (Sessions.markUsed tokenId db).2)
  | .revokeFamily familyId reason =>
      bestEffort choice db (Sessions.revokeWhere (·.id == familyId) reason)
  | .revokeAllForUser userId reason => attempt choice db fun db =>
      (.ok (Sessions.openCount (·.userId == userId) db),
       Sessions.revokeWhere (·.userId == userId) reason db)
  | .touchFamily familyId => bestEffort choice db (Sessions.touchFamily familyId)

end IntelliPilot.Auth
