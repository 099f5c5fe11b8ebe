import IntelliPilot.Relational.Table

/-! # The backlog tables

The columns of `issues`, `epics` and `milestones` that the hierarchy, the
derived milestone and the delta sync are about, moments in microseconds. Texts,
people, taxonomy references and the fractional order are left out.
-/

namespace IntelliPilot.Backlog

abbrev Uuid := Nat

structure Milestone where
  id : Uuid
  projectId : Uuid
  closed : Bool
  deletedAt : Option Int
  deriving DecidableEq, Repr

structure Epic where
  id : Uuid
  projectId : Uuid
  milestoneId : Option Uuid
  version : Nat
  deletedAt : Option Int
  deriving DecidableEq, Repr

structure Issue where
  id : Uuid
  projectId : Uuid
  epicId : Option Uuid
  parentId : Option Uuid
  milestoneId : Option Uuid
  version : Nat
  modifiedAt : Int
  deletedAt : Option Int
  deriving DecidableEq, Repr

/-- `deleted_at IS NULL`. -/
def Milestone.live (milestone : Milestone) : Bool := milestone.deletedAt.isNone

def Epic.live (epic : Epic) : Bool := epic.deletedAt.isNone

def Issue.live (issue : Issue) : Bool := issue.deletedAt.isNone

/-- The backlog of all projects; `now` is the time of the transaction. -/
structure Db where
  milestones : Table Milestone.id
  epics : Table Epic.id
  issues : Table Issue.id
  now : Int

namespace Db

def empty : Db := ⟨.empty, .empty, .empty, 0⟩

def milestone? (db : Db) (id : Uuid) : Option Milestone := db.milestones.find? id

def epic? (db : Db) (id : Uuid) : Option Epic := db.epics.find? id

def issue? (db : Db) (id : Uuid) : Option Issue := db.issues.find? id

end Db

end IntelliPilot.Backlog
