import IntelliPilot.Search.Index
import IntelliPilot.Text.Patterns

/-! # What issues are filtered by

The tables that the issue list, the board and the personal feed read, and what
the caller may ask for.
-/

namespace IntelliPilot.Filters

open Projects (Uuid Membership)
open Projects.Activity (Comment TargetType)
open Search (WorkItem Entry)

/-! ## Tables -/

/-- A row of `issues`. -/
structure Issue extends WorkItem where
  statusId : Option Uuid
  typeId : Option Uuid
  priorityId : Option Uuid
  sizeId : Option Uuid
  epicId : Option Uuid
  parentId : Option Uuid
  milestoneId : Option Uuid
  ownerId : Option Uuid
  assignedTo : Option Uuid
  qaAssigneeId : Option Uuid
  reviewerId : Option Uuid
  category : Option String
  dueDate : Option Int
  releaseVersionId : Option Uuid
  order : Rat
  createdAt : Int
  modifiedAt : Int
  deriving DecidableEq, Repr

def Issue.key (issue : Issue) : Uuid := issue.id

structure TaxonomyItem where
  id : Uuid
  name : String
  isClosed : Option Bool
  deriving DecidableEq, Repr

structure ReleaseVersion where
  id : Uuid
  releaseId : Uuid
  deriving DecidableEq, Repr

structure Project where
  id : Uuid
  slug : String
  name : String
  issuePrefix : String
  isPrivate : Bool
  deletedAt : Option Int
  deriving DecidableEq, Repr

structure User where
  id : Uuid
  username : String
  isSuperadmin : Bool
  deriving DecidableEq, Repr

/-- The database; `today` is `CURRENT_DATE`. -/
structure Database where
  issues : Table Issue.key
  comments : Table Comment.id
  searchIndex : Table Entry.key
  issueLabels : List (Uuid × Uuid)
  issueComponents : List (Uuid × Uuid)
  issueCustomers : List (Uuid × Uuid)
  issueWatchers : List (Uuid × Uuid)
  taxonomyItems : Table TaxonomyItem.id
  releaseVersions : Table ReleaseVersion.id
  projects : Table Project.id
  memberships : List Membership
  users : Table User.id
  today : Int

/-! ## Requests -/

/-- The dimensions that a list of issues may be narrowed by. -/
structure IssueQuery where
  search : Option String
  statusId : Option Uuid
  typeId : Option Uuid
  priorityId : Option Uuid
  sizeId : Option Uuid
  category : Option String
  assigneeMode : Option String
  assigneeId : Option Uuid
  qaAssigneeMode : Option String
  qaAssigneeId : Option Uuid
  epicMode : Option String
  epicId : Option Uuid
  milestoneMode : Option String
  milestoneId : Option Uuid
  labelId : Option Uuid
  componentId : Option Uuid
  overdue : Bool
  involvedMode : Option String
  involvedId : Option Uuid
  releaseMode : Option String
  releaseId : Option Uuid
  customerMode : Option String
  customerIds : Option (List Uuid)
  myRole : Option String
  actorId : Option Uuid
  mentionLike : Option String
  deriving DecidableEq, Repr

/-- `IssueQuery::default`. -/
def IssueQuery.none : IssueQuery where
  search := .none
  statusId := .none
  typeId := .none
  priorityId := .none
  sizeId := .none
  category := .none
  assigneeMode := .none
  assigneeId := .none
  qaAssigneeMode := .none
  qaAssigneeId := .none
  epicMode := .none
  epicId := .none
  milestoneMode := .none
  milestoneId := .none
  labelId := .none
  componentId := .none
  overdue := false
  involvedMode := .none
  involvedId := .none
  releaseMode := .none
  releaseId := .none
  customerMode := .none
  customerIds := .none
  myRole := .none
  actorId := .none
  mentionLike := .none

/-- The pattern for a text that is searched for, which is not escaped. -/
def searchLike (search : Option String) : Option String :=
  search.map fun s => String.ofList ('%' :: (s.toList ++ ['%']))

/-- `mention_pattern`. -/
def mentionPattern (username : String) : String :=
  String.ofList ('%' :: '@' :: (Text.likeEscape username.toList ++ ['%']))

end IntelliPilot.Filters
