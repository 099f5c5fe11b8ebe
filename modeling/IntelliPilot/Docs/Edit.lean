import IntelliPilot.Text.Strings
import Mathlib.Logic.Function.Basic

/-! # Editing a documentation file

`edit_blocking` commits one file to the cached clone of a documentation source
and pushes it. Objects are content-addressed and only added, so the calls that
read and write them are functions of the library; the references are the state.
-/

namespace IntelliPilot.Docs

open Text

abbrev Bytes := List UInt8

/-! ## The library -/

/-- `git2::ErrorClass`, as far as `map_git_err` tells it apart. -/
inductive ErrorClass where
  | ssh
  | net
  | other
  deriving DecidableEq, Repr

/-- `git2::Error`. -/
structure Git2Error where
  isAuth : Bool
  cls : ErrorClass
  message : String
  deriving DecidableEq, Repr

/-- The target of a reference on disk. -/
inductive RefTarget (Oid : Type) where
  | direct (oid : Oid)
  | symbolic (name : String)
  deriving DecidableEq, Repr

/-- The references of a repository. -/
abbrev Refs (Oid : Type) := String → Option (RefTarget Oid)

/-- `git2::TreeEntry`. -/
structure TreeEntry (Oid : Type) where
  oid : Oid
  filemode : Nat
  deriving DecidableEq, Repr

structure Signature where
  name : String
  email : String
  deriving DecidableEq, Repr

/-- The calls of the library on objects. -/
structure Git (Oid Tree : Type) where
  toLowercase : String → String
  oidText : Oid → String
  /-- `Reference::peel_to_commit`. -/
  peelToCommit : Refs Oid → RefTarget Oid → Except Git2Error Oid
  /-- `Commit::tree`. -/
  commitTree : Oid → Except Git2Error Tree
  /-- `Tree::get_path`. -/
  getPath : Tree → String → Option (TreeEntry Oid)
  /-- `Tree::get_name`, where the entry is a tree. -/
  subtree : Tree → String → Option Tree
  /-- `Repository::blob`. -/
  blob : Bytes → Except Git2Error Oid
  /-- `Repository::treebuilder`, one `insert`, and `write`. -/
  buildTree : Option Tree → String → Oid → Nat → Except Git2Error Oid
  findTree : Oid → Except Git2Error Tree
  signature : String → String → Except Git2Error Signature
  /-- `Repository::commit` without a reference to update. -/
  commit : Signature → String → Tree → Oid → Except Git2Error Oid

/-- `git2::Reference`: the name and the target it was loaded with. -/
structure Reference (Oid : Type) where
  name : String
  target : RefTarget Oid
  deriving DecidableEq, Repr

/-! ## The edit -/

inductive GitError where
  | authFailed
  | notFound
  | unreachable
  | timeout
  | tooLarge
  | invalidBranch
  | internal
  deriving DecidableEq, Repr

inductive PushOutcome where
  | pushed (commit blobOid : String)
  | conflict
  | rejected (message : String)
  deriving DecidableEq, Repr

structure EditRequest where
  branch : String
  repoPath : String
  content : Bytes
  expectedBlobOid : Option String
  authorName : String
  authorEmail : String
  message : String
  deriving DecidableEq, Repr

/-- What the call meets: whether the repository opens, whether the lock of the
reference is had each time, and what the push and its callback report. -/
structure Circumstances where
  opens : Bool := true
  lockFails : Option Git2Error := none
  push : Except Git2Error Unit := .ok ()
  rejection : Option String := none
  rollbackLockFails : Option Git2Error := none

/-- `Path::extension` of the last component. -/
def pathExtension (path : String) : Option String := do
  let name ← ((split path '/').filter fun part => part != "" && part != ".").getLast?
  let parts := split name '.'
  let stem := parts.dropLast
  if stem = [] ∨ stem = [""] then none else parts.getLast?

/-- `char::is_control`. -/
def isControl (c : Char) : Bool := c.toNat < 0x20 || (0x7f ≤ c.toNat && c.toNat ≤ 0x9f)

/-- `valid_branch_name`. -/
def validBranchName (name : String) : Bool :=
  name != "" && name.utf8ByteSize ≤ 255 && !startsWith name "-" && !startsWith name "/" &&
    !endsWith name "/" && !(pathExtension name).any (Auth.eqIgnoreAsciiCase · "lock") &&
    !contains name ".." && !contains name "//" && !contains name "@\x7b" &&
    name.toList.all fun c => !isControl c && !Auth.isWhitespace c &&
      !(['~', '^', ':', '?', '*', '[', '\\', '\x7f'].contains c)

/-- `MODE_SYMLINK`. -/
def modeSymlink : Nat := 0o120000

/-- `MODE_GITLINK`. -/
def modeGitlink : Nat := 0o160000

/-- `MODE_BLOB`. -/
def modeBlob : Nat := 0o100644

def modeTree : Nat := 0o040000

section Edit

variable {Oid Tree : Type} (git : Git Oid Tree)

/-- `map_git_err`. -/
def mapGitErr (e : Git2Error) : GitError :=
  if e.isAuth then .authFailed
  else
    match e.cls with
    | .ssh => .authFailed
    | .net => .unreachable
    | .other =>
        let has := contains (git.toLowercase e.message)
        if has "not found" || has "does not exist" || has "repository not found" ||
            has "access denied" || has "err access" then .notFound
        else if has "authentication" || has "auth" || has "publickey" then .authFailed
        else if has "resolve" || has "connect" || has "timed out" || has "network" then .unreachable
        else .internal

/-- `insert_blob`: every level above the file is rewritten. -/
def insertBlob (base : Option Tree) (blob : Oid) (filemode : Nat) :
    List String → Except Git2Error Oid
  | [] => .error ⟨false, .other, "empty path"⟩
  | [name] => git.buildTree base name blob filemode
  | name :: rest => do
      let sub ← insertBlob (base.bind (git.subtree · name)) blob filemode rest
      git.buildTree base name sub modeTree

/-- An error of the library, as the edit reports it. -/
def lift {α : Type} (result : Except Git2Error α) : Except GitError α :=
  result.mapError (mapGitErr git)

/-- Where an edit stands before the branch is moved: over, or with a commit. -/
inductive Prepared (Oid : Type) where
  | over (outcome : PushOutcome)
  | committed (reference : Reference Oid) (oldTarget commit blob : Oid)
  deriving DecidableEq, Repr

variable (c : Circumstances) (refs : Refs Oid) (req : EditRequest)

/-- The branch of an edit. -/
def EditRequest.refname (req : EditRequest) : String := "refs/heads/" ++ req.branch

/-- `edit_blocking`, up to the commit. -/
def prepare : Except GitError (Prepared Oid) := do
  if !validBranchName req.branch then throw .invalidBranch
  if !c.opens then throw .notFound
  let reference ← match refs req.refname with
    | some target => pure (⟨req.refname, target⟩ : Reference Oid)
    | none => throw .notFound
  let parent ← lift git (git.peelToCommit refs reference.target)
  let tree ← lift git (git.commitTree parent)
  let current := git.getPath tree req.repoPath
  if current.any fun entry => entry.filemode == modeSymlink || entry.filemode == modeGitlink then
    return .over .conflict
  let currentOid := current.map fun entry => git.oidText entry.oid
  if currentOid ≠ req.expectedBlobOid then return .over .conflict
  let filemode := (current.map (·.filemode)).getD modeBlob
  let segments := (split req.repoPath '/').filter (· != "")
  if segments.isEmpty then throw .internal
  let blob ← lift git (git.blob req.content)
  -- identical content would be an empty commit
  if some (git.oidText blob) = currentOid then
    return .over (.pushed (git.oidText parent) (git.oidText blob))
  let newTreeOid ← lift git (insertBlob git (some tree) blob filemode segments)
  let newTree ← lift git (git.findTree newTreeOid)
  let sig ← lift git (git.signature req.authorName req.authorEmail)
  let commit ← lift git (git.commit sig req.message newTree parent)
  return .committed reference parent commit blob

variable [DecidableEq Oid]

/-- `Reference::set_target`: writes the reference only while it has on disk the
target it was loaded with. The loaded reference itself is not changed. -/
def Reference.setTarget (reference : Reference Oid) (oid : Oid) (failure : Option Git2Error)
    (refs : Refs Oid) : Except Git2Error (Reference Oid) × Refs Oid :=
  match reference.target with
  | .symbolic _ => (.error ⟨false, .other, "cannot set OID on symbolic reference"⟩, refs)
  | .direct old =>
      if refs reference.name = some (.direct old) then
        match failure with
        | some e => (.error e, refs)
        | none => (.ok ⟨reference.name, .direct oid⟩,
            Function.update refs reference.name (some (.direct oid)))
      else (.error ⟨false, .other, "old reference value does not match"⟩, refs)

/-- `rollback`, whose failure is dropped. -/
def rollback (reference : Reference Oid) (old : Oid) : Refs Oid :=
  (reference.setTarget old c.rollbackLockFails refs).2

/-- The end of `edit_blocking`: the push of the moved branch, and what is made
of its result. -/
def finishPush (reference : Reference Oid) (oldTarget commit blob : Oid) :
    Except GitError PushOutcome × Refs Oid :=
  match c.push, c.rejection with
  | .ok _, none => (.ok (.pushed (git.oidText commit) (git.oidText blob)), refs)
  | .ok _, some message => (.ok (.rejected message), rollback c refs reference oldTarget)
  | .error e, none => (.error (mapGitErr git e), rollback c refs reference oldTarget)
  -- a transport-level refusal is still a refusal
  | .error _, some message => (.ok (.rejected message), rollback c refs reference oldTarget)

/-- `edit_blocking`. -/
def editBlocking : Except GitError PushOutcome × Refs Oid :=
  match prepare git c refs req with
  | .error e => (.error e, refs)
  | .ok (.over outcome) => (.ok outcome, refs)
  | .ok (.committed reference oldTarget commit blob) =>
      match reference.setTarget commit c.lockFails refs with
      | (.error e, refs) => (.error (mapGitErr git e), refs)
      | (.ok _, refs) => finishPush git c refs reference oldTarget commit blob

end Edit

end IntelliPilot.Docs
