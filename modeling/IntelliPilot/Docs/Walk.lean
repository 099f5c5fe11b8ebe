import IntelliPilot.Boards.Keys
import IntelliPilot.Docs.Edit
import IntelliPilot.Relational.Table

/-! # Listing a documentation source

`walk` collects the documents of a tree and the directories that hold some. A
directory is listed before what lies in it is known, and dropped again if
nothing of it came to be listed. The entries listed so far count against one
cap, the nesting against another.
-/

namespace IntelliPilot.Docs

/-- `git2::ObjectType`, of what an entry of a tree can name. -/
inductive ObjectType where
  | tree
  | blob
  | commit
  deriving DecidableEq, Repr

/-- An entry of a tree; names are bytes. -/
structure Entry (Oid : Type) where
  name : Bytes
  oid : Oid
  filemode : Nat
  deriving DecidableEq, Repr

/-- `TreeEntry::kind`. -/
def kindOf (filemode : Nat) : ObjectType :=
  if filemode &&& 0o170000 = modeTree then .tree
  else if filemode &&& 0o170000 = modeGitlink then .commit
  else .blob

def Entry.kind {Oid : Type} (entry : Entry Oid) : ObjectType := kindOf entry.filemode

/-- A tree object: its entries have different names, none of them empty. -/
structure Tree (Oid : Type) where
  entries : Table (@Entry.name Oid)
  named : ∀ entry ∈ entries.rows, entry.name ≠ []

/-- The objects that can be read: trees, and the sizes of blobs. -/
structure Objects (Oid : Type) where
  tree? : Oid → Option (Tree Oid)
  blobSize? : Oid → Option Nat

/-- `TreeEntry::name`, where the name is UTF-8. -/
def utf8 (name : Bytes) : Option String := String.fromUTF8? ⟨name.toArray⟩

structure RawEntry where
  path : String
  name : String
  isDir : Bool
  size : Nat
  deriving DecidableEq, Repr

/-- `MAX_TREE_ENTRIES`. -/
def maxTreeEntries : Nat := 20000

/-- `MAX_TREE_DEPTH`. -/
def maxTreeDepth : Nat := 24

/-- `str::rsplit_once`, at a dot. -/
def rsplitOnceDot (name : String) : Option (String × String) :=
  let parts := Text.split name '.'
  match parts.getLast? with
  | some ext =>
      if parts.length ≤ 1 then none else some (String.intercalate "." parts.dropLast, ext)
  | none => none

def hasAllowedExt (name : String) (allowed : List String) : Bool :=
  match rsplitOnceDot name with
  | none => false
  | some (stem, ext) => stem != "" && allowed.contains (Boards.toAsciiLowercase ext)

/-- The path of a name under a prefix. -/
def joinPath (pre name : String) : String := if pre = "" then name else pre ++ "/" ++ name

section Walk

variable {Oid : Type} (objects : Objects Oid) (allowedExt : List String)

/-- One turn of the loop of `walk`, where `descend` walks a subtree. -/
def visit (descend : Tree Oid → String → List RawEntry → List RawEntry) (pre : String)
    (out : List RawEntry) (entry : Entry Oid) : List RawEntry :=
  if maxTreeEntries ≤ out.length then out
  else if entry.filemode = modeSymlink ∨ entry.filemode = modeGitlink then out
  else
    match utf8 entry.name with
    | none => out
    | some name =>
        match entry.kind with
        | .tree =>
            match objects.tree? entry.oid with
            | none => out
            | some sub =>
                let walked := descend sub (joinPath pre name)
                  (out ++ [⟨joinPath pre name, name, true, 0⟩])
                -- a directory without documents is dropped again
                if walked.length = out.length + 1 then walked.take out.length else walked
        | .blob =>
            if hasAllowedExt name allowedExt then
              out ++ [⟨joinPath pre name, name, false, (objects.blobSize? entry.oid).getD 0⟩]
            else out
        | .commit => out

/-- `walk`, where so many levels remain until the nesting is deeper than the cap. -/
def walk : Nat → Tree Oid → String → List RawEntry → List RawEntry
  | 0, _, _, out => out
  | levels + 1, tree, pre, out =>
      if maxTreeEntries ≤ out.length then out
      else tree.entries.rows.foldl (visit objects allowedExt (walk levels) pre) out

/-- The walk of `read_tree_blocking`, from the root at depth 0. -/
def listing (root : Tree Oid) : List RawEntry :=
  walk objects allowedExt (maxTreeDepth + 1) root "" []

end Walk

/-! ## What is listed -/

/-- The path leads to the entry, from a tree that lies at a prefix. -/
inductive Located {Oid : Type} (objects : Objects Oid) :
    Tree Oid → String → String → Entry Oid → Prop where
  | here {tree : Tree Oid} {pre name : String} {entry : Entry Oid}
      (hentry : entry ∈ tree.entries.rows) (hname : utf8 entry.name = some name) :
      Located objects tree pre (joinPath pre name) entry
  | inside {tree sub : Tree Oid} {pre name path : String} {dir entry : Entry Oid}
      (hdir : dir ∈ tree.entries.rows) (hname : utf8 dir.name = some name)
      (hkind : dir.kind = .tree) (hsub : objects.tree? dir.oid = some sub)
      (hbelow : Located objects sub (joinPath pre name) path entry) :
      Located objects tree pre path entry

/-- What a listed entry stands for: a directory, or a document of an allowed extension. -/
structure Lists {Oid : Type} (objects : Objects Oid) (allowedExt : List String) (root : Tree Oid)
    (pre : String) (e : RawEntry) : Prop where
  entry : ∃ entry, Located objects root pre e.path entry ∧ utf8 entry.name = some e.name ∧
    entry.filemode ≠ modeSymlink ∧ entry.filemode ≠ modeGitlink ∧
    entry.kind = if e.isDir then .tree else .blob
  document : e.isDir = false → hasAllowedExt e.name allowedExt = true

/-- The path lies below a directory. -/
def Below (dir path : String) : Prop := ∃ rest, path = dir ++ "/" ++ rest

/-- A list of entries that is well formed. -/
structure WellFormed {Oid : Type} (objects : Objects Oid) (allowedExt : List String)
    (root : Tree Oid) (out : List RawEntry) : Prop where
  capped : out.length ≤ maxTreeEntries
  lists : ∀ e ∈ out, Lists objects allowedExt root "" e
  /-- What is not in the root has its parent directory listed. -/
  parents : ∀ e ∈ out, e.path = e.name ∨
    ∃ dir ∈ out, dir.isDir = true ∧ e.path = dir.path ++ "/" ++ e.name
  /-- A directory has a document below it. -/
  documents : ∀ dir ∈ out, dir.isDir = true →
    ∃ e ∈ out, e.isDir = false ∧ Below dir.path e.path

/-- What the walk of a tree adds to the list. -/
structure Adds {Oid : Type} (objects : Objects Oid) (allowedExt : List String) (tree : Tree Oid)
    (pre : String) (added : List RawEntry) : Prop where
  lists : ∀ e ∈ added, Lists objects allowedExt tree pre e
  under : ∀ e ∈ added, ∃ rest, e.path = joinPath pre rest
  parents : ∀ e ∈ added, e.path = joinPath pre e.name ∨
    ∃ dir ∈ added, dir.isDir = true ∧ e.path = dir.path ++ "/" ++ e.name
  documents : ∀ dir ∈ added, dir.isDir = true →
    ∃ e ∈ added, e.isDir = false ∧ Below dir.path e.path

section Adds

variable {Oid : Type} {objects : Objects Oid} {allowedExt : List String} {tree : Tree Oid}
  {pre : String}

theorem adds_nil : Adds objects allowedExt tree pre [] where
  lists _ he := absurd he List.not_mem_nil
  under _ he := absurd he List.not_mem_nil
  parents _ he := absurd he List.not_mem_nil
  documents _ he := absurd he List.not_mem_nil

theorem Adds.append {first second : List RawEntry}
    (hfirst : Adds objects allowedExt tree pre first)
    (hsecond : Adds objects allowedExt tree pre second) :
    Adds objects allowedExt tree pre (first ++ second) := by
  constructor
  · intro e he
    rcases List.mem_append.mp he with he | he
    · exact hfirst.lists e he
    · exact hsecond.lists e he
  · intro e he
    rcases List.mem_append.mp he with he | he
    · exact hfirst.under e he
    · exact hsecond.under e he
  · intro e he
    rcases List.mem_append.mp he with he | he
    · rcases hfirst.parents e he with htop | ⟨dir, hdir, hparent⟩
      · exact .inl htop
      · exact .inr ⟨dir, List.mem_append_left _ hdir, hparent⟩
    · rcases hsecond.parents e he with htop | ⟨dir, hdir, hparent⟩
      · exact .inl htop
      · exact .inr ⟨dir, List.mem_append_right _ hdir, hparent⟩
  · intro dir hdir hisDir
    rcases List.mem_append.mp hdir with hdir | hdir
    · obtain ⟨e, he, hdocument⟩ := hfirst.documents dir hdir hisDir
      exact ⟨e, List.mem_append_left _ he, hdocument⟩
    · obtain ⟨e, he, hdocument⟩ := hsecond.documents dir hdir hisDir
      exact ⟨e, List.mem_append_right _ he, hdocument⟩

/-- A list that is not empty has a document. -/
theorem Adds.exists_document {added : List RawEntry}
    (hadds : Adds objects allowedExt tree pre added) (hne : added ≠ []) :
    ∃ e ∈ added, e.isDir = false := by
  obtain ⟨e, he⟩ := List.exists_mem_of_ne_nil added hne
  cases hdir : e.isDir with
  | false => exact ⟨e, he, hdir⟩
  | true =>
    obtain ⟨document, hdocument, hisDir, _⟩ := hadds.documents e he hdir
    exact ⟨document, hdocument, hisDir⟩

/-- A name in a tree is not empty. -/
theorem utf8_ne_empty {bytes : Bytes} {name : String} (hbytes : bytes ≠ [])
    (hname : utf8 bytes = some name) : name ≠ "" := by
  rintro rfl
  unfold utf8 String.fromUTF8? at hname
  split at hname
  · have hempty : ByteArray.mk bytes.toArray = ByteArray.empty :=
      congrArg String.toByteArray (Option.some.inj hname)
    have harray : bytes.toArray = #[] := congrArg ByteArray.data hempty
    exact hbytes (congrArg Array.toList harray)
  · cases hname

theorem joinPath_ne_empty {name : String} (hname : name ≠ "") : joinPath pre name ≠ "" := by
  unfold joinPath
  split
  · exact hname
  · intro heq
    have hlength := congrArg (fun s : String => s.toList.length) heq
    simp [String.toList_append] at hlength

/-- A document that is listed. -/
theorem adds_document {entry : Entry Oid} {name : String} {size : Nat}
    (hentry : entry ∈ tree.entries.rows) (hname : utf8 entry.name = some name)
    (hsymlink : entry.filemode ≠ modeSymlink) (hgitlink : entry.filemode ≠ modeGitlink)
    (hkind : entry.kind = .blob) (hext : hasAllowedExt name allowedExt = true) :
    Adds objects allowedExt tree pre [⟨joinPath pre name, name, false, size⟩] := by
  constructor
  · intro e he
    obtain rfl := List.mem_singleton.mp he
    exact ⟨⟨entry, .here hentry hname, hname, hsymlink, hgitlink, hkind⟩, fun _ => hext⟩
  · intro e he
    obtain rfl := List.mem_singleton.mp he
    exact ⟨name, rfl⟩
  · intro e he
    obtain rfl := List.mem_singleton.mp he
    exact .inl rfl
  · intro dir hdir hisDir
    obtain rfl := List.mem_singleton.mp hdir
    cases hisDir

/-- A directory that is listed with what was found in it. -/
theorem adds_directory {entry : Entry Oid} {sub : Tree Oid} {name : String}
    {added : List RawEntry} (hentry : entry ∈ tree.entries.rows)
    (hname : utf8 entry.name = some name) (hsymlink : entry.filemode ≠ modeSymlink)
    (hgitlink : entry.filemode ≠ modeGitlink) (hkind : entry.kind = .tree)
    (hsub : objects.tree? entry.oid = some sub)
    (hadds : Adds objects allowedExt sub (joinPath pre name) added) (hne : added ≠ []) :
    Adds objects allowedExt tree pre (⟨joinPath pre name, name, true, 0⟩ :: added) := by
  have hpath : joinPath pre name ≠ "" :=
    joinPath_ne_empty (utf8_ne_empty (tree.named entry hentry) hname)
  have hjoin : ∀ rest, joinPath (joinPath pre name) rest = joinPath pre name ++ "/" ++ rest :=
    fun rest => if_neg hpath
  constructor
  · intro e he
    rcases List.mem_cons.mp he with rfl | he
    · exact ⟨⟨entry, .here hentry hname, hname, hsymlink, hgitlink, hkind⟩, fun h => by cases h⟩
    · obtain ⟨⟨found, hlocated, hfound⟩, hdocument⟩ := hadds.lists e he
      exact ⟨⟨found, .inside hentry hname hkind hsub hlocated, hfound⟩, hdocument⟩
  · intro e he
    rcases List.mem_cons.mp he with rfl | he
    · exact ⟨name, rfl⟩
    · obtain ⟨rest, hrest⟩ := hadds.under e he
      refine ⟨name ++ "/" ++ rest, ?_⟩
      rw [hrest, hjoin]
      unfold joinPath
      split
      · rfl
      · simp only [String.append_assoc]
  · intro e he
    rcases List.mem_cons.mp he with rfl | he
    · exact .inl rfl
    · right
      rcases hadds.parents e he with htop | ⟨dir, hdir, hparent⟩
      · exact ⟨_, List.mem_cons_self, rfl, by rw [htop, hjoin]⟩
      · exact ⟨dir, List.mem_cons_of_mem _ hdir, hparent⟩
  · intro dir hdir hisDir
    rcases List.mem_cons.mp hdir with rfl | hdir
    · obtain ⟨e, he, hdocument⟩ := hadds.exists_document hne
      obtain ⟨rest, hrest⟩ := hadds.under e he
      exact ⟨e, List.mem_cons_of_mem _ he, hdocument, rest, by rw [hrest, hjoin]⟩
    · obtain ⟨e, he, hdocument⟩ := hadds.documents dir hdir hisDir
      exact ⟨e, List.mem_cons_of_mem _ he, hdocument⟩

end Adds

/-! ## The walk -/

section Walked

variable {Oid : Type} {objects : Objects Oid} {allowedExt : List String}

/-- A walk adds to the list, up to the cap. -/
def Walks (objects : Objects Oid) (allowedExt : List String)
    (descend : Tree Oid → String → List RawEntry → List RawEntry) : Prop :=
  ∀ tree pre out, out.length ≤ maxTreeEntries →
    (descend tree pre out).length ≤ maxTreeEntries ∧
      ∃ added, descend tree pre out = out ++ added ∧ Adds objects allowedExt tree pre added

/-- What one turn of the loop adds. -/
theorem visit_adds {descend : Tree Oid → String → List RawEntry → List RawEntry}
    (hdescend : Walks objects allowedExt descend) {tree : Tree Oid} {pre : String}
    {out : List RawEntry} {entry : Entry Oid} (hentry : entry ∈ tree.entries.rows)
    (hout : out.length ≤ maxTreeEntries) :
    (visit objects allowedExt descend pre out entry).length ≤ maxTreeEntries ∧
      ∃ added, visit objects allowedExt descend pre out entry = out ++ added ∧
        Adds objects allowedExt tree pre added := by
  have hsame : out.length ≤ maxTreeEntries ∧
      ∃ added, out = out ++ added ∧ Adds objects allowedExt tree pre added :=
    ⟨hout, [], (List.append_nil out).symm, adds_nil⟩
  unfold visit
  split
  · exact hsame
  · rename_i hroom
    split
    · exact hsame
    · rename_i hmode
      obtain ⟨hsymlink, hgitlink⟩ := not_or.mp hmode
      cases hname : utf8 entry.name with
      | none => exact hsame
      | some name =>
        cases hkind : entry.kind with
        | commit => exact hsame
        | blob =>
          dsimp only
          split
          · rename_i hext
            refine ⟨?_, _, rfl, adds_document hentry hname hsymlink hgitlink hkind hext⟩
            rw [List.length_append, List.length_singleton]
            omega
          · exact hsame
        | tree =>
          cases hsub : objects.tree? entry.oid with
          | none => exact hsame
          | some sub =>
            dsimp only
            have hpushed : (out ++ [(⟨joinPath pre name, name, true, 0⟩ : RawEntry)]).length ≤
                maxTreeEntries := by
              rw [List.length_append, List.length_singleton]
              omega
            obtain ⟨hlength, added, hwalked, hadds⟩ :=
              hdescend sub (joinPath pre name) _ hpushed
            rw [hwalked] at hlength ⊢
            split
            · rw [List.append_assoc, List.take_left]
              exact hsame
            · rename_i hkept
              have hne : added ≠ [] := by
                rintro rfl
                apply hkept
                simp
              refine ⟨hlength, ⟨joinPath pre name, name, true, 0⟩ :: added, by simp, ?_⟩
              exact adds_directory hentry hname hsymlink hgitlink hkind hsub hadds hne

theorem walk_adds (levels : Nat) : Walks objects allowedExt (walk objects allowedExt levels) := by
  induction levels with
  | zero =>
    intro tree pre out hout
    exact ⟨hout, [], (List.append_nil out).symm, adds_nil⟩
  | succ levels ih =>
    intro tree pre out hout
    rw [walk]
    split
    · exact ⟨hout, [], (List.append_nil out).symm, adds_nil⟩
    · have hrows : ∀ rows : List (Entry Oid), (∀ entry ∈ rows, entry ∈ tree.entries.rows) →
          ∀ out : List RawEntry, out.length ≤ maxTreeEntries →
          (rows.foldl (visit objects allowedExt (walk objects allowedExt levels) pre)
              out).length ≤ maxTreeEntries ∧
            ∃ added,
              rows.foldl (visit objects allowedExt (walk objects allowedExt levels) pre) out =
                out ++ added ∧ Adds objects allowedExt tree pre added := by
        intro rows
        induction rows with
        | nil => exact fun _ out hout => ⟨hout, [], (List.append_nil out).symm, adds_nil⟩
        | cons entry rest ihrows =>
          intro hmem out hout
          obtain ⟨hlength, first, hfirst, haddsFirst⟩ :=
            visit_adds ih (hmem entry List.mem_cons_self) hout
          rw [List.foldl_cons]
          obtain ⟨htotal, second, hsecond, haddsSecond⟩ := ihrows
            (fun entry hentry => hmem entry (List.mem_cons_of_mem _ hentry)) _ hlength
          refine ⟨htotal, first ++ second, ?_, haddsFirst.append haddsSecond⟩
          rw [hsecond, hfirst, List.append_assoc]
      exact hrows tree.entries.rows (fun _ hentry => hentry) out hout

/-- The listing of a source is well formed, wherever a cap cuts the walk short. -/
theorem listing_wellFormed (objects : Objects Oid) (allowedExt : List String) (root : Tree Oid) :
    WellFormed objects allowedExt root (listing objects allowedExt root) := by
  obtain ⟨hlength, added, hwalked, hadds⟩ :=
    @walk_adds Oid objects allowedExt (maxTreeDepth + 1) root "" [] (Nat.zero_le _)
  rw [List.nil_append] at hwalked
  rw [listing, hwalked]
  rw [hwalked] at hlength
  exact ⟨hlength, hadds.lists, hadds.parents, hadds.documents⟩

end Walked

end IntelliPilot.Docs
