import IntelliPilot.Docs.Walk

/-! # What a written file leaves of a tree

`insert_blob` writes every tree above the file anew and takes over what else
they hold. Where a name above the file is not that of a directory, it begins an
empty one in its place.
-/

namespace IntelliPilot.Docs

variable {Oid : Type}

/-- The bytes of a name. -/
def encode (name : String) : Bytes := name.toUTF8.data.toList

section Lookup

variable (git : Git Oid (Tree Oid))

/-- The directory of a name, where it can be read. -/
def subtreeAt (tree : Tree Oid) (name : Bytes) : Option (Tree Oid) :=
  (tree.entries.find? name).bind fun entry =>
    if entry.kind = .tree then (git.findTree entry.oid).toOption else none

theorem kindOf_modeTree : kindOf modeTree = .tree := by decide

theorem kind_directory (name : Bytes) (oid : Oid) :
    (⟨name, oid, modeTree⟩ : Entry Oid).kind = .tree := kindOf_modeTree

/-- The entry a path leads to. -/
def entryAt : Tree Oid → List Bytes → Option (Entry Oid)
  | _, [] => none
  | tree, [name] => tree.entries.find? name
  | tree, name :: next :: rest => (subtreeAt git tree name).bind (entryAt · (next :: rest))

/-- What the calls of the library on trees do. -/
structure Reads : Prop where
  /-- `Tree::get_name` and `TreeEntry::to_object`, for an entry that is a tree. -/
  subtree : ∀ tree name, git.subtree tree name = subtreeAt git tree (encode name)
  /-- A tree that was built has the inserted entry, and the others of its base. -/
  built : ∀ {base : Option (Tree Oid)} {name : String} {oid : Oid} {mode : Nat} {root : Oid},
    git.buildTree base name oid mode = .ok root →
      ∃ tree, git.findTree root = .ok tree ∧ ∀ other, tree.entries.find? other =
        if other = encode name then some ⟨encode name, oid, mode⟩
        else base.bind (·.entries.find? other)

/-- The file is at its path, and every other file, symlink or submodule where it was. -/
structure WritesOnly (tree written : Tree Oid) (path : List Bytes) (blob : Oid) (filemode : Nat) :
    Prop where
  blob : ∃ name, entryAt git written path = some ⟨name, blob, filemode⟩
  others : ∀ other entry, entryAt git tree other = some entry → entry.kind ≠ .tree →
    other ≠ path → entryAt git written other = some entry

/-- No file, symlink or submodule lies above the path or below it. -/
def Clear (tree : Tree Oid) (path : List Bytes) : Prop :=
  ∀ other entry, entryAt git tree other = some entry → entry.kind ≠ .tree → other ≠ path →
    ¬ other <+: path ∧ ¬ path <+: other

end Lookup

/-! ## One level -/

section Level

variable {git : Git Oid (Tree Oid)} {tree : Tree Oid}

@[simp] theorem entryAt_single (name : Bytes) :
    entryAt git tree [name] = tree.entries.find? name := rfl

variable {name : Bytes}

theorem entryAt_cons {rest : List Bytes} (hrest : rest ≠ []) :
    entryAt git tree (name :: rest) = (subtreeAt git tree name).bind (entryAt git · rest) := by
  cases rest with
  | nil => exact absurd rfl hrest
  | cons next rest => rfl

/-- Below an entry that is no directory there is nothing. -/
theorem entryAt_below_file {entry : Entry Oid} {rest : List Bytes}
    (hentry : tree.entries.find? name = some entry) (hkind : entry.kind ≠ .tree)
    (hrest : rest ≠ []) : entryAt git tree (name :: rest) = none := by
  rw [entryAt_cons hrest, subtreeAt, hentry]
  simp [hkind]

/-- What lies below one name is the same where the name leads to the same entry. -/
theorem entryAt_same_name {other : Tree Oid} (rest : List Bytes)
    (hname : tree.entries.find? name = other.entries.find? name) :
    entryAt git tree (name :: rest) = entryAt git other (name :: rest) := by
  cases rest with
  | nil => exact hname
  | cons next rest =>
    rw [entryAt_cons (by simp), entryAt_cons (by simp), subtreeAt, subtreeAt, hname]

end Level

/-! ## The written tree -/

section Inserted

variable {git : Git Oid (Tree Oid)}

/-- What the tree holds that was written over a base, for the path of the file. -/
structure Inserted (git : Git Oid (Tree Oid)) (base : Option (Tree Oid)) (written : Tree Oid)
    (path : List Bytes) (blob : Oid) (filemode : Nat) : Prop where
  blob : ∃ name, entryAt git written path = some ⟨name, blob, filemode⟩
  above : ∀ other, other <+: path → other ≠ [] → other ≠ path →
    ∃ dir, entryAt git written other = some dir ∧ dir.kind = .tree
  elsewhere : ∀ other, ¬ other <+: path → ¬ path <+: other →
    entryAt git written other = base.bind (entryAt git · other)

variable {base : Option (Tree Oid)}

theorem entryAt_bind_same_name {written : Tree Oid} {name : Bytes} (rest : List Bytes)
    (hname : written.entries.find? name = base.bind (·.entries.find? name)) :
    entryAt git written (name :: rest) = base.bind (entryAt git · (name :: rest)) := by
  cases base with
  | some tree => exact entryAt_same_name rest hname
  | none =>
    cases rest with
    | nil => exact hname
    | cons next rest =>
      rw [entryAt_cons (by simp), subtreeAt, hname]
      rfl

variable {blob : Oid} {filemode : Nat}

theorem inserted_single (hreads : Reads git) {name : String} {root : Oid}
    (h : git.buildTree base name blob filemode = .ok root) :
    ∃ written, git.findTree root = .ok written ∧
      Inserted git base written [encode name] blob filemode := by
  obtain ⟨written, hroot, hentries⟩ := hreads.built h
  refine ⟨written, hroot, ⟨encode name, ?_⟩, ?_, ?_⟩
  · rw [entryAt_single, hentries, if_pos rfl]
  · intro other hprefix hne hpath
    cases hprefix' : other with
    | nil => exact absurd hprefix' hne
    | cons first rest =>
      rw [hprefix', List.cons_prefix_cons, List.prefix_nil] at hprefix
      exact absurd (by rw [hprefix', hprefix.1, hprefix.2]) hpath
  · intro other habove hbelow
    cases other with
    | nil => exact absurd List.nil_prefix habove
    | cons first rest =>
      apply entryAt_bind_same_name
      rw [hentries, if_neg]
      rintro rfl
      exact hbelow (List.cons_prefix_cons.mpr ⟨rfl, List.nil_prefix⟩)

/-- One directory above: what the tree below holds, the tree holds under its name. -/
theorem Inserted.cons (hreads : Reads git) {name : String} {sub root : Oid} {written : Tree Oid}
    {path : List Bytes} (hsub : git.findTree sub = .ok written) (hpath : path ≠ [])
    (hinserted : Inserted git (base.bind (git.subtree · name)) written path blob filemode)
    (h : git.buildTree base name sub modeTree = .ok root) :
    ∃ outer, git.findTree root = .ok outer ∧
      Inserted git base outer (encode name :: path) blob filemode := by
  obtain ⟨outer, hroot, hentries⟩ := hreads.built h
  have hdir : subtreeAt git outer (encode name) = some written := by
    rw [subtreeAt, hentries, if_pos rfl, Option.bind_some]
    rw [if_pos (kind_directory _ _), hsub]
    rfl
  have hinside : ∀ rest, rest ≠ [] →
      entryAt git outer (encode name :: rest) = entryAt git written rest := by
    intro rest hrest
    rw [entryAt_cons hrest, hdir, Option.bind_some]
  refine ⟨outer, hroot, ?_, ?_, ?_⟩
  · obtain ⟨last, hblob⟩ := hinserted.blob
    exact ⟨last, by rw [hinside path hpath, hblob]⟩
  · intro other hprefix hne hother
    cases other with
    | nil => exact absurd rfl hne
    | cons first rest =>
      obtain ⟨rfl, hrestPrefix⟩ := List.cons_prefix_cons.mp hprefix
      by_cases hrest : rest = []
      · subst hrest
        refine ⟨⟨encode name, sub, modeTree⟩, ?_, kind_directory _ _⟩
        rw [entryAt_single, hentries, if_pos rfl]
      · rw [hinside rest hrest]
        exact hinserted.above rest hrestPrefix hrest fun heq => hother (by rw [heq])
  · intro other habove hbelow
    cases other with
    | nil => exact absurd List.nil_prefix habove
    | cons first rest =>
      by_cases hfirst : first = encode name
      · subst hfirst
        have hrest : rest ≠ [] := by
          rintro rfl
          exact habove (List.cons_prefix_cons.mpr ⟨rfl, List.nil_prefix⟩)
        rw [hinside rest hrest, hinserted.elsewhere rest
          (fun hrel => habove (List.cons_prefix_cons.mpr ⟨rfl, hrel⟩))
          (fun hrel => hbelow (List.cons_prefix_cons.mpr ⟨rfl, hrel⟩))]
        cases base with
        | none => rfl
        | some tree =>
          rw [Option.bind_some, Option.bind_some, entryAt_cons hrest, hreads.subtree]
      · apply entryAt_bind_same_name
        rw [hentries, if_neg hfirst]

/-- The tree `insert_blob` returns, by induction on the path. -/
theorem inserted_of_insertBlob (hreads : Reads git) (segments : List String) :
    ∀ {base : Option (Tree Oid)} {root : Oid},
    insertBlob git base blob filemode segments = .ok root →
      ∃ written, git.findTree root = .ok written ∧
        Inserted git base written (segments.map encode) blob filemode := by
  induction segments with
  | nil =>
    intro base root h
    cases h
  | cons name rest ih =>
    intro base root h
    cases rest with
    | nil => exact inserted_single hreads h
    | cons next rest =>
      cases hsub : insertBlob git (base.bind (git.subtree · name)) blob filemode
          (next :: rest) with
      | error e =>
        simp only [insertBlob, bind, Except.bind] at h
        rw [hsub] at h
        cases h
      | ok sub =>
        simp only [insertBlob, bind, Except.bind] at h
        rw [hsub] at h
        obtain ⟨written, hfind, hinserted⟩ := ih hsub
        exact Inserted.cons hreads hfind (by simp) hinserted h

/-- Below the file there is nothing. -/
theorem entryAt_append_file {entry : Entry Oid} {rest : List Bytes} (hkind : entry.kind ≠ .tree)
    (hrest : rest ≠ []) (path : List Bytes) : ∀ {tree : Tree Oid},
    entryAt git tree path = some entry → entryAt git tree (path ++ rest) = none := by
  induction path with
  | nil =>
    intro tree h
    cases h
  | cons name path ih =>
    intro tree h
    by_cases hpath : path = []
    · subst hpath
      exact entryAt_below_file h hkind hrest
    · rw [entryAt_cons hpath] at h
      rw [List.cons_append, entryAt_cons (by simp [hpath])]
      cases hdir : subtreeAt git tree name with
      | none => rfl
      | some sub =>
        rw [hdir] at h
        exact ih h

end Inserted

/-! ## An object store in memory -/

/-- A base with one entry put in. -/
def Tree.put (base : Option (Tree Oid)) (entry : Entry Oid) (hname : entry.name ≠ []) :
    Tree Oid where
  entries := (((base.map Tree.entries).getD .empty).erase (·.name == entry.name)).insert entry
    (by rw [Table.find?_erase, Option.filter_eq_none_iff]
        intro row hrow
        simp [Table.key_of_find? hrow])
  named := by
    intro row hrow
    rcases List.mem_append.mp hrow with hrow | hrow
    · cases base with
      | none => cases hrow
      | some tree => exact tree.named row (List.mem_of_mem_filter hrow)
    · rw [List.mem_singleton.mp hrow]
      exact hname

theorem find?_put (base : Option (Tree Oid)) (entry : Entry Oid) (hname : entry.name ≠ [])
    (other : Bytes) : (Tree.put base entry hname).entries.find? other =
      if other = entry.name then some entry else base.bind (·.entries.find? other) := by
  unfold Tree.put
  rw [Table.find?_insert]
  split
  · rfl
  · next hother =>
    cases base with
    | none => rfl
    | some tree =>
      show (tree.entries.erase _).find? other = tree.entries.find? other
      rw [Table.find?_erase]
      cases hrow : tree.entries.find? other with
      | none => rfl
      | some row => simp [Option.filter, Table.key_of_find? hrow, hother]

/-- An object that is named by what it holds. -/
inductive Obj where
  | blob (content : Bytes)
  | tree (rows : List (Entry Obj))

/-- Reading a tree object. -/
def Obj.tree? : Obj → Option (Tree Obj)
  | .blob _ => none
  | .tree rows =>
      if h : (rows.map Entry.name).Nodup ∧ ∀ entry ∈ rows, entry.name ≠ [] then
        some ⟨⟨rows, h.1⟩, h.2⟩
      else none

theorem tree?_rows (tree : Tree Obj) : (Obj.tree tree.entries.rows).tree? = some tree :=
  dif_pos ⟨tree.entries.nodup, tree.named⟩

def absent : Git2Error := ⟨false, .other, "object not found"⟩

/-- `Repository::find_tree`. -/
def Obj.read (oid : Obj) : Except Git2Error (Tree Obj) :=
  match oid.tree? with
  | some found => .ok found
  | none => .error absent

theorem read_rows (tree : Tree Obj) : (Obj.tree tree.entries.rows).read = .ok tree := by
  rw [Obj.read, tree?_rows]

/-- The library over such objects, which has no commits. -/
def memoryGit : Git Obj (Tree Obj) where
  toLowercase := id
  oidText := fun _ => ""
  peelToCommit := fun _ _ => .error absent
  commitTree := fun _ => .error absent
  getPath := fun _ _ => none
  subtree := fun tree name => (tree.entries.find? (encode name)).bind fun entry =>
    if entry.kind = .tree then entry.oid.tree? else none
  blob := fun content => .ok (.blob content)
  buildTree := fun base name oid mode =>
    if hname : encode name = [] then .error ⟨false, .other, "failed to insert entry"⟩
    else .ok (.tree (Tree.put base ⟨encode name, oid, mode⟩ hname).entries.rows)
  findTree := Obj.read
  signature := fun name email => .ok ⟨name, email⟩
  commit := fun _ _ _ _ => .error absent

theorem reads_memoryGit : Reads memoryGit where
  subtree := by
    intro tree name
    have hread : ∀ oid : Obj, oid.tree? = (memoryGit.findTree oid).toOption := by
      intro oid
      show oid.tree? = oid.read.toOption
      unfold Obj.read
      cases oid.tree? <;> rfl
    simp only [subtreeAt, ← hread]
    rfl
  built := by
    intro base name oid mode root h
    dsimp only [memoryGit] at h
    split at h
    · cases h
    · next hname =>
      cases h
      refine ⟨Tree.put base ⟨encode name, oid, mode⟩ hname, read_rows _, ?_⟩
      exact find?_put base _ hname

/-- A directory with a file and a submodule beside it. -/
def sampleTree : Tree Obj where
  entries := ⟨[⟨encode "docs", .tree [⟨encode "intro.md", .blob [1], modeBlob⟩], modeTree⟩,
    ⟨encode "README.md", .blob [2], modeBlob⟩, ⟨encode "vendored", .blob [3], modeGitlink⟩],
    by decide +kernel⟩
  named := by decide +kernel

/-! ## The result -/

section Result

variable {git : Git Oid (Tree Oid)} {tree written : Tree Oid} {path : List Bytes} {blob : Oid}
  {filemode : Nat}

/-- What is kept stands neither above the file nor below it. -/
theorem Inserted.clear (hinserted : Inserted git (some tree) written path blob filemode)
    (hmode : kindOf filemode ≠ .tree) (hwrites : WritesOnly git tree written path blob filemode) :
    Clear git tree path := by
  intro other entry hentry hkind hne
  have hkept := hwrites.others other entry hentry hkind hne
  constructor
  · intro habove
    have hother : other ≠ [] := by
      rintro rfl
      cases hentry
    obtain ⟨dir, hdir, hdirKind⟩ := hinserted.above other habove hother hne
    rw [hkept, Option.some.injEq] at hdir
    exact hkind (hdir ▸ hdirKind)
  · rintro ⟨rest, rfl⟩
    obtain ⟨name, hblob⟩ := hinserted.blob
    have hrest : rest ≠ [] := by
      rintro rfl
      exact hne (List.append_nil _)
    have hkindBlob : (⟨name, blob, filemode⟩ : Entry Oid).kind ≠ .tree := hmode
    have hnone : entryAt git written (path ++ rest) = none :=
      entryAt_append_file hkindBlob hrest _ hblob
    rw [hnone] at hkept
    cases hkept

theorem Inserted.writesOnly (hinserted : Inserted git (some tree) written path blob filemode)
    (hclear : Clear git tree path) : WritesOnly git tree written path blob filemode where
  blob := hinserted.blob
  others := by
    intro other entry hentry hkind hne
    obtain ⟨habove, hbelow⟩ := hclear other entry hentry hkind hne
    rw [hinserted.elsewhere other habove hbelow, Option.bind_some, hentry]

/-- One file is written and every other kept if and only if no other file stands
above the path or below it. -/
theorem insertBlob_writesOnly_iff (hreads : Reads git) {segments : List String} {root : Oid}
    (hmode : kindOf filemode ≠ .tree)
    (h : insertBlob git (some tree) blob filemode segments = .ok root) :
    (∃ written, git.findTree root = .ok written ∧
        WritesOnly git tree written (segments.map encode) blob filemode) ↔
      Clear git tree (segments.map encode) := by
  obtain ⟨written, hroot, hinserted⟩ := inserted_of_insertBlob hreads segments h
  constructor
  · rintro ⟨found, hfound, hwrites⟩
    obtain rfl : written = found := Except.ok.inj (hroot.symm.trans hfound)
    exact hinserted.clear hmode hwrites
  · intro hclear
    exact ⟨written, hroot, hinserted.writesOnly hclear⟩

end Result

/-- A new file in a directory. -/
theorem insertBlob_writesOnly_new : ∃ root,
    insertBlob memoryGit (some sampleTree) (.blob [9]) modeBlob ["docs", "new.md"] = .ok root ∧
      ((∃ written, memoryGit.findTree root = .ok written ∧
          WritesOnly memoryGit sampleTree written (["docs", "new.md"].map encode) (.blob [9])
            modeBlob) ↔
        Clear memoryGit sampleTree (["docs", "new.md"].map encode)) :=
  ⟨_, rfl, insertBlob_writesOnly_iff reads_memoryGit (by decide) rfl⟩

/-- A file that stands where the path wants a directory is replaced by one. -/
theorem file_replaced_by_directory : ∃ root,
    insertBlob memoryGit (some sampleTree) (.blob [9]) modeBlob ["README.md", "x"] = .ok root ∧
      ¬ ∃ written, memoryGit.findTree root = .ok written ∧
        WritesOnly memoryGit sampleTree written (["README.md", "x"].map encode) (.blob [9])
          modeBlob := by
  refine ⟨_, rfl, ?_⟩
  rintro ⟨found, hfound, hwrites⟩
  obtain ⟨written, hroot, hinserted⟩ :=
    inserted_of_insertBlob reads_memoryGit ["README.md", "x"] rfl
  obtain rfl : written = found := Except.ok.inj (hroot.symm.trans hfound)
  have hreadme : entryAt memoryGit sampleTree [encode "README.md"] =
      some ⟨encode "README.md", .blob [2], modeBlob⟩ :=
    Table.find?_eq_some_iff.mpr ⟨by simp [sampleTree], rfl⟩
  have hclear := hinserted.clear (by decide) hwrites _ _ hreadme (by decide) (by simp)
  exact hclear.1 (List.cons_prefix_cons.mpr ⟨rfl, List.nil_prefix⟩)

end IntelliPilot.Docs
