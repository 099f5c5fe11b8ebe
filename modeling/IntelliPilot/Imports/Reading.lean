import IntelliPilot.Imports.Export
import IntelliPilot.Imports.Isolation

/-! # Reading an export back

What a row says that was written from an issue, and what the names in it are
looked up as under a mapping that covers them.
-/

namespace IntelliPilot.Imports

open Http Rows
open Auth (trim eqIgnoreAsciiCase)
open Text (join split trim_trim trim_eq_self map_trim_split_trim map_trim_split_join)

/-! ## Reading an exported row -/

/-- A header that occurs once is read from its column. -/
theorem first_column {headers record : List String} {name cell : String} {i : Nat}
    (hcolumn : columns headers name = [i]) (hcell : record[i]? = some cell) :
    first record headers name = trim cell := by
  rw [first, values, hcolumn]
  by_cases hblank : trim cell = ""
  · simp [hcell, hblank]
  · simp [hcell, hblank]

/-- No header of an export occurs twice. -/
theorem columns_exportHeaders : ∀ i : Fin 18,
    columns exportHeaders (exportHeaders.get i) = [i.val] := by decide +kernel

theorem trim_refText (reference : Nat) : trim (refText reference) = refText reference := by
  apply trim_eq_self
  intro c hc
  rw [refText, String.toList_append, List.mem_append] at hc
  rcases hc with hhash | hdigit
  · rw [show c = '#' by simpa using hhash]
    decide
  · have hdigit : c.isDigit := Nat.isDigit_of_mem_toDigits (b := 10) (n := reference) (by decide)
      (by decide) (by simpa [Nat.toString_eq_ofList_toDigits] using hdigit)
    simp only [Char.isDigit, Bool.and_eq_true, decide_eq_true_eq] at hdigit
    have hlow : 48 ≤ c.toNat := hdigit.1
    have hhigh : c.toNat ≤ 57 := hdigit.2
    simp only [Auth.isWhitespace, Bool.or_eq_false_iff, Bool.and_eq_false_iff, decide_eq_false_iff_not,
      beq_eq_false_iff_ne]
    omega

/-- An exported list is read back as its trimmed names. -/
theorem splitList_join {names : List String} (hcomma : ∀ name ∈ names, ',' ∉ name.toList) :
    splitList (trim (join ", " names)) = (names.map trim).filter (· != "") := by
  rw [splitList, map_trim_split_trim (by decide)]
  cases names with
  | nil => decide
  | cons name names => rw [map_trim_split_join (by simp) hcomma]

section Row

variable (db : Db) (projectId : Uuid)

/-- The row an exported issue is read as. -/
def readBack (rest : RestCells) (issue : Issue) : ParsedRow :=
  parseIntelliPilot exportHeaders (exportRow db projectId rest issue)

variable {db projectId} {rest : RestCells} {issue : Issue}

theorem readBack_externalKey :
    (readBack db projectId rest issue).externalKey = refText issue.reference := by
  have hcell : first (exportRow db projectId rest issue) exportHeaders "Ref" =
      trim (refText issue.reference) := first_column (columns_exportHeaders 0) rfl
  have hread : (readBack db projectId rest issue).externalKey =
      first (exportRow db projectId rest issue) exportHeaders "Ref" := by
    simp only [readBack, parseIntelliPilot]
  exact hread.trans (hcell.trans (trim_refText _))

theorem readBack_subject : (readBack db projectId rest issue).subject = trim issue.subject := by
  simp only [readBack, parseIntelliPilot]
  exact first_column (columns_exportHeaders 1) rfl

theorem readBack_description :
    (readBack db projectId rest issue).description = trim issue.description := by
  simp only [readBack, parseIntelliPilot]
  exact first_column (columns_exportHeaders 17) rfl

theorem readBack_typeName : (readBack db projectId rest issue).typeName =
    trim ((itemName db projectId .issueType issue.typeId).getD "") := by
  simp only [readBack, parseIntelliPilot]
  exact first_column (columns_exportHeaders 2) rfl

theorem readBack_statusName : (readBack db projectId rest issue).statusName =
    trim ((itemName db projectId .issueStatus issue.statusId).getD "") := by
  simp only [readBack, parseIntelliPilot]
  exact first_column (columns_exportHeaders 3) rfl

theorem readBack_priorityName : (readBack db projectId rest issue).priorityName =
    trim ((itemName db projectId .priority issue.priorityId).getD "") := by
  simp only [readBack, parseIntelliPilot]
  exact first_column (columns_exportHeaders 4) rfl

theorem readBack_components
    (hcomma : ∀ name ∈ componentNames db projectId issue.id, ',' ∉ name.toList) :
    (readBack db projectId rest issue).components =
      ((componentNames db projectId issue.id).map trim).filter (· != "") := by
  have hcell : first (exportRow db projectId rest issue) exportHeaders "Components" =
      trim (join ", " (componentNames db projectId issue.id)) :=
    first_column (columns_exportHeaders 12) rfl
  rw [← splitList_join hcomma, ← hcell]
  simp only [readBack, parseIntelliPilot]

theorem readBack_importedDescription : (readBack db projectId rest issue).importedDescription =
    "> Imported from " ++ refText issue.reference ++ "\n\n" ++ trim issue.description := by
  have hkey : refText issue.reference ≠ "" := by
    intro hempty
    have hlength := congrArg String.length hempty
    simp [refText] at hlength
  unfold ParsedRow.importedDescription
  simp only [readBack_externalKey, readBack_description, if_neg hkey]

end Row

/-! ## Mappings that cover a file -/

/-- The choices are for the names that a file shows, none of them blank, and send
each to what stands for it. -/
structure Covers (lib : Library) (choices : List ValueChoice) (names : List String)
    (stands : String → Uuid → Prop) : Prop where
  chosen : ∀ choice ∈ choices, choice.target.isSome
  sends : ∀ name ∈ names, ∃ choice ∈ choices,
    lib.toLowercase choice.value = lib.toLowercase (trim name)
  only : ∀ choice ∈ choices, ∃ name ∈ names,
    lib.toLowercase choice.value = lib.toLowercase (trim name)
  right : ∀ name ∈ names, ∀ choice ∈ choices,
    lib.toLowercase choice.value = lib.toLowercase (trim name) → ∀ id ∈ choice.target, stands name id
  blank : ∀ choice ∈ choices, lib.toLowercase choice.value ≠ lib.toLowercase ""

theorem RefMap.collect_append (entries : List (String × Uuid)) (entry : String × Uuid) :
    RefMap.collect (entries ++ [entry]) = (RefMap.collect entries).insert entry.1 entry.2 := by
  rw [RefMap.collect, List.foldl_append]
  rfl

theorem RefMap.mem_of_collect {entries : List (String × Uuid)} {key : String} {id : Uuid}
    (h : RefMap.collect entries key = some id) : (key, id) ∈ entries := by
  induction entries using List.reverseRecOn with
  | nil => contradiction
  | append_singleton entries entry ih =>
    rw [RefMap.collect_append, RefMap.insert] at h
    split at h
    · rename_i hkey
      rw [hkey, ← Option.some.inj h]
      exact List.mem_append_right _ List.mem_cons_self
    · exact List.mem_append_left _ (ih h)

theorem RefMap.isSome_collect {entries : List (String × Uuid)} {entry : String × Uuid}
    (h : entry ∈ entries) : (RefMap.collect entries entry.1).isSome := by
  induction entries using List.reverseRecOn with
  | nil => contradiction
  | append_singleton entries last ih =>
    rw [RefMap.collect_append, RefMap.insert]
    split
    · rfl
    · rename_i hkey
      rcases List.mem_append.mp h with hold | hlast
      · exact ih hold
      · exact absurd (congrArg Prod.fst (List.mem_singleton.mp hlast)) hkey

section Covers

variable {lib : Library} {choices : List ValueChoice} {names : List String}
  {stands : String → Uuid → Prop}

theorem mem_targets {key : String} {id : Uuid} : (key, id) ∈ targets lib choices ↔
    ∃ choice ∈ choices, choice.target = some id ∧ lib.toLowercase choice.value = key := by
  simp only [targets, List.mem_filterMap, Option.map_eq_some_iff, Prod.mk.injEq]
  constructor
  · rintro ⟨choice, hchoice, _, htarget, hkey, rfl⟩
    exact ⟨choice, hchoice, htarget, hkey⟩
  · rintro ⟨choice, hchoice, htarget, hkey⟩
    exact ⟨choice, hchoice, id, htarget, hkey, rfl⟩

/-- A name that is covered is looked up as what stands for it. -/
theorem Covers.look_name (h : Covers lib choices names stands) {name : String}
    (hname : name ∈ names) :
    ∃ id, (RefMap.collect (targets lib choices)).look lib (trim name) = some id ∧
      stands name id := by
  obtain ⟨choice, hchoice, hkey⟩ := h.sends name hname
  obtain ⟨target, htarget⟩ := Option.isSome_iff_exists.mp (h.chosen choice hchoice)
  have hmem : (lib.toLowercase (trim name), target) ∈ targets lib choices :=
    mem_targets.mpr ⟨choice, hchoice, htarget, hkey⟩
  obtain ⟨id, hid⟩ := Option.isSome_iff_exists.mp (RefMap.isSome_collect hmem)
  refine ⟨id, hid, ?_⟩
  obtain ⟨found, hfound, hfoundTarget, hfoundKey⟩ := mem_targets.mp (RefMap.mem_of_collect hid)
  exact h.right name hname found hfound hfoundKey id hfoundTarget

theorem Covers.look_blank (h : Covers lib choices names stands) :
    (RefMap.collect (targets lib choices)).look lib "" = none := by
  cases hlook : (RefMap.collect (targets lib choices)).look lib "" with
  | none => rfl
  | some id =>
    obtain ⟨choice, hchoice, -, hkey⟩ := mem_targets.mp (RefMap.mem_of_collect hlook)
    exact absurd hkey (h.blank choice hchoice)

/-- A covered name is not blank. -/
theorem Covers.trim_ne (h : Covers lib choices names stands) {name : String}
    (hname : name ∈ names) : trim name ≠ "" := by
  intro hblank
  obtain ⟨id, hid, -⟩ := h.look_name hname
  rw [hblank, h.look_blank] at hid
  contradiction

/-- What a cell with an optional name is looked up as. -/
theorem Covers.look_cell (h : Covers lib choices names stands) {name : Option String}
    (hname : ∀ n ∈ name, n ∈ names) :
    (name = none ∧ (RefMap.collect (targets lib choices)).look lib (trim (name.getD "")) = none) ∨
      ∃ n id, name = some n ∧
        (RefMap.collect (targets lib choices)).look lib (trim (name.getD "")) = some id ∧
        stands n id := by
  cases name with
  | none =>
    refine .inl ⟨rfl, ?_⟩
    rw [Option.getD_none, show trim "" = "" by decide]
    exact h.look_blank
  | some n =>
    obtain ⟨id, hid, hstands⟩ := h.look_name (hname n rfl)
    exact .inr ⟨n, id, rfl, hid, hstands⟩

/-- Every target stands for a name. -/
theorem Covers.all (h : Covers lib choices names stands) :
    (RefMap.collect (targets lib choices)).All fun id => ∃ name ∈ names, stands name id := by
  refine RefMap.all_collect (targets_all (p := fun id => ∃ name ∈ names, stands name id) ?_)
  intro choice hchoice id hid
  obtain ⟨name, hname, hkey⟩ := h.only choice hchoice
  exact ⟨name, hname, h.right name hname choice hchoice hkey id hid⟩

/-- A map of choices that all have a target is made of the targets alone. -/
theorem buildValueMap_chosen (c : Circumstances) (projectId : Uuid) (kind : TaxonomyKind)
    (hchosen : ∀ choice ∈ choices, choice.target.isSome) (created : Nat) (catalog : Catalog) :
    buildValueMap lib c projectId kind choices created catalog =
      (.collect (targets lib choices), created, catalog) := by
  unfold buildValueMap
  generalize RefMap.collect (List.map _ _) = existing
  induction choices using List.reverseRecOn with
  | nil => rfl
  | append_singleton choices choice ih =>
    have hbefore := ih fun other hother => hchosen other (List.mem_append_left _ hother)
    obtain ⟨id, hid⟩ := Option.isSome_iff_exists.mp
      (hchosen choice (List.mem_append_right _ List.mem_cons_self))
    have htargets : targets lib (choices ++ [choice]) =
        targets lib choices ++ [(lib.toLowercase choice.value, id)] := by
      simp [targets, hid]
    rw [List.zipIdx_append, List.foldl_append, hbefore, htargets, RefMap.collect_append]
    simp [addChoice, hid]

end Covers

end IntelliPilot.Imports
