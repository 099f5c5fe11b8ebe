import IntelliPilot.Docs.Edit
import IntelliPilot.Text.Trimming
import IntelliPilot.Text.Walks
import Mathlib.Data.List.Infix
import Mathlib.Data.List.TakeWhile

/-! # Paths of a documentation source

How the jail of a source is normalised, how a path or a link is resolved
against it, and the condition of the table on the jail that is stored. A path
that is resolved is a walk that never leaves the jail upwards.
-/

namespace IntelliPilot.Docs

open Text

/-! ## The functions -/

def maxPathLen : Nat := 1024

def maxSegmentLen : Nat := 255

inductive PathError where
  | illegal
  | tooLong
  | escapes
  deriving DecidableEq, Repr

def PathError.code : PathError → String
  | .illegal => "doc_path_illegal"
  | .tooLong => "doc_path_too_long"
  | .escapes => "doc_path_escapes"

/-- `has_illegal_chars`. -/
def hasIllegalChars (s : String) : Bool := s.toList.any fun c => isControl c || c == '\\'

/-- The loop of `normalize`. -/
def normalizeLoop (out : List String) : List String → Except PathError (List String)
  | [] => .ok out
  | seg :: rest =>
    if seg = "" ∨ seg = "." then normalizeLoop out rest
    else if seg = ".." then .error .illegal
    else if maxSegmentLen < seg.utf8ByteSize then .error .tooLong
    else normalizeLoop (out ++ [seg]) rest

/-- `normalize`. -/
def normalize (input : String) : Except PathError String :=
  if hasIllegalChars input then .error .illegal
  else if maxPathLen < input.utf8ByteSize then .error .tooLong
  else
    match normalizeLoop [] (split input '/') with
    | .error e => .error e
    | .ok out =>
      let joined := "/".intercalate out
      if maxPathLen < joined.utf8ByteSize then .error .tooLong else .ok joined

/-- The loop of `resolve`. -/
def resolveLoop (out : List String) : List String → Except PathError (List String)
  | [] => .ok out
  | seg :: rest =>
    if seg = "" ∨ seg = "." then resolveLoop out rest
    else if seg = ".." then if out = [] then .error .escapes else resolveLoop out.dropLast rest
    else if maxSegmentLen < seg.utf8ByteSize then .error .tooLong
    else resolveLoop (out ++ [seg]) rest

/-- `resolve`. -/
def resolve (rel : String) : Except PathError String :=
  if hasIllegalChars rel then .error .illegal
  else if maxPathLen < rel.utf8ByteSize then .error .tooLong
  else (resolveLoop [] (split rel '/')).map fun out => "/".intercalate out

/-- `in_repo`. -/
def inRepo (jail resolvedRel : String) : String :=
  if jail = "" then resolvedRel
  else if resolvedRel = "" then jail
  else jail ++ "/" ++ resolvedRel

/-- `str::rsplit_once` at a character. -/
def rsplitOnce (s : String) (separator : Char) : Option (String × String) :=
  match s.toList.reverse.dropWhile (· != separator) with
  | [] => none
  | _ :: before => some (String.ofList before.reverse,
      String.ofList (s.toList.reverse.takeWhile (· != separator)).reverse)

/-- `resolve_link`. -/
def resolveLink (source href : String) : Except PathError String :=
  if startsWith href "/" then resolve href
  else
    let dir := ((rsplitOnce source '/').map Prod.fst).getD ""
    if dir = "" then resolve href else resolve (dir ++ "/" ++ href)

/-! ## The condition of the table -/

/-- The string ends, or goes on with a slash: `(/|$)`. -/
def endsSegment : List Char → Bool
  | [] => true
  | c :: _ => c == '/'

/-- `[.][.]?(/|$)`, at the beginning of a string. -/
def startsDotSegment : List Char → Bool
  | '.' :: '.' :: rest => endsSegment rest
  | '.' :: rest => endsSegment rest
  | _ => false

/-- `(^|/)[.][.]?(/|$)`. -/
def hasDotSegment (path : List Char) : Bool :=
  startsDotSegment path || path.tails.any fun
    | '/' :: rest => startsDotSegment rest
    | _ => false

/-- `doc_sources_path_normalized`. -/
def pathNormalized (path : String) : Bool :=
  path == "" || (!(startsWith path "/" || endsWith path "/" || contains path "//") &&
    !hasDotSegment path.toList && !contains path "\\")

/-! ## Segments -/

/-- The segments of a stored path. -/
def segments (path : String) : List String := if path = "" then [] else split path '/'

/-- A segment that names an entry. -/
def IsName (segment : String) : Prop := segment ≠ "" ∧ segment ≠ "." ∧ segment ≠ ".."

instance : DecidablePred IsName := fun _ => inferInstanceAs (Decidable (_ ∧ _ ∧ _))

/-- What a segment asks for. -/
def toStep (segment : String) : Step String :=
  if segment = "" ∨ segment = "." then .stay
  else if segment = ".." then .up
  else .down segment

/-- The walk that a path describes. -/
def steps (path : String) : List (Step String) := (split path '/').map toStep

theorem not_mem_of_mem_splitOn {sep : Char} {l segment : List Char} (h : segment ∈ l.splitOn sep) :
    sep ∉ segment := by
  induction l generalizing segment with
  | nil =>
    rw [List.splitOn_nil, List.mem_singleton] at h
    rw [h]
    exact List.not_mem_nil
  | cons c l ih =>
    rw [List.splitOn_cons_eq_if_modifyHead] at h
    split at h
    · rcases List.mem_cons.mp h with rfl | h
      · exact List.not_mem_nil
      · exact ih h
    · rename_i hc
      cases hsplit : l.splitOn sep with
      | nil => exact absurd hsplit (List.splitOn_ne_nil _ _)
      | cons head tail =>
        rw [hsplit, List.modifyHead_cons] at h
        rcases List.mem_cons.mp h with rfl | h
        · have hmem : head ∈ l.splitOn sep := by simp [hsplit]
          have hhead := ih hmem
          simp only [List.mem_cons, not_or]
          exact ⟨fun heq => hc (by simp [heq]), hhead⟩
        · exact ih (by simp [hsplit, h])

theorem not_mem_of_mem_split {s segment : String} {sep : Char} (h : segment ∈ split s sep) :
    sep ∉ segment.toList := by
  obtain ⟨chars, hchars, rfl⟩ := List.mem_map.mp h
  rw [String.toList_ofList]
  exact not_mem_of_mem_splitOn hchars

variable {parts : List String}

theorem split_intercalate (hne : parts ≠ []) (hparts : ∀ part ∈ parts, '/' ∉ part.toList) :
    split ("/".intercalate parts) '/' = parts := by
  have hlist : ("/".intercalate parts).toList.splitOn '/' = parts.map String.toList := by
    rw [String.toList_intercalate]
    apply List.splitOn_intercalate
    · intro chars hchars
      obtain ⟨part, hpart, rfl⟩ := List.mem_map.mp hchars
      exact hparts part hpart
    · simpa using hne
  rw [split, hlist, List.map_map]
  calc parts.map (String.ofList ∘ String.toList) = parts.map id :=
        List.map_congr_left fun part _ => String.ofList_toList
    _ = parts := List.map_id _

theorem intercalate_split (s : String) : "/".intercalate (split s '/') = s := by
  rw [← String.toList_inj, String.toList_intercalate, split, List.map_map]
  calc ("/".toList).intercalate ((s.toList.splitOn '/').map (String.toList ∘ String.ofList))
      = ['/'].intercalate ((s.toList.splitOn '/').map id) :=
        congrArg _ (List.map_congr_left fun chars _ => String.toList_ofList)
    _ = s.toList := by rw [List.map_id, List.intercalate_splitOn]

theorem split_empty : split "" '/' = [""] := by decide

/-- Joining names makes the path of these segments. -/
theorem segments_intercalate (hparts : ∀ part ∈ parts, '/' ∉ part.toList ∧ part ≠ "") :
    segments ("/".intercalate parts) = parts := by
  cases parts with
  | nil => decide
  | cons part parts =>
    have hsplit := split_intercalate (List.cons_ne_nil part parts) fun p hp => (hparts p hp).1
    have hne : "/".intercalate (part :: parts) ≠ "" := by
      intro hempty
      rw [hempty, split_empty] at hsplit
      exact (hparts part List.mem_cons_self).2 (List.cons.inj hsplit).1.symm
    rw [segments, if_neg hne, hsplit]

/-! ## The condition of the table, in segments -/

theorem head?_splitOn (l : List Char) :
    (l.splitOn '/').head? = some (l.takeWhile (· != '/')) := by
  induction l with
  | nil => rfl
  | cons c l ih =>
    rw [List.splitOn_cons_eq_if_modifyHead, List.takeWhile_cons]
    by_cases hc : c = '/'
    · simp [hc]
    · cases hsplit : l.splitOn '/' with
      | nil => exact absurd hsplit (List.splitOn_ne_nil _ _)
      | cons head tail =>
        rw [hsplit] at ih
        simp only [List.head?_cons, Option.some.injEq] at ih
        simp [hc, ih]

/-- What follows the first segment is split like a string of its own. -/
theorem tail_splitOn_cons (c : Char) (l : List Char) :
    ((c :: l).splitOn '/').tail = if c = '/' then l.splitOn '/' else (l.splitOn '/').tail := by
  rw [List.splitOn_cons_eq_if_modifyHead]
  by_cases hc : c = '/'
  · simp [hc]
  · cases hsplit : l.splitOn '/' with
    | nil => exact absurd hsplit (List.splitOn_ne_nil _ _)
    | cons head tail => simp [hc]

/-- A property of one segment, first or later. -/
theorem exists_mem_splitOn_iff (P : List Char → Prop) (l : List Char) :
    (∃ segment ∈ l.splitOn '/', P segment) ↔
      P (l.takeWhile (· != '/')) ∨ ∃ segment ∈ (l.splitOn '/').tail, P segment := by
  have hhead := head?_splitOn l
  cases hsplit : l.splitOn '/' with
  | nil => exact absurd hsplit (List.splitOn_ne_nil _ _)
  | cons head tail =>
    rw [hsplit] at hhead
    simp only [List.head?_cons, Option.some.injEq] at hhead
    simp [← hhead]

/-- A later segment comes after a slash. -/
theorem exists_mem_tail_splitOn_iff (P : List Char → Prop) (l : List Char) :
    (∃ segment ∈ (l.splitOn '/').tail, P segment) ↔
      ∃ rest, '/' :: rest <:+ l ∧ P (rest.takeWhile (· != '/')) := by
  induction l with
  | nil => simp
  | cons c l ih =>
    rw [tail_splitOn_cons]
    by_cases hc : c = '/'
    · rw [if_pos hc, exists_mem_splitOn_iff, ih]
      subst hc
      constructor
      · rintro (hfirst | ⟨rest, hrest, hP⟩)
        · exact ⟨l, List.suffix_refl _, hfirst⟩
        · exact ⟨rest, hrest.trans (List.suffix_cons _ _), hP⟩
      · rintro ⟨rest, hrest, hP⟩
        rcases List.suffix_cons_iff.mp hrest with heq | hlater
        · rw [(List.cons.inj heq).2] at hP
          exact .inl hP
        · exact .inr ⟨rest, hlater, hP⟩
    · rw [if_neg hc, ih]
      apply exists_congr
      intro rest
      apply and_congr_left
      intro _
      constructor
      · exact fun hrest => hrest.trans (List.suffix_cons _ _)
      · intro hrest
        rcases List.suffix_cons_iff.mp hrest with heq | hlater
        · exact absurd (List.cons.inj heq).1.symm hc
        · exact hlater

theorem endsSegment_iff (l : List Char) : endsSegment l = true ↔ l.takeWhile (· != '/') = [] := by
  cases l with
  | nil => simp [endsSegment]
  | cons c l => simp [endsSegment, List.takeWhile_cons]

theorem startsDotSegment_iff (l : List Char) :
    startsDotSegment l = true ↔
      l.takeWhile (· != '/') = ['.'] ∨ l.takeWhile (· != '/') = ['.', '.'] := by
  match l with
  | [] => simp [startsDotSegment]
  | c :: rest =>
    by_cases hc : c = '.'
    · subst hc
      have hfirst : ('.' :: rest).takeWhile (· != '/') = '.' :: rest.takeWhile (· != '/') := rfl
      rw [hfirst]
      match rest with
      | [] => simp [startsDotSegment, endsSegment]
      | d :: rest =>
        by_cases hd : d = '.'
        · subst hd
          simp [startsDotSegment, endsSegment_iff]
        · have hone : startsDotSegment ('.' :: d :: rest) = endsSegment (d :: rest) := by
            simp [startsDotSegment, hd]
          rw [hone, endsSegment_iff]
          by_cases hslash : d = '/'
          · simp [hslash]
          · simp [hslash, hd]
    · have hnone : startsDotSegment (c :: rest) = false := by simp [startsDotSegment, hc]
      rw [hnone]
      by_cases hslash : c = '/'
      · simp [hslash]
      · simp [hslash, hc]

theorem hasDotSegment_iff (l : List Char) :
    hasDotSegment l = true ↔ ∃ segment ∈ l.splitOn '/', segment = ['.'] ∨ segment = ['.', '.'] := by
  rw [exists_mem_splitOn_iff, exists_mem_tail_splitOn_iff, hasDotSegment, Bool.or_eq_true,
    startsDotSegment_iff, List.any_eq_true]
  apply or_congr Iff.rfl
  constructor
  · rintro ⟨rest, hrest, hdot⟩
    rw [List.mem_tails] at hrest
    split at hdot
    · rename_i rest'
      exact ⟨rest', hrest, (startsDotSegment_iff rest').mp hdot⟩
    · contradiction
  · rintro ⟨rest, hrest, hdot⟩
    exact ⟨'/' :: rest, (List.mem_tails _ _).mpr hrest, (startsDotSegment_iff rest).mpr hdot⟩

theorem takeWhile_eq_nil_iff (l : List Char) :
    l.takeWhile (· != '/') = [] ↔ l = [] ∨ ['/'] <+: l := by
  cases l with
  | nil => simp
  | cons c l =>
    by_cases hc : c = '/'
    · simp [hc]
    · simp [hc, Ne.symm hc]

theorem hasEmptySegment_iff {l : List Char} (hne : l ≠ []) :
    (∃ segment ∈ l.splitOn '/', segment = []) ↔
      ['/'] <+: l ∨ ['/'] <:+ l ∨ ['/', '/'] <:+: l := by
  rw [exists_mem_splitOn_iff, exists_mem_tail_splitOn_iff, takeWhile_eq_nil_iff]
  apply or_congr (or_iff_right hne)
  constructor
  · rintro ⟨rest, hrest, hempty⟩
    rcases (takeWhile_eq_nil_iff rest).mp hempty with rfl | ⟨more, rfl⟩
    · exact .inl hrest
    · obtain ⟨before, rfl⟩ := hrest
      exact .inr ⟨before, more, by simp⟩
  · rintro (hend | ⟨before, more, rfl⟩)
    · exact ⟨[], hend, rfl⟩
    · refine ⟨'/' :: more, ⟨before, by simp⟩, rfl⟩

/-- What the condition of the table says of the segments of a path. -/
theorem forall_isName_split_iff (path : String) :
    (∀ segment ∈ split path '/', IsName segment) ↔
      ¬ (∃ segment ∈ path.toList.splitOn '/', segment = []) ∧
        ¬ ∃ segment ∈ path.toList.splitOn '/', segment = ['.'] ∨ segment = ['.', '.'] := by
  have hname : ∀ chars : List Char,
      IsName (String.ofList chars) ↔ chars ≠ [] ∧ chars ≠ ['.'] ∧ chars ≠ ['.', '.'] := by
    intro chars
    simp only [IsName, ne_eq, ← String.toList_inj, String.toList_ofList]
    exact Iff.rfl
  unfold split
  simp only [List.forall_mem_map, hname]
  constructor
  · intro h
    constructor
    · rintro ⟨chars, hchars, hempty⟩
      exact (h chars hchars).1 hempty
    · rintro ⟨chars, hchars, hdots⟩
      exact hdots.elim (h chars hchars).2.1 (h chars hchars).2.2
  · rintro ⟨hempty, hdots⟩ chars hchars
    exact ⟨fun h => hempty ⟨chars, hchars, h⟩, fun h => hdots ⟨chars, hchars, .inl h⟩,
      fun h => hdots ⟨chars, hchars, .inr h⟩⟩

/-- The table admits a path exactly if its segments are names and no backslash is in it. -/
theorem pathNormalized_iff (path : String) :
    pathNormalized path = true ↔
      (∀ segment ∈ segments path, IsName segment) ∧ '\\' ∉ path.toList := by
  by_cases hempty : path = ""
  · subst hempty
    decide
  · have hne : path.toList ≠ [] := by
      intro hnil
      exact hempty (String.toList_inj.mp hnil)
    have hbackslash : contains path "\\" = true ↔ '\\' ∈ path.toList :=
      contains_eq_true_iff.trans (List.singleton_infix_iff _ _)
    rw [segments, if_neg hempty, forall_isName_split_iff, hasEmptySegment_iff hne,
      ← hasDotSegment_iff]
    have hslashes : (startsWith path "/" || endsWith path "/" || contains path "//") = true ↔
        ['/'] <+: path.toList ∨ ['/'] <:+ path.toList ∨ ['/', '/'] <:+: path.toList := by
      rw [Bool.or_eq_true, Bool.or_eq_true, or_assoc, startsWith, endsWith, contains_eq_true_iff,
        List.isPrefixOf_iff_prefix, List.isSuffixOf_iff_suffix]
      exact Iff.rfl
    rw [← hslashes, ← hbackslash]
    simp [pathNormalized, hempty, and_assoc]

/-! ## The loops -/

/-- The names among segments. -/
def names (parts : List String) : List String := parts.filter fun part => part != "" && part != "."

theorem names_cons (part : String) (rest : List String) :
    names (part :: rest) = if part = "" ∨ part = "." then names rest else part :: names rest := by
  unfold names
  rw [List.filter_cons]
  by_cases hempty : part = ""
  · simp [hempty]
  · by_cases hdot : part = "."
    · simp [hdot]
    · simp [hempty, hdot]

/-- What the loop of `normalize` keeps are names. -/
theorem normalizeLoop_ok {out result : List String} (h : normalizeLoop out parts = .ok result) :
    result = out ++ names parts ∧
      ∀ part ∈ names parts, IsName part ∧ part.utf8ByteSize ≤ maxSegmentLen := by
  induction parts generalizing out with
  | nil =>
    obtain rfl := Except.ok.inj h
    exact ⟨(List.append_nil _).symm, fun _ hpart => absurd hpart List.not_mem_nil⟩
  | cons part rest ih =>
    rw [normalizeLoop] at h
    rw [names_cons]
    split at h
    next hskip =>
      rw [if_pos hskip]
      exact ih h
    next hskip =>
      split at h
      next => contradiction
      next hup =>
        split at h
        next => contradiction
        next hlong =>
          obtain ⟨hresult, hnames⟩ := ih h
          rw [if_neg hskip]
          refine ⟨by rw [hresult, List.append_assoc, List.singleton_append], ?_⟩
          intro other hother
          rcases List.mem_cons.mp hother with rfl | hother
          · exact ⟨⟨fun hempty => hskip (.inl hempty), fun hdot => hskip (.inr hdot), hup⟩,
              by omega⟩
          · exact hnames other hother

theorem normalizeLoop_names {out : List String} (hnames : ∀ part ∈ parts, IsName part)
    (hshort : ∀ part ∈ parts, part.utf8ByteSize ≤ maxSegmentLen) :
    normalizeLoop out parts = .ok (out ++ parts) := by
  induction parts generalizing out with
  | nil => rw [normalizeLoop, List.append_nil]
  | cons part rest ih =>
    obtain ⟨hempty, hdot, hup⟩ := hnames part List.mem_cons_self
    have hlen := hshort part List.mem_cons_self
    rw [normalizeLoop, if_neg (not_or.mpr ⟨hempty, hdot⟩), if_neg hup, if_neg (by omega),
      ih (fun other hother => hnames other (List.mem_cons_of_mem _ hother))
        (fun other hother => hshort other (List.mem_cons_of_mem _ hother)),
      List.append_assoc, List.singleton_append]

/-- Where the loop of `resolve` ends is where the walk leads. -/
theorem resolveLoop_ok {out : List String} {e : Except PathError (List String)}
    (h : resolveLoop out parts = e) (hlong : e ≠ .error .tooLong) :
    e = match Step.walk (parts.map toStep) out.reverse with
      | none => .error .escapes
      | some there => .ok there.reverse := by
  induction parts generalizing out with
  | nil =>
    rw [← h, resolveLoop, List.map_nil, Step.walk]
    exact congrArg Except.ok (List.reverse_reverse out).symm
  | cons part rest ih =>
    rw [resolveLoop] at h
    rw [List.map_cons, toStep]
    split at h
    next hskip =>
      rw [if_pos hskip]
      exact ih h
    next hskip =>
      rw [if_neg hskip]
      split at h
      next hup =>
        rw [if_pos hup]
        split at h
        next hroot =>
          rw [hroot, ← h]
          rfl
        next hroot =>
          obtain ⟨above, name, rfl⟩ := List.eq_nil_or_concat out |>.resolve_left hroot
          rw [List.concat_eq_append] at h ⊢
          rw [List.dropLast_concat] at h
          rw [List.reverse_append, List.reverse_singleton, List.singleton_append]
          exact ih h
      next hup =>
        rw [if_neg hup]
        split at h
        next =>
          exact absurd h.symm hlong
        next =>
          have hlater := ih h
          rw [List.reverse_append, List.reverse_singleton, List.singleton_append] at hlater
          exact hlater

/-! ## Normalising -/

theorem not_mem_slash_names {path part : String} (h : part ∈ names (split path '/')) :
    '/' ∉ part.toList := not_mem_of_mem_split (List.mem_filter.mp h).1

/-- The characters of a joined path are slashes, or characters of its parts. -/
theorem mem_join {c : Char} (h : c ∈ ("/".intercalate parts).toList) :
    c = '/' ∨ ∃ part ∈ parts, c ∈ part.toList := by
  rw [String.toList_intercalate] at h
  rcases mem_intercalate.1 h with hsep | ⟨chars, hchars, hc⟩
  · exact .inl hsep
  · obtain ⟨part, hpart, rfl⟩ := List.mem_map.mp hchars
    exact .inr ⟨part, hpart, hc⟩

/-- The characters of a segment are characters of the path. -/
theorem mem_of_mem_split {s part : String} {c : Char} (hpart : part ∈ split s '/')
    (hc : c ∈ part.toList) : c ∈ s.toList := by
  rw [← intercalate_split s, String.toList_intercalate]
  exact mem_intercalate.2 part.toList (List.mem_map_of_mem hpart) hc

theorem hasIllegalChars_eq_false_iff {s : String} :
    hasIllegalChars s = false ↔ ∀ c ∈ s.toList, isControl c = false ∧ c ≠ '\\' := by
  simp [hasIllegalChars]

/-- What normalising answers: names of the input, within the caps. -/
theorem normalize_ok {input path : String} (h : normalize input = .ok path) :
    path = "/".intercalate (names (split input '/')) ∧
      segments path = names (split input '/') ∧
      (∀ part ∈ segments path, IsName part ∧ part.utf8ByteSize ≤ maxSegmentLen) ∧
      hasIllegalChars input = false ∧ path.utf8ByteSize ≤ maxPathLen := by
  unfold normalize at h
  split at h
  next => contradiction
  next hlegal =>
    split at h
    next => contradiction
    next =>
      split at h
      next => contradiction
      next out hout =>
        obtain ⟨hresult, hnames⟩ := normalizeLoop_ok hout
        dsimp only at h
        split at h
        next => contradiction
        next hlen =>
          obtain rfl := Except.ok.inj h
          rw [List.nil_append] at hresult
          subst hresult
          have hsegments := segments_intercalate fun part hpart =>
            ⟨not_mem_slash_names hpart, (hnames part hpart).1.1⟩
          exact ⟨rfl, hsegments, hsegments.symm ▸ hnames, by simpa using hlegal, by omega⟩

/-- A path of names within the caps is left as it is. -/
theorem normalize_names {path : String} (hlegal : hasIllegalChars path = false)
    (hlen : path.utf8ByteSize ≤ maxPathLen)
    (hnames : ∀ part ∈ segments path, IsName part ∧ part.utf8ByteSize ≤ maxSegmentLen) :
    normalize path = .ok path := by
  unfold normalize
  rw [if_neg (by simp [hlegal]), if_neg (by omega)]
  by_cases hempty : path = ""
  · subst hempty
    decide
  · rw [segments, if_neg hempty] at hnames
    rw [normalizeLoop_names (fun part hpart => (hnames part hpart).1)
      (fun part hpart => (hnames part hpart).2)]
    dsimp only
    rw [List.nil_append, intercalate_split, if_neg (by omega)]

theorem hasIllegalChars_join {s : String} (h : hasIllegalChars s = false)
    (hparts : ∀ part ∈ parts, part ∈ split s '/') :
    hasIllegalChars ("/".intercalate parts) = false := by
  rw [hasIllegalChars_eq_false_iff] at h ⊢
  intro c hc
  rcases mem_join hc with rfl | ⟨part, hpart, hc⟩
  · decide
  · exact h c (mem_of_mem_split (hparts part hpart) hc)

theorem not_mem_backslash {s : String} (h : hasIllegalChars s = false) : '\\' ∉ s.toList :=
  fun hmem => (hasIllegalChars_eq_false_iff.mp h _ hmem).2 rfl

/-- Normalising answers what the table admits, and what it leaves as it is. -/
theorem normalize_spec {input path : String} (h : normalize input = .ok path) :
    (∀ part ∈ segments path, IsName part) ∧ pathNormalized path = true ∧
      normalize path = .ok path := by
  obtain ⟨hjoin, _, hparts, hlegal, hlen⟩ := normalize_ok h
  have hlegal' : hasIllegalChars path = false := by
    rw [hjoin]
    exact hasIllegalChars_join hlegal fun part hpart => (List.mem_filter.mp hpart).1
  have hnames := fun part hpart => (hparts part hpart).1
  exact ⟨hnames, (pathNormalized_iff path).mpr ⟨hnames, not_mem_backslash hlegal'⟩,
    normalize_names hlegal' hlen hparts⟩

/-- A path that the table admits is left as it is where it is within the caps and free of
control characters. -/
theorem normalize_eq_self {path : String} (hcheck : pathNormalized path = true)
    (hcontrol : ∀ c ∈ path.toList, isControl c = false) (hlen : path.utf8ByteSize ≤ maxPathLen)
    (hshort : ∀ part ∈ segments path, part.utf8ByteSize ≤ maxSegmentLen) :
    normalize path = .ok path := by
  obtain ⟨hnames, hbackslash⟩ := (pathNormalized_iff path).mp hcheck
  apply normalize_names _ hlen fun part hpart => ⟨hnames part hpart, hshort part hpart⟩
  rw [hasIllegalChars_eq_false_iff]
  intro c hc
  refine ⟨hcontrol c hc, ?_⟩
  rintro rfl
  exact hbackslash hc

/-! ## Resolving -/

/-- A path without another error resolves to where its walk leads, and escapes where it leads out. -/
theorem resolve_eq {rel : String} (hillegal : resolve rel ≠ .error .illegal)
    (hlong : resolve rel ≠ .error .tooLong) :
    resolve rel = match Step.walk (steps rel) [] with
      | none => .error .escapes
      | some there => .ok ("/".intercalate there.reverse) := by
  unfold resolve at hillegal hlong ⊢
  split at hillegal
  next => exact absurd rfl hillegal
  next hlegal =>
    rw [if_neg hlegal] at hlong ⊢
    split at hlong
    next => exact absurd rfl hlong
    next hlen =>
      rw [if_neg hlen]
      have hloop : resolveLoop [] (split rel '/') ≠ .error .tooLong := by
        intro heq
        rw [heq] at hlong
        exact hlong rfl
      rw [resolveLoop_ok rfl hloop]
      change Except.map _ (match Step.walk (steps rel) [] with
        | none => Except.error PathError.escapes
        | some there => .ok there.reverse) = _
      cases Step.walk (steps rel) [] with
      | none => rfl
      | some there => rfl

/-- Names and parents among segments are steps down and up. -/
theorem climbs_steps_iff (rel : String) (k : Nat) :
    Step.Climbs (steps rel) k ↔
      ((split rel '/').take k).countP (fun part => decide (IsName part)) <
        ((split rel '/').take k).count ".." := by
  have hdown : ∀ part : String, Step.isDown (toStep part) = decide (IsName part) := by
    intro part
    unfold toStep
    split
    next hskip => rcases hskip with rfl | rfl <;> decide
    next hskip =>
      split
      next hup =>
        subst hup
        decide
      next hup =>
        obtain ⟨hempty, hdot⟩ := not_or.mp hskip
        exact (decide_eq_true (⟨hempty, hdot, hup⟩ : IsName part)).symm
  have hup : ∀ part : String, Step.isUp (toStep part) = (part == "..") := by
    intro part
    unfold toStep
    split
    next hskip => rcases hskip with rfl | rfl <;> decide
    next =>
      split
      next hup =>
        subst hup
        decide
      next hup => exact (beq_false_of_ne hup).symm
  unfold Step.Climbs steps
  rw [← List.map_take, List.countP_map, List.countP_map, List.count]
  simp only [Function.comp_def, hdown, hup]

/-! ## Jails and links -/

/-- What is looked up in the repository lies beneath the jail. -/
theorem segments_inRepo (jail rel : String) :
    segments (inRepo jail rel) = segments jail ++ segments rel := by
  unfold inRepo
  by_cases hjail : jail = ""
  · rw [if_pos hjail, hjail]
    rfl
  · rw [if_neg hjail]
    by_cases hrel : rel = ""
    · rw [if_pos hrel, hrel]
      exact (List.append_nil _).symm
    · have hne : jail ++ "/" ++ rel ≠ "" := by
        rw [← String.toList_inj.ne, String.toList_append, String.toList_append]
        simp
      rw [if_neg hrel, segments, segments, segments, if_neg hne, if_neg hjail, if_neg hrel, split,
        split, split, ← List.map_append, String.toList_append, String.toList_append]
      congr 1
      have hsplit := List.splitOn_append_cons_self jail.toList rel.toList (a := '/')
      simpa using hsplit

/-- The directory of a document: its segments but the last. -/
def directory (source : String) : String := "/".intercalate (split source '/').dropLast

/-- A link, joined to the directory of its document, or to the root. -/
def linkPath (source href : String) : String :=
  if startsWith href "/" ∨ directory source = "" then href
  else directory source ++ "/" ++ href

theorem rsplitOnce_directory (source : String) :
    ((rsplitOnce source '/').map Prod.fst).getD "" = directory source := by
  have hparts := List.takeWhile_append_dropWhile (p := (· != '/')) (l := source.toList.reverse)
  have hlast : '/' ∉ (source.toList.reverse.takeWhile (· != '/')).reverse := by
    intro hmem
    have hslash := List.mem_takeWhile_imp (List.mem_reverse.mp hmem)
    contradiction
  unfold rsplitOnce directory
  cases hback : source.toList.reverse.dropWhile (· != '/') with
  | nil =>
    -- no slash, and one segment only
    rw [hback, List.append_nil] at hparts
    rw [hparts, List.reverse_reverse] at hlast
    rw [split, List.splitOn_eq_singleton hlast]
    rfl
  | cons c before =>
    have hc : c = '/' := by
      have hne : source.toList.reverse.dropWhile (· != '/') ≠ [] := by
        rw [hback]
        exact List.cons_ne_nil c before
      have hhead := List.head_dropWhile_not (· != '/') hne
      simpa [hback] using hhead
    subst hc
    rw [hback] at hparts
    have hwhole : source.toList = before.reverse ++
        '/' :: (source.toList.reverse.takeWhile (· != '/')).reverse := by
      calc source.toList = source.toList.reverse.reverse := (List.reverse_reverse _).symm
        _ = (source.toList.reverse.takeWhile (· != '/') ++ '/' :: before).reverse :=
          congrArg List.reverse hparts.symm
        _ = _ := by rw [List.reverse_append, List.reverse_cons, List.append_assoc,
          List.singleton_append]
    have hsplit : source.toList.splitOn '/' = before.reverse.splitOn '/' ++
        [(source.toList.reverse.takeWhile (· != '/')).reverse] := by
      rw [hwhole, List.splitOn_append_cons_self, ← hwhole, List.splitOn_eq_singleton hlast]
    have hrest : split source '/' = split (String.ofList before.reverse) '/' ++
        [String.ofList (source.toList.reverse.takeWhile (· != '/')).reverse] := by
      rw [split, hsplit, List.map_append, split, String.toList_ofList]
      rfl
    rw [hrest, List.dropLast_concat, intercalate_split]
    rfl

theorem resolveLink_eq (source href : String) :
    resolveLink source href = resolve (linkPath source href) := by
  unfold resolveLink linkPath
  rw [rsplitOnce_directory]
  by_cases hroot : startsWith href "/" = true
  · rw [if_pos hroot, if_pos (.inl hroot)]
  · rw [if_neg hroot]
    dsimp only
    by_cases hdir : directory source = ""
    · rw [if_pos hdir, if_pos (.inr hdir)]
    · rw [if_neg hdir, if_neg (not_or.mpr ⟨hroot, hdir⟩)]

/-! ## The jail -/

/-- The jail of a source and the paths within it: normalising answers what the table admits
and leaves such a path alone, resolving follows the path and refuses exactly one that leads out
of the jail, and what is looked up lies beneath the jail. -/
theorem path_jail :
    (∀ input, (∃ e, normalize input = .error e) ∨ ∃ path, normalize input = .ok path ∧
      (∀ part ∈ segments path, IsName part) ∧ pathNormalized path = true ∧
        normalize path = .ok path) ∧
    (∀ path, pathNormalized path = true → (∀ c ∈ path.toList, isControl c = false) →
      path.utf8ByteSize ≤ maxPathLen →
      (∀ part ∈ segments path, part.utf8ByteSize ≤ maxSegmentLen) → normalize path = .ok path) ∧
    (∀ rel, resolve rel ≠ .error .illegal → resolve rel ≠ .error .tooLong →
      (resolve rel = .error .escapes ↔ ∃ k, ((split rel '/').take k).countP
        (fun part => decide (IsName part)) < ((split rel '/').take k).count "..") ∧
      (resolve rel ≠ .error .escapes → ∃ there, Step.walk (steps rel) [] = some there ∧
        resolve rel = .ok ("/".intercalate there.reverse))) ∧
    (∀ jail rel path resolved, normalize jail = .ok path → resolve rel = .ok resolved →
      segments (inRepo path resolved) = names (split jail '/') ++ segments resolved) ∧
    ∀ source href, resolveLink source href = resolve (linkPath source href) := by
  refine ⟨fun input => ?_, fun path => normalize_eq_self, fun rel hillegal hlong => ?_,
    fun jail rel path resolved hpath _ => ?_, resolveLink_eq⟩
  · cases h : normalize input with
    | error e => exact .inl ⟨e, rfl⟩
    | ok path => exact .inr ⟨path, rfl, normalize_spec h⟩
  · have heq := resolve_eq hillegal hlong
    have hclimbs : Step.walk (steps rel) [] = none ↔ ∃ k, Step.Climbs (steps rel) k :=
      Step.walk_nil_eq_none_iff
    simp only [climbs_steps_iff] at hclimbs
    rw [← hclimbs, heq]
    cases Step.walk (steps rel) [] with
    | none => simp
    | some there => simp
  · rw [segments_inRepo, (normalize_ok hpath).2.1]

theorem utf8ByteSize_replicate (n : Nat) :
    (String.ofList (List.replicate n 'a')).utf8ByteSize = n := by
  induction n with
  | zero => rfl
  | succ n ih =>
    have hone : 'a'.utf8Size = 1 := rfl
    rw [List.replicate_succ', String.ofList_append, String.utf8ByteSize_append, ih,
      ← String.singleton_eq_ofList, String.utf8ByteSize_singleton, hone]

/-- The table admits a segment that normalising refuses for its length. -/
theorem long_segment_refused :
    ¬ ∀ path, pathNormalized path = true → (∀ c ∈ path.toList, isControl c = false) →
      path.utf8ByteSize ≤ maxPathLen → normalize path = .ok path := by
  intro h
  obtain ⟨path, hpath⟩ : ∃ path, path = String.ofList (List.replicate 256 'a') := ⟨_, rfl⟩
  have hsize : path.utf8ByteSize = 256 := by rw [hpath, utf8ByteSize_replicate]
  have hchars : ∀ c ∈ path.toList, c = 'a' := by
    intro c hc
    rw [hpath, String.toList_ofList] at hc
    exact List.eq_of_mem_replicate hc
  have hslash : '/' ∉ path.toList := fun hmem => absurd (hchars _ hmem) (by decide)
  -- a name that is too long, by itself
  have hname : IsName path := by
    refine ⟨?_, ?_, ?_⟩ <;> intro heq <;> rw [heq] at hsize <;> exact absurd hsize (by decide)
  have hsegments : segments path = [path] := by
    have hone : segments ("/".intercalate [path]) = [path] :=
      segments_intercalate (by simpa using ⟨hslash, hname.1⟩)
    simpa using hone
  have hadmitted : pathNormalized path = true := by
    rw [pathNormalized_iff, hsegments]
    exact ⟨by simpa using hname, fun hmem => absurd (hchars _ hmem) (by decide)⟩
  have hlong := h path hadmitted (fun c hc => hchars c hc ▸ by decide) (hsize ▸ by decide)
  have hmem : path ∈ segments path := hsegments ▸ List.mem_singleton.mpr rfl
  have hshort := ((normalize_ok hlong).2.2.1 path hmem).2
  rw [hsize] at hshort
  contradiction

end IntelliPilot.Docs
