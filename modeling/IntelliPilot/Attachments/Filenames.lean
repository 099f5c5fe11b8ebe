import IntelliPilot.Text.Trimming
import Mathlib

/-! # Names of stored files

A name given by a client becomes one component of a path. Each outer layer of
blanks and dots is trimmed once, and the cut to the longest name comes last, so that a
dot below a blank, or a blank before the cut, can end up at an end of the name.
-/

namespace IntelliPilot.Attachments.Filenames

open Auth (isWhitespace)
open Text (trimChars)

/-- `str::trim_matches`. -/
def trimMatches (p : Char → Bool) (s : List Char) : List Char := (s.dropWhile p).rdropWhile p

def byteLen (s : List Char) : Nat := (s.map Char.utf8Size).sum

/-- `char::is_control`. -/
def isControl (c : Char) : Bool := c.toNat < 32 || (127 ≤ c.toNat && c.toNat ≤ 159)

def isSeparator (c : Char) : Bool := c == '/' || c == '\\'

def isDot (c : Char) : Bool := c == '.'

/-- The cut at the last boundary of characters within `limit` bytes. -/
def truncate : Nat → List Char → List Char
  | _, [] => []
  | limit, c :: rest =>
      if c.utf8Size ≤ limit then c :: truncate (limit - c.utf8Size) rest else []

def maxLen : Nat := 200

/-- The last component of a path, without what may not stand in a name. -/
def component (raw : List Char) : List Char :=
  (raw.rtakeWhile (!isSeparator ·)).filter fun c => !(isControl c || isSeparator c || c == '\x00')

/-- The name below its outer blanks, its outer dots and the blanks there. -/
def inner (name : List Char) : List Char := trimChars (trimMatches isDot (trimChars name))

def sanitizeFilename (raw : List Char) : List Char :=
  let trimmed := inner (component raw)
  let result :=
    if maxLen < byteLen trimmed then trimMatches isDot (truncate maxLen trimmed) else trimmed
  if result = [] ∨ result = ['.'] ∨ result = ['.', '.'] then ['f', 'i', 'l', 'e'] else result

/-- No character of the kind stands at an end. -/
def Clear (p : Char → Bool) (s : List Char) : Prop :=
  (∀ c ∈ s.head?, p c = false) ∧ ∀ c ∈ s.getLast?, p c = false

instance (p : Char → Bool) (s : List Char) : Decidable (Clear p s) :=
  inferInstanceAs (Decidable (_ ∧ _))

/-- The normal form of a name. -/
structure Safe (name : List Char) : Prop where
  ne_nil : name ≠ []
  short : byteLen name ≤ maxLen
  plain : ∀ c ∈ name, isSeparator c = false ∧ isControl c = false
  dots : Clear isDot name
  blanks : Clear isWhitespace name
  stable : sanitizeFilename name = name

/-- What is left of a name below its outer layers shows no dot, unless it is nothing else
than one or two; and where it is too long, the piece that is kept shows no blank. -/
def Settles (name : List Char) : Prop :=
  if byteLen (inner name) ≤ maxLen then Clear isDot (inner name) ∨ inner name <+: ['.', '.']
  else Clear isWhitespace (trimMatches isDot (truncate maxLen (inner name)))

/-! ## Trimming -/

theorem trimMatches_clear (p : Char → Bool) (s : List Char) : Clear p (trimMatches p s) := by
  constructor
  · intro c hc
    obtain ⟨t, ht⟩ := List.rdropWhile_prefix p (s.dropWhile p)
    have hhead : (s.dropWhile p).head? = some c := by
      rw [trimMatches] at hc
      rw [← ht, List.head?_append, Option.mem_def.mp hc]
      rfl
    have hnot := List.head?_dropWhile_not p s
    rw [hhead] at hnot
    simpa using hnot
  · intro c hc
    obtain ⟨hne, hlast⟩ := List.mem_getLast?_eq_getLast hc
    have hnot := List.rdropWhile_last_not p (s.dropWhile p) hne
    rw [hlast]
    exact Bool.eq_false_iff.mpr hnot

theorem trimMatches_eq_self {p : Char → Bool} {s : List Char} (h : Clear p s) :
    trimMatches p s = s := by
  have hleft : s.dropWhile p = s := by
    cases s with
    | nil => rfl
    | cons c rest => exact List.dropWhile_cons_of_neg (by simp [h.1 c rfl])
  rw [trimMatches, hleft, List.rdropWhile_eq_self_iff]
  intro hne
  simp [h.2 _ (List.getLast?_eq_some_getLast hne)]

theorem mem_trimMatches {p : Char → Bool} {s : List Char} {c : Char} (h : c ∈ trimMatches p s) :
    c ∈ s :=
  (List.dropWhile_suffix p).subset ((List.rdropWhile_prefix p _).subset h)

theorem byteLen_trimMatches (p : Char → Bool) (s : List Char) :
    byteLen (trimMatches p s) ≤ byteLen s :=
  (((List.rdropWhile_prefix p _).sublist.trans (List.dropWhile_suffix p).sublist).map _).sum_le_sum
    fun _ _ => Nat.zero_le _

theorem truncate_isPrefix (limit : Nat) (s : List Char) : truncate limit s <+: s := by
  induction s generalizing limit with
  | nil => exact List.prefix_rfl
  | cons c rest ih =>
    rw [truncate]
    split
    · exact List.prefix_cons_inj c |>.mpr (ih _)
    · exact List.nil_prefix

theorem byteLen_truncate (limit : Nat) (s : List Char) : byteLen (truncate limit s) ≤ limit := by
  induction s generalizing limit with
  | nil => exact Nat.zero_le _
  | cons c rest ih =>
    rw [truncate]
    split
    · have hrest := ih (limit - c.utf8Size)
      simp only [byteLen, List.map_cons, List.sum_cons] at hrest ⊢
      omega
    · exact Nat.zero_le _

/-! ## The normal form -/

theorem component_plain {raw : List Char} {c : Char} (h : c ∈ component raw) :
    isSeparator c = false ∧ isControl c = false := by
  have hkept := (List.mem_filter.mp h).2
  simp only [Bool.not_eq_true', Bool.or_eq_false_iff] at hkept
  exact ⟨hkept.1.2, hkept.1.1⟩

theorem component_eq_self {name : List Char}
    (h : ∀ c ∈ name, isSeparator c = false ∧ isControl c = false) : component name = name := by
  have htake : name.rtakeWhile (!isSeparator ·) = name :=
    List.rtakeWhile_eq_self_iff.mpr fun c hc => by simp [(h c hc).1]
  rw [component, htake, List.filter_eq_self]
  intro c hc
  have hzero : (c == '\x00') = false := by
    refine beq_eq_false_iff_ne.mpr ?_
    rintro rfl
    exact absurd (h _ hc).2 (by decide)
  simp [(h c hc).1, (h c hc).2, hzero]

theorem mem_inner {name : List Char} {c : Char} (h : c ∈ inner name) : c ∈ name :=
  mem_trimMatches (mem_trimMatches (mem_trimMatches h))

theorem inner_blanks (name : List Char) : Clear isWhitespace (inner name) :=
  trimMatches_clear isWhitespace _

theorem inner_eq_self {name : List Char} (hdots : Clear isDot name)
    (hblanks : Clear isWhitespace name) : inner name = name := by
  have htrim : trimChars name = name := trimMatches_eq_self hblanks
  rw [inner, htrim, trimMatches_eq_self hdots, htrim]

/-- All but the ends of a sanitised name is as it should be. -/
theorem sanitize_plain (raw : List Char) :
    sanitizeFilename raw ≠ [] ∧ byteLen (sanitizeFilename raw) ≤ maxLen ∧
      ∀ c ∈ sanitizeFilename raw, isSeparator c = false ∧ isControl c = false := by
  have hkept : ∀ name kept, (kept = if maxLen < byteLen name then
      trimMatches isDot (truncate maxLen name) else name) →
      byteLen kept ≤ maxLen ∧ ∀ c ∈ kept, c ∈ name := by
    rintro name _ rfl
    split
    · exact ⟨(byteLen_trimMatches _ _).trans (byteLen_truncate _ _),
        fun c hc => (truncate_isPrefix _ _).subset (mem_trimMatches hc)⟩
    · exact ⟨Nat.le_of_not_lt ‹_›, fun c hc => hc⟩
  rw [sanitizeFilename]
  generalize hresult : (if maxLen < byteLen (inner (component raw)) then _ else _) = result
  obtain ⟨hshort, hmem⟩ := hkept _ result hresult.symm
  by_cases hbare : result = [] ∨ result = ['.'] ∨ result = ['.', '.']
  · rw [if_pos hbare]
    exact ⟨List.cons_ne_nil _ _, by decide, by decide⟩
  · rw [if_neg hbare]
    exact ⟨fun hnil => hbare (Or.inl hnil), hshort,
      fun c hc => component_plain (mem_inner (hmem c hc))⟩

end IntelliPilot.Attachments.Filenames
