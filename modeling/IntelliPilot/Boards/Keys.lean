import IntelliPilot.Text.Trimming
import Mathlib

/-! # Short keys of boards

How a key is derived from a board's name, what a key may look like, and how
the path segment of a board is read.
-/

namespace IntelliPilot.Boards

open Auth (trim)

abbrev Uuid := Nat

/-! ## Characters and texts -/

/-- `is_ascii_lowercase` or `is_ascii_digit`: the class `[a-z0-9]`. -/
def isKeyAlphanumeric (c : Char) : Bool := c.isLower || c.isDigit

/-- `str::to_ascii_lowercase`. -/
def toAsciiLowercase (s : String) : String := String.ofList (s.toList.map Char.toLower)

/-- `char::to_lowercase`, up to letters outside ASCII: those have a lower case outside ASCII,
but for the Kelvin sign and the dotted capital I. -/
def toLowercase (c : Char) : List Char :=
  if c.toNat = 0x212A then ['k']
  else if c.toNat = 0x130 then ['i', Char.ofNat 0x307]
  else [c.toLower]

/-! ## Derivation -/

/-- `key_base`: the words of the name, then initials or the beginning of the only word. -/
def keyBase (name : String) : List Char :=
  let lowered := name.toList.flatMap toLowercase
  let words := (lowered.splitOnP fun c => !c.isAlphanum).filter fun w => !w.isEmpty
  match words with
  | [] => ['b']
  | [word] => word.take 6
  | many => (many.take 6).filterMap List.head?

/-- The text that tells the `n`-th candidate from the first. -/
def suffix (n : Nat) : List Char := '-' :: Nat.toDigits 10 n

/-- The `n`-th candidate: the base itself, then the base with `-2`, `-3` and so on. -/
def candidate (base : List Char) (n : Nat) : String :=
  if n ≤ 1 then String.ofList base
  else String.ofList (base.take (12 - (suffix n).length) ++ suffix n)

/-- `u32::MAX`, where the counter of the candidates stays. -/
def maxCandidate : Nat := 4294967295

/-! ## Format -/

/-- `valid_key`: what an update accepts, once lowercased. -/
def validKey (key : String) : Bool :=
  let b := key.toList
  !b.isEmpty && key.utf8ByteSize ≤ 12 && b.head?.any Char.isAlphanum &&
    b.getLast?.any Char.isAlphanum && b.all fun c => c.isAlphanum || c == '-'

/-- `boards_key_format`: `^[a-z0-9]([a-z0-9-]{0,10}[a-z0-9])?$`. -/
def keyFormat (key : String) : Bool :=
  match key.toList with
  | [] => false
  | first :: rest => isKeyAlphanumeric first &&
      match rest.getLast? with
      | none => true
      | some last => isKeyAlphanumeric last && rest.dropLast.length ≤ 10 &&
          rest.dropLast.all fun c => isKeyAlphanumeric c || c == '-'

/-! ## Path segments -/

/-- The value of a hexadecimal digit. -/
def hexDigit (c : Char) : Option Nat :=
  if c.isDigit then some (c.toNat - '0'.toNat)
  else if 'a' ≤ c.toLower ∧ c.toLower ≤ 'f' then some (c.toLower.toNat - 'a'.toNat + 10)
  else none

def parseSimple (digits : List Char) : Option Uuid :=
  digits.foldlM (fun value c => (hexDigit c).map (16 * value + ·)) 0

/-- Five groups of digits, with a dash after each but the last. -/
def parseHyphenated (s : List Char) : Option Uuid :=
  if [8, 13, 18, 23].all (fun n => s[n]? == some '-') then
    parseSimple (s.take 8 ++ (s.drop 9).take 4 ++ (s.drop 14).take 4 ++ (s.drop 19).take 4 ++
      s.drop 24)
  else none

/-- `Uuid::parse_str`: plain, hyphenated, in braces, or as a URN. -/
def parseUuid (text : String) : Option Uuid :=
  let s := text.toList
  if text.utf8ByteSize = 32 then parseSimple s
  else if text.utf8ByteSize = 36 then parseHyphenated s
  else if text.utf8ByteSize = 38 ∧ s.head? = some (Char.ofNat 0x7B) ∧
      s.getLast? = some (Char.ofNat 0x7D) then
    parseHyphenated (s.drop 1).dropLast
  else if text.utf8ByteSize = 45 ∧ s.take 9 = "urn:uuid:".toList then parseHyphenated (s.drop 9)
  else none

/-! ## What is derived -/

theorem length_le_utf8ByteSize (s : String) : s.toList.length ≤ s.utf8ByteSize := by
  rw [← String.ofList_toList (s := s), String.utf8ByteSize_ofList, String.toList_ofList]
  induction s.toList with
  | nil => exact Nat.le_refl 0
  | cons c rest ih =>
    have hc := c.utf8Size_pos
    rw [List.length_cons, String.utf8Len_cons]
    omega

theorem isUpper_toLower (c : Char) : c.toLower.isUpper = false := by
  unfold Char.toLower
  split
  · rename_i h
    have hlower : 65 ≤ c.val.toNat := h.1
    have hupper : c.val.toNat ≤ 90 := h.2
    rw [Bool.eq_false_iff]
    intro hstill
    simp only [Char.isUpper, decide_eq_true_eq, ge_iff_le] at hstill
    have hle : (c.val + ('a'.val - 'A'.val)).toNat ≤ 90 := hstill.2
    have hgap : ('a'.val - 'A'.val).toNat = 32 := rfl
    rw [UInt32.toNat_add, hgap] at hle
    omega
  · rename_i h
    simpa [Char.isUpper] using h

theorem isKeyAlphanumeric_toLower {c : Char} (h : c.toLower.isAlphanum = true) :
    isKeyAlphanumeric c.toLower = true := by
  simpa only [Char.isAlphanum, Char.isAlpha, isUpper_toLower, Bool.false_or, isKeyAlphanumeric]
    using h

theorem isKeyAlphanumeric_of_mem_toLowercase {c d : Char} (hd : d ∈ toLowercase c)
    (halphanumeric : d.isAlphanum = true) : isKeyAlphanumeric d = true := by
  unfold toLowercase at hd
  split at hd
  · rw [List.mem_singleton.mp hd]
    decide
  · split at hd
    · rcases List.mem_cons.mp hd with rfl | hd
      · decide
      · rw [List.mem_singleton.mp hd] at halphanumeric
        exact absurd halphanumeric (by decide)
    · rw [List.mem_singleton.mp hd] at halphanumeric ⊢
      exact isKeyAlphanumeric_toLower halphanumeric

/-- The pieces of a split hold the elements that do not separate. -/
theorem mem_of_mem_splitOnP {α : Type} {p : α → Bool} {l piece : List α}
    (hpiece : piece ∈ l.splitOnP p) {c : α} (hc : c ∈ piece) : c ∈ l ∧ p c = false := by
  induction l generalizing piece with
  | nil =>
    rw [List.splitOnP_nil, List.mem_singleton] at hpiece
    exact absurd (hpiece ▸ hc) List.not_mem_nil
  | cons head tail ih =>
    rw [List.splitOnP_cons_eq_if_modifyHead] at hpiece
    split at hpiece
    · rcases List.mem_cons.mp hpiece with rfl | hpiece
      · exact absurd hc List.not_mem_nil
      · obtain ⟨hmem, hp⟩ := ih hpiece hc
        exact ⟨List.mem_cons_of_mem _ hmem, hp⟩
    · rename_i hhead
      cases hsplit : tail.splitOnP p with
      | nil => exact absurd hsplit (List.splitOnP_ne_nil p tail)
      | cons first others =>
        rw [hsplit, List.modifyHead_cons] at hpiece
        rcases List.mem_cons.mp hpiece with rfl | hpiece
        · rcases List.mem_cons.mp hc with rfl | hc
          · exact ⟨List.mem_cons_self, by simpa using hhead⟩
          · obtain ⟨hmem, hp⟩ := ih (hsplit ▸ List.mem_cons_self) hc
            exact ⟨List.mem_cons_of_mem _ hmem, hp⟩
        · obtain ⟨hmem, hp⟩ := ih (hsplit ▸ List.mem_cons_of_mem _ hpiece) hc
          exact ⟨List.mem_cons_of_mem _ hmem, hp⟩

/-- One to six characters of `[a-z0-9]`. -/
theorem keyBase_spec (name : String) :
    keyBase name ≠ [] ∧ (keyBase name).length ≤ 6 ∧
      ∀ c ∈ keyBase name, isKeyAlphanumeric c = true := by
  have hwords : ∀ w ∈ ((name.toList.flatMap toLowercase).splitOnP fun c => !c.isAlphanum).filter
      (fun w => !w.isEmpty), w ≠ [] ∧ ∀ c ∈ w, isKeyAlphanumeric c = true := by
    intro w hw
    obtain ⟨hpiece, hne⟩ := List.mem_filter.mp hw
    refine ⟨by simpa using hne, ?_⟩
    intro c hc
    obtain ⟨hmem, halphanumeric⟩ := mem_of_mem_splitOnP hpiece hc
    obtain ⟨d, _, hd⟩ := List.mem_flatMap.mp hmem
    exact isKeyAlphanumeric_of_mem_toLowercase hd (by simpa using halphanumeric)
  unfold keyBase
  dsimp only
  split
  · exact ⟨by simp, by simp, by decide⟩
  · rename_i word heq
    obtain ⟨hne, hall⟩ := hwords word (heq ▸ List.mem_cons_self)
    refine ⟨by simpa using hne, List.length_take_le _ _, ?_⟩
    exact fun c hc => hall c (List.mem_of_mem_take hc)
  · rename_i hempty _
    refine ⟨?_, ?_, ?_⟩
    · intro hnil
      obtain ⟨w, hw⟩ := List.exists_mem_of_ne_nil _ hempty
      cases hlist : ((name.toList.flatMap toLowercase).splitOnP fun c => !c.isAlphanum).filter
          (fun w => !w.isEmpty) with
      | nil => exact hempty hlist
      | cons first others =>
        rw [hlist, List.take_succ_cons, List.filterMap_eq_nil_iff] at hnil
        have hfirst := hnil first List.mem_cons_self
        exact (hwords first (hlist ▸ List.mem_cons_self)).1 (List.head?_eq_none_iff.mp hfirst)
    · exact (List.length_filterMap_le _ _).trans (List.length_take_le _ _)
    · intro c hc
      obtain ⟨w, hw, hhead⟩ := List.mem_filterMap.mp hc
      exact (hwords w (List.mem_of_mem_take hw)).2 c (List.mem_of_mem_head? hhead)

theorem suffix_length {n : Nat} (hn : n ≤ maxCandidate) : (suffix n).length ≤ 11 := by
  have hdigits : (Nat.toDigits 10 n).length ≤ 10 := by
    rw [Nat.length_toDigits_le_iff (by omega) (by omega)]
    unfold maxCandidate at hn
    omega
  rw [suffix, List.length_cons]
  omega

theorem mem_suffix {n : Nat} {c : Char} (hc : c ∈ suffix n) :
    c = '-' ∨ isKeyAlphanumeric c = true := by
  rcases List.mem_cons.mp hc with rfl | hc
  · exact Or.inl rfl
  · right
    rw [isKeyAlphanumeric, Nat.isDigit_of_mem_toDigits (by omega) (by omega) hc, Bool.or_true]

/-- What a text of the format is: its ends and its middle. -/
theorem keyFormat_of_chars {key : String} (hpos : key.toList ≠ [])
    (hlength : key.toList.length ≤ 12)
    (hhead : ∀ c ∈ key.toList.head?, isKeyAlphanumeric c = true)
    (hlast : ∀ c ∈ key.toList.getLast?, isKeyAlphanumeric c = true)
    (hall : ∀ c ∈ key.toList, c = '-' ∨ isKeyAlphanumeric c = true) : keyFormat key = true := by
  unfold keyFormat
  cases hlist : key.toList with
  | nil => exact absurd hlist hpos
  | cons first rest =>
    rw [hlist] at hlength hhead hlast hall
    have hfirst : isKeyAlphanumeric first = true := hhead first rfl
    dsimp only
    rw [hfirst, Bool.true_and]
    cases hend : rest.getLast? with
    | none => rfl
    | some last =>
      have hne : rest ≠ [] := by
        rintro rfl
        exact absurd hend (by simp)
      have hlastOf : (first :: rest).getLast? = some last := by
        rw [List.getLast?_cons, hend]
        rfl
      simp only [Bool.and_eq_true, decide_eq_true_eq, List.all_eq_true, Bool.or_eq_true,
        beq_iff_eq]
      refine ⟨⟨hlast last hlastOf, ?_⟩, ?_⟩
      · rw [List.length_dropLast]
        rw [List.length_cons] at hlength
        omega
      · intro c hc
        exact (hall c (List.mem_cons_of_mem _ (List.dropLast_subset _ hc))).symm

/-- Every candidate is a key. -/
theorem keyFormat_candidate (name : String) {n : Nat} (hn : n ≤ maxCandidate) :
    keyFormat (candidate (keyBase name) n) = true := by
  obtain ⟨hne, hlength, hall⟩ := keyBase_spec name
  unfold candidate
  split
  · apply keyFormat_of_chars
    · rwa [String.toList_ofList]
    · rw [String.toList_ofList]
      omega
    · rw [String.toList_ofList]
      exact fun c hc => hall c (List.mem_of_mem_head? hc)
    · rw [String.toList_ofList]
      exact fun c hc => hall c (List.mem_of_mem_getLast? hc)
    · rw [String.toList_ofList]
      exact fun c hc => Or.inr (hall c hc)
  · have hsuffix := suffix_length hn
    -- The suffix leaves room for at least one character of the base.
    have hroom : (keyBase name).take (12 - (suffix n).length) ≠ [] := by
      intro hnil
      rcases List.take_eq_nil_iff.mp hnil with hzero | hnil
      · omega
      · exact hne hnil
    have hdigit : ∀ c ∈ (suffix n).getLast?, isKeyAlphanumeric c = true := by
      intro c hc
      have hdigits : (suffix n).getLast? = (Nat.toDigits 10 n).getLast? := by
        rw [suffix, List.getLast?_cons]
        cases hlast : (Nat.toDigits 10 n).getLast? with
        | none => exact absurd (List.getLast?_eq_none_iff.mp hlast) Nat.toDigits_ne_nil
        | some last => rfl
      rw [hdigits] at hc
      rw [isKeyAlphanumeric,
        Nat.isDigit_of_mem_toDigits (by omega) (by omega) (List.mem_of_mem_getLast? hc),
        Bool.or_true]
    apply keyFormat_of_chars
    · rw [String.toList_ofList]
      exact fun hnil => hroom (List.append_eq_nil_iff.mp hnil).1
    · rw [String.toList_ofList, List.length_append, List.length_take]
      omega
    · rw [String.toList_ofList, List.head?_append_of_ne_nil _ hroom]
      exact fun c hc => hall c (List.mem_of_mem_take (List.mem_of_mem_head? hc))
    · rw [String.toList_ofList, List.getLast?_append_of_ne_nil _ (by simp [suffix])]
      exact hdigit
    · rw [String.toList_ofList]
      intro c hc
      rcases List.mem_append.mp hc with hc | hc
      · exact Or.inr (hall c (List.mem_of_mem_take hc))
      · exact mem_suffix hc

/-- The base holds no dash. -/
theorem dash_not_mem_keyBase (name : String) : '-' ∉ keyBase name :=
  fun hmem => absurd ((keyBase_spec name).2.2 _ hmem) (by decide)

/-! ## What is accepted -/

/-- A lowercased key that is accepted has the format. -/
theorem keyFormat_of_validKey {raw : String}
    (hvalid : validKey (toAsciiLowercase raw) = true) :
    keyFormat (toAsciiLowercase raw) = true := by
  have hlower : ∀ c ∈ (toAsciiLowercase raw).toList, c.isAlphanum = true →
      isKeyAlphanumeric c = true := by
    intro c hc halphanumeric
    rw [toAsciiLowercase, String.toList_ofList] at hc
    obtain ⟨d, _, rfl⟩ := List.mem_map.mp hc
    exact isKeyAlphanumeric_toLower halphanumeric
  simp only [validKey, Bool.and_eq_true, decide_eq_true_eq, List.all_eq_true, Bool.or_eq_true,
    beq_iff_eq, Bool.not_eq_true', List.isEmpty_eq_false_iff] at hvalid
  obtain ⟨⟨⟨⟨hne, hsize⟩, hhead⟩, hlast⟩, hall⟩ := hvalid
  apply keyFormat_of_chars hne
  · exact (length_le_utf8ByteSize _).trans hsize
  · intro c hc
    rw [hc] at hhead
    exact hlower c (List.mem_of_mem_head? hc) hhead
  · intro c hc
    rw [hc] at hlast
    exact hlower c (List.mem_of_mem_getLast? hc) hlast
  · intro c hc
    rcases hall c hc with halphanumeric | hdash
    · exact Or.inr (hlower c hc halphanumeric)
    · exact Or.inl hdash


/-- A key has at most twelve characters, all of them plain. -/
theorem keyFormat_chars {key : String} (h : keyFormat key = true) :
    key.toList.length ≤ 12 ∧ ∀ c ∈ key.toList, c = '-' ∨ isKeyAlphanumeric c = true := by
  unfold keyFormat at h
  split at h
  · exact absurd h (by decide)
  · rename_i first rest hlist
    rw [hlist]
    rw [Bool.and_eq_true] at h
    obtain ⟨hfirst, hrest⟩ := h
    cases hend : rest.getLast? with
    | none =>
      rw [List.getLast?_eq_none_iff.mp hend]
      simpa using Or.inr hfirst
    | some last =>
      simp only [hend, Bool.and_eq_true, decide_eq_true_eq, List.all_eq_true, Bool.or_eq_true,
        beq_iff_eq] at hrest
      obtain ⟨⟨hlast, hlength⟩, hinner⟩ := hrest
      have hsplit : rest.dropLast ++ [last] = rest := List.dropLast_append_getLast? last hend
      rw [← hsplit]
      refine ⟨by rw [List.length_cons, List.length_append, List.length_singleton]; omega, ?_⟩
      intro c hc
      rcases List.mem_cons.mp hc with rfl | hc
      · exact Or.inr hfirst
      · rcases List.mem_append.mp hc with hc | hc
        · exact (hinner c hc).symm
        · rw [List.mem_singleton.mp hc]
          exact Or.inr hlast

/-! ## What a path segment leads to -/

/-- A text of twelve bytes is too short to be read as an identifier. -/
theorem parseUuid_eq_none {text : String} (h : text.utf8ByteSize ≤ 12) : parseUuid text = none := by
  unfold parseUuid
  dsimp only
  rw [if_neg (by omega), if_neg (by omega), if_neg (by omega), if_neg (by omega)]

theorem toLower_eq_self_or (c : Char) : c.toLower = c ∨ c.isUpper = true := by
  unfold Char.toLower Char.isUpper
  split
  · rename_i h
    exact Or.inr (by simpa using h)
  · exact Or.inl rfl

/-- A character whose lower case may stand in a key has one byte and is no blank. -/
theorem plain_of_toLower {c : Char} (h : c.toLower = '-' ∨ isKeyAlphanumeric c.toLower = true) :
    c.utf8Size = 1 ∧ Auth.isWhitespace c = false := by
  have hrange : c.val.toNat ≤ 122 ∧ 45 ≤ c.val.toNat := by
    rcases toLower_eq_self_or c with hself | hupper
    · rw [hself] at h
      rcases h with rfl | h
      · decide
      · simp only [isKeyAlphanumeric, Char.isLower, Char.isDigit, Bool.or_eq_true, Bool.and_eq_true,
          decide_eq_true_eq] at h
        rcases h with h | h
        · have hlow : 97 ≤ c.val.toNat := h.1
          have hhigh : c.val.toNat ≤ 122 := h.2
          omega
        · have hlow : 48 ≤ c.val.toNat := h.1
          have hhigh : c.val.toNat ≤ 57 := h.2
          omega
    · simp only [Char.isUpper, decide_eq_true_eq] at hupper
      have hlow : 65 ≤ c.val.toNat := hupper.1
      have hhigh : c.val.toNat ≤ 90 := hupper.2
      omega
  constructor
  · rw [Char.utf8Size, if_pos]
    exact (show c.val.toNat ≤ 127 by omega)
  · unfold Auth.isWhitespace
    have hn : c.toNat = c.val.toNat := rfl
    simp only [Bool.or_eq_false_iff, Bool.and_eq_false_iff, decide_eq_false_iff_not,
      beq_eq_false_iff_ne]
    omega

/-- The key a path segment asks for. -/
def segmentKey (segment : String) : String := toAsciiLowercase (trim segment)

/-- A key in any case of letters is read as that key. -/
theorem segment_of_key {segment key : String} (hkey : keyFormat key = true)
    (hcase : toAsciiLowercase segment = key) :
    parseUuid segment = none ∧ segmentKey segment = key := by
  obtain ⟨hlength, hchars⟩ := keyFormat_chars hkey
  have hlist : key.toList = segment.toList.map Char.toLower := by
    rw [← hcase, toAsciiLowercase, String.toList_ofList]
  have hplain : ∀ c ∈ segment.toList, c.utf8Size = 1 ∧ Auth.isWhitespace c = false := by
    intro c hc
    exact plain_of_toLower (hchars _ (hlist ▸ List.mem_map_of_mem hc))
  constructor
  · apply parseUuid_eq_none
    have hsize : ∀ l : List Char, (∀ c ∈ l, c.utf8Size = 1) → String.utf8Len l = l.length := by
      intro l hl
      induction l with
      | nil => rfl
      | cons c rest ih =>
        rw [String.utf8Len_cons, ih fun d hd => hl d (List.mem_cons_of_mem _ hd),
          hl c List.mem_cons_self, List.length_cons]
    rw [← String.ofList_toList (s := segment), String.utf8ByteSize_ofList,
      hsize _ fun c hc => (hplain c hc).1]
    rw [hlist, List.length_map] at hlength
    exact hlength
  · rw [segmentKey, Text.trim_eq_self fun c hc => (hplain c hc).2, hcase]

end IntelliPilot.Boards
