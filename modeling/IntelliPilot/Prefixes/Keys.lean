import IntelliPilot.Prefixes.Handlers

/-! # Typed keys

How the spellings of a work item's key are read: a word of letters, which may be
followed by a mark for epics, and a number.
-/

namespace IntelliPilot.Prefixes

open Text (trimChars)
open Projects.Activity (TargetType)
open Search (KeyQuery KeyKind)

/-! ## Characters -/

theorem parseNumber_digits {n : Nat} (hpos : 0 < n) (hsize : n < 10 ^ 18) :
    parseNumber (Nat.toDigits 10 n) = some n := by
  have hlength : (Nat.toDigits 10 n).length ≤ 18 := by
    rw [Nat.length_toDigits_le_iff (by omega) (by omega)]
    exact hsize
  have hdigits : (Nat.toDigits 10 n).all Char.isDigit = true :=
    List.all_eq_true.mpr fun c hc => Nat.isDigit_of_mem_toDigits (by omega) (by omega) hc
  have hempty : (Nat.toDigits 10 n).isEmpty = false := by
    rw [List.isEmpty_eq_false_iff]
    exact Nat.toDigits_ne_nil
  unfold parseNumber
  rw [hempty, hdigits, Nat.ofDigitChars_ten_toDigits, if_neg (by simpa using hlength),
    Option.filter_some, if_pos (by simpa using hpos)]

variable {c : Char}

theorem isWhitespace_alpha (h : c.isAlpha = true) : Auth.isWhitespace c = false := by
  have hrange : 65 ≤ c.toNat ∧ c.toNat ≤ 122 := by
    simp only [Char.isAlpha, Char.isUpper, Char.isLower, Bool.or_eq_true, decide_eq_true_eq,
      Bool.and_eq_true] at h
    rcases h with h | h
    · have hlow : 65 ≤ c.toNat := h.1
      have hhigh : c.toNat ≤ 90 := h.2
      omega
    · have hlow : 97 ≤ c.toNat := h.1
      have hhigh : c.toNat ≤ 122 := h.2
      omega
  unfold Auth.isWhitespace
  simp only [Bool.or_eq_false_iff, Bool.and_eq_false_iff, decide_eq_false_iff_not,
    beq_eq_false_iff_ne]
  omega

theorem digit_range (h : c.isDigit = true) : 48 ≤ c.toNat ∧ c.toNat ≤ 57 := by
  simp only [Char.isDigit, Bool.and_eq_true, decide_eq_true_eq] at h
  exact ⟨h.1, h.2⟩

/-- A digit is no letter, no sign and no blank. -/
theorem digit_plain (h : c.isDigit = true) :
    c.isAlpha = false ∧ c ≠ '-' ∧ c ≠ '#' ∧ Auth.isWhitespace c = false := by
  obtain ⟨hlow, hhigh⟩ := digit_range h
  refine ⟨?_, ?_, ?_, ?_⟩
  · rw [Bool.eq_false_iff]
    intro halpha
    simp only [Char.isAlpha, Char.isUpper, Char.isLower, Bool.or_eq_true, decide_eq_true_eq,
      Bool.and_eq_true] at halpha
    rcases halpha with h | h
    · have hbad : 65 ≤ c.toNat := h.1
      omega
    · have hbad : 97 ≤ c.toNat := h.1
      omega
  · rintro rfl
    exact absurd hlow (by decide)
  · rintro rfl
    exact absurd hlow (by decide)
  · unfold Auth.isWhitespace
    simp only [Bool.or_eq_false_iff, Bool.and_eq_false_iff, decide_eq_false_iff_not,
      beq_eq_false_iff_ne]
    omega

theorem isDigit_of_mem_digits {n : Nat} (hc : c ∈ Nat.toDigits 10 n) :
    c.isDigit = true :=
  Nat.isDigit_of_mem_toDigits (by omega) (by omega) hc

theorem toList_toString (n : Nat) : (toString n).toList = Nat.toDigits 10 n := by
  rw [Nat.toString_eq_ofList_toDigits, String.toList_ofList]

theorem prefixPattern_iff {issuePrefix : String} :
    prefixPattern issuePrefix = true ↔
      2 ≤ issuePrefix.toList.length ∧ issuePrefix.toList.length ≤ 3 ∧
        ∀ c ∈ issuePrefix.toList, c.isAlpha = true := by
  simp [prefixPattern, and_assoc]

/-- Whatever is written in capitals as a capital letter is a letter. -/
theorem isAlpha_of_toUpper (h : c.toUpper.isUpper = true) : c.isAlpha = true := by
  unfold Char.toUpper at h
  rw [Char.isAlpha, Bool.or_eq_true]
  split at h
  next hlower => exact .inr (by simpa [Char.isLower] using hlower)
  next => exact .inl h

theorem toUpper_of_isUpper (h : c.isUpper = true) : c.toUpper = c := by
  simp only [Char.isUpper, decide_eq_true_eq] at h
  unfold Char.toUpper
  split
  next hlower =>
    have hhigh : c.toNat ≤ 90 := h.2
    have hlow : 97 ≤ c.toNat := hlower.1
    omega
  next => rfl

theorem toAsciiUppercase_derivePrefix (name : String) :
    toAsciiUppercase (derivePrefix name) = derivePrefix name := by
  have hformat := prefixFormat_derivePrefix name
  simp only [prefixFormat, Bool.and_eq_true, List.all_eq_true] at hformat
  have hcapitals : (derivePrefix name).toList.map Char.toUpper = (derivePrefix name).toList.map id :=
    List.map_congr_left fun c hc => toUpper_of_isUpper (hformat.2 c hc)
  rw [toAsciiUppercase, hcapitals, List.map_id, String.ofList_toList]

/-! ## The parts of a key -/

theorem stripChar_cons (c : Char) (l : List Char) : stripChar c (c :: l) = l := by
  simp [stripChar]

theorem stripChar_digits (hc : c.isDigit = false) (n : Nat) :
    stripChar c (Nat.toDigits 10 n) = Nat.toDigits 10 n := by
  rw [stripChar, if_neg]
  intro hhead
  have hdigit := isDigit_of_mem_digits (List.mem_of_mem_head? hhead)
  rw [hc] at hdigit
  contradiction

theorem parseKind_digits (n : Nat) :
    parseKind (Nat.toDigits 10 n) = (.issue, Nat.toDigits 10 n) := by
  rw [parseKind, if_neg]
  rintro (hletter | hletter)
  · exact absurd (isDigit_of_mem_digits (List.mem_of_mem_head? hletter)) (by decide)
  · exact absurd (isDigit_of_mem_digits (List.mem_of_mem_head? hletter)) (by decide)

/-- The mark of an epic, in either case. -/
def IsMark (c : Char) : Prop := c = 'E' ∨ c = 'e'

theorem parseKind_mark {mark : Char} (hmark : IsMark mark) (rest : List Char) :
    parseKind (mark :: rest) = (.epic, stripChar '-' rest) := by
  rcases hmark with rfl | rfl <;> simp [parseKind]

/-- A number has no letters. -/
theorem parseNumber_alpha (hc : c.isAlpha = true) (l : List Char) :
    parseNumber (stripChar '#' (c :: l)) = none := by
  have hhash : c ≠ '#' := by
    rintro rfl
    exact absurd hc (by decide)
  have hdigit : c.isDigit = false := by
    rw [Bool.eq_false_iff]
    intro hdigit
    rw [(digit_plain hdigit).1] at hc
    contradiction
  rw [stripChar, if_neg (by simpa using hhash), parseNumber, if_pos]
  simp [hdigit]

/-- A key that begins with two or three letters. -/
theorem parseKey_word {q : String} {word rest : List Char} (hq : trimChars q.toList = word ++ rest)
    (hword : ∀ c ∈ word, c.isAlpha = true) (hlow : 2 ≤ word.length) (hhigh : word.length ≤ 3)
    (hrest : ∀ c ∈ rest.head?, c.isAlpha = false) :
    parseKey q = (parseNumber (parseKind (stripChar '-' rest)).2).map fun number =>
      ⟨some (toAsciiUppercase (String.ofList word)), number, (parseKind (stripChar '-' rest)).1⟩ := by
  have htail : rest.takeWhile Char.isAlpha = [] ∧ rest.dropWhile Char.isAlpha = rest := by
    cases rest with
    | nil => exact ⟨rfl, rfl⟩
    | cons c rest => simp [hrest c rfl]
  obtain ⟨first, others, rfl⟩ : ∃ first others, word = first :: others :=
    List.exists_cons_of_length_pos (by omega)
  have hfirst := parseNumber_alpha (hword first List.mem_cons_self) (others ++ rest)
  rw [← List.cons_append] at hfirst
  unfold parseKey
  dsimp only
  rw [Text.toList_trim, hq, hfirst, List.takeWhile_append_of_pos hword,
    List.dropWhile_append_of_pos hword, htail.1, htail.2, List.append_nil]
  dsimp only
  rw [if_pos ⟨hlow, hhigh⟩]

/-- No key begins with more letters. -/
theorem parseKey_long {q : String} {word rest : List Char} (hq : trimChars q.toList = word ++ rest)
    (hword : ∀ c ∈ word, c.isAlpha = true) (hlong : 3 < word.length) : parseKey q = none := by
  obtain ⟨first, others, rfl⟩ : ∃ first others, word = first :: others :=
    List.exists_cons_of_length_pos (by omega)
  have hfirst := parseNumber_alpha (hword first List.mem_cons_self) (others ++ rest)
  rw [← List.cons_append] at hfirst
  unfold parseKey
  dsimp only
  rw [Text.toList_trim, hq, hfirst, List.takeWhile_append_of_pos hword]
  dsimp only
  rw [if_neg]
  intro hlength
  rw [List.length_append] at hlength
  omega

/-- A number by itself. -/
theorem parseKey_number {q : String} {l : List Char} {n : Nat} (hpos : 0 < n) (hsize : n < 10 ^ 18)
    (hq : trimChars q.toList = l) (hl : stripChar '#' l = Nat.toDigits 10 n) :
    parseKey q = some ⟨none, n, .any⟩ := by
  unfold parseKey
  dsimp only
  rw [Text.toList_trim, hq, hl, parseNumber_digits hpos hsize]

/-! ## Spellings -/

/-- Whitespace around a key. -/
def Blank (s : String) : Prop := ∀ c ∈ s.toList, Auth.isWhitespace c = true

instance (s : String) : Decidable (Blank s) := inferInstanceAs (Decidable (∀ c ∈ s.toList, _))

/-- The key as the search shows it, for the work items that have one. -/
def keyCol (entityType : TargetType) (issuePrefix : String) (reference : Nat) : Option String :=
  match entityType with
  | .epic => some (issuePrefix ++ "-E-" ++ toString reference)
  | .issue => some (issuePrefix ++ "-" ++ toString reference)
  | _ => none

/-- What is typed for a prefix in any case are two or three letters. -/
theorem letters_of_word {name word : String} (hword : toAsciiUppercase word = derivePrefix name) :
    (∀ c ∈ word.toList, c.isAlpha = true) ∧ 2 ≤ word.toList.length ∧ word.toList.length ≤ 3 := by
  have hformat := prefixFormat_derivePrefix name
  have hlist : (derivePrefix name).toList = word.toList.map Char.toUpper := by
    rw [← hword, toAsciiUppercase, String.toList_ofList]
  simp only [prefixFormat, Bool.and_eq_true, decide_eq_true_eq, List.all_eq_true, hlist,
    List.length_map] at hformat
  refine ⟨fun c hc => isAlpha_of_toUpper ?_, hformat.1.1, hformat.1.2⟩
  exact hformat.2 _ (List.mem_map_of_mem hc)

theorem isAlpha_mark {mark : Char} (hmark : IsMark mark) : mark.isAlpha = true := by
  rcases hmark with rfl | rfl <;> decide

theorem toUpper_mark {mark : Char} (hmark : IsMark mark) : mark.toUpper = 'E' := by
  rcases hmark with rfl | rfl <;> decide

section Spelled

variable {name word before after : String} {n : Nat} {mark : Char}
  (hpos : 0 < n) (hsize : n < 10 ^ 18) (hword : toAsciiUppercase word = derivePrefix name)
  (hbefore : Blank before) (hafter : Blank after) (hmark : IsMark mark)

include hbefore hafter in
theorem trimmed {s : String} {l : List Char} (hs : s.toList = l)
    (hl : ∀ c ∈ l, Auth.isWhitespace c = false) :
    trimChars (before ++ s ++ after).toList = l := by
  rw [String.toList_append, String.toList_append, hs]
  exact Text.trimChars_surrounded hbefore hafter hl

theorem blank_of_digits {c : Char} (hc : c ∈ Nat.toDigits 10 n) : Auth.isWhitespace c = false :=
  (digit_plain (isDigit_of_mem_digits hc)).2.2.2

theorem head_digits (c : Char) (hc : c ∈ (Nat.toDigits 10 n).head?) : c.isAlpha = false :=
  (digit_plain (isDigit_of_mem_digits (List.mem_of_mem_head? hc))).1

include hword hbefore hafter in
/-- Letters, and then what is no letter: the text after them decides. -/
theorem parseKey_spelled {tail : String} {rest : List Char} (htail : tail.toList = rest)
    (hblank : ∀ c ∈ rest, Auth.isWhitespace c = false)
    (hrest : ∀ c ∈ rest.head?, c.isAlpha = false) :
    parseKey (before ++ (word ++ tail) ++ after) =
      (parseNumber (parseKind (stripChar '-' rest)).2).map fun number =>
        ⟨some (derivePrefix name), number, (parseKind (stripChar '-' rest)).1⟩ := by
  obtain ⟨halpha, hlow, hhigh⟩ := letters_of_word hword
  have htrimmed : trimChars (before ++ (word ++ tail) ++ after).toList = word.toList ++ rest := by
    apply trimmed hbefore hafter
    · rw [String.toList_append, htail]
    · rw [List.forall_mem_append]
      exact ⟨fun c hc => isWhitespace_alpha (halpha c hc), hblank⟩
  rw [parseKey_word htrimmed halpha hlow hhigh hrest, String.ofList_toList, hword]

include hpos hsize hword hbefore hafter in
theorem parseKey_issues :
    parseKey (before ++ (word ++ ("-" ++ toString n)) ++ after) =
      some ⟨some (derivePrefix name), n, .issue⟩ ∧
    parseKey (before ++ (word ++ toString n) ++ after) =
      some ⟨some (derivePrefix name), n, .issue⟩ := by
  constructor
  · have htail : ("-" ++ toString n).toList = '-' :: Nat.toDigits 10 n := by
      rw [String.toList_append, toList_toString]
      rfl
    rw [parseKey_spelled hword hbefore hafter htail _ (by simp), stripChar_cons, parseKind_digits,
      parseNumber_digits hpos hsize, Option.map_some]
    exact List.forall_mem_cons.mpr ⟨by decide, fun c hc => blank_of_digits hc⟩
  · rw [parseKey_spelled hword hbefore hafter (toList_toString n) (fun c hc => blank_of_digits hc)
      head_digits, stripChar_digits (by decide), parseKind_digits, parseNumber_digits hpos hsize,
      Option.map_some]

include hpos hsize hbefore hafter in
theorem parseKey_numbers :
    parseKey (before ++ ("#" ++ toString n) ++ after) = some ⟨none, n, .any⟩ ∧
    parseKey (before ++ toString n ++ after) = some ⟨none, n, .any⟩ := by
  constructor
  · have htext : ("#" ++ toString n).toList = '#' :: Nat.toDigits 10 n := by
      rw [String.toList_append, toList_toString]
      rfl
    apply parseKey_number hpos hsize (trimmed hbefore hafter htext _) (stripChar_cons _ _)
    exact List.forall_mem_cons.mpr ⟨by decide, fun c hc => blank_of_digits hc⟩
  · apply parseKey_number hpos hsize (trimmed hbefore hafter (toList_toString n) _)
      (stripChar_digits (by decide) n)
    exact fun c hc => blank_of_digits hc

include hpos hsize hword hbefore hafter hmark in
theorem parseKey_epics :
    parseKey (before ++ (word ++ ("-" ++ String.singleton mark ++ "-" ++ toString n)) ++ after) =
      some ⟨some (derivePrefix name), n, .epic⟩ ∧
    parseKey (before ++ (word ++ ("-" ++ String.singleton mark ++ toString n)) ++ after) =
      some ⟨some (derivePrefix name), n, .epic⟩ := by
  have hblank := isWhitespace_alpha (isAlpha_mark hmark)
  constructor
  · have htail : ("-" ++ String.singleton mark ++ "-" ++ toString n).toList =
        '-' :: mark :: '-' :: Nat.toDigits 10 n := by
      rw [← toList_toString]
      simp [String.toList_append]
    rw [parseKey_spelled hword hbefore hafter htail _ (by simp), stripChar_cons,
      parseKind_mark hmark, stripChar_cons, parseNumber_digits hpos hsize, Option.map_some]
    refine List.forall_mem_cons.mpr ⟨by decide, List.forall_mem_cons.mpr ⟨hblank, ?_⟩⟩
    exact List.forall_mem_cons.mpr ⟨by decide, fun c hc => blank_of_digits hc⟩
  · have htail : ("-" ++ String.singleton mark ++ toString n).toList =
        '-' :: mark :: Nat.toDigits 10 n := by
      rw [← toList_toString]
      simp [String.toList_append]
    rw [parseKey_spelled hword hbefore hafter htail _ (by simp), stripChar_cons,
      parseKind_mark hmark, stripChar_digits (by decide), parseNumber_digits hpos hsize,
      Option.map_some]
    refine List.forall_mem_cons.mpr ⟨by decide, List.forall_mem_cons.mpr ⟨hblank, ?_⟩⟩
    exact fun c hc => blank_of_digits hc

include hpos hsize hword hbefore hafter hmark in
/-- The mark right after the prefix is one more of its letters. -/
theorem parseKey_marked :
    parseKey (before ++ (word ++ String.singleton mark ++ toString n) ++ after) =
      if (derivePrefix name).length = 2 then some ⟨some (derivePrefix name ++ "E"), n, .issue⟩
      else none := by
  obtain ⟨halpha, hlow, hhigh⟩ := letters_of_word hword
  have hlength : (derivePrefix name).length = word.toList.length := by
    rw [← hword, toAsciiUppercase, ← String.length_toList, String.toList_ofList, List.length_map]
  have hletters : ∀ c ∈ word.toList ++ [mark], c.isAlpha = true := by
    rw [List.forall_mem_append]
    exact ⟨halpha, List.forall_mem_singleton.mpr (isAlpha_mark hmark)⟩
  have htrimmed : trimChars (before ++ (word ++ String.singleton mark ++ toString n) ++ after).toList =
      (word.toList ++ [mark]) ++ Nat.toDigits 10 n := by
    apply trimmed hbefore hafter
    · rw [String.toList_append, String.toList_append, String.toList_singleton, toList_toString]
    · rw [List.forall_mem_append]
      exact ⟨fun c hc => isWhitespace_alpha (hletters c hc), fun c hc => blank_of_digits hc⟩
  have hcount : (word.toList ++ [mark]).length = word.toList.length + 1 := by simp
  by_cases htwo : (derivePrefix name).length = 2
  · have hderived : toAsciiUppercase (String.ofList (word.toList ++ [mark])) =
        derivePrefix name ++ "E" := by
      rw [← hword, ← String.toList_inj]
      simp [toAsciiUppercase, toUpper_mark hmark]
    rw [if_pos htwo, parseKey_word htrimmed hletters (by omega) (by omega) head_digits,
      stripChar_digits (by decide), parseKind_digits, parseNumber_digits hpos hsize,
      Option.map_some, hderived]
  · rw [if_neg htwo]
    exact parseKey_long htrimmed hletters (by omega)

end Spelled

/-- How typed keys are read, whatever their case and the whitespace around them: with a prefix
that is derived from a name as the issue or the epic of that number, a number alone as either.
The mark of an epic right after the prefix counts as one of its letters, and a key as the search
shows it is read as what it is the key of. -/
theorem parseKey_spellings (name : String) {n : Nat} (hpos : 0 < n) (hsize : n < 10 ^ 18)
    {word before after : String} (hword : toAsciiUppercase word = derivePrefix name)
    (hbefore : Blank before) (hafter : Blank after) {mark : Char} (hmark : IsMark mark) :
    (∀ s ∈ [word ++ ("-" ++ toString n), word ++ toString n],
      parseKey (before ++ s ++ after) = some ⟨some (derivePrefix name), n, .issue⟩) ∧
    (∀ s ∈ ["#" ++ toString n, toString n],
      parseKey (before ++ s ++ after) = some ⟨none, n, .any⟩) ∧
    (∀ s ∈ [word ++ ("-" ++ String.singleton mark ++ "-" ++ toString n),
        word ++ ("-" ++ String.singleton mark ++ toString n)],
      parseKey (before ++ s ++ after) = some ⟨some (derivePrefix name), n, .epic⟩) ∧
    parseKey (before ++ (word ++ String.singleton mark ++ toString n) ++ after) =
      (if (derivePrefix name).length = 2 then some ⟨some (derivePrefix name ++ "E"), n, .issue⟩
      else none) ∧
    ∀ entityType key, keyCol entityType (derivePrefix name) n = some key →
      ∃ kind : KeyKind, kind.entityTypes = [entityType] ∧
        parseKey key = some ⟨some (derivePrefix name), n, kind⟩ := by
  have hissues := parseKey_issues hpos hsize hword hbefore hafter
  have hnumbers := parseKey_numbers hpos hsize hbefore hafter
  have hepics := parseKey_epics hpos hsize hword hbefore hafter hmark
  refine ⟨?_, ?_, ?_, parseKey_marked hpos hsize hword hbefore hafter hmark, ?_⟩
  · simpa using hissues
  · simpa using hnumbers
  · simpa using hepics
  · intro entityType key hkey
    have hcapitals := toAsciiUppercase_derivePrefix name
    have hempty : Blank "" := fun c hc => absurd hc (by simp)
    cases entityType with
    | issue =>
      obtain rfl := Option.some.inj hkey
      refine ⟨.issue, rfl, ?_⟩
      have hread := (parseKey_issues hpos hsize hcapitals hempty hempty).1
      simpa [String.append_assoc] using hread
    | epic =>
      obtain rfl := Option.some.inj hkey
      refine ⟨.epic, rfl, ?_⟩
      have hread := (parseKey_epics hpos hsize hcapitals hempty hempty (.inl rfl)).1
      have htext : "" ++ (derivePrefix name ++ ("-" ++ String.singleton 'E' ++ "-" ++
          toString n)) ++ "" = derivePrefix name ++ "-E-" ++ toString n := by
        rw [← String.toList_inj]
        simp [String.toList_append]
      rw [htext] at hread
      exact hread
    | wiki | comment | meeting => contradiction

theorem parseKey_spellings_payment :
    parseKey (" " ++ ("ps" ++ ("-" ++ String.singleton 'e' ++ "-" ++ toString 12)) ++ "\n") =
      some ⟨some "PS", 12, .epic⟩ := by
  have hderived : derivePrefix "Payment Service" = "PS" := by decide
  have hword : toAsciiUppercase "ps" = derivePrefix "Payment Service" := by decide
  have hbefore : Blank " " := by decide
  have hafter : Blank "\n" := by decide
  have hmark : IsMark 'e' := .inr rfl
  have hread := (parseKey_spellings "Payment Service" (n := 12) (by decide) (by decide) hword
    hbefore hafter hmark).2.2.1 _ List.mem_cons_self
  rw [hderived] at hread
  exact hread

/-- A number by itself is not read as that of an issue, nor a mark that follows its prefix. -/
theorem spellings_misread :
    (¬ ∀ n, 0 < n → n < 10 ^ 18 → parseKey (toString n) = some ⟨none, n, .issue⟩) ∧
    ¬ ∀ name n, 0 < n → n < 10 ^ 18 →
      parseKey (derivePrefix name ++ "E" ++ toString n) =
        some ⟨some (derivePrefix name), n, .epic⟩ := by
  constructor
  · intro h
    have hactual : parseKey (toString 12) = some ⟨none, 12, .any⟩ := by decide +kernel
    have hread := h 12 (by decide) (by decide)
    rw [hactual] at hread
    contradiction
  · intro h
    have hactual : parseKey (derivePrefix "Payment Service" ++ "E" ++ toString 12) =
        some ⟨some "PSE", 12, .issue⟩ := by decide +kernel
    have hread := h "Payment Service" 12 (by decide) (by decide)
    rw [hactual] at hread
    contradiction

end IntelliPilot.Prefixes
