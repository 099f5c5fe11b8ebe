import IntelliPilot.Text.Strings
import Mathlib.Data.List.Infix

/-! # Patterns

`LIKE` with `\` as its escape character, and `ILIKE`, which compares characters
without their case. A text that is escaped is found literally.
-/

namespace IntelliPilot.Text

/-- What a place of a pattern asks of a text. -/
inductive Token where
  | char (c : Char)
  | one
  | many
  deriving DecidableEq, Repr

/-- The characters that do not stand for themselves in a pattern. -/
def isMeta (c : Char) : Bool := c == '%' || c == '_' || c == '\\'

/-- A character that no escape character precedes. -/
def token (c : Char) : Token := if c = '%' then .many else if c = '_' then .one else .char c

/-- The places of a pattern; a pattern that ends with the escape character has none. -/
def tokens : List Char → Option (List Token)
  | [] => some []
  | [c] => if c = '\\' then none else some [token c]
  | c :: d :: rest =>
    if c = '\\' then (tokens rest).map (.char d :: ·) else (tokens (d :: rest)).map (token c :: ·)

/-- The whole text is what the pattern asks for. -/
def matchTokens : List Token → List Char → Bool
  | [], text => text.isEmpty
  | .char c :: rest, d :: text => c == d && matchTokens rest text
  | .char _ :: _, [] => false
  | .one :: rest, _ :: text => matchTokens rest text
  | .one :: _, [] => false
  | .many :: rest, text => text.tails.any (matchTokens rest)

/-- `LIKE`, which fails on a pattern that ends with the escape character. -/
def like (text pattern : List Char) : Bool := (tokens pattern).any (matchTokens · text)

/-- `str::replace` of a character. -/
def replaceChar (c : Char) (by_ : List Char) (s : List Char) : List Char :=
  s.flatMap fun d => if d = c then by_ else [d]

/-- `like_escape`. -/
def likeEscape (s : List Char) : List Char :=
  replaceChar '_' ['\\', '_'] (replaceChar '%' ['\\', '%'] (replaceChar '\\' ['\\', '\\'] s))

/-! ### Literal texts -/

/-- No character of the text is special in a pattern. -/
def Literal (s : List Char) : Prop := ∀ c ∈ s, isMeta c = false

instance (s : List Char) : Decidable (Literal s) := inferInstanceAs (Decidable (∀ c ∈ s, _))

variable {s : List Char} {c : Char}

theorem literal_cons :
    Literal (c :: s) ↔ isMeta c = false ∧ Literal s := List.forall_mem_cons

theorem isMeta_eq_false_iff : isMeta c = false ↔ c ≠ '%' ∧ c ≠ '_' ∧ c ≠ '\\' := by
  simp [isMeta, and_assoc]

theorem token_of_not_meta (h : isMeta c = false) : token c = .char c := by
  obtain ⟨hmany, hone, -⟩ := isMeta_eq_false_iff.mp h
  rw [token, if_neg hmany, if_neg hone]

theorem tokens_cons (h : c ≠ '\\') (rest : List Char) :
    tokens (c :: rest) = (tokens rest).map (token c :: ·) := by
  cases rest with
  | nil => simp [tokens, h]
  | cons d rest => rw [tokens, if_neg h]

theorem tokens_escaped (c : Char) (rest : List Char) :
    tokens ('\\' :: c :: rest) = (tokens rest).map (.char c :: ·) := by
  rw [tokens, if_pos rfl]

/-- A literal text stands for itself. -/
theorem tokens_literal_append (h : Literal s) (rest : List Char) :
    tokens (s ++ rest) = (tokens rest).map (s.map .char ++ ·) := by
  induction s with
  | nil => simp
  | cons c s ih =>
    obtain ⟨hc, hs⟩ := literal_cons.mp h
    rw [List.cons_append, tokens_cons (isMeta_eq_false_iff.mp hc).2.2, ih hs, token_of_not_meta hc,
      Option.map_map]
    rfl

/-- What is escaped, a character at a time. -/
theorem likeEscape_cons (c : Char) (s : List Char) :
    likeEscape (c :: s) = (if isMeta c then ['\\', c] else [c]) ++ likeEscape s := by
  have happend : ∀ (d : Char) (by_ u v : List Char),
      replaceChar d by_ (u ++ v) = replaceChar d by_ u ++ replaceChar d by_ v :=
    fun d by_ u v => List.flatMap_append
  have hsplit : likeEscape (c :: s) = likeEscape [c] ++ likeEscape s := by
    rw [← List.singleton_append]
    simp only [likeEscape, happend]
  rw [hsplit]
  congr 1
  by_cases hescape : c = '\\'
  · subst hescape
    rfl
  by_cases hmany : c = '%'
  · subst hmany
    rfl
  by_cases hone : c = '_'
  · subst hone
    rfl
  simp [likeEscape, replaceChar, isMeta, hescape, hmany, hone]

/-- An escaped text stands for the text. -/
theorem tokens_likeEscape_append (s rest : List Char) :
    tokens (likeEscape s ++ rest) = (tokens rest).map (s.map .char ++ ·) := by
  induction s with
  | nil => simp [likeEscape, replaceChar]
  | cons c s ih =>
    rw [likeEscape_cons, List.append_assoc]
    split
    next =>
      rw [List.cons_append, List.singleton_append, tokens_escaped, ih, Option.map_map]
      rfl
    next hc =>
      have hplain : isMeta c = false := by simpa using hc
      rw [List.singleton_append, tokens_cons (isMeta_eq_false_iff.mp hplain).2.2, ih,
        token_of_not_meta hplain, Option.map_map]
      rfl

variable {text : List Char}

theorem matchTokens_chars {rest : List Token} :
    matchTokens (s.map .char ++ rest) text = true ↔
      ∃ after, text = s ++ after ∧ matchTokens rest after = true := by
  induction s generalizing text with
  | nil => simp
  | cons c s ih =>
    cases text with
    | nil => simp [matchTokens]
    | cons d text =>
      simp only [List.map_cons, List.cons_append, matchTokens, Bool.and_eq_true, beq_iff_eq, ih,
        List.cons.injEq]
      constructor
      · rintro ⟨rfl, after, htext, hafter⟩
        exact ⟨after, ⟨rfl, htext⟩, hafter⟩
      · rintro ⟨after, ⟨rfl, htext⟩, hafter⟩
        exact ⟨rfl, after, htext, hafter⟩

theorem matchTokens_many {rest : List Token} :
    matchTokens (.many :: rest) text = true ↔
      ∃ before after, text = before ++ after ∧ matchTokens rest after = true := by
  rw [matchTokens, List.any_eq_true]
  constructor
  · rintro ⟨after, hafter, hmatch⟩
    obtain ⟨before, htext⟩ := (List.mem_tails _ _).mp hafter
    exact ⟨before, after, htext.symm, hmatch⟩
  · rintro ⟨before, after, rfl, hmatch⟩
    exact ⟨after, (List.mem_tails _ _).mpr (List.suffix_append before after), hmatch⟩

theorem matchTokens_many_last (text : List Char) : matchTokens [.many] text = true :=
  matchTokens_many.mpr ⟨text, [], (List.append_nil text).symm, rfl⟩

/-- A text between two wildcards is looked for anywhere. -/
theorem matchTokens_infix :
    matchTokens (.many :: (s.map .char ++ [.many])) text = true ↔ s <:+: text := by
  rw [matchTokens_many]
  constructor
  · rintro ⟨before, after, rfl, hmatch⟩
    obtain ⟨last, rfl, -⟩ := matchTokens_chars.mp hmatch
    exact ⟨before, last, by simp⟩
  · rintro ⟨before, last, rfl⟩
    refine ⟨before, s ++ last, by simp, matchTokens_chars.mpr ⟨last, rfl, ?_⟩⟩
    exact matchTokens_many_last last

/-- Between wildcards, what stands for a text finds that text. -/
theorem like_iff_infix {written : List Char}
    (h : tokens (written ++ ['%']) = (tokens ['%']).map (s.map .char ++ ·)) :
    like text ('%' :: (written ++ ['%'])) = true ↔ s <:+: text := by
  rw [like, tokens_cons (by decide), h]
  exact matchTokens_infix

theorem like_literal_iff (h : Literal s) :
    like text ('%' :: (s ++ ['%'])) = true ↔ s <:+: text :=
  like_iff_infix (tokens_literal_append h _)

theorem like_likeEscape_iff :
    like text ('%' :: (likeEscape s ++ ['%'])) = true ↔ s <:+: text :=
  like_iff_infix (tokens_likeEscape_append s _)

/-! ## Texts without case -/

/-- The characters that the program puts into patterns itself. -/
def marks : List Char := ['%', '_', '\\', '@']

/-- How the server lowers a character; the marks have no case. -/
structure CaseFolding where
  lower : Char → Char
  lower_eq_mark_iff : ∀ c mark, mark ∈ marks → (lower c = mark ↔ c = mark)

namespace CaseFolding

variable (fold : CaseFolding)

def apply (s : String) : List Char := s.toList.map fold.lower

/-- `ILIKE`. -/
def ilike (text pattern : String) : Bool := like (fold.apply text) (fold.apply pattern)

/-- The text has the other in it, whatever the case of their characters. -/
def Contains (text part : String) : Prop := fold.apply part <:+: fold.apply text

instance (text part : String) : Decidable (fold.Contains text part) :=
  inferInstanceAs (Decidable (_ <:+: _))

/-- Lowering the letters of ASCII leaves the other characters of ASCII apart. -/
theorem toLower_eq_iff {c mark : Char}
    (hmark : mark.toNat < 65 ∨ 90 < mark.toNat ∧ mark.toNat < 97) :
    c.toLower = mark ↔ c = mark := by
  unfold Char.toLower
  split
  next h =>
    have hlow : 65 ≤ c.toNat := h.1
    have hhigh : c.toNat ≤ 90 := h.2
    have hlower : (c.val + ('a'.val - 'A'.val)).toNat = c.toNat + 32 := by
      rw [UInt32.toNat_add, show ('a'.val - 'A'.val).toNat = 32 from rfl]
      exact Nat.mod_eq_of_lt (show c.toNat + 32 < _ by omega)
    constructor
    · rintro rfl
      simp only [Char.toNat] at hmark hlow hhigh hlower
      omega
    · rintro rfl
      omega
  next => rfl

/-- The letters of ASCII. -/
def ascii : CaseFolding where
  lower := Char.toLower
  lower_eq_mark_iff c mark hmark := by
    apply toLower_eq_iff
    revert mark
    decide

@[simp] theorem lower_mark {mark : Char} (h : mark ∈ marks) : fold.lower mark = mark :=
  (fold.lower_eq_mark_iff mark mark h).mpr rfl

theorem isMeta_lower (c : Char) : isMeta (fold.lower c) = isMeta c := by
  have hmany := fold.lower_eq_mark_iff c '%' (by decide)
  have hone := fold.lower_eq_mark_iff c '_' (by decide)
  have hescape := fold.lower_eq_mark_iff c '\\' (by decide)
  simp only [isMeta, Bool.beq_eq_decide_eq, hmany, hone, hescape]

theorem literal_map_lower : Literal (s.map fold.lower) ↔ Literal s := by
  simp [Literal, isMeta_lower]

/-- An escaped text is lowered character by character. -/
theorem map_lower_likeEscape (s : List Char) :
    (likeEscape s).map fold.lower = likeEscape (s.map fold.lower) := by
  induction s with
  | nil => rfl
  | cons c s ih =>
    rw [likeEscape_cons, List.map_append, ih, List.map_cons, likeEscape_cons, isMeta_lower]
    congr 1
    split
    · simp [fold.lower_mark (show '\\' ∈ marks by decide)]
    · rfl

theorem map_lower_between (s : List Char) :
    ('%' :: (s ++ ['%'])).map fold.lower = '%' :: (s.map fold.lower ++ ['%']) := by
  simp [fold.lower_mark (show '%' ∈ marks by decide)]

/-- A literal text between wildcards is looked for without its case. -/
theorem ilike_literal_iff {text : String} (h : Literal s) :
    fold.ilike text (String.ofList ('%' :: (s ++ ['%']))) = true ↔
      fold.Contains text (String.ofList s) := by
  rw [ilike, apply, apply, String.toList_ofList, map_lower_between,
    like_literal_iff (fold.literal_map_lower.mpr h), Contains, apply, apply, String.toList_ofList]

/-- An escaped text between wildcards is looked for without its case. -/
theorem ilike_likeEscape_iff {text : String} :
    fold.ilike text (String.ofList ('%' :: (likeEscape s ++ ['%']))) = true ↔
      fold.Contains text (String.ofList s) := by
  rw [ilike, apply, apply, String.toList_ofList, map_lower_between, map_lower_likeEscape,
    like_likeEscape_iff, Contains, apply, apply, String.toList_ofList]

/-- What a literal text has in it is literal. -/
theorem literal_of_contains {text part : String} (h : fold.Contains text part)
    (htext : Literal text.toList) : Literal part.toList := by
  intro c hc
  have hlower : fold.lower c ∈ fold.apply text :=
    h.subset (List.mem_map_of_mem hc)
  obtain ⟨d, hd, hsame⟩ := List.mem_map.mp hlower
  rw [← fold.isMeta_lower, ← hsame, fold.isMeta_lower]
  exact htext d hd

/-! ### Texts that are not literal -/

/-- A text that the pattern made of `s` matches: the wildcards stand for as little as they may. -/
def sample : List Char → List Char
  | [] => []
  | [c] => if c = '\\' then ['%'] else if c = '%' then [] else if c = '_' then ['x'] else [c]
  | c :: d :: rest =>
    if c = '\\' then d :: sample rest
    else if c = '%' then sample (d :: rest)
    else if c = '_' then 'x' :: sample (d :: rest)
    else c :: sample (d :: rest)

theorem sample_cons {c : Char} (h : c ≠ '\\') (rest : List Char) :
    sample (c :: rest) = (if c = '%' then [] else if c = '_' then ['x'] else [c]) ++ sample rest := by
  cases rest with
  | nil => simp [sample, h]
  | cons d rest =>
    rw [sample, if_neg h]
    split_ifs <;> rfl

/-- A pattern is read from its start: what is escaped takes two characters. -/
@[elab_as_elim]
theorem written_induction {motive : List Char → Prop} (nil : motive []) (last : motive ['\\'])
    (escaped : ∀ c s, motive s → motive ('\\' :: c :: s))
    (plain : ∀ c s, c ≠ '\\' → motive s → motive (c :: s)) : ∀ s, motive s
  | [] => nil
  | [c] => by
    by_cases hc : c = '\\'
    · subst hc
      exact last
    · exact plain c [] hc nil
  | c :: d :: s => by
    by_cases hc : c = '\\'
    · subst hc
      exact escaped d s (written_induction nil last escaped plain s)
    · exact plain c (d :: s) hc (written_induction nil last escaped plain (d :: s))

theorem length_sample_le (s : List Char) : (sample s).length ≤ s.length := by
  induction s using written_induction with
  | nil => exact Nat.le_refl _
  | last => decide
  | escaped c s ih =>
    rw [sample, if_pos rfl]
    simp only [List.length_cons]
    omega
  | plain c s hc ih =>
    rw [sample_cons hc, List.length_append, List.length_cons]
    split_ifs <;> simp only [List.length_nil, List.length_singleton] <;> omega

/-- What the pattern made of `s` asks for, the sample has. -/
theorem matches_sample (s : List Char) :
    ∃ places, tokens (s.map fold.lower ++ ['%']) = some places ∧
      matchTokens places ((sample s).map fold.lower) = true := by
  have hmark : ∀ mark ∈ marks, fold.lower mark = mark := fun mark h => fold.lower_mark h
  induction s using written_induction with
  | nil => exact ⟨[.many], rfl, rfl⟩
  | last =>
    refine ⟨[.char '%'], ?_, ?_⟩
    · rw [List.map_singleton, hmark '\\' (by decide)]
      rfl
    · rw [show sample ['\\'] = ['%'] from rfl, List.map_singleton, hmark '%' (by decide)]
      rfl
  | escaped c s ih =>
    obtain ⟨places, hplaces, hmatch⟩ := ih
    refine ⟨.char (fold.lower c) :: places, ?_, ?_⟩
    · rw [List.map_cons, List.map_cons, hmark '\\' (by decide), List.cons_append, List.cons_append,
        tokens_escaped, hplaces]
      rfl
    · rw [sample, if_pos rfl, List.map_cons, matchTokens, hmatch, beq_self_eq_true]
      rfl
  | plain c s hc ih =>
    obtain ⟨places, hplaces, hmatch⟩ := ih
    have hlower : fold.lower c ≠ '\\' :=
      fun h => hc ((fold.lower_eq_mark_iff c '\\' (by decide)).mp h)
    refine ⟨token (fold.lower c) :: places, ?_, ?_⟩
    · rw [List.map_cons, List.cons_append, tokens_cons hlower, hplaces]
      rfl
    · rw [sample_cons hc]
      split_ifs with hmany hone
      · rw [hmany, hmark '%' (by decide)]
        exact matchTokens_many.mpr ⟨[], _, rfl, hmatch⟩
      · rw [hone, hmark '_' (by decide)]
        exact hmatch
      · have hplain : isMeta (fold.lower c) = false := by
          rw [fold.isMeta_lower, isMeta_eq_false_iff]
          exact ⟨hmany, hone, hc⟩
        rw [token_of_not_meta hplain, List.singleton_append, List.map_cons, matchTokens, hmatch,
          beq_self_eq_true]
        rfl

theorem ilike_sample (s : List Char) :
    fold.ilike (String.ofList (sample s)) (String.ofList ('%' :: (s ++ ['%']))) = true := by
  obtain ⟨places, hplaces, hmatch⟩ := fold.matches_sample s
  rw [ilike, apply, apply, String.toList_ofList, String.toList_ofList, map_lower_between, like,
    tokens_cons (by decide), hplaces]
  exact matchTokens_many.mpr ⟨[], _, rfl, hmatch⟩

/-- A sample that is as long as its text, and looks like it, is of a literal text. -/
theorem literal_of_sample (s : List Char) (hlength : (sample s).length = s.length)
    (hsame : (sample s).map fold.lower = s.map fold.lower) : Literal s := by
  have hmark : ∀ mark ∈ marks, fold.lower mark = mark := fun mark h => fold.lower_mark h
  induction s using written_induction with
  | nil => exact List.forall_mem_nil _
  | last =>
    rw [show sample ['\\'] = ['%'] from rfl, List.map_singleton, List.map_singleton,
      hmark '%' (by decide), hmark '\\' (by decide)] at hsame
    exact absurd hsame (by decide)
  | escaped c s ih =>
    have hle := length_sample_le s
    rw [sample, if_pos rfl] at hlength
    simp only [List.length_cons] at hlength
    omega
  | plain c s hc ih =>
    have hle := length_sample_le s
    rw [sample_cons hc] at hlength hsame
    split_ifs at hlength hsame with hmany hone
    · simp only [List.nil_append, List.length_cons] at hlength
      omega
    · -- the wildcard for one character stands for a letter that is none
      rw [List.singleton_append, List.map_cons, List.map_cons, hone, hmark '_' (by decide)] at hsame
      have hletter := (fold.lower_eq_mark_iff 'x' '_' (by decide)).mp (List.cons.inj hsame).1
      exact absurd hletter (by decide)
    · refine literal_cons.mpr ⟨isMeta_eq_false_iff.mpr ⟨hmany, hone, hc⟩, ih ?_ ?_⟩
      · simpa using hlength
      · exact (List.cons.inj hsame).2

/-- A text finds its sample literally only where it is literal itself. -/
theorem contains_sample_iff :
    fold.Contains (String.ofList (sample s)) (String.ofList s) ↔ Literal s := by
  rw [Contains, apply, apply, String.toList_ofList, String.toList_ofList]
  constructor
  · intro h
    have hge := h.length_le
    have hle := length_sample_le s
    simp only [List.length_map] at hge
    have hsame := h.eq_of_length (by simp only [List.length_map]; omega)
    exact fold.literal_of_sample s (by omega) hsame.symm
  · intro h
    have hmatch := fold.ilike_sample s
    rw [fold.ilike_literal_iff h] at hmatch
    simpa [Contains, apply] using hmatch

end CaseFolding

end IntelliPilot.Text
