import IntelliPilot.Text.Trimming
import Mathlib.Data.List.Induction

/-! # Lines and paragraphs

Texts whose lines end in any of the usual ways, and whose paragraphs are kept
apart by blank lines. What is read from the pieces between blank lines is what
is read from the paragraphs, if it does not depend on newlines around a piece.
-/

namespace IntelliPilot.Text

open Auth (isWhitespace)

/-! ## Line endings -/

/-- `str::replace("\r\n", "\n")`. -/
def crlfToLf : List Char → List Char
  | '\r' :: '\n' :: rest => '\n' :: crlfToLf rest
  | c :: rest => c :: crlfToLf rest
  | [] => []

/-- `str::replace('\r', "\n")`. -/
def crToLf (s : List Char) : List Char := s.map fun c => if c = '\r' then '\n' else c

inductive LineEnding where
  | lf
  | crlf
  | cr
  deriving DecidableEq, Repr

def LineEnding.chars : LineEnding → List Char
  | .lf => ['\n']
  | .crlf => ['\r', '\n']
  | .cr => ['\r']

/-- A text with its lines ended in one of the ways. -/
def LineEnding.write (ending : LineEnding) (s : List Char) : List Char :=
  s.flatMap fun c => if c = '\n' then ending.chars else [c]

variable {c : Char}

theorem crlfToLf_cons (hc : c ≠ '\r') (s : List Char) : crlfToLf (c :: s) = c :: crlfToLf s := by
  rw [crlfToLf]
  rintro s' rfl
  contradiction

variable {s : List Char}

theorem crlfToLf_eq_self (h : '\n' ∉ s ∨ '\r' ∉ s) : crlfToLf s = s := by
  induction s with
  | nil => rfl
  | cons c s ih =>
    have hrest : crlfToLf s = s := ih (h.imp (fun h hs => h (List.mem_cons_of_mem _ hs))
      fun h hs => h (List.mem_cons_of_mem _ hs))
    rw [crlfToLf, hrest]
    rintro rest rfl rfl
    rcases h with h | h
    · exact h (by simp)
    · exact h (by simp)

theorem crToLf_eq_self (h : '\r' ∉ s) : crToLf s = s := by
  have hsame : s.map (fun c => if c = '\r' then '\n' else c) = s.map id := by
    apply List.map_congr_left
    intro c hc
    rw [if_neg]
    · rfl
    · rintro rfl
      exact h hc
  rw [crToLf, hsame, List.map_id]

/-- Only a newline begins differently. -/
theorem LineEnding.head?_write (ending : LineEnding) (hnewline : c ≠ '\n') (hreturn : c ≠ '\r')
    (h : (ending.write s).head? = some c) : s.head? = some c := by
  cases s with
  | nil => exact h
  | cons d s =>
    by_cases hd : d = '\n'
    · subst hd
      cases ending with
      | lf => exact absurd (Option.some.inj h).symm hnewline
      | crlf | cr => exact absurd (Option.some.inj h).symm hreturn
    · simpa [LineEnding.write, hd] using h

/-- However the lines end, the two replacements give newlines. -/
theorem toLf_write (ending : LineEnding) (h : '\r' ∉ s) :
    crToLf (crlfToLf (ending.write s)) = s := by
  cases ending with
  | lf =>
    have hwrite : LineEnding.lf.write s = s := by
      unfold LineEnding.write LineEnding.chars
      calc s.flatMap (fun c => if c = '\n' then ['\n'] else [c]) = s.flatMap fun c => [c] := by
            apply List.flatMap_congr
            intro c _
            split
            next hc => rw [hc]
            next => rfl
        _ = s := List.flatMap_singleton' s
    rw [hwrite, crlfToLf_eq_self (.inr h), crToLf_eq_self h]
  | crlf =>
    have hread : crlfToLf (LineEnding.crlf.write s) = s := by
      induction s with
      | nil => rfl
      | cons c s ih =>
        have hs := ih fun hmem => h (List.mem_cons_of_mem _ hmem)
        by_cases hc : c = '\n'
        · subst hc
          exact congrArg _ hs
        · have hcr : c ≠ '\r' := by
            rintro rfl
            exact h List.mem_cons_self
          have hstep : LineEnding.crlf.write (c :: s) = c :: LineEnding.crlf.write s := by
            simp [LineEnding.write, hc]
          rw [hstep, crlfToLf_cons hcr, hs]
    rw [hread, crToLf_eq_self h]
  | cr =>
    have hnewline : '\n' ∉ LineEnding.cr.write s := by
      intro hmem
      obtain ⟨c, _, hc⟩ := List.mem_flatMap.mp hmem
      split at hc
      next => simp [LineEnding.chars] at hc
      next hne => exact hne (List.mem_singleton.mp hc).symm
    rw [crlfToLf_eq_self (.inl hnewline)]
    induction s with
    | nil => rfl
    | cons c s ih =>
      have hnewline' : '\n' ∉ LineEnding.cr.write s := by
        intro hmem
        apply hnewline
        simp only [LineEnding.write, List.flatMap_cons] at hmem ⊢
        exact List.mem_append_right _ hmem
      have hs := ih (fun hmem => h (List.mem_cons_of_mem _ hmem)) hnewline'
      by_cases hc : c = '\n'
      · subst hc
        exact congrArg _ hs
      · have hcr : c ≠ '\r' := by
          rintro rfl
          exact h List.mem_cons_self
        have hstep : LineEnding.cr.write (c :: s) = c :: LineEnding.cr.write s := by
          simp [LineEnding.write, hc]
        rw [hstep, crToLf, List.map_cons, if_neg hcr]
        exact congrArg _ hs

/-! ## Lines -/

/-- `str::lines`: a last piece that is empty is none. -/
def lines (s : List Char) : List (List Char) :=
  let pieces := s.splitOn '\n'
  pieces.dropLast.map (fun piece => if piece.getLast? = some '\r' then piece.dropLast else piece) ++
    (pieces.getLast?.filter (!·.isEmpty)).toList

/-- The lines without the whitespace around them, where anything is left. -/
def trimmedLines (s : List Char) : List (List Char) :=
  ((lines s).map trimChars).filter (!·.isEmpty)

theorem trimmedLines_eq (s : List Char) :
    trimmedLines s = ((s.splitOn '\n').map trimChars).filter (!·.isEmpty) := by
  unfold trimmedLines lines
  obtain ⟨init, last, hpieces⟩ : ∃ init last, s.splitOn '\n' = init ++ [last] := by
    have hne := List.splitOn_ne_nil '\n' s
    exact ⟨_, _, (List.dropLast_append_getLast hne).symm⟩
  have htrim : ∀ piece : List Char,
      trimChars (if piece.getLast? = some '\r' then piece.dropLast else piece) = trimChars piece := by
    intro piece
    split
    next hlast =>
      have hpiece := List.dropLast_append_getLast? '\r' hlast
      have hconcat := trimChars_concat (show isWhitespace '\r' = true by decide) piece.dropLast
      rw [hpiece] at hconcat
      exact hconcat.symm
    next => rfl
  have hlast : (((some last).filter (!·.isEmpty)).toList.map trimChars).filter (!·.isEmpty) =
      ([last].map trimChars).filter (!·.isEmpty) := by
    cases last with
    | nil => rfl
    | cons c last => rfl
  simp only [hpieces, List.dropLast_concat, List.getLast?_concat, List.map_append, List.map_map,
    List.filter_append, hlast]
  congr 2
  exact List.map_congr_left fun piece _ => htrim piece

/-- A newline before a piece adds nothing to its lines. -/
theorem trimmedLines_cons_newline (s : List Char) : trimmedLines ('\n' :: s) = trimmedLines s := by
  rw [trimmedLines_eq, trimmedLines_eq, List.splitOn_cons_eq_if_modifyHead]
  rfl

theorem trimmedLines_concat_newline (s : List Char) :
    trimmedLines (s ++ ['\n']) = trimmedLines s := by
  rw [trimmedLines_eq, trimmedLines_eq, List.splitOn_append_cons_of_beq s [] (by decide)]
  simp [trimChars]

variable {l : List Char}

/-- Something is left of a line with more than whitespace. -/
theorem trimChars_ne_nil (h : ∃ c ∈ l, isWhitespace c = false) : trimChars l ≠ [] := by
  intro hnil
  obtain ⟨c, hc, hblank⟩ := h
  have hall : ∀ c ∈ l, isWhitespace c = true := by
    have hdrop : l.dropWhile isWhitespace = [] := by
      by_contra hne
      have hhead := List.head_dropWhile_not isWhitespace hne
      rw [trimChars, List.reverse_eq_nil_iff, List.dropWhile_eq_nil_iff] at hnil
      have hmem := hnil _ (List.mem_reverse.mpr (List.head_mem hne))
      rw [hhead] at hmem
      contradiction
    exact List.dropWhile_eq_nil_iff.mp hdrop
  rw [hall c hc] at hblank
  contradiction

variable {ls : List (List Char)}

/-- Joined lines are read back, each trimmed. -/
theorem trimmedLines_intercalate (hne : ls ≠ []) (hnewline : ∀ l ∈ ls, '\n' ∉ l)
    (hplain : ∀ l ∈ ls, ∃ c ∈ l, isWhitespace c = false) :
    trimmedLines (['\n'].intercalate ls) = ls.map trimChars := by
  rw [trimmedLines_eq, List.splitOn_intercalate '\n' hnewline hne]
  apply List.filter_eq_self.mpr
  intro line hline
  obtain ⟨l, hl, rfl⟩ := List.mem_map.mp hline
  simpa using trimChars_ne_nil (hplain l hl)

/-! ## Paragraphs -/

/-- `str::split("\n\n")`, within a piece. -/
def splitBlankFrom (piece : List Char) : List Char → List (List Char)
  | '\n' :: '\n' :: rest => piece :: splitBlankFrom [] rest
  | c :: rest => splitBlankFrom (piece ++ [c]) rest
  | [] => [piece]

def splitBlank (s : List Char) : List (List Char) := splitBlankFrom [] s

/-- Paragraphs, each with the number of newlines after it. -/
def paragraphs : List (List (List Char) × Nat) → List Char
  | [] => []
  | (ls, gap) :: rest => ['\n'].intercalate ls ++ (List.replicate gap '\n' ++ paragraphs rest)

/-- Lines that are not empty, with a blank line after each paragraph but the last. -/
def Separated : List (List (List Char) × Nat) → Prop
  | [] => True
  | (ls, gap) :: rest => ls ≠ [] ∧ (∀ l ∈ ls, '\n' ∉ l ∧ l ≠ []) ∧ (rest ≠ [] → 2 ≤ gap) ∧
      Separated rest

variable {blocks : List (List (List Char) × Nat)}

theorem mem_paragraphs (h : c ∈ paragraphs blocks) :
    c = '\n' ∨ ∃ block ∈ blocks, ∃ l ∈ block.1, c ∈ l := by
  induction blocks with
  | nil => exact absurd h List.not_mem_nil
  | cons block rest ih =>
    rw [paragraphs, List.mem_append, List.mem_append] at h
    rcases h with h | h | h
    · rcases mem_intercalate.1 h with heq | ⟨l, hl, hc⟩
      · exact .inl heq
      · exact .inr ⟨block, List.mem_cons_self, l, hl, hc⟩
    · exact .inl (List.eq_of_mem_replicate h)
    · rcases ih h with heq | ⟨other, hother, hc⟩
      · exact .inl heq
      · exact .inr ⟨other, List.mem_cons_of_mem _ hother, hc⟩

theorem head?_paragraphs (hl : l ≠ []) (ls : List (List Char)) (gap : Nat)
    (rest : List (List (List Char) × Nat)) :
    (paragraphs ((l :: ls, gap) :: rest)).head? = l.head? := by
  obtain ⟨c, l, rfl⟩ := List.exists_cons_of_ne_nil hl
  rw [paragraphs]
  cases ls with
  | nil => rfl
  | cons next ls =>
    rw [List.intercalate_cons_cons]
    rfl

theorem splitBlankFrom_cons {rest : List Char} (piece : List Char)
    (h : c ≠ '\n' ∨ rest.head? ≠ some '\n') :
    splitBlankFrom piece (c :: rest) = splitBlankFrom (piece ++ [c]) rest := by
  rw [splitBlankFrom]
  rintro rest' rfl rfl
  rcases h with h | h
  · exact h rfl
  · exact h rfl

theorem splitBlankFrom_append (hl : '\n' ∉ l) (piece rest : List Char) :
    splitBlankFrom piece (l ++ rest) = splitBlankFrom (piece ++ l) rest := by
  induction l generalizing piece with
  | nil => rw [List.nil_append, List.append_nil]
  | cons c l ih =>
    have hc : c ≠ '\n' := fun heq => hl (by simp [heq])
    rw [List.cons_append, splitBlankFrom_cons piece (.inl hc),
      ih fun hmem => hl (List.mem_cons_of_mem _ hmem)]
    simp

/-- A paragraph does not begin with a newline. -/
theorem head?_intercalate_ne (hne : ls ≠ []) (hls : ∀ l ∈ ls, '\n' ∉ l ∧ l ≠ [])
    (rest : List Char) : (['\n'].intercalate ls ++ rest).head? ≠ some '\n' := by
  obtain ⟨first, ls, rfl⟩ := List.exists_cons_of_ne_nil hne
  obtain ⟨hnewline, hfirst⟩ := hls first List.mem_cons_self
  obtain ⟨c, first, rfl⟩ := List.exists_cons_of_ne_nil hfirst
  have hc : c ≠ '\n' := fun heq => hnewline (by simp [heq])
  cases ls with
  | nil => simpa using hc
  | cons next ls =>
    rw [List.intercalate_cons_cons]
    simpa using hc

/-- There is no blank line within a paragraph. -/
theorem splitBlankFrom_lines (hls : ∀ l ∈ ls, '\n' ∉ l ∧ l ≠ []) (piece rest : List Char) :
    splitBlankFrom piece (['\n'].intercalate ls ++ rest) =
      splitBlankFrom (piece ++ ['\n'].intercalate ls) rest := by
  induction ls generalizing piece with
  | nil => simp
  | cons l ls ih =>
    obtain ⟨hl, hrest⟩ := List.forall_mem_cons.mp hls
    cases ls with
    | nil =>
      rw [List.intercalate_singleton]
      exact splitBlankFrom_append hl.1 piece rest
    | cons next ls =>
      have hjoin : ['\n'].intercalate (l :: next :: ls) =
          l ++ '\n' :: ['\n'].intercalate (next :: ls) := by
        rw [List.intercalate_cons_cons]
        simp
      have hhead := head?_intercalate_ne (List.cons_ne_nil next ls) hrest rest
      rw [hjoin, List.append_assoc, splitBlankFrom_append hl.1, List.cons_append,
        splitBlankFrom_cons _ (.inr hhead), ih hrest]
      simp

/-- What is read of the pieces between blank lines, if newlines around a piece do not matter, is
what is read of the paragraphs. -/
theorem flatMap_splitBlank {β : Type} {f : List Char → List β} (hnil : f [] = [])
    (hcons : ∀ s, f ('\n' :: s) = f s) (hconcat : ∀ s, f (s ++ ['\n']) = f s)
    (hblocks : Separated blocks) (before : Nat) :
    (splitBlank (List.replicate before '\n' ++ paragraphs blocks)).flatMap f =
      blocks.flatMap fun block => f (['\n'].intercalate block.1) := by
  unfold splitBlank
  induction blocks generalizing before with
  | nil =>
    induction before using Nat.twoStepInduction with
    | zero => simp [paragraphs, splitBlankFrom, hnil]
    | one =>
      have hone : f ['\n'] = [] := (hcons []).trans hnil
      simp [paragraphs, splitBlankFrom, hone]
    | more n ih _ => simpa [splitBlankFrom, List.replicate_succ, hnil] using ih
  | cons block rest ihrest =>
    obtain ⟨ls, gap⟩ := block
    obtain ⟨hne, hls, hgap, hrest⟩ := hblocks
    -- the paragraph, whatever newline the piece has begun with
    have hafter : ∀ piece : List Char, f (piece ++ ['\n'].intercalate ls) =
        f (['\n'].intercalate ls) →
        (splitBlankFrom piece (paragraphs ((ls, gap) :: rest))).flatMap f =
          f (['\n'].intercalate ls) ++
            rest.flatMap fun block => f (['\n'].intercalate block.1) := by
      intro piece hpiece
      rw [paragraphs, splitBlankFrom_lines hls]
      match gap with
      | 0 =>
        have hlast : rest = [] := by
          by_contra hmore
          exact absurd (hgap hmore) (by omega)
        simp [hlast, paragraphs, splitBlankFrom, hpiece]
      | 1 =>
        have hlast : rest = [] := by
          by_contra hmore
          exact absurd (hgap hmore) (by omega)
        have hend : f (piece ++ ['\n'].intercalate ls ++ ['\n']) = f (['\n'].intercalate ls) :=
          (hconcat _).trans hpiece
        simpa [hlast, paragraphs, splitBlankFrom] using hend
      | gap + 2 =>
        rw [← ihrest hrest gap, List.replicate_succ, List.replicate_succ, List.cons_append,
          List.cons_append, splitBlankFrom, List.flatMap_cons, hpiece]
    rw [List.flatMap_cons]
    induction before using Nat.twoStepInduction with
    | zero => exact hafter [] (by simp)
    | one =>
      have hhead : (paragraphs ((ls, gap) :: rest)).head? ≠ some '\n' :=
        head?_intercalate_ne hne hls _
      rw [List.replicate_one, List.singleton_append, splitBlankFrom_cons [] (.inr hhead)]
      exact hafter ['\n'] (hcons _)
    | more n ih _ =>
      rw [List.replicate_succ, List.replicate_succ, List.cons_append, List.cons_append,
        splitBlankFrom, List.flatMap_cons, hnil, List.nil_append]
      exact ih

end IntelliPilot.Text
