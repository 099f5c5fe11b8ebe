import IntelliPilot.Prefixes.Keys
import IntelliPilot.Text.Lines
import Mathlib.Data.List.Infix

/-! # Subtitles

What `core::meeting::to_plain_text` makes of the file of a transcript. The lines
of a subtitle file are known from how it is built: each is the identifier, the
timing or the text of a cue, or belongs to a header or a note.
-/

namespace IntelliPilot.Meetings

open Auth (isWhitespace)
open Prefixes (splitWhitespace)
open Text

/-! ## The functions -/

inductive TextFormat where
  | plain
  | vtt
  | srt
  deriving DecidableEq, Repr

/-- The words with one blank between two of them. -/
def oneSpaced (line : List Char) : List Char := [' '].intercalate (splitWhitespace line)

/-- The speaker after a tag, which a voice tag names where none is known. -/
def speakerAfter (speaker : Option (List Char)) (tag : List Char) : Option (List Char) :=
  if speaker.isNone && ("v ".toList.isPrefixOf tag || "v.".toList.isPrefixOf tag) then
    match tag.dropWhile (· != ' ') with
    | _ :: name => if (trimChars name).isEmpty then speaker else some (trimChars name)
    | [] => speaker
  else speaker

/-- The loop of `strip_cue_tags`, a character at a time; `tag` is what is read of an open tag. -/
def stripTags (speaker : Option (List Char)) (out : List Char) (tag : Option (List Char)) :
    List Char → Option (List Char) × List Char
  | [] =>
    match tag with
    | none => (speaker, out)
    | some tag => (speaker, out ++ '<' :: tag)
  | c :: rest =>
    match tag with
    | none => if c = '<' then stripTags speaker out (some []) rest
        else stripTags speaker (out ++ [c]) none rest
    | some tag => if c = '>' then stripTags (speakerAfter speaker tag) out none rest
        else stripTags speaker out (some (tag ++ [c])) rest

/-- `strip_cue_tags`. -/
def stripCueTags (line : List Char) : List Char :=
  let stripped := stripTags none [] none line
  let body := oneSpaced stripped.2
  match stripped.1 with
  | some s => if body.isEmpty then body else s ++ ": ".toList ++ body
  | none => body

/-- `first.starts_with(…)`, for the words that metadata begin with. -/
def isMetadata (first : List Char) : Bool :=
  ["WEBVTT", "NOTE", "STYLE", "REGION"].any fun word => word.toList.isPrefixOf first

/-- `line.contains("-->")`. -/
def hasArrow (line : List Char) : Bool := line.tails.any fun tail => "-->".toList.isPrefixOf tail

/-- What a line of a block adds. -/
def keptLine (line : List Char) : Option (List Char) :=
  if hasArrow line || line.all Char.isDigit then none
  else
    let cleaned := stripCueTags line
    if cleaned.isEmpty then none else some cleaned

/-- What a block adds. -/
def blockLines (vtt : Bool) (block : List Char) : List (List Char) :=
  match trimmedLines block with
  | [] => []
  | first :: rest => if vtt && isMetadata first then [] else (first :: rest).filterMap keptLine

/-- `subtitles_to_text`. -/
def subtitlesToText (text : List Char) (vtt : Bool) : List Char :=
  ['\n'].intercalate ((splitBlank text).flatMap (blockLines vtt))

/-- `str::strip_prefix` of a byte order mark, or the text itself. -/
def stripMark : List Char → List Char
  | [] => []
  | c :: rest => if c = '\ufeff' then rest else c :: rest

/-- `to_plain_text`. -/
def toPlainText (raw : String) (format : TextFormat) : String :=
  let text := crToLf (crlfToLf (stripMark raw.toList))
  String.ofList (match format with
    | .plain => trimChars text
    | .vtt => subtitlesToText text true
    | .srt => subtitlesToText text false)

/-! ## Files -/

/-- A line with more than whitespace. -/
structure IsLine (l : List Char) : Prop where
  newline : '\n' ∉ l
  carriageReturn : '\r' ∉ l
  plain : ∃ c ∈ l, isWhitespace c = false

/-- A cue: an identifier where it has one, its timing, and what is said. -/
structure Cue where
  identifier : Option (List Char)
  timing : List Char
  texts : List (List Char)
  isIdentifier : ∀ l ∈ identifier, IsLine l ∧ hasArrow l = false
  isTiming : IsLine timing ∧ hasArrow timing = true ∧ timing.head?.any Char.isDigit = true
  saysSomething : texts ≠ []
  isText : ∀ l ∈ texts, IsLine l ∧ '<' ∉ l ∧ hasArrow l = false

/-- A header, a note, or definitions of styles or regions. -/
structure Metadata where
  first : List Char
  rest : List (List Char)
  isLine : ∀ l ∈ first :: rest, IsLine l
  marked : isMetadata (trimChars first) = true

inductive Block where
  | cue (cue : Cue)
  | metadata (metadata : Metadata)

/-- The lines that are not spoken. -/
def Block.silent : Block → List (List Char)
  | .cue c => c.identifier.toList ++ [c.timing]
  | .metadata m => m.first :: m.rest

/-- The lines that are. -/
def Block.spoken : Block → List (List Char)
  | .cue c => c.texts
  | .metadata _ => []

def Block.lines (block : Block) : List (List Char) := block.silent ++ block.spoken

/-- A subtitle file. Only WebVTT has metadata; a blank line comes between two blocks at least. -/
structure SubtitleFile where
  vtt : Bool
  mark : Bool
  ending : LineEnding
  /-- Newlines before the first block. -/
  before : Nat
  /-- The blocks, each with the number of newlines after it. -/
  blocks : List (Block × Nat)
  apart : ∀ block ∈ blocks.dropLast, 2 ≤ block.2
  onlyVtt : ∀ metadata gap, (Block.metadata metadata, gap) ∈ blocks → vtt = true
  unmarked : mark = false → (blocks.head?.bind (·.1.lines.head?)).bind List.head? ≠ some '\ufeff'

namespace SubtitleFile

variable (file : SubtitleFile)

def format : TextFormat := if file.vtt then .vtt else .srt

/-- The file with newlines. -/
def text : List Char :=
  List.replicate file.before '\n' ++ paragraphs (file.blocks.map fun block => (block.1.lines, block.2))

def raw : String := String.ofList ((if file.mark then ['\ufeff'] else []) ++ file.ending.write file.text)

/-- The text lines of all cues. -/
def texts : List (List Char) := file.blocks.flatMap fun block => block.1.spoken

end SubtitleFile

/-! ## Lines -/

variable {l : List Char}

theorem hasArrow_iff : hasArrow l = true ↔ "-->".toList <:+: l := by
  unfold hasArrow
  rw [List.any_eq_true, List.infix_iff_prefix_suffix]
  constructor
  · rintro ⟨tail, htail, hprefix⟩
    exact ⟨tail, List.isPrefixOf_iff_prefix.mp hprefix, (List.mem_tails _ _).mp htail⟩
  · rintro ⟨tail, hprefix, htail⟩
    exact ⟨tail, (List.mem_tails _ _).mpr htail, List.isPrefixOf_iff_prefix.mpr hprefix⟩

theorem ne_of_isWhitespace {c d : Char} (hc : isWhitespace c = true) (hd : isWhitespace d = false) :
    c ≠ d := by
  rintro rfl
  rw [hc] at hd
  contradiction

/-- Whitespace around a line makes no arrow. -/
theorem hasArrow_trimChars (l : List Char) : hasArrow (trimChars l) = hasArrow l := by
  apply eq_of_trimmed
  · intro c l hc
    rw [Bool.eq_iff_iff, hasArrow_iff, hasArrow_iff, List.infix_cons_iff]
    constructor
    · rintro (⟨rest, hrest⟩ | hlater)
      · exact absurd (List.cons.inj hrest).1.symm (ne_of_isWhitespace hc (by decide))
      · exact hlater
    · exact .inr
  · intro c l hc
    rw [Bool.eq_iff_iff, hasArrow_iff, hasArrow_iff, List.infix_concat_iff]
    constructor
    · rintro (⟨rest, hrest⟩ | hearlier)
      · have hlast := congrArg List.getLast? hrest
        simp only [List.getLast?_append] at hlast
        exact absurd (Option.some.inj hlast).symm (ne_of_isWhitespace hc (by decide))
      · exact hearlier
    · exact .inr

theorem splitWhitespace_trimChars (l : List Char) :
    splitWhitespace (trimChars l) = splitWhitespace l := by
  apply eq_of_trimmed
  · intro c l hc
    simp [splitWhitespace, List.splitOnP_cons_eq_if_modifyHead, hc]
  · intro c l hc
    simp [splitWhitespace, List.splitOnP_append_cons l [] hc]

theorem oneSpaced_trimChars (l : List Char) : oneSpaced (trimChars l) = oneSpaced l := by
  rw [oneSpaced, splitWhitespace_trimChars, oneSpaced]

theorem mem_of_mem_trimChars {c : Char} (h : c ∈ trimChars l) : c ∈ l := by
  have hdrop := List.mem_reverse.mp h
  have hmem := List.mem_reverse.mp ((List.dropWhile_sublist isWhitespace).subset hdrop)
  exact (List.dropWhile_sublist isWhitespace).subset hmem

/-- Words are what a line with more than whitespace has. -/
theorem splitWhitespace_ne_nil (h : ∃ c ∈ l, isWhitespace c = false) :
    splitWhitespace l ≠ [] := by
  induction l with
  | nil => simp at h
  | cons c l ih =>
    unfold splitWhitespace at ih ⊢
    rw [List.splitOnP_cons_eq_if_modifyHead]
    by_cases hc : isWhitespace c = true
    · rw [if_pos hc]
      obtain ⟨d, hd, hplain⟩ := h
      rcases List.mem_cons.mp hd with rfl | hd
      · rw [hc] at hplain
        contradiction
      · simpa using ih ⟨d, hd, hplain⟩
    · rw [if_neg hc]
      cases hsplit : l.splitOnP isWhitespace with
      | nil => exact absurd hsplit (List.splitOnP_ne_nil _ _)
      | cons head tail => simp

theorem oneSpaced_ne_nil (h : ∃ c ∈ l, isWhitespace c = false) :
    oneSpaced l ≠ [] := by
  unfold oneSpaced
  obtain ⟨word, words, hwords⟩ := List.exists_cons_of_ne_nil (splitWhitespace_ne_nil h)
  have hword : word ≠ [] := by
    have hmem : word ∈ splitWhitespace l := by simp [hwords]
    simpa using (List.mem_filter.mp hmem).2
  rw [hwords]
  cases words with
  | nil => simpa using hword
  | cons next words =>
    rw [List.intercalate_cons_cons]
    simp [hword]

/-- Without a tag, the characters are copied. -/
theorem stripTags_plain (h : '<' ∉ l) (speaker : Option (List Char)) (out : List Char) :
    stripTags speaker out none l = (speaker, out ++ l) := by
  induction l generalizing out with
  | nil => simp [stripTags]
  | cons c l ih =>
    have hc : c ≠ '<' := fun heq => h (by simp [heq])
    rw [stripTags, if_neg hc, ih fun hmem => h (List.mem_cons_of_mem _ hmem)]
    simp

theorem stripCueTags_plain (h : '<' ∉ l) : stripCueTags l = oneSpaced l := by
  unfold stripCueTags
  rw [stripTags_plain h]
  rfl

/-- A line of text adds its words, unless it is a number. -/
theorem keptLine_text (hline : IsLine l) (htag : '<' ∉ l) (harrow : hasArrow l = false) :
    keptLine (trimChars l) = if (trimChars l).all Char.isDigit then none else some (oneSpaced l) := by
  have htag' : '<' ∉ trimChars l := fun hmem => htag (mem_of_mem_trimChars hmem)
  unfold keptLine
  rw [hasArrow_trimChars, harrow, Bool.false_or, stripCueTags_plain htag', oneSpaced_trimChars]
  have hne : (oneSpaced l).isEmpty = false := by
    simpa using oneSpaced_ne_nil hline.plain
  simp [hne]

theorem keptLine_timing (harrow : hasArrow l = true) :
    keptLine (trimChars l) = none := by
  simp [keptLine, hasArrow_trimChars, harrow]

theorem keptLine_eq_none_iff (harrow : hasArrow l = false) :
    keptLine (trimChars l) = none ↔
      (trimChars l).all Char.isDigit = true ∨ stripCueTags (trimChars l) = [] := by
  unfold keptLine
  rw [hasArrow_trimChars, harrow, Bool.false_or]
  by_cases hdigits : (trimChars l).all Char.isDigit = true
  · simp only [hdigits, if_true, true_or]
  · rw [if_neg hdigits]
    by_cases hempty : stripCueTags (trimChars l) = []
    · simp [hempty]
    · simp [hempty, hdigits]

/-! ## Blocks -/

theorem Block.isLine (block : Block) : ∀ l ∈ block.lines, IsLine l := by
  intro l hl
  cases block with
  | cue cue =>
    simp only [Block.lines, Block.silent, Block.spoken, List.mem_append, Option.mem_toList,
      List.mem_singleton] at hl
    rcases hl with (hid | rfl) | htext
    · exact (cue.isIdentifier l hid).1
    · exact cue.isTiming.1
    · exact (cue.isText l htext).1
  | metadata metadata =>
    apply metadata.isLine
    simpa [Block.lines, Block.silent, Block.spoken] using hl

theorem Block.lines_ne_nil (block : Block) : block.lines ≠ [] := by
  cases block <;> simp [Block.lines, Block.silent]

/-- Whether the loop skips a block for what its first line begins with. -/
def Block.skipped (vtt : Bool) (block : Block) : Bool :=
  vtt && block.lines.head?.any fun first => isMetadata (trimChars first)

/-- What the loop adds for a line of a block. -/
def Block.contribution (vtt : Bool) (block : Block) (line : List Char) : Option (List Char) :=
  if block.skipped vtt then none else keptLine (trimChars line)

/-- A block adds what its lines add. -/
theorem blockLines_lines (vtt : Bool) (block : Block) :
    blockLines vtt (['\n'].intercalate block.lines) =
      block.lines.filterMap (block.contribution vtt) := by
  have hread : trimmedLines (['\n'].intercalate block.lines) = block.lines.map trimChars :=
    trimmedLines_intercalate block.lines_ne_nil (fun l hl => (block.isLine l hl).newline)
      fun l hl => (block.isLine l hl).plain
  have hcontribution : block.contribution vtt =
      fun line => if block.skipped vtt then none else keptLine (trimChars line) := rfl
  obtain ⟨first, rest, hlines⟩ := List.exists_cons_of_ne_nil block.lines_ne_nil
  unfold blockLines
  rw [hread, hcontribution, Block.skipped, hlines, List.map_cons]
  simp only [List.head?_cons, Option.any_some]
  by_cases hskip : (vtt && isMetadata (trimChars first)) = true
  · simp [hskip]
  · simp only [hskip, Bool.false_eq_true, if_false]
    rw [← List.map_cons, List.filterMap_map]
    rfl

theorem blockLines_newlines (vtt : Bool) :
    blockLines vtt [] = [] ∧ (∀ s, blockLines vtt ('\n' :: s) = blockLines vtt s) ∧
      ∀ s, blockLines vtt (s ++ ['\n']) = blockLines vtt s := by
  refine ⟨rfl, fun s => ?_, fun s => ?_⟩
  · unfold blockLines
    rw [trimmedLines_cons_newline]
  · unfold blockLines
    rw [trimmedLines_concat_newline]

/-- The trimmed text begins as the line does, if that is not with whitespace. -/
theorem head?_trimChars {c : Char} (hc : isWhitespace c = false) (hhead : l.head? = some c) :
    (trimChars l).head? = some c := by
  obtain ⟨rest, rfl⟩ : ∃ rest, l = c :: rest := ⟨l.tail, List.eq_cons_of_mem_head? hhead⟩
  have htrim : trimChars (c :: rest) = (c :: rest).rdropWhile isWhitespace := by
    rw [trimChars, List.dropWhile_cons_of_neg (by simp [hc])]
    rfl
  have hne : (c :: rest).rdropWhile isWhitespace ≠ [] := by
    intro hnil
    have hblank := List.rdropWhile_eq_nil_iff.mp hnil c List.mem_cons_self
    rw [hc] at hblank
    contradiction
  obtain ⟨first, kept, hkept⟩ := List.exists_cons_of_ne_nil hne
  have hprefix := List.rdropWhile_prefix isWhitespace (c :: rest)
  rw [hkept] at hprefix
  rw [htrim, hkept, (List.cons_prefix_cons.mp hprefix).1]
  rfl

/-- A timing does not look like a header or a note. -/
theorem isMetadata_timing (cue : Cue) : isMetadata (trimChars cue.timing) = false := by
  obtain ⟨_, _, hdigit⟩ := cue.isTiming
  obtain ⟨c, hhead, hdigit⟩ : ∃ c, cue.timing.head? = some c ∧ c.isDigit = true := by
    cases hhead : cue.timing.head? with
    | none => simp [hhead] at hdigit
    | some c => exact ⟨c, rfl, by simpa [hhead] using hdigit⟩
  have hhead' := head?_trimChars (Prefixes.digit_plain hdigit).2.2.2 hhead
  unfold isMetadata
  rw [List.any_eq_false]
  intro word hword hprefix
  obtain ⟨rest, hrest⟩ := List.isPrefixOf_iff_prefix.mp hprefix
  rw [← hrest] at hhead'
  simp only [List.mem_cons, List.not_mem_nil, or_false] at hword
  rcases hword with rfl | rfl | rfl | rfl
  all_goals
    obtain rfl := Option.some.inj hhead'
    exact absurd hdigit (by decide)

/-- Nothing about a cue makes the loop take its lines for others. -/
structure Cue.Clear (vtt : Bool) (cue : Cue) : Prop where
  unmarked : vtt = true → ∀ l ∈ cue.identifier, isMetadata (trimChars l) = false
  numbered : ∀ l ∈ cue.identifier,
    (trimChars l).all Char.isDigit = true ∨ stripCueTags (trimChars l) = []
  worded : ∀ l ∈ cue.texts, (trimChars l).all Char.isDigit = false ∧ oneSpaced l = l

/-- Every text line adds itself, and every other line nothing. -/
def Block.KeepsLines (vtt : Bool) (block : Block) : Prop :=
  (∀ l ∈ block.spoken, block.contribution vtt l = some l) ∧
    ∀ l ∈ block.silent, block.contribution vtt l = none

theorem skipped_cue_iff {vtt : Bool} {cue : Cue} :
    (Block.cue cue).skipped vtt = true ↔
      vtt = true ∧ ∃ l ∈ cue.identifier, isMetadata (trimChars l) = true := by
  unfold Block.skipped Block.lines Block.silent
  rw [Bool.and_eq_true]
  apply and_congr_right
  intro _
  cases hid : cue.identifier with
  | none => simp [hid, isMetadata_timing]
  | some l => simp [hid]

theorem keepsLines_cue_iff (vtt : Bool) (cue : Cue) :
    (Block.cue cue).KeepsLines vtt ↔ cue.Clear vtt := by
  by_cases hskip : (Block.cue cue).skipped vtt = true
  · obtain ⟨hvtt, id, hid, hmarked⟩ := skipped_cue_iff.mp hskip
    constructor
    · rintro ⟨hspoken, _⟩
      obtain ⟨first, rest, htexts⟩ := List.exists_cons_of_ne_nil cue.saysSomething
      have hfirst := hspoken first (by simp [Block.spoken, htexts])
      rw [Block.contribution, if_pos hskip] at hfirst
      contradiction
    · intro hclear
      rw [hclear.unmarked hvtt id hid] at hmarked
      contradiction
  · have hcontribution : ∀ l, (Block.cue cue).contribution vtt l = keptLine (trimChars l) :=
      fun l => if_neg hskip
    have hunmarked : vtt = true → ∀ l ∈ cue.identifier, isMetadata (trimChars l) = false := by
      intro hvtt l hl
      rw [Bool.eq_false_iff]
      exact fun hmarked => hskip (skipped_cue_iff.mpr ⟨hvtt, l, hl, hmarked⟩)
    have htext : ∀ l ∈ cue.texts, keptLine (trimChars l) = some l ↔
        (trimChars l).all Char.isDigit = false ∧ oneSpaced l = l := by
      intro l hl
      obtain ⟨hline, htag, harrow⟩ := cue.isText l hl
      rw [keptLine_text hline htag harrow]
      cases (trimChars l).all Char.isDigit with
      | true => simp
      | false => simp
    constructor
    · rintro ⟨hspoken, hsilent⟩
      refine ⟨hunmarked, fun l hl => ?_, fun l hl => ?_⟩
      · have hnone := hsilent l (by simp [Block.silent, Option.mem_def.mp hl])
        rw [hcontribution] at hnone
        exact (keptLine_eq_none_iff (cue.isIdentifier l hl).2).mp hnone
      · have hsome := hspoken l hl
        rw [hcontribution] at hsome
        exact (htext l hl).mp hsome
    · intro hclear
      refine ⟨fun l hl => ?_, fun l hl => ?_⟩
      · rw [hcontribution]
        exact (htext l hl).mpr (hclear.worded l hl)
      · rw [hcontribution]
        simp only [Block.silent, List.mem_append, Option.mem_toList, List.mem_singleton] at hl
        rcases hl with hid | rfl
        · exact (keptLine_eq_none_iff (cue.isIdentifier l hid).2).mpr (hclear.numbered l hid)
        · exact keptLine_timing cue.isTiming.2.1

theorem keepsLines_metadata (metadata : Metadata) : (Block.metadata metadata).KeepsLines true := by
  refine ⟨List.forall_mem_nil _, fun l _ => if_pos ?_⟩
  simp [Block.skipped, Block.lines, Block.silent, metadata.marked]

/-! ## Whole files -/

namespace SubtitleFile

variable (file : SubtitleFile)

/-- Every line of the file adds what it is to add. -/
def KeepsLines : Prop := ∀ block ∈ file.blocks, block.1.KeepsLines file.vtt

theorem separated {blocks : List (Block × Nat)} (h : ∀ block ∈ blocks.dropLast, 2 ≤ block.2) :
    Separated (blocks.map fun block => (block.1.lines, block.2)) := by
  induction blocks with
  | nil => trivial
  | cons block rest ih =>
    refine ⟨block.1.lines_ne_nil, fun l hl => ?_, fun hrest => ?_, ?_⟩
    · have hline := block.1.isLine l hl
      refine ⟨hline.newline, ?_⟩
      rintro rfl
      obtain ⟨c, hc, _⟩ := hline.plain
      exact absurd hc List.not_mem_nil
    · apply h
      cases rest with
      | nil => contradiction
      | cons next rest => simp
    · apply ih
      intro other hother
      apply h
      cases rest with
      | nil => simp at hother
      | cons next rest =>
        rw [List.dropLast_cons_of_ne_nil (List.cons_ne_nil _ _)]
        exact List.mem_cons_of_mem _ hother

theorem carriageReturn_not_mem_text : '\r' ∉ file.text := by
  intro hmem
  rcases List.mem_append.mp hmem with hmem | hmem
  · exact absurd (List.eq_of_mem_replicate hmem) (by decide)
  · rcases mem_paragraphs hmem with heq | ⟨lines, hlines, l, hl, hc⟩
    · contradiction
    · obtain ⟨block, _, rfl⟩ := List.mem_map.mp hlines
      exact (block.1.isLine l hl).carriageReturn hc

theorem head?_text (h : file.mark = false) : file.text.head? ≠ some '\ufeff' := by
  intro hhead
  apply file.unmarked h
  unfold text at hhead
  cases hbefore : file.before with
  | succ n =>
    rw [hbefore] at hhead
    exact absurd (Option.some.inj hhead) (by decide)
  | zero =>
    rw [hbefore, List.replicate_zero, List.nil_append] at hhead
    cases hblocks : file.blocks with
    | nil => simp [hblocks, paragraphs] at hhead
    | cons block rest =>
      obtain ⟨first, ls, hlines⟩ := List.exists_cons_of_ne_nil block.1.lines_ne_nil
      have hfirst : first ≠ [] := by
        rintro rfl
        obtain ⟨c, hc, _⟩ := (block.1.isLine [] (by simp [hlines])).plain
        exact absurd hc List.not_mem_nil
      rw [hblocks, List.map_cons, hlines, head?_paragraphs hfirst] at hhead
      simp [hlines, hhead]

/-- What is read of the file is its text with newlines. -/
theorem read_raw : crToLf (crlfToLf (stripMark file.raw.toList)) = file.text := by
  rw [raw, String.toList_ofList]
  have hstrip : stripMark ((if file.mark then ['\ufeff'] else []) ++ file.ending.write file.text) =
      file.ending.write file.text := by
    cases hmark : file.mark with
    | true => rfl
    | false =>
      have hhead : (file.ending.write file.text).head? ≠ some '\ufeff' := fun hhead =>
        file.head?_text hmark (file.ending.head?_write (by decide) (by decide) hhead)
      simp only [Bool.false_eq_true, if_false, List.nil_append]
      cases hwrite : file.ending.write file.text with
      | nil => rfl
      | cons c rest =>
        rw [stripMark, if_neg]
        rintro rfl
        exact hhead (by rw [hwrite]; rfl)
  rw [hstrip, toLf_write _ file.carriageReturn_not_mem_text]

/-- What is made of the file is what its lines add. -/
theorem toPlainText_raw : toPlainText file.raw file.format =
    String.ofList (['\n'].intercalate (file.blocks.flatMap fun block =>
      block.1.lines.filterMap (block.1.contribution file.vtt))) := by
  have hformat : toPlainText file.raw file.format =
      String.ofList (subtitlesToText file.text file.vtt) := by
    unfold toPlainText format
    dsimp only
    rw [read_raw]
    cases file.vtt with
    | true => rfl
    | false => rfl
  obtain ⟨hnil, hcons, hconcat⟩ := blockLines_newlines file.vtt
  rw [hformat, subtitlesToText, text,
    flatMap_splitBlank hnil hcons hconcat (separated file.apart), List.flatMap_map]
  congr 2
  apply List.flatMap_congr
  intro block _
  exact blockLines_lines file.vtt block.1

theorem texts_of_keepsLines (h : file.KeepsLines) :
    (file.blocks.flatMap fun block => block.1.lines.filterMap (block.1.contribution file.vtt)) =
      file.texts := by
  unfold texts
  apply List.flatMap_congr
  intro block hblock
  obtain ⟨hspoken, hsilent⟩ := h block hblock
  rw [Block.lines, List.filterMap_append, List.filterMap_eq_nil_iff.mpr hsilent, List.nil_append]
  calc block.1.spoken.filterMap (block.1.contribution file.vtt)
      = block.1.spoken.filterMap some := List.filterMap_congr fun l hl => hspoken l hl
    _ = block.1.spoken := List.filterMap_some

end SubtitleFile

/-- What comes of a subtitle file is what its lines add. Each text line adds itself, and no other
line anything, if and only if every cue is clear; then the text lines are all that comes of it. -/
theorem subtitles_keep_lines_iff (file : SubtitleFile) :
    toPlainText file.raw file.format =
      String.ofList (['\n'].intercalate (file.blocks.flatMap fun block =>
        block.1.lines.filterMap (block.1.contribution file.vtt))) ∧
    (file.KeepsLines ↔
      ∀ cue gap, (Block.cue cue, gap) ∈ file.blocks → cue.Clear file.vtt) ∧
    (file.KeepsLines →
      toPlainText file.raw file.format = String.ofList (['\n'].intercalate file.texts)) := by
  refine ⟨file.toPlainText_raw, ⟨fun h cue gap hcue => ?_, fun h block hblock => ?_⟩, fun h => ?_⟩
  · exact (keepsLines_cue_iff _ cue).mp (h _ hcue)
  · obtain ⟨block, gap⟩ := block
    cases block with
    | cue cue => exact (keepsLines_cue_iff _ cue).mpr (h cue gap hblock)
    | metadata metadata =>
      rw [file.onlyVtt metadata gap hblock]
      exact keepsLines_metadata metadata
  · rw [file.toPlainText_raw, file.texts_of_keepsLines h]

/-- A file with one cue, in which a number is said. -/
def counted : SubtitleFile where
  vtt := false
  mark := false
  ending := .lf
  before := 0
  blocks := [(.cue
    { identifier := some "1".toList
      timing := "00:00:01,000 --> 00:00:02,000".toList
      texts := ["How many?".toList, "42".toList]
      isIdentifier := by
        intro l hl
        obtain rfl := Option.some.inj hl
        exact ⟨⟨by decide, by decide, by decide⟩, by decide⟩
      isTiming := ⟨⟨by decide, by decide, by decide⟩, by decide, by decide⟩
      saysSomething := by decide
      isText := by
        intro l hl
        simp only [List.mem_cons, List.not_mem_nil, or_false] at hl
        rcases hl with rfl | rfl
        · exact ⟨⟨by decide, by decide, by decide⟩, by decide, by decide⟩
        · exact ⟨⟨by decide, by decide, by decide⟩, by decide, by decide⟩ }, 1)]
  apart := by simp
  onlyVtt := by simp
  unmarked := by simp [Block.lines, Block.silent]

theorem number_dropped :
    ¬ ∀ file : SubtitleFile,
      toPlainText file.raw file.format = String.ofList (['\n'].intercalate file.texts) := by
  intro h
  have hcounted := h counted
  have hraw : toPlainText counted.raw counted.format = "How many?" := by decide +kernel
  have htexts : String.ofList (['\n'].intercalate counted.texts) = "How many?\n42" := by
    decide +kernel
  rw [hraw, htexts] at hcounted
  contradiction

end IntelliPilot.Meetings
