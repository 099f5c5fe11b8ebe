import IntelliPilot.Text.Trimming
import IntelliPilot.Text.Unicode
import Mathlib

/-! # Range requests

`parse_range` of the attachments, and what `download` makes of its answer. It
reads the two numbers with `u64::from_str` after trimming them, so it takes a
plus sign and blanks where a range has none.
-/

namespace IntelliPilot.Attachments.Ranges

open Auth (isWhitespace)
open Text (trimChars trimChars_eq_self)

/-! ## Numbers of 64 bits -/

/-- `a - b`, which panics below zero. -/
def checkedSub (a b : Nat) : Option Nat := if b ≤ a then some (a - b) else none

/-- `a + b`, which panics from `2^64` on. -/
def checkedAdd (a b : Nat) : Option Nat := if a + b < 2 ^ 64 then some (a + b) else none

/-- `str::parse::<u64>`. -/
def parseU64 (s : List Char) : Option Nat :=
  let digits := if s.head? = some '+' then s.drop 1 else s
  if digits ≠ [] ∧ digits.all Char.isDigit then
    (some (Nat.ofDigitChars 10 digits 0)).filter (· < 2 ^ 64)
  else none

/-! ## The handler -/

/-- `ByteRange`. -/
inductive ByteRange where
  | full
  | part (start finish : Nat)
  | unsatisfiable
  deriving DecidableEq

/-- `bytes=`. -/
def bytesUnit : List Char := ['b', 'y', 't', 'e', 's', '=']

/-- `split_once('-')`. -/
def splitOnce (s : List Char) : Option (List Char × List Char) :=
  match s.dropWhile (· != '-') with
  | [] => none
  | _ :: last => some (s.takeWhile (· != '-'), last)

/-- `parse_range`; nothing where it would overflow. -/
def parseRange (header : List Char) (size : Nat) : Option ByteRange :=
  match (trimChars header).dropPrefix? bytesUnit with
  | none => some .full
  | some spec =>
    if ',' ∈ spec then some .full
    else match splitOnce (trimChars spec) with
      | none => some .full
      | some (first, last) =>
        let first := trimChars first
        let last := trimChars last
        if first = [] then
          match parseU64 last with
          | none => some .full
          | some n =>
            if n = 0 ∨ size = 0 then some .unsatisfiable
            else (checkedSub size 1).map (.part (size - n) ·)
        else match parseU64 first with
          | none => some .full
          | some start =>
            match (if last = [] then some none
              else ((parseU64 last).filter (start ≤ ·)).map some) with
            | none => some .full
            | some finish =>
              if size ≤ start then some .unsatisfiable
              else (checkedSub size 1).map fun top => .part start ((finish.map (min · top)).getD top)

inductive Answer where
  | object (status contentLength : Nat) (contentRange : Option String) (body : List UInt8)
  | rangeNotSatisfiable (contentRange : String)
  deriving DecidableEq

/-- `open_range`. -/
def openRange (object : List UInt8) (start len : Nat) : List UInt8 := (object.drop start).take len

/-- `download`, once the object is found. -/
def download (header : Option (List Char)) (object : List UInt8) : Option Answer := do
  let size := object.length
  match ← header.elim (some .full) (parseRange · size) with
  | .full => return .object 200 size none (openRange object 0 size)
  | .part start finish =>
    let len ← (checkedSub finish start).bind (checkedAdd · 1)
    let last ← (checkedAdd start len).bind (checkedSub · 1)
    return .object 206 len (some s!"bytes {start}-{last}/{size}") (openRange object start len)
  | .unsatisfiable => return .rangeNotSatisfiable s!"bytes */{size}"

/-! ## Ranges -/

/-- From a position up to another one or to the end, or so many bytes at the end. -/
inductive RangeSpec where
  | int (first : Nat) (last : Option Nat)
  | suffix (length : Nat)

/-- The first position that a range selects. -/
def RangeSpec.start (size : Nat) : RangeSpec → Nat
  | int first _ => first
  | suffix length => size - length

/-- The position behind the last one that a range selects. -/
def RangeSpec.past (size : Nat) : RangeSpec → Nat
  | int _ last => min size (last.elim size (· + 1))
  | suffix _ => size

/-- A number as a range writes it: digits and nothing else. -/
structure Number (s : List Char) (n : Nat) : Prop where
  ne_nil : s ≠ []
  digits : ∀ c ∈ s, c.isDigit = true
  value : Nat.ofDigitChars 10 s 0 = n

/-- What stands before and behind the dash of a range. -/
def RangeSpec.Writes (first last : List Char) : RangeSpec → Prop
  | int m n => Number first m ∧ n.elim (last = []) (Number last) ∧ ∀ k ∈ n, m ≤ k
  | suffix n => first = [] ∧ Number last n

/-- The header is a single range of bytes, blanks around it apart. -/
def Denotes (header : List Char) (range : RangeSpec) : Prop :=
  ∃ first last, trimChars header = bytesUnit ++ (first ++ '-' :: last) ∧ range.Writes first last

/-- A header is answered exactly for objects of this size. -/
structure Exact (header : List Char) (size : Nat) : Prop where
  total : parseRange header size ≠ none
  part : ∀ start finish, parseRange header size = some (.part start finish) →
    start ≤ finish ∧ finish < size ∧
      ∃ range, Denotes header range ∧ range.start size = start ∧ range.past size = finish + 1
  unsatisfiable : parseRange header size = some .unsatisfiable →
    ∃ range, Denotes header range ∧ range.past size ≤ range.start size
  served : ∀ start finish, parseRange header size = some (.part start finish) →
    ∀ object : List UInt8, object.length = size →
      download (some header) object = some (.object 206 (finish - start + 1)
        (some s!"bytes {start}-{finish}/{size}") ((object.take (finish + 1)).drop start))

/-! ## What the code reads -/

/-- How the code reads what stands before and behind the dash. -/
def readParts (first last : List Char) : Option RangeSpec :=
  if first = [] then (parseU64 last).map .suffix
  else (parseU64 first).bind fun m =>
    if last = [] then some (.int m none)
    else ((parseU64 last).filter (m ≤ ·)).map fun n => .int m (some n)

/-- The range that the code reads: a plus sign before a number and blanks around it pass. -/
def readRange (header : List Char) : Option RangeSpec :=
  ((trimChars header).dropPrefix? bytesUnit).bind fun spec =>
    if ',' ∈ spec then none
    else (splitOnce (trimChars spec)).bind fun parts =>
      readParts (trimChars parts.1) (trimChars parts.2)

/-- What the code answers to a range that it has read. -/
def RangeSpec.outcome (size : Nat) (range : RangeSpec) : ByteRange :=
  if range.start size < range.past size then .part (range.start size) (range.past size - 1)
  else .unsatisfiable

/-- Neither a plus sign nor a blank. -/
def Plain (c : Char) : Prop := c ≠ '+' ∧ isWhitespace c = false

/-- What the code reads as a range has no plus sign and no blank in it. -/
def Strict (header : List Char) : Prop :=
  (readRange header).isSome → ∀ spec, trimChars header = bytesUnit ++ spec →
    ∀ c ∈ spec, Plain c

variable {header s : List Char} {size n : Nat} {range : RangeSpec}

theorem number_iff (hplus : '+' ∉ s) : parseU64 s = some n ↔ Number s n ∧ n < 2 ^ 64 := by
  have hhead : s.head? ≠ some '+' := fun h => hplus (List.mem_of_mem_head? h)
  unfold parseU64
  rw [if_neg hhead]
  by_cases h : s ≠ [] ∧ s.all Char.isDigit
  · rw [if_pos h, Option.filter_eq_some_iff, Option.some.injEq, decide_eq_true_eq]
    constructor
    · intro ⟨hvalue, hsize⟩
      exact ⟨⟨h.1, List.all_eq_true.mp h.2, hvalue⟩, hsize⟩
    · intro ⟨hnumber, hsize⟩
      exact ⟨hnumber.value, hsize⟩
  · rw [if_neg h]
    constructor
    · intro hnone
      contradiction
    · intro ⟨hnumber, _⟩
      exact absurd ⟨hnumber.ne_nil, List.all_eq_true.mpr hnumber.digits⟩ h

theorem splitOnce_eq {first last : List Char} (h : splitOnce s = some (first, last)) :
    s = first ++ '-' :: last := by
  unfold splitOnce at h
  cases hrest : s.dropWhile (· != '-') with
  | nil =>
    rw [hrest] at h
    contradiction
  | cons c rest =>
    rw [hrest] at h
    obtain ⟨rfl, rfl⟩ := Prod.mk.inj (Option.some.inj h)
    have hdash := List.head?_dropWhile_not (· != '-') s
    rw [hrest] at hdash
    obtain rfl : c = '-' := by simpa using hdash
    rw [← hrest, List.takeWhile_append_dropWhile]

theorem RangeSpec.past_le (size : Nat) (range : RangeSpec) : range.past size ≤ size := by
  cases range with
  | int first last => exact Nat.min_le_left ..
  | suffix length => exact Nat.le_refl size

theorem checkedSub_one (h : size ≠ 0) : checkedSub size 1 = some (size - 1) :=
  if_pos (Nat.one_le_iff_ne_zero.mpr h)

theorem outcome_eq {start past : Nat} (hstart : range.start size = start)
    (hpast : range.past size = past) : range.outcome size =
      if start < past then .part start (past - 1) else .unsatisfiable := by
  rw [RangeSpec.outcome, hstart, hpast]

theorem outcome_suffix (n : Nat) : some ((RangeSpec.suffix n).outcome size) =
    if n = 0 ∨ size = 0 then some .unsatisfiable
    else (checkedSub size 1).map (.part (size - n) ·) := by
  rw [outcome_eq rfl rfl]
  by_cases hnone : n = 0 ∨ size = 0
  · rw [if_pos hnone, if_neg (by simp only [RangeSpec.start, RangeSpec.past]; omega)]
  · rw [if_neg hnone, checkedSub_one (by omega), Option.map_some,
      if_pos (by simp only [RangeSpec.start, RangeSpec.past]; omega)]
    rfl

theorem outcome_int (size m : Nat) (last : Option Nat) (h : ∀ k ∈ last, m ≤ k) :
    some ((RangeSpec.int m last).outcome size) =
      if size ≤ m then some .unsatisfiable
      else (checkedSub size 1).map fun top => .part m ((last.map (min · top)).getD top) := by
  have hstart : (RangeSpec.int m last).start size = m := rfl
  have hpast : (RangeSpec.int m last).past size = min size (last.elim size (· + 1)) := rfl
  rw [outcome_eq hstart hpast]
  by_cases hsize : size ≤ m
  · rw [if_pos hsize, if_neg (by omega)]
  · rw [if_neg hsize, checkedSub_one (by omega), Option.map_some]
    cases last with
    | none => simp [Nat.not_le.mp hsize]
    | some k =>
      have hk : m ≤ k := h k rfl
      have hlt : m < min size (k + 1) := by omega
      have hmin : min size (k + 1) - 1 = min k (size - 1) := by omega
      simp [hlt, hmin]

/-- The code answers to the range that it reads, and never overflows. -/
theorem parseRange_eq (header : List Char) (size : Nat) :
    parseRange header size = some ((readRange header).elim .full (·.outcome size)) := by
  unfold parseRange readRange
  cases (trimChars header).dropPrefix? bytesUnit with
  | none => rfl
  | some spec =>
    by_cases hsingle : ',' ∈ spec
    · simp only [Option.bind_some, if_pos hsingle, Option.elim_none]
    · simp only [Option.bind_some, if_neg hsingle]
      cases splitOnce (trimChars spec) with
      | none => rfl
      | some parts =>
        simp only [Option.bind_some, readParts]
        by_cases hfirst : trimChars parts.1 = []
        · simp only [if_pos hfirst]
          cases parseU64 (trimChars parts.2) with
          | none => rfl
          | some n => exact (outcome_suffix n).symm
        · simp only [if_neg hfirst]
          cases parseU64 (trimChars parts.1) with
          | none => rfl
          | some m =>
            by_cases hlast : trimChars parts.2 = []
            · simpa [hlast] using (outcome_int size m none nofun).symm
            · cases hn : (parseU64 (trimChars parts.2)).filter (m ≤ ·) with
              | none => simp [hlast, hn]
              | some n =>
                have horder : ∀ k ∈ some n, m ≤ k := by
                  simpa using (Option.filter_eq_some_iff.mp hn).2
                simpa [hlast, hn] using (outcome_int size m (some n) horder).symm

theorem download_part {object : List UInt8} {start finish : Nat} (hsize : object.length < 2 ^ 64)
    (h : parseRange header object.length = some (.part start finish)) (hle : start ≤ finish)
    (hlt : finish < object.length) : download (some header) object =
      some (.object 206 (finish - start + 1) (some s!"bytes {start}-{finish}/{object.length}")
        ((object.take (finish + 1)).drop start)) := by
  have hlen : checkedAdd (finish - start) 1 = some (finish - start + 1) := if_pos (by omega)
  have hsum : checkedAdd start (finish - start + 1) = some (start + (finish - start + 1)) :=
    if_pos (by omega)
  have hlast : checkedSub (start + (finish - start + 1)) 1 = some finish := by
    rw [checkedSub, if_pos (by omega)]
    congr 1
    omega
  have hbody : openRange object start (finish - start + 1) =
      (object.take (finish + 1)).drop start := by
    rw [openRange, List.drop_take]
    congr 1
    omega
  have hsub : checkedSub finish start = some (finish - start) := if_pos hle
  simp [download, h, hsub, hlen, hsum, hlast, hbody]

/-! ## Exactness -/

theorem plain_of_digit {c : Char} (h : c.isDigit = true) : Plain c := by
  constructor
  · intro hplus
    subst hplus
    contradiction
  · exact (Text.Unicode.plain_of_isAlphanum (by simp [Char.isAlphanum, h])).1

theorem Number.plain (h : Number s n) : ∀ c ∈ s, Plain c := fun c hc =>
  plain_of_digit (h.digits c hc)

theorem Denotes.plain (h : Denotes header range) :
    ∃ spec, trimChars header = bytesUnit ++ spec ∧ ∀ c ∈ spec, Plain c := by
  obtain ⟨first, last, hheader, hwrites⟩ := h
  have hplain : (∀ c ∈ first, Plain c) ∧ ∀ c ∈ last, Plain c := by
    cases range with
    | int m n =>
      obtain ⟨hfirst, hlast, -⟩ := hwrites
      cases n with
      | none => exact ⟨hfirst.plain, by rw [(hlast : last = [])]; exact nofun⟩
      | some n => exact ⟨hfirst.plain, Number.plain hlast⟩
    | suffix n =>
      obtain ⟨rfl, hlast⟩ := hwrites
      exact ⟨nofun, hlast.plain⟩
  refine ⟨_, hheader, fun c hc => ?_⟩
  rcases List.mem_append.mp hc with hc | hc
  · exact hplain.1 c hc
  · rcases List.mem_cons.mp hc with rfl | hc
    · exact ⟨by decide, by decide⟩
    · exact hplain.2 c hc

theorem unit_of_readRange (h : readRange header = some range) :
    ∃ spec, trimChars header = bytesUnit ++ spec ∧ ',' ∉ spec ∧
      ∃ parts, splitOnce (trimChars spec) = some parts ∧
        readParts (trimChars parts.1) (trimChars parts.2) = some range := by
  obtain ⟨spec, hunit, h⟩ := Option.bind_eq_some_iff.mp h
  obtain ⟨unit, hunit, hbytes⟩ := List.dropPrefix?_eq_some_iff.mp hunit
  obtain ⟨hsingle, h⟩ := Option.ite_none_left_eq_some.mp h
  obtain ⟨parts, hdash, h⟩ := Option.bind_eq_some_iff.mp h
  exact ⟨spec, by rw [hunit, eq_of_beq hbytes], hsingle, parts, hdash, h⟩

theorem denotes_of_strict (hstrict : Strict header) (hread : readRange header = some range) :
    Denotes header range := by
  obtain ⟨spec, hheader, -, ⟨first, last⟩, hdash, hparts⟩ := unit_of_readRange hread
  have hplain := hstrict (by rw [hread]; rfl) spec hheader
  rw [trimChars_eq_self fun c hc => (hplain c hc).2] at hdash
  obtain rfl := splitOnce_eq hdash
  have hfirst : ∀ c ∈ first, Plain c := fun c hc => hplain c (List.mem_append_left _ hc)
  have hlast : ∀ c ∈ last, Plain c := fun c hc =>
    hplain c (List.mem_append_right _ (List.mem_cons_of_mem _ hc))
  have hnumber : ∀ {s n}, (∀ c ∈ s, Plain c) → parseU64 s = some n → Number s n := fun hs hn =>
    ((number_iff fun hplus => (hs _ hplus).1 rfl).mp hn).1
  refine ⟨first, last, hheader, ?_⟩
  simp only [trimChars_eq_self fun c hc => (hfirst c hc).2,
    trimChars_eq_self fun c hc => (hlast c hc).2, readParts] at hparts
  by_cases hempty : first = []
  · rw [if_pos hempty] at hparts
    obtain ⟨n, hn, rfl⟩ := Option.map_eq_some_iff.mp hparts
    exact ⟨hempty, hnumber hlast hn⟩
  · rw [if_neg hempty] at hparts
    obtain ⟨m, hm, hparts⟩ := Option.bind_eq_some_iff.mp hparts
    by_cases hopen : last = []
    · rw [if_pos hopen] at hparts
      obtain rfl := Option.some.inj hparts
      exact ⟨hnumber hfirst hm, hopen, nofun⟩
    · rw [if_neg hopen] at hparts
      obtain ⟨n, hn, rfl⟩ := Option.map_eq_some_iff.mp hparts
      obtain ⟨hn, horder⟩ := Option.filter_eq_some_iff.mp hn
      refine ⟨hnumber hfirst hm, hnumber hlast hn, fun k hk => ?_⟩
      rw [← Option.mem_some.mp hk]
      simpa using horder

/-- A header is answered exactly if and only if the code reads no plus sign and no blank into a
range. -/
theorem exact_iff (header : List Char) (size : Fin (2 ^ 64)) :
    Exact header size ↔ Strict header := by
  constructor
  · intro h hread spec hspec
    obtain ⟨range, hrange⟩ := Option.isSome_iff_exists.mp hread
    have hanswer : parseRange header size = some (range.outcome size) := by
      rw [parseRange_eq, hrange, Option.elim_some]
    have hdenotes : ∃ range, Denotes header range := by
      unfold RangeSpec.outcome at hanswer
      split at hanswer
      · obtain ⟨-, -, range, hdenotes, -⟩ := h.part _ _ hanswer
        exact ⟨range, hdenotes⟩
      · obtain ⟨range, hdenotes, -⟩ := h.unsatisfiable hanswer
        exact ⟨range, hdenotes⟩
    obtain ⟨range, hdenotes⟩ := hdenotes
    obtain ⟨spec', hspec', hplain⟩ := hdenotes.plain
    obtain rfl := List.append_cancel_left (hspec.symm.trans hspec')
    exact hplain
  · intro hstrict
    have hrange : ∀ answer, parseRange header size = some answer → answer ≠ .full →
        ∃ range, Denotes header range ∧ range.outcome size = answer := by
      intro answer hanswer hfull
      rw [parseRange_eq] at hanswer
      cases hread : readRange header with
      | none =>
        rw [hread] at hanswer
        exact absurd (Option.some.inj hanswer).symm hfull
      | some range =>
        rw [hread] at hanswer
        exact ⟨range, denotes_of_strict hstrict hread, Option.some.inj hanswer⟩
    have hpart : ∀ start finish, parseRange header size = some (.part start finish) →
        start ≤ finish ∧ finish < size ∧ ∃ range, Denotes header range ∧
          range.start size = start ∧ range.past size = finish + 1 := by
      intro start finish h
      obtain ⟨range, hdenotes, houtcome⟩ := hrange _ h nofun
      have hpast := range.past_le size
      unfold RangeSpec.outcome at houtcome
      split at houtcome
      · obtain ⟨rfl, rfl⟩ := ByteRange.part.inj houtcome
        exact ⟨by omega, by omega, range, hdenotes, rfl, by omega⟩
      · contradiction
    refine ⟨by simp [parseRange_eq], hpart, fun h => ?_, fun start finish h object hobject => ?_⟩
    · obtain ⟨range, hdenotes, houtcome⟩ := hrange _ h nofun
      unfold RangeSpec.outcome at houtcome
      split at houtcome
      · contradiction
      · exact ⟨range, hdenotes, by omega⟩
    · obtain ⟨hle, hlt, -⟩ := hpart start finish h
      rw [← hobject] at h hlt ⊢
      exact download_part (hobject ▸ size.isLt) h hle hlt

/-- `bytes=+5-` -/
theorem plus_sign_read : ¬Exact ['b', 'y', 't', 'e', 's', '=', '+', '5', '-'] 10 := by
  intro h
  obtain ⟨-, -, range, hdenotes, -⟩ := h.part 5 9 (by decide)
  obtain ⟨spec, hspec, hplain⟩ := hdenotes.plain
  have heq : bytesUnit ++ ['+', '5', '-'] = bytesUnit ++ spec := hspec
  obtain rfl := List.append_cancel_left heq
  exact (hplain '+' (by simp)).1 rfl

end IntelliPilot.Attachments.Ranges
