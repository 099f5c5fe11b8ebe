import IntelliPilot.Auth.Environment
import Mathlib

/-! # Letters beyond ASCII

`char::is_alphanumeric` and `str::to_lowercase` read the tables of the Unicode
character database, which are a parameter here. The lower case of a capital
sigma depends on its neighbours.
-/

namespace IntelliPilot.Text

open Auth (isWhitespace)

/-- The tables, and what is known of them. -/
structure Unicode where
  isAlphanumeric : Char → Bool
  cased : Char → Bool
  caseIgnorable : Char → Bool
  lower : Char → List Char
  alphanumeric_ascii : ∀ {c}, c.toNat < 128 → isAlphanumeric c = c.isAlphanum
  alphanumeric_white : ∀ {c}, isAlphanumeric c = true → isWhitespace c = false
  lower_ascii : ∀ {c}, c.toNat < 128 → lower c = [c.toLower]
  /-- Only a dotted capital I and the kelvin sign have a lower case that begins in ASCII. -/
  lower_beyond : ∀ {c}, 128 ≤ c.toNat →
    ∃ d rest, lower c = d :: rest ∧ (128 ≤ d.toNat ∨ d = 'i' ∨ d = 'k')
  lower_alphanumeric : ∀ {c}, isAlphanumeric c = true →
    ∀ d ∈ lower c, isWhitespace d = false ∧ (d.toNat < 128 → d.isAlphanum = true)

namespace Unicode

variable (U : Unicode)

/-- `case_ignorable_then_cased`. -/
def ignorableThenCased (s : List Char) : Bool :=
  ((s.dropWhile U.caseIgnorable).head?.map U.cased).getD false

/-- `to_lowercase`, behind the characters already read, the last of them first. -/
def lowerFrom (before : List Char) : List Char → List Char
  | [] => []
  | c :: rest =>
      (if c = 'Σ' then
        if U.ignorableThenCased before && !U.ignorableThenCased rest then ['ς'] else ['σ']
      else U.lower c) ++ lowerFrom (c :: before) rest

def toLowercase (s : List Char) : List Char := U.lowerFrom [] s

theorem lower_ne_nil (c : Char) : U.lower c ≠ [] := by
  by_cases hascii : c.toNat < 128
  · rw [U.lower_ascii hascii]
    exact List.cons_ne_nil _ _
  · obtain ⟨d, rest, hlower, -⟩ := U.lower_beyond (Nat.le_of_not_lt hascii)
    rw [hlower]
    exact List.cons_ne_nil _ _

theorem toLowercase_ne_nil {s : List Char} (h : s ≠ []) : U.toLowercase s ≠ [] := by
  cases s with
  | nil => exact absurd rfl h
  | cons c rest =>
    intro hnil
    rw [toLowercase, lowerFrom] at hnil
    have hhead := (List.append_eq_nil_iff.mp hnil).1
    split at hhead
    · split at hhead
      · exact List.cons_ne_nil _ _ hhead
      · exact List.cons_ne_nil _ _ hhead
    · exact U.lower_ne_nil c hhead

/-- Letters and digits of ASCII, and whatever else is not white space. -/
def Plain (c : Char) : Prop := isWhitespace c = false ∧ (c.toNat < 128 → c.isAlphanum = true)

instance (c : Char) : Decidable (Plain c) := inferInstanceAs (Decidable (_ ∧ _))

theorem plain_lowerFrom {s : List Char} (h : ∀ c ∈ s, U.isAlphanumeric c = true)
    (before : List Char) : ∀ d ∈ U.lowerFrom before s, Plain d := by
  induction s generalizing before with
  | nil =>
    intro d hd
    cases hd
  | cons c rest ih =>
    intro d hd
    rw [lowerFrom] at hd
    rcases List.mem_append.mp hd with hd | hd
    · split at hd
      · split at hd
        · rw [List.mem_singleton.mp hd]
          decide
        · rw [List.mem_singleton.mp hd]
          decide
      · exact U.lower_alphanumeric (h c List.mem_cons_self) d hd
    · exact ih (fun c' hc' => h c' (List.mem_cons_of_mem _ hc')) _ d hd

theorem lt_of_isAlphanum {c : Char} (h : c.isAlphanum = true) : c.toNat < 128 := by
  simp only [Char.isAlphanum, Char.isAlpha, Char.isUpper, Char.isLower, Char.isDigit,
    Bool.or_eq_true, Bool.and_eq_true, decide_eq_true_eq, UInt32.le_iff_toNat_le] at h
  rcases h with (⟨-, h⟩ | ⟨-, h⟩) | ⟨-, h⟩
  · exact Nat.lt_of_le_of_lt h (by decide)
  · exact Nat.lt_of_le_of_lt h (by decide)
  · exact Nat.lt_of_le_of_lt h (by decide)

/-- What holds of every character of ASCII. -/
theorem ascii_all {P : Char → Prop} (h : ∀ n : Nat, n < 128 → P (Char.ofNat n)) {c : Char}
    (hc : c.toNat < 128) : P c := by
  have hP := h c.toNat hc
  rwa [Char.ofNat_toNat] at hP

theorem plain_of_isAlphanum {c : Char} (h : c.isAlphanum = true) : Plain c := by
  refine ⟨?_, fun _ => h⟩
  have hascii : ∀ n : Nat, n < 128 → (Char.ofNat n).isAlphanum = true →
      isWhitespace (Char.ofNat n) = false := by decide +kernel
  exact ascii_all (P := fun c => c.isAlphanum = true → isWhitespace c = false) hascii
    (lt_of_isAlphanum h) h

theorem toLower_beyond {c : Char} (h : 128 ≤ c.toNat) : c.toLower = c := by
  rw [Char.toLower, dif_neg]
  rintro ⟨-, hle⟩
  have hle : c.toNat ≤ 90 := UInt32.le_iff_toNat_le.mp hle
  omega

/-- A letter that no other character than its two cases is lowered to. -/
def Distinct (d : Char) : Prop := d.toNat < 128 ∧ d ≠ 'i' ∧ d ≠ 'k'

instance (d : Char) : Decidable (Distinct d) := inferInstanceAs (Decidable (_ ∧ _))

theorem cons_prefix_lowerFrom_iff {d c : Char} (hd : Distinct d) (p before rest : List Char) :
    d :: p <+: U.lowerFrom before (c :: rest) ↔
      c.toLower = d ∧ p <+: U.lowerFrom (c :: before) rest := by
  obtain ⟨hlow, hi, hk⟩ := hd
  rw [lowerFrom]
  by_cases hascii : c.toNat < 128
  · have hsigma : c ≠ 'Σ' := by
      rintro rfl
      exact absurd hascii (by decide)
    rw [if_neg hsigma, U.lower_ascii hascii, List.singleton_append, List.cons_prefix_cons, eq_comm]
  · have hbeyond : 128 ≤ c.toNat := Nat.le_of_not_lt hascii
    have hother : c.toLower ≠ d := by
      rw [toLower_beyond hbeyond]
      rintro rfl
      exact absurd hlow hascii
    have hhead : ∃ e tail, (if c = 'Σ' then
        if U.ignorableThenCased before && !U.ignorableThenCased rest then ['ς'] else ['σ']
        else U.lower c) = e :: tail ∧ (128 ≤ e.toNat ∨ e = 'i' ∨ e = 'k') := by
      split
      · split
        · exact ⟨'ς', [], rfl, Or.inl (by decide)⟩
        · exact ⟨'σ', [], rfl, Or.inl (by decide)⟩
      · exact U.lower_beyond hbeyond
    obtain ⟨e, tail, heq, he⟩ := hhead
    rw [heq, List.cons_append, List.cons_prefix_cons]
    refine iff_of_false ?_ fun h => hother h.1
    rintro ⟨rfl, -⟩
    rcases he with he | he | he
    · exact absurd hlow (Nat.not_lt.mpr he)
    · exact hi he
    · exact hk he

/-- The lower case of a text begins with such letters if the text does, their case apart. -/
theorem prefix_lowerFrom_iff {p : List Char} (hp : ∀ d ∈ p, Distinct d) {before s : List Char} :
    p <+: U.lowerFrom before s ↔ ∃ first rest, s = first ++ rest ∧ first.map Char.toLower = p := by
  induction p generalizing before s with
  | nil => exact iff_of_true List.nil_prefix ⟨[], s, rfl, rfl⟩
  | cons d p ih =>
    cases s with
    | nil =>
      refine iff_of_false (fun h => ?_) ?_
      · exact absurd (List.prefix_nil.mp h) (List.cons_ne_nil _ _)
      · rintro ⟨first, rest, hnil, hmap⟩
        obtain ⟨rfl, -⟩ := List.append_eq_nil_iff.mp hnil.symm
        cases hmap
    | cons c s =>
      rw [U.cons_prefix_lowerFrom_iff (hp d List.mem_cons_self),
        ih fun e he => hp e (List.mem_cons_of_mem _ he)]
      constructor
      · rintro ⟨rfl, first, rest, rfl, rfl⟩
        exact ⟨c :: first, rest, rfl, rfl⟩
      · rintro ⟨first, rest, heq, hmap⟩
        cases first with
        | nil => cases hmap
        | cons c' first =>
          obtain ⟨rfl, rfl⟩ := List.cons.inj heq
          obtain ⟨rfl, rfl⟩ := List.cons.inj hmap
          exact ⟨rfl, first, rest, rfl, rfl⟩

/-- ASCII and the first letters of the Greek alphabet, as the database has them. -/
def greek : Unicode where
  isAlphanumeric c := c.isAlphanum || ['Α', 'Β', 'Σ', 'α', 'β', 'σ', 'ς'].contains c
  cased c := c.isAlpha || ['Α', 'Β', 'Σ', 'α', 'β', 'σ', 'ς'].contains c
  caseIgnorable c := ['\'', '.', ':', '^'].contains c
  lower c :=
    if c = 'Α' then ['α'] else if c = 'Β' then ['β'] else if c = 'Σ' then ['σ'] else [c.toLower]
  alphanumeric_ascii := by
    intro c hc
    exact ascii_all (P := fun c => (c.isAlphanum || ['Α', 'Β', 'Σ', 'α', 'β', 'σ', 'ς'].contains c) =
      c.isAlphanum) (by decide +kernel) hc
  alphanumeric_white := by
    intro c hc
    rcases Bool.or_eq_true_iff.mp hc with hc | hc
    · exact (plain_of_isAlphanum hc).1
    · have hletters : ∀ d ∈ ['Α', 'Β', 'Σ', 'α', 'β', 'σ', 'ς'], isWhitespace d = false := by decide
      exact hletters c (List.contains_iff_mem.mp hc)
  lower_ascii := by
    intro c hc
    exact ascii_all (P := fun c => (if c = 'Α' then ['α'] else if c = 'Β' then ['β']
      else if c = 'Σ' then ['σ'] else [c.toLower]) = [c.toLower]) (by decide +kernel) hc
  lower_beyond := by
    intro c hc
    split
    · exact ⟨'α', [], rfl, Or.inl (by decide)⟩
    split
    · exact ⟨'β', [], rfl, Or.inl (by decide)⟩
    split
    · exact ⟨'σ', [], rfl, Or.inl (by decide)⟩
    · exact ⟨_, [], rfl, Or.inl (by rwa [toLower_beyond hc])⟩
  lower_alphanumeric := by
    intro c hc d hd
    rcases Bool.or_eq_true_iff.mp hc with hc | hc
    · have hascii := ascii_all (P := fun c => c.isAlphanum = true → ∀ d ∈ (if c = 'Α' then ['α']
        else if c = 'Β' then ['β'] else if c = 'Σ' then ['σ'] else [c.toLower]), Plain d)
        (by decide +kernel) (lt_of_isAlphanum hc)
      exact hascii hc d hd
    · have hletters : ∀ c ∈ ['Α', 'Β', 'Σ', 'α', 'β', 'σ', 'ς'], ∀ d ∈ (if c = 'Α' then ['α']
        else if c = 'Β' then ['β'] else if c = 'Σ' then ['σ'] else [c.toLower]), Plain d := by
        decide +kernel
      exact hletters c (List.contains_iff_mem.mp hc) d hd

end Unicode

end IntelliPilot.Text
