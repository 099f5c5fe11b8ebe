import IntelliPilot.Text.Trimming
import Mathlib

/-! # Issue prefixes

How a prefix is derived from a project's name, which prefixes are tried when it
is taken, and how a prefix is read from a path or from a typed key.
-/

namespace IntelliPilot.Prefixes

open Auth (trim isWhitespace)

/-- `projects_issue_prefix_format`: `^[A-Z]{2,3}$`. -/
def prefixFormat (issuePrefix : String) : Bool :=
  let letters := issuePrefix.toList
  2 ≤ letters.length && letters.length ≤ 3 && letters.all Char.isUpper

/-- The pattern of a request field: `^[A-Za-z]{2,3}$`. -/
def prefixPattern (issuePrefix : String) : Bool :=
  let letters := issuePrefix.toList
  2 ≤ letters.length && letters.length ≤ 3 && letters.all Char.isAlpha

/-- `str::to_ascii_uppercase`. -/
def toAsciiUppercase (s : String) : String := String.ofList (s.toList.map Char.toUpper)

/-! ## Derivation -/

/-- `str::split_whitespace`. -/
def splitWhitespace (s : List Char) : List (List Char) :=
  (s.splitOnP isWhitespace).filter fun word => !word.isEmpty

/-- `derive_prefix`: initials of the first words, or the first letters of the only one. -/
def derivePrefix (name : String) : String :=
  let words := (splitWhitespace name.toList).filter fun word => word.any Char.isAlpha
  let letters :=
    if 2 ≤ words.length then
      (words.take 3).filterMap fun word => (word.find? Char.isAlpha).map Char.toUpper
    else ((name.toList.filter Char.isAlpha).take 3).map Char.toUpper
  String.ofList ((letters ++ List.replicate (2 - letters.length) 'X').take 3)

/-- `'A'..='Z'`. -/
def letters : List Char := (List.range 26).map fun n => Char.ofNat (65 + n)

/-- What `unique_prefix` tries where the derived prefix is taken: pairs, then triples. -/
def combinations : List String :=
  (letters.flatMap fun a => letters.map fun b => String.ofList [a, b]) ++
    letters.flatMap fun a => letters.flatMap fun b => letters.map fun c => String.ofList [a, b, c]

theorem isUpper_of_mem_letters {c : Char} (hc : c ∈ letters) : c.isUpper = true := by
  obtain ⟨n, hn, rfl⟩ := List.mem_map.mp hc
  have hcases : ∀ n < 26, (Char.ofNat (65 + n)).isUpper = true := by decide
  exact hcases n (List.mem_range.mp hn)

theorem mem_letters {c : Char} (hc : c.isUpper = true) : c ∈ letters := by
  simp only [Char.isUpper, decide_eq_true_eq] at hc
  have hlow : 65 ≤ c.toNat := hc.1
  have hhigh : c.toNat ≤ 90 := hc.2
  refine List.mem_map.mpr ⟨c.toNat - 65, List.mem_range.mpr (by omega), ?_⟩
  rw [show 65 + (c.toNat - 65) = c.toNat by omega]
  exact Char.ofNat_toNat c

/-- Every combination is a prefix, and every prefix is a combination. -/
theorem mem_combinations {issuePrefix : String} :
    issuePrefix ∈ combinations ↔ prefixFormat issuePrefix = true := by
  constructor
  · intro h
    unfold combinations at h
    rcases List.mem_append.mp h with h | h
    · obtain ⟨a, ha, h⟩ := List.mem_flatMap.mp h
      obtain ⟨b, hb, rfl⟩ := List.mem_map.mp h
      simp [prefixFormat, isUpper_of_mem_letters ha, isUpper_of_mem_letters hb]
    · obtain ⟨a, ha, h⟩ := List.mem_flatMap.mp h
      obtain ⟨b, hb, h⟩ := List.mem_flatMap.mp h
      obtain ⟨c, hc, rfl⟩ := List.mem_map.mp h
      simp [prefixFormat, isUpper_of_mem_letters ha, isUpper_of_mem_letters hb,
        isUpper_of_mem_letters hc]
  · intro h
    simp only [prefixFormat, Bool.and_eq_true, decide_eq_true_eq, List.all_eq_true] at h
    obtain ⟨⟨hlow, hhigh⟩, hall⟩ := h
    have hmem : ∀ c ∈ issuePrefix.toList, c ∈ letters := fun c hc => mem_letters (hall c hc)
    rw [← String.ofList_toList (s := issuePrefix)]
    unfold combinations
    match hlist : issuePrefix.toList with
    | [] => exact absurd hlow (by simp [hlist])
    | [_] => exact absurd hlow (by simp [hlist])
    | [a, b] =>
      rw [hlist] at hmem
      apply List.mem_append_left
      exact List.mem_flatMap.mpr ⟨a, hmem a (by simp),
        List.mem_map.mpr ⟨b, hmem b (by simp), rfl⟩⟩
    | [a, b, c] =>
      rw [hlist] at hmem
      apply List.mem_append_right
      exact List.mem_flatMap.mpr ⟨a, hmem a (by simp),
        List.mem_flatMap.mpr ⟨b, hmem b (by simp), List.mem_map.mpr ⟨c, hmem c (by simp), rfl⟩⟩⟩
    | _ :: _ :: _ :: _ :: _ => exact absurd hhigh (by simp [hlist])

theorem isUpper_toUpper {c : Char} (h : c.isAlpha = true) : c.toUpper.isUpper = true := by
  unfold Char.toUpper
  split
  · rename_i hlower
    have hlow : 97 ≤ c.val.toNat := hlower.1
    have hhigh : c.val.toNat ≤ 122 := hlower.2
    have hval : (c.val + ('A'.val - 'a'.val)).toNat = c.val.toNat - 32 := by
      have hgap : ('A'.val - 'a'.val).toNat = 4294967264 := rfl
      rw [UInt32.toNat_add, hgap]
      omega
    simp only [Char.isUpper, decide_eq_true_eq, ge_iff_le, UInt32.le_iff_toNat_le, hval]
    exact ⟨show 65 ≤ c.val.toNat - 32 by omega, show c.val.toNat - 32 ≤ 90 by omega⟩
  · rename_i hlower
    rw [Char.isAlpha, Bool.or_eq_true] at h
    rcases h with hupper | hstill
    · exact hupper
    · exact absurd (by simpa [Char.isLower] using hstill) hlower

theorem prefixFormat_derivePrefix (name : String) : prefixFormat (derivePrefix name) = true := by
  unfold derivePrefix
  dsimp only
  have hupper : ∀ l : List Char, (∀ c ∈ l, c.isUpper = true) →
      prefixFormat (String.ofList ((l ++ List.replicate (2 - l.length) 'X').take 3)) = true := by
    intro l hl
    simp only [prefixFormat, String.toList_ofList, List.length_take, List.length_append,
      List.length_replicate, Bool.and_eq_true, decide_eq_true_eq, List.all_eq_true]
    refine ⟨⟨by omega, by omega⟩, ?_⟩
    intro c hc
    rcases List.mem_append.mp (List.mem_of_mem_take hc) with hc | hc
    · exact hl c hc
    · rw [List.eq_of_mem_replicate hc]
      decide
  apply hupper
  intro c hc
  split at hc
  · obtain ⟨word, _, hfirst⟩ := List.mem_filterMap.mp hc
    obtain ⟨d, hd, rfl⟩ := Option.map_eq_some_iff.mp hfirst
    exact isUpper_toUpper (List.find?_some hd)
  · obtain ⟨d, hd, rfl⟩ := List.mem_map.mp hc
    exact isUpper_toUpper (List.mem_filter.mp (List.mem_of_mem_take hd)).2

end IntelliPilot.Prefixes
