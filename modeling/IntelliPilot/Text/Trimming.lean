import IntelliPilot.Text.Strings
import Mathlib.Data.List.DropRight

/-! # Trimmed lists in a cell

A list is written into one cell with a comma and a blank between its items, and
read back by splitting at commas and trimming the pieces. Trimming the cell, or
a piece again, makes no difference to what is read.
-/

namespace IntelliPilot.Text

open Auth (trim isWhitespace)

/-! ## Trimming -/

/-- `trim`, on the characters. -/
def trimChars (l : List Char) : List Char :=
  ((l.dropWhile isWhitespace).reverse.dropWhile isWhitespace).reverse

theorem toList_trim (s : String) : (trim s).toList = trimChars s.toList := String.toList_ofList

theorem trim_ofList (l : List Char) : trim (String.ofList l) = String.ofList (trimChars l) := by
  rw [trim, String.toList_ofList]
  rfl

theorem trimChars_cons {c : Char} (hc : isWhitespace c = true) (l : List Char) :
    trimChars (c :: l) = trimChars l := by
  rw [trimChars, List.dropWhile_cons_of_pos hc]
  rfl

theorem trimChars_concat {c : Char} (hc : isWhitespace c = true) (l : List Char) :
    trimChars (l ++ [c]) = trimChars l := by
  unfold trimChars
  rw [List.dropWhile_append]
  split
  · rename_i hblank
    rw [List.isEmpty_iff.mp hblank]
    simp [hc]
  · rw [List.reverse_append, List.reverse_singleton, List.singleton_append,
      List.dropWhile_cons_of_pos hc]

theorem trimChars_eq_self {l : List Char} (h : ∀ c ∈ l, isWhitespace c = false) :
    trimChars l = l := by
  have hdrop : ∀ l : List Char, (∀ c ∈ l, isWhitespace c = false) → l.dropWhile isWhitespace = l := by
    intro l hl
    cases l with
    | nil => rfl
    | cons c l => exact List.dropWhile_cons_of_neg (by simp [hl c List.mem_cons_self])
  rw [trimChars, hdrop l h, hdrop l.reverse (by simpa using h), List.reverse_reverse]

theorem trim_eq_self {s : String} (h : ∀ c ∈ s.toList, isWhitespace c = false) : trim s = s := by
  rw [← String.toList_inj, toList_trim, trimChars_eq_self h]

/-- Trimming takes away what surrounds a text without whitespace. -/
theorem trimChars_surrounded {before l after : List Char}
    (hbefore : ∀ c ∈ before, isWhitespace c = true) (hafter : ∀ c ∈ after, isWhitespace c = true)
    (hl : ∀ c ∈ l, isWhitespace c = false) : trimChars (before ++ l ++ after) = l := by
  induction before with
  | nil =>
    induction after using List.reverseRecOn with
    | nil => rw [List.nil_append, List.append_nil, trimChars_eq_self hl]
    | append_singleton after c ih =>
      rw [← List.append_assoc, trimChars_concat (hafter c (by simp))]
      exact ih fun c hc => hafter c (List.mem_append_left _ hc)
  | cons c before ih =>
    rw [List.cons_append, List.cons_append, trimChars_cons (hbefore c List.mem_cons_self)]
    exact ih fun c hc => hbefore c (List.mem_cons_of_mem _ hc)

/-- What trimming does not change is unchanged by the whitespace around a list. -/
theorem eq_of_trimmed {α : Type} {f : List Char → α}
    (hcons : ∀ c l, isWhitespace c = true → f (c :: l) = f l)
    (hconcat : ∀ c l, isWhitespace c = true → f (l ++ [c]) = f l) (l : List Char) :
    f (trimChars l) = f l := by
  have hleft : ∀ l : List Char, f (l.dropWhile isWhitespace) = f l := by
    intro l
    induction l with
    | nil => rfl
    | cons c l ih =>
      by_cases hc : isWhitespace c = true
      · rw [List.dropWhile_cons_of_pos hc, ih, hcons c l hc]
      · rw [List.dropWhile_cons_of_neg hc]
  have hright : ∀ l : List Char, f (l.rdropWhile isWhitespace) = f l := by
    intro l
    induction l using List.reverseRecOn with
    | nil => rfl
    | append_singleton l c ih =>
      by_cases hc : isWhitespace c = true
      · rw [List.rdropWhile_concat_pos _ _ _ hc, ih, hconcat c l hc]
      · rw [List.rdropWhile_concat_neg _ _ _ hc]
  exact (hright _).trans (hleft l)

theorem trimChars_idem (l : List Char) : trimChars (trimChars l) = trimChars l :=
  eq_of_trimmed (fun _ l hc => trimChars_cons hc l) (fun _ l hc => trimChars_concat hc l) l

@[simp] theorem trim_trim (s : String) : trim (trim s) = trim s := by
  rw [← String.toList_inj, toList_trim, toList_trim, trimChars_idem]

/-! ## Splitting -/

theorem mem_intercalate {sep : Char} {parts : List (List Char)} {c : Char} :
    (c ∈ [sep].intercalate parts → c = sep ∨ ∃ part ∈ parts, c ∈ part) ∧
      ∀ part ∈ parts, c ∈ part → c ∈ [sep].intercalate parts := by
  induction parts with
  | nil => simp
  | cons part rest ih =>
    cases rest with
    | nil =>
      rw [List.intercalate_singleton]
      constructor
      · exact fun hc => .inr ⟨part, List.mem_cons_self, hc⟩
      · intro other hother hc
        exact List.mem_singleton.mp hother ▸ hc
    | cons next rest =>
      rw [List.intercalate_cons_cons]
      constructor
      · intro h
        simp only [List.mem_append, List.mem_singleton] at h
        rcases h with (hpart | hsep) | hrest
        · exact .inr ⟨part, List.mem_cons_self, hpart⟩
        · exact .inl hsep
        · rcases ih.1 hrest with hsep | ⟨other, hother, hc⟩
          · exact .inl hsep
          · exact .inr ⟨other, List.mem_cons_of_mem _ hother, hc⟩
      · intro other hother hc
        rcases List.mem_cons.mp hother with rfl | hother
        · exact List.mem_append_left _ (List.mem_append_left _ hc)
        · exact List.mem_append_right _ (ih.2 other hother hc)

section Split

variable {separator : Char} (hseparator : isWhitespace separator = false)

include hseparator

theorem ne_separator {c : Char} (hc : isWhitespace c = true) : (c == separator) = false := by
  rw [beq_eq_false_iff_ne]
  rintro rfl
  rw [hc] at hseparator
  contradiction

/-- Whitespace in front goes to the first piece. -/
theorem map_trimChars_splitOn_cons {c : Char} (hc : isWhitespace c = true) (l : List Char) :
    ((c :: l).splitOn separator).map trimChars = (l.splitOn separator).map trimChars := by
  rw [List.splitOn_cons_eq_if_modifyHead, ne_separator hseparator hc]
  cases hpieces : l.splitOn separator with
  | nil => exact absurd hpieces (List.splitOn_ne_nil _ _)
  | cons piece pieces => simp [trimChars_cons hc]

omit hseparator in
/-- A last character goes to the last piece. -/
theorem splitOn_concat {c : Char} (hc : (c == separator) = false) (l : List Char) :
    ∃ pieces piece, l.splitOn separator = pieces ++ [piece] ∧
      (l ++ [c]).splitOn separator = pieces ++ [piece ++ [c]] := by
  induction l with
  | nil => exact ⟨[], [], rfl, by simp [List.splitOn_cons_eq_if_modifyHead, hc]⟩
  | cons d l ih =>
    obtain ⟨pieces, piece, hl, hlc⟩ := ih
    rw [List.cons_append, List.splitOn_cons_eq_if_modifyHead, List.splitOn_cons_eq_if_modifyHead,
      hl, hlc]
    by_cases hd : (d == separator) = true
    · exact ⟨[] :: pieces, piece, by simp [hd], by simp [hd]⟩
    · cases pieces with
      | nil => exact ⟨[], d :: piece, by simp [hd], by simp [hd]⟩
      | cons first pieces => exact ⟨(d :: first) :: pieces, piece, by simp [hd], by simp [hd]⟩

theorem map_trimChars_splitOn_concat {c : Char} (hc : isWhitespace c = true) (l : List Char) :
    ((l ++ [c]).splitOn separator).map trimChars = (l.splitOn separator).map trimChars := by
  obtain ⟨pieces, piece, hl, hlc⟩ := splitOn_concat (ne_separator hseparator hc) l
  rw [hl, hlc, List.map_append, List.map_append]
  simp [trimChars_concat hc]

theorem map_trim_split_trim (s : String) :
    (split (trim s) separator).map trim = (split s separator).map trim := by
  have hchars := eq_of_trimmed
    (f := fun l => (l.splitOn separator).map trimChars)
    (fun _ l hc => map_trimChars_splitOn_cons hseparator hc l)
    (fun _ l hc => map_trimChars_splitOn_concat hseparator hc l) s.toList
  have hpieces : ∀ s : String, (split s separator).map trim =
      ((s.toList.splitOn separator).map trimChars).map String.ofList := by
    intro s
    simp [split, Function.comp_def, trim_ofList]
  rw [hpieces, hpieces, toList_trim, hchars]

end Split

/-! ## Joining -/

/-- `join`. -/
def join (separator : String) (names : List String) : String :=
  String.ofList (separator.toList.intercalate (names.map String.toList))

/-- A joined list is split into its trimmed items. -/
theorem map_trim_split_join {names : List String} (hnames : names ≠ [])
    (hcomma : ∀ name ∈ names, ',' ∉ name.toList) :
    (split (join ", " names) ',').map trim = names.map trim := by
  have hchars : ∀ lists : List (List Char), lists ≠ [] → (∀ l ∈ lists, ',' ∉ l) →
      (([',', ' '].intercalate lists).splitOn ',').map trimChars = lists.map trimChars := by
    intro lists
    induction lists with
    | nil => exact fun h _ => absurd rfl h
    | cons l rest ih =>
      intro _ hcomma
      have hl := hcomma l List.mem_cons_self
      cases rest with
      | nil => simp [List.splitOn_eq_singleton hl]
      | cons l' rest =>
        have hrest := ih (by simp) fun other hother => hcomma other (List.mem_cons_of_mem _ hother)
        have hjoined : [',', ' '].intercalate (l :: l' :: rest) =
            l ++ ',' :: ' ' :: [',', ' '].intercalate (l' :: rest) := by
          simp [List.intercalate]
        rw [hjoined, List.splitOn_append_cons_self_of_not_mem hl, List.map_cons,
          map_trimChars_splitOn_cons (by decide) (by decide), hrest]
        rfl
  have hlists := hchars (names.map String.toList) (by simpa using hnames) (by simpa using hcomma)
  rw [split, join, String.toList_ofList, List.map_map]
  have hcomp : trim ∘ String.ofList = String.ofList ∘ trimChars := funext trim_ofList
  rw [hcomp, ← List.map_map, show (", " : String).toList = [',', ' '] from rfl, hlists,
    List.map_map, List.map_map]
  apply List.map_congr_left
  intro name _
  simp [← trim_ofList]

end IntelliPilot.Text
