import IntelliPilot.Text.Unicode
import Mathlib.Data.List.Infix

/-! # The prefix query

`prefix_tsquery`. A word is put in lower case by itself, so that a capital sigma
at its end becomes a final one even where the whole input would keep it inside a
word.
-/

namespace IntelliPilot.Search

open Text

/-- `PREFIX_QUERY_MAX_TERMS`. -/
def prefixQueryMaxTerms : Nat := 8

def words (U : Unicode) (q : List Char) : List (List Char) :=
  ((q.splitOnP fun c => !U.isAlphanumeric c).filter (!·.isEmpty)).take prefixQueryMaxTerms

def prefixTsquery (U : Unicode) (q : List Char) : Option (List Char) :=
  let words := (words U q).map U.toLowercase
  words.getLast?.map fun last =>
    words.dropLast.flatMap (fun w => '\'' :: w ++ "' & ".toList) ++ '\'' :: last ++ "':*".toList

/-- `'w1' & ... & 'wk':*`. -/
def form (ws : List (List Char)) : List Char :=
  List.intercalate " & ".toList (ws.map fun w => '\'' :: w ++ ['\'']) ++ ":*".toList

/-- The query has the form, with at most eight plain words that `From` allows. -/
def Formed (From : List Char → Prop) (out : List Char) : Prop :=
  ∃ ws : List (List Char), ws ≠ [] ∧ ws.length ≤ prefixQueryMaxTerms ∧ out = form ws ∧
    ∀ w ∈ ws, w ≠ [] ∧ (∀ c ∈ w, Unicode.Plain c) ∧ From w

/-- A run of letters and digits of `q`, in lower case. -/
def FromRun (U : Unicode) (q w : List Char) : Prop :=
  ∃ run, run <:+: q ∧ (∀ c ∈ run, U.isAlphanumeric c = true) ∧ w = U.toLowercase run

theorem flatMap_dropLast {ws : List (List Char)} {last : List Char} (h : ws.getLast? = some last) :
    ws.dropLast.flatMap (fun w => '\'' :: w ++ "' & ".toList) ++ '\'' :: last ++ "':*".toList =
      form ws := by
  induction ws with
  | nil => cases h
  | cons w ws ih =>
    cases ws with
    | nil =>
      obtain rfl := Option.some.inj h
      simp [form]
    | cons w' ws =>
      have ih := ih (by rwa [List.getLast?_cons_cons] at h)
      rw [form, List.map_cons, List.map_cons, List.intercalate_cons_cons]
      rw [form, List.map_cons] at ih
      rw [List.dropLast_cons_cons, List.flatMap_cons]
      simp only [List.append_assoc, List.cons_append] at ih ⊢
      rw [ih]
      rfl

/-- The pieces between separators are runs of the text, and the first one begins it. -/
theorem runs_splitOnP (p : Char → Bool) (l : List Char) :
    (∀ w ∈ l.splitOnP p, w <:+: l ∧ ∀ c ∈ w, p c = false) ∧
      ∀ w, (l.splitOnP p).head? = some w → w <+: l := by
  induction l with
  | nil => simp
  | cons c l ih =>
    obtain ⟨hpieces, hfirst⟩ := ih
    have hlater : ∀ w ∈ l.splitOnP p, w <:+: c :: l ∧ ∀ d ∈ w, p d = false :=
      fun w hw => ⟨List.infix_cons (hpieces w hw).1, (hpieces w hw).2⟩
    rw [List.splitOnP_cons_eq_if_modifyHead]
    split
    · constructor
      · intro w hw
        rcases List.mem_cons.mp hw with rfl | hw
        · exact ⟨List.nil_infix, fun _ h => nomatch h⟩
        · exact hlater w hw
      · intro w hw
        obtain rfl := Option.some.inj hw
        exact List.nil_prefix
    · rename_i hc
      cases hsplit : l.splitOnP p with
      | nil => exact absurd hsplit (List.splitOnP_ne_nil p l)
      | cons piece pieces =>
        rw [hsplit] at hlater hfirst hpieces
        have hprefix : c :: piece <+: c :: l :=
          (List.prefix_cons_inj c).mpr (hfirst piece rfl)
        constructor
        · intro w hw
          rcases List.mem_cons.mp hw with rfl | hw
          · refine ⟨ hprefix.isInfix, fun d hd => ?_⟩
            rcases List.mem_cons.mp hd with rfl | hd
            · exact Bool.eq_false_iff.mpr hc
            · exact (hpieces piece List.mem_cons_self).2 d hd
          · exact hlater w (List.mem_cons_of_mem _ hw)
        · intro w hw
          obtain rfl := Option.some.inj hw
          exact hprefix

variable {U : Unicode}

theorem mem_words {q w : List Char} (h : w ∈ words U q) :
    w ≠ [] ∧ w <:+: q ∧ ∀ c ∈ w, U.isAlphanumeric c = true := by
  obtain ⟨hw, hne⟩ := List.mem_filter.mp (List.mem_of_mem_take h)
  obtain ⟨hpart, hclean⟩ := (runs_splitOnP _ q).1 w hw
  refine ⟨by simpa using hne, hpart, fun c hc => ?_⟩
  simpa using hclean c hc

theorem prefixTsquery_formed {q out : List Char} (h : prefixTsquery U q = some out) :
    Formed (FromRun U q) out := by
  obtain ⟨last, hlast, rfl⟩ := Option.map_eq_some_iff.mp h
  refine ⟨(words U q).map U.toLowercase, ?_, ?_, flatMap_dropLast hlast, ?_⟩
  · intro hnil
    rw [hnil] at hlast
    cases hlast
  · rw [List.length_map]
    exact List.length_take_le ..
  · intro w hw
    obtain ⟨run, hrun, rfl⟩ := List.mem_map.mp hw
    obtain ⟨hne, hpart, halphanumeric⟩ := mem_words hrun
    exact ⟨U.toLowercase_ne_nil hne, U.plain_lowerFrom halphanumeric [], run, hpart,
      halphanumeric, rfl⟩

theorem prefixTsquery_formed_greek :
    Formed (FromRun .greek "ΑΣ.Β".toList) "'ας' & 'β':*".toList :=
  prefixTsquery_formed (by decide +kernel)

theorem mem_form {ws : List (List Char)} {c : Char} (h : c ∈ form ws) :
    c ∈ "' &:*".toList ∨ ∃ w ∈ ws, c ∈ w := by
  have hparts : ∀ c ∈ List.intercalate " & ".toList (ws.map fun w => '\'' :: w ++ ['\'']),
      c ∈ "' &:*".toList ∨ ∃ w ∈ ws, c ∈ w := by
    clear h
    induction ws with
    | nil =>
      intro c hc
      cases hc
    | cons w ws ih =>
      have hw : ∀ c ∈ '\'' :: w ++ ['\''], c ∈ "' &:*".toList ∨ ∃ v ∈ w :: ws, c ∈ v := by
        intro c hc
        simp only [List.cons_append, List.mem_cons, List.mem_append, List.not_mem_nil,
          or_false] at hc
        rcases hc with rfl | hc | rfl
        · exact Or.inl (by decide)
        · exact Or.inr ⟨w, List.mem_cons_self, hc⟩
        · exact Or.inl (by decide)
      intro c hc
      cases ws with
      | nil => exact hw c (by simpa using hc)
      | cons w' ws =>
        rw [List.map_cons, List.map_cons, List.intercalate_cons_cons] at hc
        rcases List.mem_append.mp hc with hc | hc
        · rcases List.mem_append.mp hc with hc | hc
          · exact hw c hc
          · have hamp : ∀ d ∈ " & ".toList, d ∈ "' &:*".toList := by decide
            exact Or.inl (hamp c hc)
        · rcases ih c hc with hc | ⟨v, hv, hc⟩
          · exact Or.inl hc
          · exact Or.inr ⟨v, List.mem_cons_of_mem _ hv, hc⟩
  rcases List.mem_append.mp h with h | h
  · exact hparts c h
  · have hend : ∀ d ∈ ":*".toList, d ∈ "' &:*".toList := by decide
    exact Or.inl (hend c h)

/-- The whole input in lower case has no final sigma. -/
theorem final_sigma_not_in_input : ¬∀ q out, prefixTsquery .greek q = some out →
    Formed (· <:+: Unicode.greek.toLowercase q) out := by
  intro h
  obtain ⟨ws, -, -, hout, hws⟩ := h "ΑΣ.Β".toList "'ας' & 'β':*".toList (by decide +kernel)
  have hsigma : 'ς' ∈ form ws := by
    rw [← hout]
    decide
  obtain ⟨w, hw, hmem⟩ := (mem_form hsigma).resolve_left (by decide)
  have hlower : 'ς' ∉ Unicode.greek.toLowercase "ΑΣ.Β".toList := by decide +kernel
  exact hlower ((hws w hw).2.2.subset hmem)

end IntelliPilot.Search
