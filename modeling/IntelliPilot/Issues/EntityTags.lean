import IntelliPilot.Issues.Handlers
import IntelliPilot.Text.Trimming

/-! # Entity tags

The tag of an issue names its id and its version, and a header with one tag
matches that version of that issue only, strong or weak.
-/

namespace IntelliPilot.Issues

open Auth (trim isWhitespace)
open Imports (Uuid)
open Text (split startsWith)

theorem toList_toString (n : Nat) : (toString n).toList = Nat.toDigits 10 n := by
  rw [Nat.toString_eq_ofList_toDigits, String.toList_ofList]

theorem toList_etag (id : Uuid) (version : Nat) : (etag id version).toList =
    '"' :: (Nat.toDigits 10 id ++ ':' :: (Nat.toDigits 10 version ++ ['"'])) := by
  have hid : (toString id).toList = Nat.toDigits 10 id := toList_toString id
  simp only [etag, String.toList_append, hid, toList_toString, show "\"".toList = ['"'] from rfl,
    show ":".toList = [':'] from rfl, List.singleton_append, List.append_assoc, List.cons_append,
    List.nil_append]

theorem isDigit_of_mem {n : Nat} {c : Char} (h : c ∈ Nat.toDigits 10 n) : c.isDigit = true :=
  Nat.isDigit_of_mem_toDigits (by decide) (by decide) h

/-- Up to a colon, and from it on. -/
theorem append_colon_inj {a b c d : List Char} (ha : ':' ∉ a) (hc : ':' ∉ c)
    (h : a ++ ':' :: b = c ++ ':' :: d) : a = c ∧ b = d := by
  induction a generalizing c with
  | nil =>
    cases c with
    | nil => exact ⟨rfl, (List.cons.inj h).2⟩
    | cons x c =>
      obtain ⟨rfl, -⟩ := List.cons.inj h
      exact absurd List.mem_cons_self hc
  | cons x a ih =>
    cases c with
    | nil =>
      obtain ⟨rfl, -⟩ := List.cons.inj h
      exact absurd List.mem_cons_self ha
    | cons y c =>
      obtain ⟨rfl, htail⟩ := List.cons.inj h
      obtain ⟨rfl, hbd⟩ := ih (fun hmem => ha (List.mem_cons_of_mem _ hmem))
        (fun hmem => hc (List.mem_cons_of_mem _ hmem)) htail
      exact ⟨rfl, hbd⟩

theorem toDigits_injective {m n : Nat} (h : Nat.toDigits 10 m = Nat.toDigits 10 n) : m = n := by
  have hvalue := congrArg (fun l => Nat.ofDigitChars 10 l 0) h
  simpa using hvalue

theorem etag_injective {id id' : Uuid} {version version' : Nat}
    (h : etag id version = etag id' version') : id = id' ∧ version = version' := by
  have hcolon : ∀ n, ':' ∉ Nat.toDigits 10 n := fun n hmem => by
    have hdigit := isDigit_of_mem hmem
    contradiction
  have hchars := congrArg String.toList h
  rw [toList_etag, toList_etag] at hchars
  obtain ⟨hid, hversion⟩ := append_colon_inj (hcolon id) (hcolon id') (List.cons.inj hchars).2
  exact ⟨toDigits_injective hid, toDigits_injective (List.append_cancel_right hversion)⟩

/-- A tag has neither commas nor blanks. -/
theorem plain_etag {id : Uuid} {version : Nat} {c : Char} (h : c ∈ (etag id version).toList) :
    c ≠ ',' ∧ isWhitespace c = false := by
  have hdigit : ∀ {n : Nat}, c ∈ Nat.toDigits 10 n → c ≠ ',' ∧ isWhitespace c = false := by
    intro n hmem
    have hdigit := isDigit_of_mem hmem
    have hbounds : 48 ≤ c.toNat ∧ c.toNat ≤ 57 := by
      simpa [Char.isDigit, UInt32.le_iff_toNat_le] using hdigit
    refine ⟨?_, ?_⟩
    · rintro rfl
      contradiction
    · simp only [isWhitespace, Bool.or_eq_false_iff, Bool.and_eq_false_iff, decide_eq_false_iff_not,
        beq_eq_false_iff_ne]
      omega
  rw [toList_etag] at h
  simp only [List.mem_cons, List.mem_append, List.not_mem_nil, or_false] at h
  rcases h with rfl | hid | rfl | hversion | rfl
  · decide
  · exact hdigit hid
  · decide
  · exact hdigit hversion
  · decide

theorem stripWeak_etag (id : Uuid) (version : Nat) : stripWeak (etag id version) = etag id version := by
  rw [stripWeak, startsWith, toList_etag]
  rfl

/-- A header of one tag matches that tag only. -/
theorem checkIfMatch_single {tag : String} {id : Uuid} {version : Nat}
    (hplain : ∀ c ∈ tag.toList, c ≠ ',' ∧ isWhitespace c = false) (hstar : tag ≠ "*")
    (hstrip : stripWeak tag = etag id version) (id' : Uuid) (version' : Nat) :
    checkIfMatch (some tag) (etag id' version') = .ok () ↔ id' = id ∧ version' = version := by
  have htrim : trim tag = tag := Text.trim_eq_self fun c hc => (hplain c hc).2
  have hsplit : split tag ',' = [tag] := by
    rw [split, List.splitOn_eq_singleton fun hmem => (hplain _ hmem).1 rfl]
    simp
  have hmatch : ((split tag ',').map trim).any (fun t => stripWeak t == stripWeak (etag id' version')) =
      (etag id version == etag id' version') := by
    rw [hsplit, List.map_singleton, htrim, List.any_cons, List.any_nil, Bool.or_false, hstrip,
      stripWeak_etag]
  have hnotStar : (trim tag == "*") = false := by
    rw [htrim]
    simpa using hstar
  simp only [checkIfMatch, hmatch, hnotStar, Bool.false_or]
  constructor
  · intro h
    split at h
    · rename_i heq
      obtain ⟨hid, hversion⟩ := etag_injective (beq_iff_eq.mp heq)
      exact ⟨hid.symm, hversion.symm⟩
    · contradiction
  · rintro ⟨rfl, rfl⟩
    rw [beq_self_eq_true]
    rfl

/-- The header is of one version of an issue. -/
def Carries (id : Uuid) (version : Nat) (header : Option String) : Prop :=
  ∀ id' version', checkIfMatch header (etag id' version') = .ok () ↔ id' = id ∧ version' = version

theorem carries_etag (id : Uuid) (version : Nat) : Carries id version (some (etag id version)) := by
  intro id' version'
  apply checkIfMatch_single (fun c hc => plain_etag hc) ?_ (stripWeak_etag id version)
  intro h
  have hchars := congrArg String.toList h
  rw [toList_etag] at hchars
  exact absurd (List.cons.inj hchars).1 (by decide)

/-! ## Headers of several tags -/

/-- A tag in a header, weak or strong. -/
def headerTag (tag : Bool × Uuid × Nat) : String :=
  String.ofList ((if tag.1 then ['W', '/'] else []) ++ (etag tag.2.1 tag.2.2).toList)

theorem stripWeak_headerTag (tag : Bool × Uuid × Nat) :
    stripWeak (headerTag tag) = etag tag.2.1 tag.2.2 := by
  obtain ⟨weak, id, version⟩ := tag
  cases weak with
  | false => simpa [headerTag] using stripWeak_etag id version
  | true => simp [headerTag, stripWeak, startsWith, show "W/".toList = ['W', '/'] from rfl]

theorem plain_headerTag {tag : Bool × Uuid × Nat} {c : Char} (h : c ∈ (headerTag tag).toList) :
    c ≠ ',' ∧ isWhitespace c = false := by
  rw [headerTag, String.toList_ofList, List.mem_append] at h
  rcases h with hweak | htag
  · split at hweak
    · rcases List.mem_pair.mp hweak with rfl | rfl <;> decide
    · exact absurd hweak List.not_mem_nil
  · exact plain_etag htag

/-- A header with a list of tags, weak and strong ones, admits exactly the versions they name. -/
theorem checkIfMatch_list (tags : List (Bool × Uuid × Nat)) (id : Uuid) (version : Nat) :
    checkIfMatch (some (Text.join ", " (tags.map headerTag))) (etag id version) = .ok () ↔
      ∃ weak, (weak, id, version) ∈ tags := by
  have hquote : ∀ s id version, s.toList.head? ≠ some '"' → s ≠ etag id version := by
    rintro _ id version hhead rfl
    exact hhead (by rw [toList_etag]; rfl)
  cases tags with
  | nil =>
    have hempty := hquote (stripWeak "") id version (by decide)
    simpa [checkIfMatch, Text.join, split, trim, stripWeak_etag] using hempty
  | cons first rest =>
    have hpieces : (split (Text.join ", " ((first :: rest).map headerTag)) ',').map trim =
        (first :: rest).map headerTag := by
      rw [Text.map_trim_split_join (by simp) (by
        simp only [List.mem_map]
        rintro _ ⟨tag, -, rfl⟩ hcomma
        exact (plain_headerTag hcomma).1 rfl), List.map_map]
      exact List.map_congr_left fun tag _ => Text.trim_eq_self fun c hc => (plain_headerTag hc).2
    have hnotStar : trim (Text.join ", " ((first :: rest).map headerTag)) ≠ "*" := by
      -- a star would be the only piece, and no tag is one
      intro hstar
      have hsplit := @Text.map_trim_split_trim ',' (by decide)
        (Text.join ", " ((first :: rest).map headerTag))
      rw [hstar, hpieces, List.map_cons, split, show "*".toList.splitOn ',' = [['*']] by decide]
        at hsplit
      have hfirst := congrArg stripWeak (List.cons.inj hsplit).1
      rw [stripWeak_headerTag] at hfirst
      exact hquote _ _ _ (by decide) hfirst
    have hany : ((first :: rest).map headerTag).any (fun tag => stripWeak tag ==
        stripWeak (etag id version)) = true ↔ ∃ weak, (weak, id, version) ∈ first :: rest := by
      rw [List.any_map, List.any_eq_true, stripWeak_etag]
      constructor
      · rintro ⟨⟨weak, id', version'⟩, hmem, heq⟩
        rw [Function.comp_apply, stripWeak_headerTag, beq_iff_eq] at heq
        obtain ⟨rfl, rfl⟩ := etag_injective heq
        exact ⟨weak, hmem⟩
      · rintro ⟨weak, hmem⟩
        exact ⟨_, hmem, by rw [Function.comp_apply, stripWeak_headerTag, beq_self_eq_true]⟩
    rw [← hany, checkIfMatch, hpieces, beq_eq_false_iff_ne.mpr hnotStar, Bool.false_or]
    split
    · exact iff_of_true rfl ‹_›
    · exact iff_of_false (by simp) ‹_›

end IntelliPilot.Issues
