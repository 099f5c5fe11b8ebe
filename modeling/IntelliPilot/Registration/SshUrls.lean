import IntelliPilot.Text.Patterns
import IntelliPilot.Text.Trimming
import IntelliPilot.Text.Unicode

/-! # Addresses of remotes

`validate_ssh_url` of repositories and of documentation sources. Both refuse a
list of schemes, and neither asks what else stands before `://`, or where the
`@` and the `:` stand. The address of a repository is stored as it was typed.
-/

namespace IntelliPilot.Registration

open Auth (isWhitespace)
open Text CaseFolding

def deniedSchemes : List (List Char) :=
  ["http://".toList, "https://".toList, "git://".toList, "ftp://".toList]

def sshScheme : List Char := ['s', 's', 'h', ':', '/', '/']

/-- What ends the name of a scheme. -/
def schemeMark : List Char := [':', '/', '/']

def notAnSshUrl : String := "must be an SSH URL (git@host:path or ssh://…)"

section Validators

variable (U : Unicode)

/-- `validate_ssh_url` of repositories. -/
def validateRepositoryUrl (value : List Char) : Except String Unit :=
  let v := trimChars value
  if v.isEmpty then .error "must not be empty"
  else
    let lower := U.toLowercase v
    if deniedSchemes.any (·.isPrefixOf lower) then .error notAnSshUrl
    else if sshScheme.isPrefixOf lower then .ok ()
    else if v.contains '@' && v.contains ':' then .ok ()
    else .error notAnSshUrl

/-- `validate_ssh_url` of documentation sources. -/
def validateSourceUrl (value : List Char) : Except String Unit :=
  let v := trimChars value
  if v.isEmpty then .error "must not be empty"
  else
    let lower := U.toLowercase v
    if deniedSchemes.any (·.isPrefixOf lower) then .error notAnSshUrl
    else if sshScheme.isPrefixOf lower || (v.contains '@' && v.contains ':') then .ok ()
    else .error notAnSshUrl

end Validators

/-- What `create_repository` stores. -/
def storedRepositoryUrl (value : List Char) : List Char := value

/-- What `create_source` stores. -/
def storedSourceUrl (value : List Char) : List Char := trimChars value

/-! ## What is promised -/

def SshUrl (s : List Char) : Prop :=
  ∃ scheme rest, s = scheme ++ rest ∧ scheme.map Char.toLower = sshScheme

/-- No scheme, and `user@host:path`. -/
def ScpLike (s : List Char) : Prop :=
  ¬schemeMark <:+: s ∧
    ∃ user host path, s = user ++ '@' :: (host ++ ':' :: path) ∧ user ≠ [] ∧ host ≠ []

/-- Both validators agree, and what they let through is stored as an address that only the SSH
transport serves. -/
structure OnlySsh (U : Unicode) (value : List Char) : Prop where
  same : validateRepositoryUrl U value = validateSourceUrl U value
  repository : validateRepositoryUrl U value = .ok () →
    SshUrl (storedRepositoryUrl value) ∨ ScpLike (storedRepositoryUrl value)
  source : validateSourceUrl U value = .ok () →
    SshUrl (storedSourceUrl value) ∨ ScpLike (storedSourceUrl value)

/-- The address begins with one of the four refused schemes; or with `ssh://` and no blank
before it; or, when it has an `@` and a `:`, it names no scheme and a user and a host. -/
def Regular (U : Unicode) (value : List Char) : Prop :=
  let v := trimChars value
  (∃ scheme ∈ deniedSchemes, scheme <+: U.toLowercase v) ∨
    (SshUrl v ∧ ∀ c ∈ value.head?, isWhitespace c = false) ∨
    (¬SshUrl v ∧ ('@' ∈ v → ':' ∈ v → ¬schemeMark <:+: value ∧
      ∃ user host path, v = user ++ '@' :: (host ++ ':' :: path) ∧ user ≠ [] ∧ host ≠ []))

/-! ## The scheme -/

variable {U : Unicode} {s : List Char}

theorem sshUrl_iff : SshUrl s ↔ sshScheme <+: U.toLowercase s :=
  (U.prefix_lowerFrom_iff (by decide)).symm

theorem sshUrl_append (h : SshUrl s) (after : List Char) : SshUrl (s ++ after) := by
  obtain ⟨scheme, rest, rfl, hscheme⟩ := h
  exact ⟨scheme, rest ++ after, List.append_assoc .., hscheme⟩

theorem eq_of_map_toLower {scheme : List Char} (h : scheme.map Char.toLower = sshScheme) :
    ∃ c name, c.toLower = 's' ∧ scheme = c :: name ++ schemeMark := by
  obtain ⟨c, scheme, rfl, hc, h⟩ := List.map_eq_cons_iff.mp h
  obtain ⟨c₁, scheme, rfl, -, h⟩ := List.map_eq_cons_iff.mp h
  obtain ⟨c₂, scheme, rfl, -, h⟩ := List.map_eq_cons_iff.mp h
  obtain ⟨c₃, scheme, rfl, h₃, h⟩ := List.map_eq_cons_iff.mp h
  obtain ⟨c₄, scheme, rfl, h₄, h⟩ := List.map_eq_cons_iff.mp h
  obtain ⟨c₅, scheme, rfl, h₅, h⟩ := List.map_eq_cons_iff.mp h
  obtain rfl := List.map_eq_nil_iff.mp h
  rw [toLower_eq_iff (by decide)] at h₃ h₄ h₅
  subst h₃ h₄ h₅
  exact ⟨c, [c₁, c₂], hc, rfl⟩

theorem infix_of_sshUrl (h : SshUrl s) : schemeMark <:+: s := by
  obtain ⟨scheme, rest, rfl, hscheme⟩ := h
  obtain ⟨c, name, -, rfl⟩ := eq_of_map_toLower hscheme
  exact ⟨c :: name, rest, rfl⟩

theorem not_sshUrl_of_blank {c : Char} (hc : isWhitespace c = true) (s : List Char) :
    ¬SshUrl (c :: s) := by
  rintro ⟨scheme, rest, heq, hscheme⟩
  obtain ⟨d, name, hd, rfl⟩ := eq_of_map_toLower hscheme
  obtain ⟨rfl, -⟩ := List.cons.inj heq
  by_cases hascii : c.toNat < 128
  · exact Unicode.ascii_all (P := fun c => isWhitespace c = true → c.toLower ≠ 's')
      (by decide +kernel) hascii hc hd
  · rw [Unicode.toLower_beyond (Nat.le_of_not_lt hascii)] at hd
    subst hd
    exact hascii (by decide)

variable {value : List Char}

theorem sshUrl_trimmed (h : SshUrl value) : SshUrl (trimChars value) := by
  have hssh := h
  obtain ⟨scheme, rest, rfl, hscheme⟩ := h
  obtain ⟨c, name, -, rfl⟩ := eq_of_map_toLower hscheme
  have hc : ¬isWhitespace c = true := fun hblank => not_sshUrl_of_blank hblank _ hssh
  have hstart : (c :: name ++ schemeMark ++ rest).dropWhile isWhitespace =
      c :: name ++ schemeMark ++ rest := List.dropWhile_cons_of_neg hc
  have hmark : (c :: name ++ schemeMark).reverse.dropWhile isWhitespace =
      (c :: name ++ schemeMark).reverse := by
    rw [List.reverse_append]
    exact List.dropWhile_cons_of_neg (by decide)
  rw [trimChars, hstart, List.reverse_append, List.dropWhile_append, hmark]
  split
  · exact ⟨_, [], by rw [List.reverse_reverse, List.append_nil], hscheme⟩
  · rw [List.reverse_append, List.reverse_reverse]
    exact ⟨_, _, rfl, hscheme⟩

/-- What trimming takes away. -/
theorem exists_surrounded (value : List Char) : ∃ before after,
    value = before ++ trimChars value ++ after ∧ (∀ c ∈ before, isWhitespace c = true) := by
  refine ⟨value.takeWhile isWhitespace,
    ((value.dropWhile isWhitespace).reverse.takeWhile isWhitespace).reverse, ?_, ?_⟩
  · rw [trimChars, List.append_assoc, ← List.reverse_append, List.takeWhile_append_dropWhile,
      List.reverse_reverse, List.takeWhile_append_dropWhile]
  · exact fun c hc => List.mem_takeWhile_imp hc

/-! ## Which addresses keep the promise -/

theorem same_verdict (value : List Char) :
    validateRepositoryUrl U value = validateSourceUrl U value := by
  simp only [validateRepositoryUrl, validateSourceUrl, Bool.or_eq_true]
  split
  · rfl
  · split
    · rfl
    · split <;> split <;> simp_all

/-- What the validators let through. -/
theorem accepted_iff : validateSourceUrl U value = .ok () ↔
    (¬∃ scheme ∈ deniedSchemes, scheme <+: U.toLowercase (trimChars value)) ∧
      (SshUrl (trimChars value) ∨ ('@' ∈ trimChars value ∧ ':' ∈ trimChars value)) := by
  rw [sshUrl_iff (U := U)]
  simp only [validateSourceUrl]
  cases hv : trimChars value with
  | nil =>
    refine iff_of_false (by simp) ?_
    rintro ⟨-, h | h⟩
    · exact absurd (List.prefix_nil.mp h) (List.cons_ne_nil _ _)
    · exact absurd h.1 List.not_mem_nil
  | cons c v =>
    have hdenied : deniedSchemes.any (·.isPrefixOf (U.toLowercase (c :: v))) = true ↔
        ∃ scheme ∈ deniedSchemes, scheme <+: U.toLowercase (c :: v) := by
      simp only [List.any_eq_true, List.isPrefixOf_iff_prefix]
    rw [← hdenied, ← List.isPrefixOf_iff_prefix]
    simp only [List.isEmpty_cons, Bool.false_eq_true, if_false]
    split
    · simp_all
    · split <;> simp_all

theorem scpLike_trimmed (h : ¬schemeMark <:+: value)
    (hscp : ∃ user host path, trimChars value = user ++ '@' :: (host ++ ':' :: path) ∧
      user ≠ [] ∧ host ≠ []) : ScpLike value ∧ ScpLike (trimChars value) := by
  obtain ⟨before, after, hvalue, -⟩ := exists_surrounded value
  refine ⟨⟨h, ?_⟩, fun hmark => h (hmark.trans ⟨before, after, hvalue.symm⟩), hscp⟩
  obtain ⟨user, host, path, htrimmed, huser, hhost⟩ := hscp
  refine ⟨before ++ user, host, path ++ after, ?_, by simp [huser], hhost⟩
  rw [hvalue, htrimmed]
  simp

theorem only_ssh_iff (U : Unicode) (value : List Char) : OnlySsh U value ↔ Regular U value := by
  obtain ⟨before, after, hvalue, hbefore⟩ := exists_surrounded value
  have hinside : trimChars value <:+: value := ⟨before, after, hvalue.symm⟩
  constructor
  · intro h
    by_cases hdenied : ∃ scheme ∈ deniedSchemes, scheme <+: U.toLowercase (trimChars value)
    · exact Or.inl hdenied
    by_cases hssh : SshUrl (trimChars value)
    · refine Or.inr (Or.inl ⟨hssh, ?_⟩)
      have haccepted := accepted_iff.mpr ⟨hdenied, Or.inl hssh⟩
      rcases h.repository (h.same.trans haccepted) with hstored | hstored
      · cases value with
        | nil => simp
        | cons c rest =>
          intro d hd
          obtain rfl := Option.some.inj hd
          exact Bool.eq_false_iff.mpr fun hblank => not_sshUrl_of_blank hblank rest hstored
      · exact absurd ((infix_of_sshUrl hssh).trans hinside) hstored.1
    · refine Or.inr (Or.inr ⟨hssh, fun hat hcolon => ?_⟩)
      have haccepted := accepted_iff.mpr ⟨hdenied, Or.inr ⟨hat, hcolon⟩⟩
      refine ⟨?_, ((h.source haccepted).resolve_left hssh).2⟩
      rcases h.repository (h.same.trans haccepted) with hstored | hstored
      · exact absurd (sshUrl_trimmed hstored) hssh
      · exact hstored.1
  · intro hkept
    have hstored : validateSourceUrl U value = .ok () →
        (SshUrl value ∨ ScpLike value) ∧ (SshUrl (trimChars value) ∨ ScpLike (trimChars value)) := by
      intro haccepted
      obtain ⟨hallowed, hform⟩ := accepted_iff.mp haccepted
      rcases hkept with hdenied | ⟨hssh, hhead⟩ | ⟨hssh, hscp⟩
      · exact absurd hdenied hallowed
      · have hnone : before = [] := by
          cases before with
          | nil => rfl
          | cons c rest =>
            have hblank := hbefore c List.mem_cons_self
            rw [hhead c (by rw [hvalue]; rfl)] at hblank
            cases hblank
        rw [hnone, List.nil_append] at hvalue
        exact ⟨Or.inl (hvalue ▸ sshUrl_append hssh after), Or.inl hssh⟩
      · obtain ⟨hat, hcolon⟩ := hform.resolve_left hssh
        obtain ⟨hmark, hscp⟩ := hscp hat hcolon
        exact (scpLike_trimmed hmark hscp).imp Or.inr Or.inr
    exact ⟨same_verdict value, fun h => (hstored ((same_verdict value).symm.trans h)).1,
      fun h => (hstored h).2⟩

/-- A directory of the server itself, which the local transport serves. -/
theorem local_path_accepted : ¬OnlySsh .greek "file:///srv/git/a@b:c".toList := by
  intro h
  rcases h.source (by decide +kernel) with hssh | hscp
  · exact absurd ((sshUrl_iff (U := .greek)).mp hssh) (by decide +kernel)
  · exact hscp.1 (by decide +kernel)

end IntelliPilot.Registration
