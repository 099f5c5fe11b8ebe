import IntelliPilot.Auth.Environment
import Mathlib.Data.List.Infix

/-! # Strings

The methods of `str` that the handlers outside the authentication use, on the
characters of a string so that they evaluate.
-/

namespace IntelliPilot.Text

/-- `str::split` at a character. -/
def split (s : String) (separator : Char) : List String :=
  (s.toList.splitOn separator).map String.ofList

/-- `str::starts_with`. -/
def startsWith (s pattern : String) : Bool := pattern.toList.isPrefixOf s.toList

/-- `str::ends_with`. -/
def endsWith (s pattern : String) : Bool := pattern.toList.isSuffixOf s.toList

/-- `str::contains`. -/
def contains (s pattern : String) : Bool := decide (pattern.toList <:+: s.toList)

theorem contains_eq_true_iff {s pattern : String} :
    contains s pattern = true ↔ pattern.toList <:+: s.toList := by
  unfold contains
  exact decide_eq_true_iff

/-- `str::trim_start_matches` of a character. -/
def trimStartMatches (s : String) (c : Char) : String := String.ofList (s.toList.dropWhile (· == c))

/-- A character of `slugify`; the last one pushed tells whether a dash came before. -/
def slugifyStep (out : List Char) (c : Char) : List Char :=
  if c.isAlphanum then out ++ [c.toLower]
  else if out.isEmpty || out.getLast? == some '-' then out
  else out ++ ['-']

/-- `slugify`. -/
def slugify (name : String) : String :=
  let out := name.toList.foldl slugifyStep []
  let trimmed := (out.reverse.dropWhile (· == '-')).reverse.dropWhile (· == '-')
  if trimmed.isEmpty then "project" else String.ofList trimmed

end IntelliPilot.Text
