import IntelliPilot.Text.Csv
import IntelliPilot.TimeTracking.Handlers

/-! # The time report

`build_csv`. Texts are their characters, and the text of a date is whatever the
`time` crate writes, nothing when it fails.
-/

namespace IntelliPilot.TimeTracking

open Text

def EntryKind.asStr : EntryKind → String
  | .work => "work"
  | .meeting => "meeting"
  | .vacation => "vacation"
  | .illness => "illness"
  | .dayOff => "day_off"
  | .holiday => "holiday"

structure TimeEntryDetail where
  kind : EntryKind
  entryDate : Date
  minutes : Int
  note : List Char
  issueRef : Option Int
  issueSubject : Option (List Char)
  projectName : Option (List Char)
  fullName : Option (List Char)

def csvField (s : List Char) : List Char :=
  if s.any (fun c => c == ',' || c == '"' || c == '\n' || c == '\r') then
    '"' :: Csv.escape s ++ ['"']
  else s

/-- `to_string` of an integer. -/
def intText (n : Int) : List Char :=
  (if n < 0 then ['-'] else []) ++ Nat.toDigits 10 n.natAbs

/-- `hours` with two decimals. A sixtieth of an integer is at least a sixth of a hundredth away
from the middle of two hundredths, so that the rounding of the quotient does not show. -/
def hoursText (minutes : Int) : List Char :=
  let hundredths := (10 * minutes.natAbs + 3) / 6
  (if minutes < 0 then ['-'] else []) ++ Nat.toDigits 10 (hundredths / 100) ++
    '.' :: Nat.toDigits 10 (hundredths / 10 % 10) ++ Nat.toDigits 10 (hundredths % 10)

example : hoursText (-20) = "-0.33".toList ∧ hoursText 1385 = "23.08".toList := by decide

namespace TimeEntryDetail

variable (format : Date → Option (List Char)) (withUser : Bool)

def date (e : TimeEntryDetail) : List Char := (format e.entryDate).getD []

def task (e : TimeEntryDetail) : List Char := (e.issueRef.map fun r => '#' :: intText r).getD []

/-- What a row of the report says. -/
def columns (e : TimeEntryDetail) : List (List Char) :=
  e.date format :: (if withUser then [e.fullName.getD []] else []) ++
    [e.kind.asStr.toList, e.projectName.getD [], e.task, e.issueSubject.getD [],
      intText e.minutes, hoursText e.minutes, e.note]

def row (e : TimeEntryDetail) : List (List Char) :=
  csvField (e.date format) :: (if withUser then [csvField (e.fullName.getD [])] else []) ++
    [csvField e.kind.asStr.toList, csvField (e.projectName.getD []), csvField e.task,
      csvField (e.issueSubject.getD []), intText e.minutes, hoursText e.minutes, csvField e.note]

end TimeEntryDetail

def header (withUser : Bool) : List (List Char) :=
  "Date".toList :: (if withUser then ["User".toList] else []) ++
    ["Kind".toList, "Project".toList, "Task".toList, "Subject".toList, "Minutes".toList,
      "Hours".toList, "Note".toList]

def buildCsv (format : Date → Option (List Char)) (entries : List TimeEntryDetail)
    (withUser : Bool) : List Char :=
  (if withUser then "Date,User,Kind,Project,Task,Subject,Minutes,Hours,Note\n".toList
    else "Date,Kind,Project,Task,Subject,Minutes,Hours,Note\n".toList) ++
    entries.flatMap fun e => List.intercalate [','] (e.row format withUser) ++ ['\n']

/-! ## Reading the report -/

theorem reads_csvField (s : List Char) : Csv.Reads (csvField s) s := by
  unfold csvField
  split
  · exact Csv.reads_quoted s
  · apply Csv.reads_plain
    intro c hc
    rename_i hnone
    simp only [List.any_eq_true, not_exists, not_and, Bool.or_eq_true, beq_iff_eq, not_or] at hnone
    obtain ⟨⟨⟨hcomma, hquote⟩, hnewline⟩, hreturn⟩ := hnone c hc
    exact ⟨hcomma, hquote, hnewline, hreturn⟩

theorem plain_digit {n : Nat} {c : Char} (h : c ∈ Nat.toDigits 10 n) : Csv.Plain c := by
  have hdigit := Nat.isDigit_of_mem_toDigits (by decide) (by decide) h
  refine ⟨?_, ?_, ?_, ?_⟩ <;> rintro rfl <;> exact absurd hdigit (by decide)

theorem plain_sign {n : Int} {c : Char} (h : c ∈ if n < 0 then ['-'] else []) : Csv.Plain c := by
  split at h
  · rw [List.mem_singleton.mp h]
    decide
  · exact absurd h List.not_mem_nil

theorem reads_intText (n : Int) : Csv.Reads (intText n) (intText n) := by
  apply Csv.reads_plain
  intro c hc
  rcases List.mem_append.mp hc with hc | hc
  · exact plain_sign hc
  · exact plain_digit hc

theorem reads_hoursText (minutes : Int) : Csv.Reads (hoursText minutes) (hoursText minutes) := by
  apply Csv.reads_plain
  intro c hc
  simp only [hoursText, List.mem_append, List.mem_cons] at hc
  rcases hc with ((hc | hc) | rfl | hc) | hc
  · exact plain_sign hc
  · exact plain_digit hc
  · decide
  · exact plain_digit hc
  · exact plain_digit hc

theorem reads_row (format : Date → Option (List Char)) (withUser : Bool) (e : TimeEntryDetail) :
    List.Forall₂ Csv.Reads (e.row format withUser) (e.columns format withUser) := by
  have hrest : List.Forall₂ Csv.Reads
      [csvField e.kind.asStr.toList, csvField (e.projectName.getD []), csvField e.task,
        csvField (e.issueSubject.getD []), intText e.minutes, hoursText e.minutes, csvField e.note]
      [e.kind.asStr.toList, e.projectName.getD [], e.task, e.issueSubject.getD [],
        intText e.minutes, hoursText e.minutes, e.note] := by
    simp [reads_csvField, reads_intText, reads_hoursText]
  cases withUser with
  | false => exact .cons (reads_csvField _) hrest
  | true => exact .cons (reads_csvField _) (.cons (reads_csvField _) hrest)

theorem reads_header (withUser : Bool) :
    List.Forall₂ Csv.Reads (header withUser) (header withUser) := by
  have hplain : ∀ field ∈ header withUser, ∀ c ∈ field, Csv.Plain c := by
    cases withUser with
    | false => decide +kernel
    | true => decide +kernel
  exact List.forall₂_same.mpr fun field hfield => Csv.reads_plain (hplain field hfield)

/-- The report is the header and the rows as records. -/
theorem buildCsv_eq_write (format : Date → Option (List Char)) (entries : List TimeEntryDetail)
    (withUser : Bool) : buildCsv format entries withUser =
      Csv.write (header withUser :: entries.map (TimeEntryDetail.row format withUser)) := by
  have hrows : Csv.write (entries.map (TimeEntryDetail.row format withUser)) =
      entries.flatMap fun e => List.intercalate [','] (e.row format withUser) ++ ['\n'] := by
    simp [Csv.write, List.flatMap_map]
  have hheader : (if withUser then "Date,User,Kind,Project,Task,Subject,Minutes,Hours,Note\n".toList
      else "Date,Kind,Project,Task,Subject,Minutes,Hours,Note\n".toList) =
      List.intercalate [','] (header withUser) ++ ['\n'] := by
    cases withUser with
    | false => decide +kernel
    | true => decide +kernel
  rw [buildCsv, hheader, ← hrows]
  rfl

theorem report_lossless (format : Date → Option (List Char)) (entries : List TimeEntryDetail)
    (withUser : Bool) : Csv.read (buildCsv format entries withUser) =
      some (header withUser :: entries.map (TimeEntryDetail.columns format withUser)) := by
  rw [buildCsv_eq_write]
  apply Csv.read_write
  · intro texts htexts
    rcases List.mem_cons.mp htexts with rfl | htexts
    · exact List.cons_ne_nil _ _
    · obtain ⟨e, -, rfl⟩ := List.mem_map.mp htexts
      exact List.cons_ne_nil _ _
  · apply List.Forall₂.cons (reads_header withUser)
    rw [List.forall₂_map_left_iff, List.forall₂_map_right_iff]
    exact List.forall₂_same.mpr fun e _ => reads_row format withUser e

end IntelliPilot.TimeTracking
