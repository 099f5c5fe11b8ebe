import Mathlib.Data.List.Basic

/-! # Comma-separated records

A reader of RFC 4180 files, which takes a line feed with or without a carriage
return as the end of a record, and the fields that it reads back.
-/

namespace IntelliPilot.Text.Csv

/-- Where a reader is: before a field, in an unquoted one, in a quoted one, behind the closing
quote, and behind a carriage return. -/
inductive Place where
  | start
  | inside
  | quoted
  | closed
  | ended
  deriving DecidableEq

/-- Reads on with the record and the field that have been begun; no result when the text is
malformed. -/
def readFrom (place : Place) (field : List Char) (row : List (List Char)) :
    List Char → Option (List (List (List Char)))
  | [] =>
      match place with
      | .start => if row = [] then some [] else some [row ++ [field]]
      | .inside => some [row ++ [field]]
      | .closed => some [row ++ [field]]
      | .quoted => none
      | .ended => none
  | c :: rest =>
      match place with
      | .quoted =>
          if c = '"' then readFrom .closed field row rest
          else readFrom .quoted (field ++ [c]) row rest
      | .ended =>
          if c = '\n' then (readFrom .start [] [] rest).map ((row ++ [field]) :: ·) else none
      | .start | .inside | .closed =>
          if c = ',' then readFrom .start [] (row ++ [field]) rest
          else if c = '\n' then (readFrom .start [] [] rest).map ((row ++ [field]) :: ·)
          else if c = '\r' then readFrom .ended field row rest
          else if c = '"' then
            match place with
            | .start => readFrom .quoted field row rest
            | .closed => readFrom .quoted (field ++ ['"']) row rest
            | _ => none
          else if place = .closed then none
          else readFrom .inside (field ++ [c]) row rest

def read (s : List Char) : Option (List (List (List Char))) := readFrom .start [] [] s

/-- Neither a separator nor a quote nor a part of a line break. -/
def Plain (c : Char) : Prop := c ≠ ',' ∧ c ≠ '"' ∧ c ≠ '\n' ∧ c ≠ '\r'

instance (c : Char) : Decidable (Plain c) := inferInstanceAs (Decidable (_ ∧ _))

/-- What follows the end of a field: the next field, or the next record. -/
def next (row : List (List Char)) (rest : List Char) : Char → Option (List (List (List Char)))
  | ',' => readFrom .start [] row rest
  | _ => (readFrom .start [] [] rest).map (row :: ·)

/-- A text that is read as `field` wherever a field may stand. -/
def Reads (text field : List Char) : Prop :=
  ∀ row rest c, c = ',' ∨ c = '\n' →
    readFrom .start [] row (text ++ c :: rest) = next (row ++ [field]) rest c

theorem readFrom_inside {text : List Char} (htext : ∀ c ∈ text, Plain c) {place : Place}
    (hplace : place = .start ∨ place = .inside) (field : List Char) (row : List (List Char))
    (rest : List Char) {c : Char} (hc : c = ',' ∨ c = '\n') :
    readFrom place field row (text ++ c :: rest) = next (row ++ [field ++ text]) rest c := by
  induction text generalizing place field with
  | nil =>
    rw [List.append_nil]
    rcases hplace with rfl | rfl <;> rcases hc with rfl | rfl <;> rfl
  | cons head text ih =>
    obtain ⟨hcomma, hquote, hnewline, hreturn⟩ := htext head List.mem_cons_self
    have hstep : readFrom place field row (head :: (text ++ c :: rest)) =
        readFrom .inside (field ++ [head]) row (text ++ c :: rest) := by
      rcases hplace with rfl | rfl <;> simp [readFrom, hcomma, hquote, hnewline, hreturn]
    rw [List.cons_append, hstep,
      ih (fun d hd => htext d (List.mem_cons_of_mem _ hd)) (Or.inr rfl), List.append_assoc,
      List.singleton_append]

theorem reads_plain {field : List Char} (h : ∀ c ∈ field, Plain c) : Reads field field := by
  intro row rest c hc
  exact readFrom_inside h (Or.inl rfl) [] row rest hc

/-- Every quote twice. -/
def escape (field : List Char) : List Char :=
  field.flatMap fun c => if c = '"' then ['"', '"'] else [c]

theorem readFrom_quoted (field : List Char) (row : List (List Char)) (rest : List Char) :
    ∀ text, readFrom .quoted field row (escape text ++ '"' :: rest) =
      readFrom .closed (field ++ text) row rest := by
  intro text
  induction text generalizing field with
  | nil => simp [escape, readFrom]
  | cons c text ih =>
    have hescape : escape (c :: text) = (if c = '"' then ['"', '"'] else [c]) ++ escape text := rfl
    rw [hescape, List.append_assoc]
    by_cases hc : c = '"'
    · subst hc
      rw [if_pos rfl]
      change readFrom .quoted (field ++ ['"']) row (escape text ++ '"' :: rest) = _
      rw [ih, List.append_assoc, List.singleton_append]
    · rw [if_neg hc, List.singleton_append, readFrom, if_neg hc, ih, List.append_assoc,
        List.singleton_append]

theorem reads_quoted (field : List Char) : Reads ('"' :: escape field ++ ['"']) field := by
  intro row rest c hc
  have hopen : readFrom .start [] row ('"' :: escape field ++ ['"'] ++ c :: rest) =
      readFrom .quoted [] row (escape field ++ '"' :: c :: rest) := by
    simp [readFrom]
  rw [hopen, readFrom_quoted]
  rcases hc with rfl | rfl <;> rfl

/-- Texts joined by commas are read as the fields of one record. -/
theorem readFrom_record {texts fields : List (List Char)} (h : List.Forall₂ Reads texts fields)
    (hne : texts ≠ []) (row : List (List Char)) (rest : List Char) :
    readFrom .start [] row (List.intercalate [','] texts ++ '\n' :: rest) =
      (readFrom .start [] [] rest).map ((row ++ fields) :: ·) := by
  induction h generalizing row with
  | nil => exact absurd rfl hne
  | @cons text field texts fields hfield hrest ih =>
    cases hrest with
    | nil =>
      rw [List.intercalate_singleton]
      exact hfield row rest '\n' (Or.inr rfl)
    | @cons text' field' texts fields hfield' hrest =>
      rw [List.intercalate_cons_cons, List.append_assoc, List.append_assoc,
        List.singleton_append, hfield row _ ',' (Or.inl rfl), next,
        ih (List.cons_ne_nil _ _), List.append_assoc, List.singleton_append]

/-- Records, each on a line of its own. -/
def write (records : List (List (List Char))) : List Char :=
  records.flatMap fun texts => List.intercalate [','] texts ++ ['\n']

theorem read_write {records rows : List (List (List Char))} (hne : ∀ texts ∈ records, texts ≠ [])
    (h : List.Forall₂ (List.Forall₂ Reads) records rows) : read (write records) = some rows := by
  induction h with
  | nil => rfl
  | @cons texts fields records rows hrecord _ ih =>
    have hsplit : write (texts :: records) =
        List.intercalate [','] texts ++ '\n' :: write records := by
      simp [write]
    rw [read, hsplit, readFrom_record hrecord (hne texts List.mem_cons_self)]
    have hread := ih fun other hother => hne other (List.mem_cons_of_mem _ hother)
    rw [read] at hread
    rw [hread]
    rfl

end IntelliPilot.Text.Csv
