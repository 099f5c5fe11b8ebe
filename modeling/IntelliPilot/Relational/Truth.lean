import Mathlib.Data.List.Basic

/-! # Three-valued conditions

The truth values of SQL, the operators that a `WHERE` clause is made of, and
what it takes for a clause to keep a row.
-/

namespace IntelliPilot

/-- The truth value of a condition over columns that may be `NULL`. -/
inductive Truth where
  | false
  | unknown
  | true
  deriving DecidableEq, Repr

namespace Truth

variable {α β : Type}

def ofBool (b : Bool) : Truth := if b then .true else .false

/-- A column of truth values. -/
def ofColumn : Option Bool → Truth
  | none => .unknown
  | some b => ofBool b

def and : Truth → Truth → Truth
  | .false, _ => .false
  | .true, b => b
  | .unknown, .false => .false
  | .unknown, _ => .unknown

def or : Truth → Truth → Truth
  | .true, _ => .true
  | .false, b => b
  | .unknown, .true => .true
  | .unknown, _ => .unknown

def not : Truth → Truth
  | .false => .true
  | .unknown => .unknown
  | .true => .false

/-- A comparison of values that may be `NULL`. -/
def compare (r : α → β → Bool) : Option α → Option β → Truth
  | some a, some b => ofBool (r a b)
  | _, _ => .unknown

/-- `a = b`. -/
def eq [DecidableEq α] (a b : Option α) : Truth := compare (fun a b => decide (a = b)) a b

def isNull (a : Option α) : Truth := ofBool a.isNone

/-- `t IS NOT TRUE`. -/
def isNotTrue (t : Truth) : Truth := ofBool (t != .true)

/-- `COALESCE(t, b)`. -/
def coalesce (t : Truth) (b : Bool) : Truth := if t = .unknown then ofBool b else t

/-- `a IN (…)`, and `a = ANY(…)`. -/
def isIn [DecidableEq α] (a : Option α) : List (Option α) → Truth
  | [] => .false
  | b :: rest => (eq a b).or (isIn a rest)

/-- `… AND …`. -/
def conjunction (conditions : List Truth) : Truth := conditions.foldr and .true

/-- `… OR …`. -/
def disjunction (conditions : List Truth) : Truth := conditions.foldr or .false

/-- `WHERE`. -/
def select (condition : α → Truth) (rows : List α) : List α :=
  rows.filter fun row => condition row == .true

/-- `EXISTS (SELECT … WHERE …)`. -/
def exists_ (condition : α → Truth) (rows : List α) : Truth :=
  ofBool (rows.any fun row => condition row == .true)

/-! ## When a condition holds -/

@[simp] theorem ofBool_eq_true {b : Bool} : ofBool b = .true ↔ b = Bool.true := by
  cases b <;> simp [ofBool]

@[simp] theorem ofBool_eq_false {b : Bool} : ofBool b = .false ↔ b = Bool.false := by
  cases b <;> simp [ofBool]

@[simp] theorem ofColumn_eq_true {b : Option Bool} : ofColumn b = .true ↔ b = some Bool.true := by
  cases b <;> simp [ofColumn]

@[simp] theorem and_eq_true {a b : Truth} : a.and b = .true ↔ a = .true ∧ b = .true := by
  cases a <;> cases b <;> simp [and]

@[simp] theorem or_eq_true {a b : Truth} : a.or b = .true ↔ a = .true ∨ b = .true := by
  cases a <;> cases b <;> simp [or]

@[simp] theorem not_eq_true {a : Truth} : a.not = .true ↔ a = .false := by
  cases a <;> simp [not]

variable {a : Option α}

@[simp] theorem compare_eq_true {r : α → β → Bool} {b : Option β} :
    compare r a b = .true ↔ ∃ x y, a = some x ∧ b = some y ∧ r x y = Bool.true := by
  cases a <;> cases b <;> simp [compare]

theorem eq_eq_true [DecidableEq α] {b : Option α} :
    eq a b = .true ↔ ∃ x, a = some x ∧ b = some x := by
  rw [eq, compare_eq_true]
  simp

@[simp] theorem eq_some_eq_true [DecidableEq α] {a b : α} :
    eq (some a) (some b) = .true ↔ a = b := by
  simp [eq, compare]

@[simp] theorem isNull_eq_true : isNull a = .true ↔ a = none := by
  simp [isNull]

@[simp] theorem isNotTrue_eq_true {t : Truth} : t.isNotTrue = .true ↔ t ≠ .true := by
  simp [isNotTrue]

/-- With a default of false only what is known to be true counts. -/
@[simp] theorem coalesce_false_eq_false {t : Truth} :
    t.coalesce Bool.false = .false ↔ t ≠ .true := by
  cases t <;> simp [coalesce, ofBool]

@[simp] theorem isIn_eq_true [DecidableEq α] {bs : List (Option α)} :
    isIn a bs = .true ↔ ∃ x, a = some x ∧ some x ∈ bs := by
  induction bs with
  | nil => simp [isIn]
  | cons b bs ih =>
    rw [isIn, or_eq_true, ih, eq_eq_true, ← exists_or]
    apply exists_congr
    intro x
    rw [← and_or_left, List.mem_cons, eq_comm (a := b)]

variable {conditions : List Truth}

@[simp] theorem conjunction_eq_true :
    conjunction conditions = .true ↔ ∀ t ∈ conditions, t = .true := by
  induction conditions with
  | nil => simp [conjunction]
  | cons t conditions ih =>
    rw [conjunction, List.foldr_cons, and_eq_true, List.forall_mem_cons, ← ih, conjunction]

@[simp] theorem disjunction_eq_true : disjunction conditions = .true ↔ .true ∈ conditions := by
  induction conditions with
  | nil => simp [disjunction]
  | cons t conditions ih =>
    rw [disjunction, List.foldr_cons, or_eq_true, List.mem_cons, ← ih, disjunction, eq_comm]

variable {condition : α → Truth} {rows : List α}

@[simp] theorem mem_select {row : α} :
    row ∈ select condition rows ↔ row ∈ rows ∧ condition row = .true := by
  simp [select]

@[simp] theorem exists_eq_true :
    exists_ condition rows = .true ↔ ∃ row ∈ rows, condition row = .true := by
  simp [exists_]

@[simp] theorem exists_eq_false :
    exists_ condition rows = .false ↔ ∀ row ∈ rows, condition row ≠ .true := by
  simp [exists_]

end Truth

end IntelliPilot
