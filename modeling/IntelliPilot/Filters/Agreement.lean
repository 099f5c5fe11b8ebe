import IntelliPilot.Filters.Views
import Mathlib.Algebra.Order.Ring.Rat

/-! # One filter for the list, the columns and the lanes

What each of the views shows, in terms of the rows that the clause keeps, and
when that is the set of issues that the filter means.
-/

namespace IntelliPilot.Filters

open Projects (Uuid)
open Text (CaseFolding Literal)
open Windows

variable {fold : CaseFolding} {db : Database} {projectId : Uuid} {q : IssueQuery}

/-! ## Rows of the table -/

theorem nodup_issues (db : Database) : db.issues.rows.Nodup := db.issues.nodup.of_map _

theorem nodup_matching : (matching fold db projectId q).Nodup := (nodup_issues db).filter _

variable {issue : Issue}

theorem mem_matching :
    issue ∈ matching fold db projectId q ↔
      issue ∈ db.issues.rows ∧ Meets fold db (Matched fold) projectId q issue := by
  rw [matching, Truth.mem_select, issueFilterWhere_eq_true]

/-- The clause of the board keeps the rows of the list that have no parent. -/
theorem boardWhere_eq_true :
    boardWhere fold db projectId q none issue = .true ↔
      Meets fold db (Matched fold) projectId q issue ∧ issue.parentId = none := by
  simp [boardWhere, columnChosen, issueFilterWhere_eq_true]

theorem inOrder_total (a b : Issue) : InOrder a b ∨ InOrder b a := by
  rcases lt_trichotomy a.order b.order with h | h | h
  · exact .inl (.inl h)
  · rcases le_total a.id b.id with hid | hid
    · exact .inl (.inr ⟨h, hid⟩)
    · exact .inr (.inr ⟨h.symm, hid⟩)
  · exact .inr (.inl h)

theorem inOrder_trans (a b c : Issue) (hab : InOrder a b) (hbc : InOrder b c) : InOrder a c := by
  rcases hab with hab | ⟨hab, hidab⟩
  · rcases hbc with hbc | ⟨hbc, -⟩
    · exact .inl (hab.trans hbc)
    · exact .inl (hbc ▸ hab)
  · rcases hbc with hbc | ⟨hbc, hidbc⟩
    · exact .inl (hab ▸ hbc)
    · exact .inr ⟨hab.trans hbc, hidab.trans hidbc⟩

theorem not_before_self (issue : Issue) : ¬ Before issue issue := by
  simp [Before]

/-! ## The list -/

/-- The list without a limit. -/
def listed (fold : CaseFolding) (db : Database) (projectId : Uuid) (q : IssueQuery) : List Issue :=
  (listIssuesPaged fold db projectId q none 0).elim [] Prod.fst

/-- A page of the list. -/
def listedPage (fold : CaseFolding) (db : Database) (projectId : Uuid) (q : IssueQuery)
    (size n : Nat) : List Issue :=
  (listIssuesPaged fold db projectId q (some size) (n * size : Nat)).elim [] Prod.fst

theorem listed_perm : (listed fold db projectId q).Perm (matching fold db projectId q) :=
  List.perm_insertionSort _ _

theorem mem_listed :
    issue ∈ listed fold db projectId q ↔
      issue ∈ db.issues.rows ∧ Meets fold db (Matched fold) projectId q issue := by
  rw [listed_perm.mem_iff, mem_matching]

theorem nodup_listed : (listed fold db projectId q).Nodup := listed_perm.nodup_iff.mpr nodup_matching

theorem listed_inOrder : (listed fold db projectId q).Pairwise InOrder := by
  have : IsTrans Issue InOrder := ⟨inOrder_trans⟩
  have : Std.Total InOrder := ⟨inOrder_total⟩
  exact List.pairwise_insertionSort InOrder _

/-- Every page comes with the number of all issues. -/
theorem total_of_page {limit : Option Int} {offset : Int} {rows : List Issue} {total : Nat}
    (h : listIssuesPaged fold db projectId q limit offset = some (rows, total)) :
    total = (listed fold db projectId q).length := by
  rw [listed_perm.length_eq]
  unfold listIssuesPaged at h
  cases limit with
  | none => exact (Prod.mk.inj (Option.some.inj h)).2.symm
  | some lim =>
    dsimp only at h
    split at h
    next => contradiction
    next => exact (Prod.mk.inj (Option.some.inj h)).2.symm

theorem listedPage_eq (size n : Nat) :
    listedPage fold db projectId q size n = page size (n * size) (listed fold db projectId q) := by
  have hlimit : ¬ (size : Int) < 0 := by omega
  have hoffset : (max (((n * size : Nat)) : Int) 0).toNat = n * size := by omega
  rw [listedPage, listIssuesPaged]
  simp only [hlimit, if_false, hoffset, Int.toNat_natCast]
  rfl

theorem flatten_listedPages (size count : Nat) :
    ((List.range count).map (listedPage fold db projectId q size)).flatten =
      (listed fold db projectId q).take (count * size) := by
  rw [← flatten_pages]
  congr 2
  funext n
  exact listedPage_eq size n

/-! ## The columns -/

/-- The cards of some columns. -/
def cardsOf (columns : List BoardColumn) : List Issue := columns.flatMap (·.cards)

/-- Every total is that of a column that has come up, and no column comes up twice. -/
theorem gatherTotals_columns (rows : List (Issue × Nat)) :
    (gatherTotals rows).2.Nodup ∧
      (∀ status, status ∈ (gatherTotals rows).2 ↔ ∃ row ∈ rows, row.1.statusId = status) ∧
      ∀ status, (gatherTotals rows).1 status = none ↔ status ∉ (gatherTotals rows).2 := by
  induction rows using List.reverseRecOn with
  | nil => simp [gatherTotals]
  | append_singleton rows row ih =>
    obtain ⟨hnodup, hmem, hnone⟩ := ih
    have hstep : gatherTotals (rows ++ [row]) =
        (Function.update (gatherTotals rows).1 row.1.statusId (some row.2),
          if ((gatherTotals rows).1 row.1.statusId).isNone then
            (gatherTotals rows).2 ++ [row.1.statusId] else (gatherTotals rows).2) := by
      rw [gatherTotals, List.foldl_concat]
      rfl
    rw [hstep]
    by_cases hold : row.1.statusId ∈ (gatherTotals rows).2
    · -- a status that has come up before
      have hseen : (gatherTotals rows).1 row.1.statusId ≠ none :=
        fun h => (hnone _).mp h hold
      rw [if_neg (by simpa using hseen)]
      refine ⟨hnodup, fun status => ?_, fun status => ?_⟩
      · rw [hmem]
        constructor
        · rintro ⟨other, hother, hstatus⟩
          exact ⟨other, List.mem_append_left _ hother, hstatus⟩
        · rintro ⟨other, hother, hstatus⟩
          rcases List.mem_append.mp hother with hother | hother
          · exact ⟨other, hother, hstatus⟩
          · rw [List.mem_singleton.mp hother] at hstatus
            exact (hmem _).mp (hstatus ▸ hold)
      · by_cases hstatus : status = row.1.statusId
        · simp [hstatus, hold]
        · simp [Function.update_of_ne hstatus, hnone]
    · rw [if_pos (by simpa using (hnone _).mpr hold)]
      refine ⟨hnodup.append (List.nodup_singleton _) (by simpa using hold), fun status => ?_,
        fun status => ?_⟩
      · simp only [List.mem_append, List.mem_singleton, hmem]
        constructor
        · rintro (⟨other, hother, hstatus⟩ | rfl)
          · exact ⟨other, .inl hother, hstatus⟩
          · exact ⟨row, .inr rfl, rfl⟩
        · rintro ⟨other, hother | rfl, hstatus⟩
          · exact .inl ⟨other, hother, hstatus⟩
          · exact .inr hstatus.symm
      · by_cases hstatus : status = row.1.statusId
        · simp [hstatus]
        · simp [hnone, hstatus]

theorem gatherCards_apply (issues : List Issue) (status : Option Uuid) :
    gatherCards issues status = issues.filter fun issue => issue.statusId == status := by
  induction issues using List.reverseRecOn with
  | nil => rfl
  | append_singleton issues issue ih =>
    rw [gatherCards, List.foldl_concat, List.filter_append]
    by_cases hstatus : issue.statusId = status
    · subst hstatus
      simpa [gatherCards] using ih
    · rw [Function.update_of_ne (Ne.symm hstatus)]
      simpa [hstatus, gatherCards] using ih

/-- Where no column comes twice, each one finds all its cards in the map. -/
theorem drainColumns_eq (totals : Option Uuid → Option Nat) {order : List (Option Uuid)}
    (hnodup : order.Nodup) (cards : Option Uuid → List Issue) :
    drainColumns totals order cards =
      order.map fun status => ⟨status, (totals status).getD 0, cards status⟩ := by
  induction order generalizing cards with
  | nil => rfl
  | cons status order ih =>
    obtain ⟨hstatus, horder⟩ := List.nodup_cons.mp hnodup
    rw [drainColumns, ih horder, List.map_cons]
    congr 1
    apply List.map_congr_left
    intro other hother
    have hne : other ≠ status := fun h => hstatus (h ▸ hother)
    rw [Function.update_of_ne hne]

/-- The columns that a query's rows are put into. -/
structure Columns (shown : List Issue) (columns : List BoardColumn) : Prop where
  once : (columns.map (·.statusId)).Nodup
  status : ∀ column ∈ columns, ∀ card ∈ column.cards, card.statusId = column.statusId
  cardsOnce : (cardsOf columns).Nodup
  mem : ∀ issue, issue ∈ cardsOf columns ↔ issue ∈ shown

theorem columns_of_gather {shown : List Issue} (hnodup : shown.Nodup) (total : Issue → Nat) :
    Columns shown (drainColumns (gatherTotals (shown.map fun issue => (issue, total issue))).1
      (gatherTotals (shown.map fun issue => (issue, total issue))).2 (gatherCards shown)) := by
  obtain ⟨honce, hmem, -⟩ := gatherTotals_columns (shown.map fun issue => (issue, total issue))
  rw [drainColumns_eq _ honce]
  have hcards : ∀ status card, card ∈ gatherCards shown status ↔
      card ∈ shown ∧ card.statusId = status := by
    intro status card
    rw [gatherCards_apply, List.mem_filter, beq_iff_eq]
  constructor
  · rw [List.map_map]
    simpa [Function.comp_def] using honce
  · intro column hcolumn card hcard
    obtain ⟨status, -, rfl⟩ := List.mem_map.mp hcolumn
    exact ((hcards _ _).mp hcard).2
  · rw [cardsOf, List.flatMap_map, List.nodup_flatMap]
    constructor
    · intro status _
      rw [gatherCards_apply]
      exact hnodup.filter _
    · apply honce.imp
      intro a b hab card ha hb
      exact hab (((hcards _ _).mp ha).2.symm.trans ((hcards _ _).mp hb).2)
  · intro issue
    rw [cardsOf, List.flatMap_map, List.mem_flatMap]
    constructor
    · rintro ⟨status, -, hcard⟩
      exact ((hcards _ _).mp hcard).1
    · intro hissue
      refine ⟨issue.statusId, (hmem _).mpr ⟨(issue, total issue), ?_, rfl⟩, (hcards _ _).mpr ⟨hissue, rfl⟩⟩
      exact List.mem_map_of_mem hissue

theorem Columns.congr {shown shown' : List Issue} {columns : List BoardColumn}
    (h : Columns shown columns) (hsame : ∀ issue, issue ∈ shown ↔ issue ∈ shown') :
    Columns shown' columns :=
  ⟨h.once, h.status, h.cardsOnce, fun issue => (h.mem issue).trans (hsame issue)⟩

variable {columnLimit : Int}

/-- No row is cut off where there is room for all of them. -/
theorem mem_withinLimit {α κ : Type} [DecidableEq κ] {key : α → κ} {before : α → α → Prop}
    [DecidableRel before] (hirrefl : ∀ row, ¬ before row row) {ranked : List α}
    (hroom : ranked.length ≤ columnLimit) (row : α) :
    row ∈ (ranked.filter fun row => decide ((rowNumber key before ranked row : Int) ≤ columnLimit)) ↔
      row ∈ ranked := by
  rw [List.mem_filter, decide_eq_true_iff]
  constructor
  · exact fun h => h.1
  · intro hrow
    have hnumber : rowNumber key before ranked row ≤ ranked.length := rowNumber_le_length hirrefl hrow
    exact ⟨hrow, by omega⟩

/-- With room for all of them the columns show the issues that the clause keeps. -/
theorem columns_boardColumns (hroom : db.issues.rows.length ≤ columnLimit) :
    Columns (Truth.select (boardWhere fold db projectId q none) db.issues.rows)
      (boardColumns fold db projectId q none columnLimit) := by
  have hlength : (Truth.select (boardWhere fold db projectId q none) db.issues.rows).length ≤
      columnLimit := by
    have hle := List.length_filter_le
      (fun issue => boardWhere fold db projectId q none issue == .true) db.issues.rows
    exact (Int.ofNat_le.mpr hle).trans hroom
  unfold boardColumns
  refine (columns_of_gather ?_ _).congr fun issue => ?_
  · refine (List.perm_insertionSort _ _).nodup_iff.mpr ?_
    exact ((nodup_issues db).filter _).filter _
  · rw [orderBy, List.mem_insertionSort]
    exact mem_withinLimit not_before_self hlength issue

/-! ## The lanes -/

/-- The cards of the lane of a key. -/
def cardsUnder (key : String) (lanes : List BoardLane) : List Issue :=
  lanes.flatMap fun lane => if lane.key = key then cardsOf lane.columns else []

/-- A card is added to the lane of its key, and to no other. -/
theorem cardsUnder_placeCard (lanes : List BoardLane) (key other : String)
    (laneTotal cellTotal : Nat) (issue : Issue) :
    (cardsUnder other (placeCard lanes key laneTotal cellTotal issue)).Perm
      (cardsUnder other lanes ++ if key = other then [issue] else []) := by
  unfold placeCard cardsUnder
  apply upsert_flatMap_perm
  · rfl
  · simp [cardsOf]
  · intro lane hlane
    subst hlane
    dsimp only
    by_cases hother : lane.key = other
    · rw [if_pos hother, if_pos hother, if_pos hother]
      apply upsert_flatMap_perm
      · rfl
      · rfl
      · intro column _
        exact List.Perm.refl _
    · rw [if_neg hother, if_neg hother, if_neg hother]
      exact List.Perm.refl _

/-- The lanes that rows are put into, one row after the other. -/
structure Lanes (rows : List (Issue × String)) (lanes : List BoardLane) : Prop where
  once : (lanes.map (·.key)).Nodup
  status : ∀ lane ∈ lanes, ∀ column ∈ lane.columns, ∀ card ∈ column.cards,
    card.statusId = column.statusId
  cards : ∀ key, (cardsUnder key lanes).Perm ((rows.filter (·.2 == key)).map Prod.fst)

variable {rows : List (Issue × String)}

theorem lanes_placeCard {lanes : List BoardLane} (h : Lanes rows lanes) (row : Issue × String)
    (laneTotal cellTotal : Nat) :
    Lanes (rows ++ [row]) (placeCard lanes row.2 laneTotal cellTotal row.1) := by
  constructor
  · unfold placeCard
    apply nodup_upsert
    · rfl
    · exact fun _ => rfl
    · exact h.once
  · unfold placeCard
    refine forall_mem_upsert (p := fun lane : BoardLane => ∀ column ∈ lane.columns,
      ∀ card ∈ column.cards, card.statusId = column.statusId) ?_ ?_ ?_ h.status
    · rfl
    · exact List.forall_mem_nil _
    intro lane _ hlane
    refine forall_mem_upsert (p := fun column : BoardColumn => ∀ card ∈ column.cards,
      card.statusId = column.statusId) ?_ ?_ ?_ hlane
    · rfl
    · exact List.forall_mem_nil _
    intro column hcolumn hcards card hcard
    rcases List.mem_append.mp hcard with hcard | hcard
    · exact hcards card hcard
    · rw [List.mem_singleton.mp hcard]
      exact hcolumn.symm
  · intro key
    refine (cardsUnder_placeCard lanes row.2 key laneTotal cellTotal row.1).trans ?_
    rw [List.filter_append, List.map_append]
    apply (h.cards key).append
    by_cases hkey : row.2 = key
    · simp [hkey]
    · simp [hkey]

theorem lanes_foldl (rows : List (Issue × String)) (laneTotal cellTotal : Issue × String → Nat) :
    Lanes rows (rows.foldl
      (fun lanes row => placeCard lanes row.2 (laneTotal row) (cellTotal row) row.1) []) := by
  induction rows using List.reverseRecOn with
  | nil => exact ⟨List.nodup_nil, List.forall_mem_nil _, fun _ => List.Perm.refl _⟩
  | append_singleton rows row ih =>
    rw [List.foldl_concat]
    exact lanes_placeCard ih row _ _

theorem name_injective : Function.Injective Role.name := by
  intro a b h
  cases a <;> cases b <;> first | rfl | exact absurd h (by decide)

variable {role : Role}

theorem mem_myRoleLateral :
    role.name ∈ myRoleLateral fold db q issue ↔ HoldsRole fold db q issue role := by
  rw [myRoleLateral, List.mem_filterMap]
  constructor
  · rintro ⟨other, -, hother⟩
    split at hother
    next hheld =>
      rw [name_injective (Option.some.inj hother)] at hheld
      exact myRoleSql_eq_true.mp hheld
    next => contradiction
  · intro hheld
    exact ⟨role, mem_all role, if_pos (myRoleSql_eq_true.mpr hheld)⟩

theorem nodup_myRoleLateral (issue : Issue) : (myRoleLateral fold db q issue).Nodup := by
  refine List.Nodup.filterMap ?_ (by decide)
  intro a b key ha hb
  simp only [Option.mem_def, Option.ite_none_right_eq_some, Option.some.injEq] at ha hb
  exact name_injective (ha.2.trans hb.2.symm)

/-- The rows that lanes by role are made of. -/
def roleRows (fold : CaseFolding) (db : Database) (projectId : Uuid) (q : IssueQuery) :
    List (Issue × String) :=
  Truth.select (fun row : Issue × String => boardWhere fold db projectId q none row.1)
    (db.issues.rows.flatMap fun issue =>
      (myRoleLateral fold db q issue).map fun key => (issue, key))

theorem mem_roleRows :
    (issue, role.name) ∈ roleRows fold db projectId q ↔
      issue ∈ db.issues.rows ∧ HoldsRole fold db q issue role ∧
        Meets fold db (Matched fold) projectId q issue ∧ issue.parentId = none := by
  rw [roleRows, Truth.mem_select, boardWhere_eq_true, List.mem_flatMap]
  constructor
  · rintro ⟨⟨other, hother, hrow⟩, hmeets⟩
    obtain ⟨key, hkey, heq⟩ := List.mem_map.mp hrow
    obtain ⟨rfl, rfl⟩ := Prod.mk.inj heq
    exact ⟨hother, mem_myRoleLateral.mp hkey, hmeets⟩
  · rintro ⟨hissue, hheld, hmeets⟩
    exact ⟨⟨issue, hissue, List.mem_map_of_mem (mem_myRoleLateral.mpr hheld)⟩, hmeets⟩

theorem nodup_roleRows : (roleRows fold db projectId q).Nodup := by
  apply List.Nodup.filter
  rw [List.nodup_flatMap]
  constructor
  · intro issue _
    exact (nodup_myRoleLateral issue).map fun a b h => (Prod.mk.inj h).2
  · apply (nodup_issues db).imp
    intro a b hab row ha hb
    obtain ⟨_, -, rfl⟩ := List.mem_map.mp ha
    obtain ⟨_, -, heq⟩ := List.mem_map.mp hb
    exact hab (Prod.mk.inj heq).1.symm

/-- With room for all of them the rows go into the lanes of their roles. -/
theorem lanes_boardLanes (hroom : (roleRows fold db projectId q).length ≤ columnLimit) :
    ∃ rows, rows.Perm (roleRows fold db projectId q) ∧
      Lanes rows (boardLanes fold db projectId q "my_role" none columnLimit) := by
  refine ⟨_, ?_, lanes_foldl _ _ _⟩
  refine (List.perm_insertionSort _ _).trans ?_
  rw [List.filter_eq_self.mpr]
  · rfl
  · intro row hrow
    have hirrefl : ∀ row : Issue × String, ¬ (fun a b : Issue × String => Before a.1 b.1) row row :=
      fun row => not_before_self row.1
    exact (List.mem_filter.mp ((mem_withinLimit hirrefl hroom row).mpr hrow)).2

theorem nodup_lane (hnodup : rows.Nodup) (key : String) :
    ((rows.filter (·.2 == key)).map Prod.fst).Nodup := by
  apply (hnodup.filter _).map_on
  intro a ha b hb hab
  have hkeya := (List.mem_filter.mp ha).2
  have hkeyb := (List.mem_filter.mp hb).2
  rw [beq_iff_eq] at hkeya hkeyb
  exact Prod.ext hab (hkeya.trans hkeyb.symm)

theorem mem_lane {key : String} :
    issue ∈ (rows.filter (·.2 == key)).map Prod.fst ↔ (issue, key) ∈ rows := by
  rw [List.mem_map]
  constructor
  · rintro ⟨⟨other, otherKey⟩, hrow, rfl⟩
    obtain ⟨hmem, hkey⟩ := List.mem_filter.mp hrow
    rw [beq_iff_eq] at hkey
    exact hkey ▸ hmem
  · intro h
    exact ⟨(issue, key), List.mem_filter.mpr ⟨h, beq_self_eq_true key⟩, rfl⟩

/-! ## One filter -/

/-- The query for the issues that one role is held on. -/
def IssueQuery.withRole (q : IssueQuery) (name : String) : IssueQuery := { q with myRole := some name }

/-- The list, the columns and the lanes of a query are views of the issues that it means. -/
structure OneFilter (fold : CaseFolding) (db : Database) (projectId : Uuid) (q : IssueQuery) :
    Prop where
  listed : ∀ issue, issue ∈ listed fold db projectId q ↔
    issue ∈ db.issues.rows ∧ Meets fold db fold.Contains projectId q issue
  listedOnce : (Filters.listed fold db projectId q).Nodup
  inOrder : (Filters.listed fold db projectId q).Pairwise InOrder
  total : ∀ limit offset rows total, listIssuesPaged fold db projectId q limit offset =
    some (rows, total) → total = (Filters.listed fold db projectId q).length
  pages : ∀ size count, ((List.range count).map (listedPage fold db projectId q size)).flatten =
    (Filters.listed fold db projectId q).take (count * size)
  columns : ∃ enough : Int, ∀ columnLimit, enough ≤ columnLimit →
    Columns ((Filters.listed fold db projectId q).filter (·.parentId.isNone))
      (boardColumns fold db projectId q none columnLimit)
  lanes : ∃ enough : Int, ∀ columnLimit, enough ≤ columnLimit → ∀ role : Role,
    (cardsUnder role.name (boardLanes fold db projectId q "my_role" none columnLimit)).Nodup ∧
      ∀ issue, issue ∈ cardsUnder role.name
          (boardLanes fold db projectId q "my_role" none columnLimit) ↔
        issue ∈ Filters.listed fold db projectId (q.withRole role.name) ∧ issue.parentId = none
  union : ∃ enough : Int, ∀ columnLimit, enough ≤ columnLimit → ∀ issue,
    (∃ role : Role, issue ∈ cardsUnder role.name
        (boardLanes fold db projectId q "my_role" none columnLimit)) ↔
      issue ∈ Filters.listed fold db projectId (q.withRole "any") ∧ issue.parentId = none

variable {s : String}

/-- A literal text is found where it stands. -/
theorem matched_iff_contains {text : String} (h : Literal s.toList) :
    Matched fold text s ↔ fold.Contains text s := by
  rw [Matched, fold.ilike_literal_iff h, String.ofList_toList]

variable {found : String → String → Prop}

theorem Meets.of_found {found' : String → String → Prop}
    (h : Meets fold db found projectId q issue)
    (hfound : ∀ s, q.search = some s → ∀ text, found text s → found' text s) :
    Meets fold db found' projectId q issue := by
  refine { h with search := fun s hs => ?_ }
  rcases h.search s hs with h | h | h
  · exact .inl (hfound s hs _ h)
  · exact .inr (.inl (hfound s hs _ h))
  · exact .inr (.inr (hfound s hs _ h))

/-- Where the search text is literal, the clause keeps what the filter means. -/
theorem meets_iff (hliteral : ∀ s, q.search = some s → Literal s.toList) :
    Meets fold db (Matched fold) projectId q issue ↔
      Meets fold db fold.Contains projectId q issue := by
  constructor
  · exact fun h => h.of_found fun s hs text => (matched_iff_contains (hliteral s hs)).mp
  · exact fun h => h.of_found fun s hs text => (matched_iff_contains (hliteral s hs)).mpr

/-- What a query without a role means, and the role on top of it. -/
theorem meets_withRole_iff {name : String} (hrole : q.myRole = none ∨ q.myRole = some "any")
    (hheld : (name = "any" ∧ ∃ role, HoldsRole fold db q issue role) ∨
      ∃ role : Role, name = role.name ∧ HoldsRole fold db q issue role) :
    Meets fold db found projectId (q.withRole name) issue ↔ Meets fold db found projectId q issue := by
  constructor
  · intro h
    refine ⟨h.project, h.live, h.status, h.type, h.priority, h.size, h.category, h.assignee,
      h.qaAssignee, h.epic, h.milestone, h.label, h.component, h.search, h.overdue, h.involved,
      h.release, h.customer, ?_⟩
    intro other hother
    rcases hrole with hnone | hany
    · rw [hnone] at hother
      contradiction
    · rw [hany] at hother
      refine .inl ⟨(Option.some.inj hother).symm, ?_⟩
      rcases hheld with ⟨-, held⟩ | ⟨role, -, held⟩
      · exact held
      · exact ⟨role, held⟩
  · intro h
    refine ⟨h.project, h.live, h.status, h.type, h.priority, h.size, h.category, h.assignee,
      h.qaAssignee, h.epic, h.milestone, h.label, h.component, h.search, h.overdue, h.involved,
      h.release, h.customer, ?_⟩
    intro other hother
    rw [← Option.some.inj hother]
    exact hheld

theorem holdsRole_of_withRole (h : Meets fold db found projectId (q.withRole role.name) issue) :
    HoldsRole fold db q issue role := by
  rcases h.myRole role.name rfl with ⟨hany, -⟩ | ⟨other, hname, hheld⟩
  · exact absurd hany (by cases role <;> decide)
  · rw [name_injective hname]
    exact hheld

theorem holdsSome_of_withAny (h : Meets fold db found projectId (q.withRole "any") issue) :
    ∃ role, HoldsRole fold db q issue role := by
  rcases h.myRole "any" rfl with ⟨-, hheld⟩ | ⟨role, -, hheld⟩
  · exact hheld
  · exact ⟨role, hheld⟩

/-- What the lanes show, for any query. -/
theorem mem_lane_iff (hroom : (roleRows fold db projectId q).length ≤ columnLimit) (role : Role) :
    (cardsUnder role.name (boardLanes fold db projectId q "my_role" none columnLimit)).Nodup ∧
      ∀ issue, issue ∈ cardsUnder role.name
          (boardLanes fold db projectId q "my_role" none columnLimit) ↔
        issue ∈ db.issues.rows ∧ HoldsRole fold db q issue role ∧
          Meets fold db (Matched fold) projectId q issue ∧ issue.parentId = none := by
  obtain ⟨rows, hrows, hlanes⟩ := lanes_boardLanes hroom
  have hcards := hlanes.cards role.name
  refine ⟨hcards.nodup_iff.mpr (nodup_lane (hrows.nodup_iff.mpr nodup_roleRows) _), fun issue => ?_⟩
  rw [hcards.mem_iff, mem_lane, hrows.mem_iff, mem_roleRows]

/-- A literal search text, and no role but in the lanes: the views agree. -/
theorem oneFilter_of_literal (hliteral : ∀ s, q.search = some s → Literal s.toList)
    (hrole : q.myRole = none ∨ q.myRole = some "any") : OneFilter fold db projectId q where
  listed issue := by rw [mem_listed, meets_iff hliteral]
  listedOnce := nodup_listed
  inOrder := listed_inOrder
  total _ _ _ _ h := total_of_page h
  pages := flatten_listedPages
  columns := by
    refine ⟨db.issues.rows.length, fun columnLimit hroom => ?_⟩
    apply (columns_boardColumns hroom).congr
    intro issue
    rw [Truth.mem_select, boardWhere_eq_true, List.mem_filter, mem_listed, Option.isNone_iff_eq_none,
      and_assoc]
  lanes := by
    refine ⟨(roleRows fold db projectId q).length, fun columnLimit hroom role => ?_⟩
    obtain ⟨hnodup, hmem⟩ := mem_lane_iff hroom role
    refine ⟨hnodup, fun issue => ?_⟩
    rw [hmem, mem_listed]
    constructor
    · rintro ⟨hissue, hheld, hmeets, hparent⟩
      exact ⟨⟨hissue, (meets_withRole_iff hrole (.inr ⟨role, rfl, hheld⟩)).mpr hmeets⟩, hparent⟩
    · rintro ⟨⟨hissue, hmeets⟩, hparent⟩
      have hheld := holdsRole_of_withRole hmeets
      exact ⟨hissue, hheld, (meets_withRole_iff hrole (.inr ⟨role, rfl, hheld⟩)).mp hmeets, hparent⟩
  union := by
    refine ⟨(roleRows fold db projectId q).length, fun columnLimit hroom issue => ?_⟩
    rw [mem_listed]
    constructor
    · rintro ⟨role, hcard⟩
      obtain ⟨hissue, hheld, hmeets, hparent⟩ := ((mem_lane_iff hroom role).2 issue).mp hcard
      exact ⟨⟨hissue, (meets_withRole_iff hrole (.inl ⟨rfl, role, hheld⟩)).mpr hmeets⟩, hparent⟩
    · rintro ⟨⟨hissue, hmeets⟩, hparent⟩
      obtain ⟨role, hheld⟩ := holdsSome_of_withAny hmeets
      have hplain := (meets_withRole_iff hrole (.inl ⟨rfl, role, hheld⟩)).mp hmeets
      exact ⟨role, ((mem_lane_iff hroom role).2 issue).mpr ⟨hissue, hheld, hplain, hparent⟩⟩

/-! ## Where the views part -/

/-- An issue on which user 7 has the roles that are left to be given. -/
def task (subject : String) (assignedTo reviewerId : Option Uuid) : Issue where
  id := 1
  projectId := 0
  reference := 1
  subject := subject
  description := ""
  deletedAt := none
  statusId := none
  typeId := none
  priorityId := none
  sizeId := none
  epicId := none
  parentId := none
  milestoneId := none
  ownerId := none
  assignedTo := assignedTo
  qaAssigneeId := none
  reviewerId := reviewerId
  category := none
  dueDate := none
  releaseVersionId := none
  order := 1
  createdAt := 0
  modifiedAt := 0

/-- The database with one issue. -/
def lone (issue : Issue) : Database where
  issues := ⟨[issue], List.nodup_singleton _⟩
  comments := .empty
  searchIndex := .empty
  issueLabels := []
  issueComponents := []
  issueCustomers := []
  issueWatchers := []
  taxonomyItems := .empty
  releaseVersions := .empty
  projects := .empty
  memberships := []
  users := .empty
  today := 0

/-- What user 7 asks for by a text and a role. -/
def asked (search myRole : Option String) : IssueQuery :=
  { IssueQuery.none with search := search, myRole := myRole, actorId := some 7 }

variable {search : Option String} {myRole : Option String}

/-- The issue meets what is asked for where the text and the role are met. -/
theorem meets_asked {subject : String} {assignedTo reviewerId : Option Uuid}
    (hsearch : ∀ s, search = some s → found subject s) (hrole : ∀ name, myRole = some name →
      (name = "any" ∧ ∃ role, HoldsRole fold (lone (task subject assignedTo reviewerId))
        (asked search myRole) (task subject assignedTo reviewerId) role) ∨
      ∃ role : Role, name = role.name ∧ HoldsRole fold (lone (task subject assignedTo reviewerId))
        (asked search myRole) (task subject assignedTo reviewerId) role) :
    Meets fold (lone (task subject assignedTo reviewerId)) found 0 (asked search myRole)
      (task subject assignedTo reviewerId) := by
  have hnone : ∀ {α : Type} {p : α → Prop} (x : α), (none : Option α) = some x → p x := by
    intro α p x h
    contradiction
  exact ⟨rfl, rfl, hnone, hnone, hnone, hnone, hnone, hnone, hnone, hnone, hnone, hnone, hnone,
    fun s hs => .inl (hsearch s hs), fun h => absurd h Bool.false_ne_true, hnone, hnone, hnone,
    hrole⟩

/-- A text that the pattern of the search text matches. -/
def sampleOf (search : Option String) : String :=
  String.ofList (Text.CaseFolding.sample (search.getD "").toList)

theorem matched_sampleOf (hs : search = some s) : Matched fold (sampleOf search) s := by
  rw [hs]
  exact fold.ilike_sample s.toList

/-- Where the views agree, what the pattern matches has the search text in it. -/
theorem literal_of_oneFilter (hrole : myRole = none ∨ myRole = some "any")
    (h : OneFilter fold (lone (task (sampleOf search) (some 7) none)) 0 (asked search myRole))
    (hs : search = some s) : Literal s.toList := by
  have hheld : HoldsRole fold (lone (task (sampleOf search) (some 7) none)) (asked search myRole)
      (task (sampleOf search) (some 7) none) .assignee := ⟨7, rfl, rfl⟩
  have hmeets : Meets fold (lone (task (sampleOf search) (some 7) none)) (Matched fold) 0
      (asked search myRole) (task (sampleOf search) (some 7) none) := by
    apply meets_asked (fun _ => matched_sampleOf)
    intro name hname
    rcases hrole with hnone | hany
    · rw [hnone] at hname
      contradiction
    · rw [hany] at hname
      exact .inl ⟨(Option.some.inj hname).symm, _, hheld⟩
  have hlisted := mem_listed.mpr ⟨List.mem_singleton_self _, hmeets⟩
  rcases ((h.listed _).mp hlisted).2.search s hs with hfound | hfound | hfound
  · have hfound' : fold.Contains (String.ofList (Text.CaseFolding.sample s.toList))
        (String.ofList s.toList) := by
      rw [String.ofList_toList]
      simpa [task, sampleOf, hs] using hfound
    exact fold.contains_sample_iff.mp hfound'
  · exact fold.literal_of_contains hfound (show Literal "".toList by decide)
  · exact fold.literal_of_contains hfound (show Literal (toString 1).toList by decide +kernel)

/-- Where the views agree, no role is asked for but some role or all of them. -/
theorem role_of_oneFilter (h : ∀ db, OneFilter fold db 0 (asked search myRole)) :
    myRole = none ∨ myRole = some "any" := by
  by_contra hnot
  obtain ⟨hsome, hany⟩ := not_or.mp hnot
  obtain ⟨name, hname⟩ := Option.ne_none_iff_exists'.mp hsome
  -- a role that is not the one asked for, and an issue that only that role is held on
  obtain ⟨role, assignedTo, reviewerId, hother, hheld, honly⟩ :
      ∃ (role : Role) (assignedTo reviewerId : Option Uuid), role.name ≠ name ∧
        HoldsRole fold (lone (task (sampleOf search) assignedTo reviewerId)) (asked search myRole)
          (task (sampleOf search) assignedTo reviewerId) role ∧
        ∀ other, HoldsRole fold (lone (task (sampleOf search) assignedTo reviewerId))
          (asked search myRole) (task (sampleOf search) assignedTo reviewerId) other →
            other = role := by
    by_cases hassignee : name = "assignee"
    · refine ⟨.reviewer, none, some 7, by rw [hassignee]; decide, ⟨7, rfl, rfl⟩, ?_⟩
      intro other
      cases other <;> simp [HoldsRole, asked, task, lone, IssueQuery.none]
    · refine ⟨.assignee, some 7, none, fun h => hassignee h.symm, ⟨7, rfl, rfl⟩, ?_⟩
      intro other
      cases other <;> simp [HoldsRole, asked, task, lone, IssueQuery.none]
  obtain ⟨enough, hlanes⟩ := (h (lone (task (sampleOf search) assignedTo reviewerId))).lanes
  have hmeets : Meets fold (lone (task (sampleOf search) assignedTo reviewerId)) (Matched fold) 0
      (asked search (some role.name)) (task (sampleOf search) assignedTo reviewerId) := by
    apply meets_asked (fun _ => matched_sampleOf)
    intro given hgiven
    exact .inr ⟨role, (Option.some.inj hgiven).symm, hheld⟩
  have hlisted := mem_listed.mpr ⟨List.mem_singleton_self _, hmeets⟩
  obtain ⟨columnLimit, henough, hroom⟩ : ∃ columnLimit : Int, enough ≤ columnLimit ∧
      (roleRows fold (lone (task (sampleOf search) assignedTo reviewerId)) 0
        (asked search myRole)).length ≤ columnLimit := ⟨_, le_max_left _ _, le_max_right _ _⟩
  have hcard := ((hlanes columnLimit henough role).2 _).mpr ⟨hlisted, rfl⟩
  obtain ⟨-, -, hfiltered, -⟩ := ((mem_lane_iff hroom role).2 _).mp hcard
  rcases hfiltered.myRole name hname with ⟨heq, -⟩ | ⟨other, heq, hheldOther⟩
  · exact hany (hname.trans (congrArg some heq))
  · exact hother (by rw [heq, honly other hheldOther])

end IntelliPilot.Filters
