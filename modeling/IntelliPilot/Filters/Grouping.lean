import IntelliPilot.Filters.Agreement

/-! # Grouping of the rows of a board

How `board_columns` and `board_lanes` fold the rows of their query into columns
and lanes. The positions of lanes and columns are kept in maps beside them; what
is at a position is what stands under its key.
-/

namespace IntelliPilot.Filters

open Projects (Uuid)
open Text (CaseFolding)
open Windows

/-! ## The loops -/

/-- What a row of `board_lanes` carries alongside its issue. -/
structure LaneMeta where
  grp : String
  status : Option Uuid
  cellTotal : Nat
  laneTotal : Nat
  deriving DecidableEq, Repr

/-- What the loop of `board_lanes` works on. -/
structure Grouped where
  lanes : List BoardLane
  laneIdx : String → Option Nat
  colIdx : String × Option Uuid → Option Nat

def Grouped.empty : Grouped := ⟨[], fun _ => none, fun _ => none⟩

/-- The position of the row's lane, which is opened where there is none. -/
def openLane (g : Grouped) (m : LaneMeta) : Nat × Grouped :=
  match g.laneIdx m.grp with
  | some x => (x, g)
  | none => (g.lanes.length, { g with
      laneIdx := Function.update g.laneIdx m.grp (some g.lanes.length)
      lanes := g.lanes ++ [⟨m.grp, m.laneTotal, []⟩] })

/-- The position of the row's column in its lane. -/
def openColumn (li : Nat) (g : Grouped) (m : LaneMeta) : Nat × Grouped :=
  match g.colIdx (m.grp, m.status) with
  | some x => (x, g)
  | none =>
    let x := (g.lanes[li]?.map fun lane => lane.columns.length).getD 0
    (x, { g with
      colIdx := Function.update g.colIdx (m.grp, m.status) (some x)
      lanes := g.lanes.modify li fun lane =>
        { lane with columns := lane.columns ++ [⟨m.status, m.cellTotal, []⟩] } })

/-- One row. -/
def groupRow (g : Grouped) (row : LaneMeta × Issue) : Grouped :=
  let lane := openLane g row.1
  let column := openColumn lane.1 lane.2 row.1
  { column.2 with
    lanes := column.2.lanes.modify lane.1 fun l =>
      { l with
        columns := l.columns.modify column.1 fun c => { c with cards := c.cards ++ [row.2] } } }

/-- The loop of `board_lanes`. -/
def groupLanes (rows : List (LaneMeta × Issue)) : List BoardLane :=
  (rows.foldl groupRow .empty).lanes

/-- The loops of `board_columns`. -/
def groupColumns (rows : List (Issue × Nat)) : List BoardColumn :=
  drainColumns (gatherTotals rows).1 (gatherTotals rows).2 (gatherCards (rows.map Prod.fst))

/-! ## Positions and keys -/

/-- The maps tell where what stands under a key is. -/
structure Grouped.Indexed (g : Grouped) : Prop where
  lane : ∀ grp, g.laneIdx grp = g.lanes.findIdx? fun lane => lane.key = grp
  column : ∀ grp status, g.colIdx (grp, status) =
    (g.lanes.find? fun lane => lane.key = grp).bind fun lane =>
      lane.columns.findIdx? fun column => column.statusId = status

/-- The lane with the card of a row. -/
def addCard (m : LaneMeta) (issue : Issue) (lane : BoardLane) : BoardLane :=
  { lane with
    columns := upsert (·.statusId) m.status ⟨m.status, m.cellTotal, []⟩
      (fun column => { column with cards := column.cards ++ [issue] }) lane.columns }

theorem openLane_spec {g : Grouped} (h : g.Indexed) (m : LaneMeta) :
    (∀ f, (openLane g m).2.lanes.modify (openLane g m).1 f =
        upsert (·.key) m.grp ⟨m.grp, m.laneTotal, []⟩ f g.lanes) ∧
      (openLane g m).2.lanes[(openLane g m).1]? =
        some ((g.lanes.find? fun lane => lane.key = m.grp).getD ⟨m.grp, m.laneTotal, []⟩) ∧
      (openLane g m).2.colIdx = g.colIdx ∧
      ∀ grp, (openLane g m).2.laneIdx grp = if grp = m.grp then
        some ((g.lanes.findIdx? fun lane => lane.key = m.grp).getD g.lanes.length)
        else g.laneIdx grp := by
  unfold openLane
  rw [h.lane]
  cases hidx : g.lanes.findIdx? fun lane => lane.key = m.grp with
  | some x =>
    have hat := getElem?_of_findIdx? hidx
    have hlt : x < g.lanes.length := (List.findIdx?_eq_some_iff_getElem.mp hidx).1
    refine ⟨fun f => by rw [upsert_eq_modify, hidx], ?_, rfl, fun grp => ?_⟩
    · dsimp only
      rw [← hat, List.getElem?_eq_getElem hlt]
      rfl
    · dsimp only
      by_cases heq : grp = m.grp
      · rw [if_pos heq, heq, h.lane, hidx]
        rfl
      · rw [if_neg heq]
  | none =>
    have hnone : (g.lanes.find? fun lane => lane.key = m.grp) = none :=
      List.find?_eq_none.mpr (by simpa using List.findIdx?_eq_none_iff.mp hidx)
    refine ⟨fun f => ?_, ?_, rfl, fun grp => ?_⟩
    · rw [upsert_eq_modify, hidx]
      exact modify_concat _ _ f
    · dsimp only
      rw [hnone, List.getElem?_concat_length]
      rfl
    · exact Function.update_apply _ _ _ _

theorem openColumn_spec {g : Grouped} {li : Nat} {lane : BoardLane} (m : LaneMeta) (issue : Issue)
    (hlane : g.lanes[li]? = some lane)
    (hidx : g.colIdx (m.grp, m.status) =
      lane.columns.findIdx? fun column => column.statusId = m.status) :
    ((openColumn li g m).2.lanes.modify li fun l =>
        { l with
          columns := l.columns.modify (openColumn li g m).1
            fun c => { c with cards := c.cards ++ [issue] } }) =
      g.lanes.modify li (addCard m issue) ∧
    (openColumn li g m).2.laneIdx = g.laneIdx ∧
    ∀ grp status, (openColumn li g m).2.colIdx (grp, status) =
      if grp = m.grp ∧ status = m.status then
        some ((lane.columns.findIdx? fun column => column.statusId = m.status).getD
          lane.columns.length)
      else g.colIdx (grp, status) := by
  unfold openColumn
  rw [hidx]
  cases hcol : lane.columns.findIdx? fun column => column.statusId = m.status with
  | some x =>
    refine ⟨modify_congr hlane ?_, rfl, fun grp status => ?_⟩
    · unfold addCard
      rw [upsert_eq_modify, hcol]
    · dsimp only
      by_cases heq : grp = m.grp ∧ status = m.status
      · rw [if_pos heq, heq.1, heq.2, hidx, hcol]
        rfl
      · rw [if_neg heq]
  | none =>
    dsimp only
    rw [hlane]
    refine ⟨?_, rfl, fun grp status => ?_⟩
    · rw [List.modify_modify_eq]
      apply modify_congr hlane
      unfold addCard
      rw [upsert_eq_modify, hcol]
      simp only [Function.comp_apply, Option.map_some, Option.getD_some]
      rw [modify_concat]
    · rw [Function.update_apply]
      simp only [Prod.mk.injEq]
      rfl

/-- A row goes into the lane and the column of its keys. -/
theorem groupRow_spec {g : Grouped} (h : g.Indexed) (row : LaneMeta × Issue) :
    (groupRow g row).lanes =
        upsert (·.key) row.1.grp ⟨row.1.grp, row.1.laneTotal, []⟩ (addCard row.1 row.2) g.lanes ∧
      (groupRow g row).Indexed := by
  obtain ⟨m, issue⟩ := row
  obtain ⟨hmodify, hat, hcolIdx, hlaneIdx⟩ := openLane_spec h m
  have hidx : (openLane g m).2.colIdx (m.grp, m.status) =
      ((g.lanes.find? fun lane => lane.key = m.grp).getD ⟨m.grp, m.laneTotal, []⟩).columns.findIdx?
        fun column => column.statusId = m.status := by
    rw [hcolIdx, h.column]
    cases g.lanes.find? fun lane => lane.key = m.grp with
    | none => rfl
    | some lane => rfl
  obtain ⟨hadd, hlane, hcolumn⟩ := openColumn_spec m issue hat hidx
  have hlanes : (groupRow g (m, issue)).lanes =
      upsert (·.key) m.grp ⟨m.grp, m.laneTotal, []⟩ (addCard m issue) g.lanes :=
    hadd.trans (hmodify _)
  refine ⟨hlanes, ⟨fun grp => ?_, fun grp status => ?_⟩⟩
  · rw [hlanes]
    refine Eq.trans ?_ (findIdx?_upsert (by rfl) (fun _ => by rfl) g.lanes grp).symm
    change (openColumn _ _ m).2.laneIdx grp = _
    rw [hlane, hlaneIdx, h.lane]
  · have hfind : (upsert (·.key) m.grp ⟨m.grp, m.laneTotal, []⟩ (addCard m issue) g.lanes).find?
        (fun lane => lane.key = grp) = _ := find?_upsert (by rfl) (fun _ => by rfl) g.lanes grp
    rw [hlanes, hfind]
    change (openColumn _ _ m).2.colIdx (grp, status) = _
    rw [hcolumn, hcolIdx, h.column]
    by_cases hgrp : grp = m.grp
    · subst hgrp
      rw [if_pos rfl, Option.bind_some]
      refine Eq.trans ?_ (findIdx?_upsert (by rfl) (fun _ => by rfl) _ status).symm
      by_cases hstatus : status = m.status
      · rw [if_pos hstatus, if_pos ⟨rfl, hstatus⟩]
      · rw [if_neg hstatus, if_neg fun heq => hstatus heq.2]
        cases g.lanes.find? fun lane => lane.key = m.grp with
        | none => rfl
        | some lane => rfl
    · rw [if_neg hgrp, if_neg fun heq => hgrp heq.1]

/-- The loop puts every row under its keys. -/
theorem groupLanes_eq (rows : List (LaneMeta × Issue)) :
    groupLanes rows = rows.foldl (fun lanes row => upsert (·.key) row.1.grp
      ⟨row.1.grp, row.1.laneTotal, []⟩ (addCard row.1 row.2) lanes) [] := by
  have hboth : (rows.foldl groupRow .empty).Indexed ∧
      (rows.foldl groupRow .empty).lanes = rows.foldl (fun lanes row => upsert (·.key) row.1.grp
        ⟨row.1.grp, row.1.laneTotal, []⟩ (addCard row.1 row.2) lanes) [] := by
    induction rows using List.reverseRecOn with
    | nil => exact ⟨⟨fun _ => rfl, fun _ _ => rfl⟩, rfl⟩
    | append_singleton rows row ih =>
      rw [List.foldl_concat, List.foldl_concat, ← ih.2]
      obtain ⟨hlanes, hindexed⟩ := groupRow_spec ih.1 row
      exact ⟨hindexed, hlanes⟩
  exact hboth.2

/-! ## What the lanes and columns hold -/

/-- The rows of one column of one lane. -/
def rowsOf (grp : String) (status : Option Uuid) (rows : List (LaneMeta × Issue)) :
    List (LaneMeta × Issue) :=
  rows.filter fun row => row.1.grp = grp ∧ row.1.status = status

/-- A column holds its rows in their order, and a total of one of them. -/
structure ColumnOf (grp : String) (rows : List (LaneMeta × Issue)) (column : BoardColumn) : Prop where
  cards : column.cards = (rowsOf grp column.statusId rows).map Prod.snd
  total : ∃ row ∈ rowsOf grp column.statusId rows, column.total = row.1.cellTotal

/-- A lane holds a column for each status of its rows. -/
structure LaneOf (rows : List (LaneMeta × Issue)) (lane : BoardLane) : Prop where
  once : (lane.columns.map (·.statusId)).Nodup
  columns : ∀ column ∈ lane.columns, ColumnOf lane.key rows column
  complete : ∀ row ∈ rows, row.1.grp = lane.key →
    ∃ column ∈ lane.columns, column.statusId = row.1.status
  total : ∃ row ∈ rows, row.1.grp = lane.key ∧ lane.total = row.1.laneTotal

/-- Every row is in the lane of its group, and every lane is one of rows. -/
structure LanesOf (rows : List (LaneMeta × Issue)) (lanes : List BoardLane) : Prop where
  once : (lanes.map (·.key)).Nodup
  each : ∀ lane ∈ lanes, LaneOf rows lane
  complete : ∀ row ∈ rows, ∃ lane ∈ lanes, lane.key = row.1.grp

theorem rowsOf_concat (grp : String) (status : Option Uuid) (rows : List (LaneMeta × Issue))
    (row : LaneMeta × Issue) : rowsOf grp status (rows ++ [row]) =
      rowsOf grp status rows ++ if row.1.grp = grp ∧ row.1.status = status then [row] else [] := by
  rw [rowsOf, List.filter_append, rowsOf]
  congr 1
  by_cases hrow : row.1.grp = grp ∧ row.1.status = status
  · simp [hrow]
  · simp [hrow]

variable {rows : List (LaneMeta × Issue)}

theorem ColumnOf.concat {grp : String} {column : BoardColumn} (h : ColumnOf grp rows column)
    {row : LaneMeta × Issue} (hother : ¬ (row.1.grp = grp ∧ row.1.status = column.statusId)) :
    ColumnOf grp (rows ++ [row]) column := by
  have hsame : rowsOf grp column.statusId (rows ++ [row]) = rowsOf grp column.statusId rows := by
    rw [rowsOf_concat, if_neg hother, List.append_nil]
  exact ⟨hsame ▸ h.cards, hsame ▸ h.total⟩

theorem LaneOf.concat {lane : BoardLane} (h : LaneOf rows lane) {row : LaneMeta × Issue}
    (hother : row.1.grp ≠ lane.key) : LaneOf (rows ++ [row]) lane := by
  refine ⟨h.once, fun column hcolumn => (h.columns column hcolumn).concat fun heq => hother heq.1,
    fun other hmem hgrp => ?_, ?_⟩
  · rcases List.mem_append.mp hmem with hmem | hmem
    · exact h.complete other hmem hgrp
    · rw [List.mem_singleton.mp hmem] at hgrp
      exact absurd hgrp hother
  · obtain ⟨other, hmem, htotal⟩ := h.total
    exact ⟨other, List.mem_append_left _ hmem, htotal⟩

/-- A card comes last in the column of its status. -/
theorem laneOf_addCard {lane : BoardLane} {m : LaneMeta} (issue : Issue) (hkey : lane.key = m.grp)
    (honce : (lane.columns.map (·.statusId)).Nodup)
    (hcolumns : ∀ column ∈ lane.columns, ColumnOf lane.key rows column)
    (hcomplete : ∀ row ∈ rows, row.1.grp = lane.key →
      ∃ column ∈ lane.columns, column.statusId = row.1.status)
    (htotal : ∃ row ∈ rows ++ [(m, issue)], row.1.grp = lane.key ∧ lane.total = row.1.laneTotal) :
    LaneOf (rows ++ [(m, issue)]) (addCard m issue lane) := by
  have hlast : rowsOf m.grp m.status (rows ++ [(m, issue)]) =
      rowsOf m.grp m.status rows ++ [(m, issue)] := by
    rw [rowsOf_concat, if_pos ⟨rfl, rfl⟩]
  refine ⟨nodup_upsert (by rfl) (fun _ => by rfl) honce, fun column hcolumn => ?_,
    fun row hrow hgrp => ?_, htotal⟩
  · change ColumnOf lane.key _ column
    have hcases := (mem_upsert_iff (by rfl) (fun _ => by rfl) honce).mp hcolumn
    by_cases hstatus : column.statusId = m.status
    · rw [if_pos hstatus] at hcases
      subst hcases
      rw [hkey]
      cases hfind : lane.columns.find? fun c => c.statusId = m.status with
      | some old =>
        have hold : old.statusId = m.status := by simpa using List.find?_some hfind
        obtain ⟨hcards, row, hrow, holdTotal⟩ := hcolumns old (List.mem_of_find?_eq_some hfind)
        rw [hold, hkey] at hcards hrow
        constructor
        · simp [hold, hlast, hcards]
        · refine ⟨row, ?_, holdTotal⟩
          simp only [Option.getD_some, hold, hlast]
          exact List.mem_append_left _ hrow
      | none =>
        -- no row has had this status
        have hempty : rowsOf m.grp m.status rows = [] := by
          apply List.filter_eq_nil_iff.mpr
          intro row hrow heq
          have hboth := of_decide_eq_true heq
          obtain ⟨old, hold, hstatus⟩ := hcomplete row hrow (hboth.1.trans hkey.symm)
          exact List.find?_eq_none.mp hfind old hold (by simp [hstatus, hboth.2])
        constructor
        · simp [hlast, hempty]
        · exact ⟨(m, issue), by simp [hlast], rfl⟩
    · rw [if_neg hstatus] at hcases
      exact (hcolumns column hcases).concat fun heq => hstatus heq.2.symm
  · apply (exists_key_upsert_iff (by rfl) (fun _ => by rfl)).mpr
    rcases List.mem_append.mp hrow with hrow | hrow
    · exact .inr (hcomplete row hrow hgrp)
    · rw [List.mem_singleton.mp hrow]
      exact .inl rfl

theorem lanesOf_concat {lanes : List BoardLane} (h : LanesOf rows lanes) (row : LaneMeta × Issue) :
    LanesOf (rows ++ [row]) (upsert (·.key) row.1.grp ⟨row.1.grp, row.1.laneTotal, []⟩
      (addCard row.1 row.2) lanes) := by
  obtain ⟨m, issue⟩ := row
  refine ⟨nodup_upsert (by rfl) (fun _ => by rfl) h.once, fun lane hlane => ?_, fun row hrow => ?_⟩
  · have hcases := (mem_upsert_iff (by rfl) (fun _ => by rfl) h.once).mp hlane
    by_cases hkey : lane.key = m.grp
    · rw [if_pos hkey] at hcases
      subst hcases
      cases hfind : lanes.find? fun l => l.key = m.grp with
      | some old =>
        have hold : old.key = m.grp := by simpa using List.find?_some hfind
        obtain ⟨honce, hcolumns, hcomplete, other, hother, htotal⟩ :=
          h.each old (List.mem_of_find?_eq_some hfind)
        exact laneOf_addCard issue hold honce hcolumns hcomplete
          ⟨other, List.mem_append_left _ hother, htotal⟩
      | none =>
        have hopened : LaneOf (rows ++ [(m, issue)])
            (addCard m issue (⟨m.grp, m.laneTotal, []⟩ : BoardLane)) := by
          apply laneOf_addCard issue rfl
          · exact List.nodup_nil
          · exact List.forall_mem_nil _
          · intro other hother hgrp
            obtain ⟨lane, hlane, hlaneKey⟩ := h.complete other hother
            have hsame : lane.key = m.grp := hlaneKey.trans hgrp
            exact absurd (by simp [hsame]) (List.find?_eq_none.mp hfind lane hlane)
          · exact ⟨(m, issue), List.mem_append_right _ (List.mem_singleton.mpr rfl), rfl, rfl⟩
        exact hopened
    · rw [if_neg hkey] at hcases
      exact (h.each lane hcases).concat fun heq => hkey heq.symm
  · apply (exists_key_upsert_iff (by rfl) (fun _ => by rfl)).mpr
    rcases List.mem_append.mp hrow with hrow | hrow
    · exact .inr (h.complete row hrow)
    · rw [List.mem_singleton.mp hrow]
      exact .inl rfl

theorem lanesOf_groupLanes (rows : List (LaneMeta × Issue)) : LanesOf rows (groupLanes rows) := by
  rw [groupLanes_eq]
  induction rows using List.reverseRecOn with
  | nil => exact ⟨List.nodup_nil, List.forall_mem_nil _, List.forall_mem_nil _⟩
  | append_singleton rows row ih =>
    rw [List.foldl_concat]
    exact lanesOf_concat ih row

/-! ## Columns alone -/

/-- The rows of a column of `board_columns`. -/
def rowsIn (status : Option Uuid) (rows : List (Issue × Nat)) : List (Issue × Nat) :=
  rows.filter fun row => row.1.statusId = status

/-- The columns hold the rows of their statuses, and a total of one of them. -/
structure ColumnsOf (rows : List (Issue × Nat)) (columns : List BoardColumn) : Prop where
  once : (columns.map (·.statusId)).Nodup
  cards : ∀ column ∈ columns, column.cards = (rowsIn column.statusId rows).map Prod.fst
  total : ∀ column ∈ columns, ∃ row ∈ rowsIn column.statusId rows, column.total = row.2
  complete : ∀ row ∈ rows, ∃ column ∈ columns, column.statusId = row.1.statusId

/-- A total that has been gathered is that of a row of the status. -/
theorem gatherTotals_some {rows : List (Issue × Nat)} {status : Option Uuid} {total : Nat}
    (h : (gatherTotals rows).1 status = some total) : ∃ row ∈ rowsIn status rows, total = row.2 := by
  induction rows using List.reverseRecOn with
  | nil => contradiction
  | append_singleton rows row ih =>
    rw [gatherTotals, List.foldl_concat] at h
    change Function.update (gatherTotals rows).1 row.1.statusId (some row.2) status = _ at h
    unfold rowsIn
    rw [List.filter_append]
    by_cases hstatus : status = row.1.statusId
    · subst hstatus
      rw [Function.update_self] at h
      exact ⟨row, by simp, (Option.some.inj h).symm⟩
    · rw [Function.update_of_ne hstatus] at h
      obtain ⟨other, hother, htotal⟩ := ih h
      exact ⟨other, List.mem_append_left _ hother, htotal⟩

theorem columnsOf_groupColumns (rows : List (Issue × Nat)) : ColumnsOf rows (groupColumns rows) := by
  obtain ⟨honce, hmem, hnone⟩ := gatherTotals_columns rows
  unfold groupColumns
  rw [drainColumns_eq _ honce]
  refine ⟨?_, fun column hcolumn => ?_, fun column hcolumn => ?_, fun row hrow => ?_⟩
  · rw [List.map_map]
    simpa [Function.comp_def] using honce
  · obtain ⟨status, _, rfl⟩ := List.mem_map.mp hcolumn
    dsimp only
    rw [gatherCards_apply, List.filter_map, rowsIn]
    congr 1
    apply List.filter_congr
    intro row _
    exact beq_eq_decide _ _
  · obtain ⟨status, hstatus, rfl⟩ := List.mem_map.mp hcolumn
    cases htotal : (gatherTotals rows).1 status with
    | none => exact absurd hstatus ((hnone status).mp htotal)
    | some total =>
      exact gatherTotals_some htotal
  · exact ⟨_, List.mem_map.mpr ⟨row.1.statusId, (hmem _).mpr ⟨row, hrow, rfl⟩, rfl⟩, rfl⟩

/-! ## The boards -/

/-- Rows of one column carry one total. -/
def ColumnsAgree (rows : List (Issue × Nat)) : Prop :=
  ∀ a ∈ rows, ∀ b ∈ rows, a.1.statusId = b.1.statusId → a.2 = b.2

/-- Rows of one lane carry one total, and so do those of one column in it. -/
def LanesAgree (rows : List (LaneMeta × Issue)) : Prop :=
  ∀ a ∈ rows, ∀ b ∈ rows, a.1.grp = b.1.grp →
    a.1.laneTotal = b.1.laneTotal ∧ (a.1.status = b.1.status → a.1.cellTotal = b.1.cellTotal)

/-- Every row is a card of the column of its status, after those that come before it. -/
structure KeepsColumns (rows : List (Issue × Nat)) (columns : List BoardColumn) : Prop where
  once : (columns.map (·.statusId)).Nodup
  cards : ∀ column ∈ columns, column.cards ≠ [] ∧
    column.cards = (rows.filter fun row => row.1.statusId = column.statusId).map Prod.fst
  complete : ∀ row ∈ rows, ∃ column ∈ columns, column.statusId = row.1.statusId ∧
    column.total = row.2

/-- Every row is a card of the column of its status in the lane of its group, after those that
come before it. -/
structure KeepsLanes (rows : List (LaneMeta × Issue)) (lanes : List BoardLane) : Prop where
  once : (lanes.map (·.key)).Nodup
  columnsOnce : ∀ lane ∈ lanes, lane.columns ≠ [] ∧ (lane.columns.map (·.statusId)).Nodup
  cards : ∀ lane ∈ lanes, ∀ column ∈ lane.columns, column.cards ≠ [] ∧
    column.cards = (rows.filter fun row =>
      row.1.grp = lane.key ∧ row.1.status = column.statusId).map Prod.snd
  complete : ∀ row ∈ rows, ∃ lane ∈ lanes, lane.key = row.1.grp ∧ lane.total = row.1.laneTotal ∧
    ∃ column ∈ lane.columns, column.statusId = row.1.status ∧ column.total = row.1.cellTotal

theorem groupColumns_keeps {rows : List (Issue × Nat)} (hrows : ColumnsAgree rows) :
    KeepsColumns rows (groupColumns rows) := by
  have hcolumns := columnsOf_groupColumns rows
  refine ⟨hcolumns.once, fun column hcolumn => ?_, fun row hrow => ?_⟩
  · refine ⟨?_, hcolumns.cards column hcolumn⟩
    obtain ⟨row, hrow, _⟩ := hcolumns.total column hcolumn
    rw [hcolumns.cards column hcolumn]
    exact List.ne_nil_of_mem (List.mem_map_of_mem hrow)
  · obtain ⟨column, hcolumn, hstatus⟩ := hcolumns.complete row hrow
    obtain ⟨other, hother, htotal⟩ := hcolumns.total column hcolumn
    have hmem := List.mem_filter.mp hother
    refine ⟨column, hcolumn, hstatus, htotal.trans (hrows other hmem.1 row hrow ?_)⟩
    exact (of_decide_eq_true hmem.2).trans hstatus

theorem groupLanes_keeps (hrows : LanesAgree rows) :
    KeepsLanes rows (groupLanes rows) := by
  have hlanes := lanesOf_groupLanes rows
  refine ⟨hlanes.once, fun lane hlane => ?_, fun lane hlane column hcolumn => ?_,
    fun row hrow => ?_⟩
  · obtain ⟨honce, _, hcomplete, row, hrow, hgrp, _⟩ := hlanes.each lane hlane
    obtain ⟨shown, hshown, _⟩ := hcomplete row hrow hgrp
    exact ⟨List.ne_nil_of_mem hshown, honce⟩
  · obtain ⟨hcards, other, hother, _⟩ := (hlanes.each lane hlane).columns column hcolumn
    refine ⟨?_, hcards⟩
    rw [hcards]
    exact List.ne_nil_of_mem (List.mem_map_of_mem hother)
  · obtain ⟨lane, hlane, hkey⟩ := hlanes.complete row hrow
    have heach := hlanes.each lane hlane
    obtain ⟨other, hother, hgrp, htotal⟩ := heach.total
    obtain ⟨column, hcolumn, hstatus⟩ := heach.complete row hrow hkey.symm
    obtain ⟨_, cell, hcell, hcellTotal⟩ := heach.columns column hcolumn
    have hmem := List.mem_filter.mp hcell
    have hkeys := of_decide_eq_true hmem.2
    refine ⟨lane, hlane, hkey, htotal.trans ?_, column, hcolumn, hstatus, hcellTotal.trans ?_⟩
    · exact (hrows other hother row hrow (hgrp.trans hkey)).1
    · exact (hrows cell hmem.1 row hrow (hkeys.1.trans hkey)).2 (hkeys.2.trans hstatus)

section

variable (fold : CaseFolding) (db : Database) (projectId : Uuid) (q : IssueQuery)
  (columns : Option (List Uuid)) (columnLimit : Int)

/-- The rows of the query of `board_columns`. -/
def columnRows : List (Issue × Nat) :=
  let ranked := Truth.select (boardWhere fold db projectId q columns) db.issues.rows
  (orderBy InColumns (ranked.filter fun issue =>
      decide ((rowNumber (·.statusId) Before ranked issue : Int) ≤ columnLimit))).map fun issue =>
    (issue, partitionTotal (·.statusId) ranked issue)

/-- The rows of the query of `board_lanes`. -/
def laneRows (group : String) : List (LaneMeta × Issue) :=
  match groupsOf fold db q group with
  | none => []
  | some groups =>
    let rows := db.issues.rows.flatMap fun issue => (groups issue).map fun key => (issue, key)
    let ranked := Truth.select
      (fun row : Issue × String => boardWhere fold db projectId q columns row.1) rows
    (orderBy InLanes (ranked.filter fun row =>
        decide ((rowNumber (fun row : Issue × String => (row.2, row.1.statusId))
          (fun a b => Before a.1 b.1) ranked row : Int) ≤ columnLimit))).map fun row =>
      (⟨row.2, row.1.statusId,
        partitionTotal (fun row : Issue × String => (row.2, row.1.statusId)) ranked row,
        partitionTotal (·.2) ranked row⟩, row.1)

theorem boardColumns_eq : boardColumns fold db projectId q columns columnLimit =
    groupColumns (columnRows fold db projectId q columns columnLimit) := by
  unfold boardColumns groupColumns columnRows
  rw [List.map_map]
  simp only [Function.comp_def, List.map_id']

theorem boardLanes_eq (group : String) :
    boardLanes fold db projectId q group columns columnLimit =
      groupLanes (laneRows fold db projectId q columns columnLimit group) := by
  rw [groupLanes_eq]
  unfold boardLanes laneRows
  cases groupsOf fold db q group with
  | none => rfl
  | some groups =>
    dsimp only
    rw [List.foldl_map]
    rfl

/-- The window of a column is the same for all of its rows. -/
theorem columnRows_agree :
    ColumnsAgree (columnRows fold db projectId q columns columnLimit) := by
  intro a ha b hb hstatus
  obtain ⟨issue, _, rfl⟩ := List.mem_map.mp ha
  obtain ⟨other, _, rfl⟩ := List.mem_map.mp hb
  exact partitionTotal_congr hstatus _

theorem laneRows_agree (group : String) :
    LanesAgree (laneRows fold db projectId q columns columnLimit group) := by
  unfold laneRows
  cases groupsOf fold db q group with
  | none => exact List.forall_mem_nil _
  | some groups =>
    intro a ha b hb hgrp
    obtain ⟨row, _, rfl⟩ := List.mem_map.mp ha
    obtain ⟨other, _, rfl⟩ := List.mem_map.mp hb
    have hkey : row.2 = other.2 := hgrp
    constructor
    · dsimp only
      apply partitionTotal_congr
      exact hkey
    · intro hstatus
      dsimp only
      apply partitionTotal_congr
      exact Prod.ext hkey hstatus

end

/-- Grouping loses and duplicates nothing: the boards are the loops over the rows of their
queries, rows of one key carry one total there, and from any such rows the loops make columns
and lanes that keep every row. -/
theorem grouping_keeps_rows :
    (∀ rows, ColumnsAgree rows → KeepsColumns rows (groupColumns rows)) ∧
    (∀ rows, LanesAgree rows → KeepsLanes rows (groupLanes rows)) ∧
    ∀ fold db projectId q columns columnLimit,
      (ColumnsAgree (columnRows fold db projectId q columns columnLimit) ∧
        boardColumns fold db projectId q columns columnLimit =
          groupColumns (columnRows fold db projectId q columns columnLimit)) ∧
      ∀ group, LanesAgree (laneRows fold db projectId q columns columnLimit group) ∧
        boardLanes fold db projectId q group columns columnLimit =
          groupLanes (laneRows fold db projectId q columns columnLimit group) := by
  refine ⟨fun rows => groupColumns_keeps, fun rows => groupLanes_keeps, ?_⟩
  intro fold db projectId q columns columnLimit
  refine ⟨⟨?_, ?_⟩, fun group => ⟨?_, ?_⟩⟩
  · exact columnRows_agree fold db projectId q columns columnLimit
  · exact boardColumns_eq fold db projectId q columns columnLimit
  · exact laneRows_agree fold db projectId q columns columnLimit group
  · exact boardLanes_eq fold db projectId q columns columnLimit group

end IntelliPilot.Filters
