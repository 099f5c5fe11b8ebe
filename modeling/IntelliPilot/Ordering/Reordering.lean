import IntelliPilot.Ordering.Ranks
import IntelliPilot.Taxonomy.Handlers
import Mathlib.Algebra.Order.Field.Rat
import Mathlib.Tactic.Linarith

/-! # Moving a row of a list

`reorder` moves an epic or an issue and `move_item` an item of a taxonomy. Both
write one rank where `rank_between` finds one, and number the whole list
otherwise. The rank is computed from the rows the request names only.
-/

namespace IntelliPilot.Ordering

open Rows
open Imports (Uuid TaxonomyKind)
open Taxonomy (Arithmetic)

abbrev Row (F : Type) := Ranked Uuid F

/-- `ReorderRequest`. -/
abbrev ReorderRequest := Taxonomy.MoveTaxonomyItemRequest

/-! ## Epics and issues -/

/-- A row of `epics` or of `issues`. -/
structure Entity (F : Type) where
  id : Uuid
  projectId : Uuid
  order : F
  deletedAt : Option Int
  deriving DecidableEq, Repr

abbrev Entities (F : Type) := Table fun row : Entity F => row.id

namespace Entities

variable {F : Type} (ar : Arithmetic F)

def isListed (projectId : Uuid) (row : Entity F) : Bool :=
  row.projectId == projectId && row.deletedAt.isNone

/-- `list_epics`, `list_issues`. -/
def list (projectId : Uuid) (rows : Entities F) : List (Entity F) :=
  (rows.rows.filter (isListed projectId)).mergeSort fun a b => ar.le a.order b.order

/-- `UPDATE … SET "order" = $3 WHERE id = $1 AND project_id = $2`. -/
def update (projectId id : Uuid) (rank : F) (rows : Entities F) : Bool × Entities F :=
  let hit := fun row : Entity F => row.id == id && row.projectId == projectId
  (rows.rows.any hit, rows.modify hit (fun row => { row with order := rank }) fun _ => rfl)

/-- The transaction of `set_order`. -/
def renormalize (projectId : Uuid) (order : List Uuid) (rows : Entities F) : Entities F :=
  (order.zip (ar.normalizedRanks order.length)).foldl
    (fun rows rank => (rows.update projectId rank.1 rank.2).2) rows

/-- `set_order`. -/
def setOrder (projectId id : Uuid) (beforeOrder afterOrder : Option F) (order : List Uuid)
    (rows : Entities F) : Bool × Entities F :=
  match ar.rankBetween beforeOrder afterOrder with
  | some rank => rows.update projectId id rank
  | none => (true, rows.renormalize ar projectId order)

end Entities

inductive Status where
  | noContent
  | notFound
  | failed
  deriving DecidableEq, Repr

variable {F : Type}

/-- The order for the renormalization: the row goes after the one or before the
other, or to the end. -/
def targetOrder (ids : List Uuid) (id : Uuid) (req : ReorderRequest) : List Uuid :=
  let order := ids.filter (· != id)
  let position :=
    match req.beforeId, req.afterId with
    | some before, _ => ((order.findIdx? (· == before)).map (· + 1)).getD order.length
    | none, some after => (order.findIdx? (· == after)).getD 0
    | none, none => order.length
  order.insertIdx (min position order.length) id

def orderIn (items : List (Row F)) (target : Option Uuid) : Option F :=
  target.bind fun target => (items.find? (·.key == target)).map (·.rank)

/-- `reorder`, for the rows of one of the two tables. -/
def reorder (ar : Arithmetic F) (projectId id : Uuid) (req : ReorderRequest)
    (items : List (Row F)) (rows : Entities F) : Status × Entities F :=
  if items.any (·.key == id) then
    let order := targetOrder (items.map (·.key)) id req
    match rows.setOrder ar projectId id (orderIn items req.beforeId) (orderIn items req.afterId)
        order with
    | (true, rows) => (.noContent, rows)
    | (false, rows) => (.notFound, rows)
  else (.notFound, rows)

/-! ## The lists -/

/-- The lists whose rows can be moved. -/
inductive Listing where
  | epics
  | issues
  | items (kind : TaxonomyKind)
  deriving DecidableEq, Repr

structure Db (F : Type) where
  epics : Entities F
  issues : Entities F
  taxonomy : Taxonomy.Db F

/-- `TaxonomyKind::as_str`. -/
def kindText : TaxonomyKind → String
  | .issueStatus => "issue_status"
  | .issueType => "issue_type"
  | .priority => "priority"
  | .size => "size"

def Db.list (ar : Arithmetic F) (projectId : Uuid) (db : Db F) : Listing → List (Row F)
  | .epics => (db.epics.list ar projectId).map fun row => ⟨row.id, row.order⟩
  | .issues => (db.issues.list ar projectId).map fun row => ⟨row.id, row.order⟩
  | .items kind => (db.taxonomy.list ar projectId kind).map fun row => ⟨row.id, row.order⟩

/-- `move_item` of `api::taxonomy`, whose statements succeed. -/
def moveItem (ar : Arithmetic F) (projectId : Uuid) (kind : TaxonomyKind) (id : Uuid)
    (req : ReorderRequest) (db : Taxonomy.Db F) : Status × Taxonomy.Db F :=
  match Statement.evaluated (Taxonomy.Stmt.exec ar) {}
      (Taxonomy.moveItem ar ⟨projectId, true⟩ (kindText kind) (some id) (.valid req)) db with
  | (.ok _, db) => (.noContent, db)
  | (.error problem, db) => (if problem = Http.notFound then .notFound else .failed, db)

/-- A request to move a row of a list: `move_epic`, `move_issue` past the permission, or
`move_item`. -/
def Db.move (ar : Arithmetic F) (projectId id : Uuid) (req : ReorderRequest) (db : Db F) :
    Listing → Status × Db F
  | .epics =>
      let (status, epics) := reorder ar projectId id req (db.list ar projectId .epics) db.epics
      (status, { db with epics := epics })
  | .issues =>
      let (status, issues) := reorder ar projectId id req (db.list ar projectId .issues) db.issues
      (status, { db with issues := issues })
  | .items kind =>
      let (status, taxonomy) := moveItem ar projectId kind id req db.taxonomy
      (status, { db with taxonomy := taxonomy })

/-- The other path, whether or not a rank is found. -/
def Db.renormalize (ar : Arithmetic F) (projectId id : Uuid) (req : ReorderRequest) (db : Db F)
    (listing : Listing) : Db F :=
  let order := targetOrder ((db.list ar projectId listing).map (·.key)) id req
  match listing with
  | .epics => { db with epics := db.epics.renormalize ar projectId order }
  | .issues => { db with issues := db.issues.renormalize ar projectId order }
  | .items kind =>
      { db with
        taxonomy := db.taxonomy.setOrders projectId kind
          (order.zip (ar.normalizedRanks order.length)) }

/-! ## What is written -/

section Written

/-- Rational ranks, whose halves are rounded in some way. -/
def rationals (half : ℚ → ℚ) : Arithmetic ℚ where
  ofNat n := n
  add := (· + ·)
  sub := (· - ·)
  half := half
  le a b := decide (a ≤ b)
  lt a b := decide (a < b)

variable {half : ℚ → ℚ} {projectId id : Uuid} {req : ReorderRequest}

def Entity.view (row : Entity ℚ) : Row ℚ := ⟨row.id, row.order⟩

def itemView (row : Taxonomy.Item ℚ) : Row ℚ := ⟨row.id, row.order⟩

def Entities.shown (projectId : Uuid) (rows : Entities ℚ) : List (Row ℚ) :=
  (rows.rows.filter (isListed projectId)).map Entity.view

def shownItems (projectId : Uuid) (kind : TaxonomyKind) (db : Taxonomy.Db ℚ) : List (Row ℚ) :=
  (db.items.rows.filter (Taxonomy.Db.inKind projectId kind)).map itemView

/-- The rows of a list, in no order. -/
def Db.shown (projectId : Uuid) (db : Db ℚ) : Listing → List (Row ℚ)
  | .epics => db.epics.shown projectId
  | .issues => db.issues.shown projectId
  | .items kind => shownItems projectId kind db.taxonomy

theorem list_eq (db : Db ℚ) (listing : Listing) :
    db.list (rationals half) projectId listing =
      ordered Ranked.rank (db.shown projectId listing) := by
  cases listing with
  | epics | issues | items kind => exact List.map_mergeSort fun _ _ _ _ => rfl

theorem shown_update (k : Uuid) (r : ℚ) (rows : Entities ℚ) :
    (rows.update projectId k r).2.shown projectId =
      (rows.shown projectId).map (Ranked.setRank k r) := by
  apply Ranked.shown_updateWhere
  · intro row hrow
    simp only [Entities.isListed, Bool.and_eq_true, beq_iff_eq] at hrow
    simp [Entity.view, hrow.1]
  · exact fun _ => rfl
  · exact fun _ => rfl

theorem shown_renormalize (order : List Uuid) (rows : Entities ℚ) :
    (rows.renormalize (rationals half) projectId order).shown projectId =
      (rows.shown projectId).map
        (Ranked.setRanks (order.zip ((rationals half).normalizedRanks order.length))) :=
  @Ranked.shown_foldl Uuid ℚ _ (Entities ℚ) (Entities.shown projectId)
    (fun k r rows => (rows.update projectId k r).2) shown_update _ rows

theorem shown_setOrder (kind : TaxonomyKind) (k : Uuid) (r : ℚ) (db : Taxonomy.Db ℚ) :
    shownItems projectId kind (db.setOrder projectId kind k r).2 =
      (shownItems projectId kind db).map (Ranked.setRank k r) := by
  unfold Taxonomy.Db.setOrder
  cases hfind : db.find projectId kind k with
  | none =>
    symm
    apply Ranked.map_setRank_of_ne
    intro row hrow heq
    obtain ⟨item, hitem, rfl⟩ := List.mem_map.mp hrow
    obtain ⟨hmem, hkind⟩ := List.mem_filter.mp hitem
    have hfound : db.items.find? k = some item := Table.find?_eq_some_iff.mpr ⟨hmem, heq⟩
    rw [Taxonomy.Db.find, hfound, Option.filter_eq_none_iff] at hfind
    exact hfind item rfl hkind
  | some found =>
    apply Ranked.shown_updateWhere
    · intro row hrow
      simp [itemView]
    · exact fun _ => rfl
    · exact fun _ => rfl

theorem shown_setOrders (kind : TaxonomyKind) (ranks : List (Uuid × ℚ)) (db : Taxonomy.Db ℚ) :
    shownItems projectId kind (db.setOrders projectId kind ranks) =
      (shownItems projectId kind db).map (Ranked.setRanks ranks) :=
  @Ranked.shown_foldl Uuid ℚ _ (Taxonomy.Db ℚ) (shownItems projectId kind)
    (fun k r db => (db.setOrder projectId kind k r).2) (shown_setOrder kind) _ db

/-! ## One of two paths -/

theorem listed_update {rows : Entities ℚ} {rank : ℚ}
    (hlisted : ∃ row ∈ rows.shown projectId, row.key = id) :
    (rows.update projectId id rank).1 = true := by
  obtain ⟨row, hrow, rfl⟩ := hlisted
  obtain ⟨entity, hentity, rfl⟩ := List.mem_map.mp hrow
  obtain ⟨hmem, hlists⟩ := List.mem_filter.mp hentity
  simp only [Entities.isListed, Bool.and_eq_true, beq_iff_eq] at hlists
  apply List.any_eq_true.mpr
  exact ⟨entity, hmem, by simp [Entity.view, hlists.1]⟩

/-- A row that is listed is moved by one rank, or with the whole list. -/
theorem reorder_eq {items : List (Row ℚ)} {rows : Entities ℚ}
    (hitem : ∃ row ∈ items, row.key = id)
    (hlisted : ∃ row ∈ rows.shown projectId, row.key = id) :
    reorder (rationals half) projectId id req items rows =
      (.noContent,
        match (rationals half).rankBetween (orderIn items req.beforeId)
            (orderIn items req.afterId) with
        | some rank => (rows.update projectId id rank).2
        | none => rows.renormalize (rationals half) projectId
            (targetOrder (items.map (·.key)) id req)) := by
  obtain ⟨row, hrow, hkey⟩ := hitem
  have hany : items.any (·.key == id) = true := List.any_eq_true.mpr ⟨row, hrow, by simp [hkey]⟩
  simp only [reorder, if_pos hany, Entities.setOrder]
  cases (rationals half).rankBetween (orderIn items req.beforeId) (orderIn items req.afterId) with
  | none => rfl
  | some rank =>
    have hdone : (rows.update projectId id rank).1 = true := listed_update hlisted
    cases hupdate : rows.update projectId id rank with
    | mk done rows' =>
      rw [hupdate] at hdone
      simp only at hdone
      subst hdone
      simp only [hupdate]

theorem parse_kindText (kind : TaxonomyKind) : Taxonomy.Kind.parse (kindText kind) = some kind := by
  cases kind <;> rfl

theorem reordered_eq (items : List (Taxonomy.Item ℚ)) :
    Taxonomy.reordered items id req = targetOrder ((items.map itemView).map (·.key)) id req := by
  rw [List.map_map]
  rfl

/-- An item is moved by one rank, or with the whole list. -/
theorem moveItem_eq {kind : TaxonomyKind} {db : Taxonomy.Db ℚ} {items : List (Row ℚ)}
    (hitems : items = (db.list (rationals half) projectId kind).map itemView)
    (hitem : ∃ row ∈ items, row.key = id) :
    moveItem (rationals half) projectId kind id req db =
      (.noContent,
        match (rationals half).rankBetween (orderIn items req.beforeId)
            (orderIn items req.afterId) with
        | some rank => (db.setOrder projectId kind id rank).2
        | none =>
          let order := targetOrder (items.map (·.key)) id req
          db.setOrders projectId kind
            (order.zip ((rationals half).normalizedRanks order.length))) := by
  subst hitems
  obtain ⟨row, hrow, hkey⟩ := hitem
  obtain ⟨item, hitem, rfl⟩ := List.mem_map.mp hrow
  have hany : (db.list (rationals half) projectId kind).any (·.id == id) = true :=
    List.any_eq_true.mpr ⟨item, hitem, by simpa [itemView] using hkey⟩
  have hmem := List.mem_filter.mp (List.mem_mergeSort.mp hitem)
  have hfind : db.find projectId kind id = some item := by
    rw [Taxonomy.Db.find, Option.filter_eq_some_iff]
    exact ⟨Table.find?_eq_some_iff.mpr ⟨hmem.1, hkey⟩, hmem.2⟩
  have hwait : ∀ db : Taxonomy.Db ℚ, db.wait 0 = db := by
    intro db
    simp [Taxonomy.Db.wait]
  have horder : ∀ target : Option Uuid,
      orderIn ((db.list (rationals half) projectId kind).map itemView) target =
        Taxonomy.orderOf (db.list (rationals half) projectId kind) target := by
    intro target
    cases target with
    | none => rfl
    | some target =>
      simp only [orderIn, Taxonomy.orderOf, Option.bind_some, List.find?_map, Option.map_map]
      rfl
  unfold moveItem Taxonomy.moveItem
  simp only [Statement.evaluated_bind, Statement.evaluated_refuseUnless,
    Statement.evaluated_given, Statement.evaluated_orRefuse, parse_kindText, Taxonomy.found,
    Taxonomy.parseBody, Taxonomy.Stmt.exec, Taxonomy.Stmt.effect, hwait, Except.mapError, hany,
    Option.elim_some, Bool.false_eq_true, if_true, if_false, horder]
  cases (rationals half).rankBetween
      (Taxonomy.orderOf (db.list (rationals half) projectId kind) req.beforeId)
      (Taxonomy.orderOf (db.list (rationals half) projectId kind) req.afterId) with
  | none =>
    rw [reordered_eq]
    simp only [Statement.evaluated_bind, Statement.evaluated_orRefuse, Statement.evaluated_pure,
      Taxonomy.Stmt.exec, Taxonomy.Stmt.effect, hwait, Except.mapError, Bool.false_eq_true,
      if_false]
  | some rank =>
    have hdone : (db.setOrder projectId kind id rank).1 = true := by
      rw [Taxonomy.Db.setOrder, hfind]
    simp only [Statement.evaluated_bind, Statement.evaluated_orRefuse, Statement.evaluated_pure,
      Statement.evaluated_refuseUnless, Taxonomy.Stmt.exec, Taxonomy.Stmt.effect, hwait,
      Except.mapError, Bool.false_eq_true, if_false, hdone, if_true]

/-- The list after a move, by the rows it showed. -/
theorem move_shown (db : Db ℚ) (listing : Listing)
    (hid : ∃ row ∈ db.shown projectId listing, row.key = id) :
    ∃ db', db.move (rationals half) projectId id req listing = (.noContent, db') ∧
      match (rationals half).rankBetween
          (orderIn (db.list (rationals half) projectId listing) req.beforeId)
          (orderIn (db.list (rationals half) projectId listing) req.afterId) with
      | some rank => db'.shown projectId listing =
          (db.shown projectId listing).map (Ranked.setRank id rank)
      | none => db' = db.renormalize (rationals half) projectId id req listing := by
  have hlisted : ∃ row ∈ db.list (rationals half) projectId listing, row.key = id := by
    obtain ⟨row, hrow, hkey⟩ := hid
    rw [list_eq]
    exact ⟨row, (ordered_perm _ _).mem_iff.mpr hrow, hkey⟩
  cases listing with
  | epics =>
    have hmove := @reorder_eq half projectId id req _ db.epics hlisted hid
    refine ⟨_, by rw [Db.move, hmove], ?_⟩
    split
    · exact shown_update id _ db.epics
    · rfl
  | issues =>
    have hmove := @reorder_eq half projectId id req _ db.issues hlisted hid
    refine ⟨_, by rw [Db.move, hmove], ?_⟩
    split
    · exact shown_update id _ db.issues
    · rfl
  | items kind =>
    have hmove := @moveItem_eq half projectId id req kind db.taxonomy
      (db.list (rationals half) projectId (.items kind)) rfl hlisted
    refine ⟨_, by rw [Db.move, hmove], ?_⟩
    split
    · exact shown_setOrder kind id _ db.taxonomy
    · rfl

theorem renormalize_shown (db : Db ℚ) (listing : Listing) :
    (db.renormalize (rationals half) projectId id req listing).shown projectId listing =
      let order := targetOrder ((db.list (rationals half) projectId listing).map (·.key)) id req
      (db.shown projectId listing).map
        (Ranked.setRanks (order.zip ((rationals half).normalizedRanks order.length))) := by
  cases listing with
  | epics => exact shown_renormalize _ db.epics
  | issues => exact shown_renormalize _ db.issues
  | items kind => exact shown_setOrders kind _ db.taxonomy

end Written

end IntelliPilot.Ordering
