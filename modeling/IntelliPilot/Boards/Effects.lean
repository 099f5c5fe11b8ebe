import IntelliPilot.Boards.Handlers

/-! # What a request does to the boards

A request leaves the tables as they were, or it makes one of five changes; for
an update, the change says which checks it has passed.
-/

namespace IntelliPilot.Boards

open Statement
open Http (Problem internal)
open Projects (Permission ProjectContext)

/-! ## Lookups -/

namespace Tables

variable {s : Tables} {projectId : Uuid}

theorem get_eq_some_iff {id : Uuid} {board : Board} :
    s.get projectId id = some board ↔
      board ∈ s.boards.table.rows ∧ board.id = id ∧ board.projectId = projectId := by
  rw [get, Option.filter_eq_some_iff, Table.find?_eq_some_iff, beq_iff_eq, and_assoc]

/-- The key of a board leads to it. -/
theorem getByKey_eq_some_iff {key : String} {board : Board} :
    s.getByKey projectId key = some board ↔
      board ∈ s.boards.table.rows ∧ board.projectId = projectId ∧ board.key = key := by
  have hfound : ∀ row, s.getByKey projectId key = some row →
      row ∈ s.boards.table.rows ∧ row.projectId = projectId ∧ row.key = key := by
    intro row hrow
    have hcolumns := List.find?_some hrow
    rw [Bool.and_eq_true, beq_iff_eq, beq_iff_eq] at hcolumns
    exact ⟨List.mem_of_find?_eq_some hrow, hcolumns⟩
  constructor
  · exact hfound board
  · rintro ⟨hboard, hproject, hkey⟩
    cases hfind : s.getByKey projectId key with
    | none =>
      have hnone := List.find?_eq_none.mp hfind board hboard
      exact absurd hnone (by simp [hproject, hkey])
    | some row =>
      obtain ⟨hrow, hproject', hkey'⟩ := hfound row hfind
      have hid := s.boards.distinct row hrow board hboard (hproject'.trans hproject.symm)
        (hkey'.trans hkey.symm)
      rw [Rows.eq_of_nodup_map s.boards.table.nodup hrow hboard hid]

theorem getByKey_eq_none_iff {key : String} :
    s.getByKey projectId key = none ↔
      ∀ row ∈ s.boards.table.rows, row.projectId = projectId → row.key ≠ key := by
  rw [getByKey, List.find?_eq_none]
  simp

/-- The board that a key stands for: the one that has it, else the one that had it last. -/
def resolve (s : Tables) (projectId : Uuid) (key : String) : Option Board :=
  match s.getByKey projectId key with
  | some board => some board
  | none => (s.history.find? (projectId, key)).bind fun entry => s.get projectId entry.boardId

end Tables

/-! ## What a request does -/

/-- The result of a handler run alone. -/
abbrev evaluate {α : Type} (faults : Faults) (p : Handler α) (s : Tables) :
    Except Problem α × Tables :=
  evaluated exec faults p s

/-- The statements that only read. -/
def Reads {α : Type} : Stmt α → Prop
  | .keyTaken _ _ => True
  | .list _ _ => True
  | .get _ _ => True
  | .getByKey _ _ => True
  | .findIdByHistoricKey _ _ => True
  | .getLastOpened _ _ => True
  | _ => False

theorem exec_reads {α : Type} {stmt : Stmt α} (h : Reads stmt) (faults : Faults) (s : Tables) :
    (exec stmt faults s).2 = s := by
  cases stmt with
  | keyTaken projectId key | list projectId userId | get projectId id | getByKey projectId key
  | findIdByHistoricKey projectId key
  | getLastOpened projectId userId => simp only [exec, attempt]; split <;> rfl
  | create new | update projectId id edit | recordKeyHistory projectId boardId oldKey
  | deleteKeyHistory ids | delete projectId id
  | setLastOpened projectId userId boardId => exact h.elim

/-- A program of reads leaves the tables alone. -/
theorem evaluate_reads {α : Type} {faults : Faults} {p : Handler α} (hp : p.run.Only Reads)
    (s : Tables) : (evaluate faults p s).2 = s :=
  evaluated_reads (fun _ choice s hstmt => exec_reads hstmt choice s) hp s

theorem candidates_reads (projectId : Uuid) (base : List Char) (turns n : Nat) :
    (candidates projectId base turns n).run.Only Reads := by
  induction turns generalizing n with
  | zero => trivial
  | succ turns ih =>
    apply only_run_bind (only_orRefuse trivial _)
    intro taken
    cases taken with
    | false => trivial
    | true => exact ih _

/-- The checks an update makes before it writes, and what it is about to write. -/
structure Accepted (s : Tables) (ctx : ProjectContext) (segment : String)
    (body : Option UpdateBoardRequest) (board : Board) (edit : Edit) : Prop where
  views : ctx.has .projectView = true
  named : parseUuid segment = some board.id
  there : s.get ctx.projectId board.id = some board
  writable : mayWrite ctx .boardSharedModify board = .ok board
  asked : ∃ req, parse UpdateBoardRequest.validate body = .ok req ∧
    newKey req board = .ok edit.key ∧ edit = ⟨req.name, edit.key, req.color, req.config⟩
  free : edit.key ≠ board.key → s.boards.takenBeside ctx.projectId edit.key (some board.id) = false

/-- The tables after a rename whose old key is recorded, or not. -/
def renamed (s : Tables) (boards : BoardTable) (projectId : Uuid) (board : Board) (edit : Edit)
    (faults : Faults) : Tables :=
  if edit.key = board.key ∨ faults.recordKeyHistory = true then { s with boards }
  else { s with boards }.record projectId board.id board.key

/-- What a request can do to the tables. -/
inductive Effect (step : Step) (s : Tables) : Tables → Prop
  | unchanged : Effect step s s
  | created (new : NewBoard) (boards : BoardTable) (hnew : s.boards.insert? new = some boards)
      (hkey : new.key = "board" ∨ ∃ name n, new.key = candidate (keyBase name) n) :
      Effect step s { s with boards }
  | updated (ctx : ProjectContext) (segment : String) (body : Option UpdateBoardRequest)
      (board : Board) (edit : Edit) (boards : BoardTable)
      (hrequest : step.request = .update ctx segment body)
      (hboard : Accepted s ctx segment body board edit)
      (hset : s.boards.set? ctx.projectId board.id edit = some boards)
      (hfaults : step.faults.get = false ∧
        (edit.key ≠ board.key → step.faults.getByKey = false) ∧ step.faults.update = false) :
      Effect step s (renamed s boards ctx.projectId board edit step.faults)
  | deleted (projectId id : Uuid) (hboard : (s.get projectId id).isSome = true) :
      Effect step s (s.erase projectId id)
  | pruned (ids : List Uuid) (hrequest : step.request = .pruneKeyHistory ids) :
      Effect step s { s with history := s.history.erase fun entry => ids.contains entry.id }
  | opened (lastOpened : Table LastOpened.place) : Effect step s { s with lastOpened }

section Effects

variable {faults : Faults} {s : Tables}

theorem evaluate_ends (p : Handler Response) :
    evaluate faults (ends p) s = ((evaluate faults p s).1.map some, (evaluate faults p s).2) := by
  unfold ends evaluate
  rw [evaluated_bind]
  cases evaluated exec faults p s with
  | mk result s' =>
    cases result with
    | error problem => rfl
    | ok answer => rfl

variable {step : Step}

theorem insert_effect {new : NewBoard}
    (hkey : new.key = "board" ∨ ∃ name n, new.key = candidate (keyBase name) n) :
    Effect step s (exec (.create new) faults s).2 := by
  unfold exec
  dsimp only
  cases hinsert : s.boards.insert? new with
  | none => exact .unchanged
  | some boards =>
    dsimp only
    unfold attempt
    split
    · exact .unchanged
    · exact .created new boards hinsert hkey

variable {α : Type}

theorem evaluate_bind_snd {β : Type} {p : Handler α} {f : α → Handler β}
    (hf : ∀ a, (f a).run.Only Reads) :
    (evaluate faults (p >>= f) s).2 = (evaluate faults p s).2 := by
  unfold evaluate
  rw [evaluated_bind]
  cases hp : evaluated exec faults p s with
  | mk result s' =>
    cases result with
    | error problem => rfl
    | ok a => exact evaluate_reads (hf a) s'

theorem only_require (ctx : ProjectContext) (permission : Permission) :
    (require ctx permission).run.Only Reads := only_refuseUnless _ _

theorem only_found (value : Option α) : (found value).run.Only Reads := only_given _

theorem loadForWrite_reads (ctx : ProjectContext) (id : Uuid) (permission : Permission) :
    (loadForWrite ctx id permission).run.Only Reads := by
  apply only_run_bind (only_orRefuse trivial _)
  exact fun _ => only_given _

theorem refuseTaken_reads (projectId id : Uuid) (board : Board) (key : String) :
    (refuseTaken projectId id board key).run.Only Reads := by
  unfold refuseTaken
  split
  · trivial
  · apply only_run_bind (only_orRefuse trivial _)
    exact fun _ => only_refuseUnless _ _

variable {projectId : Uuid}

/-- A key that is generated is a candidate that was free. -/
theorem candidates_some {base : List Char} {turns n : Nat} {key : String} (hn : n ≤ maxCandidate)
    (h : (evaluate faults (candidates projectId base turns n) s).1 = .ok (some key)) :
    s.boards.takenBeside projectId key none = false ∧
      ∃ m, m ≤ maxCandidate ∧ key = candidate base m := by
  induction turns generalizing n with
  | zero => cases h
  | succ turns ih =>
    unfold candidates evaluate at h
    rw [evaluated_bind, evaluated_orRefuse] at h
    simp only [exec, attempt] at h
    cases hfails : faults.keyTaken (candidate base n) with
    | true =>
      rw [hfails] at h
      cases h
    | false =>
      rw [hfails] at h
      cases htaken : s.boards.takenBeside projectId (candidate base n) none with
      | false =>
        rw [htaken] at h
        cases h
        exact ⟨htaken, n, hn, rfl⟩
      | true =>
        rw [htaken] at h
        exact ih (Nat.min_le_right _ _) h

/-- What is read first changes nothing. -/
theorem effect_bind {β : Type} {p : Handler α} {f : α → Handler β} (hp : p.run.Only Reads)
    (hf : ∀ a, evaluate faults p s = (.ok a, s) → Effect step s (evaluate faults (f a) s).2) :
    Effect step s (evaluate faults (p >>= f) s).2 := by
  rcases evaluated_bind_reads f (evaluate_reads hp s) with h | ⟨a, ha, h⟩
  · rw [evaluate, h]
    exact .unchanged
  · rw [evaluate, h]
    exact hf a ha

/-- What is decided after the only write does not undo it. -/
theorem effect_bind_last {β : Type} {stmt : Stmt (Except DbError α)} {problem : Problem}
    {f : α → Handler β} (hf : ∀ a, (f a).run.Only Reads)
    (hstmt : Effect step s (exec stmt faults s).2) :
    Effect step s (evaluate faults (orRefuse stmt problem >>= f) s).2 := by
  rw [evaluate_bind_snd hf]
  exact hstmt

theorem create_effect (turns : Nat) (ctx : ProjectContext) (body : Option CreateBoardRequest) :
    Effect step s (evaluate faults (create turns ctx body) s).2 := by
  apply effect_bind (only_require ctx .projectView)
  intro _ _
  apply effect_bind (only_given _)
  intro req _
  apply effect_bind (only_refuseUnless _ _)
  intro _ _
  apply effect_bind (candidates_reads _ _ turns 1)
  intro key hkey
  cases key with
  | none => exact .unchanged
  | some key =>
    obtain ⟨_, m, _, rfl⟩ := candidates_some (by decide) (congrArg Prod.fst hkey)
    exact effect_bind_last (fun _ => trivial) (insert_effect (Or.inr ⟨req.name, m, rfl⟩))

theorem evaluated_given_ok {result : Except Problem α} {a : α}
    (h : evaluate faults (given result) s = (.ok a, s)) : result = .ok a :=
  congrArg Prod.fst h

theorem evaluated_refuseUnless_ok {ok : Bool} {problem : Problem} {a : Unit}
    (h : evaluate faults (refuseUnless ok problem) s = (.ok a, s)) : ok = true := by
  cases ok with
  | true => rfl
  | false => cases h

variable {board : Board}

theorem loadForWrite_ok {ctx : ProjectContext} {id : Uuid} {permission : Permission}
    (h : evaluate faults (loadForWrite ctx id permission) s = (.ok board, s)) :
    faults.get = false ∧ s.get ctx.projectId id = some board ∧
      mayWrite ctx permission board = .ok board := by
  unfold loadForWrite evaluate at h
  rw [evaluated_bind, evaluated_orRefuse] at h
  simp only [exec, attempt] at h
  cases hfails : faults.get with
  | true =>
    rw [hfails] at h
    cases h
  | false =>
    rw [hfails] at h
    cases hget : s.get ctx.projectId id with
    | none =>
      rw [hget] at h
      cases h
    | some row =>
      rw [hget] at h
      have hmay : mayWrite ctx permission row = .ok board := evaluated_given_ok h
      have hsame : row = board := by
        unfold mayWrite at hmay
        split at hmay
        · split at hmay
          · exact Except.ok.inj hmay
          · cases hmay
        · split at hmay
          · exact Except.ok.inj hmay
          · cases hmay
      subst hsame
      exact ⟨rfl, rfl, hmay⟩

/-- A changed key that passes the check is the key of no other board. -/
theorem refuseTaken_ok {id : Uuid} {key : String} {a : Unit}
    (h : evaluate faults (refuseTaken projectId id board key) s = (.ok a, s))
    (hne : key ≠ board.key) :
    faults.getByKey = false ∧ s.boards.takenBeside projectId key (some id) = false := by
  unfold refuseTaken evaluate at h
  rw [if_neg hne, evaluated_bind, evaluated_orRefuse] at h
  simp only [exec, attempt] at h
  cases hfails : faults.getByKey with
  | true =>
    rw [hfails] at h
    cases h
  | false =>
    rw [hfails] at h
    refine ⟨rfl, ?_⟩
    have hother := evaluated_refuseUnless_ok h
    rw [BoardTable.takenBeside, List.any_eq_false]
    intro row hrow
    simp only [Bool.and_eq_true, beq_iff_eq, bne_iff_ne, ne_eq, Option.some.injEq, not_and,
      Decidable.not_not]
    rintro ⟨hproject, hkey⟩
    rw [Tables.getByKey_eq_some_iff.mpr ⟨hrow, hproject, hkey⟩] at hother
    have hid : row.id = id := by simpa using hother
    exact hid.symm

/-- The update, if the constraints and the database let it through, and the record of the old
key. -/
theorem evaluate_write {edit : Edit} (hget : s.get projectId board.id = some board) :
    evaluate faults (write projectId board.id board edit) s =
      match s.boards.set? projectId board.id edit, faults.update with
      | some boards, false =>
        (.ok (.updated (edit.row board)), renamed s boards projectId board edit faults)
      | _, _ => (.error internal, s) := by
  unfold write evaluate
  rw [evaluated_bind, evaluated_orRefuse]
  simp only [exec, hget]
  cases s.boards.set? projectId board.id edit with
  | none => rfl
  | some boards =>
    cases faults.update with
    | true => rfl
    | false =>
      simp only [attempt, Bool.false_eq_true, if_false, Except.mapError]
      rw [evaluated_bind]
      unfold found recordOldKey renamed
      rw [evaluated_given]
      simp only [Option.elim_some]
      by_cases hkey : edit.key = board.key
      · rw [if_pos hkey, if_pos (Or.inl hkey)]
        rfl
      · rw [if_neg hkey]
        cases hrecord : faults.recordKeyHistory with
        | true =>
          rw [if_pos (Or.inr rfl)]
          show (_, (exec _ faults _).2) = _
          simp only [exec, attempt, hrecord, if_true]
        | false =>
          rw [if_neg (by simp [hkey])]
          show (_, (exec _ faults _).2) = _
          simp only [exec, attempt, hrecord, Bool.false_eq_true, if_false]

theorem found_ok {value : Option α} {a : α} (h : evaluate faults (found value) s = (.ok a, s)) :
    value = some a := by
  have hfound := evaluated_given_ok h
  cases value with
  | none => cases hfound
  | some b => exact congrArg some (Except.ok.inj hfound)

theorem update_effect {ctx : ProjectContext} {segment : String} {body : Option UpdateBoardRequest}
    (hrequest : step.request = .update ctx segment body) :
    Effect step s (evaluate step.faults (update ctx segment body) s).2 := by
  apply effect_bind (only_require ctx .projectView)
  intro _ hview
  apply effect_bind (only_found _)
  intro id hid
  apply effect_bind (only_given _)
  intro req hreq
  apply effect_bind (loadForWrite_reads _ _ _)
  intro board hboard
  apply effect_bind (only_given _)
  intro key hkey
  apply effect_bind (refuseTaken_reads _ _ _ _)
  intro _ hfree
  obtain ⟨hfault, hget, hmay⟩ := loadForWrite_ok hboard
  obtain rfl : board.id = id := (Tables.get_eq_some_iff.mp hget).2.1
  have haccepted : Accepted s ctx segment body board ⟨req.name, key, req.color, req.config⟩ :=
    ⟨evaluated_refuseUnless_ok hview, found_ok hid, hget, hmay,
      ⟨req, evaluated_given_ok hreq, evaluated_given_ok hkey, rfl⟩,
      fun hne => (refuseTaken_ok hfree hne).2⟩
  rw [evaluate_write hget]
  split
  · rename_i boards hset hupdate
    exact .updated ctx segment body board _ boards hrequest haccepted hset
      ⟨hfault, fun hne => (refuseTaken_ok hfree hne).1, hupdate⟩
  · exact .unchanged

theorem delete_effect (ctx : ProjectContext) (segment : String) :
    Effect step s (evaluate faults (delete ctx segment) s).2 := by
  apply effect_bind (only_require ctx .projectView)
  intro _ _
  apply effect_bind (only_found _)
  intro id _
  apply effect_bind (loadForWrite_reads _ _ _)
  intro _ _
  apply effect_bind_last
  · intro deleted
    cases deleted with
    | true => trivial
    | false => trivial
  · simp only [exec, attempt]
    split
    · exact .unchanged
    · dsimp only
      split
      · rename_i hboard
        exact .deleted ctx.projectId id hboard
      · exact .unchanged

theorem setLastOpened_effect (ctx : ProjectContext) (segment : String) :
    Effect step s (evaluate faults (setLastOpened ctx segment) s).2 := by
  apply effect_bind (only_require ctx .projectView)
  intro _ _
  apply effect_bind (only_found _)
  intro id _
  apply effect_bind_last
  · exact fun _ => trivial
  · simp only [exec, attempt]
    split
    · exact .unchanged
    · split
      · exact .unchanged
      · exact .opened _

theorem pruneKeyHistory_effect {ids : List Uuid} (hrequest : step.request = .pruneKeyHistory ids) :
    Effect step s (evaluate faults (pruneKeyHistory ids) s).2 := by
  unfold pruneKeyHistory
  split
  · exact .unchanged
  · apply effect_bind_last
    · exact fun _ => trivial
    · simp only [exec, attempt]
      split
      · exact .unchanged
      · exact .pruned ids hrequest

theorem findBoard_reads (projectId : Uuid) (segment : String) :
    (findBoard projectId segment).run.Only Reads := by
  unfold findBoard
  split
  · exact only_orRefuse trivial _
  · apply only_run_bind (only_orRefuse trivial _)
    intro board
    cases board with
    | some board => trivial
    | none =>
      apply only_run_bind (only_orRefuse trivial _)
      intro id
      cases id with
      | some id => exact only_orRefuse trivial _
      | none => trivial

theorem get_reads (ctx : ProjectContext) (segment : String) : (get ctx segment).run.Only Reads := by
  apply only_run_bind (only_require ctx .projectView)
  intro _
  apply only_run_bind (findBoard_reads _ _)
  intro board
  exact only_given _

/-- What a request does to the tables. -/
theorem perform_effect (step : Step) (s : Tables) : Effect step s (perform step s).2 := by
  show Effect step s (evaluate step.faults (handler maxCandidate step.request) s).2
  cases hrequest : step.request with
  | seedBoard projectId ownerId =>
    rw [handler, evaluate_ends]
    exact effect_bind_last (fun _ => trivial) (insert_effect (Or.inl rfl))
  | list ctx =>
    rw [handler, evaluate_ends]
    apply effect_bind (only_require ctx .projectView)
    intro _ _
    apply effect_bind (only_orRefuse trivial _)
    intro _ _
    exact .unchanged
  | create ctx body => exact create_effect _ ctx body
  | get ctx segment =>
    rw [handler, evaluate_ends]
    unfold getBoards
    split
    · apply effect_bind (only_require ctx .projectView)
      intro _ _
      apply effect_bind (only_orRefuse trivial _)
      intro _ _
      exact .unchanged
    · rw [evaluate_reads (get_reads ctx segment)]
      exact .unchanged
  | update ctx segment body =>
    rw [handler, evaluate_ends]
    exact update_effect hrequest
  | delete ctx segment =>
    rw [handler, evaluate_ends]
    exact delete_effect ctx segment
  | setLastOpened ctx segment =>
    rw [handler, evaluate_ends]
    exact setLastOpened_effect ctx segment
  | pruneKeyHistory ids =>
    rw [handler, evaluate_ends]
    exact pruneKeyHistory_effect hrequest

end Effects

/-! ## Rows after a request -/

theorem insert?_rows {boards boards' : BoardTable} {new : NewBoard}
    (h : boards.insert? new = some boards') :
    boards'.table.rows = boards.table.rows ++ [new.row boards.next] ∧
      boards'.next = boards.next + 1 := by
  unfold BoardTable.insert? at h
  split at h
  · rw [← Option.some.inj h]
    exact ⟨rfl, rfl⟩
  · cases h

theorem set?_rows {boards boards' : BoardTable} {projectId id : Uuid} {edit : Edit}
    (h : boards.set? projectId id edit = some boards') :
    boards'.table.rows = Rows.updateWhere (fun row => row.id == id && row.projectId == projectId)
      edit.row boards.table.rows ∧ boards'.next = boards.next := by
  unfold BoardTable.set? at h
  split at h
  · rw [← Option.some.inj h]
    exact ⟨rfl, rfl⟩
  · cases h

section Renamed

variable {s : Tables} {boards : BoardTable} {projectId : Uuid} {board : Board} {edit : Edit}
  {faults : Faults}

@[simp] theorem renamed_boards :
    (renamed s boards projectId board edit faults).boards = boards := by
  unfold renamed
  split
  · rfl
  · rfl

/-- The history after a rename: the old key leads to the board, if it is recorded. -/
theorem renamed_history (place : Uuid × String) :
    ((renamed s boards projectId board edit faults).history.find? place).map (·.boardId) =
      if edit.key ≠ board.key ∧ faults.recordKeyHistory = false ∧
          place = (projectId, board.key) then
        some board.id
      else (s.history.find? place).map (·.boardId) := by
  unfold renamed
  by_cases hunrecorded : edit.key = board.key ∨ faults.recordKeyHistory = true
  · rw [if_pos hunrecorded, if_neg]
    rintro ⟨hne, hrecorded, _⟩
    rcases hunrecorded with heq | hfails
    · exact hne heq
    · exact absurd hfails (by simp [hrecorded])
  · rw [if_neg hunrecorded]
    obtain ⟨hne, hrecorded⟩ := not_or.mp hunrecorded
    rw [Bool.not_eq_true] at hrecorded
    unfold Tables.record
    have hupsert := Table.find?_upsert s.history ⟨s.nextEntry, projectId, board.id, board.key⟩
      (fun entry => { entry with boardId := board.id }) (fun _ => rfl) place
    rw [hupsert]
    have hnew : HistoryEntry.place ⟨s.nextEntry, projectId, board.id, board.key⟩ =
        (projectId, board.key) := rfl
    by_cases hplace : place = (projectId, board.key)
    · rw [if_pos (hplace.trans hnew.symm), if_pos ⟨hne, hrecorded, hplace⟩, Option.map_some]
      cases s.history.find? place with
      | none => rfl
      | some entry => rfl
    · rw [if_neg fun h => hplace (h.trans hnew), if_neg fun h => hplace h.2.2]

end Renamed

/-- No identifier is given a second time. -/
theorem effect_ids {step : Step} {s s' : Tables} (h : Effect step s s') :
    s.boards.next ≤ s'.boards.next ∧ ∀ row ∈ s'.boards.table.rows, row.id < s.boards.next →
      ∃ old ∈ s.boards.table.rows, old.id = row.id ∧ old.projectId = row.projectId := by
  cases h with
  | unchanged | pruned ids _ | opened lastOpened =>
    exact ⟨Nat.le_refl _, fun row hrow _ => ⟨row, hrow, rfl, rfl⟩⟩
  | created new boards hnew _ =>
    obtain ⟨hrows, hnext⟩ := insert?_rows hnew
    refine ⟨by rw [hnext]; exact Nat.le_succ _, ?_⟩
    intro row hrow hid
    rw [hrows] at hrow
    rcases List.mem_append.mp hrow with hrow | hrow
    · exact ⟨row, hrow, rfl, rfl⟩
    · rw [List.mem_singleton.mp hrow] at hid
      exact absurd hid (Nat.lt_irrefl _)
  | updated ctx segment body board edit boards _ _ hset _ =>
    obtain ⟨hrows, hnext⟩ := set?_rows hset
    rw [renamed_boards, hnext]
    refine ⟨Nat.le_refl _, ?_⟩
    intro row hrow _
    rw [hrows] at hrow
    obtain ⟨old, hold, rfl⟩ := Rows.mem_updateWhere.mp hrow
    refine ⟨old, hold, ?_⟩
    split
    · exact ⟨rfl, rfl⟩
    · exact ⟨rfl, rfl⟩
  | deleted projectId id _ =>
    exact ⟨Nat.le_refl _, fun row hrow _ => ⟨row, (Rows.mem_deleteWhere.mp hrow).1, rfl, rfl⟩⟩

end IntelliPilot.Boards
