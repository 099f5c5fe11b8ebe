import IntelliPilot.Boards.Effects
import Mathlib.Data.List.Perm.Subperm

/-! # Keys that keep resolving

A key that a board of a project holds leads to it from then on, through the
board or through the history, until another board of the project holds the key
or the entry is pruned. The route of the last opened board is in the way of one
key.
-/

namespace IntelliPilot.Boards

open Statement
open Projects (ProjectContext)

/-! ## A key that a board has held -/

/-- No other board of the project holds the key. -/
def Undisturbed (s : Tables) (old : Board) : Prop :=
  ∀ row ∈ s.boards.table.rows, row.projectId = old.projectId → row.key = old.key → row.id = old.id

/-- The request prunes the entry of the key. -/
def Prunes (s : Tables) (step : Step) (old : Board) : Prop :=
  ∃ ids entry, step.request = .pruneKeyHistory ids ∧
    s.history.find? (old.projectId, old.key) = some entry ∧ ids.contains entry.id = true

/-- A handler is atomic: where the rename sticks, so does the record of the old key. -/
def Atomic (step : Step) : Prop := step.faults.recordKeyHistory = false

/-- The board is there, and has the key or is the last that gave it up. -/
def Owed (s : Tables) (old : Board) : Prop :=
  ∃ board ∈ s.boards.table.rows, board.id = old.id ∧ board.projectId = old.projectId ∧
    (board.key = old.key ∨
      (s.history.find? (old.projectId, old.key)).map (·.boardId) = some old.id)

variable {s : Tables} {old : Board}

theorem owed_of_mem (h : old ∈ s.boards.table.rows) : Owed s old :=
  ⟨old, h, rfl, rfl, Or.inl rfl⟩

variable {board : Board}

/-- What is owed is what the key stands for. -/
theorem resolve_of_owed (howed : Owed s old) (halone : Undisturbed s old)
    (hboard : board ∈ s.boards.table.rows) (hid : board.id = old.id) :
    s.resolve old.projectId old.key = some board := by
  obtain ⟨row, hrow, hrowId, hproject, hkey⟩ := howed
  obtain rfl : row = board :=
    Rows.eq_of_nodup_map s.boards.table.nodup hrow hboard (hrowId.trans hid.symm)
  unfold Tables.resolve
  cases hlive : s.getByKey old.projectId old.key with
  | some other =>
    obtain ⟨hother, hother', hotherKey⟩ := Tables.getByKey_eq_some_iff.mp hlive
    have hotherId := halone other hother hother' hotherKey
    rw [Rows.eq_of_nodup_map s.boards.table.nodup hother hrow (hotherId.trans hid.symm)]
  | none =>
    rcases hkey with hkey | hentry
    · exact absurd hkey (Tables.getByKey_eq_none_iff.mp hlive row hrow hproject)
    · obtain ⟨entry, hfind, hentryId⟩ := Option.map_eq_some_iff.mp hentry
      rw [hfind]
      exact Tables.get_eq_some_iff.mpr ⟨hrow, hid.trans hentryId.symm, hproject⟩

variable {step : Step}

theorem owed_step {s' : Tables} (h : Effect step s s') (hatomic : Atomic step) (howed : Owed s old)
    (halone : Undisturbed s old) (hprune : ¬ Prunes s step old)
    (hlive : ∃ row ∈ s'.boards.table.rows, row.id = old.id) : Owed s' old := by
  obtain ⟨board, hboard, hid, hproject, hkey⟩ := howed
  cases h with
  | unchanged | opened lastOpened => exact ⟨board, hboard, hid, hproject, hkey⟩
  | created new boards hnew _ =>
    refine ⟨board, ?_, hid, hproject, hkey⟩
    show board ∈ boards.table.rows
    rw [(insert?_rows hnew).1]
    exact List.mem_append_left _ hboard
  | updated ctx segment body renamedBoard edit boards _ haccepted hset _ =>
    obtain ⟨hrenamed, _, hctx⟩ := Tables.get_eq_some_iff.mp haccepted.there
    have hmem : ∀ row ∈ s.boards.table.rows,
        (if (row.id == renamedBoard.id && row.projectId == ctx.projectId) = true then edit.row row
          else row) ∈ boards.table.rows := by
      intro row hrow
      rw [(set?_rows hset).1]
      exact Rows.mem_updateWhere.mpr ⟨row, hrow, rfl⟩
    by_cases hsame : board = renamedBoard
    · -- The board itself is renamed: its old key is recorded.
      subst hsame
      have hnew := hmem board hboard
      rw [if_pos (by simp [hctx])] at hnew
      refine ⟨edit.row board, by rwa [renamed_boards], hid, hproject, ?_⟩
      rw [renamed_history]
      by_cases hkeep : edit.key = board.key
      · rw [if_neg fun hcond => hcond.1 hkeep]
        rcases hkey with hkey | hentry
        · exact Or.inl (hkeep.trans hkey)
        · exact Or.inr hentry
      · right
        by_cases hold : board.key = old.key
        · rw [if_pos ⟨hkeep, hatomic, by rw [hold, ← hproject, hctx]⟩, hid]
        · rw [if_neg fun hcond => hold (Prod.mk.inj hcond.2.2).2.symm]
          exact hkey.resolve_left hold
    · -- Another board is renamed: it did not hold the key.
      have hother : renamedBoard.id ≠ board.id := fun heq =>
        hsame (Rows.eq_of_nodup_map s.boards.table.nodup hrenamed hboard heq).symm
      have hstill := hmem board hboard
      rw [if_neg (by simp [hother.symm])] at hstill
      refine ⟨board, by rwa [renamed_boards], hid, hproject, ?_⟩
      rw [renamed_history, if_neg]
      · exact hkey
      · rintro ⟨_, _, hplace⟩
        obtain ⟨hsameProject, hsameKey⟩ := Prod.mk.inj hplace
        have hholds := halone renamedBoard hrenamed (hctx.trans hsameProject.symm) hsameKey.symm
        exact hother (hholds.trans hid.symm)
  | deleted projectId id hgot =>
    obtain ⟨row, hafter, hrowId⟩ := hlive
    obtain ⟨hrow, hspared⟩ := Rows.mem_deleteWhere.mp hafter
    obtain rfl : row = board :=
      Rows.eq_of_nodup_map s.boards.table.nodup hrow hboard (hrowId.trans hid.symm)
    have hne : row.id ≠ id := by
      rintro rfl
      obtain ⟨got, hgot⟩ := Option.isSome_iff_exists.mp hgot
      obtain ⟨hgotMem, hgotId, hgotProject⟩ := Tables.get_eq_some_iff.mp hgot
      rw [Rows.eq_of_nodup_map s.boards.table.nodup hgotMem hrow hgotId] at hgotProject
      rw [hgotProject] at hspared
      simp at hspared
    refine ⟨row, Rows.mem_deleteWhere.mpr ⟨hrow, hspared⟩, hid, hproject, ?_⟩
    rcases hkey with hkey | hentry
    · exact Or.inl hkey
    · right
      obtain ⟨entry, hfind, hentryId⟩ := Option.map_eq_some_iff.mp hentry
      show ((s.history.erase fun entry => entry.boardId == id).find? _).map _ = _
      rw [Table.find?_erase, hfind, Option.filter_some, if_pos]
      · exact congrArg some hentryId
      · simp [hentryId, ← hid, hne]
  | pruned ids hrequest =>
    refine ⟨board, hboard, hid, hproject, ?_⟩
    rcases hkey with hkey | hentry
    · exact Or.inl hkey
    · right
      obtain ⟨entry, hfind, hentryId⟩ := Option.map_eq_some_iff.mp hentry
      show ((s.history.erase fun entry => ids.contains entry.id).find? _).map _ = _
      rw [Table.find?_erase, hfind, Option.filter_some, if_pos]
      · exact congrArg some hentryId
      · rw [Bool.not_eq_true', ← Bool.not_eq_true]
        exact fun hpruned => hprune ⟨ids, entry, hrequest, hfind, hpruned⟩

/-! ## Runs -/

/-- The tables after some requests more. -/
def run (s : Tables) (steps : List Step) : Tables :=
  steps.foldl (fun s step => (perform step s).2) s

theorem after_append (before rest : List Step) :
    after (before ++ rest) = run (after before) rest := List.foldl_append

variable {steps : List Step}

/-- A board that is there at the end, with an identifier given before, was there all the time. -/
theorem live_before {row : Board} (hrow : row ∈ (run s steps).boards.table.rows)
    (hid : row.id < s.boards.next) :
    ∃ old ∈ s.boards.table.rows, old.id = row.id ∧ old.projectId = row.projectId := by
  induction steps generalizing s with
  | nil => exact ⟨row, hrow, rfl, rfl⟩
  | cons step rest ih =>
    obtain ⟨hnext, hrows⟩ := effect_ids (perform_effect step s)
    obtain ⟨old, hold, holdId, hproject⟩ := ih hrow (hid.trans_le hnext)
    obtain ⟨older, holder, holderId, hproject'⟩ := hrows old hold (by rwa [holdId])
    exact ⟨older, holder, holderId.trans holdId, hproject'.trans hproject⟩

theorem owed_run (hatomic : ∀ step ∈ steps, Atomic step) (howed : Owed s old)
    (hid : old.id < s.boards.next)
    (halone : ∀ mid tail, steps = mid ++ tail → Undisturbed (run s mid) old)
    (hprune : ∀ mid step tail, steps = mid ++ step :: tail → ¬ Prunes (run s mid) step old)
    (hlive : ∃ row ∈ (run s steps).boards.table.rows, row.id = old.id) :
    Owed (run s steps) old := by
  induction steps generalizing s with
  | nil => exact howed
  | cons step rest ih =>
    have heffect := perform_effect step s
    have hnext := (effect_ids heffect).1
    obtain ⟨row, hrow, hrowId⟩ := hlive
    obtain ⟨now, hnow, hnowId, _⟩ : ∃ old ∈ (perform step s).2.boards.table.rows,
        old.id = row.id ∧ old.projectId = row.projectId := by
      have hafter : row ∈ (run (perform step s).2 rest).boards.table.rows := hrow
      apply live_before hafter
      rw [hrowId]
      exact hid.trans_le hnext
    have hnextOwed := owed_step heffect (hatomic step List.mem_cons_self) howed
      (halone [] (step :: rest) rfl) (hprune [] step rest rfl) ⟨now, hnow, hnowId.trans hrowId⟩
    apply ih (fun other hother => hatomic other (List.mem_cons_of_mem _ hother)) hnextOwed
      (hid.trans_le hnext)
    · intro mid tail hsplit
      exact halone (step :: mid) tail (by rw [hsplit]; rfl)
    · intro mid other tail hsplit
      exact hprune (step :: mid) other tail (by rw [hsplit]; rfl)
    · exact ⟨row, hrow, hrowId⟩

/-! ## Answers -/

variable {ctx : ProjectContext} {segment : String}

/-- A key, in any case of letters, is answered with the board it stands for. -/
theorem get_answer {key : String} (hkey : keyFormat key = true)
    (hcase : toAsciiLowercase segment = key) (hfixed : segment ≠ "last-opened")
    (hview : ctx.has .projectView = true) (hboard : s.resolve ctx.projectId key = some board)
    (hvisible : board.visibleTo ctx.actorId = true) :
    (perform ⟨.get ctx segment, {}⟩ s).1 = .ok (some (.shown board)) := by
  obtain ⟨hparse, hsegment⟩ := segment_of_key hkey hcase
  have hfind : evaluate {} (findBoard ctx.projectId segment) s = (.ok (some board), s) := by
    unfold findBoard findByKey Tables.resolve evaluate at *
    rw [hparse]
    dsimp only
    rw [hsegment, evaluated_bind, evaluated_orRefuse]
    simp only [exec, attempt, Bool.false_eq_true, if_false, Except.mapError]
    cases hlive : s.getByKey ctx.projectId key with
    | some live =>
      rw [hlive] at hboard
      rw [← hboard]
      rfl
    | none =>
      rw [hlive] at hboard
      dsimp only at hboard ⊢
      rw [evaluated_bind, evaluated_orRefuse]
      simp only [exec, attempt, Bool.false_eq_true, if_false, Except.mapError]
      cases hentry : s.history.find? (ctx.projectId, key) with
      | none =>
        rw [hentry] at hboard
        cases hboard
      | some entry =>
        rw [hentry] at hboard
        rw [← hboard]
        rfl
  show (evaluate {} (ends (getBoards ctx segment)) s).1 = _
  rw [evaluate_ends, getBoards, if_neg hfixed, get]
  unfold evaluate at hfind ⊢
  unfold require
  rw [evaluated_bind, evaluated_refuseUnless, hview, if_pos rfl]
  dsimp only
  rw [evaluated_bind, hfind]
  dsimp only
  rw [evaluated_given, shownTo, if_pos hvisible]
  rfl

/-- The fixed route never answers with a board. -/
theorem fixed_answer (s : Tables) (ctx : ProjectContext) (board : Board) :
    (perform ⟨.get ctx "last-opened", {}⟩ s).1 ≠ .ok (some (.shown board)) := by
  show (evaluate {} (ends (getBoards ctx "last-opened")) s).1 ≠ _
  rw [evaluate_ends, getBoards, if_pos rfl, getLastOpened]
  unfold evaluate require
  rw [evaluated_bind, evaluated_refuseUnless]
  cases ctx.has .projectView with
  | false | true => exact fun h => nomatch h

/-- The candidate is taken, and the database says so. -/
def Refused (s : Tables) (faults : Faults) (projectId : Uuid) (key : String) : Prop :=
  faults.keyTaken key = false ∧ s.boards.takenBeside projectId key none = true

variable {faults : Faults} {projectId : Uuid}

/-- The loop still runs where every candidate it has tried is taken, and only there. -/
theorem candidates_none {base : List Char} {turns n : Nat} (hn : n ≤ maxCandidate) :
    (evaluate faults (candidates projectId base turns n) s).1 = .ok none ↔
      ∀ i < turns, Refused s faults projectId (candidate base (min (n + i) maxCandidate)) := by
  induction turns generalizing n with
  | zero => simp [candidates, evaluate, evaluated_pure]
  | succ turns ih =>
    have hfirst : min (n + 0) maxCandidate = n := by omega
    have hlater : ∀ i, min (n + (i + 1)) maxCandidate =
        min (min (n + 1) maxCandidate + i) maxCandidate := by omega
    have hsplit : (∀ i < turns + 1,
        Refused s faults projectId (candidate base (min (n + i) maxCandidate))) ↔
        Refused s faults projectId (candidate base n) ∧
          (evaluate faults (candidates projectId base turns (min (n + 1) maxCandidate)) s).1 =
            .ok none := by
      rw [ih (Nat.min_le_right _ _)]
      constructor
      · intro h
        refine ⟨hfirst ▸ h 0 (Nat.succ_pos _), fun i hi => ?_⟩
        rw [← hlater]
        exact h (i + 1) (Nat.succ_lt_succ hi)
      · rintro ⟨hzero, hsucc⟩ i hi
        cases i with
        | zero => rwa [hfirst]
        | succ i =>
          rw [hlater]
          exact hsucc i (Nat.lt_of_succ_lt_succ hi)
    rw [hsplit, candidates, evaluate, evaluated_bind, evaluated_orRefuse]
    simp only [exec, attempt, Refused]
    cases hfails : faults.keyTaken (candidate base n) with
    | true => simp [Except.mapError]
    | false =>
      cases htaken : s.boards.takenBeside projectId (candidate base n) none with
      | false => simp [Except.mapError, evaluated_pure]
      | true => simp [Except.mapError]

/-- No candidate is free: `generate_key` would never return. -/
def Exhausted (s : Tables) (faults : Faults) (projectId : Uuid) (name : String) : Prop :=
  ∀ n, 1 ≤ n → n ≤ maxCandidate → Refused s faults projectId (candidate (keyBase name) n)

theorem generateKey_none {name : String} :
    (evaluate faults (generateKey maxCandidate projectId name) s).1 = .ok none ↔
      Exhausted s faults projectId name := by
  unfold generateKey
  rw [candidates_none (by decide)]
  constructor
  · intro h n hpos hn
    have hindex : min (1 + (n - 1)) maxCandidate = n := by omega
    exact hindex ▸ h (n - 1) (by omega)
  · intro h i hi
    exact h _ (by omega) (Nat.min_le_right _ _)

/-- Where all candidates are tried in vain, no number of turns is enough. -/
theorem generateKey_diverges {name : String}
    (h : (evaluate faults (generateKey maxCandidate projectId name) s).1 = .ok none) (turns : Nat) :
    (evaluate faults (generateKey turns projectId name) s).1 = .ok none := by
  have hexhausted := generateKey_none.mp h
  unfold generateKey
  rw [candidates_none (by decide)]
  intro i _
  exact hexhausted _ (by unfold maxCandidate; omega) (Nat.min_le_right _ _)

/-- The checks a creation makes before it looks for a key. -/
structure Creates (ctx : ProjectContext) (body : Option CreateBoardRequest)
    (req : CreateBoardRequest) : Prop where
  views : ctx.has .projectView = true
  parsed : parse CreateBoardRequest.validate body = .ok req
  allowed : (!req.shared || ctx.has .boardSharedCreate) = true

/-- A creation gets no answer where all candidates are taken, and only there. -/
theorem create_none {body : Option CreateBoardRequest} :
    (evaluate faults (create maxCandidate ctx body) s).1 = .ok none ↔
      ∃ req, Creates ctx body req ∧ Exhausted s faults ctx.projectId req.name := by
  unfold create evaluate require
  rw [evaluated_bind, evaluated_refuseUnless]
  cases hview : ctx.has .projectView with
  | false =>
    simp only [Bool.false_eq_true, if_false]
    constructor
    · intro h
      cases h
    · rintro ⟨req, hcreates, _⟩
      exact absurd hcreates.views (by simp [hview])
  | true =>
    simp only [if_true]
    rw [evaluated_bind, evaluated_given]
    cases hparse : parse CreateBoardRequest.validate body with
    | error problem =>
      constructor
      · intro h
        cases h
      · rintro ⟨req, hcreates, _⟩
        exact absurd hcreates.parsed (by simp [hparse])
    | ok req =>
      dsimp only
      rw [evaluated_bind, evaluated_refuseUnless]
      cases hallowed : (!req.shared || ctx.has .boardSharedCreate) with
      | false =>
        constructor
        · intro h
          cases h
        · rintro ⟨req', hcreates, _⟩
          obtain rfl : req = req' := by simpa [hparse] using hcreates.parsed
          exact absurd hcreates.allowed (by simp [hallowed])
      | true =>
        simp only [if_true]
        rw [evaluated_bind]
        have hgenerated :
            (evaluate faults (generateKey maxCandidate ctx.projectId req.name) s).1 = .ok none ↔
              Exhausted s faults ctx.projectId req.name := generateKey_none
        have hiff :
            (∃ req', Creates ctx body req' ∧ Exhausted s faults ctx.projectId req'.name) ↔
            Exhausted s faults ctx.projectId req.name := by
          constructor
          · rintro ⟨req', hcreates, hexhausted⟩
            obtain rfl : req = req' := by simpa [hparse] using hcreates.parsed
            exact hexhausted
          · exact fun hexhausted => ⟨req, ⟨hview, hparse, hallowed⟩, hexhausted⟩
        rw [hiff, ← hgenerated]
        unfold evaluate
        cases evaluated exec faults (generateKey maxCandidate ctx.projectId req.name) s with
        | mk result s' =>
          cases result with
          | error problem => simp
          | ok key =>
            cases key with
            | none => simp [evaluated_pure]
            | some key =>
              simp only [Except.ok.injEq, reduceCtorEq, iff_false]
              rw [evaluated_bind, evaluated_orRefuse]
              intro habsurd
              split at habsurd
              · cases habsurd
              · cases habsurd

/-- Only a creation without a free candidate stays without an answer. -/
theorem perform_none : (perform step s).1 = .ok none ↔
    ∃ ctx body req, step.request = .create ctx body ∧ Creates ctx body req ∧
      Exhausted s step.faults ctx.projectId req.name := by
  have hends : ∀ p : Handler Response, (evaluate step.faults (ends p) s).1 ≠ .ok none := by
    intro p hnone
    rw [evaluate_ends] at hnone
    cases hresult : (evaluate step.faults p s).1 with
    | error problem | ok answer =>
      rw [hresult] at hnone
      cases hnone
  show (evaluate step.faults (handler maxCandidate step.request) s).1 = .ok none ↔ _
  cases hrequest : step.request with
  | create ctx body =>
    rw [handler, create_none]
    constructor
    · rintro ⟨req, hcreates, hexhausted⟩
      exact ⟨ctx, body, req, rfl, hcreates, hexhausted⟩
    · rintro ⟨ctx', body', req, heq, hcreates, hexhausted⟩
      cases heq
      exact ⟨req, hcreates, hexhausted⟩
  | seedBoard projectId ownerId | list ctx | get ctx segment | update ctx segment body
  | delete ctx segment | setLastOpened ctx segment
  | pruneKeyHistory ids => exact ⟨fun h => absurd h (hends _), by simp⟩

variable {body : Option UpdateBoardRequest}

/-- An update that is accepted, and reads what it needs, goes on to write. -/
theorem update_of_accepted {edit : Edit} (h : Accepted s ctx segment body board edit)
    (hget : faults.get = false) (hgetByKey : faults.getByKey = false) :
    evaluate faults (update ctx segment body) s =
      evaluate faults (write ctx.projectId board.id board edit) s := by
  obtain ⟨req, hparse, hkey, hedit⟩ := h.asked
  unfold update evaluate require found
  rw [evaluated_bind, evaluated_refuseUnless, h.views, if_pos rfl]
  dsimp only
  rw [evaluated_bind, evaluated_given, h.named]
  simp only [Option.elim_some]
  rw [evaluated_bind, evaluated_given, hparse]
  dsimp only
  have hload : evaluated exec faults (loadForWrite ctx board.id .boardSharedModify) s =
      (.ok board, s) := by
    unfold loadForWrite
    rw [evaluated_bind, evaluated_orRefuse]
    simp only [exec, attempt, hget, h.there, Bool.false_eq_true, if_false, Except.mapError]
    rw [evaluated_given, Option.elim_some, h.writable]
  rw [evaluated_bind, hload]
  dsimp only
  rw [evaluated_bind, evaluated_given, hkey]
  dsimp only
  have hfree : evaluated exec faults (refuseTaken ctx.projectId board.id board edit.key) s =
      (.ok (), s) := by
    unfold refuseTaken
    split
    · rfl
    · rename_i hne
      rw [evaluated_bind, evaluated_orRefuse]
      simp only [exec, attempt, hgetByKey, Bool.false_eq_true, if_false, Except.mapError]
      rw [evaluated_refuseUnless, if_pos]
      cases hother : s.getByKey ctx.projectId edit.key with
      | none => rfl
      | some other =>
        obtain ⟨hmem, hproject, hotherKey⟩ := Tables.getByKey_eq_some_iff.mp hother
        have hid := BoardTable.takenBeside_eq_false (h.free hne) hmem hproject hotherKey
        simpa using (Option.some.inj hid).symm
  rw [evaluated_bind, hfree]
  dsimp only
  rw [← hedit]

/-- An accepted update whose statements run leaves the board with its new key. -/
theorem updated_row {edit : Edit} (hrequest : step.request = .update ctx segment body)
    (h : Accepted s ctx segment body board edit) (hget : step.faults.get = false)
    (hgetByKey : step.faults.getByKey = false) (hupdate : step.faults.update = false)
    (hne : edit.key ≠ board.key) (hformat : keyFormat edit.key = true) :
    edit.row board ∈ (perform step s).2.boards.table.rows := by
  obtain ⟨hboard, _, hproject⟩ := Tables.get_eq_some_iff.mp h.there
  have hperform : (perform step s).2 =
      (evaluate step.faults (write ctx.projectId board.id board edit) s).2 := by
    show (evaluate step.faults (handler maxCandidate step.request) s).2 = _
    rw [hrequest, handler, evaluate_ends, update_of_accepted h hget hgetByKey]
  rw [hperform]
  have hset : ∃ boards, s.boards.set? ctx.projectId board.id edit = some boards :=
    ⟨_, dif_pos ⟨h.free hne, hformat⟩⟩
  obtain ⟨boards, hset⟩ := hset
  have hwrite : (evaluate step.faults (write ctx.projectId board.id board edit) s).2 =
      renamed s boards ctx.projectId board edit step.faults := by
    rw [evaluate_write h.there, hset, hupdate]
  rw [hwrite, renamed_boards, (set?_rows hset).1]
  exact Rows.mem_updateWhere.mpr ⟨board, hboard, if_pos (by simp [hproject])⟩

/-! ## Runs that keep the keys -/

/-- What is expected of the boards after the requests. -/
structure KeysResolve (steps : List Step) : Prop where
  distinct : ∀ row ∈ (after steps).boards.table.rows, ∀ other ∈ (after steps).boards.table.rows,
    row.projectId = other.projectId → row.key = other.key → row = other
  /-- A key that is generated is free and has the format. -/
  generates : ∀ turns projectId name faults key,
    (evaluate faults (generateKey turns projectId name) (after steps)).1 = .ok (some key) →
      (after steps).boards.takenBeside projectId key none = false ∧ keyFormat key = true
  /-- Every request so far has been answered: a key was found where one was looked for. -/
  answered : ∀ before step rest, steps = before ++ step :: rest →
    (perform step (after before)).1 ≠ .ok none
  accepted : ∀ req, ∀ row ∈ (after steps).boards.table.rows, ∀ key,
    newKey req row = .ok key → keyFormat key = true
  /-- The key of a board leads to it, in any case of letters, for whoever may see it. -/
  resolves : ∀ row ∈ (after steps).boards.table.rows, ∀ ctx segment,
    ctx.projectId = row.projectId → ctx.has .projectView = true →
      row.visibleTo ctx.actorId = true → toAsciiLowercase segment = row.key →
        (perform ⟨.get ctx segment, {}⟩ (after steps)).1 = .ok (some (.shown row))
  /-- So does a key it once had, until another board holds it or the entry is pruned. -/
  remembers : ∀ before rest, steps = before ++ rest → ∀ old ∈ (after before).boards.table.rows,
    (∀ mid tail, rest = mid ++ tail → Undisturbed (after (before ++ mid)) old) →
    (∀ mid step tail, rest = mid ++ step :: tail → ¬ Prunes (after (before ++ mid)) step old) →
    ∀ row ∈ (after steps).boards.table.rows, row.id = old.id → ∀ ctx segment,
      ctx.projectId = row.projectId → ctx.has .projectView = true →
        row.visibleTo ctx.actorId = true → toAsciiLowercase segment = old.key →
          (perform ⟨.get ctx segment, {}⟩ (after steps)).1 = .ok (some (.shown row))

/-- The request neither asks for the fixed segment as a key, nor for a key where none is left. -/
structure Careful (s : Tables) (step : Step) : Prop where
  /-- No update that goes through makes `last-opened` the key of a board. -/
  spares : ∀ ctx segment body board edit, step.request = .update ctx segment body →
    Accepted s ctx segment body board edit → edit.key = "last-opened" → board.key = "last-opened" ∨
      step.faults.get = true ∨ step.faults.getByKey = true ∨ step.faults.update = true
  /-- A candidate is left for every board that is created. -/
  finds : ∀ ctx body req, step.request = .create ctx body → Creates ctx body req →
    ¬ Exhausted s step.faults ctx.projectId req.name

/-- No board has the fixed segment as its key. -/
def Unfixed (s : Tables) : Prop := ∀ row ∈ s.boards.table.rows, row.key ≠ "last-opened"

theorem candidate_ne_fixed (name : String) (n : Nat) :
    candidate (keyBase name) n ≠ "last-opened" := by
  have hdash := dash_not_mem_keyBase name
  unfold candidate
  split
  · intro heq
    have hlist := congrArg String.toList heq
    rw [String.toList_ofList] at hlist
    exact hdash (by rw [hlist]; decide)
  · intro heq
    have hlist := congrArg String.toList heq
    rw [String.toList_ofList] at hlist
    -- The text ends with a digit.
    have hlast := congrArg List.getLast? hlist
    rw [List.getLast?_append_of_ne_nil _ (by simp [suffix])] at hlast
    have hd : 'd' ∈ suffix n := List.mem_of_mem_getLast? (hlast.trans (by decide))
    rcases List.mem_cons.mp hd with habsurd | hd
    · exact absurd habsurd (by decide)
    · exact absurd (Nat.isDigit_of_mem_toDigits (by omega) (by omega) hd) (by decide)

theorem unfixed_step (h : Unfixed s) (hcareful : Careful s step) : Unfixed (perform step s).2 := by
  have heffect := perform_effect step s
  generalize (perform step s).2 = s' at heffect
  intro row hrow
  cases heffect with
  | unchanged | pruned ids _ | opened lastOpened => exact h row hrow
  | created new boards hnew hkey =>
    replace hrow : row ∈ boards.table.rows := hrow
    rw [(insert?_rows hnew).1] at hrow
    rcases List.mem_append.mp hrow with hrow | hrow
    · exact h row hrow
    · rw [List.mem_singleton.mp hrow]
      show new.key ≠ "last-opened"
      rcases hkey with hkey | ⟨name, n, hkey⟩
      · rw [hkey]
        decide
      · rw [hkey]
        exact candidate_ne_fixed name n
  | updated ctx segment body board edit boards hrequest haccepted hset hfaults =>
    rw [renamed_boards, (set?_rows hset).1] at hrow
    obtain ⟨old, hold, rfl⟩ := Rows.mem_updateWhere.mp hrow
    split
    · intro hkey
      obtain ⟨hboard, _, _⟩ := Tables.get_eq_some_iff.mp haccepted.there
      have hunfixed := h board hboard
      have hne : edit.key ≠ board.key := fun heq => hunfixed (heq.symm.trans hkey)
      rcases hcareful.spares ctx segment body board edit hrequest haccepted hkey with
        hboardKey | hget | hgetByKey | hupdate
      · exact hunfixed hboardKey
      · exact absurd hget (by simp [hfaults.1])
      · exact absurd hgetByKey (by simp [hfaults.2.1 hne])
      · exact absurd hupdate (by simp [hfaults.2.2])
    · exact h old hold
  | deleted projectId id _ => exact h row (Rows.mem_deleteWhere.mp hrow).1

theorem after_concat (before : List Step) (step : Step) :
    after (before ++ [step]) = (perform step (after before)).2 := by
  rw [after_append]
  rfl

theorem unfixed_after
    (hcareful : ∀ before step rest, steps = before ++ step :: rest → Careful (after before) step) :
    Unfixed (after steps) := by
  induction steps using List.reverseRecOn with
  | nil => exact fun row hrow => absurd hrow List.not_mem_nil
  | append_singleton before step ih =>
    rw [after_concat]
    apply unfixed_step
    · apply ih
      intro earlier other rest hsplit
      exact hcareful earlier other (rest ++ [step]) (by rw [hsplit]; simp)
    · exact hcareful before step [] rfl

/-- Careful requests, whose handlers are atomic, keep the keys. -/
theorem keysResolve_of_careful (hatomic : ∀ step ∈ steps, Atomic step)
    (hcareful : ∀ before step rest, steps = before ++ step :: rest → Careful (after before) step) :
    KeysResolve steps := by
  have hunfixed := unfixed_after hcareful
  have hformatted := (after steps).boards.formatted
  refine ⟨?_, ?_, ?_, ?_, ?_, ?_⟩
  · intro row hrow other hother hproject hkey
    have hid := (after steps).boards.distinct row hrow other hother hproject hkey
    exact Rows.eq_of_nodup_map (after steps).boards.table.nodup hrow hother hid
  · intro turns projectId name faults key hkey
    obtain ⟨hfree, n, hn, rfl⟩ := candidates_some (by decide) hkey
    exact ⟨hfree, keyFormat_candidate name hn⟩
  · intro before step rest hsplit hnone
    obtain ⟨ctx, body, req, hrequest, hcreates, hexhausted⟩ := perform_none.mp hnone
    exact (hcareful before step rest hsplit).finds ctx body req hrequest hcreates hexhausted
  · intro req row hrow key hkey
    unfold newKey at hkey
    split at hkey
    · rw [← Except.ok.inj hkey]
      exact hformatted row hrow
    · dsimp only at hkey
      split at hkey
      · rename_i hvalid
        rw [← Except.ok.inj hkey]
        exact keyFormat_of_validKey hvalid
      · cases hkey
  · intro row hrow ctx segment hproject hview hvisible hcase
    apply get_answer (hformatted row hrow) hcase ?_ hview ?_ hvisible
    · rintro rfl
      exact hunfixed row hrow (hcase.symm.trans (by decide))
    · unfold Tables.resolve
      rw [Tables.getByKey_eq_some_iff.mpr ⟨hrow, hproject.symm, rfl⟩]
  · intro before rest hsplit old hold halone hprune row hrow hid ctx segment hin hview hsees hcase
    have hafter : after steps = run (after before) rest := by rw [hsplit, after_append]
    have hbefore : old.key ≠ "last-opened" := by
      have hunfixed : Unfixed (after before) := unfixed_after ?_
      · exact hunfixed old hold
      intro earlier other tail hsplit'
      exact hcareful earlier other (tail ++ rest) (by rw [hsplit, hsplit']; simp)
    have howed : Owed (after steps) old := by
      rw [hafter]
      apply owed_run
      · intro step hstep
        exact hatomic step (by rw [hsplit]; exact List.mem_append_right _ hstep)
      · exact owed_of_mem hold
      · exact (after before).boards.below old hold
      · intro mid tail hmid
        rw [← after_append]
        exact halone mid tail hmid
      · intro mid step tail hmid
        rw [← after_append]
        exact hprune mid step tail hmid
      · exact ⟨row, hafter ▸ hrow, hid⟩
    have hnow : Undisturbed (after steps) old := by
      rw [hsplit]
      exact halone rest [] (List.append_nil _).symm
    have hresolve := resolve_of_owed howed hnow hrow hid
    have hsame : old.projectId = row.projectId := by
      obtain ⟨board, hboard, hboardId, hboardProject, _⟩ := howed
      rw [← hboardProject, Rows.eq_of_nodup_map (after steps).boards.table.nodup hboard hrow
        (hboardId.trans hid.symm)]
    apply get_answer ((after before).boards.formatted old hold) hcase ?_ hview ?_ hsees
    · rintro rfl
      exact hbefore (hcase.symm.trans (by decide))
    · rw [hin, ← hsame]
      exact hresolve

/-- The keys of the boards keep resolving, as long as handlers are atomic, if and only if no update
makes `last-opened` the key of a board and no creation finds every candidate taken. -/
theorem keys_keep_resolving_iff (steps : List Step) (hatomic : ∀ step ∈ steps, Atomic step) :
    (∀ before rest, steps = before ++ rest → KeysResolve before) ↔
      ∀ before step rest, steps = before ++ step :: rest → Careful (after before) step := by
  constructor
  · intro hkeeps before step rest hsplit
    have hnext := hkeeps (before ++ [step]) rest (by rw [hsplit]; simp)
    constructor
    · intro ctx segment body board edit hrequest haccepted hkey
      by_contra hbad
      simp only [not_or, Bool.not_eq_true] at hbad
      obtain ⟨hboardKey, hget, hgetByKey, hupdate⟩ := hbad
      have hne : edit.key ≠ board.key := fun heq => hboardKey (heq.symm.trans hkey)
      have hrow := updated_row hrequest haccepted hget hgetByKey hupdate hne (by rw [hkey]; decide)
      rw [← after_concat] at hrow
      obtain ⟨_, _, hproject⟩ := Tables.get_eq_some_iff.mp haccepted.there
      have hcase : edit.key = "last-opened" →
          toAsciiLowercase "last-opened" = (edit.row board).key := by
        intro heq
        show _ = edit.key
        rw [heq]
        decide
      have hvisible : board.visibleTo ctx.actorId = true := by
        have hmay := haccepted.writable
        unfold mayWrite at hmay
        unfold Board.visibleTo
        split at hmay
        · rename_i hshared
          rw [hshared, Bool.true_or]
        · split at hmay
          · rename_i howner
            rw [howner, Bool.or_true]
          · cases hmay
      exact fixed_answer _ _ _ (hnext.resolves _ hrow ctx "last-opened" hproject.symm
        haccepted.views hvisible (hcase hkey))
    · intro ctx body req hrequest hcreates hexhausted
      exact hnext.answered before step [] rfl
        (perform_none.mpr ⟨ctx, body, req, hrequest, hcreates, hexhausted⟩)
  · intro hcareful before rest hsplit
    apply keysResolve_of_careful
    · exact fun step hstep => hatomic step (hsplit ▸ List.mem_append_left _ hstep)
    · intro earlier step tail hsplit'
      exact hcareful earlier step (tail ++ rest) (by rw [hsplit, hsplit']; simp)

/-- A shared board of project 7 and a member who may modify it. -/
def member : ProjectContext :=
  ⟨7, 3, some ⟨1, false, [.projectView, .boardSharedModify]⟩, false⟩

/-- The default board of a project, renamed. -/
def renameSteps (key : String) : List Step :=
  [⟨.seedBoard 7 3, {}⟩,
    ⟨.update member "00000000000000000000000000000000" (some ⟨"Board", some key, "", ""⟩), {}⟩]

theorem keys_keep_resolving_witness :
    (∀ step ∈ renameSteps "main", Atomic step) ∧
      ((∀ before rest, renameSteps "main" = before ++ rest → KeysResolve before) ↔
        ∀ before step rest, renameSteps "main" = before ++ step :: rest →
          Careful (after before) step) := by
  have hatomic : ∀ step ∈ renameSteps "main", Atomic step := by
    simp [renameSteps, Atomic]
  exact ⟨hatomic, keys_keep_resolving_iff _ hatomic⟩

/-- A board whose key becomes `last-opened` is no longer found by it. -/
theorem key_lost_to_route :
    ¬ ∀ steps : List Step, (∀ step ∈ steps, Atomic step) → KeysResolve steps := by
  intro h
  have hkeys := h (renameSteps "Last-Opened") (by simp [renameSteps, Atomic])
  have hrow : (⟨0, 7, some 3, .shared, "Board", "last-opened", "", ""⟩ : Board) ∈
      (after (renameSteps "Last-Opened")).boards.table.rows := by decide +kernel
  exact fixed_answer _ member _ (hkeys.resolves _ hrow member "last-opened" rfl (by decide)
    (by decide) (by decide))

end IntelliPilot.Boards
