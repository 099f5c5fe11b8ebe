import IntelliPilot.Issues.EntityTags
import IntelliPilot.Issues.Patches
import IntelliPilot.Issues.ReleaseMirror
import IntelliPilot.Statement.Ledger
import Mathlib

/-! # Concurrent patches

Patches of one issue with the tag of one version, interleaved. The update of the
row expects that version and raises it, so it succeeds for one of them; only
that one goes on to the sets.
-/

namespace IntelliPilot.Issues

open Http Statement
open Service (initial)
open Imports (Uuid)

/-- A request to patch an issue, with its project context. -/
structure Patch where
  ctx : Context
  req : UpdateRequest

/-- The patches, interleaved statement by statement. -/
def patches : Service Stmt Db Choice Patch (Except Problem Answer) where
  exec := Stmt.exec
  handler patch := (updateIssue patch.ctx patch.req).run

abbrev PatchEvent := Event Stmt Patch (Except Problem Answer)

/-! ## What a patch tells -/

/-- The update of this version wrote the row. -/
def Wrote (id : Uuid) (version : Nat) (events : List PatchEvent) : Prop :=
  ∃ projectId w row, .ran (.updateIssue projectId id version w) (.ok (some row)) ∈ events

/-- The update found no row of this version. -/
def Missed (events : List PatchEvent) : Prop :=
  ∃ projectId id version w, .ran (.updateIssue projectId id version w) (.ok none) ∈ events

/-- A statement of the patch failed. -/
def Failed (events : List PatchEvent) : Prop :=
  ∃ (β : Type) (stmt : Stmt (Except DbError β)) (e : DbError), .ran stmt (.error e) ∈ events

/-- The issue that was read is not there any more. -/
def Vanished (events : List PatchEvent) : Prop :=
  ∃ projectId id row, .ran (.selectIssue projectId id) (.ok (some row)) ∈ events ∧
    .ran (.issueExists projectId row.id) (.ok false) ∈ events

/-- The tag was not of the row that was read, or the row was not of that version any
more when it was to be updated. -/
def Late (patch : Patch) (events : List PatchEvent) : Prop :=
  Missed events ∨ ∃ projectId id row, .ran (.selectIssue projectId id) (.ok (some row)) ∈ events ∧
    checkIfMatch patch.req.ifMatch (etag row.id row.version) ≠ .ok ()

/-- The refusals that the header stands for. -/
def Stale (patch : Patch) (answer : Except Problem Answer) : Prop :=
  answer = .error (preconditionFailed none) ∨
    ∃ id version problem, checkIfMatch patch.req.ifMatch (etag id version) = .error problem ∧
      answer = .error problem

/-- What an event of a patch tells after the earlier ones, whatever the others do. -/
def Told (patch : Patch) : PatchEvent → List PatchEvent → Prop
  | .ran (.updateIssue _ id version _) _, _ =>
      checkIfMatch patch.req.ifMatch (etag id version) = .ok ()
  | .ran stmt _, earlier => stmt.replaces = true → ∃ id version, Wrote id version earlier
  | .answered _ (.ok _), earlier => ∃ id version, Wrote id version earlier
  | .answered _ (.error problem), earlier => (∃ id version, Wrote id version earlier) ∨
      (Late patch earlier → Stale patch (.error problem) ∨ Failed earlier ∨ Vanished earlier)
  | .began _, _ => True

variable {patch : Patch} {events : List PatchEvent} {β : Type} {stmt : Stmt β}

theorem told_of_reads (hreads : stmt.reads = true) (result : β) :
    Told patch (.ran stmt result) events := by
  cases stmt <;> first | contradiction | exact fun hreplaces => by contradiction

theorem Told.replaces {result : β} (h : Told patch (.ran stmt result) events)
    (hreplaces : stmt.replaces = true) : ∃ id version, Wrote id version events := by
  cases stmt with
  | updateIssue projectId id version w => contradiction
  | _ => exact h hreplaces

variable {id : Uuid} {version : Nat}

/-- What was found stays in the events. -/
theorem Wrote.mono (h : Wrote id version events) {later : List PatchEvent}
    (hsub : ∀ event ∈ events, event ∈ later) : Wrote id version later := by
  obtain ⟨projectId, w, row, hmem⟩ := h
  exact ⟨projectId, w, row, hsub _ hmem⟩

theorem Late.of_answered {request : Patch} {answer : Except Problem Answer}
    (h : Late patch (.answered request answer :: events)) : Late patch events := by
  rcases h with ⟨projectId, id, version, w, hmissed⟩ | ⟨projectId, id, row, hread, hunmatched⟩
  · rcases List.mem_cons.mp hmissed with heq | hold
    · cases heq
    · exact .inl ⟨projectId, id, version, w, hold⟩
  · rcases List.mem_cons.mp hread with heq | hold
    · cases heq
    · exact .inr ⟨projectId, id, row, hold, hunmatched⟩

/-! ## Along the handler -/

section Attempts

variable {α : Type} {ok : List PatchEvent → Prop} {Q : α → List PatchEvent → Prop}

theorem recounts_query {stmt : Stmt (Except DbError α)} {E : DbError → List PatchEvent → Prop}
    (h : ∀ result, ok (.ran stmt result :: events) ∧
      Outcome Q E result (.ran stmt result :: events)) : Recounts ok (query stmt) Q E events := h

variable {E : Problem → List PatchEvent → Prop}

theorem recounts_attempt {q : Query α} {failed : Handler α}
    (h : Recounts ok q Q (fun _ events => Recounts ok failed Q E events) events) :
    Recounts ok (attempt q failed) Q E events := by
  refine recounts_bind (S := fun result events => Outcome Q
    (fun _ events => Recounts ok failed Q E events) result events) ?_ ?_
  · exact Prog.tells_bind h fun _ _ houtcome => houtcome
  · rintro (e | a) events houtcome
    · exact houtcome
    · exact houtcome

theorem recounts_decided {result : Except Problem α} (hok : ∀ a, result = .ok a → Q a events)
    (herror : ∀ problem, result = .error problem → E problem events) :
    Recounts ok (decided result) Q E events := by
  cases result with
  | ok a => exact hok a rfl
  | error problem => exact herror problem rfl

end Attempts

/-- The refusal of a patch that is on time, or one of whose statements failed. -/
abbrev Refused (patch : Patch) (_ : Problem) (events : List PatchEvent) : Prop :=
  ¬ Late patch events ∨ Failed events

theorem told_of_refused (problem : Problem) (h : Refused patch problem events) :
    Told patch (.answered patch (.error problem)) events := by
  rcases h with honTime | hfailed
  · exact .inr fun hlate => absurd hlate honTime
  · exact .inr fun _ => .inr (.inl hfailed)

/-- Nothing has been read of the issue, nor updated. -/
structure Unread (events : List PatchEvent) : Prop where
  unread : ∀ projectId id row, .ran (.selectIssue projectId id) (.ok (some row)) ∉ events
  unmissed : ¬ Missed events

/-- One row has been read, and none updated. -/
structure Read (projectId id : Uuid) (row : Issue) (events : List PatchEvent) : Prop where
  found : .ran (.selectIssue projectId id) (.ok (some row)) ∈ events
  alone : ∀ projectId' id' row', .ran (.selectIssue projectId' id') (.ok (some row')) ∈ events →
    row' = row
  unmissed : ¬ Missed events

theorem not_missed_cons (hreads : stmt.reads = true) (result : β) (h : ¬ Missed events) :
    ¬ Missed (.ran stmt result :: events) := by
  rintro ⟨projectId, id, version, w, hmem⟩
  rcases List.mem_cons.mp hmem with heq | hold
  · cases heq
    contradiction
  · exact h ⟨projectId, id, version, w, hold⟩

theorem Unread.not_late (h : Unread events) : ¬ Late patch events := by
  rintro (hmissed | ⟨projectId, id, row, hread, -⟩)
  · exact h.unmissed hmissed
  · exact h.unread projectId id row hread

section Found

variable {projectId id : Uuid} {row : Issue}

theorem Read.not_late (h : Read projectId id row events)
    (hmatched : checkIfMatch patch.req.ifMatch (etag row.id row.version) = .ok ()) :
    ¬ Late patch events := by
  rintro (hmissed | ⟨projectId', id', row', hread, hunmatched⟩)
  · exact h.unmissed hmissed
  · rw [h.alone projectId' id' row' hread] at hunmatched
    exact hunmatched hmatched

theorem Read.cons (h : Read projectId id row events) {β : Type} {stmt : Stmt β}
    (hchecks : stmt.checks = true) (result : β) :
    Read projectId id row (.ran stmt result :: events) := by
  refine ⟨List.mem_cons_of_mem _ h.found, ?_,
    not_missed_cons (Stmt.reads_of_checks hchecks) result h.unmissed⟩
  intro projectId' id' row' hmem
  rcases List.mem_cons.mp hmem with heq | hold
  · cases heq
    contradiction
  · exact h.alone projectId' id' row' hold

/-- A part of the handler that reads other things. -/
theorem recounts_checks {ε α : Type} {p : ExceptT ε (Prog Stmt) α}
    (hp : p.run.Only (·.checks = true)) (h : Read projectId id row events) :
    Recounts (Newest (Told patch)) p (fun _ => Read projectId id row)
      (fun _ => Read projectId id row) events :=
  recounts_only (C := (·.checks = true)) (fun _ result _ hchecks h =>
    ⟨told_of_reads (Stmt.reads_of_checks hchecks) result, h.cons hchecks result⟩) hp h

theorem recounts_lookup {α : Type} {stmt : Stmt (Except DbError α)} (hchecks : stmt.checks = true)
    (h : Read projectId id row events) :
    Recounts (Newest (Told patch)) (query stmt) (fun _ => Read projectId id row)
      (fun _ => Failed) events := by
  apply recounts_query
  intro result
  refine ⟨told_of_reads (Stmt.reads_of_checks hchecks) result, ?_⟩
  cases result with
  | error e => exact ⟨_, stmt, e, List.mem_cons_self⟩
  | ok a => exact h.cons hchecks _

end Found

/-- The issue that is patched has been read. -/
theorem recounts_readOld (projectId id : Uuid) (h : Unread events) :
    Recounts (Newest (Told patch)) (readOld projectId id)
      (fun old => Read projectId id old.toIssue) (Refused patch) events := by
  unfold readOld
  refine recounts_bind (S := fun found events => (found = none ∧ Unread events) ∨
    ∃ old : FullIssue, found = some old ∧ Read projectId id old.toIssue events) ?_ ?_
  · apply recounts_attempt
    unfold getIssue
    have hfailed : ∀ (e : DbError) (events : List PatchEvent), Failed events →
        Recounts (Newest (Told patch)) (throw notFound : Handler (Option FullIssue))
          (fun found events => (found = none ∧ Unread events) ∨
            ∃ old : FullIssue, found = some old ∧ Read projectId id old.toIssue events)
          (Refused patch) events :=
      fun _ _ h => recounts_throw (.inr h)
    refine recounts_bind (S := fun found events => (found = none ∧ Unread events) ∨
      ∃ row, found = some row ∧ Read projectId id row events) ?_ ?_
    · apply recounts_query
      intro result
      refine ⟨(fun hreplaces => by cases hreplaces), ?_⟩
      have hunmissed : ¬ Missed (.ran (.selectIssue projectId id) result :: events) :=
        not_missed_cons rfl result h.unmissed
      rcases result with e | _ | row
      · exact hfailed e _ ⟨_, _, e, List.mem_cons_self⟩
      · refine .inl ⟨rfl, ?_, hunmissed⟩
        intro projectId' id' row' hmem
        rcases List.mem_cons.mp hmem with heq | hold
        · cases heq
        · exact h.unread projectId' id' row' hold
      · refine .inr ⟨row, rfl, List.mem_cons_self, ?_, hunmissed⟩
        intro projectId' id' row' hmem
        rcases List.mem_cons.mp hmem with heq | hold
        · cases heq
          rfl
        · exact absurd hold (h.unread projectId' id' row')
    · rintro found events (⟨rfl, hunread⟩ | ⟨row, rfl, hfound⟩)
      · exact recounts_pure (.inl ⟨rfl, hunread⟩)
      · refine recounts_bind ((recounts_lookup rfl hfound).mono (fun _ _ h => h) hfailed) ?_
        intro labels events hfound
        refine recounts_bind ((recounts_lookup rfl hfound).mono (fun _ _ h => h) hfailed) ?_
        intro components events hfound
        refine recounts_bind ((recounts_lookup rfl hfound).mono (fun _ _ h => h) hfailed) ?_
        intro pairs events hfound
        refine recounts_bind ((recounts_lookup rfl hfound).mono (fun _ _ h => h) hfailed) ?_
        exact fun customers events hfound => recounts_pure (.inr ⟨_, rfl, hfound⟩)
  · rintro found events (⟨rfl, hunread⟩ | ⟨old, rfl, hfound⟩)
    · exact recounts_throw (.inl hunread.not_late)
    · exact recounts_pure hfound

/-- What comes after the row was written does not write it again. -/
theorem recounts_written {ε α : Type} {p : ExceptT ε (Prog Stmt) α}
    (hp : p.run.Only (·.updates = false)) (h : ∃ id version, Wrote id version events) :
    Recounts (Newest (Told patch)) p (fun _ events => ∃ id version, Wrote id version events)
      (fun _ events => ∃ id version, Wrote id version events) events := by
  refine recounts_only (C := (·.updates = false)) ?_ hp h
  intro β stmt result events hupdates h
  refine ⟨?_, ?_⟩
  · cases stmt with
    | updateIssue projectId id version w => contradiction
    | _ => exact fun _ => h
  · obtain ⟨id, version, hwrote⟩ := h
    exact ⟨id, version, hwrote.mono fun _ hmem => List.mem_cons_of_mem _ hmem⟩

theorem recounts_writePatch {projectId : Uuid} {changes : UpdateIssueRequest} {old : FullIssue}
    (h : Read projectId id old.toIssue events)
    (hmatched : checkIfMatch patch.req.ifMatch (etag old.id old.version) = .ok ()) :
    Recounts (Newest (Told patch)) (writePatch projectId changes old)
      (fun answer => Told patch (.answered patch (.ok answer)))
      (fun problem => Told patch (.answered patch (.error problem))) events := by
  have hfailed : ∀ (problem : Problem) (events : List PatchEvent), Failed events →
      Told patch (.answered patch (.error problem)) events :=
    fun _ _ h => .inr fun _ => .inr (.inl h)
  unfold writePatch
  refine recounts_bind (S := fun outcome events => (∃ row, outcome = .updated row ∧
      ∃ id version, Wrote id version events) ∨ outcome = .conflict ∨
      (outcome = .notFound ∧ Vanished events)) ?_ ?_
  · apply recounts_attempt
    unfold updateRow
    refine recounts_bind (S := fun found events => (∃ row, found = some row ∧
      ∃ id version, Wrote id version events) ∨ (found = none ∧
        .ran (.selectIssue projectId id) (.ok (some old.toIssue)) ∈ events)) ?_ ?_
    · apply recounts_query
      intro result
      refine ⟨hmatched, ?_⟩
      rcases result with e | _ | row
      · exact recounts_throw (hfailed _ _ ⟨_, _, e, List.mem_cons_self⟩)
      · exact .inr ⟨rfl, List.mem_cons_of_mem _ h.found⟩
      · exact .inl ⟨row, rfl, _, _, _, _, row, List.mem_cons_self⟩
    · rintro found events (⟨row, rfl, hwrote⟩ | ⟨rfl, hread⟩)
      · exact recounts_pure (.inl ⟨row, rfl, hwrote⟩)
      · -- the row was not of the version any more
        refine recounts_bind (S := fun there events => there = false → Vanished events) ?_ ?_
        · apply recounts_query
          intro result
          refine ⟨(fun hreplaces => by cases hreplaces), ?_⟩
          cases result with
          | error e => exact recounts_throw (hfailed _ _ ⟨_, _, e, List.mem_cons_self⟩)
          | ok there =>
            rintro rfl
            exact ⟨projectId, id, old.toIssue, List.mem_cons_of_mem _ hread,
              List.mem_cons_self⟩
        · intro there events hvanished
          cases there with
          | true => exact recounts_pure (.inr (.inl rfl))
          | false => exact recounts_pure (.inr (.inr ⟨rfl, hvanished rfl⟩))
  · rintro outcome events (⟨row, rfl, hwrote⟩ | rfl | ⟨rfl, hvanished⟩)
    · refine recounts_bind ((recounts_written ((only_replaceSets row.id _ _ _ _).mono ?_)
        hwrote).mono (fun _ _ h => h) fun _ _ h => .inl h) ?_
      · intro β stmt hreplaces
        cases stmt <;> first | rfl | contradiction
      · intro _ events hwrote
        refine recounts_bind ((recounts_written ((only_reread projectId row.id).mono ?_)
          hwrote).mono (fun _ _ h => h) fun _ _ h => .inl h) ?_
        · intro β stmt hreads
          cases stmt <;> first | rfl | contradiction
        · exact fun full events hwrote => recounts_pure hwrote
    · exact recounts_throw (.inr fun _ => .inl (.inl rfl))
    · exact recounts_throw (.inr fun _ => .inr (.inr hvanished))

/-- A patch tells its course, whatever the results of its statements. -/
theorem tellsAll_told : patches.TellsAll fun patch => Justified (Told patch) := by
  apply Service.tellsAll_justified
  intro patch
  have hstart : Unread ([.began patch] : List PatchEvent) := by
    refine ⟨by simp, ?_⟩
    rintro ⟨projectId, id, version, w, hmem⟩
    rw [List.mem_singleton] at hmem
    cases hmem
  refine ⟨trivial, ?_⟩
  suffices hhandler : Recounts (Newest (Told patch)) (updateIssue patch.ctx patch.req)
      (fun answer => Told patch (.answered patch (.ok answer)))
      (fun problem => Told patch (.answered patch (.error problem))) [.began patch] by
    apply Prog.Tells.post hhandler
    rintro (e | a) events houtcome
    · exact houtcome
    · exact houtcome
  unfold updateIssue
  have hontime : ∀ problem {events : List PatchEvent}, ¬ Late patch events →
      Told patch (.answered patch (.error problem)) events :=
    fun problem _ h => told_of_refused problem (.inl h)
  refine recounts_bind (S := fun _ => Unread) ?_ ?_
  · cases patch.ctx.allowed with
    | true => exact hstart
    | false => exact hontime _ hstart.not_late
  intro _ events hunread
  refine recounts_bind (S := fun _ => Unread)
    (recounts_decided (fun _ _ => hunread) fun problem _ => hontime problem hunread.not_late) ?_
  intro changes events hunread
  refine recounts_bind ((recounts_readOld patch.ctx.projectId patch.req.id hunread).mono
    (fun _ _ h => h) fun problem _ h => told_of_refused problem h) ?_
  intro old events hfound
  refine recounts_bind (S := fun _ events =>
    Read patch.ctx.projectId patch.req.id old.toIssue events ∧
      checkIfMatch patch.req.ifMatch (etag old.id old.version) = .ok ())
    (recounts_decided (fun _ hmatched => ⟨hfound, hmatched⟩) fun problem hproblem =>
      .inr fun _ => .inl (.inr ⟨old.id, old.version, problem, hproblem, rfl⟩)) ?_
  rintro _ events ⟨hfound, hmatched⟩
  refine recounts_bind ((recounts_checks (only_validatePatch patch.ctx.projectId changes old)
    hfound).mono (fun _ _ h => h) fun problem _ h => hontime problem (h.not_late hmatched)) ?_
  exact fun _ events hfound => recounts_writePatch hfound hmatched

/-! ## Over a run -/

theorem only_patch (patch : Patch) : (patches.handler patch).Only (·.ofPatch = true) := by
  have hreads : ∀ {ε α : Type} {p : ExceptT ε (Prog Stmt) α}, p.run.Only (·.reads = true) →
      p.run.Only (·.ofPatch = true) := fun h => h.mono fun stmt hreads => by
    rw [Stmt.ofPatch, hreads]
    rfl
  show (updateIssue patch.ctx patch.req).run.Only _
  unfold updateIssue
  refine only_run_bind (only_ensure _ _) fun _ => ?_
  refine only_run_bind (only_decided _) fun changes => ?_
  refine only_run_bind (hreads (only_readOld _ _)) fun old => ?_
  refine only_run_bind (only_decided _) fun _ => ?_
  refine only_run_bind (hreads ((only_validatePatch _ _ _).mono fun _ =>
    Stmt.reads_of_checks)) fun _ => ?_
  unfold writePatch
  refine only_run_bind (only_orInternal ?_) fun outcome => ?_
  · unfold updateRow
    refine only_run_bind (only_query rfl) fun found => ?_
    cases found with
    | some row => trivial
    | none =>
      refine only_run_bind (only_query rfl) fun there => ?_
      cases there <;> trivial
  · cases outcome with
    | notFound => trivial
    | conflict => trivial
    | updated row =>
      refine only_run_bind ((only_replaceSets row.id _ _ _ _).mono fun stmt hreplaces => ?_)
        fun _ => ?_
      · rw [Stmt.ofPatch, hreplaces, Bool.or_true]
      · exact only_run_bind (hreads (only_reread _ _)) fun _ => trivial

/-- What a patch does is the same at another time. -/
theorem blind_patches : patches.Blind SameTables (·.ofPatch = true) := by
  intro β stmt choice s s' hstmt hsame
  have hs' : s' = s.setClock s'.now := hsame
  show (stmt.exec choice s).1 = (stmt.exec choice s').1 ∧
    SameTables (stmt.exec choice s).2 (stmt.exec choice s').2
  unfold Stmt.exec
  have hlater : ({ s' with now := s'.now + choice.elapse } : Db) =
      s.setClock (s'.now + choice.elapse) := by rw [hs']; rfl
  have hnow : ({ s with now := s.now + choice.elapse } : Db) =
      s.setClock (s.now + choice.elapse) := rfl
  dsimp only
  rw [hlater, hnow]
  split
  · rw [failure_setClock hstmt, failure_setClock hstmt]
    exact ⟨rfl, rfl⟩
  · rw [effect_setClock hstmt, effect_setClock hstmt]
    exact ⟨rfl, rfl⟩

theorem updateIssue_writes_or (projectId id : Uuid) (version : Nat) (w : IssueWrite) (db : Db) :
    (∃ row db', db.updateIssue projectId id version w = (.ok (some row), db')) ∨
      (db.updateIssue projectId id version w).2 = db := by
  by_cases hwrites : ∃ row, (db.updateIssue projectId id version w).1 = .ok (some row)
  · obtain ⟨row, hrow⟩ := hwrites
    exact .inl ⟨row, _, Prod.ext hrow rfl⟩
  · exact .inr (Db.updateIssue_missed fun row hrow => hwrites ⟨row, hrow⟩)

/-- Whether the issue is there, for a project. -/
theorem isSome_selectIssue_exec (hstmt : stmt.ofPatch = true) (choice : Choice) (db : Db)
    (projectId id : Uuid) :
    ((stmt.exec choice db).2.selectIssue projectId id).isSome =
      (db.selectIssue projectId id).isSome := by
  unfold Stmt.exec
  dsimp only
  split
  · rfl
  · rw [Db.isSome_selectIssue, Db.isSome_selectIssue]
    cases stmt with
    | updateIssue projectId' id' version w =>
      rcases updateIssue_writes_or projectId' id' version w { db with now := db.now + choice.elapse }
        with ⟨row, db', hresult⟩ | hsame
      · obtain ⟨hbefore, hafter, hothers⟩ := mark_updateIssue hresult
        have hstate : (Stmt.effect (.updateIssue projectId' id' version w)
            { db with now := db.now + choice.elapse }).2 = db' := congrArg Prod.snd hresult
        have hmark : db.mark id' = some (version, projectId', none) := hbefore
        rw [hstate]
        by_cases hid : id = id'
        · rw [hid, hafter, hmark]
          rfl
        · rw [hothers id hid]
          rfl
      · have hstate : (Stmt.effect (.updateIssue projectId' id' version w)
            { db with now := db.now + choice.elapse }).2 =
              { db with now := db.now + choice.elapse } := hsame
        rw [hstate]
        rfl
    | insertIssue projectId ownerId reference w => contradiction
    | _ => first | contradiction | exact congrArg _ (mark_effect rfl rfl _ id)

/-- What the reads of a run have found is what was there at its start. -/
structure Standing (start : Db) (w : World Stmt Db Patch (Except Problem Answer)) : Prop where
  state : ∀ projectId id, (w.state.selectIssue projectId id).isSome =
    (start.selectIssue projectId id).isSome
  read : ∀ i projectId id row, (i, .ran (.selectIssue projectId id) (.ok (some row))) ∈ w.log →
    row.id = id ∧ (start.selectIssue projectId id).isSome
  there : ∀ i projectId id found, (i, .ran (.issueExists projectId id) (.ok found)) ∈ w.log →
    found = (start.selectIssue projectId id).isSome

theorem standing_run (db : Db) (labels : List (Label Patch Choice)) :
    Standing db (patches.run (initial db) labels).world := by
  refine patches.stepOf_run (P := fun _ {_} stmt => stmt.ofPatch = true) only_patch ?_
    (Service.attributed_initial db) ?_ labels
  · intro w w' hstep h
    cases hstep with
    | void => exact h
    | began i request | answered i request answer hbegan =>
      refine ⟨h.state, ?_, ?_⟩
      · intro j projectId id row hmem
        rcases List.mem_cons.mp hmem with heq | hold
        · cases (Prod.mk.inj heq).2
        · exact h.read j projectId id row hold
      · intro j projectId id found hmem
        rcases List.mem_cons.mp hmem with heq | hold
        · cases (Prod.mk.inj heq).2
        · exact h.there j projectId id found hold
    | issued i request stmt choice hbegan hmay =>
      refine ⟨?_, ?_, ?_⟩
      · intro projectId id
        exact (isSome_selectIssue_exec hmay choice w.state projectId id).trans
          (h.state projectId id)
      · intro j projectId id row hmem
        rcases List.mem_cons.mp hmem with heq | hold
        · have hevent := (Prod.mk.inj heq).2
          generalize hresult : (patches.exec stmt choice w.state).1 = result at hevent
          cases hevent
          have hread := ((reads_selectIssue projectId id).exec choice w.state).2 _ hresult
          refine ⟨Table.key_of_find? (Option.filter_eq_some_iff.mp hread.symm).1, ?_⟩
          rw [← h.state, ← hread]
          rfl
        · exact h.read j projectId id row hold
      · intro j projectId id found hmem
        rcases List.mem_cons.mp hmem with heq | hold
        · have hevent := (Prod.mk.inj heq).2
          generalize hresult : (patches.exec stmt choice w.state).1 = result at hevent
          cases hevent
          rw [((reads_issueExists projectId id).exec choice w.state).2 _ hresult]
          exact h.state projectId id
        · exact h.there j projectId id found hold
  · refine ⟨fun _ _ => rfl, ?_, ?_⟩
    · exact fun _ _ _ _ hmem => by contradiction
    · exact fun _ _ _ _ hmem => by contradiction

/-- So the issue that a patch has read does not go. -/
theorem not_vanished {db : Db} {labels : List (Label Patch Choice)} (i : Nat) :
    ¬ Vanished ((patches.run (initial db) labels).world.own i) := by
  rintro ⟨projectId, id, row, hread, hgone⟩
  have hstanding := standing_run db labels
  obtain ⟨hid, hfound⟩ := hstanding.read i projectId id row (World.mem_own.mp hread)
  have hthere := hstanding.there i projectId row.id false (World.mem_own.mp hgone)
  rw [hid, hfound] at hthere
  contradiction

/-! ## One writer -/

/-- The update of this version that wrote the row. -/
def wins (id : Uuid) (version : Nat) : PatchEvent → Bool
  | .ran (.updateIssue _ id' version' _) (.ok (some _)) => id' == id && version' == version
  | _ => false

/-- What leads to this version: a new issue, or an update of the version before. -/
def opens (id : Uuid) (version : Nat) : PatchEvent → Bool
  | .ran (.insertIssue _ _ _ _) _ => true
  | .ran (.updateIssue _ id' version' _) (.ok (some _)) => id' == id && version' + 1 == version
  | _ => false

/-- One while the issue is of this version. -/
def Db.openAt (id : Uuid) (version : Nat) (db : Db) : Nat :=
  if (db.mark id).any (·.1 == version) then 1 else 0

theorem openAt_le_one (id : Uuid) (version : Nat) (db : Db) : db.openAt id version ≤ 1 := by
  unfold Db.openAt
  split
  · exact Nat.le_refl _
  · exact Nat.zero_le _

theorem openAt_congr {db db' : Db} (h : db'.mark id = db.mark id) :
    db'.openAt id version = db.openAt id version := by
  rw [Db.openAt, Db.openAt, h]

theorem mark_exec (hupdates : stmt.updates = false) (hinserts : stmt.inserts = false)
    (choice : Choice) (db : Db) (id : Uuid) : (stmt.exec choice db).2.mark id = db.mark id := by
  unfold Stmt.exec
  dsimp only
  split
  · rfl
  · exact mark_effect hupdates hinserts _ id

/-- A statement that neither wins nor opens leaves the version as it is. -/
theorem ledger_kept {result : β} {s s' : Db} (hwins : wins id version (.ran stmt result) = false)
    (hopens : opens id version (.ran stmt result) = false) (hmark : s'.mark id = s.mark id) :
    (wins id version (.ran stmt result)).toNat + s'.openAt id version ≤
      s.openAt id version + (opens id version (.ran stmt result)).toNat := by
  rw [hwins, hopens, openAt_congr hmark, Bool.toNat_false, Nat.zero_add, Nat.add_zero]

theorem ledger_version (id : Uuid) (version : Nat) :
    patches.Ledger (wins id version) (opens id version) (Db.openAt id version) := by
  refine ⟨?_, fun _ => rfl, fun _ _ => rfl⟩
  intro β stmt choice s
  show (wins id version (.ran stmt (stmt.exec choice s).1)).toNat +
      (stmt.exec choice s).2.openAt id version ≤
    s.openAt id version + (opens id version (.ran stmt (stmt.exec choice s).1)).toNat
  cases stmt with
  | insertIssue projectId ownerId reference w =>
    have hbound := openAt_le_one id version
      ((Stmt.insertIssue projectId ownerId reference w).exec choice s).2
    simp only [wins, opens, Bool.toNat_false, Bool.toNat_true]
    omega
  | updateIssue projectId id' version' w =>
    unfold Stmt.exec
    dsimp only
    split
    · exact ledger_kept rfl rfl rfl
    · show (wins id version (.ran _ (Db.updateIssue projectId id' version' w _).1)).toNat +
          (Db.updateIssue projectId id' version' w _).2.openAt id version ≤
        s.openAt id version +
          (opens id version (.ran _ (Db.updateIssue projectId id' version' w _).1)).toNat
      have hcases := updateIssue_writes_or projectId id' version' w
        { s with now := s.now + choice.elapse }
      generalize hresult : Db.updateIssue projectId id' version' w
        { s with now := s.now + choice.elapse } = result at hcases
      obtain ⟨outcome, db'⟩ := result
      by_cases hwrites : ∃ row, outcome = .ok (some row)
      · obtain ⟨row, rfl⟩ := hwrites
        obtain ⟨hbefore, hafter, hothers⟩ := mark_updateIssue hresult
        have hs : s.mark id' = some (version', projectId, none) := hbefore
        by_cases hid : id' = id
        · subst hid
          simp [wins, opens, Db.openAt, hs, hafter, Bool.toNat, cond_eq_ite]
        · refine ledger_kept ?_ ?_ (hothers id (Ne.symm hid))
          · simp [wins, hid]
          · simp [opens, hid]
      · have hsame : db' = { s with now := s.now + choice.elapse } := by
          rcases hcases with ⟨row, db'', heq⟩ | hsame
          · exact absurd ⟨row, (Prod.mk.inj heq).1⟩ hwrites
          · exact hsame
        have hnone : wins id version (.ran (.updateIssue projectId id' version' w) outcome) = false ∧
            opens id version (.ran (.updateIssue projectId id' version' w) outcome) = false := by
          rcases outcome with e | found
          · exact ⟨rfl, rfl⟩
          · cases found with
            | none => exact ⟨rfl, rfl⟩
            | some row => exact absurd ⟨row, rfl⟩ hwrites
        exact ledger_kept hnone.1 hnone.2 (by rw [hsame]; rfl)
  | _ => exact ledger_kept rfl rfl (mark_exec rfl rfl choice s id)

/-! ## Patches with one tag -/

/-- Every statement of a run is one of a patch. -/
theorem ofPatch_run (db : Db) (labels : List (Label Patch Choice)) :
    ∀ i {β : Type} (stmt : Stmt β) result,
      (i, .ran stmt result) ∈ (patches.run (initial db) labels).world.log →
        stmt.ofPatch = true := by
  refine patches.stepOf_run (P := fun _ {_} stmt => stmt.ofPatch = true)
    (I := fun w => ∀ i {β : Type} (stmt : Stmt β) result,
      (i, .ran stmt result) ∈ w.log → stmt.ofPatch = true) only_patch ?_
    (Service.attributed_initial db) ?_ labels
  · intro w w' hstep h
    cases hstep with
    | void => exact h
    | began j request | answered j request answer hbegan =>
      intro i β stmt result hmem
      rcases List.mem_cons.mp hmem with heq | hold
      · cases (Prod.mk.inj heq).2
      · exact h i stmt result hold
    | issued j request stmt' choice hbegan hmay =>
      intro i β stmt result hmem
      rcases List.mem_cons.mp hmem with heq | hold
      · have hevent := (Prod.mk.inj heq).2
        generalize (patches.exec stmt' choice w.state).1 = result' at hevent
        cases hevent
        exact hmay
      · exact h i stmt result hold
  · intro i β stmt result hmem
    contradiction

section Tagged

variable {db : Db} {labels : List (Label Patch Choice)} {id : Uuid} {version : Nat} {i : Nat}

/-- A program with events has been started, and tells its course. -/
theorem told_of_mem {event : PatchEvent}
    (hmem : (i, event) ∈ (patches.run (initial db) labels).world.log) :
    ∃ patch, .start patch ∈ labels ∧
      ∃ earlier, Told patch event earlier ∧
        ∀ other ∈ earlier, other ∈ (patches.run (initial db) labels).world.own i := by
  have hi := patches.started_run (Service.started_initial db) labels _ hmem
  obtain ⟨thread, hthread⟩ : ∃ thread,
      (patches.run (initial db) labels).threads[i]? = some thread :=
    ⟨_, List.getElem?_eq_getElem hi⟩
  have hbegan := (patches.attributed_run only_patch (Service.attributed_initial db) labels i thread
    hthread).1
  have hown := patches.own_run tellsAll_told db labels i thread hthread
  obtain ⟨later, earlier, hevents, htold⟩ := hown.of_mem (World.mem_own.mpr hmem)
  refine ⟨thread.request, ?_, earlier, htold, ?_⟩
  · rcases patches.started_of_began _ hbegan with hbefore | hstart
    · contradiction
    · exact hstart
  · intro other hother
    rw [hevents]
    exact List.mem_append_right _ (List.mem_cons_of_mem _ hother)

/-- All patches carry the tag of this version. -/
def Tagged (id : Uuid) (version : Nat) (labels : List (Label Patch Choice)) : Prop :=
  ∀ patch, .start patch ∈ labels → Carries id version patch.req.ifMatch

variable {id' : Uuid} {version' : Nat}

theorem Tagged.update (htagged : Tagged id version labels) {projectId : Uuid} {w : IssueWrite}
    {result : Except DbError (Option Issue)}
    (hmem : (i, .ran (.updateIssue projectId id' version' w) result) ∈
      (patches.run (initial db) labels).world.log) : id' = id ∧ version' = version := by
  obtain ⟨patch, hstart, _, htold, _⟩ := told_of_mem hmem
  exact (htagged patch hstart id' version').mp htold

theorem Tagged.one_win (htagged : Tagged id version labels) :
    (patches.run (initial db) labels).world.count (wins id version) ≤ 1 := by
  have hledger := patches.ledger_run (ledger_version id version) db labels
  have hopens : (patches.run (initial db) labels).world.count (opens id version) = 0 := by
    refine List.countP_eq_zero.mpr ?_
    rintro ⟨i, event⟩ hmem hopens
    cases event with
    | began request => contradiction
    | answered request answer => contradiction
    | ran stmt result =>
      have hstmt := ofPatch_run db labels i stmt result hmem
      cases stmt with
      | insertIssue projectId ownerId reference w => contradiction
      | updateIssue projectId id' version' w =>
        obtain ⟨rfl, rfl⟩ := htagged.update hmem
        rcases result with e | found
        · contradiction
        · cases found with
          | none => contradiction
          | some row => simp [opens] at hopens
      | _ => contradiction
  have hbound := openAt_le_one id version db
  omega

/-- Two patches do not both write the row. -/
theorem Tagged.not_wrote (htagged : Tagged id version labels) {j : Nat} (hne : i ≠ j) {id'' : Uuid}
    {version'' : Nat} (hi : Wrote id' version' ((patches.run (initial db) labels).world.own i))
    (hj : Wrote id'' version'' ((patches.run (initial db) labels).world.own j)) : False := by
  obtain ⟨projectId, w, row, hmem⟩ := hi
  obtain ⟨projectId', w', row', hmem'⟩ := hj
  have hi := World.mem_own.mp hmem
  have hj := World.mem_own.mp hmem'
  obtain ⟨rfl, rfl⟩ := htagged.update hi
  obtain ⟨rfl, rfl⟩ := htagged.update hj
  have hwins : ∀ projectId w row, wins id'' version''
      (.ran (.updateIssue projectId id'' version'' w) (.ok (some row))) = true :=
    fun projectId w row => by simp [wins]
  have htwo := World.two_le_count hne hi hj (hwins _ _ _) (hwins _ _ _)
  have hone : (patches.run (initial db) labels).world.count (wins id'' version'') ≤ 1 :=
    htagged.one_win
  omega

theorem wrote_of_answered {answer : Answer}
    (h : Service.Answered (patches.run (initial db) labels) i patch (.ok answer)) :
    ∃ id version, Wrote id version ((patches.run (initial db) labels).world.own i) := by
  obtain ⟨earlier, -, ⟨id, version, hwrote⟩, hearlier⟩ :=
    patches.told_of_answered tellsAll_told db labels h
  exact ⟨id, version, hwrote.mono fun event hevent => World.mem_own.mpr (hearlier event hevent)⟩

/-- A statement of a patch that neither writes the row nor replaces a set. -/
theorem sameTables_exec {β : Type} {stmt : Stmt β} (hstmt : stmt.ofPatch = true)
    (hreplaces : stmt.replaces = false) {choice : Choice} {s : Db}
    (hmissed : ∀ projectId id version w row, (.ran stmt (stmt.exec choice s).1 : PatchEvent) ≠
      .ran (.updateIssue projectId id version w) (.ok (some row))) :
    SameTables s (stmt.exec choice s).2 := by
  have hlater : SameTables s { s with now := s.now + choice.elapse } := rfl
  unfold Stmt.exec at hmissed ⊢
  dsimp only at hmissed ⊢
  split at hmissed
  · rename_i hfails
    rw [if_pos hfails]
    exact hlater
  · rename_i hfails
    rw [if_neg hfails]
    cases stmt with
    | updateIssue projectId id version w =>
      rcases updateIssue_writes_or projectId id version w { s with now := s.now + choice.elapse }
        with ⟨row, db', hresult⟩ | hsame
      · have hfirst : (Stmt.effect (.updateIssue projectId id version w)
            { s with now := s.now + choice.elapse }).1 = .ok (some row) := congrArg Prod.fst hresult
        exact absurd (by rw [hfirst]) (hmissed projectId id version w row)
      · have hstate : (Stmt.effect (.updateIssue projectId id version w)
            { s with now := s.now + choice.elapse }).2 = { s with now := s.now + choice.elapse } :=
          hsame
        rw [hstate]
        exact hlater
    | _ => first | contradiction | exact hlater

/-- A step of a patch that never writes the row leaves all tables as they are. -/
theorem sameTables_step {first last : List (Label Patch Choice)} {label : Label Patch Choice}
    (hlabels : labels = first ++ label :: last)
    (hnot : ∀ j event, (patches.step (patches.run (initial db) first) label).world.log =
        (j, event) :: (patches.run (initial db) first).world.log →
      ∀ id version,
        ¬ Wrote id version ((patches.run (initial db) labels).world.own j)) :
    SameTables (patches.run (initial db) first).world.state
      (patches.step (patches.run (initial db) first) label).world.state := by
  have hstep := patches.stepOf (P := fun _ {_} stmt => stmt.ofPatch = true)
    (patches.attributed_run only_patch (Service.attributed_initial db) first) label
  have hlater : ∀ entry ∈ (patches.step (patches.run (initial db) first) label).world.log,
      entry ∈ (patches.run (initial db) labels).world.log := by
    intro entry hentry
    rw [hlabels, Service.run_append, Service.run_cons]
    exact patches.log_run _ last entry hentry
  generalize (patches.run (initial db) first).world = w at hstep hnot ⊢
  generalize (patches.step (patches.run (initial db) first) label).world = w'
    at hstep hnot hlater ⊢
  cases hstep with
  | void | began j request | answered j request answer hbegan => exact SameTables.refl _
  | issued j request stmt choice hbegan hmay =>
    have hmem := hlater _ List.mem_cons_self
    have hnever := hnot j _ rfl
    obtain ⟨patch, -, earlier, htold, hearlier⟩ := told_of_mem hmem
    have hreplaces : stmt.replaces = false := by
      rw [← Bool.not_eq_true]
      intro hreplaces
      obtain ⟨id, version, hwrote⟩ := htold.replaces hreplaces
      exact hnever id version (hwrote.mono hearlier)
    refine sameTables_exec hmay hreplaces ?_
    intro projectId id version w' row heq
    refine hnever id version ⟨projectId, w', row, World.mem_own.mpr ?_⟩
    rw [← heq]
    exact hmem

/-- So a patch that writes the row is answered as it would be alone, and leaves what
it would leave alone. -/
theorem alone_of_wrote (htagged : Tagged id version labels) {answer : Except Problem Answer}
    (hanswered : Service.Answered (patches.run (initial db) labels) i patch answer)
    (hwrote : Wrote id' version' ((patches.run (initial db) labels).world.own i)) :
    ∃ choices : Nat → Choice, (∀ n, choices n = {} ∨ .run i (choices n) ∈ labels) ∧
      ∃ s', (patches.handler patch).alone Stmt.exec choices db = (answer, s') ∧
        SameTables s' (patches.run (initial db) labels).world.state := by
  refine patches.alone_of_silent SameTables.refl (fun _ _ _ => SameTables.trans) blind_patches
    only_patch (patches.admits_iff.mpr ?_) hanswered {}
  intro first label last hlabels j event hlog hne
  refine sameTables_step hlabels ?_
  intro j' event' hlog' id'' version'' hj
  rw [hlog] at hlog'
  obtain ⟨rfl, -⟩ := Prod.mk.inj (List.cons.inj hlog').1
  exact htagged.not_wrote hne hj hwrote

end Tagged

/-! ## Patches without a tag -/

theorem only_untagged (h : patch.req.ifMatch = none) :
    (patches.handler patch).Only (·.reads = true) := by
  show (updateIssue patch.ctx patch.req).run.Only _
  unfold updateIssue
  refine only_run_bind (only_ensure _ _) fun _ => ?_
  refine only_run_bind (only_decided _) fun changes => ?_
  refine only_run_bind (only_readOld _ _) fun old => ?_
  rw [h]
  trivial

/-- One patch after the other, each under the choices made for it. -/
def inOrder (db : Db) (order : List (Patch × (Nat → Choice))) : Db :=
  order.foldl (fun s turn => ((patches.handler turn.1).alone Stmt.exec turn.2 s).2) db

theorem sameTables_inOrder {order : List (Patch × (Nat → Choice))}
    (huntagged : ∀ turn ∈ order, turn.1.req.ifMatch = none) (db : Db) :
    SameTables db (inOrder db order) := by
  induction order generalizing db with
  | nil => exact SameTables.refl db
  | cons turn order ih =>
    have hturn := huntagged turn List.mem_cons_self
    have hends : (patches.handler turn.1).Ends Stmt.exec (fun _ => True)
        (fun _ s => SameTables db s) db :=
      Prog.ends_of_only (I := SameTables db) (fun stmt choice s hreads hsame =>
        SameTables.trans hsame (sameTables_reads hreads choice s)) (only_untagged hturn)
        (SameTables.refl db)
    have hfirst : SameTables db ((patches.handler turn.1).alone Stmt.exec turn.2 db).2 :=
      hends.alone fun _ => trivial
    exact SameTables.trans hfirst (ih (fun turn hmem => huntagged turn (List.mem_cons_of_mem _ hmem)) _)

section Untagged

variable {db : Db} {labels : List (Label Patch Choice)}
  (huntagged : ∀ patch, .start patch ∈ labels → patch.req.ifMatch = none)
include huntagged

/-- Without a tag no row is written. -/
theorem untagged_not_wrote (j id version : Nat) :
    ¬ Wrote id version ((patches.run (initial db) labels).world.own j) := by
  rintro ⟨projectId, w, row, hmem⟩
  obtain ⟨patch, hstart, _, hmatched, _⟩ := told_of_mem (World.mem_own.mp hmem)
  unfold Told at hmatched
  rw [huntagged patch hstart] at hmatched
  contradiction

theorem untagged_sameTables :
    SameTables db (patches.run (initial db) labels).world.state := by
  have hadmits : patches.Admits (fun _ w w' => SameTables w.state w'.state) (initial db)
      labels := by
    refine patches.admits_iff.mpr ?_
    intro first label last hlabels
    exact sameTables_step hlabels fun j _ _ id version => untagged_not_wrote huntagged j id version
  exact patches.admitted_run (P := fun _ {_} _ => True) (I := fun w => SameTables db w.state)
    (fun _ => Prog.only_true _) (fun _ w w' _ hsame hbefore => SameTables.trans hbefore hsame)
    (Service.attributed_initial db) (SameTables.refl db) labels hadmits

end Untagged

/-! ## No update is lost -/

theorem status_of_stale (hcarries : Carries id version patch.req.ifMatch) {problem : Problem}
    (h : Stale patch (.error problem)) : problem.status = 412 := by
  rcases h with heq | ⟨id', version', problem', hproblem, heq⟩
  · rw [Except.error.inj heq]
    rfl
  · rw [Except.error.inj heq]
    cases hheader : patch.req.ifMatch with
    | none =>
      have hmatched := (hcarries id version).mpr ⟨rfl, rfl⟩
      rw [hheader] at hmatched
      contradiction
    | some value =>
      rw [hheader] at hproblem
      unfold checkIfMatch at hproblem
      dsimp only at hproblem
      split at hproblem
      · contradiction
      · rw [← Except.error.inj hproblem]
        rfl

/-- Of the patches that carry the tag of one version at most one succeeds, and the
tables are as it leaves them alone. The others answer errors, and 412 where they
come to know of another version and no statement of theirs fails. Patches without
a tag change nothing, in whatever order. -/
theorem patches_lose_nothing (db : Db) (labels : List (Label Patch Choice)) :
    (∀ id version, (∀ patch, .start patch ∈ labels → Carries id version patch.req.ifMatch) →
      ∀ i patch answer,
        Service.Answered (patches.run (initial db) labels) i patch (.ok answer) →
        (∃ choices : Nat → Choice, (∀ n, choices n = {} ∨ .run i (choices n) ∈ labels) ∧
          ∃ s', (patches.handler patch).alone Stmt.exec choices db = (.ok answer, s') ∧
            SameTables s' (patches.run (initial db) labels).world.state) ∧
        ∀ j patch' result, j ≠ i →
          Service.Answered (patches.run (initial db) labels) j patch' result →
            ∃ problem, result = .error problem ∧
              (Late patch' ((patches.run (initial db) labels).world.own j) →
                ¬ Failed ((patches.run (initial db) labels).world.own j) →
                  problem.status = 412)) ∧
    ((∀ patch, .start patch ∈ labels → patch.req.ifMatch = none) →
      ∀ order : List (Patch × (Nat → Choice)), (∀ turn ∈ order, .start turn.1 ∈ labels) →
        SameTables (inOrder db order) (patches.run (initial db) labels).world.state) := by
  refine ⟨?_, ?_⟩
  · intro id version htagged i patch answer hwinner
    obtain ⟨id', version', hwrote⟩ := wrote_of_answered hwinner
    refine ⟨alone_of_wrote htagged hwinner hwrote, ?_⟩
    intro j patch' result hne hloser
    have hnot : ∀ id version,
        ¬ Wrote id version ((patches.run (initial db) labels).world.own j) :=
      fun id version hj => Tagged.not_wrote htagged hne hj hwrote
    cases result with
    | ok answer' =>
      obtain ⟨id'', version'', hj⟩ := wrote_of_answered hloser
      exact absurd hj (hnot id'' version'')
    | error problem =>
      refine ⟨problem, rfl, ?_⟩
      intro hlate hfailed
      obtain ⟨earlier, hown, htold, -⟩ := patches.told_of_answered tellsAll_told db labels hloser
      obtain ⟨todo, hthread⟩ := hloser
      have hbegan := (patches.attributed_run only_patch (Service.attributed_initial db) labels j
        _ hthread).1
      have hvanished : ¬ Vanished ((patches.run (initial db) labels).world.own j) :=
        not_vanished j
      rw [hown] at hnot hlate hfailed hvanished
      have hmem : ∀ event ∈ earlier, event ∈ (.answered patch' (.error problem) :: earlier :
          List PatchEvent) := fun _ => List.mem_cons_of_mem _
      rcases htold with ⟨id'', version'', hj⟩ | hlost
      · exact absurd (hj.mono hmem) (hnot id'' version'')
      · rcases hlost hlate.of_answered with hstale | ⟨β, stmt, e, hbad⟩ |
          ⟨projectId, id'', row, hread, hgone⟩
        · rcases patches.started_of_began _ hbegan with hbefore | hstart
          · contradiction
          · exact status_of_stale (htagged patch' hstart) hstale
        · exact absurd ⟨β, stmt, e, hmem _ hbad⟩ hfailed
        · exact absurd ⟨projectId, id'', row, hmem _ hread, hmem _ hgone⟩ hvanished
  · intro huntagged order horder
    have hserial := sameTables_inOrder (fun turn hmem => huntagged turn.1 (horder turn hmem)) db
    exact SameTables.trans hserial.symm (untagged_sameTables huntagged)

/-- An issue of the first version, whose component is fixed in the first of its versions. -/
def versionedOnce : Db := server.run shippedTwice [versioned]

/-- A patch of that issue, of its first version. -/
def ofFirst (changes : UpdateIssueRequest) : Patch := ⟨planner, 1, some (etag 1 1), .ok changes⟩

/-- Takes the component away. -/
def detaching : Patch := ofFirst { components := some [] }

/-- Fixes the component in the other version. -/
def refixing : Patch := ofFirst { componentVersions := some [⟨5, 21⟩] }

/-- The first patch runs to its end between the reads of the second. -/
def between : List (Label Patch Choice) :=
  [.start detaching, .start refixing, .run 1 {}] ++ List.replicate 16 (.run 0 {}) ++
    List.replicate 16 (.run 1 {})

theorem tagged_between (patch : Patch) (h : .start patch ∈ between) :
    Carries 1 1 patch.req.ifMatch := by
  have hcases : patch = detaching ∨ patch = refixing := by
    simpa [between, List.mem_replicate] using h
  rcases hcases with rfl | rfl
  · exact carries_etag 1 1
  · exact carries_etag 1 1

/-- The status of an error. -/
def refusal : Except Problem Answer → Option Nat
  | .ok _ => none
  | .error problem => some problem.status

theorem between_run :
    (patches.run (initial versionedOnce) between).threads.map
      (fun thread => thread.answer.map refusal) = [some none, some (some 422)] := by
  decide +kernel

theorem between_answered {i : Nat} {status : Option Nat}
    (h : [some none, some (some 422)][i]? = some (some status)) :
    ∃ patch result,
      Service.Answered (patches.run (initial versionedOnce) between) i patch result ∧
        refusal result = status := by
  rw [← between_run, List.getElem?_map] at h
  obtain ⟨⟨patch, todo, answer⟩, hthread, hstatus⟩ := Option.map_eq_some_iff.mp h
  obtain ⟨result, rfl, hresult⟩ := Option.map_eq_some_iff.mp hstatus
  exact ⟨patch, result, ⟨todo, hthread⟩, hresult⟩

theorem between_won : ∃ patch answer,
    Service.Answered (patches.run (initial versionedOnce) between) 0 patch (.ok answer) := by
  obtain ⟨patch, result, hanswered, hstatus⟩ := between_answered (i := 0) rfl
  cases result with
  | ok answer => exact ⟨patch, answer, hanswered⟩
  | error problem => contradiction

/-- A patch with no tag. -/
def untagged : Patch := ⟨planner, 1, none, .ok { labels := some [] }⟩

theorem patches_lose_nothing_between :
    (∃ patch answer, ∃ choices : Nat → Choice, ∃ s',
      (patches.handler patch).alone Stmt.exec choices versionedOnce = (.ok answer, s') ∧
        SameTables s' (patches.run (initial versionedOnce) between).world.state) ∧
    SameTables (inOrder versionedOnce [(untagged, fun _ => {})])
      (patches.run (initial versionedOnce) [.start untagged, .run 0 {}]).world.state := by
  refine ⟨?_, ?_⟩
  · obtain ⟨patch, answer, hwon⟩ := between_won
    obtain ⟨⟨choices, -, s', halone, hsame⟩, -⟩ :=
      (patches_lose_nothing versionedOnce between).1 1 1 tagged_between 0 patch answer hwon
    exact ⟨patch, answer, choices, s', halone, hsame⟩
  · refine (patches_lose_nothing versionedOnce _).2 ?_ _ ?_
    · intro patch hstart
      have hpatch : patch = untagged := by simpa using hstart
      rw [hpatch]
      rfl
    · intro turn hturn
      rw [List.mem_singleton.mp hturn]
      exact List.mem_cons_self

/-- A patch that read the row before the other wrote it is refused by its own checks. -/
theorem loser_not_412 :
    ¬ ∀ (db : Db) (labels : List (Label Patch Choice)) (id version : Nat),
      (∀ patch, .start patch ∈ labels → Carries id version patch.req.ifMatch) →
        ∀ i j patch patch' answer result, j ≠ i →
          Service.Answered (patches.run (initial db) labels) i patch (.ok answer) →
          Service.Answered (patches.run (initial db) labels) j patch' result →
            ∃ problem, result = .error problem ∧ problem.status = 412 := by
  intro h
  obtain ⟨patch, answer, hwon⟩ := between_won
  obtain ⟨patch', result, hlost, hstatus⟩ := between_answered (i := 1) rfl
  obtain ⟨problem, rfl, h412⟩ := h versionedOnce between 1 1 tagged_between 0 1 patch patch' answer
    result (by decide) hwon hlost
  have h422 : problem.status = 422 := Option.some.inj hstatus
  omega

end IntelliPilot.Issues
