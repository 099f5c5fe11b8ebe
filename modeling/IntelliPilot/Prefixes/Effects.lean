import IntelliPilot.Prefixes.Handlers

/-! # What a request does to prefixes

A request creates a project, renames one or deletes one, or it changes nothing.
Projects keep distinct prefixes, deleted projects included.
-/

namespace IntelliPilot.Prefixes

open Statement
open Http (Problem internal)
open Projects (Uuid ProjectContext)
open Search (State Project)

/-! ## What a request does -/

abbrev evaluate {α : Type} (faults : Faults) (p : Handler α) (s : State) :
    Except Problem α × State :=
  evaluated exec faults p s

/-- The statements that only read. -/
def Reads {α : Type} : Stmt α → Prop
  | .prefixExists _ _ => True
  | .findById _ => True
  | .findByPrefix _ => True
  | .findIdByHistoricPrefix _ => True
  | .access _ _ => True
  | .isActiveSuperadmin _ => True
  | _ => False

theorem exec_reads {α : Type} {stmt : Stmt α} (h : Reads stmt) (faults : Faults) (s : State) :
    (exec stmt faults s).2 = s := by
  cases stmt with
  | prefixExists issuePrefix exclude | findById id | findByPrefix issuePrefix
  | findIdByHistoricPrefix issuePrefix | access projectId userId
  | isActiveSuperadmin userId => simp only [exec, attempt]; split <;> rfl
  | create name issuePrefix isPrivate | update id upd | recordPrefixHistory projectId oldPrefix
  | softDelete id => exact h.elim

theorem evaluate_reads {α : Type} {faults : Faults} {p : Handler α} (hp : p.run.Only Reads)
    (s : State) : (evaluate faults p s).2 = s :=
  evaluated_reads (fun _ choice s hstmt => exec_reads hstmt choice s) hp s

theorem firstFree_reads (candidates : List String) : (firstFree candidates).run.Only Reads := by
  induction candidates with
  | nil => trivial
  | cons cand rest ih =>
    apply only_run_bind (Prog.only_call trivial)
    intro taken
    cases taken with
    | false => trivial
    | true => exact ih

theorem orInternal_reads {α : Type} {p : ExceptT DbError (Prog Stmt) α} (hp : p.run.Only Reads) :
    (orInternal p).run.Only Reads := Prog.only_bind hp fun _ => trivial

theorem explicitPrefix_reads (issuePrefix : String) (exclude : Option Uuid) :
    (explicitPrefix issuePrefix exclude).run.Only Reads := by
  apply only_run_bind (only_orRefuse trivial _)
  intro taken
  apply only_run_bind (only_refuseUnless _ _)
  exact fun _ => trivial

theorem askedPrefix_reads (projectId : Uuid) (issuePrefix : Option String) :
    (askedPrefix projectId issuePrefix).run.Only Reads := by
  cases issuePrefix with
  | none => trivial
  | some p => exact only_run_bind (explicitPrefix_reads p _) fun _ => trivial

theorem loadProject_reads (ctx : ProjectContext) : (loadProject ctx).run.Only Reads := by
  apply only_run_bind (only_orRefuse trivial _)
  intro row
  apply only_run_bind (only_given _)
  intro project
  apply only_run_bind (only_refuseUnless _ _)
  exact fun _ => trivial

/-- The prefix a project gives up, where an update changes it. -/
structure Renames (s : State) (id : Uuid) (upd : ProjectUpdate) (project : Project) : Prop where
  there : s.project? id = some project
  allowed : allows s (upd.row project).issuePrefix (some id) = true

/-- The state after an update that goes through. -/
def renamed (s : State) (upd : ProjectUpdate) (project : Project) (faults : Faults) : State :=
  if (upd.row project).issuePrefix = project.issuePrefix ∨ faults.recordPrefixHistory = true then
    setProject s project.id upd
  else recordPrefixHistory (setProject s project.id upd) project.id project.issuePrefix

/-- What a request can do to projects and their history. -/
inductive Effect (s : State) (faults : Faults) : State → Prop
  | unchanged : Effect s faults s
  | created (name issuePrefix : String) (isPrivate : Bool)
      (hallowed : allows s issuePrefix none = true) :
      Effect s faults (insertProject s name issuePrefix isPrivate)
  | updated (upd : ProjectUpdate) (project : Project) (h : Renames s project.id upd project) :
      Effect s faults (renamed s upd project faults)
  | deleted (id : Uuid) (s' : State) (h : s.softDeleteProject id = some s') : Effect s faults s'

section Effects

variable {faults : Faults} {s : State}

/-- What is read first changes nothing. -/
theorem effect_bind {α β : Type} {p : Handler α} {f : α → Handler β} (hp : p.run.Only Reads)
    (hf : ∀ a, evaluate faults p s = (.ok a, s) → Effect s faults (evaluate faults (f a) s).2) :
    Effect s faults (evaluate faults (p >>= f) s).2 := by
  rcases evaluated_bind_reads f (evaluate_reads hp s) with h | ⟨a, ha, h⟩
  · rw [evaluate, h]
    exact .unchanged
  · rw [evaluate, h]
    exact hf a ha

theorem renames_iff (upd : ProjectUpdate) (project : Project) :
    upd.issuePrefix.any (· != project.issuePrefix) = true ↔
      (upd.row project).issuePrefix ≠ project.issuePrefix := by
  unfold ProjectUpdate.row
  cases upd.issuePrefix with
  | none => simp
  | some p => simp

/-- The update, if the constraints and the database let it through, and the record of the old
prefix. -/
theorem evaluate_write {upd : ProjectUpdate} {project : Project}
    (hproject : s.project? project.id = some project) :
    evaluate faults (write project upd) s =
      if allows s (upd.row project).issuePrefix (some project.id) = true ∧
          faults.update = false then
        (.ok (upd.row project), renamed s upd project faults)
      else (.error internal, s) := by
  unfold write evaluate
  rw [evaluated_bind, evaluated_orRefuse]
  simp only [exec, hproject]
  by_cases hallowed : allows s (upd.row project).issuePrefix (some project.id) = true
  · rw [if_pos hallowed]
    cases hupdate : faults.update with
    | true => rw [if_neg (by simp)]; rfl
    | false =>
      rw [if_pos ⟨hallowed, rfl⟩]
      simp only [attempt, Bool.false_eq_true, if_false, Except.mapError]
      rw [evaluated_bind, evaluated_given]
      simp only [Option.elim_some]
      unfold recordOldPrefix renamed
      by_cases hkeep : (upd.row project).issuePrefix = project.issuePrefix
      · rw [if_pos (Or.inl hkeep), if_neg (by rw [renames_iff]; exact fun hne => hne hkeep)]
        rfl
      · rw [if_pos ((renames_iff upd project).mpr hkeep)]
        cases hrecord : faults.recordPrefixHistory with
        | true =>
          rw [if_pos (Or.inr rfl)]
          show (_, (exec _ faults _).2) = _
          simp only [exec, attempt, hrecord, if_true]
        | false =>
          rw [if_neg (by simp [hkeep])]
          show (_, (exec _ faults _).2) = _
          simp only [exec, attempt, hrecord, Bool.false_eq_true, if_false]
  · rw [if_neg hallowed, if_neg fun h => hallowed h.1]
    rfl

theorem create_effect (body : Option CreateProjectRequest) :
    Effect s faults (evaluate faults (createProject body) s).2 := by
  apply effect_bind (only_given _)
  intro req _
  apply effect_bind (only_given _)
  intro isPrivate _
  have hlast : ∀ issuePrefix, Effect s faults (evaluate faults (do
      let result ← attempted (.create req.name issuePrefix (isPrivate.getD true))
      given (created result)) s).2 := by
    intro issuePrefix
    unfold evaluate
    rw [evaluated_bind, evaluated_attempted]
    dsimp only
    rw [evaluated_given]
    simp only [exec]
    cases faults.create with
    | some e => exact .unchanged
    | none =>
      dsimp only
      split
      · exact .unchanged
      · rename_i hfree
        split
        · rename_i hformat
          exact .created _ _ _ (by simp [allows, hfree, hformat])
        · exact .unchanged
  cases req.issuePrefix with
  | some p => exact effect_bind (explicitPrefix_reads p none) fun issuePrefix _ => hlast issuePrefix
  | none =>
    exact effect_bind (orInternal_reads (firstFree_reads _))
      fun issuePrefix _ => hlast issuePrefix

theorem loadProject_ok {ctx : ProjectContext} {project : Project}
    (h : evaluate faults (loadProject ctx) s = (.ok project, s)) :
    s.project? project.id = some project := by
  unfold loadProject at h
  obtain ⟨row, s₁, hrow, h⟩ := evaluated_bind_ok.mp h
  obtain ⟨found, s₂, hfound, h⟩ := evaluated_bind_ok.mp h
  obtain ⟨_, s₃, _, h⟩ := evaluated_bind_ok.mp h
  rw [evaluated_pure] at h
  obtain rfl : found = project := Except.ok.inj (congrArg Prod.fst h)
  rw [evaluated_given] at hfound
  have hsome : row = some found := by
    cases row with
    | none => cases congrArg Prod.fst hfound
    | some other => exact congrArg some (Except.ok.inj (congrArg Prod.fst hfound))
  rw [evaluated_orRefuse] at hrow
  simp only [exec, attempt] at hrow
  cases hfails : faults.findById with
  | true =>
    rw [hfails] at hrow
    cases congrArg Prod.fst hrow
  | false =>
    rw [hfails] at hrow
    have hread : s.project? ctx.projectId = row := Except.ok.inj (congrArg Prod.fst hrow)
    rw [hsome] at hread
    have hid : found.id = ctx.projectId := by
      obtain ⟨hfind, _⟩ := Option.filter_eq_some_iff.mp hread
      exact Table.key_of_find? hfind
    rw [hid]
    exact hread

theorem update_effect (ctx : ProjectContext) (body : Option UpdateProjectRequest) :
    Effect s faults (evaluate faults (updateProject ctx body) s).2 := by
  apply effect_bind (loadProject_reads ctx)
  intro project hproject
  apply effect_bind (only_refuseUnless _ _)
  intro _ _
  apply effect_bind (only_given _)
  intro req _
  apply effect_bind (only_given _)
  intro isPrivate _
  apply effect_bind (askedPrefix_reads _ _)
  intro issuePrefix _
  have hthere := loadProject_ok hproject
  rw [evaluate_write hthere]
  split
  · rename_i h
    exact .updated _ project ⟨hthere, h.1⟩
  · exact .unchanged

theorem delete_effect (ctx : ProjectContext) :
    Effect s faults (evaluate faults (deleteProject ctx) s).2 := by
  apply effect_bind (loadProject_reads ctx)
  intro project _
  apply effect_bind (only_refuseUnless _ _)
  intro _ _
  unfold evaluate
  rw [evaluated_bind, evaluated_orRefuse]
  simp only [exec]
  cases hdelete : s.softDeleteProject project.id with
  | none =>
    simp only [attempt]
    split
    · rename_i heq
      split at heq
      · cases heq
      · cases heq
        exact .unchanged
    · rename_i heq
      split at heq
      · cases heq
        exact .unchanged
      · cases heq
  | some s' =>
    simp only [attempt]
    split
    · rename_i heq
      split at heq
      · cases heq
      · cases heq
        exact .deleted _ _ hdelete
    · rename_i heq
      split at heq
      · cases heq
        exact .unchanged
      · cases heq

theorem handle_effect (request : Request) (faults : Faults) (s : State) :
    Effect s faults (handle request faults s) := by
  cases request with
  | createProject body => exact create_effect body
  | updateProject ctx body => exact update_effect ctx body
  | deleteProject ctx => exact delete_effect ctx

end Effects

/-! ## Constraints -/

/-- No two projects have one prefix, and every prefix has the format. -/
structure Sound (s : State) : Prop where
  distinct : ∀ row ∈ s.projects.rows, ∀ other ∈ s.projects.rows,
    row.issuePrefix = other.issuePrefix → row = other
  formatted : ∀ row ∈ s.projects.rows, prefixFormat row.issuePrefix = true

theorem allows_iff {s : State} {issuePrefix : String} {id : Option Uuid} :
    allows s issuePrefix id = true ↔ prefixFormat issuePrefix = true ∧
      ∀ row ∈ s.projects.rows, row.issuePrefix = issuePrefix → id = some row.id := by
  simp [allows, prefixExists, and_comm]

@[simp] theorem renamed_projects {s : State} {upd : ProjectUpdate} {project : Project}
    {faults : Faults} : (renamed s upd project faults).projects =
      s.projects.modify (·.id == project.id) upd.row fun _ => rfl := by
  unfold renamed
  split
  · rfl
  · rfl

theorem sound_effect {s s' : State} {faults : Faults} (h : Effect s faults s') (hsound : Sound s) :
    Sound s' := by
  cases h with
  | unchanged => exact hsound
  | created name issuePrefix isPrivate hallowed =>
    obtain ⟨hformat, hfree⟩ := allows_iff.mp hallowed
    have hrows : (insertProject s name issuePrefix isPrivate).projects.rows =
        s.projects.rows ++ [⟨s.projects.fresh, name, issuePrefix, isPrivate, none⟩] := rfl
    constructor
    · intro row hrow other hother heq
      rw [hrows] at hrow hother
      rcases List.mem_append.mp hrow with hrow | hrow
      · rcases List.mem_append.mp hother with hother | hother
        · exact hsound.distinct row hrow other hother heq
        · rw [List.mem_singleton.mp hother] at heq
          cases hfree row hrow heq
      · rw [List.mem_singleton.mp hrow] at heq ⊢
        rcases List.mem_append.mp hother with hother | hother
        · cases hfree other hother heq.symm
        · rw [List.mem_singleton.mp hother]
    · intro row hrow
      rw [hrows] at hrow
      rcases List.mem_append.mp hrow with hrow | hrow
      · exact hsound.formatted row hrow
      · rw [List.mem_singleton.mp hrow]
        exact hformat
  | updated upd project h =>
    obtain ⟨hformat, hfree⟩ := allows_iff.mp h.allowed
    have hproject : project ∈ s.projects.rows :=
      Table.mem_of_find? (Option.filter_eq_some_iff.mp h.there).1
    -- A row is the project, with its new columns, or an old row beside it.
    have hcases : ∀ row ∈ (renamed s upd project faults).projects.rows,
        row = upd.row project ∨ row ∈ s.projects.rows ∧ row.id ≠ project.id := by
      intro row hrow
      rw [renamed_projects] at hrow
      obtain ⟨old, hold, rfl⟩ := Rows.mem_updateWhere.mp hrow
      by_cases hid : old.id = project.id
      · left
        rw [if_pos (by simpa using hid),
          Rows.eq_of_nodup_map s.projects.nodup hold hproject hid]
      · right
        rw [if_neg (by simpa using hid)]
        exact ⟨hold, hid⟩
    constructor
    · intro row hrow other hother heq
      rcases hcases row hrow with rfl | ⟨hrow, hne⟩
      · rcases hcases other hother with rfl | ⟨hother, hne⟩
        · rfl
        · exact absurd (Option.some.inj (hfree other hother heq.symm)).symm hne
      · rcases hcases other hother with rfl | ⟨hother, _⟩
        · exact absurd (Option.some.inj (hfree row hrow heq)).symm hne
        · exact hsound.distinct row hrow other hother heq
    · intro row hrow
      rcases hcases row hrow with rfl | ⟨hrow, _⟩
      · exact hformat
      · exact hsound.formatted row hrow
  | deleted id s' h =>
    obtain ⟨row₀, _, rfl⟩ := Option.map_eq_some_iff.mp h
    have hcases : ∀ row ∈ (s.projects.modify (·.id == row₀.id)
        (fun row => { row with deletedAt := some s.now }) fun _ => rfl).rows,
        ∃ old ∈ s.projects.rows, old.id = row.id ∧ old.issuePrefix = row.issuePrefix := by
      intro row hrow
      obtain ⟨old, hold, rfl⟩ := Rows.mem_updateWhere.mp hrow
      refine ⟨old, hold, ?_⟩
      split
      · exact ⟨rfl, rfl⟩
      · exact ⟨rfl, rfl⟩
    constructor
    · intro row hrow other hother heq
      obtain ⟨old, hold, hid, hletters⟩ := hcases row hrow
      obtain ⟨old', hold', hid', hletters'⟩ := hcases other hother
      have hsame := hsound.distinct old hold old' hold' (by rw [hletters, hletters', heq])
      exact Rows.eq_of_nodup_map (Table.nodup _) hrow hother (by rw [← hid, ← hid', hsame])
    · intro row hrow
      obtain ⟨old, hold, _, hletters⟩ := hcases row hrow
      rw [← hletters]
      exact hsound.formatted old hold

end IntelliPilot.Prefixes
