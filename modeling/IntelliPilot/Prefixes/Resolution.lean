import IntelliPilot.Prefixes.Effects
import IntelliPilot.Prefixes.Keys

/-! # Prefixes that resolve alike

The short link and the key search read a prefix alike: it stands for the live
project that has it, else for the project whose giving it up was recorded last,
if that one is live.
-/

namespace IntelliPilot.Prefixes

open Statement
open Http (Problem notFound)
open Projects (Uuid)
open Search (State Project Entry KeyKind SearchScope SearchHit Engine)

/-! ## Who gave a prefix up last -/

/-- The prefixes that projects have lost between two states. -/
def givenUp (s s' : State) : List (String × Uuid) :=
  s.projects.rows.filterMap fun row =>
    (s'.projects.find? row.id).bind fun new =>
      if new.issuePrefix = row.issuePrefix then none else some (row.issuePrefix, row.id)

/-- The project that gave the prefix up last; the log begins with the latest. -/
def lastClaim (log : List (String × Uuid)) (issuePrefix : String) : Option Uuid :=
  (log.find? (·.1 == issuePrefix)).map (·.2)

/-- Whether a rename in this step is recorded. -/
def Step.records : Step → Bool
  | .request _ faults => !faults.recordPrefixHistory
  | .elsewhere _ => true

def after (s : State) (steps : List Step) : State := steps.foldl (fun s step => perform step s) s

/-- The prefixes given up in the steps that count, the latest first. -/
def claims (counts : Step → Bool) : State → List Step → List (String × Uuid)
  | _, [] => []
  | s, step :: rest =>
      claims counts (perform step s) rest ++
        if counts step then givenUp s (perform step s) else []

/-- The project a prefix stands for: the live one that has it, else the last that gave it up, if
that one is live. -/
def target (s : State) (log : List (String × Uuid)) (issuePrefix : String) : Option Project :=
  (findByPrefix s issuePrefix).or ((lastClaim log issuePrefix).bind s.project?)

variable {s : State}

theorem givenUp_nil {s' : State}
    (h : ∀ row ∈ s.projects.rows, ∀ new, s'.projects.find? row.id = some new →
      new.issuePrefix = row.issuePrefix) : givenUp s s' = [] := by
  rw [givenUp, List.filterMap_eq_nil_iff]
  intro row hrow
  cases hnew : s'.projects.find? row.id with
  | none => rfl
  | some new => exact if_pos (h row hrow new hnew)

theorem givenUp_self {s' : State} (h : s'.projects = s.projects) : givenUp s s' = [] := by
  apply givenUp_nil
  intro row hrow new hnew
  rw [h, Table.find?_key hrow] at hnew
  rw [Option.some.inj hnew]

/-- A rename takes one prefix from one project. -/
theorem givenUp_renamed {upd : ProjectUpdate} {project : Project} {faults : Faults}
    (hproject : project ∈ s.projects.rows)
    (hne : (upd.row project).issuePrefix ≠ project.issuePrefix) :
    givenUp s (renamed s upd project faults) = [(project.issuePrefix, project.id)] := by
  have hfind : ∀ row ∈ s.projects.rows, (renamed s upd project faults).projects.find? row.id =
      some (if row.id == project.id then upd.row row else row) := by
    intro row hrow
    have hmodify := Table.find?_modify s.projects (·.id == project.id) upd.row (fun _ => rfl) row.id
    rw [renamed_projects, hmodify, Table.find?_key hrow]
    rfl
  obtain ⟨front, back, hsplit⟩ := List.append_of_mem hproject
  have hothers : ∀ row ∈ front ++ back, row ∈ s.projects.rows ∧ row.id ≠ project.id := by
    intro row hrow
    have hmem : row ∈ s.projects.rows := by
      rw [hsplit]
      rcases List.mem_append.mp hrow with hrow | hrow
      · exact List.mem_append_left _ hrow
      · exact List.mem_append_right _ (List.mem_cons_of_mem _ hrow)
    refine ⟨hmem, fun hid => ?_⟩
    have hnodup := s.projects.nodup
    rw [hsplit, List.map_append, List.map_cons] at hnodup
    have hperm := List.perm_middle.nodup_iff.mp hnodup
    rw [← List.map_append, List.nodup_cons] at hperm
    exact hperm.1 (List.mem_map.mpr ⟨row, hrow, hid⟩)
  have hnone : ∀ rows : List Project, (∀ row ∈ rows, row ∈ front ++ back) →
      rows.filterMap (fun row =>
        ((renamed s upd project faults).projects.find? row.id).bind fun new =>
          if new.issuePrefix = row.issuePrefix then none
          else some (row.issuePrefix, row.id)) = [] := by
    intro rows hrows
    rw [List.filterMap_eq_nil_iff]
    intro row hrow
    obtain ⟨hmem, hid⟩ := hothers row (hrows row hrow)
    rw [hfind row hmem, if_neg (by simpa using hid)]
    exact if_pos rfl
  rw [givenUp, hsplit, List.filterMap_append, List.filterMap_cons,
    hnone front fun row hrow => List.mem_append_left _ hrow,
    hnone back fun row hrow => List.mem_append_right _ hrow, hfind project hproject]
  simp [hne]

theorem lastClaim_append (newer older : List (String × Uuid)) (issuePrefix : String) :
    lastClaim (newer ++ older) issuePrefix =
      (lastClaim newer issuePrefix).or (lastClaim older issuePrefix) := by
  unfold lastClaim
  rw [List.find?_append]
  cases newer.find? (·.1 == issuePrefix) with
  | none => rfl
  | some claim => rfl

/-- The history after a recorded rename. -/
theorem recorded_claim (s : State) (projectId : Uuid) (oldPrefix issuePrefix : String) :
    findIdByHistoricPrefix (recordPrefixHistory s projectId oldPrefix) issuePrefix =
      (lastClaim [(oldPrefix, projectId)] issuePrefix).or
        (findIdByHistoricPrefix s issuePrefix) := by
  unfold findIdByHistoricPrefix recordPrefixHistory lastClaim
  simp only [List.find?_cons, List.find?_nil]
  cases hsame : oldPrefix == issuePrefix with
  | true => rfl
  | false =>
    have hfilter : (s.prefixHistory.filter (·.1 != oldPrefix)).find? (·.1 == issuePrefix) =
        s.prefixHistory.find? (·.1 == issuePrefix) := by
      rw [List.find?_filter]
      congr 1
      funext claim
      by_cases hclaim : claim.1 = issuePrefix
      · have hne : claim.1 ≠ oldPrefix := by
          rintro heq
          rw [heq] at hclaim
          simp [hclaim] at hsame
        simp [hclaim, hclaim ▸ hne]
      · simp [hclaim]
    rw [hfilter]
    rfl

variable {log : List (String × Uuid)}

/-- The history knows the last claim of every prefix among those recorded. -/
theorem history_step {step : Step}
    (h : ∀ issuePrefix, findIdByHistoricPrefix s issuePrefix = lastClaim log issuePrefix)
    (issuePrefix : String) : findIdByHistoricPrefix (perform step s) issuePrefix =
      lastClaim ((if step.records then givenUp s (perform step s) else []) ++ log) issuePrefix := by
  have hkept : ∀ s' : State, s'.prefixHistory = s.prefixHistory → givenUp s s' = [] →
      findIdByHistoricPrefix s' issuePrefix =
        lastClaim ((if step.records then givenUp s s' else []) ++ log) issuePrefix := by
    intro s' hhistory hnone
    rw [hnone, ite_self, List.nil_append, ← h, findIdByHistoricPrefix, hhistory]
    rfl
  cases step with
  | elsewhere tables => exact hkept _ rfl (givenUp_self rfl)
  | request request faults =>
    have heffect := handle_effect request faults s
    show findIdByHistoricPrefix (handle request faults s) issuePrefix = lastClaim
      ((if Step.records (.request request faults) then givenUp s (handle request faults s)
        else [])
        ++ log) issuePrefix
    generalize handle request faults s = s' at heffect
    cases heffect with
    | unchanged => exact hkept s rfl (givenUp_self rfl)
    | created name newPrefix isPrivate _ =>
      have hnone : givenUp s (insertProject s name newPrefix isPrivate) = [] := by
        apply givenUp_nil
        intro row hrow new hnew
        have hfree : s.projects.find? s.projects.fresh = none := s.projects.find?_fresh
        have hold : row.id ≠ s.projects.fresh := by
          intro heq
          rw [← heq, Table.find?_key hrow] at hfree
          cases hfree
        have hfind : (insertProject s name newPrefix isPrivate).projects.find? row.id =
            s.projects.find? row.id := by
          unfold insertProject
          dsimp only
          rw [Table.find?_insert, if_neg hold]
        rw [hfind, Table.find?_key hrow] at hnew
        rw [Option.some.inj hnew]
      exact hkept _ rfl hnone
    | updated upd project hrenames =>
      have hproject : project ∈ s.projects.rows :=
        Table.mem_of_find? (Option.filter_eq_some_iff.mp hrenames.there).1
      by_cases hkeep : (upd.row project).issuePrefix = project.issuePrefix
      · have hnone : givenUp s (renamed s upd project faults) = [] := by
          apply givenUp_nil
          intro row hrow new hnew
          have hmodify := Table.find?_modify s.projects (·.id == project.id) upd.row
            (fun _ => rfl) row.id
          rw [renamed_projects, hmodify, Table.find?_key hrow, Option.map_some] at hnew
          rw [← Option.some.inj hnew]
          split
          · rename_i hid
            rw [Rows.eq_of_nodup_map s.projects.nodup hrow hproject (by simpa using hid)]
            exact hkeep
          · rfl
        refine hkept _ ?_ hnone
        unfold renamed
        rw [if_pos (Or.inl hkeep)]
        rfl
      · have hcounts :
            Step.records (.request request faults) = !faults.recordPrefixHistory := rfl
        rw [givenUp_renamed hproject hkeep, hcounts]
        unfold renamed
        cases hrecord : faults.recordPrefixHistory with
        | true =>
          rw [if_pos (Or.inr rfl), Bool.not_true, if_neg Bool.false_ne_true, List.nil_append]
          exact h issuePrefix
        | false =>
          rw [if_neg (by simp [hkeep]), recorded_claim, Bool.not_false, if_pos rfl,
            lastClaim_append, ← h]
          rfl
    | deleted id s' hdelete =>
      obtain ⟨row₀, _, rfl⟩ := Option.map_eq_some_iff.mp hdelete
      refine hkept _ rfl (givenUp_nil ?_)
      intro row hrow new hnew
      have hmodify := Table.find?_modify s.projects (·.id == row₀.id)
        (fun row => { row with deletedAt := some s.now }) (fun _ => rfl) row.id
      rw [hmodify, Table.find?_key hrow, Option.map_some] at hnew
      rw [← Option.some.inj hnew]
      split
      · rfl
      · rfl

/-- After any steps, the history is that of the recorded claims. -/
theorem history_after (steps : List Step)
    (h : ∀ issuePrefix, findIdByHistoricPrefix s issuePrefix = lastClaim log issuePrefix)
    (issuePrefix : String) : findIdByHistoricPrefix (after s steps) issuePrefix =
      lastClaim (claims Step.records s steps ++ log) issuePrefix := by
  induction steps generalizing s log with
  | nil => exact h issuePrefix
  | cons step rest ih =>
    rw [claims, List.append_assoc]
    exact ih (history_step h)

theorem sound_after (steps : List Step) (h : Sound s) : Sound (after s steps) := by
  induction steps generalizing s with
  | nil => exact h
  | cons step rest ih =>
    apply ih
    cases step with
    | elsewhere tables => exact ⟨h.distinct, h.formatted⟩
    | request request faults => exact sound_effect (handle_effect request faults s) h

theorem sound_start (tables : State) : Sound (start tables) :=
  ⟨fun _ hrow => absurd hrow List.not_mem_nil, fun _ hrow => absurd hrow List.not_mem_nil⟩

/-! ## The lookups -/

/-- A project that the actor may not know of is not there. -/
def shownTo (s : State) (actorId : Uuid) : Option Project → Except Problem Project
  | none => .error notFound
  | some project =>
      if project.isPrivate && (s.access project.id actorId).isNone &&
          !s.isActiveSuperadmin actorId then
        .error notFound
      else .ok project

theorem evaluate_findProject (s : State) (issuePrefix : String) :
    evaluate {} (findProject issuePrefix) s =
      (.ok ((findByPrefix s issuePrefix).or
        ((findIdByHistoricPrefix s issuePrefix).bind s.project?)), s) := by
  unfold findProject evaluate
  rw [evaluated_bind, evaluated_orRefuse]
  simp only [exec, attempt, Bool.false_eq_true, if_false, Except.mapError]
  cases findByPrefix s issuePrefix with
  | some project => rfl
  | none =>
    dsimp only
    rw [evaluated_bind, evaluated_orRefuse]
    simp only [exec, attempt, Bool.false_eq_true, if_false, Except.mapError]
    cases findIdByHistoricPrefix s issuePrefix with
    | none => rfl
    | some id => rfl

/-- What the short link answers. -/
theorem resolveByPrefix_answer (s : State) (actorId : Uuid) (issuePrefix : String) :
    (evaluate {} (resolveByPrefix actorId issuePrefix) s).1 =
      shownTo s actorId ((findByPrefix s (needle issuePrefix)).or
        ((findIdByHistoricPrefix s (needle issuePrefix)).bind s.project?)) := by
  have hfind := evaluate_findProject s (needle issuePrefix)
  unfold evaluate at hfind
  unfold resolveByPrefix evaluate
  rw [evaluated_bind, hfind]
  dsimp only
  cases (findByPrefix s (needle issuePrefix)).or
      ((findIdByHistoricPrefix s (needle issuePrefix)).bind s.project?) with
  | none => rfl
  | some project =>
    rw [evaluated_bind, evaluated_given]
    simp only [Option.elim_some, shownTo]
    cases hprivate : project.isPrivate with
    | false => rfl
    | true =>
      simp only [if_true, Bool.true_and]
      rw [evaluated_bind, evaluated_orDefault]
      simp only [exec, attempt, Bool.false_eq_true, if_false, Except.toOption,
        Option.getD_some]
      rw [evaluated_bind, evaluated_orDefault]
      simp only [exec, attempt, Bool.false_eq_true, if_false, Except.toOption,
        Option.getD_some]
      rw [evaluated_bind, evaluated_refuseUnless]
      cases s.access project.id actorId with
      | none =>
        cases s.isActiveSuperadmin actorId with
        | true => rfl
        | false => rfl
      | some access => rfl

/-! ## The key search -/

/-- `search_keys` for a number, in one project only. -/
def keysIn (s : State) (engine : Engine) (scope : SearchScope) (project : Option Uuid)
    (number : Nat) (kind : KeyKind) (limit : Nat) : List SearchHit :=
  let found := s.searchIndex.rows.filter fun entry =>
    s.readable scope entry && (entry.reference == some number &&
      kind.entityTypes.contains entry.entityType && project == some entry.projectId)
  ((found.mergeSort (s.keyOrder engine scope)).take limit).map fun entry =>
    s.hit true entry (String.ofList (entry.body.toList.take 400))

/-- Where an actor may read, he has access. -/
theorem access_of_memberMayRead {scope : SearchScope} {entry : Entry}
    (h : s.memberMayRead scope entry = true) :
    (s.access entry.projectId scope.actorId).isSome = true := by
  obtain ⟨membership, hmembership, hrest⟩ := List.any_eq_true.mp h
  simp only [Bool.and_eq_true, beq_iff_eq, List.any_eq_true] at hrest
  obtain ⟨⟨hproject, huser⟩, role, hrole, hrest⟩ := hrest
  have hfind : s.memberships.find? (entry.projectId, scope.actorId) = some membership := by
    rw [← hproject, ← huser]
    exact Table.find?_key hmembership
  have hfindRole : s.roles.find? membership.roleId = some role := by
    rw [← hrest.1]
    exact Table.find?_key hrole
  unfold Search.State.access
  rw [hfind]
  simp [hfindRole]

theorem prefixProject_eq (s : State) (issuePrefix : String) :
    s.prefixProject issuePrefix =
      ((findByPrefix s issuePrefix).map (·.id)).or (findIdByHistoricPrefix s issuePrefix) := rfl

/-- An entry that may be read belongs to the project a prefix stands for in the search if and only
if the short link leads the reader there. -/
theorem prefixProject_iff {scope : SearchScope} {entry : Entry} {issuePrefix : String}
    (hscope : scope.isSuperadmin = s.isActiveSuperadmin scope.actorId)
    (hreadable : s.readable scope entry = true) :
    s.prefixProject issuePrefix = some entry.projectId ↔
      (shownTo s scope.actorId ((findByPrefix s issuePrefix).or
        ((findIdByHistoricPrefix s issuePrefix).bind s.project?))).toOption.map (·.id) =
          some entry.projectId := by
  simp only [Search.State.readable, Bool.and_eq_true, Bool.or_eq_true] at hreadable
  obtain ⟨⟨⟨hlive, hmember⟩, _⟩, _⟩ := hreadable
  -- The reader is shown the project of the entry, if it is the one.
  have hshown : ∀ project : Project, project.id = entry.projectId →
      shownTo s scope.actorId (some project) = .ok project := by
    intro project hid
    unfold shownTo
    dsimp only
    rw [if_neg]
    simp only [Bool.and_eq_true, Bool.not_eq_true', not_and]
    intro hhidden
    rcases hmember with hsuperadmin | hmember
    · rw [← hscope, hsuperadmin]
      simp
    · have haccess := access_of_memberMayRead hmember
      rw [hid] at hhidden
      rw [Option.isNone_iff_eq_none] at hhidden
      rw [hhidden.2] at haccess
      cases haccess
  have hshownId : ∀ project : Project,
      (shownTo s scope.actorId (some project)).toOption.map (·.id) = some entry.projectId ↔
        project.id = entry.projectId := by
    intro project
    constructor
    · intro h
      unfold shownTo at h
      dsimp only at h
      split at h
      · cases h
      · exact Option.some.inj h
    · intro hid
      rw [hshown project hid]
      exact congrArg some hid
  rw [prefixProject_eq]
  cases findByPrefix s issuePrefix with
  | some project =>
    rw [Option.map_some, Option.some_or, Option.some_or, hshownId, Option.some.injEq]
  | none =>
    rw [Option.map_none, Option.none_or, Option.none_or]
    cases findIdByHistoricPrefix s issuePrefix with
    | none => simp [shownTo, Except.toOption]
    | some id =>
      rw [Option.bind_some]
      cases hproject : s.project? id with
      | none =>
        simp only [shownTo, Except.toOption, Option.map_none, reduceCtorEq, iff_false,
          Option.some.injEq]
        rintro rfl
        rw [hproject] at hlive
        cases hlive
      | some project =>
        have hid : project.id = id :=
          Table.key_of_find? (Option.filter_eq_some_iff.mp hproject).1
        rw [hshownId, hid, Option.some.injEq]

/-- The key search looks where the short link leads. -/
theorem searchKeys_eq (s : State) (engine : Engine) (scope : SearchScope)
    (hscope : scope.isSuperadmin = s.isActiveSuperadmin scope.actorId) (issuePrefix : String)
    (number : Nat) (kind : KeyKind) (limit : Nat) :
    s.searchKeys engine scope ⟨some (needle issuePrefix), number, kind⟩ limit =
      keysIn s engine scope
        (((evaluate {} (resolveByPrefix scope.actorId issuePrefix) s).1.toOption).map (·.id))
        number kind limit := by
  unfold Search.State.searchKeys keysIn
  dsimp only
  congr 4
  funext entry
  rw [resolveByPrefix_answer]
  cases hreadable : s.readable scope entry with
  | false => rfl
  | true =>
    have hiff : s.prefixProject (needle issuePrefix) = some entry.projectId ↔ _ :=
      prefixProject_iff hscope hreadable
    have hsame : (s.prefixProject (needle issuePrefix) == some entry.projectId) =
        ((shownTo s scope.actorId ((findByPrefix s (needle issuePrefix)).or
          ((findIdByHistoricPrefix s (needle issuePrefix)).bind s.project?))).toOption.map (·.id)
            == some entry.projectId) := by
      rw [Bool.eq_iff_iff, beq_iff_eq, beq_iff_eq]
      exact hiff
    unfold Search.State.matchesKey
    rw [Option.all_some, hsame]

/-! ## Prefixes that are derived -/

/-- What the search for a free prefix among some candidates comes to. -/
def FindsFree (s : State) (faults : Faults) (candidates : List String) :
    Except DbError String → Prop
  | .ok issuePrefix => issuePrefix ∈ candidates ∧ prefixExists s issuePrefix none = false
  | .error .exhausted => ∀ issuePrefix ∈ candidates, prefixExists s issuePrefix none = true
  | .error _ => ∃ issuePrefix ∈ candidates, faults.prefixExists issuePrefix = true

theorem evaluated_query {α : Type} (stmt : Stmt (Except DbError α)) (faults : Faults) (s : State) :
    evaluated exec faults (query stmt) s = exec stmt faults s := rfl

theorem firstFree_finds (s : State) (faults : Faults) (candidates : List String) :
    FindsFree s faults candidates (evaluated exec faults (firstFree candidates) s).1 := by
  induction candidates with
  | nil => exact fun issuePrefix h => absurd h List.not_mem_nil
  | cons cand rest ih =>
    have hstep : evaluated exec faults (firstFree (cand :: rest)) s =
        if faults.prefixExists cand = true then (.error .failure, s)
        else if prefixExists s cand none = true then evaluated exec faults (firstFree rest) s
        else (.ok cand, s) := by
      rw [firstFree, evaluated_bind, evaluated_query]
      simp only [exec, attempt]
      cases faults.prefixExists cand with
      | true => rfl
      | false =>
        cases prefixExists s cand none with
        | true => rfl
        | false => rfl
    rw [hstep]
    cases hfails : faults.prefixExists cand with
    | true =>
      rw [if_pos rfl]
      exact ⟨cand, List.mem_cons_self, hfails⟩
    | false =>
      rw [if_neg Bool.false_ne_true]
      cases htaken : prefixExists s cand none with
      | false =>
        rw [if_neg Bool.false_ne_true]
        exact ⟨List.mem_cons_self, htaken⟩
      | true =>
        rw [if_pos rfl]
        generalize (evaluated exec faults (firstFree rest) s).1 = result at ih
        cases result with
        | ok issuePrefix => exact ⟨List.mem_cons_of_mem _ ih.1, ih.2⟩
        | error e =>
          cases e with
          | exhausted =>
            intro issuePrefix hmem
            rcases List.mem_cons.mp hmem with rfl | hmem
            · exact htaken
            · exact ih issuePrefix hmem
          | failure | uniqueViolation =>
            obtain ⟨issuePrefix, hmem, h⟩ := ih
            exact ⟨issuePrefix, List.mem_cons_of_mem _ hmem, h⟩

/-- What `unique_prefix` comes to: a free prefix, or the report that there is none. -/
def Uniquely (s : State) (faults : Faults) : Except DbError String → Prop
  | .ok issuePrefix => prefixFormat issuePrefix = true ∧ prefixExists s issuePrefix none = false
  | .error .exhausted =>
      ∀ issuePrefix, prefixFormat issuePrefix = true → prefixExists s issuePrefix none = true
  | .error _ => ∃ issuePrefix, faults.prefixExists issuePrefix = true

theorem uniquePrefix_spec (s : State) (faults : Faults) (name : String) :
    Uniquely s faults (evaluated exec faults (uniquePrefix (derivePrefix name)) s).1 := by
  have hformat : ∀ issuePrefix ∈ derivePrefix name :: combinations,
      prefixFormat issuePrefix = true := by
    intro issuePrefix hmem
    rcases List.mem_cons.mp hmem with rfl | hmem
    · exact prefixFormat_derivePrefix name
    · exact mem_combinations.mp hmem
  have hfinds := firstFree_finds s faults (derivePrefix name :: combinations)
  unfold uniquePrefix
  generalize (evaluated exec faults (firstFree (derivePrefix name :: combinations)) s).1 = result
    at hfinds
  cases result with
  | ok issuePrefix => exact ⟨hformat issuePrefix hfinds.1, hfinds.2⟩
  | error e =>
    cases e with
    | exhausted =>
      exact fun issuePrefix h =>
        hfinds issuePrefix (List.mem_cons_of_mem _ (mem_combinations.mpr h))
    | failure | uniqueViolation =>
      obtain ⟨issuePrefix, _, h⟩ := hfinds
      exact ⟨issuePrefix, h⟩

/-! ## Typed keys -/

/-- A key typed with two or three letters is read as the number of an issue under that prefix. -/
theorem parseKey_issue {issuePrefix : String} (hpattern : prefixPattern issuePrefix = true)
    {n : Nat}
    (hpos : 0 < n) (hsize : n < 10 ^ 18) :
    parseKey (issuePrefix ++ "-" ++ toString n) = some ⟨some (needle issuePrefix), n, .issue⟩ := by
  obtain ⟨hlow, hhigh, halpha⟩ := prefixPattern_iff.mp hpattern
  have hneedle : needle issuePrefix = toAsciiUppercase issuePrefix := by
    rw [needle, Text.trim_eq_self fun c hc => isWhitespace_alpha (halpha c hc)]
  have htext : (issuePrefix ++ "-" ++ toString n).toList =
      issuePrefix.toList ++ '-' :: Nat.toDigits 10 n := by
    rw [String.toList_append, String.toList_append, toList_toString, List.append_assoc]
    rfl
  have hplain : ∀ c ∈ issuePrefix.toList ++ '-' :: Nat.toDigits 10 n,
      Auth.isWhitespace c = false := by
    intro c hc
    rcases List.mem_append.mp hc with hc | hc
    · exact isWhitespace_alpha (halpha c hc)
    · rcases List.mem_cons.mp hc with rfl | hc
      · decide
      · exact (digit_plain (isDigit_of_mem_digits hc)).2.2.2
  have htrimmed : Text.trimChars (issuePrefix ++ "-" ++ toString n).toList =
      issuePrefix.toList ++ '-' :: Nat.toDigits 10 n := by
    rw [htext, Text.trimChars_eq_self hplain]
  rw [parseKey_word htrimmed halpha hlow hhigh (by simp), stripChar_cons, parseKind_digits,
    parseNumber_digits hpos hsize, Option.map_some, String.ofList_toList, hneedle]

/-! ## Every history -/

/-- The project that the short link leads an actor to. -/
def resolved (s : State) (actorId : Uuid) (issuePrefix : String) : Option Project :=
  (evaluate {} (resolveByPrefix actorId issuePrefix) s).1.toOption

/-- What is expected of prefixes, where the log tells who has given which prefix up. -/
structure KeysAlike (s : State) (log : List (String × Uuid)) : Prop where
  sound : Sound s
  /-- A derived prefix is free, or there is none left. -/
  unique : ∀ faults name,
    Uniquely s faults (evaluated exec faults (uniquePrefix (derivePrefix name)) s).1
  /-- The short link leads to the project the prefix stands for. -/
  resolves : ∀ actorId issuePrefix,
    (evaluate {} (resolveByPrefix actorId issuePrefix) s).1 =
      shownTo s actorId (target s log (needle issuePrefix))
  /-- The key search finds what it may find in that project, and nothing elsewhere. -/
  alike : ∀ engine scope issuePrefix number kind limit,
    scope.isSuperadmin = s.isActiveSuperadmin scope.actorId →
      s.searchKeys engine scope ⟨some (needle issuePrefix), number, kind⟩ limit =
        keysIn s engine scope ((resolved s scope.actorId issuePrefix).map (·.id)) number kind limit
  /-- What is typed as prefix and number is searched as such. -/
  typed : ∀ issuePrefix n, prefixPattern issuePrefix = true → 0 < n → n < 10 ^ 18 →
    parseKey (issuePrefix ++ "-" ++ toString n) = some ⟨some (needle issuePrefix), n, .issue⟩

/-- Issue keys resolve alike everywhere, after any steps; a project counts as the last that gave a
prefix up where the history could be written. -/
theorem issue_keys_resolve_alike (tables : State) (steps : List Step) :
    KeysAlike (after (start tables) steps) (claims Step.records (start tables) steps) := by
  have hhistory : ∀ issuePrefix, findIdByHistoricPrefix (after (start tables) steps) issuePrefix =
      lastClaim (claims Step.records (start tables) steps) issuePrefix := by
    intro issuePrefix
    have hstart : ∀ issuePrefix, findIdByHistoricPrefix (start tables) issuePrefix =
        lastClaim [] issuePrefix := fun _ => rfl
    rw [history_after steps hstart, List.append_nil]
  constructor
  · exact sound_after steps (sound_start tables)
  · exact fun faults name => uniquePrefix_spec _ faults name
  · intro actorId issuePrefix
    rw [resolveByPrefix_answer, hhistory, target]
  · intro engine scope issuePrefix number kind limit hscope
    exact searchKeys_eq _ engine scope hscope issuePrefix number kind limit
  · exact fun issuePrefix n hpattern hpos hsize => parseKey_issue hpattern hpos hsize

/-- A project renamed away from its prefix, where the history could not be written. -/
def lostClaim : List Step :=
  [.request (.createProject (some ⟨"Apple", some "internal", some "AA"⟩)) {},
    .request (.updateProject ⟨1, 3, some ⟨1, true, []⟩, false⟩ (some ⟨none, none, some "BB"⟩))
      { recordPrefixHistory := true }]

/-- The last project that gave a prefix up is not found by it, if that could not be recorded. -/
theorem unrecorded_claim_lost : ¬ ∀ (tables : State) (steps : List Step),
    KeysAlike (after (start tables) steps) (claims (fun _ => true) (start tables) steps) := by
  intro h
  let tables : State := ⟨.empty, [], fun _ => .empty, fun _ _ => 0, .empty, .empty, .empty, .empty,
    .empty, .empty, [], 0⟩
  have hresolves := (h tables lostClaim).resolves 3 "AA"
  have hanswer : (evaluate {} (resolveByPrefix 3 "AA") (after (start tables) lostClaim)).1 =
      .error notFound := by decide +kernel
  have htarget : target (after (start tables) lostClaim)
      (claims (fun _ => true) (start tables) lostClaim) (needle "AA") =
        some ⟨1, "Apple", "BB", false, none⟩ := by decide +kernel
  rw [hanswer, htarget] at hresolves
  cases hresolves

end IntelliPilot.Prefixes
