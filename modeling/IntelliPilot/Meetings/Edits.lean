import IntelliPilot.Meetings.Versions

/-! # Edits of meetings

A patch that answers success was applied to a version that its header names, row
and link sets together. It cannot be applied once the meeting has changed, and
the checks of the table never have to refuse it.
-/

namespace IntelliPilot.Meetings

open Http Statement
open Service (initial)
open Auth (trim)
open Issues (etag checkIfMatch Carries)

/-! ## What a patch tells -/

def Stmt.saves {β : Type} : Stmt β → Bool
  | .update _ _ _ _ _ => true
  | _ => false

/-- A statement that is no save of a patch; a meeting that it creates keeps the time rule. -/
def Stmt.plain {β : Type} : Stmt β → Prop
  | .create _ _ new _ => timesOk new.startTime new.endTime = true
  | .update _ _ _ _ _ => False
  | _ => True

/-- Event of a patch's save. -/
def saving : MeetingEvent → Bool
  | .ran stmt _ => stmt.saves
  | _ => false

/-- What an event of a request tells after the earlier ones, whatever the others do: a patch
saves over a meeting that it has read and checked, and answers success only with what it saved. -/
def Told (request : Request) : MeetingEvent → List MeetingEvent → Prop
  | .ran (.update projectId id version patch links) _, earlier => ∃ ctx ifMatch req current,
      request = .update ctx id ifMatch (.ok req) ∧ projectId = ctx.projectId ∧
        version = current.row.version ∧ patch = req.patch ∧ links = req.links ∧
        .ran (.get ctx.projectId id) (.ok (some current)) ∈ earlier ∧
        checkUpdate ifMatch req current = .ok ()
  | .answered _ (.ok answer), earlier => ∀ ctx id ifMatch req,
      request = .update ctx id ifMatch (.ok req) → ∃ version meeting, answer = .meeting 200 meeting ∧
        .ran (.update ctx.projectId id version req.patch req.links) (.ok (.updated meeting)) ∈ earlier
  | .ran stmt _, _ => stmt.plain
  | _, _ => True

theorem told_of_plain {request : Request} {β : Type} {stmt : Stmt β} (hstmt : stmt.plain)
    (result : β) (events : List MeetingEvent) : Told request (.ran stmt result) events := by
  cases stmt with
  | update projectId id version patch links => exact hstmt.elim
  | _ => exact hstmt

/-- A request that patches nothing. -/
theorem tells_of_only {request : Request}
    (hpatch : ∀ ctx id ifMatch req, request ≠ .update ctx id ifMatch (.ok req))
    (honly : (service.handler request).Only Stmt.plain) :
    (service.handler request).Tells (Newest (Told request))
      (fun answer events => Newest (Told request) (.answered request answer :: events))
      [.began request] := by
  apply (Prog.tells_only (C := Stmt.plain) (P := fun _ => True) ?_ honly trivial).post
  · rintro (problem | answer) events _
    · trivial
    · exact fun ctx id ifMatch req hrequest => absurd hrequest (hpatch ctx id ifMatch req)
  · exact fun stmt result events hstmt _ => ⟨told_of_plain hstmt result events, trivial⟩

/-! ### The handlers -/

section Handlers

theorem only_validateTimezone (tz : String) :
    (validateTimezone tz).run.Only Stmt.plain := by
  unfold validateTimezone
  refine only_run_bind (only_refuseUnless _ _) fun _ => ?_
  exact only_run_bind (only_orRefuse trivial _) fun _ => only_refuseUnless _ _

theorem only_validatePatchTimezone (patch : MeetingPatch) :
    (validatePatchTimezone patch).run.Only Stmt.plain := by
  unfold validatePatchTimezone
  cases patch.timezone with
  | none => exact only_run_pure _
  | some tz => exact only_validateTimezone tz

theorem only_validateLinks (projectId : Uuid) (links : MeetingLinks) :
    (validateLinks projectId links).run.Only Stmt.plain := by
  unfold validateLinks
  refine only_run_forM fun set => ?_
  dsimp only
  split
  · exact only_run_pure _
  · exact only_run_bind (only_orRefuse trivial _) fun _ => only_refuseUnless _ _

theorem only_detailResponse (status : Nat) (meeting : Meeting) :
    (detailResponse status meeting).run.Only Stmt.plain := by
  unfold detailResponse
  exact only_run_bind (only_orRefuse trivial _) fun _ => only_run_pure _

theorem only_found {stmt : Stmt (Except DbError (Option Meeting))} (hstmt : stmt.plain) :
    (found stmt).run.Only Stmt.plain := by
  unfold found
  refine only_run_bind (only_orRefuse hstmt _) fun result => ?_
  cases result with
  | none => exact only_run_throw _
  | some meeting => exact only_run_pure _

theorem only_create (ctx : Context) (body : Except Problem CreateMeetingRequest) :
    (Meetings.create ctx body).run.Only Stmt.plain := by
  unfold Meetings.create require
  refine only_run_bind (only_refuseUnless _ _) fun _ => ?_
  refine only_run_bind (only_given _) fun req => ?_
  refine only_run_bind (only_given _) fun _ => ?_
  refine only_refuseUnless_bind fun htimes => ?_
  generalize trim (req.timezone.getD "UTC") = tz
  refine only_run_bind (only_validateTimezone _) fun _ => ?_
  refine only_run_bind (only_validateLinks _ _) fun _ => ?_
  exact only_run_bind (only_orRefuse htimes _) fun _ => only_detailResponse _ _

theorem only_delete (ctx : Context) (id : Uuid) :
    (Meetings.delete ctx id).run.Only Stmt.plain := by
  unfold Meetings.delete require
  refine only_run_bind (only_refuseUnless _ _) fun _ => ?_
  refine only_run_bind (only_orRefuse trivial _) fun _ => ?_
  exact only_run_bind (only_refuseUnless _ _) fun _ => only_run_pure _

theorem only_toggleLink (ctx : Context) (id : Uuid) (kind : String) (target : Uuid) (add : Bool) :
    (Meetings.toggleLink ctx id kind target add).run.Only Stmt.plain := by
  unfold Meetings.toggleLink require
  refine only_run_bind (only_refuseUnless _ _) fun _ => ?_
  cases LinkKind.parse kind with
  | none => exact only_run_throw _
  | some kind =>
    cases add with
    | true =>
      refine only_run_bind (only_validateLinks _ _) fun _ => ?_
      exact only_run_bind (only_found trivial) fun _ => only_detailResponse _ _
    | false => exact only_run_bind (only_found trivial) fun _ => only_detailResponse _ _

theorem only_importText (ctx : Context) (id : Uuid) (kind : TextKind) (file : Except Problem String) :
    (Meetings.importText ctx id kind file).run.Only Stmt.plain := by
  unfold Meetings.importText require
  refine only_run_bind (only_refuseUnless _ _) fun _ => ?_
  refine only_run_bind (only_found trivial) fun _ => ?_
  refine only_run_bind (only_given _) fun text => ?_
  refine only_run_bind (only_refuseUnless _ _) fun _ => ?_
  refine only_run_bind ⟨trivial, fun _ => trivial⟩ fun stored => ?_
  cases stored with
  | error problem => exact only_run_throw _
  | ok _ =>
    refine only_run_bind (only_orRefuse trivial _) fun _ => ?_
    refine only_run_bind (only_refuseUnless _ _) fun _ => ?_
    exact only_run_bind (only_found trivial) fun _ => only_detailResponse _ _

variable {ctx : Context} {id : Uuid} {ifMatch : Option String} {req : UpdateMeetingRequest}

theorem recounts_update {events : List MeetingEvent} :
    Recounts (Newest (Told (.update ctx id ifMatch (.ok req))))
      (Meetings.update ctx id ifMatch (.ok req))
      (fun answer => Told (.update ctx id ifMatch (.ok req))
        (.answered (.update ctx id ifMatch (.ok req)) (.ok answer)))
      (fun _ _ => True) events := by
  unfold Meetings.update require
  refine recounts_bind (S := fun _ _ => True)
    (recounts_refuseUnless (fun _ => trivial) fun _ => trivial) ?_
  intro _ events _
  refine recounts_bind (S := fun body _ => body = req) rfl ?_
  intro body events hbody
  rw [hbody]
  -- the meeting is read
  refine recounts_bind (S := fun current later =>
    .ran (.get ctx.projectId id) (.ok (some current)) ∈ later) ?_ ?_
  · unfold found
    refine recounts_bind (S := fun result later => .ran (.get ctx.projectId id) (.ok result) ∈ later)
      (recounts_orRefuse (fun _ => trivial) (fun _ => List.mem_cons_self) fun _ => trivial) ?_
    rintro (_ | current) later hread
    · exact recounts_throw trivial
    · exact recounts_pure hread
  -- what is left of the checks
  intro current events hread
  refine recounts_bind (S := fun _ later => later = events ∧ checkUpdate ifMatch req current = .ok ())
    (recounts_given (fun _ hcheck => ⟨rfl, hcheck⟩) fun _ _ => trivial) ?_
  rintro _ events ⟨rfl, hcheck⟩
  have hplain : ∀ {p : Handler Unit} {events : List MeetingEvent}, p.run.Only Stmt.plain →
      .ran (.get ctx.projectId id) (.ok (some current)) ∈ events →
      Recounts (Newest (Told (.update ctx id ifMatch (.ok req)))) p
        (fun _ later => .ran (.get ctx.projectId id) (.ok (some current)) ∈ later)
        (fun _ _ => True) events :=
    fun hp hread => (recounts_only (C := Stmt.plain)
      (P := fun later => .ran (.get ctx.projectId id) (.ok (some current)) ∈ later)
      (fun stmt result events hstmt hread =>
        ⟨told_of_plain hstmt result events, List.mem_cons_of_mem _ hread⟩) hp hread).mono
        (fun _ _ h => h) fun _ _ _ => trivial
  refine recounts_bind (hplain (only_validatePatchTimezone _) hread) ?_
  intro _ events hread
  refine recounts_bind (hplain (only_validateLinks _ _) hread) ?_
  intro _ events hread
  -- the save and the answer
  refine recounts_bind (S := fun outcome later =>
    .ran (.update ctx.projectId id current.row.version req.patch req.links) (.ok outcome) ∈ later)
    (recounts_orRefuse
      (fun _ => ⟨ctx, ifMatch, req, current, rfl, rfl, rfl, rfl, rfl, hread, hcheck⟩)
      (fun _ => List.mem_cons_self) fun _ => trivial) ?_
  intro outcome events hsaved
  cases outcome with
  | notFound | conflict => exact recounts_throw trivial
  | updated meeting =>
    unfold detailResponse
    refine recounts_bind (S := fun _ later =>
      .ran (.update ctx.projectId id current.row.version req.patch req.links)
        (.ok (.updated meeting)) ∈ later)
      (recounts_orRefuse (fun _ => trivial) (fun _ => List.mem_cons_of_mem _ hsaved)
        fun _ => trivial) ?_
    intro _ later hsaved
    apply recounts_pure
    intro ctx' id' ifMatch' req' hrequest
    cases hrequest
    exact ⟨current.row.version, meeting, rfl, hsaved⟩

theorem only_refused (problem : Problem) :
    (Meetings.update ctx id ifMatch (.error problem)).run.Only Stmt.plain := by
  unfold Meetings.update require
  refine only_run_bind (only_refuseUnless _ _) fun _ => ?_
  exact trivial

theorem tellsAll_told : service.TellsAll fun request => Justified (Told request) := by
  apply Service.tellsAll_justified
  intro request
  refine ⟨trivial, ?_⟩
  cases request with
  | create ctx body => exact tells_of_only (fun _ _ _ _ h => by contradiction) (only_create ctx body)
  | delete ctx id => exact tells_of_only (fun _ _ _ _ h => by contradiction) (only_delete ctx id)
  | toggleLink ctx id kind target add =>
    exact tells_of_only (fun _ _ _ _ h => by contradiction) (only_toggleLink ctx id kind target add)
  | importText ctx id kind file =>
    exact tells_of_only (fun _ _ _ _ h => by contradiction) (only_importText ctx id kind file)
  | update ctx id ifMatch body =>
    cases body with
    | error problem => exact tells_of_only (fun _ _ _ _ h => by cases h) (only_refused problem)
    | ok req =>
      apply Prog.Tells.post recounts_update
      rintro (problem | answer) events houtcome
      · trivial
      · exact houtcome

end Handlers

/-! ## Runs -/

section Runs

variable {db : Db} {labels : List (Label Request Choice)}

theorem grows_run (db : Db) (first middle : List (Label Request Choice)) :
    Grows (service.run (initial db) first).world.state
      (service.run (initial db) (first ++ middle)).world.state := by
  rw [Service.run_append]
  exact service.state_run Grows.refl (fun _ _ _ => Grows.trans) grows_exec _ _

/-- The meeting that an event read, under the id it was asked for. -/
def readMeeting : MeetingEvent → Option (Uuid × Meeting)
  | .ran (.get _ id) (.ok (some meeting)) => some (id, meeting)
  | _ => none

/-- Every meeting that was read is still there, of that version or a higher one. -/
def Seen (w : MeetingWorld) : Prop :=
  ∀ i event id meeting, (i, event) ∈ w.log → readMeeting event = some (id, meeting) →
    meeting.row.id = id ∧ ∃ row, w.state.meetings.find? id = some row ∧ Raises meeting.row row

variable {choice : Choice} {id : Uuid} {meeting : Meeting}

theorem find?_of_read {β : Type} {stmt : Stmt β}
    (h : readMeeting (.ran stmt (stmt.exec choice db).1) = some (id, meeting)) :
    db.meetings.find? id = some meeting.row := by
  unfold Stmt.exec at h
  cases hfails : choice.fails with
  | true =>
    rw [hfails] at h
    cases stmt <;> contradiction
  | false =>
    rw [hfails] at h
    cases stmt with
    | get projectId id' =>
      have hread : readMeeting (.ran (.get projectId id') (.ok ((db.get projectId id').map
        fun row => db.shown choice.live row))) = some (id, meeting) := h
      cases hget : db.get projectId id' with
      | none =>
        rw [hget] at hread
        contradiction
      | some row =>
        rw [hget] at hread
        obtain ⟨rfl, rfl⟩ := Prod.mk.inj (Option.some.inj hread)
        exact (get_eq_some_iff.mp hget).1
    | _ => contradiction

theorem seen_run (db : Db) (labels : List (Label Request Choice)) :
    Seen (service.run (initial db) labels).world := by
  refine service.stepOf_run (P := fun _ {_} _ => True) (I := Seen) (fun _ => Prog.only_true _) ?_
    (Service.attributed_initial db) (fun _ _ _ _ h => by contradiction) labels
  intro w w' hstep hw
  cases hstep with
  | void => exact hw
  | began i request | answered i request answer hbegan =>
    intro j event id meeting hmem hread
    rcases List.mem_cons.mp hmem with heq | hold
    · obtain ⟨-, rfl⟩ := Prod.mk.inj heq
      contradiction
    · exact hw j event id meeting hold hread
  | issued i request stmt choice hbegan hmay =>
    intro j event id meeting hmem hread
    have hgrows : Grows w.state (service.perform i stmt choice w).state :=
      grows_exec stmt choice w.state
    rcases List.mem_cons.mp hmem with heq | hold
    · obtain ⟨-, rfl⟩ := Prod.mk.inj heq
      have hfound := find?_of_read hread
      obtain ⟨row, hrow, hraises, -⟩ := hgrows id meeting.row hfound
      exact ⟨Table.key_of_find? hfound, row, hrow, hraises⟩
    · obtain ⟨hid, row, hrow, hraises⟩ := hw j event id meeting hold hread
      obtain ⟨row', hrow', hraises', -⟩ := hgrows id row hrow
      exact ⟨hid, row', hrow', hraises.trans hraises'⟩

/-- A patch is applied to a version that its header names, row and link sets together. -/
def Applied (ctx : Context) (id : Uuid) (ifMatch : Option String) (req : UpdateMeetingRequest)
    (db later : Db) : Prop :=
  ∃ row times, db.get ctx.projectId id = some row ∧
    checkIfMatch ifMatch (etag id row.version) = .ok () ∧
    Db.timesAfter req.patch row.times = some times ∧
    later.meetings.find? id = some (Db.patched req.patch times row) ∧
    later.links = Db.replaceLinks id req.links db.links ∧
    ∀ other, other ≠ id → later.meetings.find? other = db.meetings.find? other

variable {ifMatch : Option String} {req : UpdateMeetingRequest}

theorem checkIfMatch_of_checkUpdate {current : Meeting}
    (h : checkUpdate ifMatch req current = .ok ()) :
    checkIfMatch ifMatch (etag current.row.id current.row.version) = .ok () := by
  unfold checkUpdate at h
  cases hmatch : checkIfMatch ifMatch (etag current.row.id current.row.version) with
  | error problem =>
    rw [hmatch] at h
    contradiction
  | ok _ => rfl

variable {projectId : Uuid} {version : Nat} {links : MeetingLinks}

theorem applied_of_updated {patch : MeetingPatch}
    (h : ((Stmt.update projectId id version patch links).exec choice db).1 =
      .ok (.updated meeting)) :
    ∃ row times, db.get projectId id = some row ∧ row.version = version ∧
      Db.timesAfter patch row.times = some times ∧
      (∃ hf, ((Stmt.update projectId id version patch links).exec choice db).2.meetings =
        db.meetings.modify (·.id == id) (Db.patched patch times) hf) ∧
      ((Stmt.update projectId id version patch links).exec choice db).2.links =
        Db.replaceLinks id links db.links := by
  unfold Stmt.exec at h ⊢
  cases hfails : choice.fails with
  | true =>
    rw [hfails] at h
    contradiction
  | false =>
    rw [hfails] at h
    simp only [Bool.false_eq_true, if_false, Stmt.effect] at h ⊢
    cases hupdate : db.update projectId id version patch links choice.live with
    | error e =>
      rw [hupdate] at h
      contradiction
    | ok result =>
      obtain ⟨outcome, later⟩ := result
      rw [hupdate] at h
      rcases update_eq_ok hupdate with ⟨-, hnot⟩ | ⟨row, times, hget, hversion, htimes, hrows, hlinks, -⟩
      · exact absurd (Except.ok.inj h) (hnot meeting)
      · exact ⟨row, times, hget, hversion, htimes, hrows, hlinks⟩

variable {first : List (Label Request Choice)} {i : Nat} {ctx : Context}

/-- What the save of a patch finds and leaves. -/
theorem applied_of_save
    (hresult : ((Stmt.update ctx.projectId id version req.patch req.links).exec choice
      (service.run (initial db) first).world.state).1 = .ok (.updated meeting))
    (htold : Told (.update ctx id ifMatch (.ok req))
      (.ran (.update ctx.projectId id version req.patch req.links) (.ok (.updated meeting)))
      ((service.run (initial db) first).world.own i)) :
    Applied ctx id ifMatch req (service.run (initial db) first).world.state
      ((Stmt.update ctx.projectId id version req.patch req.links).exec choice
        (service.run (initial db) first).world.state).2 := by
  have hseen := seen_run db first
  generalize (service.run (initial db) first).world = w at *
  -- the meeting that the patch has read is of the version that it saves over
  obtain ⟨ctx', ifMatch', req', current, hrequest, -, rfl, -, -, hread, hcheck⟩ := htold
  cases hrequest
  obtain ⟨hid, -⟩ := hseen i _ id current (World.mem_own.mp hread) rfl
  have hmatch := checkIfMatch_of_checkUpdate hcheck
  rw [hid] at hmatch
  obtain ⟨row, times, hget, hversion, htimes, ⟨hf, hrows⟩, hlinks⟩ := applied_of_updated hresult
  refine ⟨row, times, hget, ?_, htimes, ?_, hlinks, ?_⟩
  · rw [hversion]
    exact hmatch
  · have hfound := (get_eq_some_iff.mp hget).1
    rw [hrows, Table.find?_modify, hfound, Option.map_some,
      if_pos (by simp [Table.key_of_find? hfound])]
  · intro other hne
    rw [hrows, Table.find?_modify]
    cases hother : w.state.meetings.find? other with
    | none => rfl
    | some row' =>
      rw [Option.map_some, if_neg (by simpa [Table.key_of_find? hother] using hne)]

/-- At this step patch `i` saves the meeting that it answers with. -/
structure SavedAt (db : Db) (first : List (Label Request Choice)) (label : Label Request Choice)
    (i : Nat) (ctx : Context) (id : Uuid) (ifMatch : Option String) (req : UpdateMeetingRequest)
    (answer : Answer) : Prop where
  logged : ∃ version meeting, answer = .meeting 200 meeting ∧
    (service.step (service.run (initial db) first) label).world.log =
      (i, .ran (.update ctx.projectId id version req.patch req.links) (.ok (.updated meeting))) ::
        (service.run (initial db) first).world.log
  applied : Applied ctx id ifMatch req (service.run (initial db) first).world.state
    (service.step (service.run (initial db) first) label).world.state

theorem savedAt_of_answered {answer : Answer}
    (hanswered : Service.Answered (service.run (initial db) labels) i
      (.update ctx id ifMatch (.ok req)) (.ok answer)) :
    ∃ first label last, labels = first ++ label :: last ∧
      SavedAt db first label i ctx id ifMatch req answer := by
  obtain ⟨earlier, -, htold, hearlier⟩ := service.told_of_answered tellsAll_told db labels hanswered
  obtain ⟨version, meeting, rfl, hsaved⟩ := htold ctx id ifMatch req rfl
  obtain ⟨todo, hthread⟩ := hanswered
  have hbegan := (service.attributed_run (P := fun _ {_} _ => True)
    (fun _ => Prog.only_true _) (Service.attributed_initial db) labels i _ hthread).1
  obtain ⟨first, choice, last, hsplit, hresult, htold, hworld⟩ :=
    service.told_of_ran tellsAll_told db hbegan (hearlier _ hsaved)
  have hstep : (service.step (service.run (initial db) first) (.run i choice)).world =
      service.perform i (.update ctx.projectId id version req.patch req.links) choice
        (service.run (initial db) first).world := by
    rw [← hworld, Service.run_append]
    rfl
  refine ⟨first, .run i choice, last, hsplit, ⟨version, meeting, rfl, ?_⟩, ?_⟩
  · rw [hstep, hresult]
    rfl
  · rw [hstep]
    exact applied_of_save hresult.symm htold

/-- Request `i` has saved nothing. -/
def NotSaved (w : MeetingWorld) (i : Nat) : Prop :=
  ∀ event, (i, event) ∈ w.log → saving event = false

/-- A patch of a version that the meeting had before it changed is refused. -/
theorem stale_refused {middle last : List (Label Request Choice)} {answer : Answer}
    {row : MeetingRow}
    (hrow : (service.run (initial db) first).world.state.meetings.find? id = some row)
    (hcarries : Carries id row.version ifMatch)
    (hchanged : (service.run (initial db) (first ++ middle)).world.state.meetings.find? id ≠
        some row ∨
      (service.run (initial db) (first ++ middle)).world.state.linksOf id ≠
        (service.run (initial db) first).world.state.linksOf id)
    (hnot : NotSaved (service.run (initial db) (first ++ middle)).world i) :
    ¬ Service.Answered (service.run (initial db) (first ++ middle ++ last)) i
      (.update ctx id ifMatch (.ok req)) (.ok answer) := by
  intro hanswered
  obtain ⟨before, label, rest, hsplit, hsaved⟩ := savedAt_of_answered hanswered
  obtain ⟨version, meeting, -, hlog⟩ := hsaved.logged
  -- the save comes after the change
  have hafter : ∃ later, before = first ++ middle ++ later := by
    have hfirst : first ++ middle <+: first ++ middle ++ last := List.prefix_append _ _
    have hbefore : before ++ [label] <+: first ++ middle ++ last :=
      ⟨rest, by rw [hsplit, List.append_assoc]; rfl⟩
    have hstays : ∀ later, first ++ middle ≠ before ++ [label] ++ later := by
      intro later heq
      have hmem : (i, .ran (.update ctx.projectId id version req.patch req.links)
          (.ok (.updated meeting))) ∈
            (service.run (initial db) (first ++ middle)).world.log := by
        rw [heq, Service.run_append, Service.run_append]
        refine service.log_run _ later _ ?_
        show _ ∈ (service.step (service.run (initial db) before) label).world.log
        rw [hlog]
        exact List.mem_cons_self
      have hsaving := hnot _ hmem
      contradiction
    rcases List.prefix_or_prefix_of_prefix hfirst hbefore with ⟨later, heq⟩ | ⟨later, heq⟩
    · rcases List.eq_nil_or_concat later with rfl | ⟨init, end_, rfl⟩
      · rw [List.append_nil] at heq
        exact absurd (by rw [heq, List.append_nil]) (hstays [])
      · rw [List.concat_eq_append, ← List.append_assoc] at heq
        exact ⟨init, (List.append_inj_left' heq rfl).symm⟩
    · exact absurd heq.symm (hstays later)
  obtain ⟨later, rfl⟩ := hafter
  obtain ⟨old, times, hget, hmatch, -⟩ := hsaved.applied
  obtain ⟨hold, -, hlive⟩ := get_eq_some_iff.mp hget
  have hversion : old.version = row.version := ((hcarries _ _).mp hmatch).2
  obtain ⟨mid, hmid, hraises, hlinks⟩ := grows_run db first middle id row hrow
  obtain ⟨old', hold', hraises', -⟩ := grows_run db (first ++ middle) later id mid hmid
  obtain rfl := Option.some.inj (hold.symm.trans hold')
  have hle := hraises.version_le
  have hle' := hraises'.version_le
  have hmidlive : mid.deleted = false := by
    by_contra hdeleted
    rw [hraises'.deleted (by omega) (by simpa using hdeleted)] at hlive
    contradiction
  have hsame : mid = row := hraises.eq (by omega) hmidlive
  rcases hchanged with hother | hother
  · exact hother (by rw [hmid, hsame])
  · exact hother (hlinks (by omega))

/-! ## The time rule -/

/-- A statement that the checks of the table refuse. -/
def violated : MeetingEvent → Bool
  | .ran (.create _ _ _ _) (.error .checkViolation) => true
  | .ran (.update _ _ _ _ _) (.error .checkViolation) => true
  | _ => false

variable {startTime : Option Time}

theorem Times.ordered_iff {endTime : Option Time} :
    timesOk startTime endTime = true ↔
      ∀ finish, endTime = some finish → ∃ start, startTime = some start ∧ start < finish := by
  cases endTime with
  | none => simp [timesOk]
  | some finish =>
    cases startTime with
    | none => simp [timesOk]
    | some start => simp [timesOk]

theorem Times.of?_ne_none {endTime : Option Time} (h : timesOk startTime endTime = true) :
    Times.of? startTime endTime ≠ none := by
  rw [Times.of?, dif_pos h]
  exact Option.some_ne_none _

theorem timesOk_of_checkUpdate {current : Meeting} (h : checkUpdate ifMatch req current = .ok ()) :
    timesOk (req.startTime.getD current.row.times.startTime)
      (req.endTime.getD current.row.times.endTime) = true := by
  unfold checkUpdate at h
  cases hmatch : checkIfMatch ifMatch (etag current.row.id current.row.version) with
  | error problem =>
    rw [hmatch] at h
    contradiction
  | ok _ =>
    rw [hmatch] at h
    cases hlengths : checkLengths req.title req.location req.description req.summary
        req.transcript with
    | error problem =>
      rw [hlengths] at h
      contradiction
    | ok _ =>
      rw [hlengths] at h
      by_contra htimes
      rw [Bool.not_eq_true] at htimes
      simp only [bind, Except.bind, htimes] at h
      contradiction

theorem not_violated_create {createdBy : Uuid} {new : MeetingNew}
    (htimes : timesOk new.startTime new.endTime = true) :
    violated (.ran (.create projectId createdBy new links)
      ((Stmt.create projectId createdBy new links).exec choice db).1) = false := by
  unfold Stmt.exec
  cases choice.fails with
  | true => rfl
  | false =>
    simp only [Bool.false_eq_true, if_false, Stmt.effect, Db.create]
    cases hof : Times.of? new.startTime new.endTime with
    | none => exact absurd hof (Times.of?_ne_none htimes)
    | some times => rfl

/-- An update that the checks refuse has found the version that it expects. -/
theorem found_of_violated {patch : MeetingPatch}
    (h : violated (.ran (.update projectId id version patch links)
      ((Stmt.update projectId id version patch links).exec choice db).1) = true) :
    ∃ row, db.get projectId id = some row ∧ row.version = version ∧
      Db.timesAfter patch row.times = none := by
  unfold Stmt.exec at h
  cases hfails : choice.fails with
  | true =>
    rw [hfails] at h
    contradiction
  | false =>
    rw [hfails] at h
    simp only [Bool.false_eq_true, if_false, Stmt.effect, Db.update] at h
    cases hget : db.get projectId id with
    | none =>
      rw [hget] at h
      contradiction
    | some row =>
      rw [hget] at h
      dsimp only at h
      by_cases hversion : row.version = version
      · rw [if_neg (not_not.mpr hversion)] at h
        cases htimes : Db.timesAfter patch row.times with
        | none => exact ⟨row, rfl, hversion, htimes⟩
        | some times =>
          rw [htimes] at h
          contradiction
      · rw [if_pos hversion] at h
        contradiction

/-- The checks of the table never have to refuse anything. -/
theorem not_violated {event : MeetingEvent}
    (h : (i, event) ∈ (service.run (initial db) labels).world.log) : violated event = false := by
  cases event with
  | began request => rfl
  | answered request answer => rfl
  | ran stmt result =>
    obtain ⟨request, hbegan⟩ := (service.attested tellsAll_told db labels).begun i _ h
    obtain ⟨first, choice, -, -, rfl, htold, -⟩ :=
      service.told_of_ran tellsAll_told db hbegan h
    have hseen := seen_run db first
    generalize (service.run (initial db) first).world = w at *
    cases stmt with
    | create projectId createdBy new links => exact not_violated_create htold
    | update projectId id version patch links =>
      rw [← Bool.not_eq_true]
      intro hviolated
      obtain ⟨row, hget, hversion, hnone⟩ := found_of_violated hviolated
      obtain ⟨hfound, -, hlive⟩ := get_eq_some_iff.mp hget
      obtain ⟨ctx, ifMatch, req, current, -, -, hcurrent, rfl, -, hread, hcheck⟩ := htold
      obtain ⟨-, row', hrow', hraises⟩ := hseen i _ id current (World.mem_own.mp hread) rfl
      obtain rfl := Option.some.inj (hfound.symm.trans hrow')
      obtain rfl := hraises.eq (by omega) hlive
      exact Times.of?_ne_none (timesOk_of_checkUpdate hcheck) hnone
    | _ => rfl

end Runs

def member : Context := ⟨1, 7, true⟩

/-- The meeting that `planned` creates. -/
def weekly : MeetingRow :=
  ⟨1, 1, "Weekly", 20, ⟨some 540, some 600, by decide⟩, "UTC", "", "", "", "", 7, 1, false⟩

def plan : CreateMeetingRequest where
  title := "Weekly"
  meetingDate := 20
  startTime := some 540
  endTime := some 600

/-- A meeting is created. -/
def planned : List (Label Request Choice) :=
  .start (.create member (.ok plan)) :: List.replicate 4 (.run 0 {})

/-- Moves the end of the first version. -/
def shortened : Request :=
  .update member 1 (some (etag 1 1)) (.ok { endTime := some (some 570) })

def edited : List (Label Request Choice) := planned ++ .start shortened :: List.replicate 5 (.run 1 {})

theorem edited_answered :
    Service.Answered (service.run (initial Db.empty) edited) 1 shortened
      (.ok (.meeting 200 ⟨{ weekly with times := ⟨some 540, some 570, by decide⟩, version := 2 }, ∅⟩)) :=
  ⟨_, rfl⟩

end IntelliPilot.Meetings
