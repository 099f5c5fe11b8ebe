import IntelliPilot.Projects.MemberHandlers
import IntelliPilot.Statement.OwnEvents

/-! # The last admin of a project

`change_member_role` and `remove_member` count the admins before they write,
and `add_member`, `join_project` and `accept_invitation` write without a count.
A project keeps an admin exactly as long as no write takes the role of its only
admin without a count that is still up to date.
-/

namespace IntelliPilot.Projects

open Statement Prog Rows
open Service (initial)

abbrev MemberEvent := Event Stmt Request Response

abbrev MemberWorld := World Stmt Db Request Response

/-! ## What the writes do to the admins -/

namespace Db

variable (dir : Directory) (projectId : Uuid)

/-- The user is an admin member of the project. -/
def admin (db : Db) (userId : Uuid) : Bool :=
  (db.memberships.find? (projectId, userId)).any fun row => dir.isAdmin row.roleId

variable {dir projectId}

theorem adminOf_iff {db : Db} {row : Membership} (hrow : row ∈ db.memberships.rows) :
    dir.adminOf projectId row = true ↔
      row.projectId = projectId ∧ db.admin dir projectId row.userId = true := by
  rw [Directory.adminOf, Bool.and_eq_true, beq_iff_eq]
  apply and_congr_right
  rintro rfl
  have hfind : db.memberships.find? (row.projectId, row.userId) = some row := Table.find?_key hrow
  rw [admin, hfind, Option.any_some]

theorem exists_row_of_admin {db : Db} {userId : Uuid} (h : db.admin dir projectId userId = true) :
    ∃ row ∈ db.memberships.rows, row.userId = userId ∧ dir.adminOf projectId row = true := by
  obtain ⟨row, hfind, hadmin⟩ := (Option.any_eq_true _ _).mp h
  have hrow := Table.mem_of_find? hfind
  have hkey := Table.key_of_find? hfind
  refine ⟨row, hrow, congrArg Prod.snd hkey, ?_⟩
  rw [Directory.adminOf, hadmin, Bool.and_true, beq_iff_eq]
  exact congrArg Prod.fst hkey

theorem adminCount_pos {db : Db} :
    1 ≤ db.adminCount dir projectId ↔ ∃ userId, db.admin dir projectId userId = true := by
  rw [adminCount, Nat.one_le_iff_ne_zero, ← Nat.pos_iff_ne_zero, List.countP_pos_iff]
  constructor
  · rintro ⟨row, hrow, hadmin⟩
    exact ⟨row.userId, ((adminOf_iff hrow).mp hadmin).2⟩
  · rintro ⟨userId, hadmin⟩
    obtain ⟨row, hrow, _, hof⟩ := exists_row_of_admin hadmin
    exact ⟨row, hrow, hof⟩

/-- Two admin memberships of a project are of different users. -/
theorem other_admin_of_two {db : Db} (htwo : 2 ≤ db.adminCount dir projectId) (userId : Uuid) :
    ∃ other, other ≠ userId ∧ db.admin dir projectId other = true := by
  by_contra hnone
  have hle : db.adminCount dir projectId ≤
      (db.memberships.rows.map Membership.key).count (projectId, userId) := by
    rw [adminCount, List.count, List.countP_map]
    apply List.countP_mono_left
    intro row hrow hof
    obtain ⟨hproject, hadmin⟩ := (adminOf_iff hrow).mp hof
    have huser : row.userId = userId := by
      by_contra hne
      exact hnone ⟨row.userId, hne, hadmin⟩
    simp [Membership.key, hproject, huser]
  have hone := List.nodup_iff_count_le_one.mp db.memberships.nodup (projectId, userId)
  omega

theorem find?_setRole (db : Db) (p userId roleId : Uuid) (k : Uuid × Uuid) :
    (db.setRole p userId roleId).memberships.find? k = (db.memberships.find? k).map fun row =>
      if row.key == (p, userId) then row.withRole roleId else row :=
  Table.find?_modify db.memberships _ _ (fun row => row.key_withRole roleId) k

theorem admin_setRole (db : Db) (p userId roleId other : Uuid) :
    (db.setRole p userId roleId).admin dir projectId other =
      if (projectId, other) = (p, userId) then
        (db.memberships.find? (p, userId)).isSome && dir.isAdmin roleId
      else db.admin dir projectId other := by
  rw [admin, find?_setRole]
  cases hfind : db.memberships.find? (projectId, other) with
  | none =>
    split
    · rename_i heq
      rw [← heq, hfind]
      rfl
    · rw [admin, hfind]
      rfl
  | some row =>
    rw [admin, hfind]
    have hkey : row.key = (projectId, other) := Table.key_of_find? hfind
    simp only [Option.map_some, Option.any_some, hkey]
    split
    · rename_i heq
      rw [if_pos (beq_iff_eq.mp heq), ← beq_iff_eq.mp heq, hfind]
      rfl
    · rename_i heq
      rw [if_neg fun h => heq (beq_iff_eq.mpr h)]

theorem admin_remove (db : Db) (p userId other : Uuid) :
    (db.remove p userId).admin dir projectId other =
      (db.admin dir projectId other && decide ((projectId, other) ≠ (p, userId))) := by
  rw [admin, remove, Table.find?_erase, admin]
  cases hfind : db.memberships.find? (projectId, other) with
  | none => rfl
  | some row =>
    have hkey : row.key = (projectId, other) := Table.key_of_find? hfind
    by_cases heq : (projectId, other) = (p, userId)
    · simp [Option.filter, hkey, heq]
    · simp [Option.filter, hkey, heq]

theorem admin_upsert (db : Db) (p userId roleId other : Uuid) :
    (db.upsert p userId roleId).admin dir projectId other =
      if (projectId, other) = (p, userId) then dir.isAdmin roleId
      else db.admin dir projectId other := by
  rw [upsert]
  cases hinsert : db.memberships.insert? ⟨p, userId, roleId⟩ with
  | some memberships =>
    have hfind : memberships.find? (projectId, other) =
        if (projectId, other) = (p, userId) then some ⟨p, userId, roleId⟩
        else db.memberships.find? (projectId, other) := Table.find?_insert? hinsert _
    by_cases heq : (projectId, other) = (p, userId)
    · rw [if_pos heq] at hfind ⊢
      simp only [admin, hfind, Option.any_some]
    · rw [if_neg heq] at hfind ⊢
      simp only [admin, hfind]
  | none =>
    simp only [admin_setRole]
    have htaken : (db.memberships.find? (p, userId)).isSome = true := by
      rw [Option.isSome_iff_ne_none]
      intro hfree
      have hsome : ∃ after, db.memberships.insert? ⟨p, userId, roleId⟩ = some after :=
        Table.exists_insert? hfree
      obtain ⟨_, hsome⟩ := hsome
      rw [hinsert] at hsome
      contradiction
    rw [htaken, Bool.true_and]

@[simp] theorem admin_markAccepted (db : Db) (tokenHash : Nat) (now : Int) (userId : Uuid) :
    (db.markAccepted tokenHash now).admin dir projectId userId =
      db.admin dir projectId userId := rfl

end Db

variable (dir : Directory) (projectId : Uuid)

/-- The member whose admin role a statement takes, should it have one. -/
def takenFrom {β : Type} (stmt : Stmt β) : β → Option Uuid :=
  match stmt with
  | .changeRole p userId roleId => fun result =>
      if result.isOk && p == projectId && !dir.isAdmin roleId then some userId else none
  | .remove p userId => fun result => if result.isOk && p == projectId then some userId else none
  | .upsert p userId roleId => fun result =>
      if result.isOk && p == projectId && !dir.isAdmin roleId then some userId else none
  | _ => fun _ => none

variable {dir projectId}

variable {choice : Choice} {α : Type}

theorem attempt_failed (hfails : choice.fails = true) (result : α) (after db : Db) :
    attempt choice result after db = (.error .failed, db) := if_pos hfails

theorem attempt_ok (hfails : choice.fails = false) (result : α) (after db : Db) :
    attempt choice result after db = (.ok result, after) :=
  if_neg (Bool.eq_false_iff.mp hfails)

variable {β : Type} {stmt : Stmt β} {userId : Uuid}

/-- Only the member a statement takes the role from loses it. -/
theorem admin_kept {db : Db}
    (hother : takenFrom dir projectId stmt (exec dir stmt choice db).1 ≠ some userId)
    (hadmin : db.admin dir projectId userId = true) :
    (exec dir stmt choice db).2.admin dir projectId userId = true := by
  cases hfails : choice.fails with
  | true => cases stmt <;> simpa only [exec, attempt_failed hfails] using hadmin
  | false =>
    cases stmt with
    | changeRole p target roleId =>
      simp only [exec, attempt_ok hfails, takenFrom, Db.admin_setRole] at hother ⊢
      split
      · rename_i heq
        obtain ⟨rfl, rfl⟩ := Prod.mk.inj heq
        have hmember : (db.memberships.find? (projectId, userId)).isSome = true := by
          rw [Db.admin, Option.any_eq_true] at hadmin
          obtain ⟨row, hfind, _⟩ := hadmin
          rw [hfind, Option.isSome_some]
        simpa [hmember, Except.isOk, Except.toBool] using hother
      · exact hadmin
    | remove p target =>
      simp only [exec, attempt_ok hfails, takenFrom, Db.admin_remove] at hother ⊢
      rw [hadmin, Bool.true_and, decide_eq_true_iff]
      rintro ⟨rfl, rfl⟩
      simp [Except.isOk, Except.toBool] at hother
    | upsert p target roleId =>
      simp only [exec, attempt_ok hfails, takenFrom, Db.admin_upsert] at hother ⊢
      split
      · rename_i heq
        obtain ⟨rfl, rfl⟩ := Prod.mk.inj heq
        simpa [Except.isOk, Except.toBool] using hother
      · exact hadmin
    | findRoleBySlug p slug | findUser ref | access p target | adminCount p
    | findPending tokenHash
    | invitationExists tokenHash => simpa only [exec, attempt_ok hfails] using hadmin
    | markAccepted tokenHash =>
      simpa only [exec, attempt_ok hfails, Db.admin_markAccepted] using hadmin

/-- That member is no admin any more, and nobody becomes one. -/
theorem admin_of_taken {db : Db} {other : Uuid}
    (htaken : takenFrom dir projectId stmt (exec dir stmt choice db).1 = some userId)
    (hadmin : (exec dir stmt choice db).2.admin dir projectId other = true) :
    other ≠ userId ∧ db.admin dir projectId other = true := by
  cases hfails : choice.fails with
  | true =>
    cases stmt <;> simp [exec, attempt_failed hfails, takenFrom, Except.isOk, Except.toBool] at htaken
  | false =>
    cases stmt with
    | changeRole p target roleId =>
      simp only [exec, attempt_ok hfails, takenFrom, Db.admin_setRole, Except.isOk,
        Except.toBool, Bool.true_and] at htaken hadmin
      split at htaken
      · rename_i htakes
        rw [Bool.and_eq_true, beq_iff_eq, Bool.not_eq_true'] at htakes
        obtain ⟨rfl, hrole⟩ := htakes
        obtain rfl := Option.some.inj htaken
        split at hadmin
        · rw [hrole, Bool.and_false] at hadmin
          contradiction
        · rename_i hne
          exact ⟨fun heq => hne (by rw [heq]), hadmin⟩
      · contradiction
    | remove p target =>
      simp only [exec, attempt_ok hfails, takenFrom, Db.admin_remove, Except.isOk,
        Except.toBool, Bool.true_and, Bool.and_eq_true, decide_eq_true_iff] at htaken hadmin
      split at htaken
      · rename_i htakes
        obtain rfl := beq_iff_eq.mp htakes
        obtain rfl := Option.some.inj htaken
        exact ⟨fun heq => hadmin.2 (by rw [heq]), hadmin.1⟩
      · contradiction
    | upsert p target roleId =>
      simp only [exec, attempt_ok hfails, takenFrom, Db.admin_upsert, Except.isOk,
        Except.toBool, Bool.true_and] at htaken hadmin
      split at htaken
      · rename_i htakes
        rw [Bool.and_eq_true, beq_iff_eq, Bool.not_eq_true'] at htakes
        obtain ⟨rfl, hrole⟩ := htakes
        obtain rfl := Option.some.inj htaken
        split at hadmin
        · rw [hrole] at hadmin
          contradiction
        · rename_i hne
          exact ⟨fun heq => hne (by rw [heq]), hadmin⟩
      · contradiction
    | findRoleBySlug p slug | findUser ref | access p target | adminCount p
    | findPending tokenHash | invitationExists tokenHash | markAccepted tokenHash => contradiction

/-! ## Counts that are up to date -/

section Counts

variable (dir : Directory) (projectId : Uuid)

def MemberEvent.takenFrom (event : MemberEvent) : Option Uuid :=
  match event with
  | .ran stmt result => Projects.takenFrom dir projectId stmt result
  | _ => none

/-- The number of admins a statement came back with. -/
def counted {β : Type} (stmt : Stmt β) : β → Option Nat :=
  match stmt with
  | .adminCount p => fun result => if p = projectId then result.toOption else none
  | _ => fun _ => none

def MemberEvent.counted (event : MemberEvent) : Option Nat :=
  match event with
  | .ran stmt result => Projects.counted projectId stmt result
  | _ => none

/-- The last count of program `i`, if no write took an admin role since. -/
def freshCount (i : Nat) : List (Nat × MemberEvent) → Option Nat
  | [] => none
  | (j, event) :: log =>
      match if j = i then MemberEvent.counted projectId event else none with
      | some count => some count
      | none =>
          if (MemberEvent.takenFrom dir projectId event).isSome then none else freshCount i log

/-- A write that takes the role of a member comes after a count that is still
up to date, or leaves another admin. -/
def Guarded (w w' : MemberWorld) : Prop :=
  ∀ i event userId, w'.log = (i, event) :: w.log →
    MemberEvent.takenFrom dir projectId event = some userId →
      (freshCount dir projectId i w.log).isSome = true ∨
        ∃ other, other ≠ userId ∧ w.state.admin dir projectId other = true

/-- No count of a request has been one or less. -/
def CountsTwo (events : List MemberEvent) : Prop :=
  ∀ event ∈ events, ∀ count, MemberEvent.counted projectId event = some count → 2 ≤ count

/-- A request has taken no role. -/
def TakesNone (events : List MemberEvent) : Prop :=
  ∀ event ∈ events, MemberEvent.takenFrom dir projectId event = none

/-- A request that takes an admin role has counted two admins, if it has counted. -/
def Counted (events : List MemberEvent) : Prop :=
  TakesNone dir projectId events ∨ CountsTwo projectId events

/-- Up-to-date counts above one are right. -/
def CountsHold (w : MemberWorld) : Prop :=
  ∀ i count, freshCount dir projectId i w.log = some count → 2 ≤ count →
    ∀ userId, ∃ other, other ≠ userId ∧ w.state.admin dir projectId other = true

end Counts

variable {count : Nat}

theorem counted_state {db : Db}
    (h : counted projectId stmt (exec dir stmt choice db).1 = some count) :
    (exec dir stmt choice db).2 = db ∧ count = db.adminCount dir projectId := by
  cases stmt with
  | adminCount p =>
    simp only [counted] at h
    split at h
    · rename_i hp
      subst hp
      cases hfails : choice.fails with
      | true =>
        rw [exec, attempt_failed hfails] at h
        contradiction
      | false =>
        simp only [exec, attempt_ok hfails] at h ⊢
        exact ⟨trivial, (Option.some.inj h).symm⟩
    · contradiction
  | _ => contradiction

variable {i : Nat} {event : MemberEvent} {log : List (Nat × MemberEvent)}

theorem freshCount_cons_of_other {j : Nat}
    (h : freshCount dir projectId i ((j, event) :: log) = some count) :
    MemberEvent.counted projectId event = some count ∨
      MemberEvent.takenFrom dir projectId event = none ∧
        freshCount dir projectId i log = some count := by
  rw [freshCount] at h
  split at h
  · rename_i found hfound
    split at hfound
    · exact Or.inl (hfound.trans h)
    · contradiction
  · split at h
    · contradiction
    · rename_i hkeeps
      exact Or.inr ⟨by simpa using hkeeps, h⟩

/-- A fresh count is one of the program's own. -/
theorem mem_of_freshCount (h : freshCount dir projectId i log = some count) :
    ∃ event, (i, event) ∈ log ∧ MemberEvent.counted projectId event = some count := by
  induction log with
  | nil => contradiction
  | cons entry log ih =>
    obtain ⟨j, event⟩ := entry
    rw [freshCount] at h
    split at h
    · rename_i found hfound
      split at hfound
      · rename_i hj
        subst hj
        exact ⟨event, List.mem_cons_self, hfound.trans h⟩
      · contradiction
    · split at h
      · contradiction
      · obtain ⟨event', hmem, hcounted⟩ := ih h
        exact ⟨event', List.mem_cons_of_mem _ hmem, hcounted⟩

variable {w : MemberWorld}

theorem countsHold_issued (hcounts : CountsHold dir projectId w) (i : Nat) (stmt : Stmt β)
    (choice : Choice) :
    CountsHold dir projectId ((memberService dir).perform i stmt choice w) := by
  intro j count hfresh htwo userId
  rcases freshCount_cons_of_other hfresh with hnow | ⟨hkeeps, hbefore⟩
  · obtain ⟨hsame, hcount⟩ := counted_state hnow
    rw [hcount] at htwo
    obtain ⟨other, hne, hadmin⟩ := Db.other_admin_of_two htwo userId
    refine ⟨other, hne, ?_⟩
    change (exec dir stmt choice w.state).2.admin dir projectId other = true
    rw [hsame]
    exact hadmin
  · obtain ⟨other, hne, hadmin⟩ := hcounts j count hbefore htwo userId
    refine ⟨other, hne, admin_kept ?_ hadmin⟩
    have hnone : takenFrom dir projectId stmt (exec dir stmt choice w.state).1 = none := hkeeps
    simp [hnone]

theorem countsHold_step {P : Request → {β : Type} → Stmt β → Prop} {w' : MemberWorld}
    (hstep : Service.StepOf (memberService dir) P w w') (hcounts : CountsHold dir projectId w) :
    CountsHold dir projectId w' := by
  cases hstep with
  | void => exact hcounts
  | began i request | answered i request answer hbegan =>
    intro j count hfresh
    rcases freshCount_cons_of_other hfresh with hnow | ⟨_, hbefore⟩
    · contradiction
    · exact hcounts j count hbefore
  | issued i request stmt choice hbegan hmay => exact countsHold_issued hcounts i stmt choice

/-! ## Requests that count -/

/-- Statements that neither count nor take a role. -/
def plain {β : Type} (stmt : Stmt β) : Bool :=
  match stmt with
  | .adminCount _ => false
  | .changeRole .. => false
  | .remove .. => false
  | .upsert .. => false
  | _ => true

variable {events : List MemberEvent}

theorem TakesNone.cons (h : TakesNone dir projectId events)
    (hevent : MemberEvent.takenFrom dir projectId event = none) :
    TakesNone dir projectId (event :: events) := List.forall_mem_cons.mpr ⟨hevent, h⟩

theorem CountsTwo.cons (h : CountsTwo projectId events)
    (hevent : MemberEvent.counted projectId event = none) :
    CountsTwo projectId (event :: events) := by
  refine List.forall_mem_cons.mpr ⟨?_, h⟩
  simp [hevent]

/-- Ready to write: nothing taken yet, and every count allows it. -/
def Ready (dir : Directory) (projectId : Uuid) (events : List MemberEvent) : Prop :=
  TakesNone dir projectId events ∧ CountsTwo projectId events

variable {events : List MemberEvent}

theorem Ready.plain (h : Ready dir projectId events) (hplain : Projects.plain stmt = true)
    (result : β) :
    Ready dir projectId (.ran stmt result :: events) := by
  have hnone : takenFrom dir projectId stmt result = none ∧ counted projectId stmt result = none := by
    cases stmt <;> first | contradiction | exact ⟨rfl, rfl⟩
  exact ⟨h.1.cons hnone.1, h.2.cons hnone.2⟩

/-- The write itself, after which the request issues nothing. -/
theorem tells_write (h : Ready dir projectId events)
    (hstmt : ∀ result : β, counted projectId stmt result = none) :
    (Prog.call stmt).Tells (Counted dir projectId)
      (fun _ => Counted dir projectId) events := by
  intro result
  have htwo : CountsTwo projectId (.ran stmt result :: events) := h.2.cons (hstmt result)
  exact ⟨Or.inr htwo, Or.inr htwo⟩

theorem tells_plain {p : Prog Stmt α} (hp : p.Only fun stmt => Projects.plain stmt = true)
    (h : Ready dir projectId events) :
    p.Tells (Counted dir projectId) (fun _ => Ready dir projectId) events :=
  tells_only (P := Ready dir projectId) (fun _ result _ hplain hready =>
    have hready' := Ready.plain hready hplain result
    ⟨Or.inr hready'.2, hready'⟩) hp h

theorem tells_call_plain (hplain : Projects.plain stmt = true) (h : Ready dir projectId events) :
    (Prog.call stmt).Tells (Counted dir projectId) (fun _ => Ready dir projectId) events :=
  tells_plain (only_call hplain) h

theorem tells_done (h : Ready dir projectId events) (answer : α) :
    (pure answer : Prog Stmt α).Tells (Counted dir projectId)
      (fun _ => Counted dir projectId) events := Or.inr h.2

theorem tells_requestedRole (p : Uuid) (slug : String) (h : Ready dir projectId events) :
    (requestedRole p slug).Tells (Counted dir projectId) (fun _ => Ready dir projectId) events := by
  apply tells_bind (tells_call_plain rfl h)
  intro result events hready
  cases result with
  | ok role => exact hready
  | error e => exact hready

/-- A check that does not refuse has counted two admins, if it has counted. -/
theorem tells_lastAdmin (p target : Uuid) (keepsAdmin : Bool) (h : Ready dir projectId events) :
    (lastAdmin p target keepsAdmin).Tells (Counted dir projectId)
      (fun refused events => if refused then Counted dir projectId events
        else Ready dir projectId events) events := by
  apply tells_bind (tells_call_plain rfl h)
  intro result events hready
  split
  · split
    · apply tells_bind (Q := fun result events => TakesNone dir projectId events ∧
        ∀ count, result = .ok count → decide (count ≤ 1) = false → CountsTwo projectId events)
      · intro result
        have hnone : TakesNone dir projectId (.ran (.adminCount p) result :: events) :=
          hready.1.cons rfl
        refine ⟨Or.inl hnone, hnone, ?_⟩
        rintro count rfl htwo
        refine List.forall_mem_cons.mpr ⟨?_, hready.2⟩
        intro found hfound
        simp only [MemberEvent.counted, counted] at hfound
        split at hfound
        · obtain rfl := Option.some.inj hfound
          have hlt := of_decide_eq_false htwo
          omega
        · contradiction
      · intro result events hcounted
        cases result with
        | error e => exact Or.inl hcounted.1
        | ok count =>
          cases hfew : decide (count ≤ 1) with
          | true =>
            simp only [Prog.pure_eq, Prog.Tells, hfew]
            exact Or.inl hcounted.1
          | false =>
            simp only [Prog.pure_eq, Prog.Tells, hfew]
            exact ⟨hcounted.1, hcounted.2 count rfl hfew⟩
    · exact hready
  · exact hready

theorem tells_afterCheck {p target : Uuid} {keepsAdmin : Bool} {refusal : Response}
    {stmt : Stmt (Except DbError Bool)} (hstmt : ∀ result, counted projectId stmt result = none)
    (h : Ready dir projectId events) :
    (do if ← lastAdmin p target keepsAdmin then return refusal
        else return written (← Prog.call stmt) : Prog Stmt Response).Tells
      (Counted dir projectId) (fun _ => Counted dir projectId) events := by
  apply tells_bind (tells_lastAdmin p target keepsAdmin h)
  intro refused events hchecked
  cases refused with
  | true => exact hchecked
  | false => exact tells_bind (tells_write hchecked hstmt) fun _ _ hcounted => hcounted

theorem tells_handler (request : Request) (h : Ready dir projectId events) :
    (handler request).Tells (Counted dir projectId) (fun _ => Counted dir projectId) events := by
  cases request with
  | changeMemberRole ctx target body =>
    simp only [handler, changeMemberRole]
    split
    · exact tells_done h _
    · exact tells_done h _
    · exact tells_done h _
    · apply tells_bind (tells_requestedRole _ _ h)
      intro role events hready
      split
      · exact tells_done hready _
      · exact tells_afterCheck (fun _ => rfl) hready
  | removeMember ctx target =>
    simp only [handler, removeMember]
    split
    · exact tells_done h _
    · split
      · exact tells_done h _
      · exact tells_afterCheck (fun _ => rfl) h
  | addMember ctx body =>
    simp only [handler, addMember]
    split
    · exact tells_done h _
    · exact tells_done h _
    · split
      · exact tells_done h _
      · apply tells_bind (tells_call_plain rfl h)
        intro found events hready
        split
        · apply tells_bind (tells_requestedRole _ _ hready)
          intro role events hready
          split
          · exact tells_done hready _
          · apply tells_bind (tells_call_plain rfl hready)
            intro access events hready
            split
            · exact tells_done hready _
            · apply tells_bind (tells_write hready fun _ => rfl)
              intro result events hcounted
              split
              · exact hcounted
              · exact hcounted
        · exact tells_done hready _
  | joinProject ctx body =>
    simp only [handler, joinProject]
    split
    · exact tells_done h _
    · split
      · exact tells_done h _
      · split
        · exact tells_done h _
        · apply tells_bind (tells_requestedRole _ _ h)
          intro role events hready
          split
          · exact tells_done hready _
          · apply tells_bind (tells_write hready fun _ => rfl)
            intro result events hcounted
            split
            · exact hcounted
            · exact hcounted
  | acceptInvitation userId body =>
    simp only [handler, acceptInvitation]
    split
    · exact tells_done h _
    · apply tells_bind (tells_call_plain rfl h)
      intro found events hready
      split
      · exact tells_done hready _
      · apply tells_bind (tells_call_plain rfl hready)
        intro known events hready
        split
        · exact tells_done hready _
        · exact tells_done hready _
      · apply tells_bind (tells_call_plain rfl hready)
        intro marked events hready
        split
        · exact tells_done hready _
        · exact tells_done hready _
        · apply tells_bind (tells_write hready fun _ => rfl)
          intro result events hcounted
          split
          · exact hcounted
          · exact hcounted

theorem tellsAll : (memberService dir).TellsAll fun _ => Counted dir projectId := by
  intro request
  have hready : Ready dir projectId [.began request] := by
    constructor
    · exact List.forall_mem_singleton.mpr rfl
    · exact List.forall_mem_singleton.mpr fun _ hcounted => by contradiction
  refine ⟨Or.inr hready.2, (tells_handler request hready).post fun answer events hcounted => ?_⟩
  rcases hcounted with hnone | htwo
  · exact Or.inl (hnone.cons rfl)
  · exact Or.inr (htwo.cons rfl)

theorem counted_run (dir : Directory) (projectId : Uuid) (db : Db) (labels : List (Label Request Choice)) :
    ∀ entry ∈ ((memberService dir).run (initial db) labels).world.log,
      Counted dir projectId
        (((memberService dir).run (initial db) labels).world.own entry.1) := by
  intro entry hentry
  have hi := (memberService dir).started_run (Service.started_initial db) labels entry hentry
  exact (memberService dir).own_run tellsAll db labels _ _ (List.getElem?_eq_getElem hi)

/-! ## Keeping an admin -/

theorem countsHold_run (dir : Directory) (projectId : Uuid) (db : Db) (labels : List (Label Request Choice)) :
    CountsHold dir projectId ((memberService dir).run (initial db) labels).world := by
  apply (memberService dir).stepOf_run (P := fun _ _ _ => True) (fun _ => only_true _)
    (fun w w' hstep => countsHold_step hstep) (Service.attributed_initial db)
  intro i count hfresh
  contradiction

/-- What a fresh count allows to write leaves another admin. -/
theorem other_admin_of_fresh (hcounts : CountsHold dir projectId w)
    (hcounted : Counted dir projectId (event :: w.own i))
    (htaken : MemberEvent.takenFrom dir projectId event = some userId)
    (hfresh : (freshCount dir projectId i w.log).isSome = true) :
    ∃ other, other ≠ userId ∧ w.state.admin dir projectId other = true := by
  obtain ⟨count, hcount⟩ := Option.isSome_iff_exists.mp hfresh
  obtain ⟨counting, hmem, hfound⟩ := mem_of_freshCount hcount
  rcases hcounted with hnone | htwo
  · rw [hnone event List.mem_cons_self] at htaken
    contradiction
  · have hown : counting ∈ event :: w.own i := List.mem_cons_of_mem _ (World.mem_own.mpr hmem)
    exact hcounts i count hcount (htwo counting hown count hfound) userId

/-- A step that takes nobody's role is guarded. -/
theorem guarded_of_none {db : Db} (hnone : MemberEvent.takenFrom dir projectId event = none) :
    Guarded dir projectId w (w.record i event db) := by
  intro j event' userId hlog htaken
  obtain ⟨_, rfl⟩ := Prod.mk.inj (List.cons.inj hlog).1
  rw [hnone] at htaken
  contradiction

theorem admin_issued_iff (hcounts : CountsHold dir projectId w)
    (hcounted : Counted dir projectId (((memberService dir).perform i stmt choice w).own i))
    (hadmin : ∃ userId, w.state.admin dir projectId userId = true) :
    (∃ userId, ((memberService dir).perform i stmt choice w).state.admin dir projectId userId =
        true) ↔ Guarded dir projectId w ((memberService dir).perform i stmt choice w) := by
  constructor
  · rintro ⟨other, hother⟩ j event userId hlog htaken
    obtain ⟨_, rfl⟩ := Prod.mk.inj (List.cons.inj hlog).1
    exact Or.inr ⟨other, admin_of_taken htaken hother⟩
  · intro hguarded
    cases htaken : takenFrom dir projectId stmt (exec dir stmt choice w.state).1 with
    | none =>
      obtain ⟨userId, hadmin⟩ := hadmin
      exact ⟨userId, admin_kept (by simp [htaken]) hadmin⟩
    | some taken =>
      have hother : ∃ other, other ≠ taken ∧ w.state.admin dir projectId other = true := by
        rcases hguarded i _ taken rfl htaken with hfresh | hother
        · rw [Service.perform, World.own_record_self] at hcounted
          exact other_admin_of_fresh hcounts hcounted htaken hfresh
        · exact hother
      obtain ⟨other, hne, hother⟩ := hother
      refine ⟨other, admin_kept ?_ hother⟩
      rw [htaken]
      exact fun heq => hne (Option.some.inj heq).symm

/-- A step of a run keeps an admin exactly if it is guarded. -/
theorem admin_step_iff (db : Db) (labels : List (Label Request Choice))
    (label : Label Request Choice)
    (hadmin : 1 ≤ ((memberService dir).run (initial db) labels).world.state.adminCount
      dir projectId) :
    1 ≤ ((memberService dir).step ((memberService dir).run (initial db) labels)
        label).world.state.adminCount dir projectId ↔
      Guarded dir projectId ((memberService dir).run (initial db) labels).world
        ((memberService dir).step ((memberService dir).run (initial db) labels)
          label).world := by
  have hcounts := countsHold_run dir projectId db labels
  have hcounted := counted_run dir projectId db (labels ++ [label])
  rw [Service.run_append] at hcounted
  simp only [Service.run_cons, Service.run_nil] at hcounted
  have hstep := (memberService dir).stepOf (P := fun _ _ _ => True)
    ((memberService dir).attributed_run (fun _ => only_true _)
      (Service.attributed_initial db) labels) label
  rw [Db.adminCount_pos] at hadmin ⊢
  generalize ((memberService dir).step _ label).world = w' at *
  cases hstep with
  | void =>
    refine iff_of_true hadmin fun i event userId hlog => ?_
    exact absurd hlog.symm (List.cons_ne_self _ _)
  | began i request
  | answered i request answer hbegan => exact iff_of_true hadmin (guarded_of_none rfl)
  | issued i request stmt choice hbegan hmay =>
    exact admin_issued_iff hcounts (hcounted _ List.mem_cons_self) hadmin

namespace Farewell

def adminRole : Role := ⟨10, 1, "admin", true, []⟩

def office : Directory := ⟨[adminRole], fun _ => none⟩

/-- Users 5 and 6 are the admins of project 1. -/
def db : Db := ⟨⟨[⟨1, 5, 10⟩, ⟨1, 6, 10⟩], by decide⟩, []⟩

def leave (userId : Uuid) : Request :=
  .removeMember ⟨1, userId, some ⟨10, true, []⟩, false⟩ (some userId)

def next (i : Nat) : Label Request Choice := .run i ⟨false, 0⟩

/-- Both requests look up their own access and count, then both remove. -/
def race : List (Label Request Choice) :=
  [.start (leave 5), .start (leave 6), next 0, next 1, next 0, next 1, next 0, next 1]

/-- The second request starts when the first is through. -/
def turns : List (Label Request Choice) :=
  [.start (leave 5), next 0, next 0, next 0, next 0, .start (leave 6), next 1, next 1, next 1]

def guardedTest (w w' : MemberWorld) : Bool :=
  match w'.log with
  | [] => true
  | (i, event) :: _ =>
      match MemberEvent.takenFrom office 1 event with
      | none => true
      | some userId => (freshCount office 1 i w.log).isSome ||
          w.state.memberships.rows.any fun row =>
            row.userId != userId && w.state.admin office 1 row.userId

theorem guarded_of_test (w w' : MemberWorld) (htest : guardedTest w w' = true) :
    Guarded office 1 w w' := by
  intro i event userId hlog htaken
  simp only [guardedTest, hlog, htaken, Bool.or_eq_true, List.any_eq_true, Bool.and_eq_true,
    bne_iff_ne] at htest
  rcases htest with hfresh | ⟨row, _, hne, hadmin⟩
  · exact Or.inl hfresh
  · exact Or.inr ⟨row.userId, hne, hadmin⟩

end Farewell

end IntelliPilot.Projects
