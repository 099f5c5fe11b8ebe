import IntelliPilot.Auth.AdminTransactions
import IntelliPilot.Statement.OwnEvents

/-! # The last superadmin

A guarded update takes the flag of a usable superadmin only where it has
counted another one. Between that count and the commit nothing keeps the other
one in place, so a usable superadmin is certain to remain as long as no
guarded update commits on an outdated count, and the writers without a guard
strike nobody who is the last.
-/

namespace IntelliPilot.Auth.Admin

open Statement
open Service (initial)

/-- A usable superadmin. -/
def Accounts.usable (accounts : Accounts) (id : Uuid) : Bool :=
  (accounts.find? id).any Users.activeSuperadmin

/-! ## What a statement did -/

/-- What a statement that came back has done. -/
inductive Act where
  | began (tx : Nat)
  | locked (tx : Nat) (id : Uuid) (user : User)
  | counted (tx : Nat) (id : Uuid) (others : Nat)
  | wrote (tx : Nat) (id : Uuid) (change : Change)
  | committed (tx : Nat)
  | rolledBack (tx : Nat)
  | missed (tx : Nat)
  | erased (id : Uuid)
  | synced (id : Uuid) (isSuperadmin : Bool)
  | inserted
  | nothing
  deriving DecidableEq, Repr

/-- The transaction an act belongs to. -/
def Act.tx : Act → Option Nat
  | .began tx | .locked tx .. | .counted tx .. | .wrote tx .. | .committed tx | .rolledBack tx
  | .missed tx => some tx
  | _ => none

def act {β : Type} (stmt : Stmt β) : β → Act :=
  match stmt with
  | .begin => fun result => match result with
      | .ok tx => .began tx.id
      | .error _ => .nothing
  | .lockUser tx id => fun result => match result with
      | .ok (some user) => .locked tx.id id user
      | _ => .missed tx.id
  | .countOthers tx id => fun result => match result with
      | .ok others => .counted tx.id id others
      | .error _ => .missed tx.id
  | .update tx id change => fun result => match result with
      | .ok _ => .wrote tx.id id change
      | .error _ => .missed tx.id
  | .commit tx => fun result => match result with
      | .ok _ => .committed tx.id
      | .error _ => .rolledBack tx.id
  | .rollback tx => fun _ => .rolledBack tx.id
  | .softDelete id => fun result => match result with
      | .ok true => .erased id
      | _ => .nothing
  | .linkLdapUser id _ isSuperadmin _ => fun result => match result with
      | .ok _ => .synced id isSuperadmin
      | .error _ => .nothing
  | .insertUser _ => fun result => match result with
      | .ok _ => .inserted
      | .error _ => .nothing
  | .findByEmail _ => fun _ => .nothing
  | .usernameTaken _ => fun _ => .nothing

/-- The effect of an act on the accounts. -/
inductive Moves (users : LockedTable User.id) : Act → LockedTable User.id → Prop where
  | began (tx : Nat) : Moves users (.began tx) users
  | locked {tx : Nat} {id : Uuid} {user : User} {users' : LockedTable User.id}
      (hseen : (users.view tx).find? id = some user) (hlock : users.lock? tx id = some users') :
      Moves users (.locked tx id user) users'
  | counted (tx : Nat) (id : Uuid) : Moves users (.counted tx id ((users.view tx).rows.countP
      fun user => Users.activeSuperadmin user && user.id != id)) users
  | vacuous (tx : Nat) (id : Uuid) (change : Change) : Moves users (.wrote tx id change) users
  | wrote {tx : Nat} {id : Uuid} {change : Change} {users' : LockedTable User.id}
      (hwrite : users.write? tx (change.write id) = some users') :
      Moves users (.wrote tx id change) users'
  | committed (tx : Nat) : Moves users (.committed tx) (users.commit tx)
  | rolledBack (tx : Nat) : Moves users (.rolledBack tx) (users.rollback tx)
  | missed (tx : Nat) : Moves users (.missed tx) users
  | erased {id : Uuid} {now : Time} {users' : LockedTable User.id}
      (hupdate : users.update? (Change.write (.deletedAt now) id) = some users') :
      Moves users (.erased id) users'
  | synced {id : Uuid} {ldapDn : Option String} {isSuperadmin : Bool} {fullName : String}
      {users' : LockedTable User.id}
      (hupdate : users.update? (syncWrite id ldapDn isSuperadmin fullName) = some users') :
      Moves users (.synced id isSuperadmin) users'
  | inserted {user : User} {users' : LockedTable User.id}
      (hinsert : users.insert? user = some users') : Moves users .inserted users'
  | nothing : Moves users .nothing users

variable {β : Type}

theorem moves_exec (stmt : Stmt β) (choice : Choice) (accounts : Accounts) :
    Moves accounts.users (act stmt (exec stmt choice accounts).1)
      (exec stmt choice accounts).2.users := by
  cases hfails : choice.fails with
  | true =>
    cases stmt with
    | begin | softDelete id | findByEmail email | usernameTaken username
    | insertUser new => simpa [exec, attempt, hfails, act] using .nothing
    | lockUser tx id | countOthers tx id
    | update tx id change => simpa [exec, attempt, hfails, act] using .missed tx.id
    | commit tx => simpa [exec, hfails, act] using .rolledBack tx.id
    | rollback tx => exact .rolledBack tx.id
    | linkLdapUser id ldapDn isSuperadmin fullName =>
      simpa [exec, attempt, hfails, act] using .nothing
  | false =>
    cases stmt with
    | begin => simpa [exec, attempt, hfails, act] using .began _
    | lockUser tx id =>
      simp only [exec, attempt, hfails, Accounts.lockUser, Bool.false_eq_true, if_false]
      split
      · exact .missed tx.id
      · rename_i user hseen
        cases hlock : accounts.users.lock? tx.id id with
        | none => exact .missed tx.id
        | some users => exact .locked hseen hlock
    | countOthers tx id => simpa [exec, attempt, hfails, act] using .counted tx.id id
    | update tx id change =>
      simp only [exec, attempt, hfails, Accounts.update, Bool.false_eq_true, if_false]
      split
      · exact .vacuous tx.id id change
      · cases hwrite : accounts.users.write? tx.id (change.write id) with
        | none => exact .missed tx.id
        | some users => exact .wrote hwrite
    | commit tx => simpa [exec, hfails, act] using .committed tx.id
    | rollback tx => exact .rolledBack tx.id
    | softDelete id =>
      simp only [exec, attempt, hfails, Accounts.softDelete, Bool.false_eq_true, if_false]
      split
      · exact .nothing
      · cases hupdate : accounts.users.update? (Change.write (.deletedAt choice.now) id) with
        | none => exact .nothing
        | some users => exact .erased hupdate
    | findByEmail email
    | usernameTaken username => simpa [exec, attempt, hfails, act] using .nothing
    | linkLdapUser id ldapDn isSuperadmin fullName =>
      simp only [exec, attempt, hfails, Accounts.linkLdapUser, Bool.false_eq_true, if_false]
      split
      · exact .nothing
      · cases hupdate : accounts.users.update? (syncWrite id ldapDn isSuperadmin fullName) with
        | none => exact .nothing
        | some users => exact .synced hupdate
    | insertUser new =>
      simp only [exec, attempt, hfails, Accounts.insertUser, Bool.false_eq_true, if_false]
      split
      · exact .nothing
      · cases hinsert : accounts.users.insert? (Users.NewUser.row new choice.newId) with
        | none => exact .nothing
        | some users => exact .inserted hinsert

/-! ## Who loses the flag -/

abbrev AdminEvent := Event Stmt Request Answer

abbrev AdminWorld := World Stmt Accounts Request Answer

def AdminEvent.act (event : AdminEvent) : Act :=
  match event with
  | .ran stmt result => Admin.act stmt result
  | _ => .nothing

/-- The acts of a run so far, newest first. -/
def acts (w : AdminWorld) : List Act := w.log.map fun entry => AdminEvent.act entry.2

/-- The target of a removing update of the transaction. -/
def Act.removal (tx : Nat) : Act → Option Uuid
  | .wrote tx' id change => if tx' = tx ∧ change.removes then some id else none
  | _ => none

/-- Whose flag an act may take, after the given acts. -/
def strikes (before : List Act) : Act → List Uuid
  | .committed tx => before.filterMap (Act.removal tx)
  | .erased id => [id]
  | .synced id isSuperadmin => if isSuperadmin then [] else [id]
  | _ => []

def Act.countOf (tx : Nat) : Act → Option (Uuid × Nat)
  | .counted tx' id others => if tx' = tx then some (id, others) else none
  | _ => none

/-- The last count of a transaction, if nobody has been struck since. -/
def freshCount (tx : Nat) : List Act → Option (Uuid × Nat)
  | [] => none
  | act :: before =>
      match act.countOf tx with
      | some count => some count
      | none => if strikes before act = [] then freshCount tx before else none

/-- The commit of a transaction that has counted nobody, or whose count is not
outdated. -/
def upToDate (before : List Act) : Act → Bool
  | .committed tx => before.all (fun act => (act.countOf tx).isNone) ||
      (freshCount tx before).isSome
  | _ => false

/-- Who is struck by a writer without a guard, or on an outdated count, is not
the last one. -/
def Spared (w w' : AdminWorld) : Prop :=
  ∀ act id, acts w' = act :: acts w → id ∈ strikes (acts w) act → upToDate (acts w) act = true ∨
    ∃ other, other ≠ id ∧ w.state.usable other = true

section Usable

variable {users users' : LockedTable User.id}

/-- The table has a usable superadmin under the key. -/
def Usable (users : LockedTable User.id) (id : Uuid) : Prop :=
  ∃ user, users.rows.find? id = some user ∧ Users.activeSuperadmin user = true

variable {id : Uuid}

theorem usable_iff {accounts : Accounts} :
    accounts.usable id = true ↔ Usable accounts.users id := Option.any_eq_true _ _

theorem activeSuperadmin_set {change : Change} (hkeeps : change.removes = false) {user : User}
    (huser : Users.activeSuperadmin user = true) :
    Users.activeSuperadmin (change.set user) = true := by
  simp only [Users.activeSuperadmin, Bool.and_eq_true] at huser ⊢
  obtain ⟨⟨⟨hsuper, hactive⟩, hbanned⟩, hdeleted⟩ := huser
  cases change with
  | isSuperadmin value =>
    have hvalue : value = true := by simpa [Change.removes] using hkeeps
    exact ⟨⟨⟨hvalue, hactive⟩, hbanned⟩, hdeleted⟩
  | isActive value =>
    have hvalue : value = true := by simpa [Change.removes] using hkeeps
    exact ⟨⟨⟨hsuper, hvalue⟩, hbanned⟩, hdeleted⟩
  | bannedAt at_ =>
    have hnone : at_ = none := by simpa [Change.removes] using hkeeps
    exact ⟨⟨⟨hsuper, hactive⟩, by simp [Change.set, hnone]⟩, hdeleted⟩
  | deletedAt at_ => contradiction

theorem Usable.update (h : Usable users id) {write : Write User.id}
    (hupdate : users.update? write = some users')
    (hkeeps : write.row = id → ∀ user, Users.activeSuperadmin user = true →
      Users.activeSuperadmin (write.set user) = true) : Usable users' id := by
  obtain ⟨user, hfind, huser⟩ := h
  obtain ⟨_, hrows, _⟩ := LockedTable.update?_rows hupdate
  rw [Usable, hrows]
  simp only [Table.find?_apply]
  by_cases hid : id = write.row
  · exact ⟨write.set user, by rw [if_pos hid, hfind]; rfl, hkeeps hid.symm user huser⟩
  · exact ⟨user, by rw [if_neg hid, hfind], huser⟩

/-- The uncommitted writes of the transactions are updates among the given acts. -/
def Written (users : LockedTable User.id) (before : List Act) : Prop :=
  ∀ tx write, (tx, write) ∈ users.writes →
    ∃ id change, Act.wrote tx id change ∈ before ∧ write = change.write id

theorem mem_strikes_committed {before : List Act} {tx : Nat} {change : Change}
    (hwrote : Act.wrote tx id change ∈ before) (hremoves : change.removes = true) :
    id ∈ strikes before (.committed tx) :=
  List.mem_filterMap.mpr ⟨_, hwrote, if_pos ⟨rfl, hremoves⟩⟩

/-- Whoever an act does not strike stays usable. -/
theorem Usable.moves {before : List Act} (hwritten : Written users before) {act : Act}
    (hmoves : Moves users act users') (hspared : id ∉ strikes before act) (h : Usable users id) :
    Usable users' id := by
  cases hmoves with
  | began tx | counted tx target | vacuous tx target change | rolledBack tx | missed tx
  | nothing => exact h
  | locked hseen hlock =>
    obtain ⟨hrows, _⟩ := LockedTable.lock?_rows hlock
    rwa [Usable, hrows]
  | wrote hwrite =>
    obtain ⟨hrows, _⟩ := LockedTable.write?_rows hwrite
    rwa [Usable, hrows]
  | committed tx =>
    refine Table.applyAll_keeps (p := fun user => Users.activeSuperadmin user = true) ?_ h
    intro write hmem hrow user huser
    obtain ⟨target, change, hwrote, rfl⟩ := hwritten tx write (users.mem_writesOf.mp hmem)
    obtain rfl : target = id := hrow
    refine activeSuperadmin_set ?_ huser
    by_contra hremoves
    exact hspared (mem_strikes_committed hwrote (Bool.not_eq_false _ ▸ hremoves))
  | erased hupdate =>
    refine h.update hupdate fun hrow => ?_
    exact absurd (List.mem_singleton.mpr hrow.symm) hspared
  | @synced target ldapDn isSuperadmin fullName users' hupdate =>
    refine h.update hupdate fun hrow user huser => ?_
    cases isSuperadmin with
    | false => exact absurd (List.mem_singleton.mpr hrow.symm) hspared
    | true =>
      simp only [Users.activeSuperadmin, syncWrite, Bool.and_eq_true] at huser ⊢
      exact ⟨⟨⟨trivial, trivial⟩, huser.1.2⟩, huser.2⟩
  | inserted hinsert =>
    obtain ⟨user, hfind, huser⟩ := h
    obtain ⟨hrows, _⟩ := LockedTable.insert?_rows hinsert
    refine ⟨user, ?_, huser⟩
    rw [Table.find?_insert? hrows]
    split
    · rename_i hid
      rw [hid, Table.insert?_fresh hrows] at hfind
      contradiction
    · exact hfind

end Usable

/-! ## The course of a request -/

/-- What comes before the commit of a guarded update: the target was not at
risk, or another usable superadmin was counted. -/
inductive Committing (tx : Nat) : List Act → Prop where
  | unguarded {id : Uuid} {user : User} {change : Change}
      (hrisk : change.removes = true → Users.isLastAdminRisk user = false) :
      Committing tx [.wrote tx id change, .locked tx id user, .began tx, .nothing]
  | guarded {id : Uuid} {user : User} {change : Change} {others : Nat} (hothers : others ≠ 0) :
      Committing tx
        [.wrote tx id change, .counted tx id others, .locked tx id user, .began tx, .nothing]

/-- The acts of one request, newest first. -/
structure Shaped (acts : List Act) : Prop where
  tidy : ∀ act ∈ acts, ∀ tx, act.tx = some tx → .began tx ∈ acts
  once : ∀ tx tx', .began tx ∈ acts → .began tx' ∈ acts → tx = tx'
  lock : ∀ tx id user rest, acts = .locked tx id user :: rest → rest = [.began tx, .nothing]
  count : ∀ tx id others rest, acts = .counted tx id others :: rest →
    ∃ user, rest = [.locked tx id user, .began tx, .nothing]
  commit : ∀ tx rest, acts = .committed tx :: rest → Committing tx rest

/-- Acts that need nothing but an open transaction before them. -/
def Act.plain : Act → Bool
  | .began _ | .locked .. | .counted .. | .committed _ => false
  | _ => true

namespace Shaped

variable {acts : List Act}

theorem cons (h : Shaped acts) {act : Act} (hopen : ∀ tx, act.tx = some tx → .began tx ∈ acts)
    (hfirst : ∀ tx, act ≠ .began tx)
    (hlock : ∀ tx id user, act = .locked tx id user → acts = [.began tx, .nothing])
    (hcount : ∀ tx id others, act = .counted tx id others →
      ∃ user, acts = [.locked tx id user, .began tx, .nothing])
    (hcommit : ∀ tx, act = .committed tx → Committing tx acts) : Shaped (act :: acts) where
  tidy act' hact' tx htx := by
    rcases List.mem_cons.mp hact' with rfl | hold
    · exact List.mem_cons_of_mem _ (hopen tx htx)
    · exact List.mem_cons_of_mem _ (h.tidy act' hold tx htx)
  once tx tx' hbegan hbegan' := by
    rcases List.mem_cons.mp hbegan with heq | hbegan
    · exact absurd heq.symm (hfirst tx)
    · rcases List.mem_cons.mp hbegan' with heq | hbegan'
      · exact absurd heq.symm (hfirst tx')
      · exact h.once tx tx' hbegan hbegan'
  lock tx id user rest heq := by
    obtain ⟨hact, rfl⟩ := List.cons.inj heq
    exact hlock tx id user hact
  count tx id others rest heq := by
    obtain ⟨hact, rfl⟩ := List.cons.inj heq
    exact hcount tx id others hact
  commit tx rest heq := by
    obtain ⟨hact, rfl⟩ := List.cons.inj heq
    exact hcommit tx hact

theorem plain (h : Shaped acts) {act : Act} (hplain : act.plain = true)
    (hopen : ∀ tx, act.tx = some tx → .began tx ∈ acts) : Shaped (act :: acts) := by
  refine h.cons hopen ?_ ?_ ?_ ?_
  · rintro tx rfl
    contradiction
  · rintro tx id user rfl
    contradiction
  · rintro tx id others rfl
    contradiction
  · rintro tx rfl
    contradiction

/-- An act outside of transactions. -/
theorem outside (h : Shaped acts) {act : Act} (htx : act.tx = none) : Shaped (act :: acts) := by
  refine h.plain ?_ fun tx hsome => ?_
  · cases act <;> first | rfl | contradiction
  · rw [htx] at hsome
    contradiction

theorem nil : Shaped [] := by
  constructor <;> intros <;> contradiction

theorem began (tx : Nat) : Shaped [.began tx, .nothing] := by
  constructor
  · intro act hact tx' htx
    simp only [List.mem_cons, List.not_mem_nil, or_false] at hact
    rcases hact with rfl | rfl
    · rw [← Option.some.inj htx]
      exact List.mem_cons_self
    · contradiction
  · intro tx₁ tx₂ h₁ h₂
    simp only [List.mem_cons, List.not_mem_nil, or_false, Act.began.injEq, reduceCtorEq] at h₁ h₂
    rw [h₁, h₂]
  all_goals
    intros
    rename_i heq
    exact absurd (List.cons.inj heq).1 (by simp)

theorem locked (tx : Nat) (id : Uuid) (user : User) :
    Shaped [.locked tx id user, .began tx, .nothing] := by
  refine (began tx).cons ?_ ?_ ?_ ?_ ?_
  · intro tx' htx
    rw [← Option.some.inj htx]
    exact List.mem_cons_self
  · intro tx' heq
    contradiction
  · intro tx' id' user' heq
    obtain ⟨rfl, _, _⟩ := Act.locked.inj heq
    rfl
  · intro tx' id' others heq
    contradiction
  · intro tx' heq
    contradiction

theorem counted (tx : Nat) (id : Uuid) (user : User) (others : Nat) :
    Shaped [.counted tx id others, .locked tx id user, .began tx, .nothing] := by
  refine (locked tx id user).cons ?_ ?_ ?_ ?_ ?_
  · intro tx' htx
    rw [← Option.some.inj htx]
    exact List.mem_cons_of_mem _ List.mem_cons_self
  · intro tx' heq
    contradiction
  · intro tx' id' user' heq
    contradiction
  · intro tx' id' others' heq
    obtain ⟨rfl, rfl, _⟩ := Act.counted.inj heq
    exact ⟨user, rfl⟩
  · intro tx' heq
    contradiction

theorem committed {tx : Nat} (h : Shaped acts) (hcommitting : Committing tx acts) :
    Shaped (.committed tx :: acts) := by
  refine h.cons ?_ ?_ ?_ ?_ ?_
  · intro tx' htx
    rw [← Option.some.inj htx]
    cases hcommitting <;> simp
  · intro tx' heq
    contradiction
  · intro tx' id' user' heq
    contradiction
  · intro tx' id' others' heq
    contradiction
  · intro tx' heq
    rw [← Act.committed.inj heq]
    exact hcommitting

end Shaped

def Kept (events : List AdminEvent) : Prop := Shaped (events.map AdminEvent.act)

variable {events : List AdminEvent}

theorem kept_outside (h : Kept events) {event : AdminEvent}
    (htx : (AdminEvent.act event).tx = none) : Kept (event :: events) := Shaped.outside h htx

/-- A statement outside of transactions, and then the rest. -/
theorem tells_outside {α : Type} {stmt : Stmt β} (htx : ∀ result, (act stmt result).tx = none)
    {next : β → Prog Stmt α} {Q : α → List AdminEvent → Prop} (h : Kept events)
    (hnext : ∀ result, Kept (.ran stmt result :: events) →
      (next result).Tells Kept Q (.ran stmt result :: events)) :
    (Prog.call stmt >>= next).Tells Kept Q events := by
  intro result
  have hkept : Kept (.ran stmt result :: events) := kept_outside h (htx result)
  exact ⟨hkept, hnext result hkept⟩

theorem tells_rollback {tx : Tx} {answer : Answer} (h : Kept events)
    (hopen : .began tx.id ∈ events.map AdminEvent.act) :
    (do
      Prog.call (.rollback tx)
      return answer : Prog Stmt Answer).Tells Kept (fun _ => Kept) events := by
  intro result
  have hkept : Kept (.ran (.rollback tx) result :: events) := by
    refine Shaped.plain h rfl fun tx' htx => ?_
    rw [← Option.some.inj htx]
    exact hopen
  exact ⟨hkept, hkept⟩

theorem tells_updateAndCommit {tx : Tx} {id : Uuid} {change : Change} (h : Kept events)
    (hopen : .began tx.id ∈ events.map AdminEvent.act)
    (hcommitting : Committing tx.id (.wrote tx.id id change :: events.map AdminEvent.act)) :
    (updateAndCommit tx id change).Tells Kept (fun _ => Kept) events := by
  have htouched : ∀ act : Act, act.tx = some tx.id → ∀ tx', act.tx = some tx' →
      .began tx' ∈ events.map AdminEvent.act := by
    intro act htx tx' htx'
    rw [htx] at htx'
    rw [← Option.some.inj htx']
    exact hopen
  intro result
  cases result with
  | error e =>
    have hkept : Kept (.ran (.update tx id change) (.error e) :: events) :=
      Shaped.plain h rfl (htouched _ rfl)
    exact ⟨hkept, tells_rollback hkept (List.mem_cons_of_mem _ hopen)⟩
  | ok written =>
    have hkept : Kept (.ran (.update tx id change) (.ok written) :: events) :=
      Shaped.plain h rfl (htouched _ rfl)
    refine ⟨hkept, fun committed => ?_⟩
    cases committed with
    | error e =>
      have hended : Kept (.ran (.commit tx) (.error e) ::
          .ran (.update tx id change) (.ok written) :: events) := by
        refine Shaped.plain hkept rfl fun tx' htx => ?_
        exact List.mem_cons_of_mem _ (htouched (.rolledBack tx.id) rfl tx' htx)
      exact ⟨hended, hended⟩
    | ok ended =>
      have hended : Kept (.ran (.commit tx) (.ok ended) ::
          .ran (.update tx id change) (.ok written) :: events) :=
        Shaped.committed hkept hcommitting
      exact ⟨hended, hended⟩

theorem tells_guardedUpdate (id : Uuid) (guarded : Bool) (change : Tx → Change)
    (hguarded : ∀ tx, (change tx).removes = true → guarded = true) (request : Request) :
    (guardedUpdate id guarded change).Tells Kept (fun _ => Kept) [.began request] := by
  have hstart : Kept [.began request] := Shaped.nil.outside rfl
  intro begun
  cases begun with
  | error e => exact ⟨kept_outside hstart rfl, kept_outside hstart rfl⟩
  | ok tx =>
    refine ⟨Shaped.began tx.id, fun found => ?_⟩
    have hmissed : Kept [.ran (.lockUser tx id) (.ok none), .ran .begin (.ok tx),
        .began request] := by
      refine (Shaped.began tx.id).plain rfl fun tx' htx => ?_
      rw [← Option.some.inj htx]
      exact List.mem_cons_self
    rcases found with e | _ | target
    · exact ⟨hmissed, tells_rollback hmissed (by simp [AdminEvent.act, act])⟩
    · exact ⟨hmissed, tells_rollback hmissed (by simp [AdminEvent.act, act])⟩
    · have hlocked : Kept [.ran (.lockUser tx id) (.ok (some target)), .ran .begin (.ok tx),
          .began request] := Shaped.locked tx.id id target
      have hopen : .began tx.id ∈ ([.ran (.lockUser tx id) (.ok (some target)),
          .ran .begin (.ok tx), .began request] : List AdminEvent).map AdminEvent.act := by
        simp [AdminEvent.act, act]
      refine ⟨hlocked, Prog.tells_dite (fun _ => tells_rollback hlocked hopen) fun _ => ?_⟩
      refine Prog.tells_dite (fun _ counted => ?_) fun hcheck => ?_
      · cases counted with
        | error e =>
          have hfailed : Kept (.ran (.countOthers tx id) (.error e) ::
              [.ran (.lockUser tx id) (.ok (some target)), .ran .begin (.ok tx),
                .began request]) := by
            refine Shaped.plain hlocked rfl fun tx' htx => ?_
            rw [← Option.some.inj htx]
            exact hopen
          exact ⟨hfailed, tells_rollback hfailed (List.mem_cons_of_mem _ hopen)⟩
        | ok others =>
          have hcounted : Kept (.ran (.countOthers tx id) (.ok others) ::
              [.ran (.lockUser tx id) (.ok (some target)), .ran .begin (.ok tx),
                .began request]) := Shaped.counted tx.id id target others
          refine ⟨hcounted, Prog.tells_dite (fun _ => ?_) fun hothers => ?_⟩
          · exact tells_rollback hcounted (List.mem_cons_of_mem _ hopen)
          · exact tells_updateAndCommit hcounted (List.mem_cons_of_mem _ hopen)
              (.guarded hothers)
      · refine tells_updateAndCommit hlocked hopen (.unguarded fun hremoves => ?_)
        rw [hguarded tx hremoves, Bool.true_and] at hcheck
        exact Bool.eq_false_iff.mpr hcheck

theorem tells_freeUsernameFrom (base : String) (n fuel : Nat) (h : Kept events) :
    (freeUsernameFrom base n fuel).Tells Kept (fun _ => Kept) events := by
  induction fuel generalizing n events with
  | zero => exact h
  | succ fuel ih =>
    refine tells_outside (fun _ => rfl) h fun taken hkept => ?_
    rcases taken with e | _ | _
    · exact hkept
    · exact hkept
    · exact ih (n + 1) hkept

/-- What follows a statement outside of transactions, if it only answers. -/
theorem tells_last {stmt : Stmt β} (htx : ∀ result, (act stmt result).tx = none)
    {answer : β → Prog Stmt Answer} (h : Kept events)
    (hanswer : ∀ result, ∃ final, answer result = .done final) :
    (Prog.call stmt >>= answer).Tells Kept (fun _ => Kept) events := by
  refine tells_outside htx h fun result hkept => ?_
  obtain ⟨final, hfinal⟩ := hanswer result
  rw [hfinal]
  exact hkept

theorem linkLdapUser_outside (id : Uuid) (ldapDn : Option String) (isSuperadmin : Bool)
    (fullName : String) (result : Except DbError User) :
    (act (.linkLdapUser id ldapDn isSuperadmin fullName) result).tx = none := by
  cases result <;> rfl

theorem tells_findOrLinkLdapUser (env : Env) (entry : LdapUser) (h : Kept events) :
    (findOrLinkLdapUser env entry).Tells Kept (fun _ => Kept) events := by
  refine tells_outside (fun _ => rfl) h fun found hkept => ?_
  rcases found with e | _ | existing
  · exact hkept
  · apply Prog.tells_bind (tells_freeUsernameFrom _ _ _ hkept)
    intro username events hkept
    cases username with
    | error e => exact hkept
    | ok username =>
      refine tells_last (fun result => by cases result <;> rfl) hkept fun result => ?_
      cases result <;> exact ⟨_, rfl⟩
  · refine tells_last (linkLdapUser_outside _ _ _ _) hkept fun result => ?_
    cases result <;> exact ⟨_, rfl⟩

theorem tells_handler (env : Env) (request : Request) :
    (handler env request).Tells Kept (fun _ => Kept) [.began request] := by
  have hstart : Kept [.began request] := Shaped.nil.outside rfl
  cases request with
  | setSuperadmin id value =>
    exact tells_guardedUpdate id (!value) (fun _ => .isSuperadmin value)
      (fun _ hremoves => hremoves) _
  | setActive id value =>
    exact tells_guardedUpdate id (!value) (fun _ => .isActive value)
      (fun _ hremoves => hremoves) _
  | setBanned id banned =>
    refine tells_guardedUpdate id _ _ (fun tx hremoves => ?_) _
    cases banned with
    | true => rfl
    | false => contradiction
  | softDeleteGuarded id => exact tells_guardedUpdate id _ _ (fun _ _ => rfl) _
  | softDelete id =>
    refine tells_last (fun result => ?_) hstart fun result => ?_
    · rcases result with e | _ | _ <;> rfl
    · cases result <;> exact ⟨_, rfl⟩
  | findOrLinkLdapUser entry => exact tells_findOrLinkLdapUser env entry hstart

theorem shaped_run (env : Env) (accounts : Accounts) (labels : List (Label Request Choice))
    (i : Nat) : Kept (((adminService env).run (initial accounts) labels).world.own i) := by
  have htells : (adminService env).TellsAll fun _ => Kept := by
    intro request
    refine ⟨Shaped.nil.outside rfl, (tells_handler env request).post fun answer events hkept => ?_⟩
    exact kept_outside hkept rfl
  rcases Nat.lt_or_ge i
    ((adminService env).run (initial accounts) labels).threads.length with hlt | hge
  · exact (adminService env).own_run htells accounts labels i _ (List.getElem?_eq_getElem hlt)
  · have hstarted := (adminService env).started_run (Service.started_initial accounts) labels
    have hnone : ((adminService env).run (initial accounts) labels).world.own i = [] := by
      rw [List.eq_nil_iff_forall_not_mem]
      intro event hevent
      have hlt := hstarted _ (World.mem_own.mp hevent)
      exact absurd hlt (Nat.not_lt.mpr hge)
    rw [hnone]
    exact Shaped.nil

/-! ## What holds in every run -/

def Ended (tx : Nat) (acts : List Act) : Prop := .committed tx ∈ acts ∨ .rolledBack tx ∈ acts

def ownActs (w : AdminWorld) (i : Nat) : List Act := (w.own i).map AdminEvent.act

variable {w : AdminWorld}

theorem mem_acts {act : Act} : act ∈ acts w ↔ ∃ i, act ∈ ownActs w i := by
  simp only [acts, ownActs, List.mem_map, World.mem_own]
  constructor
  · rintro ⟨entry, hentry, hact⟩
    exact ⟨entry.1, entry.2, hentry, hact⟩
  · rintro ⟨i, event, hevent, hact⟩
    exact ⟨(i, event), hevent, hact⟩

/-- Transactions are distinct, locked targets are as they were read, and counts
that nobody has outdated are right. -/
structure Sound (w : AdminWorld) : Prop where
  opened : ∀ tx, .began tx ∈ acts w → tx < w.state.opened
  unique : ∀ i j tx, .began tx ∈ ownActs w i → .began tx ∈ ownActs w j → i = j
  written : Written w.state.users (acts w)
  holds : ∀ tx id user, .locked tx id user ∈ acts w → ¬ Ended tx (acts w) →
    w.state.users.Holds tx id user
  counts : ∀ tx id others, freshCount tx (acts w) = some (id, others) → others ≠ 0 →
    ∃ other, other ≠ id ∧ Usable w.state.users other

/-- The acts of every request have the shape of its program. -/
def AllShaped (w : AdminWorld) : Prop := ∀ i, Shaped (ownActs w i)

theorem Sound.own (h : Sound w) (hshaped : AllShaped w) {i tx : Nat}
    (hbegan : .began tx ∈ ownActs w i) {act : Act} (hact : act ∈ acts w) (htx : act.tx = some tx) :
    act ∈ ownActs w i := by
  obtain ⟨j, hj⟩ := mem_acts.mp hact
  obtain rfl := h.unique i j tx hbegan ((hshaped j).tidy act hj tx htx)
  exact hj

section Moves

variable {users users' : LockedTable User.id} {before : List Act} {act : Act}

theorem Written.moves (h : Written users before) (hmoves : Moves users act users') :
    Written users' (act :: before) := by
  have hold : Written users (act :: before) := by
    intro tx write hwrite
    obtain ⟨id, change, hwrote, heq⟩ := h tx write hwrite
    exact ⟨id, change, List.mem_cons_of_mem _ hwrote, heq⟩
  cases hmoves with
  | locked hseen hlock =>
    obtain ⟨_, _, hwrites⟩ := LockedTable.lock?_rows hlock
    rwa [Written, hwrites]
  | @wrote tx id change users' hwrite =>
    obtain ⟨_, _, hwrites⟩ := LockedTable.write?_rows hwrite
    rw [Written, hwrites]
    intro tx' write hmem
    rcases List.mem_append.mp hmem with hmem | hnew
    · exact hold tx' write hmem
    · obtain ⟨rfl, rfl⟩ := Prod.mk.inj (List.mem_singleton.mp hnew)
      exact ⟨id, change, List.mem_cons_self, rfl⟩
  | committed tx | rolledBack tx =>
    exact fun tx' write hmem => hold tx' write (LockedTable.mem_release_writes.mp hmem).1
  | erased hupdate | synced hupdate =>
    obtain ⟨_, _, _, hwrites⟩ := LockedTable.update?_rows hupdate
    rwa [Written, hwrites]
  | inserted hinsert =>
    obtain ⟨_, _, hwrites⟩ := LockedTable.insert?_rows hinsert
    rwa [Written, hwrites]
  | _ => exact hold

/-- Nobody else touches a locked row. -/
theorem holds_moves {tx : Nat} {id : Uuid} {user : User} (h : users.Holds tx id user)
    (hmoves : Moves users act users') (hopen : ¬ Ended tx [act]) : users'.Holds tx id user := by
  cases hmoves with
  | locked hseen hlock => exact h.lock hlock
  | wrote hwrite => exact h.write hwrite
  | committed tx' =>
    apply h.commit
    rintro rfl
    exact hopen (Or.inl List.mem_cons_self)
  | rolledBack tx' =>
    apply h.rollback
    rintro rfl
    exact hopen (Or.inr List.mem_cons_self)
  | erased hupdate => exact h.update hupdate
  | synced hupdate => exact h.update hupdate
  | inserted hinsert => exact h.insert hinsert
  | _ => exact h

/-- A transaction that has written nothing sees the committed rows. -/
theorem view_eq (h : Written users before) {tx : Nat}
    (hnone : ∀ id change, .wrote tx id change ∉ before) : users.view tx = users.rows := by
  have hnil : users.writesOf tx = [] := by
    rw [List.eq_nil_iff_forall_not_mem]
    intro write hwrite
    obtain ⟨id, change, hwrote, _⟩ := h tx write (users.mem_writesOf.mp hwrite)
    exact hnone id change hwrote
  rw [LockedTable.view, hnil]
  rfl

end Moves

theorem mem_of_freshCount {tx : Nat} {before : List Act} {id : Uuid} {others : Nat}
    (h : freshCount tx before = some (id, others)) : .counted tx id others ∈ before := by
  induction before with
  | nil => contradiction
  | cons act before ih =>
    rw [freshCount] at h
    split at h
    · rename_i count hcount
      cases act with
      | counted tx' id' others' =>
        simp only [Act.countOf] at hcount
        split at hcount
        · rename_i htx
          subst htx
          rw [← hcount] at h
          obtain ⟨rfl, rfl⟩ := Prod.mk.inj (Option.some.inj h)
          exact List.mem_cons_self
        · contradiction
      | _ => contradiction
    · split at h
      · exact List.mem_cons_of_mem _ (ih h)
      · contradiction

@[simp] theorem orWait_opened (accounts : Accounts) (after : Option (LockedTable User.id))
    {α : Type} (result : α) : (accounts.orWait after result).2.opened = accounts.opened := by
  cases after <;> rfl

theorem attempt_opened {α : Type} {choice : Choice} {accounts : Accounts}
    {effect : Except DbError α × Accounts} (h : effect.2.opened = accounts.opened) :
    (attempt choice accounts effect).2.opened = accounts.opened := by
  rw [attempt]
  split
  · rfl
  · exact h

/-- Only `begin` opens a transaction. -/
theorem exec_opened (stmt : Stmt β) (choice : Choice) (accounts : Accounts) :
    accounts.opened ≤ (exec stmt choice accounts).2.opened ∧
      ∀ tx, act stmt (exec stmt choice accounts).1 = .began tx →
        tx = accounts.opened ∧ tx < (exec stmt choice accounts).2.opened := by
  have hsame : ∀ {act : Act} {accounts' : Accounts}, accounts'.opened = accounts.opened →
      (∀ tx, act ≠ .began tx) → accounts.opened ≤ accounts'.opened ∧
        ∀ tx, act = .began tx → tx = accounts.opened ∧ tx < accounts'.opened :=
    fun heq hne => ⟨Nat.le_of_eq heq.symm, fun tx h => absurd h (hne tx)⟩
  cases stmt with
  | begin =>
    simp only [exec, attempt]
    split
    · exact ⟨Nat.le_refl _, fun tx h => by contradiction⟩
    · refine ⟨Nat.le_succ _, fun tx h => ?_⟩
      rw [← Act.began.inj h]
      exact ⟨rfl, Nat.lt_succ_self _⟩
  | lockUser tx id =>
    refine hsame (attempt_opened ?_) fun tx' => ?_
    · rw [Accounts.lockUser]
      split
      · rfl
      · exact orWait_opened _ _ _
    · generalize (exec _ choice accounts).1 = result
      rcases result with e | _ | user <;> exact fun h => by contradiction
  | countOthers tx id =>
    refine hsame (attempt_opened rfl) fun tx' => ?_
    generalize (exec _ choice accounts).1 = result
    cases result <;> exact fun h => by contradiction
  | update tx id change =>
    refine hsame (attempt_opened ?_) fun tx' => ?_
    · rw [Accounts.update]
      split
      · rfl
      · exact orWait_opened _ _ _
    · generalize (exec _ choice accounts).1 = result
      cases result <;> exact fun h => by contradiction
  | commit tx =>
    refine hsame ?_ fun tx' => ?_
    · rw [exec]
      split <;> rfl
    · generalize (exec _ choice accounts).1 = result
      cases result <;> exact fun h => by contradiction
  | rollback tx => exact hsame rfl fun tx' h => by contradiction
  | softDelete id =>
    refine hsame (attempt_opened ?_) fun tx' => ?_
    · rw [Accounts.softDelete]
      split
      · rfl
      · exact orWait_opened _ _ _
    · generalize (exec _ choice accounts).1 = result
      rcases result with e | _ | _ <;> exact fun h => by contradiction
  | findByEmail email | usernameTaken username =>
    exact hsame (attempt_opened rfl) fun tx' h => by contradiction
  | linkLdapUser id ldapDn isSuperadmin fullName =>
    refine hsame (attempt_opened ?_) fun tx' => ?_
    · rw [Accounts.linkLdapUser]
      split
      · rfl
      · exact orWait_opened _ _ _
    · generalize (exec _ choice accounts).1 = result
      cases result <;> exact fun h => by contradiction
  | insertUser new =>
    refine hsame (attempt_opened ?_) fun tx' => ?_
    · rw [Accounts.insertUser]
      split
      · rfl
      · split <;> rfl
    · generalize (exec _ choice accounts).1 = result
      cases result <;> exact fun h => by contradiction

/-! ## One step -/

section Step

variable {w : AdminWorld} {i : Nat} {event : AdminEvent} {after : Accounts}

theorem ownActs_record_self :
    ownActs (w.record i event after) i = AdminEvent.act event :: ownActs w i := by
  rw [ownActs, World.own_record_self]
  rfl

theorem ownActs_record_of_ne {j : Nat} (hne : i ≠ j) :
    ownActs (w.record i event after) j = ownActs w j := by
  rw [ownActs, World.own_record_of_ne hne, ownActs]

/-- A transaction whose own acts hold neither a commit nor a rollback is open. -/
theorem Sound.open_of_own (h : Sound w) (hshaped : AllShaped w) {tx : Nat}
    (hbegan : .began tx ∈ ownActs w i) (hcommitted : .committed tx ∉ ownActs w i)
    (hrolled : .rolledBack tx ∉ ownActs w i) : ¬ Ended tx (acts w) := by
  rintro (hended | hended)
  · exact hcommitted (h.own hshaped hbegan hended rfl)
  · exact hrolled (h.own hshaped hbegan hended rfl)

/-- A transaction whose own acts hold no update sees the committed rows. -/
theorem Sound.view_of_own (h : Sound w) (hshaped : AllShaped w) {tx : Nat}
    (hbegan : .began tx ∈ ownActs w i) (hnone : ∀ id change, .wrote tx id change ∉ ownActs w i) :
    w.state.users.view tx = w.state.users.rows :=
  view_eq h.written fun id change hwrote => hnone id change (h.own hshaped hbegan hwrote rfl)

theorem Sound.holds_step (h : Sound w) (hshaped : AllShaped w)
    (hmoves : Moves w.state.users (AdminEvent.act event) after.users)
    (hown : Shaped (AdminEvent.act event :: ownActs w i)) :
    ∀ tx id user, .locked tx id user ∈ AdminEvent.act event :: acts w →
      ¬ Ended tx (AdminEvent.act event :: acts w) → after.users.Holds tx id user := by
  intro tx id user hlocked hopen
  rcases List.mem_cons.mp hlocked with hnow | hbefore
  · rw [← hnow] at hmoves hown
    have hbegan := hown.lock tx id user _ rfl
    have hview : w.state.users.view tx = w.state.users.rows := by
      apply h.view_of_own (i := i) hshaped
      · rw [hbegan]
        exact List.mem_cons_self
      · rw [hbegan]
        simp
    cases hmoves with
    | locked hseen hlock => exact LockedTable.holds_lock hlock (hview ▸ hseen)
  · have hstill : ¬ Ended tx (acts w) := fun hended =>
      hopen (hended.imp (List.mem_cons_of_mem _) (List.mem_cons_of_mem _))
    refine holds_moves (h.holds tx id user hbefore hstill) hmoves fun hended => hopen ?_
    exact hended.imp (fun hmem => List.mem_cons.mpr (Or.inl (List.mem_singleton.mp hmem)))
      fun hmem => List.mem_cons.mpr (Or.inl (List.mem_singleton.mp hmem))

variable {id : Uuid}

theorem exists_other_of_count {users : Table User.id}
    (h : users.rows.countP (fun user => Users.activeSuperadmin user && user.id != id) ≠ 0) :
    ∃ other, other ≠ id ∧ ∃ user, users.find? other = some user ∧
      Users.activeSuperadmin user = true := by
  obtain ⟨user, hmem, huser⟩ := List.countP_pos_iff.mp (Nat.pos_of_ne_zero h)
  rw [Bool.and_eq_true, bne_iff_ne] at huser
  exact ⟨user.id, huser.2, user, Table.find?_key hmem, huser.1⟩

theorem Sound.counts_step (h : Sound w) (hshaped : AllShaped w)
    (hmoves : Moves w.state.users (AdminEvent.act event) after.users)
    (hown : Shaped (AdminEvent.act event :: ownActs w i)) :
    ∀ tx id others, freshCount tx (AdminEvent.act event :: acts w) = some (id, others) →
      others ≠ 0 → ∃ other, other ≠ id ∧ Usable after.users other := by
  intro tx id others hfresh hothers
  rw [freshCount] at hfresh
  split at hfresh
  · rename_i count hcount
    rw [Option.some.inj hfresh] at hcount
    have hnow : AdminEvent.act event = .counted tx id others := by
      cases hact : AdminEvent.act event <;> rw [hact] at hcount <;> try contradiction
      simp only [Act.countOf] at hcount
      split at hcount
      · rename_i htx
        obtain ⟨rfl, rfl⟩ := Prod.mk.inj (Option.some.inj hcount)
        rw [htx]
      · contradiction
    rw [hnow] at hmoves hown
    obtain ⟨user, hbefore⟩ := hown.count tx id others _ rfl
    have hview : w.state.users.view tx = w.state.users.rows := by
      apply h.view_of_own (i := i) hshaped
      · rw [hbefore]
        simp
      · rw [hbefore]
        simp
    generalize after.users = users' at *
    cases hmoves with
    | counted =>
      rw [hview] at hothers
      exact exists_other_of_count hothers
  · split at hfresh
    · rename_i hnone
      obtain ⟨other, hne, husable⟩ := h.counts tx id others hfresh hothers
      exact ⟨other, hne, husable.moves h.written hmoves (by rw [hnone]; exact List.not_mem_nil)⟩
    · contradiction

theorem Sound.unique_step (h : Sound w)
    (hfirst : ∀ tx, AdminEvent.act event = .began tx → tx = w.state.opened) :
    ∀ j k tx, .began tx ∈ ownActs (w.record i event after) j →
      .began tx ∈ ownActs (w.record i event after) k → j = k := by
  have hnew : ∀ j tx, .began tx ∈ ownActs (w.record i event after) j →
      (j = i ∧ tx = w.state.opened) ∨ .began tx ∈ ownActs w j := by
    intro j tx hbegan
    rcases eq_or_ne i j with rfl | hne
    · rw [ownActs_record_self] at hbegan
      rcases List.mem_cons.mp hbegan with hnow | hold
      · exact Or.inl ⟨rfl, hfirst tx hnow.symm⟩
      · exact Or.inr hold
    · rw [ownActs_record_of_ne hne] at hbegan
      exact Or.inr hbegan
  intro j k tx hj hk
  rcases hnew j tx hj with ⟨hji, hopened⟩ | hjold
  · rcases hnew k tx hk with ⟨hki, _⟩ | hkold
    · rw [hji, hki]
    · have hlt := h.opened tx (mem_acts.mpr ⟨k, hkold⟩)
      omega
  · rcases hnew k tx hk with ⟨_, hopened⟩ | hkold
    · have hlt := h.opened tx (mem_acts.mpr ⟨j, hjold⟩)
      omega
    · exact h.unique j k tx hjold hkold

theorem Sound.step (h : Sound w) (hshaped : AllShaped w)
    (hmoves : Moves w.state.users (AdminEvent.act event) after.users)
    (hown : Shaped (AdminEvent.act event :: ownActs w i))
    (hopened : w.state.opened ≤ after.opened)
    (hfirst : ∀ tx, AdminEvent.act event = .began tx → tx = w.state.opened ∧ tx < after.opened) :
    Sound (w.record i event after) where
  opened tx hbegan := by
    rcases List.mem_cons.mp hbegan with hnow | hbefore
    · exact (hfirst tx hnow.symm).2
    · exact Nat.lt_of_lt_of_le (h.opened tx hbefore) hopened
  unique := h.unique_step fun tx hnow => (hfirst tx hnow).1
  written := h.written.moves hmoves
  holds := h.holds_step hshaped hmoves hown
  counts := h.counts_step hshaped hmoves hown

/-- Whom a commit strikes is the target of its transaction's only update. -/
theorem strikes_of_committing (h : Sound w) (hshaped : AllShaped w) {tx : Nat} {change : Change}
    (hbegan : .began tx ∈ ownActs w i)
    (honly : ∀ id' change', .wrote tx id' change' ∈ ownActs w i → id' = id ∧ change' = change)
    {struck : Uuid} (hstruck : struck ∈ strikes (acts w) (.committed tx)) :
    struck = id ∧ change.removes = true := by
  obtain ⟨act, hact, hremoval⟩ := List.mem_filterMap.mp hstruck
  cases act with
  | wrote tx' id' change' =>
    simp only [Act.removal] at hremoval
    split at hremoval
    · rename_i hremoves
      obtain ⟨rfl, hremoves⟩ := hremoves
      obtain ⟨rfl, rfl⟩ := honly id' change' (h.own hshaped hbegan hact rfl)
      exact ⟨(Option.some.inj hremoval).symm, hremoves⟩
    · contradiction
  | _ => contradiction

/-- Every act strikes one account at most. -/
theorem strikes_unique (h : Sound w) (hshaped : AllShaped w)
    (hown : Shaped (AdminEvent.act event :: ownActs w i)) {id' : Uuid}
    (hid : id ∈ strikes (acts w) (AdminEvent.act event))
    (hid' : id' ∈ strikes (acts w) (AdminEvent.act event)) : id' = id := by
  cases hact : AdminEvent.act event with
  | committed tx =>
    rw [hact] at hid hid' hown
    have hcommitting := hown.commit tx _ rfl
    generalize hbefore : ownActs w i = before at hcommitting
    cases hcommitting with
    | @unguarded target user change hrisk | @guarded target user change others hothers =>
      have hstruck : ∀ {struck : Uuid}, struck ∈ strikes (acts w) (.committed tx) →
          struck = target ∧ change.removes = true := fun hstruck =>
        strikes_of_committing h hshaped (i := i) (by simp [hbefore])
          (by simp [hbefore]) hstruck
      rw [(hstruck hid).1, (hstruck hid').1]
  | erased target =>
    rw [hact] at hid hid'
    rw [List.mem_singleton.mp hid, List.mem_singleton.mp hid']
  | synced target isSuperadmin =>
    rw [hact] at hid hid'
    cases isSuperadmin with
    | true => contradiction
    | false => rw [List.mem_singleton.mp hid, List.mem_singleton.mp hid']
  | _ =>
    rw [hact] at hid
    contradiction

theorem risk_of_active {user : User} (h : Users.activeSuperadmin user = true) :
    Users.isLastAdminRisk user = true := by
  simp only [Users.activeSuperadmin, Users.isLastAdminRisk, Bool.and_eq_true] at h ⊢
  exact h.1

/-- A guarded update whose count is not outdated spares another usable superadmin. -/
theorem other_of_upToDate (h : Sound w) (hshaped : AllShaped w)
    (hown : Shaped (AdminEvent.act event :: ownActs w i)) (husable : Usable w.state.users id)
    (hid : id ∈ strikes (acts w) (AdminEvent.act event))
    (hdate : upToDate (acts w) (AdminEvent.act event) = true) :
    ∃ other, other ≠ id ∧ Usable w.state.users other := by
  cases hact : AdminEvent.act event with
  | committed tx =>
    rw [hact] at hid hdate hown
    have hcommitting := hown.commit tx _ rfl
    generalize hbefore : ownActs w i = before at hcommitting
    cases hcommitting with
    | @unguarded target user change hrisk =>
      have hbegan : .began tx ∈ ownActs w i := by simp [hbefore]
      have honly : ∀ id' change', .wrote tx id' change' ∈ ownActs w i →
          id' = target ∧ change' = change := by simp [hbefore]
      obtain ⟨rfl, hremoves⟩ := strikes_of_committing h hshaped hbegan honly hid
      have hopen := h.open_of_own hshaped hbegan (by simp [hbefore]) (by simp [hbefore])
      have hlocked : .locked tx id user ∈ acts w := mem_acts.mpr ⟨i, by simp [hbefore]⟩
      -- the target is still what it was when it was found not to be at risk
      obtain ⟨_, hfind⟩ := h.holds tx id user hlocked hopen
      obtain ⟨found, hfound, hactive⟩ := husable
      rw [hfind] at hfound
      obtain rfl := Option.some.inj hfound
      have hsafe := hrisk hremoves
      rw [risk_of_active hactive] at hsafe
      contradiction
    | @guarded target user change others hothers =>
      have hbegan : .began tx ∈ ownActs w i := by simp [hbefore]
      have honly : ∀ id' change', .wrote tx id' change' ∈ ownActs w i →
          id' = target ∧ change' = change := by simp [hbefore]
      obtain ⟨rfl, _⟩ := strikes_of_committing h hshaped hbegan honly hid
      have hcounted : .counted tx id others ∈ acts w := mem_acts.mpr ⟨i, by simp [hbefore]⟩
      rw [upToDate, Bool.or_eq_true] at hdate
      rcases hdate with hnever | hfresh
      · have hnone := List.all_eq_true.mp hnever _ hcounted
        simp [Act.countOf] at hnone
      · obtain ⟨⟨id', others'⟩, hfresh⟩ := Option.isSome_iff_exists.mp hfresh
        have hmem := h.own hshaped hbegan (mem_of_freshCount hfresh) rfl
        simp only [hbefore, List.mem_cons, List.not_mem_nil, Act.counted.injEq, reduceCtorEq,
          true_and, false_or, or_false] at hmem
        obtain ⟨rfl, rfl⟩ := hmem
        exact h.counts tx id' others' hfresh hothers
  | _ =>
    rw [hact] at hdate
    contradiction

/-- A spared step leaves a usable superadmin. -/
theorem usable_step (h : Sound w) (hshaped : AllShaped w)
    (hmoves : Moves w.state.users (AdminEvent.act event) after.users)
    (hown : Shaped (AdminEvent.act event :: ownActs w i))
    (hspared : Spared w (w.record i event after)) (husable : ∃ id, Usable w.state.users id) :
    ∃ id, Usable after.users id := by
  obtain ⟨id, hid⟩ := husable
  by_cases hstruck : id ∈ strikes (acts w) (AdminEvent.act event)
  · have hother : ∃ other, other ≠ id ∧ Usable w.state.users other := by
      rcases hspared _ id rfl hstruck with hdate | ⟨other, hne, hother⟩
      · exact other_of_upToDate h hshaped hown hid hstruck hdate
      · exact ⟨other, hne, usable_iff.mp hother⟩
    obtain ⟨other, hne, hother⟩ := hother
    refine ⟨other, hother.moves h.written hmoves fun hboth => hne ?_⟩
    exact strikes_unique h hshaped hown hstruck hboth
  · exact ⟨id, hid.moves h.written hmoves hstruck⟩

end Step

theorem usable_exists_iff {accounts : Accounts} :
    (∃ id, accounts.usable id = true) ↔ ∃ id, Usable accounts.users id :=
  exists_congr fun _ => usable_iff

theorem sound_initial (users : Table User.id) :
    Sound (initial (Accounts.ofTable users) : Config Stmt Accounts Request Answer).world where
  opened _ hbegan := absurd hbegan List.not_mem_nil
  unique _ _ _ hbegan := absurd hbegan List.not_mem_nil
  written _ _ hwrite := absurd hwrite List.not_mem_nil
  holds _ _ _ hlocked := absurd hlocked List.not_mem_nil
  counts _ _ _ hfresh := by contradiction

/-- Requests arrive and are answered without an act. -/
theorem kept_quiet {i : Nat} {event : AdminEvent} (hact : AdminEvent.act event = .nothing)
    (hshaped : AllShaped w) (hown : Kept ((w.record i event w.state).own i)) (hsound : Sound w) :
    Sound (w.record i event w.state) := by
  rw [Kept, World.own_record_self] at hown
  refine hsound.step hshaped ?_ hown (Nat.le_refl _) fun tx hbegan => ?_
  · rw [hact]
    exact .nothing
  · rw [hact] at hbegan
    contradiction

theorem kept_step {env : Env} {w' : AdminWorld}
    (hstep : Service.StepOf (adminService env) (fun _ _ _ => True) w w') (hshaped : AllShaped w)
    (hshaped' : AllShaped w') (hspared : Spared w w') (hsound : Sound w)
    (husable : ∃ id, Usable w.state.users id) : Sound w' ∧ ∃ id, Usable w'.state.users id := by
  cases hstep with
  | void => exact ⟨hsound, husable⟩
  | began i request => exact ⟨kept_quiet rfl hshaped (hshaped' i) hsound, husable⟩
  | answered i request answer hbegan =>
    exact ⟨kept_quiet rfl hshaped (hshaped' i) hsound, husable⟩
  | issued i request stmt choice hbegan hmay =>
    have hown := hshaped' i
    rw [Service.perform, ownActs_record_self] at hown
    have hmoves : Moves w.state.users (AdminEvent.act (.ran stmt (exec stmt choice w.state).1))
        (exec stmt choice w.state).2.users := moves_exec stmt choice w.state
    obtain ⟨hopened, hfirst⟩ := exec_opened stmt choice w.state
    exact ⟨hsound.step hshaped hmoves hown hopened hfirst,
      usable_step hsound hshaped hmoves hown hspared husable⟩

/-- In every run whose steps are spared, a usable superadmin remains. -/
theorem last_superadmin_kept (env : Env) (users : Table User.id)
    (hadmin : ∃ id, (Accounts.ofTable users).usable id = true) (labels : List (Label Request Choice))
    (hspared : (adminService env).Admits (fun _ => Spared)
      (initial (Accounts.ofTable users)) labels) :
    (adminService env).Always (fun w => ∃ id, w.state.usable id = true)
      (initial (Accounts.ofTable users)) labels := by
  have hboth : (adminService env).Always
      (fun w => Sound w ∧ ∃ id, Usable w.state.users id)
      (initial (Accounts.ofTable users)) labels := by
    refine (adminService env).always_of_admits ⟨sound_initial users,
      usable_exists_iff.mp hadmin⟩ (fun labels label hI hspared => ?_) labels hspared
    have hshaped := shaped_run env (Accounts.ofTable users) labels
    have hshaped' := shaped_run env (Accounts.ofTable users) (labels ++ [label])
    rw [Service.run_append] at hshaped'
    have hstep := (adminService env).stepOf
      ((adminService env).attributed_run (fun _ => Prog.only_true _)
        (Service.attributed_initial (Accounts.ofTable users)) labels) label
    exact kept_step hstep hshaped hshaped' hspared hI.1 hI.2
  intro first second hsplit
  exact usable_exists_iff.mpr (hboth first second hsplit).2

/-! ## Self-service -/

namespace Resignation

/-- An account of a platform. -/
def account (id : Uuid) (isSuperadmin : Bool) : User :=
  Users.NewUser.row ⟨"a" ++ toString id, "u" ++ toString id, "", none, .localAccount, none,
    isSuperadmin, false⟩ id

/-- Two superadmins and an ordinary account. -/
def users : Table User.id := ⟨[account 1 true, account 2 true, account 3 false], by decide⟩

def next (i : Nat) : Label Request Choice := .run i ⟨false, 0, 9⟩

/-- One superadmin is demoted, then the other tries to demote itself. -/
def demotions : List (Label Request Choice) :=
  [.start (.setSuperadmin 1 false), .start (.setSuperadmin 2 false)] ++
    (List.replicate 6 (next 0)) ++ (List.replicate 5 (next 1))

/-- Both superadmins erase themselves, one after the other. -/
def erasures : List (Label Request Choice) :=
  [.start (.softDelete 1), next 0, .start (.softDelete 2), next 1]

def sparedTest (w w' : AdminWorld) : Bool :=
  match acts w' with
  | [] => true
  | act :: _ => (strikes (acts w) act).all fun id => upToDate (acts w) act ||
      w.state.users.rows.rows.any fun user => user.id != id && w.state.usable user.id

theorem spared_of_test (w w' : AdminWorld) (htest : sparedTest w w' = true) : Spared w w' := by
  intro act id hacts hstruck
  rw [sparedTest, hacts] at htest
  have hid := List.all_eq_true.mp htest id hstruck
  simp only [Bool.or_eq_true, List.any_eq_true, Bool.and_eq_true, bne_iff_ne] at hid
  rcases hid with hdate | ⟨user, _, hne, husable⟩
  · exact Or.inl hdate
  · exact Or.inr ⟨user.id, hne, husable⟩

end Resignation

open Resignation in
theorem last_superadmin_kept_demotions :
    (adminService Env.transparent).Always (fun w => ∃ id, w.state.usable id = true)
      (initial (Accounts.ofTable users)) demotions :=
  last_superadmin_kept Env.transparent users ⟨1, by decide⟩ demotions
    ((adminService Env.transparent).admits_of_tested (fun _ => spared_of_test) (by decide +kernel))

open Resignation in
/-- The superadmins erase their own accounts, and no usable one is left. -/
theorem superadmins_erase_themselves :
    (∃ id, (Accounts.ofTable users).usable id = true) ∧
      ¬ ∃ id, ((adminService Env.transparent).run (initial (Accounts.ofTable users))
        erasures).world.state.usable id = true := by
  refine ⟨⟨1, by decide⟩, ?_⟩
  have hnone : ((adminService Env.transparent).run (initial (Accounts.ofTable users))
      erasures).world.state.users.rows.rows.all (fun user => !Users.activeSuperadmin user) = true := by
    decide +kernel
  rintro ⟨id, husable⟩
  obtain ⟨user, hfind, hactive⟩ := usable_iff.mp husable
  have hinactive := List.all_eq_true.mp hnone user (Table.mem_of_find? hfind)
  rw [hactive] at hinactive
  contradiction

end IntelliPilot.Auth.Admin
