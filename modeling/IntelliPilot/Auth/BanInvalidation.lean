import IntelliPilot.Auth.Blocking
import IntelliPilot.Statement.OwnEvents

/-! # Bans invalidate

A ban drops the account's entry on its node between the statement that blocks
the account and its answer. A program's own events tell this, whatever the
other programs do.
-/

namespace IntelliPilot.Auth

open Rows Statement

/-- Newest first, no block of the account comes before an invalidation of its entry. -/
def Covered (node : Nat) (userId : Uuid) : List AccountEvent → Prop
  | [] => True
  | event :: rest => invalidates event = some (node, userId) ∨
      blocks event ≠ some userId ∧ Covered node userId rest

variable {node : Nat}

theorem Covered.cons {userId : Uuid} {event : AccountEvent} {events : List AccountEvent}
    (hblocks : blocks event ≠ some userId) (h : Covered node userId events) :
    Covered node userId (event :: events) :=
  Or.inr ⟨hblocks, h⟩

/-- A block is followed by an invalidation. -/
theorem Covered.invalidated {userId : Uuid} {event : AccountEvent}
    {later earlier : List AccountEvent} (h : Covered node userId (later ++ event :: earlier))
    (hblocks : blocks event = some userId) :
    ∃ event' ∈ later, invalidates event' = some (node, userId) := by
  induction later with
  | nil =>
    rcases h with hinvalidates | ⟨hnot, _⟩
    · -- a blocking statement invalidates nothing
      cases event with
      | ran stmt result =>
        cases stmt with
        | platform stmt => cases hblocks
        | _ => cases hinvalidates
      | _ => cases hblocks
    · exact absurd hblocks hnot
  | cons first later ih =>
    rcases h with hinvalidates | ⟨_, hrest⟩
    · exact ⟨first, List.mem_cons_self, hinvalidates⟩
    · obtain ⟨event', hmem, hinvalidates⟩ := ih hrest
      exact ⟨event', List.mem_cons_of_mem _ hmem, hinvalidates⟩

/-- The events of an answered ban cover every account on its node. -/
def BanCovered (request : AccountRequest) : List AccountEvent → Prop
  | .answered _ _ :: rest => ∀ node adminId id body, request = .banUser node adminId id body →
      ∀ userId, Covered node userId rest
  | _ => True

/-- What a ban knows: every account but the excepted ones is covered. -/
def CoveredBut (node : Nat) (excepted : Uuid → Prop) (events : List AccountEvent) : Prop :=
  ∀ userId, ¬ excepted userId → Covered node userId events

variable {request : AccountRequest}

variable {events : List AccountEvent}

/-- A statement that blocks nobody keeps what a ban knows. -/
theorem tells_covered {β : Type} {stmt : Stmt β} {excepted : Uuid → Prop}
    (hstmt : ∀ result : β, blocks (.ran stmt result) = none) (h : CoveredBut node excepted events) :
    (Prog.call stmt).Tells (BanCovered request) (fun _ => CoveredBut node excepted) events := by
  intro result
  refine ⟨trivial, ?_⟩
  intro userId hnot
  apply (h userId hnot).cons
  rw [hstmt]
  simp

variable {id : Uuid}

theorem tells_setBanned (h : CoveredBut node (fun _ => False) events) :
    (applyUpdate (.setBanned id true)).Tells (BanCovered request)
      (fun refusal => CoveredBut node fun userId => refusal = none ∧ userId = id) events := by
  intro result
  refine ⟨trivial, ?_⟩
  have hcovered : ∀ userId, (userId = id → result ≠ .ok .updated) →
      Covered node userId (.ran (.user (.setBanned id true)) result :: events) := by
    intro userId hnot
    apply (h userId (fun hfalse => hfalse)).cons
    intro hblocks
    rcases result with e | _ | _ | _
    · cases hblocks
    · exact hnot (Option.some.inj hblocks).symm rfl
    · cases hblocks
    · cases hblocks
  rcases result with e | _ | _ | _
  · exact fun userId _ => hcovered userId (by simp)
  · exact fun userId hnot => hcovered userId fun heq => absurd ⟨rfl, heq⟩ hnot
  · exact fun userId _ => hcovered userId (by simp)
  · exact fun userId _ => hcovered userId (by simp)

/-- Dropping the entry covers the account. -/
theorem tells_invalidate (h : CoveredBut node (fun userId => userId = id) events) :
    (platform (.invalidateStatus node id)).Tells (BanCovered request)
      (fun _ => CoveredBut node fun _ => False) events := by
  intro result
  refine ⟨trivial, ?_⟩
  intro userId _
  by_cases huser : userId = id
  · subst huser
    exact Or.inl rfl
  · exact (h userId huser).cons (by intro h; cases h)

theorem tells_answerUser (h : CoveredBut node (fun _ => False) events) :
    (answerUser id).Tells (BanCovered request) (fun _ => CoveredBut node fun _ => False) events := by
  apply Prog.tells_bind (tells_covered (fun _ => rfl) h)
  intro found events h
  rcases found with e | _ | account
  all_goals exact h

/-- Whatever it answers, a ban has invalidated what it has blocked. -/
theorem tells_banUser (node : Nat) (adminId id : Uuid)
    (body : Except JsonRejection (Option String)) (h : CoveredBut node (fun _ => False) events) :
    (banUser node adminId id body).Tells (BanCovered request)
      (fun _ => CoveredBut node fun _ => False) events := by
  unfold banUser
  split
  · exact h
  · split
    · exact h
    · split
      · exact h
      · apply Prog.tells_bind (tells_covered (fun _ => rfl) h)
        intro pool events h
        cases pool with
        | error e => exact h
        | ok _ =>
          apply Prog.tells_bind (tells_setBanned h)
          intro refusal events h
          cases refusal with
          | some refusal => exact fun userId hnot => h userId (by simp)
          | none =>
            have hbanned : CoveredBut node (fun userId => userId = id) events :=
              fun userId hnot => h userId fun heq => hnot heq.2
            apply Prog.tells_bind (tells_covered (fun _ => rfl) hbanned)
            intro revoked events hbanned
            apply Prog.tells_bind (tells_invalidate hbanned)
            intro _ events h
            apply Prog.tells_bind (tells_covered (fun _ => rfl) h)
            intro _ events h
            exact tells_answerUser h

theorem tells_account : accountService.TellsAll BanCovered := by
  intro request
  refine ⟨trivial, ?_⟩
  have hother : (∀ node adminId id body, request ≠ .banUser node adminId id body) →
      request.handler.Tells (BanCovered request)
        (fun answer events => BanCovered request (.answered request answer :: events))
        [.began request] := by
    intro hban
    have htrue : request.handler.Tells (BanCovered request) (fun _ _ => True) [.began request] :=
      Prog.tells_only (fun _ _ _ _ _ => ⟨trivial, trivial⟩) (Prog.only_true request.handler) trivial
    exact htrue.post fun _ _ _ node adminId id body heq => absurd heq (hban node adminId id body)
  cases request with
  | access node bearer | unbanUser node adminId id | updateUser node adminId id body
  | deleteUser node adminId id => exact hother (by simp)
  | banUser node adminId id body =>
    have hbegan : CoveredBut node (fun _ => False)
        [.began (.banUser node adminId id body)] := by
      intro userId _
      exact Or.inr ⟨(by intro h; cases h), trivial⟩
    apply Prog.tells_bind (tells_banUser node adminId id body hbegan)
    intro response events h node' adminId' id' body' heq userId
    obtain ⟨rfl, _⟩ := AccountRequest.banUser.inj heq
    exact h userId fun hfalse => hfalse

/-- In every run an answered ban has covered every account on its node. -/
theorem ban_covered (db : Db) (labels : List (Label AccountRequest Choice)) {i : Nat}
    {adminId : Uuid} {body : Except JsonRejection (Option String)} {answer : AccountAnswer}
    {rest : List AccountEvent}
    (hanswered : Service.Answered (accountService.run (Service.initial db) labels) i
      (.banUser node adminId id body) answer)
    (hown : (accountService.run (Service.initial db) labels).world.own i =
      .answered (.banUser node adminId id body) answer :: rest) (userId : Uuid) :
    Covered node userId rest := by
  obtain ⟨todo, hthread⟩ := hanswered
  have hcovered := accountService.own_run tells_account db labels i _ hthread
  rw [hown] at hcovered
  exact hcovered node adminId id body rfl userId

end IntelliPilot.Auth
