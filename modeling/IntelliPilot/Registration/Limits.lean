import IntelliPilot.Registration.Handlers

/-! # Limits and leftovers

No project holds more sources, repositories or keys than it may, and a refused
request leaves nothing behind, in exactly the runs where every insert that goes
through finds room, and no request that is answered had a step fail once it had
created its key.
-/

namespace IntelliPilot.Registration

open Http Statement
open Service (initial)
open Docs (GitError)

abbrev RegEvent := Event Stmt Request (Except Problem Answer)

abbrev RegWorld := World Stmt Db Request (Except Problem Answer)

/-! ## What requests create -/

def createdKey : RegEvent → Option SshKey
  | .ran (.createKey _ _) (.ok key) => some key
  | _ => none

def createdSource : RegEvent → Option DocSource
  | .ran (.createSource _ _) (.ok source) => some source
  | _ => none

def createdRepository : RegEvent → Option Repository
  | .ran (.createRepository _ _) (.ok repository) => some repository
  | _ => none

/-- No project holds more than it may. -/
def Capped (db : Db) : Prop :=
  ∀ projectId, db.countKeys projectId ≤ maxSshKeysPerProject ∧
    db.countSources projectId ≤ maxSourcesPerProject ∧
    db.countRepositories projectId ≤ maxReposPerProject

/-- Something that request `i` created is still there. -/
def Leftover (w : RegWorld) (i : Nat) : Prop :=
  ∃ event ∈ w.own i, (∃ key ∈ w.state.keys.rows, createdKey event = some key) ∨
    (∃ source ∈ w.state.sources.rows, createdSource event = some source) ∨
    ∃ repository ∈ w.state.repositories.rows, createdRepository event = some repository

/-- A refused request has left nothing. -/
def AllOrNothing (w : RegWorld) : Prop :=
  ∀ i request problem, (i, .answered request (.error problem)) ∈ w.log → ¬ Leftover w i

/-! ## The condition -/

/-- A step on whose result `create_source` refuses, once it has its key. -/
def failsSource (req : CreateDocSourceRequest) : RegEvent → Bool
  | .ran (.privateKeyEnc _ _) (.ok none) => true
  | .ran (.privateKeyEnc _ _) (.error _) => true
  | .ran (.decrypt _) (.error _) => true
  | .ran (.listRemoteBranches _ _) (.error _) => true
  | .ran (.listRemoteBranches _ _) (.ok info) =>
      !info.branches.contains (req.branch.getD "") || (normalize req.docPath).isNone
  | .ran (.maxOrder _) (.error _) => true
  | .ran (.createSource _ _) (.error _) => true
  | _ => false

def stumbles : Request → RegEvent → Bool
  | .createSource _ (.ok req), event => failsSource req event
  | .createRepository _ _, .ran (.createRepository _ _) (.error _) => true
  | _, _ => false

/-- Among the events of a request there is the creation of a key. -/
def hasKey (events : List RegEvent) : Bool := events.any fun event => (createdKey event).isSome

/-- A step failed after the key was created. -/
def spoilt (request : Request) : List RegEvent → Bool
  | [] => false
  | event :: older => spoilt request older || stumbles request event && hasKey older

/-- An insert that goes through finds room, and an answered request is not spoilt. -/
def Careful : Nat → RegWorld → RegWorld → Prop := fun _ w w' =>
  ∀ i event, w'.log = (i, event) :: w.log →
    (∀ key, createdKey event = some key →
      w.state.countKeys key.projectId < maxSshKeysPerProject) ∧
    (∀ source, createdSource event = some source →
      w.state.countSources source.projectId < maxSourcesPerProject) ∧
    (∀ repository, createdRepository event = some repository →
      w.state.countRepositories repository.projectId < maxReposPerProject) ∧
    ∀ request answer, event = .answered request answer → spoilt request (w.own i) = false

/-! ## What a request's own events tell -/

def Open (events : List RegEvent) : Prop := ∀ request answer, .answered request answer ∉ events

/-- Neither a source nor a repository was created. -/
def Bare (events : List RegEvent) : Prop :=
  ∀ event ∈ events, createdSource event = none ∧ createdRepository event = none

/-- On its way, with or without a key of its own. -/
structure Under (request : Request) (held : Bool) (events : List RegEvent) : Prop where
  unanswered : Open events
  bare : Bare events
  key : hasKey events = held
  unspoilt : spoilt request events = false

/-- About to be refused. -/
structure Failed (request : Request) (events : List RegEvent) : Prop where
  unanswered : Open events
  bare : Bare events
  spoilt : hasKey events = true → spoilt request events = true

/-- About to be answered with success. -/
structure Finished (request : Request) (events : List RegEvent) : Prop where
  unanswered : Open events
  unspoilt : spoilt request events = false

/-- The answer comes last, and to what came before. -/
def Answers (request : Request) : List RegEvent → Prop
  | .answered other (.error _) :: older => other = request ∧ Failed request older
  | .answered other (.ok _) :: older => other = request ∧ Finished request older
  | events => Open events

theorem Open.ran {events : List RegEvent} (h : Open events) {β : Type} (stmt : Stmt β) (result : β) :
    Open (.ran stmt result :: events) := by
  intro request answer hmem
  rcases List.mem_cons.mp hmem with heq | hold
  · cases heq
  · exact h request answer hold

theorem answers_of_open {request : Request} {β : Type} {stmt : Stmt β} {result : β}
    {events : List RegEvent} (h : Open events) : Answers request (.ran stmt result :: events) :=
  h.ran stmt result

section Phases

variable {request : Request} {held : Bool} {events : List RegEvent} {β : Type} {stmt : Stmt β}
  {result : β}

theorem Bare.cons (h : Bare events) {event : RegEvent} (hsource : createdSource event = none)
    (hrepository : createdRepository event = none) : Bare (event :: events) := by
  intro other hmem
  rcases List.mem_cons.mp hmem with rfl | hold
  · exact ⟨hsource, hrepository⟩
  · exact h other hold

/-- A statement that creates nothing and does not stop the request. -/
theorem Under.goesOn (h : Under request held events)
    (hkey : createdKey (.ran stmt result) = none) (hsource : createdSource (.ran stmt result) = none)
    (hrepository : createdRepository (.ran stmt result) = none)
    (hstumbles : held = true → stumbles request (.ran stmt result) = false) :
    Under request held (.ran stmt result :: events) where
  unanswered := h.unanswered.ran stmt result
  bare := h.bare.cons hsource hrepository
  key := by
    have hheld := h.key
    simpa [hasKey, hkey] using hheld
  unspoilt := by
    rw [spoilt, h.unspoilt, h.key]
    cases held with
    | false => simp
    | true => simp [hstumbles rfl]

/-- A statement that creates nothing and stops the request. -/
theorem Under.stops (h : Under request held events)
    (hkey : createdKey (.ran stmt result) = none) (hsource : createdSource (.ran stmt result) = none)
    (hrepository : createdRepository (.ran stmt result) = none)
    (hstumbles : held = true → stumbles request (.ran stmt result) = true) :
    Failed request (.ran stmt result :: events) where
  unanswered := h.unanswered.ran stmt result
  bare := h.bare.cons hsource hrepository
  spoilt := by
    intro hhas
    have hheld : held = true := by
      rw [← h.key]
      simpa [hasKey, hkey] using hhas
    rw [spoilt, hstumbles hheld, h.key, hheld]
    exact Bool.or_true _

theorem Under.refused (h : Under request false events) : Failed request events where
  unanswered := h.unanswered
  bare := h.bare
  spoilt := by
    intro hhas
    rw [h.key] at hhas
    contradiction

theorem Under.takes (h : Under request false events) {projectId : Uuid} {new : NewSshKey}
    (key : SshKey) : Under request true (.ran (.createKey projectId new) (.ok key) :: events) where
  unanswered := h.unanswered.ran _ _
  bare := h.bare.cons rfl rfl
  key := rfl
  unspoilt := by
    rw [spoilt, h.unspoilt, h.key]
    simp

theorem Under.ends (h : Under request held events) : Finished request events :=
  ⟨h.unanswered, h.unspoilt⟩

/-- A last statement that goes through. -/
theorem Under.finishes (h : Under request held events)
    (hstumbles : held = true → stumbles request (.ran stmt result) = false) :
    Finished request (.ran stmt result :: events) where
  unanswered := h.unanswered.ran stmt result
  unspoilt := by
    rw [spoilt, h.unspoilt, h.key]
    cases held with
    | false => simp
    | true => simp [hstumbles rfl]

end Phases

/-! ## Handlers -/

section Handlers

variable {request : Request} {held : Bool} {events : List RegEvent} {δ α : Type}
  {stmt : Stmt (Except δ α)} {problem : Problem}

/-- The statement creates no row. -/
def Creates (stmt : Stmt (Except δ α)) : Prop :=
  ∀ result, createdKey (.ran stmt result) = none ∧ createdSource (.ran stmt result) = none ∧
    createdRepository (.ran stmt result) = none

/-- A step before there is a key. -/
theorem told_early (h : Under request false events) (hstmt : Creates stmt) :
    Recounts (Answers request) (orRefuse stmt problem) (fun _ => Under request false)
      (fun _ => Failed request) events := by
  apply recounts_orRefuse
  · exact fun result => answers_of_open h.unanswered
  · intro a
    obtain ⟨hkey, hsource, hrepository⟩ := hstmt (.ok a)
    exact h.goesOn hkey hsource hrepository (by simp)
  · intro e
    obtain ⟨hkey, hsource, hrepository⟩ := hstmt (.error e)
    exact h.stops hkey hsource hrepository (by simp)

/-- A step after which the request goes on exactly if it does not stumble. -/
theorem told_late (h : Under request held events) (hstmt : Creates stmt)
    (hfails : ∀ e, stumbles request (.ran stmt (.error e)) = true)
    (hgoes : ∀ a, stumbles request (.ran stmt (.ok a)) = false) :
    Recounts (Answers request) (orRefuse stmt problem) (fun _ => Under request held)
      (fun _ => Failed request) events := by
  apply recounts_orRefuse
  · exact fun result => answers_of_open h.unanswered
  · intro a
    obtain ⟨hkey, hsource, hrepository⟩ := hstmt (.ok a)
    exact h.goesOn hkey hsource hrepository fun _ => hgoes a
  · intro e
    obtain ⟨hkey, hsource, hrepository⟩ := hstmt (.error e)
    exact h.stops hkey hsource hrepository fun _ => hfails e

theorem told_check {test : Bool} (h : Under request false events) :
    Recounts (Answers request) (refuseUnless test problem) (fun _ => Under request false)
      (fun _ => Failed request) events :=
  recounts_refuseUnless (fun _ => h) fun _ => h.refused

theorem told_given {result : Except Problem α} (h : Under request false events) :
    Recounts (Answers request) (given result)
      (fun a events => result = .ok a ∧ Under request false events) (fun _ => Failed request)
      events :=
  recounts_given (fun _ heq => ⟨heq, h⟩) fun _ _ => h.refused

theorem told_createKeyInner (ctx : Context) (name : String) (readOnly : Bool)
    (h : Under request false events) :
    Recounts (Answers request) (createKeyInner ctx name readOnly) (fun _ => Under request true)
      (fun _ => Failed request) events := by
  refine recounts_bind (told_early h fun _ => ⟨rfl, rfl, rfl⟩) fun generated events h => ?_
  refine recounts_bind (S := fun result events => match result with
    | .ok _ => Under request true events
    | .error _ => Failed request events) (recounts_attempted fun result => ?_) ?_
  · refine ⟨answers_of_open h.unanswered, ?_⟩
    cases result with
    | ok key => exact h.takes key
    | error e => exact h.stops rfl rfl rfl (by simp)
  · intro result events h
    cases result with
    | ok key => exact recounts_pure h
    | error e => cases e <;> exact recounts_throw h

theorem told_createSshKey (pepper : Bool) (ctx : Context)
    (body : Except Problem CreateSshKeyRequest) (h : Under request false events) :
    Recounts (Answers request) (createSshKey pepper ctx body) (fun _ => Finished request)
      (fun _ => Failed request) events := by
  refine recounts_bind (told_check h) fun _ events h => ?_
  refine recounts_bind (told_given h) fun req events ⟨_, h⟩ => ?_
  refine recounts_bind (told_check h) fun _ events h => ?_
  refine recounts_bind (told_early h fun _ => ⟨rfl, rfl, rfl⟩) fun _ events h => ?_
  refine recounts_bind (told_early h fun _ => ⟨rfl, rfl, rfl⟩) fun count events h => ?_
  refine recounts_bind (told_check h) fun _ events h => ?_
  refine recounts_bind (told_createKeyInner ctx req.name req.readOnly h) fun key events h => ?_
  exact recounts_pure h.ends

/-- On its way, with a key of its own or not. -/
def Ready (request : Request) (events : List RegEvent) : Prop := ∃ held, Under request held events

theorem told_resolveKeyForRepo (pepper : Bool) (ctx : Context) (sshKeyId : Option Uuid)
    (newKey : Option CreateSshKeyRequest) (h : Under request false events) :
    Recounts (Answers request) (resolveKeyForRepo pepper ctx sshKeyId newKey)
      (fun _ => Ready request) (fun _ => Failed request) events := by
  unfold resolveKeyForRepo
  cases newKey with
  | some spec =>
    refine recounts_bind (told_check h) fun _ events h => ?_
    refine recounts_bind (told_createKeyInner ctx spec.name spec.readOnly h) fun key events h => ?_
    exact recounts_pure ⟨true, h⟩
  | none =>
    cases sshKeyId with
    | some id =>
      refine recounts_bind (told_early h fun _ => ⟨rfl, rfl, rfl⟩) fun found events h => ?_
      refine recounts_bind (told_check h) fun _ events h => ?_
      exact recounts_pure ⟨false, h⟩
    | none => exact recounts_pure ⟨false, h⟩

/-- What is asked of a remote creates nothing. -/
theorem only_remoteInfoForKey (pepper : Bool) (ctx : Context) (keyId : Uuid) (sshUrl : String) :
    (remoteInfoForKey pepper ctx keyId sshUrl).Only fun {_} stmt => ∀ result : _,
      createdKey (.ran stmt result) = none ∧ createdSource (.ran stmt result) = none ∧
        createdRepository (.ran stmt result) = none ∧ ∀ ctx body,
          stumbles (.createRepository ctx body) (.ran stmt result) = false := by
  unfold remoteInfoForKey
  split
  · trivial
  · refine ⟨fun _ => ⟨rfl, rfl, rfl, fun _ _ => rfl⟩, fun enc => ?_⟩
    cases enc with
    | error e => trivial
    | ok enc =>
      cases enc with
      | none => trivial
      | some enc =>
        refine ⟨fun _ => ⟨rfl, rfl, rfl, fun _ _ => rfl⟩, fun pem => ?_⟩
        cases pem with
        | error e => trivial
        | ok pem => exact ⟨fun _ => ⟨rfl, rfl, rfl, fun _ _ => rfl⟩, fun _ => trivial⟩

/-- Whatever the remote says, the request goes on. -/
theorem told_reachability (pepper : Bool) (ctx ctx' : Context) (keyId : Option Uuid)
    (sshUrl : String) (body : Except Problem CreateRepositoryRequest)
    (h : Ready (.createRepository ctx' body) events) :
    Recounts (Answers (.createRepository ctx' body)) (reachability pepper ctx keyId sshUrl)
      (fun _ => Ready (.createRepository ctx' body)) (fun _ => Failed (.createRepository ctx' body))
      events := by
  unfold reachability
  cases keyId with
  | none => exact recounts_pure h
  | some keyId =>
    refine Prog.tells_bind (Prog.tells_only ?_ (only_remoteInfoForKey pepper ctx keyId sshUrl) h)
      fun info events h => h
    rintro β stmt result events hquiet ⟨held, h⟩
    obtain ⟨hkey, hsource, hrepository, hstumbles⟩ := hquiet result
    exact ⟨answers_of_open h.unanswered,
      held, h.goesOn hkey hsource hrepository fun _ => hstumbles ctx' body⟩

theorem told_createRepository (pepper : Bool) (ctx : Context)
    (body : Except Problem CreateRepositoryRequest)
    (h : Under (.createRepository ctx body) false events) :
    Recounts (Answers (.createRepository ctx body)) (createRepository pepper ctx body)
      (fun _ => Finished (.createRepository ctx body)) (fun _ => Failed (.createRepository ctx body))
      events := by
  refine recounts_bind (told_check h) fun _ events h => ?_
  refine recounts_bind (told_given h) fun req events ⟨_, h⟩ => ?_
  refine recounts_bind (told_check h) fun _ events h => ?_
  refine recounts_bind (told_early h fun _ => ⟨rfl, rfl, rfl⟩) fun _ events h => ?_
  refine recounts_bind (told_early h fun _ => ⟨rfl, rfl, rfl⟩) fun count events h => ?_
  refine recounts_bind (told_check h) fun _ events h => ?_
  refine recounts_bind (told_resolveKeyForRepo pepper ctx req.sshKeyId req.newKey h)
    fun keyId events h => ?_
  refine recounts_bind (told_reachability pepper ctx ctx keyId req.sshUrl body h)
    fun info events h => ?_
  obtain ⟨held, h⟩ := h
  refine recounts_bind (S := fun result events => match result with
    | .ok _ => Finished (.createRepository ctx body) events
    | .error _ => Failed (.createRepository ctx body) events) (recounts_attempted fun result => ?_) ?_
  · refine ⟨answers_of_open h.unanswered, ?_⟩
    cases result with
    | ok repository => exact h.finishes fun _ => rfl
    | error e => exact h.stops rfl rfl rfl fun _ => rfl
  · intro result events h
    cases result with
    | ok repository => exact recounts_pure h
    | error e => cases e <;> exact recounts_throw h

/-- A request that has a key of its own found a pepper. -/
def Keyed (pepper : Bool) (request : Request) (events : List RegEvent) : Prop :=
  ∃ held, Under request held events ∧ (held = true → pepper = true)

theorem told_resolveKey (pepper : Bool) (ctx : Context) (existing : Option Uuid)
    (newKey : Option CreateSshKeyRequest) (h : Under request false events) :
    Recounts (Answers request) (resolveKey pepper ctx existing newKey)
      (fun _ => Keyed pepper request) (fun _ => Failed request) events := by
  unfold resolveKey
  cases existing with
  | some id =>
    refine recounts_bind (told_early h fun _ => ⟨rfl, rfl, rfl⟩) fun found events h => ?_
    refine recounts_bind (told_check h) fun _ events h => ?_
    exact recounts_pure ⟨false, h, by simp⟩
  | none =>
    cases newKey with
    | none => exact recounts_throw h.refused
    | some spec =>
      refine recounts_bind (S := fun _ events => Under request false events ∧ pepper = true)
        (recounts_refuseUnless (fun hpepper => ⟨h, hpepper⟩) fun _ => h.refused)
        fun _ events ⟨h, hpepper⟩ => ?_
      refine recounts_bind (told_early h fun _ => ⟨rfl, rfl, rfl⟩) fun generated events h => ?_
      refine recounts_bind (S := fun _ => Under request true) (recounts_orRefuse
        (fun result => answers_of_open h.unanswered) (fun key => h.takes key)
        fun e => h.stops rfl rfl rfl (by simp)) fun created events h => ?_
      exact recounts_pure ⟨true, h, fun _ => hpepper⟩

theorem told_loadKeyPem (pepper : Bool) (ctx ctx' : Context) (keyId : Uuid)
    (req : CreateDocSourceRequest) (h : Keyed pepper (.createSource ctx' (.ok req)) events) :
    Recounts (Answers (.createSource ctx' (.ok req))) (loadKeyPem pepper ctx keyId)
      (fun _ => Ready (.createSource ctx' (.ok req))) (fun _ => Failed (.createSource ctx' (.ok req)))
      events := by
  obtain ⟨held, h, hpepper⟩ := h
  refine recounts_bind (S := fun _ => Under (.createSource ctx' (.ok req)) held)
    (recounts_refuseUnless (fun _ => h) ?_) fun _ events h => ?_
  · intro hnone
    cases held with
    | false => exact h.refused
    | true => simp [hpepper rfl] at hnone
  · refine recounts_bind (S := fun enc events => enc.elim (Failed (.createSource ctx' (.ok req)) events)
      fun _ => Under (.createSource ctx' (.ok req)) held events) (recounts_orRefuse
        (fun result => answers_of_open h.unanswered) ?_ ?_) ?_
    · intro enc
      cases enc with
      | some enc => exact h.goesOn rfl rfl rfl fun _ => rfl
      | none => exact h.stops rfl rfl rfl fun _ => rfl
    · exact fun e => h.stops rfl rfl rfl fun _ => rfl
    · intro enc events h
      cases enc with
      | none => exact recounts_throw h
      | some enc =>
        exact (told_late h (fun _ => ⟨rfl, rfl, rfl⟩) (fun _ => rfl) fun _ => rfl).mono
          (fun _ _ h => ⟨held, h⟩) fun _ _ h => h

/-- The request stumbles over the answer of the remote, or gets through the checks. -/
def PastRemote (ctx : Context) (req : CreateDocSourceRequest) (held : Bool)
    (result : Except GitError RemoteInfo) (events : List RegEvent) : Prop :=
  match result with
  | .error _ => Failed (.createSource ctx (.ok req)) events
  | .ok info =>
    if info.branches.contains (req.branch.getD "") && (normalize req.docPath).isSome then
      Under (.createSource ctx (.ok req)) held events
    else Failed (.createSource ctx (.ok req)) events

theorem told_verifyRemote (pepper : Bool) (ctx ctx' : Context) (req : CreateDocSourceRequest)
    (h : Under (.createSource ctx' (.ok req)) false events) :
    Recounts (Answers (.createSource ctx' (.ok req))) (verifyRemote pepper ctx req)
      (fun _ => Ready (.createSource ctx' (.ok req))) (fun _ => Failed (.createSource ctx' (.ok req)))
      events := by
  refine recounts_bind (told_resolveKey pepper ctx req.sshKeyId req.newKey h)
    fun keyId events h => ?_
  refine recounts_bind (told_loadKeyPem pepper ctx ctx' keyId req h) fun pem events h => ?_
  obtain ⟨held, h⟩ := h
  refine recounts_bind (S := PastRemote ctx' req held) (recounts_attempted fun result => ?_) ?_
  · refine ⟨answers_of_open h.unanswered, ?_⟩
    cases result with
    | error e => exact h.stops rfl rfl rfl fun _ => rfl
    | ok info =>
      dsimp only [PastRemote]
      split
      · rename_i hpasses
        refine h.goesOn rfl rfl rfl fun _ => ?_
        rw [Bool.and_eq_true] at hpasses
        simp only [stumbles, failsSource, hpasses.1, Option.isNone_eq_false_iff.mpr hpasses.2]
        rfl
      · rename_i hfails
        refine h.stops rfl rfl rfl fun _ => ?_
        rw [Bool.and_eq_true, not_and_or] at hfails
        simpa [stumbles, failsSource] using hfails
  · intro result events h
    cases result with
    | error e => exact recounts_throw h
    | ok info =>
      dsimp only [PastRemote] at h ⊢
      cases hbranch : info.branches.contains (req.branch.getD "") with
      | false =>
        rw [hbranch, Bool.false_and, if_neg Bool.false_ne_true] at h
        exact recounts_throw h
      | true =>
        cases hpath : normalize req.docPath with
        | none =>
          rw [hbranch, hpath, if_neg (by simp)] at h
          exact recounts_throw h
        | some docPath =>
          rw [hbranch, hpath, if_pos (by rfl)] at h
          exact recounts_pure ⟨held, h⟩

theorem told_createSource (pepper : Bool) (ctx : Context)
    (body : Except Problem CreateDocSourceRequest) (h : Under (.createSource ctx body) false events) :
    Recounts (Answers (.createSource ctx body)) (createSource pepper ctx body)
      (fun _ => Finished (.createSource ctx body)) (fun _ => Failed (.createSource ctx body))
      events := by
  refine recounts_bind (told_check h) fun _ events h => ?_
  refine recounts_bind (told_given h) fun req events ⟨hbody, h⟩ => ?_
  subst hbody
  refine recounts_bind (told_early h fun _ => ⟨rfl, rfl, rfl⟩) fun _ events h => ?_
  refine recounts_bind (told_early h fun _ => ⟨rfl, rfl, rfl⟩) fun count events h => ?_
  refine recounts_bind (told_check h) fun _ events h => ?_
  refine recounts_bind (told_given h) fun _ events ⟨_, h⟩ => ?_
  refine recounts_bind (S := fun _ => Ready (.createSource ctx (.ok req))) ?_ fun remote events h => ?_
  · unfold resolveRemote
    split
    · exact told_verifyRemote pepper ctx ctx req h
    · exact recounts_pure ⟨false, h⟩
  · obtain ⟨held, h⟩ := h
    refine recounts_bind (told_late h (fun _ => ⟨rfl, rfl, rfl⟩) (fun _ => rfl) fun _ => rfl)
      fun _ events h => ?_
    refine recounts_bind (S := fun result events => match result with
      | .ok _ => Finished (.createSource ctx (.ok req)) events
      | .error _ => Failed (.createSource ctx (.ok req)) events)
      (recounts_attempted fun result => ?_) ?_
    · refine ⟨answers_of_open h.unanswered, ?_⟩
      cases result with
      | ok source => exact h.finishes fun _ => rfl
      | error e => exact h.stops rfl rfl rfl fun _ => rfl
    · intro result events h
      cases result with
      | ok source => exact recounts_pure h
      | error e => cases e <;> exact recounts_throw h

end Handlers

/-- Every request is answered last, refused if it is spoilt, and not without a key of its own. -/
theorem tellsAll_answers (pepper : Bool) : (service pepper).TellsAll Answers := by
  intro request
  have hbegan : Under request false [.began request] := {
    unanswered := by
      intro other answer hmem
      cases List.mem_singleton.mp hmem
    bare := by
      intro event hmem
      rw [List.mem_singleton.mp hmem]
      exact ⟨rfl, rfl⟩
    key := rfl
    unspoilt := by simp [spoilt, hasKey] }
  refine ⟨hbegan.unanswered, ?_⟩
  have htold : Recounts (Answers request) (request.handler pepper) (fun _ => Finished request)
      (fun _ => Failed request) [.began request] := by
    cases request with
    | createSource ctx body => exact told_createSource pepper ctx body hbegan
    | createRepository ctx body => exact told_createRepository pepper ctx body hbegan
    | createSshKey ctx body => exact told_createSshKey pepper ctx body hbegan
  apply htold.post
  rintro (problem | answer) events houtcome
  · exact ⟨rfl, houtcome⟩
  · exact ⟨rfl, houtcome⟩

/-! ## Room -/

section Room

variable {db : Db}

theorem countKeys_insert (key : SshKey) (hfree : db.keys.find? key.id = none) (projectId : Uuid) :
    ({ db with keys := db.keys.insert key hfree } : Db).countKeys projectId =
      db.countKeys projectId + if key.projectId = projectId then 1 else 0 := by
  simp [Db.countKeys, Table.insert, List.countP_append, List.countP_singleton]

theorem countSources_insert (source : DocSource) (hfree : db.sources.find? source.id = none)
    (projectId : Uuid) :
    ({ db with sources := db.sources.insert source hfree } : Db).countSources projectId =
      db.countSources projectId + if source.projectId = projectId then 1 else 0 := by
  simp [Db.countSources, Table.insert, List.countP_append, List.countP_singleton]

theorem countRepositories_insert (repository : Repository)
    (hfree : db.repositories.find? repository.id = none) (projectId : Uuid) :
    ({ db with repositories := db.repositories.insert repository hfree } : Db).countRepositories
        projectId =
      db.countRepositories projectId + if repository.projectId = projectId then 1 else 0 := by
  simp [Db.countRepositories, Table.insert, List.countP_append, List.countP_singleton]

/-- Room for what an event creates. -/
def Roomy (db : Db) (event : RegEvent) : Prop :=
  (∀ key, createdKey event = some key → db.countKeys key.projectId < maxSshKeysPerProject) ∧
  (∀ source, createdSource event = some source →
    db.countSources source.projectId < maxSourcesPerProject) ∧
  ∀ repository, createdRepository event = some repository →
    db.countRepositories repository.projectId < maxReposPerProject

theorem roomy_of_idle {event : RegEvent} (hkey : createdKey event = none)
    (hsource : createdSource event = none) (hrepository : createdRepository event = none) :
    Roomy db event := by
  simp [Roomy, hkey, hsource, hrepository]

/-- Counting one row more keeps a bound if and only if there is room. -/
theorem bounded_iff {count : Uuid → Nat} {bound : Nat} (hcount : ∀ p, count p ≤ bound) (p : Uuid) :
    (∀ q, count q + (if p = q then 1 else 0) ≤ bound) ↔ count p < bound := by
  constructor
  · intro h
    have hp := h p
    rw [if_pos rfl] at hp
    omega
  · intro h q
    split
    · rename_i heq
      rw [← heq]
      omega
    · exact hcount q

/-- A statement keeps the limits if and only if there is room for what it creates. -/
theorem capped_exec_iff (h : Capped db) {β : Type} (stmt : Stmt β) (choice : Choice) :
    Capped (stmt.exec choice db).2 ↔ Roomy db (.ran stmt (stmt.exec choice db).1) := by
  unfold Stmt.exec
  cases choice.fails with
  | true => exact iff_of_true h (by cases stmt <;> exact roomy_of_idle rfl rfl rfl)
  | false =>
    simp only [Bool.false_eq_true, if_false]
    cases stmt with
    | createKey projectId new =>
      simp only [Stmt.effect, Db.createKey]
      split
      · exact iff_of_true h (roomy_of_idle rfl rfl rfl)
      · have hbound := bounded_iff (fun p => (h p).1) projectId
        simp only [Capped, countKeys_insert, Roomy, createdKey, createdSource, createdRepository,
          Option.some.injEq, forall_eq', reduceCtorEq, false_imp_iff, implies_true, and_true]
        rw [← hbound]
        exact ⟨fun hcapped p => (hcapped p).1, fun hkeys p => ⟨hkeys p, (h p).2⟩⟩
    | createSource projectId new =>
      simp only [Stmt.effect, Db.createSource]
      split
      · exact iff_of_true h (roomy_of_idle rfl rfl rfl)
      · have hbound := bounded_iff (fun p => (h p).2.1) projectId
        simp only [Capped, countSources_insert, Roomy, createdKey, createdSource,
          createdRepository, Option.some.injEq, forall_eq', reduceCtorEq, false_imp_iff,
          implies_true, and_true, true_and]
        rw [← hbound]
        exact ⟨fun hcapped p => (hcapped p).2.1, fun hsources p =>
          ⟨(h p).1, hsources p, (h p).2.2⟩⟩
    | createRepository projectId new =>
      simp only [Stmt.effect, Db.createRepository]
      split
      · exact iff_of_true h (roomy_of_idle rfl rfl rfl)
      · have hbound := bounded_iff (fun p => (h p).2.2) projectId
        simp only [Capped, countRepositories_insert, Roomy, createdKey, createdSource,
          createdRepository, Option.some.injEq, forall_eq', reduceCtorEq, false_imp_iff,
          implies_true, true_and]
        rw [← hbound]
        exact ⟨fun hcapped p => (hcapped p).2.2, fun hrepositories p =>
          ⟨(h p).1, (h p).2.1, hrepositories p⟩⟩
    | _ => exact iff_of_true h (roomy_of_idle rfl rfl rfl)

end Room

/-! ## Runs -/

section Runs

variable (pepper : Bool)

/-- A key that was created is there. -/
def Kept (w : RegWorld) : Prop :=
  ∀ entry ∈ w.log, ∀ key, createdKey entry.2 = some key → key ∈ w.state.keys.rows

theorem keys_exec {β : Type} (stmt : Stmt β) (choice : Choice) (db : Db) :
    (∀ key ∈ db.keys.rows, key ∈ (stmt.exec choice db).2.keys.rows) ∧
      ∀ key, createdKey (.ran stmt (stmt.exec choice db).1) = some key →
        key ∈ (stmt.exec choice db).2.keys.rows := by
  unfold Stmt.exec
  cases choice.fails with
  | true => exact ⟨fun _ h => h, by cases stmt <;> simp [createdKey, Stmt.failure]⟩
  | false =>
    simp only [Bool.false_eq_true, if_false]
    cases stmt with
    | createKey projectId new =>
      simp only [Stmt.effect, Db.createKey]
      split
      · exact ⟨fun _ h => h, by simp [createdKey]⟩
      · refine ⟨fun _ h => List.mem_append_left _ h, ?_⟩
        intro key hkey
        rw [← Option.some.inj hkey]
        exact List.mem_append_right _ List.mem_cons_self
    | createSource projectId new =>
      simp only [Stmt.effect, Db.createSource]
      split
      · exact ⟨fun _ h => h, by simp [createdKey]⟩
      · exact ⟨fun _ h => h, by simp [createdKey]⟩
    | createRepository projectId new =>
      simp only [Stmt.effect, Db.createRepository]
      split
      · exact ⟨fun _ h => h, by simp [createdKey]⟩
      · exact ⟨fun _ h => h, by simp [createdKey]⟩
    | _ => exact ⟨fun _ h => h, by simp [createdKey, Stmt.effect]⟩

theorem kept_run (s : Db) (labels : List (Label Request Choice)) :
    Kept ((service pepper).run (initial s) labels).world := by
  apply (service pepper).stepOf_run (P := fun _ {_} _ => True) (fun request => Prog.only_true _) ?_
    (Service.attributed_initial s) ?_ labels
  · intro w w' hstep h
    cases hstep with
    | void => exact h
    | began i request | answered i request answer hbegan =>
      intro entry hentry key hkey
      rcases List.mem_cons.mp hentry with rfl | hold
      · contradiction
      · exact h entry hold key hkey
    | issued i request stmt choice hbegan hmay =>
      obtain ⟨hstay, hnew⟩ := keys_exec stmt choice w.state
      intro entry hentry key hkey
      rcases List.mem_cons.mp hentry with rfl | hold
      · exact hnew key hkey
      · exact hstay key (h entry hold key hkey)
  · intro entry hentry
    contradiction

/-- No request that has been answered is spoilt. -/
def Unspoilt (w : RegWorld) : Prop :=
  ∀ i request answer older, w.own i = .answered request answer :: older →
    spoilt request older = false

theorem hasKey_of_spoilt {request : Request} {events : List RegEvent}
    (h : spoilt request events = true) : hasKey events = true := by
  induction events with
  | nil => contradiction
  | cons event older ih =>
    rw [spoilt, Bool.or_eq_true, Bool.and_eq_true] at h
    have hold : hasKey older = true := h.elim ih And.right
    rw [hasKey, List.any_cons, ← hasKey, hold]
    exact Bool.or_true _

/-- What is left of a refused request is its key. -/
theorem leftover_iff {cfg : Config Stmt Db Request (Except Problem Answer)}
    (hkept : Kept cfg.world) {i : Nat} {request : Request} {problem : Problem}
    {older : List RegEvent} (hown : cfg.world.own i = .answered request (.error problem) :: older)
    (hfailed : Failed request older) : Leftover cfg.world i ↔ spoilt request older = true := by
  constructor
  · rintro ⟨event, hevent, hcreated⟩
    rw [hown] at hevent
    apply hfailed.spoilt
    rw [hasKey, List.any_eq_true]
    rcases List.mem_cons.mp hevent with rfl | hold
    · rcases hcreated with ⟨_, -, h⟩ | ⟨_, -, h⟩ | ⟨_, -, h⟩ <;> contradiction
    · obtain ⟨hsource, hrepository⟩ := hfailed.bare event hold
      rcases hcreated with ⟨key, -, h⟩ | ⟨_, -, h⟩ | ⟨_, -, h⟩
      · exact ⟨event, hold, by rw [h]; rfl⟩
      · rw [hsource] at h
        contradiction
      · rw [hrepository] at h
        contradiction
  · intro hspoilt
    obtain ⟨event, hevent, hkey⟩ := List.any_eq_true.mp (hasKey_of_spoilt hspoilt)
    obtain ⟨key, hkey⟩ := Option.isSome_iff_exists.mp hkey
    have hmem : event ∈ cfg.world.own i := by
      rw [hown]
      exact List.mem_cons_of_mem _ hevent
    exact ⟨event, hmem, .inl ⟨key, hkept (i, event) (World.mem_own.mp hmem) key hkey, hkey⟩⟩

theorem allOrNothing_iff (s : Db) (labels : List (Label Request Choice)) :
    AllOrNothing ((service pepper).run (initial s) labels).world ↔
      Unspoilt ((service pepper).run (initial s) labels).world := by
  have hclosed := (service pepper).closed_run (Service.closed_initial s) labels
  have htold := (service pepper).own_run (tellsAll_answers pepper) s labels
  have hkept := kept_run pepper s labels
  generalize (service pepper).run (initial s) labels = cfg at *
  have hlast : ∀ i request answer older, cfg.world.own i = .answered request answer :: older →
      Answers request (.answered request answer :: older) := by
    intro i request answer older hown
    have hmem : (i, .answered request answer) ∈ cfg.world.log :=
      World.mem_own.mp (by rw [hown]; exact List.mem_cons_self)
    obtain ⟨⟨todo, hthread⟩, -⟩ := hclosed i request answer hmem
    rw [← hown]
    exact htold i _ hthread
  constructor
  · intro h i request answer older hown
    have htells := hlast i request answer older hown
    cases answer with
    | ok answer => exact htells.2.unspoilt
    | error problem =>
      rw [← Bool.not_eq_true, ← leftover_iff hkept hown htells.2]
      exact h i request problem (World.mem_own.mp (by rw [hown]; exact List.mem_cons_self))
  · intro h i request problem hmem
    obtain ⟨-, older, hown⟩ := hclosed i request _ hmem
    rw [leftover_iff hkept hown (hlast i request _ older hown).2, h i request _ older hown]
    exact Bool.false_ne_true

/-- A step leaves answered requests unspoilt if and only if it answers none that is spoilt. -/
theorem unspoilt_record {w : RegWorld} (h : Unspoilt w) (i : Nat) (event : RegEvent) (db : Db) :
    Unspoilt (w.record i event db) ↔
      ∀ request answer, event = .answered request answer → spoilt request (w.own i) = false := by
  constructor
  · rintro hlater request answer rfl
    exact hlater i request answer (w.own i) (World.own_record_self ..)
  · intro hevent j request answer older hown
    by_cases hij : i = j
    · subst hij
      rw [World.own_record_self] at hown
      obtain ⟨rfl, rfl⟩ := List.cons.inj hown
      exact hevent request answer rfl
    · rw [World.own_record_of_ne hij] at hown
      exact h j request answer older hown

theorem careful_iff {w w' : RegWorld} {i n : Nat} {event : RegEvent}
    (hlog : w'.log = (i, event) :: w.log) : Careful n w w' ↔ Roomy w.state event ∧
      ∀ request answer, event = .answered request answer → spoilt request (w.own i) = false := by
  constructor
  · intro h
    obtain ⟨hkey, hsource, hrepository, hanswer⟩ := h i event hlog
    exact ⟨⟨hkey, hsource, hrepository⟩, hanswer⟩
  · rintro ⟨⟨hkey, hsource, hrepository⟩, hanswer⟩ j other hlog'
    rw [hlog] at hlog'
    obtain ⟨rfl, rfl⟩ := Prod.mk.inj (List.cons.inj hlog').1
    exact ⟨hkey, hsource, hrepository, hanswer⟩

end Runs

/-- A project with nine sources. -/
def nineSources : Db where
  keys := Table.empty
  sources := ⟨(List.range 9).map fun n =>
    ⟨⟨toString n, .web, none, "https://docs", none, "", none, true, "", "", 5⟩, n, 1⟩, by decide⟩
  repositories := Table.empty

theorem nineSources_capped : Capped nineSources := by
  intro projectId
  have hsources : nineSources.countSources projectId ≤ 9 := List.countP_le_length
  exact ⟨Nat.zero_le _, Nat.le_trans hsources (by decide), Nat.zero_le _⟩

def webRequest (name : String) : Request :=
  .createSource ⟨1, 5, true⟩
    (.ok ⟨name, .web, none, "https://docs", none, "", none, none, false, "", ""⟩)

/-- Two sources are counted before either is added. -/
def racingRun : List (Label Request Choice) :=
  [.start (webRequest "a"), .start (webRequest "b"), .run 0 {}, .run 0 {}, .run 1 {}, .run 1 {},
    .run 0 {}, .run 0 {}, .run 1 {}, .run 1 {}]

def gitRequest : Request :=
  .createSource ⟨1, 5, true⟩ (.ok ⟨"docs", .git, some "git@host:docs", "https://docs", some "main", "",
    none, some ⟨"deploy", true⟩, false, "", ""⟩)

/-- A source with a new key, whose remote cannot be reached or has the branch. -/
def gitRun (remote : Except GitError RemoteInfo) : List (Label Request Choice) :=
  .start gitRequest :: List.replicate 8 (.run 0 ⟨false, ⟨"ssh-ed25519", "", "", ""⟩, remote⟩)

end IntelliPilot.Registration
