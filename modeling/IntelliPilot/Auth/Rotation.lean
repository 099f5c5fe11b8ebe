import IntelliPilot.Auth.Frames
import IntelliPilot.Relational.ParentChain

/-! # Refresh-token rotation

The contract under which any number of session requests interleave. A program
may insert a child of a token only after its own `mark_used` spent that token,
and the root of a family only if it created the family. Since a token is spent
once and a family created once, no two programs ever hold the same right, and
every family stays a single chain.
-/

namespace IntelliPilot.Auth

open Rows Statement

variable {κ : Type}

/-- The token a successful `mark_used` spent. -/
def marks : Event Stmt κ Response → Option Uuid
  | .ran (.session (.markUsed id)) (.ok true) => some id
  | _ => none

/-- The family a successful `create_family` opened. -/
def creates : Event Stmt κ Response → Option Uuid
  | .ran (.session (.createFamily _)) (.ok family) => some family
  | _ => none

/-- Program `i` has spent token `id`. -/
def Marked (w : AuthWorld κ) (i : Nat) (id : Uuid) : Prop :=
  ∃ event, (i, event) ∈ w.log ∧ marks event = some id

/-- Program `i` has created family `family`. -/
def Created (w : AuthWorld κ) (i : Nat) (family : Uuid) : Prop :=
  ∃ event, (i, event) ∈ w.log ∧ creates event = some family

/-- No row names token `id` as its parent. -/
def Childless (db : Db) (id : Uuid) : Prop := ∀ token ∈ db.tokens, token.parentId ≠ some id

/-- Family `family` has no token yet. -/
def Unstarted (db : Db) (family : Uuid) : Prop := ∀ token ∈ db.tokens, token.familyId ≠ family

/-- The rows of one family, oldest first. -/
def familyTokens (db : Db) (family : Uuid) : List RefreshToken :=
  db.tokens.filter (·.familyId == family)

/-- A family is one chain of rotations. -/
def TokenChain (tokens : List RefreshToken) : Prop :=
  ParentChain (·.id) (·.parentId) (·.usedAt.isSome) none tokens

/-- Every token of `db` is still there, in its place, and spent if it was. -/
def TokensPersist (db db' : Db) : Prop :=
  ∀ token ∈ db.tokens, ∃ token' ∈ db'.tokens, token'.id = token.id ∧
    token'.familyId = token.familyId ∧ token'.tokenHash = token.tokenHash ∧
    (token.usedAt.isSome = true → token'.usedAt.isSome = true)

theorem TokensPersist.refl (db : Db) : TokensPersist db db :=
  fun token htoken => ⟨token, htoken, rfl, rfl, rfl, id⟩

theorem TokensPersist.trans {db₁ db₂ db₃ : Db} (h₁ : TokensPersist db₁ db₂)
    (h₂ : TokensPersist db₂ db₃) : TokensPersist db₁ db₃ := by
  intro token htoken
  obtain ⟨token', htoken', hid, hfamily, hhash, hused⟩ := h₁ token htoken
  obtain ⟨token'', htoken'', hid', hfamily', hhash', hused'⟩ := h₂ token' htoken'
  exact ⟨token'', htoken'', hid'.trans hid, hfamily'.trans hfamily, hhash'.trans hhash,
    fun h => hused' (hused h)⟩

variable (env : Env) (presented : κ → Option String)

/-- An answer 200 to a presented token was earned by spending that token. -/
def Earned (w : AuthWorld κ) (i : Nat) (request : κ) (response : Response) : Prop :=
  ∀ raw, presented request = some raw → response.status = 200 →
    ∃ token ∈ w.state.tokens, token.tokenHash = env.hashToken raw ∧ Marked w i token.id

/-- What holds between any two statements of any programs. -/
structure RotationInv (w : AuthWorld κ) : Prop where
  ids : (w.state.tokens.map (·.id)).Nodup
  hashes : (w.state.tokens.map (·.tokenHash)).Nodup
  below : ∀ token ∈ w.state.tokens, token.id < w.state.nextId ∧ token.familyId < w.state.nextId
  chains : ∀ family, TokenChain (familyTokens w.state family)
  created : ∀ i family, Created w i family → family < w.state.nextId
  createdOnce : ∀ i j family, Created w i family → Created w j family → i = j
  marked : ∀ i id, Marked w i id → ∃ token ∈ w.state.tokens, token.id = id ∧
    token.usedAt.isSome = true
  markedOnce : ∀ i j id, Marked w i id → Marked w j id → i = j
  earned : ∀ i request response, (i, .answered request response) ∈ w.log →
    Earned env presented w i request response

/-- The rights program `i` has acquired survive the steps of the others. -/
structure RotationRely (i : Nat) (w w' : AuthWorld κ) : Prop where
  log : ∀ entry ∈ w.log, entry ∈ w'.log
  tokens : TokensPersist w.state w'.state
  childless : ∀ id, Marked w i id → Childless w.state id → Childless w'.state id
  unstarted : ∀ family, Created w i family → Unstarted w.state family → Unstarted w'.state family

/-- A step of program `i` extends a chain only by a right of its own. -/
structure RotationGuar (i : Nat) (w w' : AuthWorld κ) : Prop where
  tokens : TokensPersist w.state w'.state
  childless : ∀ id, Childless w.state id → Childless w'.state id ∨ Marked w' i id
  unstarted : ∀ family j, Created w j family → Unstarted w.state family →
    Unstarted w'.state family ∨ i = j

variable {w : AuthWorld κ} {i : Nat} {w' : AuthWorld κ}

theorem Marked.mono (hlog : ∀ entry ∈ w.log, entry ∈ w'.log) {id : Uuid} (h : Marked w i id) :
    Marked w' i id := by
  obtain ⟨event, hmem, hmarks⟩ := h
  exact ⟨event, hlog _ hmem, hmarks⟩

variable {family : Uuid}

theorem Created.mono (hlog : ∀ entry ∈ w.log, entry ∈ w'.log) (h : Created w i family) :
    Created w' i family := by
  obtain ⟨event, hmem, hcreates⟩ := h
  exact ⟨event, hlog _ hmem, hcreates⟩

variable {event : Event Stmt κ Response} {db : Db}

theorem marked_record {j : Nat} {id : Uuid} : Marked (w.record i event db) j id ↔
      (j = i ∧ marks event = some id) ∨ Marked w j id := by
  simp only [Marked, World.record_log, List.mem_cons, Prod.mk.injEq]
  constructor
  · rintro ⟨event', ⟨rfl, rfl⟩ | hold, hmarks⟩
    · exact Or.inl ⟨rfl, hmarks⟩
    · exact Or.inr ⟨event', hold, hmarks⟩
  · rintro (⟨rfl, hmarks⟩ | ⟨event', hold, hmarks⟩)
    · exact ⟨event, Or.inl ⟨rfl, rfl⟩, hmarks⟩
    · exact ⟨event', Or.inr hold, hmarks⟩

theorem created_record {j : Nat} : Created (w.record i event db) j family ↔
      (j = i ∧ creates event = some family) ∨ Created w j family := by
  simp only [Created, World.record_log, List.mem_cons, Prod.mk.injEq]
  constructor
  · rintro ⟨event', ⟨rfl, rfl⟩ | hold, hcreates⟩
    · exact Or.inl ⟨rfl, hcreates⟩
    · exact Or.inr ⟨event', hold, hcreates⟩
  · rintro (⟨rfl, hcreates⟩ | ⟨event', hold, hcreates⟩)
    · exact ⟨event, Or.inl ⟨rfl, rfl⟩, hcreates⟩
    · exact ⟨event', Or.inr hold, hcreates⟩

theorem Earned.mono (hlog : ∀ entry ∈ w.log, entry ∈ w'.log)
    (htokens : TokensPersist w.state w'.state) {request : κ} {response : Response}
    (h : Earned env presented w i request response) :
    Earned env presented w' i request response := by
  intro raw hraw hstatus
  obtain ⟨token, htoken, hhash, hmarked⟩ := h raw hraw hstatus
  obtain ⟨token', htoken', hid, _, hhash', _⟩ := htokens token htoken
  exact ⟨token', htoken', hhash'.trans hhash, by rw [hid]; exact hmarked.mono hlog⟩

/-- The contract of the session requests. -/
def rotationContract (handler : κ → Handler Response) : Contract (authService handler) where
  inv := RotationInv env presented
  allowed _ _ _ := True
  rely := RotationRely
  guar := RotationGuar
  rely_refl i w := ⟨fun _ h => h, .refl _, fun _ _ h => h, fun _ _ h => h⟩
  rely_trans i w₁ w₂ w₃ h₁ h₂ :=
    { log := fun entry hentry => h₂.log entry (h₁.log entry hentry)
      tokens := h₁.tokens.trans h₂.tokens
      childless := fun id hmarked h =>
        h₂.childless id (hmarked.mono h₁.log) (h₁.childless id hmarked h)
      unstarted := fun family hcreated h =>
        h₂.unstarted family (hcreated.mono h₁.log) (h₁.unstarted family hcreated h) }
  guar_rely i j w w' hne _ hinv' hgrows hguar :=
    { log := fun _ hentry => hgrows.mem hentry
      tokens := hguar.tokens
      childless := by
        intro id hmarked hchildless
        rcases hguar.childless id hchildless with h | h
        · exact h
        · have hmarked' := hmarked.mono fun _ hentry => hgrows.mem hentry
          exact absurd (hinv'.markedOnce i j id h hmarked') hne
      unstarted := by
        intro family hcreated hunstarted
        rcases hguar.unstarted family j hcreated hunstarted with h | h
        · exact h
        · exact absurd h hne }

/-! ## Steps that insert no token -/

/-- A step that rewrites token rows in place, at most spending some. -/
structure InPlace (db db' : Db) : Prop where
  nextId : db.nextId ≤ db'.nextId
  tokens : ∃ f : RefreshToken → RefreshToken, db'.tokens = db.tokens.map f ∧
    ∀ token, (f token).id = token.id ∧ (f token).familyId = token.familyId ∧
      (f token).tokenHash = token.tokenHash ∧ (f token).parentId = token.parentId ∧
      (token.usedAt.isSome = true → (f token).usedAt.isSome = true)

variable {db' : Db}

theorem InPlace.of_tokens_eq (htokens : db'.tokens = db.tokens) (hnext : db.nextId ≤ db'.nextId) :
    InPlace db db' :=
  ⟨hnext, id, by simp [htokens], fun _ => ⟨rfl, rfl, rfl, rfl, id⟩⟩

theorem InPlace.persist (h : InPlace db db') : TokensPersist db db' := by
  obtain ⟨_, f, htokens, hf⟩ := h
  intro token htoken
  obtain ⟨hid, hfamily, hhash, _, hused⟩ := hf token
  exact ⟨f token, by rw [htokens]; exact List.mem_map_of_mem htoken, hid, hfamily, hhash, hused⟩

theorem InPlace.childless (h : InPlace db db') {id : Uuid} (hchildless : Childless db id) :
    Childless db' id := by
  obtain ⟨_, f, htokens, hf⟩ := h
  intro token htoken
  rw [htokens] at htoken
  obtain ⟨old, hold, rfl⟩ := List.mem_map.mp htoken
  rw [(hf old).2.2.2.1]
  exact hchildless old hold

theorem InPlace.unstarted (h : InPlace db db') (hunstarted : Unstarted db family) :
    Unstarted db' family := by
  obtain ⟨_, f, htokens, hf⟩ := h
  intro token htoken
  rw [htokens] at htoken
  obtain ⟨old, hold, rfl⟩ := List.mem_map.mp htoken
  rw [(hf old).2.1]
  exact hunstarted old hold

theorem InPlace.familyTokens (h : InPlace db db') (hchain : TokenChain (familyTokens db family)) :
    TokenChain (familyTokens db' family) := by
  obtain ⟨_, f, htokens, hf⟩ := h
  have hfilter : Auth.familyTokens db' family = (Auth.familyTokens db family).map f := by
    unfold Auth.familyTokens
    rw [htokens, List.filter_map]
    congr 1
    exact List.filter_congr fun token _ => by simp [(hf token).2.1]
  rw [hfilter]
  exact parentChain_map (fun token => (hf token).1) (fun token => (hf token).2.2.2.1)
    (fun token => (hf token).2.2.2.2) hchain

/-- What an in-place step must add to keep the contract: a token it reports as
spent was unspent before, a family it reports as created is new, and an answer
it gives is earned. -/
structure Accounted (w : AuthWorld κ) (i : Nat) (event : Event Stmt κ Response) (db : Db) :
    Prop where
  marks : ∀ id, marks event = some id →
    (∃ token ∈ w.state.tokens, token.id = id ∧ token.usedAt = none) ∧
      ∃ token ∈ db.tokens, token.id = id ∧ token.usedAt.isSome = true
  creates : ∀ family, creates event = some family →
    w.state.nextId ≤ family ∧ family < db.nextId
  answers : ∀ request response, event = .answered request response →
    Earned env presented w i request response

variable {env presented}

/-- A step that reports nothing is accounted for. -/
theorem accounted_of_silent (hmarks : marks event = none) (hcreates : creates event = none)
    (hanswers : ∀ request response, event ≠ .answered request response) :
    Accounted env presented w i event db where
  marks id h := by rw [hmarks] at h; contradiction
  creates family h := by rw [hcreates] at h; contradiction
  answers request response h := absurd h (hanswers request response)

theorem inv_inPlace (hinv : RotationInv env presented w) (hplace : InPlace w.state db)
    (haccounted : Accounted env presented w i event db) :
    RotationInv env presented (w.record i event db) := by
  have hlog : ∀ entry ∈ w.log, entry ∈ (w.record i event db).log :=
    fun _ hentry => List.mem_cons_of_mem _ hentry
  have hpersist : TokensPersist w.state db := hplace.persist
  -- a token spent in this step was not spent before, so nobody can hold it already
  have hunspent : ∀ id, marks event = some id → ∀ j, ¬ Marked w j id := by
    intro id hmarks j hold
    obtain ⟨token, htoken, hid, hused⟩ := (haccounted.marks id hmarks).1
    obtain ⟨token', htoken', hid', hused'⟩ := hinv.marked j id hold
    have heq := eq_of_nodup_map hinv.ids htoken htoken' (hid.trans hid'.symm)
    simp [← heq, hused] at hused'
  have hfresh : ∀ family, creates event = some family → ∀ j, ¬ Created w j family := by
    intro family hcreates j hold
    have hlt := hinv.created j family hold
    exact Nat.not_lt.mpr (haccounted.creates family hcreates).1 hlt
  obtain ⟨f, htokens, hf⟩ := hplace.tokens
  refine
    { ids := ?_, hashes := ?_, below := ?_, chains := fun family =>
        hplace.familyTokens (hinv.chains family), created := ?_, createdOnce := ?_,
      marked := ?_, markedOnce := ?_, earned := ?_ }
  · have hids : db.tokens.map (·.id) = w.state.tokens.map (·.id) := by
      rw [htokens, List.map_map]
      exact List.map_congr_left fun token _ => (hf token).1
    simpa [hids] using hinv.ids
  · have hhashes : db.tokens.map (·.tokenHash) = w.state.tokens.map (·.tokenHash) := by
      rw [htokens, List.map_map]
      exact List.map_congr_left fun token _ => (hf token).2.2.1
    simpa [hhashes] using hinv.hashes
  · intro token htoken
    rw [World.record_state, htokens] at htoken
    obtain ⟨old, hold, rfl⟩ := List.mem_map.mp htoken
    have hbelow := hinv.below old hold
    have hnext := hplace.nextId
    rw [World.record_state, (hf old).1, (hf old).2.1]
    exact ⟨Nat.lt_of_lt_of_le hbelow.1 hnext, Nat.lt_of_lt_of_le hbelow.2 hnext⟩
  · intro j family hcreated
    rcases created_record.mp hcreated with ⟨_, hcreates⟩ | hold
    · exact (haccounted.creates family hcreates).2
    · exact Nat.lt_of_lt_of_le (hinv.created j family hold) hplace.nextId
  · intro j k family hj hk
    rcases created_record.mp hj with ⟨rfl, hcreates⟩ | hold
    · rcases created_record.mp hk with ⟨rfl, _⟩ | hold'
      · rfl
      · exact absurd hold' (hfresh family hcreates k)
    · rcases created_record.mp hk with ⟨rfl, hcreates⟩ | hold'
      · exact absurd hold (hfresh family hcreates j)
      · exact hinv.createdOnce j k family hold hold'
  · intro j id hmarked
    rcases marked_record.mp hmarked with ⟨_, hmarks⟩ | hold
    · exact (haccounted.marks id hmarks).2
    · obtain ⟨token, htoken, hid, hused⟩ := hinv.marked j id hold
      obtain ⟨token', htoken', hid', _, _, hused'⟩ := hpersist token htoken
      exact ⟨token', htoken', hid'.trans hid, hused' hused⟩
  · intro j k id hj hk
    rcases marked_record.mp hj with ⟨rfl, hmarks⟩ | hold
    · rcases marked_record.mp hk with ⟨rfl, _⟩ | hold'
      · rfl
      · exact absurd hold' (hunspent id hmarks k)
    · rcases marked_record.mp hk with ⟨rfl, hmarks⟩ | hold'
      · exact absurd hold (hunspent id hmarks j)
      · exact hinv.markedOnce j k id hold hold'
  · intro j request response hanswered
    rcases List.mem_cons.mp hanswered with heq | hold
    · obtain ⟨rfl, hevent⟩ := Prod.mk.inj heq
      exact (haccounted.answers request response hevent.symm).mono _ _ hlog hpersist
    · exact (hinv.earned j request response hold).mono _ _ hlog hpersist

theorem rely_inPlace (hplace : InPlace w.state db) : RotationRely i w (w.record i event db) where
  log _ hentry := List.mem_cons_of_mem _ hentry
  tokens := hplace.persist
  childless _ _ h := hplace.childless h
  unstarted _ _ h := hplace.unstarted h

theorem guar_inPlace (hplace : InPlace w.state db) : RotationGuar i w (w.record i event db) where
  tokens := hplace.persist
  childless _ h := Or.inl (hplace.childless h)
  unstarted _ _ _ h := Or.inl (hplace.unstarted h)

/-! ## The step that inserts a token -/

/-- The right by which program `i` inserts `new`: it created the family, which
has no token yet, or it spent the parent, which has no child yet. -/
def MayInsert (w : AuthWorld κ) (i : Nat) (new : RefreshToken) : Prop :=
  (new.parentId = none ∧ Created w i new.familyId ∧ Unstarted w.state new.familyId) ∨
    ∃ parent ∈ w.state.tokens, new.parentId = some parent.id ∧
      parent.familyId = new.familyId ∧ Marked w i parent.id ∧ Childless w.state parent.id

/-- One token row is appended under a fresh identifier and a fresh hash. -/
structure Appends (db db' : Db) (new : RefreshToken) : Prop where
  tokens : db'.tokens = db.tokens ++ [new]
  fresh : db.nextId ≤ new.id ∧ new.id < db'.nextId
  hash : ∀ token ∈ db.tokens, token.tokenHash ≠ new.tokenHash

variable {new : RefreshToken}

theorem Appends.persist (h : Appends db db' new) :
    TokensPersist db db' := fun token htoken =>
  ⟨token, by rw [h.tokens]; exact List.mem_append_left _ htoken, rfl, rfl, rfl, id⟩

theorem Appends.familyTokens (h : Appends db db' new) (family : Uuid) :
    familyTokens db' family =
      familyTokens db family ++ if new.familyId = family then [new] else [] := by
  simp only [Auth.familyTokens, h.tokens, List.filter_append, List.filter_cons, List.filter_nil,
    beq_iff_eq]

theorem chain_append (hinv : RotationInv env presented w) (happends : Appends w.state db new)
    (hmay : MayInsert w i new) (family : Uuid) : TokenChain (familyTokens db family) := by
  rw [happends.familyTokens]
  have hchain := hinv.chains family
  by_cases hfamily : new.familyId = family
  · rw [if_pos hfamily]
    rcases hmay with ⟨hroot, _, hunstarted⟩ | ⟨parent, hmem, hparent, hsame, hmarked, hchildless⟩
    · have hnil : Auth.familyTokens w.state family = [] := by
        rw [Auth.familyTokens, List.filter_eq_nil_iff]
        intro token htoken
        have hne := hunstarted token htoken
        rw [hfamily] at hne
        simpa using hne
      rw [hnil]
      exact parentChain_singleton hroot
    · obtain ⟨token, htoken, hid, hused⟩ := hinv.marked i parent.id hmarked
      have heq := eq_of_nodup_map hinv.ids htoken hmem hid
      subst heq
      have hlast : token ∈ Auth.familyTokens w.state family := by
        simp [Auth.familyTokens, hmem, hsame, hfamily]
      refine hchain.append hlast hused ?_ hparent
      intro row hrow
      exact hchildless row (List.mem_of_mem_filter hrow)
  · rw [if_neg hfamily, List.append_nil]
    exact hchain

theorem inv_append (hinv : RotationInv env presented w) (happends : Appends w.state db new)
    (hfamily : new.familyId < w.state.nextId) (hmay : MayInsert w i new)
    (hmarks : marks event = none) (hcreates : creates event = none)
    (hanswers : ∀ request response, event ≠ .answered request response) :
    RotationInv env presented (w.record i event db) := by
  have hlog : ∀ entry ∈ w.log, entry ∈ (w.record i event db).log :=
    fun _ hentry => List.mem_cons_of_mem _ hentry
  have hmarked : ∀ {j id}, Marked (w.record i event db) j id ↔ Marked w j id := by
    intro j id
    rw [marked_record, hmarks]
    simp
  have hcreated : ∀ {j family}, Created (w.record i event db) j family ↔ Created w j family := by
    intro j family
    rw [created_record, hcreates]
    simp
  have hnext : w.state.nextId < db.nextId :=
    Nat.lt_of_le_of_lt happends.fresh.1 happends.fresh.2
  refine
    { ids := ?_, hashes := ?_, below := ?_, chains := chain_append hinv happends hmay
      created := ?_, createdOnce := ?_, marked := ?_, markedOnce := ?_, earned := ?_ }
  · rw [World.record_state, happends.tokens, List.map_append, List.nodup_append]
    refine ⟨hinv.ids, by simp, ?_⟩
    intro id hid id' hid'
    obtain ⟨token, htoken, rfl⟩ := List.mem_map.mp hid
    rw [List.map_singleton, List.mem_singleton] at hid'
    rw [hid']
    exact Nat.ne_of_lt (Nat.lt_of_lt_of_le (hinv.below token htoken).1 happends.fresh.1)
  · rw [World.record_state, happends.tokens, List.map_append, List.nodup_append]
    refine ⟨hinv.hashes, by simp, ?_⟩
    intro hash hhash hash' hhash'
    obtain ⟨token, htoken, rfl⟩ := List.mem_map.mp hhash
    rw [List.map_singleton, List.mem_singleton] at hhash'
    rw [hhash']
    exact happends.hash token htoken
  · intro token htoken
    rw [World.record_state, happends.tokens, List.mem_append, List.mem_singleton] at htoken
    rcases htoken with hold | rfl
    · have hbelow := hinv.below token hold
      exact ⟨Nat.lt_trans hbelow.1 hnext, Nat.lt_trans hbelow.2 hnext⟩
    · exact ⟨happends.fresh.2, Nat.lt_trans hfamily hnext⟩
  · intro j family h
    exact Nat.lt_trans (hinv.created j family (hcreated.mp h)) hnext
  · intro j k family hj hk
    exact hinv.createdOnce j k family (hcreated.mp hj) (hcreated.mp hk)
  · intro j id h
    obtain ⟨token, htoken, hid, hused⟩ := hinv.marked j id (hmarked.mp h)
    obtain ⟨token', htoken', hid', _, _, hused'⟩ := happends.persist token htoken
    exact ⟨token', htoken', hid'.trans hid, hused' hused⟩
  · intro j k id hj hk
    exact hinv.markedOnce j k id (hmarked.mp hj) (hmarked.mp hk)
  · intro j request response hanswered
    rcases List.mem_cons.mp hanswered with heq | hold
    · exact absurd (Prod.mk.inj heq).2.symm (hanswers request response)
    · exact (hinv.earned j request response hold).mono _ _ hlog happends.persist

theorem guar_append (hinv : RotationInv env presented w) (happends : Appends w.state db new)
    (hmay : MayInsert w i new) :
    RotationGuar i w (w.record i event db) := by
  have hlog : ∀ entry ∈ w.log, entry ∈ (w.record i event db).log :=
    fun _ hentry => List.mem_cons_of_mem _ hentry
  refine { tokens := happends.persist, childless := ?_, unstarted := ?_ }
  · intro id hchildless
    by_cases hparent : new.parentId = some id
    · right
      rcases hmay with ⟨hroot, _, _⟩ | ⟨parent, _, hnew, _, hmarked, _⟩
      · rw [hroot] at hparent
        contradiction
      · rw [hnew, Option.some.injEq] at hparent
        exact hparent ▸ hmarked.mono hlog
    · left
      intro token htoken
      rw [World.record_state, happends.tokens, List.mem_append, List.mem_singleton] at htoken
      rcases htoken with hold | rfl
      · exact hchildless token hold
      · exact hparent
  · intro family j hcreated hunstarted
    by_cases hfamily : new.familyId = family
    · right
      rcases hmay with ⟨_, hown, _⟩ | ⟨parent, hmem, _, hsame, _, _⟩
      · exact hinv.createdOnce i j family (hfamily ▸ hown) hcreated
      · exact absurd (hsame.trans hfamily) (hunstarted parent hmem)
    · left
      intro token htoken
      rw [World.record_state, happends.tokens, List.mem_append, List.mem_singleton] at htoken
      rcases htoken with hold | rfl
      · exact hunstarted token hold
      · exact hfamily

end IntelliPilot.Auth
