import IntelliPilot.Geolocation.Safety

/-! # Attempts to update

Each of the attempts keeps the contract from the moment its request arrives, so what the
contract keeps holds at the end of every run that takes care.
-/

namespace IntelliPilot.Geolocation

open Statement Contract

variable {Bytes : Type} {format : Format Bytes}

/-! ## The directory under the lock -/

section Locked

variable {i : Nat} {client : Client} {F : (String → Option Bytes) → Prop}

/-- A step on the directory of an attempt that holds the lock. -/
theorem triple_directory {β : Type} {stmt : Stmt Bytes β} {G : β → (String → Option Bytes) → Prop}
    (hplain : plain stmt = true) (hprocess : processOf stmt = client.process)
    (haside : ∀ s choice, (exec format stmt choice s).2.row = s.row ∧
      (exec format stmt choice s).2.readers = s.readers)
    (hstep : ∀ s choice, Kept format s → F s.files →
      CarefulStep stmt (exec format stmt choice s).1 s →
        FilesKeep format s (exec format stmt choice s).2 ∧
        (∀ name, s.row.filePath = some name → (exec format stmt choice s).2.files name ≠ none) ∧
        G (exec format stmt choice s).1 (exec format stmt choice s).2.files) :
    (contract format).Triple i (Using i client (Holding client F)) (Prog.call stmt)
      fun result => Using i client (Holding client (G result)) := by
  apply triple_plain hplain hprocess (fact_holding client F).persists
  intro s choice hkept _ hknown hcare
  obtain ⟨hrow, hreaders⟩ := haside s choice
  obtain ⟨hkeep, hpresent, hG⟩ := hstep s choice hkept hknown.2 hcare
  have hlock := (sameSessions_exec format hplain choice s).lock
  refine ⟨⟨?_, hreaders ▸ hkept.readers, hrow ▸ hkept.named⟩, hkeep, .inr hknown.1,
    (locked_congr hlock).mpr hknown.1, hG⟩
  intro name hname
  rw [hrow] at hname
  rcases hkeep name (hkept.named name hname) with hsame | hnone | hvalid
  · rw [hsame]
    exact hkept.installed name hname
  · exact absurd hnone (hpresent name hname)
  · exact hvalid

variable {name : String}

/-- The row's file is not a download. -/
theorem Kept.ne_part {s : State Bytes} (hkept : Kept format s) {part : String}
    (hname : s.row.filePath = some name) (hpart : Text.endsWith part ".part" = true) :
    name ≠ part := by
  rintro rfl
  exact absurd hpart (by simp [hkept.named name hname])

theorem Kept.present {s : State Bytes} (hkept : Kept format s)
    (hname : s.row.filePath = some name) : s.files name ≠ none := by
  obtain ⟨bytes, hbytes, _⟩ := hkept.installed name hname
  rw [hbytes]
  exact Option.some_ne_none bytes

/-- Writing a download leaves the other files alone. -/
theorem triple_write (bytes : Bytes) (hpart : Text.endsWith name ".part" = true) :
    (contract format).Triple i (Using i client (Holding client fun _ => True))
      (Prog.call (.write client.process name bytes))
      fun _ => Using i client (Holding client fun _ => True) := by
  have hother : ∀ s choice other, other ≠ name →
      (writeFile client.process name bytes choice s).2.files other = s.files other := by
    intro s choice other hne
    unfold writeFile
    split_ifs
    · rfl
    · exact Function.update_of_ne hne _ _
    · exact Function.update_of_ne hne _ _
  apply triple_directory rfl rfl
  · intro s choice
    change (writeFile client.process name bytes choice s).2.row = s.row ∧
      (writeFile client.process name bytes choice s).2.readers = s.readers
    unfold writeFile
    split_ifs <;> exact ⟨rfl, rfl⟩
  · intro s choice hkept _ _
    refine ⟨fun other hnot => .inl (hother s choice other ?_), fun row hrow => ?_, trivial⟩
    · rintro rfl
      exact absurd hpart (by simp [hnot])
    · change (writeFile client.process name bytes choice s).2.files row ≠ none
      rw [hother s choice row (hkept.ne_part hrow hpart)]
      exact hkept.present hrow

/-- Removing a file, which is not the row's in a run that takes care. -/
theorem triple_removeFile (name : String)
    (hF : ∀ files, F files → F (Function.update files name none)) :
    (contract format).Triple i (Using i client (Holding client F))
      (Prog.call (.removeFile client.process name)) fun _ => Using i client (Holding client F) := by
  apply triple_directory rfl rfl
  · intro s choice
    exact guarded_cases (p := fun r => r.2.row = s.row ∧ r.2.readers = s.readers) ⟨rfl, rfl⟩
      fun _ _ => ⟨rfl, rfl⟩
  · intro s choice hkept hknown
    apply guarded_cases (p := fun r : Except GeoIpError Unit × State Bytes =>
      (r.1 = .ok () → s.row.filePath ≠ some name) → FilesKeep format s r.2 ∧
        (∀ row, s.row.filePath = some row → r.2.files row ≠ none) ∧ F r.2.files)
    · exact fun _ => ⟨.refl s, fun _ => hkept.present, hknown⟩
    · intro _ _ hcare
      refine ⟨fun other _ => ?_, fun row hrow => ?_, hF _ hknown⟩
      · by_cases hsame : other = name
        · subst hsame
          exact .inr (.inl (Function.update_self _ _ _))
        · exact .inl (Function.update_of_ne hsame _ _)
      · have hne : row ≠ name := by
          rintro rfl
          exact hcare rfl hrow
        dsimp only
        rw [Function.update_of_ne hne]
        exact hkept.present hrow

/-- A validated download takes the place of an installed file. -/
theorem triple_rename {source target : String} (hpart : Text.endsWith source ".part" = true) :
    (contract format).Triple i (Using i client (Holding client (ValidAt format source)))
      (Prog.call (.rename client.process source target)) fun result =>
        Using i client (Holding client fun files =>
          result = .ok () → ValidAt format target files) := by
  apply triple_directory rfl rfl
  · intro s choice
    apply guarded_cases (p := fun r => r.2.row = s.row ∧ r.2.readers = s.readers) ⟨rfl, rfl⟩
    intro _ _
    unfold renameFile
    split <;> exact ⟨rfl, rfl⟩
  · intro s choice hkept hknown _
    apply guarded_cases (p := fun r : Except GeoIpError Unit × State Bytes =>
      FilesKeep format s r.2 ∧ (∀ row, s.row.filePath = some row → r.2.files row ≠ none) ∧
        (r.1 = .ok () → ValidAt format target r.2.files))
    · exact ⟨.refl s, fun _ => hkept.present, fun h => by contradiction⟩
    · intro _ _
      unfold renameFile
      split
      next => exact ⟨.refl s, fun _ => hkept.present, fun h => by contradiction⟩
      next bytes hbytes =>
        refine ⟨fun other _ => ?_, fun row hrow => ?_, fun _ file hfile => ?_⟩
        · by_cases htarget : other = target
          · subst htarget
            exact .inr (.inr ⟨bytes, Function.update_self _ _ _, hknown bytes hbytes⟩)
          · dsimp only
            rw [Function.update_of_ne htarget]
            by_cases hsource : other = source
            · subst hsource
              exact .inr (.inl (Function.update_self _ _ _))
            · exact .inl (Function.update_of_ne hsource _ _)
        · dsimp only
          by_cases htarget : row = target
          · subst htarget
            rw [Function.update_self]
            exact Option.some_ne_none bytes
          · rw [Function.update_of_ne htarget,
              Function.update_of_ne (hkept.ne_part hrow hpart)]
            exact hkept.present hrow
        · dsimp only at hfile
          rw [Function.update_self] at hfile
          exact Option.some.inj hfile ▸ hknown bytes hbytes

end Locked

/-! ## Programs under the lock -/

/-- What an attempt may have installed. -/
def Names (result : Except GeoIpError UpdateOutcome) (name : String) : Prop :=
  ∃ variant month size digest, result = .ok (.installed variant month size digest) ∧
    name = fileName variant month

/-- The file that an attempt has installed is valid, where it is still there. -/
def Result (format : Format Bytes) (result : Except GeoIpError UpdateOutcome)
    (files : String → Option Bytes) : Prop :=
  ∀ name, Names result name → ValidAt format name files

variable {files : String → Option Bytes}

theorem ValidAt.remove {name other : String} (h : ValidAt format name files) :
    ValidAt format name (Function.update files other none) := by
  intro bytes hbytes
  by_cases hname : name = other
  · subst hname
    rw [Function.update_self] at hbytes
    contradiction
  · rw [Function.update_of_ne hname] at hbytes
    exact h bytes hbytes

theorem result_error (e : GeoIpError) (files : String → Option Bytes) :
    Result format (.error e) files := by
  rintro name ⟨variant, month, size, digest, heq, _⟩
  contradiction

theorem result_alreadyCurrent (files : String → Option Bytes) :
    Result format (.ok .alreadyCurrent) files := by
  rintro name ⟨variant, month, size, digest, heq, _⟩
  cases heq

theorem result_installed {variant : Variant} {month : String} {size : Int} {digest : String}
    (h : ValidAt format (fileName variant month) files) :
    Result format (.ok (.installed variant month size digest)) files := by
  rintro name ⟨variant', month', size', digest', heq, rfl⟩
  cases heq
  exact h

section Locked

variable {i : Nat} {client : Client}

theorem Using.holding {F G : (String → Option Bytes) → Prop} {w : GeoWorld Bytes}
    (h : Using i client (Holding client F) w) (hFG : ∀ files, F files → G files) :
    Using i client (Holding client G) w :=
  h.mono fun _ hknown => ⟨hknown.1, hFG _ hknown.2⟩

/-- A file that passes the validation is valid. -/
theorem triple_validate (name : String) :
    (contract format).Triple i (Using i client (Holding client fun _ => True))
      (validate client.process name) fun result =>
        Using i client (Holding client fun files =>
          result = .ok () → ValidAt format name files) := by
  have hremoved : ∀ e : GeoIpError, (contract format).Triple i
      (Using i client (Holding client fun _ => True))
      (do
        let _ ← Prog.call (.removeFile client.process name)
        pure (.error e)) fun result =>
        Using i client (Holding client fun files =>
          result = Except.ok () → ValidAt format name files) := by
    intro e
    apply triple_bind _ (triple_removeFile name fun _ _ => trivial)
    intro _
    apply triple_pure
    exact fun w _ h => h.holding fun _ _ herror => by contradiction
  apply triple_bind _ (triple_open name (fact_holding client _))
  intro result
  cases result with
  | error e =>
    apply triple_weaken _ (hremoved e)
    exact fun w _ h => h.mono fun _ hknown => hknown.2
  | ok file =>
    obtain ⟨bytes, nodes⟩ := file
    apply triple_dite
    · intro _
      apply triple_weaken _ (hremoved _)
      exact fun w _ h => h.mono fun _ hknown => hknown.2
    · intro hnodes
      apply triple_pure
      refine fun w _ h => h.mono fun s hknown => ⟨hknown.2.1, fun _ other hother => ?_⟩
      obtain ⟨hbytes, hcount⟩ := hknown.1 _ rfl
      rw [Option.some.inj (hother.symm.trans hbytes)]
      exact ⟨nodes, hcount, hnodes⟩

/-- Removing files leaves what an installed file is valid for. -/
theorem triple_removeAll (keep name : String) (names : List String) :
    (contract format).Triple i (Using i client (Holding client (ValidAt format name)))
      (removeAll client.process keep names)
      fun _ => Using i client (Holding client (ValidAt format name)) := by
  induction names with
  | nil => exact triple_pure _ fun _ _ h => h
  | cons stale rest ih =>
    apply triple_ite
    · apply triple_bind _ (triple_removeFile stale fun _ h => h.remove)
      exact fun _ => ih
    · exact ih

theorem triple_removeStaleFiles (keep name : String) :
    (contract format).Triple i (Using i client (Holding client (ValidAt format name)))
      (removeStaleFiles client.process keep)
      fun _ => Using i client (Holding client (ValidAt format name)) := by
  apply triple_bind _ (triple_asks_any rfl rfl rfl (fact_holding client _))
  intro result
  cases result with
  | error e => exact triple_pure _ fun _ _ h => h
  | ok names => exact triple_removeAll keep name names

theorem endsWith_part (name : String) : Text.endsWith (name ++ ".part") ".part" = true := by
  rw [Text.endsWith, List.isSuffixOf_iff_suffix, String.toList_append]
  exact List.suffix_append _ _

/-- An installed file is told from a download by its name. -/
theorem endsWith_fileName (variant : Variant) (month : String) :
    Text.endsWith (fileName variant month) ".part" = false := by
  rw [Text.endsWith, Bool.eq_false_iff, ne_eq, List.isSuffixOf_iff_suffix, fileName,
    String.toList_append]
  intro hpart
  have hshort := List.suffix_of_suffix_length_le hpart (List.suffix_append _ _) (by decide)
  exact absurd hshort (by decide)

theorem triple_installBytes (variant : Variant) (month : String) (bytes : Bytes) :
    (contract format).Triple i (Using i client (Holding client fun _ => True))
      (installBytes format client.process variant month bytes) fun result =>
        Using i client (Holding client (Result format result)) := by
  have hpart := endsWith_part (fileName variant month)
  have hfailed : ∀ (F : GeoIpError → (String → Option Bytes) → Prop) (e : GeoIpError)
      (w : GeoWorld Bytes), Using i client (Holding client (F e)) w →
        Using i client (Holding client (Result format (.error e))) w :=
    fun _ e w h => h.holding fun files _ => result_error e files
  apply triple_orFail (triple_asks_any rfl rfl rfl (fact_holding client _)) (hfailed _)
  intro _
  apply triple_orFail (triple_write bytes hpart) (hfailed _)
  intro _
  apply triple_orFail (triple_validate _) (hfailed _)
  intro _
  apply triple_orFail (triple_weaken _ (triple_rename hpart)
    fun w _ h => h.holding fun _ hvalid => hvalid rfl) (hfailed _)
  intro _
  apply triple_orFail (triple_load _ (fact_holding client _)) (hfailed _)
  intro _
  apply triple_bind _ (triple_weaken _
    (triple_removeStaleFiles _ (fileName variant month))
    fun w _ h => h.holding fun _ hvalid => hvalid rfl)
  intro _
  apply triple_pure
  exact fun w _ h => h.holding fun _ => result_installed

theorem triple_updateFrom (variant : Variant) (installedMonth : Option String) (force : Bool)
    (lastErr : GeoIpError) (months : List String) :
    (contract format).Triple i (Using i client (Holding client fun _ => True))
      (updateFrom format client.process variant installedMonth force lastErr months) fun result =>
        Using i client (Holding client (Result format result)) := by
  induction months generalizing lastErr with
  | nil =>
    apply triple_pure
    exact fun w _ h => h.holding fun files _ => result_error _ files
  | cons month rest ih =>
    apply triple_ite
    · apply triple_pure
      exact fun w _ h => h.holding fun files _ => result_alreadyCurrent files
    · apply triple_bind _ (triple_asks_any rfl rfl rfl (fact_holding client _))
      intro fetched
      cases fetched with
      | ok bytes => exact triple_installBytes variant month bytes
      | error e =>
        have hfailed : (contract format).Triple i
            (Using i client (Holding client fun _ => True)) (pure (.error e)) fun result =>
              Using i client (Holding client (Result format result)) := by
          apply triple_pure
          exact fun w _ h => h.holding fun files _ => result_error e files
        cases e with
        | notPublished m => exact ih (.notPublished m)
        | database text | io text | download text | invalid text => exact hfailed

theorem triple_update (variant : Variant) (installedMonth : Option String) (force : Bool)
    (now : Nat × Nat) :
    (contract format).Triple i (Using i client (Holding client fun _ => True))
      (update format client.process variant installedMonth force now) fun result =>
        Using i client (Holding client (Result format result)) := by
  apply triple_ite
  · apply triple_pure
    exact fun w _ h => h.holding fun files _ => result_alreadyCurrent files
  · exact triple_updateFrom variant installedMonth force _ _

end Locked

/-! ## Taking the lock and letting go of it -/

section Sessions

variable {i : Nat} {client : Client}

/-- What a step may make of the lock: it is taken while it is free, or given up. -/
def LockMoves (client : Client) (s : State Bytes) (lock : Option ((Process × Nat) × Nat)) : Prop :=
  lock = s.lock ∨ client ∈ s.clients ∧
    (lock = none ∧ Locked client s ∨ s.lock = none ∧ lock = some (client.session, 1))

variable {w : GeoWorld Bytes}

theorem lock_step {β : Type} {stmt : Stmt Bytes β} {choice : Choice Bytes}
    {lock : Option ((Process × Nat) × Nat)} (htakes : takesOut stmt = false) (hinv : Inv format w)
    (hmine : Owns i client w) (hopen : w.Unanswered i)
    (hs : (exec format stmt choice w.state).2 = { w.state with lock := lock })
    (hmoves : LockMoves client w.state lock) :
    Inv format ((service format).perform i stmt choice w) ∧
      Guar format i w ((service format).perform i stmt choice w) := by
  have howns : ∀ j other, Owns j other ((service format).perform i stmt choice w) ↔
      Owns j other w := fun _ _ => owns_ran_iff htakes
  have hstate : ((service format).perform i stmt choice w).state = { w.state with lock := lock } :=
    hs
  have hheld : ∀ session depth, lock = some (session, depth) → depth = 1 ∧
      ∃ j other, Owns j other w ∧ other.session = session ∧ other ∈ w.state.clients ∧
        w.Unanswered j := by
    intro session depth hlock
    rcases hmoves with hsame | ⟨hmem, ⟨hnone, _⟩ | ⟨_, hnew⟩⟩
    · exact hinv.lock session depth (hsame ▸ hlock)
    · rw [hnone] at hlock
      contradiction
    · rw [hnew] at hlock
      obtain ⟨rfl, rfl⟩ := Prod.mk.inj (Option.some.inj hlock)
      exact ⟨rfl, i, client, hmine, rfl, hmem, hopen⟩
  constructor
  · refine ⟨?_, fun session depth hlock => ?_, ?_, ?_, fun j other hother => ?_,
      fun j k other hj hk => ?_⟩
    · rw [hstate]
      exact ⟨hinv.kept.installed, hinv.kept.readers, hinv.kept.named⟩
    · rw [hstate] at hlock
      obtain ⟨hdepth, j, other, hother, hsession, hmem, hopen'⟩ := hheld session depth hlock
      exact ⟨hdepth, j, other, (howns j other).mpr hother, hsession, hstate ▸ hmem,
        unanswered_ran_iff.mpr hopen'⟩
    · rw [hstate]
      exact hinv.sessions
    · rw [hstate]
      exact hinv.running
    · rw [hstate]
      exact hinv.leases j other ((howns j other).mp hother)
    · exact hinv.owners j k other ((howns j other).mp hj) ((howns k other).mp hk)
  · refine ⟨hstate ▸ fun _ => id, hstate ▸ .of_eq rfl, fun other hother _ => ?_⟩
    rw [hstate]
    refine ⟨id, fun hmem _ => hmem, fun hmem _ => ?_, fun _ _ _ => rfl⟩
    rcases hmoves with hsame | ⟨hclient, ⟨hnone, hlocked⟩ | ⟨hfree, hnew⟩⟩
    · exact locked_congr hsame
    · constructor
      · rintro ⟨depth, hdepth⟩
        rw [hnone] at hdepth
        contradiction
      · intro hlocked'
        obtain rfl := eq_of_locked hinv.sessions hclient hmem hlocked hlocked'
        exact absurd hmine hother
    · constructor
      · rintro ⟨depth, hdepth⟩
        rw [hnew] at hdepth
        obtain rfl := eq_of_session hinv.sessions hclient hmem
          (Prod.mk.inj (Option.some.inj hdepth)).1
        exact absurd hmine hother
      · rintro ⟨depth, hdepth⟩
        rw [hfree] at hdepth
        contradiction

/-- A step that moves the lock of its own session. -/
theorem triple_lock {β : Type} {stmt : Stmt Bytes β} {K : State Bytes → Prop}
    {R : β → State Bytes → Prop} (htakes : takesOut stmt = false) (hK : Persists format client K)
    (hgone : ∀ s choice, client.process ∈ s.stopped → (exec format stmt choice s).2 = s)
    (hstep : ∀ s choice, client ∈ s.clients → client.process ∉ s.stopped →
      (∀ session depth, s.lock = some (session, depth) → depth = 1) → K s →
        CarefulStep stmt (exec format stmt choice s).1 s →
          ∃ lock, (exec format stmt choice s).2 = { s with lock := lock } ∧
            LockMoves client s lock ∧
            R (exec format stmt choice s).1 (exec format stmt choice s).2) :
    (contract format).Triple i (Using i client K) (Prog.call stmt)
      fun result => Using i client (R result) := by
  apply triple_call _ (stable_using hK)
  intro w choice hinv h hcare
  have hmine := (h.mine client).mpr rfl
  have hafter : ∀ other, Owns i other ((service format).perform i stmt choice w) ↔
      other = client := fun other => (owns_ran_iff htakes).trans (h.mine other)
  have hopen : ((service format).perform i stmt choice w).Unanswered i :=
    unanswered_ran_iff.mpr h.unanswered
  by_cases hstopped : client.process ∈ w.state.stopped
  · have hstill := hgone w.state choice hstopped
    obtain ⟨hinv', hguar⟩ := lock_step htakes hinv hmine h.unanswered hstill (.inl rfl)
    refine ⟨hinv', hguar, hafter, hopen, .inl ?_⟩
    change _ ∈ (exec format stmt choice w.state).2.stopped
    rw [hstill]
    exact hstopped
  · obtain ⟨hclient, hknown⟩ := h.state.resolve_left hstopped
    obtain ⟨lock, hs, hmoves, hR⟩ := hstep w.state choice hclient hstopped
      (fun session depth hlock => (hinv.lock session depth hlock).1) hknown (hcare β stmt _ rfl)
    obtain ⟨hinv', hguar⟩ := lock_step htakes hinv hmine h.unanswered hs hmoves
    refine ⟨hinv', hguar, hafter, hopen, .inr ⟨?_, hR⟩⟩
    change _ ∈ (exec format stmt choice w.state).2.clients
    rw [hs]
    exact hclient

/-- The attempt holds the lock if it has been told so. -/
theorem triple_tryLock :
    (contract format).Triple i (Using i client (Idle client))
      (Prog.call (.tryLockDownload client)) fun result => Using i client fun s =>
        (result = .ok true → Locked client s) ∧ (result ≠ .ok true → Idle client s) := by
  apply triple_lock rfl (fact_idle client).persists
  · intro s choice hgone
    exact congrArg Prod.snd (if_pos (.inl hgone))
  · intro s choice hclient _ _ hidle _
    apply guarded_cases (p := fun r : Except DbError Bool × State Bytes => ∃ lock,
      r.2 = { s with lock := lock } ∧ LockMoves client s lock ∧
        (r.1 = .ok true → Locked client r.2) ∧ (r.1 ≠ .ok true → Idle client r.2))
    · exact ⟨s.lock, rfl, .inl rfl, fun h => by contradiction, fun _ => hidle⟩
    · intro _ _
      cases hlock : s.lock with
      | none =>
        have htry : tryLock client.session s =
            (true, { s with lock := some (client.session, 1) }) := by
          rw [tryLock, hlock]
        rw [htry]
        exact ⟨_, rfl, .inr ⟨hclient, .inr ⟨hlock, rfl⟩⟩, fun _ => ⟨1, rfl⟩,
          fun h => absurd rfl h⟩
      | some held =>
        obtain ⟨holder, depth⟩ := held
        have hother : holder ≠ client.session := by
          rintro rfl
          exact hidle ⟨depth, hlock⟩
        have htry : tryLock client.session s = (false, s) := by
          rw [tryLock, hlock]
          exact if_neg hother
        rw [htry]
        refine ⟨s.lock, rfl, .inl rfl, fun htrue => ?_, fun _ => hidle⟩
        cases htrue

/-- In a run that takes care the attempt lets go of the lock. -/
theorem triple_unlock (F : (String → Option Bytes) → Prop) :
    (contract format).Triple i (Using i client (Holding client F))
      (Prog.call (.unlockDownload client))
      fun _ => Using i client fun s => Idle client s ∧ F s.files := by
  apply triple_lock rfl (fact_holding client F).persists
  · intro s choice hgone
    exact congrArg Prod.snd (if_pos (.inl hgone))
  · rintro s choice hclient hruns hone ⟨⟨depth, hlock⟩, hknown⟩
    obtain rfl := hone _ _ hlock
    apply guarded_cases (p := fun r : Except DbError Unit × State Bytes =>
      (client.process ∉ s.stopped → r.1.isOk = true) → ∃ lock,
        r.2 = { s with lock := lock } ∧ LockMoves client s lock ∧ Idle client r.2 ∧ F r.2.files)
    · intro hcare
      exact absurd (hcare hruns) Bool.false_ne_true
    · intro _ _ _
      have hunlock : unlock client.session s = { s with lock := none } := by
        rw [unlock, hlock]
        exact if_pos rfl
      dsimp only
      rw [hunlock]
      refine ⟨none, rfl, .inr ⟨hclient, .inl ⟨rfl, 1, hlock⟩⟩, ?_, hknown⟩
      rintro ⟨depth, hnone⟩
      contradiction

/-- In a run that takes care the row names a file that is there. -/
theorem triple_setInstalled {names : String → Prop} (variant month : String) {name : String}
    (size : Int) (digest source : String) (hname : names name)
    (hnames : ∀ name, names name → Text.endsWith name ".part" = false) :
    (contract format).Triple i (Using i client (Installed format client names))
      (Prog.call (.setInstalled client variant month name size digest source))
      fun _ => Using i client (Idle client) := by
  apply triple_plain rfl rfl (fact_installed client hnames).persists
  intro s choice hkept _ hknown
  apply guarded_cases (p := fun r : Except DbError GeoipDatabase × State Bytes =>
    (r.1.isOk = true → (s.files name).isSome = true) → Kept format r.2 ∧ FilesKeep format s r.2 ∧
      (r.2.files = s.files ∨ Locked client s) ∧ Idle client r.2)
  · exact fun _ => ⟨hkept, .refl s, .inl rfl, hknown.1⟩
  · intro _ _ hcare
    obtain ⟨bytes, hbytes⟩ := Option.isSome_iff_exists.mp (hcare rfl)
    refine ⟨⟨fun other hother => ?_, hkept.readers, fun other hother => ?_⟩, .refl s, .inl rfl,
      hknown.1⟩
    · obtain rfl := Option.some.inj hother
      exact ⟨bytes, hbytes, hknown.2 name hname bytes hbytes⟩
    · obtain rfl := Option.some.inj hother
      exact hnames name hname

/-! ## Connections -/

/-- Nothing is known of attempt `i` but that it holds no connection. -/
def Without (i : Nat) (w : GeoWorld Bytes) : Prop :=
  ∀ other, Owns i other w → other ∉ w.state.clients

theorem stable_without : (contract format).Stable i (Without i : GeoWorld Bytes → Prop) := by
  intro w w' hrely _ _ h other howns
  have howns' := (owns_grows_iff hrely.grows).mp howns
  exact (hrely.apart other howns').returned (h other howns')

/-- The attempt gives its connection back while it does not hold the lock. -/
theorem triple_giveBack :
    (contract format).Triple i (Using i client (Idle client)) (Prog.call (.giveBack client))
      fun _ => Without i := by
  apply triple_call _ (stable_using (fact_idle client).persists)
  intro w choice hinv h _
  have howns : ∀ j other, Owns j other ((service format).perform i (.giveBack client) choice w) ↔
      Owns j other w := fun _ _ => owns_ran_iff rfl
  have hremains : ∀ other, other ∈ w.state.clients.filter (· != client) ↔
      other ∈ w.state.clients ∧ other ≠ client := by
    intro other
    rw [List.mem_filter, bne_iff_ne]
  -- whoever holds the lock is another connection
  have hholder : ∀ other, other ∈ w.state.clients → Locked other w.state → other ≠ client := by
    rintro other hmem hlocked rfl
    rcases h.state with hgone | ⟨_, hidle⟩
    · exact hinv.running other hmem hgone
    · exact hidle hlocked
  refine ⟨⟨⟨hinv.kept.installed, hinv.kept.readers, hinv.kept.named⟩, ?_, ?_, ?_, ?_, ?_⟩, ?_, ?_⟩
  · intro session depth hlock
    obtain ⟨hdepth, j, other, hother, hsession, hmem, hopen⟩ := hinv.lock session depth hlock
    refine ⟨hdepth, j, other, (howns j other).mpr hother, hsession, (hremains other).mpr ⟨hmem, ?_⟩,
      unanswered_ran_iff.mpr hopen⟩
    exact hholder other hmem ⟨depth, hsession.symm ▸ hlock⟩
  · exact (List.filter_sublist.map _).nodup hinv.sessions
  · intro other hother
    exact hinv.running other ((hremains other).mp hother).1
  · exact fun j other hother => hinv.leases j other ((howns j other).mp hother)
  · intro j k other hj hk
    exact hinv.owners j k other ((howns j other).mp hj) ((howns k other).mp hk)
  · refine ⟨fun _ => id, .of_eq rfl, fun other hother _ => ?_⟩
    have hne : other ≠ client := by
      rintro rfl
      exact hother ((h.mine other).mpr rfl)
    exact ⟨fun hnot hmem => hnot ((hremains other).mp hmem).1,
      fun hmem _ => (hremains other).mpr ⟨hmem, hne⟩, fun _ _ => Iff.rfl, fun _ _ _ => rfl⟩
  · intro other hother hmem
    exact ((hremains other).mp hmem).2 ((h.mine other).mp ((howns i other).mp hother))

/-- Nothing has happened to attempt `i` yet. -/
def Untouched (i : Nat) (w : GeoWorld Bytes) : Prop :=
  (∀ other, ¬ Owns i other w) ∧ w.Unanswered i

theorem stable_untouched : (contract format).Stable i (Untouched i : GeoWorld Bytes → Prop) := by
  intro w w' hrely _ _ h
  refine ⟨fun other howns => h.1 other ((owns_grows_iff hrely.grows).mp howns), ?_⟩
  intro request answer hmem
  exact h.2 request answer (hrely.grows.own_iff.mp hmem)

/-- An event that moves nothing. -/
theorem still_step {event : GeoEvent Bytes} (hinv : Inv format w)
    (howns : ∀ j other, Owns j other (w.record i event w.state) ↔ Owns j other w)
    (hopen : ∀ j other, Owns j other w → other ∈ w.state.clients → w.Unanswered j →
      (w.record i event w.state).Unanswered j) :
    Inv format (w.record i event w.state) ∧ Guar format i w (w.record i event w.state) := by
  constructor
  · refine ⟨hinv.kept, fun session depth hlock => ?_, hinv.sessions, hinv.running,
      fun j other hother => hinv.leases j other ((howns j other).mp hother),
      fun j k other hj hk => hinv.owners j k other ((howns j other).mp hj) ((howns k other).mp hk)⟩
    obtain ⟨hdepth, j, other, hother, hsession, hmem, hunanswered⟩ := hinv.lock session depth hlock
    exact ⟨hdepth, j, other, (howns j other).mpr hother, hsession, hmem,
      hopen j other hother hmem hunanswered⟩
  · exact ⟨fun _ => id, .refl w.state, fun other _ _ => .refl other w.state⟩

/-- What taking a connection out comes to. -/
theorem checkOut_cases (format : Format Bytes) (process : Process) (connection : Nat)
    (choice : Choice Bytes) (s : State Bytes) :
    exec format (.checkOut process connection) choice s = (none, s) ∨
      process ∉ s.stopped ∧ (process, connection) ∉ s.clients.map Client.session ∧
        exec format (.checkOut process connection) choice s =
          (some ⟨process, connection, s.leases⟩,
            { s with
              clients := ⟨process, connection, s.leases⟩ :: s.clients
              leases := s.leases + 1 }) := by
  apply guarded_cases (p := fun r => r = (none, s) ∨ _ ∧ _ ∧ r = _)
  · exact .inl rfl
  · intro hruns _
    unfold checkOut
    split
    next => exact .inl rfl
    next hfree => exact .inr ⟨hruns, hfree, rfl⟩

/-- A connection that is taken out belongs to one attempt, which does not hold the lock. -/
theorem taken_step {process : Process} {connection : Nat} (hinv : Inv format w) (h : Untouched i w)
    (hruns : process ∉ w.state.stopped)
    (hfree : (process, connection) ∉ w.state.clients.map Client.session) :
    let taken : Client := ⟨process, connection, w.state.leases⟩
    let w' := w.record i (.ran (.checkOut process connection) (some taken))
      { w.state with clients := taken :: w.state.clients, leases := w.state.leases + 1 }
    Inv format w' ∧ Guar format i w w' ∧ Using i taken (Idle taken) w' := by
  intro taken w'
  have howns : ∀ j other, Owns j other w' ↔ Owns j other w ∨ j = i ∧ other = taken := by
    intro j other
    constructor
    · rintro ⟨process', connection', hmem⟩
      rcases List.mem_cons.mp hmem with heq | hmem
      · cases heq
        exact .inr ⟨rfl, rfl⟩
      · exact .inl ⟨process', connection', hmem⟩
    · rintro (⟨process', connection', hmem⟩ | ⟨rfl, rfl⟩)
      · exact ⟨process', connection', List.mem_cons_of_mem _ hmem⟩
      · exact ⟨process, connection, List.mem_cons_self⟩
  -- its lease is a new one
  have hnew : ∀ other : Client, other.lease < w.state.leases → other ≠ taken := by
    rintro other hlt rfl
    exact absurd hlt (Nat.lt_irrefl _)
  have hmem' : ∀ other, other ∈ w'.state.clients ↔ other = taken ∨ other ∈ w.state.clients :=
    fun other => List.mem_cons
  have hidle : Idle taken w'.state := by
    rintro ⟨depth, hdepth⟩
    obtain ⟨_, j, other, _, hsession, hmem, _⟩ := hinv.lock _ depth hdepth
    exact hfree (List.mem_map.mpr ⟨other, hmem, hsession⟩)
  refine ⟨⟨⟨hinv.kept.installed, hinv.kept.readers, hinv.kept.named⟩, ?_, ?_, ?_, ?_, ?_⟩,
    ⟨fun _ => id, .of_eq rfl, ?_⟩, ?_, unanswered_ran_iff.mpr h.2,
    .inr ⟨(hmem' taken).mpr (.inl rfl), hidle⟩⟩
  · intro session depth hlock
    obtain ⟨hdepth, j, other, hother, hsession, hmem, hopen⟩ := hinv.lock session depth hlock
    exact ⟨hdepth, j, other, (howns j other).mpr (.inl hother), hsession,
      (hmem' other).mpr (.inr hmem), unanswered_ran_iff.mpr hopen⟩
  · exact List.nodup_cons.mpr ⟨hfree, hinv.sessions⟩
  · intro other hother
    rcases (hmem' other).mp hother with rfl | hmem
    · exact hruns
    · exact hinv.running other hmem
  · intro j other hother
    rcases (howns j other).mp hother with hold | ⟨_, rfl⟩
    · exact Nat.lt_succ_of_lt (hinv.leases j other hold)
    · exact Nat.lt_succ_self _
  · intro j k other hj hk
    rcases (howns j other).mp hj with hold | ⟨rfl, hother⟩
    · rcases (howns k other).mp hk with hold' | ⟨_, hother⟩
      · exact hinv.owners j k other hold hold'
      · exact absurd hother (hnew other (hinv.leases j other hold))
    · rcases (howns k other).mp hk with hold' | ⟨hk, _⟩
      · exact absurd hother (hnew other (hinv.leases k other hold'))
      · exact hk.symm
  · intro other _ hlease
    refine ⟨fun hnot hmem => ?_, fun hmem _ => (hmem' other).mpr (.inr hmem), fun _ _ => Iff.rfl,
      fun _ _ _ => rfl⟩
    rcases (hmem' other).mp hmem with heq | hold
    · exact hnew other hlease heq
    · exact hnot hold
  · intro other
    rw [howns]
    constructor
    · rintro (hold | ⟨_, hother⟩)
      · exact absurd hold (h.1 other)
      · exact hother
    · exact fun hother => .inr ⟨rfl, hother⟩

/-- An attempt gets a connection that nobody else has, and that does not hold the lock. -/
theorem triple_checkOut (process : Process) (connection : Nat) :
    (contract format).Triple i (Untouched i) (Prog.call (.checkOut process connection))
      fun result w => match result with
        | none => Untouched i w
        | some client => Using i client (Idle client) w := by
  apply triple_call _ stable_untouched
  intro w choice hinv h _
  have hperform : (service format).perform i (.checkOut process connection) choice w =
      w.record i (.ran (.checkOut process connection)
        (exec format (.checkOut process connection) choice w.state).1)
        (exec format (.checkOut process connection) choice w.state).2 := rfl
  have hresult : (service format).exec (.checkOut process connection) choice w.state =
      exec format (.checkOut process connection) choice w.state := rfl
  rw [hperform, hresult]
  rcases checkOut_cases format process connection choice w.state with
    hnone | ⟨hruns, hfree, hsome⟩
  · rw [hnone]
    have howns : ∀ j other, Owns j other (w.record i (.ran (.checkOut process connection) none)
        w.state) ↔ Owns j other w := by
      intro j other
      apply owns_record_iff
      intro process' connection' heq
      cases heq
    obtain ⟨hinv', hguar⟩ := still_step hinv howns fun j other _ _ => unanswered_ran_iff.mpr
    exact ⟨hinv', hguar, fun other hother => h.1 other ((howns i other).mp hother),
      unanswered_ran_iff.mpr h.2⟩
  · rw [hsome]
    exact taken_step hinv h hruns hfree

/-- The stop of an instance takes what it has in memory and in the database. -/
theorem triple_stop (process : Process) :
    (contract format).Triple i (Untouched i) (Prog.call (.stop process))
      fun _ => Untouched i := by
  apply triple_call _ stable_untouched
  intro w choice hinv h _
  have howns : ∀ j other, Owns j other ((service format).perform i (.stop process) choice w) ↔
      Owns j other w := fun _ _ => owns_ran_iff rfl
  have hremains : ∀ other, other ∈ w.state.clients.filter (·.process != process) ↔
      other ∈ w.state.clients ∧ other.process ≠ process := by
    intro other
    rw [List.mem_filter, bne_iff_ne]
  have hlock : ∀ session depth,
      w.state.lock.filter (·.1.1 != process) = some (session, depth) ↔
        w.state.lock = some (session, depth) ∧ session.1 ≠ process := by
    intro session depth
    rw [Option.filter_eq_some_iff, bne_iff_ne]
  refine ⟨⟨⟨hinv.kept.installed, fun other bytes hbytes => ?_, hinv.kept.named⟩,
    ?_, ?_, ?_, ?_, ?_⟩, ⟨fun other hother => ?_, .of_eq rfl, fun other hother _ => ?_⟩, ?_, ?_⟩
  · by_cases hother : other = process
    · subst hother
      exact absurd (hbytes.symm.trans (Function.update_self _ _ _)) (Option.some_ne_none bytes)
    · exact hinv.kept.readers other bytes (hbytes.symm.trans
        (Function.update_of_ne hother _ _)).symm
  · intro session depth hheld
    obtain ⟨hheld', hne⟩ := (hlock session depth).mp hheld
    obtain ⟨hdepth, j, other, hother, hsession, hmem, hopen⟩ := hinv.lock session depth hheld'
    refine ⟨hdepth, j, other, (howns j other).mpr hother, hsession,
      (hremains other).mpr ⟨hmem, ?_⟩, unanswered_ran_iff.mpr hopen⟩
    rw [← hsession] at hne
    exact hne
  · exact (List.filter_sublist.map _).nodup hinv.sessions
  · intro other hother hgone
    obtain ⟨hmem, hne⟩ := (hremains other).mp hother
    rcases List.mem_cons.mp hgone with heq | hgone
    · exact hne heq
    · exact hinv.running other hmem hgone
  · exact fun j other hother => hinv.leases j other ((howns j other).mp hother)
  · intro j k other hj hk
    exact hinv.owners j k other ((howns j other).mp hj) ((howns k other).mp hk)
  · exact List.mem_cons_of_mem _ hother
  · refine ⟨fun hnot hmem => hnot ((hremains other).mp hmem).1, fun hmem hruns => ?_,
      fun hmem hruns => ?_, fun _ _ _ => rfl⟩
    · refine (hremains other).mpr ⟨hmem, ?_⟩
      rintro rfl
      exact hruns List.mem_cons_self
    · apply exists_congr
      intro depth
      refine (hlock other.session depth).trans (and_iff_left ?_)
      intro heq
      exact hruns (heq ▸ List.mem_cons_self)
  · exact fun other hother => h.1 other ((howns i other).mp hother)
  · exact unanswered_ran_iff.mpr h.2

/-- An attempt that ends its work without the lock has no connection left when it returns. -/
theorem triple_withClient (process : Process) (connection : Nat) (unavailable : Answer)
    {body : Client → Handler Bytes Answer}
    (hbody : ∀ client, (contract format).Triple i (Using i client (Idle client)) (body client)
      fun _ => Using i client (Idle client)) :
    (contract format).Triple i (Untouched i) (withClient process connection unavailable body)
      fun _ => Without i := by
  apply triple_bind _ (triple_checkOut process connection)
  intro result
  cases result with
  | none =>
    apply triple_pure
    exact fun w _ h other hother => absurd hother (h.1 other)
  | some client =>
    apply triple_bind _ (hbody client)
    intro answer
    apply triple_bind _ triple_giveBack
    intro _
    exact triple_pure _ fun _ _ h => h

end Sessions

/-! ## The attempts -/

section Bodies

variable {i : Nat} {client : Client}

theorem names_not_part {result : Except GeoIpError UpdateOutcome} {name : String}
    (h : Names result name) : Text.endsWith name ".part" = false := by
  obtain ⟨variant, month, size, digest, _, rfl⟩ := h
  exact endsWith_fileName variant month

/-- What is known once the update has run and the lock has been released. -/
theorem triple_released (result : Except GeoIpError UpdateOutcome) :
    (contract format).Triple i (Using i client (Holding client (Result format result)))
      (Prog.call (.unlockDownload client))
      fun _ => Using i client (Installed format client (Names result)) :=
  triple_unlock (Result format result)

variable {w : GeoWorld Bytes}

theorem Using.idle {names : String → Prop} (h : Using i client (Installed format client names) w) :
    Using i client (Idle client) w :=
  h.mono fun _ hknown => hknown.1

theorem triple_record (variant : Variant) (month : String) (size : Int) (digest : String) :
    (contract format).Triple i
      (Using i client
        (Installed format client (Names (.ok (.installed variant month size digest)))))
      (Prog.call (.setInstalled client variant.asStr month (fileName variant month) size digest
        "download"))
      fun _ => Using i client (Idle client) :=
  triple_setInstalled variant.asStr month size digest "download"
    ⟨variant, month, size, digest, rfl, rfl⟩ fun _ => names_not_part

theorem triple_recordInstalledDatabase (variant : Variant) (month : String) (size : Int)
    (digest : String) :
    (contract format).Triple i
      (Using i client
        (Installed format client (Names (.ok (.installed variant month size digest)))))
      (recordInstalledDatabase client variant month size digest)
      fun _ => Using i client (Idle client) := by
  apply triple_bind _ (triple_record variant month size digest)
  intro recorded
  cases recorded with
  | error e => exact triple_pure _ fun _ _ h => h
  | ok row =>
    apply triple_bind _ (triple_asks_any rfl rfl rfl (fact_idle client))
    intro fresh
    cases fresh with
    | error e | ok fresh => exact triple_pure _ fun _ _ h => h

theorem triple_updateLocked (settings : Settings) (row : GeoipDatabase) :
    (contract format).Triple i (Using i client (Holding client fun _ => True))
      (updateLocked format client settings row) fun _ => Using i client (Idle client) := by
  apply triple_bind _ (triple_asks_any rfl rfl rfl (fact_holding client _))
  intro now
  apply triple_bind _ (triple_update _ _ _ now)
  intro result
  apply triple_bind _ (triple_released result)
  intro _
  cases result with
  | error e =>
    apply triple_weaken _ _ fun w _ h => h.idle
    apply triple_bind _ (triple_markError _ (fact_idle client))
    exact fun _ => triple_pure _ fun _ _ h => h
  | ok outcome =>
    cases outcome with
    | installed variant month size digest =>
      exact triple_recordInstalledDatabase variant month size digest
    | alreadyCurrent =>
      apply triple_weaken _ _ fun w _ h => h.idle
      apply triple_bind _ (triple_markChecked (fact_idle client))
      intro _
      apply triple_bind _ (triple_asks_any rfl rfl rfl (fact_idle client))
      intro fresh
      cases fresh with
      | error e | ok fresh => exact triple_pure _ fun _ _ h => h

variable {result : Except DbError Bool}

/-- What the answer to an attempt on the lock tells. -/
theorem Using.holds (h : Using i client (fun s =>
      (result = .ok true → Locked client s) ∧ (result ≠ .ok true → Idle client s)) w)
    (htrue : result = .ok true) : Using i client (Holding client fun _ => True) w :=
  h.mono fun _ hknown => ⟨hknown.1 htrue, trivial⟩

theorem Using.free (h : Using i client (fun s =>
      (result = .ok true → Locked client s) ∧ (result ≠ .ok true → Idle client s)) w)
    (hne : result ≠ .ok true) : Using i client (Idle client) w :=
  h.mono fun _ hknown => hknown.2 hne

theorem triple_updateGeoipDatabase :
    (contract format).Triple i (Using i client (Idle client))
      (updateGeoipDatabase format client) fun _ => Using i client (Idle client) := by
  apply triple_bind _ (triple_asks_any rfl rfl rfl (fact_idle client))
  intro settings
  apply triple_bind _ (triple_asks_any rfl rfl rfl (fact_idle client))
  intro row
  cases settings with
  | error e => exact triple_pure _ fun _ _ h => h
  | ok settings =>
    cases row with
    | error e => exact triple_pure _ fun _ _ h => h
    | ok row =>
      apply triple_bind _ triple_tryLock
      intro taken
      cases taken with
      | error e => exact triple_pure _ fun _ _ h => h.free (by simp)
      | ok taken =>
        cases taken with
        | false => exact triple_pure _ fun _ _ h => h.free (by simp)
        | true =>
          apply triple_weaken _ (triple_updateLocked settings row)
          exact fun _ _ h => h.holds rfl

/-- In a run that takes care the row is read under the lock. -/
theorem triple_get :
    (contract format).Triple i (Using i client (Holding client fun _ => True))
      (Prog.call (.get client)) fun result => Using i client fun s =>
        result.isOk = true ∧ Holding client (fun _ => True) s := by
  apply triple_asks rfl rfl rfl (fact_holding client _)
  exact fun s choice hruns hknown hcare => ⟨hcare hruns hknown.1, hknown⟩

theorem triple_refreshLocked (settings : Settings) :
    (contract format).Triple i (Using i client (Holding client fun _ => True))
      (refreshLocked format client settings) fun _ => Using i client (Idle client) := by
  apply triple_bind _ triple_get
  intro row
  cases row with
  | error e =>
    -- only an instance that has stopped does not read the row
    apply triple_pure
    exact fun w _ h => h.mono fun _ hknown => absurd hknown.1 Bool.false_ne_true
  | ok row =>
    apply triple_weaken _ _ fun w _ h => h.mono fun _ hknown => hknown.2
    apply triple_bind _ (triple_asks_any rfl rfl rfl (fact_holding client _))
    intro now
    apply triple_bind _ (triple_update _ _ _ now)
    intro result
    apply triple_bind _ (triple_released result)
    intro _
    cases result with
    | error e =>
      apply triple_weaken _ _ fun w _ h => h.idle
      apply triple_bind _ (triple_markError _ (fact_idle client))
      exact fun _ => triple_pure _ fun _ _ h => h
    | ok outcome =>
      cases outcome with
      | installed variant month size digest =>
        apply triple_bind _ (triple_record variant month size digest)
        intro recorded
        cases recorded with
        | error e | ok row => exact triple_pure _ fun _ _ h => h
      | alreadyCurrent =>
        apply triple_weaken _ _ fun w _ h => h.idle
        apply triple_bind _ (triple_markChecked (fact_idle client))
        intro checked
        cases checked with
        | error e | ok _ => exact triple_pure _ fun _ _ h => h

theorem triple_geoipRefreshOnce :
    (contract format).Triple i (Using i client (Idle client))
      (geoipRefreshOnce format client) fun _ => Using i client (Idle client) := by
  apply triple_bind _ (triple_asks_any rfl rfl rfl (fact_idle client))
  intro settings
  cases settings with
  | error e => exact triple_pure _ fun _ _ h => h
  | ok settings =>
    apply triple_bind _ (triple_setEnabled _ (fact_idle client))
    intro _
    apply triple_ite
    · exact triple_pure _ fun _ _ h => h
    · apply triple_bind _ triple_tryLock
      intro taken
      cases taken with
      | error e => exact triple_pure _ fun _ _ h => h.free (by simp)
      | ok taken =>
        cases taken with
        | false => exact triple_pure _ fun _ _ h => h.free (by simp)
        | true =>
          apply triple_weaken _ (triple_refreshLocked settings)
          exact fun _ _ h => h.holds rfl

theorem triple_initGeoip :
    (contract format).Triple i (Using i client (Idle client)) (initGeoip client)
      fun _ => Using i client (Idle client) := by
  apply triple_bind _ (triple_asks_any rfl rfl rfl (fact_idle client))
  intro settings
  cases settings with
  | error e => exact triple_pure _ fun _ _ h => h
  | ok settings =>
    apply triple_bind _ (triple_setEnabled _ (fact_idle client))
    intro _
    apply triple_bind _ (triple_asks_any rfl rfl rfl (fact_idle client))
    intro row
    cases row with
    | error e => exact triple_pure _ fun _ _ h => h
    | ok row =>
      dsimp only
      cases row.filePath with
      | none => exact triple_pure _ fun _ _ h => h
      | some name =>
        apply triple_bind _ (triple_load name (fact_idle client))
        exact fun _ => triple_pure _ fun _ _ h => h

end Bodies

/-- Every attempt keeps the contract, from the moment its request arrives. -/
theorem starts : (contract format).Starts := by
  intro i request w hinv hfresh _
  have hopen : ∀ j, w.Unanswered j → (w.record i (.began request) w.state).Unanswered j := by
    intro j h request' answer hmem
    rcases List.mem_cons.mp hmem with heq | hmem
    · exact absurd (Prod.mk.inj heq).2 (by simp)
    · exact h request' answer hmem
  have howns : ∀ j other, Owns j other (w.record i (.began request) w.state) ↔ Owns j other w :=
    fun j other => owns_record_iff fun process connection heq => by cases heq
  obtain ⟨hinv', hguar⟩ := still_step hinv howns fun j other _ _ => hopen j
  refine ⟨hinv', hguar, ?_⟩
  have huntouched : Untouched i (w.record i (.began request) w.state) := by
    constructor
    · rintro other hother
      obtain ⟨process, connection, hmem⟩ := (howns i other).mp hother
      exact hfresh _ hmem rfl
    · exact hopen i fun request' answer hmem => hfresh _ hmem rfl
  have hdone : ∀ answer : Answer, (contract format).Meets i request (Without i) (.done answer) := by
    intro answer
    apply Contract.Meets.done _ stable_without
    intro w' hinv'' hwithout _
    apply still_step hinv''
    · exact fun j other => owns_record_iff fun process connection heq => by cases heq
    · intro j other hother hmem hunanswered request' answer' hlog
      rcases List.mem_cons.mp hlog with heq | hlog
      · obtain rfl := (Prod.mk.inj heq).1
        exact hwithout other hother hmem
      · exact hunanswered request' answer' hlog
  have htriple : (contract format).Triple i (Untouched i) (handler format request)
      fun _ => Without i := by
    cases request with
    | update process connection =>
      exact triple_withClient process connection _ fun client => triple_updateGeoipDatabase
    | refresh process connection =>
      exact triple_withClient process connection _ fun client => triple_geoipRefreshOnce
    | init process connection =>
      exact triple_withClient process connection _ fun client => triple_initGeoip
    | stop process =>
      apply triple_bind _ (triple_stop process)
      intro _
      exact triple_pure _ fun w _ h other hother => absurd hother (h.1 other)
  exact Contract.Triple.meets _ htriple hdone _ hinv' huntouched

end IntelliPilot.Geolocation
