import IntelliPilot.Docs.Edit

/-! # What a failed edit leaves on the branch

The reference is moved to the new commit before the push, and the rollback asks
the same loaded reference to move it back. A reference is written only while it
has on disk the target it was loaded with, so after the first move the second
one cannot succeed.
-/

namespace IntelliPilot.Docs

section Rollback

variable {Oid Tree : Type} (git : Git Oid Tree)
  (c : Circumstances) (refs : Refs Oid) (req : EditRequest)

theorem of_lift_ok {α : Type} {result : Except Git2Error α} {a : α}
    (h : lift git result = .ok a) : result = .ok a := by
  cases result with
  | error e => simp [lift, Except.mapError] at h
  | ok value => simpa [lift, Except.mapError] using h

/-- An edit that was committed was committed on the branch as it stood. -/
theorem prepare_committed {reference : Reference Oid} {old commit blob : Oid}
    (h : prepare git c refs req = .ok (.committed reference old commit blob)) :
    reference.name = req.refname ∧ refs req.refname = some reference.target ∧
      git.peelToCommit refs reference.target = .ok old ∧
      ∃ sig tree, git.commit sig req.message tree old = .ok commit := by
  unfold prepare at h
  simp only [bind, Except.bind, pure, Except.pure, throw, throwThe, MonadExceptOf.throw] at h
  -- every other way through ends with an error or without a commit
  repeat' split at h
  all_goals try cases h
  exact ⟨rfl, ‹_›, of_lift_ok git ‹_›, _, _, of_lift_ok git ‹_›⟩

variable [DecidableEq Oid]

/-- The second move of a loaded reference fails: what is on disk is no longer
what was loaded. -/
theorem rollback_moved {reference : Reference Oid} {new : Oid} (old : Oid)
    (hmoved : refs reference.name = some (.direct new)) (hnew : reference.target ≠ .direct new) :
    rollback c refs reference old = refs := by
  cases htarget : reference.target with
  | symbolic name => simp [rollback, Reference.setTarget, htarget]
  | direct loaded =>
    have hdiffers : ¬ refs reference.name = some (.direct loaded) := by
      rw [hmoved]
      intro heq
      exact hnew (htarget.trans (Option.some.inj heq).symm)
    simp [rollback, Reference.setTarget, htarget, hdiffers]

/-- The move of a loaded reference, by what is on disk. -/
theorem setTarget_cases (reference : Reference Oid) (oid : Oid) (failure : Option Git2Error)
    (hloaded : refs reference.name = some reference.target) :
    (∃ e, reference.setTarget oid failure refs = (.error e, refs)) ∧
        ((∃ name, reference.target = .symbolic name) ∨ failure ≠ none) ∨
      reference.setTarget oid failure refs = (.ok ⟨reference.name, .direct oid⟩,
          Function.update refs reference.name (some (.direct oid))) ∧
        (∃ old, reference.target = .direct old) ∧ failure = none := by
  cases htarget : reference.target with
  | symbolic name =>
    refine .inl ⟨⟨?_, ?_⟩, .inl ⟨name, rfl⟩⟩
    · exact ⟨false, .other, "cannot set OID on symbolic reference"⟩
    · simp [Reference.setTarget, htarget]
  | direct old =>
    have hdisk : refs reference.name = some (.direct old) := by rw [hloaded, htarget]
    cases failure with
    | some e =>
      exact .inl ⟨⟨e, by simp [Reference.setTarget, htarget, hdisk]⟩, .inr (by simp)⟩
    | none =>
      exact .inr ⟨by simp [Reference.setTarget, htarget, hdisk], ⟨old, rfl⟩, rfl⟩

/-- The push of this edit would go wrong after the branch was moved. -/
def LosesPush : Prop :=
  ∃ reference old commit blob,
    prepare git c refs req = .ok (.committed reference old commit blob) ∧
      (∃ target, reference.target = .direct target) ∧ c.lockFails = none ∧
      ((∃ e, c.push = .error e) ∨ c.rejection ≠ none)

/-- The reference an edit that is not pushed leaves behind is the one it found,
unless the push fails after the move. New objects are addressed by their
content: no commit is the object its own parent was reached through. -/
theorem edit_restores_iff
    (hfresh : ∀ target parent sig message tree new, git.peelToCommit refs target = .ok parent →
      git.commit sig message tree parent = .ok new → target ≠ .direct new) :
    ((∀ commit blob, (editBlocking git c refs req).1 ≠ .ok (.pushed commit blob)) →
        (editBlocking git c refs req).2 req.refname = refs req.refname) ↔
      ¬ LosesPush git c refs req := by
  unfold editBlocking
  cases hprepared : prepare git c refs req with
  | error e => simp [LosesPush, hprepared]
  | ok prepared =>
    cases prepared with
    | committed reference old commit blob =>
      obtain ⟨hname, hloaded, hparent, sig, tree, hcommit⟩ :=
        prepare_committed git c refs req hprepared
      have hnew := hfresh _ _ _ _ _ _ hparent hcommit
      rcases setTarget_cases refs reference commit c.lockFails (hname ▸ hloaded) with
        ⟨⟨e, hmove⟩, hblocked⟩ | ⟨hmove, ⟨target, htarget⟩, hlock⟩
      · have hholds : ¬ LosesPush git c refs req := by
          rintro ⟨_, _, _, _, hcommitted, ⟨target, htarget⟩, hlock, -⟩
          rw [hprepared] at hcommitted
          cases hcommitted
          rcases hblocked with ⟨name, hsymbolic⟩ | hfails
          · rw [hsymbolic] at htarget
            cases htarget
          · exact hfails hlock
        simp [hmove, hholds]
      · rw [hlock] at hmove
        have hmoved := rollback_moved c _ old
          (Function.update_self reference.name (some (RefTarget.direct commit)) refs) hnew
        rw [hname] at hmove hmoved
        have hchanged : some (RefTarget.direct commit) ≠ refs req.refname := by
          rw [hloaded]
          exact fun h => hnew (Option.some.inj h).symm
        cases hpush : c.push <;> cases hrejection : c.rejection <;>
          simp [finishPush, LosesPush, hprepared, hmove, hlock, htarget, hpush, hrejection, hmoved,
            hchanged]
    | _ => simp [LosesPush, hprepared]

end Rollback

/-! ## A rejected push -/

/-- Objects addressed by their content, with every file at the root. -/
inductive SampleOid where
  | blob (content : Bytes)
  | tree (files : List (String × Bytes))
  | root
  | commit (files : List (String × Bytes)) (message : String) (parent : SampleOid)
  deriving DecidableEq, Repr

def SampleOid.files : SampleOid → List (String × Bytes)
  | .tree files => files
  | .commit files _ _ => files
  | _ => []

def sampleGit : Git SampleOid (List (String × Bytes)) where
  toLowercase s := String.ofList (s.toList.map Char.toLower)
  oidText oid := reprStr oid
  peelToCommit
    | _, .direct .root => .ok .root
    | _, .direct (.commit files message parent) => .ok (.commit files message parent)
    | _, _ => .error ⟨false, .other, "the reference does not peel to a commit"⟩
  commitTree oid := .ok oid.files
  getPath files path := (files.lookup path).map fun content => ⟨.blob content, modeBlob⟩
  subtree _ _ := none
  blob content := .ok (.blob content)
  buildTree
    | base, name, .blob content, _ => .ok (.tree ((name, content) :: base.getD []))
    | _, _, _, _ => .error ⟨false, .other, "not a file"⟩
  findTree oid := .ok oid.files
  signature name email := .ok ⟨name, email⟩
  commit _ message files parent := .ok (.commit files message parent)

/-- A branch with nothing on it yet. -/
def sampleRefs : Refs SampleOid := fun name =>
  if name = "refs/heads/main" then some (.direct .root) else none

def sampleEdit : EditRequest where
  branch := "main"
  repoPath := "intro.md"
  content := [104, 105]
  expectedBlobOid := none
  authorName := "Ada"
  authorEmail := "ada@example.com"
  message := "Add the introduction"

theorem SampleOid.ne_commit (parent : SampleOid) (files : List (String × Bytes))
    (message : String) : parent ≠ .commit files message parent := by
  induction parent generalizing files message with
  | commit _ _ _ ih =>
    intro h
    obtain ⟨rfl, rfl, hparent⟩ := SampleOid.commit.inj h
    exact ih _ _ hparent
  | _ => simp

theorem sampleGit_fresh (target : RefTarget SampleOid) (parent : SampleOid) (sig : Signature)
    (message : String) (tree : List (String × Bytes)) (new : SampleOid)
    (hparent : sampleGit.peelToCommit sampleRefs target = .ok parent)
    (hnew : sampleGit.commit sig message tree parent = .ok new) : target ≠ .direct new := by
  have htarget : target = .direct parent := by
    cases target with
    | symbolic name => simp [sampleGit] at hparent
    | direct oid => cases oid <;> simp [sampleGit] at hparent <;> simp [← hparent]
  have hcommit : new = .commit tree message parent := by simpa [sampleGit] using hnew.symm
  rw [htarget, hcommit]
  intro h
  exact parent.ne_commit tree message (RefTarget.direct.inj h)

theorem edit_restores_sample :
    ((∀ commit blob,
        (editBlocking sampleGit {} sampleRefs sampleEdit).1 ≠ .ok (.pushed commit blob)) →
      (editBlocking sampleGit {} sampleRefs sampleEdit).2 sampleEdit.refname =
        sampleRefs sampleEdit.refname) ↔ ¬ LosesPush sampleGit {} sampleRefs sampleEdit :=
  edit_restores_iff sampleGit {} sampleRefs sampleEdit sampleGit_fresh

/-- A push the remote refuses leaves the refused commit on the branch. -/
theorem rejected_push_stays :
    ¬ ((∀ commit blob,
        (editBlocking sampleGit { rejection := some "pre-receive hook declined" }
          sampleRefs sampleEdit).1 ≠ .ok (.pushed commit blob)) →
      (editBlocking sampleGit { rejection := some "pre-receive hook declined" }
          sampleRefs sampleEdit).2 sampleEdit.refname = sampleRefs sampleEdit.refname) := by
  have hmoved : (editBlocking sampleGit { rejection := some "pre-receive hook declined" }
      sampleRefs sampleEdit).2 sampleEdit.refname =
        some (.direct (.commit [("intro.md", [104, 105])] "Add the introduction" .root)) := by
    decide +kernel
  have hrejected : (editBlocking sampleGit { rejection := some "pre-receive hook declined" }
      sampleRefs sampleEdit).1 = .ok (.rejected "pre-receive hook declined") := by
    rfl
  intro h
  have hkept := h fun commit blob hpushed => by
    rw [hrejected] at hpushed
    cases hpushed
  rw [hmoved] at hkept
  exact absurd hkept (by decide +kernel)

end IntelliPilot.Docs
