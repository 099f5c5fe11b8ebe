import IntelliPilot.Geolocation.Attempts

/-! # A working database

A run in which no clean-up takes the file that the row names, and in which the lock is
always let go of, never costs the database. Other runs do: the superseded file is gone
before the row names the new one.
-/

namespace IntelliPilot.Geolocation

open Statement
open Service (initial)

variable {Bytes : Type} {format : Format Bytes}

/-- What a step comes to where its instance runs and nothing fails. -/
theorem guarded_done {α : Type} {process : Process} {choice : Choice Bytes} {s : State Bytes}
    {failed : α} {done : α × State Bytes} (hruns : process ∉ s.stopped) (hok : choice.ok = true) :
    guarded process choice s failed done = done := by
  rw [guarded, if_neg]
  rintro (hgone | hfailed)
  · exact hruns hgone
  · rw [hok] at hfailed
    contradiction

/-- Loading a valid file puts it into use. -/
theorem ends_load {process : Process} {name : String} {bytes : Bytes} {s : State Bytes}
    (hruns : process ∉ s.stopped) (hbytes : s.files name = some bytes)
    (hvalid : format.Valid bytes) :
    (load process name).Ends (exec format) (fun choice => choice.ok = true)
      (fun _ s' => s'.readers process = some bytes) s := by
  obtain ⟨nodes, hnodes, hsome⟩ := hvalid
  have hopen : openFile format name s = .ok (bytes, nodes) := by
    unfold openFile
    simp only [hbytes, hnodes]
  rw [load, orFail, Prog.ends_bind, Prog.ends_call]
  intro choice hok
  have hexec : exec format (.openReadfile process name) choice s = (.ok (bytes, nodes), s) :=
    (guarded_done hruns hok).trans (by rw [hopen])
  rw [hexec]
  dsimp only
  rw [if_neg hsome, Prog.ends_call]
  intro choice' hok'
  have hset : exec format (.setReader process bytes) choice' s =
      (.ok (), { s with readers := Function.update s.readers process (some bytes) }) :=
    guarded_done hruns hok'
  rw [hset]
  exact Function.update_self _ _ _

/-- A start of the server reads the file that the row names. -/
theorem restores_of_kept {s : State Bytes} (hkept : Kept format s) : Restores format s := by
  intro name client hname hruns choices hok
  obtain ⟨bytes, hbytes, hvalid⟩ := hkept.installed name hname
  refine ⟨bytes, hvalid, ?_⟩
  have hends : (initGeoip client).Ends (exec format) (fun choice => choice.ok = true)
      (fun _ s' => s'.readers client.process = some bytes) s := by
    rw [initGeoip, Prog.ends_bind, Prog.ends_call]
    intro choice hchoice
    have hsettings : exec format (.getSettings client) choice s = (.ok choice.settings, s) :=
      guarded_done hruns hchoice
    rw [hsettings]
    dsimp only
    rw [Prog.ends_bind, Prog.ends_call]
    intro choice' _
    have henabled : exec format (.setEnabled client.process choice.settings.geoipEnabled) choice'
        s = ((), setFlag client.process choice.settings.geoipEnabled s) := rfl
    rw [henabled, setFlag, if_neg hruns, Prog.ends_bind, Prog.ends_call]
    intro choice'' hchoice''
    have hget : exec format (.get client) choice'' { s with
        enabled := Function.update s.enabled client.process choice.settings.geoipEnabled } =
        (.ok s.row, { s with
          enabled := Function.update s.enabled client.process choice.settings.geoipEnabled }) :=
      guarded_done hruns hchoice''
    rw [hget]
    dsimp only
    rw [hname]
    dsimp only
    rw [Prog.ends_bind]
    exact (ends_load (s := { s with
      enabled := Function.update s.enabled client.process choice.settings.geoipEnabled })
      hruns hbytes hvalid).mono fun _ _ h => h
  exact hends.alone hok

/-- What the contract keeps is what an update must not cost. -/
theorem safe_of_inv {w : GeoWorld Bytes} (hinv : Inv format w) : Safe format w where
  installed := hinv.kept.installed
  restores := restores_of_kept hinv.kept
  readers := hinv.kept.readers
  lock := by
    intro session depth hlock
    obtain ⟨_, i, client, howns, hsession, _, hopen⟩ := hinv.lock session depth hlock
    exact ⟨i, client, howns, hsession, hopen⟩

theorem inv_fresh (files : String → Option Bytes) :
    Inv format (⟨State.fresh files, []⟩ : GeoWorld Bytes) where
  kept := by
    constructor
    · intro name hname
      cases hname
    · intro process bytes hbytes
      cases hbytes
    · intro name hname
      cases hname
  lock session depth hlock := by cases hlock
  sessions := List.nodup_nil
  running _ h := absurd h List.not_mem_nil
  leases i client h := by
    obtain ⟨_, _, hmem⟩ := h
    exact absurd hmem List.not_mem_nil
  owners i j client h := by
    obtain ⟨_, _, hmem⟩ := h
    exact absurd hmem List.not_mem_nil

namespace Months

/-- Files are numbers here, of as many nodes. -/
def counted : Format Nat := ⟨fun bytes => .ok bytes, fun bytes => bytes, fun _ => "digest"⟩

def name (month : Nat) : String := fileName .country (monthLabel 2024 month)

/-- A step in the given month, where it is done. -/
def during (month : Nat) : Choice Nat where
  ok := true
  settings := ⟨true, true, "country"⟩
  year := 2024
  month := month
  now := month
  fetched := .ok month
  entries := [name 1, name 2]
  left := none

/-- The first `n` steps of a request of an admin. -/
def update (i month n : Nat) : List (Label Request (Choice Nat)) :=
  .start (.update i 0) :: List.replicate n (.run i (during month))

/-- A month is installed and recorded, and the attempt has been answered. -/
def first : List (Label Request (Choice Nat)) := update 0 1 18

/-- The next month is installed, and its instance stops before it is recorded. -/
def stopped : List (Label Request (Choice Nat)) :=
  first ++ update 1 2 14 ++ [.start (.stop 1), .run 2 (during 2)]

/-- Two months, each recorded; the directory cannot be listed for the second one. -/
def recorded : List (Label Request (Choice Nat)) :=
  first ++ update 1 2 12 ++ .run 1 { during 2 with ok := false } ::
    List.replicate 5 (.run 1 (during 2))

def lockedTest (client : Client) (s : State Nat) : Bool := s.lock.any (·.1 == client.session)

theorem lockedTest_of_locked {client : Client} {s : State Nat} (h : Locked client s) :
    lockedTest client s = true := by
  obtain ⟨depth, hdepth⟩ := h
  simp [lockedTest, hdepth]

def carefulTest : {β : Type} → Stmt Nat β → β → State Nat → Bool
  | _, .removeFile _ name, _, s => s.row.filePath != some name
  | _, .setInstalled _ _ _ filePath _ _ _, _, s => (s.files filePath).isSome
  | _, .get client, result, s => !lockedTest client s || result.isOk
  | _, .unlockDownload _, result, _ => result.isOk
  | _, _, _, _ => true

theorem careful_of_test {β : Type} {stmt : Stmt Nat β} {result : β} {s : State Nat}
    (h : carefulTest stmt result s = true) : CarefulStep stmt result s := by
  cases stmt with
  | removeFile process name => exact fun _ => by simpa [carefulTest] using h
  | setInstalled client variant month path size digest source => exact fun _ => h
  | get client =>
    intro _ hlocked
    simpa [carefulTest, lockedTest_of_locked hlocked] using h
  | unlockDownload client => exact fun _ => h
  | _ => trivial

def careTest (w w' : GeoWorld Nat) : Bool :=
  match w'.log with
  | (_, .ran stmt result) :: _ => carefulTest stmt result w.state
  | _ => true

theorem takesCare_of_test (i : Nat) (w w' : GeoWorld Nat) (htest : careTest w w' = true) :
    TakesCare i w w' := by
  intro β stmt result hlog
  rw [careTest, hlog] at htest
  exact careful_of_test htest

end Months

end IntelliPilot.Geolocation
