import IntelliPilot.TimeTracking.Report
import Mathlib.Data.List.Dedup
import Mathlib.Data.List.MinMax

/-! # Who is out today

The badge on a user's card, the availability view of a project and `is_absence`.
The badge takes every kind but `work`, so that a meeting marks a user as out. The
order of the view's rows is left out.
-/

namespace IntelliPilot.TimeTracking.Absences

structure User where
  id : Uuid
  username : String
  fullName : String
  deriving DecidableEq

structure Membership where
  projectId : Uuid
  userId : Uuid
  deriving DecidableEq

/-- The columns of `time_entries` that the two queries read. -/
structure Entry where
  userId : Uuid
  kind : EntryKind
  entryDate : Date
  minutes : Int
  bookingId : Option Uuid
  createdAt : Nat
  deriving DecidableEq

structure Tables where
  users : List User
  memberships : List Membership
  entries : List Entry
  /-- The foreign key of the memberships. -/
  member_user : ∀ m ∈ memberships, ∃ u ∈ users, u.id = m.userId

structure OutToday where
  kind : EntryKind
  startDate : Date
  endDate : Date
  deriving DecidableEq

structure Availability where
  userId : Uuid
  username : String
  fullName : String
  kind : EntryKind
  minutes : Int
  deriving DecidableEq

variable (db : Tables)

/-- The entries among which the badge looks for the one created first. -/
def outEntries (userId : Uuid) (today : Date) : List Entry :=
  db.entries.filter fun te =>
    te.userId == userId && te.kind.asStr != "work" && te.entryDate == today

/-- `out_today_join`, with the range of the booking the entry belongs to. -/
def outToday (userId : Uuid) (today : Date) : Option OutToday :=
  ((outEntries db userId today).argmin (·.createdAt)).map fun te =>
    let days := (db.entries.filter fun b => te.bookingId.isSome && b.bookingId == te.bookingId).map
      (·.entryDate)
    ⟨te.kind, days.min?.getD te.entryDate, days.max?.getD te.entryDate⟩

def availability (projectId : Uuid) (date : Date) : List Availability :=
  (db.memberships.flatMap fun m => db.users.flatMap fun u => db.entries.filterMap fun te =>
    if u.id = m.userId ∧ te.userId = m.userId ∧ m.projectId = projectId ∧ te.entryDate = date ∧
        te.kind.asStr ∉ ["work", "meeting"] then
      some ⟨u.id, u.username, u.fullName, te.kind, te.minutes⟩
    else none).dedup

/-- The user has an absence on the day. -/
def Absent (userId : Uuid) (day : Date) : Prop :=
  ∃ te ∈ db.entries, te.userId = userId ∧ te.entryDate = day ∧ te.kind.isAbsence = true

/-- The three say the same of a member. -/
structure Agree (projectId userId : Uuid) (day : Date) : Prop where
  views : (outToday db userId day).isSome = true ↔
    ∃ row ∈ availability db projectId day, row.userId = userId
  badge : (outToday db userId day).isSome = true ↔ Absent db userId day
  view : (∃ row ∈ availability db projectId day, row.userId = userId) ↔ Absent db userId day

variable {db}

theorem isAbsence_iff (kind : EntryKind) :
    kind.isAbsence = true ↔ kind.asStr ∉ ["work", "meeting"] := by
  cases kind <;> decide

theorem outToday_isSome_iff {userId : Uuid} {day : Date} :
    (outToday db userId day).isSome = true ↔
      ∃ te ∈ db.entries, te.userId = userId ∧ te.entryDate = day ∧
        (te.kind.isAbsence = true ∨ te.kind = .meeting) := by
  have hkind : ∀ kind : EntryKind,
      kind.asStr ≠ "work" ↔ kind.isAbsence = true ∨ kind = .meeting := by
    intro kind
    cases kind <;> decide
  have hsome : (outToday db userId day).isSome = true ↔ ∃ te, te ∈ outEntries db userId day := by
    rw [outToday, Option.isSome_map, Option.isSome_iff_ne_none, ne_eq, List.argmin_eq_none]
    exact ⟨List.exists_mem_of_ne_nil _, fun ⟨te, hte⟩ => List.ne_nil_of_mem hte⟩
  rw [hsome]
  simp only [outEntries, List.mem_filter, Bool.and_eq_true, beq_iff_eq, bne_iff_ne, hkind]
  exact exists_congr fun te => and_congr_right fun _ =>
    ⟨fun h => ⟨h.1.1, h.2, h.1.2⟩, fun h => ⟨⟨h.1, h.2.2⟩, h.2.1⟩⟩

theorem availability_iff {projectId userId : Uuid} {day : Date}
    (hmember : ⟨projectId, userId⟩ ∈ db.memberships) :
    (∃ row ∈ availability db projectId day, row.userId = userId) ↔ Absent db userId day := by
  simp only [availability, List.mem_dedup, List.mem_flatMap, List.mem_filterMap,
    Option.ite_none_right_eq_some, Option.some.injEq, ← isAbsence_iff]
  constructor
  · rintro ⟨_, ⟨m, -, u, -, te, hte, ⟨hu, huser, -, hday, habsence⟩, rfl⟩, rfl⟩
    exact ⟨te, hte, huser.trans hu.symm, hday, habsence⟩
  · rintro ⟨te, hte, huser, hday, habsence⟩
    obtain ⟨u, hu, huserId⟩ := db.member_user _ hmember
    exact ⟨_, ⟨_, hmember, u, hu, te, hte, ⟨huserId, huser, rfl, hday, habsence⟩, rfl⟩, huserId⟩

/-- The views agree on a member exactly on days without a meeting or with an absence. -/
theorem agree_iff {projectId userId : Uuid} (hmember : ⟨projectId, userId⟩ ∈ db.memberships)
    (day : Date) : Agree db projectId userId day ↔
      (∀ te ∈ db.entries, te.userId = userId → te.entryDate = day → te.kind ≠ .meeting) ∨
        Absent db userId day := by
  have hview : (∃ row ∈ availability db projectId day, row.userId = userId) ↔
      Absent db userId day := availability_iff hmember
  constructor
  · intro h
    by_cases habsent : Absent db userId day
    · exact Or.inr habsent
    · left
      intro te hte huser hday hmeeting
      have hout := outToday_isSome_iff.mpr ⟨te, hte, huser, hday, Or.inr hmeeting⟩
      exact habsent (h.badge.mp hout)
  · intro h
    have hbadge : (outToday db userId day).isSome = true ↔ Absent db userId day := by
      rw [outToday_isSome_iff]
      constructor
      · rintro ⟨te, hte, huser, hday, habsence | hmeeting⟩
        · exact ⟨te, hte, huser, hday, habsence⟩
        · exact h.resolve_left fun hnone => hnone te hte huser hday hmeeting
      · rintro ⟨te, hte, huser, hday, habsence⟩
        exact ⟨te, hte, huser, hday, Or.inl habsence⟩
    exact ⟨hbadge.trans hview.symm, hbadge, hview⟩

/-- One member with one entry. -/
def single (kind : EntryKind) : Tables where
  users := [⟨7, "ann", "Ann"⟩]
  memberships := [⟨1, 7⟩]
  entries := [⟨7, kind, 20000, 480, none, 0⟩]
  member_user := by simp

theorem meeting_marked_out : ¬Agree (single .meeting) 1 7 20000 := by
  intro h
  exact absurd (h.views.mp (by decide)) (by decide)

theorem agree_iff_vacation : Agree (single .vacation) 1 7 20000 ↔
    (∀ te ∈ (single .vacation).entries, te.userId = 7 → te.entryDate = 20000 →
      te.kind ≠ .meeting) ∨ Absent (single .vacation) 7 20000 :=
  agree_iff (by decide) 20000

end IntelliPilot.TimeTracking.Absences
