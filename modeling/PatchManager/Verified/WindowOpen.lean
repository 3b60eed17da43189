import PatchManager.Db.Window

/-! # The open-window predicate against its purpose

A window is open at `t` when some occurrence of it has begun and not yet ended.  The SQL
predicate agrees with that at every instant exactly for one-time windows, for windows that
end before midnight, and for windows whose day never comes.
-/

namespace PatchManager

open PatchManager.Calendar

namespace MaintenanceWindow

variable (w : MaintenanceWindow)

/-- The days a recurring window starts on, by day number. -/
def OnDay (day : Int) : Prop :=
  match w.recurrence with
  | .once | .daily => True
  | .weekly => w.recurrenceDay = some (dayOfWeek day)
  | .monthly => w.recurrenceDay = some (civilOfDays day).day

/-- The instants an occurrence of the window starts at. -/
def Occurs (start : Time) : Prop :=
  match w.recurrence with
  | .once => start = w.startAt
  | _ => timeOfDay start = timeOfDay w.startAt ∧ w.OnDay (dayNumber start)

/-- Some occurrence covers `t`. -/
def OpenAt (t : Time) : Prop := ∃ start, w.Occurs start ∧ start ≤ t ∧ t < start + w.duration

/-- The recurrence day is missing, or no day of the week or month has this number. -/
def NeverOccurs : Prop :=
  match w.recurrence with
  | .once | .daily => False
  | .weekly => ∀ d, w.recurrenceDay = some d → d < 0 ∨ 6 < d
  | .monthly => ∀ d, w.recurrenceDay = some d → d < 1 ∨ 31 < d

variable {w}

theorem microsPerDay_pos : 0 < microsPerDay := by decide

theorem timeOfDay_bounds (t : Time) : 0 ≤ timeOfDay t ∧ timeOfDay t < microsPerDay :=
  ⟨Int.emod_nonneg t (by decide), Int.emod_lt_of_pos t microsPerDay_pos⟩

/-- The predicate of a recurring window is the offset test of its slot. -/
theorem slotOpen_iff (recurring : w.recurrence ≠ .once) (t : Time) :
    w.slotOpen t = true ↔
      SlotWrapped microsPerDay (timeOfDay w.startAt) w.duration w.OnDay t := by
  have daily : w.inDailySlot t = true ↔ timeOfDay w.startAt ≤ t % microsPerDay ∧
      t % microsPerDay < (timeOfDay w.startAt + w.duration) % microsPerDay := by
    simp [inDailySlot, timeOfDay, addToTimeOfDay]
  unfold slotOpen SlotWrapped OnDay
  cases kind : w.recurrence with
  | once => exact absurd kind recurring
  | daily => simpa using daily
  | weekly => simp [daily, extractDow, dayNumber]
  | monthly => simp [daily, extractDay, dayNumber]

/-- A recurring window is open at `t` when its slot covers `t`. -/
theorem openAt_iff (recurring : w.recurrence ≠ .once) (t : Time) :
    w.OpenAt t ↔ InSlot microsPerDay (timeOfDay w.startAt) w.duration w.OnDay t := by
  unfold OpenAt InSlot Occurs
  cases kind : w.recurrence with
  | once => exact absurd kind recurring
  | _ => simp only [timeOfDay, dayNumber, and_assoc]

theorem never_onDay (recurring : w.recurrence ≠ .once) :
    (∀ day, ¬ w.OnDay day) ↔ w.NeverOccurs := by
  unfold OnDay NeverOccurs
  cases kind : w.recurrence with
  | once => exact absurd kind recurring
  | daily => simp
  | weekly =>
    constructor
    · intro never d eq
      by_contra inside
      obtain ⟨day, rfl⟩ := exists_day_of_week (d := d) (by omega) (by omega)
      exact never day eq
    · intro outside day eq
      have bounds := dayOfWeek_bounds day
      have := outside _ eq
      omega
  | monthly =>
    constructor
    · intro never d eq
      by_contra inside
      obtain ⟨day, rfl⟩ := exists_day_of_month (d := d) (by omega) (by omega)
      exact never day eq
    · intro outside day eq
      have bounds := civilOfDays_day_bounds day
      have := outside _ eq
      omega

end MaintenanceWindow

open MaintenanceWindow

/-- The predicate is right at every instant exactly for a one-time window, a window that
    ends before midnight, and a window that never occurs. -/
theorem windowOpen_correct_iff (w : MaintenanceWindow) (enabled : w.enabled = true)
    (lasts : 1 ≤ w.durationMinutes) :
    (∀ t, w.windowOpen t = true ↔ w.OpenAt t) ↔
      w.recurrence = .once ∨ timeOfDay w.startAt + w.duration < microsPerDay ∨
        w.NeverOccurs := by
  have slot : ∀ t, w.windowOpen t = w.slotOpen t := fun t => by simp [windowOpen, enabled]
  simp only [slot]
  by_cases once : w.recurrence = .once
  · simp [once, OpenAt, Occurs, slotOpen]
  · have bounds := timeOfDay_bounds w.startAt
    have duration : 0 ≤ w.duration := Int.mul_nonneg (by omega) (by decide)
    simp only [slotOpen_iff once, openAt_iff once, once, false_or, ← never_onDay once]
    exact slotWrapped_iff microsPerDay_pos bounds.1 bounds.2 duration

/-- Every day from 23:00 for two hours. -/
def overMidnight : MaintenanceWindow :=
  { id := 1, hostId := 100, recurrence := .daily, startAt := 23 * 60 * microsPerMinute,
    durationMinutes := 120 }

theorem windowOpen_correct_iff_overMidnight :
    (∀ t, overMidnight.windowOpen t = true ↔ overMidnight.OpenAt t) ↔
      overMidnight.recurrence = .once ∨
        timeOfDay overMidnight.startAt + overMidnight.duration < microsPerDay ∨
          overMidnight.NeverOccurs :=
  windowOpen_correct_iff overMidnight rfl (by decide)

/-- At 23:30 the window over midnight is open, and the predicate says it is not. -/
theorem windowOpen_misses_midnight :
    ¬ ∀ w : MaintenanceWindow, w.enabled = true → 1 ≤ w.durationMinutes →
      ∀ t, w.windowOpen t = true ↔ w.OpenAt t := by
  intro all
  have inside : overMidnight.OpenAt (23 * 60 * microsPerMinute + 30 * microsPerMinute) :=
    ⟨23 * 60 * microsPerMinute, ⟨rfl, trivial⟩, by decide, by decide⟩
  have seen := (all overMidnight rfl (by decide) _).mpr inside
  revert seen
  decide

end PatchManager
