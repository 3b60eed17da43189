import PatchManager.Db.Types

/-! # The open-window predicate

The SQL condition that decides whether a maintenance window is open at `NOW()`.  The
same text stands in the scanner, in the health gate of the executor and in both queries
of the maintenance scheduler.
-/

namespace PatchManager

open PatchManager.Calendar

/-- `(t AT TIME ZONE 'UTC')::time`, microseconds since midnight. -/
def timeOfDay (t : Time) : Int := t % microsPerDay

/-- The day number of `t AT TIME ZONE 'UTC'`. -/
def dayNumber (t : Time) : Int := t / microsPerDay

/-- `time + interval`: the SQL type `time` has no date, so the sum wraps at midnight. -/
def addToTimeOfDay (tod interval : Int) : Int := (tod + interval) % microsPerDay

/-- `EXTRACT(DOW FROM t AT TIME ZONE 'UTC')`, 0 for Sunday. -/
def extractDow (t : Time) : Int := dayOfWeek (dayNumber t)

/-- `EXTRACT(DAY FROM t AT TIME ZONE 'UTC')`. -/
def extractDay (t : Time) : Int := (civilOfDays (dayNumber t)).day

namespace MaintenanceWindow

variable (w : MaintenanceWindow)

/-- `duration_minutes * INTERVAL '1 minute'`. -/
def duration : Int := w.durationMinutes * microsPerMinute

/-- The two time-of-day comparisons of a recurring window. -/
def inDailySlot (now : Time) : Bool :=
  timeOfDay now ≥ timeOfDay w.startAt &&
    timeOfDay now < addToTimeOfDay (timeOfDay w.startAt) w.duration

/-- The four branches over `recurrence`.  Comparing with a `recurrence_day` that is NULL
    is not true. -/
def slotOpen (now : Time) : Bool :=
  match w.recurrence with
  | .once => w.startAt ≤ now && now < w.startAt + w.duration
  | .daily => w.inDailySlot now
  | .weekly => w.recurrenceDay == some (extractDow now) && w.inDailySlot now
  | .monthly => w.recurrenceDay == some (extractDay now) && w.inDailySlot now

/-- `mw.enabled = TRUE AND (..)`. -/
def windowOpen (now : Time) : Bool := w.enabled && w.slotOpen now

end MaintenanceWindow

/-- `EXISTS (SELECT 1 FROM maintenance_windows mw WHERE mw.host_id = $1 AND ..)`. -/
def Db.hostWindowOpen (db : Db) (hostId : Uuid) : Bool :=
  db.maintenanceWindows.any fun w => w.hostId == hostId && w.windowOpen db.now

end PatchManager
