import PatchManager.Calendar.Months
import PatchManager.Calendar.Stepping
import PatchManager.Db.Types

/-! # The maintenance calendar page

`expandWindow` of `MaintenanceCalendarPage.tsx` and the date ranges the page calls it with.

A date of the page is a number of milliseconds since the epoch, without bounds, and the page is
viewed in UTC: the getters and setters of `Date` below are those of the language at offset zero.
-/

namespace PatchManager.CalendarPage

open PatchManager.Calendar

def msPerMinute : Int := 60000
def msPerHour : Int := 3600000
def msPerDay : Int := 86400000

/-- `new Date(text)`: the text of a timestamp is read to the millisecond. -/
def dateOfTime (t : Time) : Int := t / 1000

/-- `Day(t)` and `TimeWithinDay(t)` of the language. -/
def day (d : Int) : Int := d / msPerDay
def timeWithinDay (d : Int) : Int := d % msPerDay

def getFullYear (d : Int) : Int := (civilOfDays (day d)).year
/-- January is `0`. -/
def getMonth (d : Int) : Int := (civilOfDays (day d)).month - 1
def getDate (d : Int) : Int := (civilOfDays (day d)).day
def getDay (d : Int) : Int := dayOfWeek (day d)
def getHours (d : Int) : Int := timeWithinDay d / msPerHour
def getMinutes (d : Int) : Int := timeWithinDay d / msPerMinute % 60

/-- `MakeDay`: months and days beyond their ranges carry over. -/
def makeDay (year month date : Int) : Int := firstOfMonth (12 * year + month) + (date - 1)

def makeTime (hours minutes seconds ms : Int) : Int :=
  hours * msPerHour + minutes * msPerMinute + seconds * 1000 + ms

def makeDate (day time : Int) : Int := day * msPerDay + time

/-- `new Date(year, ..)` takes a year from 0 to 99 for one of the twentieth century. -/
def makeFullYear (year : Int) : Int := if 0 ≤ year ∧ year ≤ 99 then 1900 + year else year

/-- `new Date(year, month, date, hours, minutes, 0, 0)`. -/
def newDate (year month date : Int) (hours minutes : Int := 0) : Int :=
  makeDate (makeDay (makeFullYear year) month date) (makeTime hours minutes 0 0)

def setHours (d : Int) (hours minutes seconds ms : Int) : Int :=
  makeDate (day d) (makeTime hours minutes seconds ms)

def setDate (d : Int) (date : Int) : Int :=
  makeDate (makeDay (getFullYear d) (getMonth d) date) (timeWithinDay d)

def setMonth (d : Int) (month : Int) : Int :=
  makeDate (makeDay (getFullYear d) month (getDate d)) (timeWithinDay d)

/-! ## The helpers of the page -/

def startOfDay (d : Int) : Int := setHours d 0 0 0 0

def endOfDay (d : Int) : Int := setHours d 23 59 59 999

def startOfWeek (d : Int) : Int :=
  let r := startOfDay d
  setDate r (getDate r - getDay r)

def startOfMonth (d : Int) : Int := setDate (startOfDay d) 1

def addDays (d : Int) (n : Int) : Int := setDate d (getDate d + n)

def addMonths (d : Int) (n : Int) : Int := setMonth d (getMonth d + n)

inductive CalendarView where
  | month
  | week
  | day
deriving DecidableEq

/-- The range the page shows around its current date. -/
def visibleRange (view : CalendarView) (currentDate : Int) : Int × Int :=
  match view with
  | .month =>
    let gs := startOfWeek (startOfMonth currentDate)
    (gs, endOfDay (addDays gs 42))
  | .week =>
    let ws := startOfWeek currentDate
    (ws, endOfDay (addDays ws 6))
  | .day => (startOfDay currentDate, endOfDay currentDate)

/-- A date put together from its own month. -/
theorem makeDay_self (d : Int) (months n : Int) :
    makeDay (getFullYear d) (getMonth d + months) n
      = firstOfMonth (monthNumber (day d) + months) + (n - 1) := by
  simp only [makeDay, getFullYear, getMonth, monthNumber, ← Int.add_assoc]

/-- Adding days is adding their length. -/
theorem addDays_eq (d : Int) (n : Int) : addDays d n = d + n * msPerDay := by
  have date := firstOfMonth_monthNumber (day d)
  have own : makeDay (getFullYear d) (getMonth d) (getDate d + n) = day d + n := by
    have month := makeDay_self d 0 (getDate d + n)
    rw [Int.add_zero, Int.add_zero] at month
    rw [month, getDate]
    omega
  simp only [addDays, setDate, own, makeDate, day, timeWithinDay, msPerDay]
  omega

theorem addDays_rises {n : Int} (pos : 0 < n) (d : Int) : d < addDays d n := by
  rw [addDays_eq]
  simp only [msPerDay]
  omega

theorem addMonths_rises (d : Int) : d < addMonths d 1 := by
  have date := firstOfMonth_monthNumber (day d)
  have later := firstOfMonth_strictMono (show monthNumber (day d) < monthNumber (day d) + 1 by omega)
  simp only [addMonths, setMonth, makeDay_self, getDate, makeDate]
  simp only [day, timeWithinDay, msPerDay] at *
  omega

/-! ## Recurrence expansion -/

structure CalendarEvent where
  windowId : Uuid
  hostId : Uuid
  start : Int
  /-- `end` -/
  finish : Int
  recurrence : WindowRecurrence
  autoApply : Bool
  autoReboot : Bool
  rebootDelayMinutes : Int
  enabled : Bool
  durationMinutes : Int

def makeEvent (w : MaintenanceWindow) (start : Int) : CalendarEvent where
  windowId := w.id
  hostId := w.hostId
  start := start
  finish := start + w.durationMinutes * 60000
  recurrence := w.recurrence
  autoApply := w.autoApply
  autoReboot := w.autoReboot
  rebootDelayMinutes := w.rebootDelayMinutes
  enabled := w.enabled
  durationMinutes := w.durationMinutes

/-- `while (cursor.getDay() !== targetDow) cursor = addDays(cursor, 1)`, tried on `n` days. -/
def seekDow (targetDow : Int) : Nat → Int → Option Int
  | 0, _ => none
  | n + 1, cursor =>
    if getDay cursor = targetDow then some cursor else seekDow targetDow n (addDays cursor 1)

/-- `none` where a loop does not end: a day of the week that is not found within a week is not
    found at all. -/
def expandWindow (w : MaintenanceWindow) (rangeStart rangeEnd : Int) : Option (List CalendarEvent) :=
  let baseStart := dateOfTime w.startAt
  match w.recurrence with
  | .once =>
    some (if rangeStart ≤ baseStart ∧ baseStart ≤ rangeEnd then [makeEvent w baseStart] else [])
  | .daily =>
    let cursor := advance (addDays · 1) (addDays_rises (by decide)) rangeStart baseStart
    some ((visited (addDays · 1) (addDays_rises (by decide)) rangeEnd cursor).map (makeEvent w))
  | .weekly =>
    let targetDow := w.recurrenceDay.getD (getDay baseStart)
    match seekDow targetDow 7 (startOfDay rangeStart) with
    | none => none
    | some cursor =>
      some ((visited (addDays · 7) (addDays_rises (by decide)) rangeEnd cursor).filterMap fun cursor =>
        let occurrence := setHours cursor (getHours baseStart) (getMinutes baseStart) 0 0
        if rangeStart ≤ occurrence then some (makeEvent w occurrence) else none)
  | .monthly =>
    let targetDay := w.recurrenceDay.getD (getDate baseStart)
    let cursor := newDate (getFullYear rangeStart) (getMonth rangeStart) 1
    some ((visited (addMonths · 1) addMonths_rises rangeEnd cursor).filterMap fun cursor =>
      let daysInMonth := getDate (newDate (getFullYear cursor) (getMonth cursor + 1) 0)
      let day := min targetDay daysInMonth
      let occurrence := newDate (getFullYear cursor) (getMonth cursor) day
        (getHours baseStart) (getMinutes baseStart)
      if rangeStart ≤ occurrence ∧ occurrence ≤ rangeEnd then some (makeEvent w occurrence)
      else none)

end PatchManager.CalendarPage
