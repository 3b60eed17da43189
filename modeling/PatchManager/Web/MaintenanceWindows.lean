import PatchManager.Db.Types
import PatchManager.Web.Headers

/-! # The route that creates maintenance windows

`create_window` of `maintenance_windows.rs`, from the checks of the request to the row it
returns.  The label of a window is left out, as in the row.
-/

namespace PatchManager

structure CreateMaintenanceWindowRequest where
  recurrence : WindowRecurrence
  startAt : Time
  durationMinutes : Option Int
  recurrenceDay : Option Int
  enabled : Option Bool
  autoApply : Option Bool
  autoReboot : Option Bool
  rebootDelayMinutes : Option Int

/-- The answers of the database to the handler; `none` is a failed query. -/
structure WindowQueries where
  /-- whether the host exists -/
  hostExists : Option Bool
  /-- the id of the row inserted -/
  inserted : Option Uuid

/-- The check of `recurrence_day` for one recurrence. -/
def requireDay (kind recurrence : WindowRecurrence) (day : Option Int) (first last : Int)
    (message : String) : Except ApiError Unit :=
  if recurrence = kind then
    match day with
    | some d => if first ≤ d ∧ d ≤ last then .ok () else .error ⟨400, "bad_request", message⟩
    | none => .error ⟨400, "bad_request", message⟩
  else .ok ()

/-- The checks of the request, in the order of the handler. -/
def validateWindow (auth : AuthUser) (req : CreateMaintenanceWindowRequest) : Except ApiError Unit :=
  if !auth.role.canWrite then .error ⟨403, "forbidden", "Write access required"⟩
  else do
    requireDay .weekly req.recurrence req.recurrenceDay 0 6
      "Weekly recurrence requires recurrence_day 0-6 (0=Sunday)"
    requireDay .monthly req.recurrence req.recurrenceDay 1 31
      "Monthly recurrence requires recurrence_day 1-31"

/-- `create_window`. -/
def createWindow (auth : AuthUser) (hostId : Uuid) (req : CreateMaintenanceWindowRequest)
    (db : WindowQueries) : Except ApiError MaintenanceWindow := do
  validateWindow auth req
  match db.hostExists with
  | none => .error .database
  | some false => .error ⟨404, "not_found", "Host not found"⟩
  | some true =>
    match db.inserted with
    | none => .error .database
    | some id =>
      return {
        id
        hostId
        recurrence := req.recurrence
        startAt := req.startAt
        durationMinutes := req.durationMinutes.getD 60
        recurrenceDay := req.recurrenceDay
        enabled := req.enabled.getD true
        autoApply := req.autoApply.getD true
        autoReboot := req.autoReboot.getD true
        rebootDelayMinutes := req.rebootDelayMinutes.getD 0 }

/-- The day of a weekly window is a day of the week, that of a monthly one a day of a month. -/
structure MaintenanceWindow.DayFits (w : MaintenanceWindow) : Prop where
  weekly : w.recurrence = .weekly → ∃ d, w.recurrenceDay = some d ∧ 0 ≤ d ∧ d ≤ 6
  monthly : w.recurrence = .monthly → ∃ d, w.recurrenceDay = some d ∧ 1 ≤ d ∧ d ≤ 31

theorem requireDay_ok {kind recurrence : WindowRecurrence} {day : Option Int} {first last : Int}
    {message : String} (ok : requireDay kind recurrence day first last message = .ok ())
    (same : recurrence = kind) : ∃ d, day = some d ∧ first ≤ d ∧ d ≤ last := by
  simp only [requireDay, same, if_true] at ok
  cases day with
  | none => cases ok
  | some d =>
    by_cases inside : first ≤ d ∧ d ≤ last
    · exact ⟨d, rfl, inside⟩
    · simp [inside] at ok

theorem validateWindow_ok {auth : AuthUser} {req : CreateMaintenanceWindowRequest}
    (ok : validateWindow auth req = .ok ()) :
    (req.recurrence = .weekly → ∃ d, req.recurrenceDay = some d ∧ 0 ≤ d ∧ d ≤ 6) ∧
      (req.recurrence = .monthly → ∃ d, req.recurrenceDay = some d ∧ 1 ≤ d ∧ d ≤ 31) := by
  unfold validateWindow at ok
  split at ok
  · cases ok
  · cases weekly : requireDay .weekly req.recurrence req.recurrenceDay 0 6
      "Weekly recurrence requires recurrence_day 0-6 (0=Sunday)" with
    | error e => rw [weekly] at ok; cases ok
    | ok =>
      rw [weekly] at ok
      exact ⟨requireDay_ok weekly, requireDay_ok ok⟩

/-- A window is created only with a day that fits its recurrence. -/
theorem createWindow_dayFits {auth : AuthUser} {hostId : Uuid}
    {req : CreateMaintenanceWindowRequest} {db : WindowQueries} {w : MaintenanceWindow}
    (created : createWindow auth hostId req db = .ok w) : w.DayFits := by
  unfold createWindow at created
  cases valid : validateWindow auth req with
  | error e => rw [valid] at created; cases created
  | ok =>
    simp only [valid, bind, Except.bind] at created
    split at created
    · cases created
    · cases created
    · split at created
      · cases created
      · cases created
        exact ⟨(validateWindow_ok valid).1, (validateWindow_ok valid).2⟩

end PatchManager
