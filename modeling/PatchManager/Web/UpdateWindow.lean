import PatchManager.Conc.Serve
import PatchManager.Sql.Table
import PatchManager.Web.MaintenanceWindows

/-! # The route that updates maintenance windows

`update_window` reads the row, puts the fields of the request in their places, checks the day, and
writes all columns back.  Between the two statements others can write.

`windows` is the service: updates in parallel, one statement at a time, and besides them windows
that are created or deleted.  Audit entries and the time of the last update are left out.
-/

namespace PatchManager.Windows

open PatchManager.Conc

/-- A row of `maintenance_windows` with its label. -/
structure Window extends MaintenanceWindow where
  label : String

structure UpdateMaintenanceWindowRequest where
  label : Option String := none
  recurrence : Option WindowRecurrence := none
  startAt : Option Time := none
  durationMinutes : Option Int := none
  recurrenceDay : Option Int := none
  enabled : Option Bool := none
  autoApply : Option Bool := none
  autoReboot : Option Bool := none
  rebootDelayMinutes : Option Int := none

/-- The row with the fields of the request, where it has them. -/
def UpdateMaintenanceWindowRequest.onto (req : UpdateMaintenanceWindowRequest) (existing : Window) : Window where
  id := existing.id
  hostId := existing.hostId
  label := req.label.getD existing.label
  recurrence := req.recurrence.getD existing.recurrence
  startAt := req.startAt.getD existing.startAt
  durationMinutes := req.durationMinutes.getD existing.durationMinutes
  recurrenceDay := req.recurrenceDay.or existing.recurrenceDay
  enabled := req.enabled.getD existing.enabled
  autoApply := req.autoApply.getD existing.autoApply
  autoReboot := req.autoReboot.getD existing.autoReboot
  rebootDelayMinutes := req.rebootDelayMinutes.getD existing.rebootDelayMinutes

/-- The checks of `recurrence_day` for the final recurrence. -/
def checkDay (w : Window) : Except ApiError Unit := do
  requireDay .weekly w.recurrence w.recurrenceDay 0 6 "Weekly recurrence requires recurrence_day 0-6"
  requireDay .monthly w.recurrence w.recurrenceDay 1 31 "Monthly recurrence requires recurrence_day 1-31"

/-- The row that is written, if its day is one of its recurrence. -/
def merged (req : UpdateMaintenanceWindowRequest) (existing : Window) : Except ApiError Window :=
  (checkDay (req.onto existing)).map fun _ => req.onto existing

inductive Op where
  | selectWindow (winId hostId : Uuid)
  | updateWindow (winId hostId : Uuid) (new : Window)

@[reducible] def Op.Resp : Op → Type
  | .selectWindow _ _ => Except String (Option Window)
  | .updateWindow _ _ _ => Except String Window

inductive Fn where
  | updateWindow (auth : AuthUser) (hostId winId : Uuid) (req : UpdateMaintenanceWindowRequest)

abbrev Proc := Prog Op Op.Resp Fn

def perform (o : Op) : Proc o.Resp := Prog.perform o

/-- A statement, where a failure is an error of the database. -/
def orDatabase {α : Type} (p : Proc (Except String α)) : Proc (Except ApiError α) :=
  p.bind fun r => .ret (r.mapError fun _ => .database)

def updateWindow (auth : AuthUser) (hostId winId : Uuid) (req : UpdateMaintenanceWindowRequest) :
    Proc (Except ApiError Window) :=
  if !auth.role.canWrite then .ret (.error ⟨403, "forbidden", "Write access required"⟩)
  else (orDatabase (perform (.selectWindow winId hostId))).attempt fun
    | none => .ret (.error ⟨404, "not_found", "Maintenance window not found"⟩)
    | some existing =>
      match merged req existing with
      | .error e => .ret (.error e)
      | .ok new => orDatabase (perform (.updateWindow winId hostId new))

/-! ## The service -/

abbrev World := List Window

inductive Answer where
  | ok
  | failed (reason : String)

inductive Change where
  /-- a window is created, from what the handler is asked and what the database tells it -/
  | created (auth : AuthUser) (hostId : Uuid) (label : String) (req : CreateMaintenanceWindowRequest) (db : WindowQueries)
  | deleted (id : Uuid)

def isAt (winId hostId : Uuid) (w : Window) : Bool := w.id == winId && w.hostId == hostId

/-- All columns but the keys. -/
def write (winId hostId : Uuid) (new : Window) : Sql.Update Window where
  cond := isAt winId hostId
  assign row := { new with id := row.id, hostId := row.hostId }

def execute (w : World) : (o : Op) → Answer → Option (o.Resp × World)
  | .selectWindow winId hostId, .ok => some (.ok (w.find? (isAt winId hostId)), w)
  | .selectWindow _ _, .failed reason => some (.error reason, w)
  | .updateWindow winId hostId new, .ok =>
    let after := (write winId hostId new).apply w
    some (((after.find? (isAt winId hostId)).elim (.error "no rows returned") .ok), after)
  | .updateWindow _ _ _, .failed reason => some (.error reason, w)

def change (w : World) : Change → World
  | .created auth hostId label req db =>
    match createWindow auth hostId req db with
    | .error _ => w
    | .ok row => if w.any (·.id == row.id) then w else { row with label } :: w
  | .deleted id => w.filter (·.id != id)

def body : Fn → Proc Unit
  | .updateWindow auth hostId winId req => do
    let _ ← updateWindow auth hostId winId req

def windows : Service World Op Op.Resp Fn where
  body := body
  Answer := Answer
  Change := Change
  execute := execute
  change := change
  isEntry _ := true
  restart := id
  perishes _ := true

end PatchManager.Windows
