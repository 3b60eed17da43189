import PatchManager.Agent.Client
import PatchManager.Conc.Schedule
import PatchManager.Core.Models

/-! # The health of a host

The two functions of the worker that write `hosts.health_status`: `health_poller.rs`, which asks
every host in cycles, and `refresh_listener.rs`, which asks one on demand.  The world is what they
read and write of one host's row, and a record of how the attempts to reach the agent have ended.
The other statements carry the host's id, so they leave this row alone.
-/

namespace PatchManager.Health

open PatchManager.Conc

/-- What a poll cycle selects of a row and uses. -/
structure HostRow where
  crlStatus : Option String := none
  registeredAt : Time
  consecutiveFailures : Int32 := 0
deriving DecidableEq

structure Host extends HostRow where
  healthStatus : HostHealthStatus := .pending
deriving DecidableEq

/-- `FAILURE_THRESHOLD`. -/
def failureThreshold : Int32 := 3

/-! ## Operations -/

inductive Op where
  | loadAgentCerts
  /-- the query of a poll cycle -/
  | selectHosts
  /-- the query of a refresh -/
  | selectHost
  /-- `AgentClient::new` -/
  | newClient
  /-- `GET /health`; of the data, the status of the revocation list -/
  | health
  | utcNow
  | insertHealthData (status : HostHealthStatus)
  | updateHost (status : HostHealthStatus) (crlStatus : Option String) (consecutiveFailures : Int32)
  | updateHealthStatus (status : HostHealthStatus)

@[reducible] def Op.Resp : Op → Type
  | .selectHosts => Option HostRow
  | .health => Except AgentClientError (Option String)
  | .utcNow => Time
  | .loadAgentCerts | .selectHost | .newClient | .insertHealthData _ | .updateHost _ _ _
  | .updateHealthStatus _ => Bool

inductive Fn where
  | pollCycle
  | refresh
deriving DecidableEq

abbrev Proc := Prog Op Op.Resp Fn

def perform (o : Op) : Proc o.Resp := Prog.perform o

/-! ## The poller -/

/-- The new count of failures, wrapped around at `i32`, and the adjusted status. -/
def applyHysteresis (natural effective : HostHealthStatus) (current : Int32) : Int32 × HostHealthStatus :=
  let failures :=
    match natural with
    | .healthy => 0
    | .unreachable => current + 1
    | _ => current
  let adjusted :=
    if failures ≥ failureThreshold then effective
    else if natural = .unreachable ∧ effective = .unreachable then .degraded
    else effective
  (failures, adjusted)

def applyCrlHealthRules (natural : HostHealthStatus) (crlStatus : Option String) (registeredAt : Time) :
    Proc HostHealthStatus :=
  match crlStatus with
  | none => return natural
  | some crl =>
    if crl = "invalid" then return .unreachable
    else if crl = "expired" then return if natural = .healthy then .degraded else natural
    else if crl = "missing" then do
      let now ← perform .utcNow
      let age := now - registeredAt
      return if age > microsPerDay ∧ natural = .healthy then .degraded else natural
    else return natural

def pollHostHealth (host : HostRow) : Proc HostHealthStatus := do
  let (natural, crlStatus) ← (do
    if ← perform .newClient then
      match ← perform .health with
      | .ok crlStatus => return (.healthy, crlStatus)
      | .error .timeout => return (.unreachable, none)
      | .error (.connect _) => return (.unreachable, none)
      | .error _ => return (.degraded, none)
    else return (.unreachable, none) : Proc (HostHealthStatus × Option String))
  let effective ← applyCrlHealthRules natural crlStatus host.registeredAt
  let (failures, status) := applyHysteresis natural effective host.consecutiveFailures
  -- an error is logged, here and of the update
  let _ ← perform (.insertHealthData natural)
  let _ ← perform (.updateHost status crlStatus failures)
  return status

/-- One turn of `run_health_poller`. -/
def pollCycle : Proc Unit := do
  if ← perform .loadAgentCerts then
    match ← perform .selectHosts with
    | some host =>
      let _ ← pollHostHealth host
      return ()
    | none => return ()
  else return ()

/-! ## The refresh listener -/

def persistHealth (status : HostHealthStatus) : Proc Unit := do
  let _ ← perform (.insertHealthData status)
  let _ ← perform (.updateHealthStatus status)
  return ()

/-- Up to the collection of patch data, which leaves the status alone. -/
def refreshHost : Proc Unit := do
  if ← perform .newClient then
    let status ← (do
      match ← perform .health with
      | .ok _ => return .healthy
      | .error .timeout => return .unreachable
      | .error (.connect _) => return .unreachable
      | .error _ => return .degraded : Proc HostHealthStatus)
    persistHealth status
  else persistHealth .unreachable

/-- What `listen_loop` does for a notification with the host's id. -/
def refresh : Proc Unit := do
  if ← perform .selectHost then
    if ← perform .loadAgentCerts then refreshHost else return ()
  else return ()

/-! ## The world -/

/-- How an attempt to reach the agent has ended. -/
inductive Contact where
  /-- there is no client, no connection, or no answer in time -/
  | failed
  /-- the agent answers with an error, or with something else than health data -/
  | errored
  /-- the agent answers, with the status of its revocation list unless it is an older agent -/
  | answered (crlStatus : Option String)
deriving DecidableEq

def Contact.ofHealth : Except AgentClientError (Option String) → Contact
  | .ok crlStatus => .answered crlStatus
  | .error .timeout | .error (.connect _) => .failed
  | .error _ => .errored

/-- The attempt that an operation and its answer bring to an end. -/
def contact? : (o : Op) → o.Resp → Option Contact
  | .newClient, false => some .failed
  | .health, reply => some (.ofHealth reply)
  | _, _ => none

structure World where
  host : Host
  /-- the attempts so far, the last one first; no function reads them -/
  contacts : List Contact := []
  now : Time
deriving DecidableEq

/-- What the surroundings say to an operation. -/
inductive Answer where
  | ok
  | fails
  | reply (r : Except AgentClientError (Option String))

/-- The row after an operation.  `COALESCE` keeps the status of the list where there is no new one. -/
def Host.after (host : Host) : (o : Op) → o.Resp → Host
  | .updateHost status crlStatus failures, true =>
    { host with
      healthStatus := status, crlStatus := crlStatus.or host.crlStatus, consecutiveFailures := failures }
  | .updateHealthStatus status, true => { host with healthStatus := status }
  | _, _ => host

def World.after (w : World) (o : Op) (r : o.Resp) : World :=
  { w with host := w.host.after o r, contacts := (contact? o r).toList ++ w.contacts }

/-- The answer of an operation. -/
def answer (w : World) : (o : Op) → Answer → Option o.Resp
  | .selectHosts, .ok => some (some w.host.toHostRow)
  | .selectHosts, .fails => some none
  | .health, .reply r => some r
  | .utcNow, .ok => some w.now
  | .loadAgentCerts, .ok | .selectHost, .ok | .newClient, .ok | .insertHealthData _, .ok
  | .updateHost _ _ _, .ok | .updateHealthStatus _, .ok => some true
  | .loadAgentCerts, .fails | .selectHost, .fails | .newClient, .fails | .insertHealthData _, .fails
  | .updateHost _ _ _, .fails | .updateHealthStatus _, .fails => some false
  | _, _ => none

def execute (w : World) (o : Op) (a : Answer) : Option (o.Resp × World) :=
  (answer w o a).map fun r => (r, w.after o r)

def body : Fn → Proc Unit
  | .pollCycle => pollCycle
  | .refresh => refresh

abbrev State := Sys World Op Op.Resp Fn

abbrev History := List (Event World Op Op.Resp Fn)

def isDone (t : Task Op Op.Resp Fn) : Bool :=
  match t.prog with
  | .ret _ => true
  | _ => false

/-- The next cycle begins when the one before is over. -/
def canEnter (s : State) : Fn → Bool
  | .pollCycle => s.tasks.all fun t => t.root != .pollCycle || isDone t
  | .refresh => true

/-- Every task can end at any point, and with the process all of them do. -/
def worker : Machine World Op Op.Resp Fn where
  body := body
  exec w o r w' := ∃ a, execute w o a = some (r, w')
  enter s f w := canEnter s f = true ∧ w = s.world
  drift w w' := ∃ passed : Nat, w' = { w with now := w.now + passed }
  restart w := w
  perishes _ := true
  abandons _ := true

def player : Player worker where
  Answer := Answer
  Change := Nat
  execute := execute
  call s f := if canEnter s f then some s.world else none
  change w passed := { w with now := w.now + passed }
  execute_sound {_ _ a _ _} executed := ⟨a, executed⟩
  call_sound {s f _} called := by
    by_cases entry : canEnter s f = true
    · simp only [entry, if_true, Option.some.injEq] at called
      exact ⟨entry, called.symm⟩
    · simp [entry] at called
  change_sound _ passed := ⟨passed, rfl⟩

theorem exec_iff {w w' : World} {o : Op} {r : o.Resp} :
    worker.exec w o r w' ↔ (∃ a, answer w o a = some r) ∧ w' = w.after o r := by
  constructor
  · rintro ⟨a, executed⟩
    obtain ⟨_, answered, eq⟩ := Option.map_eq_some_iff.mp executed
    cases eq
    exact ⟨⟨a, answered⟩, rfl⟩
  · rintro ⟨⟨a, answered⟩, rfl⟩
    exact ⟨a, by simp [execute, answered]⟩

theorem isDone_eq_true {t : Task Op Op.Resp Fn} : isDone t = true ↔ t.prog = .ret () := by
  unfold isDone
  split
  · rename_i eq
    simp [eq]
  · rename_i running
    simpa using running ()

end PatchManager.Health
