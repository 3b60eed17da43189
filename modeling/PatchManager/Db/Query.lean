import PatchManager.Db.Window

/-! # Queries

Every `SELECT` of the job engine, as a value with its parameters.  `Query.Result` is the
type its rows are decoded to and `Query.eval` what it returns on a database; `eval` gives
`none` where the rows cannot be decoded to that type, which the caller sees as an error.
-/

namespace PatchManager

/-! ## Row types -/

structure HostRow where
  ipAddress : String
  agentPort : Int

structure JobInfo where
  kind : JobKind
  patchSelection : Json
  allowReboot : Bool
  rebootDelaySeconds : Int

structure PatchJobHostQueued where
  id : Uuid
  hostId : Uuid
  jobId : Uuid

structure PatchJobHostRunning where
  id : Uuid
  agentJobId : String
  jobId : Uuid
  hostId : Uuid
  ipAddress : String
  agentPort : Int
  jobKind : JobKind

structure PatchJobHostPending where
  id : Uuid
  hostId : Uuid
  jobId : Uuid

structure RetryRow where
  jobId : Uuid
  retryCount : Int
  status : JobStatus

structure StatusCounts where
  runningCount : Nat
  pendingCount : Nat
  queuedCount : Nat
  succeededCount : Nat
  failedCount : Nat
  cancelledCount : Nat
  waitingHealthCheckCount : Nat
  totalCount : Nat
deriving DecidableEq, Repr

structure RollupCounts where
  total : Nat
  succeeded : Nat
  failed : Nat
deriving DecidableEq, Repr

/-- `agent_job_id` is decoded as a `Uuid` although the column is text. -/
structure TimedOutRow where
  id : Uuid
  jobId : Uuid
  agentJobId : Option Uuid
  startedAt : Time

structure RunningHostJob where
  jobId : Uuid
  hostId : Uuid
  agentJobId : String
  hostAddress : String

structure AutoApplyWindow where
  windowId : Uuid
  hostId : Uuid
  autoReboot : Bool
  rebootDelayMinutes : Int

structure PendingPatchHost where
  hostId : Uuid
  patchCount : Int

/-! ## Conditions and aggregates -/

namespace Db

variable (db : Db)

/-- `retry_next_at IS NULL OR retry_next_at <= NOW()`. -/
def retryNotLater (r : PatchJobHost) : Bool := r.retryNextAt.all fun t => t ≤ db.now

/-- `retry_next_at <= NOW()`, not true of NULL. -/
def retryDue (r : PatchJobHost) : Bool := r.retryNextAt.any fun t => t ≤ db.now

/-- The parent row joined by `j.id = pjh.job_id`, when it satisfies `p`. -/
def parentIs (p : PatchJob → Bool) (r : PatchJobHost) : Bool := (db.job r.jobId).any p

/-- `COUNT(*) FILTER (WHERE status = ..)` over the rows of a job. -/
def countStatus (jobId : Uuid) (status : JobStatus) : Nat :=
  (db.hostsOf jobId).countP fun r => r.status == status

def statusCounts (jobId : Uuid) : StatusCounts where
  runningCount := db.countStatus jobId .running
  pendingCount := db.countStatus jobId .pending
  queuedCount := db.countStatus jobId .queued
  succeededCount := db.countStatus jobId .succeeded
  failedCount := db.countStatus jobId .failed
  cancelledCount := db.countStatus jobId .cancelled
  waitingHealthCheckCount := db.countStatus jobId .waitingHealthCheck
  totalCount := (db.hostsOf jobId).length

def nonTerminalCount (jobId : Uuid) : Nat :=
  (db.hostsOf jobId).countP fun r => !r.status.isTerminal

def rollupCounts (jobId : Uuid) : RollupCounts where
  total := (db.hostsOf jobId).length
  succeeded := db.countStatus jobId .succeeded
  failed := db.countStatus jobId .failed

/-- The newest result of a check: `ORDER BY checked_at DESC LIMIT 1`. -/
def latestResult (checkId : Uuid) : Option HostHealthCheckResult :=
  (db.hostHealthCheckResults.filter fun r => r.checkId == checkId).foldl
    (fun best r => if best.any fun b => r.checkedAt ≤ b.checkedAt then best else some r) none

/-- The newest patch data of a host: `ORDER BY polled_at DESC LIMIT 1`. -/
def latestPatchData (hostId : Uuid) : Option HostPatchData :=
  (db.hostPatchData.filter fun d => d.hostId == hostId).foldl
    (fun best d => if best.any fun b => d.polledAt ≤ b.polledAt then best else some d) none

def enabledChecks (hostId : Uuid) : List HostHealthCheck :=
  db.hostHealthChecks.filter fun c => c.hostId == hostId && c.enabled

/-- The rows `scan_queued_jobs` looks for. -/
def scanned (r : PatchJobHost) : Bool :=
  r.status == .queued && db.retryNotLater r &&
    db.parentIs (fun j => j.status != .cancelled && (j.immediate || db.hostWindowOpen r.hostId)) r

/-- The rows `dispatch_open_window_jobs` looks for on one host. -/
def windowQueued (hostId : Uuid) (r : PatchJobHost) : Bool :=
  r.hostId == hostId && r.status == .queued &&
    db.parentIs (fun j => !j.immediate && j.status != .cancelled) r && db.retryNotLater r

/-- The rows `retry_pending_jobs` looks for. -/
def retryable (r : PatchJobHost) : Bool :=
  (r.status == .pending || r.status == .waitingHealthCheck) && db.retryDue r &&
    db.parentIs (fun j => j.status != .cancelled) r

/-- The rows `fail_timed_out_jobs` looks for. -/
def overdue (timeoutSecs : Nat) (r : PatchJobHost) : Bool :=
  r.status == .running && db.parentIs (fun j => j.kind != .selfUpgrade) r &&
    r.startedAt.any fun t => t < db.now - timeoutSecs * microsPerSecond

/-- The start of the current cycle of a window: `start_at` itself, or today at its time of
    day. -/
def cycleStart (w : MaintenanceWindow) : Time :=
  match w.recurrence with
  | .once => w.startAt
  | _ => dayNumber db.now * microsPerDay + timeOfDay w.startAt

end Db

/-! ## The queries -/

inductive Query where
  | hostConnection (hostId : Uuid)
  | healthCheckCount (hostId : Uuid)
  | unhealthyCount (hostId : Uuid)
  | windowOpenFor (hostId : Uuid)
  | jobInfo (jobId : Uuid)
  | availablePatches (hostId : Uuid)
  | rebootSafety (hostId : Uuid)
  | queuedHosts (jobId : Uuid)
  | scanQueued
  | runningRows
  | retryRow (pjhId : Uuid)
  | statusCounts (jobId : Uuid)
  | duePending
  | timedOut (timeoutSecs : Nat)
  | patchSelection (jobId : Uuid)
  | agentVersion (hostId : Uuid)
  | failedHosts (jobId : Uuid)
  | runningHostJobs
  | nonTerminalCount (jobId : Uuid)
  | rollupCounts (jobId : Uuid)
  | autoWindows
  | pendingPatches (hostId : Uuid)
  | jobThisCycle (hostId windowId : Uuid)
  | openWindowHosts
  | queuedNonImmediate (hostId : Uuid)
  | jobStatusAndCreator (jobId : Uuid)
  | jobExists (jobId : Uuid)
  | jobHostIds (jobId : Uuid)

namespace Query

@[reducible] def Result : Query → Type
  | hostConnection _ => Option HostRow
  | healthCheckCount _ | unhealthyCount _ | nonTerminalCount _ => Nat
  | windowOpenFor _ | jobThisCycle _ _ | jobExists _ => Bool
  | jobInfo _ => Option JobInfo
  | availablePatches _ | patchSelection _ => Option Json
  | rebootSafety _ => Option (Bool × Bool)
  | queuedHosts _ => List PatchJobHostQueued
  | scanQueued | openWindowHosts | queuedNonImmediate _ | jobHostIds _ => List Uuid
  | runningRows => List PatchJobHostRunning
  | retryRow _ => Option RetryRow
  | statusCounts _ => StatusCounts
  | duePending => List PatchJobHostPending
  | timedOut _ => List TimedOutRow
  | agentVersion _ => Option String
  | failedHosts _ => List (String × String)
  | runningHostJobs => List RunningHostJob
  | rollupCounts _ => RollupCounts
  | autoWindows => List AutoApplyWindow
  | pendingPatches _ => Option PendingPatchHost
  | jobStatusAndCreator _ => Option (JobStatus × Option Uuid)

/-- The rows of `poll_running_jobs`: running rows with an agent job, joined with host and
    parent. -/
def pollRow (db : Db) (r : PatchJobHost) : Option PatchJobHostRunning := do
  let agentJobId ← r.agentJobId
  let h ← db.host r.hostId
  let j ← db.job r.jobId
  guard (r.status = .running)
  return { id := r.id, agentJobId, jobId := r.jobId, hostId := r.hostId,
           ipAddress := h.ipAddress, agentPort := h.agentPort, jobKind := j.kind }

/-- The rows of the relay: running rows with an agent job, joined with the host. -/
def relayRow (db : Db) (r : PatchJobHost) : Option RunningHostJob := do
  let agentJobId ← r.agentJobId
  let h ← db.host r.hostId
  guard (r.status = .running)
  return { jobId := r.jobId, hostId := r.hostId, agentJobId, hostAddress := h.fqdn }

/-- Decodes a row of `fail_timed_out_jobs`; a text `agent_job_id` does not decode as a
    `Uuid`, a NULL does. -/
def timedOutRow (r : PatchJobHost) : Option TimedOutRow := do
  let startedAt ← r.startedAt
  guard r.agentJobId.isNone
  return { id := r.id, jobId := r.jobId, agentJobId := none, startedAt }

def eval (db : Db) : (q : Query) → Option q.Result
  | hostConnection hostId =>
    some ((db.host hostId).map fun h => { ipAddress := h.ipAddress, agentPort := h.agentPort })
  | healthCheckCount hostId => some (db.enabledChecks hostId).length
  | unhealthyCount hostId =>
    some ((db.enabledChecks hostId).countP fun c => (db.latestResult c.id).all fun r => !r.healthy)
  | windowOpenFor hostId => some (db.hostWindowOpen hostId)
  | jobInfo jobId => some ((db.job jobId).map fun j =>
      { kind := j.kind, patchSelection := j.patchSelection, allowReboot := j.allowReboot,
        rebootDelaySeconds := j.rebootDelaySeconds })
  | availablePatches hostId => some ((db.latestPatchData hostId).map HostPatchData.availablePatches)
  | rebootSafety hostId =>
    some ((db.host hostId).map fun h => (h.rebootPaused, h.packageDbClean))
  | queuedHosts jobId =>
    some (((db.hostsOf jobId).filter fun r => r.status == .queued).map fun r =>
      { id := r.id, hostId := r.hostId, jobId := r.jobId })
  | scanQueued => some ((db.patchJobHosts.filter db.scanned).map PatchJobHost.jobId).dedup
  | runningRows => some (db.patchJobHosts.filterMap (pollRow db))
  | retryRow pjhId => some ((db.pjh pjhId).map fun r =>
      { jobId := r.jobId, retryCount := r.retryCount, status := r.status })
  | statusCounts jobId => some (db.statusCounts jobId)
  | duePending => some ((db.patchJobHosts.filter db.retryable).map fun r =>
      { id := r.id, hostId := r.hostId, jobId := r.jobId })
  | timedOut timeoutSecs => (db.patchJobHosts.filter (db.overdue timeoutSecs)).mapM timedOutRow
  | patchSelection jobId => some ((db.job jobId).map PatchJob.patchSelection)
  | agentVersion hostId =>
    match db.host hostId with
    | none => some none
    | some h => h.agentVersion.map some
  | failedHosts jobId =>
    some (((db.hostsOf jobId).filter fun r => r.status == .failed).filterMap fun r =>
      (db.host r.hostId).map fun h => (h.fqdn, r.errorMessage.getD "Unknown error"))
  | runningHostJobs => some (db.patchJobHosts.filterMap (relayRow db))
  | nonTerminalCount jobId => some (db.nonTerminalCount jobId)
  | rollupCounts jobId => some (db.rollupCounts jobId)
  | autoWindows =>
    some ((db.maintenanceWindows.filter fun w =>
      w.autoApply && w.autoReboot && w.windowOpen db.now).map fun w =>
      { windowId := w.id, hostId := w.hostId, autoReboot := w.autoReboot,
        rebootDelayMinutes := w.rebootDelayMinutes })
  | pendingPatches hostId =>
    some ((db.hostPatchData.find? fun d => d.hostId == hostId && d.patchCount > 0).map fun d =>
      { hostId := d.hostId, patchCount := d.patchCount })
  | jobThisCycle hostId windowId =>
    some (db.patchJobHosts.any fun r => r.hostId == hostId && db.parentIs (fun j =>
      j.kind == .patchApply && j.maintenanceWindowId == some windowId &&
        db.maintenanceWindows.any fun w => w.id == windowId && db.cycleStart w ≤ j.createdAt) r)
  | openWindowHosts =>
    some ((db.maintenanceWindows.filter fun w => w.windowOpen db.now).map
      MaintenanceWindow.hostId).dedup
  | queuedNonImmediate hostId =>
    some ((db.patchJobHosts.filter (db.windowQueued hostId)).map PatchJobHost.jobId).dedup
  | jobStatusAndCreator jobId => some ((db.job jobId).map fun j => (j.status, j.createdByUserId))
  | jobExists jobId => some (db.job jobId).isSome
  | jobHostIds jobId => some ((db.hostsOf jobId).map PatchJobHost.hostId)

end Query

end PatchManager
