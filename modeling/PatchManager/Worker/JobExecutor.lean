import PatchManager.Engine.Op

/-! # The job executor

The functions of `job_executor.rs` that dispatch host rows, poll the agents, apply the
retry policy and roll the rows of a job up into its parent.  Log output is left out.
-/

namespace PatchManager

open PatchManager.Conc

/-- The settings of the worker that the engine reads. -/
structure WorkerConfig where
  maxConcurrentAgentCalls : Nat
  wsRelayPollIntervalSecs : Nat
  selfUpgradeReconnectTimeoutSecs : UInt64
  selfUpgradeReconnectPollIntervalSecs : UInt64
  jobTimeoutSecs : Nat

/-- Starts one task for each element. -/
def forkEach {A : Type} (f : A → Fn) : List A → Proc Unit
  | [] => return ()
  | a :: rest => do
    fork (f a)
    forkEach f rest

/-! ## Rolling up -/

/-- The payload of a job-level notification. -/
def jobPayload (jobId : Uuid) (status : JobStatus) (succeeded failed total : Nat) : Json :=
  .obj [("event_type", .str "job"), ("job_id", .str jobId.text), ("host_id", .str ""),
    ("status", .str status.text), ("succeeded_count", .num succeeded),
    ("failed_count", .num failed), ("host_count", .num total)]

/-- The status `sync_job_status` gives the parent, and whether it sets `completed_at`. -/
def aggregateStatus (counts : StatusCounts) : Option (JobStatus × Bool) :=
  if counts.runningCount > 0 || counts.pendingCount > 0 || counts.queuedCount > 0 ||
      counts.waitingHealthCheckCount > 0 then
    some (.running, false)
  else if counts.totalCount > 0 && counts.succeededCount == counts.totalCount then
    some (.succeeded, true)
  else if counts.totalCount > 0 && counts.cancelledCount == counts.totalCount then
    some (.cancelled, true)
  else if counts.failedCount > 0 then some (.failed, true)
  else none

def syncJobStatus (jobId : Uuid) : Proc Unit := do
  match ← query (.statusCounts jobId) with
  | .error _ => return ()
  | .ok counts =>
    match aggregateStatus counts with
    | none => return ()
    | some (newStatus, setCompleted) =>
      let _ ← sql (.updateJobs (.syncParent jobId newStatus setCompleted counts))
      let _ ← sql (.notifyJobUpdate
        (jobPayload jobId newStatus counts.succeededCount counts.failedCount counts.totalCount))
      if setCompleted then
        fork (.jobEmails jobId counts.totalCount counts.succeededCount counts.failedCount)

def sendFailureEmails (jobId : Uuid) : List (String × String) → Proc Unit
  | [] => return ()
  | (fqdn, errorMsg) :: rest => do
    perform (.sendPatchFailureEmail fqdn jobId.text errorMsg)
    sendFailureEmails jobId rest

/-- The background task `sync_job_status` spawns for a finished job. -/
def jobEmails (jobId : Uuid) (total succeeded failed : Nat) : Proc Unit := do
  perform (.sendJobCompletionEmail jobId.text total succeeded failed)
  if failed > 0 then
    match ← query (.failedHosts jobId) with
    | .error _ => return ()
    | .ok failedHosts => sendFailureEmails jobId failedHosts

/-! ## Failures and retries -/

/-- The back-off before retry number `n`. -/
def retryDelay (n : Int) : Int :=
  if n = 1 then 1 * microsPerMinute else if n = 2 then 5 * microsPerMinute
  else 30 * microsPerMinute

def handleHostFailure (pjhId : Uuid) (errorMsg : String) : Proc Unit := do
  match ← query (.retryRow pjhId) with
  | .error _ => return ()
  | .ok none => return ()
  | .ok (some row) =>
    if row.status.isTerminal then return ()
    else if row.retryCount < 3 then
      let newRetryCount := row.retryCount + 1
      let now ← perform .utcNow
      let _ ← sql (.updateHosts
        (.setPending pjhId newRetryCount (now + retryDelay newRetryCount) errorMsg))
    else
      match ← sql (.updateHosts (.setFailed pjhId errorMsg)) with
      | .error _ => return ()
      | .ok affected => if affected > 0 then syncJobStatus row.jobId

/-- Resets the rows to `queued` one by one and starts an execution for each. -/
def redispatch : List PatchJobHostPending → Proc Unit
  | [] => return ()
  | row :: rest => do
    match ← sql (.updateHosts (.resetQueued row.id)) with
    | .error _ => redispatch rest
    | .ok affected =>
      if affected > 0 then fork (.executeHostJob row.jobId row.hostId row.id none)
      redispatch rest

def retryPendingJobs : Proc Unit := do
  match ← query .duePending with
  | .error _ => return ()
  | .ok rows => redispatch rows

/-- `num_seconds` of a duration, rounded towards zero. -/
def numSeconds (duration : Int) : Int := Int.tdiv duration microsPerSecond

def timedOutMessage (now startedAt : Time) : String :=
  "Job timed out after " ++ toString (numSeconds (now - startedAt)) ++ " seconds (started at " ++
    Time.text startedAt ++ "). The agent may have rebooted or become unreachable."

def failTimedOut : List TimedOutRow → Proc Unit
  | [] => return ()
  | row :: rest => do
    let now ← perform .utcNow
    match ← sql (.updateHosts (.setTimedOut row.id (timedOutMessage now row.startedAt))) with
    | .error _ => failTimedOut rest
    | .ok affected =>
      if affected > 0 then syncJobStatus row.jobId
      failTimedOut rest

def failTimedOutJobs (cfg : WorkerConfig) : Proc Unit := do
  if cfg.jobTimeoutSecs = 0 then return ()
  else
    match ← query (.timedOut cfg.jobTimeoutSecs) with
    | .error _ => return ()
    | .ok rows => failTimedOut rows

/-! ## Dispatch -/

/-- Starts an execution for each row, as far as the semaphore has permits. -/
def dispatchHosts (jobId : Uuid) (semaphore : Nat) : List PatchJobHostQueued → Proc Unit
  | [] => return ()
  | host :: rest => do
    perform (.acquire semaphore)
    fork (.executeHostJob jobId host.hostId host.id (some semaphore))
    dispatchHosts jobId semaphore rest

def processJob (cfg : WorkerConfig) (jobId : Uuid) : Proc Unit := do
  let _ ← sql (.updateJobs (.markJobRunning jobId))
  match ← query (.queuedHosts jobId) with
  | .error _ => return ()
  | .ok hosts =>
    if hosts.isEmpty then return ()
    else
      let semaphore ← perform (.newSemaphore cfg.maxConcurrentAgentCalls)
      dispatchHosts jobId semaphore hosts

def scanQueuedJobs : Proc Unit := do
  match ← query .scanQueued with
  | .error _ => return ()
  | .ok jobIds => forkEach .processJob jobIds

/-- `check_host_health_checks`. -/
def checkHostHealthChecks (hostId : Uuid) : Proc (Except String Bool) := do
  match ← query (.healthCheckCount hostId) with
  | .error reason => return .error reason
  | .ok checkCount =>
    if checkCount = 0 then return .ok true
    else
      match ← query (.unhealthyCount hostId) with
      | .error reason => return .error reason
      | .ok unhealthyCount => return .ok (unhealthyCount == 0)

/-- The branch of `execute_host_job` for a host whose health checks do not pass. -/
def waitForHealthChecks (hostId pjhId : Uuid) : Proc Unit := do
  let answer ← query (.windowOpenFor hostId)
  let windowOpen : Bool := match answer with
    | .ok found => found
    | .error _ => true
  if !windowOpen then
    handleHostFailure pjhId "Health checks did not pass before maintenance window closed"
  else
    let now ← perform .utcNow
    let _ ← sql (.updateHosts (.setWaitingHealthCheck pjhId (now + 5 * microsPerMinute)))

def rebootSafetyState (hostId : Uuid) : Proc (Option (Bool × Bool)) := do
  match ← query (.rebootSafety hostId) with
  | .error _ => return none
  | .ok state => return state

def rebootRefusalReason (rebootPaused packageDbClean : Bool) : Option String :=
  if rebootPaused then some "host is reboot-paused (operator hold)"
  else if !packageDbClean then
    some ("host package database is not clean (half-configured packages) — run " ++
      "`dpkg --configure -a` before rebooting")
  else none

/-- What follows a submission: the agent's job id is stored, a refusal is a failure. -/
def recordSubmission (pjhId : Uuid) : Except AgentClientError SubmitResponse → Proc Unit
  | .ok resp => do
    let _ ← sql (.updateHosts (.storeAgentJobId pjhId resp.jobId))
  | .error e => handleHostFailure pjhId ("Agent error: " ++ e.text)

/-- The `name` fields of the host's available patches. -/
def patchNames (val : Json) : List String :=
  match val.asArr? with
  | some patches => patches.filterMap fun p => (p.get? "name").bind Json.asStr?
  | none => []

/-- An empty selection means every available patch. -/
def expandPackages (hostId : Uuid) (patchSelection : Json) : Proc (List String) := do
  let packages := patchSelection.asStrings?.getD []
  if packages.isEmpty then
    match ← query (.availablePatches hostId) with
    | .ok (some val) => return patchNames val
    | .ok none => return []
    | .error _ => return []
  else return packages

def executePatchHostJob (pjhId hostId : Uuid) (client : AgentClient) (patchSelection : Json)
    (allowReboot : Bool) (rebootDelaySeconds : Nat) : Proc Unit := do
  let packages ← expandPackages hostId patchSelection
  let state ← rebootSafetyState hostId
  let allowReboot := match state with
    | some (rebootPaused, packageDbClean) =>
      if (rebootRefusalReason rebootPaused packageDbClean).isSome then false else allowReboot
    | none => allowReboot
  let answer ← perform (.applyPatches pjhId client { packages, allowReboot, rebootDelaySeconds })
  recordSubmission pjhId answer

/-- The request of a reboot whose gate is passed. -/
def submitReboot (pjhId : Uuid) (client : AgentClient) : Proc Unit := do
  let answer ← perform (.reboot pjhId client { delaySeconds := 0, force := false })
  recordSubmission pjhId answer

def executeRebootHostJob (pjhId hostId : Uuid) (client : AgentClient) : Proc Unit := do
  match ← rebootSafetyState hostId with
  | some (rebootPaused, packageDbClean) =>
    match rebootRefusalReason rebootPaused packageDbClean with
    | some reason =>
      perform (.logEvent
        { action := .rebootRefused, targetType := some "host", targetId := some hostId.text
          details := .obj [("pjh_id", .str pjhId.text), ("reboot_paused", .bool rebootPaused),
            ("package_db_clean", .bool packageDbClean), ("reason", .str reason)] })
      handleHostFailure pjhId ("Reboot refused: " ++ reason)
    | none => submitReboot pjhId client
  | none => submitReboot pjhId client

def executeSelfUpgradeHostJob (pjhId : Uuid) (client : AgentClient) : Proc Unit := do
  let answer ← perform (.updatePackage pjhId client "linux-patch-api")
  recordSubmission pjhId answer

/-- Step 6 of `execute_host_job`. -/
def dispatchByKind (hostId pjhId : Uuid) (client : AgentClient) (jobInfo : JobInfo) : Proc Unit :=
  match jobInfo.kind with
  | .selfUpgrade => executeSelfUpgradeHostJob pjhId client
  | .reboot => executeRebootHostJob pjhId hostId client
  | _ => executePatchHostJob pjhId hostId client jobInfo.patchSelection jobInfo.allowReboot
      (asU64 jobInfo.rebootDelaySeconds)

/-- Steps 2 to 6 of `execute_host_job`: job row, certificates, client, mark running,
    submit. -/
def submitHostJob (jobId hostId pjhId : Uuid) (host : HostRow) : Proc Unit := do
  match ← query (.jobInfo jobId) with
  | .error e => handleHostFailure pjhId ("DB error fetching job: " ++ e)
  | .ok none => handleHostFailure pjhId ("Parent job " ++ jobId.text ++ " not found")
  | .ok (some jobInfo) =>
    match ← perform .loadAgentCerts with
    | .error e => handleHostFailure pjhId ("Failed to load agent certs: " ++ e)
    | .ok () =>
      let client := AgentClient.new host.ipAddress (asU16 host.agentPort)
      match ← perform (.newClient client) with
      | .error e => handleHostFailure pjhId ("Failed to build agent client: " ++ e.text)
      | .ok () =>
        -- neither an error nor the affected-row count of this statement is looked at
        let _ ← sql (.updateHosts (.markRunning pjhId))
        dispatchByKind hostId pjhId client jobInfo

def executeHostJob (jobId hostId pjhId : Uuid) : Proc Unit := do
  match ← query (.hostConnection hostId) with
  | .error e => handleHostFailure pjhId ("DB error fetching host: " ++ e)
  | .ok none => handleHostFailure pjhId ("Host " ++ hostId.text ++ " not found in database")
  | .ok (some host) =>
    match ← checkHostHealthChecks hostId with
    | .ok true => submitHostJob jobId hostId pjhId host
    | .ok false => waitForHealthChecks hostId pjhId
    | .error _ => submitHostJob jobId hostId pjhId host

end PatchManager
