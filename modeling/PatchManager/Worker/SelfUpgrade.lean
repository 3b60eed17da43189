import PatchManager.Worker.JobExecutor

/-! # Polling running rows

`poll_running_jobs`, `poll_single_host` and the reconciliation of self-upgrades: the
pure decision functions, the loop that waits for the new version, and the periodic scan
that drives them.
-/

namespace PatchManager

open PatchManager.Conc

/-! ## Decisions -/

inductive SelfUpgradePollAction where
  | succeeded
  | failedThenReconnectConfirm
  | stillInProgress
  | unexpectedStatus
  | connectionDropped
deriving DecidableEq, Repr

def decideSelfUpgradePollAction : Except AgentClientError String → SelfUpgradePollAction
  | .ok "succeeded" | .ok "completed" => .succeeded
  | .ok "failed" => .failedThenReconnectConfirm
  | .ok "running" | .ok "queued" => .stillInProgress
  | .ok _ => .unexpectedStatus
  | .error _ => .connectionDropped

inductive SelfUpgradeReconnectResult where
  | succeeded
  | versionUnchanged
deriving DecidableEq, Repr

/-- A leading `v` and everything from the first hyphen on are dropped. -/
def normalizeVersion (v : String) : String :=
  let chars := match v.toList with
    | 'v' :: rest => rest
    | chars => chars
  String.ofList (chars.takeWhile (· != '-'))

def decideSelfUpgradeReconnectResult (newVersion : String)
    (targetVersion oldVersion : Option String) : SelfUpgradeReconnectResult :=
  let newNorm := normalizeVersion newVersion
  let versionOk := match targetVersion, oldVersion with
    | some target, _ => newNorm == normalizeVersion target
    | none, some old => newNorm != normalizeVersion old
    | none, none => true
  if versionOk then .succeeded else .versionUnchanged

inductive SelfUpgradeSucceededAction where
  | finishSuccess
  | reconnectConfirm
deriving DecidableEq, Repr

def decideSelfUpgradeSucceededAction : SelfUpgradeReconnectResult → SelfUpgradeSucceededAction
  | .succeeded => .finishSuccess
  | .versionUnchanged => .reconnectConfirm

inductive VersionSampleAction where
  | succeeded (newVersion : String)
  | retry
  | fail (reason : String)
deriving DecidableEq, Repr

def decideVersionSample (sample : Except AgentClientError String)
    (targetVersion oldVersion : Option String) : VersionSampleAction :=
  match sample with
  | .ok version =>
    match decideSelfUpgradeReconnectResult version targetVersion oldVersion with
    | .succeeded => .succeeded version
    | .versionUnchanged => .retry
  | .error (.connect _) | .error .timeout => .retry
  | .error e => .fail ("Health check error during self-upgrade reconnect: " ++ e.text)

/-! ## Self-upgrades -/

def finishSelfUpgradeSuccess (row : PatchJobHostRunning) (newVersion : String) : Proc Unit := do
  let _ ← sql (.setAgentVersion row.hostId newVersion)
  match ← sql (.updateHosts (.setSucceeded row.id
      ("Self-upgrade completed: agent version " ++ newVersion))) with
  | .ok affected => if affected = 0 then return () else syncJobStatus row.jobId
  | .error _ => syncJobStatus row.jobId

/-- `target_version` of the job's selection, if the job can be read. -/
def targetVersionOf (jobId : Uuid) : Proc (Option String) := do
  match ← query (.patchSelection jobId) with
  | .ok (some selection) => return (selection.get? "target_version").bind Json.asStr?
  | .ok none => return none
  | .error _ => return none

def oldVersionOf (hostId : Uuid) : Proc (Option String) := do
  match ← query (.agentVersion hostId) with
  | .ok version => return version
  | .error _ => return none

/-- One round of the loop of `reconnect_confirm_self_upgrade`. -/
def reconnectLoop (cfg : WorkerConfig) (row : PatchJobHostRunning) (client : AgentClient)
    (targetVersion oldVersion : Option String) (elapsed : UInt64) : Proc Unit := do
  perform (.sleep cfg.selfUpgradeReconnectPollIntervalSecs.toNat)
  let elapsed := elapsed + cfg.selfUpgradeReconnectPollIntervalSecs
  let health ← perform (.health client)
  match decideVersionSample (health.map HealthData.version) targetVersion oldVersion with
  | .succeeded newVersion => finishSelfUpgradeSuccess row newVersion
  | .retry =>
    if elapsed ≥ cfg.selfUpgradeReconnectTimeoutSecs then
      handleHostFailure row.id
        "Agent did not reach the target version within the self-upgrade reconnect timeout"
    else .jump (.reconnectLoop row client targetVersion oldVersion elapsed)
  | .fail reason => handleHostFailure row.id reason

def reconnectConfirmSelfUpgrade (row : PatchJobHostRunning) (client : AgentClient) :
    Proc Unit := do
  let targetVersion ← targetVersionOf row.jobId
  let oldVersion ← oldVersionOf row.hostId
  .jump (.reconnectLoop row client targetVersion oldVersion 0)

/-- The `Succeeded` arm of `poll_self_upgrade_host` once the version has been read. -/
def confirmSelfUpgrade (row : PatchJobHostRunning) (client : AgentClient) (newVersion : String) :
    Proc Unit := do
  let targetVersion ← targetVersionOf row.jobId
  let oldVersion ← oldVersionOf row.hostId
  match decideSelfUpgradeSucceededAction
      (decideSelfUpgradeReconnectResult newVersion targetVersion oldVersion) with
  | .finishSuccess => finishSelfUpgradeSuccess row newVersion
  | .reconnectConfirm => reconnectConfirmSelfUpgrade row client

def pollSelfUpgradeHost (row : PatchJobHostRunning) (client : AgentClient)
    (statusResult : Except AgentClientError AgentJobStatus) : Proc Unit := do
  match decideSelfUpgradePollAction (statusResult.map AgentJobStatus.status) with
  | .succeeded =>
    match ← perform (.health client) with
    | .ok health => confirmSelfUpgrade row client health.version
    | .error _ => reconnectConfirmSelfUpgrade row client
  | .failedThenReconnectConfirm => reconnectConfirmSelfUpgrade row client
  | .stillInProgress => return ()
  | .unexpectedStatus => return ()
  | .connectionDropped => reconnectConfirmSelfUpgrade row client

/-! ## Other kinds of job -/

/-- The agent reports that the job is done. -/
def recordSucceeded (row : PatchJobHostRunning) (status : AgentJobStatus) : Proc Unit := do
  match ← sql (.updateHosts (.setSucceeded row.id (status.output.getD ""))) with
  | .ok affected => if affected = 0 then return () else syncJobStatus row.jobId
  | .error _ => syncJobStatus row.jobId

/-- What `poll_single_host` does with an answer about a job that is not a self-upgrade. -/
def recordStatus (row : PatchJobHostRunning) :
    Except AgentClientError AgentJobStatus → Proc Unit
  | .error (.apiError code message) =>
    if code = "JOB_NOT_FOUND" then
      handleHostFailure row.id
        ("Agent reports job not found (agent may have rebooted): " ++ message)
    else return ()
  | .error _ => return ()
  | .ok status =>
    match status.status with
    | "succeeded" | "completed" => recordSucceeded row status
    | "failed" =>
      handleHostFailure row.id (status.error.getD "Agent reported failure (no detail)")
    | "cancelled" => handleHostFailure row.id (status.error.getD "Agent job was cancelled")
    | _ => return ()

def pollSingleHost (row : PatchJobHostRunning) : Proc Unit := do
  match ← perform .loadAgentCerts with
  | .error _ => return ()
  | .ok () =>
    let client := AgentClient.new row.ipAddress (asU16 row.agentPort)
    match ← perform (.newClient client) with
    | .error _ => return ()
    | .ok () =>
      let statusResult ← perform (.jobStatus client row.agentJobId)
      match row.jobKind with
      | .selfUpgrade => pollSelfUpgradeHost row client statusResult
      | _ => recordStatus row statusResult

def pollRunningJobs : Proc Unit := do
  match ← query .runningRows with
  | .error _ => return ()
  | .ok rows => forkEach .pollSingleHost rows

/-- One round of `run_periodic_scanner`. -/
def periodicScan (cfg : WorkerConfig) : Proc Unit := do
  scanQueuedJobs
  pollRunningJobs
  retryPendingJobs
  failTimedOutJobs cfg

end PatchManager
