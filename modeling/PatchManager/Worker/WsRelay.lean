import PatchManager.Worker.JobExecutor

/-! # The relay

The functions of `ws_relay.rs`: one relay task for each running (job, host) pair, which
follows the agent's job stream or, when the stream cannot be opened, polls the agent, and
writes what it learns to the pair's row and its parent.
-/

namespace PatchManager

open PatchManager.Conc

/-! ## Parent roll-up -/

def finalStatus (counts : RollupCounts) : JobStatus :=
  if counts.failed > 0 then .failed else .succeeded

/-- `NotifyPayload` of a job-level event; absent fields are `null`. -/
def jobNotifyPayload (jobId : Uuid) (status : JobStatus) (counts : RollupCounts) : Json :=
  .obj [("event_type", .str "job"), ("job_id", .str jobId.text), ("host_id", .str ""),
    ("status", .str status.text), ("output", .null), ("error_message", .null),
    ("agent_job_id", .str ""), ("succeeded_count", .num counts.succeeded),
    ("failed_count", .num counts.failed), ("host_count", .num counts.total)]

def updateParentJobStatus (jobId : Uuid) : Proc Unit := do
  match ← query (.nonTerminalCount jobId) with
  | .error _ => return ()
  | .ok pending =>
    if pending > 0 then return ()
    else
      match ← query (.rollupCounts jobId) with
      | .error _ => return ()
      | .ok counts =>
        match ← sql (.updateJobs (.updateParentFinal jobId (finalStatus counts) counts)) with
        | .error _ => return ()
        | .ok _ =>
          let _ ← sql (.notifyJobUpdate (jobNotifyPayload jobId (finalStatus counts) counts))

/-! ## Events -/

/-- The database status an agent status stands for. -/
def dbStatus? : String → Option JobStatus
  | "running" => some .running
  | "succeeded" | "completed" => some .succeeded
  | "failed" => some .failed
  | "cancelled" => some .cancelled
  | _ => none

def Json.ofText? : Option String → Json
  | some text => .str text
  | none => .null

/-- `NotifyPayload` of a host-level event. -/
def hostNotifyPayload (row : RunningHostJob) (event : AgentWsEvent) (dbStatus : JobStatus) :
    Json :=
  .obj [("event_type", .str "host"), ("job_id", .str row.jobId.text),
    ("host_id", .str row.hostId.text), ("status", .str dbStatus.text),
    ("output", .ofText? event.output), ("error_message", .ofText? event.error),
    ("agent_job_id", .str row.agentJobId), ("succeeded_count", .null), ("failed_count", .null),
    ("host_count", .null)]

/-- The statement `process_event` runs. -/
def relayUpdate (row : RunningHostJob) (event : AgentWsEvent) (dbStatus : JobStatus) :
    HostUpdate :=
  if dbStatus.isTerminal then .relayTerminal row event dbStatus
  else .relayRunning row event dbStatus

def processEvent (row : RunningHostJob) (event : AgentWsEvent) : Proc Unit := do
  match dbStatus? event.status with
  | none => return ()
  | some dbStatus =>
    match ← sql (.updateHosts (relayUpdate row event dbStatus)) with
    | .error _ => return ()
    | .ok rowsAffected =>
      if rowsAffected = 0 then return ()
      else
        if dbStatus.isTerminal then updateParentJobStatus row.jobId
        let _ ← sql (.notifyJobUpdate (hostNotifyPayload row event dbStatus))

/-! ## Relay tasks -/

/-- The pair is free for a new relay again. -/
def endRelay (row : RunningHostJob) : Proc Unit := perform (.activeRemove (row.jobId, row.hostId))

/-- The statuses after which a relay stops. -/
def stopsRelay : String → Bool
  | "succeeded" | "failed" | "cancelled" => true
  | _ => false

def streamUrl (row : RunningHostJob) : String :=
  "wss://" ++ row.hostAddress ++ ":" ++ toString defaultAgentPort ++ "/api/v1/ws/jobs"

/-- One frame of the loop in `relay_one_job`. -/
def relayStream (row : RunningHostJob) : Proc Unit := do
  match ← perform (.nextFrame (streamUrl row)) with
  | none => endRelay row
  | some (.error _) => endRelay row
  | some .close => endRelay row
  | some .other => .jump (.relayStream row)
  | some (.message none) => .jump (.relayStream row)
  | some (.message (some event)) =>
    processEvent row event
    if stopsRelay event.status then endRelay row else .jump (.relayStream row)

/-- The event status for an agent's job status. -/
def mappedStatus : String → String
  | "queued" | "running" => "running"
  | "succeeded" | "completed" => "succeeded"
  | "failed" => "failed"
  | "cancelled" => "cancelled"
  | _ => "running"

/-- One round of the loop in `relay_one_job_poll`. -/
def relayPoll (cfg : WorkerConfig) (row : RunningHostJob) (client : AgentClient)
    (lastStatus : Option String) : Proc Unit := do
  perform (.sleep cfg.wsRelayPollIntervalSecs)
  match ← perform (.jobStatus client row.agentJobId) with
  | .error _ => .jump (.relayPoll row client lastStatus)
  | .ok jobStatus =>
    let mapped := mappedStatus jobStatus.status
    if lastStatus = some mapped then .jump (.relayPoll row client lastStatus)
    else
      processEvent row
        { jobId := jobStatus.jobId, status := mapped, output := jobStatus.output
          error := jobStatus.error, progressPercent := jobStatus.progressPercent }
      if stopsRelay mapped then endRelay row
      else .jump (.relayPoll row client (some mapped))

def relayOneJobPoll (row : RunningHostJob) : Proc Unit := do
  let client := AgentClient.new row.hostAddress defaultAgentPort
  match ← perform (.newClient client) with
  | .error _ => endRelay row
  | .ok () => .jump (.relayPoll row client none)

def relayOneJob (row : RunningHostJob) : Proc Unit := do
  match ← perform (.connectWs (streamUrl row)) with
  | .error _ => relayOneJobPoll row
  | .ok () => .jump (.relayStream row)

/-- Starts a relay for every pair that has none. -/
def startRelays : List RunningHostJob → Proc Unit
  | [] => return ()
  | row :: rest => do
    if ← perform (.activeContains (row.jobId, row.hostId)) then startRelays rest
    else
      match ← perform .buildTlsConfig with
      | .error _ => startRelays rest
      | .ok () =>
        match ← perform .readCertPems with
        | .error _ => startRelays rest
        | .ok () =>
          perform (.activeInsert (row.jobId, row.hostId))
          fork (.relayOneJob row)
          startRelays rest

/-- One tick of `run_ws_relay`. -/
def relayTick : Proc Unit := do
  match ← query .runningHostJobs with
  | .error _ => return ()
  | .ok rows => startRelays rows

end PatchManager
