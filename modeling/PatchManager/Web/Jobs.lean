import PatchManager.Web.Headers
import PatchManager.Worker.JobExecutor

/-! # The job routes

The handlers of `routes/jobs.rs` that create, cancel and roll back jobs, and the part of
`routes/upgrades.rs` that creates the jobs of an upgrade.
-/

namespace PatchManager

open PatchManager.Conc

/-- `serde_json` name of a job kind. -/
def JobKind.text : JobKind → String
  | .patchApply => "patch_apply"
  | .patchRemove => "patch_remove"
  | .reboot => "reboot"
  | .rollback => "rollback"
  | .selfUpgrade => "self_upgrade"

/-- Inserts one host row after the other; the first failure ends the request. -/
def insertHosts (jobId : Uuid) : List Uuid → Proc (Except ApiError Unit)
  | [] => return .ok ()
  | hostId :: rest => do
    match ← sql (.insertJobHost jobId hostId) with
    | .error _ => return .error .database
    | .ok _ => insertHosts jobId rest

/-- The parent row of a requested job. -/
def CreateJobRequest.newJob (req : CreateJobRequest) (userId : Uuid) : NewJob where
  kind := req.kind.getD .patchApply
  createdByUserId := some userId
  maintenanceWindowId := req.maintenanceWindowId
  immediate := req.immediate
  patchSelection := .arr (req.packages.map .str)
  notes := req.notes.getD ""
  allowReboot := req.allowReboot
  rebootDelaySeconds := req.rebootDelaySeconds

def createJob (auth : AuthUser) (req : CreateJobRequest) : Proc (Except ApiError Uuid) := do
  if !auth.role.canWrite then return .error ⟨403, "forbidden", "Write access required"⟩
  else if req.hostIds.isEmpty then
    return .error ⟨400, "bad_request", "host_ids must not be empty"⟩
  else
    match ← sql (.insertJob (req.newJob auth.userId)) with
    | .error _ => return .error .database
    | .ok jobId =>
      match ← insertHosts jobId req.hostIds with
      | .error e => return .error e
      | .ok () =>
        perform (.logEvent
          { action := .patchJobCreated, actorUserId := some auth.userId
            actorUsername := some auth.username, targetType := some "job"
            targetId := some jobId.text
            details := .obj [("kind", .str (req.kind.getD .patchApply).text),
              ("immediate", .bool req.immediate), ("host_count", .num req.hostIds.length),
              ("packages", .arr (req.packages.map .str)), ("allow_reboot", .bool req.allowReboot),
              ("notes", .str (req.notes.getD ""))] })
        return .ok jobId

/-- The payload of the notification `cancel_job` sends. -/
def cancelPayload (id : Uuid) : Json := jobPayload id .cancelled 0 0 0

/-- The two `UPDATE`s of `cancel_job` and what follows them. -/
def cancelRows (auth : AuthUser) (id : Uuid) (status : JobStatus) :
    Proc (Except ApiError Unit) := do
  match ← sql (.updateJobs (.cancelParent id)) with
  | .error _ => return .error .database
  | .ok _ =>
    match ← sql (.updateHosts (.cancelHosts id)) with
    | .error _ => return .error .database
    | .ok _ =>
      let _ ← sql (.notifyJobUpdate (cancelPayload id))
      perform (.logEvent
        { action := .patchJobCancelled, actorUserId := some auth.userId
          actorUsername := some auth.username, targetType := some "job", targetId := some id.text
          details := .obj [("previous_status", .str status.text)] })
      return .ok ()

def cancelJob (auth : AuthUser) (id : Uuid) : Proc (Except ApiError Unit) := do
  match ← query (.jobStatusAndCreator id) with
  | .error _ => return .error .database
  | .ok none => return .error ⟨404, "not_found", "Job not found"⟩
  | .ok (some (status, creatorId)) =>
    if !auth.role.canWrite && creatorId != some auth.userId then
      return .error ⟨403, "forbidden", "Write access required"⟩
    else if status != .queued && status != .pending then
      return .error ⟨409, "invalid_state", "Cannot cancel a job in '" ++ status.text ++
        "' state; only queued or pending jobs may be cancelled"⟩
    else cancelRows auth id status

def rollbackJob (auth : AuthUser) (id : Uuid) : Proc (Except ApiError Uuid) := do
  if !auth.role.canWrite then return .error ⟨403, "forbidden", "Write access required"⟩
  else
    match ← query (.jobExists id) with
    | .error _ => return .error .database
    | .ok originalExists =>
      if !originalExists then return .error ⟨404, "not_found", "Job not found"⟩
      else
        match ← query (.jobHostIds id) with
        | .error _ => return .error .database
        | .ok hostIds =>
          if hostIds.isEmpty then
            return .error ⟨422, "no_hosts", "Original job has no host entries to roll back"⟩
          else
            match ← sql (.insertJob
                { kind := .rollback, createdByUserId := some auth.userId, parentJobId := some id
                  immediate := true, patchSelection := .arr []
                  notes := "Rollback of job " ++ id.text }) with
            | .error _ => return .error .database
            | .ok rollbackJobId =>
              match ← insertHosts rollbackJobId hostIds with
              | .error e => return .error e
              | .ok () =>
                perform (.logEvent
                  { action := .patchJobRollback, actorUserId := some auth.userId
                    actorUsername := some auth.username, targetType := some "job"
                    targetId := some rollbackJobId.text
                    details := .obj [("original_job_id", .str id.text),
                      ("rollback_job_id", .str rollbackJobId.text),
                      ("host_count", .num hostIds.length)] })
                return .ok rollbackJobId

/-- The self-upgrade job of one version. -/
def upgradeJob (auth : AuthUser) (immediate : Bool) (maintenanceWindowId : Option Uuid)
    (version : String) : NewJob where
  kind := .selfUpgrade
  createdByUserId := some auth.userId
  maintenanceWindowId
  immediate
  patchSelection := .obj [("target_version", .str version), ("restart", .bool true),
    ("restart_delay_seconds", .num 5)]
  notes := ""

/-- One job for each version; the identifier of the first, `0` for none. -/
def insertUpgradeGroups (auth : AuthUser) (immediate : Bool) (maintenanceWindowId : Option Uuid) :
    Uuid → List (String × List Uuid) → Proc (Except ApiError Uuid)
  | firstJobId, [] => return .ok firstJobId
  | firstJobId, (version, hostIds) :: rest => do
    match ← sql (.insertJob (upgradeJob auth immediate maintenanceWindowId version)) with
    | .error _ => return .error .database
    | .ok jobId =>
      match ← insertHosts jobId hostIds with
      | .error e => return .error e
      | .ok () =>
        insertUpgradeGroups auth immediate maintenanceWindowId
          (if firstJobId = 0 then jobId else firstJobId) rest

/-- `trigger_upgrade` once the hosts have been validated and grouped by version. -/
def insertUpgradeJobs (auth : AuthUser) (immediate : Bool) (maintenanceWindowId : Option Uuid)
    (groups : List (String × List Uuid)) (skippedCount : Nat) : Proc (Except ApiError Uuid) := do
  match ← insertUpgradeGroups auth immediate maintenanceWindowId 0 groups with
  | .error e => return .error e
  | .ok firstJobId =>
    let hostCount := (groups.map fun group => group.2.length).sum
    perform (.logEvent
      { action := if hostCount > 1 then .batchUpgradeTriggered else .upgradeTriggered
        actorUserId := some auth.userId, actorUsername := some auth.username
        targetType := some "upgrade", targetId := some firstJobId.text
        details := .obj [("target_versions", .arr (groups.map fun group => .str group.1)),
          ("host_count", .num hostCount), ("skipped_count", .num skippedCount),
          ("immediate", .bool immediate)] })
    return .ok firstJobId

end PatchManager
