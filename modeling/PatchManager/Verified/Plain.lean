import PatchManager.Conc.Program
import PatchManager.Engine.System

/-! # Plain functions

Most functions of the service neither dispatch a host row nor finish one.  `Plain` says so
of their footprint: no submission to an agent, no row marked running or fetched for
dispatch, no row finished, no roll-up, and no tail call.
-/

namespace PatchManager

open PatchManager.Conc

/-- The row a statement marks running. -/
def Op.marks? : Op → Option Uuid
  | sql (.updateHosts (.markRunning pjhId)) => some pjhId
  | _ => none

/-- The rows a query returns for dispatch. -/
def Op.fetched : (o : Op) → o.Resp → List Uuid
  | sql (.select (.queuedHosts _)), .ok rows => rows.map PatchJobHostQueued.id
  | sql (.select .duePending), .ok rows => rows.map PatchJobHostPending.id
  | _, _ => []

/-- The statements that give a host row a final status, `cancel_job`'s apart. -/
def HostUpdate.finishes : HostUpdate → Bool
  | setSucceeded _ _ | setFailed _ _ | setTimedOut _ _ | relayTerminal _ _ _ => true
  | _ => false

/-- The job a statement rolls up, or reads to roll it up. -/
def Stmt.rollsUp? : Stmt → Option Uuid
  | select (.statusCounts jobId) | select (.nonTerminalCount jobId)
  | select (.rollupCounts jobId) => some jobId
  | updateJobs (.syncParent jobId _ _ _) | updateJobs (.updateParentFinal jobId _ _) => some jobId
  | _ => none

def Op.isPlain : Op → Bool
  | sql (.select (.queuedHosts _)) | sql (.select .duePending) | sql (.select .runningRows)
  | sql (.select (.timedOut _)) | sql (.select (.retryRow _)) => false
  | sql (.updateHosts (.markRunning _)) | sql (.updateHosts (.relayRunning _ _ _)) => false
  | sql (.updateHosts u) => !u.finishes
  | sql s => s.rollsUp?.isNone
  | o => o.submission?.isNone

/-- Executions and polls are started with a row at hand. -/
def Fn.isPlain : Fn → Bool
  | executeHostJob _ _ _ _ | pollSingleHost _ | reconnectLoop _ _ _ _ _ => false
  | _ => true

abbrev Plain {α : Type} (p : Proc α) : Prop :=
  p.Within (fun o => o.isPlain = true) (fun f => f.isPlain = true) fun _ => False

/-! ## The plain functions -/

theorem forkEach_plain {A : Type} {f : A → Fn} (plain : ∀ a, (f a).isPlain = true) (l : List A) :
    Plain (forkEach f l) := by
  induction l with
  | nil => exact .ret _
  | cons a l ih => exact .spawn (plain a) ih

theorem sendFailureEmails_plain (jobId : Uuid) (failedHosts : List (String × String)) :
    Plain (sendFailureEmails jobId failedHosts) := by
  induction failedHosts with
  | nil => exact .ret _
  | cons host rest ih => exact .op rfl fun _ => ih

theorem jobEmails_plain (jobId : Uuid) (total succeeded failed : Nat) :
    Plain (jobEmails jobId total succeeded failed) := by
  refine .op rfl fun _ => .ite (.op rfl fun answer => ?_) (.ret _)
  cases answer with
  | error reason => exact .ret _
  | ok failedHosts => exact sendFailureEmails_plain jobId failedHosts

theorem scanQueuedJobs_plain : Plain scanQueuedJobs := by
  refine .op rfl fun answer => ?_
  cases answer with
  | error reason => exact .ret _
  | ok jobIds => exact forkEach_plain (fun _ => rfl) jobIds

theorem checkHostHealthChecks_plain (hostId : Uuid) : Plain (checkHostHealthChecks hostId) := by
  refine .op rfl fun answer => ?_
  cases answer with
  | error reason => exact .ret _
  | ok checkCount =>
    refine .ite (.ret _) (.op rfl fun answer => ?_)
    cases answer <;> exact .ret _

theorem expandPackages_plain (hostId : Uuid) (patchSelection : Json) :
    Plain (expandPackages hostId patchSelection) := by
  refine .ite (.op rfl fun answer => ?_) (.ret _)
  match answer with
  | .ok (some val) => exact .ret _
  | .ok none => exact .ret _
  | .error reason => exact .ret _

theorem rebootSafetyState_plain (hostId : Uuid) : Plain (rebootSafetyState hostId) := by
  refine .op rfl fun answer => ?_
  cases answer <;> exact .ret _

theorem targetVersionOf_plain (jobId : Uuid) : Plain (targetVersionOf jobId) := by
  refine .op rfl fun answer => ?_
  cases answer with
  | error reason => exact .ret _
  | ok found => cases found <;> exact .ret _

theorem oldVersionOf_plain (hostId : Uuid) : Plain (oldVersionOf hostId) := by
  refine .op rfl fun answer => ?_
  cases answer <;> exact .ret _

theorem endRelay_plain (row : RunningHostJob) : Plain (endRelay row) := .op rfl .ret

theorem startRelays_plain (rows : List RunningHostJob) : Plain (startRelays rows) := by
  induction rows with
  | nil => exact .ret _
  | cons row rest ih =>
    refine .op rfl fun active => .ite ih (.op rfl fun answer => ?_)
    cases answer with
    | error reason => exact ih
    | ok =>
      refine .op rfl fun answer => ?_
      cases answer with
      | error reason => exact ih
      | ok => exact .op rfl fun _ => .spawn rfl ih

theorem relayTick_plain : Plain relayTick := by
  refine .op rfl fun answer => ?_
  cases answer with
  | error reason => exact .ret _
  | ok rows => exact startRelays_plain rows

theorem autoCreateFor_plain (win : AutoApplyWindow) : Plain (autoCreateFor win) := by
  refine .op rfl fun answer => ?_
  cases answer with
  | error reason => exact .ret _
  | ok pending =>
    cases pending with
    | none => exact .ret _
    | some pending =>
      refine .op rfl fun answer => ?_
      cases answer with
      | error reason => exact .ret _
      | ok existingJob => exact .ite (.ret _) (.op rfl fun _ => .ret _)

theorem autoCreateEach_plain (windows : List AutoApplyWindow) : Plain (autoCreateEach windows) := by
  induction windows with
  | nil => exact .ret _
  | cons win rest ih => exact .bind (autoCreateFor_plain win) fun _ => ih

theorem dispatchForHosts_plain (hosts : List Uuid) : Plain (dispatchForHosts hosts) := by
  induction hosts with
  | nil => exact .ret _
  | cons hostId rest ih =>
    refine .op rfl fun answer => ?_
    cases answer with
    | error reason => exact ih
    | ok jobIds =>
      change Plain ((forkEach .processJob jobIds).bind fun _ => dispatchForHosts rest)
      exact .bind (forkEach_plain (fun _ => rfl) jobIds) fun _ => ih

theorem schedulerTick_plain : Plain schedulerTick := by
  refine .bind ?_ fun _ => ?_
  · refine .op rfl fun answer => ?_
    cases answer with
    | error reason => exact .ret _
    | ok windows => exact autoCreateEach_plain windows
  · refine .op rfl fun answer => ?_
    cases answer with
    | error reason => exact .ret _
    | ok hosts => exact dispatchForHosts_plain hosts

theorem insertHosts_plain (jobId : Uuid) (hostIds : List Uuid) : Plain (insertHosts jobId hostIds) := by
  induction hostIds with
  | nil => exact .ret _
  | cons hostId rest ih =>
    refine .op rfl fun answer => ?_
    cases answer with
    | error reason => exact .ret _
    | ok => exact ih

/-- What follows the insertion of a job's rows. -/
theorem insertHosts_bind_plain {α : Type} {jobId : Uuid} {hostIds : List Uuid}
    {rest : Except ApiError Unit → Proc α} (fails : ∀ e, Plain (rest (.error e)))
    (succeeds : Plain (rest (.ok ()))) : Plain ((insertHosts jobId hostIds).bind rest) := by
  refine .bind (insertHosts_plain jobId hostIds) fun answer => ?_
  cases answer with
  | error e => exact fails e
  | ok => exact succeeds

theorem createJob_plain (auth : AuthUser) (req : CreateJobRequest) : Plain (createJob auth req) := by
  refine .ite (.ret _) (.ite (.ret _) (.op rfl fun answer => ?_))
  cases answer with
  | error reason => exact .ret _
  | ok jobId => exact insertHosts_bind_plain (fun _ => .ret _) (.op rfl fun _ => .ret _)

theorem cancelRows_plain (auth : AuthUser) (id : Uuid) (status : JobStatus) :
    Plain (cancelRows auth id status) := by
  refine .op rfl fun answer => ?_
  cases answer with
  | error reason => exact .ret _
  | ok =>
    refine .op rfl fun answer => ?_
    cases answer with
    | error reason => exact .ret _
    | ok => exact .op rfl fun _ => .op rfl fun _ => .ret _

theorem cancelJob_plain (auth : AuthUser) (id : Uuid) : Plain (cancelJob auth id) := by
  refine .op rfl fun answer => ?_
  cases answer with
  | error reason => exact .ret _
  | ok found =>
    cases found with
    | none => exact .ret _
    | some job => exact .ite (.ret _) (.ite (.ret _) (cancelRows_plain auth id job.1))

theorem rollbackJob_plain (auth : AuthUser) (id : Uuid) : Plain (rollbackJob auth id) := by
  refine .ite (.ret _) (.op rfl fun answer => ?_)
  cases answer with
  | error reason => exact .ret _
  | ok originalExists =>
    refine .ite (.ret _) (.op rfl fun answer => ?_)
    cases answer with
    | error reason => exact .ret _
    | ok hostIds =>
      refine .ite (.ret _) (.op rfl fun answer => ?_)
      cases answer with
      | error reason => exact .ret _
      | ok jobId => exact insertHosts_bind_plain (fun _ => .ret _) (.op rfl fun _ => .ret _)

theorem insertUpgradeGroups_plain (auth : AuthUser) (immediate : Bool)
    (maintenanceWindowId : Option Uuid) (firstJobId : Uuid) (groups : List (String × List Uuid)) :
    Plain (insertUpgradeGroups auth immediate maintenanceWindowId firstJobId groups) := by
  induction groups generalizing firstJobId with
  | nil => exact .ret _
  | cons group rest ih =>
    refine .op rfl fun answer => ?_
    cases answer with
    | error reason => exact .ret _
    | ok jobId => exact insertHosts_bind_plain (fun _ => .ret _) (ih _)

theorem insertUpgradeJobs_plain (auth : AuthUser) (immediate : Bool)
    (maintenanceWindowId : Option Uuid) (groups : List (String × List Uuid)) (skipped : Nat) :
    Plain (insertUpgradeJobs auth immediate maintenanceWindowId groups skipped) := by
  refine .bind (insertUpgradeGroups_plain auth immediate maintenanceWindowId 0 groups)
    fun answer => ?_
  cases answer with
  | error e => exact .ret _
  | ok firstJobId => exact .op rfl fun _ => .ret _

end PatchManager
