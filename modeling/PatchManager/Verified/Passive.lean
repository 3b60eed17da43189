import PatchManager.Verified.Plain

/-! # Passive functions

The functions that watch rows and record their outcome never dispatch one: no submission
to an agent, no row marked running, no execution started.
-/

namespace PatchManager

open PatchManager.Conc

/-- The function is the execution of this host row. -/
def Fn.executes? : Fn → Option Uuid
  | executeHostJob _ _ pjhId _ => some pjhId
  | _ => none

def Op.isPassive (o : Op) : Bool := o.submission?.isNone && o.marks?.isNone

abbrev Passive {α : Type} (p : Proc α) : Prop :=
  p.Within (fun o => o.isPassive = true) (fun f => f.executes? = none) fun f => f.executes? = none

theorem Op.isPassive_of_isPlain {o : Op} (plain : o.isPlain = true) : o.isPassive = true := by
  cases o with
  | sql s =>
    cases s with
    | updateHosts u => cases u <;> first | rfl | cases plain
    | _ => rfl
  | applyPatches | reboot | updatePackage => cases plain
  | _ => rfl

theorem passive_of_plain {α : Type} {p : Proc α} (plain : Plain p) : Passive p :=
  plain.mono (fun _ => Op.isPassive_of_isPlain) (fun f h => by cases f <;> first | rfl | cases h)
    fun _ => False.elim

/-! ## Roll-ups and failures -/

theorem syncJobStatus_passive (jobId : Uuid) : Passive (syncJobStatus jobId) := by
  refine .op rfl fun answer => ?_
  cases answer with
  | error reason => exact .ret _
  | ok counts =>
    simp only [Prog.ret_bind]
    split
    · exact .ret _
    · exact .op rfl fun _ => .op rfl fun _ => .ite (.spawn rfl (.ret _)) (.ret _)

theorem updateParentJobStatus_passive (jobId : Uuid) : Passive (updateParentJobStatus jobId) := by
  refine .op rfl fun answer => ?_
  cases answer with
  | error reason => exact .ret _
  | ok pending =>
    refine .ite (.ret _) (.op rfl fun answer => ?_)
    cases answer with
    | error reason => exact .ret _
    | ok counts =>
      refine .op rfl fun answer => ?_
      cases answer with
      | error reason => exact .ret _
      | ok => exact .op rfl fun _ => .ret _

theorem handleHostFailure_passive (pjhId : Uuid) (errorMsg : String) :
    Passive (handleHostFailure pjhId errorMsg) := by
  refine .op rfl fun answer => ?_
  cases answer with
  | error reason => exact .ret _
  | ok found =>
    cases found with
    | none => exact .ret _
    | some row =>
      refine .ite (.ret _) (.ite (.op rfl fun _ => .op rfl fun _ => .ret _) (.op rfl fun answer => ?_))
      cases answer with
      | error reason => exact .ret _
      | ok affected => exact .ite (syncJobStatus_passive row.jobId) (.ret _)

theorem failTimedOut_passive (rows : List TimedOutRow) : Passive (failTimedOut rows) := by
  induction rows with
  | nil => exact .ret _
  | cons row rest ih =>
    refine .op rfl fun now => .op rfl fun answer => ?_
    cases answer with
    | error reason => exact ih
    | ok affected =>
      by_cases changed : affected > 0
      · simpa [changed] using Prog.Within.bind (syncJobStatus_passive row.jobId) fun _ => ih
      · simpa [changed] using ih

theorem failTimedOutJobs_passive (cfg : WorkerConfig) : Passive (failTimedOutJobs cfg) := by
  refine .ite (.ret _) (.op rfl fun answer => ?_)
  cases answer with
  | error reason => exact .ret _
  | ok rows => exact failTimedOut_passive rows

theorem waitForHealthChecks_passive (hostId pjhId : Uuid) :
    Passive (waitForHealthChecks hostId pjhId) :=
  .op rfl fun _ => .ite (handleHostFailure_passive pjhId _) (.op rfl fun _ => .op rfl fun _ => .ret _)

theorem recordSubmission_passive (pjhId : Uuid) (answer : Except AgentClientError SubmitResponse) :
    Passive (recordSubmission pjhId answer) := by
  cases answer with
  | error e => exact handleHostFailure_passive pjhId _
  | ok resp => exact .op rfl fun _ => .ret _

/-! ## Polls -/

theorem finishSelfUpgradeSuccess_passive (row : PatchJobHostRunning) (newVersion : String) :
    Passive (finishSelfUpgradeSuccess row newVersion) := by
  refine .op rfl fun _ => .op rfl fun answer => ?_
  cases answer with
  | error reason => exact syncJobStatus_passive row.jobId
  | ok affected => exact .ite (.ret _) (syncJobStatus_passive row.jobId)

theorem reconnectLoop_passive (cfg : WorkerConfig) (row : PatchJobHostRunning) (client : AgentClient)
    (targetVersion oldVersion : Option String) (elapsed : UInt64) :
    Passive (reconnectLoop cfg row client targetVersion oldVersion elapsed) := by
  simp only [reconnectLoop, Prog.bind_eq, Prog.perform_bind]
  refine .op rfl fun _ => .op rfl fun health => ?_
  split
  · exact finishSelfUpgradeSuccess_passive row _
  · exact .ite (handleHostFailure_passive row.id _) (.jump rfl)
  · exact handleHostFailure_passive row.id _

theorem reconnectConfirmSelfUpgrade_passive (row : PatchJobHostRunning) (client : AgentClient) :
    Passive (reconnectConfirmSelfUpgrade row client) :=
  .bind (passive_of_plain (targetVersionOf_plain row.jobId)) fun _ =>
    .bind (passive_of_plain (oldVersionOf_plain row.hostId)) fun _ => .jump rfl

theorem confirmSelfUpgrade_passive (row : PatchJobHostRunning) (client : AgentClient)
    (newVersion : String) : Passive (confirmSelfUpgrade row client newVersion) := by
  refine .bind (passive_of_plain (targetVersionOf_plain row.jobId)) fun _ =>
    .bind (passive_of_plain (oldVersionOf_plain row.hostId)) fun _ => ?_
  split
  · exact finishSelfUpgradeSuccess_passive row newVersion
  · exact reconnectConfirmSelfUpgrade_passive row client

theorem pollSelfUpgradeHost_passive (row : PatchJobHostRunning) (client : AgentClient)
    (statusResult : Except AgentClientError AgentJobStatus) :
    Passive (pollSelfUpgradeHost row client statusResult) := by
  unfold pollSelfUpgradeHost
  split
  · refine .op rfl fun answer => ?_
    cases answer with
    | error e => exact reconnectConfirmSelfUpgrade_passive row client
    | ok health => exact confirmSelfUpgrade_passive row client health.version
  · exact reconnectConfirmSelfUpgrade_passive row client
  · exact .ret _
  · exact .ret _
  · exact reconnectConfirmSelfUpgrade_passive row client

theorem recordSucceeded_passive (row : PatchJobHostRunning) (status : AgentJobStatus) :
    Passive (recordSucceeded row status) := by
  refine .op rfl fun answer => ?_
  cases answer with
  | error reason => exact syncJobStatus_passive row.jobId
  | ok affected => exact .ite (.ret _) (syncJobStatus_passive row.jobId)

theorem recordStatus_passive (row : PatchJobHostRunning)
    (answer : Except AgentClientError AgentJobStatus) : Passive (recordStatus row answer) := by
  unfold recordStatus
  split
  · exact .ite (handleHostFailure_passive row.id _) (.ret _)
  · exact .ret _
  · split
    · exact recordSucceeded_passive row _
    · exact recordSucceeded_passive row _
    · exact handleHostFailure_passive row.id _
    · exact handleHostFailure_passive row.id _
    · exact .ret _

theorem pollSingleHost_passive (row : PatchJobHostRunning) : Passive (pollSingleHost row) := by
  refine .op rfl fun answer => ?_
  cases answer with
  | error reason => exact .ret _
  | ok =>
    refine .op rfl fun answer => ?_
    cases answer with
    | error e => exact .ret _
    | ok =>
      refine .op rfl fun statusResult => ?_
      split
      · exact pollSelfUpgradeHost_passive row _ statusResult
      · exact recordStatus_passive row statusResult

theorem pollRunningJobs_passive : Passive pollRunningJobs := by
  refine .op rfl fun answer => ?_
  cases answer with
  | error reason => exact .ret _
  | ok rows =>
    change Passive (forkEach .pollSingleHost rows)
    induction rows with
    | nil => exact .ret _
    | cons row rest ih => exact .spawn rfl ih

/-! ## Relays -/

theorem processEvent_passive (row : RunningHostJob) (event : AgentWsEvent) :
    Passive (processEvent row event) := by
  unfold processEvent
  split
  · exact .ret _
  · rename_i dbStatus _
    refine .op ?_ fun answer => ?_
    · unfold relayUpdate; split <;> rfl
    · cases answer with
      | error reason => exact .ret _
      | ok affected =>
        have notify : Passive (Prog.op (.sql (.notifyJobUpdate (hostNotifyPayload row event dbStatus)))
            fun _ => Prog.ret ()) := .op rfl fun _ => .ret _
        refine .ite (.ret _) ?_
        by_cases terminal : dbStatus.isTerminal = true
        · simpa [terminal] using
            Prog.Within.bind (updateParentJobStatus_passive row.jobId) fun _ => notify
        · simpa [terminal] using notify

theorem relayOneJob_passive (row : RunningHostJob) : Passive (relayOneJob row) := by
  refine .op rfl fun answer => ?_
  cases answer with
  | error reason =>
    refine .op rfl fun answer => ?_
    cases answer with
    | error e => exact passive_of_plain (endRelay_plain row)
    | ok => exact .jump rfl
  | ok => exact .jump rfl

theorem relayStream_passive (row : RunningHostJob) : Passive (relayStream row) := by
  refine .op rfl fun answer => ?_
  have ends : Passive (endRelay row) := passive_of_plain (endRelay_plain row)
  match answer with
  | none => exact ends
  | some (.error _) => exact ends
  | some .close => exact ends
  | some .other => exact .jump rfl
  | some (.message none) => exact .jump rfl
  | some (.message (some event)) =>
    change Passive ((processEvent row event).bind fun _ =>
      if stopsRelay event.status then endRelay row else .jump (.relayStream row))
    exact .bind (processEvent_passive row event) fun _ => .ite ends (.jump rfl)

theorem relayPoll_passive (cfg : WorkerConfig) (row : RunningHostJob) (client : AgentClient)
    (lastStatus : Option String) : Passive (relayPoll cfg row client lastStatus) := by
  refine .op rfl fun _ => .op rfl fun answer => ?_
  cases answer with
  | error e => exact .jump rfl
  | ok status =>
    refine .ite (.jump rfl) (.bind (processEvent_passive row _) fun _ => ?_)
    exact .ite (passive_of_plain (endRelay_plain row)) (.jump rfl)

end PatchManager
