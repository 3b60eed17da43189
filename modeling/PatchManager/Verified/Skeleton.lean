import PatchManager.Conc.Closed
import PatchManager.Engine.System

/-! # The functions under a closed property

Every function of the service, walked through once for any property of programs that is
kept by sequencing.  Operations are sorted into kinds; a lemma about a function asks for the
kinds of the operations the function performs itself, and for the property of the functions
it calls.
-/

namespace PatchManager

open PatchManager.Conc

/-! ## Kinds of operations -/

inductive OpKind where
  | read
  | readDispatch
  | readRunning
  | readRelays
  | readFailure
  | readTimedOut
  | readRollUp
  | readTarget
  | readCancel
  | mark
  | storeAgentJob
  | setSucceeded
  | fail
  | requeue
  | setTimedOut
  | relay
  | cancelHosts
  | markJob
  | rollUp
  | rollUpFinal
  | cancelParent
  | insertJob
  | insertHost
  | insertAuto
  | submit
  | poll
  | health
  | frame
  | mail
  | sleep
  | semaphore
  | takePair
  | freePair
  | other
deriving DecidableEq

def Query.kind : Query → OpKind
  | queuedHosts _ | duePending => .readDispatch
  | runningRows => .readRunning
  | runningHostJobs => .readRelays
  | retryRow _ => .readFailure
  | timedOut _ => .readTimedOut
  | statusCounts _ | nonTerminalCount _ | rollupCounts _ => .readRollUp
  | patchSelection _ | agentVersion _ => .readTarget
  | jobStatusAndCreator _ => .readCancel
  | _ => .read

def HostUpdate.kind : HostUpdate → OpKind
  | markRunning _ => .mark
  | storeAgentJobId _ _ => .storeAgentJob
  | setSucceeded _ _ => .setSucceeded
  | setPending _ _ _ _ | setFailed _ _ => .fail
  | setWaitingHealthCheck _ _ | resetQueued _ => .requeue
  | setTimedOut _ _ => .setTimedOut
  | relayTerminal _ _ _ | relayRunning _ _ _ => .relay
  | cancelHosts _ => .cancelHosts

def JobUpdate.kind : JobUpdate → OpKind
  | markJobRunning _ => .markJob
  | syncParent _ _ _ _ => .rollUp
  | updateParentFinal _ _ _ => .rollUpFinal
  | cancelParent _ => .cancelParent

def Op.kind : Op → OpKind
  | sql (.select q) => q.kind
  | sql (.updateHosts u) => u.kind
  | sql (.updateJobs u) => u.kind
  | sql (.insertJob _) => .insertJob
  | sql (.insertJobHost _ _) => .insertHost
  | sql (.insertAutoJob _ _) => .insertAuto
  | applyPatches _ _ _ | reboot _ _ _ | updatePackage _ _ _ => .submit
  | jobStatus _ _ => .poll
  | health _ => .health
  | nextFrame _ => .frame
  | sendJobCompletionEmail _ _ _ _ => .mail
  | sleep _ => .sleep
  | newSemaphore _ | acquire _ | release _ => .semaphore
  | activeInsert _ => .takePair
  | activeRemove _ => .freePair
  | _ => .other

/-- `P` is closed under operations of the kinds in `K`, among them the plain queries and what
    touches neither the job tables nor an agent's job. -/
structure Follows (P : ∀ {α : Type}, Proc α → Prop) (K : OpKind → Bool) (fns tails : Fn → Prop) :
    Prop extends Closed @P (fun o => K o.kind = true) fns tails where
  other : K .other = true
  read : K .read = true

variable {P : ∀ {α : Type}, Proc α → Prop} {K : OpKind → Bool} {fns tails : Fn → Prop}
  (C : Follows @P K fns tails)

include C

theorem forkEach_follows {A : Type} {f : A → Fn} (starts : ∀ a, fns (f a)) (l : List A) :
    P (forkEach f l) := by
  induction l with
  | nil => exact C.ret _
  | cons a l ih => exact C.spawn (starts a) ih

/-! ## Roll-ups, mails and failures -/

theorem syncJobStatus_follows (reads : K .readRollUp = true) (writes : K .rollUp = true)
    (mails : ∀ jobId total succeeded failed, fns (.jobEmails jobId total succeeded failed))
    (jobId : Uuid) : P (syncJobStatus jobId) := by
  refine C.op reads fun answer => ?_
  cases answer with
  | error reason => exact C.ret _
  | ok counts =>
    simp only [Prog.ret_bind]
    split
    · exact C.ret _
    · refine C.op writes fun _ => C.op C.other fun _ => ?_
      split
      · exact C.spawn (mails _ _ _ _) (C.ret _)
      · exact C.ret _

theorem updateParentJobStatus_follows (reads : K .readRollUp = true)
    (writes : K .rollUpFinal = true)
    (jobId : Uuid) : P (updateParentJobStatus jobId) := by
  refine C.op reads fun answer => ?_
  cases answer with
  | error reason => exact C.ret _
  | ok pending =>
    refine iteInduction (fun _ => C.ret _) fun _ => C.op reads fun answer => ?_
    cases answer with
    | error reason => exact C.ret _
    | ok counts =>
      refine C.op writes fun answer => ?_
      cases answer with
      | error reason => exact C.ret _
      | ok => exact C.op C.other fun _ => C.ret _

theorem sendFailureEmails_follows (jobId : Uuid) (failedHosts : List (String × String)) :
    P (sendFailureEmails jobId failedHosts) := by
  induction failedHosts with
  | nil => exact C.ret _
  | cons host rest ih => exact C.op C.other fun _ => ih

theorem jobEmails_follows (mail : K .mail = true) (jobId : Uuid) (total succeeded failed : Nat) :
    P (jobEmails jobId total succeeded failed) := by
  refine C.op mail fun _ => iteInduction (fun _ => C.op C.read fun answer => ?_) fun _ => C.ret _
  cases answer with
  | error reason => exact C.ret _
  | ok failedHosts => exact sendFailureEmails_follows C jobId failedHosts

theorem handleHostFailure_follows (reads : K .readFailure = true) (fails : K .fail = true)
    (sync : ∀ jobId, P (syncJobStatus jobId)) (pjhId : Uuid) (errorMsg : String) :
    P (handleHostFailure pjhId errorMsg) := by
  refine C.op reads fun answer => ?_
  match answer with
  | .error reason => exact C.ret _
  | .ok none => exact C.ret _
  | .ok (some row) =>
    refine iteInduction (fun _ => C.ret _) fun _ => iteInduction (fun _ => ?_) fun _ => ?_
    · exact C.op C.other fun now => C.op fails fun _ => C.ret _
    · refine C.op fails fun answer => ?_
      cases answer with
      | error reason => exact C.ret _
      | ok affected => exact iteInduction (fun _ => sync row.jobId) fun _ => C.ret _

theorem redispatch_follows (requeues : K .requeue = true)
    (starts : ∀ jobId hostId pjhId, fns (.executeHostJob jobId hostId pjhId none))
    (rows : List PatchJobHostPending) : P (redispatch rows) := by
  induction rows with
  | nil => exact C.ret _
  | cons row rest ih =>
    refine C.op requeues fun answer => ?_
    cases answer with
    | error reason => exact ih
    | ok affected =>
      by_cases reset : affected > 0
      · simpa [reset] using C.spawn (starts row.jobId row.hostId row.id) ih
      · simpa [reset] using ih

theorem retryPendingJobs_follows (reads : K .readDispatch = true) (requeues : K .requeue = true)
    (starts : ∀ jobId hostId pjhId, fns (.executeHostJob jobId hostId pjhId none)) :
    P retryPendingJobs := by
  refine C.op reads fun answer => ?_
  cases answer with
  | error reason => exact C.ret _
  | ok rows => exact redispatch_follows C requeues starts rows

theorem failTimedOut_follows (writes : K .setTimedOut = true) (sync : ∀ jobId, P (syncJobStatus jobId))
    (rows : List TimedOutRow) : P (failTimedOut rows) := by
  induction rows with
  | nil => exact C.ret _
  | cons row rest ih =>
    refine C.op C.other fun now => C.op writes fun answer => ?_
    cases answer with
    | error reason => exact ih
    | ok affected =>
      by_cases changed : affected > 0
      · simpa [changed] using C.bind (sync row.jobId) fun _ => ih
      · simpa [changed] using ih

theorem failTimedOutJobs_follows (reads : K .readTimedOut = true) (writes : K .setTimedOut = true)
    (sync : ∀ jobId, P (syncJobStatus jobId)) (cfg : WorkerConfig) : P (failTimedOutJobs cfg) := by
  refine iteInduction (fun _ => C.ret _) fun _ => C.op reads fun answer => ?_
  cases answer with
  | error reason => exact C.ret _
  | ok rows => exact failTimedOut_follows C writes sync rows

/-! ## Dispatch and executions -/

theorem dispatchHosts_follows (permits : K .semaphore = true)
    (starts : ∀ jobId hostId pjhId semaphore, fns (.executeHostJob jobId hostId pjhId (some semaphore)))
    (jobId : Uuid) (semaphore : Nat) (hosts : List PatchJobHostQueued) :
    P (dispatchHosts jobId semaphore hosts) := by
  induction hosts with
  | nil => exact C.ret _
  | cons host rest ih => exact C.op permits fun _ => C.spawn (starts _ _ _ _) ih

theorem processJob_follows (marks : K .markJob = true) (reads : K .readDispatch = true)
    (permits : K .semaphore = true)
    (starts : ∀ jobId hostId pjhId semaphore, fns (.executeHostJob jobId hostId pjhId (some semaphore)))
    (cfg : WorkerConfig) (jobId : Uuid) : P (processJob cfg jobId) := by
  refine C.op marks fun _ => C.op reads fun answer => ?_
  cases answer with
  | error reason => exact C.ret _
  | ok hosts =>
    exact iteInduction (fun _ => C.ret _) fun _ =>
      C.op permits fun semaphore => dispatchHosts_follows C permits starts jobId semaphore hosts

theorem scanQueuedJobs_follows (starts : ∀ jobId, fns (.processJob jobId)) : P scanQueuedJobs := by
  refine C.op C.read fun answer => ?_
  cases answer with
  | error reason => exact C.ret _
  | ok jobIds => exact forkEach_follows C starts jobIds

theorem checkHostHealthChecks_follows (hostId : Uuid) : P (checkHostHealthChecks hostId) := by
  refine C.op C.read fun answer => ?_
  cases answer with
  | error reason => exact C.ret _
  | ok checkCount =>
    refine iteInduction (fun _ => C.ret _) fun _ => C.op C.read fun answer => ?_
    cases answer <;> exact C.ret _

theorem expandPackages_follows (hostId : Uuid) (patchSelection : Json) :
    P (expandPackages hostId patchSelection) := by
  refine iteInduction (fun _ => C.op C.read fun answer => ?_) fun _ => C.ret _
  match answer with
  | .ok (some val) => exact C.ret _
  | .ok none => exact C.ret _
  | .error reason => exact C.ret _

theorem rebootSafetyState_follows (hostId : Uuid) : P (rebootSafetyState hostId) := by
  refine C.op C.read fun answer => ?_
  cases answer <;> exact C.ret _

/-! ## Executions -/

omit C

/-- `Q` holds of programs that begin with parts that have `P`, or with operations of the kinds in
    `K`, and go on with programs that have `Q`. -/
structure Leads (P Q : ∀ {α : Type}, Proc α → Prop) (K : OpKind → Bool) : Prop where
  ret : ∀ {α : Type} (value : α), Q (Prog.ret value : Proc α)
  op : ∀ {α : Type} {o : Op} {next : o.Resp → Proc α}, K o.kind = true → (∀ r, Q (next r)) →
    Q (Prog.op o next)
  bind : ∀ {α β : Type} {p : Proc α} {rest : α → Proc β}, P p → (∀ a, Q (rest a)) →
    Q (p.bind rest)

theorem Follows.leads (C : Follows @P K fns tails) : Leads @P @P K := ⟨C.ret, C.op, C.bind⟩

section execution

variable {Q : ∀ {α : Type}, Proc α → Prop} (D : Leads @P @Q K) {pjhId : Uuid}
  (fails : ∀ errorMsg, Q (handleHostFailure pjhId errorMsg))
  (stores : ∀ agentJobId, Q (Prog.op (.sql (.updateHosts (.storeAgentJobId pjhId agentJobId)))
    fun _ => Prog.ret () : Proc Unit))

include C D fails

theorem waitForHealthChecks_leads (requeues : K .requeue = true) (hostId : Uuid) :
    Q (waitForHealthChecks hostId pjhId) :=
  D.op C.read fun _ => iteInduction (fun _ => fails _) fun _ =>
    D.op C.other fun _ => D.op requeues fun _ => D.ret _

include stores

omit C D in
theorem recordSubmission_leads (answer : Except AgentClientError SubmitResponse) :
    Q (recordSubmission pjhId answer) := by
  cases answer with
  | error e => exact fails _
  | ok resp => exact stores resp.jobId

omit C in
theorem submitReboot_leads (submits : K .submit = true) (client : AgentClient) :
    Q (submitReboot pjhId client) :=
  D.op submits fun answer => recordSubmission_leads fails stores answer

theorem dispatchByKind_leads (submits : K .submit = true) (hostId : Uuid) (client : AgentClient)
    (jobInfo : JobInfo) : Q (dispatchByKind hostId pjhId client jobInfo) := by
  unfold dispatchByKind
  split
  · exact D.op submits fun answer => recordSubmission_leads fails stores answer
  · refine D.bind (rebootSafetyState_follows C hostId) fun state => ?_
    cases state with
    | none => exact submitReboot_leads D fails stores submits client
    | some state =>
      simp only
      split
      · exact D.op C.other fun _ => fails _
      · exact submitReboot_leads D fails stores submits client
  · exact D.bind (expandPackages_follows C hostId _) fun _ =>
      D.bind (rebootSafetyState_follows C hostId) fun _ =>
        D.op submits fun answer => recordSubmission_leads fails stores answer

theorem submitHostJob_leads (marks : K .mark = true) (submits : K .submit = true)
    (jobId hostId : Uuid) (host : HostRow) : Q (submitHostJob jobId hostId pjhId host) := by
  refine D.op C.read fun answer => ?_
  match answer with
  | .error e => exact fails _
  | .ok none => exact fails _
  | .ok (some jobInfo) =>
    refine D.op C.other fun answer => ?_
    cases answer with
    | error e => exact fails _
    | ok =>
      refine D.op C.other fun answer => ?_
      cases answer with
      | error e => exact fails _
      | ok =>
        exact D.op marks fun _ => dispatchByKind_leads C D fails stores submits hostId _ jobInfo

theorem executeHostJob_leads (marks : K .mark = true) (submits : K .submit = true)
    (requeues : K .requeue = true) (jobId hostId : Uuid) :
    Q (executeHostJob jobId hostId pjhId) := by
  refine D.op C.read fun answer => ?_
  match answer with
  | .error e => exact fails _
  | .ok none => exact fails _
  | .ok (some host) =>
    change Q ((checkHostHealthChecks hostId).bind fun answer => _)
    refine D.bind (checkHostHealthChecks_follows C hostId) fun answer => ?_
    match answer with
    | .ok true => exact submitHostJob_leads C D fails stores marks submits jobId hostId host
    | .ok false => exact waitForHealthChecks_leads C D fails requeues hostId
    | .error reason => exact submitHostJob_leads C D fails stores marks submits jobId hostId host

end execution

include C

theorem executeHostJob_follows (fails : ∀ pjhId errorMsg, P (handleHostFailure pjhId errorMsg))
    (marks : K .mark = true) (submits : K .submit = true)
    (stores : K .storeAgentJob = true) (requeues : K .requeue = true) (jobId hostId pjhId : Uuid) :
    P (executeHostJob jobId hostId pjhId) :=
  executeHostJob_leads C C.leads (fails pjhId) (fun _ => C.op stores fun _ => C.ret _) marks submits
    requeues jobId hostId

/-! ## Polls -/

theorem targetVersionOf_follows (reads : K .readTarget = true) (jobId : Uuid) :
    P (targetVersionOf jobId) := by
  refine C.op reads fun answer => ?_
  cases answer with
  | error reason => exact C.ret _
  | ok found => cases found <;> exact C.ret _

theorem oldVersionOf_follows (reads : K .readTarget = true) (hostId : Uuid) :
    P (oldVersionOf hostId) := by
  refine C.op reads fun answer => ?_
  cases answer <;> exact C.ret _

section poll

variable {row : PatchJobHostRunning} (sync : ∀ jobId, P (syncJobStatus jobId))
  (fails : ∀ errorMsg, P (handleHostFailure row.id errorMsg))
  (again : ∀ client targetVersion oldVersion elapsed,
    tails (.reconnectLoop row client targetVersion oldVersion elapsed))

include sync in
theorem finishSelfUpgradeSuccess_follows (writes : K .setSucceeded = true)
    (newVersion : String) : P (finishSelfUpgradeSuccess row newVersion) := by
  refine C.op C.other fun _ => C.op writes fun answer => ?_
  cases answer with
  | error reason => exact sync row.jobId
  | ok affected => exact iteInduction (fun _ => C.ret _) fun _ => sync row.jobId

include sync in
theorem recordSucceeded_follows (writes : K .setSucceeded = true) (status : AgentJobStatus) :
    P (recordSucceeded row status) := by
  refine C.op writes fun answer => ?_
  cases answer with
  | error reason => exact sync row.jobId
  | ok affected => exact iteInduction (fun _ => C.ret _) fun _ => sync row.jobId

include sync fails again

theorem reconnectLoop_follows (sleeps : K .sleep = true) (samples : K .health = true)
    (writes : K .setSucceeded = true)
    (cfg : WorkerConfig) (client : AgentClient)
    (targetVersion oldVersion : Option String) (elapsed : UInt64) :
    P (reconnectLoop cfg row client targetVersion oldVersion elapsed) := by
  simp only [reconnectLoop, Prog.bind_eq, Prog.perform_bind]
  refine C.op sleeps fun _ => C.op samples fun health => ?_
  split
  · exact finishSelfUpgradeSuccess_follows C sync writes _
  · exact iteInduction (fun _ => fails _) fun _ => C.jump (again _ _ _ _)
  · exact fails _

omit sync fails in
theorem reconnectConfirmSelfUpgrade_follows (reads : K .readTarget = true) (client : AgentClient) :
    P (reconnectConfirmSelfUpgrade row client) :=
  C.bind (targetVersionOf_follows C reads row.jobId) fun _ =>
    C.bind (oldVersionOf_follows C reads row.hostId) fun _ => C.jump (again _ _ _ _)

omit fails in
theorem confirmSelfUpgrade_follows (reads : K .readTarget = true) (writes : K .setSucceeded = true)
    (client : AgentClient) (newVersion : String) : P (confirmSelfUpgrade row client newVersion) := by
  refine C.bind (targetVersionOf_follows C reads row.jobId) fun _ =>
    C.bind (oldVersionOf_follows C reads row.hostId) fun _ => ?_
  split
  · exact finishSelfUpgradeSuccess_follows C sync writes newVersion
  · exact reconnectConfirmSelfUpgrade_follows C again reads client

omit again in
theorem recordStatus_follows (writes : K .setSucceeded = true)
    (answer : Except AgentClientError AgentJobStatus) : P (recordStatus row answer) := by
  unfold recordStatus
  split
  · exact iteInduction (fun _ => fails _) fun _ => C.ret _
  · exact C.ret _
  · split
    · exact recordSucceeded_follows C sync writes _
    · exact recordSucceeded_follows C sync writes _
    · exact fails _
    · exact fails _
    · exact C.ret _

omit fails in
theorem pollSelfUpgradeHost_follows (samples : K .health = true) (reads : K .readTarget = true)
    (writes : K .setSucceeded = true)
    (client : AgentClient)
    (statusResult : Except AgentClientError AgentJobStatus) :
    P (pollSelfUpgradeHost row client statusResult) := by
  have reconnects := reconnectConfirmSelfUpgrade_follows C again reads client
  unfold pollSelfUpgradeHost
  split
  · refine C.op samples fun answer => ?_
    cases answer with
    | error e => exact reconnects
    | ok health => exact confirmSelfUpgrade_follows C sync again reads writes client health.version
  · exact reconnects
  · exact C.ret _
  · exact C.ret _
  · exact reconnects

theorem pollSingleHost_follows (polls : K .poll = true) (samples : K .health = true)
    (reads : K .readTarget = true) (writes : K .setSucceeded = true) : P (pollSingleHost row) := by
  refine C.op C.other fun answer => ?_
  cases answer with
  | error reason => exact C.ret _
  | ok =>
    refine C.op C.other fun answer => ?_
    cases answer with
    | error e => exact C.ret _
    | ok =>
      refine C.op polls fun statusResult => ?_
      split
      · exact pollSelfUpgradeHost_follows C sync again samples reads writes _ statusResult
      · exact recordStatus_follows C sync fails writes statusResult

end poll

theorem pollRunningJobs_follows (reads : K .readRunning = true)
    (starts : ∀ row, fns (.pollSingleHost row)) : P pollRunningJobs := by
  refine C.op reads fun answer => ?_
  cases answer with
  | error reason => exact C.ret _
  | ok rows => exact forkEach_follows C starts rows

/-! ## Relays -/

theorem endRelay_follows (frees : K .freePair = true) (row : RunningHostJob) : P (endRelay row) :=
  C.op frees fun _ => C.ret _

/-- The property of the statement `process_event` runs is all that depends on the event. -/
theorem processEvent_follows {row : RunningHostJob} {event : AgentWsEvent}
    (writes : ∀ dbStatus, dbStatus? event.status = some dbStatus →
      ∀ next : Except String Nat → Proc Unit, (∀ answer, P (next answer)) →
        P (Prog.op (.sql (.updateHosts (relayUpdate row event dbStatus))) next))
    (rollsUp : P (updateParentJobStatus row.jobId)) : P (processEvent row event) := by
  unfold processEvent
  split
  · exact C.ret _
  · rename_i dbStatus maps
    refine writes dbStatus maps _ fun answer => ?_
    cases answer with
    | error reason => exact C.ret _
    | ok affected =>
      have notify : P (Prog.op (.sql (.notifyJobUpdate (hostNotifyPayload row event dbStatus)))
          fun _ => Prog.ret ()) := C.op C.other fun _ => C.ret _
      refine iteInduction (fun _ => C.ret _) fun _ => ?_
      by_cases terminal : dbStatus.isTerminal = true
      · simpa [terminal] using C.bind rollsUp fun _ => notify
      · simpa [terminal] using notify

theorem relayUpdate_follows (writes : K .relay = true) (row : RunningHostJob) (event : AgentWsEvent)
    (dbStatus : JobStatus) (next : Except String Nat → Proc Unit) (rest : ∀ answer, P (next answer)) :
    P (Prog.op (.sql (.updateHosts (relayUpdate row event dbStatus))) next) := by
  have kind : (relayUpdate row event dbStatus).kind = .relay := by
    unfold relayUpdate; split <;> rfl
  exact C.op ((congrArg K kind).trans writes) rest

section relay

variable {row : RunningHostJob} (frees : K .freePair = true)

include frees

theorem relayOneJob_follows (streams : tails (.relayStream row))
    (polls : ∀ client lastStatus, tails (.relayPoll row client lastStatus)) :
    P (relayOneJob row) := by
  refine C.op C.other fun answer => ?_
  cases answer with
  | error reason =>
    refine C.op C.other fun answer => ?_
    cases answer with
    | error e => exact endRelay_follows C frees row
    | ok => exact C.jump (polls _ _)
  | ok => exact C.jump streams

theorem relayStream_follows (reads : K .frame = true) (records : ∀ event, P (processEvent row event))
    (streams : tails (.relayStream row)) : P (relayStream row) := by
  refine C.op reads fun answer => ?_
  have ends := endRelay_follows C frees row
  have again : P (.jump (.relayStream row) : Proc Unit) := C.jump streams
  match answer with
  | none => exact ends
  | some (.error _) => exact ends
  | some .close => exact ends
  | some .other => exact again
  | some (.message none) => exact again
  | some (.message (some event)) =>
    change P ((processEvent row event).bind fun _ =>
      if stopsRelay event.status then endRelay row else .jump (.relayStream row))
    exact C.bind (records event) fun _ => iteInduction (fun _ => ends) fun _ => again

theorem relayPoll_follows (sleeps : K .sleep = true) (polls : K .poll = true)
    (records : ∀ event, P (processEvent row event))
    (again : ∀ client lastStatus, tails (.relayPoll row client lastStatus))
    (cfg : WorkerConfig) (client : AgentClient) (lastStatus : Option String) :
    P (relayPoll cfg row client lastStatus) := by
  refine C.op sleeps fun _ => C.op polls fun answer => ?_
  cases answer with
  | error e => exact C.jump (again _ _)
  | ok status =>
    exact iteInduction (fun _ => C.jump (again _ _)) fun _ => C.bind (records _) fun _ =>
      iteInduction (fun _ => endRelay_follows C frees row) fun _ => C.jump (again _ _)

end relay

theorem startRelays_follows (takes : K .takePair = true) (starts : ∀ row, fns (.relayOneJob row))
    (rows : List RunningHostJob) : P (startRelays rows) := by
  induction rows with
  | nil => exact C.ret _
  | cons row rest ih =>
    refine C.op C.other fun active => iteInduction (fun _ => ih) fun _ => C.op C.other fun answer => ?_
    cases answer with
    | error reason => exact ih
    | ok =>
      refine C.op C.other fun answer => ?_
      cases answer with
      | error reason => exact ih
      | ok => exact C.op takes fun _ => C.spawn (starts row) ih

theorem relayTick_follows (reads : K .readRelays = true) (takes : K .takePair = true)
    (starts : ∀ row, fns (.relayOneJob row)) : P relayTick := by
  refine C.op reads fun answer => ?_
  cases answer with
  | error reason => exact C.ret _
  | ok rows => exact startRelays_follows C takes starts rows

/-! ## Timers -/

section windows

variable (inserts : ∀ win : AutoApplyWindow, ∀ next : Except String (Option Uuid) → Proc Unit,
  (∀ answer, P (next answer)) → P (Prog.op (.sql (.insertAutoJob (autoJob win) win.hostId)) next))

include inserts

theorem autoCreateFor_follows (win : AutoApplyWindow) : P (autoCreateFor win) := by
  refine C.op C.read fun answer => ?_
  match answer with
  | .error reason => exact C.ret _
  | .ok none => exact C.ret _
  | .ok (some pending) =>
    refine C.op C.read fun answer => ?_
    cases answer with
    | error reason => exact C.ret _
    | ok existingJob =>
      exact iteInduction (fun _ => C.ret _) fun _ => inserts win _ fun _ => C.ret _

theorem autoCreateEach_follows (windows : List AutoApplyWindow) : P (autoCreateEach windows) := by
  induction windows with
  | nil => exact C.ret _
  | cons win rest ih => exact C.bind (autoCreateFor_follows C inserts win) fun _ => ih

end windows

theorem dispatchForHosts_follows (starts : ∀ jobId, fns (.processJob jobId)) (hosts : List Uuid) :
    P (dispatchForHosts hosts) := by
  induction hosts with
  | nil => exact C.ret _
  | cons hostId rest ih =>
    refine C.op C.read fun answer => ?_
    cases answer with
    | error reason => exact ih
    | ok jobIds =>
      change P ((forkEach .processJob jobIds).bind fun _ => dispatchForHosts rest)
      exact C.bind (forkEach_follows C starts jobIds) fun _ => ih

theorem schedulerTick_follows (inserts : ∀ win : AutoApplyWindow,
      ∀ next : Except String (Option Uuid) → Proc Unit, (∀ answer, P (next answer)) →
        P (Prog.op (.sql (.insertAutoJob (autoJob win) win.hostId)) next))
    (starts : ∀ jobId, fns (.processJob jobId)) : P schedulerTick := by
  refine C.bind (C.op C.read fun answer => ?_) fun _ => C.op C.read fun answer => ?_
  · cases answer with
    | error reason => exact C.ret _
    | ok windows => exact autoCreateEach_follows C inserts windows
  · cases answer with
    | error reason => exact C.ret _
    | ok hosts => exact dispatchForHosts_follows C starts hosts

omit C in
/-- A round of the scanner has what its four parts have. -/
theorem periodicScan_follows {cfg : WorkerConfig} (C : Follows @P K fns tails)
    (scans : P scanQueuedJobs) (polls : P pollRunningJobs) (retries : P retryPendingJobs)
    (timeOuts : P (failTimedOutJobs cfg)) : P (periodicScan cfg) :=
  C.bind scans fun _ => C.bind polls fun _ => C.bind retries fun _ => timeOuts

/-! ## Requests -/

theorem insertHosts_follows (inserts : K .insertHost = true) (jobId : Uuid) (hostIds : List Uuid) :
    P (insertHosts jobId hostIds) := by
  induction hostIds with
  | nil => exact C.ret _
  | cons hostId rest ih =>
    refine C.op inserts fun answer => ?_
    cases answer with
    | error reason => exact C.ret _
    | ok => exact ih

/-- What follows the insertion of a job's rows. -/
theorem insertHosts_bind_follows (inserts : K .insertHost = true) {α : Type} {jobId : Uuid}
    {hostIds : List Uuid} {rest : Except ApiError Unit → Proc α} (fails : ∀ e, P (rest (.error e)))
    (succeeds : P (rest (.ok ()))) : P ((insertHosts jobId hostIds).bind rest) := by
  refine C.bind (insertHosts_follows C inserts jobId hostIds) fun answer => ?_
  cases answer with
  | error e => exact fails e
  | ok => exact succeeds

section requests

variable (inserts : K .insertHost = true)

include inserts

/-! What a request handler stores is a matter of the property of the job's own statement. -/

theorem createJob_follows (auth : AuthUser) (req : CreateJobRequest)
    (insertsJob : ∀ next : Except String Uuid → Proc (Except ApiError Uuid), (∀ answer, P (next answer)) →
      P (Prog.op (.sql (.insertJob (req.newJob auth.userId))) next)) : P (createJob auth req) := by
  refine iteInduction (fun _ => C.ret _) fun _ => iteInduction (fun _ => C.ret _) fun _ =>
    insertsJob _ fun answer => ?_
  cases answer with
  | error reason => exact C.ret _
  | ok jobId =>
    exact insertHosts_bind_follows C inserts (fun _ => C.ret _) (C.op C.other fun _ => C.ret _)

theorem rollbackJob_follows (auth : AuthUser) (id : Uuid)
    (insertsJob : ∀ new : NewJob, new.patchSelection = .arr [] →
      ∀ next : Except String Uuid → Proc (Except ApiError Uuid), (∀ answer, P (next answer)) →
        P (Prog.op (.sql (.insertJob new)) next)) : P (rollbackJob auth id) := by
  refine iteInduction (fun _ => C.ret _) fun _ => C.op C.read fun answer => ?_
  cases answer with
  | error reason => exact C.ret _
  | ok originalExists =>
    refine iteInduction (fun _ => C.ret _) fun _ => C.op C.read fun answer => ?_
    cases answer with
    | error reason => exact C.ret _
    | ok hostIds =>
      refine iteInduction (fun _ => C.ret _) fun _ => insertsJob _ rfl _ fun answer => ?_
      cases answer with
      | error reason => exact C.ret _
      | ok jobId =>
        exact insertHosts_bind_follows C inserts (fun _ => C.ret _) (C.op C.other fun _ => C.ret _)

section upgrade

variable {auth : AuthUser} {immediate : Bool} {maintenanceWindowId : Option Uuid}
  (insertsJob : ∀ version, ∀ next : Except String Uuid → Proc (Except ApiError Uuid),
    (∀ answer, P (next answer)) →
      P (Prog.op (.sql (.insertJob (upgradeJob auth immediate maintenanceWindowId version))) next))

include insertsJob

theorem insertUpgradeGroups_follows (firstJobId : Uuid) (groups : List (String × List Uuid)) :
    P (insertUpgradeGroups auth immediate maintenanceWindowId firstJobId groups) := by
  induction groups generalizing firstJobId with
  | nil => exact C.ret _
  | cons group rest ih =>
    refine insertsJob group.1 _ fun answer => ?_
    cases answer with
    | error reason => exact C.ret _
    | ok jobId => exact insertHosts_bind_follows C inserts (fun _ => C.ret _) (ih _)

theorem insertUpgradeJobs_follows (groups : List (String × List Uuid)) (skipped : Nat) :
    P (insertUpgradeJobs auth immediate maintenanceWindowId groups skipped) := by
  refine C.bind (insertUpgradeGroups_follows C inserts insertsJob 0 groups) fun answer => ?_
  cases answer with
  | error e => exact C.ret _
  | ok firstJobId => exact C.op C.other fun _ => C.ret _

end upgrade

end requests

theorem cancelRows_follows (cancelsJob : K .cancelParent = true) (cancels : K .cancelHosts = true)
    (auth : AuthUser) (id : Uuid) (status : JobStatus) : P (cancelRows auth id status) := by
  refine C.op cancelsJob fun answer => ?_
  cases answer with
  | error reason => exact C.ret _
  | ok =>
    refine C.op cancels fun answer => ?_
    cases answer with
    | error reason => exact C.ret _
    | ok => exact C.op C.other fun _ => C.op C.other fun _ => C.ret _

theorem cancelJob_follows (reads : K .readCancel = true)
    (cancelled : ∀ auth id status, P (cancelRows auth id status)) (auth : AuthUser) (id : Uuid) :
    P (cancelJob auth id) := by
  refine C.op reads fun answer => ?_
  match answer with
  | .error reason => exact C.ret _
  | .ok none => exact C.ret _
  | .ok (some job) =>
    exact iteInduction (fun _ => C.ret _) fun _ => iteInduction (fun _ => C.ret _) fun _ =>
      cancelled auth id job.1

/-! ## The service -/

/-- The function is the mail task of a finished job. -/
def Fn.isMail : Fn → Bool
  | jobEmails _ _ _ _ => true
  | _ => false

/-- The functions of the relay. -/
def Fn.isRelay : Fn → Bool
  | relayTick | relayOneJob _ | relayStream _ | relayPoll _ _ _ => true
  | _ => false

/-- The functions that ask an agent about a job and record what it says. -/
def Fn.isPoll : Fn → Bool
  | pollSingleHost _ | reconnectLoop _ _ _ _ _ => true
  | _ => false

/-- Kinds of operations outside the relay, the roll-ups, the cancellation and the mail. -/
def OpKind.isCommon : OpKind → Bool
  | .rollUp | .rollUpFinal | .cancelParent | .mail => false
  | .relay | .readRelays | .takePair | .freePair => false
  | _ => true

/-- Kinds of operations that are not for polls alone either. -/
def OpKind.isDispatch : OpKind → Bool
  | .readRunning | .readTarget | .setSucceeded | .poll | .health | .frame | .sleep => false
  | k => k.isCommon

/-- The executions of rows. -/
def Fn.isExecution : Fn → Bool
  | executeHostJob _ _ _ _ => true
  | _ => false

/-- Kinds of operations that are not for executions alone either. -/
def OpKind.isRoutine : OpKind → Bool
  | .mark | .submit | .storeAgentJob | .readFailure | .fail => false
  | k => k.isDispatch

/-- A property of the cancellation, and of every other routine operation outside the semaphores, is a
    property of every request handler. -/
theorem request_follows (kinds : ∀ k, k.isRoutine = true → k ≠ .semaphore → K k = true)
    (cancels : ∀ auth id, P (cancelJob auth id)) (cfg : WorkerConfig) {f : Fn}
    (isRequest : f.isRequest = true) : P (body cfg f) := by
  have insertsJob : K .insertJob = true := kinds _ rfl nofun
  have inserts : K .insertHost = true := kinds _ rfl nofun
  cases f with
  | createJob auth req =>
    exact C.bind (createJob_follows C inserts auth req fun _ rest => C.op insertsJob rest) fun _ => C.ret _
  | cancelJob auth id => exact C.bind (cancels auth id) fun _ => C.ret _
  | rollbackJob auth id =>
    exact C.bind (rollbackJob_follows C inserts auth id fun _ _ _ rest => C.op insertsJob rest)
      fun _ => C.ret _
  | insertUpgradeJobs auth immediate window groups skipped =>
    exact C.bind (insertUpgradeJobs_follows C inserts (fun _ _ rest => C.op insertsJob rest) groups skipped)
      fun _ => C.ret _
  | _ => cases isRequest

/-- A property of the roll-ups and the start of polls, and of every other routine operation outside
    the semaphores, is a property of the ticks of the scan and the scheduler. -/
theorem tick_follows (kinds : ∀ k, k.isRoutine = true → k ≠ .semaphore → K k = true)
    (retries : ∀ jobId hostId pjhId, fns (.executeHostJob jobId hostId pjhId none))
    (processes : ∀ jobId, fns (.processJob jobId)) (polls : P pollRunningJobs)
    (sync : ∀ jobId, P (syncJobStatus jobId)) (cfg : WorkerConfig) {f : Fn}
    (isTick : f.isTick = true) (noRelay : f.isRelay = false) : P (body cfg f) := by
  cases f with
  | periodicScan =>
    exact periodicScan_follows C (scanQueuedJobs_follows C processes) polls
      (retryPendingJobs_follows C (kinds _ rfl nofun) (kinds _ rfl nofun) retries)
      (failTimedOutJobs_follows C (kinds _ rfl nofun) (kinds _ rfl nofun) sync cfg)
  | schedulerTick =>
    have inserts : K .insertAuto = true := kinds _ rfl nofun
    exact schedulerTick_follows C (fun _ _ rest => C.op inserts rest) processes
  | relayTick => cases noRelay
  | _ => cases isTick

/-- A property of the roll-ups, the cancellation and the start of polls, and of every other routine
    operation, is a property of every function that is not an execution, a poll, a relay or the
    mail task. -/
theorem routine_follows (kinds : ∀ k, k.isRoutine = true → K k = true)
    (starts : ∀ f : Fn, f.isMail = false → f.isRelay = false → f.isPoll = false → fns f)
    (polls : P pollRunningJobs) (sync : ∀ jobId, P (syncJobStatus jobId))
    (cancels : ∀ auth id, P (cancelJob auth id)) (cfg : WorkerConfig) {f : Fn}
    (noMail : f.isMail = false) (noRelay : f.isRelay = false) (noPoll : f.isPoll = false)
    (noExecution : f.isExecution = false) : P (body cfg f) := by
  have loose := fun k routine (_ : k ≠ .semaphore) => kinds k routine
  have tick : f.isTick = true → P (body cfg f) := fun isTick =>
    tick_follows C loose (fun _ _ _ => starts _ rfl rfl rfl) (fun _ => starts _ rfl rfl rfl) polls sync
      cfg isTick noRelay
  have request : f.isRequest = true → P (body cfg f) := request_follows C loose cancels cfg
  cases f with
  | processJob jobId =>
    exact processJob_follows C (kinds _ rfl) (kinds _ rfl) (kinds _ rfl)
      (fun _ _ _ _ => starts _ rfl rfl rfl) cfg jobId
  | periodicScan | schedulerTick => exact tick rfl
  | createJob | cancelJob | rollbackJob | insertUpgradeJobs => exact request rfl
  | executeHostJob => cases noExecution
  | jobEmails => cases noMail
  | relayTick | relayOneJob | relayStream | relayPoll => cases noRelay
  | pollSingleHost | reconnectLoop => cases noPoll

/-- A property of the roll-ups, the cancellation and the start of polls, and of every other
    operation of dispatch, is a property of every function that is not a poll, a relay or the
    mail task. -/
theorem dispatch_follows (kinds : ∀ k, k.isDispatch = true → K k = true)
    (starts : ∀ f : Fn, f.isMail = false → f.isRelay = false → f.isPoll = false → fns f)
    (polls : P pollRunningJobs) (sync : ∀ jobId, P (syncJobStatus jobId))
    (cancels : ∀ auth id, P (cancelJob auth id)) (cfg : WorkerConfig) {f : Fn}
    (noMail : f.isMail = false) (noRelay : f.isRelay = false) (noPoll : f.isPoll = false) :
    P (body cfg f) := by
  cases execution : f.isExecution with
  | true =>
    cases f with
    | executeHostJob jobId hostId pjhId permit =>
      have fails := handleHostFailure_follows C (kinds _ rfl) (kinds _ rfl) sync
      refine C.bind (executeHostJob_follows C fails (kinds _ rfl) (kinds _ rfl) (kinds _ rfl)
        (kinds _ rfl) jobId hostId pjhId) fun _ => ?_
      cases permit with
      | none => exact C.ret _
      | some semaphore => exact C.op (kinds _ rfl) fun _ => C.ret _
    | _ => cases execution
  | false =>
    exact routine_follows C
      (fun k routine => kinds k (by cases k <;> first | rfl | cases routine)) starts polls sync cancels
      cfg noMail noRelay noPoll execution

/-- A property of the roll-ups and the cancellation, and of every other operation outside the
    relay, the mail apart, is a property of every function outside the relay but the mail task. -/
theorem body_follows (kinds : ∀ k, k.isCommon = true → K k = true)
    (starts : ∀ f : Fn, f.isMail = false → f.isRelay = false → fns f)
    (calls : ∀ f : Fn, f.isMail = false → f.isRelay = false → tails f)
    (sync : ∀ jobId, P (syncJobStatus jobId)) (cancels : ∀ auth id, P (cancelJob auth id))
    (cfg : WorkerConfig) {f : Fn} (noMail : f.isMail = false) (noRelay : f.isRelay = false) :
    P (body cfg f) := by
  have fails := handleHostFailure_follows C (kinds _ rfl) (kinds _ rfl) sync
  have again := fun (row : PatchJobHostRunning) client targetVersion oldVersion elapsed =>
    calls (.reconnectLoop row client targetVersion oldVersion elapsed) rfl rfl
  cases poll : f.isPoll with
  | true =>
    cases f with
    | pollSingleHost row =>
      exact pollSingleHost_follows C sync (fails row.id) (again row) (kinds _ rfl) (kinds _ rfl)
        (kinds _ rfl) (kinds _ rfl)
    | reconnectLoop row client targetVersion oldVersion elapsed =>
      exact reconnectLoop_follows C sync (fails row.id) (again row) (kinds _ rfl) (kinds _ rfl)
        (kinds _ rfl) cfg client targetVersion oldVersion elapsed
    | _ => cases poll
  | false =>
    exact dispatch_follows C (fun k dispatch => kinds k (by cases k <;> first | rfl | cases dispatch))
      (fun f noMail noRelay _ => starts f noMail noRelay)
      (pollRunningJobs_follows C (kinds _ rfl) fun _ => starts _ rfl rfl) sync cancels cfg noMail
      noRelay poll

/-- A property of what relays do and of their roll-ups is one of every function of the relay. -/
theorem relay_follows
    (kinds : ∀ k, k ∈ [.relay, .readRelays, .takePair, .freePair, .frame, .sleep, .poll] → K k = true)
    (starts : ∀ row, fns (.relayOneJob row)) (streams : ∀ row, tails (.relayStream row))
    (polls : ∀ row client lastStatus, tails (.relayPoll row client lastStatus))
    (rollsUp : ∀ jobId, P (updateParentJobStatus jobId)) (cfg : WorkerConfig) {f : Fn}
    (relay : f.isRelay = true) : P (body cfg f) := by
  have records := fun row event =>
    processEvent_follows C
      (fun dbStatus _ => relayUpdate_follows C (kinds _ (by simp)) row event dbStatus) (rollsUp row.jobId)
  have frees : K .freePair = true := kinds _ (by simp)
  cases f with
  | relayTick => exact relayTick_follows C (kinds _ (by simp)) (kinds _ (by simp)) starts
  | relayOneJob row => exact relayOneJob_follows C frees (streams row) (polls row)
  | relayStream row => exact relayStream_follows C frees (kinds _ (by simp)) (records row) (streams row)
  | relayPoll row client lastStatus =>
    exact relayPoll_follows C frees (kinds _ (by simp)) (kinds _ (by simp)) (records row) (polls row) cfg
      client lastStatus
  | _ => cases relay

/-- The same for the functions of the relay. -/
theorem relayBody_follows (kinds : ∀ k, k.isCommon = true → K k = true) (relays : K .relay = true)
    (reads : K .readRelays = true) (takes : K .takePair = true) (frees : K .freePair = true)
    (starts : ∀ f : Fn, f.isMail = false → fns f)
    (calls : ∀ f : Fn, f.isMail = false → tails f)
    (rollsUp : ∀ jobId, P (updateParentJobStatus jobId)) (cfg : WorkerConfig) {f : Fn}
    (relay : f.isRelay = true) : P (body cfg f) := by
  refine relay_follows C (fun k mem => ?_) (fun _ => starts _ rfl) (fun _ => calls _ rfl)
    (fun _ _ _ => calls _ rfl) rollsUp cfg relay
  simp only [List.mem_cons, List.not_mem_nil, or_false] at mem
  rcases mem with rfl | rfl | rfl | rfl | rfl | rfl | rfl
  · exact relays
  · exact reads
  · exact takes
  · exact frees
  all_goals exact kinds _ rfl

/-- Every function but the mail task. -/
theorem service_follows (kinds : ∀ k, k.isCommon = true → K k = true) (relays : K .relay = true)
    (reads : K .readRelays = true) (takes : K .takePair = true) (frees : K .freePair = true)
    (starts : ∀ f : Fn, f.isMail = false → fns f)
    (calls : ∀ f : Fn, f.isMail = false → tails f) (sync : ∀ jobId, P (syncJobStatus jobId))
    (rollsUp : ∀ jobId, P (updateParentJobStatus jobId)) (cancels : ∀ auth id, P (cancelJob auth id))
    (cfg : WorkerConfig) {f : Fn} (noMail : f.isMail = false) : P (body cfg f) := by
  cases relay : f.isRelay with
  | true => exact relayBody_follows C kinds relays reads takes frees starts calls rollsUp cfg relay
  | false =>
    exact body_follows C kinds (fun f noMail _ => starts f noMail) (fun f noMail _ => calls f noMail)
      sync cancels cfg noMail relay

/-- A property of all operations but those on the set of active pairs is one of every function
    outside the relay. -/
theorem outside_follows (kinds : ∀ k, k ≠ .takePair → k ≠ .freePair → K k = true)
    (starts : ∀ f : Fn, f.isTick = false → f.isRequest = false → f.isRelay = false → fns f)
    (calls : ∀ f : Fn, f.isTick = false → f.isRequest = false → f.isRelay = false → tails f)
    (cfg : WorkerConfig) {f : Fn} (noRelay : f.isRelay = false) : P (body cfg f) := by
  have kind : ∀ k, k.isRoutine = true → k ≠ .semaphore → K k = true := fun k routine _ =>
    kinds k (by rintro rfl; cases routine) (by rintro rfl; cases routine)
  have sync : ∀ jobId, P (syncJobStatus jobId) :=
    syncJobStatus_follows C (kinds _ nofun nofun) (kinds _ nofun nofun) fun _ _ _ _ => starts _ rfl rfl rfl
  have fails := handleHostFailure_follows C (kinds _ nofun nofun) (kinds _ nofun nofun) sync
  have polls : P pollRunningJobs :=
    pollRunningJobs_follows C (kinds _ nofun nofun) fun _ => starts _ rfl rfl rfl
  have again := fun (row : PatchJobHostRunning) client targetVersion oldVersion elapsed =>
    calls (.reconnectLoop row client targetVersion oldVersion elapsed) rfl rfl rfl
  have tick : f.isTick = true → P (body cfg f) := fun isTick =>
    tick_follows C kind (fun _ _ _ => starts _ rfl rfl rfl) (fun _ => starts _ rfl rfl rfl) polls sync cfg
      isTick noRelay
  have request : f.isRequest = true → P (body cfg f) :=
    request_follows C kind (cancelJob_follows C (kinds _ nofun nofun)
      (cancelRows_follows C (kinds _ nofun nofun) (kinds _ nofun nofun))) cfg
  cases f with
  | processJob jobId =>
    exact processJob_follows C (kinds _ nofun nofun) (kinds _ nofun nofun) (kinds _ nofun nofun)
      (fun _ _ _ _ => starts _ rfl rfl rfl) cfg jobId
  | executeHostJob jobId hostId pjhId permit =>
    refine C.bind (executeHostJob_follows C fails (kinds _ nofun nofun) (kinds _ nofun nofun)
      (kinds _ nofun nofun) (kinds _ nofun nofun) jobId hostId pjhId) fun _ => ?_
    cases permit with
    | none => exact C.ret _
    | some semaphore => exact C.op (kinds _ nofun nofun) fun _ => C.ret _
  | pollSingleHost row =>
    exact pollSingleHost_follows C sync (fails row.id) (again row) (kinds _ nofun nofun)
      (kinds _ nofun nofun) (kinds _ nofun nofun) (kinds _ nofun nofun)
  | reconnectLoop row client targetVersion oldVersion elapsed =>
    exact reconnectLoop_follows C sync (fails row.id) (again row) (kinds _ nofun nofun)
      (kinds _ nofun nofun) (kinds _ nofun nofun) cfg client targetVersion oldVersion elapsed
  | jobEmails jobId total succeeded failed =>
    exact jobEmails_follows C (kinds _ nofun nofun) jobId total succeeded failed
  | periodicScan | schedulerTick => exact tick rfl
  | relayTick | relayOneJob | relayStream | relayPoll => cases noRelay
  | createJob | cancelJob | rollbackJob | insertUpgradeJobs => exact request rfl

/-- A property of all operations, and of starts and tail calls of the functions that no loop or
    request calls, is one of every function. -/
theorem engine_follows (kinds : ∀ k, K k = true)
    (starts : ∀ f : Fn, f.isTick = false → f.isRequest = false → fns f)
    (calls : ∀ f : Fn, f.isTick = false → f.isRequest = false → tails f) (cfg : WorkerConfig) (f : Fn) :
    P (body cfg f) := by
  cases relay : f.isRelay with
  | true =>
    exact relay_follows C (fun k _ => kinds k) (fun _ => starts _ rfl rfl) (fun _ => calls _ rfl rfl)
      (fun _ _ _ => calls _ rfl rfl) (updateParentJobStatus_follows C (kinds _) (kinds _)) cfg relay
  | false =>
    exact outside_follows C (fun k _ _ => kinds k) (fun f noTick noRequest _ => starts f noTick noRequest)
      (fun f noTick noRequest _ => calls f noTick noRequest) cfg relay

omit C in
/-- The loop of a tick calls it when the last call is over, and nothing else does. -/
theorem ticks_turn (tick : Fn) : (engine cfg).Turns (Fn.sameTick tick) where
  enter s f w called same task mem same' := by
    obtain ⟨ready, -⟩ : (f.isRequest ∨ f.isTick ∧ tickIdle s f) ∧ w = s.world := by
      cases f with
      | processJob => cases tick <;> cases same
      | _ => exact called
    obtain ⟨noRequest, again⟩ : f.isRequest = false ∧ ∀ root, Fn.sameTick tick root = Fn.sameTick f root := by
      cases tick <;> cases f <;> first | exact ⟨rfl, fun _ => rfl⟩ | cases same
    have idle : tickIdle s f = true := (ready.resolve_left (by simp [noRequest])).2
    have ended := List.all_eq_true.mp idle task mem
    rw [again] at same'
    exact isDone_eq_true.mp (by simpa [same'] using ended)
  spawn f := by
    have follows : Follows (fun {_} p => p.Within (fun _ : Op => True)
        (fun g => Fn.sameTick tick g = false) fun _ => True) (fun _ => true)
        (fun g => Fn.sameTick tick g = false) fun _ => True :=
      { (closed_within _ _ _).mono (fun _ _ => trivial) (fun _ => id) fun _ => id with
        other := rfl
        read := rfl }
    refine engine_follows follows (fun _ => rfl) (fun g noTick _ => ?_) (fun _ _ _ => trivial) cfg f
    cases tick <;> cases g <;> first | rfl | cases noTick

end PatchManager
