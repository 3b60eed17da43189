import PatchManager.Verified.Plain

/-! # The duty to roll up

A task that finishes a row of a job has to roll the job up before it ends or goes on to
the next row.  `rollUpContract` says so of every function: the ghost state is the job whose
roll-up the task owes.  The duty is met by the roll-up's `UPDATE`, or by a count that shows
unfinished rows.

Main result: `engine_rollsUp`.
-/

namespace PatchManager

open PatchManager.Conc

/-! ## The contract -/

/-- The functions that write the status of a row or of a job. -/
def Fn.isWriter : Fn → Bool
  | processJob _ | executeHostJob _ _ _ _ | pollSingleHost _ | reconnectLoop _ _ _ _ _
  | periodicScan | relayOneJob _ | relayStream _ | relayPoll _ _ _ | cancelJob _ _ => true
  | _ => false

/-- The row a poll was started for. -/
def Fn.polled? : Fn → Option PatchJobHostRunning
  | pollSingleHost row | reconnectLoop row _ _ _ _ => some row
  | _ => none

section duty

variable (jobOf : Uuid → Uuid)

/-- The job of the row a statement finishes. -/
def HostUpdate.finishedJob? : HostUpdate → Option Uuid
  | setSucceeded pjhId _ | setFailed pjhId _ | setTimedOut pjhId _ => some (jobOf pjhId)
  | relayTerminal row _ _ => some row.jobId
  | _ => none

/-- The job whose roll-up an operation brings about. -/
def Op.incurs? : (o : Op) → o.Resp → Option Uuid
  | sql (.updateHosts u), .ok affected => if 0 < affected then u.finishedJob? jobOf else none
  | _, _ => none

/-- The job that need not be rolled up any more after an operation. -/
def Op.settles? : (o : Op) → o.Resp → Option Uuid
  | sql (.updateJobs (.syncParent jobId _ _ _)), .ok _ => some jobId
  | sql (.updateJobs (.updateParentFinal jobId _ _)), .ok _ => some jobId
  | sql (.select (.nonTerminalCount jobId)), .ok pending => if 0 < pending then some jobId else none
  | _, _ => none

/-- What the answers can be relied on for: rows name their own job, no statement of a
    roll-up fails, and the counts `sync_job_status` reads lead to a status. -/
def reliable : (o : Op) → o.Resp → Prop
  | .sql (.select (.retryRow pjhId)), .ok found => ∀ row ∈ found, jobOf pjhId = row.jobId
  | .sql (.select .runningRows), .ok rows => ∀ row ∈ rows, jobOf row.id = row.jobId
  | .sql (.select (.timedOut _)), .ok rows => ∀ row ∈ rows, jobOf row.id = row.jobId
  | .sql (.select (.statusCounts _)), .ok counts => aggregateStatus counts ≠ none
  | .sql s, .error _ => s.rollsUp? = none
  | _, _ => True

end duty

/-- The statements that finish a row need a task that owes nothing; the others write the
    statuses they should. -/
def Op.finishes : Op → Bool
  | sql (.updateHosts u) => u.finishes
  | _ => false

/-- A statement writes the status its function has computed for it. -/
def Op.computed : Op → Prop
  | sql (.updateHosts (.relayRunning _ _ dbStatus)) => dbStatus.isTerminal = false
  | sql (.updateJobs (.syncParent _ newStatus setCompleted counts)) =>
    aggregateStatus counts = some (newStatus, setCompleted)
  | sql (.updateJobs (.updateParentFinal _ status counts)) => status = finalStatus counts
  | _ => True

/-- Whether a task writes statuses, and the job whose roll-up it owes. -/
structure Duty where
  writer : Bool := false
  owed : Option Uuid := none

def rollUpContract (jobOf : Uuid → Uuid) : Contract Op Op.Resp Fn where
  State := Duty
  idle := {}
  init f := { writer := f.isWriter }
  next σ o answer :=
    { writer := σ.writer
      owed :=
        match o.incurs? jobOf answer with
        | some jobId => if σ.writer then some jobId else σ.owed
        | none => if o.settles? answer = σ.owed then none else σ.owed }
  rely := reliable jobOf
  guar σ o := o.computed ∧ (o.finishes = true → σ.writer = true ∧ σ.owed = none)
  start _ f := ∀ row ∈ f.polled?, jobOf row.id = row.jobId
  tail σ f := σ.owed = none ∧ (f.isWriter = true → σ.writer = true) ∧
    ∀ row ∈ f.polled?, jobOf row.id = row.jobId
  exit σ := σ.owed = none

variable {jobOf : Uuid → Uuid} {σ : Duty}

/-- The task keeps the contract and has met its duty at the end. -/
abbrev MeetsDuty (jobOf : Uuid → Uuid) (σ : Duty) {α : Type} (p : Proc α) : Prop :=
  p.Along (rollUpContract jobOf) (fun τ _ => τ = { σ with owed := none }) σ

/-- An operation that neither brings a duty nor meets one. -/
structure Op.Neutral (jobOf : Uuid → Uuid) (o : Op) (answer : o.Resp) : Prop where
  incurs : o.incurs? jobOf answer = none
  settles : o.settles? answer = none

theorem next_of_neutral {o : Op} {answer : o.Resp} (neutral : o.Neutral jobOf answer) :
    (rollUpContract jobOf).next σ o answer = σ := by
  have same : (if none = σ.owed then none else σ.owed) = σ.owed := by split <;> simp_all
  simp only [rollUpContract, neutral.incurs, neutral.settles, same]

/-- An operation that meets the duty, if there is one. -/
theorem next_of_settles {o : Op} {answer : o.Resp} {jobId : Uuid}
    (incurs : o.incurs? jobOf answer = none) (settles : o.settles? answer = some jobId)
    (owed : σ.owed = none ∨ σ.owed = some jobId) :
    (rollUpContract jobOf).next σ o answer = { σ with owed := none } := by
  simp only [rollUpContract, incurs, settles]
  rcases owed with eq | eq <;> simp [eq]

theorem free_of_owed (owed : σ.owed = none) : ({ σ with owed := none } : Duty) = σ := by
  cases σ; cases owed; rfl

/-! ## Plain functions -/

theorem Op.neutral_of_isPlain {o : Op} (plain : o.isPlain = true) (answer : o.Resp) :
    o.Neutral jobOf answer := by
  constructor
  · unfold Op.incurs?
    split
    · rename_i u affected
      cases u <;> first | (simp [HostUpdate.finishedJob?]; done) | cases plain
    · rfl
  · unfold Op.settles?
    split
    · cases plain
    · cases plain
    · cases plain
    · rfl

theorem Op.guar_of_isPlain {o : Op} (plain : o.isPlain = true) :
    (rollUpContract jobOf).guar σ o := by
  constructor
  · unfold Op.computed
    split <;> trivial
  · intro finishes
    unfold Op.finishes at finishes
    split at finishes
    · rename_i u
      cases u <;> simp_all [Op.isPlain, HostUpdate.finishes]
    · cases finishes

/-- A plain function brings no duty and meets none. -/
theorem duty_of_plain {α : Type} {p : Proc α} (plain : Plain p) :
    p.Along (rollUpContract jobOf) (fun τ _ => τ = σ) σ := by
  refine plain.along (fun o isPlain => ⟨Op.guar_of_isPlain isPlain, fun answer => ?_⟩)
    (fun f isPlain row mem => ?_) fun _ => False.elim
  · exact next_of_neutral (Op.neutral_of_isPlain isPlain answer)
  · cases f <;> simp_all [Fn.isPlain, Fn.polled?]

theorem meetsDuty_of_plain {α : Type} {p : Proc α} (plain : Plain p) (free : σ.owed = none) :
    MeetsDuty jobOf σ p :=
  (duty_of_plain plain).weaken fun _ _ eq => eq.trans (free_of_owed free).symm

/-- A plain function first. -/
theorem meetsDuty_bind_plain {α β : Type} {p : Proc α} {rest : α → Proc β} (plain : Plain p)
    (second : ∀ a, MeetsDuty jobOf σ (rest a)) : MeetsDuty jobOf σ (p.bind rest) :=
  (duty_of_plain plain).bind fun _ a eq => by rw [eq]; exact second a

/-- A plain operation first. -/
theorem meetsDuty_op_plain {α : Type} {o : Op} {next : o.Resp → Proc α} (plain : o.isPlain = true)
    (rest : ∀ answer, MeetsDuty jobOf σ (next answer)) : MeetsDuty jobOf σ (Prog.op o next) :=
  ⟨Op.guar_of_isPlain plain, fun answer _ => by
    rw [next_of_neutral (Op.neutral_of_isPlain plain answer)]; exact rest answer⟩

/-- An operation that is neutral whatever its answer, whose answers are relied on. -/
theorem meetsDuty_op {α : Type} {o : Op} {next : o.Resp → Proc α} (computed : o.computed)
    (active : o.finishes = false) (neutral : ∀ answer, o.Neutral jobOf answer)
    (rest : ∀ answer, reliable jobOf o answer → MeetsDuty jobOf σ (next answer)) :
    MeetsDuty jobOf σ (Prog.op o next) := by
  refine ⟨⟨computed, fun finishes => ?_⟩, fun answer relied => ?_⟩
  · rw [active] at finishes; cases finishes
  · rw [next_of_neutral (neutral answer)]; exact rest answer relied

theorem meetsDuty_ret (free : σ.owed = none) (value : Unit) :
    MeetsDuty jobOf σ (Prog.ret value) := (free_of_owed free).symm

/-! ## Roll-ups -/

/-- `sync_job_status` meets a duty to roll the job up. -/
theorem syncJobStatus_meets {jobId : Uuid} (owed : σ.owed = none ∨ σ.owed = some jobId) :
    MeetsDuty jobOf σ (syncJobStatus jobId) := by
  refine meetsDuty_op trivial rfl (fun answer => ⟨by cases answer <;> rfl, by cases answer <;> rfl⟩)
    fun answer relied => ?_
  cases answer with
  | error reason => cases relied
  | ok counts =>
    simp only [Prog.ret_bind]
    split
    · rename_i none
      exact absurd none relied
    · rename_i newStatus setCompleted status
      refine ⟨⟨status, nofun⟩, fun answer relied => ?_⟩
      cases answer with
      | error reason => cases relied
      | ok affected =>
        rw [next_of_settles rfl rfl owed]
        refine meetsDuty_op_plain rfl fun _ => ?_
        cases setCompleted
        · exact meetsDuty_ret rfl ()
        · exact ⟨nofun, meetsDuty_ret rfl ()⟩

/-- `update_parent_job_status` meets a duty to roll the job up. -/
theorem updateParentJobStatus_meets {jobId : Uuid} (owed : σ.owed = none ∨ σ.owed = some jobId) :
    MeetsDuty jobOf σ (updateParentJobStatus jobId) := by
  refine ⟨⟨trivial, nofun⟩, fun answer relied => ?_⟩
  cases answer with
  | error reason => cases relied
  | ok pending =>
    let read : Op := .sql (.select (.nonTerminalCount jobId))
    by_cases unfinished : pending > 0
    · have settles : read.settles? (.ok pending) = some jobId := if_pos unfinished
      rw [next_of_settles rfl settles owed]
      simpa [unfinished] using meetsDuty_ret rfl ()
    · have neutral : read.Neutral jobOf (.ok pending) := ⟨rfl, if_neg unfinished⟩
      rw [next_of_neutral neutral]
      simp only [unfinished, if_false, Prog.perform_bind, Prog.bind_eq, Prog.ret_bind]
      refine meetsDuty_op trivial rfl (fun answer => ⟨by cases answer <;> rfl, by cases answer <;> rfl⟩)
        fun answer relied => ?_
      cases answer with
      | error reason => cases relied
      | ok counts =>
        refine ⟨⟨rfl, nofun⟩, fun answer relied => ?_⟩
        cases answer with
        | error reason => cases relied
        | ok affected =>
          rw [next_of_settles rfl rfl owed]
          exact meetsDuty_op_plain rfl fun _ => meetsDuty_ret rfl ()

/-! ## Finishing a row -/

/-- A statement that finishes a row, if it changes one, brings the duty to roll its job up. -/
theorem meetsDuty_finish {u : HostUpdate} {next : Except String Nat → Proc Unit} {jobId : Uuid}
    (finishes : u.finishes = true) (job : u.finishedJob? jobOf = some jobId)
    (writer : σ.writer = true) (free : σ.owed = none)
    (fails : ∀ reason, MeetsDuty jobOf σ (next (.error reason)))
    (misses : MeetsDuty jobOf σ (next (.ok 0)))
    (changes : ∀ affected, 0 < affected →
      MeetsDuty jobOf { σ with owed := some jobId } (next (.ok affected))) :
    MeetsDuty jobOf σ (Prog.op (.sql (.updateHosts u)) next) := by
  have computed : Op.computed (.sql (.updateHosts u)) := by
    cases u <;> trivial
  refine ⟨⟨computed, fun _ => ⟨writer, free⟩⟩, fun answer _ => ?_⟩
  let update : Op := .sql (.updateHosts u)
  cases answer with
  | error reason =>
    have neutral : update.Neutral jobOf (.error reason) := ⟨rfl, rfl⟩
    rw [next_of_neutral neutral]
    exact fails reason
  | ok affected =>
    rcases Nat.eq_zero_or_pos affected with rfl | positive
    · have neutral : update.Neutral jobOf (.ok 0) := ⟨rfl, rfl⟩
      rw [next_of_neutral neutral]
      exact misses
    · have incurs : update.incurs? jobOf (.ok affected) = some jobId := (if_pos positive).trans job
      have next : (rollUpContract jobOf).next σ update (.ok affected) =
          { σ with owed := some jobId } := by
        simp only [rollUpContract, incurs, writer, if_true]
      rw [next]
      exact changes affected positive

theorem handleHostFailure_meets (pjhId : Uuid) (errorMsg : String) (writer : σ.writer = true)
    (free : σ.owed = none) : MeetsDuty jobOf σ (handleHostFailure pjhId errorMsg) := by
  refine meetsDuty_op trivial rfl (fun answer => ⟨by cases answer <;> rfl, by cases answer <;> rfl⟩)
    fun answer relied => ?_
  match answer, relied with
  | .error reason, _ => exact meetsDuty_ret free ()
  | .ok none, _ => exact meetsDuty_ret free ()
  | .ok (some row), relied =>
    have job : jobOf pjhId = row.jobId := relied row rfl
    change MeetsDuty jobOf σ (if row.status.isTerminal then _ else if row.retryCount < 3 then _ else _)
    split
    · exact meetsDuty_ret free ()
    · split
      · exact meetsDuty_op_plain rfl fun _ => meetsDuty_op_plain rfl fun _ => meetsDuty_ret free ()
      · refine meetsDuty_finish rfl rfl writer free (fun _ => meetsDuty_ret free ())
          (meetsDuty_ret free ()) fun affected positive => ?_
        rw [job]
        simpa [positive] using syncJobStatus_meets (.inr rfl)

theorem failTimedOut_meets (rows : List TimedOutRow) (writer : σ.writer = true)
    (free : σ.owed = none) (own : ∀ row ∈ rows, jobOf row.id = row.jobId) :
    MeetsDuty jobOf σ (failTimedOut rows) := by
  induction rows with
  | nil => exact meetsDuty_ret free ()
  | cons row rest ih =>
    have others := ih fun row mem => own row (List.mem_cons_of_mem _ mem)
    refine meetsDuty_op_plain rfl fun now => meetsDuty_finish rfl rfl writer free
      (fun _ => others) (by simpa using others) fun affected positive => ?_
    rw [own row List.mem_cons_self]
    have synced : MeetsDuty jobOf { σ with owed := some row.jobId } (syncJobStatus row.jobId) :=
      syncJobStatus_meets (.inr rfl)
    have both : MeetsDuty jobOf { σ with owed := some row.jobId }
        ((syncJobStatus row.jobId).bind fun _ => failTimedOut rest) :=
      synced.bind fun τ _ eq => by
        rw [eq]
        change MeetsDuty jobOf { σ with owed := none } (failTimedOut rest)
        rwa [free_of_owed free]
    simpa [positive] using both

theorem failTimedOutJobs_meets (cfg : WorkerConfig) (writer : σ.writer = true)
    (free : σ.owed = none) : MeetsDuty jobOf σ (failTimedOutJobs cfg) := by
  unfold failTimedOutJobs
  split
  · exact meetsDuty_ret free ()
  · refine meetsDuty_op trivial rfl
      (fun answer => ⟨by cases answer <;> rfl, by cases answer <;> rfl⟩) fun answer relied => ?_
    cases answer with
    | error reason => exact meetsDuty_ret free ()
    | ok rows => exact failTimedOut_meets rows writer free relied

/-! ## Polls -/

/-- What a poll does with a success: the row is finished and its job rolled up. -/
theorem recordSuccess_meets {row : PatchJobHostRunning} {output : String}
    {next : Except String Nat → Proc Unit} (writer : σ.writer = true) (free : σ.owed = none)
    (own : jobOf row.id = row.jobId)
    (fails : ∀ reason, next (.error reason) = syncJobStatus row.jobId)
    (succeeds : ∀ affected, next (.ok affected) =
      if affected = 0 then .ret () else syncJobStatus row.jobId) :
    MeetsDuty jobOf σ (Prog.op (.sql (.updateHosts (.setSucceeded row.id output))) next) := by
  refine meetsDuty_finish rfl rfl writer free (fun reason => ?_) ?_ fun affected positive => ?_
  · rw [fails]
    exact syncJobStatus_meets (.inl free)
  · rw [succeeds, if_pos rfl]
    exact meetsDuty_ret free ()
  · rw [succeeds, if_neg (Nat.pos_iff_ne_zero.mp positive), own]
    exact syncJobStatus_meets (.inr rfl)

section poll

variable {row : PatchJobHostRunning}

theorem finishSelfUpgradeSuccess_meets (newVersion : String) (writer : σ.writer = true)
    (free : σ.owed = none) (own : jobOf row.id = row.jobId) :
    MeetsDuty jobOf σ (finishSelfUpgradeSuccess row newVersion) :=
  meetsDuty_op_plain rfl fun _ =>
    recordSuccess_meets writer free own (fun _ => rfl) fun _ => rfl

theorem recordSucceeded_meets (status : AgentJobStatus) (writer : σ.writer = true)
    (free : σ.owed = none) (own : jobOf row.id = row.jobId) :
    MeetsDuty jobOf σ (recordSucceeded row status) :=
  recordSuccess_meets writer free own (fun _ => rfl) fun _ => rfl

theorem reconnectLoop_meets (cfg : WorkerConfig) (client : AgentClient)
    (targetVersion oldVersion : Option String) (elapsed : UInt64) (writer : σ.writer = true)
    (free : σ.owed = none) (own : jobOf row.id = row.jobId) :
    MeetsDuty jobOf σ (reconnectLoop cfg row client targetVersion oldVersion elapsed) := by
  simp only [reconnectLoop, Prog.bind_eq, Prog.perform_bind]
  refine meetsDuty_op_plain rfl fun _ => meetsDuty_op_plain rfl fun health => ?_
  split
  · exact finishSelfUpgradeSuccess_meets _ writer free own
  · split
    · exact handleHostFailure_meets row.id _ writer free
    · refine ⟨free, fun _ => writer, ?_⟩
      rintro _ ⟨⟩
      exact own
  · exact handleHostFailure_meets row.id _ writer free

theorem reconnectConfirmSelfUpgrade_meets (client : AgentClient) (writer : σ.writer = true)
    (free : σ.owed = none) (own : jobOf row.id = row.jobId) :
    MeetsDuty jobOf σ (reconnectConfirmSelfUpgrade row client) := by
  refine meetsDuty_bind_plain (targetVersionOf_plain row.jobId) fun _ =>
    meetsDuty_bind_plain (oldVersionOf_plain row.hostId) fun _ => ⟨free, fun _ => writer, ?_⟩
  rintro _ ⟨⟩
  exact own

theorem confirmSelfUpgrade_meets (client : AgentClient) (newVersion : String)
    (writer : σ.writer = true) (free : σ.owed = none) (own : jobOf row.id = row.jobId) :
    MeetsDuty jobOf σ (confirmSelfUpgrade row client newVersion) := by
  refine meetsDuty_bind_plain (targetVersionOf_plain row.jobId) fun _ =>
    meetsDuty_bind_plain (oldVersionOf_plain row.hostId) fun _ => ?_
  split
  · exact finishSelfUpgradeSuccess_meets newVersion writer free own
  · exact reconnectConfirmSelfUpgrade_meets client writer free own

theorem pollSelfUpgradeHost_meets (client : AgentClient)
    (statusResult : Except AgentClientError AgentJobStatus) (writer : σ.writer = true)
    (free : σ.owed = none) (own : jobOf row.id = row.jobId) :
    MeetsDuty jobOf σ (pollSelfUpgradeHost row client statusResult) := by
  unfold pollSelfUpgradeHost
  split
  · refine meetsDuty_op_plain rfl fun answer => ?_
    cases answer with
    | error e => exact reconnectConfirmSelfUpgrade_meets client writer free own
    | ok health => exact confirmSelfUpgrade_meets client health.version writer free own
  · exact reconnectConfirmSelfUpgrade_meets client writer free own
  · exact meetsDuty_ret free ()
  · exact meetsDuty_ret free ()
  · exact reconnectConfirmSelfUpgrade_meets client writer free own

theorem recordStatus_meets (answer : Except AgentClientError AgentJobStatus)
    (writer : σ.writer = true) (free : σ.owed = none) (own : jobOf row.id = row.jobId) :
    MeetsDuty jobOf σ (recordStatus row answer) := by
  unfold recordStatus
  split
  · split
    · exact handleHostFailure_meets row.id _ writer free
    · exact meetsDuty_ret free ()
  · exact meetsDuty_ret free ()
  · split
    · exact recordSucceeded_meets _ writer free own
    · exact recordSucceeded_meets _ writer free own
    · exact handleHostFailure_meets row.id _ writer free
    · exact handleHostFailure_meets row.id _ writer free
    · exact meetsDuty_ret free ()

theorem pollSingleHost_meets (writer : σ.writer = true) (free : σ.owed = none)
    (own : jobOf row.id = row.jobId) : MeetsDuty jobOf σ (pollSingleHost row) := by
  refine meetsDuty_op_plain rfl fun answer => ?_
  cases answer with
  | error reason => exact meetsDuty_ret free ()
  | ok =>
    refine meetsDuty_op_plain rfl fun answer => ?_
    cases answer with
    | error e => exact meetsDuty_ret free ()
    | ok =>
      refine meetsDuty_op_plain rfl fun statusResult => ?_
      split
      · exact pollSelfUpgradeHost_meets _ statusResult writer free own
      · exact recordStatus_meets statusResult writer free own

end poll

theorem pollRunningJobs_meets (free : σ.owed = none) : MeetsDuty jobOf σ pollRunningJobs := by
  refine meetsDuty_op trivial rfl (fun answer => ⟨by cases answer <;> rfl, by cases answer <;> rfl⟩)
    fun answer relied => ?_
  cases answer with
  | error reason => exact meetsDuty_ret free ()
  | ok rows =>
    have own : ∀ row ∈ rows, jobOf row.id = row.jobId := relied
    change MeetsDuty jobOf σ (forkEach .pollSingleHost rows)
    clear relied
    induction rows with
    | nil => exact meetsDuty_ret free ()
    | cons row rest ih =>
      refine ⟨?_, ih fun row mem => own row (List.mem_cons_of_mem _ mem)⟩
      rintro _ ⟨⟩
      exact own row List.mem_cons_self

/-! ## Dispatch and executions -/

/-- A statement or call that finishes no row and rolls nothing up. -/
theorem meetsDuty_op_neutral {α : Type} {o : Op} {next : o.Resp → Proc α} (computed : o.computed)
    (active : o.finishes = false) (neutral : ∀ answer, o.Neutral jobOf answer)
    (rest : ∀ answer, MeetsDuty jobOf σ (next answer)) : MeetsDuty jobOf σ (Prog.op o next) :=
  meetsDuty_op computed active neutral fun answer _ => rest answer

theorem neutral_of_select {q : Query} (silent : (Stmt.select q).rollsUp? = none)
    (answer : (Op.sql (.select q)).Resp) : (Op.sql (.select q)).Neutral jobOf answer := by
  refine ⟨by cases answer <;> rfl, ?_⟩
  cases answer with
  | error reason => cases q <;> rfl
  | ok result => cases q <;> first | rfl | cases silent

theorem neutral_of_submission {o : Op} {pjhId : Uuid} (submission : o.submission? = some pjhId)
    (answer : o.Resp) : o.Neutral jobOf answer := by
  cases o <;> first | exact ⟨rfl, rfl⟩ | cases submission

theorem dispatchHosts_meets (jobId : Uuid) (semaphore : Nat) (hosts : List PatchJobHostQueued)
    (free : σ.owed = none) : MeetsDuty jobOf σ (dispatchHosts jobId semaphore hosts) := by
  induction hosts with
  | nil => exact meetsDuty_ret free ()
  | cons host rest ih => exact meetsDuty_op_plain rfl fun _ => ⟨nofun, ih⟩

theorem processJob_meets (cfg : WorkerConfig) (jobId : Uuid) (free : σ.owed = none) :
    MeetsDuty jobOf σ (processJob cfg jobId) := by
  refine meetsDuty_op_plain rfl fun _ => meetsDuty_op_neutral trivial rfl (neutral_of_select rfl)
    fun answer => ?_
  cases answer with
  | error reason => exact meetsDuty_ret free ()
  | ok hosts =>
    change MeetsDuty jobOf σ (if hosts.isEmpty then _ else _)
    split
    · exact meetsDuty_ret free ()
    · exact meetsDuty_op_plain rfl fun semaphore => dispatchHosts_meets jobId semaphore hosts free

theorem redispatch_meets (rows : List PatchJobHostPending) (free : σ.owed = none) :
    MeetsDuty jobOf σ (redispatch rows) := by
  induction rows with
  | nil => exact meetsDuty_ret free ()
  | cons row rest ih =>
    refine meetsDuty_op_plain rfl fun answer => ?_
    cases answer with
    | error reason => exact ih
    | ok affected =>
      by_cases reset : affected > 0
      · have starts : (rollUpContract jobOf).start σ (.executeHostJob row.jobId row.hostId row.id none) :=
          nofun
        simpa [reset, MeetsDuty] using ⟨starts, ih⟩
      · simpa [reset, MeetsDuty] using ih

theorem retryPendingJobs_meets (free : σ.owed = none) : MeetsDuty jobOf σ retryPendingJobs := by
  refine meetsDuty_op_neutral trivial rfl (neutral_of_select rfl) fun answer => ?_
  cases answer with
  | error reason => exact meetsDuty_ret free ()
  | ok rows => exact redispatch_meets rows free

section execution

variable {pjhId : Uuid}

theorem waitForHealthChecks_meets (hostId : Uuid) (writer : σ.writer = true)
    (free : σ.owed = none) : MeetsDuty jobOf σ (waitForHealthChecks hostId pjhId) := by
  refine meetsDuty_op_plain rfl fun answer => ?_
  have fails : MeetsDuty jobOf σ (handleHostFailure pjhId
      "Health checks did not pass before maintenance window closed") :=
    handleHostFailure_meets pjhId _ writer free
  have waits : MeetsDuty jobOf σ (Prog.op .utcNow fun now =>
      Prog.op (.sql (.updateHosts (.setWaitingHealthCheck pjhId (now + 5 * microsPerMinute))))
        fun _ => Prog.ret ()) :=
    meetsDuty_op_plain rfl fun _ => meetsDuty_op_plain rfl fun _ => meetsDuty_ret free ()
  match answer with
  | .ok true => exact waits
  | .ok false => exact fails
  | .error reason => exact waits

theorem recordSubmission_meets (answer : Except AgentClientError SubmitResponse)
    (writer : σ.writer = true) (free : σ.owed = none) :
    MeetsDuty jobOf σ (recordSubmission pjhId answer) := by
  cases answer with
  | error e => exact handleHostFailure_meets pjhId _ writer free
  | ok resp => exact meetsDuty_op_plain rfl fun _ => meetsDuty_ret free ()

/-- A submission and what records its answer. -/
theorem submission_meets {o : Op} {next : o.Resp → Proc Unit} (computed : o.computed)
    (active : o.finishes = false) (submission : o.submission? = some pjhId)
    (records : ∀ answer, MeetsDuty jobOf σ (next answer)) : MeetsDuty jobOf σ (Prog.op o next) :=
  meetsDuty_op_neutral computed active (neutral_of_submission submission) records

theorem executePatchHostJob_meets (hostId : Uuid) (client : AgentClient) (patchSelection : Json)
    (allowReboot : Bool) (rebootDelaySeconds : Nat) (writer : σ.writer = true)
    (free : σ.owed = none) : MeetsDuty jobOf σ
      (executePatchHostJob pjhId hostId client patchSelection allowReboot rebootDelaySeconds) :=
  meetsDuty_bind_plain (expandPackages_plain hostId patchSelection) fun _ =>
    meetsDuty_bind_plain (rebootSafetyState_plain hostId) fun _ =>
      submission_meets trivial rfl rfl fun answer => recordSubmission_meets answer writer free

theorem submitReboot_meets (client : AgentClient) (writer : σ.writer = true)
    (free : σ.owed = none) : MeetsDuty jobOf σ (submitReboot pjhId client) :=
  submission_meets trivial rfl rfl fun answer => recordSubmission_meets answer writer free

theorem executeRebootHostJob_meets (hostId : Uuid) (client : AgentClient)
    (writer : σ.writer = true) (free : σ.owed = none) :
    MeetsDuty jobOf σ (executeRebootHostJob pjhId hostId client) := by
  refine meetsDuty_bind_plain (rebootSafetyState_plain hostId) fun state => ?_
  cases state with
  | none => exact submitReboot_meets client writer free
  | some state =>
    simp only
    split
    · exact meetsDuty_op_plain rfl fun _ => handleHostFailure_meets pjhId _ writer free
    · exact submitReboot_meets client writer free

theorem dispatchByKind_meets (hostId : Uuid) (client : AgentClient) (jobInfo : JobInfo)
    (writer : σ.writer = true) (free : σ.owed = none) :
    MeetsDuty jobOf σ (dispatchByKind hostId pjhId client jobInfo) := by
  unfold dispatchByKind
  split
  · exact submission_meets trivial rfl rfl fun answer => recordSubmission_meets answer writer free
  · exact executeRebootHostJob_meets hostId client writer free
  · exact executePatchHostJob_meets hostId client _ _ _ writer free

theorem submitHostJob_meets (jobId hostId : Uuid) (host : HostRow) (writer : σ.writer = true)
    (free : σ.owed = none) : MeetsDuty jobOf σ (submitHostJob jobId hostId pjhId host) := by
  refine meetsDuty_op_plain rfl fun answer => ?_
  match answer with
  | .error e => exact handleHostFailure_meets pjhId _ writer free
  | .ok none => exact handleHostFailure_meets pjhId _ writer free
  | .ok (some jobInfo) =>
    refine meetsDuty_op_plain rfl fun answer => ?_
    cases answer with
    | error e => exact handleHostFailure_meets pjhId _ writer free
    | ok =>
      refine meetsDuty_op_plain rfl fun answer => ?_
      cases answer with
      | error e => exact handleHostFailure_meets pjhId _ writer free
      | ok =>
        refine meetsDuty_op_neutral trivial rfl (fun answer => ⟨?_, ?_⟩) fun _ =>
          dispatchByKind_meets hostId _ jobInfo writer free
        · cases answer with
          | error reason => rfl
          | ok affected => simp [Op.incurs?, HostUpdate.finishedJob?]
        · cases answer <;> rfl

theorem executeHostJob_meets (jobId hostId : Uuid) (writer : σ.writer = true)
    (free : σ.owed = none) : MeetsDuty jobOf σ (executeHostJob jobId hostId pjhId) := by
  refine meetsDuty_op_plain rfl fun answer => ?_
  match answer with
  | .error e => exact handleHostFailure_meets pjhId _ writer free
  | .ok none => exact handleHostFailure_meets pjhId _ writer free
  | .ok (some host) =>
    change MeetsDuty jobOf σ ((checkHostHealthChecks hostId).bind fun answer => _)
    refine meetsDuty_bind_plain (checkHostHealthChecks_plain hostId) fun answer => ?_
    match answer with
    | .ok true => exact submitHostJob_meets jobId hostId host writer free
    | .ok false => exact waitForHealthChecks_meets hostId writer free
    | .error reason => exact submitHostJob_meets jobId hostId host writer free

end execution

/-! ## Relays -/

theorem processEvent_meets (row : RunningHostJob) (event : AgentWsEvent)
    (writer : σ.writer = true) (free : σ.owed = none) :
    MeetsDuty jobOf σ (processEvent row event) := by
  unfold processEvent
  split
  · exact meetsDuty_ret free ()
  · rename_i dbStatus _
    have notify : MeetsDuty jobOf σ
        (Prog.op (.sql (.notifyJobUpdate (hostNotifyPayload row event dbStatus)))
          fun _ => Prog.ret ()) := meetsDuty_op_plain rfl fun _ => meetsDuty_ret free ()
    by_cases terminal : dbStatus.isTerminal = true
    · have update : relayUpdate row event dbStatus = .relayTerminal row event dbStatus := by
        simp [relayUpdate, terminal]
      rw [update]
      refine meetsDuty_finish rfl rfl writer free (fun _ => meetsDuty_ret free ())
        (meetsDuty_ret free ()) fun affected positive => ?_
      have rolled : MeetsDuty jobOf { σ with owed := some row.jobId }
          (updateParentJobStatus row.jobId) := updateParentJobStatus_meets (.inr rfl)
      have both : MeetsDuty jobOf { σ with owed := some row.jobId }
          ((updateParentJobStatus row.jobId).bind fun _ =>
            Prog.op (.sql (.notifyJobUpdate (hostNotifyPayload row event dbStatus)))
              fun _ => Prog.ret ()) :=
        rolled.bind fun τ _ eq => by
          rw [eq]
          change MeetsDuty jobOf { σ with owed := none } _
          rwa [free_of_owed free]
      simpa [terminal, Nat.pos_iff_ne_zero.mp positive] using both
    · have update : relayUpdate row event dbStatus = .relayRunning row event dbStatus := by
        simp [relayUpdate, terminal]
      rw [update]
      refine meetsDuty_op_neutral (by simpa [Op.computed] using terminal) rfl
        (fun answer => ⟨?_, ?_⟩) fun answer => ?_
      · cases answer with
        | error reason => rfl
        | ok affected => simp [Op.incurs?, HostUpdate.finishedJob?]
      · cases answer <;> rfl
      · cases answer with
        | error reason => exact meetsDuty_ret free ()
        | ok affected =>
          by_cases missed : affected = 0
          · simpa [missed] using meetsDuty_ret free ()
          · simpa [missed, terminal] using notify

/-- A relay after an event: it ends, or goes on as one of its loops. -/
theorem relay_goesOn {row : RunningHostJob} {event : AgentWsEvent} {rest : Unit → Proc Unit}
    (writer : σ.writer = true) (free : σ.owed = none) (next : MeetsDuty jobOf σ (rest ())) :
    MeetsDuty jobOf σ ((processEvent row event).bind rest) :=
  (processEvent_meets row event writer free).bind fun τ _ eq => by
    rw [eq]
    change MeetsDuty jobOf { σ with owed := none } _
    rwa [free_of_owed free]

theorem relayStream_meets (row : RunningHostJob) (writer : σ.writer = true)
    (free : σ.owed = none) : MeetsDuty jobOf σ (relayStream row) := by
  refine meetsDuty_op_plain rfl fun answer => ?_
  have ends : MeetsDuty jobOf σ (endRelay row) := meetsDuty_of_plain (endRelay_plain row) free
  have again : MeetsDuty jobOf σ (.jump (.relayStream row) : Proc Unit) := ⟨free, fun _ => writer, nofun⟩
  match answer with
  | none => exact ends
  | some (.error _) => exact ends
  | some .close => exact ends
  | some .other => exact again
  | some (.message none) => exact again
  | some (.message (some event)) =>
    change MeetsDuty jobOf σ ((processEvent row event).bind fun _ =>
      if stopsRelay event.status then endRelay row else .jump (.relayStream row))
    refine relay_goesOn writer free ?_
    split
    · exact ends
    · exact again

theorem relayPoll_meets (cfg : WorkerConfig) (row : RunningHostJob) (client : AgentClient)
    (lastStatus : Option String) (writer : σ.writer = true) (free : σ.owed = none) :
    MeetsDuty jobOf σ (relayPoll cfg row client lastStatus) := by
  have again : ∀ last, MeetsDuty jobOf σ (.jump (.relayPoll row client last) : Proc Unit) :=
    fun last => ⟨free, fun _ => writer, nofun⟩
  refine meetsDuty_op_plain rfl fun _ => meetsDuty_op_plain rfl fun answer => ?_
  cases answer with
  | error e => exact again lastStatus
  | ok status =>
    change MeetsDuty jobOf σ (if lastStatus = some (mappedStatus status.status) then _ else _)
    split
    · exact again lastStatus
    · refine relay_goesOn writer free ?_
      split
      · exact meetsDuty_of_plain (endRelay_plain row) free
      · exact again _

theorem relayOneJob_meets (row : RunningHostJob) (writer : σ.writer = true)
    (free : σ.owed = none) : MeetsDuty jobOf σ (relayOneJob row) := by
  refine meetsDuty_op_plain rfl fun answer => ?_
  cases answer with
  | error reason =>
    refine meetsDuty_op_plain rfl fun answer => ?_
    cases answer with
    | error e => exact meetsDuty_of_plain (endRelay_plain row) free
    | ok => exact ⟨free, fun _ => writer, nofun⟩
  | ok => exact ⟨free, fun _ => writer, nofun⟩

/-! ## The service -/

theorem periodicScan_meets (cfg : WorkerConfig) (writer : σ.writer = true) (free : σ.owed = none) :
    MeetsDuty jobOf σ (periodicScan cfg) := by
  have goesOn : ∀ {p : Proc Unit} {rest : Unit → Proc Unit}, MeetsDuty jobOf σ p →
      MeetsDuty jobOf σ (rest ()) → MeetsDuty jobOf σ (p.bind rest) := fun first second =>
    first.bind fun τ _ eq => by
      rw [eq]
      change MeetsDuty jobOf { σ with owed := none } _
      rwa [free_of_owed free]
  exact goesOn (meetsDuty_of_plain scanQueuedJobs_plain free)
    (goesOn (pollRunningJobs_meets free)
      (goesOn (retryPendingJobs_meets free) (failTimedOutJobs_meets cfg writer free)))

theorem body_meets (cfg : WorkerConfig) (f : Fn) (free : σ.owed = none)
    (writer : f.isWriter = true → σ.writer = true)
    (own : ∀ row ∈ f.polled?, jobOf row.id = row.jobId) : MeetsDuty jobOf σ (body cfg f) := by
  cases f with
  | processJob jobId => exact processJob_meets cfg jobId free
  | executeHostJob jobId hostId pjhId permit =>
    refine (executeHostJob_meets jobId hostId (writer rfl) free).bind fun τ _ eq => ?_
    rw [eq]
    cases permit with
    | none => exact meetsDuty_ret rfl ()
    | some semaphore => exact meetsDuty_op_plain rfl fun _ => meetsDuty_ret rfl ()
  | pollSingleHost row => exact pollSingleHost_meets (writer rfl) free (own row rfl)
  | reconnectLoop row client targetVersion oldVersion elapsed =>
    exact reconnectLoop_meets cfg client targetVersion oldVersion elapsed (writer rfl) free (own row rfl)
  | jobEmails jobId total succeeded failed =>
    exact meetsDuty_of_plain (jobEmails_plain jobId total succeeded failed) free
  | periodicScan => exact periodicScan_meets cfg (writer rfl) free
  | schedulerTick => exact meetsDuty_of_plain schedulerTick_plain free
  | relayTick => exact meetsDuty_of_plain relayTick_plain free
  | relayOneJob row => exact relayOneJob_meets row (writer rfl) free
  | relayStream row => exact relayStream_meets row (writer rfl) free
  | relayPoll row client lastStatus => exact relayPoll_meets cfg row client lastStatus (writer rfl) free
  | createJob auth req =>
    exact meetsDuty_bind_plain (createJob_plain auth req) fun _ => meetsDuty_ret free ()
  | cancelJob auth id =>
    exact meetsDuty_bind_plain (cancelJob_plain auth id) fun _ => meetsDuty_ret free ()
  | rollbackJob auth id =>
    exact meetsDuty_bind_plain (rollbackJob_plain auth id) fun _ => meetsDuty_ret free ()
  | insertUpgradeJobs auth immediate window groups skipped =>
    exact meetsDuty_bind_plain (insertUpgradeJobs_plain auth immediate window groups skipped)
      fun _ => meetsDuty_ret free ()

/-- Every function of the service rolls up what it finishes. -/
theorem engine_rollsUp (cfg : WorkerConfig) : (engine cfg).Keeps (rollUpContract jobOf) where
  starts _ f own := (body_meets cfg f rfl (fun isWriter => isWriter) own).weaken fun _ _ eq => by
    rw [eq]; rfl
  tails _ f tail := (body_meets cfg f tail.1 tail.2.1 tail.2.2).weaken fun _ _ eq => by
    rw [eq]; rfl
  idle := rfl

end PatchManager
