import PatchManager.Verified.Passive

/-! # Who submits

An execution submits its own row to the agent, once, after it has marked it running; a
task starts executions only for rows that one of its queries has fetched for dispatch.

Main results:

* `submits_armed`: a task that submits a row has marked it running before.
* `submits_fetched`: the task was started by one that had fetched the row.
-/

namespace PatchManager

open PatchManager.Conc

/-- What a task has in hand on the way to a submission: the row it executes, the row it
    has marked running and not yet submitted, the rows it has fetched for dispatch. -/
structure Dispatcher where
  row : Option Uuid := none
  armed : Option Uuid := none
  fetched : List Uuid := []

def dispatchContract : Contract Op Op.Resp Fn where
  State := Dispatcher
  idle := {}
  init f := { row := f.executes? }
  next σ o answer :=
    { row := σ.row
      armed :=
        match o.marks? with
        | some pjhId => some pjhId
        | none => if o.submission?.isSome then none else σ.armed
      fetched := o.fetched answer ++ σ.fetched }
  rely _ _ := True
  guar σ o := ∀ pjhId, o.submission? = some pjhId → σ.armed = some pjhId ∧ σ.row = some pjhId
  start σ f := ∀ pjhId, f.executes? = some pjhId → pjhId ∈ σ.fetched
  tail _ f := f.executes? = none
  exit _ := True

variable {σ : Dispatcher}

/-- The function keeps the contract from ghost state `σ` on. -/
abbrev Dispatches (σ : Dispatcher) {α : Type} (p : Proc α) : Prop :=
  p.Along dispatchContract (fun _ _ => True) σ

/-- What a passive operation does to the ghost state. -/
theorem next_of_passive {o : Op} (passive : o.isPassive = true) (answer : o.Resp) :
    dispatchContract.next σ o answer = { σ with fetched := o.fetched answer ++ σ.fetched } := by
  simp only [Op.isPassive, Bool.and_eq_true, Option.isNone_iff_eq_none] at passive
  simp [dispatchContract, passive.1, passive.2]

/-- A passive function arms no row and forgets none it has fetched. -/
theorem along_of_passive {α : Type} {p : Proc α} (passive : Passive p) :
    p.Along dispatchContract
      (fun τ _ => τ.row = σ.row ∧ τ.armed = σ.armed ∧ σ.fetched ⊆ τ.fetched) σ := by
  suffices general : ∀ τ : Dispatcher,
      τ.row = σ.row ∧ τ.armed = σ.armed ∧ σ.fetched ⊆ τ.fetched →
        p.Along dispatchContract
          (fun τ _ => τ.row = σ.row ∧ τ.armed = σ.armed ∧ σ.fetched ⊆ τ.fetched) τ from
    general σ ⟨rfl, rfl, List.Subset.refl _⟩
  induction p with
  | ret value => exact fun τ same => same
  | op o next ih =>
    rintro τ ⟨row, armed, fetched⟩
    have silent : o.submission? = none := by
      have both := passive.1
      simp only [Op.isPassive, Bool.and_eq_true, Option.isNone_iff_eq_none] at both
      exact both.1
    refine ⟨fun pjhId some => (by rw [silent] at some; cases some), fun answer _ => ?_⟩
    rw [next_of_passive passive.1]
    exact ih answer (passive.2 answer) _
      ⟨row, armed, List.Subset.trans fetched (List.subset_append_right _ _)⟩
  | spawn f next ih =>
    exact fun τ same => ⟨fun pjhId some => (by rw [passive.1] at some; cases some),
      ih passive.2 τ same⟩
  | jump f => exact fun τ _ => passive

theorem dispatches_of_passive {α : Type} {p : Proc α} (passive : Passive p) :
    Dispatches σ p :=
  (along_of_passive passive).weaken fun _ _ _ => trivial

/-- A passive function first. -/
theorem dispatches_bind {α β : Type} {p : Proc α} {rest : α → Proc β} (passive : Passive p)
    (second : ∀ a τ, τ.row = σ.row → τ.armed = σ.armed → Dispatches τ (rest a)) :
    Dispatches σ (p.bind rest) :=
  (along_of_passive passive).bind fun τ a same => second a τ same.1 same.2.1

/-- An operation that is no submission. -/
theorem dispatches_op {α : Type} {o : Op} {next : o.Resp → Proc α} (none : o.submission? = none)
    (rest : ∀ answer, Dispatches (dispatchContract.next σ o answer) (next answer)) :
    Dispatches σ (Prog.op o next) :=
  ⟨fun pjhId some => (by rw [none] at some; cases some), fun answer _ => rest answer⟩

/-! ## From the fetched rows to executions -/

theorem dispatchHosts_dispatches (jobId : Uuid) (semaphore : Nat) (hosts : List PatchJobHostQueued)
    (fetched : ∀ host ∈ hosts, host.id ∈ σ.fetched) :
    Dispatches σ (dispatchHosts jobId semaphore hosts) := by
  induction hosts generalizing σ with
  | nil => trivial
  | cons host rest ih =>
    refine dispatches_op rfl fun _ => ⟨?_, ?_⟩
    · rintro _ ⟨⟩
      exact fetched host List.mem_cons_self
    · exact ih fun host mem => fetched host (List.mem_cons_of_mem _ mem)

theorem processJob_dispatches (cfg : WorkerConfig) (jobId : Uuid) :
    Dispatches σ (processJob cfg jobId) := by
  refine dispatches_op rfl fun _ => dispatches_op rfl fun answer => ?_
  cases answer with
  | error reason => trivial
  | ok hosts =>
    change Dispatches _ (if hosts.isEmpty then _ else _)
    split
    · trivial
    · refine dispatches_op rfl fun semaphore => dispatchHosts_dispatches jobId semaphore hosts ?_
      exact fun host mem => List.mem_append_right _ (List.mem_append_left _ (List.mem_map_of_mem mem))

theorem redispatch_dispatches (rows : List PatchJobHostPending)
    (fetched : ∀ row ∈ rows, row.id ∈ σ.fetched) : Dispatches σ (redispatch rows) := by
  induction rows generalizing σ with
  | nil => trivial
  | cons row rest ih =>
    refine dispatches_op rfl fun answer => ?_
    have others : Dispatches (dispatchContract.next σ (.sql (.updateHosts (.resetQueued row.id))) answer)
        (redispatch rest) := ih fun row mem => fetched row (List.mem_cons_of_mem _ mem)
    cases answer with
    | error reason => exact others
    | ok affected =>
      by_cases reset : affected > 0
      · have starts : dispatchContract.start σ (.executeHostJob row.jobId row.hostId row.id none) := by
          rintro _ ⟨⟩
          exact fetched row List.mem_cons_self
        simpa [reset, Dispatches] using ⟨starts, others⟩
      · simpa [reset, Dispatches] using others

theorem retryPendingJobs_dispatches : Dispatches σ retryPendingJobs := by
  refine dispatches_op rfl fun answer => ?_
  cases answer with
  | error reason => trivial
  | ok rows =>
    exact redispatch_dispatches rows fun row mem => List.mem_append_left _ (List.mem_map_of_mem mem)

/-! ## Executions -/

section execution

variable {pjhId : Uuid}

/-- A submission of the row just marked, and what records its answer. -/
theorem submission_dispatches {o : Op} {next : o.Resp → Proc Unit} (row : σ.row = some pjhId)
    (armed : σ.armed = some pjhId) (own : o.submission? = some pjhId)
    (records : ∀ answer, Passive (next answer)) : Dispatches σ (Prog.op o next) := by
  refine ⟨fun other some => ?_, fun answer _ => dispatches_of_passive (records answer)⟩
  obtain rfl : pjhId = other := Option.some.inj (own.symm.trans some)
  exact ⟨armed, row⟩

theorem executePatchHostJob_dispatches (hostId : Uuid) (client : AgentClient)
    (patchSelection : Json) (allowReboot : Bool) (rebootDelaySeconds : Nat)
    (row : σ.row = some pjhId) (armed : σ.armed = some pjhId) :
    Dispatches σ
      (executePatchHostJob pjhId hostId client patchSelection allowReboot rebootDelaySeconds) :=
  dispatches_bind (passive_of_plain (expandPackages_plain hostId patchSelection)) fun _ _ row' armed' =>
    dispatches_bind (passive_of_plain (rebootSafetyState_plain hostId)) fun _ _ row'' armed'' =>
      submission_dispatches (by rw [row'', row', row]) (by rw [armed'', armed', armed]) rfl
        (recordSubmission_passive pjhId)

theorem submitReboot_dispatches (client : AgentClient) (row : σ.row = some pjhId)
    (armed : σ.armed = some pjhId) : Dispatches σ (submitReboot pjhId client) :=
  submission_dispatches row armed rfl (recordSubmission_passive pjhId)

theorem executeRebootHostJob_dispatches (hostId : Uuid) (client : AgentClient)
    (row : σ.row = some pjhId) (armed : σ.armed = some pjhId) :
    Dispatches σ (executeRebootHostJob pjhId hostId client) := by
  refine dispatches_bind (passive_of_plain (rebootSafetyState_plain hostId)) fun state τ row' armed' => ?_
  rw [row] at row'
  rw [armed] at armed'
  cases state with
  | none => exact submitReboot_dispatches client row' armed'
  | some state =>
    simp only
    split
    · exact dispatches_op rfl fun _ => dispatches_of_passive (handleHostFailure_passive pjhId _)
    · exact submitReboot_dispatches client row' armed'

theorem dispatchByKind_dispatches (hostId : Uuid) (client : AgentClient) (jobInfo : JobInfo)
    (row : σ.row = some pjhId) (armed : σ.armed = some pjhId) :
    Dispatches σ (dispatchByKind hostId pjhId client jobInfo) := by
  unfold dispatchByKind
  split
  · exact submission_dispatches row armed rfl (recordSubmission_passive pjhId)
  · exact executeRebootHostJob_dispatches hostId client row armed
  · exact executePatchHostJob_dispatches hostId client _ _ _ row armed

theorem submitHostJob_dispatches (jobId hostId : Uuid) (host : HostRow)
    (row : σ.row = some pjhId) : Dispatches σ (submitHostJob jobId hostId pjhId host) := by
  refine dispatches_op rfl fun answer => ?_
  match answer with
  | .error e => exact dispatches_of_passive (handleHostFailure_passive pjhId _)
  | .ok none => exact dispatches_of_passive (handleHostFailure_passive pjhId _)
  | .ok (some jobInfo) =>
    refine dispatches_op rfl fun answer => ?_
    cases answer with
    | error e => exact dispatches_of_passive (handleHostFailure_passive pjhId _)
    | ok =>
      refine dispatches_op rfl fun answer => ?_
      cases answer with
      | error e => exact dispatches_of_passive (handleHostFailure_passive pjhId _)
      | ok => exact dispatches_op rfl fun _ => dispatchByKind_dispatches hostId _ jobInfo row rfl

theorem executeHostJob_dispatches (jobId hostId : Uuid) (row : σ.row = some pjhId) :
    Dispatches σ (executeHostJob jobId hostId pjhId) := by
  refine dispatches_op rfl fun answer => ?_
  match answer with
  | .error e => exact dispatches_of_passive (handleHostFailure_passive pjhId _)
  | .ok none => exact dispatches_of_passive (handleHostFailure_passive pjhId _)
  | .ok (some host) =>
    change Dispatches _ ((checkHostHealthChecks hostId).bind fun answer => _)
    refine dispatches_bind (passive_of_plain (checkHostHealthChecks_plain hostId))
      fun answer τ row' _ => ?_
    have row'' : τ.row = some pjhId := row'.trans row
    match answer with
    | .ok true => exact submitHostJob_dispatches jobId hostId host row''
    | .ok false => exact dispatches_of_passive (waitForHealthChecks_passive hostId pjhId)
    | .error reason => exact submitHostJob_dispatches jobId hostId host row''

end execution

/-! ## The service -/

theorem periodicScan_dispatches (cfg : WorkerConfig) : Dispatches σ (periodicScan cfg) :=
  dispatches_bind (passive_of_plain scanQueuedJobs_plain) fun _ _ _ _ =>
    dispatches_bind pollRunningJobs_passive fun _ _ _ _ =>
      Prog.Along.bind retryPendingJobs_dispatches fun _ _ _ =>
        dispatches_of_passive (failTimedOutJobs_passive cfg)

theorem body_dispatches (cfg : WorkerConfig) (f : Fn)
    (own : ∀ pjhId, f.executes? = some pjhId → σ.row = some pjhId) : Dispatches σ (body cfg f) := by
  cases f with
  | processJob jobId => exact processJob_dispatches cfg jobId
  | executeHostJob jobId hostId pjhId permit =>
    refine Prog.Along.bind (executeHostJob_dispatches jobId hostId (own pjhId rfl)) fun _ _ _ => ?_
    cases permit with
    | none => trivial
    | some semaphore => exact dispatches_op rfl fun _ => trivial
  | pollSingleHost row => exact dispatches_of_passive (pollSingleHost_passive row)
  | reconnectLoop row client targetVersion oldVersion elapsed =>
    exact dispatches_of_passive (reconnectLoop_passive cfg row client targetVersion oldVersion elapsed)
  | jobEmails jobId total succeeded failed =>
    exact dispatches_of_passive (passive_of_plain (jobEmails_plain jobId total succeeded failed))
  | periodicScan => exact periodicScan_dispatches cfg
  | schedulerTick => exact dispatches_of_passive (passive_of_plain schedulerTick_plain)
  | relayTick => exact dispatches_of_passive (passive_of_plain relayTick_plain)
  | relayOneJob row => exact dispatches_of_passive (relayOneJob_passive row)
  | relayStream row => exact dispatches_of_passive (relayStream_passive row)
  | relayPoll row client lastStatus =>
    exact dispatches_of_passive (relayPoll_passive cfg row client lastStatus)
  | createJob auth req =>
    exact dispatches_bind (passive_of_plain (createJob_plain auth req)) fun _ _ _ _ => trivial
  | cancelJob auth id =>
    exact dispatches_bind (passive_of_plain (cancelJob_plain auth id)) fun _ _ _ _ => trivial
  | rollbackJob auth id =>
    exact dispatches_bind (passive_of_plain (rollbackJob_plain auth id)) fun _ _ _ _ => trivial
  | insertUpgradeJobs auth immediate window groups skipped =>
    exact dispatches_bind
      (passive_of_plain (insertUpgradeJobs_plain auth immediate window groups skipped))
      fun _ _ _ _ => trivial

theorem engine_dispatches (cfg : WorkerConfig) : (engine cfg).Keeps dispatchContract where
  starts _ f _ := body_dispatches cfg f fun _ executes => executes
  tails σ f none := body_dispatches cfg f fun pjhId some => by
    change f.executes? = Option.none at none
    rw [none] at some
    cases some
  idle := trivial

/-! ## Submissions in a run -/

variable {cfg : WorkerConfig} {s t : State} {h h₁ h₂ : List (Event World Op Op.Resp Fn)}
  {e : Event World Op Op.Resp Fn} {tid : Nat} {pjhId : Uuid}

/-- What the tasks have in hand after a history. -/
def dispatcher (cfg : WorkerConfig) (h : List (Event World Op Op.Resp Fn)) : Nat → Dispatcher :=
  (engine cfg).ghost dispatchContract h

/-- The row a task has marked running and not yet submitted, after a history. -/
def armed (cfg : WorkerConfig) (h : List (Event World Op Op.Resp Fn)) (tid : Nat) : Option Uuid :=
  (dispatcher cfg h tid).armed

/-- The step submits this host row to its agent. -/
def submits (pjhId : Uuid) : Label Op Op.Resp Fn → Bool
  | .op _ o _ => o.submission? == some pjhId
  | _ => false

/-- The step is a query of task `tid` that fetches the row for dispatch. -/
def fetches (tid : Nat) (pjhId : Uuid) : Label Op Op.Resp Fn → Prop
  | .op tid' o answer => tid' = tid ∧ pjhId ∈ o.fetched answer
  | _ => False

/-- No call from outside starts an execution. -/
theorem executes_of_enter {f : Fn} (step : Step (engine cfg) s (.enter f) t) :
    f.executes? = none := by
  obtain ⟨w, called, -⟩ := step.enter_inv
  cases f with
  | executeHostJob => simp [engine, enter, Fn.isRequest, Fn.isTick] at called
  | _ => rfl

theorem run_dispatches (run : Run (engine cfg) s h t) (initial : Initial s)
    (split : h = h₁ ++ e :: h₂) : dispatchContract.Guarantees (dispatcher cfg h₁) e.label := by
  have relies : ∀ e ∈ h, dispatchContract.Relies e.label := by
    rintro ⟨pre, label, post⟩ mem
    cases label with
    | enter f =>
      intro pjhId executes
      rw [executes_of_enter (run.step_of_mem mem)] at executes
      cases executes
    | _ => trivial
  exact (run.guarantees (engine_dispatches cfg) relies (Sys.along_of_empty initial.tasks)).2 h₁ e h₂ split

/-- A submission is made by the row's execution, after it has marked the row running. -/
theorem submits_armed {o : Op} {answer : o.Resp} (run : Run (engine cfg) s h t)
    (initial : Initial s) (split : h = h₁ ++ e :: h₂) (label : e.label = .op tid o answer)
    (submission : o.submission? = some pjhId) :
    armed cfg h₁ tid = some pjhId ∧ (dispatcher cfg h₁ tid).row = some pjhId := by
  have guarantee := run_dispatches run initial split
  rw [label] at guarantee
  exact guarantee pjhId submission

/-- The event starts task `tid` as the execution of the row. -/
def SpawnsExecution (tid : Nat) (pjhId : Uuid) (e : Event World Op Op.Resp Fn) : Prop :=
  e.pre.tasks.length = tid ∧ ∃ parent f, e.label = .spawn parent f ∧ f.executes? = some pjhId

/-- A task executes the row it was started for. -/
theorem spawned_of_row (run : Run (engine cfg) s h t)
    (row : (dispatcher cfg h tid).row = some pjhId) :
    Occurs (fun _ => SpawnsExecution tid pjhId) h := by
  induction run with
  | nil => cases row
  | @snoc h u v l before step ih =>
    cases (engine cfg).ghost_move dispatchContract h ⟨u, l, v⟩ tid with
    | own o answer label next => exact (ih ((congrArg Dispatcher.row next).symm.trans row)).append
    | start f starts init =>
      have executes : f.executes? = some pjhId := (congrArg Dispatcher.row init).symm.trans row
      obtain ⟨position, ⟨parent, label⟩ | label⟩ := starts
      · exact .last ⟨position.symm, parent, f, label, executes⟩
      · obtain rfl : l = .enter f := label
        rw [executes_of_enter step] at executes
        cases executes
    | stop ends idle => cases (congrArg Dispatcher.row idle).symm.trans row
    | keep others same => exact (ih ((congrArg Dispatcher.row same).symm.trans row)).append

/-- A row a task has in hand was returned by one of its queries. -/
theorem fetched_of_mem (mem : pjhId ∈ (dispatcher cfg h tid).fetched) :
    Occurs (fun _ e => fetches tid pjhId e.label) h := by
  induction h using List.reverseRecOn with
  | nil => cases mem
  | append_singleton h e ih =>
    have moved {l : List Uuid} (eq : (dispatcher cfg (h ++ [e]) tid).fetched = l) : pjhId ∈ l :=
      eq ▸ mem
    cases (engine cfg).ghost_move dispatchContract h e tid with
    | own o answer label next =>
      rcases List.mem_append.mp (moved (congrArg Dispatcher.fetched next)) with new | old
      · exact .last (by rw [label]; exact ⟨rfl, new⟩)
      · exact (ih old).append
    | start f starts init => cases moved (congrArg Dispatcher.fetched init)
    | stop ends idle => cases moved (congrArg Dispatcher.fetched idle)
    | keep others same => exact (ih (moved (congrArg Dispatcher.fetched same))).append

/-- Task `tid` was started by task `parent`. -/
def StartedBy (h : List (Event World Op Op.Resp Fn)) (parent tid : Nat) : Prop :=
  ∃ e ∈ h, (∃ f, e.label = .spawn parent f) ∧ e.pre.tasks.length = tid

/-- The submitting task was started by one that had fetched the row for dispatch. -/
theorem submits_fetched {o : Op} {answer : o.Resp} (run : Run (engine cfg) s h t)
    (initial : Initial s) (split : h = h₁ ++ e :: h₂) (label : e.label = .op tid o answer)
    (submission : o.submission? = some pjhId) :
    ∃ parent, StartedBy h₁ parent tid ∧ Occurs (fun _ e => fetches parent pjhId e.label) h₁ := by
  have row := (submits_armed run initial split label submission).2
  subst split
  obtain ⟨before, -, -⟩ := run.split_event
  obtain ⟨h₃, g, h₄, rfl, position, parent, f, spawn, executes⟩ := spawned_of_row before row
  have guarantee := run_dispatches before initial rfl
  rw [spawn] at guarantee
  exact ⟨parent, ⟨g, by simp, ⟨f, spawn⟩, position⟩, (fetched_of_mem (guarantee pjhId executes)).append⟩

end PatchManager
