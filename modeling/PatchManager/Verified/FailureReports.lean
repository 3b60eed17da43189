import PatchManager.Verified.Passive
import PatchManager.Verified.Skeleton

/-! # Who reports failures

An execution of a row and the polls of the row call `handle_host_failure` for it.  An
execution does so at most once, and not when it has stored an agent job: from then on the
polls of this agent job speak for it.

Main result: `run_reports`, what every operation of a run keeps to.
-/

namespace PatchManager

open PatchManager.Conc

variable {cfg : WorkerConfig} {s t : State} {h h₁ h₂ : List (Event World Op Op.Resp Fn)}
  {e : Event World Op Op.Resp Fn} {pjhId : Uuid}

/-! ## The statements of a report -/

/-- The row whose failure a statement of `handle_host_failure` is about. -/
def Op.failureOf? : Op → Option Uuid
  | sql (.select (.retryRow pjhId)) => some pjhId
  | sql (.updateHosts (.setPending pjhId _ _ _)) => some pjhId
  | sql (.updateHosts (.setFailed pjhId _)) => some pjhId
  | _ => none

/-- The row whose failure has been reported with this answer, whether it was recorded or lost. -/
def Op.reported? : (o : Op) → o.Resp → Option Uuid
  | sql (.select (.retryRow pjhId)), .error _ => some pjhId
  | sql (.updateHosts (.setPending pjhId _ _ _)), _ => some pjhId
  | sql (.updateHosts (.setFailed pjhId _)), _ => some pjhId
  | _, _ => none

def Op.stores? : Op → Option Uuid
  | sql (.updateHosts (.storeAgentJobId pjhId _)) => some pjhId
  | _ => none

/-- The number of retries the statement says there have been. -/
def Op.retries? : Op → Option Int
  | sql (.updateHosts (.setPending _ retryCount _ _)) => some retryCount
  | _ => none

/-- The rows an operation has read to start polls for. -/
def Op.runningRows? : (o : Op) → o.Resp → Option (List PatchJobHostRunning)
  | sql (.select .runningRows), .ok rows => some rows
  | _, _ => none

def Fn.polls? : Fn → Option PatchJobHostRunning
  | pollSingleHost row | reconnectLoop row _ _ _ _ => some row
  | _ => none

/-! ## The contract -/

/-- The function of a task, whether it has stored an agent job or reported a failure, and the
    rows it has last read to start polls for. -/
structure Reporter where
  root : Option Fn := none
  closed : Bool := false
  fetched : List PatchJobHostRunning := []

/-- The task executes the row and has neither stored an agent job nor reported a failure. -/
def Reporter.Attempts (σ : Reporter) (pjhId : Uuid) : Prop :=
  σ.root.bind Fn.executes? = some pjhId ∧ σ.closed = false

def Reporter.polls? (σ : Reporter) : Option PatchJobHostRunning := σ.root.bind Fn.polls?

/-- The task may report a failure of the row. -/
def Reporter.Speaks (σ : Reporter) (pjhId : Uuid) : Prop :=
  σ.Attempts pjhId ∨ ∃ row, σ.polls? = some row ∧ row.id = pjhId

structure Reports (σ : Reporter) (o : Op) : Prop where
  failure : ∀ pjhId, o.failureOf? = some pjhId → σ.Speaks pjhId
  stored : ∀ pjhId, o.stores? = some pjhId → σ.Attempts pjhId
  retries : ∀ retryCount, o.retries? = some retryCount → retryCount ≤ 3

/-- Polls are started for rows that were just read. -/
def reportContract : Contract Op Op.Resp Fn where
  State := Reporter
  idle := {}
  init f := { root := some f }
  next σ o answer :=
    { σ with closed := σ.closed || (o.reported? answer).isSome || o.stores?.isSome
             fetched := (o.runningRows? answer).getD σ.fetched }
  rely _ _ := True
  guar := Reports
  start σ f := ∀ row, f.polls? = some row → row ∈ σ.fetched
  tail σ f := f.executes? = none ∧ ∀ row, f.polls? = some row → σ.polls? = some row
  exit _ := True

/-! ## Programs that report nothing -/

/-- Kinds of operations that neither report a failure nor store an agent job. -/
def OpKind.reportsNone : OpKind → Bool
  | .readFailure | .fail | .storeAgentJob => false
  | _ => true

theorem reports_of_kind {o : Op} (quiet : o.kind.reportsNone = true) (σ : Reporter) : Reports σ o := by
  refine ⟨fun pjhId eq => ?_, fun pjhId eq => ?_, fun retryCount eq => ?_⟩
  · unfold Op.failureOf? at eq
    split at eq <;> first | cases quiet | cases eq
  · unfold Op.stores? at eq
    split at eq <;> first | cases quiet | cases eq
  · unfold Op.retries? at eq
    split at eq <;> first | cases quiet | cases eq

theorem next_of_kind {o : Op} (quiet : o.kind.reportsNone = true) (answer : o.Resp) (σ : Reporter) :
    reportContract.next σ o answer =
      { σ with fetched := (o.runningRows? answer).getD σ.fetched } := by
  have silent : o.reported? answer = none := by
    unfold Op.reported?
    split <;> first | rfl | cases quiet
  have unstored : o.stores? = none := by
    unfold Op.stores?
    split <;> first | rfl | cases quiet
  simp [reportContract, silent, unstored]

/-- The program keeps the contract, and `R` of its task. -/
abbrev Keeping (R : Reporter → Prop) {α : Type} (p : Proc α) : Prop :=
  ∀ σ, R σ → p.Along reportContract (fun τ _ => R τ) σ

/-- What does not depend on the rows read is kept by operations that report nothing. -/
theorem follows_keeping {R : Reporter → Prop} (keeps : ∀ σ rows, R σ → R { σ with fetched := rows }) :
    Follows (fun {_} p => Keeping R p) OpKind.reportsNone (fun f => f.polls? = none)
      fun f => f.executes? = none ∧ ∀ σ, R σ → ∀ row, f.polls? = some row → σ.polls? = some row where
  toClosed := closed_along_while (C := reportContract) (Q := R) (fun σ _ _ quiet => reports_of_kind quiet σ)
    (fun σ _ answer holds quiet => by rw [next_of_kind quiet answer σ]; exact keeps σ _ holds)
    (fun _ _ _ none row eq => by rw [none] at eq; cases eq) fun σ _ holds own => ⟨own.1, own.2 σ holds⟩
  other := rfl
  read := rfl

theorem syncJobStatus_keeping {R : Reporter → Prop}
    (keeps : ∀ σ rows, R σ → R { σ with fetched := rows }) (jobId : Uuid) :
    Keeping R (syncJobStatus jobId) :=
  syncJobStatus_follows (follows_keeping keeps) rfl rfl (fun _ _ _ _ => rfl) jobId

/-! ## Reports -/

/-- A task that may report a failure does so by `handle_host_failure`, at the retry count it has
    read. -/
theorem handleHostFailure_reports {σ : Reporter} (speaks : σ.Speaks pjhId) (errorMsg : String) :
    (handleHostFailure pjhId errorMsg).Along reportContract (fun τ _ => τ.root = σ.root) σ := by
  have sync : ∀ jobId, Keeping (fun τ => τ.root = σ.root) (syncJobStatus jobId) :=
    syncJobStatus_keeping fun _ _ => id
  refine ⟨⟨fun _ eq => Option.some.inj eq ▸ speaks, nofun, nofun⟩, fun answer _ => ?_⟩
  match answer with
  | .error reason => rfl
  | .ok none => rfl
  | .ok (some row) =>
    -- the read leaves the task open, so it may still write
    have open_ : ((reportContract.next σ (.sql (.select (.retryRow pjhId))) (.ok (some row)) :
        Reporter)).Speaks pjhId := by
      simpa [reportContract, Op.reported?, Op.stores?, Reporter.Speaks, Reporter.Attempts,
        Reporter.polls?] using speaks
    refine iteInduction (motive := fun p : Proc Unit => p.Along reportContract _ _) (fun _ => rfl)
      fun _ => iteInduction (motive := fun p : Proc Unit => p.Along reportContract _ _)
        (fun few => ?_) fun _ => ?_
    · refine ⟨reports_of_kind rfl _, fun now _ => ⟨⟨fun _ eq => ?_, nofun, fun count eq => ?_⟩,
        fun answer _ => rfl⟩⟩
      · rw [← Option.some.inj eq]
        simpa [reportContract, Op.reported?, Op.stores?, Reporter.Speaks, Reporter.Attempts,
          Reporter.polls?] using open_
      · rw [← Option.some.inj eq]
        omega
    · refine ⟨⟨fun _ eq => Option.some.inj eq ▸ open_, nofun, nofun⟩, fun answer _ => ?_⟩
      cases answer with
      | error reason => rfl
      | ok affected =>
        exact iteInduction (motive := fun p : Proc Unit => p.Along reportContract _ _)
          (fun _ => sync row.jobId _ rfl) fun _ => rfl

/-! ## Executions and polls -/

/-- The program keeps the contract in an execution that is open at its start. -/
abbrev Concludes (pjhId : Uuid) {α : Type} (p : Proc α) : Prop :=
  ∀ σ : Reporter, σ.Attempts pjhId → p.Along reportContract (fun _ _ => True) σ

theorem follows_attempts : Follows (fun {_} p => Keeping (Reporter.Attempts · pjhId) p)
    OpKind.reportsNone (fun f => f.polls? = none) fun f => f.executes? = none ∧
      ∀ σ : Reporter, σ.Attempts pjhId → ∀ row, f.polls? = some row → σ.polls? = some row :=
  follows_keeping fun _ _ => id

theorem leads_concludes : Leads (fun {_} p => Keeping (Reporter.Attempts · pjhId) p)
    (fun {_} p => Concludes pjhId p) OpKind.reportsNone where
  ret _ _ _ := trivial
  op quiet rest σ attempts := by
    refine ⟨reports_of_kind quiet σ, fun answer _ => rest answer _ ?_⟩
    rw [next_of_kind quiet answer σ]
    exact attempts
  bind first second σ attempts := (first σ attempts).bind fun τ a kept => second a τ kept

theorem executeHostJob_concludes (jobId hostId : Uuid) :
    Concludes pjhId (executeHostJob jobId hostId pjhId) :=
  executeHostJob_leads follows_attempts leads_concludes
    (fun errorMsg _ attempts =>
      (handleHostFailure_reports (.inl attempts) errorMsg).weaken fun _ _ _ => trivial)
    (fun _ _ attempts =>
      ⟨⟨nofun, fun _ eq => Option.some.inj eq ▸ attempts, nofun⟩, fun _ _ => trivial⟩)
    rfl rfl rfl jobId hostId

section poll

variable {row : PatchJobHostRunning}

theorem follows_polls : Follows (fun {_} p => Keeping (fun τ => τ.polls? = some row) p)
    OpKind.reportsNone (fun f => f.polls? = none) fun f => f.executes? = none ∧
      ∀ σ : Reporter, σ.polls? = some row → ∀ row', f.polls? = some row' → σ.polls? = some row' :=
  follows_keeping fun _ _ => id

theorem handleHostFailure_polls (errorMsg : String) :
    Keeping (fun τ => τ.polls? = some row) (handleHostFailure row.id errorMsg) := by
  intro σ polls
  refine (handleHostFailure_reports (.inr ⟨row, polls, rfl⟩) errorMsg).weaken fun τ _ same => ?_
  change τ.root.bind Fn.polls? = some row
  rw [same]
  exact polls

theorem pollSingleHost_polls : Keeping (fun τ => τ.polls? = some row) (pollSingleHost row) :=
  pollSingleHost_follows follows_polls (syncJobStatus_keeping fun _ _ => id) handleHostFailure_polls
    (fun _ _ _ _ => ⟨rfl, fun _ polls _ eq => Option.some.inj eq ▸ polls⟩) rfl rfl rfl rfl

theorem reconnectLoop_polls (client : AgentClient) (targetVersion oldVersion : Option String)
    (elapsed : UInt64) : Keeping (fun τ => τ.polls? = some row)
      (reconnectLoop cfg row client targetVersion oldVersion elapsed) :=
  reconnectLoop_follows follows_polls (syncJobStatus_keeping fun _ _ => id) handleHostFailure_polls
    (fun _ _ _ _ => ⟨rfl, fun _ polls _ eq => Option.some.inj eq ▸ polls⟩) rfl rfl rfl cfg client
    targetVersion oldVersion elapsed

end poll

/-! ## The service -/

/-- The program is neither an execution nor a poll. -/
abbrev ReportsNothing {α : Type} (p : Proc α) : Prop := Keeping (fun _ => True) p

theorem follows_reportsNothing : Follows (fun {_} p => ReportsNothing p) OpKind.reportsNone
    (fun f => f.polls? = none) fun f => f.executes? = none ∧
      ∀ σ : Reporter, True → ∀ row, f.polls? = some row → σ.polls? = some row :=
  follows_keeping fun _ _ => id

theorem forkEach_pollSingleHost {rows : List PatchJobHostRunning} {σ : Reporter}
    (read : ∀ row ∈ rows, row ∈ σ.fetched) :
    (forkEach .pollSingleHost rows).Along reportContract (fun _ _ => True) σ := by
  induction rows with
  | nil => trivial
  | cons row rest ih =>
    refine ⟨fun row' eq => ?_, ih fun row' mem => read row' (List.mem_cons_of_mem _ mem)⟩
    cases eq
    exact read row List.mem_cons_self

theorem pollRunningJobs_reportsNothing : ReportsNothing pollRunningJobs := by
  refine fun σ _ => ⟨reports_of_kind rfl σ, fun answer _ => ?_⟩
  cases answer with
  | error reason => trivial
  | ok rows => exact forkEach_pollSingleHost fun row mem => mem

theorem polls_of_isPoll {f : Fn} (noPoll : f.isPoll = false) : f.polls? = none := by
  cases f <;> first | rfl | cases noPoll

theorem engine_reports (cfg : WorkerConfig) : (engine cfg).Keeps reportContract := by
  have C := follows_reportsNothing
  have sync := syncJobStatus_keeping (R := fun _ => True) fun _ _ => id
  have cancels := cancelJob_follows C rfl (cancelRows_follows C rfl rfl)
  have all : ∀ (f : Fn) (σ : Reporter), (∀ pjhId, f.executes? = some pjhId → σ.Attempts pjhId) →
      (∀ row, f.polls? = some row → σ.polls? = some row) →
        (body cfg f).Along reportContract (fun _ _ => True) σ := by
    intro f σ attempts polls
    cases relay : f.isRelay with
    | true =>
      exact relay_follows C (by decide) (fun _ => rfl) (fun _ => ⟨rfl, fun _ _ => nofun⟩)
        (fun _ _ _ => ⟨rfl, fun _ _ => nofun⟩) (updateParentJobStatus_follows C rfl rfl) cfg relay σ
        trivial
    | false =>
      cases f with
      | executeHostJob jobId hostId pjhId permit =>
        refine (executeHostJob_concludes jobId hostId σ (attempts pjhId rfl)).bind fun τ _ _ => ?_
        cases permit with
        | none => trivial
        | some semaphore => exact ⟨reports_of_kind rfl τ, fun _ _ => trivial⟩
      | pollSingleHost row => exact (pollSingleHost_polls σ (polls row rfl)).weaken fun _ _ _ => trivial
      | reconnectLoop row client targetVersion oldVersion elapsed =>
        exact (reconnectLoop_polls client targetVersion oldVersion elapsed σ (polls row rfl)).weaken
          fun _ _ _ => trivial
      | jobEmails jobId total succeeded failed =>
        exact jobEmails_follows C rfl jobId total succeeded failed σ trivial
      | relayTick | relayOneJob | relayStream | relayPoll => cases relay
      | _ =>
        exact routine_follows C (fun k routine => by cases k <;> first | rfl | cases routine)
          (fun f _ _ noPoll => polls_of_isPoll noPoll) pollRunningJobs_reportsNothing sync cancels cfg
          rfl rfl rfl rfl σ trivial
  refine ⟨fun σ f _ => all f _ (fun pjhId eq => ⟨eq, rfl⟩) fun row eq => eq, fun σ f tail => ?_, trivial⟩
  refine all f σ (fun pjhId eq => ?_) tail.2
  rw [tail.1] at eq
  cases eq

/-! ## Runs -/

/-- The ghost state of a task after a history. -/
def reporter (cfg : WorkerConfig) (h : List (Event World Op Op.Resp Fn)) (tid : Nat) : Reporter :=
  (engine cfg).ghost reportContract h tid

theorem run_reports (run : Run (engine cfg) s h t) (initial : Initial s) (split : h = h₁ ++ e :: h₂) :
    reportContract.Guarantees (reporter cfg h₁) e.label := by
  have relies : ∀ e ∈ h, reportContract.Relies e.label := by
    rintro ⟨pre, label, post⟩ mem
    cases label with
    | enter f =>
      intro row polls
      obtain ⟨w, called, -⟩ := (run.step_of_mem mem).enter_inv
      cases f with
      | pollSingleHost | reconnectLoop => simp [engine, enter, Fn.isRequest, Fn.isTick] at called
      | _ => cases polls
    | _ => trivial
  exact (run.guarantees (engine_reports cfg) relies (Sys.along_of_empty initial.tasks)).2 h₁ e h₂ split

/-- A task that polls was started as a poll. -/
theorem root_of_polls {tid : Nat} {task : Task Op Op.Resp Fn} {row : PatchJobHostRunning}
    (run : Run (engine cfg) s h t) (initial : Initial s) (at_ : t.tasks[tid]? = some task)
    (polls : (reporter cfg h tid).polls? = some row) : task.root.polls? = some row := by
  have same : ∀ f, (reporter cfg h tid).root = some f → f = task.root :=
    run.ghost_root (C := reportContract) (P := fun g σ => ∀ f, σ.root = some f → f = g) initial.tasks
      (fun _ _ eq => (Option.some.inj eq).symm) (fun _ _ => nofun) (fun _ _ _ _ kept => kept) at_
  obtain ⟨f, root, eq⟩ := Option.bind_eq_some_iff.mp polls
  rw [← same f root]
  exact eq

/-- An execution that has stored an agent job or reported a failure does neither any more. -/
theorem not_attempts_snoc {tid : Nat} (closed : ¬ (reporter cfg h tid).Attempts pjhId)
    (there : tid < e.pre.tasks.length) : ¬ (reporter cfg (h ++ [e]) tid).Attempts pjhId := by
  rintro ⟨executes, open_⟩
  refine closed ?_
  cases (engine cfg).ghost_move reportContract h e tid with
  | own o answer label moved =>
    rw [reporter, moved] at executes open_
    have parts : ((reporter cfg h tid).closed || (o.reported? answer).isSome ||
        o.stores?.isSome) = false := open_
    simp only [Bool.or_eq_false_iff] at parts
    exact ⟨executes, parts.1.1⟩
  | start f starts => exact absurd there (Nat.not_lt.mpr (Nat.le_of_eq starts.1.symm))
  | stop ends moved =>
    rw [reporter, moved] at executes
    cases executes
  | keep others moved =>
    rw [reporter, moved] at executes open_
    exact ⟨executes, open_⟩

/-- The operation that stores an agent job or reports a failure closes its execution. -/
theorem not_attempts_of_closes {tid : Nat} {o : Op} {answer : o.Resp} (label : e.label = .op tid o answer)
    (closes : (o.reported? answer).isSome = true ∨ o.stores?.isSome = true) :
    ¬ (reporter cfg (h ++ [e]) tid).Attempts pjhId := by
  rintro ⟨-, open_⟩
  rw [reporter, Machine.ghost_snoc] at open_
  rcases closes with reported | stores
  · simp [Machine.ghostStep, label, reportContract, reported] at open_
  · simp [Machine.ghostStep, label, reportContract, stores] at open_

end PatchManager
