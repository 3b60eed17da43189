import PatchManager.Engine.Keys
import PatchManager.Verified.EventAttribution
import PatchManager.Verified.Skeleton

/-! # The row a relay works for

A relay names its row by job and host.  It was started for a row that `run_ws_relay` had
read with an agent job, and a row never loses its agent job.

Main result: `relay_row_has_job`, for every row a relay's `UPDATE` meets.
-/

namespace PatchManager

open PatchManager.Conc

variable {cfg : WorkerConfig} {s t : State} {h h₁ h₂ : List (Event World Op Op.Resp Fn)}
  {e : Event World Op Op.Resp Fn} {row : RunningHostJob}

/-! ## What relays stay within -/

/-- The row of a relay task, and the rows a task has read to start relays for. -/
structure Relayer where
  row : Option RunningHostJob := none
  fetched : List RunningHostJob := []

def Fn.relays? : Fn → Option RunningHostJob
  | relayOneJob row | relayStream row | relayPoll row _ _ => some row
  | _ => none

/-- The rows an operation has read to start relays for. -/
def Op.relayRows : (o : Op) → o.Resp → List RunningHostJob
  | .sql (.select .runningHostJobs), .ok rows => rows
  | _, _ => []

def Op.relayed? : Op → Option (RunningHostJob × AgentWsEvent × JobStatus)
  | .sql (.updateHosts u) => u.relayed?
  | _ => none

/-- Relays are started for rows that were read, and each writes to its own row. -/
def relayContract : Contract Op Op.Resp Fn where
  State := Relayer
  idle := {}
  init f := { row := f.relays? }
  next σ o answer := { σ with fetched := o.relayRows answer ++ σ.fetched }
  rely _ _ := True
  guar σ o := ∀ row event dbStatus, o.relayed? = some (row, event, dbStatus) →
    σ.row = some row ∧ (dbStatus = .running ∨ dbStatus.isTerminal = true)
  start σ f := ∀ row, f.relays? = some row → row ∈ σ.fetched
  tail σ f := ∀ row, f.relays? = some row → σ.row = some row
  exit _ := True

/-- A relay of the row keeps the contract. -/
abbrev RelaysFor (row : RunningHostJob) {α : Type} (p : Proc α) : Prop :=
  ∀ σ : Relayer, σ.row = some row → p.Along relayContract (fun τ _ => τ.row = some row) σ

/-- The program is of no relay. -/
abbrev RelaysNothing {α : Type} (p : Proc α) : Prop := ∀ σ, p.Along relayContract (fun _ _ => True) σ

def OpKind.relaysNone : OpKind → Bool
  | .relay => false
  | _ => true

theorem relayed_of_kind {o : Op} (quiet : o.kind.relaysNone = true) : o.relayed? = none := by
  unfold Op.relayed?
  split
  · rename_i u
    cases u <;> first | rfl | cases quiet
  · rfl

theorem follows_relaysNothing : Follows (fun {_} p => RelaysNothing p) OpKind.relaysNone
    (fun f => f.relays? = none) fun f => f.relays? = none where
  toClosed := closed_along
    (fun σ o kind row event dbStatus eq => by rw [relayed_of_kind kind] at eq; cases eq)
    (fun σ f none row eq => by rw [none] at eq; cases eq)
    fun σ f none row eq => by rw [none] at eq; cases eq
  other := rfl
  read := rfl

theorem follows_relaysFor : Follows (fun {_} p => RelaysFor row p) OpKind.relaysNone
    (fun f => f.relays? = none) fun f => f.relays? = some row where
  toClosed := closed_along_while (C := relayContract) (Q := fun σ : Relayer => σ.row = some row)
    (fun σ o _ kind row event dbStatus eq => by rw [relayed_of_kind kind] at eq; cases eq)
    (fun _ _ _ own _ => own) (fun σ f _ none row eq => by rw [none] at eq; cases eq)
    fun σ f own same row eq => own.trans (same.symm.trans eq)
  other := rfl
  read := rfl

theorem dbStatus_running_or_terminal {status : String} {dbStatus : JobStatus}
    (maps : dbStatus? status = some dbStatus) :
    dbStatus = .running ∨ dbStatus.isTerminal = true := by
  unfold dbStatus? at maps
  split at maps <;> cases maps
  · exact .inl rfl
  · exact .inr rfl
  · exact .inr rfl
  · exact .inr rfl
  · exact .inr rfl

theorem relayUpdate_relayed (row : RunningHostJob) (event : AgentWsEvent) (dbStatus : JobStatus) :
    (relayUpdate row event dbStatus).relayed? = some (row, event, dbStatus) := by
  unfold relayUpdate
  split <;> rfl

theorem processEvent_relaysFor (event : AgentWsEvent) : RelaysFor row (processEvent row event) := by
  refine processEvent_follows follows_relaysFor (fun dbStatus maps next rest σ own => ?_)
    (updateParentJobStatus_follows follows_relaysFor rfl rfl row.jobId)
  refine ⟨fun row' event' dbStatus' eq => ?_, fun answer _ => rest answer _ own⟩
  simp only [Op.relayed?, relayUpdate_relayed, Option.some.injEq, Prod.mk.injEq] at eq
  obtain ⟨rfl, rfl, rfl⟩ := eq
  exact ⟨own, dbStatus_running_or_terminal maps⟩

theorem startRelays_relays {rows : List RunningHostJob} {σ : Relayer}
    (read : ∀ row ∈ rows, row ∈ σ.fetched) :
    (startRelays rows).Along relayContract (fun _ _ => True) σ := by
  induction rows with
  | nil => trivial
  | cons row rest ih =>
    have others := ih fun row' mem => read row' (List.mem_cons_of_mem _ mem)
    -- no operation of the loop reads rows, so the ghost state stays
    refine ⟨nofun, fun active _ => ?_⟩
    refine iteInduction (motive := fun p : Proc Unit => p.Along relayContract (fun _ _ => True) _)
      (fun _ => others) fun _ => ⟨nofun, fun answer _ => ?_⟩
    cases answer with
    | error reason => exact others
    | ok =>
      refine ⟨nofun, fun answer _ => ?_⟩
      cases answer with
      | error reason => exact others
      | ok =>
        refine ⟨nofun, fun _ _ => ⟨fun row' eq => ?_, others⟩⟩
        cases eq
        exact read row List.mem_cons_self

theorem relayTick_relays (σ : Relayer) : relayTick.Along relayContract (fun _ _ => True) σ := by
  refine ⟨nofun, fun answer _ => ?_⟩
  cases answer with
  | error reason => trivial
  | ok rows => exact startRelays_relays fun row mem => List.mem_append_left _ mem

theorem relays_of_isRelay {f : Fn} (other : f.isRelay = false) : f.relays? = none := by
  cases f <;> first | rfl | cases other

theorem engine_relays (cfg : WorkerConfig) : (engine cfg).Keeps relayContract := by
  have C := follows_relaysNothing
  have none : ∀ f : Fn, f.isRelay = false → f.relays? = none := fun _ => relays_of_isRelay
  have sync := syncJobStatus_follows C rfl rfl fun _ _ _ _ => rfl
  have cancels := cancelJob_follows C rfl (cancelRows_follows C rfl rfl)
  have all : ∀ f σ, (∀ row, f.relays? = some row → σ.row = some row) →
      (body cfg f).Along relayContract (fun _ _ => True) σ := by
    intro f σ own
    cases relay : f.isRelay with
    | true =>
      cases f with
      | relayTick => exact relayTick_relays σ
      | relayOneJob row =>
        exact (relayOneJob_follows follows_relaysFor rfl rfl (fun _ _ => rfl) σ (own row rfl)).weaken
          fun _ _ _ => trivial
      | relayStream row =>
        exact (relayStream_follows follows_relaysFor rfl rfl processEvent_relaysFor rfl σ
          (own row rfl)).weaken fun _ _ _ => trivial
      | relayPoll row client lastStatus =>
        exact (relayPoll_follows follows_relaysFor rfl rfl rfl processEvent_relaysFor (fun _ _ => rfl) cfg
          client lastStatus σ (own row rfl)).weaken fun _ _ _ => trivial
      | _ => cases relay
    | false =>
      cases mail : f.isMail with
      | true =>
        cases f with
        | jobEmails jobId total succeeded failed =>
          exact jobEmails_follows C rfl jobId total succeeded failed σ
        | _ => cases mail
      | false =>
        exact body_follows C (fun k common => by cases k <;> first | rfl | cases common)
          (fun f _ => none f) (fun f _ => none f) sync cancels cfg mail relay σ
  exact ⟨fun σ f _ => all f _ fun _ => id, fun σ f => all f σ, trivial⟩

/-! ## The rows relays were started for -/

/-- What the task has read and works for. -/
def relayer (cfg : WorkerConfig) (h : List (Event World Op Op.Resp Fn)) (tid : Nat) : Relayer :=
  (engine cfg).ghost relayContract h tid

/-- The pair has a row with an agent job. -/
def Sourced (db : Db) (row : RunningHostJob) : Prop :=
  ∃ r ∈ db.patchJobHosts, r.jobId = row.jobId ∧ r.hostId = row.hostId ∧ r.agentJobId.isSome = true

theorem run_relays (run : Run (engine cfg) s h t) (initial : Initial s) (split : h = h₁ ++ e :: h₂) :
    relayContract.Guarantees (relayer cfg h₁) e.label := by
  have relies : ∀ e ∈ h, relayContract.Relies e.label := by
    rintro ⟨pre, label, post⟩ mem
    cases label with
    | enter f =>
      intro row relays
      obtain ⟨w, called, -⟩ := (run.step_of_mem mem).enter_inv
      cases f with
      | relayOneJob | relayStream | relayPoll => simp [engine, enter, Fn.isRequest, Fn.isTick] at called
      | _ => cases relays
    | _ => trivial
  exact (run.guarantees (engine_relays cfg) relies (Sys.along_of_empty initial.tasks)).2 h₁ e h₂ split

theorem HostUpdate.agentJob_onRow {u : HostUpdate} {now : Time} {r : PatchJobHost}
    (there : r.agentJobId.isSome = true) : ((u.update now).onRow r).agentJobId.isSome = true := by
  by_cases met : (u.update now).cond r = true
  · rw [Sql.Update.onRow_eq_assign met]
    cases u <;> first | exact there | rfl
  · rwa [Sql.Update.onRow_eq_self (by simpa using met)]

/-- A row never loses its agent job. -/
theorem hostEffect_agentJob {l : Label Op Op.Resp Fn} {now : Time} {r : PatchJobHost}
    (there : r.agentJobId.isSome = true) : (hostEffect now l r).agentJobId.isSome = true := by
  unfold hostEffect
  split
  · rename_i st _
    cases st with
    | updateHosts u => exact u.agentJob_onRow there
    | _ => exact there
  · exact there

theorem Sourced.step {l : Label Op Op.Resp Fn} (sourced : Sourced s.world.db row)
    (step : Step (engine cfg) s l t) : Sourced t.world.db row := by
  obtain ⟨r, mem, job, host, agentJob⟩ := sourced
  obtain ⟨fresh, rows, -⟩ := step_patchJobHosts step
  obtain ⟨job', host'⟩ := hostEffect_key (l := l) s.world.db.now r
  refine ⟨hostEffect s.world.db.now l r, ?_, job'.trans job, host'.trans host,
    hostEffect_agentJob agentJob⟩
  rw [rows]
  exact List.mem_append_left _ (List.mem_map_of_mem mem)

/-- What has just been read to start relays for has an agent job. -/
theorem sourced_of_relayRows {o : Op} {answer : o.Resp} {tid : Nat}
    (step : Step (engine cfg) s (.op tid o answer) t) (mem : row ∈ o.relayRows answer) :
    Sourced s.world.db row := by
  obtain ⟨root, next, w, -, executed, -⟩ := step.op_inv
  unfold Op.relayRows at mem
  split at mem
  · rename_i rows
    have done : exec s.world (.sql (.select .runningHostJobs)) (.ok rows) w := executed
    obtain ⟨found, -⟩ := exec_select done
    cases found
    obtain ⟨r, there, read⟩ := List.mem_filterMap.mp mem
    simp only [Query.relayRow, bind, Option.bind_eq_some_iff, guard] at read
    obtain ⟨agentJobId, agentJob, host, -, -, -, eq⟩ := read
    cases eq
    exact ⟨r, there, rfl, rfl, by rw [agentJob]; rfl⟩
  · cases mem

/-- Every row a task relays, or has read to be relayed, is there with an agent job. -/
theorem relayer_sourced (run : Run (engine cfg) s h t) (initial : Initial s) (tid : Nat) :
    ∀ row, (relayer cfg h tid).row = some row ∨ row ∈ (relayer cfg h tid).fetched →
      Sourced t.world.db row := by
  induction run generalizing tid with
  | nil =>
    rintro row (own | read)
    · cases own
    · cases read
  | @snoc h u v l before step ih =>
    intro row from_
    have permitted := run_relays (before.snoc step) initial (show _ = h ++ _ :: [] from rfl)
    cases (engine cfg).ghost_move relayContract h ⟨u, l, v⟩ tid with
    | own o answer label moved =>
      obtain rfl : l = .op tid o answer := label
      rw [relayer, moved] at from_
      rcases from_ with own | read
      · exact (ih tid row (.inl own)).step step
      · rcases List.mem_append.mp read with now | earlier
        · exact (sourced_of_relayRows step now).step step
        · exact (ih tid row (.inr earlier)).step step
    | start f starts moved =>
      rw [relayer, moved] at from_
      rcases from_ with own | read
      · obtain ⟨-, ⟨parent, label⟩ | label⟩ := starts
        · obtain rfl : l = .spawn parent f := label
          exact (ih parent row (.inr (permitted row own))).step step
        · -- relays are never called from outside
          obtain rfl : l = .enter f := label
          obtain ⟨w, called, -⟩ := step.enter_inv
          cases f with
          | relayOneJob | relayStream | relayPoll =>
            simp [engine, enter, Fn.isRequest, Fn.isTick] at called
          | _ => cases own
      · cases read
    | stop ends moved =>
      rw [relayer, moved] at from_
      rcases from_ with own | read
      · cases own
      · cases read
    | keep others moved =>
      rw [relayer, moved] at from_
      exact (ih tid row from_).step step

theorem relayed_of_label {l : Label Op Op.Resp Fn} {relayed : RunningHostJob × AgentWsEvent × JobStatus}
    (eq : relayed? l = some relayed) : ∃ tid o answer, l = .op tid o answer ∧ o.relayed? = some relayed := by
  unfold relayed? at eq
  split at eq
  · rename_i u effect
    obtain ⟨tid, result, rfl⟩ := took_eq_some effect
    exact ⟨tid, _, _, rfl, eq⟩
  · cases eq

/-- A row that a relay's `UPDATE` meets has an agent job, and is set to running or finished. -/
theorem relay_row_has_job {l : Label Op Op.Resp Fn} {u : State} {event : AgentWsEvent}
    {dbStatus : JobStatus} {r : PatchJobHost} (run : Run (engine cfg) s h t) (initial : Initial s)
    (step : Step (engine cfg) t l u) (relayed : relayed? l = some (row, event, dbStatus))
    (mem : r ∈ t.world.db.patchJobHosts) (met : unfinishedPair row r = true) :
    r.agentJobId.isSome = true ∧ (dbStatus = .running ∨ dbStatus.isTerminal = true) := by
  have permitted := run_relays (run.snoc step) initial (show _ = h ++ _ :: [] from rfl)
  obtain ⟨tid, o, answer, rfl, update⟩ := relayed_of_label relayed
  obtain ⟨own, status⟩ := permitted row event dbStatus update
  obtain ⟨r', mem', job, host, agentJob⟩ := relayer_sourced run initial tid row (.inl own)
  simp only [unfinishedPair, Bool.and_eq_true, beq_iff_eq] at met
  have same := (run_pairs run initial).eq mem mem' (met.1.1.trans job.symm) (met.1.2.trans host.symm)
  exact ⟨same ▸ agentJob, status⟩

end PatchManager
