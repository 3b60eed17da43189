import PatchManager.Verified.RelaySource
import PatchManager.Verified.Lifecycle
import Mathlib.Data.List.Dedup

/-! # Rows that nothing looks for

The periodic steps find the rows they go on with by queries over status, retry time, agent
job, kind and parent.  A row that none of these queries will ever return is an orphan.

Main results:

* `covered_iff`: the rows some query will return, by their own columns and their parent's.
* `no_orphans_iff`: a run has no orphans exactly when each of its steps leaves the rows it
  touches in such a condition.
* `interrupted_self_upgrade`: a restart between two statements makes an orphan.
-/

namespace PatchManager

open PatchManager.Conc

variable {cfg : WorkerConfig} {s t : State} {h : List (Event World Op Op.Resp Fn)}
  {e : Event World Op Op.Resp Fn} {db db' : Db} {r : PatchJobHost} {j : PatchJob}

/-! ## Coverage -/

/-- `process_job` reads the row. -/
def ListedQueued (db : Db) (r : PatchJobHost) : Prop :=
  ∃ rows, (Query.queuedHosts r.jobId).eval db = some rows ∧ r.id ∈ rows.map PatchJobHostQueued.id

/-- The query by which a periodic step finds the rows it moves returns the row. -/
inductive Selected (cfg : WorkerConfig) (db : Db) (r : PatchJobHost) : Prop
  | polled (rows : List PatchJobHostRunning) (read : Query.runningRows.eval db = some rows)
      (found : r.id ∈ rows.map PatchJobHostRunning.id)
  | timedOut (rows : List TimedOutRow) (enabled : cfg.jobTimeoutSecs ≠ 0)
      (read : (Query.timedOut cfg.jobTimeoutSecs).eval db = some rows)
      (found : r.id ∈ rows.map TimedOutRow.id)
  | scanned (jobIds : List Uuid) (read : Query.scanQueued.eval db = some jobIds)
      (found : r.jobId ∈ jobIds) (listed : ListedQueued db r)
  | dispatched (hostIds jobIds : List Uuid) (hostId : Uuid)
      (windows : Query.openWindowHosts.eval db = some hostIds) (isOpen : hostId ∈ hostIds)
      (read : (Query.queuedNonImmediate hostId).eval db = some jobIds) (found : r.jobId ∈ jobIds)
      (listed : ListedQueued db r)
  | retried (rows : List PatchJobHostPending) (read : Query.duePending.eval db = some rows)
      (found : r.id ∈ rows.map PatchJobHostPending.id)

/-- `db'` is later than `db`, and the row, its job and its host are as they were.  Windows,
    results of checks and all other rows are whatever they are by then. -/
structure Later (db db' : Db) (r : PatchJobHost) : Prop where
  clock : db.now ≤ db'.now
  keys : Keys db'
  row : r ∈ db'.patchJobHosts
  job : db'.job r.jobId = db.job r.jobId
  host : ∀ found, db.host r.hostId = some found → db'.host r.hostId = some found

/-- A periodic step will find the row, if nothing else moves it. -/
def Covered (cfg : WorkerConfig) (db : Db) (r : PatchJobHost) : Prop :=
  ∃ db', Later db db' r ∧ Selected cfg db' r

/-- Every unfinished row is covered. -/
def NoOrphans (cfg : WorkerConfig) (s : State) : Prop :=
  ∀ r ∈ s.world.db.patchJobHosts, r.status.isTerminal = false → Covered cfg s.world.db r

/-! ## What coverage comes to -/

/-- What the queries ask of an unfinished row and its parent, the time apart. -/
def PatchJobHost.recoverable (r : PatchJobHost) (j : PatchJob) : Bool :=
  match r.status with
  | .queued => j.status != .cancelled
  | .pending | .waitingHealthCheck => r.retryNextAt.isSome && j.status != .cancelled
  | .running => r.agentJobId.isSome || r.startedAt.isSome && j.kind != .selfUpgrade
  | _ => true

theorem Keys.pjh_inj {r' : PatchJobHost} (keys : Keys db) (mem : r ∈ db.patchJobHosts)
    (mem' : r' ∈ db.patchJobHosts) (same : r'.id = r.id) : r' = r :=
  List.inj_on_of_nodup_map keys.hosts.distinct mem' mem same

/-- The row a list of decoded rows was read from. -/
theorem source_of_filterMap {Decoded : Type} {decode : PatchJobHost → Option Decoded}
    {id : Decoded → Uuid} (keys : Keys db) (mem : r ∈ db.patchJobHosts)
    (found : r.id ∈ (db.patchJobHosts.filterMap decode).map id)
    (keeps : ∀ r d, decode r = some d → id d = r.id) : ∃ d, decode r = some d := by
  obtain ⟨d, read, same⟩ := List.mem_map.mp found
  obtain ⟨r', mem', eq⟩ := List.mem_filterMap.mp read
  obtain rfl := keys.pjh_inj mem mem' ((keeps r' d eq).symm.trans same)
  exact ⟨d, eq⟩

theorem source_of_filter {Decoded : Type} {p : PatchJobHost → Bool} {decode : PatchJobHost → Decoded}
    {id : Decoded → Uuid} (keys : Keys db) (mem : r ∈ db.patchJobHosts)
    (found : r.id ∈ ((db.patchJobHosts.filter p).map decode).map id)
    (keeps : ∀ r, id (decode r) = r.id) : p r = true := by
  simp only [List.mem_map, List.mem_filter] at found
  obtain ⟨_, ⟨r', ⟨mem', holds⟩, rfl⟩, same⟩ := found
  obtain rfl := keys.pjh_inj mem mem' ((keeps r').symm.trans same)
  exact holds

theorem queued_of_listed (keys : Keys db) (mem : r ∈ db.patchJobHosts) (listed : ListedQueued db r) :
    r.status = .queued := by
  obtain ⟨rows, read, found⟩ := listed
  cases read
  rw [Db.hostsOf, List.filter_filter] at found
  have holds := source_of_filter keys mem found fun _ => rfl
  simp only [Bool.and_eq_true, beq_iff_eq] at holds
  exact holds.1

theorem recoverable_of_pollRow {d : PatchJobHostRunning} (read : Query.pollRow db r = some d) :
    d.id = r.id ∧ r.recoverable j = true := by
  simp only [Query.pollRow, bind, Option.bind_eq_some_iff, guard] at read
  obtain ⟨agentJobId, agentJob, host, -, job, -, _, running, eq⟩ := read
  cases eq
  split at running
  · rename_i status
    exact ⟨rfl, by simp [PatchJobHost.recoverable, status, agentJob]⟩
  · cases running

/-- A row that a query returns is recoverable. -/
theorem recoverable_of_selected (keys : Keys db) (mem : r ∈ db.patchJobHosts)
    (parent : db.job r.jobId = some j) (selected : Selected cfg db r) : r.recoverable j = true := by
  cases selected with
  | polled rows read found =>
    cases read
    obtain ⟨d, eq⟩ := source_of_filterMap keys mem found fun r d eq =>
      (recoverable_of_pollRow (j := j) eq).1
    exact (recoverable_of_pollRow eq).2
  | timedOut rows enabled read found =>
    obtain ⟨d, listed, same⟩ := List.mem_map.mp found
    obtain ⟨r', mem', decoded⟩ := Sql.mem_of_mapM read listed
    obtain ⟨there, overdue⟩ := List.mem_filter.mp mem'
    simp only [Query.timedOutRow, bind, Option.bind_eq_some_iff] at decoded
    obtain ⟨startedAt, started, -, -, eq⟩ := decoded
    cases eq
    obtain rfl := keys.pjh_inj mem there same
    simp only [Db.overdue, Db.parentIs, parent, Option.any_some, Bool.and_eq_true, beq_iff_eq] at overdue
    simp [PatchJobHost.recoverable, overdue.1.1, overdue.1.2, started]
  | scanned jobIds read found listed =>
    cases read
    simp only [List.mem_dedup, List.mem_map, List.mem_filter, Db.scanned, Bool.and_eq_true] at found
    obtain ⟨r', ⟨-, -, dispatches⟩, same⟩ := found
    simp only [Db.parentIs, same, parent, Option.any_some, Bool.and_eq_true] at dispatches
    simpa [PatchJobHost.recoverable, queued_of_listed keys mem listed] using dispatches.1
  | dispatched hostIds jobIds hostId windows isOpen read found listed =>
    cases read
    simp only [List.mem_dedup, List.mem_map, List.mem_filter, Db.windowQueued, Bool.and_eq_true] at found
    obtain ⟨r', ⟨-, ⟨-, dispatches⟩, -⟩, same⟩ := found
    simp only [Db.parentIs, same, parent, Option.any_some, Bool.and_eq_true] at dispatches
    simpa [PatchJobHost.recoverable, queued_of_listed keys mem listed] using dispatches.2
  | retried rows read found =>
    cases read
    have holds := source_of_filter keys mem found fun _ => rfl
    simp only [Db.retryable, Db.parentIs, parent, Option.any_some, Bool.and_eq_true, Bool.or_eq_true,
      beq_iff_eq, Db.retryDue, Option.any_eq_true] at holds
    obtain ⟨⟨status, due, next, -⟩, active⟩ := holds
    rcases status with pending | waiting
    · simp [PatchJobHost.recoverable, pending, next, active]
    · simp [PatchJobHost.recoverable, waiting, next, active]

/-- A moment from `now` on at which the host is there with a window just open, and the row is the
    only one. -/
def Db.momentFor (db : Db) (r : PatchJobHost) (now : Time) : Db :=
  { db with
    now
    patchJobHosts := [r]
    hosts := db.hosts ++ [{ id := r.hostId, fqdn := "", ipAddress := "", agentPort := 0 }]
    maintenanceWindows := [{ id := 0, hostId := r.hostId, recurrence := .once, startAt := now }] }

theorem later_momentFor {now : Time} (keys : Keys db) (mem : r ∈ db.patchJobHosts)
    (later : db.now ≤ now) : Later db (db.momentFor r now) r where
  clock := later
  keys := ⟨⟨List.nodup_singleton _, fun r' single => by
    rw [List.mem_singleton.mp single]; exact keys.hosts.below r mem⟩, keys.jobs⟩
  row := List.mem_singleton_self r
  job := rfl
  host _ found := Sql.lookup_append found

theorem hostWindowOpen_momentFor {now : Time} : (db.momentFor r now).hostWindowOpen r.hostId = true := by
  simp [Db.hostWindowOpen, Db.momentFor, MaintenanceWindow.windowOpen, MaintenanceWindow.slotOpen,
    MaintenanceWindow.duration, microsPerMinute, microsPerSecond]

theorem host_momentFor {now : Time} : ((db.momentFor r now).host r.hostId).isSome = true := by
  simp [Db.host, Db.momentFor, Sql.lookup, List.find?_append]

theorem parentIs_momentFor {now : Time} {p : PatchJob → Bool} (parent : db.job r.jobId = some j) :
    (db.momentFor r now).parentIs p r = p j := by
  have same : (db.momentFor r now).job r.jobId = some j := parent
  rw [Db.parentIs, same, Option.any_some]

section covered

variable (keys : Keys db) (mem : r ∈ db.patchJobHosts) (parent : db.job r.jobId = some j)

include keys mem parent

theorem covered_of_queued (queued : r.status = .queued) (active : j.status ≠ .cancelled) :
    Covered cfg db r := by
  obtain ⟨now, later, due⟩ : ∃ now, db.now ≤ now ∧ (r.retryNextAt.all fun t => t ≤ now) = true := by
    cases r.retryNextAt with
    | none => exact ⟨db.now, le_rfl, rfl⟩
    | some t => exact ⟨max db.now t, le_max_left _ _, by simp⟩
  have scanned : (db.momentFor r now).scanned r = true := by
    have notLater : (db.momentFor r now).retryNotLater r = true := due
    rw [Db.scanned, parentIs_momentFor parent, hostWindowOpen_momentFor, notLater]
    simp [queued, active]
  refine ⟨db.momentFor r now, later_momentFor keys mem later, .scanned [r.jobId] ?_ (by simp) ?_⟩
  · simp only [Query.eval, Db.momentFor] at scanned ⊢
    simp [scanned]
  · exact ⟨_, rfl, by simp [Db.hostsOf, Db.momentFor, queued]⟩

theorem covered_of_waiting (waiting : r.status = .pending ∨ r.status = .waitingHealthCheck)
    (next : r.retryNextAt.isSome = true) (active : j.status ≠ .cancelled) : Covered cfg db r := by
  obtain ⟨due, eq⟩ := Option.isSome_iff_exists.mp next
  have retryable : (db.momentFor r (max db.now due)).retryable r = true := by
    rw [Db.retryable, parentIs_momentFor parent]
    rcases waiting with status | status <;> simp [status, active, Db.retryDue, eq, Db.momentFor]
  refine ⟨db.momentFor r (max db.now due), later_momentFor keys mem (le_max_left _ _),
    .retried [⟨r.id, r.hostId, r.jobId⟩] ?_ (by simp)⟩
  simp only [Query.eval, Db.momentFor] at retryable ⊢
  simp [retryable]

theorem covered_of_agentJob (running : r.status = .running) (agentJob : r.agentJobId.isSome = true) :
    Covered cfg db r := by
  obtain ⟨agentJobId, eq⟩ := Option.isSome_iff_exists.mp agentJob
  have there : ((db.momentFor r db.now).host r.hostId).isSome = true := host_momentFor
  obtain ⟨host, found⟩ := Option.isSome_iff_exists.mp there
  have same : (db.momentFor r db.now).job r.jobId = some j := parent
  have read : Query.pollRow (db.momentFor r db.now) r =
      some ⟨r.id, agentJobId, r.jobId, r.hostId, host.ipAddress, host.agentPort, j.kind⟩ := by
    simp [Query.pollRow, eq, found, same, running, guard]
  refine ⟨db.momentFor r db.now, later_momentFor keys mem le_rfl,
    .polled [⟨r.id, agentJobId, r.jobId, r.hostId, host.ipAddress, host.agentPort, j.kind⟩] ?_ (by simp)⟩
  simp only [Query.eval, Db.momentFor] at read ⊢
  simp [read]

theorem covered_of_started (enabled : cfg.jobTimeoutSecs ≠ 0) (running : r.status = .running)
    (noJob : r.agentJobId = none) (started : r.startedAt.isSome = true)
    (kind : j.kind ≠ .selfUpgrade) : Covered cfg db r := by
  obtain ⟨startedAt, eq⟩ := Option.isSome_iff_exists.mp started
  obtain ⟨now, later, late⟩ :
      ∃ now, db.now ≤ now ∧ startedAt < now - cfg.jobTimeoutSecs * microsPerSecond :=
    ⟨max db.now (startedAt + cfg.jobTimeoutSecs * microsPerSecond + 1), le_max_left _ _,
      lt_sub_iff_add_lt.mpr (lt_of_lt_of_le (lt_add_one _) (le_max_right _ _))⟩
  have overdue : (db.momentFor r now).overdue cfg.jobTimeoutSecs r = true := by
    rw [Db.overdue, parentIs_momentFor parent]
    simp [running, kind, eq, Db.momentFor, late]
  refine ⟨db.momentFor r now, later_momentFor keys mem later,
    .timedOut [⟨r.id, r.jobId, none, startedAt⟩] enabled ?_ (by simp)⟩
  simp only [Query.eval, Db.momentFor] at overdue ⊢
  simp [overdue, Query.timedOutRow, eq, noJob, guard]

/-- A recoverable row is covered. -/
theorem covered_of_recoverable (enabled : cfg.jobTimeoutSecs ≠ 0)
    (unfinished : r.status.isTerminal = false) (recoverable : r.recoverable j = true) :
    Covered cfg db r := by
  cases status : r.status with
  | queued =>
    simp only [PatchJobHost.recoverable, status, bne_iff_ne] at recoverable
    exact covered_of_queued keys mem parent status recoverable
  | pending =>
    simp only [PatchJobHost.recoverable, status, Bool.and_eq_true, bne_iff_ne] at recoverable
    exact covered_of_waiting keys mem parent (.inl status) recoverable.1 recoverable.2
  | waitingHealthCheck =>
    simp only [PatchJobHost.recoverable, status, Bool.and_eq_true, bne_iff_ne] at recoverable
    exact covered_of_waiting keys mem parent (.inr status) recoverable.1 recoverable.2
  | running =>
    -- a row with an agent job is polled; only one without can be timed out
    simp only [PatchJobHost.recoverable, status, Bool.or_eq_true, Bool.and_eq_true,
      bne_iff_ne] at recoverable
    cases agentJob : r.agentJobId with
    | some _ => exact covered_of_agentJob keys mem parent status (by simp [agentJob])
    | none =>
      obtain ⟨started, kind⟩ := recoverable.resolve_left (by simp [agentJob])
      exact covered_of_started keys mem parent enabled status agentJob started kind
  | succeeded | failed | cancelled => rw [status] at unfinished; cases unfinished

/-- The rows a query will return, by their own columns and their parent's. -/
theorem covered_iff (enabled : cfg.jobTimeoutSecs ≠ 0) (unfinished : r.status.isTerminal = false) :
    Covered cfg db r ↔ r.recoverable j = true := by
  constructor
  · rintro ⟨db', later, selected⟩
    exact recoverable_of_selected later.keys later.row (later.job.trans parent) selected
  · exact covered_of_recoverable keys mem parent enabled unfinished

end covered

/-! ## Steps that leave rows recoverable -/

/-- What a statement has to find of a row it writes, and of the row's parent. -/
def HostUpdate.keepsRecoverable (r : PatchJobHost) (j : PatchJob) : HostUpdate → Bool
  | markRunning _ => r.agentJobId.isSome || j.kind != .selfUpgrade
  | setWaitingHealthCheck _ _ | setPending _ _ _ _ | resetQueued _ => j.status != .cancelled
  | _ => true

/-- The step leaves no row without a query that returns it. -/
structure LeavesRecoverable (e : Event World Op Op.Resp Fn) : Prop where
  /-- a row marked running has an agent job already or is not a self-upgrade's, and a row set to
      wait or to queued has a parent that is not cancelled -/
  updated : ∀ u r j, took e.label = some (.updateHosts u) → r ∈ e.pre.world.db.patchJobHosts →
    e.pre.world.db.job r.jobId = some j → (u.update e.pre.world.db.now).cond r = true →
      u.keepsRecoverable r j = true
  /-- a row is inserted under a parent that is not cancelled -/
  inserted : ∀ jobId hostId j, took e.label = some (.insertJobHost jobId hostId) →
    e.pre.world.db.job jobId = some j →
      (∀ r ∈ e.pre.world.db.hostsOf jobId, r.hostId ≠ hostId) → j.status ≠ .cancelled
  /-- a job is cancelled when all its rows are running or finished -/
  cancelled : ∀ u jobId r, took e.label = some (.updateJobs u) →
    u.overwrites = some (jobId, .cancelled) → r ∈ e.pre.world.db.hostsOf jobId →
      r.status = .running ∨ r.status.isTerminal = true

theorem PatchJobHost.recoverable_of_terminal (terminal : r.status.isTerminal = true) :
    r.recoverable j = true := by
  unfold PatchJobHost.recoverable
  cases status : r.status <;> first | rfl | (rw [status] at terminal; cases terminal)

theorem HostUpdate.recoverable_assign {u : HostUpdate} {now : Time}
    (recoverable : r.recoverable j = true)
    (relayed : ∀ row event dbStatus, u.relayed? = some (row, event, dbStatus) →
      r.agentJobId.isSome = true ∧ (dbStatus = .running ∨ dbStatus.isTerminal = true)) :
    ((u.update now).assign r).recoverable j = true ↔ u.keepsRecoverable r j = true := by
  cases u with
  | storeAgentJobId pjhId agentJobId =>
    unfold PatchJobHost.recoverable at recoverable
    cases status : r.status <;> simp_all [PatchJobHost.recoverable, update, keepsRecoverable]
  | relayTerminal row event dbStatus | relayRunning row event dbStatus =>
    obtain ⟨agentJob, rfl | terminal⟩ := relayed row event dbStatus rfl
    · simp [PatchJobHost.recoverable, update, keepsRecoverable, agentJob]
    · exact iff_of_true (PatchJobHost.recoverable_of_terminal terminal) rfl
  | _ => simp [PatchJobHost.recoverable, update, keepsRecoverable]

/-- Only the parent's kind and whether it is cancelled count. -/
theorem PatchJobHost.recoverable_of_parent {j' : PatchJob} (recoverable : r.recoverable j = true)
    (kind : j'.kind = j.kind) (active : j.status ≠ .cancelled → j'.status ≠ .cancelled) :
    r.recoverable j' = true := by
  unfold PatchJobHost.recoverable at *
  cases status : r.status <;> simp_all

theorem JobUpdate.active_onRow {u : JobUpdate} {now : Time}
    (silent : u.overwrites ≠ some (j.id, .cancelled)) (active : j.status ≠ .cancelled) :
    ((u.update now).onRow j).status ≠ .cancelled := by
  cases writes : u.overwrites with
  | none =>
    cases u with
    | markJobRunning jobId =>
      by_cases met : ((markJobRunning jobId).update now).cond j = true
      · rw [Sql.Update.onRow_eq_assign met]
        simp [update]
      · rwa [Sql.Update.onRow_eq_self (by simpa using met)]
    | _ => cases writes
  | some target =>
    obtain ⟨jobId, status⟩ := target
    by_cases own : j.id = jobId
    · subst own
      rw [status_of_overwrites writes]
      rintro rfl
      exact silent writes
    · rwa [onRow_of_other writes own]

theorem JobUpdate.recoverable_onRow {u : JobUpdate} {now : Time} (recoverable : r.recoverable j = true) :
    r.recoverable ((u.update now).onRow j) = true ↔
      (u.overwrites = some (j.id, .cancelled) → r.status = .running ∨ r.status.isTerminal = true) := by
  by_cases writes : u.overwrites = some (j.id, .cancelled)
  · have cancelled : ((u.update now).onRow j).status = .cancelled := status_of_overwrites writes
    have kind := u.onRow_kind now j
    unfold PatchJobHost.recoverable at *
    cases status : r.status <;> simp_all [JobStatus.isTerminal]
  · exact iff_of_true
      (PatchJobHost.recoverable_of_parent recoverable (u.onRow_kind now j) (active_onRow writes))
      fun eq => absurd eq writes

/-- A row that was not there before was inserted under a job that was, or with its job. -/
theorem Stmt.fresh_host {st : Stmt} {result : st.Result} (ran : st.run db = some (result, db'))
    (keys : Keys db) (mem : r ∈ db'.patchJobHosts) (new : db.nextId ≤ r.id) :
    (st = .insertJobHost r.jobId r.hostId ∧ ∀ r' ∈ db.hostsOf r.jobId, r'.hostId ≠ r.hostId) ∨
      r.jobId = db.nextId := by
  have old : ∀ r₀ ∈ db.patchJobHosts, ¬ db.nextId ≤ r₀.id := fun r₀ mem₀ =>
    Nat.not_le.mpr (keys.hosts.below r₀ mem₀)
  cases st with
  | insertJobHost jobId hostId =>
    simp only [run, Option.ite_none_right_eq_some] at ran
    obtain ⟨-, ran⟩ := ran
    split at ran
    · cases ran
      exact absurd new (old r mem)
    · rename_i conflict
      cases ran
      rcases List.mem_append.mp mem with before | single
      · exact absurd new (old r before)
      · obtain rfl := List.mem_singleton.mp single
        exact .inl ⟨rfl, fun r' there same => conflict (List.any_eq_true.mpr ⟨r', there, by simpa using same⟩)⟩
  | insertAutoJob job hostId =>
    simp only [run, Option.ite_none_right_eq_some] at ran
    cases ran.2
    rcases List.mem_append.mp mem with before | single
    · exact absurd new (old r before)
    · obtain rfl := List.mem_singleton.mp single
      exact .inr rfl
  | updateHosts u =>
    cases ran
    obtain ⟨r₀, before, rfl⟩ := Sql.Update.mem_apply.mp mem
    exact absurd (by simpa using new) (old r₀ before)
  | insertJob job =>
    simp only [run, Option.ite_none_right_eq_some] at ran
    cases ran.2
    exact absurd new (old r mem)
  | select q =>
    obtain ⟨_, -, eq⟩ := Option.map_eq_some_iff.mp ran
    cases eq
    exact absurd new (old r mem)
  | _ => cases ran; exact absurd new (old r mem)

/-- Every row is recoverable under its parent. -/
def AllRecoverable (db : Db) : Prop :=
  ∀ r ∈ db.patchJobHosts, ∀ j, db.job r.jobId = some j → r.recoverable j = true

theorem noOrphans_iff (run : Run (engine cfg) s h t) (initial : Initial s)
    (enabled : cfg.jobTimeoutSecs ≠ 0) : NoOrphans cfg t ↔ AllRecoverable t.world.db := by
  have keys := run_keys run initial
  constructor
  · intro covered r mem j parent
    cases unfinished : r.status.isTerminal with
    | true => exact PatchJobHost.recoverable_of_terminal unfinished
    | false => exact (covered_iff keys mem parent enabled unfinished).mp (covered r mem unfinished)
  · intro recoverable r mem unfinished
    obtain ⟨j, parent⟩ := Option.isSome_iff_exists.mp (run_parent run initial r mem)
    exact (covered_iff keys mem parent enabled unfinished).mpr (recoverable r mem j parent)

/-- What a step has to find of a row and its parent for the row to stay recoverable. -/
def Finds (l : Label Op Op.Resp Fn) (now : Time) (r : PatchJobHost) (j : PatchJob) : Prop :=
  (∀ u, took l = some (.updateHosts u) → (u.update now).cond r = true →
    u.keepsRecoverable r j = true) ∧
  ∀ u, took l = some (.updateJobs u) → u.overwrites = some (j.id, .cancelled) →
    r.status = .running ∨ r.status.isTerminal = true

/-- A row that was there stays recoverable exactly when the step finds what it takes. -/
theorem recoverable_step_iff {u : State} {l : Label Op Op.Resp Fn} (run : Run (engine cfg) s h t)
    (initial : Initial s) (step : Step (engine cfg) t l u) (mem : r ∈ t.world.db.patchJobHosts)
    (recoverable : r.recoverable j = true) :
    (hostEffect t.world.db.now l r).recoverable (jobEffect t.world.db.now l j) = true ↔
      Finds l t.world.db.now r j := by
  unfold hostEffect jobEffect Finds
  cases effect : took l with
  | none => simpa using recoverable
  | some st =>
    cases st with
    | updateHosts v =>
      by_cases met : (v.update t.world.db.now).cond r = true
      · simp only [Stmt.hostEffect, Stmt.jobEffect, Sql.Update.onRow_eq_assign met, id]
        rw [HostUpdate.recoverable_assign recoverable fun row event dbStatus relayed => ?_]
        · simp [met]
        · exact relay_row_has_job run initial step (by rw [relayed?, effect]; exact relayed) mem
            (HostUpdate.cond_of_relayed relayed ▸ met)
      · simp [Stmt.hostEffect, Stmt.jobEffect, Sql.Update.onRow_eq_self (by simpa using met), met,
          recoverable]
    | updateJobs v =>
      simp only [Stmt.hostEffect, Stmt.jobEffect, id]
      rw [JobUpdate.recoverable_onRow recoverable]
      simp
    | _ => simpa [Stmt.hostEffect, Stmt.jobEffect] using recoverable

theorem took_run {u : State} {l : Label Op Op.Resp Fn} {st : Stmt} (step : Step (engine cfg) t l u)
    (effect : took l = some st) : ∃ result, st.run t.world.db = some (result, u.world.db) := by
  rcases step_db step with ⟨st', result, eq, ran⟩ | ⟨eq, -⟩
  · rw [effect] at eq
    cases eq
    exact ⟨result, ran⟩
  · rw [effect] at eq
    cases eq

theorem inserted_row {u : State} {l : Label Op Op.Resp Fn} {jobId hostId : Uuid}
    (step : Step (engine cfg) t l u) (effect : took l = some (.insertJobHost jobId hostId))
    (free : ∀ r ∈ t.world.db.hostsOf jobId, r.hostId ≠ hostId) :
    ({ id := t.world.db.nextId, jobId, hostId } : PatchJobHost) ∈ u.world.db.patchJobHosts := by
  obtain ⟨result, ran⟩ := took_run step effect
  simp only [Stmt.run, Option.ite_none_right_eq_some] at ran
  obtain ⟨-, ran⟩ := ran
  split at ran
  · rename_i conflict
    obtain ⟨r, listed, same⟩ := List.any_eq_true.mp conflict
    exact absurd (by simpa using same) (free r listed)
  · obtain ⟨-, after⟩ := Prod.mk.inj (Option.some.inj ran)
    rw [← after]
    exact List.mem_append_right _ (List.mem_singleton_self _)

/-- One step leaves every row recoverable exactly when it is one that does so by its condition. -/
theorem allRecoverable_step_iff {u : State} {l : Label Op Op.Resp Fn} (run : Run (engine cfg) s h t)
    (initial : Initial s) (step : Step (engine cfg) t l u) (before : AllRecoverable t.world.db) :
    AllRecoverable u.world.db ↔ LeavesRecoverable ⟨t, l, u⟩ := by
  have keys := run_keys run initial
  obtain ⟨fresh, rows, new⟩ := step_patchJobHosts step
  constructor
  · intro after
    have finds : ∀ r ∈ t.world.db.patchJobHosts, ∀ j, t.world.db.job r.jobId = some j →
        Finds l t.world.db.now r j := by
      intro r mem j parent
      refine (recoverable_step_iff run initial step mem (before r mem j parent)).mp
        (after _ (by rw [rows]; exact List.mem_append_left _ (List.mem_map_of_mem mem)) _ ?_)
      rw [(hostEffect_key t.world.db.now r).1]
      exact step_job step parent
    refine ⟨fun v r j effect mem parent met => (finds r mem j parent).1 v effect met,
      fun jobId hostId j effect parent free => ?_, fun v jobId r effect writes listed => ?_⟩
    · -- the row inserted now is queued, and its parent is as it was
      have same : jobEffect t.world.db.now l j = j := by simp only [jobEffect, effect, Stmt.jobEffect, id]
      have recoverable := after _ (inserted_row step effect free) j (same ▸ step_job step parent)
      simpa [PatchJobHost.recoverable] using recoverable
    · obtain ⟨mem, own⟩ := List.mem_filter.mp listed
      obtain rfl : r.jobId = jobId := by simpa using own
      obtain ⟨j, parent⟩ := Option.isSome_iff_exists.mp (run_parent run initial r mem)
      exact (finds r mem j parent).2 v effect (by rw [(Sql.lookup_some parent).2]; exact writes)
  · intro leaves r' mem' j' parent'
    rw [rows] at mem'
    rcases List.mem_append.mp mem' with old | inserted
    · obtain ⟨r, mem, rfl⟩ := List.mem_map.mp old
      obtain ⟨j, parent⟩ := Option.isSome_iff_exists.mp (run_parent run initial r mem)
      rw [(hostEffect_key t.world.db.now r).1, step_job step parent, Option.some.injEq] at parent'
      subst parent'
      refine (recoverable_step_iff run initial step mem (before r mem j parent)).mpr
        ⟨fun v effect met => leaves.updated v r j effect mem parent met, fun v effect writes => ?_⟩
      refine leaves.cancelled v r.jobId r effect ?_ (List.mem_filter.mpr ⟨mem, by simp⟩)
      rw [← (Sql.lookup_some parent).2]
      exact writes
    · have queued : r'.status = .queued := by rw [(new r' inserted).queued]
      rw [PatchJobHost.recoverable, queued]
      rcases step_job_cases step parent' with ⟨j, parent, rfl⟩ | ⟨-, status, -⟩
      · rcases step_db step with ⟨st, result, effect, ran⟩ | ⟨-, same⟩
        · rcases Stmt.fresh_host ran keys (by rw [rows]; exact List.mem_append_right _ inserted)
            (new r' inserted).lower with ⟨rfl, free⟩ | own
          · have active := leaves.inserted _ _ j effect parent free
            simpa [jobEffect, effect, Stmt.jobEffect] using active
          · -- a job that was there has an identifier already handed out
            obtain ⟨there, id⟩ := Sql.lookup_some parent
            have below := keys.jobs.below j there
            rw [id, own] at below
            exact absurd below (Nat.lt_irrefl _)
        · have there : r' ∈ t.world.db.patchJobHosts := by
            rw [← same.patchJobHosts, rows]
            exact List.mem_append_right _ inserted
          exact absurd (new r' inserted).lower (Nat.not_le.mpr (keys.hosts.below r' there))
      · simp [status]

/-- No state the run goes through has an orphan. -/
def NeverOrphans (cfg : WorkerConfig) (s : State) (h : List (Event World Op Op.Resp Fn)) : Prop :=
  ∀ h₁ u, h₁ <+: h → Run (engine cfg) s h₁ u → NoOrphans cfg u

/-- With timeouts enabled, a run has no orphans exactly when each of its steps leaves every row
    recoverable. -/
theorem no_orphans_iff (run : Run (engine cfg) s h t) (initial : Initial s)
    (enabled : cfg.jobTimeoutSecs ≠ 0) :
    NeverOrphans cfg s h ↔ ∀ e ∈ h, LeavesRecoverable e := by
  constructor
  · intro never e mem
    obtain ⟨h₁, h₂, rfl⟩ := List.append_of_mem mem
    obtain ⟨before, step, -⟩ := run.split_event
    have pre := never h₁ e.pre ⟨_, rfl⟩ before
    have post := never (h₁ ++ [e]) e.post ⟨h₂, by simp⟩ (before.snoc step)
    rw [noOrphans_iff before initial enabled] at pre
    rw [noOrphans_iff (before.snoc step) initial enabled] at post
    exact (allRecoverable_step_iff before initial step pre).mp post
  · intro leaves h₁ u part first
    rw [noOrphans_iff first initial enabled]
    -- by induction on the part of the run, whose first state has no rows
    induction first with
    | nil =>
      intro r mem
      rw [initial.patchJobHosts] at mem
      cases mem
    | @snoc h₁ v w l before step ih =>
      have pre := ih ((List.prefix_append h₁ _).trans part)
      exact (allRecoverable_step_iff before initial step pre).mpr
        (leaves _ (part.subset (List.mem_append_right _ (List.mem_singleton_self _))))

/-! ## An interrupted self-upgrade -/

/-- The installation with a job timeout of one hour. -/
def timedConfig : WorkerConfig := { Small.config with jobTimeoutSecs := 3600 }

abbrev timed : Player (engine timedConfig) := enginePlayer timedConfig

/-- The worker restarts when the execution of a self-upgrade has marked the row running and
    not submitted it yet. -/
def interruptedUpgrade : List (Move timed) :=
  .call (.insertUpgradeJobs Small.user true none [("1.2.0", [100])] 0) ::
    List.replicate 3 (.run 0 .ok) ++ .call (.processJob 1) :: List.replicate 5 (.run 1 .ok) ++
    List.replicate 6 (.run 2 .ok) ++ [.restart]

theorem no_orphans_iff_interruptedUpgrade :
    NeverOrphans timedConfig Small.start (timed.history Small.start interruptedUpgrade) ↔
      ∀ e ∈ timed.history Small.start interruptedUpgrade, LeavesRecoverable e := by
  have plays : (timed.play Small.start interruptedUpgrade).isSome = true := by decide +kernel
  have run := timed.run_of_play plays
  exact no_orphans_iff run Small.start_initial (by decide)

def restarts : Label Op Op.Resp Fn → Bool
  | .restart => true
  | _ => false

/-- After the restart no periodic step will ever find the row. -/
theorem interrupted_self_upgrade :
    ¬ ∀ (cfg : WorkerConfig) (s t : State) (h : List (Event World Op Op.Resp Fn)), Initial s →
      cfg.jobTimeoutSecs ≠ 0 → Run (engine cfg) s h t → NeverOrphans cfg s h := by
  intro all
  obtain ⟨h₁, e, h₂, t, test, run⟩ := timed.exists_event (s := Small.start)
    (show ((timed.play Small.start interruptedUpgrade).getD []).any (fun e =>
      restarts e.label &&
        e.post.world.db.patchJobHosts.any fun r =>
          (e.post.world.db.job r.jobId).any fun j => !r.recoverable j) = true by decide +kernel)
  simp only [Bool.and_eq_true, List.any_eq_true, Option.any_eq_true, Bool.not_eq_true'] at test
  obtain ⟨-, r, mem, j, parent, stuck⟩ := test
  obtain ⟨before, step, -⟩ := run.split_event
  have covered := all _ _ _ _ Small.start_initial (by decide) run (h₁ ++ [e]) e.post ⟨h₂, by simp⟩
    (before.snoc step)
  rw [noOrphans_iff (before.snoc step) Small.start_initial (by decide)] at covered
  rw [covered r mem j parent] at stuck
  cases stuck

end PatchManager
