import PatchManager.Agent.Client
import PatchManager.Db.Query

/-! # Statements that write

Every `UPDATE` and `INSERT` of the job engine and of the job routes, and `Stmt.run`, what
one statement does to the database.  A statement is atomic, and one that fails leaves the
database as it was.

Main results:

* `Stmt.run_patchJobHosts`, `Stmt.run_patchJobs`: a statement maps every row of the table
  by one function and appends queued rows with new identifiers.
* `HostUpdate.status_of_terminal`: no statement changes the status of a finished row.
-/

namespace PatchManager

/-! ## `UPDATE patch_job_hosts` -/

/-- The statements on `patch_job_hosts` with the values they bind.  The two relay
    statements bind `row.jobId`, `row.hostId`, `dbStatus` and the event's texts. -/
inductive HostUpdate where
  | setWaitingHealthCheck (pjhId : Uuid) (retryAt : Time)
  | markRunning (pjhId : Uuid)
  | storeAgentJobId (pjhId : Uuid) (agentJobId : String)
  | setSucceeded (pjhId : Uuid) (output : String)
  | setPending (pjhId : Uuid) (retryCount : Int) (retryNextAt : Time) (errorMsg : String)
  | setFailed (pjhId : Uuid) (errorMsg : String)
  | resetQueued (pjhId : Uuid)
  | setTimedOut (pjhId : Uuid) (errMsg : String)
  | relayTerminal (row : RunningHostJob) (event : AgentWsEvent) (dbStatus : JobStatus)
  | relayRunning (row : RunningHostJob) (event : AgentWsEvent) (dbStatus : JobStatus)
  | cancelHosts (jobId : Uuid)

/-- `WHERE id = $1 AND status NOT IN ('succeeded','failed','cancelled')`. -/
def unfinishedRow (pjhId : Uuid) (r : PatchJobHost) : Bool := r.id == pjhId && !r.status.isTerminal

/-- `WHERE job_id = .. AND host_id = .. AND status NOT IN (..)`. -/
def unfinishedPair (row : RunningHostJob) (r : PatchJobHost) : Bool :=
  r.jobId == row.jobId && r.hostId == row.hostId && !r.status.isTerminal

/-- `CASE WHEN $2 != '' THEN $2 ELSE output END`. -/
def AgentWsEvent.outputOver (event : AgentWsEvent) (output : String) : String :=
  let new := event.output.getD ""
  if new ≠ "" then new else output

namespace HostUpdate

def update (now : Time) : HostUpdate → Sql.Update PatchJobHost
  | setWaitingHealthCheck pjhId retryAt =>
    { cond := unfinishedRow pjhId
      assign r := { r with status := .waitingHealthCheck, retryNextAt := some retryAt,
                           lastError := some "Waiting for health checks to pass" } }
  | markRunning pjhId =>
    { cond := unfinishedRow pjhId
      assign r := { r with status := .running, startedAt := some (r.startedAt.getD now) } }
  | storeAgentJobId pjhId agentJobId =>
    { cond r := r.id == pjhId
      assign r := { r with agentJobId := some agentJobId } }
  | setSucceeded pjhId output =>
    { cond := unfinishedRow pjhId
      assign r := { r with status := .succeeded, completedAt := some now, output, retryCount := 0,
                           retryNextAt := none, lastError := none, errorMessage := none } }
  | setPending pjhId retryCount retryNextAt errorMsg =>
    { cond := unfinishedRow pjhId
      assign r := { r with status := .pending, retryCount, retryNextAt := some retryNextAt,
                           lastError := some errorMsg } }
  | setFailed pjhId errorMsg =>
    { cond := unfinishedRow pjhId
      assign r := { r with status := .failed, errorMessage := some errorMsg,
                           completedAt := some now } }
  | resetQueued pjhId =>
    { cond := unfinishedRow pjhId
      assign r := { r with status := .queued, retryNextAt := none } }
  | setTimedOut pjhId errMsg =>
    { cond r := r.id == pjhId && r.status == .running
      assign r := { r with status := .failed, errorMessage := some errMsg,
                           lastError := some errMsg, completedAt := some now } }
  | relayTerminal row event dbStatus =>
    { cond := unfinishedPair row
      assign r := { r with status := dbStatus, output := event.outputOver r.output,
                           errorMessage := event.error, completedAt := some now } }
  | relayRunning row event dbStatus =>
    { cond := unfinishedPair row
      assign r := { r with status := dbStatus, output := event.outputOver r.output } }
  | cancelHosts jobId =>
    { cond r := r.jobId == jobId && (r.status == .queued || r.status == .pending)
      assign r := { r with status := .cancelled } }

variable (now : Time) (u : HostUpdate)

/-- No statement changes which job and host a row is for. -/
theorem keeps_key : (u.update now).Keeps fun r => (r.id, r.jobId, r.hostId) := by
  intro r _; cases u <;> rfl

@[simp] theorem onRow_id (r : PatchJobHost) : ((u.update now).onRow r).id = r.id :=
  congrArg (·.1) (u.keeps_key now |>.onRow r)

@[simp] theorem onRow_jobId (r : PatchJobHost) : ((u.update now).onRow r).jobId = r.jobId :=
  congrArg (·.2.1) (u.keeps_key now |>.onRow r)

@[simp] theorem onRow_hostId (r : PatchJobHost) : ((u.update now).onRow r).hostId = r.hostId :=
  congrArg (·.2.2) (u.keeps_key now |>.onRow r)

variable {now u}

/-- A statement either skips finished rows or leaves the status alone. -/
theorem unfinished_or_keeps_status {r : PatchJobHost} (met : (u.update now).cond r = true) :
    r.status.isTerminal = false ∨ ((u.update now).assign r).status = r.status := by
  cases u with
  | storeAgentJobId => exact .inr rfl
  | setTimedOut =>
    simp only [update, Bool.and_eq_true, beq_iff_eq] at met
    exact .inl (by simp [met.2, JobStatus.isTerminal])
  | cancelHosts =>
    simp only [update, Bool.and_eq_true, Bool.or_eq_true, beq_iff_eq] at met
    exact .inl (by rcases met.2 with eq | eq <;> simp [eq, JobStatus.isTerminal])
  | _ => exact .inl (by simp_all [update, unfinishedRow, unfinishedPair])

/-- No statement changes the status of a finished row. -/
theorem status_of_terminal {r : PatchJobHost} (terminal : r.status.isTerminal = true) :
    ((u.update now).onRow r).status = r.status := by
  by_cases met : (u.update now).cond r = true
  · rw [Sql.Update.onRow_eq_assign met]
    rcases unfinished_or_keeps_status met with unfinished | keeps
    · rw [terminal] at unfinished; cases unfinished
    · exact keeps
  · rw [Sql.Update.onRow_eq_self (by simpa using met)]

end HostUpdate

/-! ## `UPDATE patch_jobs` -/

/-- The statements on `patch_jobs`.  The two roll-ups carry the counts their status was
    computed from, which the statement itself does not send. -/
inductive JobUpdate where
  | markJobRunning (jobId : Uuid)
  | syncParent (jobId : Uuid) (newStatus : JobStatus) (setCompleted : Bool) (counts : StatusCounts)
  | updateParentFinal (jobId : Uuid) (finalStatus : JobStatus) (counts : RollupCounts)
  | cancelParent (jobId : Uuid)

namespace JobUpdate

def update (now : Time) : JobUpdate → Sql.Update PatchJob
  | markJobRunning jobId =>
    { cond j := j.id == jobId && !(j.status == .running || j.status.isTerminal)
      assign j := { j with status := .running, startedAt := some (j.startedAt.getD now) } }
  | syncParent jobId newStatus setCompleted _ =>
    { cond j := j.id == jobId
      assign j :=
        if setCompleted then
          { j with status := newStatus, completedAt := some (j.completedAt.getD now) }
        else { j with status := newStatus } }
  | updateParentFinal jobId finalStatus _ =>
    { cond j := j.id == jobId
      assign j := { j with status := finalStatus, completedAt := some now } }
  | cancelParent jobId =>
    { cond j := j.id == jobId
      assign j := { j with status := .cancelled } }

variable (now : Time) (u : JobUpdate)

/-- No statement changes what a job is. -/
theorem keeps_key : (u.update now).Keeps fun j => (j.id, j.immediate, j.kind) := by
  intro j _
  cases u with
  | syncParent _ _ setCompleted _ => cases setCompleted <;> rfl
  | _ => rfl

@[simp] theorem onRow_id (j : PatchJob) : ((u.update now).onRow j).id = j.id :=
  congrArg (·.1) (u.keeps_key now |>.onRow j)

@[simp] theorem onRow_immediate (j : PatchJob) :
    ((u.update now).onRow j).immediate = j.immediate :=
  congrArg (·.2.1) (u.keeps_key now |>.onRow j)

@[simp] theorem onRow_kind (j : PatchJob) : ((u.update now).onRow j).kind = j.kind :=
  congrArg (·.2.2) (u.keeps_key now |>.onRow j)

theorem keeps_patchSelection : (u.update now).Keeps PatchJob.patchSelection := by
  intro j _
  cases u with
  | syncParent _ _ setCompleted _ => cases setCompleted <;> rfl
  | _ => rfl

@[simp] theorem onRow_patchSelection (j : PatchJob) :
    ((u.update now).onRow j).patchSelection = j.patchSelection :=
  (u.keeps_patchSelection now).onRow j

end JobUpdate

/-! ## `INSERT` -/

/-- The columns an `INSERT INTO patch_jobs` gives; the others take their defaults. -/
structure NewJob where
  kind : JobKind
  createdByUserId : Option Uuid
  parentJobId : Option Uuid := none
  maintenanceWindowId : Option Uuid := none
  immediate : Bool
  patchSelection : Json
  notes : String
  autoHostId : Option Uuid := none
  allowReboot : Bool := true
  rebootDelaySeconds : Int := 0

def NewJob.row (new : NewJob) (id : Uuid) (now : Time) : PatchJob :=
  { id, kind := new.kind, status := .queued, createdByUserId := new.createdByUserId,
    parentJobId := new.parentJobId, maintenanceWindowId := new.maintenanceWindowId,
    immediate := new.immediate, patchSelection := new.patchSelection, notes := new.notes,
    createdAt := now, autoHostId := new.autoHostId, allowReboot := new.allowReboot,
    rebootDelaySeconds := new.rebootDelaySeconds }

/-- The foreign keys of the new row and the unique index on active automatic jobs. -/
def NewJob.admissible (db : Db) (new : NewJob) : Bool :=
  new.maintenanceWindowId.all (fun w => db.maintenanceWindows.any fun m => m.id == w) &&
  new.parentJobId.all (fun p => (db.job p).isSome) &&
  new.autoHostId.all (fun h => (db.host h).isSome) &&
  !(new.kind == .patchApply && new.createdByUserId.isNone &&
    new.maintenanceWindowId.isSome && new.autoHostId.isSome &&
    db.patchJobs.any fun j =>
      j.kind == .patchApply && j.createdByUserId.isNone &&
      (j.status == .queued || j.status == .running || j.status == .pending) &&
      j.maintenanceWindowId == new.maintenanceWindowId && j.autoHostId == new.autoHostId)

namespace Db

variable (db : Db)

/-- Appends the parent row; the trigger of the table notifies `job_enqueued` for an
    immediate job. -/
def insertJob (new : NewJob) : Db :=
  { db with
    patchJobs := db.patchJobs ++ [new.row db.nextId db.now]
    jobEnqueued := if new.immediate then db.jobEnqueued ++ [db.nextId] else db.jobEnqueued
    nextId := db.nextId + 1 }

def insertJobHost (jobId hostId : Uuid) : Db :=
  { db with
    patchJobHosts := db.patchJobHosts ++ [{ id := db.nextId, jobId, hostId }]
    nextId := db.nextId + 1 }

end Db

/-! ## Running a statement -/

inductive Stmt where
  | select (q : Query)
  | updateHosts (u : HostUpdate)
  | updateJobs (u : JobUpdate)
  | insertJob (new : NewJob)
  /-- `.. ON CONFLICT (job_id, host_id) DO NOTHING` -/
  | insertJobHost (jobId hostId : Uuid)
  /-- the job and its only host row, in one statement -/
  | insertAutoJob (new : NewJob) (hostId : Uuid)
  | setAgentVersion (hostId : Uuid) (version : String)
  /-- `pg_notify('job_update', ..)` -/
  | notifyJobUpdate (payload : Json)

namespace Stmt

@[reducible] def Result : Stmt → Type
  | select q => q.Result
  | updateHosts _ | updateJobs _ | insertJobHost _ _ | setAgentVersion _ _ => Nat
  | insertJob _ => Uuid
  | insertAutoJob _ _ => Option Uuid
  | notifyJobUpdate _ => Unit

/-- The result and the database after the statement, `none` when it cannot succeed.  The
    number is the affected-row count. -/
def run (db : Db) : (s : Stmt) → Option (s.Result × Db)
  | select q => (q.eval db).map fun result => (result, db)
  | updateHosts u =>
    some ((u.update db.now).affected db.patchJobHosts,
      { db with patchJobHosts := (u.update db.now).apply db.patchJobHosts })
  | updateJobs u =>
    some ((u.update db.now).affected db.patchJobs,
      { db with patchJobs := (u.update db.now).apply db.patchJobs })
  | insertJob new => if new.admissible db then some (db.nextId, db.insertJob new) else none
  | insertJobHost jobId hostId =>
    if (db.job jobId).isSome && (db.host hostId).isSome then
      if (db.hostsOf jobId).any fun r => r.hostId == hostId then some (0, db)
      else some (1, db.insertJobHost jobId hostId)
    else none
  | insertAutoJob new hostId =>
    if new.admissible db && (db.host hostId).isSome then
      some (some db.nextId, (db.insertJob new).insertJobHost db.nextId hostId)
    else none
  | setAgentVersion hostId version =>
    some (db.hosts.countP fun h => h.id == hostId,
      { db with hosts := db.hosts.map fun h =>
          if h.id = hostId then { h with agentVersion := some version } else h })
  | notifyJobUpdate _ => some ((), db)

/-- What the statement does to a row of `patch_job_hosts` that is there. -/
def hostEffect (now : Time) : Stmt → PatchJobHost → PatchJobHost
  | updateHosts u => (u.update now).onRow
  | _ => id

/-- What the statement does to a row of `patch_jobs` that is there. -/
def jobEffect (now : Time) : Stmt → PatchJob → PatchJob
  | updateJobs u => (u.update now).onRow
  | _ => id

variable (now : Time) (s : Stmt)

@[simp] theorem hostEffect_id (r : PatchJobHost) : (s.hostEffect now r).id = r.id := by
  cases s <;> simp [hostEffect]

@[simp] theorem hostEffect_jobId (r : PatchJobHost) : (s.hostEffect now r).jobId = r.jobId := by
  cases s <;> simp [hostEffect]

@[simp] theorem hostEffect_hostId (r : PatchJobHost) :
    (s.hostEffect now r).hostId = r.hostId := by
  cases s <;> simp [hostEffect]

@[simp] theorem jobEffect_id (j : PatchJob) : (s.jobEffect now j).id = j.id := by
  cases s <;> simp [jobEffect]

@[simp] theorem jobEffect_immediate (j : PatchJob) :
    (s.jobEffect now j).immediate = j.immediate := by
  cases s <;> simp [jobEffect]

@[simp] theorem jobEffect_kind (j : PatchJob) : (s.jobEffect now j).kind = j.kind := by
  cases s <;> simp [jobEffect]

@[simp] theorem jobEffect_patchSelection (j : PatchJob) :
    (s.jobEffect now j).patchSelection = j.patchSelection := by
  cases s <;> simp [jobEffect]

variable {now s} {db db' : Db} {result : s.Result}

theorem hostEffect_status_of_terminal {r : PatchJobHost} (terminal : r.status.isTerminal = true) :
    (s.hostEffect now r).status = r.status := by
  cases s with
  | updateHosts u => exact u.status_of_terminal terminal
  | _ => rfl

/-- A row of `patch_job_hosts` as an `INSERT` leaves it. -/
structure FreshHost (db db' : Db) (r : PatchJobHost) : Prop where
  queued : r = { id := r.id, jobId := r.jobId, hostId := r.hostId }
  parent : (db'.job r.jobId).isSome = true
  lower : db.nextId ≤ r.id
  upper : r.id < db'.nextId

/-- A row of `patch_jobs` as an `INSERT` leaves it. -/
structure FreshJob (db db' : Db) (j : PatchJob) : Prop where
  queued : j.status = .queued
  lower : db.nextId ≤ j.id
  upper : j.id < db'.nextId

/-- A statement maps the rows of `patch_job_hosts` and appends at most one fresh row. -/
theorem run_patchJobHosts (ran : s.run db = some (result, db')) :
    ∃ fresh, db'.patchJobHosts = db.patchJobHosts.map (s.hostEffect db.now) ++ fresh ∧
      fresh.length ≤ 1 ∧ ∀ r ∈ fresh, FreshHost db db' r := by
  cases s with
  | insertJobHost jobId hostId =>
    simp only [run, Option.ite_none_right_eq_some, Bool.and_eq_true] at ran
    obtain ⟨⟨parent, -⟩, ran⟩ := ran
    split at ran <;> cases ran
    · exact ⟨[], by simp [hostEffect]⟩
    · exact ⟨[{ id := db.nextId, jobId, hostId }], by simp [hostEffect, Db.insertJobHost], by simp,
        by simpa using ⟨rfl, parent, Nat.le_refl _, Nat.lt_succ_self _⟩⟩
  | insertAutoJob new hostId =>
    simp only [run, Option.ite_none_right_eq_some] at ran
    obtain ⟨-, ran⟩ := ran
    cases ran
    refine ⟨[{ id := db.nextId + 1, jobId := db.nextId, hostId }],
      by simp [hostEffect, Db.insertJobHost, Db.insertJob], by simp, ?_⟩
    have parent : (((db.insertJob new).insertJobHost db.nextId hostId).job db.nextId).isSome = true := by
      simp [Db.job, Sql.lookup, Db.insertJobHost, Db.insertJob, NewJob.row]
    simpa using ⟨rfl, parent, Nat.le_succ _, Nat.lt_succ_self _⟩
  | insertJob new =>
    simp only [run, Option.ite_none_right_eq_some] at ran
    cases ran.2
    exact ⟨[], by simp [hostEffect, Db.insertJob]⟩
  | select q =>
    obtain ⟨_, -, eq⟩ := Option.map_eq_some_iff.mp ran
    cases eq
    exact ⟨[], by simp [hostEffect]⟩
  | _ =>
    cases ran
    exact ⟨[], by simp [hostEffect, Sql.Update.apply]⟩

/-- A statement maps the rows of `patch_jobs` and appends at most one fresh row. -/
theorem run_patchJobs (ran : s.run db = some (result, db')) :
    ∃ fresh, db'.patchJobs = db.patchJobs.map (s.jobEffect db.now) ++ fresh ∧
      fresh.length ≤ 1 ∧ ∀ j ∈ fresh, FreshJob db db' j := by
  cases s with
  | insertJobHost jobId hostId =>
    simp only [run, Option.ite_none_right_eq_some] at ran
    obtain ⟨-, ran⟩ := ran
    split at ran <;> cases ran <;> exact ⟨[], by simp [jobEffect, Db.insertJobHost]⟩
  | insertAutoJob new hostId =>
    simp only [run, Option.ite_none_right_eq_some] at ran
    obtain ⟨-, ran⟩ := ran
    cases ran
    refine ⟨[new.row db.nextId db.now], by simp [jobEffect, Db.insertJobHost, Db.insertJob],
      by simp, ?_⟩
    simpa using ⟨rfl, Nat.le_refl _, Nat.lt_succ_of_lt (Nat.lt_succ_self _)⟩
  | insertJob new =>
    simp only [run, Option.ite_none_right_eq_some] at ran
    cases ran.2
    refine ⟨[new.row db.nextId db.now], by simp [jobEffect, Db.insertJob], by simp, ?_⟩
    simpa using ⟨rfl, Nat.le_refl _, Nat.lt_succ_self _⟩
  | select q =>
    obtain ⟨_, -, eq⟩ := Option.map_eq_some_iff.mp ran
    cases eq
    exact ⟨[], by simp [jobEffect]⟩
  | _ =>
    cases ran
    exact ⟨[], by simp [jobEffect, Sql.Update.apply]⟩

/-- A statement does not move the clock, and identifiers are handed out in order. -/
theorem run_now (ran : s.run db = some (result, db')) :
    db'.now = db.now ∧ db.nextId ≤ db'.nextId := by
  cases s with
  | insertJobHost jobId hostId =>
    simp only [run, Option.ite_none_right_eq_some] at ran
    obtain ⟨-, ran⟩ := ran
    split at ran <;> cases ran <;> simp [Db.insertJobHost]
  | insertAutoJob new hostId =>
    simp only [run, Option.ite_none_right_eq_some] at ran
    cases ran.2
    exact ⟨rfl, Nat.le_add_right _ 2⟩
  | insertJob new =>
    simp only [run, Option.ite_none_right_eq_some] at ran
    cases ran.2
    exact ⟨rfl, Nat.le_succ _⟩
  | select q =>
    obtain ⟨_, -, eq⟩ := Option.map_eq_some_iff.mp ran
    cases eq
    exact ⟨rfl, Nat.le_refl _⟩
  | _ => cases ran; exact ⟨rfl, Nat.le_refl _⟩

/-- A row that is there is looked up after a statement as the statement left it. -/
theorem run_pjh {pjhId : Uuid} {r : PatchJobHost} (ran : s.run db = some (result, db'))
    (found : db.pjh pjhId = some r) : db'.pjh pjhId = some (s.hostEffect db.now r) := by
  obtain ⟨fresh, eq, -, -⟩ := run_patchJobHosts ran
  unfold Db.pjh at *
  rw [eq]
  refine Sql.lookup_append ?_
  rw [Sql.lookup_map (s.hostEffect_id db.now), found]
  rfl

theorem run_job {jobId : Uuid} {j : PatchJob} (ran : s.run db = some (result, db'))
    (found : db.job jobId = some j) : db'.job jobId = some (s.jobEffect db.now j) := by
  obtain ⟨fresh, eq, -, -⟩ := run_patchJobs ran
  unfold Db.job at *
  rw [eq]
  refine Sql.lookup_append ?_
  rw [Sql.lookup_map (s.jobEffect_id db.now), found]
  rfl

end Stmt

end PatchManager
