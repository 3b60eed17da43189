import PatchManager.Conc.Exchange
import PatchManager.Conc.Schedule
import PatchManager.Web.Jobs
import PatchManager.Worker.MaintenanceScheduler
import PatchManager.Worker.SelfUpgrade
import PatchManager.Worker.WsRelay

/-! # The service as a whole

`engine` puts the functions together: which function a task runs, when a function is
called from outside (a notification, a timer, a request), what the rest of the service
does to the database meanwhile, and what a restart of the worker loses.

Rows of `patch_jobs` and `patch_job_hosts` are written by the engine and the job routes
alone; the tables of hosts, windows, health checks and patch data are written by the rest
of the service, which is left open (`Drift`).

Main results:

* `step_db`: the database changes by one statement, or only outside the job tables.
* `step_patchJobHosts`, `step_pjh`, `step_job`: how one step acts on rows.
-/

namespace PatchManager

open PatchManager.Conc

/-- The program of each function. -/
def body (cfg : WorkerConfig) : Fn → Proc Unit
  | .processJob jobId => processJob cfg jobId
  | .executeHostJob jobId hostId pjhId permit => do
    executeHostJob jobId hostId pjhId
    match permit with
    | some semaphore => perform (.release semaphore)
    | none => return ()
  | .pollSingleHost row => pollSingleHost row
  | .reconnectLoop row client targetVersion oldVersion elapsed =>
    reconnectLoop cfg row client targetVersion oldVersion elapsed
  | .jobEmails jobId total succeeded failed => jobEmails jobId total succeeded failed
  | .periodicScan => periodicScan cfg
  | .schedulerTick => schedulerTick
  | .relayTick => relayTick
  | .relayOneJob row => relayOneJob row
  | .relayStream row => relayStream row
  | .relayPoll row client lastStatus => relayPoll cfg row client lastStatus
  | .createJob auth req => do
    let _ ← createJob auth req
  | .cancelJob auth id => do
    let _ ← cancelJob auth id
  | .rollbackJob auth id => do
    let _ ← rollbackJob auth id
  | .insertUpgradeJobs auth immediate maintenanceWindowId groups skippedCount => do
    let _ ← insertUpgradeJobs auth immediate maintenanceWindowId groups skippedCount

/-- The request handlers, which run in the web process. -/
def Fn.isRequest : Fn → Bool
  | .createJob _ _ | .cancelJob _ _ | .rollbackJob _ _ | .insertUpgradeJobs _ _ _ _ _ => true
  | _ => false

/-- The functions that a timer calls in a loop, one call after the other. -/
def Fn.isTick : Fn → Bool
  | .periodicScan | .schedulerTick | .relayTick => true
  | _ => false

abbrev State := Sys World Op Op.Resp Fn

/-- The exchanges of one task. -/
abbrev Exchanges := List (Exchange Op Op.Resp)

def isDone (t : Task Op Op.Resp Fn) : Bool :=
  match t.prog with
  | .ret _ => true
  | _ => false

theorem isDone_eq_true {task : Task Op Op.Resp Fn} : isDone task = true ↔ task.prog = .ret () := by
  unfold isDone
  split
  · rename_i eq; simp [eq]
  · rename_i other; simpa using other ()

/-- The three ticks are told apart by position. -/
def Fn.sameTick : Fn → Fn → Bool
  | .periodicScan, .periodicScan | .schedulerTick, .schedulerTick | .relayTick, .relayTick => true
  | _, _ => false

/-- Every earlier call of the tick `f` is over. -/
def tickIdle (s : State) (f : Fn) : Bool := s.tasks.all fun t => !f.sameTick t.root || isDone t

/-- A call from outside.  `processJob` is called for a delivered notification, which is
    then gone. -/
def enter (s : State) (f : Fn) (w : World) : Prop :=
  match f with
  | .processJob jobId =>
    jobId ∈ s.world.db.jobEnqueued ∧
      w = { s.world with
              db := { s.world.db with jobEnqueued := s.world.db.jobEnqueued.erase jobId } }
  | f => (f.isRequest ∨ f.isTick ∧ tickIdle s f) ∧ w = s.world

/-- What the rest of the service does between the engine's operations: time passes,
    notifications get lost, and tables outside the job tables change. -/
structure Drift (w w' : World) : Prop where
  clock : w.db.now ≤ w'.db.now
  patchJobs : w'.db.patchJobs = w.db.patchJobs
  patchJobHosts : w'.db.patchJobHosts = w.db.patchJobHosts
  nextId : w'.db.nextId = w.db.nextId
  jobEnqueued : w'.db.jobEnqueued.Sublist w.db.jobEnqueued
  semaphores : w'.semaphores = w.semaphores
  active : w'.active = w.active

def engine (cfg : WorkerConfig) : Machine World Op Op.Resp Fn where
  body := body cfg
  exec := exec
  enter := enter
  drift := Drift
  restart w := { db := { w.db with jobEnqueued := [] } }
  perishes f := !f.isRequest
  abandons f := f.isRequest

/-- The states a run starts in: no job yet, hosts and windows as they may be. -/
structure Initial (s : State) : Prop where
  tasks : s.tasks = []
  patchJobs : s.world.db.patchJobs = []
  patchJobHosts : s.world.db.patchJobHosts = []
  jobEnqueued : s.world.db.jobEnqueued = []

/-! ## What a step does to the job tables -/

/-- The statement a step has carried out. -/
def took : Label Op Op.Resp Fn → Option Stmt
  | .op _ o answer => o.took answer
  | _ => none

theorem took_eq_some {l : Label Op Op.Resp Fn} {st : Stmt} (effect : took l = some st) :
    ∃ tid result, l = .op tid (.sql st) (.ok result) := by
  cases l with
  | op tid o answer =>
    cases o with
    | sql st' =>
      cases answer with
      | error reason => cases effect
      | ok result => cases effect; exact ⟨tid, result, rfl⟩
    | _ => cases effect
  | _ => cases effect

/-- The job tables are the same, and time has not gone back. -/
structure SameJobs (db db' : Db) : Prop where
  clock : db.now ≤ db'.now
  patchJobs : db'.patchJobs = db.patchJobs
  patchJobHosts : db'.patchJobHosts = db.patchJobHosts
  nextId : db'.nextId = db.nextId

variable {cfg : WorkerConfig} {s t : State} {l : Label Op Op.Resp Fn}

theorem SameJobs.of_eq {db db' : Db} (eq : db' = db) : SameJobs db db' := by
  subst eq; exact ⟨le_rfl, rfl, rfl, rfl⟩

/-- The database changes by one statement, or only outside the job tables. -/
theorem step_db (step : Step (engine cfg) s l t) :
    (∃ st result, took l = some st ∧ st.run s.world.db = some (result, t.world.db)) ∨
      (took l = none ∧ SameJobs s.world.db t.world.db) := by
  cases step with
  | op at_ done =>
    rcases exec_db done with effect | ⟨none, eq⟩
    · exact .inl effect
    · exact .inr ⟨none, .of_eq eq⟩
  | @enter f w called =>
    refine .inr ⟨rfl, ?_⟩
    cases f with
    | processJob jobId => rw [called.2]; exact ⟨le_rfl, rfl, rfl, rfl⟩
    | _ => exact .of_eq (congrArg World.db called.2)
  | drift moved => exact .inr ⟨rfl, moved.clock, moved.patchJobs, moved.patchJobHosts, moved.nextId⟩
  | restart => exact .inr ⟨rfl, le_rfl, rfl, rfl, rfl⟩
  | _ => exact .inr ⟨rfl, .of_eq rfl⟩

/-- What a step does to a row of `patch_job_hosts` that is there. -/
def hostEffect (now : Time) (l : Label Op Op.Resp Fn) (r : PatchJobHost) : PatchJobHost :=
  match took l with
  | some st => st.hostEffect now r
  | none => r

/-- What a step does to a row of `patch_jobs` that is there. -/
def jobEffect (now : Time) (l : Label Op Op.Resp Fn) (j : PatchJob) : PatchJob :=
  match took l with
  | some st => st.jobEffect now j
  | none => j

/-- A step acts on the host rows that are there, and may insert fresh ones. -/
theorem step_patchJobHosts (step : Step (engine cfg) s l t) :
    ∃ fresh, t.world.db.patchJobHosts =
        s.world.db.patchJobHosts.map (hostEffect s.world.db.now l) ++ fresh ∧
      ∀ r ∈ fresh, Stmt.FreshHost s.world.db t.world.db r := by
  rcases step_db step with ⟨st, result, eq, ran⟩ | ⟨eq, same⟩
  · obtain ⟨fresh, rows, -, new⟩ := Stmt.run_patchJobHosts ran
    have effect : hostEffect s.world.db.now l = st.hostEffect s.world.db.now := by
      funext r; simp only [hostEffect, eq]
    exact ⟨fresh, by rw [effect]; exact rows, new⟩
  · have effect : hostEffect s.world.db.now l = id := by funext r; simp only [hostEffect, eq, id]
    exact ⟨[], by rw [effect, same.patchJobHosts]; simp, by simp⟩

theorem step_pjh {pjhId : Uuid} {r : PatchJobHost} (step : Step (engine cfg) s l t)
    (found : s.world.db.pjh pjhId = some r) :
    t.world.db.pjh pjhId = some (hostEffect s.world.db.now l r) := by
  unfold hostEffect
  rcases step_db step with ⟨st, result, eq, ran⟩ | ⟨eq, same⟩
  · rw [eq]; exact Stmt.run_pjh ran found
  · rw [eq]; unfold Db.pjh at *; rw [same.patchJobHosts]; exact found

/-- Host rows are what an `UPDATE` has left them as. -/
theorem step_updateHosts {u : HostUpdate} (step : Step (engine cfg) s l t)
    (effect : took l = some (.updateHosts u)) (pjhId : Uuid) :
    t.world.db.pjh pjhId = (s.world.db.pjh pjhId).map (u.update s.world.db.now).onRow := by
  rcases step_db step with ⟨st, result, eq, ran⟩ | ⟨eq, -⟩
  · rw [effect] at eq
    cases eq
    obtain ⟨-, after⟩ := Prod.mk.inj (Option.some.inj ran)
    rw [Db.pjh, ← after]
    exact Sql.lookup_map (u.onRow_id _)
  · rw [effect] at eq
    cases eq

theorem step_job {jobId : Uuid} {j : PatchJob} (step : Step (engine cfg) s l t)
    (found : s.world.db.job jobId = some j) :
    t.world.db.job jobId = some (jobEffect s.world.db.now l j) := by
  unfold jobEffect
  rcases step_db step with ⟨st, result, eq, ran⟩ | ⟨eq, same⟩
  · rw [eq]; exact Stmt.run_job ran found
  · rw [eq]; unfold Db.job at *; rw [same.patchJobs]; exact found

/-- A job is what the step has made of it, or the step has just inserted it. -/
theorem step_job_cases {jobId : Uuid} {j' : PatchJob} (step : Step (engine cfg) s l t)
    (found : t.world.db.job jobId = some j') :
    (∃ j, s.world.db.job jobId = some j ∧ j' = jobEffect s.world.db.now l j) ∨
      s.world.db.job jobId = none ∧ j'.status = .queued ∧ s.world.db.nextId ≤ jobId := by
  unfold jobEffect
  rcases step_db step with ⟨st, result, eq, ran⟩ | ⟨eq, same⟩
  · rw [eq]
    obtain ⟨fresh, rows, -, new⟩ := Stmt.run_patchJobs ran
    rw [Db.job, rows] at found
    rcases Sql.lookup_append_cases found with old | ⟨none, mem, rfl⟩
    · rw [Sql.lookup_map (st.jobEffect_id _)] at old
      obtain ⟨j, before, rfl⟩ := Option.map_eq_some_iff.mp old
      exact .inl ⟨j, before, rfl⟩
    · rw [Sql.lookup_map (st.jobEffect_id _), Option.map_eq_none_iff] at none
      exact .inr ⟨none, (new j' mem).queued, (new j' mem).lower⟩
  · rw [eq]
    rw [Db.job, same.patchJobs] at found
    exact .inl ⟨j', found, rfl⟩

/-- A host row is what the step has made of it, or the step has just inserted it. -/
theorem step_pjh_cases {pjhId : Uuid} {r' : PatchJobHost} (step : Step (engine cfg) s l t)
    (found : t.world.db.pjh pjhId = some r') :
    (∃ r, s.world.db.pjh pjhId = some r ∧ r' = hostEffect s.world.db.now l r) ∨
      s.world.db.pjh pjhId = none ∧ Stmt.FreshHost s.world.db t.world.db r' := by
  unfold hostEffect
  rcases step_db step with ⟨st, result, eq, ran⟩ | ⟨eq, same⟩
  · rw [eq]
    obtain ⟨fresh, rows, -, new⟩ := Stmt.run_patchJobHosts ran
    rw [Db.pjh, rows] at found
    rcases Sql.lookup_append_cases found with old | ⟨none, mem, rfl⟩
    · rw [Sql.lookup_map (st.hostEffect_id _)] at old
      obtain ⟨r, before, rfl⟩ := Option.map_eq_some_iff.mp old
      exact .inl ⟨r, before, rfl⟩
    · rw [Sql.lookup_map (st.hostEffect_id _), Option.map_eq_none_iff] at none
      exact .inr ⟨none, new r' mem⟩
  · rw [eq]
    rw [Db.pjh, same.patchJobHosts] at found
    exact .inl ⟨r', found, rfl⟩

theorem step_clock (step : Step (engine cfg) s l t) : s.world.db.now ≤ t.world.db.now := by
  rcases step_db step with ⟨st, result, -, ran⟩ | ⟨-, same⟩
  · exact (Stmt.run_now ran).1.ge
  · exact same.clock

end PatchManager
