import PatchManager.Engine.Schedule

/-! # The two roll-ups

`sync_job_status` and `update_parent_job_status` both turn the statuses of a job's rows
into the status of the job.  Run alone on finished rows they agree unless the rows are a
mix of successes and cancellations, or cancellations only.

Main result: `rollups_agree_iff`.
-/

namespace PatchManager

open PatchManager.Conc

variable {cfg : WorkerConfig} {db : Db} {jobId : Uuid} {job : PatchJob}

/-! ## Counting finished rows -/

/-- The job has rows, and all of them are finished. -/
structure AllFinished (db : Db) (jobId : Uuid) : Prop where
  nonempty : db.hostsOf jobId ≠ []
  finished : ∀ r ∈ db.hostsOf jobId, r.status.isTerminal = true

theorem countStatus_eq_zero {status : JobStatus} (finished : AllFinished db jobId)
    (active : status.isTerminal = false) : db.countStatus jobId status = 0 := by
  refine List.countP_eq_zero.mpr fun r mem eq => ?_
  have terminal := finished.finished r mem
  rw [beq_iff_eq.mp eq, active] at terminal
  cases terminal

theorem nonTerminalCount_eq_zero (finished : AllFinished db jobId) :
    db.nonTerminalCount jobId = 0 :=
  List.countP_eq_zero.mpr fun r mem => by simp [finished.finished r mem]

/-- Every finished row is a success, a failure or a cancellation. -/
theorem counts_add_up {rows : List PatchJobHost} (finished : ∀ r ∈ rows, r.status.isTerminal = true) :
    rows.length = rows.countP (fun r => r.status == .succeeded) +
      rows.countP (fun r => r.status == .failed) + rows.countP (fun r => r.status == .cancelled) := by
  induction rows with
  | nil => rfl
  | cons r rows ih =>
    have rest := ih fun r mem => finished r (List.mem_cons_of_mem _ mem)
    have head := finished r List.mem_cons_self
    simp only [List.countP_cons, List.length_cons]
    cases status : r.status <;> simp_all [JobStatus.isTerminal] <;> omega

theorem totalCount_eq (finished : AllFinished db jobId) :
    (db.hostsOf jobId).length = db.countStatus jobId .succeeded + db.countStatus jobId .failed +
      db.countStatus jobId .cancelled :=
  counts_add_up finished.finished

theorem aggregateStatus_isTerminal {counts : StatusCounts} {newStatus : JobStatus}
    {setCompleted : Bool} (status : aggregateStatus counts = some (newStatus, setCompleted)) :
    newStatus.isTerminal = setCompleted := by
  unfold aggregateStatus at status
  split at status
  · cases status; rfl
  · split at status
    · cases status; rfl
    · split at status
      · cases status; rfl
      · split at status
        · cases status; rfl
        · cases status

theorem finalStatus_isTerminal (counts : RollupCounts) : (finalStatus counts).isTerminal = true := by
  unfold finalStatus
  split <;> rfl

/-- The aggregate of finished rows, by the counts of the three statuses. -/
theorem aggregateStatus_of_finished (finished : AllFinished db jobId) :
    aggregateStatus (db.statusCounts jobId) =
      if 0 < db.countStatus jobId .failed then some (.failed, true)
      else if db.countStatus jobId .cancelled = 0 then some (.succeeded, true)
      else if db.countStatus jobId .succeeded = 0 then some (.cancelled, true)
      else none := by
  have total := totalCount_eq finished
  have positive : 0 < (db.hostsOf jobId).length := List.length_pos_of_ne_nil finished.nonempty
  have idle : ∀ status : JobStatus, status.isTerminal = false → db.countStatus jobId status = 0 :=
    fun status => countStatus_eq_zero finished
  simp only [aggregateStatus, Db.statusCounts, idle .running rfl, idle .pending rfl,
    idle .queued rfl, idle .waitingHealthCheck rfl, beq_iff_eq, Bool.and_eq_true, decide_eq_true_eq,
    gt_iff_lt, Nat.lt_irrefl, decide_false, Bool.or_self, Bool.false_eq_true, if_false]
  grind

/-! ## The roll-ups run alone -/

/-- The status of the job, and whether it has a completion time, after `p` has run with
    nothing else moving. -/
def parentAfter (cfg : WorkerConfig) (db : Db) (jobId : Uuid) (p : Proc Unit) :
    Option (JobStatus × Bool) :=
  ((enginePlayer cfg).alone .ok { db } p).bind fun (_, w) =>
    (w.db.job jobId).map fun j => (j.status, j.completedAt.isSome)

theorem job_updateJobs (u : JobUpdate) (found : db.job jobId = some job) :
    Db.job { db with patchJobs := (u.update db.now).apply db.patchJobs } jobId =
      some ((u.update db.now).onRow job) :=
  Stmt.run_job (s := .updateJobs u) rfl found

theorem sync_parentAfter (found : db.job jobId = some job) :
    parentAfter cfg db jobId (syncJobStatus jobId) =
      match aggregateStatus (db.statusCounts jobId) with
      | none => some (job.status, job.completedAt.isSome)
      | some (newStatus, setCompleted) =>
        some (newStatus, setCompleted || job.completedAt.isSome) := by
  have own : job.id = jobId := (Sql.lookup_some found).2
  simp only [parentAfter, syncJobStatus, Prog.bind_eq, Prog.pure_eq, Prog.perform_bind,
    Player.alone, enginePlayer, execute, executeSql, Stmt.run, Query.eval, Option.map_some]
  cases aggregateStatus (db.statusCounts jobId) with
  | none => simp [Player.alone, found]
  | some outcome =>
    obtain ⟨newStatus, setCompleted⟩ := outcome
    have after := job_updateJobs (.syncParent jobId newStatus setCompleted (db.statusCounts jobId))
      found
    cases setCompleted <;>
      simp [Player.alone, execute, executeSql, Stmt.run, Prog.fork, after] <;>
      simp [Sql.Update.onRow, JobUpdate.update, own]

theorem update_parentAfter (found : db.job jobId = some job) (finished : AllFinished db jobId) :
    parentAfter cfg db jobId (updateParentJobStatus jobId) =
      some (finalStatus (db.rollupCounts jobId), true) := by
  have own : job.id = jobId := (Sql.lookup_some found).2
  have after := job_updateJobs
    (.updateParentFinal jobId (finalStatus (db.rollupCounts jobId)) (db.rollupCounts jobId)) found
  simp only [parentAfter, updateParentJobStatus, Prog.bind_eq, Prog.pure_eq, Prog.perform_bind,
    Player.alone, enginePlayer, execute, executeSql, Stmt.run, Query.eval, Option.map_some,
    nonTerminalCount_eq_zero finished, gt_iff_lt, Nat.lt_irrefl, if_false, Option.bind_some, after]
  simp [Sql.Update.onRow, JobUpdate.update, own]

/-- On finished rows the two roll-ups leave the job in the same status with the same
    completion exactly when some row failed, or none was cancelled, or the job was
    succeeded and completed before and some row succeeded. -/
theorem rollups_agree_iff (found : db.job jobId = some job) (finished : AllFinished db jobId) :
    parentAfter cfg db jobId (syncJobStatus jobId) =
        parentAfter cfg db jobId (updateParentJobStatus jobId) ↔
      0 < db.countStatus jobId .failed ∨ db.countStatus jobId .cancelled = 0 ∨
        0 < db.countStatus jobId .succeeded ∧ job.status = .succeeded ∧
          job.completedAt.isSome = true := by
  rw [sync_parentAfter found, update_parentAfter found finished,
    aggregateStatus_of_finished finished]
  simp only [finalStatus, Db.rollupCounts, gt_iff_lt]
  by_cases failed : 0 < db.countStatus jobId .failed
  · simp [failed]
  · by_cases cancelled : db.countStatus jobId .cancelled = 0
    · simp [failed, cancelled]
    · by_cases succeeded : db.countStatus jobId .succeeded = 0
      · simp [failed, cancelled, succeeded]
      · simp [failed, cancelled, succeeded, Nat.pos_of_ne_zero succeeded]

/-- A running job with one succeeded and one cancelled row. -/
def mixedJob : Db where
  now := 0
  patchJobs := [{ id := 1, kind := .patchApply, status := .running, createdAt := 0 }]
  patchJobHosts := [{ id := 2, jobId := 1, hostId := 100, status := .succeeded },
    { id := 3, jobId := 1, hostId := 101, status := .cancelled }]

theorem mixedJob_finished : AllFinished mixedJob 1 := ⟨List.cons_ne_nil _ _, by decide⟩

theorem rollups_agree_iff_mixedJob :
    parentAfter Small.config mixedJob 1 (syncJobStatus 1) =
        parentAfter Small.config mixedJob 1 (updateParentJobStatus 1) ↔
      0 < mixedJob.countStatus 1 .failed ∨ mixedJob.countStatus 1 .cancelled = 0 ∨
        0 < mixedJob.countStatus 1 .succeeded ∧ JobStatus.running = .succeeded ∧
          (none : Option Time).isSome = true := by
  have found : mixedJob.job 1 = some { id := 1, kind := .patchApply, status := .running, createdAt := 0 } :=
    rfl
  exact rollups_agree_iff found mixedJob_finished

/-- On a success and a cancellation one roll-up leaves the job running, the other makes it
    succeeded. -/
theorem rollups_disagree :
    ¬ ∀ (cfg : WorkerConfig) (db : Db) (jobId : Uuid) (job : PatchJob),
      db.job jobId = some job → AllFinished db jobId →
        parentAfter cfg db jobId (syncJobStatus jobId) =
          parentAfter cfg db jobId (updateParentJobStatus jobId) := by
  intro all
  have agree := all Small.config mixedJob 1 _ rfl mixedJob_finished
  revert agree
  decide

end PatchManager
