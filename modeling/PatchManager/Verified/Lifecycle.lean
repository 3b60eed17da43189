import PatchManager.Engine.Schedule

/-! # Finished rows

A row of `patch_job_hosts` that is succeeded, failed or cancelled stays so, whatever the
tasks do: every statement that sets a status carries a guard.  The statements on
`patch_jobs` do not all have one, and a finished parent can be overwritten.

Main results:

* `finished_host_stays`: the status of a finished host row never changes.
* `finished_job_stays_iff`: the status of finished jobs never changes in a run exactly when
  every unguarded `UPDATE` finds its job unfinished, or already in the status it writes.
-/

namespace PatchManager

open PatchManager.Conc

variable {cfg : WorkerConfig} {s t : State} {h : List (Event World Op Op.Resp Fn)}
  {l : Label Op Op.Resp Fn} {pjhId jobId : Uuid}

/-! ## Host rows -/

theorem hostEffect_status_of_terminal {now : Time} {r : PatchJobHost}
    (terminal : r.status.isTerminal = true) : (hostEffect now l r).status = r.status := by
  unfold hostEffect
  split
  · exact Stmt.hostEffect_status_of_terminal terminal
  · rfl

/-- Once a host row is finished, no step of any task changes its status. -/
theorem finished_host_stays {r : PatchJobHost} (run : Run (engine cfg) s h t)
    (found : s.world.db.pjh pjhId = some r) (terminal : r.status.isTerminal = true) :
    ∃ r', t.world.db.pjh pjhId = some r' ∧ r'.status = r.status := by
  refine run.preserves (I := fun s => ∃ r', s.world.db.pjh pjhId = some r' ∧ r'.status = r.status)
    (fun e _ step ⟨r', found', status⟩ => ?_) ⟨r, found, rfl⟩
  refine ⟨_, step_pjh step found', ?_⟩
  rw [hostEffect_status_of_terminal (by rw [status]; exact terminal), status]

def cancelledRow : PatchJobHost := { id := 2, jobId := 1, hostId := 100, status := .cancelled }

/-- A poll answer that arrives after the row was cancelled. -/
def latePoll : State :=
  ⟨{ db := { now := 0, patchJobHosts := [cancelledRow] } },
    [⟨.periodicScan, recordSucceeded ⟨2, "a", 1, 100, "10.0.0.1", 12443, .patchApply⟩
      { jobId := "a", status := "succeeded" }⟩]⟩

theorem finished_host_stays_latePoll :
    ∃ r', (Player.last latePoll (Small.player.history latePoll (Small.steps 0 1))).world.db.pjh 2 =
      some r' ∧ r'.status = .cancelled := by
  have plays : (Small.player.play latePoll (Small.steps 0 1)).isSome = true := by decide
  have found : latePoll.world.db.pjh 2 = some cancelledRow := rfl
  exact finished_host_stays (Small.player.run_of_play plays) found rfl

/-! ## Jobs -/

/-- The job an `UPDATE` writes without looking at its status, and the status it writes. -/
def JobUpdate.overwrites : JobUpdate → Option (Uuid × JobStatus)
  | markJobRunning _ => none
  | syncParent jobId newStatus _ _ => some (jobId, newStatus)
  | updateParentFinal jobId newStatus _ => some (jobId, newStatus)
  | cancelParent jobId => some (jobId, .cancelled)

theorem JobUpdate.status_of_overwrites {u : JobUpdate} {now : Time} {j : PatchJob}
    {status : JobStatus} (writes : u.overwrites = some (j.id, status)) :
    ((u.update now).onRow j).status = status := by
  cases u with
  | markJobRunning => cases writes
  | syncParent jobId newStatus setCompleted =>
    cases writes
    cases setCompleted <;> simp [Sql.Update.onRow, update]
  | updateParentFinal | cancelParent => cases writes; simp [Sql.Update.onRow, update]

/-- An unguarded `UPDATE` of another job leaves the row as it is. -/
theorem JobUpdate.onRow_of_other {u : JobUpdate} {now : Time} {j : PatchJob} {jobId : Uuid}
    {status : JobStatus} (writes : u.overwrites = some (jobId, status)) (other : j.id ≠ jobId) :
    (u.update now).onRow j = j := by
  cases u with
  | markJobRunning => cases writes
  | _ => cases writes; exact Sql.Update.onRow_eq_self (by simpa [update] using other)

/-- A job is in the status an unguarded `UPDATE` has just written. -/
theorem parent_written {u : JobUpdate} {status : JobStatus} {parent : PatchJob}
    (step : Step (engine cfg) s l t) (written : took l = some (.updateJobs u))
    (writes : u.overwrites = some (jobId, status)) (found : s.world.db.job jobId = some parent) :
    ∃ parent', t.world.db.job jobId = some parent' ∧ parent'.status = status := by
  obtain rfl : parent.id = jobId := (Sql.lookup_some found).2
  refine ⟨_, step_job step found, ?_⟩
  simp only [jobEffect, written, Stmt.jobEffect]
  exact JobUpdate.status_of_overwrites writes

/-- A statement that does not overwrite the job leaves it finished or unfinished. -/
theorem JobUpdate.isTerminal_onRow {u : JobUpdate} {now : Time} {j : PatchJob}
    (silent : ∀ status, u.overwrites ≠ some (j.id, status)) :
    ((u.update now).onRow j).status.isTerminal = j.status.isTerminal := by
  cases u with
  | markJobRunning jobId =>
    by_cases met : ((markJobRunning jobId).update now).cond j = true
    · rw [Sql.Update.onRow_eq_assign met]
      simp only [update, Bool.and_eq_true, Bool.not_eq_true', Bool.or_eq_false_iff] at met
      rw [met.2.2]
      rfl
    · rw [Sql.Update.onRow_eq_self (by simpa using met)]
  | syncParent jobId newStatus setCompleted counts =>
    rw [onRow_of_other rfl fun same => silent newStatus (by rw [same]; rfl)]
  | updateParentFinal jobId status counts =>
    rw [onRow_of_other rfl fun same => silent status (by rw [same]; rfl)]
  | cancelParent jobId =>
    rw [onRow_of_other rfl fun same => silent .cancelled (by rw [same]; rfl)]

/-- The job is there and finished. -/
def Db.jobFinished (db : Db) (jobId : Uuid) : Bool := (db.job jobId).any fun j => j.status.isTerminal

theorem jobFinished_of_none (step : Step (engine cfg) s l t)
    (absent : s.world.db.job jobId = none) : t.world.db.jobFinished jobId = false := by
  unfold Db.jobFinished
  cases found : t.world.db.job jobId with
  | none => rfl
  | some j' =>
    rcases step_job_cases step found with ⟨j, before, -⟩ | ⟨-, queued, -⟩
    · rw [absent] at before
      cases before
    · simp [queued, JobStatus.isTerminal]

theorem jobFinished_of_written {u : JobUpdate} {status : JobStatus} {j : PatchJob}
    (step : Step (engine cfg) s l t) (written : took l = some (.updateJobs u))
    (writes : u.overwrites = some (jobId, status)) (found : s.world.db.job jobId = some j) :
    t.world.db.jobFinished jobId = status.isTerminal := by
  obtain ⟨j', after, eq⟩ := parent_written step written writes found
  simp [Db.jobFinished, after, eq]

theorem jobFinished_of_silent (step : Step (engine cfg) s l t)
    (silent : ∀ u status, took l = some (.updateJobs u) → u.overwrites ≠ some (jobId, status)) :
    t.world.db.jobFinished jobId = s.world.db.jobFinished jobId := by
  cases found : s.world.db.job jobId with
  | none =>
    rw [jobFinished_of_none step found, Db.jobFinished, found]
    rfl
  | some j =>
    obtain rfl : j.id = jobId := (Sql.lookup_some found).2
    have same : (jobEffect s.world.db.now l j).status.isTerminal = j.status.isTerminal := by
      unfold jobEffect
      split
      · rename_i st effect
        cases st with
        | updateJobs u => exact JobUpdate.isTerminal_onRow fun status => silent u status effect
        | _ => rfl
      · rfl
    simp [Db.jobFinished, step_job step found, found, same]

/-- An unguarded `UPDATE` of the step finds its job unfinished or in the status it writes. -/
def FindsWritable (e : Event World Op Op.Resp Fn) : Prop :=
  ∀ u jobId status j, took e.label = some (.updateJobs u) → u.overwrites = some (jobId, status) →
    e.pre.world.db.job jobId = some j → j.status.isTerminal = false ∨ j.status = status

/-- The jobs finished in `s` have the same status in `t`. -/
def FinishedJobsKept (s t : State) : Prop :=
  ∀ jobId j, s.world.db.job jobId = some j → j.status.isTerminal = true →
    ∃ j', t.world.db.job jobId = some j' ∧ j'.status = j.status

/-- Between any two points of the run, finished jobs keep their status. -/
def FinishedJobsStay (cfg : WorkerConfig) (s : State) (h : List (Event World Op Op.Resp Fn)) :
    Prop :=
  ∀ h₁ h₂ u v, h₁ ++ h₂ <+: h → Run (engine cfg) s h₁ u → Run (engine cfg) u h₂ v →
    FinishedJobsKept u v

/-- What one `UPDATE` does to the status of a finished job. -/
theorem JobUpdate.status_of_terminal {u : JobUpdate} {now : Time} {j : PatchJob}
    (terminal : j.status.isTerminal = true) :
    ((u.update now).onRow j).status =
      match u.overwrites with
      | some (jobId, status) => if j.id = jobId then status else j.status
      | none => j.status := by
  cases u with
  | markJobRunning => simp [Sql.Update.onRow, update, overwrites, terminal]
  | syncParent jobId newStatus setCompleted =>
    by_cases own : j.id = jobId <;> cases setCompleted <;>
      simp [Sql.Update.onRow, update, overwrites, own]
  | updateParentFinal jobId => by_cases own : j.id = jobId <;>
      simp [Sql.Update.onRow, update, overwrites, own]
  | cancelParent jobId => by_cases own : j.id = jobId <;>
      simp [Sql.Update.onRow, update, overwrites, own]

/-- One step keeps every finished job exactly when its `UPDATE` finds the job writable. -/
theorem finishedJobsKept_iff (step : Step (engine cfg) s l t) :
    FinishedJobsKept s t ↔ FindsWritable ⟨s, l, t⟩ := by
  constructor
  · intro kept u jobId status j took overwrites found
    cases terminal : j.status.isTerminal with
    | false => exact .inl rfl
    | true =>
      obtain ⟨j', found', same⟩ := kept jobId j found terminal
      have own : j.id = jobId := (Sql.lookup_some found).2
      rw [step_job step found, Option.some.injEq] at found'
      have effect : jobEffect s.world.db.now l j = (u.update s.world.db.now).onRow j := by
        simp only [jobEffect, took, Stmt.jobEffect]
      rw [← found', effect, JobUpdate.status_of_terminal terminal, overwrites] at same
      simp only [own, if_true] at same
      exact .inr same.symm
  · intro writable jobId j found terminal
    refine ⟨_, step_job step found, ?_⟩
    unfold jobEffect
    split
    · rename_i st took
      cases st with
      | updateJobs u =>
        rw [Stmt.jobEffect, JobUpdate.status_of_terminal terminal]
        split
        · rename_i jobId' status overwrites
          split
          · rename_i own
            have own' : j.id = jobId := (Sql.lookup_some found).2
            obtain rfl : jobId = jobId' := own'.symm.trans own
            rcases writable u jobId status j took overwrites found with unfinished | eq
            · rw [terminal] at unfinished; cases unfinished
            · exact eq.symm
          · rfl
        · rfl
      | _ => rfl
    · rfl

/-- In a run, finished jobs keep their status exactly when every unguarded `UPDATE` finds
    its job unfinished or already in the status it writes. -/
theorem finished_job_stays_iff (run : Run (engine cfg) s h t) :
    FinishedJobsStay cfg s h ↔ ∀ e ∈ h, FindsWritable e := by
  constructor
  · intro stay e mem
    obtain ⟨h₁, h₂, rfl⟩ := List.append_of_mem mem
    obtain ⟨before, step, -⟩ := run.split_event
    have kept := stay h₁ [e] e.pre e.post ⟨h₂, by simp⟩ before (Run.nil.snoc step)
    exact (finishedJobsKept_iff step).mp kept
  · intro writable h₁ h₂ u v within _ second jobId j found terminal
    refine second.preserves (I := fun s => ∃ j', s.world.db.job jobId = some j' ∧ j'.status = j.status)
      (fun e mem step ⟨j', found', status⟩ => ?_) ⟨j, found, rfl⟩
    have kept := (finishedJobsKept_iff step).mpr
      (writable e (within.subset (List.mem_append_right _ mem)))
    obtain ⟨j'', found'', same⟩ := kept jobId j' found' (by rw [status]; exact terminal)
    exact ⟨j'', found'', same.trans status⟩

/-- A cancellation that read `queued` writes after the job has succeeded. -/
def lateCancel : List (Move Small.player) :=
  Small.creates ++ .call (.cancelJob Small.user 1) :: Small.steps 1 1 ++
    Small.processes 2 ++ Small.submits 3 "a" ++ Small.polls 4 ++ Small.answers 5 "a" "succeeded" ++
    Small.steps 5 3 ++ Small.steps 1 1

theorem finished_job_stays_iff_lateCancel :
    FinishedJobsStay Small.config Small.start (Small.player.history Small.start lateCancel) ↔
      ∀ e ∈ Small.player.history Small.start lateCancel, FindsWritable e := by
  have plays : (Small.player.play Small.start lateCancel).isSome = true := by decide +kernel
  exact finished_job_stays_iff (Small.player.run_of_play plays)

/-- A finished job changes its status: not every run keeps them. -/
theorem finished_job_overwritten :
    ¬ ∀ (cfg : WorkerConfig) (s t : State) (h : List (Event World Op Op.Resp Fn)),
      Initial s → Run (engine cfg) s h t → FinishedJobsStay cfg s h := by
  intro all
  obtain ⟨h₁, e, h₂, t, test, run⟩ := Small.player.exists_event (s := Small.start)
    (show ((Small.player.play Small.start lateCancel).getD []).any (fun e =>
      (e.pre.world.db.job 1).any (fun j => j.status == .succeeded) &&
        (e.post.world.db.job 1).any fun j => j.status == .cancelled) = true by decide +kernel)
  obtain ⟨before, step, -⟩ := run.split_event
  simp only [Bool.and_eq_true, Option.any_eq_true, beq_iff_eq] at test
  obtain ⟨⟨j, found, succeeded⟩, j', found', cancelled⟩ := test
  have kept := all _ _ _ _ Small.start_initial run h₁ [e] e.pre e.post ⟨h₂, by simp⟩ before
    (Run.nil.snoc step)
  obtain ⟨j'', found'', same⟩ := kept 1 j found (by simp [succeeded, JobStatus.isTerminal])
  rw [found', Option.some.injEq] at found''
  rw [← found'', cancelled, succeeded] at same
  cases same

end PatchManager
