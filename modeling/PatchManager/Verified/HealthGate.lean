import PatchManager.Verified.TimeoutSweep

/-! # Waiting for the health checks

An execution whose host fails its health checks asks whether a maintenance window of the host is open.
`SELECT EXISTS` always answers with a row, so that a host without any window counts as one whose window
has closed, and whether the job is immediate is not asked.

Main results:

* `FailingGate.parked_iff`: the row waits exactly when some window of the host is open.
* `failing_gates`: exactly which executions treat the row as they should, and that however many of them
  come one after the other, they leave the number of retries alone.
-/

namespace PatchManager

open PatchManager.Conc

/-- The others leave the row alone, and time passes. -/
def Leaves (pjhId : Uuid) (w w' : World) : Prop := Spares pjhId w w' ∧ w.db.now ≤ w'.db.now

/-! ## The gate -/

/-- What an execution knows of its host before it decides: its address and whether its checks pass. -/
inductive GateAnswer where
  | failed (reason : String)
  | noHost
  | checked (host : HostRow) (checks : Except String Bool)

/-- Step 1 of `execute_host_job`. -/
def readGate (hostId : Uuid) : Proc GateAnswer := do
  match ← query (.hostConnection hostId) with
  | .error e => return .failed e
  | .ok none => return .noHost
  | .ok (some host) => return .checked host (← checkHostHealthChecks hostId)

def afterGate (jobId hostId pjhId : Uuid) : GateAnswer → Proc Unit
  | .failed e => handleHostFailure pjhId ("DB error fetching host: " ++ e)
  | .noHost => handleHostFailure pjhId ("Host " ++ hostId.text ++ " not found in database")
  | .checked _ (.ok false) => waitForHealthChecks hostId pjhId
  | .checked host _ => submitHostJob jobId hostId pjhId host

theorem executeHostJob_eq (jobId hostId pjhId : Uuid) :
    executeHostJob jobId hostId pjhId = (readGate hostId).bind (afterGate jobId hostId pjhId) := by
  refine congrArg (Prog.op (Op.sql (.select (.hostConnection hostId)))) (funext fun answer => ?_)
  cases answer with
  | error e => rfl
  | ok found =>
    cases found with
    | none => rfl
    | some host =>
      refine Eq.trans ?_ (Prog.bind_assoc (checkHostHealthChecks hostId) _ _).symm
      refine congrArg (Prog.bind (checkHostHealthChecks hostId)) (funext fun checks => ?_)
      cases checks with
      | error e => rfl
      | ok passed => cases passed <;> rfl

/-- A gate whose checks fail: the execution of `execute_host_job` that has read them among others that leave
    the row alone, and the world `asked` in which it asks for the window. -/
structure FailingGate where
  jobId : Uuid
  hostId : Uuid
  pjhId : Uuid
  start : World
  asked : World
  finish : World
  host : HostRow
  row : PatchJobHost
  job : PatchJob
  reads : (readGate hostId).Among execSound (Leaves pjhId) start asked (.checked host (.ok false))
  decides : (waitForHealthChecks hostId pjhId).Among execSound (Leaves pjhId) asked finish ()
  rowFound : asked.db.pjh pjhId = some row
  unfinished : row.status.isTerminal = false
  jobFound : asked.db.job jobId = some job

namespace FailingGate

variable (g : FailingGate)

theorem run : (executeHostJob g.jobId g.hostId g.pjhId).Among execSound (Leaves g.pjhId) g.start g.finish () := by
  rw [executeHostJob_eq]
  exact g.reads.bind g.decides

/-- An execution that finds the checks failing is such a gate. -/
theorem of_run {jobId hostId pjhId : Uuid} {start finish : World}
    (run : (executeHostJob jobId hostId pjhId).Among execSound (Leaves pjhId) start finish ()) :
    ∃ answer asked, (readGate hostId).Among execSound (Leaves pjhId) start asked answer ∧
      (afterGate jobId hostId pjhId answer).Among execSound (Leaves pjhId) asked finish () := by
  rw [executeHostJob_eq] at run
  exact run.bind_inv

/-- The job is immediate, or its host has no maintenance window at all. -/
def Unbound : Prop := g.job.immediate = true ∨ ∀ m ∈ g.asked.db.maintenanceWindows, m.hostId ≠ g.hostId

/-- The row waits for the next look at the checks, in five minutes; nothing else in it has changed. -/
def Parked : Prop := ∃ now, g.asked.db.now ≤ now ∧ now ≤ g.finish.db.now ∧
  g.finish.db.pjh g.pjhId = some { g.row with
    status := .waitingHealthCheck
    retryNextAt := some (now + 5 * microsPerMinute)
    lastError := some "Waiting for health checks to pass" }

/-- The row has gone through `handle_host_failure`. -/
def Handled : Prop := ∃ r, g.finish.db.pjh g.pjhId = some r ∧
  (r.status = .pending ∧ r.retryCount = g.row.retryCount + 1 ∨ r.status = .failed ∧ 3 ≤ g.row.retryCount)

/-- Rows of unbound jobs wait, and only rows of jobs that are bound to a window which has closed are handled
    as failures. -/
structure Right : Prop where
  parks : g.Unbound → g.Parked
  handles : g.Handled → ¬ g.Unbound ∧ g.asked.db.hostWindowOpen g.hostId = false

/-- Some window of the host is open, or the job waits for one of them. -/
def Covered : Prop := g.asked.db.hostWindowOpen g.hostId = true ∨ ¬ g.Unbound

end FailingGate

/-! ## What it does to the row -/

section row

variable {pjhId hostId : Uuid} {w w' : World} {r : PatchJobHost}

theorem Leaves.refl (w : World) : Leaves pjhId w w := ⟨rfl, le_rfl⟩

/-- Operations that write no row. -/
theorem clock_of_exec {o : Op} {answer : o.Resp} (done : execSound w o answer w') : w.db.now ≤ w'.db.now := by
  rcases exec_db (exec_of_execSound done) with ⟨s, result, -, ran⟩ | ⟨-, same⟩
  · exact (Stmt.run_now ran).1.ge
  · exact same ▸ le_rfl

theorem parks (among : (waitForHealthChecks hostId pjhId).Among execSound (Leaves pjhId) w w' ())
    (opened : w.db.hostWindowOpen hostId = true) (found : w.db.pjh pjhId = some r)
    (unfinished : r.status.isTerminal = false) :
    ∃ now, w.db.now ≤ now ∧ now ≤ w'.db.now ∧ w'.db.pjh pjhId = some { r with
      status := .waitingHealthCheck
      retryNextAt := some (now + 5 * microsPerMinute)
      lastError := some "Waiting for health checks to pass" } := by
  obtain ⟨answer, w₁, w₂, asked, ⟨spared, passed⟩, among⟩ := among.op_inv
  cases answer with
  | error reason => cases asked.1
  | ok isOpen =>
    obtain ⟨read, rfl⟩ := exec_select (exec_of_execSound asked)
    obtain rfl : isOpen = true := (Option.some.inj read).symm.trans opened
    obtain ⟨now, w₃, w₄, ⟨rfl, rfl⟩, ⟨spared', passed'⟩, among⟩ := among.op_inv
    obtain ⟨answer, w₅, w₆, done, ⟨spared'', passed''⟩, among⟩ := among.op_inv
    obtain ⟨rfl, -⟩ := among.ret_inv
    have here : w₄.db.pjh pjhId = some r := spared'.trans (spared.trans found)
    obtain ⟨-, written⟩ := updateHosts_of_exec done here
    refine ⟨w₃.db.now, passed, passed'.trans ((clock_of_exec done).trans passed''), ?_⟩
    rw [spared'', written, Sql.Update.onRow_eq_assign]
    · rfl
    · simp [HostUpdate.update, unfinishedRow, unfinished, (Sql.lookup_some here).2]

/-- A failure is one retry more, or the end of the row. -/
theorem handleHostFailure_counts {errorMsg : String}
    (among : (handleHostFailure pjhId errorMsg).Among execSound (Leaves pjhId) w w' ())
    (found : w.db.pjh pjhId = some r) (unfinished : r.status.isTerminal = false) :
    ∃ r', w'.db.pjh pjhId = some r' ∧
      (r'.status = .pending ∧ r'.retryCount = r.retryCount + 1 ∨ r'.status = .failed ∧ 3 ≤ r.retryCount) := by
  have own (db : Db) (here : db.pjh pjhId = some r) : unfinishedRow pjhId r = true := by
    simp [unfinishedRow, unfinished, (Sql.lookup_some here).2]
  obtain ⟨answer, w₁, w₂, asked, ⟨spared, -⟩, among⟩ := among.op_inv
  cases answer with
  | error reason => cases asked.1
  | ok row =>
    obtain ⟨read, rfl⟩ := exec_select (exec_of_execSound asked)
    have here : w₂.db.pjh pjhId = some r := spared.trans found
    obtain rfl : row = some { jobId := r.jobId, retryCount := r.retryCount, status := r.status } := by
      simpa [Query.eval, found, eq_comm] using read
    by_cases retried : r.retryCount < 3
    · simp only [Prog.ret_bind, unfinished, retried, Bool.false_eq_true, if_false, if_true] at among
      obtain ⟨now, w₃, w₄, ⟨-, rfl⟩, ⟨spared', -⟩, among⟩ := among.op_inv
      obtain ⟨answer, w₅, w₆, done, ⟨spared'', -⟩, among⟩ := among.op_inv
      obtain ⟨rfl, -⟩ := among.ret_inv
      obtain ⟨-, written⟩ := updateHosts_of_exec done (spared'.trans here)
      rw [Sql.Update.onRow_eq_assign (own _ here)] at written
      exact ⟨_, spared''.trans written, .inl ⟨rfl, rfl⟩⟩
    · simp only [Prog.ret_bind, unfinished, retried, Bool.false_eq_true, if_false] at among
      obtain ⟨answer, w₃, w₄, done, ⟨spared', -⟩, among⟩ := among.op_inv
      obtain ⟨⟨affected, rfl⟩, written⟩ := updateHosts_of_exec done here
      rw [Sql.Update.onRow_eq_assign (own _ here)] at written
      obtain ⟨r', ended, failed⟩ : ∃ r', w₄.db.pjh pjhId = some r' ∧ r'.status = .failed :=
        ⟨_, spared'.trans written, rfl⟩
      have exhausted : 3 ≤ r.retryCount := by omega
      refine ⟨r', ?_, .inr ⟨failed, exhausted⟩⟩
      have rest : (if affected > 0 then syncJobStatus r.jobId else return ()).Among execSound (Leaves pjhId) w₄ w' () :=
        among
      split at rest
      · refine rest.keeps (syncJobStatus_rollsUp r.jobId) (I := fun w => w.db.pjh pjhId = some r') ?_ ?_ ended
        · intro w o answer w' kind done
          exact pjh_of_rollsUp kind (exec_of_execSound done)
        · intro w w' moved found
          exact moved.1.trans found
      · obtain ⟨rfl, -⟩ := rest.ret_inv
        exact ended

theorem handles (among : (waitForHealthChecks hostId pjhId).Among execSound (Leaves pjhId) w w' ())
    (closed : w.db.hostWindowOpen hostId = false) (found : w.db.pjh pjhId = some r)
    (unfinished : r.status.isTerminal = false) :
    ∃ r', w'.db.pjh pjhId = some r' ∧
      (r'.status = .pending ∧ r'.retryCount = r.retryCount + 1 ∨ r'.status = .failed ∧ 3 ≤ r.retryCount) := by
  obtain ⟨answer, w₁, w₂, asked, ⟨spared, -⟩, among⟩ := among.op_inv
  cases answer with
  | error reason => cases asked.1
  | ok isOpen =>
    obtain ⟨read, rfl⟩ := exec_select (exec_of_execSound asked)
    obtain rfl : isOpen = false := (Option.some.inj read).symm.trans closed
    exact handleHostFailure_counts among (spared.trans found) unfinished

end row

namespace FailingGate

variable (g : FailingGate)

/-- A row that waits is not one that has been handled as a failure. -/
theorem not_handled (parked : g.Parked) : ¬ g.Handled := by
  obtain ⟨now, -, -, found⟩ := parked
  rintro ⟨r, found', ⟨status, -⟩ | ⟨status, -⟩⟩
  all_goals
    rw [found] at found'
    cases found'
    cases status

theorem parked_iff : g.Parked ↔ g.asked.db.hostWindowOpen g.hostId = true := by
  cases opened : g.asked.db.hostWindowOpen g.hostId with
  | true => exact iff_of_true (parks g.decides opened g.rowFound g.unfinished) rfl
  | false =>
    have handled : g.Handled := PatchManager.handles g.decides opened g.rowFound g.unfinished
    exact iff_of_false (fun parked => g.not_handled parked handled) (by simp)

theorem handled_of_closed (closed : g.asked.db.hostWindowOpen g.hostId = false) : g.Handled :=
  PatchManager.handles g.decides closed g.rowFound g.unfinished

theorem right_iff : g.Right ↔ g.Covered := by
  constructor
  · intro right
    by_cases opened : g.asked.db.hostWindowOpen g.hostId = true
    · exact .inl opened
    · exact .inr (right.handles (g.handled_of_closed (by simpa using opened))).1
  · rintro (opened | bound)
    · have parked := g.parked_iff.mpr opened
      exact ⟨fun _ => parked, fun handled => absurd handled (g.not_handled parked)⟩
    · refine ⟨fun unbound => absurd unbound bound, fun handled => ⟨bound, ?_⟩⟩
      by_contra opened
      exact g.not_handled (g.parked_iff.mpr (by simpa using opened)) handled

end FailingGate

/-! ## However often it fails -/

/-- Gates of one row, one after the other.  Between them the row comes up for dispatch again, and its
    number of retries stays as it is. -/
inductive Gates (pjhId : Uuid) : World → List FailingGate → World → Prop
  | none {w : World} : Gates pjhId w [] w
  | next {w w' : World} {g : FailingGate} {gates : List FailingGate} (own : g.pjhId = pjhId)
      (same : (w.db.pjh pjhId).map PatchJobHost.retryCount = some g.row.retryCount)
      (rest : Gates pjhId g.finish gates w') : Gates pjhId w (g :: gates) w'

theorem Gates.retryCount {pjhId : Uuid} {w w' : World} {gates : List FailingGate} (all : Gates pjhId w gates w')
    (waits : ∀ g ∈ gates, g.Parked) :
    (w'.db.pjh pjhId).map PatchJobHost.retryCount = (w.db.pjh pjhId).map PatchJobHost.retryCount := by
  induction all with
  | none => rfl
  | next own same rest ih =>
    obtain ⟨parked, later⟩ := List.forall_mem_cons.mp waits
    obtain ⟨now, -, -, found⟩ := parked
    rw [ih later, same, ← own, found]
    rfl

/-- An execution treats its row as it should exactly when a window is open or the job waits for one; and
    executions for unbound jobs that do leave the number of retries as it was, however many they are. -/
theorem failing_gates (g : FailingGate) : (g.Right ↔ g.Covered) ∧
    ∀ (pjhId : Uuid) (w w' : World) (gates : List FailingGate), Gates pjhId w gates w' →
      (∀ g ∈ gates, g.Unbound ∧ g.Covered) →
        (w'.db.pjh pjhId).map PatchJobHost.retryCount = (w.db.pjh pjhId).map PatchJobHost.retryCount := by
  refine ⟨g.right_iff, fun pjhId w w' gates all covered => all.retryCount fun g mem => ?_⟩
  obtain ⟨unbound, covered⟩ := covered g mem
  exact (g.right_iff.mpr covered).parks unbound

/-! ## An immediate job -/

/-- A host without a maintenance window, one of whose checks has not passed yet. -/
def failingWorld : World where
  db :=
    { now := 7200 * microsPerSecond
      patchJobs := [{ id := 1, kind := .patchApply, status := .running, immediate := true, createdAt := 0 }]
      patchJobHosts := [{ id := 2, jobId := 1, hostId := 100 }]
      hosts := [Small.host]
      hostHealthChecks := [{ id := 3, hostId := 100, enabled := true }] }

def failingMessage : String := "Health checks did not pass before maintenance window closed"

/-- The world after the gate. -/
def countedWorld : World where
  db := { failingWorld.db with patchJobHosts :=
    ((HostUpdate.setPending 2 1 (failingWorld.db.now + retryDelay 1) failingMessage).update
      failingWorld.db.now).apply failingWorld.db.patchJobHosts }

theorem failingWorld_reads : (readGate 100).Among execSound (Leaves 2) failingWorld failingWorld
    (.checked ⟨"10.0.0.1", 12443⟩ (.ok false)) := by
  have connection : (Query.hostConnection 100).eval failingWorld.db = some (some ⟨"10.0.0.1", 12443⟩) := rfl
  have checks : (Query.healthCheckCount 100).eval failingWorld.db = some 1 := by decide
  have unhealthy : (Query.unhealthyCount 100).eval failingWorld.db = some 1 := by decide
  exact .op (execSound_select connection) (.refl _) (.op (execSound_select checks) (.refl _)
    (.op (execSound_select unhealthy) (.refl _) .ret))

theorem failingWorld_decides :
    (waitForHealthChecks 100 2).Among execSound (Leaves 2) failingWorld countedWorld () := by
  have window : (Query.windowOpenFor 100).eval failingWorld.db = some false := rfl
  have row : (Query.retryRow 2).eval failingWorld.db = some (some ⟨1, 0, .queued⟩) := rfl
  have time : execSound failingWorld .utcNow failingWorld.db.now failingWorld := ⟨rfl, rfl⟩
  exact .op (execSound_select window) (.refl _) (.op (execSound_select row) (.refl _) (.op time (.refl _)
    (.op (execSound_updateHosts failingWorld _) (.refl _) .ret)))

/-- The gate of an immediate job on that host. -/
def countedGate : FailingGate where
  jobId := 1
  hostId := 100
  pjhId := 2
  start := failingWorld
  asked := failingWorld
  finish := countedWorld
  host := ⟨"10.0.0.1", 12443⟩
  row := { id := 2, jobId := 1, hostId := 100 }
  job := { id := 1, kind := .patchApply, status := .running, immediate := true, createdAt := 0 }
  reads := failingWorld_reads
  decides := failingWorld_decides
  rowFound := rfl
  unfinished := rfl
  jobFound := rfl

/-- The gate costs the row of an immediate job a retry. -/
theorem failing_gate_counted : ¬ ∀ g : FailingGate, g.Right := by
  intro all
  rcases countedGate.right_iff.mp (all countedGate) with opened | bound
  · cases opened
  · exact bound (.inl rfl)

end PatchManager
