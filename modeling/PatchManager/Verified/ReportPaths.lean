import PatchManager.Engine.Schedule

/-! # The two ways of a report

An agent's report that a job has ended reaches the job's row through the poller or through
the relay, whichever is first.  The poller applies the retry policy to a failure and clears
the retry columns of a success; the relay writes the reported status and nothing else.

Main result: `report_paths_agree_iff`, the reports for which this makes no difference.
-/

namespace PatchManager

open PatchManager.Conc

variable {cfg : WorkerConfig} {db : Db} {r : PatchJobHost} {row : PatchJobHostRunning}
  {report : AgentJobStatus}

/-- The agent answers with the report; everything else goes well. -/
def reporting (report : AgentJobStatus) : Op → Answer
  | .jobStatus _ _ => .status report
  | _ => .ok

/-- The report as an event of the job stream. -/
def AgentJobStatus.event (report : AgentJobStatus) : AgentWsEvent where
  jobId := report.jobId
  status := report.status
  output := report.output
  error := report.error
  progressPercent := report.progressPercent

/-- The statuses by which an agent reports the end of a job. -/
def endStatuses : List String := ["succeeded", "completed", "failed", "cancelled"]

/-- The status and the retry columns of the row after `p` has run with nothing else moving. -/
def rowAfter (cfg : WorkerConfig) (db : Db) (report : AgentJobStatus) (pjhId : Uuid)
    (p : Proc Unit) : Option (JobStatus × Int × Option Time) :=
  ((enginePlayer cfg).aloneBy (reporting report) { db } p).bind fun (_, w) =>
    (w.db.pjh pjhId).map fun r => (r.status, r.retryCount, r.retryNextAt)

/-! ## Programs that leave host rows alone -/

/-- Run alone, `p` comes to its end and leaves the host rows as they are. -/
def LeavesRows (cfg : WorkerConfig) (report : AgentJobStatus) (p : Proc Unit) : Prop :=
  ∀ w : World, ∃ w', (enginePlayer cfg).aloneBy (reporting report) w p = some ((), w') ∧
    w'.db.patchJobHosts = w.db.patchJobHosts

theorem syncJobStatus_leaves (jobId : Uuid) : LeavesRows cfg report (syncJobStatus jobId) := by
  intro w
  simp only [syncJobStatus, Prog.bind_eq, Prog.pure_eq, Prog.perform_bind, Player.aloneBy,
    enginePlayer, reporting, execute, executeSql, Stmt.run, Query.eval, Option.map_some]
  cases aggregateStatus (w.db.statusCounts jobId) with
  | none => exact ⟨w, rfl, rfl⟩
  | some outcome =>
    obtain ⟨newStatus, setCompleted⟩ := outcome
    cases setCompleted <;> exact ⟨_, rfl, rfl⟩

theorem updateParentJobStatus_leaves (jobId : Uuid) :
    LeavesRows cfg report (updateParentJobStatus jobId) := by
  intro w
  simp only [updateParentJobStatus, Prog.bind_eq, Prog.pure_eq, Prog.perform_bind, Player.aloneBy,
    enginePlayer, reporting, execute, executeSql, Stmt.run, Query.eval, Option.map_some]
  split
  · exact ⟨w, rfl, rfl⟩
  · exact ⟨_, rfl, rfl⟩

theorem ret_leaves : LeavesRows cfg report (.ret ()) := fun w => ⟨w, rfl, rfl⟩

theorem ite_leaves {p q : Proc Unit} {b : Prop} [Decidable b] (yes : LeavesRows cfg report p)
    (no : LeavesRows cfg report q) : LeavesRows cfg report (if b then p else q) := by
  split
  · exact yes
  · exact no

theorem bind_leaves {p q : Proc Unit} (first : LeavesRows cfg report p)
    (second : LeavesRows cfg report q) : LeavesRows cfg report (p.bind fun _ => q) := by
  intro w
  obtain ⟨w₁, runs₁, hosts₁⟩ := first w
  obtain ⟨w₂, runs₂, hosts₂⟩ := second w₁
  refine ⟨w₂, ((enginePlayer cfg).aloneBy_bind p fun _ => q).trans ?_, hosts₂.trans hosts₁⟩
  exact (congrArg (Option.bind · _) runs₁).trans runs₂

theorem notify_leaves (payload : Json) :
    LeavesRows cfg report ((sql (.notifyJobUpdate payload)).bind fun _ => .ret ()) :=
  fun w => ⟨w, rfl, rfl⟩

/-! ## The row after each function -/

/-- A program that changes host rows by one statement and then leaves them alone. -/
theorem rowAfter_update (found : db.pjh r.id = some r) (u : HostUpdate)
    {next : Except String Nat → Proc Unit} (rest : ∀ answer, LeavesRows cfg report (next answer)) :
    rowAfter cfg db report r.id (.op (.sql (.updateHosts u)) next) =
      some (((u.update db.now).onRow r).status, ((u.update db.now).onRow r).retryCount,
        ((u.update db.now).onRow r).retryNextAt) := by
  have after := Stmt.run_pjh (s := .updateHosts u) rfl found
  obtain ⟨w', runs, hosts⟩ := rest (.ok ((u.update db.now).affected db.patchJobHosts))
    { db := { db with patchJobHosts := (u.update db.now).apply db.patchJobHosts } }
  have same : w'.db.pjh r.id = some ((u.update db.now).onRow r) := by
    unfold Db.pjh
    rw [hosts]
    exact after
  have whole : (enginePlayer cfg).aloneBy (reporting report) { db }
      (.op (.sql (.updateHosts u)) next) = some ((), w') := runs
  simp only [rowAfter, whole, Option.bind_some, same, Option.map_some]

theorem rowAfter_select {q : Query} {result : q.Result} (eval : q.eval db = some result) (id : Uuid)
    (next : Except String q.Result → Proc Unit) :
    rowAfter cfg db report id (.op (.sql (.select q)) next) =
      rowAfter cfg db report id (next (.ok result)) := by
  simp [rowAfter, Player.aloneBy, enginePlayer, reporting, execute, executeSql, Stmt.run, eval]

theorem rowAfter_now (id : Uuid) (next : Time → Proc Unit) :
    rowAfter cfg db report id (.op .utcNow next) = rowAfter cfg db report id (next db.now) := rfl

/-- The retry policy: what becomes of a row whose attempt has failed. -/
def afterFailure (db : Db) (r : PatchJobHost) : JobStatus × Int × Option Time :=
  if r.retryCount < 3 then
    (.pending, r.retryCount + 1, some (db.now + retryDelay (r.retryCount + 1)))
  else (.failed, r.retryCount, r.retryNextAt)

theorem handleHostFailure_rowAfter (found : db.pjh r.id = some r)
    (active : r.status.isTerminal = false) (msg : String) :
    rowAfter cfg db report r.id (handleHostFailure r.id msg) = some (afterFailure db r) := by
  have met : unfinishedRow r.id r = true := by simp [unfinishedRow, active]
  simp only [handleHostFailure, Prog.bind_eq, Prog.perform_bind]
  rw [rowAfter_select rfl]
  simp only [found, active, Option.map_some, afterFailure, Prog.pure_eq, Bool.false_eq_true, if_false]
  by_cases left : r.retryCount < 3
  · simp only [left, if_true]
    rw [rowAfter_now, rowAfter_update found _ fun _ => ret_leaves]
    simp [Sql.Update.onRow, HostUpdate.update, met]
  · simp only [left, if_false]
    rw [rowAfter_update found _ fun answer => ?_]
    · simp [Sql.Update.onRow, HostUpdate.update, met]
    · cases answer with
      | error reason => exact ret_leaves
      | ok affected => exact ite_leaves (syncJobStatus_leaves _) ret_leaves

theorem recordSucceeded_rowAfter (found : db.pjh r.id = some r)
    (active : r.status.isTerminal = false) (own : row.id = r.id) :
    rowAfter cfg db report r.id (recordSucceeded row report) = some (.succeeded, 0, none) := by
  have met : unfinishedRow row.id r = true := by simp [unfinishedRow, active, own]
  simp only [recordSucceeded, Prog.bind_eq, Prog.perform_bind]
  rw [rowAfter_update found _ fun answer => ?_]
  · simp [Sql.Update.onRow, HostUpdate.update, met]
  · cases answer with
    | error reason => exact syncJobStatus_leaves _
    | ok affected => exact ite_leaves ret_leaves (syncJobStatus_leaves _)

/-- The poll comes to what it does with the answer. -/
theorem pollSingleHost_alone (kind : row.jobKind ≠ .selfUpgrade) :
    rowAfter cfg db report r.id (pollSingleHost row) =
      rowAfter cfg db report r.id (recordStatus row (.ok report)) := by
  cases eq : row.jobKind with
  | selfUpgrade => exact absurd eq kind
  | _ =>
    simp only [rowAfter, pollSingleHost, Prog.bind_eq, Prog.perform_bind, Player.aloneBy, enginePlayer,
      reporting, execute, eq]

/-- What the poller makes of a report. -/
theorem pollSingleHost_rowAfter (found : db.pjh r.id = some r)
    (polled : Query.pollRow db r = some row) (kind : row.jobKind ≠ .selfUpgrade)
    (ends : report.status ∈ endStatuses) :
    rowAfter cfg db report r.id (pollSingleHost row) =
      if report.status = "succeeded" ∨ report.status = "completed" then some (.succeeded, 0, none)
      else some (afterFailure db r) := by
  simp only [Query.pollRow, bind, Option.bind_eq_some_iff, pure, guard, Option.some.injEq] at polled
  obtain ⟨agentJobId, -, h, -, j, -, _, running, rfl⟩ := polled
  have active : r.status.isTerminal = false := by
    split at running
    · rename_i eq; rw [eq]; rfl
    · cases running
  rw [pollSingleHost_alone kind]
  simp only [endStatuses, List.mem_cons, List.not_mem_nil, or_false] at ends
  rcases ends with eq | eq | eq | eq <;> simp only [recordStatus, eq]
  · exact recordSucceeded_rowAfter found active rfl
  · exact recordSucceeded_rowAfter found active rfl
  · simpa using handleHostFailure_rowAfter found active _
  · simpa using handleHostFailure_rowAfter found active _

/-- What the relay makes of a report. -/
theorem processEvent_rowAfter {relay : RunningHostJob} {dbStatus : JobStatus}
    (found : db.pjh r.id = some r) (relayed : Query.relayRow db r = some relay)
    (maps : dbStatus? report.status = some dbStatus) (ends : dbStatus.isTerminal = true) :
    rowAfter cfg db report r.id (processEvent relay report.event) =
      some (dbStatus, r.retryCount, r.retryNextAt) := by
  simp only [Query.relayRow, bind, Option.bind_eq_some_iff, pure, guard, Option.some.injEq] at relayed
  obtain ⟨agentJobId, -, h, -, _, running, rfl⟩ := relayed
  have active : r.status.isTerminal = false := by
    split at running
    · rename_i eq; rw [eq]; rfl
    · cases running
  have event : dbStatus? report.event.status = some dbStatus := maps
  simp only [processEvent, event, Prog.bind_eq, Prog.perform_bind]
  rw [rowAfter_update found _ fun answer => ?_]
  · simp [Sql.Update.onRow, relayUpdate, ends, HostUpdate.update, unfinishedPair, active]
  · cases answer with
    | error reason => exact ret_leaves
    | ok affected =>
      simp only [ends, if_true]
      exact ite_leaves ret_leaves (bind_leaves (updateParentJobStatus_leaves _) (notify_leaves _))

/-! ## Agreement of the two ways -/

/-- On a running row of a job that is no self-upgrade the two ways of a final report come to
    the same status, retry count and retry time exactly when the row has succeeded and was
    never retried, or has failed and has no retry left. -/
theorem report_paths_agree_iff {relay : RunningHostJob} (found : db.pjh r.id = some r)
    (polled : Query.pollRow db r = some row) (relayed : Query.relayRow db r = some relay)
    (kind : row.jobKind ≠ .selfUpgrade) (ends : report.status ∈ endStatuses) :
    rowAfter cfg db report r.id (pollSingleHost row) =
        rowAfter cfg db report r.id (processEvent relay report.event) ↔
      (report.status = "succeeded" ∨ report.status = "completed") ∧ r.retryCount = 0 ∧
          r.retryNextAt = none ∨
        report.status = "failed" ∧ ¬ r.retryCount < 3 := by
  rw [pollSingleHost_rowAfter found polled kind ends]
  have viaRelay : ∀ dbStatus, dbStatus? report.status = some dbStatus → dbStatus.isTerminal = true →
      rowAfter cfg db report r.id (processEvent relay report.event) =
        some (dbStatus, r.retryCount, r.retryNextAt) := fun _ => processEvent_rowAfter found relayed
  simp only [endStatuses, List.mem_cons, List.not_mem_nil, or_false] at ends
  rcases ends with eq | eq | eq | eq
  · rw [viaRelay .succeeded (by rw [eq]; rfl) rfl]
    simp [eq, eq_comm]
  · rw [viaRelay .succeeded (by rw [eq]; rfl) rfl]
    simp [eq, eq_comm]
  · rw [viaRelay .failed (by rw [eq]; rfl) rfl]
    by_cases left : r.retryCount < 3 <;> simp [eq, afterFailure, left]
  · -- the poller retries or fails a row whose agent job was cancelled
    rw [viaRelay .cancelled (by rw [eq]; rfl) rfl]
    by_cases left : r.retryCount < 3 <;> simp [eq, afterFailure, left]

/-! ## Runs on the small installation -/

/-- A running row of a patch job, after `retryCount` retries. -/
def reportedRow (retryCount : Int) : PatchJobHost :=
  { id := 2, jobId := 1, hostId := 100, status := .running, agentJobId := some "a", retryCount }

def reportedDb (retryCount : Int) : Db where
  now := 0
  patchJobs := [{ id := 1, kind := .patchApply, status := .running, createdAt := 0 }]
  patchJobHosts := [reportedRow retryCount]
  hosts := [Small.host]

def polledRow : PatchJobHostRunning := ⟨2, "a", 1, 100, "10.0.0.1", 12443, .patchApply⟩

def relayedRow : RunningHostJob := ⟨1, 100, "a", "web1"⟩

def failure : AgentJobStatus := { jobId := "a", status := "failed" }

/-- The last failure of a row is recorded alike on both ways. -/
theorem report_paths_agree_iff_lastFailure :
    rowAfter Small.config (reportedDb 3) failure 2 (pollSingleHost polledRow) =
        rowAfter Small.config (reportedDb 3) failure 2 (processEvent relayedRow failure.event) ↔
      ("failed" = "succeeded" ∨ "failed" = "completed") ∧ (3 : Int) = 0 ∧ (none : Option Time) = none ∨
        "failed" = "failed" ∧ ¬ (3 : Int) < 3 :=
  report_paths_agree_iff (r := reportedRow 3) rfl rfl rfl nofun (by decide)

/-- A first failure leaves the row pending when it is polled and failed when it is relayed. -/
theorem report_paths_differ :
    ¬ ∀ (cfg : WorkerConfig) (db : Db) (r : PatchJobHost) (row : PatchJobHostRunning)
        (relay : RunningHostJob) (report : AgentJobStatus),
      db.pjh r.id = some r → Query.pollRow db r = some row → Query.relayRow db r = some relay →
        row.jobKind ≠ .selfUpgrade → report.status ∈ endStatuses →
          rowAfter cfg db report r.id (pollSingleHost row) =
            rowAfter cfg db report r.id (processEvent relay report.event) := by
  intro all
  have same := all Small.config (reportedDb 0) (reportedRow 0) polledRow relayedRow failure rfl rfl rfl
    nofun (by decide)
  revert same
  decide

end PatchManager
