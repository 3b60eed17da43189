import PatchManager.Conc.Among
import PatchManager.Engine.Schedule
import PatchManager.Verified.Skeleton

/-! # The sweep of overdue rows

`fail_timed_out_jobs` reads every overdue row at once and marks them failed one by one.  The
rows are decoded with `agent_job_id` as a `Uuid`, while the column is a text the agents choose:
one overdue row that has been submitted makes the whole read fail.

Main results:

* `sweep_fails`: a row that has been read is failed when the sweep is over.
* `sweep_complete_iff`: a sweep without database failures fails the overdue rows the others
  leave alone if and only if no overdue row has an agent job.
-/

namespace PatchManager

open PatchManager.Conc

/-! ## Executions without database failures -/

/-- A statement fails only when it cannot succeed: when the rows it reads cannot be decoded. -/
def execSound (w : World) : (o : Op) → o.Resp → World → Prop
  | .sql s, .error _, w' => s.run w.db = none ∧ w' = w
  | o, answer, w' => exec w o answer w'

/-- The others leave the row alone. -/
def Spares (pjhId : Uuid) (w w' : World) : Prop := w'.db.pjh pjhId = w.db.pjh pjhId

/-- The sweep from its query to its end. -/
abbrev Sweeps (cfg : WorkerConfig) (pjhId : Uuid) (w w' : World) : Prop :=
  (failTimedOutJobs cfg).Among execSound (Spares pjhId) w w' ()

theorem exec_of_execSound {w w' : World} {o : Op} {answer : o.Resp}
    (done : execSound w o answer w') : exec w o answer w' := by
  unfold execSound at done
  split at done
  · exact .inl ⟨_, rfl, done.2⟩
  · exact done

/-- A query can answer with what it evaluates to. -/
theorem execSound_select {w : World} {q : Query} {result : q.Result} (evaluates : q.eval w.db = some result) :
    execSound w (.sql (.select q)) (.ok result) w :=
  .inr ⟨result, w.db, by simp [Stmt.run, evaluates], rfl, rfl⟩

theorem execSound_updateHosts (w : World) (u : HostUpdate) :
    execSound w (.sql (.updateHosts u)) (.ok ((u.update w.db.now).affected w.db.patchJobHosts))
      { w with db := { w.db with patchJobHosts := (u.update w.db.now).apply w.db.patchJobHosts } } :=
  .inr ⟨_, _, rfl, rfl, rfl⟩

/-! ## What the sweep does to a row -/

section row

variable {pjhId : Uuid} {w w' : World} {r : PatchJobHost}

/-- A row changes by what the statement says. -/
theorem pjh_of_exec {o : Op} {answer : o.Resp} (done : exec w o answer w')
    (found : w.db.pjh pjhId = some r) :
    ∃ r', w'.db.pjh pjhId = some r' ∧
      (r' = r ∨ ∃ u, o = .sql (.updateHosts u) ∧ r' = (u.update w.db.now).onRow r) := by
  rcases exec_db done with ⟨s, result, took, ran⟩ | ⟨-, same⟩
  · refine ⟨_, Stmt.run_pjh ran found, ?_⟩
    obtain rfl : o = .sql s := by
      unfold Op.took at took
      split at took
      · cases took; rfl
      · cases took
    cases s with
    | updateHosts u => exact .inr ⟨u, rfl, rfl⟩
    | _ => exact .inl rfl
  · exact ⟨r, by rw [same]; exact found, .inl rfl⟩

/-- A row that is over stays over. -/
theorem over_of_exec {o : Op} {answer : o.Resp} (done : exec w o answer w')
    (found : w.db.pjh pjhId = some r) (ended : r.status.isTerminal = true) :
    ∃ r', w'.db.pjh pjhId = some r' ∧ r'.status.isTerminal = true := by
  obtain ⟨r', found', rfl | ⟨u, -, rfl⟩⟩ := pjh_of_exec done found
  · exact ⟨r', found', ended⟩
  · exact ⟨_, found', by rw [HostUpdate.status_of_terminal ended]; exact ended⟩

/-- The row is over. -/
def Over (pjhId : Uuid) (w : World) : Prop :=
  ∃ r, w.db.pjh pjhId = some r ∧ r.status.isTerminal = true

/-- The row is over or still running. -/
def RunningOrOver (pjhId : Uuid) (w : World) : Prop :=
  ∃ r, w.db.pjh pjhId = some r ∧ (r.status = .running ∨ r.status.isTerminal = true)

/-- Kinds of operations of a roll-up. -/
def OpKind.rollsUp : OpKind → Bool
  | .readRollUp | .rollUp | .read | .other => true
  | _ => false

/-- Rolling up leaves host rows alone. -/
theorem pjh_of_rollsUp {o : Op} {answer : o.Resp} (kind : o.kind.rollsUp = true)
    (done : exec w o answer w') (found : w.db.pjh pjhId = some r) : w'.db.pjh pjhId = some r := by
  obtain ⟨r', found', rfl | ⟨u, rfl, -⟩⟩ := pjh_of_exec done found
  · exact found'
  · cases u <;> cases kind

theorem syncJobStatus_rollsUp (jobId : Uuid) :
    (syncJobStatus jobId).Within (fun o => o.kind.rollsUp = true) (fun _ => True) fun _ => False :=
  syncJobStatus_follows
    { closed_within (fun o : Op => o.kind.rollsUp = true) (fun _ => True) fun _ => False with
      other := rfl, read := rfl }
    rfl rfl (fun _ _ _ _ => trivial) jobId

/-- Rolling up among others that leave the row alone leaves it alone. -/
theorem syncJobStatus_spares {jobId : Uuid}
    (among : (syncJobStatus jobId).Among execSound (Spares pjhId) w w' ())
    (found : w.db.pjh pjhId = some r) : w'.db.pjh pjhId = some r :=
  among.keeps (syncJobStatus_rollsUp jobId) (I := fun w => w.db.pjh pjhId = some r)
    (fun _ _ _ _ kind done => pjh_of_rollsUp kind (exec_of_execSound done))
    (fun _ _ spared found => spared.trans found) found

/-- Time passes without the row changing. -/
theorem runningOrOver_of_spares (spared : Spares pjhId w w') (state : RunningOrOver pjhId w) :
    RunningOrOver pjhId w' := by
  obtain ⟨r, found, status⟩ := state
  exact ⟨r, spared.trans found, status⟩

theorem over_of_spares (spared : Spares pjhId w w') (ended : Over pjhId w) : Over pjhId w' := by
  obtain ⟨r, found, terminal⟩ := ended
  exact ⟨r, spared.trans found, terminal⟩

/-- An `UPDATE` does not fail, and does to the row what it says. -/
theorem updateHosts_of_exec {u : HostUpdate} {answer : Op.Resp (.sql (.updateHosts u))}
    (done : execSound w (.sql (.updateHosts u)) answer w') (found : w.db.pjh pjhId = some r) :
    (∃ affected, answer = .ok affected) ∧
      w'.db.pjh pjhId = some ((u.update w.db.now).onRow r) := by
  cases answer with
  | error reason => cases done.1
  | ok affected =>
    refine ⟨⟨affected, rfl⟩, ?_⟩
    rcases done with ⟨_, fails, -⟩ | ⟨result, db, ran, -, rfl⟩
    · cases fails
    · exact Stmt.run_pjh ran found

/-- The statement that fails a row leaves others alone, and its own row over. -/
theorem setTimedOut_of_exec {id : Uuid} {errMsg : String}
    {answer : Op.Resp (.sql (.updateHosts (.setTimedOut id errMsg)))}
    (done : execSound w (.sql (.updateHosts (.setTimedOut id errMsg))) answer w')
    (state : RunningOrOver pjhId w) :
    (∃ affected, answer = .ok affected) ∧ RunningOrOver pjhId w' ∧
      (Over pjhId w ∨ id = pjhId → Over pjhId w') := by
  obtain ⟨r, found, status⟩ := state
  obtain ⟨answered, found'⟩ := updateHosts_of_exec done found
  refine ⟨answered, ?_, ?_⟩
  · by_cases met : ((HostUpdate.setTimedOut id errMsg).update w.db.now).cond r = true
    · rw [Sql.Update.onRow_eq_assign met] at found'
      exact ⟨_, found', .inr rfl⟩
    · rw [Sql.Update.onRow_eq_self (by simpa using met)] at found'
      exact ⟨r, found', status⟩
  · rintro (ended | rfl)
    · obtain ⟨r₀, found₀, terminal⟩ := ended
      exact over_of_exec (exec_of_execSound done) found₀ terminal
    · rcases status with running | terminal
      · have met : ((HostUpdate.setTimedOut id errMsg).update w.db.now).cond r = true := by
          simp [HostUpdate.update, running, (Sql.lookup_some found).2]
        rw [Sql.Update.onRow_eq_assign met] at found'
        exact ⟨_, found', rfl⟩
      · exact over_of_exec (exec_of_execSound done) found terminal

/-- A row that has been read is failed when the sweep is over. -/
theorem sweep_fails {rows : List TimedOutRow}
    (among : (failTimedOut rows).Among execSound (Spares pjhId) w w' ())
    (state : RunningOrOver pjhId w) (listed : Over pjhId w ∨ ∃ row ∈ rows, row.id = pjhId) :
    Over pjhId w' := by
  induction rows generalizing w with
  | nil =>
    obtain ⟨rfl, -⟩ := among.ret_inv
    simpa using listed
  | cons row rows ih =>
    obtain ⟨now, w₁, w₂, ⟨-, rfl⟩, spared, among⟩ := among.op_inv
    obtain ⟨answer, w₃, w₄, done, spared', among⟩ := among.op_inv
    obtain ⟨⟨affected, rfl⟩, state', over'⟩ :=
      setTimedOut_of_exec done (runningOrOver_of_spares spared state)
    have listed' : Over pjhId w₄ ∨ ∃ row ∈ rows, row.id = pjhId := by
      rcases listed with ended | ⟨row', mem, own⟩
      · exact .inl (over_of_spares spared' (over' (.inl (over_of_spares spared ended))))
      · rcases List.mem_cons.mp mem with rfl | later
        · exact .inl (over_of_spares spared' (over' (.inr own)))
        · exact .inr ⟨row', later, own⟩
    have state'' := runningOrOver_of_spares spared' state'
    have rest : (if affected > 0 then (syncJobStatus row.jobId).bind fun _ => failTimedOut rows
        else failTimedOut rows).Among execSound (Spares pjhId) w₄ w' () := among
    split at rest
    · obtain ⟨_, w₅, synced, rest⟩ := rest.bind_inv
      apply ih rest
      · obtain ⟨r, found, status⟩ := state''
        exact ⟨r, syncJobStatus_spares synced found, status⟩
      · refine listed'.imp_left ?_
        rintro ⟨r, found, terminal⟩
        exact ⟨r, syncJobStatus_spares synced found, terminal⟩
    · exact ih rest state'' listed'

end row

/-! ## When the sweep is complete -/

/-- All rows are decoded, or none is returned. -/
theorem mapM_isSome {Row Decoded : Type} (decode : Row → Option Decoded) (rows : List Row) :
    (rows.mapM decode).isSome = true ↔ ∀ r ∈ rows, (decode r).isSome = true := by
  induction rows with
  | nil => simp
  | cons r rows ih =>
    rw [List.mapM_cons, List.forall_mem_cons, ← ih]
    cases decode r with
    | none => simp
    | some d => cases rows.mapM decode <;> simp

/-- Every row has been decoded. -/
theorem exists_decoded {Row Decoded : Type} {decode : Row → Option Decoded} {rows : List Row}
    {decoded : List Decoded} (read : rows.mapM decode = some decoded) {r : Row} (mem : r ∈ rows) :
    ∃ d ∈ decoded, decode r = some d := by
  induction rows generalizing decoded with
  | nil => cases mem
  | cons r₀ rows ih =>
    simp only [List.mapM_cons, bind, Option.bind_eq_some_iff, pure, Option.some.injEq] at read
    obtain ⟨d₀, head, rest, tail, rfl⟩ := read
    rcases List.mem_cons.mp mem with rfl | later
    · exact ⟨d₀, List.mem_cons_self, head⟩
    · obtain ⟨d, mem', eq⟩ := ih tail later
      exact ⟨d, List.mem_cons_of_mem _ mem', eq⟩

/-- An overdue row is decoded unless an agent job is stored in it. -/
theorem timedOutRow_isSome {db : Db} {timeoutSecs : Nat} {r : PatchJobHost}
    (overdue : db.overdue timeoutSecs r = true) :
    (Query.timedOutRow r).isSome = true ↔ r.agentJobId = none := by
  simp only [Db.overdue, Bool.and_eq_true, Option.any_eq_true] at overdue
  obtain ⟨-, startedAt, started, -⟩ := overdue
  cases stored : r.agentJobId <;> simp [Query.timedOutRow, started, stored]

/-- The overdue rows can be read exactly when none of them has an agent job. -/
theorem timedOut_reads (db : Db) (timeoutSecs : Nat) :
    ((Query.timedOut timeoutSecs).eval db).isSome = true ↔
      ∀ r ∈ db.patchJobHosts, db.overdue timeoutSecs r = true → r.agentJobId = none := by
  apply (mapM_isSome Query.timedOutRow _).trans
  simp only [List.mem_filter, and_imp]
  exact forall_congr' fun r => forall_congr' fun _ => forall_congr' timedOutRow_isSome

section complete

variable {cfg : WorkerConfig} {pjhId : Uuid} {w w' : World} {r : PatchJobHost}

theorem sweep_complete (found : w.db.pjh pjhId = some r) (enabled : 0 < cfg.jobTimeoutSecs)
    (overdue : w.db.overdue cfg.jobTimeoutSecs r = true) (sweeps : Sweeps cfg pjhId w w') :
    (∃ r', w'.db.pjh pjhId = some r' ∧ r'.status ≠ .running) ↔
      ((Query.timedOut cfg.jobTimeoutSecs).eval w.db).isSome = true := by
  have running : r.status = .running := by
    simp only [Db.overdue, Bool.and_eq_true, beq_iff_eq] at overdue
    exact overdue.1.1
  rw [Sweeps, failTimedOutJobs, if_neg (by omega)] at sweeps
  obtain ⟨answer, w₁, w₂, done, spared, rest⟩ := sweeps.op_inv
  cases answer with
  | error reason =>
    -- the read fails because it cannot succeed, and the sweep ends there
    obtain ⟨fails, rfl⟩ := done
    obtain ⟨rfl, -⟩ := rest.ret_inv
    have unread : (Query.timedOut cfg.jobTimeoutSecs).eval w₁.db = none := by
      simpa [Stmt.run] using fails
    constructor
    · rintro ⟨r', found', stopped⟩
      obtain rfl : r = r' := Option.some.inj ((spared.trans found).symm.trans found')
      exact absurd running stopped
    · intro read
      rw [unread] at read
      cases read
  | ok rows =>
    obtain ⟨read, rfl⟩ := exec_select (exec_of_execSound done)
    obtain ⟨row, listed, decoded⟩ := exists_decoded read
      (List.mem_filter.mpr ⟨(Sql.lookup_some found).1, overdue⟩)
    have own : row.id = pjhId := by
      simp only [Query.timedOutRow, bind, Option.bind_eq_some_iff] at decoded
      obtain ⟨startedAt, -, _, -, eq⟩ := decoded
      cases eq
      exact (Sql.lookup_some found).2
    obtain ⟨r', found', terminal⟩ :=
      sweep_fails rest ⟨r, spared.trans found, .inl running⟩ (.inr ⟨row, listed, own⟩)
    refine iff_of_true ⟨r', found', ?_⟩ (by rw [read]; rfl)
    intro stillRunning
    rw [stillRunning] at terminal
    cases terminal

/-- A sweep without database failures fails an overdue row that the others leave alone if and
    only if no overdue row has an agent job. -/
theorem sweep_complete_iff (found : w.db.pjh pjhId = some r) (enabled : 0 < cfg.jobTimeoutSecs)
    (overdue : w.db.overdue cfg.jobTimeoutSecs r = true) (sweeps : Sweeps cfg pjhId w w') :
    (∃ r', w'.db.pjh pjhId = some r' ∧ r'.status ≠ .running) ↔
      ∀ r' ∈ w.db.patchJobHosts,
        w.db.overdue cfg.jobTimeoutSecs r' = true → r'.agentJobId = none :=
  (sweep_complete found enabled overdue sweeps).trans (timedOut_reads _ _)

end complete

/-! ## A row that is never failed -/

def timeoutConfig : WorkerConfig := { Small.config with jobTimeoutSecs := 1800 }

/-- A row that was submitted two hours ago. -/
def lostRow : PatchJobHost where
  id := 2
  jobId := 1
  hostId := 100
  status := .running
  agentJobId := some "3f2b9c1e-7d5a-4e88-9a43-0c1d2e3f4a5b"
  startedAt := some 0

def lostWorld : World where
  db :=
    { now := 7200 * microsPerSecond
      patchJobs := [{ id := 1, kind := .patchApply, status := .running, createdAt := 0 }]
      patchJobHosts := [lostRow]
      hosts := [Small.host] }

theorem lostRow_overdue : lostWorld.db.overdue timeoutConfig.jobTimeoutSecs lostRow = true := by
  decide +kernel

/-- The read fails, although the text is that of a `Uuid`. -/
theorem lostWorld_sweeps : Sweeps timeoutConfig 2 lostWorld lostWorld :=
  .op (show execSound lostWorld (.sql (.select (.timedOut 1800)))
    (.error "mismatched types") lostWorld from ⟨by decide +kernel, rfl⟩) rfl .ret

theorem sweep_complete_iff_lostRow :
    (∃ r', lostWorld.db.pjh 2 = some r' ∧ r'.status ≠ .running) ↔
      ∀ r' ∈ lostWorld.db.patchJobHosts,
        lostWorld.db.overdue timeoutConfig.jobTimeoutSecs r' = true → r'.agentJobId = none :=
  sweep_complete_iff (r := lostRow) rfl (by decide) lostRow_overdue lostWorld_sweeps

/-- The row is still running when the sweep is over. -/
theorem lostRow_not_failed :
    ¬ ∀ (cfg : WorkerConfig) (pjhId : Uuid) (w w' : World) (r : PatchJobHost),
      w.db.pjh pjhId = some r → 0 < cfg.jobTimeoutSecs →
        w.db.overdue cfg.jobTimeoutSecs r = true → Sweeps cfg pjhId w w' →
          ∃ r', w'.db.pjh pjhId = some r' ∧ r'.status ≠ .running := by
  intro all
  obtain ⟨r', found, stopped⟩ := all timeoutConfig 2 lostWorld lostWorld lostRow rfl (by decide)
    lostRow_overdue lostWorld_sweeps
  cases found
  exact stopped rfl

end PatchManager
