import PatchManager.Engine.Keys
import PatchManager.Engine.Schedule
import PatchManager.Verified.AtMostOnce
import PatchManager.Verified.Skeleton
import PatchManager.Verified.TimeoutSweep

/-! # The timeout of an attempt

`fail_timed_out_jobs` measures how long a row has been running by `started_at`.  The column is
set by the execution that marks the row running, but only where it is still empty, and nothing
empties it when the row is tried again: a later attempt is measured from the first one on.

Main results:

* `run_startedAt`: a start time stays as it is.
* `timeout_per_attempt`: in a run in which the sweep meets rows only in the attempt that set
  their start time, every attempt it fails has been running longer than the limit.
* `retry_failed_at_once`: a retried attempt is failed in the moment it begins.
-/

namespace PatchManager

open PatchManager.Conc

variable {cfg : WorkerConfig} {s t : State} {h h₁ h₂ : List (Event World Op Op.Resp Fn)}
  {e : Event World Op Op.Resp Fn} {pjhId : Uuid}

/-! ## Attempts -/

/-- The step that began the attempt the row is in: the last at which an execution marked it
    running. -/
def attemptBegin (pjhId : Uuid) (h : List (Event World Op Op.Resp Fn)) :
    Option (Event World Op Op.Resp Fn) :=
  (h.filter fun e => marks pjhId e.label).getLast?

/-- The row had no start time before the step and has one after it. -/
def SetsStart (pjhId : Uuid) (e : Event World Op Op.Resp Fn) : Prop :=
  ((e.pre.world.db.pjh pjhId).any fun r => r.startedAt.isNone) = true ∧
    ((e.post.world.db.pjh pjhId).any fun r => r.startedAt.isSome) = true

/-- The periodic scan, sweeping, marks the running row failed. -/
def SweepFails (pjhId : Uuid) (e : Event World Op Op.Resp Fn) : Prop :=
  (∃ tid errMsg, ∃ affected : Nat,
    e.label = .op tid (.sql (.updateHosts (.setTimedOut pjhId errMsg))) (.ok affected) ∧
      (e.pre.tasks[tid]?).map Task.root = some .periodicScan) ∧
    ((e.pre.world.db.pjh pjhId).any fun r => r.status == .running) = true

/-- An attempt that the step fails has been running longer than the limit. -/
def TimesOutAttempt (cfg : WorkerConfig) (h₁ : List (Event World Op Op.Resp Fn))
    (e : Event World Op Op.Resp Fn) : Prop :=
  ∀ pjhId, SweepFails pjhId e → ∃ b, attemptBegin pjhId h₁ = some b ∧
    b.pre.world.db.now + cfg.jobTimeoutSecs * microsPerSecond < e.pre.world.db.now

/-- A row that the step fails is in the attempt that set its start time. -/
def InFirstAttempt (h₁ : List (Event World Op Op.Resp Fn)) (e : Event World Op Op.Resp Fn) : Prop :=
  ∀ pjhId, SweepFails pjhId e → ∃ b, attemptBegin pjhId h₁ = some b ∧ SetsStart pjhId b

theorem attemptBegin_mem {b : Event World Op Op.Resp Fn} (begun : attemptBegin pjhId h = some b) :
    b ∈ h ∧ marks pjhId b.label = true :=
  List.mem_filter.mp (List.mem_of_getLast? begun)

/-! ## Start times -/

theorem HostUpdate.startedAt_onRow {u : HostUpdate} {now start : Time} {r : PatchJobHost}
    (started : r.startedAt = some start) : ((u.update now).onRow r).startedAt = some start := by
  by_cases met : (u.update now).cond r = true
  · rw [Sql.Update.onRow_eq_assign met]
    cases u <;> simp [update, started]
  · rw [Sql.Update.onRow_eq_self (by simpa using met)]
    exact started

theorem startedAt_step {l : Label Op Op.Resp Fn} {now start : Time} {r : PatchJobHost}
    (started : r.startedAt = some start) : (hostEffect now l r).startedAt = some start := by
  unfold hostEffect
  split
  · rename_i st took
    cases st with
    | updateHosts u => exact HostUpdate.startedAt_onRow started
    | _ => exact started
  · exact started

/-- A start time stays as it is. -/
theorem run_startedAt {start : Time} (run : Run (engine cfg) s h t)
    (started : ∃ r, s.world.db.pjh pjhId = some r ∧ r.startedAt = some start) :
    ∃ r, t.world.db.pjh pjhId = some r ∧ r.startedAt = some start := by
  apply run.preserves
    (I := fun s => ∃ r, s.world.db.pjh pjhId = some r ∧ r.startedAt = some start) _ started
  rintro e - step ⟨r, found, same⟩
  exact ⟨_, step_pjh step found, startedAt_step same⟩

theorem run_clock (run : Run (engine cfg) s h t) : s.world.db.now ≤ t.world.db.now :=
  run.preserves (I := fun u => s.world.db.now ≤ u.world.db.now)
    (fun _ _ step before => le_trans before (step_clock step)) le_rfl

/-- Where there was no start time, a statement leaves none or sets the present. -/
theorem HostUpdate.starts_onRow {u : HostUpdate} {now : Time} {r : PatchJobHost}
    (blank : r.startedAt = none) :
    ((u.update now).onRow r).startedAt = none ∨ ((u.update now).onRow r).startedAt = some now := by
  by_cases met : (u.update now).cond r = true
  · rw [Sql.Update.onRow_eq_assign met]
    cases u with
    | markRunning => exact .inr (by simp [update, blank])
    | _ => exact .inl blank
  · rw [Sql.Update.onRow_eq_self (by simpa using met)]
    exact .inl blank

theorem starts_step {l : Label Op Op.Resp Fn} {now : Time} {r : PatchJobHost}
    (blank : r.startedAt = none) :
    (hostEffect now l r).startedAt = none ∨ (hostEffect now l r).startedAt = some now := by
  unfold hostEffect
  split
  · rename_i st took
    cases st with
    | updateHosts u => exact HostUpdate.starts_onRow blank
    | _ => exact .inl blank
  · exact .inl blank

/-- A step that sets a start time sets it to the present. -/
theorem startedAt_of_setsStart (step : Step (engine cfg) e.pre e.label e.post)
    (sets : SetsStart pjhId e) :
    ∃ r, e.post.world.db.pjh pjhId = some r ∧ r.startedAt = some e.pre.world.db.now := by
  obtain ⟨r, found, blank⟩ := (Option.any_eq_true _ _).mp sets.1
  obtain ⟨r', found', started⟩ := (Option.any_eq_true _ _).mp sets.2
  obtain rfl := Option.some.inj (found'.symm.trans (step_pjh step found))
  refine ⟨_, found', ?_⟩
  rcases starts_step (Option.isNone_iff_eq_none.mp blank) with none | present
  · rw [none] at started
    cases started
  · exact present

/-! ## What a sweep has read -/

/-- The rows a sweep is to fail. -/
def Op.sweepRows (cfg : WorkerConfig) : (o : Op) → o.Resp → List Uuid
  | .sql (.select (.timedOut timeoutSecs)), .ok rows =>
    if timeoutSecs = cfg.jobTimeoutSecs then rows.map TimedOutRow.id else []
  | _, _ => []

def Op.timesOut? : Op → Option Uuid
  | .sql (.updateHosts (.setTimedOut pjhId _)) => some pjhId
  | _ => none

/-- Whether the task is a periodic scan, and the rows it has read to fail them. -/
structure Sweeping where
  scans : Bool := false
  listed : List Uuid := []

/-- A scan fails only rows it has read. -/
def sweepContract (cfg : WorkerConfig) : Contract Op Op.Resp Fn where
  State := Sweeping
  idle := {}
  init f :=
    match f with
    | .periodicScan => { scans := true }
    | _ => {}
  next σ o answer := { σ with listed := o.sweepRows cfg answer ++ σ.listed }
  rely _ _ := True
  guar σ o := σ.scans = true → ∀ pjhId, o.timesOut? = some pjhId → pjhId ∈ σ.listed
  start _ _ := True
  tail σ _ := σ.scans = false
  exit _ := True

/-- The contract says nothing about other tasks. -/
theorem sweeps_of_other {σ : Sweeping} (other : σ.scans = false) (p : Proc Unit) :
    p.Along (sweepContract cfg) (fun _ _ => True) σ := by
  induction p generalizing σ with
  | ret value => trivial
  | op o next ih =>
    refine ⟨fun scans => ?_, fun r _ => ih r other⟩
    rw [other] at scans
    cases scans
  | spawn f next ih => exact ⟨trivial, ih other⟩
  | jump f => exact other

/-- A part of a scan, begun when it has read what is in `σ`, has read that when it is over. -/
abbrev KeepsListed (cfg : WorkerConfig) {α : Type} (p : Proc α) : Prop :=
  ∀ σ : Sweeping, p.Along (sweepContract cfg) (fun τ _ => ∀ id ∈ σ.listed, id ∈ τ.listed) σ

def OpKind.timesOutNone : OpKind → Bool
  | .setTimedOut => false
  | _ => true

theorem timesOut_of_kind {o : Op} (quiet : o.kind.timesOutNone = true) : o.timesOut? = none := by
  unfold Op.timesOut?
  split
  · cases quiet
  · rfl

theorem follows_keepsListed : Follows (fun {_} p => KeepsListed cfg p) OpKind.timesOutNone
    (fun _ => True) fun _ => False where
  ret _ σ := fun _ => id
  op kind rest σ := by
    refine ⟨fun _ pjhId eq => ?_, fun r _ => (rest r _).weaken fun τ _ kept id mem => ?_⟩
    · rw [timesOut_of_kind kind] at eq
      cases eq
    · exact kept id (List.mem_append_right _ mem)
  spawn _ rest σ := ⟨trivial, rest σ⟩
  jump none := none.elim
  bind first second σ :=
    (first σ).bind fun τ a kept => (second a τ).weaken fun _ _ kept' id mem => kept' id (kept id mem)
  other := rfl
  read := rfl

theorem failTimedOut_sweeps {rows : List TimedOutRow} {σ : Sweeping}
    (read : ∀ row ∈ rows, row.id ∈ σ.listed) :
    (failTimedOut rows).Along (sweepContract cfg) (fun _ _ => True) σ := by
  have sync : ∀ jobId, KeepsListed cfg (syncJobStatus jobId) :=
    syncJobStatus_follows follows_keepsListed rfl rfl fun _ _ _ _ => trivial
  induction rows generalizing σ with
  | nil => trivial
  | cons row rest ih =>
    have others : ∀ row ∈ rest, row.id ∈ σ.listed := fun row' mem =>
      read row' (List.mem_cons_of_mem _ mem)
    refine ⟨nofun, fun now _ => ⟨fun _ pjhId eq => ?_, fun answer _ => ?_⟩⟩
    · cases eq
      exact read row List.mem_cons_self
    · cases answer with
      | error reason => exact ih others
      | ok affected =>
        change (if affected > 0 then (syncJobStatus row.jobId).bind fun _ => failTimedOut rest
          else failTimedOut rest).Along (sweepContract cfg) (fun _ _ => True) _
        split
        · exact (sync row.jobId _).bind fun τ _ kept => ih fun row mem => kept _ (others row mem)
        · exact ih others

/-- The sweep of a scan fails the rows it reads. -/
theorem failTimedOutJobs_sweeps (σ : Sweeping) :
    (failTimedOutJobs cfg).Along (sweepContract cfg) (fun _ _ => True) σ := by
  unfold failTimedOutJobs
  split
  · trivial
  · refine ⟨nofun, fun answer _ => ?_⟩
    cases answer with
    | error reason => trivial
    | ok rows =>
      apply failTimedOut_sweeps
      intro row mem
      apply List.mem_append_left
      simpa [Op.sweepRows] using ⟨row, mem, rfl⟩

theorem engine_sweeps (cfg : WorkerConfig) : (engine cfg).Keeps (sweepContract cfg) where
  starts σ f _ := by
    cases f with
    | periodicScan =>
      have C : Follows (fun {_} p => KeepsListed cfg p) OpKind.timesOutNone (fun _ => True) fun _ => False :=
        follows_keepsListed
      have scans : KeepsListed cfg scanQueuedJobs := scanQueuedJobs_follows C fun _ => trivial
      have polls : KeepsListed cfg pollRunningJobs := pollRunningJobs_follows C rfl fun _ => trivial
      have retries : KeepsListed cfg retryPendingJobs :=
        retryPendingJobs_follows C rfl rfl fun _ _ _ => trivial
      exact (scans _).bind fun _ _ _ => (polls _).bind fun _ _ _ => (retries _).bind fun _ _ _ =>
        failTimedOutJobs_sweeps _
    | _ => exact sweeps_of_other rfl _
  tails σ f other := sweeps_of_other other _
  idle := trivial

theorem listed_heard {σ : Sweeping} {l : List (Exchange Op Op.Resp)}
    (mem : pjhId ∈ ((sweepContract cfg).heard σ l).listed) :
    pjhId ∈ σ.listed ∨ ∃ x ∈ l, pjhId ∈ x.1.sweepRows cfg x.2 := by
  induction l generalizing σ with
  | nil => exact .inl mem
  | cons x l ih =>
    rcases ih (σ := (sweepContract cfg).next σ x.1 x.2) mem with before | ⟨y, later, read⟩
    · rcases List.mem_append.mp before with now | old
      · exact .inr ⟨x, List.mem_cons_self, now⟩
      · exact .inl old
    · exact .inr ⟨y, List.mem_cons_of_mem _ later, read⟩

theorem scans_heard {σ : Sweeping} {l : List (Exchange Op Op.Resp)} :
    ((sweepContract cfg).heard σ l).scans = σ.scans := by
  induction l generalizing σ with
  | nil => rfl
  | cons x l ih => exact ih (σ := (sweepContract cfg).next σ x.1 x.2)

/-- The rows of a sweep are those its query has returned: overdue rows. -/
theorem overdue_of_sweepRows (run : Run (engine cfg) s h t) (initial : Initial s) {tid : Nat}
    {o : Op} {answer : o.Resp} (mem : ⟨o, answer⟩ ∈ exchanges tid h)
    (read : pjhId ∈ o.sweepRows cfg answer) :
    ∃ q ∈ h, ∃ r, q.pre.world.db.pjh pjhId = some r ∧
      q.pre.world.db.overdue cfg.jobTimeoutSecs r = true := by
  obtain ⟨before, q, after, rfl, label⟩ := exists_event_of_mem mem
  obtain ⟨upTo, step, -⟩ := run.split_event
  refine ⟨q, by simp, ?_⟩
  unfold Op.sweepRows at read
  split at read
  · rename_i timeoutSecs rows
    split at read
    · rename_i same
      subst same
      obtain ⟨row, listed, rfl⟩ := List.mem_map.mp read
      rw [label] at step
      obtain ⟨_, _, w, -, done, -⟩ := step.op_inv
      have returned := exec_select (show exec q.pre.world
        (.sql (.select (.timedOut cfg.jobTimeoutSecs))) (.ok rows) w from done)
      obtain ⟨r, found, decoded⟩ := Sql.mem_of_mapM returned.1 listed
      obtain ⟨stored, overdue⟩ := List.mem_filter.mp found
      have own : row.id = r.id := by
        simp only [Query.timedOutRow, bind, Option.bind_eq_some_iff] at decoded
        obtain ⟨startedAt, -, _, -, eq⟩ := decoded
        cases eq
        rfl
      exact ⟨r, by rw [own]; exact (run_keys upTo initial).pjh_eq stored, overdue⟩
    · cases read
  · cases read

/-- A row that a sweep fails is one it has read before. -/
theorem read_of_sweepFails (run : Run (engine cfg) s h t) (initial : Initial s)
    (split : h = h₁ ++ e :: h₂) (fails : SweepFails pjhId e) :
    ∃ q ∈ h₁, ∃ r, q.pre.world.db.pjh pjhId = some r ∧
      q.pre.world.db.overdue cfg.jobTimeoutSecs r = true := by
  obtain ⟨⟨tid, errMsg, affected, label, root⟩, -⟩ := fails
  subst split
  obtain ⟨before, step, -⟩ := run.split_event
  have relies : ∀ e' ∈ h₁ ++ e :: h₂, (sweepContract cfg).Relies e'.label := fun e' _ => by
    cases e'.label <;> trivial
  have permitted := (run.guarantees (engine_sweeps cfg) relies (Sys.along_of_empty initial.tasks)).2 h₁ e h₂ rfl
  rw [label] at permitted step
  obtain ⟨own, next, w, at_, -⟩ := step.op_inv
  obtain rfl : own = .periodicScan := by
    rw [at_] at root
    exact Option.some.inj root
  -- what the task has read is among its exchanges
  have ghost := before.ghost_exchanges (C := sweepContract cfg) initial.tasks at_ nofun
  have listed := show ((engine cfg).ghost (sweepContract cfg) h₁ tid).scans = true → _ from permitted
  rw [ghost] at listed
  rcases listed_heard (listed scans_heard pjhId rfl) with none | ⟨x, mem, read⟩
  · cases none
  · exact overdue_of_sweepRows before initial mem read

/-! ## The timeout -/

/-- A row that is failed in the attempt that set its start time has been in it for longer than
    the limit. -/
theorem timeout_of_first_attempt (run : Run (engine cfg) s h t) (initial : Initial s)
    (split : h = h₁ ++ e :: h₂) (fails : SweepFails pjhId e) {b : Event World Op Op.Resp Fn}
    (mem : b ∈ h₁) (sets : SetsStart pjhId b) :
    b.pre.world.db.now + cfg.jobTimeoutSecs * microsPerSecond < e.pre.world.db.now := by
  obtain ⟨q, read, r, found, overdue⟩ := read_of_sweepFails run initial split fails
  simp only [Db.overdue, Bool.and_eq_true, Option.any_eq_true, decide_eq_true_eq] at overdue
  obtain ⟨-, start, started, early⟩ := overdue
  subst split
  obtain ⟨upTo, -, -⟩ := run.split_event
  -- both the read and the mark see the one start time the row ever has
  obtain ⟨q₁, q₂, rfl⟩ := List.append_of_mem read
  obtain ⟨-, stepRead, afterRead⟩ := upTo.split_event
  obtain ⟨r₁, now₁, started₁⟩ := run_startedAt (.cons stepRead afterRead) ⟨r, found, started⟩
  obtain ⟨b₁, b₂, eq⟩ := List.append_of_mem mem
  rw [eq] at upTo
  obtain ⟨-, stepMark, afterMark⟩ := upTo.split_event
  obtain ⟨r₂, now₂, started₂⟩ := run_startedAt afterMark (startedAt_of_setsStart stepMark sets)
  obtain rfl := Option.some.inj (now₁.symm.trans now₂)
  have same : start = b.pre.world.db.now := Option.some.inj (started₁.symm.trans started₂)
  have later := run_clock (.cons stepRead afterRead)
  rw [← same]
  exact lt_of_lt_of_le (lt_sub_iff_add_lt.mp early) later

/-- In a run in which the sweep meets rows only in the attempt that set their start time, every
    attempt it fails has been running longer than the limit. -/
theorem timeout_per_attempt (run : Run (engine cfg) s h t) (initial : Initial s)
    (first : ∀ h₁ e h₂, h = h₁ ++ e :: h₂ → InFirstAttempt h₁ e) :
    ∀ h₁ e h₂, h = h₁ ++ e :: h₂ → TimesOutAttempt cfg h₁ e := by
  intro h₁ e h₂ split pjhId fails
  obtain ⟨b, begun, sets⟩ := first h₁ e h₂ split pjhId fails
  exact ⟨b, begun, timeout_of_first_attempt run initial split fails (attemptBegin_mem begun).1 sets⟩

/-! ## Sweeps on the small installation -/

abbrev timedPlayer : Player (engine timeoutConfig) := enginePlayer timeoutConfig

/-- The task takes `n` steps that all go well. -/
def goes (tid n : Nat) : List (Move timedPlayer) := List.replicate n (.run tid .ok)

/-- Task 2 executes the row of the immediate job and marks it running. -/
def marksRunning : List (Move timedPlayer) :=
  .call (.createJob Small.user Small.immediateJob) :: goes 0 3 ++
    .call (.processJob 1) :: goes 1 5 ++ goes 2 6

/-- Two hours later the scan, task 3, sweeps. -/
def sweptLate : List (Move timedPlayer) :=
  marksRunning ++ .change (show Nat from 7200000000) :: .call .periodicScan :: goes 3 6

/-- The submission is refused; two hours later the scan, task 3, starts the retry, task 4,
    which marks the row running; then the scan sweeps. -/
def sweptRetry : List (Move timedPlayer) :=
  marksRunning ++ goes 2 1 ++ .run 2 .fail :: goes 2 4 ++
    .change (show Nat from 7200000000) :: .call .periodicScan :: goes 3 5 ++ goes 4 6 ++ goes 3 3

instance : Decidable (SetsStart pjhId e) := inferInstanceAs (Decidable (_ ∧ _))

/-- What `InFirstAttempt` asks of an event after `before`. -/
def inFirstAttemptAt (before : List (Event World Op Op.Resp Fn)) (e : Event World Op Op.Resp Fn) :
    Bool :=
  match e.label with
  | .op _ o _ => o.timesOut?.all fun pjhId =>
    (attemptBegin pjhId before).any fun b => decide (SetsStart pjhId b)
  | _ => true

theorem inFirstAttempt_of_checks (checks : checksAll inFirstAttemptAt h = true) :
    ∀ h₁ e h₂, h = h₁ ++ e :: h₂ → InFirstAttempt h₁ e := by
  rintro h₁ e h₂ split pjhId ⟨⟨tid, errMsg, affected, label, -⟩, -⟩
  have ok := test_of_checksAll checks split
  simp only [inFirstAttemptAt, label, Op.timesOut?, Option.all_some] at ok
  obtain ⟨b, begun, sets⟩ := (Option.any_eq_true _ _).mp ok
  exact ⟨b, begun, of_decide_eq_true sets⟩

/-- `SweepFails`, as a test. -/
def sweepFailsAt (pjhId : Uuid) (e : Event World Op Op.Resp Fn) : Bool :=
  (match e.label with
    | .op tid (.sql (.updateHosts (.setTimedOut id _))) (.ok _) =>
      id == pjhId && match e.pre.tasks[tid]? with
        | some ⟨.periodicScan, _⟩ => true
        | _ => false
    | _ => false) &&
    (e.pre.world.db.pjh pjhId).any fun r => r.status == .running

theorem sweepFails_of_checks (checks : sweepFailsAt pjhId e = true) : SweepFails pjhId e := by
  obtain ⟨label, running⟩ := Bool.and_eq_true_iff.mp checks
  refine ⟨?_, running⟩
  split at label
  · rename_i tid id errMsg affected eq
    simp only [Bool.and_eq_true, beq_iff_eq] at label
    obtain ⟨rfl, root⟩ := label
    refine ⟨tid, errMsg, affected, eq, ?_⟩
    split at root
    · rename_i at_
      rw [at_]
      rfl
    · cases root
  · cases label

/-- A history around one of its events, by position. -/
theorem split_at {l : List (Event World Op Op.Resp Fn)} {n : Nat} (at_ : l[n]? = some e) :
    l = l.take n ++ e :: l.drop (n + 1) := by
  obtain ⟨inside, value⟩ := List.getElem?_eq_some_iff.mp at_
  have split := List.take_append_drop n l
  rw [List.drop_eq_getElem_cons inside, value] at split
  exact split.symm

theorem timeout_per_attempt_sweptLate :
    ∃ h₁ e h₂, timedPlayer.history Small.start sweptLate = h₁ ++ e :: h₂ ∧ SweepFails 2 e ∧
      TimesOutAttempt timeoutConfig h₁ e := by
  have plays : (timedPlayer.play Small.start sweptLate).isSome = true := by decide +kernel
  obtain ⟨e, at_, fails⟩ := (Option.any_eq_true _ _).mp (show
    ((timedPlayer.history Small.start sweptLate)[23]?).any (sweepFailsAt 2) = true by decide +kernel)
  exact ⟨_, e, _, split_at at_, sweepFails_of_checks fails, timeout_per_attempt (timedPlayer.run_of_play plays)
    Small.start_initial (inFirstAttempt_of_checks (by decide +kernel)) _ e _ (split_at at_)⟩

/-- A retried attempt is failed in the moment it begins. -/
theorem retry_failed_at_once :
    ¬ ∀ (cfg : WorkerConfig) (s t : State) (h : List (Event World Op Op.Resp Fn)),
      Initial s → Run (engine cfg) s h t →
        ∀ h₁ e h₂, h = h₁ ++ e :: h₂ → TimesOutAttempt cfg h₁ e := by
  intro all
  have plays : (timedPlayer.play Small.start sweptRetry).isSome = true := by decide +kernel
  obtain ⟨e, at_, last⟩ := (Option.any_eq_true _ _).mp (show
    ((timedPlayer.history Small.start sweptRetry)[37]?).any (fun e => sweepFailsAt 2 e &&
      (attemptBegin 2 ((timedPlayer.history Small.start sweptRetry).take 37)).all fun b =>
        b.pre.world.db.now == e.pre.world.db.now) = true by decide +kernel)
  obtain ⟨fails, present⟩ := Bool.and_eq_true_iff.mp last
  obtain ⟨b, begun, late⟩ := all _ _ _ _ Small.start_initial (timedPlayer.run_of_play plays) _ e _
    (split_at at_) 2 (sweepFails_of_checks fails)
  rw [begun, Option.all_some, beq_iff_eq] at present
  rw [present] at late
  exact absurd late (not_lt.mpr (le_add_of_nonneg_right (by decide)))

end PatchManager
