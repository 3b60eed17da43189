import PatchManager.Engine.Keys
import PatchManager.Verified.ParentAgreement
import PatchManager.Verified.Skeleton

/-! # Creating jobs

`create_job`, `rollback_job` and `trigger_upgrade` insert a job and its host rows by one
statement each, so a failure on the way leaves a part of the job behind, and the worker can
dispatch and finish that part before the rest is there.  `auto_create_patch_jobs` inserts its
job and host row in one statement.

Main result: `creation_atomic`, atomicity in the runs in which no insert of a request fails
after its job is there and no roll-up or cancellation sees a job that is not whole.
-/

namespace PatchManager

open PatchManager.Conc

variable {cfg : WorkerConfig} {s t : State} {h h₁ h₂ : List (Event World Op Op.Resp Fn)}
  {e : Event World Op Op.Resp Fn} {jobId : Uuid} {hosts : List Uuid}

/-! ## The jobs of a request -/

/-- The job an exchange has inserted. -/
def insertedJob? : Exchange Op Op.Resp → Option Uuid
  | ⟨.sql (.insertJob _), .ok jobId⟩ => some jobId
  | _ => none

/-- The hosts an exchange has read to be copied into another job. -/
def readHosts? : Exchange Op Op.Resp → Option (List Uuid)
  | ⟨.sql (.select (.jobHostIds _)), .ok hostIds⟩ => some hostIds
  | _ => none

/-- The hosts of the job a request inserts next, after the exchanges so far. -/
def Fn.plannedHosts (answers : Exchanges) : Fn → Option (List Uuid)
  | createJob _ req => some req.hostIds
  | rollbackJob _ _ => (answers.filterMap readHosts?).getLast?
  | insertUpgradeJobs _ _ _ groups _ =>
    groups[(answers.filterMap insertedJob?).length]?.map Prod.snd
  | _ => none

/-- The job an event inserts for a request, with the hosts it is for. -/
def creation? (before : List (Event World Op Op.Resp Fn)) (e : Event World Op Op.Resp Fn) :
    Option (Uuid × List Uuid) :=
  match e.label with
  | .op tid (.sql (.insertJob _)) (.ok jobId) =>
    (e.pre.tasks[tid]?).bind fun task =>
      (task.root.plannedHosts (exchanges tid before)).map fun hosts => (jobId, hosts)
  | _ => none

/-- A request for these hosts has inserted the job. -/
def Creates (jobId : Uuid) (hosts : List Uuid) (h : List (Event World Op Op.Resp Fn)) : Prop :=
  Occurs (fun before e => creation? before e = some (jobId, hosts)) h

/-- The handler of the request has returned this answer. -/
def Fn.Answers (answers : Exchanges) (answer : Except ApiError Uuid) : Fn → Prop
  | createJob auth req => (PatchManager.createJob auth req).Returns answers answer
  | rollbackJob auth id => (PatchManager.rollbackJob auth id).Returns answers answer
  | insertUpgradeJobs auth immediate window groups skipped =>
    (PatchManager.insertUpgradeJobs auth immediate window groups skipped).Returns answers answer
  | _ => False

/-! ## Atomicity -/

/-- The job or one of its rows is unfinished, so that it can still be dispatched. -/
def Dispatchable (db : Db) (jobId : Uuid) : Prop :=
  (∃ j, db.job jobId = some j ∧ j.status.isTerminal = false) ∨
    ∃ r ∈ db.hostsOf jobId, r.status.isTerminal = false

/-- Every host has its row of the job. -/
def AllInserted (db : Db) (jobId : Uuid) (hosts : List Uuid) : Prop :=
  ∀ hostId ∈ hosts, ∃ r ∈ db.patchJobHosts, r.jobId = jobId ∧ r.hostId = hostId

/-- The job has all the rows it was requested with. -/
def Whole (h : List (Event World Op Op.Resp Fn)) (db : Db) (jobId : Uuid) : Prop :=
  ∀ hosts, Creates jobId hosts h → AllInserted db jobId hosts

structure CreationAtomic (cfg : WorkerConfig) (s : State) (h : List (Event World Op Op.Resp Fn)) :
    Prop where
  /-- a request that returns an error leaves nothing to dispatch -/
  undone : ∀ h₁ u tid task error, h₁ <+: h → Run (engine cfg) s h₁ u → u.tasks[tid]? = some task →
    task.root.Answers (exchanges tid h₁) (.error error) →
      ∀ jobId ∈ (exchanges tid h₁).filterMap insertedJob?, ¬ Dispatchable u.world.db jobId
  /-- a finished job has all its rows -/
  whole : ∀ h₁ u jobId, h₁ <+: h → Run (engine cfg) s h₁ u →
    u.world.db.jobFinished jobId = true → Whole h₁ u.world.db jobId

/-! ## The condition -/

/-- The two `INSERT`s of the request handlers. -/
def Stmt.inserts : Stmt → Bool
  | insertJob _ | insertJobHost _ _ => true
  | _ => false

/-- The job that an exchange has found ready to be finished: a roll-up has read no unfinished
    row, or `cancel_job` has read a status that can be cancelled. -/
def finalRead? : (o : Op) → o.Resp → Option Uuid
  | .sql (.select (.statusCounts jobId)), .ok counts =>
    if (aggregateStatus counts).any Prod.snd then some jobId else none
  | .sql (.select (.nonTerminalCount jobId)), .ok pending => if pending = 0 then some jobId else none
  | .sql (.select (.jobStatusAndCreator jobId)), .ok (some (status, _)) =>
    if status = .queued ∨ status = .pending then some jobId else none
  | _, _ => none

/-- Creation is not interrupted: what a transaction would give. -/
structure CreatedWhole (h : List (Event World Op Op.Resp Fn)) : Prop where
  /-- no `INSERT` of a request fails once the request has inserted a job -/
  inserted : ∀ h₁ e h₂ tid st reason, h = h₁ ++ e :: h₂ → e.label = .op tid (.sql st) (.error reason) →
    st.inserts = true → (exchanges tid h₁).filterMap insertedJob? = []
  /-- a job found ready to be finished is there with all its rows -/
  seen : ∀ h₁ e h₂ tid o answer jobId, h = h₁ ++ e :: h₂ → e.label = .op tid o answer →
    finalRead? o answer = some jobId →
      (e.pre.world.db.job jobId).isSome = true ∧ Whole h₁ e.pre.world.db jobId

theorem CreatedWhole.initial_part (created : CreatedWhole h) (part : h₁ <+: h) : CreatedWhole h₁ := by
  obtain ⟨h₂, rfl⟩ := part
  exact
    { inserted := fun h₃ e h₄ tid st reason eq =>
        created.inserted h₃ e (h₄ ++ h₂) tid st reason (by simp [eq])
      seen := fun h₃ e h₄ tid o answer jobId eq =>
        created.seen h₃ e (h₄ ++ h₂) tid o answer jobId (by simp [eq]) }

/-! ## Requests that fail -/

/-- No `INSERT` fails after a job has been inserted. -/
def FailsEarly (answers : Exchanges) : Prop :=
  ∀ l₁ st reason l₂, answers = l₁ ++ ⟨.sql st, .error reason⟩ :: l₂ → st.inserts = true →
    l₁.filterMap insertedJob? = []

theorem CreatedWhole.failsEarly (created : CreatedWhole h) (tid : Nat) :
    FailsEarly (exchanges tid h) := by
  intro l₁ st reason l₂ split inserts
  obtain ⟨h₁, e, h₂, eq, rfl, label⟩ := exchanges_split split
  exact created.inserted h₁ e h₂ tid st reason eq label inserts

/-- A failed insertion of host rows has failed at its last exchange. -/
theorem insertHosts_error {hostIds : List Uuid} {answers : Exchanges} {error : ApiError}
    (returns : (insertHosts jobId hostIds).Returns answers (.error error)) :
    ∃ l hostId reason,
      answers = l ++ [⟨.sql (.insertJobHost jobId hostId), .error reason⟩] := by
  induction hostIds generalizing answers with
  | nil => cases (returns.ret_inv).2
  | cons hostId rest ih =>
    obtain ⟨answer, more, rfl, later⟩ := returns.op_inv
    cases answer with
    | error reason =>
      obtain ⟨rfl, -⟩ := later.ret_inv
      exact ⟨[], hostId, reason, rfl⟩
    | ok affected =>
      obtain ⟨l, failed, reason, rfl⟩ := ih later
      exact ⟨_ :: l, failed, reason, rfl⟩

/-- Once a job is inserted, its host rows are too. -/
theorem insertHosts_succeeds {hostIds : List Uuid} {before answers later : Exchanges}
    {answer : Except ApiError Unit} {new : NewJob}
    (early : FailsEarly (before ++ ⟨.sql (.insertJob new), .ok jobId⟩ :: (answers ++ later)))
    (returns : (insertHosts jobId hostIds).Returns answers answer) : answer = .ok () := by
  cases answer with
  | ok value => rfl
  | error error =>
    obtain ⟨l, hostId, reason, rfl⟩ := insertHosts_error returns
    have none := early (before ++ ⟨.sql (.insertJob new), .ok jobId⟩ :: l) (.insertJobHost jobId hostId)
      reason later (by simp) rfl
    simp [insertedJob?] at none

/-- A handler that fails with its rows inserted cannot do so after it. -/
theorem not_insertHosts_error {hostIds : List Uuid} (before : Exchanges) {answers : Exchanges} {new : NewJob}
    {rest : Except ApiError Unit → Proc (Except ApiError Uuid)} {error : ApiError}
    (early : FailsEarly (before ++ ⟨.sql (.insertJob new), .ok jobId⟩ :: answers))
    (returns : ((insertHosts jobId hostIds).bind rest).Returns answers (.error error))
    (succeeds : ∀ l, ¬ (rest (.ok ())).Returns l (.error error)) : False := by
  obtain ⟨answer, l₁, l₂, rfl, rows, later⟩ := returns.bind_inv
  obtain rfl := insertHosts_succeeds early rows
  exact succeeds l₂ later

theorem createJob_error {auth : AuthUser} {req : CreateJobRequest} {answers : Exchanges}
    {error : ApiError} (returns : (createJob auth req).Returns answers (.error error))
    (early : FailsEarly answers) : answers.filterMap insertedJob? = [] := by
  unfold createJob at returns
  split at returns
  · rw [(returns.ret_inv).1]; rfl
  · split at returns
    · rw [(returns.ret_inv).1]; rfl
    · obtain ⟨answer, more, rfl, later⟩ := returns.op_inv
      cases answer with
      | error reason =>
        obtain ⟨rfl, -⟩ := later.ret_inv
        rfl
      | ok jobId =>
        simp only [Prog.ret_bind] at later
        refine (not_insertHosts_error [] early later fun l succeeded => ?_).elim
        obtain ⟨_, _, -, done⟩ := succeeded.op_inv
        cases (done.ret_inv).2

theorem rollbackJob_error {auth : AuthUser} {id : Uuid} {answers : Exchanges}
    {error : ApiError} (returns : (rollbackJob auth id).Returns answers (.error error))
    (early : FailsEarly answers) : answers.filterMap insertedJob? = [] := by
  unfold rollbackJob at returns
  split at returns
  · rw [(returns.ret_inv).1]; rfl
  · obtain ⟨answer, more, rfl, later⟩ := returns.op_inv
    cases answer with
    | error reason =>
      obtain ⟨rfl, -⟩ := later.ret_inv
      rfl
    | ok originalExists =>
      simp only [Prog.ret_bind] at later
      split at later
      · obtain ⟨rfl, -⟩ := later.ret_inv
        rfl
      · obtain ⟨answer, more, rfl, read⟩ := later.op_inv
        cases answer with
        | error reason =>
          obtain ⟨rfl, -⟩ := read.ret_inv
          rfl
        | ok hostIds =>
          simp only [Prog.ret_bind] at read
          split at read
          · obtain ⟨rfl, -⟩ := read.ret_inv
            rfl
          · obtain ⟨answer, more, rfl, inserts⟩ := read.op_inv
            cases answer with
            | error reason =>
              obtain ⟨rfl, -⟩ := inserts.ret_inv
              rfl
            | ok jobId =>
              simp only [Prog.ret_bind] at inserts
              refine (not_insertHosts_error [_, _] early inserts fun l succeeded => ?_).elim
              obtain ⟨_, _, -, done⟩ := succeeded.op_inv
              cases (done.ret_inv).2

/-- The groups before the failure have all been inserted, so there are none. -/
theorem insertUpgradeGroups_error {auth : AuthUser} {immediate : Bool} {window : Option Uuid}
    {firstJobId : Uuid} {groups : List (String × List Uuid)} {before answers : Exchanges}
    {error : ApiError}
    (returns : (insertUpgradeGroups auth immediate window firstJobId groups).Returns answers
      (.error error)) (early : FailsEarly (before ++ answers)) :
    (before ++ answers).filterMap insertedJob? = [] := by
  induction groups generalizing firstJobId before answers with
  | nil => cases (returns.ret_inv).2
  | cons group rest ih =>
    obtain ⟨answer, more, rfl, later⟩ := returns.op_inv
    cases answer with
    | error reason =>
      obtain ⟨rfl, -⟩ := later.ret_inv
      rw [List.filterMap_append, early before _ reason [] rfl rfl]
      rfl
    | ok jobId =>
      simp only [Prog.ret_bind] at later
      obtain ⟨answer, l₁, l₂, rfl, rows, others⟩ := later.bind_inv
      obtain rfl := insertHosts_succeeds early rows
      have whole : (before ++ ⟨.sql (.insertJob _), .ok jobId⟩ :: l₁ ++ l₂).filterMap insertedJob? = [] :=
        ih others (by simpa using early)
      simpa using whole

theorem insertUpgradeJobs_error {auth : AuthUser} {immediate : Bool} {window : Option Uuid}
    {groups : List (String × List Uuid)} {skipped : Nat} {answers : Exchanges} {error : ApiError}
    (returns : (insertUpgradeJobs auth immediate window groups skipped).Returns answers
      (.error error)) (early : FailsEarly answers) : answers.filterMap insertedJob? = [] := by
  obtain ⟨answer, l₁, l₂, rfl, inserted, later⟩ := returns.bind_inv
  cases answer with
  | error e =>
    obtain ⟨rfl, -⟩ := later.ret_inv
    rw [List.append_nil] at early ⊢
    have none : ([] ++ l₁).filterMap insertedJob? = [] := insertUpgradeGroups_error inserted early
    exact none
  | ok firstJobId =>
    obtain ⟨_, _, -, done⟩ := later.op_inv
    cases (done.ret_inv).2

/-- A request that fails early has inserted no job. -/
theorem inserted_of_error {f : Fn} {answers : Exchanges} {error : ApiError}
    (returns : f.Answers answers (.error error)) (early : FailsEarly answers) :
    answers.filterMap insertedJob? = [] := by
  cases f with
  | createJob auth req => exact createJob_error returns early
  | rollbackJob auth id => exact rollbackJob_error returns early
  | insertUpgradeJobs auth immediate window groups skipped =>
    exact insertUpgradeJobs_error returns early
  | _ => exact returns.elim

/-! ## Finishing a job -/

/-- The job an `UPDATE` gives a final status. -/
def Op.finishesJob? : Op → Option Uuid
  | sql (.updateJobs u) =>
    u.overwrites.bind fun (jobId, status) => if status.isTerminal then some jobId else none
  | _ => none

/-- A task finishes only jobs that it has read and found ready for it. -/
def finishContract : Contract Op Op.Resp Fn where
  State := List Uuid
  idle := []
  init _ := []
  next σ o answer := (finalRead? o answer).toList ++ σ
  rely _ _ := True
  guar σ o := ∀ jobId ∈ o.finishesJob?, jobId ∈ σ
  start _ _ := True
  tail _ _ := True
  exit _ := True

/-- The program keeps the contract whatever its task has read before. -/
abbrev FinishesRead {α : Type} (p : Proc α) : Prop :=
  ∀ σ, p.Along finishContract (fun _ _ => True) σ

def OpKind.finishesNone : OpKind → Bool
  | .rollUp | .rollUpFinal | .cancelParent => false
  | _ => true

theorem finishesJob_of_kind {o : Op} (quiet : o.kind.finishesNone = true) : o.finishesJob? = none := by
  unfold Op.finishesJob?
  split
  · rename_i u
    cases u <;> first | rfl | cases quiet
  · rfl

/-- What finishes no job is always permitted. -/
theorem finishContract_permits {σ : List Uuid} {o : Op} (none : o.finishesJob? = none) :
    finishContract.guar σ o := by
  intro jobId mem
  rw [none] at mem
  cases mem

theorem follows_finishesRead : Follows (fun {_} p => FinishesRead p) OpKind.finishesNone
    (fun _ => True) fun _ => True where
  toClosed := closed_along (fun _ _ kind => finishContract_permits (finishesJob_of_kind kind))
    (fun _ _ _ => trivial) fun _ _ _ => trivial
  other := rfl
  read := rfl

theorem syncJobStatus_finishesRead (id : Uuid) : FinishesRead (syncJobStatus id) := by
  intro σ
  refine ⟨finishContract_permits rfl, fun answer _ => ?_⟩
  cases answer with
  | error reason => trivial
  | ok counts =>
    simp only [Prog.ret_bind]
    split
    · trivial
    · rename_i newStatus setCompleted status
      refine ⟨fun jobId mem => ?_, fun _ _ => ⟨finishContract_permits rfl, fun _ _ => ?_⟩⟩
      · -- the counts read show no unfinished row when the new status is final
        simp only [Op.finishesJob?, JobUpdate.overwrites, Option.bind_some, Option.mem_def,
          Option.ite_none_right_eq_some, Option.some.injEq, aggregateStatus_isTerminal status] at mem
        obtain ⟨rfl, rfl⟩ := mem
        simp [finishContract, finalRead?, status]
      · split
        · exact ⟨trivial, trivial⟩
        · trivial

theorem updateParentJobStatus_finishesRead (id : Uuid) : FinishesRead (updateParentJobStatus id) := by
  intro σ
  refine ⟨finishContract_permits rfl, fun answer _ => ?_⟩
  cases answer with
  | error reason => trivial
  | ok pending =>
    refine iteInduction (motive := fun p : Proc Unit => p.Along finishContract (fun _ _ => True) _)
      (fun _ => trivial) fun none => ⟨finishContract_permits rfl, fun answer _ => ?_⟩
    cases answer with
    | error reason => trivial
    | ok counts =>
      refine ⟨fun jobId mem => ?_, fun answer _ => ?_⟩
      · simp only [Op.finishesJob?, JobUpdate.overwrites, Option.bind_some, Option.mem_def,
          Option.ite_none_right_eq_some, Option.some.injEq] at mem
        obtain ⟨-, rfl⟩ := mem
        have zero : pending = 0 := Nat.le_zero.mp (Nat.not_lt.mp none)
        simp [finishContract, finalRead?, zero]
      · cases answer with
        | error reason => trivial
        | ok => exact ⟨finishContract_permits rfl, fun _ _ => trivial⟩

theorem cancelJob_finishesRead (auth : AuthUser) (id : Uuid) : FinishesRead (cancelJob auth id) := by
  intro σ
  refine ⟨finishContract_permits rfl, fun answer _ => ?_⟩
  match answer with
  | .error reason => trivial
  | .ok none => trivial
  | .ok (some (status, creatorId)) =>
    simp only [Prog.ret_bind]
    split
    · trivial
    · split
      · trivial
      · rename_i allowed
        refine ⟨fun jobId mem => ?_, fun answer _ => ?_⟩
        · obtain rfl : id = jobId := by simpa [Op.finishesJob?, JobUpdate.overwrites,
            JobStatus.isTerminal] using mem
          have ready : status = .queued ∨ status = .pending := by
            cases status <;> simp at allowed ⊢
          simp [finishContract, finalRead?, ready]
        · cases answer with
          | error reason => trivial
          | ok =>
            refine ⟨finishContract_permits rfl, fun answer _ => ?_⟩
            cases answer with
            | error reason => trivial
            | ok => exact ⟨finishContract_permits rfl, fun _ _ => ⟨finishContract_permits rfl, fun _ _ => trivial⟩⟩

theorem engine_finishesRead (cfg : WorkerConfig) : (engine cfg).Keeps finishContract := by
  have all : ∀ f, FinishesRead (body cfg f) := by
    intro f
    cases mail : f.isMail with
    | true =>
      cases f with
      | jobEmails id total succeeded failed =>
        exact jobEmails_follows follows_finishesRead rfl id total succeeded failed
      | _ => cases mail
    | false =>
      exact service_follows follows_finishesRead
        (fun k common => by cases k <;> first | rfl | cases common) rfl rfl rfl rfl (fun _ _ => trivial)
        (fun _ _ => trivial) syncJobStatus_finishesRead updateParentJobStatus_finishesRead
        cancelJob_finishesRead cfg mail
  exact ⟨fun _ f _ => all f _, fun σ f _ => all f σ, trivial⟩

/-! ## Whole jobs stay whole -/

theorem AllInserted.step (inserted : AllInserted s.world.db jobId hosts) {l : Label Op Op.Resp Fn}
    (step : Step (engine cfg) s l t) : AllInserted t.world.db jobId hosts := by
  intro hostId mem
  obtain ⟨r, row, job, host⟩ := inserted hostId mem
  rcases step_db step with ⟨st, result, -, ran⟩ | ⟨-, same⟩
  · obtain ⟨fresh, rows, -, -⟩ := Stmt.run_patchJobHosts ran
    refine ⟨st.hostEffect s.world.db.now r, ?_, by simpa using job, by simpa using host⟩
    rw [rows]
    exact List.mem_append_left _ (List.mem_map_of_mem row)
  · rw [same.patchJobHosts]
    exact ⟨r, row, job, host⟩

/-- A job that is inserted by the step was not there before. -/
theorem absent_of_creation {before : List (Event World Op Op.Resp Fn)}
    (step : Step (engine cfg) e.pre e.label e.post) (keys : Keys e.pre.world.db)
    (creates : creation? before e = some (jobId, hosts)) : e.pre.world.db.job jobId = none := by
  obtain ⟨pre, label, post⟩ := e
  unfold creation? at creates
  split at creates
  · rename_i tid new id eq
    cases eq
    obtain ⟨task, -, rest⟩ := Option.bind_eq_some_iff.mp creates
    obtain ⟨planned, -, pair⟩ := Option.map_eq_some_iff.mp rest
    cases pair
    obtain ⟨root, next, w, -, executed, -⟩ := step.op_inv
    rcases executed with ⟨_, failed, -⟩ | ⟨result, db, ran, eq, -⟩
    · cases failed
    · cases eq
      simp only [Stmt.run, Option.ite_none_right_eq_some, Option.some.injEq, Prod.mk.injEq] at ran
      obtain ⟨-, rfl, -⟩ := ran
      cases found : pre.world.db.job pre.world.db.nextId with
      | none => rfl
      | some j =>
        -- identifiers of the rows are below the next one
        obtain ⟨mem, same⟩ := Sql.lookup_some found
        exact absurd (keys.jobs.below j mem) (by rw [same]; exact Nat.lt_irrefl _)
  · cases creates

/-- The job is there with all the rows it was requested with. -/
def WholeJob (h : List (Event World Op Op.Resp Fn)) (db : Db) (jobId : Uuid) : Prop :=
  (db.job jobId).isSome = true ∧ Whole h db jobId

theorem WholeJob.step {before : List (Event World Op Op.Resp Fn)}
    (whole : WholeJob before e.pre.world.db jobId)
    (step : Step (engine cfg) e.pre e.label e.post) (keys : Keys e.pre.world.db) :
    WholeJob (before ++ [e]) e.post.world.db jobId := by
  obtain ⟨j, found⟩ := Option.isSome_iff_exists.mp whole.1
  refine ⟨by rw [step_job step found]; rfl, fun hosts creates => ?_⟩
  rcases creates.snoc_inv with earlier | now
  · exact (whole.2 hosts earlier).step step
  · rw [absent_of_creation step keys now] at found
    cases found

/-- A step that finishes a job has overwritten its status. -/
theorem finishesJob_of_step (step : Step (engine cfg) e.pre e.label e.post)
    (before : e.pre.world.db.jobFinished jobId = false)
    (after : e.post.world.db.jobFinished jobId = true) :
    ∃ tid o answer, e.label = .op tid o answer ∧ o.finishesJob? = some jobId := by
  by_cases writes : ∃ u status, took e.label = some (.updateJobs u) ∧
      u.overwrites = some (jobId, status)
  · obtain ⟨u, status, effect, overwrites⟩ := writes
    obtain ⟨tid, result, label⟩ := took_eq_some effect
    refine ⟨tid, _, _, label, ?_⟩
    cases found : e.pre.world.db.job jobId with
    | none =>
      rw [jobFinished_of_none step found] at after
      cases after
    | some j =>
      rw [jobFinished_of_written step effect overwrites found] at after
      simp [Op.finishesJob?, overwrites, after]
  · rw [jobFinished_of_silent step fun u status effect overwrites => writes ⟨u, status, effect, overwrites⟩,
      before] at after
    cases after

/-- What a task has read: the jobs it has found ready to be finished. -/
def readJobs (cfg : WorkerConfig) (h : List (Event World Op Op.Resp Fn)) (tid : Nat) : List Uuid :=
  (engine cfg).ghost finishContract h tid

/-- Finished jobs are whole, and so are those that a task is about to finish. -/
structure FinishedWhole (cfg : WorkerConfig) (h : List (Event World Op Op.Resp Fn)) (s : State) :
    Prop where
  finished : ∀ jobId, s.world.db.jobFinished jobId = true → WholeJob h s.world.db jobId
  ready : ∀ tid, ∀ jobId ∈ readJobs cfg h tid, WholeJob h s.world.db jobId

theorem readJobs_snoc {tid : Nat} {before : List (Event World Op Op.Resp Fn)}
    (mem : jobId ∈ readJobs cfg (before ++ [e]) tid) : jobId ∈ readJobs cfg before tid ∨
      ∃ o answer, e.label = .op tid o answer ∧ finalRead? o answer = some jobId := by
  unfold readJobs at mem
  cases (engine cfg).ghost_move finishContract before e tid with
  | own o answer label next =>
    rw [next] at mem
    rcases List.mem_append.mp mem with new | old
    · exact .inr ⟨o, answer, label, Option.mem_toList.mp new⟩
    · exact .inl old
  | start f starts init =>
    rw [init] at mem
    cases mem
  | stop ends idle =>
    rw [idle] at mem
    cases mem
  | keep others same =>
    rw [same] at mem
    exact .inl mem

theorem FinishedWhole.step {before after : List (Event World Op Op.Resp Fn)}
    (whole : FinishedWhole cfg before e.pre) (created : CreatedWhole (before ++ e :: after))
    (step : Step (engine cfg) e.pre e.label e.post) (keys : Keys e.pre.world.db)
    (permitted : finishContract.Guarantees (readJobs cfg before) e.label) :
    FinishedWhole cfg (before ++ [e]) e.post := by
  constructor
  · intro jobId finished
    cases earlier : e.pre.world.db.jobFinished jobId with
    | true => exact (whole.finished jobId earlier).step step keys
    | false =>
      obtain ⟨tid, o, answer, label, finishes⟩ := finishesJob_of_step step earlier finished
      rw [label] at permitted
      exact (whole.ready tid jobId (permitted jobId finishes)).step step keys
  · intro tid jobId mem
    rcases readJobs_snoc mem with old | ⟨o, answer, label, reads⟩
    · exact (whole.ready tid jobId old).step step keys
    · have seen : WholeJob before e.pre.world.db jobId :=
        created.seen before e after tid o answer jobId rfl label reads
      exact seen.step step keys

theorem finishedWhole_of_run (run : Run (engine cfg) s h t) (initial : Initial s)
    (created : CreatedWhole h) : FinishedWhole cfg h t := by
  have permitted := (run.guarantees (engine_finishesRead cfg)
    (fun e _ => by cases e.label <;> trivial)
    (Sys.along_of_empty initial.tasks)).2
  refine run.preserves_history (I := FinishedWhole cfg) ?_ ?_
  · refine ⟨fun jobId finished => ?_, fun tid jobId mem => by cases mem⟩
    simp [Db.jobFinished, Db.job, initial.patchJobs, Sql.lookup] at finished
  · rintro before e ⟨after, rfl⟩ step whole
    exact whole.step created step (run_keys run.split_event.1 initial) (permitted before e after rfl)

/-- In every run in which no creation is interrupted, requests are atomic. -/
theorem creation_atomic (initial : Initial s) (created : CreatedWhole h) : CreationAtomic cfg s h := by
  constructor
  · intro h₁ u tid task error part run₁ at_ returns jobId mem
    have none := inserted_of_error returns ((created.initial_part part).failsEarly tid)
    rw [none] at mem
    cases mem
  · intro h₁ u jobId part run₁ finished
    exact ((finishedWhole_of_run run₁ initial (created.initial_part part)).finished jobId finished).2

/-! ## Runs on the small installation -/

def noInsertFails (l : Label Op Op.Resp Fn) : Bool :=
  match l with
  | .op _ (.sql st) (.error _) => !st.inserts
  | _ => true

def readFinal? (l : Label Op Op.Resp Fn) : Option Uuid :=
  match l with
  | .op _ o answer => finalRead? o answer
  | _ => none

/-- The creation, if it is of this job, has inserted all its rows. -/
def wholeAt (db : Db) (jobId : Uuid) (before : List (Event World Op Op.Resp Fn))
    (e : Event World Op Op.Resp Fn) : Bool :=
  (creation? before e).all fun (id, hosts) =>
    id != jobId || hosts.all fun hostId => db.patchJobHosts.any fun r => r.jobId == id && r.hostId == hostId

/-- `CreatedWhole` at one event, when no `INSERT` fails at all. -/
def createdWholeAt (before : List (Event World Op Op.Resp Fn)) (e : Event World Op Op.Resp Fn) : Bool :=
  noInsertFails e.label && (readFinal? e.label).all fun jobId =>
    (e.pre.world.db.job jobId).isSome && checksAll (wholeAt e.pre.world.db jobId) before

theorem createdWhole_of_checks (checks : checksAll createdWholeAt h = true) : CreatedWhole h := by
  constructor
  · intro h₁ e h₂ tid st reason eq label inserts
    have ok := test_of_checksAll checks eq
    simp [createdWholeAt, noInsertFails, label, inserts] at ok
  · intro h₁ e h₂ tid o answer jobId eq label reads
    have ok := test_of_checksAll checks eq
    simp only [createdWholeAt, readFinal?, label, reads, Option.all_some, Bool.and_eq_true] at ok
    refine ⟨ok.2.1, fun hosts ⟨before, created, later, split, creates⟩ hostId mem => ?_⟩
    have whole := test_of_checksAll ok.2.2 split
    simp only [wholeAt, creates, Option.all_some, bne_self_eq_false, Bool.false_or] at whole
    simpa using List.all_eq_true.mp whole hostId mem

/-- A job is created and cancelled. -/
def createdAndCancelled : List (Move Small.player) :=
  Small.creates ++ .call (.cancelJob Small.user 1) :: Small.steps 1 5

theorem creation_atomic_createdAndCancelled :
    CreationAtomic Small.config Small.start
      (Small.player.history Small.start createdAndCancelled) :=
  creation_atomic Small.start_initial (createdWhole_of_checks (by decide +kernel))

/-- The worker is notified of a job for two hosts and finishes it when the first of its host
    rows has been inserted. -/
def earlyFinish : List (Move Small.player) :=
  .call (.createJob Small.user { Small.immediateJob with hostIds := [100, 101] }) ::
      Small.steps 0 2 ++ Small.processes 1 ++ Small.submits 2 "a" ++ Small.steps 2 1 ++ Small.polls 3 ++
    Small.steps 3 1 ++ Small.answers 4 "a" "succeeded" ++ Small.steps 4 5

/-- The job has succeeded and the row of the second host is not there. -/
theorem job_finished_before_its_rows :
    ¬ ∀ (cfg : WorkerConfig) (s t : State) (h : List (Event World Op Op.Resp Fn)),
      Initial s → Run (engine cfg) s h t → CreationAtomic cfg s h := by
  intro all
  have plays : (Small.player.play installed earlyFinish).isSome = true := by decide +kernel
  have run := Small.player.run_of_play plays
  have atomic := all _ _ _ _ ⟨rfl, rfl, rfl, rfl⟩ run
  obtain ⟨e, at_e, creates⟩ := (Option.any_eq_true _ _).mp (show
    ((Small.player.history installed earlyFinish)[1]?).any (fun e =>
      creation? ((Small.player.history installed earlyFinish).take 1) e == some (1, [100, 101])) =
        true by decide +kernel)
  have created : Creates 1 [100, 101] (Small.player.history installed earlyFinish) := by
    obtain ⟨inside, value⟩ := List.getElem?_eq_some_iff.mp at_e
    refine ⟨_, e, (Small.player.history installed earlyFinish).drop 2, ?_, beq_iff_eq.mp creates⟩
    rw [← value, List.getElem_cons_drop, List.take_append_drop]
  obtain ⟨r, row, job, host⟩ := atomic.whole _ _ 1 (List.prefix_refl _) run (by decide +kernel) _
    created 101 (by decide)
  have none : (endOf installed earlyFinish).world.db.patchJobHosts.all
      (fun r => r.jobId != 1 || r.hostId != 101) = true := by decide +kernel
  have absent := List.all_eq_true.mp none r row
  rw [job, host] at absent
  cases absent

end PatchManager
