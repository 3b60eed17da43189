import PatchManager.Conc.Credit
import PatchManager.Engine.Schedule
import PatchManager.Verified.Skeleton
import Mathlib.Data.List.GetD

/-! # Executions in progress

`process_job` bounds the executions it starts by a semaphore of its own.  A permit is a credit: a
task earns it by `acquire`, hands it to the execution it starts, and `release` spends it.  So the
executions that hold permits of one semaphore are never more than its permits.  Nothing bounds the
executions of two calls together, and `retry_pending_jobs` starts its executions without a permit.

Main results:

* `permits_bound`: executions under one semaphore.
* `executions_bounded_iff`: all executions stay within the bound exactly if those started next to
  others that the semaphore does not count find room.
* `executions_exceed`: two jobs with one host each, under a bound of one.
-/

namespace PatchManager

open PatchManager.Conc

/-- The semaphore whose permit an execution holds. -/
def Fn.permit? : Fn → Option Nat
  | executeHostJob _ _ _ permit => permit
  | _ => none

/-- A call of `execute_host_job` is in progress.  What is left of the task after it is the permit's
    return. -/
def executing (task : Task Op Op.Resp Fn) : Bool :=
  match task.prog with
  | .ret _ | .op (.release _) _ => false
  | _ => task.root.isExecution

/-- The number of calls of `execute_host_job` in progress. -/
def inProgress (s : State) : Nat := s.tasks.countP executing

/-- All executions in progress hold permits of the semaphore `f` is started with. -/
def Governed (s : State) (f : Fn) : Prop :=
  ∃ semaphore, f.permit? = some semaphore ∧
    ∀ task ∈ s.tasks, executing task = true → task.root.permit? = some semaphore

variable {cfg : WorkerConfig} {s t : State} {h : List (Event World Op Op.Resp Fn)}
  {l : Label Op Op.Resp Fn} {P : ∀ {α : Type}, Proc α → Prop} {K : OpKind → Bool}
  {fns tails : Fn → Prop}

theorem isExecution_of_permit {f : Fn} {semaphore : Nat} (permit : f.permit? = some semaphore) :
    f.isExecution = true := by
  cases f <;> first | rfl | cases permit

/-! ## Functions without permits -/

/-- A property of everything outside the semaphores is one of every function that is given no permit
    and takes none. -/
theorem unpermitted_follows (C : Follows @P K fns tails) (kinds : ∀ k, k ≠ .semaphore → K k = true)
    (starts : ∀ f : Fn, f.permit? = none → fns f) (calls : ∀ f : Fn, f.permit? = none → tails f)
    (cfg : WorkerConfig) {f : Fn} (noPermit : f.permit? = none)
    (noDispatch : ∀ jobId, f ≠ .processJob jobId) : P (body cfg f) := by
  have kind := fun k loose => kinds k loose
  have sync : ∀ jobId, P (syncJobStatus jobId) :=
    syncJobStatus_follows C (kind _ nofun) (kind _ nofun) fun _ _ _ _ => starts _ rfl
  have fails := handleHostFailure_follows C (kind _ nofun) (kind _ nofun) sync
  have request : f.isRequest = true → P (body cfg f) :=
    request_follows C (fun k _ => kind k)
      (cancelJob_follows C (kind _ nofun) (cancelRows_follows C (kind _ nofun) (kind _ nofun))) cfg
  have polls : P pollRunningJobs := pollRunningJobs_follows C (kind _ nofun) fun _ => starts _ rfl
  have tick : f.isTick = true → f.isRelay = false → P (body cfg f) :=
    tick_follows C (fun k _ => kind k) (fun _ _ _ => starts _ rfl) (fun _ => starts _ rfl) polls sync cfg
  have relay : f.isRelay = true → P (body cfg f) := by
    refine relay_follows C (fun k mem => kind k ?_) (fun _ => starts _ rfl) (fun _ => calls _ rfl)
      (fun _ _ _ => calls _ rfl) (updateParentJobStatus_follows C (kind _ nofun) (kind _ nofun)) cfg
    rintro rfl
    simp at mem
  cases f with
  | processJob jobId => exact absurd rfl (noDispatch jobId)
  | executeHostJob jobId hostId pjhId permit =>
    obtain rfl : permit = none := noPermit
    exact C.bind (executeHostJob_follows C fails (kind _ nofun) (kind _ nofun) (kind _ nofun)
      (kind _ nofun) jobId hostId pjhId) fun _ => C.ret _
  | pollSingleHost row =>
    exact pollSingleHost_follows C sync (fails row.id) (fun _ _ _ _ => calls _ rfl) (kind _ nofun)
      (kind _ nofun) (kind _ nofun) (kind _ nofun)
  | reconnectLoop row client targetVersion oldVersion elapsed =>
    exact reconnectLoop_follows C sync (fails row.id) (fun _ _ _ _ => calls _ rfl) (kind _ nofun)
      (kind _ nofun) (kind _ nofun) cfg client targetVersion oldVersion elapsed
  | jobEmails jobId total succeeded failed =>
    exact jobEmails_follows C (kind _ nofun) jobId total succeeded failed
  | periodicScan | schedulerTick => exact tick rfl rfl
  | relayTick | relayOneJob | relayStream | relayPoll => exact relay rfl
  | createJob | cancelJob | rollbackJob | insertUpgradeJobs => exact request rfl

/-! ## Permits as credits -/

def Op.acquires? : Op → Option Nat
  | acquire semaphore => some semaphore
  | _ => none

def Op.releases? : Op → Option Nat
  | release semaphore => some semaphore
  | _ => none

/-- A permit of the semaphore is earned by `acquire`, granted to an execution and spent by
    `release`. -/
def permitCredits (semaphore : Nat) : Credits Op Op.Resp Fn where
  earns o _ := if o.acquires? = some semaphore then 1 else 0
  costs o := if o.releases? = some semaphore then 1 else 0
  grant f := if f.permit? = some semaphore then 1 else 0

variable {semaphore : Nat}

/-- No operation touches a semaphore, and no execution is started. -/
abbrev Loose {α : Type} (p : Proc α) : Prop :=
  p.Within (fun o => o.kind ≠ .semaphore) (fun f => f.isExecution = false) fun _ => False

theorem free_of_loose {o : Op} (loose : o.kind ≠ .semaphore) : (permitCredits semaphore).Free o := by
  have none : o.acquires? = none ∧ o.releases? = none := by
    cases o <;> first | exact ⟨rfl, rfl⟩ | exact absurd rfl loose
  simp [Credits.Free, permitCredits, none]

theorem grant_of_unpermitted {f : Fn} (noPermit : f.permit? = none) :
    (permitCredits semaphore).grant f = 0 := by
  simp [permitCredits, noPermit]

theorem permit_of_not_execution {f : Fn} (noExecution : f.isExecution = false) : f.permit? = none := by
  cases f <;> first | rfl | cases noExecution

theorem Loose.free {α : Type} {p : Proc α} (loose : Loose p) :
    p.Within (permitCredits semaphore).Free (fun f => (permitCredits semaphore).grant f = 0)
      fun _ => False :=
  loose.mono (fun _ => free_of_loose)
    (fun _ noExecution => grant_of_unpermitted (permit_of_not_execution noExecution)) fun _ => id

theorem loose_follows : Follows Loose (fun k => k != .semaphore) (fun f => f.isExecution = false)
    fun _ => False where
  toClosed := (closed_within _ _ _).mono (fun _ kind => by simpa using kind) (fun _ => id) fun _ => id
  other := rfl
  read := rfl

theorem executeHostJob_loose (jobId hostId pjhId : Uuid) :
    Loose (executeHostJob jobId hostId pjhId) := by
  have sync : ∀ jobId, Loose (syncJobStatus jobId) :=
    syncJobStatus_follows loose_follows rfl rfl fun _ _ _ _ => rfl
  exact executeHostJob_follows loose_follows (handleHostFailure_follows loose_follows rfl rfl sync) rfl
    rfl rfl rfl jobId hostId pjhId

theorem request_loose {f : Fn} (isRequest : f.isRequest = true) : Loose (body cfg f) :=
  request_follows loose_follows (fun k _ other => by simpa using other)
    (cancelJob_follows loose_follows rfl (cancelRows_follows loose_follows rfl rfl)) cfg isRequest

/-- Holds no permit of the semaphore, at its start or its end. -/
abbrev HoldsNoPermit (semaphore : Nat) {α : Type} (p : Proc α) : Prop :=
  p.Balanced (permitCredits semaphore) 0

theorem follows_holdsNoPermit : Follows (fun {_} p => HoldsNoPermit semaphore p)
    (fun k => k != .semaphore) (fun f => f.permit? = none) fun f => f.permit? = none where
  toClosed := (Prog.closed_balanced (permitCredits semaphore)).mono
    (fun _ kind => free_of_loose (by simpa using kind)) (fun _ => grant_of_unpermitted)
    fun _ => grant_of_unpermitted
  other := rfl
  read := rfl

/-- A permit that is taken goes to the execution started next. -/
theorem dispatchHosts_holdsNoPermit (jobId own : Uuid) (hosts : List PatchJobHostQueued) :
    HoldsNoPermit semaphore (dispatchHosts jobId own hosts) := by
  induction hosts with
  | nil => rfl
  | cons host rest ih =>
    refine .earn rfl fun _ => .pass ?_ ih
    simp [permitCredits, Op.acquires?, Fn.permit?]

theorem processJob_holdsNoPermit (cfg : WorkerConfig) (jobId : Uuid) :
    HoldsNoPermit semaphore (processJob cfg jobId) := by
  have C : Follows (fun {_} p => HoldsNoPermit semaphore p) (fun k => k != .semaphore)
    (fun f => f.permit? = none) (fun f => f.permit? = none) := follows_holdsNoPermit
  refine C.op rfl fun _ => C.op rfl fun answer => ?_
  cases answer with
  | error reason => exact C.ret _
  | ok hosts =>
    refine iteInduction (fun _ => C.ret _) fun _ => .free ⟨rfl, fun _ => rfl⟩ fun own => ?_
    exact dispatchHosts_holdsNoPermit jobId own hosts

/-- Every permit is given back. -/
theorem engine_gives_back : (engine cfg).Solvent (permitCredits semaphore) where
  balanced f := by
    cases permit : f.permit? with
    | none =>
      rw [grant_of_unpermitted permit]
      by_cases dispatch : ∃ jobId, f = .processJob jobId
      · obtain ⟨jobId, rfl⟩ := dispatch
        exact processJob_holdsNoPermit cfg jobId
      · exact unpermitted_follows follows_holdsNoPermit (fun k other => by simpa using other)
          (fun _ => id) (fun _ => id) cfg permit fun jobId eq => dispatch ⟨jobId, eq⟩
    | some own =>
      cases f with
      | executeHostJob jobId hostId pjhId given =>
        obtain rfl : given = some own := permit
        refine .frame (executeHostJob_loose jobId hostId pjhId).free fun _ => ?_
        exact .pay rfl (fun _ => rfl) fun _ => rfl
      | _ => cases permit
  called s f w called := by
    apply grant_of_unpermitted
    cases f with
    | executeHostJob => rcases called.1 with request | tick <;> simp [Fn.isRequest, Fn.isTick] at *
    | _ => rfl
  abandoned f isRequest := by
    have noPermit : f.permit? = none := by cases f <;> first | rfl | cases isRequest
    exact ⟨grant_of_unpermitted noPermit, (request_loose isRequest).free⟩

/-! ## What is left of an execution -/

/-- What is left of an execution: nothing, or a part of `execute_host_job` and the permit's return. -/
def LeftOf (f : Fn) (p : Proc Unit) : Prop :=
  ∀ jobId hostId pjhId permit, f = .executeHostJob jobId hostId pjhId permit →
    p = .ret () ∨ ∃ q : Proc Unit, Loose q ∧ p = q.bind fun _ =>
      match permit with
      | some semaphore => perform (.release semaphore)
      | none => return ()

theorem leftOf_engine : (engine cfg).Leaves LeftOf where
  body f jobId hostId pjhId permit eq := by
    subst eq
    exact .inr ⟨_, executeHostJob_loose jobId hostId pjhId, rfl⟩
  ended f jobId hostId pjhId permit eq := .inl rfl
  op {f o next} left r jobId hostId pjhId permit eq := by
    rcases left jobId hostId pjhId permit eq with gone | ⟨q, loose, same⟩
    · cases gone
    · cases q with
      | ret value =>
        cases permit with
        | some own => cases same; exact .inl rfl
        | none => cases same
      | op o' next' => cases same; exact .inr ⟨next' r, loose.2 r, rfl⟩
      | spawn | jump => cases same
  spawn {f g next} left jobId hostId pjhId permit eq := by
    rcases left jobId hostId pjhId permit eq with gone | ⟨q, loose, same⟩
    · cases gone
    · cases q with
      | ret value => cases permit <;> cases same
      | spawn g' next' => cases same; exact .inr ⟨next', loose.2, rfl⟩
      | op | jump => cases same
  jump {f g} left jobId hostId pjhId permit eq := by
    rcases left jobId hostId pjhId permit eq with gone | ⟨q, loose, same⟩
    · cases gone
    · cases q with
      | ret value => cases permit <;> cases same
      | jump => exact loose.elim
      | op | spawn => cases same

/-- An execution in progress still holds its permit. -/
theorem holds_of_executing {task : Task Op Op.Resp Fn} {n : Nat} (left : LeftOf task.root task.prog)
    (balanced : task.prog.Balanced (permitCredits semaphore) n) (running : executing task = true)
    (permit : task.root.permit? = some semaphore) : 0 < n := by
  obtain ⟨root, prog⟩ := task
  cases root with
  | executeHostJob jobId hostId pjhId given =>
    obtain rfl : given = some semaphore := permit
    rcases left jobId hostId pjhId _ rfl with rfl | ⟨q, loose, rfl⟩
    · cases running
    · obtain ⟨-, costs, -⟩ := balanced.unframe (unanswered 0) loose.free
      simpa [permitCredits, Op.releases?, Nat.one_le_iff_ne_zero, Nat.pos_iff_ne_zero] using costs
  | _ => cases permit

/-! ## One semaphore -/

/-- Free permits of a semaphore; none if there is no such semaphore. -/
def World.free (w : World) (semaphore : Nat) : Nat := w.semaphores.getD semaphore 0

/-- The permits of the semaphore that tasks hold and those that are free are no more than it was made
    with. -/
def Accounted (cfg : WorkerConfig) (semaphore : Nat) (s : State) : Prop :=
  ∃ balance, s.Funded (engine cfg) (permitCredits semaphore) (fun _ => True) balance ∧
    held balance s.tasks.length + s.world.free semaphore ≤ cfg.maxConcurrentAgentCalls ∧
      (s.world.semaphores.length ≤ semaphore → held balance s.tasks.length = 0)

/-- Semaphores are made with as many permits as the configuration says. -/
def Op.sized (cfg : WorkerConfig) : Op → Prop
  | newSemaphore permits => permits = cfg.maxConcurrentAgentCalls
  | _ => True

theorem sized_of_loose {o : Op} (loose : o.kind ≠ .semaphore) : o.sized cfg := by
  cases o with
  | newSemaphore => exact absurd rfl loose
  | _ => trivial

theorem body_sized (cfg : WorkerConfig) (f : Fn) :
    (body cfg f).Within (Op.sized cfg) (fun _ => True) fun _ => True := by
  have C : Follows (fun {_} p => p.Within (Op.sized cfg) (fun _ => True) fun _ => True)
      (fun k => k != .semaphore) (fun _ => True) fun _ => True :=
    { (closed_within (Op.sized cfg) (fun _ => True) fun _ => True).mono
        (fun _ kind => sized_of_loose (by simpa using kind)) (fun _ => id) fun _ => id with
      other := rfl
      read := rfl }
  have dispatches : ∀ jobId own hosts,
      (dispatchHosts jobId own hosts).Within (Op.sized cfg) (fun _ => True) fun _ => True := by
    intro jobId own hosts
    induction hosts with
    | nil => trivial
    | cons host rest ih => exact ⟨trivial, fun _ => ⟨trivial, ih⟩⟩
  cases permit : f.permit? with
  | none =>
    by_cases dispatch : ∃ jobId, f = .processJob jobId
    · obtain ⟨jobId, rfl⟩ := dispatch
      refine C.op rfl fun _ => C.op rfl fun answer => ?_
      cases answer with
      | error reason => trivial
      | ok hosts => exact iteInduction (fun _ => trivial) fun _ => ⟨rfl, fun own => dispatches _ _ _⟩
    · exact unpermitted_follows C (fun k other => by simpa using other) (fun _ _ => trivial)
        (fun _ _ => trivial) cfg permit fun jobId eq => dispatch ⟨jobId, eq⟩
  | some own =>
    cases f with
    | executeHostJob jobId hostId pjhId given =>
      obtain rfl : given = some own := permit
      refine .bind ((executeHostJob_loose jobId hostId pjhId).mono (fun _ => sized_of_loose)
        (fun _ _ => trivial) fun _ => False.elim) fun _ => ?_
      exact ⟨trivial, fun _ => trivial⟩
    | _ => cases permit

/-- An operation moves permits of the semaphore between the free ones and those it earns or costs; a
    new semaphore has as many as it was made with. -/
theorem exec_free (semaphore : Nat) {w w' : World} {o : Op} {answer : o.Resp}
    (done : exec w o answer w') (sized : o.sized cfg) :
    (w'.semaphores.length = w.semaphores.length ∧ (semaphore < w.semaphores.length →
        w'.free semaphore + (permitCredits semaphore).earns o answer =
          w.free semaphore + (permitCredits semaphore).costs o) ∧
      (w.semaphores.length ≤ semaphore → (permitCredits semaphore).earns o answer = 0)) ∨
    (permitCredits semaphore).Free o ∧ w'.semaphores = w.semaphores ++ [cfg.maxConcurrentAgentCalls] := by
  cases o with
  | newSemaphore permits =>
    obtain ⟨-, rfl⟩ := done
    obtain rfl : permits = cfg.maxConcurrentAgentCalls := sized
    exact .inr ⟨⟨rfl, fun _ => rfl⟩, rfl⟩
  | acquire own =>
    obtain ⟨free, there, rfl⟩ := done
    obtain ⟨within, value⟩ := List.getElem?_eq_some_iff.mp there
    refine .inl ⟨List.length_set, fun inside => ?_, fun outside => ?_⟩
    · rcases eq_or_ne own semaphore with rfl | other
      · simp [World.free, permitCredits, Op.acquires?, Op.releases?, inside, value]
      · simp [World.free, permitCredits, Op.acquires?, Op.releases?, other]
    · have other : own ≠ semaphore := by omega
      simp [permitCredits, Op.acquires?, other]
  | release own =>
    obtain rfl : w' = _ := done
    refine .inl ⟨List.length_modify .., fun inside => ?_, fun _ => rfl⟩
    rcases eq_or_ne own semaphore with rfl | other
    · simp [World.free, permitCredits, Op.acquires?, Op.releases?, inside]
    · simp [World.free, permitCredits, Op.acquires?, Op.releases?, other]
  | sql st =>
    rcases done with ⟨_, -, rfl⟩ | ⟨_, _, -, -, rfl⟩ <;> exact .inl ⟨rfl, fun _ => rfl, fun _ => rfl⟩
  | utcNow | activeContains =>
    obtain ⟨-, rfl⟩ := done
    exact .inl ⟨rfl, fun _ => rfl, fun _ => rfl⟩
  | _ =>
    obtain rfl : w' = _ := done
    exact .inl ⟨rfl, fun _ => rfl, fun _ => rfl⟩

/-- A step other than an operation or a restart leaves the semaphores alone. -/
theorem step_semaphores (step : Step (engine cfg) s l t) (noOp : ∀ tid o r, l ≠ .op tid o r)
    (noRestart : l ≠ .restart) : t.world.semaphores = s.world.semaphores := by
  cases step with
  | op => exact absurd rfl (noOp _ _ _)
  | @enter f w called =>
    cases f with
    | processJob jobId => rw [called.2]
    | _ => exact congrArg World.semaphores called.2
  | drift moved => exact moved.semaphores
  | restart => exact absurd rfl noRestart
  | _ => rfl

/-- An operation keeps the account of a semaphore of which tasks hold `n` permits before it and `n'`
    after it. -/
theorem exec_accounted {w w' : World} {o : Op} {answer : o.Resp} {n n' : Nat}
    (done : exec w o answer w') (sized : o.sized cfg)
    (moved : (permitCredits semaphore).costs o + n' = (permitCredits semaphore).earns o answer + n)
    (bounded : n + w.free semaphore ≤ cfg.maxConcurrentAgentCalls)
    (absent : w.semaphores.length ≤ semaphore → n = 0) :
    n' + w'.free semaphore ≤ cfg.maxConcurrentAgentCalls ∧
      (w'.semaphores.length ≤ semaphore → n' = 0) := by
  rcases exec_free semaphore done sized with ⟨length, inside, outside⟩ | ⟨⟨costs, earns⟩, fresh⟩
  · rcases Nat.lt_or_ge semaphore w.semaphores.length with known | unknown
    · have kept := inside known
      omega
    · have none := absent unknown
      have earnsNone := outside unknown
      have free : w'.free semaphore = 0 := by simp [World.free, length, unknown]
      omega
  · rw [costs, earns] at moved
    have same : n' = n := by omega
    rw [same, World.free, fresh, List.length_append, List.length_singleton]
    rcases Nat.lt_trichotomy semaphore w.semaphores.length with known | rfl | unknown
    · refine ⟨?_, by omega⟩
      rwa [List.getD_append _ _ _ _ known]
    · rw [absent le_rfl]
      simp
    · rw [absent (Nat.le_of_lt unknown), List.getD_eq_default _ _ (by simpa using Nat.succ_le_of_lt unknown)]
      simp

/-- One step of the account of a semaphore. -/
theorem accounted_step (step : Step (engine cfg) s l t)
    (sized : ∀ task ∈ s.tasks, task.prog.Within (Op.sized cfg) (fun _ => True) fun _ => True)
    (accounted : Accounted cfg semaphore s) : Accounted cfg semaphore t := by
  obtain ⟨balance, funded, bounded, absent⟩ := accounted
  by_cases restart : l = .restart
  · subst restart
    have nothing := step.account_restart
      (fun f => by cases request : f.isRequest <;> simp [engine, request]) funded
    cases step
    exact ⟨_, nothing, by simp [held, World.free, engine], fun _ => by simp [held]⟩
  obtain ⟨balance', funded', moved⟩ :=
    step.account engine_gives_back funded fun isRestart => absurd isRestart restart
  refine ⟨balance', funded'.mono fun _ _ => trivial, ?_⟩
  by_cases noOp : ∀ tid o r, l ≠ .op tid o r
  · have same := step_semaphores step noOp restart
    have none : l.earned (permitCredits semaphore) = 0 ∧ l.spent (permitCredits semaphore) = 0 := by
      cases l with
      | op tid o r => exact absurd rfl (noOp tid o r)
      | _ => exact ⟨rfl, rfl⟩
    rw [none.1, none.2, Nat.zero_add, Nat.zero_add] at moved
    rw [World.free, same, moved]
    exact ⟨bounded, absent⟩
  · simp only [not_forall, not_not] at noOp
    obtain ⟨tid, o, r, rfl⟩ := noOp
    obtain ⟨root, next, w, at_, done, after⟩ := step.op_inv
    have permitted : o.sized cfg := (sized _ (List.mem_of_getElem? at_)).1
    have world : t.world = w := congrArg Sys.world after
    rw [world]
    exact exec_accounted done permitted moved bounded absent

/-- Executions under one semaphore are no more than its permits. -/
theorem permits_bound (run : Run (engine cfg) s h t) (start : Initial s)
    (fresh : s.world.semaphores = []) (semaphore : Nat) :
    (t.tasks.countP fun task => executing task && task.root.permit? == some semaphore) ≤
      cfg.maxConcurrentAgentCalls := by
  have accounted : Accounted cfg semaphore t := by
    induction run with
    | nil =>
      refine ⟨fun _ => 0, fun tid task at_ => ?_, by simp [held, World.free, fresh], fun _ => by simp [held]⟩
      rw [start.tasks] at at_
      cases at_
    | snoc run step ih => exact accounted_step step (run.tasks_within start.tasks (body_sized cfg)) ih
  obtain ⟨balance, funded, bounded, -⟩ := accounted
  have left := run.leaves start.tasks leftOf_engine
  refine Nat.le_trans (countP_le_held t.tasks fun tid task at_ holds => ?_)
    (Nat.le_trans (Nat.le_add_right _ _) bounded)
  simp only [Bool.and_eq_true, beq_iff_eq] at holds
  exact holds_of_executing (left task (List.mem_of_getElem? at_)) (funded tid task at_).balanced
    holds.1 holds.2

/-! ## All executions -/

theorem executing_execution (cfg : WorkerConfig) {f : Fn} (isExecution : f.isExecution = true) :
    executing ⟨f, body cfg f⟩ = true := by
  cases f with
  | executeHostJob => rfl
  | _ => cases isExecution

theorem isExecution_of_executing {task : Task Op Op.Resp Fn} (running : executing task = true) :
    task.root.isExecution = true := by
  unfold executing at running
  split at running <;> first | contradiction | exact running

theorem not_executing {task : Task Op Op.Resp Fn} (none : task.root.isExecution = false) :
    executing task = false := by
  cases running : executing task with
  | false => rfl
  | true => rw [isExecution_of_executing running] at none; cases none

/-- A task that goes on: its call is in progress after a step only if it was before. -/
theorem executing_op {root : Fn} {o : Op} {next : o.Resp → Proc Unit} (r : o.Resp)
    (left : LeftOf root (.op o next)) (after : executing ⟨root, next r⟩ = true) :
    executing ⟨root, .op o next⟩ = true := by
  have isExecution := isExecution_of_executing after
  cases o with
  | release own =>
    cases root with
    | executeHostJob jobId hostId pjhId permit =>
      rcases left jobId hostId pjhId permit rfl with gone | ⟨q, loose, same⟩
      · cases gone
      · cases q with
        | ret value =>
          cases permit with
          | some own => cases same; cases after
          | none => cases same
        | op o' next' => cases same; exact absurd rfl loose.1
        | spawn | jump => cases same
    | _ => cases isExecution
  | _ => exact isExecution

/-- An execution starts no execution. -/
theorem spawns_none {root f : Fn} {next : Proc Unit} (left : LeftOf root (.spawn f next))
    (starts : f.isExecution = true) : root.isExecution = false := by
  cases root with
  | executeHostJob jobId hostId pjhId permit =>
    rcases left jobId hostId pjhId permit rfl with gone | ⟨q, loose, same⟩
    · cases gone
    · cases q with
      | ret value => cases permit <;> cases same
      | spawn g next' =>
        cases same
        exact absurd (starts.symm.trans loose.1) (by decide)
      | op | jump => cases same
  | _ => rfl

theorem countP_set_le {A : Type} {p : A → Bool} {l : List A} {i : Nat} {a b : A} (old : l[i]? = some a)
    (kept : p b = true → p a = true) : (l.set i b).countP p ≤ l.countP p := by
  obtain ⟨inside, value⟩ := List.getElem?_eq_some_iff.mp old
  have counted : (if p a then 1 else 0) ≤ l.countP p := by
    split
    · exact List.countP_pos_iff.mpr ⟨a, List.mem_of_getElem? old, ‹_›⟩
    · exact Nat.zero_le _
  rw [List.countP_set inside, value]
  by_cases after : p b = true
  · rw [if_pos after, if_pos (kept after)]
    rw [if_pos (kept after)] at counted
    omega
  · rw [if_neg after]
    omega

/-- A step that starts no execution leaves no more in progress than there were. -/
theorem inProgress_step (step : Step (engine cfg) s l t)
    (left : ∀ task ∈ s.tasks, LeftOf task.root task.prog)
    (noStart : ∀ parent f, l = .spawn parent f → f.isExecution = false) :
    inProgress t ≤ inProgress s := by
  unfold inProgress
  cases step with
  | op at_ done => exact countP_set_le at_ (executing_op _ (left _ (List.mem_of_getElem? at_)))
  | spawn at_ =>
    rw [List.countP_append, List.countP_singleton, if_neg (by rw [not_executing (noStart _ _ rfl)]; simp)]
    exact countP_set_le at_ isExecution_of_executing
  | jump at_ => exact countP_set_le at_ isExecution_of_executing
  | @enter f w called =>
    have noExecution : f.isExecution = false := by
      cases f with
      | executeHostJob => rcases called.1 with request | tick <;> simp [Fn.isRequest, Fn.isTick] at *
      | _ => rfl
    rw [List.countP_append, List.countP_singleton, if_neg (by rw [not_executing noExecution]; simp)]
    exact le_rfl
  | drift => exact le_rfl
  | restart =>
    refine (List.countP_map).trans_le (List.countP_mono_left fun task _ running => ?_)
    simp only [Function.comp_apply] at running
    split at running
    · cases running
    · exact running
  | abandon at_ => exact countP_set_le at_ nofun

/-- An execution that is started adds one. -/
theorem inProgress_start {parent : Nat} {f : Fn} (step : Step (engine cfg) s (.spawn parent f) t)
    (left : ∀ task ∈ s.tasks, LeftOf task.root task.prog) (starts : f.isExecution = true) :
    inProgress t = inProgress s + 1 := by
  cases step with
  | @spawn _ root _ next at_ =>
    obtain ⟨inside, value⟩ := List.getElem?_eq_some_iff.mp at_
    have noExecution := spawns_none (left _ (List.mem_of_getElem? at_)) starts
    unfold inProgress
    have ended : executing ⟨root, next⟩ = false := not_executing noExecution
    have new : executing ⟨f, (engine cfg).body f⟩ = true := executing_execution cfg starts
    rw [List.countP_append, List.countP_singleton, if_pos new, List.countP_set inside, value,
      not_executing noExecution, ended]
    simp

/-- After a start that one semaphore governs, all executions in progress are under it. -/
theorem governed_bound (run : Run (engine cfg) s h t) (start : Initial s)
    (fresh : s.world.semaphores = []) {semaphore : Nat}
    (all : ∀ task ∈ t.tasks, executing task = true → task.root.permit? = some semaphore) :
    inProgress t ≤ cfg.maxConcurrentAgentCalls := by
  refine Nat.le_trans ?_ (permits_bound run start fresh semaphore)
  refine List.countP_mono_left fun task mem running => ?_
  simp [running, all task mem running]

theorem governed_after {parent : Nat} {f : Fn} (step : Step (engine cfg) s (.spawn parent f) t)
    (governed : Governed s f) :
    ∃ semaphore, ∀ task ∈ t.tasks, executing task = true → task.root.permit? = some semaphore := by
  obtain ⟨semaphore, permit, all⟩ := governed
  refine ⟨semaphore, fun task mem running => ?_⟩
  cases step with
  | @spawn _ root _ next at_ =>
    rcases List.mem_append.mp mem with old | new
    · rcases List.mem_or_eq_of_mem_set old with old | rfl
      · exact all task old running
      · have isExecution : root.isExecution = true := isExecution_of_executing running
        exact all ⟨root, .spawn f next⟩ (List.mem_of_getElem? at_) isExecution
    · obtain rfl := List.mem_singleton.mp new
      exact permit

/-- Every execution started next to others that its semaphore does not count finds room. -/
def FindsRoom (cfg : WorkerConfig) (e : Event World Op Op.Resp Fn) : Prop :=
  ∀ parent f, e.label = .spawn parent f → f.isExecution = true → ¬ Governed e.pre f →
    inProgress e.pre < cfg.maxConcurrentAgentCalls

/-- The state a run of such steps leads to is within the bound. -/
theorem inProgress_le (run : Run (engine cfg) s h t) (start : Initial s)
    (fresh : s.world.semaphores = []) (room : ∀ e ∈ h, FindsRoom cfg e) :
    inProgress t ≤ cfg.maxConcurrentAgentCalls := by
  induction run with
  | nil => simp [inProgress, start.tasks]
  | @snoc h u v l run step ih =>
    have left := run.leaves start.tasks leftOf_engine
    have before := ih fun e mem => room e (List.mem_append_left _ mem)
    by_cases starts : ∃ parent f, l = .spawn parent f ∧ f.isExecution = true
    · obtain ⟨parent, f, rfl, isExecution⟩ := starts
      by_cases governed : Governed u f
      · obtain ⟨semaphore, all⟩ := governed_after step governed
        exact governed_bound (run.snoc step) start fresh all
      · have added := inProgress_start step left isExecution
        have free : inProgress u < cfg.maxConcurrentAgentCalls :=
          room ⟨u, _, v⟩ (by simp) parent f rfl isExecution governed
        omega
    · refine Nat.le_trans (inProgress_step step left fun parent f label => ?_) before
      cases isExecution : f.isExecution with
      | false => rfl
      | true => exact absurd ⟨parent, f, label, isExecution⟩ starts

/-- The executions in progress stay within the bound in every state of a run exactly if every
    execution started next to others that its semaphore does not count finds room. -/
theorem executions_bounded_iff (run : Run (engine cfg) s h t) (start : Initial s)
    (fresh : s.world.semaphores = []) :
    (∀ e ∈ h, inProgress e.post ≤ cfg.maxConcurrentAgentCalls) ↔ ∀ e ∈ h, FindsRoom cfg e := by
  constructor
  · intro bounded e mem parent f label starts _
    obtain ⟨h₁, h₂, rfl⟩ := List.append_of_mem mem
    obtain ⟨before, step, -⟩ := run.split_event
    rw [label] at step
    have added := inProgress_start step (before.leaves start.tasks leftOf_engine) starts
    have bound := bounded e mem
    omega
  · intro room e mem
    obtain ⟨h₁, h₂, rfl⟩ := List.append_of_mem mem
    obtain ⟨before, step, -⟩ := run.split_event
    refine inProgress_le (before.snoc step) start fresh fun e' mem' => room e' ?_
    rcases List.mem_append.mp mem' with old | last
    · exact List.mem_append_left _ old
    · rw [List.mem_singleton.mp last]
      exact mem

/-- The dispatch of one job with one host. -/
def Small.dispatched : List (Event World Op Op.Resp Fn) :=
  player.history start (creates ++ processes 1)

theorem executions_bounded_iff_dispatched :
    (∀ e ∈ Small.dispatched, inProgress e.post ≤ 4) ↔
      ∀ e ∈ Small.dispatched, FindsRoom Small.config e := by
  have plays : (Small.player.play Small.start (Small.creates ++ Small.processes 1)).isSome = true := by
    decide +kernel
  exact executions_bounded_iff (Small.player.run_of_play plays) Small.start_initial rfl

namespace Small

/-- One agent call at a time. -/
def narrow : WorkerConfig := { config with maxConcurrentAgentCalls := 1 }

/-- Two jobs with one host each are created, as tasks 0 and 1, and dispatched, as tasks 2 and 4. -/
def crowded : List (Move (enginePlayer narrow)) :=
  let steps (tid n : Nat) : List (Move (enginePlayer narrow)) := List.replicate n (.run tid .ok)
  [.call (.createJob user immediateJob)] ++ steps 0 3 ++ [.call (.createJob user immediateJob)] ++
    steps 1 3 ++ [.call (.processJob 1)] ++ steps 2 5 ++ [.call (.processJob 3)] ++ steps 4 5

end Small

/-- Each of two jobs has a semaphore of its own, with one permit. -/
theorem executions_exceed :
    ¬ ∀ (cfg : WorkerConfig) (s t : State) (h : List (Event World Op Op.Resp Fn)), Initial s →
      s.world.semaphores = [] → Run (engine cfg) s h t →
        inProgress t ≤ cfg.maxConcurrentAgentCalls := by
  intro all
  obtain ⟨h₁, e, h₂, t, test, run⟩ := (enginePlayer Small.narrow).exists_event (s := Small.start)
    (show (((enginePlayer Small.narrow).play Small.start Small.crowded).getD []).any (fun e =>
      decide (inProgress e.post = 2)) = true by decide +kernel)
  obtain ⟨before, step, -⟩ := run.split_event
  have bound := all Small.narrow Small.start e.post _ Small.start_initial rfl (before.snoc step)
  rw [of_decide_eq_true test] at bound
  exact absurd bound (by decide)

end PatchManager
