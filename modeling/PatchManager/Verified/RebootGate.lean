import PatchManager.Verified.AttemptAttribution

/-! # The reboot gate

Before an execution sends a reboot, or patches after which the agent may reboot, it reads whether the
host is held by an operator and whether its packages are all configured.  An execution is watched by what
it has asked that bears on this: the kind of its job, the state of its host, and the agent.

Main results:

* `asked_in_order`: the orders in which an execution asks these.
* `reboot_gate`: an execution that has found the host held sends no reboot and lets the agent do none, and
  no success of the row comes from an execution of a reboot job that has been refused.
-/

namespace PatchManager

open PatchManager.Conc

/-! ## What is watched -/

/-- The answer to the gate's read has the host held, or its packages not all configured. -/
def refuses : Except String (Option (Bool × Bool)) → Bool
  | .ok (some (rebootPaused, packageDbClean)) => rebootPaused || !packageDbClean
  | _ => false

theorem refuses_iff (rebootPaused packageDbClean : Bool) :
    (rebootRefusalReason rebootPaused packageDbClean).isSome = refuses (.ok (some (rebootPaused, packageDbClean))) := by
  cases rebootPaused <;> cases packageDbClean <;> rfl

/-- What an execution has asked: its job, the state of its host, or the agent, which may have accepted a
    row under a job of its own. -/
inductive Asked where
  | job (kind : Option JobKind)
  | gate (refused : Bool)
  | agent (accepted : Option (Uuid × String))

def asked? : Exchange Op Op.Resp → Option Asked
  | ⟨.sql (.select (.jobInfo _)), .ok (some info)⟩ => some (.job (some info.kind))
  | ⟨.sql (.select (.jobInfo _)), _⟩ => some (.job none)
  | ⟨.sql (.select (.rebootSafety _)), state⟩ => some (.gate (refuses state))
  | ⟨.applyPatches pjhId client req, answer⟩ => some (.agent ((Op.applyPatches pjhId client req).accepted? answer))
  | ⟨.reboot pjhId client req, answer⟩ => some (.agent ((Op.reboot pjhId client req).accepted? answer))
  | ⟨.updatePackage pjhId client package, answer⟩ =>
    some (.agent ((Op.updatePackage pjhId client package).accepted? answer))
  | _ => none

/-- The statements that can make a row succeed. -/
def HostUpdate.maySucceed : HostUpdate → Bool
  | setSucceeded _ _ | relayTerminal _ _ _ | relayRunning _ _ _ => true
  | _ => false

/-- What an execution may do after it has asked so much. -/
def GatePermits (asked : List Asked) : Op → Prop
  | .sql (.select (.jobInfo _)) => asked = []
  | .sql (.select (.rebootSafety _)) => ∃ kind, asked = [.job (some kind)]
  | .reboot _ _ _ => asked = [.job (some .reboot), .gate false]
  | .applyPatches _ _ req => ∃ kind refused, asked = [.job (some kind), .gate refused] ∧ kind ≠ .reboot ∧
      (refused = true → req.allowReboot = false)
  | .updatePackage _ _ _ => asked = [.job (some .selfUpgrade)]
  | .sql (.updateHosts u) => u.maySucceed = false
  | _ => True

/-- Operations that are permitted anywhere and ask nothing that is watched. -/
def Op.isSilent : Op → Bool
  | sql (.select (.jobInfo _)) | sql (.select (.rebootSafety _)) => false
  | applyPatches _ _ _ | reboot _ _ _ | updatePackage _ _ _ => false
  | sql (.updateHosts u) => !u.maySucceed
  | _ => true

theorem Op.isSilent_spec {o : Op} (silent : o.isSilent = true) :
    (∀ asked, GatePermits asked o) ∧ ∀ answer, asked? ⟨o, answer⟩ = none := by
  cases o with
  | sql s =>
    cases s with
    | select q =>
      cases q with
      | jobInfo | rebootSafety => cases silent
      | _ => exact ⟨fun _ => trivial, fun _ => rfl⟩
    | updateHosts u =>
      have notSucceeds : u.maySucceed = false := by simpa [Op.isSilent] using silent
      exact ⟨fun _ => notSucceeds, fun _ => rfl⟩
    | _ => exact ⟨fun _ => trivial, fun _ => rfl⟩
  | applyPatches | reboot | updatePackage => cases silent
  | _ => exact ⟨fun _ => trivial, fun _ => rfl⟩

/-- The function of a task and what it has asked. -/
structure Watched where
  root : Option Fn := none
  asked : List Asked := []

def Watched.next (σ : Watched) (o : Op) (answer : o.Resp) : Watched :=
  { σ with asked := σ.asked ++ (asked? ⟨o, answer⟩).toList }

/-- The task executes a host row. -/
def Watched.executes (σ : Watched) : Bool := σ.root.any fun f => f.executes?.isSome

def gateContract : Contract Op Op.Resp Fn where
  State := Watched
  idle := {}
  init f := { root := some f }
  next := .next
  rely _ _ := True
  guar σ o := σ.executes = true → GatePermits σ.asked o
  start _ _ := True
  tail σ _ := σ.executes = false
  exit _ := True

/-! ## Executions -/

/-- Only executions are held to anything. -/
theorem gated_of_other {α : Type} {σ : Watched} (other : σ.executes = false) (p : Proc α) :
    p.Along gateContract (fun _ _ => True) σ := by
  induction p generalizing σ with
  | ret value => trivial
  | op o next ih =>
    refine ⟨fun executes => ?_, fun answer _ => ih answer other⟩
    rw [other] at executes
    cases executes
  | spawn f next ih => exact ⟨trivial, ih other⟩
  | jump f => exact other

abbrev Silent {α : Type} (p : Proc α) : Prop :=
  p.Within (fun o => o.isSilent = true) (fun _ => True) fun _ => False

section execution

variable {σ : Watched} {pjhId : Uuid}

theorem gated_of_silent {α : Type} {p : Proc α} (silent : Silent p) :
    p.Along gateContract (fun τ _ => τ = σ) σ := by
  refine silent.along (C := gateContract) (fun o own => ?_) (fun _ _ => trivial) fun _ none => none.elim
  obtain ⟨permits, unseen⟩ := Op.isSilent_spec own
  refine ⟨fun _ => permits _, fun answer => ?_⟩
  simp [gateContract, Watched.next, unseen answer]

theorem gated_bind {α β : Type} {p : Proc α} {rest : α → Proc β} (silent : Silent p)
    (later : ∀ a, (rest a).Along gateContract (fun _ _ => True) σ) :
    (p.bind rest).Along gateContract (fun _ _ => True) σ := by
  refine (gated_of_silent silent).bind fun τ a same => ?_
  subst same
  exact later a

theorem gated_end {α : Type} {p : Proc α} (silent : Silent p) : p.Along gateContract (fun _ _ => True) σ :=
  (gated_of_silent silent).weaken fun _ _ _ => trivial

theorem gated_op {α : Type} {o : Op} {next : o.Resp → Proc α} (permitted : GatePermits σ.asked o)
    (later : ∀ answer, (next answer).Along gateContract (fun _ _ => True) (σ.next o answer)) :
    (Prog.op o next).Along gateContract (fun _ _ => True) σ :=
  ⟨fun _ => permitted, fun answer _ => later answer⟩

theorem gated_step {α : Type} {o : Op} {next : o.Resp → Proc α} (silent : o.isSilent = true)
    (later : ∀ answer, (next answer).Along gateContract (fun _ _ => True) σ) :
    (Prog.op o next).Along gateContract (fun _ _ => True) σ := by
  obtain ⟨permits, unseen⟩ := Op.isSilent_spec silent
  refine gated_op (permits _) fun answer => ?_
  simpa [Watched.next, unseen answer] using later answer

theorem syncJobStatus_silent (jobId : Uuid) : Silent (syncJobStatus jobId) := by
  refine .op rfl fun answer => ?_
  cases answer with
  | error reason => exact .ret _
  | ok counts =>
    cases aggregate : aggregateStatus counts with
    | none => simpa [aggregate] using Prog.Within.ret ()
    | some status =>
      simp only [Prog.ret_bind, aggregate]
      exact .op rfl fun _ => .op rfl fun _ => .ite (.spawn trivial (.ret _)) (.ret _)

theorem handleHostFailure_silent (errorMsg : String) : Silent (handleHostFailure pjhId errorMsg) := by
  refine .op rfl fun answer => ?_
  match answer with
  | .error reason => exact .ret _
  | .ok none => exact .ret _
  | .ok (some row) =>
    refine .ite (.ret _) (.ite (.op rfl fun _ => .op rfl fun _ => .ret _) (.op rfl fun answer => ?_))
    cases answer with
    | error reason => exact .ret _
    | ok affected => exact .ite (syncJobStatus_silent _) (.ret _)

theorem checkHostHealthChecks_silent (hostId : Uuid) : Silent (checkHostHealthChecks hostId) := by
  refine .op rfl fun answer => ?_
  cases answer with
  | error reason => exact .ret _
  | ok checkCount =>
    refine .ite (.ret _) (.op rfl fun answer => ?_)
    cases answer <;> exact .ret _

theorem waitForHealthChecks_silent (hostId : Uuid) : Silent (waitForHealthChecks hostId pjhId) :=
  .op rfl fun _ => .ite (handleHostFailure_silent _) (.op rfl fun _ => .op rfl fun _ => .ret _)

theorem recordSubmission_silent (answer : Except AgentClientError SubmitResponse) :
    Silent (recordSubmission pjhId answer) := by
  cases answer with
  | error e => exact handleHostFailure_silent _
  | ok resp => exact .op rfl fun _ => .ret _

theorem expandPackages_silent (hostId : Uuid) (patchSelection : Json) : Silent (expandPackages hostId patchSelection) := by
  refine .ite (.op rfl fun answer => ?_) (.ret _)
  match answer with
  | .ok (some val) => exact .ret _
  | .ok none => exact .ret _
  | .error reason => exact .ret _

theorem submitReboot_gated (client : AgentClient) (asked : σ.asked = [.job (some .reboot), .gate false]) :
    (submitReboot pjhId client).Along gateContract (fun _ _ => True) σ :=
  gated_op asked fun answer => gated_end (recordSubmission_silent answer)

theorem asked_gate {kind : Option JobKind} {hostId : Uuid} (asked : σ.asked = [.job kind])
    (state : Except String (Option (Bool × Bool))) :
    (σ.next (.sql (.select (.rebootSafety hostId))) state).asked = [.job kind, .gate (refuses state)] := by
  simp [Watched.next, asked, asked?]

theorem executeRebootHostJob_gated (hostId : Uuid) (client : AgentClient) (asked : σ.asked = [.job (some .reboot)]) :
    (executeRebootHostJob pjhId hostId client).Along gateContract (fun _ _ => True) σ := by
  refine gated_op ⟨_, asked⟩ fun state => ?_
  have next : (σ.next (.sql (.select (.rebootSafety hostId))) state).asked =
      [.job (some .reboot), .gate (refuses state)] := asked_gate asked state
  rcases state with reason | _ | ⟨rebootPaused, packageDbClean⟩
  · exact submitReboot_gated client next
  · exact submitReboot_gated client next
  · rw [← refuses_iff] at next
    simp only [Prog.ret_bind, Prog.pure_eq]
    split
    · exact gated_step rfl fun _ => gated_end (handleHostFailure_silent _)
    · rename_i refusal
      rw [refusal] at next
      exact submitReboot_gated client next

theorem executePatchHostJob_gated (hostId : Uuid) (client : AgentClient) (patchSelection : Json)
    (allowReboot : Bool) (rebootDelaySeconds : Nat) {kind : JobKind} (asked : σ.asked = [.job (some kind)])
    (notReboot : kind ≠ .reboot) :
    (executePatchHostJob pjhId hostId client patchSelection allowReboot rebootDelaySeconds).Along gateContract
      (fun _ _ => True) σ := by
  refine gated_bind (expandPackages_silent hostId patchSelection) fun packages => ?_
  refine gated_op ⟨_, asked⟩ fun state => ?_
  have next : (σ.next (.sql (.select (.rebootSafety hostId))) state).asked =
      [.job (some kind), .gate (refuses state)] := asked_gate asked state
  match state with
  | .error reason =>
    exact gated_op ⟨_, _, next, notReboot, nofun⟩ fun answer => gated_end (recordSubmission_silent answer)
  | .ok none =>
    exact gated_op ⟨_, _, next, notReboot, nofun⟩ fun answer => gated_end (recordSubmission_silent answer)
  | .ok (some (rebootPaused, packageDbClean)) =>
    refine gated_op ⟨_, _, next, notReboot, fun refused => ?_⟩ fun answer => gated_end (recordSubmission_silent answer)
    rw [← refuses_iff] at refused
    exact if_pos refused

theorem dispatchByKind_gated (hostId : Uuid) (client : AgentClient) (jobInfo : JobInfo)
    (asked : σ.asked = [.job (some jobInfo.kind)]) :
    (dispatchByKind hostId pjhId client jobInfo).Along gateContract (fun _ _ => True) σ := by
  unfold dispatchByKind
  split
  · rename_i kind
    rw [kind] at asked
    exact gated_op asked fun answer => gated_end (recordSubmission_silent answer)
  · rename_i kind
    rw [kind] at asked
    exact executeRebootHostJob_gated hostId client asked
  · rename_i _ notReboot
    exact executePatchHostJob_gated hostId client _ _ _ asked notReboot

theorem submitHostJob_gated (jobId hostId : Uuid) (host : HostRow) (asked : σ.asked = []) :
    (submitHostJob jobId hostId pjhId host).Along gateContract (fun _ _ => True) σ := by
  refine gated_op asked fun answer => ?_
  match answer with
  | .error e => exact gated_end (handleHostFailure_silent _)
  | .ok none => exact gated_end (handleHostFailure_silent _)
  | .ok (some jobInfo) =>
    have next : (σ.next (.sql (.select (.jobInfo jobId))) (.ok (some jobInfo))).asked =
        [.job (some jobInfo.kind)] := by
      simp [Watched.next, asked, asked?]
    refine gated_step rfl fun answer => ?_
    cases answer with
    | error e => exact gated_end (handleHostFailure_silent _)
    | ok =>
      refine gated_step rfl fun answer => ?_
      cases answer with
      | error e => exact gated_end (handleHostFailure_silent _)
      | ok => exact gated_step rfl fun _ => dispatchByKind_gated hostId _ jobInfo next

theorem executeHostJob_gated (jobId hostId : Uuid) (asked : σ.asked = []) :
    (executeHostJob jobId hostId pjhId).Along gateContract (fun _ _ => True) σ := by
  refine gated_step rfl fun answer => ?_
  match answer with
  | .error e => exact gated_end (handleHostFailure_silent _)
  | .ok none => exact gated_end (handleHostFailure_silent _)
  | .ok (some host) =>
    change Prog.Along gateContract _ _ ((checkHostHealthChecks hostId).bind fun answer => _)
    refine gated_bind (checkHostHealthChecks_silent hostId) fun answer => ?_
    match answer with
    | .ok true => exact submitHostJob_gated jobId hostId host asked
    | .ok false => exact gated_end (waitForHealthChecks_silent hostId)
    | .error reason => exact submitHostJob_gated jobId hostId host asked

end execution

theorem body_gated (cfg : WorkerConfig) (f : Fn) :
    (body cfg f).Along gateContract (fun _ _ => True) { root := some f } := by
  cases f with
  | executeHostJob jobId hostId pjhId permit =>
    refine (executeHostJob_gated jobId hostId rfl).bind fun σ _ _ => ?_
    cases permit with
    | none => trivial
    | some semaphore => exact gated_step rfl fun _ => trivial
  | _ => exact gated_of_other rfl _

theorem engine_gated (cfg : WorkerConfig) : (engine cfg).Keeps gateContract where
  starts _ f _ := body_gated cfg f
  tails _ f other := gated_of_other other (body cfg f)
  idle := trivial

/-! ## What an execution has asked -/

def askedBy (l : List (Exchange Op Op.Resp)) : List Asked := l.filterMap asked?

/-- The orders in which an execution asks. -/
inductive AskedInOrder : List Asked → Prop
  | nothing : AskedInOrder []
  | job (kind : Option JobKind) : AskedInOrder [.job kind]
  | gate (kind : JobKind) (refused : Bool) : AskedInOrder [.job (some kind), .gate refused]
  | upgrade (accepted : Option (Uuid × String)) : AskedInOrder [.job (some .selfUpgrade), .agent accepted]
  | reboot (accepted : Option (Uuid × String)) :
    AskedInOrder [.job (some .reboot), .gate false, .agent accepted]
  | patch {kind : JobKind} (notReboot : kind ≠ .reboot) (refused : Bool) (accepted : Option (Uuid × String)) :
    AskedInOrder [.job (some kind), .gate refused, .agent accepted]

theorem AskedInOrder.step {asked : List Asked} (inOrder : AskedInOrder asked) {o : Op} (permits : GatePermits asked o)
    (answer : o.Resp) : AskedInOrder (asked ++ (asked? ⟨o, answer⟩).toList) := by
  by_cases silent : o.isSilent = true
  · simpa [(Op.isSilent_spec silent).2 answer] using inOrder
  · cases o with
    | sql s =>
      cases s with
      | select q =>
        cases q with
        | jobInfo jobId =>
          obtain rfl : asked = [] := permits
          match answer with
          | .error reason => exact .job none
          | .ok none => exact .job none
          | .ok (some info) => exact .job (some info.kind)
        | rebootSafety hostId =>
          obtain ⟨kind, rfl⟩ := permits
          exact .gate kind (refuses answer)
        | _ => exact absurd rfl silent
      | updateHosts u =>
        have none : asked? ⟨.sql (.updateHosts u), answer⟩ = none := rfl
        simpa [none] using inOrder
      | _ => exact absurd rfl silent
    | applyPatches pjhId client req =>
      obtain ⟨kind, refused, rfl, notReboot, -⟩ := permits
      exact .patch notReboot refused _
    | reboot pjhId client req =>
      obtain rfl : asked = [.job (some .reboot), .gate false] := permits
      exact .reboot _
    | updatePackage pjhId client package =>
      obtain rfl : asked = [.job (some .selfUpgrade)] := permits
      exact .upgrade _
    | _ => exact absurd rfl silent

/-- An execution of a reboot job that is refused does not go to the agent. -/
theorem AskedInOrder.refused {asked : List Asked} (inOrder : AskedInOrder asked) (gate : .gate true ∈ asked)
    (job : .job (some .reboot) ∈ asked) (accepted : Option (Uuid × String)) : .agent accepted ∉ asked := by
  cases inOrder with
  | patch notReboot => simp [Ne.symm notReboot] at job
  | _ => simp_all

section run

variable {cfg : WorkerConfig} {s t : State} {h h₁ h₂ : List (Event World Op Op.Resp Fn)} {tid : Nat}
  {task : Task Op Op.Resp Fn} {e : Event World Op Op.Resp Fn}

theorem watched_exchanges (root : Fn) (l : List (Exchange Op Op.Resp)) (asked : List Asked) :
    l.foldl (fun σ x => gateContract.next σ x.1 x.2) (⟨some root, asked⟩ : Watched) =
      ⟨some root, asked ++ askedBy l⟩ := by
  induction l generalizing asked with
  | nil =>
    rw [askedBy, List.filterMap_nil, List.append_nil]
    rfl
  | cons x l ih =>
    refine (ih _).trans ?_
    cases seen : asked? x <;> simp [askedBy, seen, gateContract]

/-- What an execution does is permitted after what it has asked. -/
theorem execution_permitted (run : Run (engine cfg) s h t) (initial : Initial s) (at_ : t.tasks[tid]? = some task)
    (executes : task.root.executes?.isSome = true) (split : h = h₁ ++ e :: h₂) {o : Op} {answer : o.Resp}
    (label : e.label = .op tid o answer) : GatePermits (askedBy (exchanges tid h₁)) o := by
  subst split
  obtain ⟨before, step, after⟩ := run.split_event
  have relies : ∀ e' ∈ h₁ ++ e :: h₂, gateContract.Relies e'.label := fun e' _ => by
    cases e'.label <;> trivial
  have permitted := (run.guarantees (engine_gated cfg) relies (Sys.along_of_empty initial.tasks)).2 h₁ e h₂ rfl
  rw [label] at permitted step
  obtain ⟨root, next, w, there, -, post⟩ := step.op_inv
  have ghost := before.ghost_exchanges (C := gateContract) initial.tasks there (by simp)
  -- the task is the execution it was started as
  have same : task.root = root := by
    have going : e.post.tasks[tid]? = some ⟨root, next answer⟩ := by
      rw [post]
      simp [(List.getElem?_eq_some_iff.mp there).1]
    obtain ⟨task', there', continued, -⟩ := after.task_kept going
    rw [Option.some.inj (at_.symm.trans there'), continued]
  have start : gateContract.init root = (⟨some root, []⟩ : Watched) := rfl
  rw [start, watched_exchanges] at ghost
  have guar := show gateContract.guar ((engine cfg).ghost gateContract h₁ tid) o from permitted
  rw [ghost] at guar
  exact guar (by simpa [Watched.executes, ← same] using executes)

/-- An execution asks in one of these orders. -/
theorem asked_in_order (run : Run (engine cfg) s h t) (initial : Initial s) (at_ : t.tasks[tid]? = some task)
    (executes : task.root.executes?.isSome = true) : AskedInOrder (askedBy (exchanges tid h)) := by
  have parts : ∀ l₁ l₂, exchanges tid h = l₁ ++ l₂ → AskedInOrder (askedBy l₁) := by
    intro l₁
    induction l₁ using List.reverseRecOn with
    | nil => exact fun _ _ => .nothing
    | append_singleton l₁ x ih =>
      intro l₂ split
      obtain ⟨o, answer⟩ := x
      rw [List.append_assoc] at split
      obtain ⟨h₁, e, h₂, whole, first, label⟩ := exchanges_split split
      have permits := execution_permitted run initial at_ executes whole label
      rw [first] at permits
      have next := (ih _ split).step permits answer
      cases seen : asked? ⟨o, answer⟩ <;> simpa [askedBy, seen] using next
  exact parts _ [] (by simp)

/-! ## The gate -/

/-- The read of the gate. -/
abbrev Op.gate (hostId : Uuid) : Op := .sql (.select (.rebootSafety hostId))

/-- The row has succeeded at this event, by the execution `tid` itself or by a report on an agent job that
    the execution has got. -/
def SucceedsThrough (tid : Nat) (pjhId : Uuid) (h : List (Event World Op Op.Resp Fn))
    (e : Event World Op Op.Resp Fn) : Prop :=
  ((e.pre.world.db.pjh pjhId).any fun r => r.status != .succeeded) = true ∧
    ((e.post.world.db.pjh pjhId).any fun r => r.status == .succeeded) = true ∧
    ∃ tid' o answer, e.label = .op tid' o answer ∧ (tid' = tid ∨
      ∃ task agentJobId, e.pre.tasks[tid']? = some task ∧
        task.root.reportsOn e.pre.world.db pjhId = some agentJobId ∧
        ∃ x ∈ exchanges tid h, x.1.accepted? x.2 = some (pjhId, agentJobId))

/-- The gate of the execution `tid` of a row. -/
structure GateHolds (tid : Nat) (pjhId : Uuid) (h : List (Event World Op Op.Resp Fn)) : Prop where
  /-- A reboot or patches are only sent after the gate has been read. -/
  reads : ∀ h₁ e h₂ o answer, h = h₁ ++ e :: h₂ → e.label = .op tid o answer →
    ((∃ id client req, o = .reboot id client req) ∨ ∃ id client req, o = .applyPatches id client req) →
      ∃ hostId state, ⟨.gate hostId, state⟩ ∈ exchanges tid h₁
  /-- When it refuses, no reboot is sent, and no patches after which the agent may reboot. -/
  refusal : ∀ hostId state, ⟨.gate hostId, state⟩ ∈ exchanges tid h → refuses state = true →
    ∀ x ∈ exchanges tid h, (∀ id client req, x.1 ≠ .reboot id client req) ∧
      ∀ id client req, x.1 = .applyPatches id client req → req.allowReboot = false
  /-- When it refuses a reboot job, the row does not succeed through the execution. -/
  failure : ∀ hostId state jobId info, ⟨.gate hostId, state⟩ ∈ exchanges tid h → refuses state = true →
    ⟨.sql (.select (.jobInfo jobId)), .ok (some info)⟩ ∈ exchanges tid h → info.kind = .reboot →
      ∀ e ∈ h, ¬ SucceedsThrough tid pjhId h e

theorem mem_askedBy {l : List (Exchange Op Op.Resp)} {x : Exchange Op Op.Resp} (mem : x ∈ l) {seen : Asked}
    (asked : asked? x = some seen) : seen ∈ askedBy l := List.mem_filterMap.mpr ⟨x, mem, asked⟩

theorem exists_gate {l : List (Exchange Op Op.Resp)} {refused : Bool} (mem : .gate refused ∈ askedBy l) :
    ∃ hostId state, ⟨.gate hostId, state⟩ ∈ l ∧ refuses state = refused := by
  obtain ⟨⟨o, answer⟩, there, seen⟩ := List.mem_filterMap.mp mem
  unfold asked? at seen
  split at seen <;> simp only [Option.some.injEq, reduceCtorEq, Asked.gate.injEq] at seen
  rename_i host state eq
  exact ⟨host, state, eq ▸ there, seen⟩

theorem asked_of_accepted {x : Exchange Op Op.Resp} {row : Uuid × String} (accepted : x.1.accepted? x.2 = some row) :
    asked? x = some (.agent (some row)) := by
  obtain ⟨o, answer⟩ := x
  cases o with
  | applyPatches | reboot | updatePackage => exact congrArg (some ∘ Asked.agent) accepted
  | _ => cases accepted

theorem AskedInOrder.gate_unique {asked : List Asked} (inOrder : AskedInOrder asked) {a b : Bool}
    (first : .gate a ∈ asked) (second : .gate b ∈ asked) : a = b := by
  cases inOrder <;> simp_all

/-- Only some statements make a row succeed. -/
theorem HostUpdate.not_succeeded {u : HostUpdate} (other : u.maySucceed = false) (now : Time) {r : PatchJobHost}
    (before : r.status ≠ .succeeded) : ((u.update now).onRow r).status ≠ .succeeded := by
  by_cases met : (u.update now).cond r = true
  · rw [Sql.Update.onRow_eq_assign met]
    cases u with
    | setSucceeded | relayTerminal | relayRunning => cases other
    | storeAgentJobId => exact before
    | _ => exact nofun
  · rw [Sql.Update.onRow_eq_self (by simpa using met)]
    exact before

/-- A permitted operation makes no row succeed. -/
theorem not_succeeded_of_permits {o : Op} {answer : o.Resp} {asked : List Asked} (permits : GatePermits asked o)
    (step : Step (engine cfg) s (.op tid o answer) t) {pjhId : Uuid} {r : PatchJobHost}
    (found : s.world.db.pjh pjhId = some r) (before : r.status ≠ .succeeded) :
    ∃ r', t.world.db.pjh pjhId = some r' ∧ r'.status ≠ .succeeded := by
  refine ⟨_, step_pjh step found, ?_⟩
  unfold hostEffect
  split
  · rename_i st effect
    cases st with
    | updateHosts u =>
      obtain ⟨_, _, label⟩ := took_eq_some effect
      cases label
      exact HostUpdate.not_succeeded permits _ before
    | _ => exact before
  · exact before

/-- The gate of every execution of every run. -/
theorem reboot_gate {pjhId : Uuid} (run : Run (engine cfg) s h t) (initial : Initial s)
    (at_ : t.tasks[tid]? = some task) (row : task.root.executes? = some pjhId) : GateHolds tid pjhId h := by
  have executes : task.root.executes?.isSome = true := by rw [row]; rfl
  have inOrder := asked_in_order run initial at_ executes
  constructor
  · intro h₁ e h₂ o answer split label sends
    have permits := execution_permitted run initial at_ executes split label
    rcases sends with ⟨id, client, req, rfl⟩ | ⟨id, client, req, rfl⟩
    · have asked : askedBy (exchanges tid h₁) = [.job (some .reboot), .gate false] := permits
      have read : .gate false ∈ askedBy (exchanges tid h₁) := by rw [asked]; simp
      obtain ⟨host, state, mem, -⟩ := exists_gate read
      exact ⟨host, state, mem⟩
    · obtain ⟨kind, refused, asked, -⟩ := permits
      have read : .gate refused ∈ askedBy (exchanges tid h₁) := by rw [asked]; simp
      obtain ⟨host, state, mem, -⟩ := exists_gate read
      exact ⟨host, state, mem⟩
  · intro host state gate refusal x mem
    have held : .gate true ∈ askedBy (exchanges tid h) := mem_askedBy gate (congrArg (some ∘ Asked.gate) refusal)
    obtain ⟨h₁, e, h₂, split, label⟩ := exists_event_of_mem mem
    have permits := execution_permitted run initial at_ executes split label
    have earlier : askedBy (exchanges tid h₁) ⊆ askedBy (exchanges tid h) := by
      rw [split]
      exact fun a there => List.filterMap_subset _ (fun _ => mem_exchanges_append) there
    constructor
    · intro id client req eq
      rw [eq] at permits
      have asked : askedBy (exchanges tid h₁) = [.job (some .reboot), .gate false] := permits
      have read : .gate false ∈ askedBy (exchanges tid h₁) := by rw [asked]; simp
      cases inOrder.gate_unique held (earlier read)
    · intro id client req eq
      rw [eq] at permits
      obtain ⟨kind, refused, asked, -, suppressed⟩ := permits
      have read : .gate refused ∈ askedBy (exchanges tid h₁) := by rw [asked]; simp
      exact suppressed (inOrder.gate_unique held (earlier read)).symm
  · rintro host state job info gate refusal read kind e mem ⟨before, after, tid', o, answer, label, through⟩
    have held : .gate true ∈ askedBy (exchanges tid h) := mem_askedBy gate (congrArg (some ∘ Asked.gate) refusal)
    have reboot : .job (some .reboot) ∈ askedBy (exchanges tid h) := mem_askedBy read (by rw [← kind]; rfl)
    rcases through with rfl | ⟨reporter, agentJobId, -, -, x, there, accepted⟩
    · rw [Option.any_eq_true] at before
      obtain ⟨r, found, notYet⟩ := before
      obtain ⟨h₁, h₂, split⟩ := List.append_of_mem mem
      have permits := execution_permitted run initial at_ executes split label
      have step := run.step_of_mem mem
      rw [label] at step
      obtain ⟨r', found', notSucceeded⟩ := not_succeeded_of_permits permits step found (by simpa using notYet)
      rw [found'] at after
      exact notSucceeded (by simpa using after)
    · exact inOrder.refused held reboot _ (mem_askedBy there (asked_of_accepted accepted))

end run

/-! ## A refused reboot -/

/-- An operator holds the host. -/
def pausedStart : State := ⟨{ db := { now := 0, hosts := [{ Small.host with rebootPaused := true }] } }, []⟩

theorem pausedStart_initial : Initial pausedStart := ⟨rfl, rfl, rfl, rfl⟩

/-- An immediate reboot job, whose execution is task 2. -/
def refusedReboot : List (Move Small.player) :=
  .call (.createJob Small.user { Small.immediateJob with kind := some .reboot }) :: Small.steps 0 3 ++
    Small.processes 1 ++ Small.steps 2 11

theorem reboot_gate_refusedReboot : GateHolds 2 2 (Small.player.history pausedStart refusedReboot) := by
  have plays : (Small.player.play pausedStart refusedReboot).isSome = true := by decide +kernel
  have executes : ((Player.last pausedStart (Small.player.history pausedStart refusedReboot)).tasks[2]?).any
      (fun task => task.root.executes? == some 2) = true := by decide +kernel
  rw [Option.any_eq_true] at executes
  obtain ⟨task, at_, row⟩ := executes
  exact reboot_gate (Small.player.run_of_play plays) pausedStart_initial at_ (by simpa using row)

end PatchManager
