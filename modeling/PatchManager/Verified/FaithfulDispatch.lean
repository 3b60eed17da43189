import PatchManager.Conc.Program
import PatchManager.Engine.Schedule
import PatchManager.Verified.Passive
import PatchManager.Verified.Skeleton

/-! # What the agent is asked to do

Patch, removal and rollback jobs all go to the agent as one request that names neither the
kind of the job nor, for a self-upgrade, its target version.  Two jobs are told apart by
what is left: the packages, the reboot flag and the delay.

Main result: `dispatch_faithful_iff`, the pairs of jobs the agent can tell apart.
-/

namespace PatchManager

open PatchManager.Conc

variable {env : (o : Op) → o.Resp} {jobId hostId pjhId : Uuid} {host : HostRow} {new : NewJob}

/-! ## Requests -/

/-- What is sent to an agent to start something. -/
inductive AgentRequest where
  | applyPatches (client : AgentClient) (req : ApplyPatchesRequest)
  | reboot (client : AgentClient) (req : RebootRequest)
  | updatePackage (client : AgentClient) (package : String)

def Op.request? : Op → Option AgentRequest
  | applyPatches _ client req => some (.applyPatches client req)
  | reboot _ client req => some (.reboot client req)
  | updatePackage _ client package => some (.updatePackage client package)
  | _ => none

/-- The requests `p` sends. -/
def requestsOf (env : (o : Op) → o.Resp) (p : Proc Unit) : List AgentRequest :=
  (p.trace env).filterMap Op.request?

/-- The requests `execute_host_job` sends. -/
def requests (env : (o : Op) → o.Resp) (jobId hostId pjhId : Uuid) : List AgentRequest :=
  requestsOf env (executeHostJob jobId hostId pjhId)

theorem requestsOf_op (o : Op) (next : o.Resp → Proc Unit) :
    requestsOf env (.op o next) = (o.request?.toList ++ requestsOf env (next (env o))) := by
  simp only [requestsOf, Prog.trace_op, List.filterMap_cons]
  cases o.request? <;> rfl

theorem Op.request_none {o : Op} (silent : o.submission? = none) : o.request? = none := by
  cases o with
  | applyPatches | reboot | updatePackage => cases silent
  | _ => rfl

/-- A function that never dispatches a row sends nothing. -/
theorem filterMap_trace_of_passive {α : Type} {p : Proc α} (passive : Passive p) :
    (p.trace env).filterMap Op.request? = [] := by
  refine List.filterMap_eq_nil_iff.mpr fun o mem => Op.request_none ?_
  have both := passive.trace o mem
  simp only [Op.isPassive, Bool.and_eq_true, Option.isNone_iff_eq_none] at both
  exact both.1

theorem requestsOf_bind {α : Type} {p : Proc α} {value : α} (rest : α → Proc Unit)
    (passive : Passive p) (returns : p.result env = some value) :
    requestsOf env (p.bind rest) = requestsOf env (rest value) := by
  rw [requestsOf, Prog.trace_bind env p rest returns, List.filterMap_append,
    filterMap_trace_of_passive passive, List.nil_append, requestsOf]

/-! ## Accepted jobs -/

/-- A request handler inserts the job. -/
def Accepted (new : NewJob) : Prop :=
  ∃ cfg f env, f.isRequest = true ∧ Op.sql (.insertJob new) ∈ (body cfg f).trace env

/-- What `execute_host_job` reads of the job. -/
def NewJob.info (new : NewJob) : JobInfo where
  kind := new.kind
  patchSelection := new.patchSelection
  allowReboot := new.allowReboot
  rebootDelaySeconds := new.rebootDelaySeconds

/-- The job is the rollback of another one. -/
def NewJob.isRollback (new : NewJob) : Bool := new.kind == .rollback && new.parentJobId.isSome

/-- A program inserts no rollback that selects packages. -/
abbrev RollsBackAll {α : Type} (p : Proc α) : Prop :=
  p.Within (fun o => ∀ new, o = .sql (.insertJob new) → new.isRollback = true →
    new.patchSelection = .arr []) (fun _ => True) fun _ => True

theorem follows_rollsBackAll : Follows (fun {_} p => RollsBackAll p) (fun k => decide (k ≠ .insertJob))
    (fun _ => True) fun _ => True where
  toClosed := (closed_within _ _ _).mono
    (fun _ kind _ eq => by subst eq; exact absurd rfl (of_decide_eq_true kind)) (fun _ => id) fun _ => id
  other := rfl
  read := rfl

theorem request_rollsBackAll (cfg : WorkerConfig) {f : Fn} (isRequest : f.isRequest = true) :
    RollsBackAll (body cfg f) := by
  have C := follows_rollsBackAll
  cases f with
  | createJob auth req =>
    refine C.bind (createJob_follows C rfl auth req fun next rest => .op ?_ rest) fun _ => C.ret _
    -- a created job has no parent
    rintro _ ⟨⟩ rollback
    simp [NewJob.isRollback, CreateJobRequest.newJob] at rollback
  | cancelJob auth id =>
    exact C.bind (cancelJob_follows C rfl (cancelRows_follows C rfl rfl) auth id) fun _ => C.ret _
  | rollbackJob auth id =>
    refine C.bind (rollbackJob_follows C rfl auth id fun new none next rest => .op ?_ rest)
      fun _ => C.ret _
    rintro _ ⟨⟩ -
    exact none
  | insertUpgradeJobs auth immediate window groups skipped =>
    refine C.bind (insertUpgradeJobs_follows C rfl (fun version next rest => .op ?_ rest) groups skipped)
      fun _ => C.ret _
    rintro _ ⟨⟩ rollback
    simp [NewJob.isRollback, upgradeJob] at rollback
  | _ => cases isRequest

/-- A rollback is stored without packages. -/
theorem selection_of_rollback (accepted : Accepted new) (rollback : new.isRollback = true) :
    new.patchSelection = .arr [] := by
  obtain ⟨cfg, f, env, isRequest, inserts⟩ := accepted
  exact (request_rollsBackAll cfg isRequest).trace _ inserts new rfl rollback

/-! ## What is sent for a job -/

/-- The client `execute_host_job` builds. -/
def HostRow.client (host : HostRow) : AgentClient := .new host.ipAddress (asU16 host.agentPort)

/-- The execution gets to the agent: the host is found and not held back by its health
    checks, the certificates load and the client can be built. -/
structure ReachesAgent (env : (o : Op) → o.Resp) (hostId : Uuid) (host : HostRow) : Prop where
  found : env (.sql (.select (.hostConnection hostId))) = .ok (some host)
  healthy : (checkHostHealthChecks hostId).result env ≠ some (.ok false)
  certs : env .loadAgentCerts = .ok ()
  client : env (.newClient host.client) = .ok ()

/-- The names of the host's available patches. -/
def availableNames (env : (o : Op) → o.Resp) (hostId : Uuid) : List String :=
  match env (.sql (.select (.availablePatches hostId))) with
  | .ok (some val) => patchNames val
  | _ => []

/-- The reboot gate lets the agent reboot the host after patching. -/
def mayReboot (env : (o : Op) → o.Resp) (hostId : Uuid) : Bool :=
  match env (.sql (.select (.rebootSafety hostId))) with
  | .ok (some (rebootPaused, packageDbClean)) =>
    (rebootRefusalReason rebootPaused packageDbClean).isNone
  | _ => true

/-- The packages of a job, all available ones for none. -/
def NewJob.packagesOver (available : List String) (new : NewJob) : List String :=
  let packages := new.patchSelection.asStrings?.getD []
  if packages.isEmpty then available else packages

theorem checkHostHealthChecks_result (hostId : Uuid) :
    ∃ answer, (checkHostHealthChecks hostId).result env = some answer := by
  simp only [checkHostHealthChecks, Prog.bind_eq, Prog.pure_eq, Prog.perform_bind, Prog.result_op]
  split
  · exact ⟨_, rfl⟩
  · split
    · exact ⟨_, rfl⟩
    · simp only [Prog.result_op]
      split <;> exact ⟨_, rfl⟩

theorem submitHostJob_requests (reaches : ReachesAgent env hostId host)
    (stored : env (.sql (.select (.jobInfo jobId))) = .ok (some new.info)) :
    requestsOf env (submitHostJob jobId hostId pjhId host) =
      requestsOf env (dispatchByKind hostId pjhId host.client new.info) := by
  have client : env (.newClient (.new host.ipAddress (asU16 host.agentPort))) = .ok () := reaches.client
  simp only [submitHostJob, Prog.bind_eq, Prog.perform_bind, requestsOf_op, stored, reaches.certs,
    client, Op.request?, Option.toList_none, List.nil_append, HostRow.client]

/-- An execution that gets to the agent sends what its job's kind asks for. -/
theorem requests_of_reaches (reaches : ReachesAgent env hostId host)
    (stored : env (.sql (.select (.jobInfo jobId))) = .ok (some new.info)) :
    requests env jobId hostId pjhId =
      requestsOf env (dispatchByKind hostId pjhId host.client new.info) := by
  have submits : requestsOf env (submitHostJob jobId hostId pjhId host) =
      requestsOf env (dispatchByKind hostId pjhId host.client new.info) :=
    submitHostJob_requests reaches stored
  have ends : ∃ answer, (checkHostHealthChecks hostId).result env = some answer :=
    checkHostHealthChecks_result hostId
  obtain ⟨answer, returns⟩ := ends
  rw [requests, executeHostJob, Prog.bind_eq, Prog.perform_bind, requestsOf_op, reaches.found]
  refine (requestsOf_bind _ (passive_of_plain (checkHostHealthChecks_plain hostId)) returns).trans ?_
  match answer, returns with
  | .ok true, _ => exact submits
  | .ok false, returns => exact absurd returns reaches.healthy
  | .error reason, _ => exact submits

theorem recordSubmission_requests (answer : Except AgentClientError SubmitResponse) :
    requestsOf env (recordSubmission pjhId answer) = [] :=
  filterMap_trace_of_passive (recordSubmission_passive pjhId answer)

theorem expandPackages_result (hostId : Uuid) :
    (expandPackages hostId new.patchSelection).result env =
      some (new.packagesOver (availableNames env hostId)) := by
  simp only [expandPackages, NewJob.packagesOver, Prog.bind_eq, Prog.pure_eq, Prog.perform_bind]
  split
  · simp only [Prog.result_op, availableNames]
    split <;> rename_i answer <;> simp [answer]
  · rfl

/-- The one request of a patch, removal or rollback job. -/
theorem executePatchHostJob_requests (client : AgentClient) :
    requestsOf env (executePatchHostJob pjhId hostId client new.patchSelection new.allowReboot
        (asU64 new.rebootDelaySeconds)) =
      [.applyPatches client
        { packages := new.packagesOver (availableNames env hostId)
          allowReboot := mayReboot env hostId && new.allowReboot
          rebootDelaySeconds := asU64 new.rebootDelaySeconds }] := by
  refine (requestsOf_bind _ (passive_of_plain (expandPackages_plain hostId _))
    (expandPackages_result hostId)).trans ?_
  have state : (rebootSafetyState hostId).result env =
      some (env (.sql (.select (.rebootSafety hostId)))).toOption.join := by
    simp only [rebootSafetyState, Prog.bind_eq, Prog.pure_eq, Prog.perform_bind, Prog.result_op]
    split <;> rename_i answer <;> simp [answer, Except.toOption]
  refine (requestsOf_bind _ (passive_of_plain (rebootSafetyState_plain hostId)) state).trans ?_
  simp only [Prog.bind_eq, Prog.perform_bind, requestsOf_op, recordSubmission_requests, Op.request?,
    Option.toList_some, List.append_nil, mayReboot]
  cases env (.sql (.select (.rebootSafety hostId))) with
  | error reason => simp [Except.toOption]
  | ok found =>
    cases found with
    | none => simp [Except.toOption]
    | some gate =>
      obtain ⟨rebootPaused, packageDbClean⟩ := gate
      cases refusal : rebootRefusalReason rebootPaused packageDbClean <;>
        simp [Except.toOption, refusal]

/-! ## Telling jobs apart -/

/-- The kinds that share the patch path. -/
def JobKind.patches : JobKind → Bool
  | .patchApply | .patchRemove | .rollback => true
  | _ => false

def NewJob.targetVersion? (new : NewJob) : Option String :=
  (new.patchSelection.get? "target_version").bind Json.asStr?

/-- The jobs differ in kind on the patch path, or are self-upgrades to different targets. -/
def JobsDiffer (new₁ new₂ : NewJob) : Prop :=
  new₁.kind.patches = true ∧ new₂.kind.patches = true ∧ new₁.kind ≠ new₂.kind ∨
    new₁.kind = .selfUpgrade ∧ new₂.kind = .selfUpgrade ∧ new₁.targetVersion? ≠ new₂.targetVersion?

/-- Among the requests is one to apply the host's available patches. -/
def AppliesAvailable (env : (o : Op) → o.Resp) (hostId : Uuid) (sent : List AgentRequest) : Prop :=
  availableNames env hostId ≠ [] ∧
    ∃ client req, .applyPatches client req ∈ sent ∧ req.packages = availableNames env hostId

/-- The agent is sent different requests for the two jobs, and none to apply the available
    patches for a rollback. -/
structure ToldApart (env : (o : Op) → o.Resp) (hostId : Uuid) (new₁ new₂ : NewJob)
    (sent₁ sent₂ : List AgentRequest) : Prop where
  differ : sent₁ ≠ sent₂
  rollback₁ : new₁.isRollback = true → ¬ AppliesAvailable env hostId sent₁
  rollback₂ : new₂.isRollback = true → ¬ AppliesAvailable env hostId sent₂

/-- The jobs differ in what a patch request carries. -/
def OrdersDiffer (env : (o : Op) → o.Resp) (hostId : Uuid) (new₁ new₂ : NewJob) : Prop :=
  new₁.packagesOver (availableNames env hostId) ≠ new₂.packagesOver (availableNames env hostId) ∨
    mayReboot env hostId = true ∧ new₁.allowReboot ≠ new₂.allowReboot ∨
    asU64 new₁.rebootDelaySeconds ≠ asU64 new₂.rebootDelaySeconds

theorem dispatchByKind_patches (patches : new.kind.patches = true) (client : AgentClient) :
    requestsOf env (dispatchByKind hostId pjhId client new.info) =
      [.applyPatches client
        { packages := new.packagesOver (availableNames env hostId)
          allowReboot := mayReboot env hostId && new.allowReboot
          rebootDelaySeconds := asU64 new.rebootDelaySeconds }] := by
  have path : dispatchByKind hostId pjhId client new.info = executePatchHostJob pjhId hostId client
      new.patchSelection new.allowReboot (asU64 new.rebootDelaySeconds) := by
    unfold dispatchByKind NewJob.info
    cases kind : new.kind with
    | reboot | selfUpgrade => rw [kind] at patches; cases patches
    | _ => rfl
  rw [path, executePatchHostJob_requests]

theorem dispatchByKind_selfUpgrade (kind : new.kind = .selfUpgrade) (client : AgentClient) :
    requestsOf env (dispatchByKind hostId pjhId client new.info) =
      [.updatePackage client "linux-patch-api"] := by
  simp only [dispatchByKind, NewJob.info, kind, executeSelfUpgradeHostJob, Prog.bind_eq,
    Prog.perform_bind, requestsOf_op, recordSubmission_requests, Op.request?, Option.toList_some,
    List.append_nil]

/-- A rollback that gets to the agent asks for the available patches. -/
theorem appliesAvailable_of_rollback (accepted : Accepted new) (reaches : ReachesAgent env hostId host)
    (stored : env (.sql (.select (.jobInfo jobId))) = .ok (some new.info))
    (rollback : new.isRollback = true) :
    AppliesAvailable env hostId (requests env jobId hostId pjhId) ↔ availableNames env hostId ≠ [] := by
  have kind : new.kind = .rollback := by
    simp only [NewJob.isRollback, Bool.and_eq_true, beq_iff_eq] at rollback
    exact rollback.1
  have all : new.packagesOver (availableNames env hostId) = availableNames env hostId := by
    simp [NewJob.packagesOver, selection_of_rollback accepted rollback, Json.asStrings?, Json.asArr?]
  rw [requests_of_reaches reaches stored, dispatchByKind_patches (by rw [kind]; rfl)]
  exact ⟨fun applies => applies.1, fun some => ⟨some, _, _, List.mem_singleton_self _, all⟩⟩

/-- Two accepted jobs of different kinds, or with different target versions, are told apart
    exactly when they are no self-upgrades, differ in packages, reboot flag or delay, and a
    rollback is only among them where the host has no available patches. -/
theorem dispatch_faithful_iff {new₁ new₂ : NewJob} {jobId₁ jobId₂ pjhId₁ pjhId₂ : Uuid}
    (accepted₁ : Accepted new₁) (accepted₂ : Accepted new₂) (differ : JobsDiffer new₁ new₂)
    (reaches : ReachesAgent env hostId host)
    (stored₁ : env (.sql (.select (.jobInfo jobId₁))) = .ok (some new₁.info))
    (stored₂ : env (.sql (.select (.jobInfo jobId₂))) = .ok (some new₂.info)) :
    ToldApart env hostId new₁ new₂ (requests env jobId₁ hostId pjhId₁)
        (requests env jobId₂ hostId pjhId₂) ↔
      new₁.kind ≠ .selfUpgrade ∧ OrdersDiffer env hostId new₁ new₂ ∧
        ((new₁.isRollback || new₂.isRollback) = true → availableNames env hostId = []) := by
  have rollback₁ : new₁.isRollback = true →
      (AppliesAvailable env hostId (requests env jobId₁ hostId pjhId₁) ↔ availableNames env hostId ≠ []) :=
    appliesAvailable_of_rollback accepted₁ reaches stored₁
  have rollback₂ : new₂.isRollback = true →
      (AppliesAvailable env hostId (requests env jobId₂ hostId pjhId₂) ↔ availableNames env hostId ≠ []) :=
    appliesAvailable_of_rollback accepted₂ reaches stored₂
  have sent₁ : requests env jobId₁ hostId pjhId₁ =
      requestsOf env (dispatchByKind hostId pjhId₁ host.client new₁.info) :=
    requests_of_reaches reaches stored₁
  have sent₂ : requests env jobId₂ hostId pjhId₂ =
      requestsOf env (dispatchByKind hostId pjhId₂ host.client new₂.info) :=
    requests_of_reaches reaches stored₂
  rcases differ with ⟨patches₁, patches₂, -⟩ | ⟨upgrade₁, upgrade₂, -⟩
  · rw [dispatchByKind_patches patches₁] at sent₁
    rw [dispatchByKind_patches patches₂] at sent₂
    have kind : new₁.kind ≠ .selfUpgrade := by
      intro eq
      rw [eq] at patches₁
      cases patches₁
    have orders : requests env jobId₁ hostId pjhId₁ ≠ requests env jobId₂ hostId pjhId₂ ↔
        OrdersDiffer env hostId new₁ new₂ := by
      rw [sent₁, sent₂]
      cases gate : mayReboot env hostId <;> simp [OrdersDiffer, gate] <;> tauto
    constructor
    · intro told
      refine ⟨kind, orders.mp told.differ, fun rollback => ?_⟩
      by_contra some
      rcases Bool.or_eq_true_iff.mp rollback with first | second
      · exact told.rollback₁ first ((rollback₁ first).mpr some)
      · exact told.rollback₂ second ((rollback₂ second).mpr some)
    · rintro ⟨-, differ, none⟩
      refine ⟨orders.mpr differ, fun first applies => ?_, fun second applies => ?_⟩
      · exact (rollback₁ first).mp applies (none (by simp [first]))
      · exact (rollback₂ second).mp applies (none (by simp [second]))
  · -- the target version is not sent
    rw [dispatchByKind_selfUpgrade upgrade₁] at sent₁
    rw [dispatchByKind_selfUpgrade upgrade₂] at sent₂
    exact ⟨fun told => absurd (sent₁.trans sent₂.symm) told.differ, fun other => absurd upgrade₁ other.1⟩

/-! ## Jobs on the small installation -/

namespace Small

/-- Everything goes well, and queries are answered from `db`. -/
def answersFrom (db : Db) : (o : Op) → o.Resp
  | .sql s =>
    match s.run db with
    | some (result, _) => .ok result
    | none => .error "statement failed"
  | .utcNow => db.now
  | .loadAgentCerts | .buildTlsConfig | .readCertPems | .connectWs _ => .ok ()
  | .newClient _ => .ok ()
  | .applyPatches _ _ _ | .reboot _ _ _ | .updatePackage _ _ _ => .ok ⟨"a", "queued"⟩
  | .jobStatus _ agentJobId => .ok { jobId := agentJobId, status := "running" }
  | .health _ => .ok { version := "1.0.0" }
  | .nextFrame _ => none
  | .newSemaphore _ => 0
  | .activeContains _ => false
  | .sleep _ | .acquire _ | .release _ | .activeInsert _ | .activeRemove _
  | .sendJobCompletionEmail _ _ _ _ | .sendPatchFailureEmail _ _ _ | .logEvent _ => ()

/-- A request for a job of this kind with one package. -/
def packageJob (kind : JobKind) (package : String) : CreateJobRequest :=
  { immediateJob with packages := [package], kind := some kind }

/-- The installation with a job that installs `curl` and one that removes `package`. -/
def twoJobs (package : String) : Db where
  now := 0
  hosts := [Small.host]
  patchJobs := [((packageJob .patchApply "curl").newJob 7).row 1 0,
    ((packageJob .patchRemove package).newJob 7).row 3 0]

theorem packageJob_accepted (kind : JobKind) (package : String) :
    Accepted ((packageJob kind package).newJob 7) :=
  ⟨config, .createJob user (packageJob kind package), answersFrom (twoJobs package), rfl,
    List.mem_cons_self⟩

theorem twoJobs_reaches (package : String) :
    ReachesAgent (answersFrom (twoJobs package)) 100 ⟨"10.0.0.1", 12443⟩ :=
  ⟨rfl, fun eq => (by cases eq), rfl, rfl⟩

theorem packageJobs_differ (package : String) :
    JobsDiffer ((packageJob .patchApply "curl").newJob 7) ((packageJob .patchRemove package).newJob 7) :=
  .inl ⟨rfl, rfl, fun eq => by cases eq⟩

end Small

theorem dispatch_faithful_iff_twoPackages :
    ToldApart (Small.answersFrom (Small.twoJobs "vim")) 100
      ((Small.packageJob .patchApply "curl").newJob 7) ((Small.packageJob .patchRemove "vim").newJob 7)
      (requests (Small.answersFrom (Small.twoJobs "vim")) 1 100 2)
      (requests (Small.answersFrom (Small.twoJobs "vim")) 3 100 4) :=
  (dispatch_faithful_iff (Small.packageJob_accepted _ _) (Small.packageJob_accepted _ _)
    (Small.packageJobs_differ "vim") (Small.twoJobs_reaches "vim") rfl rfl).mpr
    ⟨by decide, .inl (by decide), fun rollback => by cases rollback⟩

/-- The removal of a package is sent as its installation. -/
theorem removal_sent_as_installation :
    ¬ ∀ (env : (o : Op) → o.Resp) (hostId : Uuid) (host : HostRow) (new₁ new₂ : NewJob)
        (jobId₁ jobId₂ pjhId₁ pjhId₂ : Uuid),
      Accepted new₁ → Accepted new₂ → JobsDiffer new₁ new₂ → ReachesAgent env hostId host →
        env (.sql (.select (.jobInfo jobId₁))) = .ok (some new₁.info) →
        env (.sql (.select (.jobInfo jobId₂))) = .ok (some new₂.info) →
          ToldApart env hostId new₁ new₂ (requests env jobId₁ hostId pjhId₁)
            (requests env jobId₂ hostId pjhId₂) := by
  intro all
  have told := all (Small.answersFrom (Small.twoJobs "curl")) 100 _ _ _ 1 3 2 4
    (Small.packageJob_accepted _ _) (Small.packageJob_accepted _ _) (Small.packageJobs_differ "curl")
    (Small.twoJobs_reaches "curl") rfl rfl
  exact told.differ rfl

end PatchManager
