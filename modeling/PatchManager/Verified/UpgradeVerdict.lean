import PatchManager.Verified.RelaySource

/-! # Verdicts on self-upgrades

An agent restarts in the middle of its own upgrade, so what it says about the job, or that it
says nothing, decides nothing: the poller samples the agent's version, and waits for it in
`reconnect_confirm_self_upgrade`.  The relay knows nothing of this.

Main results:

* `verdicts_from_samples`: where no relay ends a row of a self-upgrade and the reads a verdict
  rests on are answered, rows succeed after a version sample and fail after a reconnect window.
* `relayed_verdict`: a relay marks a self-upgrade succeeded without any sample.
-/

namespace PatchManager

open PatchManager.Conc

variable {cfg : WorkerConfig} {s t : State} {h h₁ h₂ : List (Event World Op Op.Resp Fn)}
  {e : Event World Op Op.Resp Fn} {db : Db} {pjhId : Uuid} {row : PatchJobHostRunning}
  {l : Exchanges} {x : Exchange Op Op.Resp}

/-! ## What a task has learnt -/

/-- The `target_version` of the job's selection. -/
def PatchJob.targetVersion (j : PatchJob) : Option String :=
  (j.patchSelection.get? "target_version").bind Json.asStr?

/-- The client of a poll. -/
def PatchJobHostRunning.client (row : PatchJobHostRunning) : AgentClient :=
  AgentClient.new row.ipAddress (asU16 row.agentPort)

/-- The agent says that its job has failed, or the connection to it is lost. -/
def Op.hearsFailure : (o : Op) → o.Resp → Bool
  | .jobStatus _ _, .ok status => status.status == "failed"
  | .jobStatus _ _, .error _ => true
  | .nextFrame _, some (.message (some event)) => event.status == "failed"
  | .updatePackage _ _ _, .error (.connect _) => true
  | .updatePackage _ _ _, .error (.request _) => true
  | .updatePackage _ _ _, .error .timeout => true
  | _, _ => false

/-- A sample of the agent's version that has failed for another reason than that the agent is
    away. -/
def Op.fatalSample : (o : Op) → o.Resp → Bool
  | .health _, .error (.connect _) => false
  | .health _, .error .timeout => false
  | .health _, .error _ => true
  | _, _ => false

def Op.samples : Op → Bool
  | health _ => true
  | _ => false

def Op.seconds : Op → UInt64
  | sleep seconds => UInt64.ofNat seconds
  | _ => 0

/-- What a task has exchanged since it last heard of a failure. -/
def sinceFailure (l : Exchanges) : Option Exchanges :=
  l.foldl (fun since x => if x.1.hearsFailure x.2 then some [] else since.map (· ++ [x])) none

/-- The time slept, counted as `elapsed` is. -/
def slept (l : Exchanges) : UInt64 := l.foldl (fun sum x => sum + x.1.seconds) 0

/-- The reconnect window is over: a sample has failed for good, or the agent has been sampled and
    the time slept has come to the timeout. -/
def WindowOver (cfg : WorkerConfig) (l : Exchanges) : Prop :=
  (∃ x ∈ l, x.1.fatalSample x.2 = true) ∨
    (∃ x ∈ l, x.1.samples = true) ∧ cfg.selfUpgradeReconnectTimeoutSecs ≤ slept l

/-! ## Verdicts -/

/-- The status a statement sets. -/
def HostUpdate.sets? : HostUpdate → Option JobStatus
  | setWaitingHealthCheck _ _ => some .waitingHealthCheck
  | markRunning _ => some .running
  | storeAgentJobId _ _ => none
  | setSucceeded _ _ => some .succeeded
  | setPending _ _ _ _ => some .pending
  | setFailed _ _ | setTimedOut _ _ => some .failed
  | resetQueued _ => some .queued
  | relayTerminal _ _ dbStatus | relayRunning _ _ dbStatus => some dbStatus
  | cancelHosts _ => some .cancelled

/-- The step sets the row to `status`. -/
def Sets (r : PatchJobHost) (status : JobStatus) (e : Event World Op Op.Resp Fn) : Prop :=
  ∃ u, took e.label = some (.updateHosts u) ∧ u.sets? = some status ∧
    (u.update e.pre.world.db.now).cond r = true

/-- The row is there, for a self-upgrade. -/
def UpgradeRow (db : Db) (r : PatchJobHost) (j : PatchJob) : Prop :=
  db.pjh r.id = some r ∧ db.job r.jobId = some j ∧ j.kind = .selfUpgrade

/-- The task has read `hosts.agent_version` when it was `old`. -/
def ReadVersion (h : List (Event World Op Op.Resp Fn)) (tid : Nat) (hostId : Uuid)
    (old : Option String) : Prop :=
  ∃ e ∈ h, (∃ answer, e.label = .op tid (.sql (.select (.agentVersion hostId))) answer) ∧
    (e.pre.world.db.host hostId).bind Host.agentVersion = old

/-- The task polls the row, and has sampled a version of its agent that is judged a success
    against the job's target version or the version the host had. -/
def Confirmed (h : List (Event World Op Op.Resp Fn)) (s : State) (tid : Nat) (r : PatchJobHost)
    (j : PatchJob) : Prop :=
  ∃ row health old, (s.tasks[tid]?).map Task.root = some (.pollSingleHost row) ∧ row.id = r.id ∧
    ⟨.health row.client, .ok health⟩ ∈ exchanges tid h ∧ ReadVersion h tid r.hostId old ∧
      decideSelfUpgradeReconnectResult health.version j.targetVersion old = .succeeded

structure VerdictsFromSamples (cfg : WorkerConfig) (h : List (Event World Op Op.Resp Fn)) :
    Prop where
  /-- a row of a self-upgrade is set to succeeded after a sample that confirms it -/
  succeeded : ∀ h₁ e h₂ r j, h = h₁ ++ e :: h₂ → UpgradeRow e.pre.world.db r j →
    Sets r .succeeded e → ∃ tid o answer, e.label = .op tid o answer ∧ Confirmed h₁ e.pre tid r j
  /-- a task that has heard of a failure sets it to failed or pending after a reconnect window -/
  failed : ∀ h₁ e h₂ r j tid o answer since, h = h₁ ++ e :: h₂ → UpgradeRow e.pre.world.db r j →
    Sets r .failed e ∨ Sets r .pending e → e.label = .op tid o answer →
      sinceFailure (exchanges tid h₁) = some since → WindowOver cfg since

/-! ## The condition -/

/-- No relay decides on a self-upgrade, and the poller gets what it decides on. -/
structure UpgradesUndisturbed (h : List (Event World Op Op.Resp Fn)) : Prop where
  /-- no relay ends an unfinished row of a self-upgrade as succeeded or failed -/
  relayed : ∀ e ∈ h, ∀ row event dbStatus r j, relayed? e.label = some (row, event, dbStatus) →
    UpgradeRow e.pre.world.db r j → unfinishedPair row r = true →
      dbStatus ≠ .succeeded ∧ dbStatus ≠ .failed
  /-- no upgrade request ends with the connection lost -/
  submitted : ∀ e ∈ h, ∀ tid pjhId client package answer,
    e.label = .op tid (.updatePackage pjhId client package) answer →
      (Op.updatePackage pjhId client package).hearsFailure answer = false
  /-- a job's selection can be read -/
  target : ∀ e ∈ h, ∀ tid jobId answer,
    e.label = .op tid (.sql (.select (.patchSelection jobId))) answer →
      ∃ selection, answer = .ok (some selection)
  /-- a host's version can be read, unless it is not known -/
  previous : ∀ e ∈ h, ∀ tid hostId reason,
    e.label = .op tid (.sql (.select (.agentVersion hostId))) (.error reason) →
      (e.pre.world.db.host hostId).bind Host.agentVersion = none

/-! ## What polls and executions stay within -/

/-- What a poll has read of a row: it agrees with the tables. -/
def PolledIn (db : Db) (row : PatchJobHostRunning) : Prop :=
  ∃ r j, db.pjh row.id = some r ∧ r.jobId = row.jobId ∧ r.hostId = row.hostId ∧
    db.job row.jobId = some j ∧ j.kind = row.jobKind

/-- The row is of a self-upgrade. -/
def Db.upgrades (db : Db) (pjhId : Uuid) : Bool :=
  (db.pjh pjhId).any fun r => db.parentIs (fun j => j.kind == .selfUpgrade) r

def versionOf : Except String (Option String) → Option String
  | .ok version => version
  | .error _ => none

/-- Whatever failure the task has heard of, the reconnect window is over. -/
def Patient (cfg : WorkerConfig) (l : Exchanges) : Prop :=
  ∀ since, sinceFailure l = some since → WindowOver cfg since

/-- The exchanges confirm the upgrade. -/
def Confirms (db : Db) (row : PatchJobHostRunning) (l : Exchanges) : Prop :=
  ∃ health answer, ⟨.health row.client, .ok health⟩ ∈ l ∧
    ⟨.sql (.select (.agentVersion row.hostId)), answer⟩ ∈ l ∧
    ∀ j, db.job row.jobId = some j →
      decideSelfUpgradeReconnectResult health.version j.targetVersion (versionOf answer) = .succeeded

/-- What is relied on of an answer. -/
structure Reliable (db : Db) (x : Exchange Op Op.Resp) : Prop where
  polled : ∀ rows, x = ⟨.sql (.select .runningRows), .ok rows⟩ → ∀ row ∈ rows, PolledIn db row
  target : ∀ jobId answer, x = ⟨.sql (.select (.patchSelection jobId)), answer⟩ →
    ∃ selection, answer = .ok (some selection) ∧ ∀ j, db.job jobId = some j → j.patchSelection = selection
  submitted : ∀ pjhId client package answer, x = ⟨.updatePackage pjhId client package, answer⟩ →
    (Op.updatePackage pjhId client package).hearsFailure answer = false

/-- The row an operation sets to pending or failed. -/
def Op.fails? : Op → Option Uuid
  | sql (.updateHosts (.setPending pjhId _ _ _)) => some pjhId
  | sql (.updateHosts (.setFailed pjhId _)) => some pjhId
  | sql (.updateHosts (.setTimedOut pjhId _)) => some pjhId
  | _ => none

def Op.succeeds? : Op → Option Uuid
  | sql (.updateHosts (.setSucceeded pjhId _)) => some pjhId
  | _ => none

/-- A round of the reconnect loop, with the arguments it has been entered with. -/
structure Looping (db : Db) (σ : Traced Op Op.Resp Fn) (row : PatchJobHostRunning)
    (client : AgentClient) (targetVersion oldVersion : Option String) (elapsed : UInt64) : Prop where
  root : σ.root = some (.pollSingleHost row)
  polled : PolledIn db row
  kind : row.jobKind = .selfUpgrade
  client : client = row.client
  target : ∀ j, db.job row.jobId = some j → targetVersion = j.targetVersion
  previous : ∃ answer, ⟨.sql (.select (.agentVersion row.hostId)), answer⟩ ∈ σ.done ∧
    oldVersion = versionOf answer
  elapsed : ∀ since, sinceFailure σ.done = some since → slept since = elapsed

/-- Polls confirm what they set to succeeded, and every task is patient before it sets a row of
    a self-upgrade to pending or failed. -/
def verdictContract (cfg : WorkerConfig) (db : Db) : Contract Op Op.Resp Fn :=
  tracing (fun o answer => Reliable db ⟨o, answer⟩)
    (fun σ o =>
      (∀ pjhId, o.succeeds? = some pjhId → ∃ row, σ.root = some (.pollSingleHost row) ∧
        row.id = pjhId ∧ PolledIn db row ∧ (row.jobKind = .selfUpgrade → Confirms db row σ.done)) ∧
      ∀ pjhId, o.fails? = some pjhId → db.upgrades pjhId = true → Patient cfg σ.done)
    (fun _ f => match f with
      | .pollSingleHost row => PolledIn db row
      | .reconnectLoop _ _ _ _ _ => False
      | _ => True)
    (fun σ f => match f with
      | .reconnectLoop row client targetVersion oldVersion elapsed =>
        Looping db σ row client targetVersion oldVersion elapsed
      | .relayStream _ | .relayPoll _ _ _ => True
      | _ => False)

/-! ## Learning one thing more -/

theorem sinceFailure_append (l : Exchanges) (x : Exchange Op Op.Resp) :
    sinceFailure (l ++ [x]) =
      if x.1.hearsFailure x.2 then some [] else (sinceFailure l).map (· ++ [x]) := by
  simp [sinceFailure]

theorem sinceFailure_of_silent (silent : x.1.hearsFailure x.2 = false) :
    sinceFailure (l ++ [x]) = (sinceFailure l).map (· ++ [x]) := by
  rw [sinceFailure_append, silent]
  rfl

theorem slept_append (l : Exchanges) (x : Exchange Op Op.Resp) :
    slept (l ++ [x]) = slept l + x.1.seconds := by
  simp [slept]

/-- The window stays over while the task does not sleep. -/
theorem WindowOver.append (closed : WindowOver cfg l) (awake : x.1.seconds = 0) :
    WindowOver cfg (l ++ [x]) := by
  rcases closed with ⟨y, mem, fatal⟩ | ⟨⟨y, mem, samples⟩, long⟩
  · exact .inl ⟨y, List.mem_append_left _ mem, fatal⟩
  · refine .inr ⟨⟨y, List.mem_append_left _ mem, samples⟩, ?_⟩
    rwa [slept_append, awake, UInt64.add_zero]

theorem Patient.append (patient : Patient cfg l) (silent : x.1.hearsFailure x.2 = false)
    (awake : x.1.seconds = 0) : Patient cfg (l ++ [x]) := by
  intro since eq
  rw [sinceFailure_of_silent silent] at eq
  obtain ⟨before, found, rfl⟩ := Option.map_eq_some_iff.mp eq
  exact (patient before found).append awake

/-- The task has slept `elapsed` since it heard of a failure, if it has. -/
def SleptSince (elapsed : UInt64) (l : Exchanges) : Prop :=
  ∀ since, sinceFailure l = some since → slept since = elapsed

theorem SleptSince.append {elapsed : UInt64} (before : SleptSince elapsed l)
    (silent : x.1.hearsFailure x.2 = false) : SleptSince (elapsed + x.1.seconds) (l ++ [x]) := by
  intro since eq
  rw [sinceFailure_of_silent silent] at eq
  obtain ⟨earlier, found, rfl⟩ := Option.map_eq_some_iff.mp eq
  rw [slept_append, before earlier found]

theorem SleptSince.awake {elapsed : UInt64} (before : SleptSince elapsed l)
    (silent : x.1.hearsFailure x.2 = false) (awake : x.1.seconds = 0) :
    SleptSince elapsed (l ++ [x]) := by
  have after := before.append silent
  rwa [awake, UInt64.add_zero] at after

/-! ## Functions that are not polls -/

/-- The program keeps its task patient. -/
abbrev StaysPatient (cfg : WorkerConfig) (db : Db) {α : Type} (p : Proc α) : Prop :=
  ∀ σ : Traced Op Op.Resp Fn, Patient cfg σ.done →
    p.Along (verdictContract cfg db) (fun τ _ => Patient cfg τ.done) σ

/-- Kinds of operations by which a task hears of no failure, and does not sleep or succeed. -/
def OpKind.hearsNone : OpKind → Bool
  | .setSucceeded | .poll | .frame | .sleep => false
  | _ => true

/-- Kinds of operations that set no row to succeeded, failed or pending. -/
def OpKind.decidesNone : OpKind → Bool
  | .setSucceeded | .fail | .setTimedOut => false
  | _ => true

theorem succeeds_of_kind {o : Op} (quiet : o.kind ≠ .setSucceeded) : o.succeeds? = none := by
  unfold Op.succeeds?
  split
  · exact absurd rfl quiet
  · rfl

theorem fails_of_kind {o : Op} (quiet : o.kind.decidesNone = true) : o.fails? = none := by
  unfold Op.fails?
  split <;> first | rfl | cases quiet

theorem silent_of_kind {o : Op} {answer : o.Resp} (quiet : o.kind.hearsNone = true)
    (reliable : Reliable db ⟨o, answer⟩) : o.hearsFailure answer = false := by
  cases o with
  | jobStatus | nextFrame => cases quiet
  | updatePackage pjhId client package => exact reliable.submitted pjhId client package answer rfl
  | _ => rfl

theorem awake_of_kind {o : Op} (quiet : o.kind ≠ .sleep) : o.seconds = 0 := by
  cases o with
  | sleep => exact absurd rfl quiet
  | _ => rfl

/-- What decides on no row is always permitted. -/
theorem undecided {σ : Traced Op Op.Resp Fn} {o : Op} (noSuccess : o.succeeds? = none)
    (noFailure : o.fails? = none) : (verdictContract cfg db).guar σ o := by
  refine ⟨fun pjhId eq => ?_, fun pjhId eq => ?_⟩
  · rw [noSuccess] at eq
    cases eq
  · rw [noFailure] at eq
    cases eq

theorem starts_of_isPoll {f : Fn} {σ : Traced Op Op.Resp Fn} (other : f.isPoll = false) :
    (verdictContract cfg db).start σ f := by
  cases f <;> trivial

theorem follows_patient : Follows (fun {_} p => StaysPatient cfg db p) OpKind.hearsNone
    (fun f => f.isPoll = false) fun _ => False where
  ret _ _ patient := patient
  op {_ o next} kind rest σ patient := by
    have quiet : o.kind ≠ .setSucceeded := fun eq => by rw [eq] at kind; cases kind
    have awake : o.kind ≠ .sleep := fun eq => by rw [eq] at kind; cases kind
    refine ⟨⟨fun pjhId eq => ?_, fun _ _ _ => patient⟩, fun r reliable => rest r _ ?_⟩
    · rw [succeeds_of_kind quiet] at eq
      cases eq
    · exact patient.append (x := ⟨o, r⟩) (silent_of_kind kind reliable) (awake_of_kind awake)
  spawn other rest σ patient := ⟨starts_of_isPoll other, rest σ patient⟩
  jump none := none.elim
  bind first second σ patient := (first σ patient).bind fun τ a kept => second a τ kept
  other := rfl
  read := rfl

/-- The program decides on no row. -/
abbrev DecidesNothing (cfg : WorkerConfig) (db : Db) {α : Type} (p : Proc α) : Prop :=
  ∀ σ, p.Along (verdictContract cfg db) (fun _ _ => True) σ

def Fn.isRelayLoop : Fn → Bool
  | relayStream _ | relayPoll _ _ _ => true
  | _ => false

theorem follows_decidesNothing : Follows (fun {_} p => DecidesNothing cfg db p) OpKind.decidesNone
    (fun f => f.isPoll = false) (fun f => f.isRelayLoop = true) where
  toClosed := by
    refine closed_along (fun σ o kind => ?_) (fun σ f other => starts_of_isPoll other)
      fun σ f loop => ?_
    · have quiet : o.kind ≠ .setSucceeded := fun eq => by rw [eq] at kind; cases kind
      exact undecided (succeeds_of_kind quiet) (fails_of_kind kind)
    · cases f <;> trivial
  other := rfl
  read := rfl

theorem syncJobStatus_patient (jobId : Uuid) : StaysPatient cfg db (syncJobStatus jobId) :=
  syncJobStatus_follows follows_patient rfl rfl (fun _ _ _ _ => rfl) jobId

theorem handleHostFailure_patient (pjhId : Uuid) (errorMsg : String) :
    StaysPatient cfg db (handleHostFailure pjhId errorMsg) :=
  handleHostFailure_follows follows_patient rfl rfl syncJobStatus_patient pjhId errorMsg

theorem forkEach_polls {σ : Traced Op Op.Resp Fn} {rows : List PatchJobHostRunning}
    (polled : ∀ row ∈ rows, PolledIn db row) (patient : Patient cfg σ.done) :
    (forkEach .pollSingleHost rows).Along (verdictContract cfg db) (fun τ _ => Patient cfg τ.done) σ := by
  induction rows with
  | nil => exact patient
  | cons row rest ih =>
    exact ⟨polled row List.mem_cons_self, ih fun row' mem => polled row' (List.mem_cons_of_mem _ mem)⟩

theorem pollRunningJobs_patient : StaysPatient cfg db pollRunningJobs := by
  intro σ patient
  refine ⟨undecided rfl rfl, fun answer reliable => ?_⟩
  have kept : Patient cfg (σ.done ++ [⟨.sql (.select .runningRows), answer⟩]) := patient.append rfl rfl
  cases answer with
  | error reason => exact kept
  | ok rows => exact forkEach_polls (reliable.polled rows rfl) kept

/-! ## Polls -/

theorem syncJobStatus_decidesNothing (jobId : Uuid) : DecidesNothing cfg db (syncJobStatus jobId) :=
  syncJobStatus_follows follows_decidesNothing rfl rfl (fun _ _ _ _ => rfl) jobId

/-- The failure of a row that is not of a self-upgrade. -/
theorem handleHostFailure_other (other : db.upgrades pjhId = false) (errorMsg : String) :
    DecidesNothing cfg db (handleHostFailure pjhId errorMsg) := by
  have permitted : ∀ (σ : Traced Op Op.Resp Fn) (o : Op), o.succeeds? = none →
      o.fails? = some pjhId → (verdictContract cfg db).guar σ o := by
    intro σ o noSuccess fails
    refine ⟨fun id eq => ?_, fun id eq upgrades => ?_⟩
    · rw [noSuccess] at eq
      cases eq
    · rw [fails] at eq
      cases eq
      rw [other] at upgrades
      cases upgrades
  intro σ
  refine ⟨undecided rfl rfl, fun answer _ => ?_⟩
  match answer with
  | .error reason => trivial
  | .ok none => trivial
  | .ok (some failed) =>
    simp only [Prog.ret_bind]
    split
    · trivial
    · split
      · exact ⟨undecided rfl rfl, fun now _ => ⟨permitted _ _ rfl rfl, fun _ _ => trivial⟩⟩
      · refine ⟨permitted _ _ rfl rfl, fun answer _ => ?_⟩
        cases answer with
        | error reason => trivial
        | ok affected =>
          exact iteInduction (motive := fun p : Proc Unit => p.Along (verdictContract cfg db) _ _)
            (fun _ => syncJobStatus_decidesNothing failed.jobId _) fun _ => trivial

theorem PolledIn.upgrades (polled : PolledIn db row) :
    db.upgrades row.id = (row.jobKind == .selfUpgrade) := by
  obtain ⟨r, j, found, job, -, parent, kind⟩ := polled
  simp [Db.upgrades, Db.parentIs, found, job, parent, kind]

theorem Confirms.append (confirms : Confirms db row l) (l' : Exchanges) : Confirms db row (l ++ l') := by
  obtain ⟨health, answer, sampled, read, judged⟩ := confirms
  exact ⟨health, answer, List.mem_append_left _ sampled, List.mem_append_left _ read, judged⟩

section poll

variable {σ : Traced Op Op.Resp Fn} (root : σ.root = some (.pollSingleHost row))
  (polled : PolledIn db row)

include root polled

/-- A success that is recorded by a poll of the row. -/
theorem setSucceeded_permitted (output : String)
    (confirms : row.jobKind = .selfUpgrade → Confirms db row σ.done) :
    (verdictContract cfg db).guar σ (.sql (.updateHosts (.setSucceeded row.id output))) :=
  ⟨fun _ eq => ⟨row, root, Option.some.inj eq, polled, confirms⟩, nofun⟩

theorem finishSelfUpgradeSuccess_confirms (confirms : Confirms db row σ.done) (newVersion : String) :
    (finishSelfUpgradeSuccess row newVersion).Along (verdictContract cfg db) (fun _ _ => True) σ := by
  refine ⟨undecided rfl rfl, fun answer _ => ⟨?_, fun answer _ => ?_⟩⟩
  · exact setSucceeded_permitted (σ := σ.next _ answer) root polled _ fun _ => confirms.append _
  · cases answer with
    | error reason => exact syncJobStatus_decidesNothing row.jobId _
    | ok affected =>
      exact iteInduction (motive := fun p : Proc Unit => p.Along (verdictContract cfg db) _ _)
        (fun _ => trivial) fun _ => syncJobStatus_decidesNothing row.jobId _

theorem recordSucceeded_other (other : row.jobKind ≠ .selfUpgrade) (status : AgentJobStatus) :
    (recordSucceeded row status).Along (verdictContract cfg db) (fun _ _ => True) σ := by
  refine ⟨setSucceeded_permitted root polled _ fun eq => absurd eq other, fun answer _ => ?_⟩
  cases answer with
  | error reason => exact syncJobStatus_decidesNothing row.jobId _
  | ok affected =>
    exact iteInduction (motive := fun p : Proc Unit => p.Along (verdictContract cfg db) _ _)
      (fun _ => trivial) fun _ => syncJobStatus_decidesNothing row.jobId _

theorem recordStatus_other (other : row.jobKind ≠ .selfUpgrade)
    (answer : Except AgentClientError AgentJobStatus) :
    (recordStatus row answer).Along (verdictContract cfg db) (fun _ _ => True) σ := by
  have fails : ∀ errorMsg, DecidesNothing cfg db (handleHostFailure row.id errorMsg) :=
    handleHostFailure_other (by rw [polled.upgrades]; simpa using other)
  have succeeds : ∀ status, (recordSucceeded row status).Along (verdictContract cfg db)
      (fun _ _ => True) σ := recordSucceeded_other root polled other
  unfold recordStatus
  split
  · exact iteInduction (motive := fun p : Proc Unit => p.Along (verdictContract cfg db) _ _)
      (fun _ => fails _ σ) fun _ => trivial
  · trivial
  · split
    · exact succeeds _
    · exact succeeds _
    · exact fails _ σ
    · exact fails _ σ
    · trivial

/-- The loop is entered with what the task has just read. -/
theorem reconnectConfirm_loops (kind : row.jobKind = .selfUpgrade) (slept : SleptSince 0 σ.done) :
    (reconnectConfirmSelfUpgrade row row.client).Along (verdictContract cfg db) (fun _ _ => True) σ := by
  refine ⟨undecided rfl rfl, fun answer reliable => ?_⟩
  obtain ⟨selection, rfl, stored⟩ := reliable.target row.jobId answer rfl
  refine ⟨undecided rfl rfl, fun version _ => ?_⟩
  have loops : Looping db ((σ.next (.sql (.select (.patchSelection row.jobId))) (.ok (some selection))).next
      (.sql (.select (.agentVersion row.hostId))) version) row row.client
      ((selection.get? "target_version").bind Json.asStr?) (versionOf version) 0 :=
    { root := root
      polled := polled
      kind := kind
      client := rfl
      target := fun j parent => by rw [PatchJob.targetVersion, stored j parent]
      previous := ⟨version, List.mem_append_right _ (List.mem_singleton_self _), rfl⟩
      elapsed := (slept.awake rfl rfl).awake rfl rfl }
  cases version with
  | error reason => exact loops
  | ok old => exact loops

omit root polled in
theorem judged_of_finish {result : SelfUpgradeReconnectResult}
    (finish : decideSelfUpgradeSucceededAction result = .finishSuccess) : result = .succeeded := by
  cases result <;> first | rfl | cases finish

/-- The version sampled when the agent says that it is done. -/
theorem confirmSelfUpgrade_confirms (kind : row.jobKind = .selfUpgrade) (slept : SleptSince 0 σ.done)
    {health : HealthData} (sampled : ⟨.health row.client, .ok health⟩ ∈ σ.done) :
    (confirmSelfUpgrade row row.client health.version).Along (verdictContract cfg db)
      (fun _ _ => True) σ := by
  refine ⟨undecided rfl rfl, fun answer reliable => ?_⟩
  obtain ⟨selection, rfl, stored⟩ := reliable.target row.jobId answer rfl
  refine ⟨undecided rfl rfl, fun version _ => ?_⟩
  let τ := (σ.next (.sql (.select (.patchSelection row.jobId))) (.ok (some selection))).next
    (.sql (.select (.agentVersion row.hostId))) version
  have confirms : decideSelfUpgradeReconnectResult health.version
      ((selection.get? "target_version").bind Json.asStr?) (versionOf version) = .succeeded →
      Confirms db row τ.done := by
    intro judged
    refine ⟨health, version, List.mem_append_left _ (List.mem_append_left _ sampled),
      List.mem_append_right _ (List.mem_singleton_self _), fun j parent => ?_⟩
    rwa [PatchJob.targetVersion, stored j parent]
  have again : (reconnectConfirmSelfUpgrade row row.client).Along (verdictContract cfg db)
      (fun _ _ => True) τ :=
    reconnectConfirm_loops root polled kind ((slept.awake rfl rfl).awake rfl rfl)
  -- whether the version the host had could be read makes no difference to what follows
  cases version <;>
  · simp only [Prog.pure_eq, Prog.ret_bind]
    split
    · rename_i finish
      exact finishSelfUpgradeSuccess_confirms (σ := τ) root polled (confirms (judged_of_finish finish)) _
    · exact again

theorem pollSelfUpgradeHost_confirms (kind : row.jobKind = .selfUpgrade) (agentJobId : String)
    (answer : Except AgentClientError AgentJobStatus) (before : Exchanges)
    (silent : sinceFailure before = none)
    (done : σ.done = before ++ [⟨.jobStatus row.client agentJobId, answer⟩]) :
    (pollSelfUpgradeHost row row.client answer).Along (verdictContract cfg db) (fun _ _ => True) σ := by
  -- if the answer tells of a failure, nothing has been slept since
  have slept : SleptSince 0 σ.done := by
    intro since eq
    rw [done, sinceFailure_append, silent] at eq
    split at eq <;> cases eq
    rfl
  have reconnects : (reconnectConfirmSelfUpgrade row row.client).Along (verdictContract cfg db)
      (fun _ _ => True) σ := reconnectConfirm_loops root polled kind slept
  unfold pollSelfUpgradeHost
  split
  · refine ⟨undecided rfl rfl, fun sample _ => ?_⟩
    cases sample with
    | error e =>
      exact reconnectConfirm_loops (σ := σ.next _ _) root polled kind (slept.awake rfl rfl)
    | ok health =>
      exact confirmSelfUpgrade_confirms (σ := σ.next _ _) root polled kind (slept.awake rfl rfl)
        (List.mem_append_right _ (List.mem_singleton_self _))
  · exact reconnects
  · trivial
  · trivial
  · exact reconnects

/-- A poll from its start. -/
theorem pollSingleHost_confirms (fresh : σ.done = []) :
    (pollSingleHost row).Along (verdictContract cfg db) (fun _ _ => True) σ := by
  refine ⟨undecided rfl rfl, fun answer _ => ?_⟩
  cases answer with
  | error reason => trivial
  | ok =>
    refine ⟨undecided rfl rfl, fun answer _ => ?_⟩
    cases answer with
    | error e => trivial
    | ok =>
      refine ⟨undecided rfl rfl, fun statusResult _ => ?_⟩
      simp only [Prog.ret_bind]
      split
      · rename_i kind
        refine pollSelfUpgradeHost_confirms (σ := ((σ.next _ _).next _ _).next _ _) root polled kind
          row.agentJobId statusResult [⟨.loadAgentCerts, .ok ()⟩, ⟨.newClient row.client, .ok ()⟩] rfl ?_
        simp [Traced.next, fresh, PatchJobHostRunning.client]
      · rename_i other
        exact recordStatus_other (σ := ((σ.next _ _).next _ _).next _ _) root polled other statusResult

end poll

/-! ## The reconnect loop -/

section sample

variable {client : AgentClient} {answer : Except AgentClientError HealthData}
  {targetVersion oldVersion : Option String}

theorem sampled_of_succeeded {version : String}
    (decided : decideVersionSample (answer.map HealthData.version) targetVersion oldVersion =
      .succeeded version) :
    ∃ health, answer = .ok health ∧
      decideSelfUpgradeReconnectResult health.version targetVersion oldVersion = .succeeded := by
  cases answer with
  | error e => cases e <;> cases decided
  | ok health =>
    refine ⟨health, rfl, ?_⟩
    simp only [Except.map, decideVersionSample] at decided
    split at decided
    · assumption
    · cases decided

theorem fatal_of_fail {reason : String}
    (decided : decideVersionSample (answer.map HealthData.version) targetVersion oldVersion =
      .fail reason) : (Op.health client).fatalSample answer = true := by
  cases answer with
  | ok health =>
    simp only [Except.map, decideVersionSample] at decided
    split at decided <;> cases decided
  | error e => cases e <;> first | rfl | cases decided

end sample

/-- A task that has just slept and sampled, since it heard of a failure. -/
theorem patient_of_window {elapsed : UInt64} {client : AgentClient}
    {answer : Except AgentClientError HealthData} {before : Exchanges} (seconds : Nat)
    (sleeps : SleptSince elapsed (before ++ [⟨.sleep seconds, ()⟩]))
    (closed : (Op.health client).fatalSample answer = true ∨
      cfg.selfUpgradeReconnectTimeoutSecs ≤ elapsed) :
    Patient cfg (before ++ [⟨.sleep seconds, ()⟩] ++ [⟨.health client, answer⟩]) := by
  intro since eq
  rw [sinceFailure_of_silent rfl] at eq
  obtain ⟨earlier, found, rfl⟩ := Option.map_eq_some_iff.mp eq
  have last : ⟨.health client, answer⟩ ∈ earlier ++ [(⟨.health client, answer⟩ : Exchange Op Op.Resp)] :=
    List.mem_append_right _ (List.mem_singleton_self _)
  rcases closed with fatal | long
  · exact .inl ⟨_, last, fatal⟩
  · refine .inr ⟨⟨_, last, rfl⟩, ?_⟩
    rwa [slept_append, sleeps earlier found, show (Op.health client).seconds = 0 from rfl,
      UInt64.add_zero]

theorem reconnectLoop_confirms {σ : Traced Op Op.Resp Fn} {client : AgentClient}
    {targetVersion oldVersion : Option String} {elapsed : UInt64}
    (loops : Looping db σ row client targetVersion oldVersion elapsed) :
    (reconnectLoop cfg row client targetVersion oldVersion elapsed).Along (verdictContract cfg db)
      (fun _ _ => True) σ := by
  simp only [reconnectLoop, Prog.bind_eq, Prog.perform_bind]
  refine ⟨undecided rfl rfl, fun slept _ => ⟨undecided rfl rfl, fun sample _ => ?_⟩⟩
  let interval := cfg.selfUpgradeReconnectPollIntervalSecs
  have sleeps : SleptSince (elapsed + interval) (σ.done ++ [⟨.sleep interval.toNat, ()⟩]) := by
    have after : SleptSince (elapsed + UInt64.ofNat interval.toNat) (σ.done ++ [⟨.sleep interval.toNat, ()⟩]) :=
      SleptSince.append loops.elapsed rfl
    rwa [UInt64.ofNat_toNat] at after
  obtain ⟨answer, read, previous⟩ := loops.previous
  beta_reduce
  split
  · rename_i newVersion decided
    obtain ⟨health, rfl, judged⟩ := sampled_of_succeeded decided
    refine finishSelfUpgradeSuccess_confirms (σ := (σ.next _ _).next _ _) loops.root loops.polled ?_ _
    refine ⟨health, answer, ?_, List.mem_append_left _ (List.mem_append_left _ read), fun j parent => ?_⟩
    · rw [← loops.client]
      exact List.mem_append_right _ (List.mem_singleton_self _)
    · rw [← loops.target j parent, ← previous]
      exact judged
  · rename_i decided
    refine iteInduction (motive := fun p : Proc Unit => p.Along (verdictContract cfg db) _ _)
      (fun long => ?_) fun _ => ?_
    · exact (handleHostFailure_patient row.id _ _ (patient_of_window _ sleeps (.inr long))).weaken
        fun _ _ _ => trivial
    · exact
        { loops with
          previous := ⟨answer, List.mem_append_left _ (List.mem_append_left _ read), previous⟩
          elapsed := sleeps.awake rfl rfl }
  · rename_i reason decided
    exact (handleHostFailure_patient row.id _ _
      (patient_of_window _ sleeps (.inl (fatal_of_fail decided)))).weaken fun _ _ _ => trivial

/-! ## The service -/

theorem relay_decidesNothing {f : Fn} (relay : f.isRelay = true) :
    DecidesNothing cfg db (body cfg f) := by
  have C : Follows (fun {_} p => DecidesNothing cfg db p) OpKind.decidesNone
    (fun f => f.isPoll = false) (fun f => f.isRelayLoop = true) := follows_decidesNothing
  exact relay_follows C (by decide) (fun _ => rfl) (fun _ => rfl) (fun _ _ _ => rfl)
    (updateParentJobStatus_follows C rfl rfl) cfg relay

theorem dispatch_patient {f : Fn} (noRelay : f.isRelay = false) (noPoll : f.isPoll = false) :
    StaysPatient cfg db (body cfg f) := by
  have C : Follows (fun {_} p => StaysPatient cfg db p) OpKind.hearsNone
    (fun f => f.isPoll = false) fun _ => False := follows_patient
  cases mail : f.isMail with
  | true =>
    cases f with
    | jobEmails jobId total succeeded failed => exact jobEmails_follows C rfl jobId total succeeded failed
    | _ => cases mail
  | false =>
    exact dispatch_follows C (fun k dispatch => by cases k <;> first | rfl | cases dispatch)
      (fun f _ _ noPoll => noPoll) pollRunningJobs_patient syncJobStatus_patient
      (cancelJob_follows C rfl (cancelRows_follows C rfl rfl)) cfg mail noRelay noPoll

theorem engine_verdicts (cfg : WorkerConfig) (db : Db) : (engine cfg).Keeps (verdictContract cfg db) := by
  refine ⟨fun σ f starts => ?_, fun σ f tail => ?_, trivial⟩
  · cases relay : f.isRelay with
    | true => exact relay_decidesNothing relay _
    | false =>
      cases poll : f.isPoll with
      | false =>
        exact (dispatch_patient relay poll _ fun since eq => by cases eq).weaken fun _ _ _ => trivial
      | true =>
        cases f with
        | pollSingleHost row => exact pollSingleHost_confirms rfl starts rfl
        | reconnectLoop => exact starts.elim
        | _ => cases poll
  · cases f with
    | reconnectLoop => exact reconnectLoop_confirms tail
    | relayStream row => exact relay_decidesNothing (f := .relayStream row) rfl σ
    | relayPoll row client lastStatus =>
      exact relay_decidesNothing (f := .relayPoll row client lastStatus) rfl σ
    | _ => exact tail.elim

/-! ## Runs -/

/-- What a scan has read of the running rows agrees with the tables from then on. -/
theorem polledIn_of_read {rows : List PatchJobHostRunning} {u : State}
    (before : Run (engine cfg) s h₁ t) (initial : Initial s) (later : Run (engine cfg) t h₂ u)
    (read : Query.runningRows.eval t.world.db = some rows) (mem : row ∈ rows) :
    PolledIn u.world.db row := by
  cases read
  obtain ⟨r, there, polled⟩ := List.mem_filterMap.mp mem
  simp only [Query.pollRow, bind, Option.bind_eq_some_iff, guard] at polled
  obtain ⟨agentJobId, -, host, -, j, parent, -, -, eq⟩ := polled
  cases eq
  obtain ⟨r', found, job, host'⟩ := run_pjh later ((run_keys before initial).pjh_eq there)
  obtain ⟨j', parent', kind, -⟩ := run_job_what later parent
  exact ⟨r', j', found, job, host', parent', kind⟩

/-- The answers of an undisturbed run can be relied on in the state it comes to. -/
theorem reliable_of_undisturbed {u v : State} {tid : Nat} {o : Op} {answer : o.Resp}
    (before : Run (engine cfg) s h₁ u) (initial : Initial s)
    (step : Step (engine cfg) u (.op tid o answer) v) (later : Run (engine cfg) u h₂ t)
    (undisturbed : UpgradesUndisturbed h) (mem : ⟨u, .op tid o answer, v⟩ ∈ h) :
    Reliable t.world.db ⟨o, answer⟩ := by
  obtain ⟨root, next, w, -, executed, -⟩ := step.op_inv
  refine ⟨fun rows eq => ?_, fun jobId answer' eq => ?_, fun pjhId client package answer' eq => ?_⟩
  · cases eq
    have done : exec u.world (.sql (.select .runningRows)) (.ok rows) w := executed
    exact fun row read => polledIn_of_read before initial later (exec_select done).1 read
  · cases eq
    obtain ⟨selection, rfl⟩ := undisturbed.target _ mem tid jobId _ rfl
    refine ⟨selection, rfl, fun j parent => ?_⟩
    have done : exec u.world (.sql (.select (.patchSelection jobId))) (.ok (some selection)) w := executed
    obtain ⟨j₀, found, stored⟩ := Option.map_eq_some_iff.mp (Option.some.inj (exec_select done).1)
    obtain ⟨j', parent', -, same⟩ := run_job_what later found
    rw [parent] at parent'
    cases parent'
    exact same.trans stored
  · cases eq
    exact undisturbed.submitted _ mem tid pjhId client package _ rfl

/-- What the contract permits of an operation in an undisturbed run. -/
theorem verdict_permitted {tid : Nat} {o : Op} {answer : o.Resp}
    (run : Run (engine cfg) s (h₁ ++ e :: h₂) t) (initial : Initial s)
    (undisturbed : UpgradesUndisturbed (h₁ ++ e :: h₂)) (label : e.label = .op tid o answer) :
    ∃ task, e.pre.tasks[tid]? = some task ∧
      (verdictContract cfg e.pre.world.db).guar ⟨some task.root, exchanges tid h₁⟩ o := by
  obtain ⟨before, step, -⟩ := run.split_event
  have upTo : Run (engine cfg) s (h₁ ++ [e]) e.post := before.snoc step
  -- every answer up to this one is relied on in the state before the step
  have relies : ∀ e' ∈ h₁ ++ [e], (verdictContract cfg e.pre.world.db).Relies e'.label := by
    intro e' mem
    have there : e' ∈ h₁ ++ e :: h₂ := by
      rcases List.mem_append.mp mem with old | last
      · exact List.mem_append_left _ old
      · exact List.mem_append_right _ (List.mem_singleton.mp last ▸ List.mem_cons_self)
    have earlier : ∃ h₃ h₄, Run (engine cfg) s h₃ e'.pre ∧ Run (engine cfg) e'.pre h₄ e.pre := by
      rcases List.mem_append.mp mem with old | last
      · obtain ⟨h₃, h₄, rfl⟩ := List.append_of_mem old
        obtain ⟨first, step', rest⟩ := before.split_event
        exact ⟨h₃, _, first, Run.cons step' rest⟩
      · obtain rfl := List.mem_singleton.mp last
        exact ⟨h₁, [], before, .nil⟩
    obtain ⟨h₃, h₄, first, later⟩ := earlier
    have step' := upTo.step_of_mem mem
    obtain ⟨pre, l, post⟩ := e'
    cases l with
    | op tid o answer => exact reliable_of_undisturbed first initial step' later undisturbed there
    | enter f =>
      obtain ⟨w, called, -⟩ := step'.enter_inv
      refine starts_of_isPoll ?_
      cases f <;> first | rfl | simp [engine, enter, Fn.isRequest, Fn.isTick] at called
    | _ => trivial
  have permitted := (upTo.guarantees (engine_verdicts cfg e.pre.world.db) relies
    (Sys.along_of_empty initial.tasks)).2 h₁ e [] rfl
  rw [label] at permitted step
  obtain ⟨root, next, w, at_, -⟩ := step.op_inv
  refine ⟨_, at_, ?_⟩
  have ghost : (engine cfg).ghost (verdictContract cfg e.pre.world.db) h₁ tid =
      ⟨some root, exchanges tid h₁⟩ := before.traced initial.tasks at_ (by simp)
  exact ghost ▸ permitted

theorem UpgradesUndisturbed.initial_part (undisturbed : UpgradesUndisturbed (h₁ ++ h₂)) :
    UpgradesUndisturbed h₁ where
  relayed e mem := undisturbed.relayed e (List.mem_append_left _ mem)
  submitted e mem := undisturbed.submitted e (List.mem_append_left _ mem)
  target e mem := undisturbed.target e (List.mem_append_left _ mem)
  previous e mem := undisturbed.previous e (List.mem_append_left _ mem)

/-- A row of a self-upgrade that a poll's row stands for. -/
theorem PolledIn.eq {r : PatchJobHost} {j : PatchJob} (polled : PolledIn db row)
    (upgrade : UpgradeRow db r j) (same : row.id = r.id) :
    row.jobId = r.jobId ∧ row.hostId = r.hostId ∧ row.jobKind = .selfUpgrade := by
  obtain ⟨r', j', found, job, host, parent, kind⟩ := polled
  obtain ⟨found', parent', upgrades⟩ := upgrade
  rw [same, found'] at found
  cases found
  rw [← job, parent'] at parent
  cases parent
  exact ⟨job.symm, host.symm, kind.symm.trans upgrades⟩

theorem UpgradeRow.upgrades {r : PatchJobHost} {j : PatchJob} (upgrade : UpgradeRow db r j) :
    db.upgrades r.id = true := by
  obtain ⟨found, parent, kind⟩ := upgrade
  simp [Db.upgrades, Db.parentIs, found, parent, kind]

/-- The version a task was answered is the one the host had. -/
theorem readVersion_of_exchange {tid : Nat} {hostId : Uuid} {answer : Except String (Option String)}
    (run : Run (engine cfg) s h t) (undisturbed : UpgradesUndisturbed h)
    (read : ⟨.sql (.select (.agentVersion hostId)), answer⟩ ∈ exchanges tid h) :
    ReadVersion h tid hostId (versionOf answer) := by
  obtain ⟨l₁, l₂, eq⟩ := List.append_of_mem read
  obtain ⟨h₁, e, h₂, split, -, label⟩ := exchanges_split eq
  have mem : e ∈ h := by rw [split]; exact List.mem_append_right _ List.mem_cons_self
  refine ⟨e, mem, ⟨answer, label⟩, ?_⟩
  cases answer with
  | error reason => exact undisturbed.previous e mem tid hostId reason label
  | ok version =>
    have step := run.step_of_mem mem
    rw [label] at step
    obtain ⟨root, next, w, -, executed, -⟩ := step.op_inv
    have done : exec e.pre.world (.sql (.select (.agentVersion hostId))) (.ok version) w := executed
    have evaluated := (exec_select done).1
    cases found : e.pre.world.db.host hostId with
    | none =>
      simp only [Query.eval, found, Option.some.injEq] at evaluated
      exact evaluated
    | some host =>
      simp only [Query.eval, found] at evaluated
      obtain ⟨v, known, rfl⟩ := Option.map_eq_some_iff.mp evaluated
      exact known

/-- No relay decides on a row of a self-upgrade. -/
theorem relay_undecided {u : HostUpdate} {event : AgentWsEvent} {dbStatus : JobStatus}
    {relay : RunningHostJob} {r : PatchJobHost} {j : PatchJob}
    (run : Run (engine cfg) s (h₁ ++ e :: h₂) t) (initial : Initial s)
    (undisturbed : UpgradesUndisturbed (h₁ ++ e :: h₂)) (took_ : took e.label = some (.updateHosts u))
    (relayed : u.relayed? = some (relay, event, dbStatus)) (upgrade : UpgradeRow e.pre.world.db r j)
    (met : (u.update e.pre.world.db.now).cond r = true) :
    dbStatus ≠ .succeeded ∧ dbStatus ≠ .failed ∧ dbStatus ≠ .pending := by
  obtain ⟨before, step, -⟩ := run.split_event
  rw [HostUpdate.cond_of_relayed relayed] at met
  have relayed' : relayed? e.label = some (relay, event, dbStatus) := by
    rw [relayed?, took_]
    exact relayed
  obtain ⟨succeeded, failed⟩ := undisturbed.relayed e (by simp) relay event dbStatus r j relayed'
    upgrade met
  refine ⟨succeeded, failed, ?_⟩
  rintro rfl
  obtain ⟨-, running | terminal⟩ :=
    relay_row_has_job before initial step relayed' (Sql.lookup_some upgrade.1).1 met
  · cases running
  · cases terminal

/-- Where no relay decides on a self-upgrade and the poller gets what it decides on, verdicts come
    from version samples. -/
theorem verdicts_from_samples (run : Run (engine cfg) s h t) (initial : Initial s)
    (undisturbed : UpgradesUndisturbed h) : VerdictsFromSamples cfg h := by
  constructor
  · rintro h₁ e h₂ r j rfl upgrade ⟨u, effect, sets, met⟩
    obtain ⟨tid, result, label⟩ := took_eq_some effect
    refine ⟨tid, _, _, label, ?_⟩
    obtain ⟨task, at_, succeeds, -⟩ := verdict_permitted run initial undisturbed label
    cases u with
    | setSucceeded pjhId output =>
      obtain ⟨row, root, own, polled, confirms⟩ := succeeds pjhId rfl
      have same : r.id = pjhId := by
        simp only [HostUpdate.update, unfinishedRow, Bool.and_eq_true, beq_iff_eq] at met
        exact met.1
      obtain ⟨job, host, kind⟩ := polled.eq upgrade (own.trans same.symm)
      obtain ⟨health, answer, sampled, read, judged⟩ := confirms kind
      refine ⟨row, health, versionOf answer, ?_, own.trans same.symm, sampled, ?_, ?_⟩
      · rw [at_]
        exact root
      · rw [← host]
        exact readVersion_of_exchange run.split_event.1 undisturbed.initial_part read
      · exact judged j (by rw [job]; exact upgrade.2.1)
    | relayTerminal relay event dbStatus =>
      cases sets
      exact absurd rfl (relay_undecided run initial undisturbed effect rfl upgrade met).1
    | relayRunning relay event dbStatus =>
      cases sets
      exact absurd rfl (relay_undecided run initial undisturbed effect rfl upgrade met).1
    | _ => cases sets
  · rintro h₁ e h₂ r j tid o answer since rfl upgrade sets label heard
    obtain ⟨task, at_, -, patient⟩ := verdict_permitted run initial undisturbed label
    have waits : o.fails? = some r.id → WindowOver cfg since := fun fails =>
      patient r.id fails upgrade.upgrades since heard
    have decides : ∃ u, took e.label = some (.updateHosts u) ∧
        (u.update e.pre.world.db.now).cond r = true ∧
        (u.sets? = some .failed ∨ u.sets? = some .pending) := by
      rcases sets with ⟨u, effect, sets, met⟩ | ⟨u, effect, sets, met⟩
      · exact ⟨u, effect, met, .inl sets⟩
      · exact ⟨u, effect, met, .inr sets⟩
    obtain ⟨u, effect, met, sets⟩ := decides
    obtain ⟨tid', result, label'⟩ := took_eq_some effect
    rw [label] at label'
    cases label'
    cases u with
    | setPending | setFailed | setTimedOut =>
      simp only [HostUpdate.update, unfinishedRow, Bool.and_eq_true, beq_iff_eq] at met
      exact waits (by rw [met.1]; rfl)
    | relayTerminal relay event dbStatus | relayRunning relay event dbStatus =>
      obtain ⟨-, failed, pending⟩ := relay_undecided run initial undisturbed effect rfl upgrade met
      rcases sets with sets | sets <;> cases sets
      · exact absurd rfl failed
      · exact absurd rfl pending
    | _ => rcases sets with sets | sets <;> cases sets

/-! ## Upgrades on the small installation -/

/-- A self-upgrade to 1.2.0 is submitted and runs as `a`. -/
def submitsUpgrade : List (Move Small.player) :=
  .call (.insertUpgradeJobs Small.user true none [("1.2.0", [100])] 0) :: Small.steps 0 3 ++
    Small.processes 1 ++ Small.steps 2 6 ++ .run 2 (.accepted "a") :: Small.steps 2 1

/-- The poll, task 4, hears that `a` has failed; ten seconds later the agent is at 1.2.0. -/
def sampledUpgrade : List (Move Small.player) :=
  submitsUpgrade ++ Small.polls 3 ++ Small.steps 3 1 ++ Small.answers 4 "a" "failed" ++
    [.run 4 .ok, .run 4 .fail] ++ Small.steps 4 2 ++ .run 4 (.version "1.2.0") :: Small.steps 4 2

/-- What the condition asks of an operation and its answer. -/
def Op.undisturbed (db : Db) : (o : Op) → o.Resp → Bool
  | updatePackage pjhId client package, answer =>
    !(updatePackage pjhId client package).hearsFailure answer
  | sql (.select (.patchSelection _)), .ok selection => selection.isSome
  | sql (.select (.patchSelection _)), .error _ => false
  | sql (.select (.agentVersion hostId)), .error _ =>
    ((db.host hostId).bind Host.agentVersion).isNone
  | _, _ => true

def undisturbedAt (e : Event World Op Op.Resp Fn) : Bool :=
  (relayed? e.label).isNone &&
    match e.label with
    | .op _ o answer => o.undisturbed e.pre.world.db answer
    | _ => true

theorem undisturbed_of_checks (checks : h.all undisturbedAt = true) : UpgradesUndisturbed h := by
  have at_ : ∀ e ∈ h, relayed? e.label = none ∧ ∀ tid o answer, e.label = .op tid o answer →
      o.undisturbed e.pre.world.db answer = true := by
    intro e mem
    have test := List.all_eq_true.mp checks e mem
    simp only [undisturbedAt, Bool.and_eq_true, Option.isNone_iff_eq_none] at test
    refine ⟨test.1, fun tid o answer label => ?_⟩
    simpa only [label] using test.2
  refine ⟨fun e mem row event dbStatus r j relayed => ?_, fun e mem tid pjhId client package answer label => ?_,
    fun e mem tid jobId answer label => ?_, fun e mem tid hostId reason label => ?_⟩
  · rw [(at_ e mem).1] at relayed
    cases relayed
  · simpa [Op.undisturbed] using (at_ e mem).2 tid _ _ label
  · have test := (at_ e mem).2 tid _ _ label
    cases answer with
    | error reason => cases test
    | ok selection =>
      obtain ⟨value, rfl⟩ := Option.isSome_iff_exists.mp test
      exact ⟨value, rfl⟩
  · simpa [Op.undisturbed] using (at_ e mem).2 tid _ _ label

theorem verdicts_from_samples_sampledUpgrade :
    VerdictsFromSamples Small.config (Small.player.history Small.start sampledUpgrade) := by
  have plays : (Small.player.play Small.start sampledUpgrade).isSome = true := by decide +kernel
  have run := Small.player.run_of_play plays
  exact verdicts_from_samples run Small.start_initial (undisturbed_of_checks (by decide +kernel))

/-- The relay, task 4, receives the event that `a` is done. -/
def relayedUpgrade : List (Move Small.player) :=
  submitsUpgrade ++ .call .relayTick :: Small.steps 3 6 ++ Small.steps 4 2 ++
    [.run 4 (.frame (some (.message (some { jobId := "a", status := "completed" }))))] ++
    Small.steps 4 1

def setsAt (status : JobStatus) (e : Event World Op Op.Resp Fn) (r : PatchJobHost) : Bool :=
  match took e.label with
  | some (.updateHosts u) => u.sets? == some status && (u.update e.pre.world.db.now).cond r
  | _ => false

theorem sets_of_setsAt {status : JobStatus} {r : PatchJobHost} (sets : setsAt status e r = true) :
    Sets r status e := by
  unfold setsAt at sets
  split at sets
  · rename_i u effect
    simp only [Bool.and_eq_true, beq_iff_eq] at sets
    exact ⟨u, effect, sets⟩
  · cases sets

/-- The row of the self-upgrade succeeds while no task polls. -/
theorem relayed_verdict :
    ¬ ∀ (cfg : WorkerConfig) (s t : State) (h : List (Event World Op Op.Resp Fn)), Initial s →
      Run (engine cfg) s h t → VerdictsFromSamples cfg h := by
  intro all
  obtain ⟨h₁, e, h₂, t, test, run⟩ := Small.player.exists_event (s := Small.start)
    (show ((Small.player.play Small.start relayedUpgrade).getD []).any (fun e =>
      (e.pre.tasks.all fun task => !task.root.isPoll) &&
        (e.pre.world.db.pjh 2).any fun r => r.id == 2 && setsAt .succeeded e r &&
          (e.pre.world.db.job r.jobId).any fun j => j.kind == .selfUpgrade) = true by decide +kernel)
  simp only [Bool.and_eq_true, Option.any_eq_true, beq_iff_eq, List.all_eq_true] at test
  obtain ⟨noPoll, r, found, ⟨own, sets⟩, j, parent, kind⟩ := test
  obtain ⟨tid, o, answer, -, row, health, old, root, -⟩ :=
    (all _ _ _ _ Small.start_initial run).succeeded h₁ e h₂ r j rfl ⟨by rw [own]; exact found, parent, kind⟩
      (sets_of_setsAt sets)
  obtain ⟨task, at_, polls⟩ := Option.map_eq_some_iff.mp root
  have other := noPoll task (List.mem_of_getElem? at_)
  rw [polls] at other
  cases other

end PatchManager
