import PatchManager.Conc.Advance
import PatchManager.Verified.ReconnectEnds
import PatchManager.Verified.TimeoutSweep
import PatchManager.Verified.UpgradeVerdict
import Mathlib.Logic.Relation

/-! # A landed self-upgrade

Without a target version `reconnect_confirm_self_upgrade` waits for a version other than the one in
`hosts.agent_version`.  It reads that column when it is called, long after the agent was told to
upgrade, and the health poller writes into it what the agent reports.  So the version read may be the
new one, and then no sample ever differs from it.

`Landing` is the database with what the agent reports and the poll that is on its way; `Beside` is
what may happen between two operations of the call.

Main results:

* `landed_upgrade_iff`: the row ends succeeded exactly if a sample has the new version and the version
  read before is another one.
* `landed_upgrade_fails`: the poller writes the new version before the call reads the column.
-/

namespace PatchManager

open PatchManager.Conc

/-! ## The agent and the health poller -/

/-- The update of `poll_host_health`, of the columns that are read elsewhere. -/
def Db.updatePolledHost (db : Db) (hostId : Uuid) (agentVersion : Option String)
    (packageDbClean : Option Bool) : Db :=
  { db with hosts := db.hosts.map fun h =>
      if h.id = hostId then
        { h with agentVersion := agentVersion.or h.agentVersion,
                 packageDbClean := packageDbClean.getD h.packageDbClean }
      else h }

structure Landing where
  world : World
  /-- the agent reports its new version -/
  landed : Bool := false
  /-- the version in the answer to a poll that is still to be written, if the agent answered -/
  polled : Option (Option String) := none

section landing

variable (hostId : Uuid) (old new : String)

/-- What the agent reports. -/
def Landing.version (l : Landing) : String := if l.landed then new else old

/-- What may happen beside the call. -/
inductive Beside : Landing → Landing → Prop
  | passes (l : Landing) (elapsed : Nat) :
    Beside l { l with world := { l.world with db := { l.world.db with now := l.world.db.now + elapsed } } }
  | lands (l : Landing) : Beside l { l with landed := true }
  /-- a poll begins when the one before is over -/
  | polls (l : Landing) (idle : l.polled = none) : Beside l { l with polled := some (some (l.version old new)) }
  | misses (l : Landing) (idle : l.polled = none) : Beside l { l with polled := some none }
  | writes (l : Landing) (version : Option String) (packageDbClean : Option Bool)
      (polled : l.polled = some version) :
    Beside l { l with world := { l.world with db := l.world.db.updatePolledHost hostId version packageDbClean },
                      polled := none }
  /-- the update of the poll fails -/
  | drops (l : Landing) : Beside l { l with polled := none }

/-- The agent, if it answers, reports its version. -/
def Landing.Reports (l : Landing) : (o : Op) → o.Resp → Prop
  | .health _, .ok data => data.version = l.version old new
  | _, _ => True

/-- An operation of the call; statements do not fail. -/
def Landing.exec (l : Landing) (o : Op) (r : o.Resp) (l' : Landing) : Prop :=
  l.Reports old new o r ∧ execSound l.world o r l'.world ∧ l'.landed = l.landed ∧ l'.polled = l.polled

/-- The call, in any order with what happens beside it. -/
abbrev Upgrading (cfg : WorkerConfig) : Landing → Proc Unit → Exchanges → Landing → Proc Unit → Prop :=
  Prog.Advances (body cfg) (Landing.exec old new) (Relation.ReflTransGen (Beside hostId old new))

end landing

/-- The call is made for a running row of a job without target version, before the upgrade lands; the
    host has the version from before the dispatch. -/
structure Called (row : PatchJobHostRunning) (old : String) (l : Landing) : Prop where
  host : ∃ h, l.world.db.host row.hostId = some h ∧ h.agentVersion = some old
  job : ∃ j, l.world.db.job row.jobId = some j ∧ j.targetVersion = none
  row : ∃ r, l.world.db.pjh row.id = some r ∧ r.status = .running
  landed : l.landed = false
  polled : ∀ version, l.polled = some (some version) → version = old

/-- The row has this status. -/
def HasStatus (pjhId : Uuid) (status : JobStatus) (l : Landing) : Prop :=
  ∃ r, l.world.db.pjh pjhId = some r ∧ r.status = status

/-- A sample has the new version. -/
def SampledNew (new : String) (told : Exchanges) : Prop :=
  ∃ client data, ⟨.health client, .ok data⟩ ∈ told ∧ data.version = new

/-- The version read from the host's row differs from the new one, as they are compared. -/
def ReadsOther (hostId : Uuid) (new : String) (told : Exchanges) : Prop :=
  ∃ version, ⟨.sql (.select (.agentVersion hostId)), .ok (some version)⟩ ∈ told ∧
    normalizeVersion version ≠ normalizeVersion new

variable {cfg : WorkerConfig} {row : PatchJobHostRunning} {client : AgentClient} {hostId pjhId : Uuid}
  {old new : String} {l l' : Landing} {told : Exchanges} {q : Proc Unit} {status : JobStatus}

/-! ## What happens beside the call -/

abbrev Meanwhile (hostId : Uuid) (old new : String) : Landing → Landing → Prop :=
  Relation.ReflTransGen (Beside hostId old new)

/-- What the poller writes is what the agent reports: the new version only once it has landed. -/
structure Polled (hostId : Uuid) (old new : String) (l : Landing) : Prop where
  host : ∃ h, l.world.db.host hostId = some h ∧
    (h.agentVersion = some old ∨ h.agentVersion = some new ∧ l.landed = true)
  polled : ∀ version, l.polled = some (some version) →
    version = old ∨ version = new ∧ l.landed = true

theorem Meanwhile.pjh (meanwhile : Meanwhile hostId old new l l') :
    l'.world.db.pjh pjhId = l.world.db.pjh pjhId := by
  induction meanwhile with
  | refl => rfl
  | tail _ step ih => cases step <;> exact ih

theorem Meanwhile.job {jobId : Uuid} (meanwhile : Meanwhile hostId old new l l') :
    l'.world.db.job jobId = l.world.db.job jobId := by
  induction meanwhile with
  | refl => rfl
  | tail _ step ih => cases step <;> exact ih

theorem Meanwhile.landed (meanwhile : Meanwhile hostId old new l l') (landed : l.landed = true) :
    l'.landed = true := by
  induction meanwhile with
  | refl => exact landed
  | tail _ step ih => cases step <;> first | exact ih | rfl

theorem Meanwhile.hasStatus (meanwhile : Meanwhile hostId old new l l')
    (has : HasStatus pjhId status l) : HasStatus pjhId status l' := by
  obtain ⟨r, found, same⟩ := has
  exact ⟨r, meanwhile.pjh.trans found, same⟩

theorem Beside.polled_ (step : Beside hostId old new l l') (polled : Polled hostId old new l) :
    Polled hostId old new l' := by
  obtain ⟨⟨h, found, version⟩, pending⟩ := polled
  cases step with
  | passes => exact ⟨⟨h, found, version⟩, pending⟩
  | lands =>
    exact ⟨⟨h, found, version.imp_right fun both => ⟨both.1, rfl⟩⟩,
      fun v eq => (pending v eq).imp_right fun both => ⟨both.1, rfl⟩⟩
  | polls idle =>
    refine ⟨⟨h, found, version⟩, fun v eq => ?_⟩
    obtain rfl : l.version old new = v := by simpa using eq
    unfold Landing.version
    cases landed : l.landed with
    | true => exact .inr ⟨rfl, rfl⟩
    | false => exact .inl rfl
  | misses => exact ⟨⟨h, found, version⟩, nofun⟩
  | drops => exact ⟨⟨h, found, version⟩, nofun⟩
  | writes given clean isPolled =>
    refine ⟨?_, nofun⟩
    have same : h.id = hostId := (Sql.lookup_some found).2
    refine ⟨{ h with agentVersion := given.or h.agentVersion,
                     packageDbClean := clean.getD h.packageDbClean }, ?_, ?_⟩
    · unfold Db.host Db.updatePolledHost at *
      rw [Sql.lookup_map (fun r => by split <;> rfl), found]
      simp [same]
    · cases given with
      | none => simpa using version
      | some v =>
        rcases pending v isPolled with rfl | ⟨rfl, landed⟩
        · exact .inl rfl
        · exact .inr ⟨rfl, landed⟩

theorem Meanwhile.polled (meanwhile : Meanwhile hostId old new l l') (polled : Polled hostId old new l) :
    Polled hostId old new l' := by
  induction meanwhile with
  | refl => exact polled
  | tail _ step ih => exact step.polled_ ih

theorem Called.polled_ (called : Called row old l) : Polled row.hostId old new l := by
  obtain ⟨h, found, version⟩ := called.host
  exact ⟨⟨h, found, .inl version⟩, fun v eq => .inl (called.polled v eq)⟩

/-! ## What operations do to the row -/

/-- A query answers with what it evaluates to. -/
theorem select_of_execSound {w w' : World} {query : Query} {answer : Op.Resp (.sql (.select query))}
    {result : query.Result} (done : execSound w (.sql (.select query)) answer w')
    (evaluates : query.eval w.db = some result) : answer = .ok result ∧ w' = w := by
  cases answer with
  | error reason => simp [execSound, Stmt.run, evaluates] at done
  | ok found =>
    obtain ⟨same, kept⟩ := exec_select done
    exact ⟨by rw [evaluates] at same; rw [Option.some.inj same], kept⟩

/-- An operation that updates no host row leaves the row alone. -/
theorem Landing.exec_spares {o : Op} {answer : o.Resp} (done : l.exec old new o answer l')
    (spares : ∀ u, o ≠ .sql (.updateHosts u)) (has : HasStatus pjhId status l) :
    HasStatus pjhId status l' := by
  obtain ⟨r, found, same⟩ := has
  obtain ⟨r', found', rfl | ⟨u, eq, -⟩⟩ := pjh_of_exec (exec_of_execSound done.2.1) found
  · exact ⟨r', found', same⟩
  · exact absurd eq (spares u)

/-- An update of an unfinished row that names it sets its status. -/
theorem Landing.exec_updates {u : HostUpdate} {answer : Op.Resp (.sql (.updateHosts u))}
    (done : l.exec old new (.sql (.updateHosts u)) answer l') (running : HasStatus pjhId .running l)
    (cond : (u.update l.world.db.now).cond = unfinishedRow pjhId)
    (sets : ∀ r, ((u.update l.world.db.now).assign r).status = status) :
    (∃ affected, answer = .ok affected) ∧ HasStatus pjhId status l' := by
  obtain ⟨r, found, same⟩ := running
  obtain ⟨answered, found'⟩ := updateHosts_of_exec done.2.1 found
  have met : (u.update l.world.db.now).cond r = true := by
    rw [cond]
    simp [unfinishedRow, same, (Sql.lookup_some found).2, JobStatus.isTerminal]
  rw [Sql.Update.onRow_eq_assign met] at found'
  exact ⟨answered, _, found', sets r⟩

/-! ## The two ways out -/

/-- No sample is taken, and no function called. -/
abbrev Settles {α : Type} (p : Proc α) : Prop :=
  p.Within (fun o => o.kind ≠ .health) (fun _ => True) fun _ => False

theorem settles_follows : Follows Settles (fun k => k != .health) (fun _ => True) fun _ => False where
  toClosed := (closed_within _ _ _).mono (fun _ kind => by simpa using kind) (fun _ => id) fun _ => id
  other := rfl
  read := rfl

theorem syncJobStatus_settles (jobId : Uuid) : Settles (syncJobStatus jobId) :=
  syncJobStatus_follows settles_follows rfl rfl (fun _ _ _ _ => trivial) jobId

theorem finish_settles (newVersion : String) : Settles (finishSelfUpgradeSuccess row newVersion) :=
  finishSelfUpgradeSuccess_follows settles_follows syncJobStatus_settles rfl newVersion

theorem failure_settles (pjhId : Uuid) (errorMsg : String) : Settles (handleHostFailure pjhId errorMsg) :=
  handleHostFailure_follows settles_follows rfl rfl syncJobStatus_settles pjhId errorMsg

/-- What settles takes no sample. -/
theorem Settles.no_sample {p : Proc Unit} (settles : Settles p)
    (advances : Upgrading hostId old new cfg l p told l' q) : ¬ SampledNew new told ∧ Settles q := by
  obtain ⟨kinds, left⟩ := advances.within settles fun _ => False.elim
  refine ⟨?_, left⟩
  rintro ⟨client, data, mem, -⟩
  exact kinds _ mem rfl

theorem syncJobStatus_keeps {jobId : Uuid}
    (advances : Upgrading hostId old new cfg l (syncJobStatus jobId) told l' q)
    (has : HasStatus pjhId status l) : HasStatus pjhId status l' := by
  refine advances.keeps (syncJobStatus_rollsUp jobId) (I := HasStatus pjhId status) ?_ ?_ has
  · intro l o answer l' kind done has
    refine Landing.exec_spares done ?_ has
    rintro u rfl
    cases u <;> cases kind
  · exact fun l l' meanwhile => Meanwhile.hasStatus meanwhile

theorem eval_patchSelection {db : Db} {jobId : Uuid} {j : PatchJob} (found : db.job jobId = some j) :
    (Query.patchSelection jobId).eval db = some (some j.patchSelection) := by
  simp [Query.eval, found]

theorem eval_agentVersion {db : Db} {hostId : Uuid} {h : Host} {version : String} (found : db.host hostId = some h)
    (column : h.agentVersion = some version) : (Query.agentVersion hostId).eval db = some (some version) := by
  simp [Query.eval, found, column]

theorem eval_retryRow {db : Db} {pjhId : Uuid} {r : PatchJobHost} {status : JobStatus} (found : db.pjh pjhId = some r)
    (same : r.status = status) : (Query.retryRow pjhId).eval db =
      some (some { jobId := r.jobId, retryCount := r.retryCount, status }) := by
  simp [Query.eval, found, same]

/-- A row whose upgrade is confirmed is succeeded in the end. -/
theorem finish_succeeds {newVersion : String} (running : HasStatus row.id .running l)
    (advances : Upgrading hostId old new cfg l (finishSelfUpgradeSuccess row newVersion) told l'
      (.ret ())) : HasStatus row.id .succeeded l' := by
  rcases advances.op_inv with ⟨-, -, eq⟩ | ⟨_, l₁, l₂, told₁, rfl, done, meanwhile, rest⟩
  · cases eq
  have running' := Meanwhile.hasStatus meanwhile (Landing.exec_spares done (fun u => nofun) running)
  rcases rest.op_inv with ⟨-, -, eq⟩ | ⟨answer, l₃, l₄, told₂, rfl, done', meanwhile', rest'⟩
  · cases eq
  obtain ⟨⟨affected, rfl⟩, succeeded⟩ := Landing.exec_updates done' running' rfl fun _ => rfl
  have succeeded' := Meanwhile.hasStatus meanwhile' succeeded
  have rest'' : Upgrading hostId old new cfg l₄
      (if affected = 0 then .ret () else syncJobStatus row.jobId) told₂ l' (.ret ()) := rest'
  split at rest''
  · obtain ⟨-, rfl, -⟩ := rest''.ret_inv
    exact succeeded'
  · exact syncJobStatus_keeps rest'' succeeded'

/-- A running row whose failure is handled is pending or failed in the end. -/
theorem failure_fails {errorMsg : String} (running : HasStatus pjhId .running l)
    (advances : Upgrading hostId old new cfg l (handleHostFailure pjhId errorMsg) told l' (.ret ())) :
    HasStatus pjhId .pending l' ∨ HasStatus pjhId .failed l' := by
  rcases advances.op_inv with ⟨-, -, eq⟩ | ⟨answer, l₁, l₂, told₁, rfl, done, meanwhile, rest⟩
  · cases eq
  obtain ⟨r, found, status⟩ := running
  have read : (Query.retryRow pjhId).eval l.world.db =
      some (some { jobId := r.jobId, retryCount := r.retryCount, status := .running }) :=
    eval_retryRow found status
  obtain ⟨rfl, -⟩ := select_of_execSound done.2.1 read
  have running' := Meanwhile.hasStatus meanwhile
    (Landing.exec_spares done (fun u => nofun) ⟨r, found, status⟩)
  by_cases again : r.retryCount < 3
  · have rest' : Upgrading hostId old new cfg l₂ (.op .utcNow fun now =>
        .op (.sql (.updateHosts (.setPending pjhId (r.retryCount + 1)
          (now + retryDelay (r.retryCount + 1)) errorMsg))) fun _ => .ret ()) told₁ l' (.ret ()) := by
      simpa [again, JobStatus.isTerminal] using rest
    rcases rest'.op_inv with ⟨-, -, eq⟩ | ⟨now, l₃, l₄, told₂, rfl, done', meanwhile', rest''⟩
    · cases eq
    have running'' := Meanwhile.hasStatus meanwhile' (Landing.exec_spares done' (by rintro u ⟨⟩) running')
    rcases rest''.op_inv with ⟨-, -, eq⟩ | ⟨_, l₅, l₆, told₃, rfl, done'', meanwhile'', last⟩
    · cases eq
    have pending : HasStatus pjhId .pending l₅ :=
      (Landing.exec_updates done'' running'' rfl fun _ => rfl).2
    obtain ⟨-, rfl, -⟩ := last.ret_inv
    exact .inl (Meanwhile.hasStatus meanwhile'' pending)
  · simp only [Prog.ret_bind, JobStatus.isTerminal, again, Bool.false_eq_true, if_false, Prog.bind_eq,
      Prog.perform_bind] at rest
    rcases rest.op_inv with ⟨-, -, eq⟩ | ⟨answer, l₃, l₄, told₂, rfl, done', meanwhile', rest'⟩
    · cases eq
    have updated := Landing.exec_updates done' running' rfl fun _ => rfl
    obtain ⟨⟨affected, rfl⟩, failed⟩ := updated
    have failed' : HasStatus pjhId .failed l₄ := Meanwhile.hasStatus meanwhile' failed
    have last : Upgrading hostId old new cfg l₄
        (if affected > 0 then syncJobStatus r.jobId else .ret ()) told₂ l' (.ret ()) := rest'
    split at last
    · exact .inr (syncJobStatus_keeps last failed')
    · obtain ⟨-, rfl, -⟩ := last.ret_inv
      exact .inr failed'

/-! ## The loop -/

/-- The exchange is a sample with the new version. -/
def IsNewSample (new : String) (x : Exchange Op Op.Resp) : Prop :=
  ∃ client data, x = ⟨.health client, .ok data⟩ ∧ data.version = new

theorem sampledNew_cons {x : Exchange Op Op.Resp} :
    SampledNew new (x :: told) ↔ IsNewSample new x ∨ SampledNew new told := by
  constructor
  · rintro ⟨client, data, mem, same⟩
    rcases List.mem_cons.mp mem with rfl | later
    · exact .inl ⟨client, data, rfl, same⟩
    · exact .inr ⟨client, data, later, same⟩
  · rintro (⟨client, data, rfl, same⟩ | ⟨client, data, mem, same⟩)
    · exact ⟨client, data, List.mem_cons_self, same⟩
    · exact ⟨client, data, List.mem_cons_of_mem _ mem, same⟩

theorem HasStatus.unique {other : JobStatus} (has : HasStatus pjhId status l)
    (has' : HasStatus pjhId other l) : status = other := by
  obtain ⟨r, found, rfl⟩ := has
  obtain ⟨r', found', rfl⟩ := has'
  rw [found] at found'
  rw [Option.some.inj found']

/-- What becomes of the row, `version` being what was read of the host's. -/
structure Outcome (pjhId : Uuid) (new version : String) (told : Exchanges) (l' : Landing)
    (q : Proc Unit) : Prop where
  settles : SampledNew new told → normalizeVersion version ≠ normalizeVersion new → Settles q
  ends : q = .ret () → (HasStatus pjhId .succeeded l' ↔
    SampledNew new told ∧ normalizeVersion version ≠ normalizeVersion new)

section outcome

variable {version : String} {x : Exchange Op Op.Resp}

/-- The call is on its way and has been told nothing yet. -/
theorem Outcome.waiting (more : q ≠ .ret ()) : Outcome pjhId new version [] l' q :=
  ⟨fun ⟨_, _, mem, _⟩ => absurd mem List.not_mem_nil, fun finished => absurd finished more⟩

/-- An exchange that is no new sample, unless the version read is the new one, changes nothing. -/
theorem Outcome.cons (stale : normalizeVersion version ≠ normalizeVersion new → ¬ IsNewSample new x)
    (later : Outcome pjhId new version told l' q) : Outcome pjhId new version (x :: told) l' q where
  settles sampled differs :=
    later.settles ((sampledNew_cons.mp sampled).resolve_left (stale differs)) differs
  ends finished := by
    rw [later.ends finished]
    refine and_congr_left fun differs => ?_
    rw [sampledNew_cons]
    exact (or_iff_right (stale differs)).symm

theorem Outcome.success {newVersion : String} (running : HasStatus row.id .running l)
    (fresh : IsNewSample new x) (differs : normalizeVersion version ≠ normalizeVersion new)
    (advances : Upgrading hostId old new cfg l (finishSelfUpgradeSuccess row newVersion) told l' q) :
    Outcome row.id new version (x :: told) l' q where
  settles _ _ := ((finish_settles newVersion).no_sample advances).2
  ends finished := by
    subst finished
    exact iff_of_true (finish_succeeds running advances) ⟨sampledNew_cons.mpr (.inl fresh), differs⟩

theorem Outcome.failure {errorMsg : String} (running : HasStatus pjhId .running l)
    (advances : Upgrading hostId old new cfg l (handleHostFailure pjhId errorMsg) told l' q) :
    Outcome pjhId new version told l' q where
  settles _ _ := ((failure_settles pjhId errorMsg).no_sample advances).2
  ends finished := by
    subst finished
    refine iff_of_false (fun succeeded => ?_)
      fun both => ((failure_settles pjhId errorMsg).no_sample advances).1 both.1
    rcases failure_fails running advances with pending | failed
    · exact absurd (succeeded.unique pending) (by decide)
    · exact absurd (succeeded.unique failed) (by decide)

/-- The decision on a sample that has a version, when there is no target. -/
theorem decideVersionSample_ok (sampled version : String) :
    decideVersionSample (.ok sampled) none (some version) =
      if normalizeVersion sampled = normalizeVersion version then .retry else .succeeded sampled := by
  by_cases same : normalizeVersion sampled = normalizeVersion version <;>
    simp [decideVersionSample, decideSelfUpgradeReconnectResult, same]

/-- An error decides nothing or is fatal. -/
theorem decideVersionSample_error (e : AgentClientError) (version : String) :
    decideVersionSample (.error e) none (some version) = .retry ∨
      ∃ reason, decideVersionSample (.error e) none (some version) = .fail reason := by
  cases e <;> first | exact .inl rfl | exact .inr ⟨_, rfl⟩

theorem loop_outcome {elapsed : UInt64}
    (advances : Upgrading hostId old new cfg l (reconnectLoop cfg row client none (some version) elapsed)
      told l' q) (running : HasStatus row.id .running l)
    (known : version = old ∨ version = new ∧ l.landed = true) :
    Outcome row.id new version told l' q := by
  -- by the number of exchanges; each round has two
  induction length : told.length using Nat.strongRecOn generalizing told l elapsed with
  | _ n ih =>
  rcases advances.op_inv with ⟨rfl, -, rfl⟩ | ⟨_, l₁, l₂, told₁, rfl, done, meanwhile, rest⟩
  · exact .waiting nofun
  refine .cons (fun _ => nofun) ?_
  have running₂ := Meanwhile.hasStatus meanwhile (Landing.exec_spares done (fun u => nofun) running)
  have landed₂ : l.landed = true → l₂.landed = true := fun landed =>
    Meanwhile.landed meanwhile (done.2.2.1.trans landed)
  rcases rest.op_inv with ⟨rfl, -, rfl⟩ | ⟨answer, l₃, l₄, told₂, rfl, done', meanwhile', rest'⟩
  · exact .waiting nofun
  have running₄ := Meanwhile.hasStatus meanwhile' (Landing.exec_spares done' (fun u => nofun) running₂)
  have landed₄ : l₂.landed = true → l₄.landed = true := fun landed =>
    Meanwhile.landed meanwhile' (done'.2.2.1.trans landed)
  have rest : Upgrading hostId old new cfg l₄
      (judge cfg row client none (some version) (elapsed + cfg.selfUpgradeReconnectPollIntervalSecs)
        (decideVersionSample (answer.map HealthData.version) none (some version))) told₂ l' q := rest'
  have again : Upgrading hostId old new cfg l₄
      (judge cfg row client none (some version) (elapsed + cfg.selfUpgradeReconnectPollIntervalSecs) .retry) told₂ l' q →
      Outcome row.id new version told₂ l' q := by
    intro rest
    rw [judge_retry] at rest
    split at rest
    · exact .failure running₄ rest
    · rcases rest.jump_inv with ⟨rfl, -, rfl⟩ | round
      · exact .waiting nofun
      · refine ih told₂.length ?_ round running₄ (known.imp_right fun both => ⟨both.1, ?_⟩) rfl
        · simp only [List.length_cons] at length
          omega
        · exact landed₄ (landed₂ both.2)
  cases answer with
  | error e =>
    refine .cons (fun _ => nofun) ?_
    rcases decideVersionSample_error e version with retry | ⟨reason, fails⟩
    · exact again (by rwa [show Except.map HealthData.version (.error e) = .error e from rfl, retry] at rest)
    · rw [show Except.map HealthData.version (.error e) = .error e from rfl, fails] at rest
      exact .failure running₄ rest
  | ok data =>
    have reports : data.version = l₂.version old new := done'.1
    rw [show Except.map HealthData.version (.ok data) = .ok data.version from rfl,
      decideVersionSample_ok] at rest
    split at rest
    · rename_i same
      refine .cons (fun differs fresh => ?_) (again rest)
      obtain ⟨_, _, eq, isNew⟩ := fresh
      cases eq
      rw [isNew] at same
      exact differs same.symm
    · rename_i differs
      have isNew : data.version = new := by
        unfold Landing.version at reports
        split at reports
        · exact reports
        · rename_i unlanded
          rcases known with rfl | ⟨-, landed⟩
          · exact absurd (congrArg normalizeVersion reports) differs
          · exact absurd (landed₂ landed) unlanded
      exact .success running₄ ⟨client, data, rfl, isNew⟩ (fun same => differs (by rw [isNew, same])) rest

end outcome

/-! ## The call -/

/-- The loop does not read the host's version. -/
theorem loop_reads_none {version : String} {elapsed : UInt64}
    (advances : Upgrading hostId old new cfg l (reconnectLoop cfg row client none (some version) elapsed)
      told l' q) : ∀ x ∈ told, x.1.kind ≠ .readTarget := by
  have C : Follows (fun {_} p => p.Within (fun o => o.kind ≠ .readTarget) (fun _ => True)
      fun f => ∃ elapsed, f = .reconnectLoop row client none (some version) elapsed)
      (fun k => k != .readTarget) (fun _ => True)
      fun f => ∃ elapsed, f = .reconnectLoop row client none (some version) elapsed :=
    { (closed_within _ _ _).mono (fun _ kind => by simpa using kind) (fun _ => id) fun _ => id with
      other := rfl
      read := rfl }
  have sync : ∀ jobId, (syncJobStatus jobId).Within (fun o => o.kind ≠ .readTarget) (fun _ => True)
      fun f => ∃ elapsed, f = .reconnectLoop row client none (some version) elapsed :=
    syncJobStatus_follows C rfl rfl fun _ _ _ _ => trivial
  have fails := handleHostFailure_follows C rfl rfl sync
  have round : ∀ elapsed, (reconnectLoop cfg row client none (some version) elapsed).Within
      (fun o => o.kind ≠ .readTarget) (fun _ => True)
      fun f => ∃ elapsed, f = .reconnectLoop row client none (some version) elapsed := by
    intro elapsed
    simp only [reconnectLoop, Prog.bind_eq, Prog.perform_bind]
    refine C.op rfl fun _ => C.op rfl fun health => ?_
    split
    · exact finishSelfUpgradeSuccess_follows C sync rfl _
    · exact iteInduction (fun _ => fails _ _) fun _ => C.jump ⟨_, rfl⟩
    · exact fails _ _
  refine (advances.within (round elapsed) ?_).1
  rintro _ ⟨elapsed, rfl⟩
  exact round elapsed

theorem readsOther_of_read {jobId : Uuid} {target : Except String (Option Json)} {version : String}
    (others : ∀ x ∈ told, x.1.kind ≠ .readTarget) :
    ReadsOther hostId new (⟨.sql (.select (.patchSelection jobId)), target⟩ ::
      ⟨.sql (.select (.agentVersion hostId)), .ok (some version)⟩ :: told) ↔
      normalizeVersion version ≠ normalizeVersion new := by
  constructor
  · rintro ⟨read, mem, differs⟩
    simp only [List.mem_cons] at mem
    rcases mem with eq | eq | later
    · cases eq
    · cases eq; exact differs
    · exact absurd rfl (others _ later)
  · exact fun differs => ⟨version, by simp, differs⟩

/-- The row ends succeeded exactly if a sample has the new version and the version read of the host's
    row before is another one, and the call ends as soon as that is so. -/
theorem landed_upgrade_iff {l₀ : Landing} (called : Called row old l₀)
    (before : Meanwhile row.hostId old new l₀ l)
    (advances : Upgrading row.hostId old new cfg l (reconnectConfirmSelfUpgrade row client) told l' q) :
    (SampledNew new told ∧ ReadsOther row.hostId new told → Settles q) ∧
      (q = .ret () → (HasStatus row.id .succeeded l' ↔
        SampledNew new told ∧ ReadsOther row.hostId new told)) := by
  have running : HasStatus row.id .running l := Meanwhile.hasStatus before called.row
  obtain ⟨j, found, noTarget⟩ := called.job
  have selection : (Query.patchSelection row.jobId).eval l.world.db = some (some j.patchSelection) :=
    eval_patchSelection (before.job.trans found)
  rcases advances.op_inv with ⟨rfl, -, rfl⟩ | ⟨answer, l₁, l₂, told₁, rfl, done, meanwhile, rest⟩
  · exact ⟨fun ⟨⟨_, _, mem, _⟩, _⟩ => absurd mem List.not_mem_nil, nofun⟩
  obtain ⟨rfl, world₁⟩ := select_of_execSound done.2.1 selection
  have polled₁ : Polled row.hostId old new l₁ := by
    have polled₀ : Polled row.hostId old new l₀ := called.polled_
    obtain ⟨host, pending⟩ := Meanwhile.polled before polled₀
    refine ⟨?_, ?_⟩
    · rw [world₁, done.2.2.1]
      exact host
    · rw [done.2.2.1, done.2.2.2]
      exact pending
  have running₂ := Meanwhile.hasStatus meanwhile (Landing.exec_spares done (fun u => nofun) running)
  obtain ⟨⟨h, host, known⟩, -⟩ := Meanwhile.polled meanwhile polled₁
  obtain ⟨version, column⟩ : ∃ version, h.agentVersion = some version := by
    rcases known with eq | ⟨eq, -⟩ <;> exact ⟨_, eq⟩
  have baseline : (Query.agentVersion row.hostId).eval l₂.world.db = some (some version) :=
    eval_agentVersion host column
  rcases rest.op_inv with ⟨rfl, -, rfl⟩ | ⟨answer, l₃, l₄, told₂, rfl, done', meanwhile', rest'⟩
  · refine ⟨fun both => ?_, nofun⟩
    obtain ⟨⟨_, _, mem, _⟩, -⟩ := both
    simp at mem
  obtain ⟨rfl, -⟩ := select_of_execSound done'.2.1 baseline
  have running₄ := Meanwhile.hasStatus meanwhile' (Landing.exec_spares done' (fun u => nofun) running₂)
  have known₄ : version = old ∨ version = new ∧ l₄.landed = true := by
    rw [column] at known
    refine known.imp Option.some.inj fun both => ⟨Option.some.inj both.1, ?_⟩
    exact Meanwhile.landed meanwhile' (done'.2.2.1.trans both.2)
  have loop : Upgrading row.hostId old new cfg l₄
      (.jump (.reconnectLoop row client j.targetVersion (some version) 0)) told₂ l' q := rest'
  rw [noTarget] at loop
  have outcome : Outcome row.id new version told₂ l' q ∧ ∀ x ∈ told₂, x.1.kind ≠ .readTarget := by
    rcases loop.jump_inv with ⟨rfl, -, rfl⟩ | round
    · exact ⟨.waiting nofun, by simp⟩
    · exact ⟨loop_outcome round running₄ known₄, loop_reads_none round⟩
  obtain ⟨outcome, others⟩ := outcome
  rw [readsOther_of_read others]
  have later : Outcome row.id new version
      (⟨.sql (.select (.agentVersion row.hostId)), .ok (some version)⟩ :: told₂) l' q :=
    outcome.cons fun _ => nofun
  have whole : Outcome row.id new version
      (⟨.sql (.select (.patchSelection row.jobId)), .ok (some j.patchSelection)⟩ ::
        ⟨.sql (.select (.agentVersion row.hostId)), .ok (some version)⟩ :: told₂) l' q :=
    later.cons fun _ => nofun
  exact ⟨fun both => whole.settles both.1 both.2, whole.ends⟩

/-! ## Two upgrades -/

namespace Small

/-- One sample. -/
def oneRound : WorkerConfig :=
  { config with selfUpgradeReconnectTimeoutSecs := 10, selfUpgradeReconnectPollIntervalSecs := 10 }

def upgradeRow : PatchJobHostRunning := ⟨2, "a", 1, 100, "10.0.0.1", 12443, .selfUpgrade⟩

/-- The host has version 1.5.6, and a self-upgrade without target version is running. -/
def upgrading : Landing where
  world.db.now := 0
  world.db.hosts := [{ host with agentVersion := some "1.5.6" }]
  world.db.patchJobs :=
    [{ id := 1, kind := .selfUpgrade, status := .running, patchSelection := .obj [], createdAt := 0 }]
  world.db.patchJobHosts := [{ id := 2, jobId := 1, hostId := 100, status := .running }]

theorem upgrading_called : Called upgradeRow "1.5.6" upgrading where
  host := ⟨_, rfl, rfl⟩
  job := ⟨_, rfl, rfl⟩
  row := ⟨_, rfl, rfl⟩
  landed := rfl
  polled := nofun

end Small

/-- A statement of the call that does not fail. -/
theorem Landing.exec_sql {st : Stmt} {result : st.Result} {db : Db}
    (ran : st.run l.world.db = some (result, db)) :
    l.exec old new (.sql st) (.ok result) { l with world := { l.world with db } } :=
  ⟨trivial, .inr ⟨result, db, ran, rfl, rfl⟩, rfl, rfl⟩

theorem Landing.exec_sleep (seconds : Nat) : l.exec old new (.sleep seconds) () l :=
  ⟨trivial, rfl, rfl, rfl⟩

theorem Landing.exec_utcNow : l.exec old new .utcNow l.world.db.now l :=
  ⟨trivial, ⟨rfl, rfl⟩, rfl, rfl⟩

/-- A sample of an agent that answers. -/
theorem Landing.exec_health : l.exec old new (.health client) (.ok { version := l.version old new }) l :=
  ⟨rfl, rfl, rfl, rfl⟩

namespace Small

/-- The poller has written the new version. -/
def overwritten : Landing :=
  { upgrading with
    world := { upgrading.world with db := upgrading.world.db.updatePolledHost 100 (some "1.6.0") none },
    landed := true }

theorem overwritten_before : Meanwhile 100 "1.5.6" "1.6.0" upgrading overwritten :=
  ((Relation.ReflTransGen.single (.lands _)).tail (.polls _ rfl)).tail (.writes _ _ none rfl)

end Small

/-- The poller writes the new version before the call reads the column; the one sample has the new
    version, and the row is to be tried again. -/
theorem landed_upgrade_fails :
    ¬ ∀ (cfg : WorkerConfig) (row : PatchJobHostRunning) (client : AgentClient) (old new : String)
        (l₀ l l' : Landing) (told : Exchanges), Called row old l₀ →
        Meanwhile row.hostId old new l₀ l →
        Upgrading row.hostId old new cfg l (reconnectConfirmSelfUpgrade row client) told l' (.ret ()) →
        normalizeVersion old ≠ normalizeVersion new → SampledNew new told →
        HasStatus row.id .succeeded l' := by
  intro all
  have advances : ∃ told l', Upgrading 100 "1.5.6" "1.6.0" Small.oneRound Small.overwritten
      (reconnectConfirmSelfUpgrade Small.upgradeRow Small.upgradeRow.client) told l' (.ret ()) ∧
        SampledNew "1.6.0" told ∧ HasStatus 2 .pending l' := by
    refine ⟨_, _, .op (Landing.exec_sql rfl) .refl (.op (Landing.exec_sql rfl) .refl (.jump
      (.op (Landing.exec_sleep 10) .refl (.op Landing.exec_health .refl
        (.op (Landing.exec_sql rfl) .refl (.op Landing.exec_utcNow .refl
          (.op (Landing.exec_sql rfl) .refl .here))))))), ?_, ?_⟩
    · exact ⟨Small.upgradeRow.client, { version := "1.6.0" }, by simp [Landing.version, Small.overwritten], rfl⟩
    · exact ⟨_, rfl, rfl⟩
  obtain ⟨told, l', advances, sampled, pending⟩ := advances
  have succeeded := all Small.oneRound Small.upgradeRow Small.upgradeRow.client "1.5.6" "1.6.0"
    Small.upgrading Small.overwritten l' told Small.upgrading_called Small.overwritten_before advances
    (by decide +kernel) sampled
  exact absurd (pending.unique succeeded) (by decide)

/-- The upgrade lands after the column has been read. -/
theorem landed_upgrade_iff_lands : ∃ told l', Upgrading 100 "1.5.6" "1.6.0" Small.oneRound
    Small.upgrading (reconnectConfirmSelfUpgrade Small.upgradeRow Small.upgradeRow.client) told l'
      (.ret ()) ∧ HasStatus 2 .succeeded l' := by
  have advances : ∃ told l', Upgrading 100 "1.5.6" "1.6.0" Small.oneRound Small.upgrading
      (reconnectConfirmSelfUpgrade Small.upgradeRow Small.upgradeRow.client) told l' (.ret ()) ∧
        SampledNew "1.6.0" told ∧ ReadsOther 100 "1.6.0" told := by
    refine ⟨_, _, .op (Landing.exec_sql rfl) .refl (.op (Landing.exec_sql rfl) .refl (.jump
      (.op (Landing.exec_sleep 10) (.single (.lands _)) (.op Landing.exec_health .refl
        (.op (Landing.exec_sql rfl) .refl (.op (Landing.exec_sql rfl) .refl
          (.op (Landing.exec_sql rfl) .refl (.op (Landing.exec_sql rfl) .refl
            (.op (Landing.exec_sql rfl) .refl (.spawn .here)))))))))), ?_, ?_⟩
    · exact ⟨Small.upgradeRow.client, { version := "1.6.0" }, by simp [Landing.version], rfl⟩
    · exact ⟨"1.5.6", List.mem_cons_of_mem _ List.mem_cons_self, by decide +kernel⟩
  obtain ⟨told, l', advances, sampled, reads⟩ := advances
  exact ⟨told, l', advances,
    ((landed_upgrade_iff Small.upgrading_called .refl advances).2 rfl).mpr ⟨sampled, reads⟩⟩

end PatchManager
