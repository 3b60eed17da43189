import PatchManager.Engine.Schedule

/-! # Events and the rows they change

The job stream of an agent carries the events of all its jobs, and a relay applies every
event it receives to its own pair, whatever job the event names.

Main result: `relay_attribution_iff`, the events for which this does no harm.
-/

namespace PatchManager

open PatchManager.Conc

variable {cfg : WorkerConfig} {s t : State} {h : List (Event World Op Op.Resp Fn)}
  {l : Label Op Op.Resp Fn} {row : RunningHostJob} {event : AgentWsEvent} {dbStatus : JobStatus}

/-- The pair, the event and the status of a relay's `UPDATE`. -/
def HostUpdate.relayed? : HostUpdate → Option (RunningHostJob × AgentWsEvent × JobStatus)
  | relayTerminal row event dbStatus => some (row, event, dbStatus)
  | relayRunning row event dbStatus => some (row, event, dbStatus)
  | _ => none

/-- The `UPDATE` a step of `process_event` has carried out. -/
def relayed? (l : Label Op Op.Resp Fn) : Option (RunningHostJob × AgentWsEvent × JobStatus) :=
  match took l with
  | some (.updateHosts u) => u.relayed?
  | _ => none

/-- The step changes status or output of a row only for an event that names the row's
    agent job. -/
def Attributed (e : Event World Op Op.Resp Fn) : Prop :=
  ∀ row event dbStatus pjhId r r', relayed? e.label = some (row, event, dbStatus) →
    e.pre.world.db.pjh pjhId = some r → e.post.world.db.pjh pjhId = some r' →
    r'.status ≠ r.status ∨ r'.output ≠ r.output → r.agentJobId = some event.jobId

/-- The event of the step names the agent job of every row of its pair, unless the row is
    finished or has the status and output of the event already. -/
def MatchesRows (e : Event World Op Op.Resp Fn) : Prop :=
  ∀ row event dbStatus pjhId r, relayed? e.label = some (row, event, dbStatus) →
    e.pre.world.db.pjh pjhId = some r → r.jobId = row.jobId → r.hostId = row.hostId →
    r.agentJobId = some event.jobId ∨ r.status.isTerminal = true ∨
      dbStatus = r.status ∧ event.outputOver r.output = r.output

theorem HostUpdate.cond_of_relayed {u : HostUpdate} {now : Time}
    (relayed : u.relayed? = some (row, event, dbStatus)) : (u.update now).cond = unfinishedPair row := by
  cases u with
  | relayTerminal | relayRunning => cases relayed; rfl
  | _ => cases relayed

/-- What a relay's `UPDATE` does to status and output of a row. -/
theorem HostUpdate.onRow_of_relayed {u : HostUpdate} {now : Time} {r : PatchJobHost}
    (relayed : u.relayed? = some (row, event, dbStatus)) :
    ((u.update now).onRow r).status = (if unfinishedPair row r then dbStatus else r.status) ∧
      ((u.update now).onRow r).output =
        if unfinishedPair row r then event.outputOver r.output else r.output := by
  cases u with
  | relayTerminal =>
    cases relayed
    by_cases met : unfinishedPair row r = true <;> simp [Sql.Update.onRow, update, met]
  | relayRunning =>
    cases relayed
    by_cases met : unfinishedPair row r = true <;> simp [Sql.Update.onRow, update, met]
  | _ => cases relayed

/-- What a relay's step does to status and output of a row. -/
theorem step_relayed {pjhId : Uuid} {r : PatchJobHost} (step : Step (engine cfg) s l t)
    (relayed : relayed? l = some (row, event, dbStatus))
    (found : s.world.db.pjh pjhId = some r) :
    ∃ r', t.world.db.pjh pjhId = some r' ∧
      r'.status = (if unfinishedPair row r then dbStatus else r.status) ∧
      r'.output = if unfinishedPair row r then event.outputOver r.output else r.output := by
  refine ⟨_, step_pjh step found, ?_⟩
  unfold relayed? at relayed
  split at relayed
  · rename_i u took
    simpa only [hostEffect, took, Stmt.hostEffect] using HostUpdate.onRow_of_relayed relayed
  · cases relayed

/-- One step attributes its changes exactly when its event matches the rows of its pair. -/
theorem attributed_iff (step : Step (engine cfg) s l t) :
    Attributed ⟨s, l, t⟩ ↔ MatchesRows ⟨s, l, t⟩ := by
  constructor
  · intro attributed row event dbStatus pjhId r relayed found job host
    obtain ⟨r', found', status, output⟩ := step_relayed step relayed found
    by_cases finished : r.status.isTerminal = true
    · exact .inr (.inl finished)
    · have met : unfinishedPair row r = true := by simp [unfinishedPair, job, host, finished]
      rw [if_pos met] at status output
      by_cases same : dbStatus = r.status ∧ event.outputOver r.output = r.output
      · exact .inr (.inr same)
      · refine .inl (attributed row event dbStatus pjhId r r' relayed found found' ?_)
        rw [status, output]
        exact not_and_or.mp same
  · intro matched row event dbStatus pjhId r r' relayed found found' changed
    obtain ⟨r'', found'', status, output⟩ := step_relayed step relayed found
    obtain rfl : r' = r'' := Option.some.inj (found'.symm.trans found'')
    rw [status, output] at changed
    by_cases met : unfinishedPair row r = true
    · rw [if_pos met, if_pos met] at changed
      simp only [unfinishedPair, Bool.and_eq_true, beq_iff_eq, Bool.not_eq_true'] at met
      rcases matched row event dbStatus pjhId r relayed found met.1.1 met.1.2 with
        named | finished | same
      · exact named
      · rw [met.2] at finished; cases finished
      · exact absurd same (not_and_or.mpr changed)
    · simp [met] at changed

/-- In a run, relays change rows only for events that name the row's agent job, exactly
    when every event they apply matches the rows of its pair. -/
theorem relay_attribution_iff (run : Run (engine cfg) s h t) :
    (∀ e ∈ h, Attributed e) ↔ ∀ e ∈ h, MatchesRows e := by
  constructor
  · exact fun attributed e mem => (attributed_iff (run.step_of_mem mem)).mp (attributed e mem)
  · exact fun matched e mem => (attributed_iff (run.step_of_mem mem)).mpr (matched e mem)

/-- Two jobs run on the host as `a` and `b`; the relay of the first receives the event
    that `b` is done. -/
def strayEvent : List (Move Small.player) :=
  Small.creates ++ .call (.createJob Small.user Small.immediateJob) :: Small.steps 1 3 ++
    Small.processes 2 ++ Small.submits 3 "a" ++
    .call (.processJob 3) :: Small.steps 4 5 ++ Small.submits 5 "b" ++
    .call .relayTick :: Small.steps 6 6 ++ Small.steps 7 2 ++
    [.run 7 (.frame (some (.message (some { jobId := "b", status := "completed" }))))] ++
    Small.steps 7 1

theorem relay_attribution_iff_strayEvent :
    (∀ e ∈ Small.player.history Small.start strayEvent, Attributed e) ↔
      ∀ e ∈ Small.player.history Small.start strayEvent, MatchesRows e := by
  have plays : (Small.player.play Small.start strayEvent).isSome = true := by decide +kernel
  exact relay_attribution_iff (Small.player.run_of_play plays)

/-- The row that runs as `a` is marked succeeded for the event of `b`. -/
theorem stray_event_applied :
    ¬ ∀ (cfg : WorkerConfig) (s t : State) (h : List (Event World Op Op.Resp Fn)),
      Initial s → Run (engine cfg) s h t → ∀ e ∈ h, Attributed e := by
  intro all
  obtain ⟨h₁, e, h₂, t, test, run⟩ := Small.player.exists_event (s := Small.start)
    (show ((Small.player.play Small.start strayEvent).getD []).any (fun e =>
      ((relayed? e.label).any fun x => x.2.1.jobId == "b") &&
        ((e.pre.world.db.pjh 2).any fun r =>
          r.status == .running && r.agentJobId == some "a") &&
        (e.post.world.db.pjh 2).any fun r => r.status == .succeeded) = true by decide +kernel)
  simp only [Bool.and_eq_true, Option.any_eq_true, beq_iff_eq] at test
  obtain ⟨⟨⟨⟨row, event, dbStatus⟩, relayed, other⟩, r, found, running, own⟩,
    r', found', succeeded⟩ := test
  have attributed := all _ _ _ _ Small.start_initial run e (by simp) row event dbStatus 2 r r'
    relayed found found' (.inl (by rw [running, succeeded]; decide))
  rw [own, other] at attributed
  exact absurd attributed (by decide)

end PatchManager
