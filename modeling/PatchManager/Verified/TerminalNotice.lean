import PatchManager.Verified.Lifecycle
import PatchManager.Verified.RelayClaims

/-! # The last notification of a pair

`process_event` notifies the browsers after its `UPDATE` has met the row of its pair.  The guard of
the statement, the one relay of the pair and the roll-up between the two make a terminal status the
last that is told of the pair.

Main results:

* `noticed`: a notification follows an `UPDATE` that has met the row, with nothing between them but
  a roll-up.
* `stream_ends`: no notification of the pair follows one of a terminal status.
-/

namespace PatchManager

open PatchManager.Conc

variable {cfg : WorkerConfig} {s t : State} {h h₁ h₂ : List (Event World Op Op.Resp Fn)}
  {e : Event World Op Op.Resp Fn} {tid : Nat} {row : RunningHostJob} {pair : Uuid × Uuid}

/-! ## Notifications -/

def Json.text? (key : String) (payload : Json) : Option String := (payload.get? key).bind Json.asStr?

/-- The status that a host-level payload tells of the pair. -/
def hostNotice? (pair : Uuid × Uuid) (payload : Json) : Option String :=
  if payload.text? "event_type" = some "host" ∧ payload.text? "job_id" = some pair.1.text ∧
      payload.text? "host_id" = some pair.2.text then
    payload.text? "status"
  else none

/-- The status that an event tells of the pair: a relay task has sent a notification. -/
def notice? (pair : Uuid × Uuid) (e : Event World Op Op.Resp Fn) : Option String :=
  match e.label with
  | .op tid (.sql (.notifyJobUpdate payload)) (.ok ()) =>
    match (e.pre.tasks[tid]?).map Task.root with
    | some (.relayOneJob _) => hostNotice? pair payload
    | _ => none
  | _ => none

/-- The host-level notifications of `process_event` for the pair. -/
def notices (pair : Uuid × Uuid) (h : List (Event World Op Op.Resp Fn)) : List String :=
  h.filterMap (notice? pair)

def IsTerminalText (text : String) : Prop := ∃ status : JobStatus, status.isTerminal = true ∧ text = status.text

/-- Nothing follows a terminal status, so that there is at most one. -/
def EndsWithTerminal (statuses : List String) : Prop :=
  ∀ front text rest, statuses = front ++ text :: rest → IsTerminalText text → rest = []

theorem hostNotice_job (jobId : Uuid) (status : JobStatus) (counts : RollupCounts) :
    hostNotice? pair (jobNotifyPayload jobId status counts) = none := by
  simp [hostNotice?, jobNotifyPayload, Json.text?, Json.get?, Json.asStr?]

theorem hostNotice_host {event : AgentWsEvent} {status : JobStatus} {text : String}
    (told : hostNotice? pair (hostNotifyPayload row event status) = some text) :
    row.pair = pair ∧ text = status.text := by
  have fields : (hostNotifyPayload row event status).text? "job_id" = some row.jobId.text ∧
      (hostNotifyPayload row event status).text? "host_id" = some row.hostId.text ∧
      (hostNotifyPayload row event status).text? "status" = some status.text := ⟨rfl, rfl, rfl⟩
  obtain ⟨job, host, status⟩ := fields
  simp only [hostNotice?, job, host, status, Option.ite_none_right_eq_some, Option.some.injEq] at told
  obtain ⟨⟨-, sameJob, sameHost⟩, rfl⟩ := told
  exact ⟨Prod.ext (Uuid.text_injective sameJob) (Uuid.text_injective sameHost), rfl⟩

theorem JobStatus.text_injective {status status' : JobStatus} (same : status.text = status'.text) :
    status = status' := by
  cases status <;> cases status' <;> first | rfl | exact absurd same (by decide)

/-! ## What a relay has done before it notifies -/

/-- Neither writes to the row nor tells of it. -/
def Op.RollsUp (o : Op) : Prop :=
  (∀ u, o ≠ .sql (.updateHosts u)) ∧
    ∀ payload, o = .sql (.notifyJobUpdate payload) → ∀ pair, hostNotice? pair payload = none

/-- The payload tells the status that the relay's `UPDATE` has just set, apart from a roll-up. -/
def Announces (row : RunningHostJob) (done : Exchanges) (payload : Json) : Prop :=
  ∃ event status affected l since, payload = hostNotifyPayload row event status ∧
    done = l ++ ⟨.sql (.updateHosts (relayUpdate row event status)), .ok affected⟩ :: since ∧
    affected ≠ 0 ∧ ∀ x ∈ since, x.1.RollsUp

/-- Relays tell of their pair what they have set. -/
def noticeContract : Contract Op Op.Resp Fn :=
  tracing (fun _ _ => True)
    (fun σ o => ∀ row payload, σ.root = some (.relayOneJob row) → o = .sql (.notifyJobUpdate payload) →
      Announces row σ.done payload ∨ ∀ pair, hostNotice? pair payload = none)
    (fun _ _ => True) fun σ f => ∀ row, σ.root = some (.relayOneJob row) → f.relays? = some row

abbrev OfRelay (row : RunningHostJob) (σ : Traced Op Op.Resp Fn) : Prop := σ.root = some (.relayOneJob row)

/-- A relay of the row keeps the contract. -/
abbrev NoticesOf (row : RunningHostJob) {α : Type} (p : Proc α) : Prop :=
  ∀ σ, OfRelay row σ → p.Along noticeContract (fun τ _ => OfRelay row τ) σ

theorem closed_noticesOf : Closed (fun {_} p => NoticesOf row p)
    (fun o => ∀ payload, o ≠ .sql (.notifyJobUpdate payload)) (fun _ => False)
    fun f => f.relays? = some row :=
  closed_along_while (C := noticeContract) (Q := OfRelay row)
    (fun _ _ _ quiet _ payload _ eq => absurd eq (quiet payload)) (fun _ _ _ own _ => own)
    (fun _ _ _ none => none.elim) fun σ f own tail row' eq => by
      cases own.symm.trans eq
      exact tail

theorem updateParentJobStatus_rollsUp (jobId : Uuid) :
    (updateParentJobStatus jobId).Within Op.RollsUp (fun _ => False) fun _ => False := by
  refine .op ⟨nofun, nofun⟩ fun answer => ?_
  cases answer with
  | error reason => exact .ret _
  | ok pending =>
    refine iteInduction (fun _ => .ret _) fun _ => .op ⟨nofun, nofun⟩ fun answer => ?_
    cases answer with
    | error reason => exact .ret _
    | ok counts =>
      refine .op ⟨nofun, nofun⟩ fun answer => ?_
      cases answer with
      | error reason => exact .ret _
      | ok =>
        refine .op ⟨nofun, ?_⟩ fun _ => .ret _
        rintro payload ⟨⟩ pair
        exact hostNotice_job _ _ _

theorem processEvent_notices (event : AgentWsEvent) : NoticesOf row (processEvent row event) := by
  intro σ own
  unfold processEvent
  split
  · exact own
  · rename_i dbStatus maps
    refine ⟨fun _ _ _ => nofun, fun answer _ => ?_⟩
    cases answer with
    | error reason => exact own
    | ok affected =>
      -- the notification comes after the `UPDATE` and, for a finished row, the roll-up
      have notifies : affected ≠ 0 → ∀ τ : Traced Op Op.Resp Fn,
          (τ.root = σ.root ∧ ∃ since, τ.done =
            (σ.next (.sql (.updateHosts (relayUpdate row event dbStatus))) (.ok affected)).done ++ since ∧
              ∀ x ∈ since, x.1.RollsUp) →
            (Prog.op (.sql (.notifyJobUpdate (hostNotifyPayload row event dbStatus)))
              fun _ => Prog.ret ()).Along noticeContract (fun τ _ => OfRelay row τ) τ := by
        rintro met τ ⟨root, since, done, rolls⟩
        refine ⟨?_, fun _ _ => root.trans own⟩
        rintro row' payload root' ⟨⟩
        cases (root.symm.trans root').symm.trans own
        refine .inl ⟨event, dbStatus, affected, σ.done, since, rfl, ?_, met, rolls⟩
        rw [done]
        simp [Traced.next]
      have rolledUp : ∀ τ, (updateParentJobStatus row.jobId).Along noticeContract
          (fun τ' _ => τ'.root = τ.root ∧ ∃ since, τ'.done = τ.done ++ since ∧ ∀ x ∈ since, x.1.RollsUp) τ :=
        (updateParentJobStatus_rollsUp row.jobId).adds fun _ _ rolls _ payload _ eq => .inr (rolls.2 payload eq)
      refine iteInduction (motive := fun p : Proc Unit => p.Along noticeContract (fun τ _ => OfRelay row τ) _)
        (fun _ => own) fun met => ?_
      exact iteInduction (motive := fun p : Proc Unit => p.Along noticeContract (fun τ _ => OfRelay row τ) _)
        (fun _ => (rolledUp _).bind fun τ _ added => notifies met τ added)
        fun _ => notifies met _ ⟨rfl, [], by simp [noticeContract, tracing], by simp⟩

theorem relay_notices {f : Fn} (own : f.relays? = some row) : NoticesOf row (body cfg f) := by
  have C : Closed (fun {_} p => NoticesOf row p) (fun o => ∀ payload, o ≠ .sql (.notifyJobUpdate payload))
    (fun _ => False) (fun f => f.relays? = some row) := closed_noticesOf
  have ends : NoticesOf row (endRelay row) := C.op (fun _ => nofun) fun _ => C.ret _
  cases f with
  | relayOneJob =>
    cases own
    refine C.op (fun _ => nofun) fun answer => ?_
    cases answer with
    | ok => exact C.jump rfl
    | error reason =>
      refine C.op (fun _ => nofun) fun answer => ?_
      cases answer with
      | error e => exact ends
      | ok => exact C.jump rfl
  | relayStream =>
    cases own
    refine C.op (fun _ => nofun) fun answer => ?_
    have again : NoticesOf row (.jump (.relayStream row) : Proc Unit) := C.jump rfl
    match answer with
    | none => exact ends
    | some (.error _) => exact ends
    | some .close => exact ends
    | some .other => exact again
    | some (.message none) => exact again
    | some (.message (some event)) =>
      change NoticesOf row ((processEvent row event).bind fun _ =>
        if stopsRelay event.status then endRelay row else .jump (.relayStream row))
      exact C.bind (processEvent_notices event) fun _ => iteInduction (fun _ => ends) fun _ => again
  | relayPoll _ client lastStatus =>
    cases own
    refine C.op (fun _ => nofun) fun _ => C.op (fun _ => nofun) fun answer => ?_
    have again : ∀ lastStatus, NoticesOf row (.jump (.relayPoll row client lastStatus) : Proc Unit) :=
      fun _ => C.jump rfl
    cases answer with
    | error e => exact again lastStatus
    | ok status =>
      exact iteInduction (fun _ => again _) fun _ => C.bind (processEvent_notices _) fun _ =>
        iteInduction (fun _ => ends) fun _ => again _
  | _ => cases own

/-- The contract leaves other tasks alone. -/
theorem notices_of_other {σ : Traced Op Op.Resp Fn} (other : ∀ row, ¬ OfRelay row σ) (p : Proc Unit) :
    p.Along noticeContract (fun _ _ => True) σ := by
  induction p generalizing σ with
  | ret value => trivial
  | op o next ih => exact ⟨fun row _ own => absurd own (other row), fun r _ => ih r other⟩
  | spawn f next ih => exact ⟨trivial, ih other⟩
  | jump f => exact fun row own => absurd own (other row)

theorem engine_notices : (engine cfg).Keeps noticeContract where
  starts σ f _ := by
    by_cases relay : ∃ row, f = .relayOneJob row
    · obtain ⟨row, rfl⟩ := relay
      have notices : NoticesOf row (body cfg (.relayOneJob row)) := relay_notices rfl
      exact (notices _ rfl).weaken fun _ _ _ => trivial
    · refine notices_of_other (fun row own => relay ⟨row, ?_⟩) _
      exact Option.some.inj own
  tails σ f tail := by
    by_cases relay : ∃ row, OfRelay row σ
    · obtain ⟨row, own⟩ := relay
      exact (relay_notices (tail row own) σ own).weaken fun _ _ _ => trivial
    · exact notices_of_other (not_exists.mp relay) _
  idle := trivial

/-! ## Where a notification comes from -/

/-- At `e` the relay `tid` tells the status that it has set at `u`. -/
structure Noticed (pair : Uuid × Uuid) (a : List (Event World Op Op.Resp Fn)) (u : Event World Op Op.Resp Fn)
    (b : List (Event World Op Op.Resp Fn)) (e : Event World Op Op.Resp Fn) (tid : Nat) (row : RunningHostJob)
    (status : JobStatus) : Prop where
  own : row.pair = pair
  root : ∃ task, u.pre.tasks[tid]? = some task ∧ task.root = .relayOneJob row
  update : ∃ event affected, u.label = .op tid (.sql (.updateHosts (relayUpdate row event status))) (.ok affected) ∧
    affected ≠ 0
  since : ∀ x ∈ exchanges tid b, x.1.RollsUp
  told : ∃ payload, e.label = .op tid (.sql (.notifyJobUpdate payload)) (.ok ()) ∧
    hostNotice? pair payload = some status.text

theorem notice_inv {text : String} (told : notice? pair e = some text) :
    ∃ tid payload task row, e.label = .op tid (.sql (.notifyJobUpdate payload)) (.ok ()) ∧
      e.pre.tasks[tid]? = some task ∧ task.root = .relayOneJob row ∧ hostNotice? pair payload = some text := by
  unfold notice? at told
  split at told
  · rename_i tid payload label
    split at told
    · rename_i row found
      obtain ⟨task, at_, root⟩ := Option.map_eq_some_iff.mp found
      exact ⟨tid, payload, task, row, label, at_, root, told⟩
    · cases told
  · cases told

/-- A notification follows an `UPDATE` that has met the row, with nothing between them but a
    roll-up. -/
theorem noticed {text : String} (run : Run (engine cfg) s (h₁ ++ e :: h₂) t) (initial : Initial s)
    (told : notice? pair e = some text) : ∃ a u b tid row status, h₁ = a ++ u :: b ∧ text = status.text ∧
      Noticed pair a u b e tid row status := by
  obtain ⟨tid, payload, task, row, label, at_, root, own⟩ := notice_inv told
  obtain ⟨before, step, -⟩ := run.split_event
  have relies : ∀ e' ∈ h₁ ++ e :: h₂, noticeContract.Relies e'.label := fun e' _ => by
    cases e'.label <;> trivial
  have permitted :=
    (run.guarantees engine_notices relies (Sys.along_of_empty initial.tasks)).2 h₁ e h₂ rfl
  rw [label] at permitted step
  obtain ⟨root', next, w, there, -⟩ := step.op_inv
  obtain rfl : task = ⟨root', .op _ next⟩ := Option.some.inj (at_.symm.trans there)
  have ghost : (engine cfg).ghost noticeContract h₁ tid = ⟨some root', exchanges tid h₁⟩ :=
    before.traced initial.tasks at_ (by simp)
  have announces := permitted row payload (by rw [ghost]; exact congrArg some root) rfl
  rw [ghost] at announces
  rcases announces with ⟨event, status, affected, l, since, rfl, done, met, rolls⟩ | silent
  · obtain ⟨a, u, b, rfl, -, update, rfl⟩ := exchanges_part done
    have toldOf : row.pair = pair ∧ text = status.text := hostNotice_host own
    obtain ⟨same, rfl⟩ := toldOf
    refine ⟨a, u, b, tid, row, status, rfl, rfl,
      { own := same, root := ?_, update := ⟨event, affected, update, met⟩, since := rolls
        told := ⟨hostNotifyPayload row event status, label, own⟩ }⟩
    -- the task is the relay that it was at the `UPDATE`
    obtain ⟨-, first, rest⟩ := before.split_event
    have onward := Run.cons first rest
    rw [update] at first
    obtain ⟨root₀, next₀, w₀, began, -⟩ := first.op_inv
    obtain ⟨later, kept, same', -⟩ := onward.task_kept began
    obtain rfl : later = ⟨root', .op _ next⟩ := Option.some.inj (kept.symm.trans at_)
    exact ⟨_, began, same'.symm.trans root⟩
  · rw [silent pair] at own
    cases own

/-! ## The row of the pair -/

def PairFinished (db : Db) (pair : Uuid × Uuid) : Prop :=
  ∃ r ∈ db.patchJobHosts, r.jobId = pair.1 ∧ r.hostId = pair.2 ∧ r.status.isTerminal = true

theorem PairFinished.step {l : Label Op Op.Resp Fn} (finished : PairFinished s.world.db pair)
    (step : Step (engine cfg) s l t) : PairFinished t.world.db pair := by
  obtain ⟨r, mem, job, host, terminal⟩ := finished
  obtain ⟨fresh, rows, -⟩ := step_patchJobHosts step
  obtain ⟨job', host'⟩ := hostEffect_key (l := l) s.world.db.now r
  refine ⟨hostEffect s.world.db.now l r, ?_, job'.trans job, host'.trans host, ?_⟩
  · rw [rows]
    exact List.mem_append_left _ (List.mem_map_of_mem mem)
  · rw [hostEffect_status_of_terminal terminal]
    exact terminal

theorem PairFinished.run (finished : PairFinished s.world.db pair) (run : Run (engine cfg) s h t) :
    PairFinished t.world.db pair :=
  run.preserves (I := fun s => PairFinished s.world.db pair) (fun _ _ step before => before.step step) finished

/-- A relay's `UPDATE` that affects a row meets the row of its pair, which is unfinished. -/
theorem met_of_affected {event : AgentWsEvent} {status : JobStatus} {affected : Nat}
    (step : Step (engine cfg) s
      (.op tid (.sql (.updateHosts (relayUpdate row event status))) (.ok affected)) t) (met : affected ≠ 0) :
    ∃ r ∈ s.world.db.patchJobHosts, unfinishedPair row r = true ∧
      ((relayUpdate row event status).update s.world.db.now).onRow r ∈ t.world.db.patchJobHosts := by
  obtain ⟨root, next, w, -, done, rfl⟩ := step.op_inv
  obtain ⟨_, fails, -⟩ | ⟨result, db, ran, eq, rfl⟩ := done
  · cases fails
  · cases ran
    cases eq
    obtain ⟨r, mem, holds⟩ : ∃ r ∈ s.world.db.patchJobHosts,
        ((relayUpdate row event status).update s.world.db.now).cond r = true := by
      by_contra none
      refine met (Sql.Update.affected_eq_zero.mpr fun r mem => ?_)
      simpa using fun holds => none ⟨r, mem, holds⟩
    rw [HostUpdate.cond_of_relayed (relayUpdate_relayed row event status)] at holds
    exact ⟨r, mem, holds, List.mem_map_of_mem mem⟩

theorem Noticed.finished {a b : List (Event World Op Op.Resp Fn)} {u : Event World Op Op.Resp Fn}
    {status : JobStatus} (noticed : Noticed pair a u b e tid row status)
    (step : Step (engine cfg) u.pre u.label u.post) (terminal : status.isTerminal = true) :
    PairFinished u.post.world.db pair := by
  obtain ⟨event, affected, update, met⟩ := noticed.update
  rw [update] at step
  obtain ⟨r, -, unfinished, there⟩ := met_of_affected step met
  simp only [unfinishedPair, Bool.and_eq_true, beq_iff_eq] at unfinished
  obtain ⟨⟨job, host⟩, open_⟩ := unfinished
  have met' : unfinishedPair row r = true := by simpa [unfinishedPair, job, host] using open_
  have set_ : (((relayUpdate row event status).update u.pre.world.db.now).onRow r).status = status := by
    rw [(HostUpdate.onRow_of_relayed (relayUpdate_relayed row event status)).1, if_pos met']
  refine ⟨_, there, ?_, ?_, ?_⟩
  · rw [HostUpdate.onRow_jobId, job, ← noticed.own, RunningHostJob.pair]
  · rw [HostUpdate.onRow_hostId, host, ← noticed.own, RunningHostJob.pair]
  · rw [set_]
    exact terminal

/-- The `UPDATE` before a notification has met an unfinished row. -/
theorem Noticed.unfinished {a b : List (Event World Op Op.Resp Fn)} {u : Event World Op Op.Resp Fn}
    {status : JobStatus} (noticed : Noticed pair a u b e tid row status)
    (run : Run (engine cfg) s (a ++ u :: b) t) (initial : Initial s) : ¬ PairFinished u.pre.world.db pair := by
  rintro ⟨r, mem, job, host, terminal⟩
  obtain ⟨before, step, -⟩ := run.split_event
  obtain ⟨event, affected, update, met⟩ := noticed.update
  rw [update] at step
  obtain ⟨r', mem', unfinished, -⟩ := met_of_affected step met
  simp only [unfinishedPair, Bool.and_eq_true, beq_iff_eq, Bool.not_eq_true'] at unfinished
  obtain ⟨⟨job', host'⟩, open_⟩ := unfinished
  rw [← noticed.own] at job host
  have same : r = r' := (run_pairs before initial).eq mem mem' (job.trans job'.symm) (host.trans host'.symm)
  rw [same, open_] at terminal
  cases terminal

/-! ## The last notification -/

/-- After a notification of a terminal status comes none. -/
theorem notice_last {text text' : String} {h₃ : List (Event World Op Op.Resp Fn)}
    {e' : Event World Op Op.Resp Fn} (run : Run (engine cfg) s (h₁ ++ e :: (h₂ ++ e' :: h₃)) t)
    (initial : Initial s) (told : notice? pair e = some text) (terminal : IsTerminalText text) :
    notice? pair e' ≠ some text' := by
  intro told'
  have whole : Run (engine cfg) s ((h₁ ++ e :: h₂) ++ e' :: h₃) t := by simpa using run
  obtain ⟨a, u, b, tid, row, status, split, rfl, first⟩ := noticed run initial told
  obtain ⟨a', u', b', tid', row', status', split', -, second⟩ := noticed whole initial told'
  obtain ⟨status₀, isTerminal, same⟩ := terminal
  obtain rfl := JobStatus.text_injective same
  subst split
  have order : a ++ u :: (b ++ e :: h₂) = a' ++ u' :: b' := by simpa using split'
  have upTo : Run (engine cfg) s (a ++ u :: (b ++ e :: h₂)) e'.pre := by simpa using whole.split_event.1
  obtain ⟨before, step, after⟩ := upTo.split_event
  rcases split_cases order with ⟨-, rfl, rfl⟩ | ⟨m, later, rfl⟩ | ⟨m, rfl, rfl⟩
  · -- one `UPDATE` for both: the first notification would come between it and the second
    obtain ⟨event, affected, update, -⟩ := first.update
    obtain ⟨event', affected', update', -⟩ := second.update
    obtain ⟨payload, label, own⟩ := first.told
    obtain rfl : tid = tid' := (Label.op.inj (update.symm.trans update')).1
    have rolls := second.since _ (mem_exchanges (by simp) label)
    rw [rolls.2 payload rfl pair] at own
    cases own
  · -- the second `UPDATE` would meet a row that the first has finished
    rw [later] at after
    have finished := (first.finished step isTerminal).run after.split_event.1
    rw [later] at upTo
    have parts : Run (engine cfg) s ((a ++ u :: m) ++ u' :: b') e'.pre := by simpa using upTo
    exact second.unfinished parts initial finished
  · -- the second `UPDATE` comes first, and its relay lives on at the other: there is but one
    obtain ⟨event, affected, update, -⟩ := first.update
    have one : tid = tid' := by
      obtain ⟨task, at_, root⟩ := first.root
      obtain ⟨task', began, root'⟩ := second.root
      obtain ⟨-, step', onward⟩ := before.split_event
      obtain ⟨later, there, kept, -⟩ := (Run.cons step' onward).task_kept began
      obtain ⟨payload, label, -⟩ := second.told
      obtain ⟨-, last, -⟩ := whole.split_event
      have onwards : Run (engine cfg) u.pre (u :: (b ++ e :: h₂) ++ [e']) e'.post :=
        (Run.cons step after).snoc last
      have alive := onwards.alive_before at_ (by simp) update
      have alive' := onwards.alive_before there (by simp) label
      obtain ⟨_, p⟩ := task
      obtain rfl : _ = Fn.relayOneJob row := root
      obtain ⟨_, p'⟩ := later
      obtain rfl : _ = Fn.relayOneJob row' := kept.trans root'
      exact relay_unique before initial at_ there alive alive' (first.own.trans second.own.symm)
    subst one
    have rolls := second.since _ (mem_exchanges (by simp) update)
    exact rolls.1 _ rfl

/-- In every run the notifications of a pair end with the first of a terminal status. -/
theorem stream_ends (run : Run (engine cfg) s h t) (initial : Initial s) (pair : Uuid × Uuid) :
    EndsWithTerminal (notices pair h) := by
  rintro front text rest split terminal
  obtain ⟨h₁, others, rfl, -, after⟩ := List.filterMap_eq_append_iff.mp split
  obtain ⟨silent, e, h₂, rfl, -, told, last⟩ := List.filterMap_eq_cons_iff.mp after
  by_contra some_
  obtain ⟨text', rest', rfl⟩ := List.exists_cons_of_ne_nil some_
  obtain ⟨silent', e', h₃, rfl, -, told', -⟩ := List.filterMap_eq_cons_iff.mp last
  have whole : Run (engine cfg) s ((h₁ ++ silent) ++ e :: (silent' ++ e' :: h₃)) t := by simpa using run
  exact notice_last whole initial told terminal told'

/-- The relay of a job that is done tells it once. -/
theorem stream_ends_completed :
    EndsWithTerminal (notices (1, 100) completedHistory) ∧ notices (1, 100) completedHistory = ["succeeded"] :=
  ⟨stream_ends completed_run Small.start_initial _, by decide +kernel⟩

end PatchManager
