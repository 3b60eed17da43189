import PatchManager.Engine.Schedule
import PatchManager.Verified.Skeleton

/-! # When a relay ends

A relay follows the agent's stream, or polls the agent, until the agent says that the job is
over.  It never reads the row it relays to, so a row that another writer has finished, or
that the relay itself has finished for a status its loop does not stop on, leaves it running.

Main results:

* `relay_ends_iff_hears`: wherever a relay is in a run, it comes to its end and frees its
  pair exactly when an answer it gets is one its loops stop on.
* `relay_ends_with_row_iff`: so it ends with its row in just these cases.
* `activeRemove_frees`: a pair that has been freed has no relay any more.
-/

namespace PatchManager

open PatchManager.Conc

/-! ## Answers that stop a relay -/

/-- The answers after which a relay stops: the end of the stream, an event or a job status with
    one of the statuses its loops look for, or the failure to build a client. -/
def Op.stops : (o : Op) → o.Resp → Bool
  | .nextFrame _, none => true
  | .nextFrame _, some (.error _) => true
  | .nextFrame _, some .close => true
  | .nextFrame _, some (.message (some event)) => stopsRelay event.status
  | .jobStatus _ _, .ok answer => stopsRelay (mappedStatus answer.status)
  | .newClient _, .error _ => true
  | _, _ => false

/-- Among these answers is one that stops the relay. -/
def hearsStop (l : List (Exchange Op Op.Resp)) : Bool := l.any fun x => x.1.stops x.2

def Op.frees (row : RunningHostJob) : Op → Bool
  | .activeRemove key => key == (row.jobId, row.hostId)
  | _ => false

/-- What is known of a relay from its exchanges. -/
structure Relaying where
  row : Option RunningHostJob := none
  stopped : Bool := false
  freed : Bool := false

def Relaying.next (σ : Relaying) (o : Op) (answer : o.Resp) : Relaying :=
  { σ with stopped := σ.stopped || o.stops answer, freed := σ.freed || σ.row.any o.frees }

/-- The loops of a relay.  The status of the last poll is not one that stops it. -/
inductive Loops (row : RunningHostJob) : Fn → Prop
  | stream : Loops row (.relayStream row)
  | poll (client : AgentClient) (lastStatus : Option String)
      (goesOn : ∀ status, lastStatus = some status → stopsRelay status = false) :
      Loops row (.relayPoll row client lastStatus)

/-- A relay goes on as long as nothing has stopped it, and ends once something has, having
    freed its pair. -/
def relayingContract : Contract Op Op.Resp Fn where
  State := Relaying
  idle := {}
  init f :=
    match f with
    | .relayOneJob row => { row := some row }
    | _ => {}
  next := Relaying.next
  rely _ _ := True
  guar _ _ := True
  start _ _ := True
  tail σ f := ∀ row, σ.row = some row → σ.stopped = false ∧ Loops row f
  exit σ := σ.row.isSome = true → σ.stopped = true ∧ σ.freed = true

abbrev Relays (σ : Relaying) (p : Proc Unit) : Prop :=
  p.Along relayingContract (fun τ _ => relayingContract.exit τ) σ

/-- The contract says nothing about other tasks. -/
theorem relays_of_other {σ : Relaying} (other : σ.row = none) (p : Proc Unit) : Relays σ p := by
  induction p generalizing σ with
  | ret value =>
    intro some_
    rw [other] at some_
    cases some_
  | op o next ih => exact ⟨trivial, fun r _ => ih r other⟩
  | spawn f next ih => exact ⟨trivial, ih other⟩
  | jump f =>
    intro row eq
    rw [other] at eq
    cases eq

/-! ## The functions of a relay -/

section relay

variable {row : RunningHostJob} {σ : Relaying}

def Op.isSql : Op → Bool
  | .sql _ => true
  | _ => false

theorem updateParentJobStatus_sql (jobId : Uuid) :
    (updateParentJobStatus jobId).Within (fun o => o.isSql = true) (fun _ => False) fun _ => False := by
  refine .op rfl fun answer => ?_
  cases answer with
  | error reason => exact .ret _
  | ok pending =>
    refine iteInduction (fun _ => .ret _) fun _ => .op rfl fun answer => ?_
    cases answer with
    | error reason => exact .ret _
    | ok counts =>
      refine .op rfl fun answer => ?_
      cases answer with
      | error reason => exact .ret _
      | ok => exact .op rfl fun _ => .ret _

theorem processEvent_sql (row : RunningHostJob) (event : AgentWsEvent) :
    (processEvent row event).Within (fun o => o.isSql = true) (fun _ => False) fun _ => False := by
  unfold processEvent
  split
  · exact .ret _
  · refine .op rfl fun answer => ?_
    cases answer with
    | error reason => exact .ret _
    | ok rowsAffected =>
      refine iteInduction (fun _ => .ret _) fun _ => ?_
      split
      · exact .bind (updateParentJobStatus_sql row.jobId) fun _ => .op rfl fun _ => .ret _
      · exact .op rfl fun _ => .ret _

theorem next_sql (σ : Relaying) {o : Op} (isSql : o.isSql = true) (answer : o.Resp) :
    σ.next o answer = σ := by
  cases o with
  | sql s =>
    obtain ⟨row, stopped, freed⟩ := σ
    cases row <;> simp [Relaying.next, Op.stops, Op.frees]
  | _ => cases isSql

/-- Recording an event neither stops the relay nor frees its pair. -/
theorem processEvent_relays (event : AgentWsEvent) :
    (processEvent row event).Along relayingContract (fun τ _ => τ = σ) σ :=
  (processEvent_sql row event).along (fun _ isSql => ⟨trivial, next_sql σ isSql⟩)
    (fun _ none => none.elim) fun _ none => none.elim

/-- A relay that has been stopped may end. -/
theorem endRelay_relays (own : σ.row = some row) (stopped : σ.stopped = true) :
    Relays σ (endRelay row) := by
  refine ⟨trivial, fun _ _ _ => ⟨?_, ?_⟩⟩
  · simp [relayingContract, Relaying.next, stopped]
  · simp [relayingContract, Relaying.next, own, Op.frees]

theorem jump_relays {f : Fn} (own : σ.row = some row) (open_ : σ.stopped = false)
    (loops : Loops row f) : Relays σ (.jump f) := by
  intro row' eq
  obtain rfl : row = row' := Option.some.inj (own.symm.trans eq)
  exact ⟨open_, loops⟩

theorem relayStream_relays (own : σ.row = some row) (open_ : σ.stopped = false) :
    Relays σ (relayStream row) := by
  refine ⟨trivial, fun answer _ => ?_⟩
  match answer with
  | none => exact endRelay_relays own (by simp [relayingContract, Relaying.next, Op.stops])
  | some (.error _) => exact endRelay_relays own (by simp [relayingContract, Relaying.next, Op.stops])
  | some .close => exact endRelay_relays own (by simp [relayingContract, Relaying.next, Op.stops])
  | some .other =>
    exact jump_relays own (by simp [relayingContract, Relaying.next, Op.stops, open_]) .stream
  | some (.message none) =>
    exact jump_relays own (by simp [relayingContract, Relaying.next, Op.stops, open_]) .stream
  | some (.message (some event)) =>
    change Relays _ ((processEvent row event).bind fun _ =>
      if stopsRelay event.status then endRelay row else .jump (.relayStream row))
    apply (processEvent_relays event).bind
    rintro τ _ rfl
    split
    · rename_i stops
      exact endRelay_relays own (by simp [relayingContract, Relaying.next, Op.stops, stops])
    · rename_i goesOn
      exact jump_relays own (by simp [relayingContract, Relaying.next, Op.stops, open_, goesOn])
        .stream

theorem relayPoll_relays (own : σ.row = some row) (open_ : σ.stopped = false) (cfg : WorkerConfig)
    (client : AgentClient) {lastStatus : Option String}
    (goesOn : ∀ status, lastStatus = some status → stopsRelay status = false) :
    Relays σ (relayPoll cfg row client lastStatus) := by
  refine ⟨trivial, fun _ _ => ⟨trivial, fun answer _ => ?_⟩⟩
  cases answer with
  | error e =>
    exact jump_relays own (by simp [relayingContract, Relaying.next, Op.stops, open_])
      (.poll client _ goesOn)
  | ok jobStatus =>
    change Relays _ (if lastStatus = some (mappedStatus jobStatus.status) then
        .jump (.relayPoll row client lastStatus)
      else (processEvent row _).bind fun _ =>
        if stopsRelay (mappedStatus jobStatus.status) then endRelay row
        else .jump (.relayPoll row client (some (mappedStatus jobStatus.status))))
    split
    · -- a status that repeats is one that did not stop the relay before
      rename_i same
      exact jump_relays own
        (by simp [relayingContract, Relaying.next, Op.stops, open_, goesOn _ same])
        (.poll client _ goesOn)
    · apply (processEvent_relays _).bind
      rintro τ _ rfl
      split
      · rename_i stops
        exact endRelay_relays own (by simp [relayingContract, Relaying.next, Op.stops, stops])
      · rename_i other
        refine jump_relays own
          (by simp [relayingContract, Relaying.next, Op.stops, open_, other]) (.poll client _ ?_)
        rintro status ⟨⟩
        simpa using other

theorem relayOneJob_relays (own : σ.row = some row) (open_ : σ.stopped = false) :
    Relays σ (relayOneJob row) := by
  refine ⟨trivial, fun answer _ => ?_⟩
  cases answer with
  | ok =>
    exact jump_relays own (by simp [relayingContract, Relaying.next, Op.stops, open_]) .stream
  | error reason =>
    refine ⟨trivial, fun answer _ => ?_⟩
    cases answer with
    | error e =>
      exact endRelay_relays own (by simp [relayingContract, Relaying.next, Op.stops])
    | ok =>
      exact jump_relays own (by simp [relayingContract, Relaying.next, Op.stops, open_])
        (.poll _ _ nofun)

end relay

theorem body_relays (cfg : WorkerConfig) {σ : Relaying} {f : Fn} (calls : relayingContract.tail σ f) :
    Relays σ (body cfg f) := by
  cases own : σ.row with
  | none => exact relays_of_other own _
  | some row =>
    obtain ⟨open_, loops⟩ := calls row own
    cases loops with
    | stream => exact relayStream_relays own open_
    | poll client lastStatus goesOn => exact relayPoll_relays own open_ cfg client goesOn

theorem engine_relaying (cfg : WorkerConfig) : (engine cfg).Keeps relayingContract where
  starts σ f _ := by
    cases f with
    | relayOneJob row => exact relayOneJob_relays rfl rfl
    | _ => exact relays_of_other rfl _
  tails σ f := body_relays cfg
  idle := nofun

/-! ## The course of a relay -/

section course

variable {cfg : WorkerConfig} {row : RunningHostJob} {answers : EngineAnswers} {σ : Relaying}
  {l : List (Exchange Op Op.Resp)}

theorem heard_row : (relayingContract.heard σ l).row = σ.row := by
  induction l generalizing σ with
  | nil => rfl
  | cons x l ih => exact (ih (σ := σ.next x.1 x.2)).trans rfl

theorem heard_stopped : (relayingContract.heard σ l).stopped = (σ.stopped || hearsStop l) := by
  induction l generalizing σ with
  | nil => exact (Bool.or_false _).symm
  | cons x l ih =>
    calc (relayingContract.heard σ (x :: l)).stopped
        = ((σ.next x.1 x.2).stopped || hearsStop l) := ih
      _ = (σ.stopped || hearsStop (x :: l)) := by simp [Relaying.next, hearsStop, Bool.or_assoc]

theorem heard_freed (own : σ.row = some row) :
    (relayingContract.heard σ l).freed = (σ.freed || l.any fun x => x.1.frees row) := by
  induction l generalizing σ with
  | nil => exact (Bool.or_false _).symm
  | cons x l ih =>
    calc (relayingContract.heard σ (x :: l)).freed
        = ((σ.next x.1 x.2).freed || l.any fun x => x.1.frees row) := ih own
      _ = (σ.freed || (x :: l).any fun x => x.1.frees row) := by
        simp [Relaying.next, own, Bool.or_assoc]

/-- A relay that has been stopped calls no loop any more. -/
theorem within_of_stopped {p : Proc Unit} (relays : Relays σ p) (own : σ.row = some row)
    (stopped : σ.stopped = true) : p.Within (fun _ => True) (fun _ => True) fun _ => False := by
  induction p generalizing σ with
  | ret value => trivial
  | op o next ih =>
    refine ⟨trivial, fun r => ih r (relays.2 r trivial) own ?_⟩
    simp [relayingContract, Relaying.next, stopped]
  | spawn f next ih => exact ⟨trivial, ih relays.2 own stopped⟩
  | jump f =>
    obtain ⟨open_, -⟩ := relays row own
    rw [stopped] at open_
    cases open_

/-- The relay comes to its end, having freed its pair. -/
def RelayEnds (cfg : WorkerConfig) (row : RunningHostJob) (answers : EngineAnswers)
    (c : EngineCourse) : Prop :=
  ∃ n, (c.after (body cfg) answers n).rest = .ret () ∧
    (c.after (body cfg) answers n).heard.any (fun x => x.1.frees row) = true

/-- Sooner or later the relay gets an answer it stops on, or it has already. -/
def HearsStop (cfg : WorkerConfig) (answers : EngineAnswers) (c : EngineCourse) :
    Prop :=
  ∃ n, hearsStop (c.after (body cfg) answers n).heard = true

/-- A relay in any state its functions can reach. -/
theorem relayEnds_iff {c : EngineCourse}
    (relays : Relays (relayingContract.heard { row := some row } c.heard) c.rest) :
    RelayEnds cfg row answers c ↔ HearsStop cfg answers c := by
  have kept := Course.along (body cfg) answers
    (fun σ f => body_relays cfg) (fun _ _ => trivial) relays
  have own : ∀ l, (relayingContract.heard { row := some row } l).row = some row := fun _ => heard_row
  constructor
  · rintro ⟨n, ended, -⟩
    refine ⟨n, ?_⟩
    have last := kept n
    rw [ended] at last
    have stopped := (last (by rw [own]; rfl)).1
    rwa [heard_stopped, Bool.false_or] at stopped
  · rintro ⟨n, hears⟩
    -- after the answer that stops it no loop is entered, so the rest runs through
    have within := within_of_stopped (kept n) (own _) (by rw [heard_stopped, hears]; rfl)
    obtain ⟨m, told, value, there, -⟩ := within.finishes (body cfg) answers
      .ret (c.after (body cfg) answers n).heard (c.after (body cfg) answers n).called
    rw [Prog.bind_ret] at there
    have ended : (c.after (body cfg) answers (n + m)).rest = .ret () := by
      rw [Course.after_add, there]
    refine ⟨n + m, ended, ?_⟩
    have last := kept (n + m)
    rw [ended] at last
    have freed := (last (by rw [own]; rfl)).2
    rwa [heard_freed rfl, Bool.false_or] at freed

end course

/-! ## Relays in a run -/

section run

variable {cfg : WorkerConfig} {s t : State} {h : List (Event World Op Op.Resp Fn)} {tid : Nat}
  {row : RunningHostJob} {p : Proc Unit} {answers : EngineAnswers}

/-- A relay that is not over, from a state of a run on. -/
def relayCourse (tid : Nat) (h : List (Event World Op Op.Resp Fn)) (p : Proc Unit) :
    EngineCourse := ⟨exchanges tid h, [], p⟩

/-- Wherever a relay is in a run, it comes to its end and frees its pair exactly when an answer
    it gets is one its loops stop on. -/
theorem relay_ends_iff_hears (run : Run (engine cfg) s h t) (initial : Initial s)
    (at_ : t.tasks[tid]? = some ⟨.relayOneJob row, p⟩) (alive : p ≠ .ret ()) :
    RelayEnds cfg row answers (relayCourse tid h p) ↔
      HearsStop cfg answers (relayCourse tid h p) := by
  apply relayEnds_iff
  have relies : ∀ e ∈ h, relayingContract.Relies e.label := fun e _ => by cases e.label <;> trivial
  have along := (run.guarantees (engine_relaying cfg) relies (Sys.along_of_empty initial.tasks)).1 tid _ at_
  rwa [run.ghost_exchanges initial.tasks at_ alive] at along

/-- The pair's row is finished. -/
def RowFinished (db : Db) (row : RunningHostJob) : Prop :=
  ∃ r ∈ db.patchJobHosts, r.jobId = row.jobId ∧ r.hostId = row.hostId ∧ r.status.isTerminal = true

/-- The relay has itself applied an event that finishes the row. -/
def AppliedTerminal (tid : Nat) (h : List (Event World Op Op.Resp Fn)) (row : RunningHostJob) : Prop :=
  ∃ event dbStatus, ∃ affected : Nat, 0 < affected ∧
    ⟨.sql (.updateHosts (.relayTerminal row event dbStatus)), .ok affected⟩ ∈ exchanges tid h

/-- The row has become terminal, by any writer or by the relay. -/
def Finished (t : State) (tid : Nat) (h : List (Event World Op Op.Resp Fn)) (row : RunningHostJob) :
    Prop :=
  RowFinished t.world.db row ∨ AppliedTerminal tid h row

/-- A relay whose row is finished ends exactly when it gets an answer its loops stop on. -/
theorem relay_ends_with_row_iff (run : Run (engine cfg) s h t) (initial : Initial s)
    (at_ : t.tasks[tid]? = some ⟨.relayOneJob row, p⟩) (alive : p ≠ .ret ())
    (answers : EngineAnswers) :
    (Finished t tid h row → RelayEnds cfg row answers (relayCourse tid h p)) ↔
      (Finished t tid h row → HearsStop cfg answers (relayCourse tid h p)) := by
  have iff : RelayEnds cfg row answers (relayCourse tid h p) ↔ HearsStop cfg answers (relayCourse tid h p) :=
    relay_ends_iff_hears run initial at_ alive
  exact ⟨fun ends finished => iff.mp (ends finished), fun hears finished => iff.mpr (hears finished)⟩

end run

/-! ## Freed pairs -/

section freed

variable {cfg : WorkerConfig} {s t : State} {h : List (Event World Op Op.Resp Fn)}

/-- What an operation can do to the pairs that have a relay. -/
theorem exec_active {w w' : World} {o : Op} {answer : o.Resp} (done : exec w o answer w') :
    w'.active = w.active ∨ (∃ key, o = .activeInsert key ∧ w'.active = w.active.insert key) ∨
      ∃ key, o = .activeRemove key ∧ w'.active = w.active.erase key := by
  cases o with
  | sql s =>
    rcases done with ⟨_, -, rfl⟩ | ⟨result, db, -, -, rfl⟩
    · exact .inl rfl
    · exact .inl rfl
  | acquire => obtain ⟨_, -, rfl⟩ := done; exact .inl rfl
  | utcNow => obtain ⟨-, rfl⟩ := done; exact .inl rfl
  | newSemaphore => obtain ⟨-, rfl⟩ := done; exact .inl rfl
  | activeContains => obtain ⟨-, rfl⟩ := done; exact .inl rfl
  | activeInsert key => cases done; exact .inr (.inl ⟨key, rfl, rfl⟩)
  | activeRemove key => cases done; exact .inr (.inr ⟨key, rfl, rfl⟩)
  | _ => cases done; exact .inl rfl

/-- A pair has at most one relay. -/
theorem active_nodup (run : Run (engine cfg) s h t) (start : s.world.active = []) :
    t.world.active.Nodup := by
  apply run.preserves (I := fun s => s.world.active.Nodup) _ (by simp [start])
  rintro ⟨pre, label, post⟩ - step kept
  change Step (engine cfg) pre label post at step
  change pre.world.active.Nodup at kept
  change post.world.active.Nodup
  cases step with
  | op at_ done =>
    rcases exec_active done with same | ⟨key, -, new⟩ | ⟨key, -, gone⟩
    · rw [same]; exact kept
    · rw [new]; exact kept.insert
    · rw [gone]; exact kept.erase key
  | drift moved => rw [moved.active]; exact kept
  | @enter f w called =>
    cases f with
    | processJob jobId => rw [called.2]; exact kept
    | _ => rw [called.2]; exact kept
  | restart => exact List.nodup_nil
  | _ => exact kept

/-- A pair that has been freed has no relay any more. -/
theorem activeRemove_frees (run : Run (engine cfg) s h t) (start : s.world.active = [])
    {e : Event World Op Op.Resp Fn} (mem : e ∈ h) {tid : Nat} {key : Uuid × Uuid} {answer : Unit}
    (label : e.label = .op tid (.activeRemove key) answer) : key ∉ e.post.world.active := by
  obtain ⟨h₁, h₂, rfl⟩ := List.append_of_mem mem
  obtain ⟨before, step, -⟩ := run.split_event
  have nodup := active_nodup before start
  rw [label] at step
  obtain ⟨_, _, w, -, done, post⟩ := step.op_inv
  cases done
  rw [post]
  exact nodup.not_mem_erase

end freed

/-! ## A relay that outlives its row -/

/-- The row runs as `a`; its relay receives the event that the job is done, with the other
    word for success, and records it. -/
def completedEvent : List (Move Small.player) :=
  Small.creates ++ Small.processes 1 ++ Small.submits 2 "a" ++
    .call .relayTick :: Small.steps 3 6 ++ Small.steps 4 2 ++
    [.run 4 (.frame (some (.message (some { jobId := "a", status := "completed" }))))] ++
    Small.steps 4 6

def completedHistory : List (Event World Op Op.Resp Fn) :=
  Small.player.history Small.start completedEvent

def completedState : State := Player.last Small.start completedHistory

def completedRow : RunningHostJob := ⟨1, 100, "a", "web1"⟩

deriving instance DecidableEq for RunningHostJob

/-- The relay waits for the next frame. -/
def waitsForFrame (t : State) (tid : Nat) (row : RunningHostJob) : Bool :=
  match t.tasks[tid]? with
  | some ⟨.relayOneJob own, .jump (.relayStream next)⟩ => own == row && next == row
  | _ => false

theorem exists_waiting {t : State} {tid : Nat} {row : RunningHostJob}
    (waits : waitsForFrame t tid row = true) :
    t.tasks[tid]? = some ⟨.relayOneJob row, .jump (.relayStream row)⟩ := by
  unfold waitsForFrame at waits
  split at waits
  · rename_i at_
    simp only [Bool.and_eq_true, beq_iff_eq] at waits
    obtain ⟨rfl, rfl⟩ := waits
    exact at_
  · cases waits

theorem completed_run : Run (engine Small.config) Small.start completedHistory completedState :=
  Small.player.run_of_play (by decide +kernel)

theorem completed_waits : completedState.tasks[4]? =
    some ⟨.relayOneJob completedRow, .jump (.relayStream completedRow)⟩ :=
  exists_waiting (by decide +kernel)

theorem completed_finished : Finished completedState 4 completedHistory completedRow := by
  have finished : (completedState.world.db.patchJobHosts.any fun r =>
      r.jobId == 1 && r.hostId == 100 && r.status.isTerminal) = true := by decide +kernel
  obtain ⟨r, mem, holds⟩ := List.any_eq_true.mp finished
  simp only [Bool.and_eq_true, beq_iff_eq] at holds
  exact .inl ⟨r, mem, holds.1.1, holds.1.2, holds.2⟩

/-- The agent keeps the stream open and sends nothing but pings. -/
def pings : EngineAnswers := fun n o =>
  match o with
  | .nextFrame _ => some .other
  | .newClient _ => .ok ()
  | o => unanswered n o

theorem pings_goOn (n : Nat) (o : Op) : o.stops (pings n o) = false := by
  cases o <;> rfl

theorem relay_ends_with_row_iff_completed :
    (Finished completedState 4 completedHistory completedRow →
        RelayEnds Small.config completedRow pings
          (relayCourse 4 completedHistory (.jump (.relayStream completedRow)))) ↔
      (Finished completedState 4 completedHistory completedRow →
        HearsStop Small.config pings
          (relayCourse 4 completedHistory (.jump (.relayStream completedRow)))) :=
  relay_ends_with_row_iff completed_run Small.start_initial completed_waits nofun pings

/-- A relay that has marked its row succeeded goes on for ever. -/
theorem relay_outlives_row :
    ¬ ∀ (cfg : WorkerConfig) (s t : State) (h : List (Event World Op Op.Resp Fn)) (tid : Nat)
        (row : RunningHostJob) (p : Proc Unit) (answers : EngineAnswers),
      Initial s → Run (engine cfg) s h t → t.tasks[tid]? = some ⟨.relayOneJob row, p⟩ →
        p ≠ .ret () → Finished t tid h row →
          RelayEnds cfg row answers (relayCourse tid h p) := by
  intro all
  have ends := all _ _ _ _ _ _ _ pings Small.start_initial completed_run completed_waits nofun
    completed_finished
  obtain ⟨n, hears⟩ :=
    (relay_ends_iff_hears completed_run Small.start_initial completed_waits nofun).mp ends
  obtain ⟨x, mem, stops⟩ := List.any_eq_true.mp hears
  rcases Course.told n x mem with before | ⟨k, told⟩
  · -- nothing in the history stops the relay
    have open_ : hearsStop (exchanges 4 completedHistory) = false := by decide +kernel
    exact List.any_eq_false.mp open_ x before stops
  · rw [told, pings_goOn] at stops
    cases stops

end PatchManager
