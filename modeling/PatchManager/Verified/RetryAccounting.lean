import PatchManager.Engine.Keys
import PatchManager.Verified.AttemptAttribution
import PatchManager.Verified.FailureReports
import PatchManager.Verified.Lifecycle
import Mathlib.Data.Finset.Card

/-! # Counting retries

`handle_host_failure` reads the retry count of a row in one statement and writes it in another,
and nothing tells it for which attempt it is called.  The scanner starts a poll of a running
row on every tick, so two polls can report the same failure, and two reports can overwrite
each other.

Main results:

* `retries_accounted_iff`: the retry count is the number of failed attempts, each retried once,
  and a row fails for good after four of them, exactly when every report is written at the
  count it finds, polls report on attempts that have not failed, and no report is lost.
* `failure_counted_twice`: two polls of one attempt use up two retries.
-/

namespace PatchManager

open PatchManager.Conc

variable {cfg : WorkerConfig} {s t : State} {h h₁ h₂ : List (Event World Op Op.Resp Fn)}
  {e : Event World Op Op.Resp Fn} {pjhId : Uuid}

/-! ## The ledger of a row -/

/-- What has been reported on the attempts of a row.  An attempt is an execution of the row, by
    its task. -/
structure Ledger where
  /-- the attempt whose agent job the row has -/
  storer : Option Nat := none
  /-- by task: the attempt whose agent job the row had when the task read the running rows -/
  seen : Nat → Option Nat := fun _ => none
  /-- by task: the attempt a poll is about -/
  about : Nat → Option Nat := fun _ => none
  /-- the attempts reported as failed, while the row was unfinished -/
  failed : Finset Nat := ∅
  /-- the attempts for which a retry has been scheduled -/
  retried : Finset Nat := ∅

/-- The attempt a task reports on: what a poll is about, and an execution itself. -/
def Ledger.attempt (L : Ledger) (tid : Nat) : Nat := (L.about tid).getD tid

def Db.unfinished (db : Db) (pjhId : Uuid) : Bool :=
  (db.pjh pjhId).any fun r => !r.status.isTerminal

/-- The row for which an agent job has been stored. -/
def Op.storedFor? : (o : Op) → o.Resp → Option Uuid
  | sql (.updateHosts (.storeAgentJobId pjhId _)), .ok _ => some pjhId
  | _, _ => none

/-- The step sets the unfinished row to pending until a retry. -/
def schedules (pjhId : Uuid) (e : Event World Op Op.Resp Fn) : Bool :=
  match took e.label with
  | some (.updateHosts (.setPending id _ _ _)) => id == pjhId && e.pre.world.db.unfinished pjhId
  | _ => false

/-- The step of `handle_host_failure` sets the unfinished row to failed. -/
def givesUp (pjhId : Uuid) (e : Event World Op Op.Resp Fn) : Bool :=
  match took e.label with
  | some (.updateHosts (.setFailed id _)) => id == pjhId && e.pre.world.db.unfinished pjhId
  | _ => false

/-- The ledger after one more event. -/
def Ledger.record (pjhId : Uuid) (L : Ledger) (e : Event World Op Op.Resp Fn) : Ledger :=
  match e.label with
  | .op tid o answer =>
    { storer := if o.storedFor? answer = some pjhId then some tid else L.storer
      seen :=
        if (o.runningRows? answer).isSome then Function.update L.seen tid L.storer else L.seen
      about := L.about
      failed :=
        if o.reported? answer = some pjhId ∧ e.pre.world.db.unfinished pjhId = true then
          insert (L.attempt tid) L.failed
        else L.failed
      retried := if schedules pjhId e then insert (L.attempt tid) L.retried else L.retried }
  | .spawn tid f =>
    { L with
      about :=
        if f.polls?.any fun row => row.id == pjhId then
          Function.update L.about e.pre.tasks.length (L.seen tid)
        else L.about }
  | _ => L

def ledger (pjhId : Uuid) (h : List (Event World Op Op.Resp Fn)) : Ledger :=
  h.foldl (Ledger.record pjhId) {}

@[simp] theorem ledger_snoc (h : List (Event World Op Op.Resp Fn)) (e : Event World Op Op.Resp Fn) :
    ledger pjhId (h ++ [e]) = (ledger pjhId h).record pjhId e := by
  simp [ledger]

/-! ## What is claimed of a run, and when it holds -/

/-- The event is accounted for, after what is in the ledger. -/
structure AccountedAt (pjhId : Uuid) (L : Ledger) (e : Event World Op Op.Resp Fn) : Prop where
  /-- no second retry is scheduled for an attempt -/
  once : ∀ tid o answer, e.label = .op tid o answer → schedules pjhId e = true →
    L.attempt tid ∉ L.retried
  /-- while the row is not finished its retry count is the number of failed attempts -/
  counted : ∀ r, e.post.world.db.pjh pjhId = some r → r.status.isTerminal = false →
    r.retryCount = (L.record pjhId e).failed.card
  /-- the row is given up after the first attempt and three more have failed -/
  exhausted : givesUp pjhId e = true → 4 ≤ (L.record pjhId e).failed.card

def RetriesAccounted (pjhId : Uuid) (h : List (Event World Op Op.Resp Fn)) : Prop :=
  ∀ h₁ e h₂, h = h₁ ++ e :: h₂ → AccountedAt pjhId (ledger pjhId h₁) e

/-- The retry count is the one a report has been made for. -/
def HostUpdate.countsFrom (retryCount : Int) : HostUpdate → Bool
  | setPending _ newRetryCount _ _ => newRetryCount == retryCount + 1
  | setFailed _ _ => 3 ≤ retryCount
  | _ => true

/-- A report on the unfinished row counts once. -/
structure CountsOnce (pjhId : Uuid) (L : Ledger) (e : Event World Op Op.Resp Fn) : Prop where
  /-- only reports on attempts that have failed before are lost by an error -/
  answered : ∀ tid o answer, e.label = .op tid o answer → o.reported? answer = some pjhId →
    e.pre.world.db.unfinished pjhId = true → took e.label = none → L.attempt tid ∈ L.failed
  /-- the `UPDATE` finds the retry count it was computed from -/
  current : ∀ u r, took e.label = some (.updateHosts u) →
    (Op.sql (.updateHosts u)).failureOf? = some pjhId → e.pre.world.db.pjh pjhId = some r →
      r.status.isTerminal = false → u.countsFrom r.retryCount = true
  /-- the `UPDATE` of a poll is about an attempt that has not failed before -/
  fresh : ∀ tid o answer u task, e.label = .op tid o answer → took e.label = some (.updateHosts u) →
    (Op.sql (.updateHosts u)).failureOf? = some pjhId → e.pre.world.db.unfinished pjhId = true →
      e.pre.tasks[tid]? = some task → task.root.isPoll = true → L.attempt tid ∉ L.failed

/-! ## What polls are about -/

/-- The execution has stored the agent job for the row. -/
def StoredBy (pjhId : Uuid) (agentJobId : String) (tid : Nat)
    (h : List (Event World Op Op.Resp Fn)) : Prop :=
  ∃ e ∈ h, ∃ affected,
    e.label = .op tid (.sql (.updateHosts (.storeAgentJobId pjhId agentJobId))) (.ok affected)

theorem StoredBy.snoc {agentJobId : String} {tid : Nat} (stored : StoredBy pjhId agentJobId tid h) :
    StoredBy pjhId agentJobId tid (h ++ [e]) := by
  obtain ⟨f, mem, label⟩ := stored
  exact ⟨f, List.mem_append_left _ mem, label⟩

theorem storedFor_cases {o : Op} {answer : o.Resp} (stored : o.storedFor? answer = some pjhId) :
    ∃ agentJobId affected, (⟨o, answer⟩ : Exchange Op Op.Resp) =
      ⟨.sql (.updateHosts (.storeAgentJobId pjhId agentJobId)), .ok affected⟩ := by
  unfold Op.storedFor? at stored
  split at stored
  · cases stored
    exact ⟨_, _, rfl⟩
  · cases stored

/-- A statement that stores no agent job leaves the row's. -/
theorem HostUpdate.agentJobId_onRow {u : HostUpdate} {now : Time} {r : PatchJobHost}
    (other : ∀ agentJobId, u ≠ .storeAgentJobId r.id agentJobId) :
    ((u.update now).onRow r).agentJobId = r.agentJobId := by
  by_cases met : (u.update now).cond r = true
  · rw [Sql.Update.onRow_eq_assign met]
    cases u with
    | storeAgentJobId id agentJobId =>
      simp only [update, beq_iff_eq] at met
      exact absurd (by rw [met]) (other agentJobId)
    | _ => rfl
  · rw [Sql.Update.onRow_eq_self (by simpa using met)]

theorem hostEffect_agentJobId {l : Label Op Op.Resp Fn} {r : PatchJobHost} (now : Time)
    (other : ∀ tid agentJobId affected,
      l ≠ .op tid (.sql (.updateHosts (.storeAgentJobId r.id agentJobId))) (.ok affected)) :
    (hostEffect now l r).agentJobId = r.agentJobId := by
  unfold hostEffect
  split
  · rename_i st effect
    cases st with
    | updateHosts u =>
      refine HostUpdate.agentJobId_onRow ?_
      rintro agentJobId rfl
      obtain ⟨tid, affected, label⟩ := took_eq_some effect
      exact other tid agentJobId affected label
    | _ => rfl
  · rfl

/-- The agent job of the row was stored by the execution the ledger names. -/
theorem storer_stored {r : PatchJobHost} {agentJobId : String} (run : Run (engine cfg) s h t)
    (initial : Initial s) (found : t.world.db.pjh pjhId = some r) (has : r.agentJobId = some agentJobId) :
    ∃ tid, (ledger pjhId h).storer = some tid ∧ StoredBy pjhId agentJobId tid h := by
  induction run generalizing r agentJobId with
  | nil => simp [Db.pjh, Sql.lookup, initial.patchJobHosts] at found
  | @snoc h u v l before step ih =>
    rw [ledger_snoc]
    by_cases stores : ∃ tid a affected,
        l = .op tid (.sql (.updateHosts (.storeAgentJobId pjhId a))) (.ok affected)
    · obtain ⟨tid, a, affected, rfl⟩ := stores
      have after := step_updateHosts step (u := .storeAgentJobId pjhId a) rfl pjhId
      rw [found] at after
      obtain ⟨r₀, found₀, rfl⟩ := Option.map_eq_some_iff.mp after.symm
      rw [Sql.Update.onRow_eq_assign (by simp [HostUpdate.update, (Sql.lookup_some found₀).2])] at has
      cases has
      exact ⟨tid, by simp [Ledger.record, Op.storedFor?], ⟨u, _, v⟩, by simp, affected, rfl⟩
    · have same : ((ledger pjhId h).record pjhId ⟨u, l, v⟩).storer = (ledger pjhId h).storer := by
        cases l with
        | op tid o answer =>
          simp only [Ledger.record, ite_eq_right_iff]
          intro stored
          obtain ⟨a, affected, eq⟩ := storedFor_cases stored
          cases eq
          exact absurd ⟨tid, a, affected, rfl⟩ stores
        | _ => rfl
      rw [same]
      rcases step_pjh_cases step found with ⟨r₀, found₀, rfl⟩ | ⟨-, fresh⟩
      · have kept : (hostEffect u.world.db.now l r₀).agentJobId = r₀.agentJobId := by
          unfold hostEffect
          split
          · rename_i st effect
            cases st with
            | updateHosts w =>
              refine HostUpdate.agentJobId_onRow ?_
              rintro a rfl
              obtain ⟨tid, affected, label⟩ := took_eq_some effect
              rw [(Sql.lookup_some found₀).2] at label
              exact absurd ⟨tid, a, affected, label⟩ stores
            | _ => rfl
          · rfl
        obtain ⟨tid, storer, stored⟩ := ih found₀ (kept ▸ has)
        exact ⟨tid, storer, stored.snoc⟩
      · rw [fresh.queued] at has
        cases has

theorem readRunning_of_rows {o : Op} {answer : o.Resp} {rows : List PatchJobHostRunning} {tid : Nat}
    (step : Step (engine cfg) s (.op tid o answer) t) (read : o.runningRows? answer = some rows) :
    ∀ row ∈ rows, ∃ r ∈ s.world.db.patchJobHosts, r.id = row.id ∧ r.agentJobId = some row.agentJobId := by
  obtain ⟨root, next, w, -, executed, -⟩ := step.op_inv
  unfold Op.runningRows? at read
  split at read
  · rename_i found
    cases read
    have done : exec s.world (.sql (.select .runningRows)) (.ok rows) w := executed
    obtain ⟨evaluated, -⟩ := exec_select done
    cases evaluated
    intro row mem
    obtain ⟨r, there, polled⟩ := List.mem_filterMap.mp mem
    simp only [Query.pollRow, bind, Option.bind_eq_some_iff, guard] at polled
    obtain ⟨agentJobId, agentJob, host, -, j, -, -, -, eq⟩ := polled
    cases eq
    exact ⟨r, there, rfl, agentJob⟩
  · cases read

/-- What a scan has read of the row names the agent job of the attempt in the ledger. -/
theorem seen_stored {tid : Nat} {row : PatchJobHostRunning} (run : Run (engine cfg) s h t)
    (initial : Initial s) (read : row ∈ (reporter cfg h tid).fetched) :
    ∃ attempt, (ledger row.id h).seen tid = some attempt ∧
      StoredBy row.id row.agentJobId attempt h := by
  induction run with
  | nil => cases read
  | @snoc h u v l before step ih =>
    have kept : (∀ o answer, l = .op tid o answer → o.runningRows? answer = none) →
        ((ledger row.id h).record row.id ⟨u, l, v⟩).seen tid = (ledger row.id h).seen tid := by
      intro unread
      cases l with
      | op other o answer =>
        simp only [Ledger.record]
        split
        · rename_i reads
          rcases eq_or_ne tid other with rfl | ne
          · rw [unread o answer rfl] at reads
            cases reads
          · exact Function.update_of_ne ne _ _
        · rfl
      | _ => rfl
    rw [ledger_snoc]
    cases (engine cfg).ghost_move reportContract h ⟨u, l, v⟩ tid with
    | own o answer label moved =>
      obtain rfl : l = .op tid o answer := label
      rw [reporter, moved] at read
      change row ∈ (o.runningRows? answer).getD (reporter cfg h tid).fetched at read
      cases rows : o.runningRows? answer with
      | none =>
        rw [rows] at read
        obtain ⟨attempt, seen, stored⟩ := ih read
        refine ⟨attempt, (kept fun o' answer' eq => ?_).trans seen, stored.snoc⟩
        cases eq
        exact rows
      | some rows' =>
        rw [rows] at read
        obtain ⟨r, there, id, agentJob⟩ := readRunning_of_rows step rows row read
        obtain ⟨attempt, storer, stored⟩ := storer_stored before initial
          (id ▸ (run_keys before initial).pjh_eq there) agentJob
        exact ⟨attempt, by simp [Ledger.record, rows, storer], stored.snoc⟩
    | start f starts moved =>
      rw [reporter, moved] at read
      cases read
    | stop ends moved =>
      rw [reporter, moved] at read
      cases read
    | keep others moved =>
      rw [reporter, moved] at read
      obtain ⟨attempt, seen, stored⟩ := ih read
      exact ⟨attempt, (kept fun o answer eq => absurd eq (others o answer)).trans seen, stored.snoc⟩

/-- A poll is about the execution that has stored its agent job. -/
theorem attempt_of_poll {tid : Nat} {task : Task Op Op.Resp Fn} {row : PatchJobHostRunning}
    (run : Run (engine cfg) s h t) (initial : Initial s) (at_ : t.tasks[tid]? = some task)
    (polls : task.root.polls? = some row) :
    ∃ attempt, (ledger row.id h).about tid = some attempt ∧
      StoredBy row.id row.agentJobId attempt h := by
  induction run generalizing task with
  | nil =>
    rw [initial.tasks] at at_
    cases at_
  | @snoc h u v l before step ih =>
    rw [ledger_snoc]
    rcases step.task_cases at_ with ⟨old, there, root, -⟩ | ⟨f, ⟨rfl, starts⟩, rfl⟩
    · obtain ⟨attempt, about, stored⟩ := ih there (root ▸ polls)
      refine ⟨attempt, ?_, stored.snoc⟩
      have ne : tid ≠ u.tasks.length := Nat.ne_of_lt (List.getElem?_eq_some_iff.mp there).1
      rw [← about]
      cases l with
      | spawn parent f =>
        simp only [Ledger.record]
        split
        · exact Function.update_of_ne ne _ _
        · rfl
      | _ => rfl
    · have permitted := run_reports (before.snoc step) initial (show _ = h ++ _ :: [] from rfl)
      rcases starts with ⟨parent, label⟩ | label
      · obtain rfl : l = .spawn parent f := label
        obtain ⟨attempt, seen, stored⟩ := seen_stored before initial (permitted row polls)
        refine ⟨attempt, ?_, stored.snoc⟩
        have own : f.polls? = some row := polls
        simp [Ledger.record, own, seen]
      · obtain rfl : l = .enter f := label
        obtain ⟨w, called, -⟩ := step.enter_inv
        cases f with
        | pollSingleHost | reconnectLoop => simp [engine, enter, Fn.isRequest, Fn.isTick] at called
        | _ => cases polls

/-! ## Attempts in the ledger are closed -/

/-- The ledger speaks of the task. -/
def Ledger.Mentions (L : Ledger) (tid : Nat) : Prop :=
  tid ∈ L.failed ∨ L.storer = some tid ∨ (∃ other, L.seen other = some tid) ∨
    (∃ other, L.about other = some tid) ∨ (L.about tid).isSome = true

theorem stores_of_storedFor {o : Op} {answer : o.Resp} (stored : o.storedFor? answer = some pjhId) :
    o.stores?.isSome = true := by
  unfold Op.storedFor? at stored
  split at stored
  · rfl
  · cases stored

/-- What an event adds to the ledger: a task that has just stored an agent job or reported a
    failure, or a poll that has just been started. -/
theorem Ledger.Mentions.of_record {L : Ledger} {tid : Nat}
    (mentions : (L.record pjhId e).Mentions tid) :
    L.Mentions tid ∨
      (∃ o answer, e.label = .op tid o answer ∧
        ((o.reported? answer).isSome = true ∨ o.stores?.isSome = true)) ∨
      tid = e.pre.tasks.length ∧ ∃ parent f, e.label = .spawn parent f ∧ f.polls?.isSome = true := by
  cases label : e.label with
  | op other o answer =>
    simp only [Ledger.Mentions, Ledger.record, label] at mentions
    rcases mentions with failed | storer | ⟨reader, seen⟩ | about
    · split at failed
      · rename_i reported
        rcases Finset.mem_insert.mp failed with attempt | before
        · cases poll : L.about other with
          | none =>
            -- the failure of an execution
            obtain rfl : tid = other := by rw [attempt, Ledger.attempt, poll]; rfl
            exact .inr (.inl ⟨o, answer, rfl, .inl (by rw [reported.1]; rfl)⟩)
          | some about =>
            obtain rfl : tid = about := by rw [attempt, Ledger.attempt, poll]; rfl
            exact .inl (.inr (.inr (.inr (.inl ⟨other, poll⟩))))
        · exact .inl (.inl before)
      · exact .inl (.inl failed)
    · split at storer
      · rename_i stored
        cases storer
        exact .inr (.inl ⟨o, answer, rfl, .inr (stores_of_storedFor stored)⟩)
      · exact .inl (.inr (.inl storer))
    · split at seen
      · rcases eq_or_ne reader other with rfl | ne
        · rw [Function.update_self] at seen
          exact .inl (.inr (.inl seen))
        · rw [Function.update_of_ne ne] at seen
          exact .inl (.inr (.inr (.inl ⟨reader, seen⟩)))
      · exact .inl (.inr (.inr (.inl ⟨reader, seen⟩)))
    · exact .inl (.inr (.inr (.inr about)))
  | spawn parent f =>
    simp only [Ledger.Mentions, Ledger.record, label] at mentions
    rcases mentions with failed | storer | seen | about
    · exact .inl (.inl failed)
    · exact .inl (.inr (.inl storer))
    · exact .inl (.inr (.inr (.inl seen)))
    · split at about
      · rename_i polls
        rcases about with ⟨other, about⟩ | own
        · rcases eq_or_ne other e.pre.tasks.length with rfl | ne
          · rw [Function.update_self] at about
            exact .inl (.inr (.inr (.inl ⟨parent, about⟩)))
          · rw [Function.update_of_ne ne] at about
            exact .inl (.inr (.inr (.inr (.inl ⟨other, about⟩))))
        · rcases eq_or_ne tid e.pre.tasks.length with rfl | ne
          · obtain ⟨row, poll, -⟩ := (Option.any_eq_true _ _).mp polls
            exact .inr (.inr ⟨rfl, parent, f, rfl, by rw [poll]; rfl⟩)
          · rw [Function.update_of_ne ne] at own
            exact .inl (.inr (.inr (.inr (.inr own))))
      · exact .inl (.inr (.inr (.inr about)))
  | _ =>
    simp only [Ledger.Mentions, Ledger.record, label] at mentions
    exact .inl mentions

theorem executes_of_polls {f : Fn} (polls : f.polls?.isSome = true) : f.executes? = none := by
  cases f <;> first | rfl | cases polls

/-- No task the ledger speaks of is an execution that is still to report. -/
theorem mentions_closed (run : Run (engine cfg) s h t) (tid : Nat)
    (mentions : (ledger pjhId h).Mentions tid) :
    tid < t.tasks.length ∧ ¬ (reporter cfg h tid).Attempts pjhId := by
  induction run generalizing tid with
  | nil => simp [ledger, Ledger.Mentions] at mentions
  | @snoc h u v l before step ih =>
    rw [ledger_snoc] at mentions
    rcases mentions.of_record with old | ⟨o, answer, label, closes⟩ | ⟨rfl, parent, f, label, polls⟩
    · obtain ⟨inside, closed⟩ := ih tid old
      exact ⟨Nat.lt_of_lt_of_le inside step.length_le, not_attempts_snoc closed inside⟩
    · obtain rfl : l = .op tid o answer := label
      obtain ⟨root, next, w, at_, -⟩ := step.op_inv
      refine ⟨Nat.lt_of_lt_of_le (List.getElem?_eq_some_iff.mp at_).1 step.length_le, ?_⟩
      exact not_attempts_of_closes rfl closes
    · obtain rfl : l = .spawn parent f := label
      refine ⟨by cases step; simp, fun attempts => ?_⟩
      rw [reporter, Machine.ghost_of_starts h ⟨rfl, .inl ⟨parent, rfl⟩⟩] at attempts
      have executes : f.executes? = some pjhId := attempts.1
      rw [executes_of_polls polls] at executes
      cases executes

/-- An execution reports on an attempt that has not failed: itself. -/
theorem attempt_fresh {tid : Nat} {o : Op} {answer : o.Resp} {task : Task Op Op.Resp Fn}
    (run : Run (engine cfg) s (h₁ ++ e :: h₂) t) (initial : Initial s)
    (label : e.label = .op tid o answer) (failure : o.failureOf? = some pjhId)
    (at_ : e.pre.tasks[tid]? = some task) (noPoll : task.root.isPoll = false) :
    (ledger pjhId h₁).attempt tid ∉ (ledger pjhId h₁).failed := by
  have permitted := run_reports run initial rfl
  rw [label] at permitted
  obtain ⟨before, -, -⟩ := run.split_event
  rcases permitted.failure pjhId failure with attempts | ⟨row, polls, -⟩
  · have unknown : ¬ (ledger pjhId h₁).Mentions tid := fun mentions =>
      (mentions_closed before tid mentions).2 attempts
    have own : (ledger pjhId h₁).about tid = none := by
      by_contra about
      exact unknown (.inr (.inr (.inr (.inr (Option.ne_none_iff_isSome.mp about)))))
    rw [Ledger.attempt, own]
    exact fun failed => unknown (.inl failed)
  · have polls' := root_of_polls before initial at_ polls
    rw [polls_of_isPoll noPoll] at polls'
    cases polls'

/-! ## The four kinds of steps -/

/-- How a step bears on the ledger. -/
inductive ReportKind (pjhId : Uuid) (e : Event World Op Op.Resp Fn) : Prop
  /-- no report on the row, or one that comes when it is finished -/
  | quiet (none : ∀ tid o answer, e.label = .op tid o answer → o.reported? answer = some pjhId →
      e.pre.world.db.unfinished pjhId = false)
  /-- a statement fails -/
  | lost (tid : Nat) (o : Op) (answer : o.Resp) (label : e.label = .op tid o answer)
      (reported : o.reported? answer = some pjhId)
      (unfinished : e.pre.world.db.unfinished pjhId = true) (failed : took e.label = none)
  | retry (tid : Nat) (retryCount : Int) (due : Time) (errorMsg : String) (affected : Nat)
      (label : e.label =
        .op tid (.sql (.updateHosts (.setPending pjhId retryCount due errorMsg))) (.ok affected))
      (unfinished : e.pre.world.db.unfinished pjhId = true)
  | giveUp (tid : Nat) (errorMsg : String) (affected : Nat)
      (label : e.label = .op tid (.sql (.updateHosts (.setFailed pjhId errorMsg))) (.ok affected))
      (unfinished : e.pre.world.db.unfinished pjhId = true)

theorem reported_ok {st : Stmt} {result : st.Result}
    (reported : (Op.sql st).reported? (.ok result) = some pjhId) :
    (∃ retryCount due errorMsg, st = .updateHosts (.setPending pjhId retryCount due errorMsg)) ∨
      ∃ errorMsg, st = .updateHosts (.setFailed pjhId errorMsg) := by
  cases st with
  | updateHosts u =>
    cases u with
    | setPending => cases reported; exact .inl ⟨_, _, _, rfl⟩
    | setFailed => cases reported; exact .inr ⟨_, rfl⟩
    | _ => cases reported
  | select q => cases q <;> cases reported
  | _ => cases reported

theorem reportKind (pjhId : Uuid) (e : Event World Op Op.Resp Fn) : ReportKind pjhId e := by
  cases unfinished : e.pre.world.db.unfinished pjhId with
  | false => exact .quiet fun _ _ _ _ _ => unfinished
  | true =>
    by_cases reports : ∃ tid o answer, e.label = .op tid o answer ∧ o.reported? answer = some pjhId
    · obtain ⟨tid, o, answer, label, reported⟩ := reports
      cases effect : took e.label with
      | none => exact .lost tid o answer label reported unfinished effect
      | some st =>
        obtain ⟨tid', result, label'⟩ := took_eq_some effect
        rw [label] at label'
        cases label'
        rcases reported_ok reported with ⟨retryCount, due, errorMsg, rfl⟩ | ⟨errorMsg, rfl⟩
        · exact .retry tid retryCount due errorMsg result label unfinished
        · exact .giveUp tid errorMsg result label unfinished
    · exact .quiet fun tid o answer label reported => absurd ⟨tid, o, answer, label, reported⟩ reports

section steps

variable {L : Ledger}

theorem unfinished_iff {db : Db} : db.unfinished pjhId = true ↔
    ∃ r, db.pjh pjhId = some r ∧ r.status.isTerminal = false := by
  simp [Db.unfinished, Option.any_eq_true]

/-- A quiet step schedules nothing, gives up nothing and leaves the attempts as they are. -/
theorem quiet_step (none : ∀ tid o answer, e.label = .op tid o answer →
      o.reported? answer = some pjhId → e.pre.world.db.unfinished pjhId = false) :
    schedules pjhId e = false ∧ givesUp pjhId e = false ∧
      (L.record pjhId e).failed = L.failed ∧ (L.record pjhId e).retried = L.retried := by
  have noRetry : schedules pjhId e = false := by
    unfold schedules
    split
    · rename_i id retryCount due errorMsg effect
      obtain ⟨tid, result, label⟩ := took_eq_some effect
      rw [Bool.and_eq_false_iff, beq_eq_false_iff_ne]
      rcases eq_or_ne id pjhId with rfl | ne
      · exact .inr (none _ _ _ label rfl)
      · exact .inl ne
    · rfl
  have noEnd : givesUp pjhId e = false := by
    unfold givesUp
    split
    · rename_i id errorMsg effect
      obtain ⟨tid, result, label⟩ := took_eq_some effect
      rw [Bool.and_eq_false_iff, beq_eq_false_iff_ne]
      rcases eq_or_ne id pjhId with rfl | ne
      · exact .inr (none _ _ _ label rfl)
      · exact .inl ne
    · rfl
  refine ⟨noRetry, noEnd, ?_, ?_⟩
  · cases label : e.label with
    | op tid o answer =>
      simp only [Ledger.record, label, ite_eq_right_iff, and_imp]
      intro reported unfinished
      rw [none tid o answer label reported] at unfinished
      cases unfinished
    | _ => simp only [Ledger.record, label]
  · cases label : e.label with
    | op tid o answer => simp [Ledger.record, label, noRetry]
    | _ => simp only [Ledger.record, label]

/-- A report on the unfinished row adds its attempt to the failed ones. -/
theorem record_failed {tid : Nat} {o : Op} {answer : o.Resp} (label : e.label = .op tid o answer)
    (reported : o.reported? answer = some pjhId) (unfinished : e.pre.world.db.unfinished pjhId = true) :
    (L.record pjhId e).failed = insert (L.attempt tid) L.failed := by
  simp [Ledger.record, label, reported, unfinished]

variable {tid affected : Nat} {retryCount : Int} {due : Time} {errorMsg : String} {r : PatchJobHost}

/-! What is claimed of a step of each kind, and the condition on it. -/

theorem lost_accountedAt {o : Op} {answer : o.Resp} (step : Step (engine cfg) e.pre e.label e.post)
    (label : e.label = .op tid o answer) (reported : o.reported? answer = some pjhId)
    (lost : took e.label = none) (found : e.pre.world.db.pjh pjhId = some r)
    (unfinished : r.status.isTerminal = false) :
    AccountedAt pjhId L e ↔ r.retryCount = (insert (L.attempt tid) L.failed).card := by
  have grows := record_failed (L := L) label reported (unfinished_iff.mpr ⟨r, found, unfinished⟩)
  have same : e.post.world.db.pjh pjhId = some r := by
    have effect := step_pjh step found
    rwa [hostEffect, lost] at effect
  constructor
  · intro accounted
    rw [← grows]
    exact accounted.counted r same unfinished
  · refine fun count => ⟨fun _ _ _ _ retries => ?_, fun r' found' _ => ?_, fun ends => ?_⟩
    · simp [schedules, lost] at retries
    · rw [same] at found'
      cases found'
      rw [grows]
      exact count
    · simp [givesUp, lost] at ends

theorem lost_countsOnce {o : Op} {answer : o.Resp} (label : e.label = .op tid o answer)
    (reported : o.reported? answer = some pjhId) (lost : took e.label = none)
    (unfinished : e.pre.world.db.unfinished pjhId = true) :
    CountsOnce pjhId L e ↔ L.attempt tid ∈ L.failed := by
  constructor
  · exact fun counts => counts.answered tid o answer label reported unfinished lost
  · refine fun failed => ⟨fun tid' o' answer' label' _ _ _ => ?_, fun u r effect => ?_,
      fun _ _ _ u _ _ effect => ?_⟩
    · rw [label] at label'
      cases label'
      exact failed
    · rw [lost] at effect
      cases effect
    · rw [lost] at effect
      cases effect

theorem retry_row (step : Step (engine cfg) e.pre e.label e.post)
    (label : e.label =
      .op tid (.sql (.updateHosts (.setPending pjhId retryCount due errorMsg))) (.ok affected))
    (found : e.pre.world.db.pjh pjhId = some r) (unfinished : r.status.isTerminal = false) :
    ∃ r', e.post.world.db.pjh pjhId = some r' ∧ r'.retryCount = retryCount ∧
      r'.status = .pending := by
  have after := step_updateHosts step (by rw [label]; rfl) pjhId
  have met : unfinishedRow pjhId r = true := by
    simp [unfinishedRow, (Sql.lookup_some found).2, unfinished]
  rw [found, Option.map_some, Sql.Update.onRow_eq_assign met] at after
  exact ⟨_, after, rfl, rfl⟩

theorem retry_accountedAt (step : Step (engine cfg) e.pre e.label e.post)
    (label : e.label =
      .op tid (.sql (.updateHosts (.setPending pjhId retryCount due errorMsg))) (.ok affected))
    (found : e.pre.world.db.pjh pjhId = some r) (unfinished : r.status.isTerminal = false) :
    AccountedAt pjhId L e ↔ L.attempt tid ∉ L.retried ∧
      retryCount = (insert (L.attempt tid) L.failed).card := by
  have open_ := unfinished_iff.mpr ⟨r, found, unfinished⟩
  have grows := record_failed (L := L) label rfl open_
  obtain ⟨r', after, count, pending⟩ := retry_row step label found unfinished
  have retries : schedules pjhId e = true := by
    simp [schedules, label, took, Op.took, open_]
  constructor
  · refine fun accounted => ⟨accounted.once tid _ _ label retries, ?_⟩
    rw [← grows, ← count]
    exact accounted.counted r' after (by rw [pending]; rfl)
  · rintro ⟨once, counted⟩
    refine ⟨fun tid' _ _ label' _ => ?_, fun r'' found' _ => ?_, fun ends => ?_⟩
    · rw [label] at label'
      cases label'
      exact once
    · rw [after] at found'
      cases found'
      rw [grows, count]
      exact counted
    · simp [givesUp, label, took, Op.took] at ends

theorem giveUp_row (step : Step (engine cfg) e.pre e.label e.post)
    (label : e.label = .op tid (.sql (.updateHosts (.setFailed pjhId errorMsg))) (.ok affected))
    (found : e.pre.world.db.pjh pjhId = some r) (unfinished : r.status.isTerminal = false) :
    ∃ r', e.post.world.db.pjh pjhId = some r' ∧ r'.status = .failed := by
  have after := step_updateHosts step (u := .setFailed pjhId errorMsg) (by rw [label]; rfl) pjhId
  have met : unfinishedRow pjhId r = true := by
    simp [unfinishedRow, (Sql.lookup_some found).2, unfinished]
  rw [found, Option.map_some, Sql.Update.onRow_eq_assign met] at after
  exact ⟨_, after, rfl⟩

theorem giveUp_accountedAt (step : Step (engine cfg) e.pre e.label e.post)
    (label : e.label = .op tid (.sql (.updateHosts (.setFailed pjhId errorMsg))) (.ok affected))
    (found : e.pre.world.db.pjh pjhId = some r) (unfinished : r.status.isTerminal = false) :
    AccountedAt pjhId L e ↔ 4 ≤ (insert (L.attempt tid) L.failed).card := by
  have open_ := unfinished_iff.mpr ⟨r, found, unfinished⟩
  have grows := record_failed (L := L) label rfl open_
  obtain ⟨r', after, status⟩ := giveUp_row step label found unfinished
  constructor
  · intro accounted
    rw [← grows]
    exact accounted.exhausted (by simp [givesUp, label, took, Op.took, open_])
  · intro four
    refine ⟨fun _ _ _ _ retries => ?_, fun r'' found' running => ?_, fun _ => ?_⟩
    · simp [schedules, label, took, Op.took] at retries
    · rw [after] at found'
      cases found'
      rw [status] at running
      cases running
    · rw [grows]
      exact four

/-- The condition on an `UPDATE` that is carried out. -/
theorem write_countsOnce {u : HostUpdate} {task : Task Op Op.Resp Fn}
    (label : e.label = .op tid (.sql (.updateHosts u)) (.ok affected))
    (failure : (Op.sql (.updateHosts u)).failureOf? = some pjhId)
    (found : e.pre.world.db.pjh pjhId = some r) (unfinished : r.status.isTerminal = false)
    (at_ : e.pre.tasks[tid]? = some task) :
    CountsOnce pjhId L e ↔ u.countsFrom r.retryCount = true ∧
      (task.root.isPoll = true → L.attempt tid ∉ L.failed) := by
  have effect : took e.label = some (.updateHosts u) := by rw [label]; rfl
  constructor
  · exact fun counts => ⟨counts.current u r effect failure found unfinished,
      fun poll => counts.fresh tid _ _ u task label effect failure
        (unfinished_iff.mpr ⟨r, found, unfinished⟩) at_ poll⟩
  · rintro ⟨current, fresh⟩
    refine ⟨fun _ _ _ _ _ _ lost => ?_, fun u' r' effect' _ found' _ => ?_,
      fun tid' _ _ u' task' label' _ _ _ at_' poll => ?_⟩
    · rw [effect] at lost
      cases lost
    · rw [effect] at effect'
      rw [found] at found'
      cases effect'
      cases found'
      exact current
    · rw [label] at label'
      cases label'
      rw [at_] at at_'
      cases at_'
      exact fresh poll

end steps

/-! ## Every step -/

theorem HostUpdate.retryCount_onRow {u : HostUpdate} {now : Time} {r : PatchJobHost}
    (unfinished : ((u.update now).onRow r).status.isTerminal = false)
    (quiet : ∀ id retryCount due errorMsg, u = .setPending id retryCount due errorMsg → r.id ≠ id) :
    ((u.update now).onRow r).retryCount = r.retryCount := by
  by_cases met : (u.update now).cond r = true
  · rw [Sql.Update.onRow_eq_assign met] at unfinished ⊢
    cases u with
    | setSucceeded => cases unfinished
    | setPending id =>
      simp only [update, unfinishedRow, Bool.and_eq_true, beq_iff_eq] at met
      exact absurd met.1 (quiet id _ _ _ rfl)
    | _ => rfl
  · rw [Sql.Update.onRow_eq_self (by simpa using met)]

/-- A quiet step leaves the retry count of an unfinished row as it is. -/
theorem quiet_retryCount {r' : PatchJobHost} (step : Step (engine cfg) e.pre e.label e.post)
    (none : ∀ tid o answer, e.label = .op tid o answer → o.reported? answer = some pjhId →
      e.pre.world.db.unfinished pjhId = false)
    (found' : e.post.world.db.pjh pjhId = some r') (unfinished' : r'.status.isTerminal = false) :
    (∃ r, e.pre.world.db.pjh pjhId = some r ∧ r.status.isTerminal = false ∧
        r'.retryCount = r.retryCount) ∨
      e.pre.world.db.pjh pjhId = Option.none ∧ r'.retryCount = 0 := by
  rcases step_pjh_cases step found' with ⟨r, found, rfl⟩ | ⟨absent, fresh⟩
  · have unfinished : r.status.isTerminal = false := by
      cases terminal : r.status.isTerminal with
      | false => rfl
      | true =>
        rw [hostEffect_status_of_terminal terminal, terminal] at unfinished'
        cases unfinished'
    refine .inl ⟨r, found, unfinished, ?_⟩
    unfold hostEffect at unfinished' ⊢
    split at unfinished' <;> rename_i effect
    · rename_i st
      cases st with
      | updateHosts u =>
        refine HostUpdate.retryCount_onRow unfinished' ?_
        rintro id retryCount due errorMsg rfl own
        -- such a statement would be a report on the row
        obtain ⟨tid, result, label⟩ := took_eq_some effect
        obtain rfl : pjhId = id := (Sql.lookup_some found).2.symm.trans own
        have finished := none _ _ _ label rfl
        rw [unfinished_iff.mpr ⟨r, found, unfinished⟩] at finished
        cases finished
      | _ => rfl
    · rfl
  · refine .inr ⟨absent, ?_⟩
    rw [fresh.queued]

/-- The ledger agrees with the row. -/
structure Counted (pjhId : Uuid) (L : Ledger) (db : Db) : Prop where
  absent : db.pjh pjhId = none → L.failed = ∅
  scheduled : L.retried ⊆ L.failed
  unfinished : ∀ r, db.pjh pjhId = some r → r.status.isTerminal = false →
    r.retryCount = L.failed.card ∧ r.retryCount ≤ 3 ∧ L.failed ⊆ L.retried

theorem counted_initial (initial : Initial s) : Counted pjhId {} s.world.db where
  absent _ := rfl
  scheduled := Finset.empty_subset _
  unfinished r found := by
    simp [Db.pjh, Sql.lookup, initial.patchJobHosts] at found

section steps

variable {L : Ledger} {tid affected : Nat} {retryCount : Int} {due : Time} {errorMsg : String}
  {r : PatchJobHost}

theorem Counted.quiet (counted : Counted pjhId L e.pre.world.db)
    (step : Step (engine cfg) e.pre e.label e.post)
    (none : ∀ tid o answer, e.label = .op tid o answer → o.reported? answer = some pjhId →
      e.pre.world.db.unfinished pjhId = false) :
    AccountedAt pjhId L e ∧ Counted pjhId (L.record pjhId e) e.post.world.db := by
  obtain ⟨noRetry, noEnd, failed, retried⟩ := quiet_step (L := L) none
  have counts : ∀ r', e.post.world.db.pjh pjhId = some r' → r'.status.isTerminal = false →
      r'.retryCount = L.failed.card ∧ r'.retryCount ≤ 3 ∧ L.failed ⊆ L.retried := by
    intro r' found' unfinished'
    rcases quiet_retryCount step none found' unfinished' with ⟨r, found, unfinished, same⟩ | ⟨new, zero⟩
    · rw [same]
      exact counted.unfinished r found unfinished
    · rw [zero, counted.absent new]
      simp
  refine ⟨⟨fun _ _ _ _ retries => ?_, fun r' found' unfinished' => ?_, fun ends => ?_⟩,
    ⟨fun absent' => ?_, ?_, fun r' found' unfinished' => ?_⟩⟩
  · rw [noRetry] at retries
    cases retries
  · rw [failed]
    exact (counts r' found' unfinished').1
  · rw [noEnd] at ends
    cases ends
  · rw [failed]
    refine counted.absent ?_
    cases found : e.pre.world.db.pjh pjhId with
    | none => rfl
    | some r =>
      rw [step_pjh step found] at absent'
      cases absent'
  · rw [failed, retried]
    exact counted.scheduled
  · rw [failed, retried]
    exact counts r' found' unfinished'

theorem quiet_countsOnce (none : ∀ tid o answer, e.label = .op tid o answer →
      o.reported? answer = some pjhId → e.pre.world.db.unfinished pjhId = false) :
    CountsOnce pjhId L e := by
  have silent : ∀ u, took e.label = some (.updateHosts u) →
      (Op.sql (.updateHosts u)).failureOf? = some pjhId → e.pre.world.db.unfinished pjhId = false := by
    intro u effect failure
    obtain ⟨tid, result, label⟩ := took_eq_some effect
    refine none _ _ _ label ?_
    cases u <;> exact failure
  refine ⟨fun tid o answer label reported unfinished _ => ?_, fun u r effect failure found unfinished => ?_,
    fun _ _ _ u _ _ effect failure unfinished => ?_⟩
  · rw [none tid o answer label reported] at unfinished
    cases unfinished
  · have finished := silent u effect failure
    rw [unfinished_iff.mpr ⟨r, found, unfinished⟩] at finished
    cases finished
  · rw [silent u effect failure] at unfinished
    cases unfinished

/-- An attempt that is written down as failed has not failed before. -/
theorem fresh_of_write {o : Op} {answer : o.Resp} {task : Task Op Op.Resp Fn}
    (run : Run (engine cfg) s (h₁ ++ e :: h₂) t) (initial : Initial s)
    (label : e.label = .op tid o answer) (failure : o.failureOf? = some pjhId)
    (at_ : e.pre.tasks[tid]? = some task)
    (fresh : task.root.isPoll = true → (ledger pjhId h₁).attempt tid ∉ (ledger pjhId h₁).failed) :
    (ledger pjhId h₁).attempt tid ∉ (ledger pjhId h₁).failed := by
  cases poll : task.root.isPoll with
  | true => exact fresh poll
  | false => exact attempt_fresh run initial label failure at_ poll

theorem task_of_label {o : Op} {answer : o.Resp} (step : Step (engine cfg) e.pre e.label e.post)
    (label : e.label = .op tid o answer) : ∃ task, e.pre.tasks[tid]? = some task := by
  rw [label] at step
  obtain ⟨root, next, w, at_, -⟩ := step.op_inv
  exact ⟨_, at_⟩

/-- Where the ledger agrees with the row, a step is accounted for exactly when it counts once. -/
theorem accountedAt_iff (run : Run (engine cfg) s (h₁ ++ e :: h₂) t) (initial : Initial s)
    (counted : Counted pjhId (ledger pjhId h₁) e.pre.world.db) :
    AccountedAt pjhId (ledger pjhId h₁) e ↔ CountsOnce pjhId (ledger pjhId h₁) e := by
  obtain ⟨-, step, -⟩ := run.split_event
  cases reportKind pjhId e with
  | quiet none => exact iff_of_true (counted.quiet step none).1 (quiet_countsOnce none)
  | lost tid o answer label reported open_ lost =>
    obtain ⟨r, found, unfinished⟩ := unfinished_iff.mp open_
    obtain ⟨count, -, -⟩ := counted.unfinished r found unfinished
    rw [lost_accountedAt step label reported lost found unfinished,
      lost_countsOnce label reported lost open_, count, Nat.cast_inj]
    constructor
    · intro same
      by_contra new
      rw [Finset.card_insert_of_notMem new] at same
      omega
    · exact fun failed => by rw [Finset.insert_eq_of_mem failed]
  | retry tid retryCount due errorMsg affected label open_ =>
    obtain ⟨r, found, unfinished⟩ := unfinished_iff.mp open_
    obtain ⟨count, -, every⟩ := counted.unfinished r found unfinished
    obtain ⟨task, at_⟩ := task_of_label step label
    rw [retry_accountedAt step label found unfinished,
      write_countsOnce label rfl found unfinished at_]
    simp only [HostUpdate.countsFrom, beq_iff_eq]
    constructor
    · rintro ⟨once, grown⟩
      have new := fun failed => once (every failed)
      rw [Finset.card_insert_of_notMem new] at grown
      exact ⟨by push_cast at grown; omega, fun _ => new⟩
    · rintro ⟨current, fresh⟩
      have new := fresh_of_write run initial label rfl at_ fresh
      rw [Finset.card_insert_of_notMem new]
      exact ⟨fun retried => new (counted.scheduled retried), by push_cast; omega⟩
  | giveUp tid errorMsg affected label open_ =>
    obtain ⟨r, found, unfinished⟩ := unfinished_iff.mp open_
    obtain ⟨count, few, -⟩ := counted.unfinished r found unfinished
    obtain ⟨task, at_⟩ := task_of_label step label
    rw [giveUp_accountedAt step label found unfinished,
      write_countsOnce label rfl found unfinished at_]
    simp only [HostUpdate.countsFrom, decide_eq_true_eq]
    constructor
    · intro four
      have new : (ledger pjhId h₁).attempt tid ∉ (ledger pjhId h₁).failed := by
        intro failed
        -- a retry count beyond three is never written
        rw [Finset.insert_eq_of_mem failed] at four
        omega
      rw [Finset.card_insert_of_notMem new] at four
      exact ⟨by omega, fun _ => new⟩
    · rintro ⟨three, fresh⟩
      rw [Finset.card_insert_of_notMem (fresh_of_write run initial label rfl at_ fresh)]
      omega

/-- A report that is lost leaves the ledger as it is if its attempt has failed before. -/
theorem Counted.lost {o : Op} {answer : o.Resp} (counted : Counted pjhId L e.pre.world.db)
    (step : Step (engine cfg) e.pre e.label e.post) (label : e.label = .op tid o answer)
    (reported : o.reported? answer = some pjhId) (lost : took e.label = none)
    (found : e.pre.world.db.pjh pjhId = some r) (unfinished : r.status.isTerminal = false)
    (failed : L.attempt tid ∈ L.failed) : Counted pjhId (L.record pjhId e) e.post.world.db := by
  have kept : (L.record pjhId e).failed = L.failed := by
    rw [record_failed label reported (unfinished_iff.mpr ⟨r, found, unfinished⟩),
      Finset.insert_eq_of_mem failed]
  have retried : (L.record pjhId e).retried = L.retried := by
    have noRetry : schedules pjhId e = false := by simp [schedules, lost]
    simp [Ledger.record, label, noRetry]
  have same : e.post.world.db.pjh pjhId = some r := by
    have effect := step_pjh step found
    rwa [hostEffect, lost] at effect
  refine ⟨fun absent => ?_, ?_, fun r' found' _ => ?_⟩
  · rw [same] at absent
    cases absent
  · rw [kept, retried]
    exact counted.scheduled
  · rw [same] at found'
    cases found'
    rw [kept, retried]
    exact counted.unfinished r found unfinished

/-- A retry that is accounted for adds its attempt to those failed and to those retried. -/
theorem Counted.retry (counted : Counted pjhId L e.pre.world.db)
    (step : Step (engine cfg) e.pre e.label e.post)
    (label : e.label =
      .op tid (.sql (.updateHosts (.setPending pjhId retryCount due errorMsg))) (.ok affected))
    (found : e.pre.world.db.pjh pjhId = some r) (unfinished : r.status.isTerminal = false)
    (accounted : AccountedAt pjhId L e) (few : retryCount ≤ 3) :
    Counted pjhId (L.record pjhId e) e.post.world.db := by
  have open_ := unfinished_iff.mpr ⟨r, found, unfinished⟩
  obtain ⟨-, -, every⟩ := counted.unfinished r found unfinished
  obtain ⟨-, grown⟩ := (retry_accountedAt step label found unfinished).mp accounted
  obtain ⟨r', after, written, -⟩ := retry_row step label found unfinished
  have failed := record_failed (L := L) label rfl open_
  have retried : (L.record pjhId e).retried = insert (L.attempt tid) L.retried := by
    have retries : schedules pjhId e = true := by simp [schedules, label, took, Op.took, open_]
    simp [Ledger.record, label, retries]
  refine ⟨fun absent => ?_, ?_, fun r'' found' _ => ?_⟩
  · rw [after] at absent
    cases absent
  · rw [failed, retried]
    exact Finset.insert_subset_insert _ counted.scheduled
  · rw [after] at found'
    cases found'
    rw [written, failed, retried]
    exact ⟨grown, few, Finset.insert_subset_insert _ every⟩

/-- A row that is given up is finished, and no longer counted. -/
theorem Counted.giveUp (counted : Counted pjhId L e.pre.world.db)
    (step : Step (engine cfg) e.pre e.label e.post)
    (label : e.label = .op tid (.sql (.updateHosts (.setFailed pjhId errorMsg))) (.ok affected))
    (found : e.pre.world.db.pjh pjhId = some r) (unfinished : r.status.isTerminal = false) :
    Counted pjhId (L.record pjhId e) e.post.world.db := by
  have failed := record_failed (L := L) label rfl (unfinished_iff.mpr ⟨r, found, unfinished⟩)
  have retried : (L.record pjhId e).retried = L.retried := by
    have noRetry : schedules pjhId e = false := by simp [schedules, label, took, Op.took]
    simp [Ledger.record, label, noRetry]
  obtain ⟨r', after, status⟩ := giveUp_row step label found unfinished
  refine ⟨fun absent => ?_, ?_, fun r'' found' unfinished' => ?_⟩
  · rw [after] at absent
    cases absent
  · rw [failed, retried]
    exact counted.scheduled.trans (Finset.subset_insert _ _)
  · rw [after] at found'
    cases found'
    rw [status] at unfinished'
    cases unfinished'

/-- The ledger goes on agreeing with the row. -/
theorem Counted.step (run : Run (engine cfg) s (h₁ ++ e :: h₂) t) (initial : Initial s)
    (counted : Counted pjhId (ledger pjhId h₁) e.pre.world.db)
    (counts : CountsOnce pjhId (ledger pjhId h₁) e) :
    Counted pjhId (ledger pjhId (h₁ ++ [e])) e.post.world.db := by
  obtain ⟨-, step, -⟩ := run.split_event
  rw [ledger_snoc]
  cases reportKind pjhId e with
  | quiet none => exact (counted.quiet step none).2
  | lost tid o answer label reported open_ lost =>
    obtain ⟨r, found, unfinished⟩ := unfinished_iff.mp open_
    exact counted.lost step label reported lost found unfinished
      ((lost_countsOnce label reported lost open_).mp counts)
  | retry tid retryCount due errorMsg affected label open_ =>
    obtain ⟨r, found, unfinished⟩ := unfinished_iff.mp open_
    have permitted := run_reports run initial rfl
    rw [label] at permitted
    exact counted.retry step label found unfinished ((accountedAt_iff run initial counted).mpr counts)
      (permitted.retries retryCount rfl)
  | giveUp tid errorMsg affected label open_ =>
    obtain ⟨r, found, unfinished⟩ := unfinished_iff.mp open_
    exact counted.giveUp step label found unfinished

end steps

/-- In a run whose reports count once, the ledger agrees with the row. -/
theorem counted_of_countsOnce (run : Run (engine cfg) s h t) (initial : Initial s)
    (counts : ∀ h₁ e h₂, h = h₁ ++ e :: h₂ → CountsOnce pjhId (ledger pjhId h₁) e) :
    Counted pjhId (ledger pjhId h) t.world.db := by
  induction run with
  | nil => exact counted_initial initial
  | @snoc h u v l before step ih =>
    have part := ih fun h₁ e h₂ eq => counts h₁ e (h₂ ++ [⟨u, l, v⟩]) (by simp [eq])
    exact part.step (before.snoc step) initial (counts h ⟨u, l, v⟩ [] rfl)

/-- Retries are accounted for exactly when every report on the unfinished row counts once. -/
theorem retries_accounted_iff (run : Run (engine cfg) s h t) (initial : Initial s) :
    RetriesAccounted pjhId h ↔
      ∀ h₁ e h₂, h = h₁ ++ e :: h₂ → CountsOnce pjhId (ledger pjhId h₁) e := by
  constructor
  · intro accounted
    -- by induction on the run: up to each event the reports have counted once
    induction run with
    | nil =>
      intro h₁ e h₂ eq
      simp at eq
    | @snoc h u v l before step ih =>
      have earlier := ih fun h₁ e h₂ eq => accounted h₁ e (h₂ ++ [⟨u, l, v⟩]) (by simp [eq])
      intro h₁ e h₂ eq
      rcases split_snoc eq with ⟨rfl, rfl, -⟩ | ⟨h₃, rfl, -⟩
      · exact (accountedAt_iff (before.snoc step) initial
          (counted_of_countsOnce before initial earlier)).mp (accounted h₁ _ [] rfl)
      · exact earlier h₁ e h₃ rfl
  · rintro counts h₁ e h₂ rfl
    obtain ⟨before, -, -⟩ := run.split_event
    have part := counted_of_countsOnce before initial fun h₃ e' h₄ eq =>
      counts h₃ e' (h₄ ++ e :: h₂) (by simp [eq])
    exact (accountedAt_iff run initial part).mpr (counts h₁ e h₂ rfl)

/-! ## Runs on the small installation -/

/-- What `CountsOnce` asks of an event, of executions as well as polls. -/
def countsOnceAt (pjhId : Uuid) (L : Ledger) (e : Event World Op Op.Resp Fn) : Bool :=
  match e.label with
  | .op tid o answer =>
    o.reported? answer != some pjhId || !e.pre.world.db.unfinished pjhId ||
      match took e.label with
      | some (.updateHosts u) =>
        ((e.pre.world.db.pjh pjhId).all fun r => u.countsFrom r.retryCount) &&
          decide (L.attempt tid ∉ L.failed)
      | _ => decide (L.attempt tid ∈ L.failed)
  | _ => true

theorem countsOnce_of_check {L : Ledger} (step : Step (engine cfg) e.pre e.label e.post)
    (check : countsOnceAt pjhId L e = true) : CountsOnce pjhId L e := by
  cases reportKind pjhId e with
  | quiet none => exact quiet_countsOnce none
  | lost tid o answer label reported open_ lost =>
    rw [lost_countsOnce label reported lost open_]
    rw [countsOnceAt, lost] at check
    simpa [label, reported, open_] using check
  | retry tid retryCount due errorMsg affected label open_ =>
    obtain ⟨r, found, unfinished⟩ := unfinished_iff.mp open_
    obtain ⟨task, at_⟩ := task_of_label step label
    rw [write_countsOnce label rfl found unfinished at_]
    simp [countsOnceAt, label, took, Op.took, Op.reported?, open_, found] at check
    exact ⟨check.1, fun _ => check.2⟩
  | giveUp tid errorMsg affected label open_ =>
    obtain ⟨r, found, unfinished⟩ := unfinished_iff.mp open_
    obtain ⟨task, at_⟩ := task_of_label step label
    rw [write_countsOnce label rfl found unfinished at_]
    simp [countsOnceAt, label, took, Op.took, Op.reported?, open_, found] at check
    exact ⟨check.1, fun _ => check.2⟩

/-- The first attempt fails, and the second one too. -/
def failsTwice : List (Move Small.player) :=
  firstAttempt ++ firstFails 3 ++ secondAttempt 5 ++ Small.polls 7 ++ Small.steps 7 1 ++
    Small.answers 8 "b" "failed" ++ Small.steps 8 3

theorem retries_accounted_iff_failsTwice :
    RetriesAccounted 2 (Small.player.history Small.start failsTwice) := by
  have plays : (Small.player.play Small.start failsTwice).isSome = true := by decide +kernel
  have run := Small.player.run_of_play plays
  have checks : checksAll (fun before e => countsOnceAt 2 (ledger 2 before) e)
      (Small.player.history Small.start failsTwice) = true := by decide +kernel
  refine (retries_accounted_iff run Small.start_initial).mpr fun h₁ e h₂ split => ?_
  exact countsOnce_of_check (split ▸ run).split_event.2.1 (test_of_checksAll checks split)

/-- Two scans have started a poll of the first attempt, tasks 4 and 6; both learn that it has
    failed. -/
def failureReportedTwice : List (Move Small.player) :=
  firstAttempt ++ Small.polls 3 ++ Small.steps 3 1 ++ Small.polls 5 ++ Small.steps 5 1 ++
    Small.answers 4 "a" "failed" ++ Small.steps 4 3 ++ Small.answers 6 "a" "failed" ++ Small.steps 6 3

/-- While the row is unfinished its retry count is the number of failed attempts. -/
def countedAt (pjhId : Uuid) (before : List (Event World Op Op.Resp Fn))
    (e : Event World Op Op.Resp Fn) : Bool :=
  (e.post.world.db.pjh pjhId).all fun r => r.status.isTerminal ||
    r.retryCount == (((ledger pjhId before).record pjhId e).failed.card : Int)

/-- One attempt has failed, and the row waits for its second retry. -/
theorem failure_counted_twice :
    ¬ ∀ (cfg : WorkerConfig) (s t : State) (h : List (Event World Op Op.Resp Fn)) (pjhId : Uuid),
      Initial s → Run (engine cfg) s h t → RetriesAccounted pjhId h := by
  intro all
  have plays : (Small.player.play Small.start failureReportedTwice).isSome = true := by decide +kernel
  have accounted := all _ _ _ _ 2 Small.start_initial (Small.player.run_of_play plays)
  have counted : checksAll (countedAt 2) (Small.player.history Small.start failureReportedTwice) = true := by
    refine checksAll_of_forall fun h₁ e h₂ split => ?_
    rw [countedAt, Option.all_eq_true]
    intro r found
    rw [Bool.or_eq_true, beq_iff_eq]
    cases finished : r.status.isTerminal with
    | true => exact .inl rfl
    | false => exact .inr ((accounted h₁ e h₂ split).counted r found finished)
  have wrong : checksAll (countedAt 2)
      (Small.player.history Small.start failureReportedTwice) = false := by decide +kernel
  rw [counted] at wrong
  cases wrong

end PatchManager
