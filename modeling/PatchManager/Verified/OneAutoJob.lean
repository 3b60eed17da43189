import PatchManager.Engine.Keys
import PatchManager.Engine.Schedule
import PatchManager.Verified.Skeleton
import PatchManager.Verified.WindowOpen

/-! # One automatic job for each occurrence of a window

A pass of the scheduler finds the windows that are open, and later asks for each host whether
it has had a job in this cycle.  For a recurring window the start of the cycle is computed from
the day of that second statement, so a pass that has gone over midnight asks about a cycle that
has not begun, and finds no job.  The unique index stops it only while the earlier job is
active.

Main results:

* `oneAutoJob`: in the runs in which no pass does so for a host that has its job, each occurrence
  gets at most one job.
* `oneAutoJob_fails`: a pass that begins in the last second of a window.
-/

namespace PatchManager

open PatchManager.Conc

variable {cfg : WorkerConfig} {s t : State} {h h₁ h₂ : List (Event World Op Op.Resp Fn)}
  {e : Event World Op Op.Resp Fn} {w : MaintenanceWindow} {tid : Nat} {hostId : Uuid} {start : Time}
  {σ : Traced Op Op.Resp Fn} {windows : List AutoApplyWindow} {win : AutoApplyWindow}

/-! ## Occurrences and their jobs -/

/-- The start of the occurrence of the window that is open at `now`. -/
def MaintenanceWindow.occurrence (w : MaintenanceWindow) (now : Time) : Time :=
  match w.recurrence with
  | .once => w.startAt
  | _ => dayNumber now * microsPerDay + timeOfDay w.startAt

/-- When the pass found the open windows, which is the first thing it does. -/
def openedAt? (tid : Nat) (h : List (Event World Op Op.Resp Fn)) : Option Time :=
  (h.find? fun e => (e.label.exchange? tid).isSome).map fun e => e.pre.world.db.now

/-- The host for which a pass of the scheduler creates a job of the window, and the start of the
    occurrence the pass found open. -/
def autoCreation? (w : MaintenanceWindow) (before : List (Event World Op Op.Resp Fn))
    (e : Event World Op Op.Resp Fn) : Option (Uuid × Time) :=
  match e.label with
  | .op tid (.sql (.insertAutoJob new hostId)) (.ok (some _)) =>
    if new.maintenanceWindowId = some w.id ∧
        ((e.pre.tasks[tid]?).any fun task => Fn.sameTick .schedulerTick task.root) = true then
      (openedAt? tid before).map fun now => (hostId, w.occurrence now)
    else none
  | _ => none

/-- The host has had an automatic job for the occurrence. -/
def HadAutoJob (w : MaintenanceWindow) (occurrence : Uuid × Time)
    (h : List (Event World Op Op.Resp Fn)) : Prop :=
  Occurs (fun before e => autoCreation? w before e = some occurrence) h

/-- No occurrence of the window gets a second automatic job for a host. -/
def OneAutoJob (w : MaintenanceWindow) (h : List (Event World Op Op.Resp Fn)) : Prop :=
  ∀ h₁ e h₂ occurrence, h = h₁ ++ e :: h₂ → HadAutoJob w occurrence h₁ →
    autoCreation? w h₁ e ≠ some occurrence

/-- The row of the window stays the same from when it is there. -/
structure Unedited (w : MaintenanceWindow) (h : List (Event World Op Op.Resp Fn)) : Prop where
  same : ∀ e ∈ h, ∀ m ∈ e.pre.world.db.maintenanceWindows, m.id = w.id → m = w
  stays : ∀ h₁ e h₂ e' h₃, h = h₁ ++ e :: (h₂ ++ e' :: h₃) →
    w ∈ e.pre.world.db.maintenanceWindows → w ∈ e'.pre.world.db.maintenanceWindows

/-- A pass that asks for the job of this cycle when there is one for the occurrence it found open
    asks on the same day. -/
def AskedSameDay (w : MaintenanceWindow) (h : List (Event World Op Op.Resp Fn)) : Prop :=
  ∀ h₁ e h₂ tid hostId answer now, h = h₁ ++ e :: h₂ →
    e.label = .op tid (.sql (.select (.jobThisCycle hostId w.id))) answer →
    openedAt? tid h₁ = some now → HadAutoJob w (hostId, w.occurrence now) h₁ →
      w.recurrence = .once ∨ dayNumber e.pre.world.db.now = dayNumber now

namespace MaintenanceWindow

/-- An open window is in the occurrence that began then. -/
theorem occurrence_of_open {now : Time} (isOpen : w.windowOpen now = true) :
    w.Occurs (w.occurrence now) ∧ w.occurrence now ≤ now := by
  have slot : w.slotOpen now = true := by
    simp only [windowOpen, Bool.and_eq_true] at isOpen
    exact isOpen.2
  by_cases once : w.recurrence = .once
  · simp only [slotOpen, once, Bool.and_eq_true, decide_eq_true_eq] at slot
    simp only [Occurs, occurrence, once, true_and]
    exact slot.1
  · obtain ⟨onDay, begun, -⟩ := (slotOpen_iff once now).mp slot
    have bounds := timeOfDay_bounds w.startAt
    have eq : w.occurrence now = dayNumber now * microsPerDay + timeOfDay w.startAt := by
      unfold occurrence
      cases recurrence : w.recurrence <;> first | rfl | exact absurd recurrence once
    obtain ⟨time, day⟩ := Calendar.emod_add_mul_period microsPerDay_pos (dayNumber now) _ bounds.1 bounds.2
    rw [← eq] at time day
    constructor
    · unfold Occurs
      cases recurrence : w.recurrence with
      | once => exact absurd recurrence once
      | _ => exact ⟨time, show w.OnDay (w.occurrence now / microsPerDay) from day.symm ▸ onDay⟩
    · calc w.occurrence now = dayNumber now * microsPerDay + timeOfDay w.startAt := eq
        _ ≤ dayNumber now * microsPerDay + now % microsPerDay := Int.add_le_add_left begun _
        _ = now := (Calendar.period_decomposition microsPerDay_pos now).1.symm

/-- The cycle of a one-time window is its occurrence, and that of another the occurrence of the day. -/
theorem cycleStart_eq {db : Db} {now : Time}
    (sameDay : w.recurrence = .once ∨ dayNumber db.now = dayNumber now) :
    db.cycleStart w = w.occurrence now := by
  unfold Db.cycleStart occurrence
  cases recurrence : w.recurrence with
  | once => rfl
  | _ =>
    obtain day : dayNumber db.now = dayNumber now := by
      rcases sameDay with once | day
      · rw [recurrence] at once
        cases once
      · exact day
    simp only [day]

end MaintenanceWindow

open MaintenanceWindow

/-! ## What a pass has read when it creates a job -/

/-- The pass has begun with the open windows. -/
def Began (windows : List AutoApplyWindow) (done : Exchanges) : Prop :=
  ∃ l, done = ⟨.sql (.select .autoWindows), .ok windows⟩ :: l

/-- The pass found the window open, and has just read that its host has had no job in this cycle. -/
def FoundDue (done : Exchanges) (new : NewJob) (hostId : Uuid) : Prop :=
  ∃ windows l win, done = l ++ [⟨.sql (.select (.jobThisCycle win.hostId win.windowId)), .ok false⟩] ∧
    Began windows l ∧ win ∈ windows ∧ new = autoJob win ∧ hostId = win.hostId

/-- A pass creates jobs that it found due. -/
def passContract : Contract Op Op.Resp Fn :=
  tracing (fun _ _ => True)
    (fun σ o => ∀ new hostId, o = .sql (.insertAutoJob new hostId) → σ.root = some .schedulerTick →
      FoundDue σ.done new hostId)
    (fun _ _ => True) fun σ _ => σ.root ≠ some .schedulerTick

/-- Outside the passes everything is permitted. -/
theorem follows_aside : Follows
    (fun {_} p => ∀ σ : Traced Op Op.Resp Fn, σ.root ≠ some .schedulerTick →
      p.Along passContract (fun τ _ => τ.root ≠ some .schedulerTick) σ)
    (fun _ => true) (fun _ => True) fun _ => True where
  toClosed := closed_along_while (C := passContract)
    (Q := fun σ : Traced Op Op.Resp Fn => σ.root ≠ some .schedulerTick)
    (fun _ _ aside _ _ _ _ root => absurd root aside) (fun _ _ _ aside _ => aside)
    (fun _ _ _ _ => trivial) fun _ _ aside _ => aside
  other := rfl
  read := rfl

theorem passContract_permits {o : Op} (other : o.kind ≠ .insertAuto) : passContract.guar σ o := by
  rintro new hostId rfl
  exact absurd rfl other

theorem follows_createsNone : Follows
    (fun {_} p => ∀ σ, p.Along passContract (fun _ _ => True) σ) (fun k => decide (k ≠ .insertAuto))
    (fun _ => True) fun _ => False where
  toClosed := closed_along (fun _ _ kind => passContract_permits (by simpa using kind))
    (fun _ _ _ => trivial) fun _ _ => False.elim
  other := rfl
  read := rfl

theorem Began.next (began : Began windows σ.done) (o : Op) (answer : o.Resp) :
    Began windows (σ.next o answer).done := by
  obtain ⟨l, eq⟩ := began
  exact ⟨l ++ [⟨o, answer⟩], by simp [Traced.next, eq]⟩

/-- One window of a pass. -/
theorem autoCreateFor_due (began : Began windows σ.done) (mem : win ∈ windows) :
    (autoCreateFor win).Along passContract (fun τ _ => Began windows τ.done) σ := by
  refine ⟨passContract_permits nofun, fun pending _ => ?_⟩
  match pending with
  | .error reason => exact began.next _ _
  | .ok none => exact began.next _ _
  | .ok (some count) =>
    have read := began.next (.sql (.select (.pendingPatches win.hostId))) (.ok (some count))
    refine ⟨passContract_permits nofun, fun existing _ => ?_⟩
    match existing with
    | .error reason => exact read.next _ _
    | .ok true => exact read.next _ _
    | .ok false =>
      refine ⟨?_, fun _ _ => (read.next _ _).next _ _⟩
      rintro new hostId ⟨⟩ -
      exact ⟨windows, _, win, rfl, read, mem, rfl, rfl⟩

/-- What is left of the windows of a pass. -/
theorem autoCreateEach_due {rest : List AutoApplyWindow} (began : Began windows σ.done)
    (among : ∀ win ∈ rest, win ∈ windows) :
    (autoCreateEach rest).Along passContract (fun _ _ => True) σ := by
  induction rest generalizing σ with
  | nil => trivial
  | cons win rest ih =>
    exact (autoCreateFor_due began (among win (by simp))).bind fun τ _ began =>
      ih began fun win mem => among win (by simp [mem])

theorem Began.of_fresh (fresh : σ.done = []) :
    Began windows (σ.next (.sql (.select .autoWindows)) (.ok windows)).done :=
  ⟨[], by simp [Traced.next, fresh]⟩

theorem schedulerTick_due (fresh : σ.done = []) :
    schedulerTick.Along passContract (fun _ _ => True) σ := by
  have creates : autoCreatePatchJobs.Along passContract (fun _ _ => True) σ := by
    refine ⟨passContract_permits nofun, fun opened _ => ?_⟩
    match opened with
    | .error reason => trivial
    | .ok windows => exact autoCreateEach_due (.of_fresh fresh) fun _ => id
  refine creates.bind fun τ _ _ => ⟨passContract_permits nofun, fun opened _ => ?_⟩
  match opened with
  | .error reason => trivial
  | .ok hosts => exact dispatchForHosts_follows follows_createsNone (fun _ => trivial) hosts _

theorem engine_keeps_pass : (engine cfg).Keeps passContract where
  starts _ f _ := by
    have aside : f ≠ .schedulerTick → (body cfg f).Along passContract (fun _ _ => True) (.init f) :=
      fun other => (engine_follows follows_aside (fun _ => rfl) (fun _ _ _ => trivial)
        (fun _ _ _ => trivial) cfg f (.init f) (by simpa [Traced.init] using other)).weaken
          fun _ _ _ => trivial
    cases f with
    | schedulerTick => exact schedulerTick_due rfl
    | _ => exact aside nofun
  tails σ f aside := (engine_follows follows_aside (fun _ => rfl) (fun _ _ _ => trivial)
    (fun _ _ _ => trivial) cfg f σ aside).weaken fun _ _ _ => trivial
  idle := trivial

/-- A job that a pass creates was found due. -/
theorem foundDue {new : NewJob} {answer : Except String (Option Uuid)} {task : Task Op Op.Resp Fn}
    (run : Run (engine cfg) s (h₁ ++ e :: h₂) t) (initial : Initial s)
    (label : e.label = .op tid (.sql (.insertAutoJob new hostId)) answer)
    (at_ : e.pre.tasks[tid]? = some task) (root : task.root = .schedulerTick) :
    FoundDue (exchanges tid h₁) new hostId := by
  obtain ⟨before, step, -⟩ := run.split_event
  have relies : ∀ e' ∈ h₁ ++ e :: h₂, passContract.Relies e'.label := fun e' _ => by
    cases e'.label <;> trivial
  have permitted :=
    (run.guarantees engine_keeps_pass relies (Sys.along_of_empty initial.tasks)).2 h₁ e h₂ rfl
  rw [label] at permitted step
  obtain ⟨root', next, w, there, -⟩ := step.op_inv
  obtain rfl : task = ⟨root', .op _ next⟩ := Option.some.inj (at_.symm.trans there)
  have ghost : (engine cfg).ghost passContract h₁ tid = ⟨some root', exchanges tid h₁⟩ :=
    before.traced initial.tasks at_ (by simp)
  have due := permitted new hostId rfl
  rw [ghost] at due
  exact due (congrArg some root)

/-! ## Where it has read it -/

theorem openedAt_append {now : Time} (opened : openedAt? tid h₁ = some now) :
    openedAt? tid (h₁ ++ h₂) = some now := by
  obtain ⟨e, found, eq⟩ := Option.map_eq_some_iff.mp opened
  rw [openedAt?, List.find?_append, found]
  exact congrArg some eq

/-- A query that a task was answered is evaluated on the database of its step. -/
theorem step_select {q : Query} {result : q.Result}
    (step : Step (engine cfg) s (.op tid (.sql (.select q)) (.ok result)) t) :
    q.eval s.world.db = some result := by
  obtain ⟨root, next, w, -, done, -⟩ := step.op_inv
  have evaluated : exec s.world (.sql (.select q)) (.ok result) w := done
  exact (exec_select evaluated).1

/-- A pass found the windows where its first exchange was made. -/
theorem openedAt_of_first {o : Op} {answer : o.Resp} {l : Exchanges}
    (first : exchanges tid h = ⟨o, answer⟩ :: l) :
    ∃ h₁ e h₂, h = h₁ ++ e :: h₂ ∧ e.label = .op tid o answer ∧
      openedAt? tid h = some e.pre.world.db.now := by
  have front : exchanges tid h = [] ++ ⟨o, answer⟩ :: l := first
  obtain ⟨h₁, e, h₂, rfl, silent, label⟩ := exchanges_split front
  refine ⟨h₁, e, h₂, rfl, label, ?_⟩
  have none : h₁.find? (fun e => (e.label.exchange? tid).isSome) = none := by
    refine List.find?_eq_none.mpr fun e mem some_ => ?_
    rw [List.filterMap_eq_nil_iff.mp silent e mem] at some_
    cases some_
  rw [openedAt?, List.find?_append, none, Option.none_or, List.find?_cons_of_pos]
  · rfl
  · simp [label, Label.exchange?]

/-- The last exchange of a task, with nothing of it after. -/
theorem exchanges_last {o : Op} {answer : o.Resp} {l : Exchanges}
    (last : exchanges tid h = l ++ [⟨o, answer⟩]) :
    ∃ h₁ e h₂, h = h₁ ++ e :: h₂ ∧ exchanges tid h₁ = l ∧ e.label = .op tid o answer ∧
      exchanges tid h₂ = [] := by
  obtain ⟨h₁, e, h₂, rfl, rfl, label⟩ := exchanges_split last
  refine ⟨h₁, e, h₂, rfl, rfl, label, ?_⟩
  simpa [exchanges, label, Label.exchange?] using last

/-- What there was before the creation of a job: the pass that creates it found the window open
    and, as its last exchange, no job of this cycle. -/
structure PassFound (w : MaintenanceWindow) (h : List (Event World Op Op.Resp Fn)) (tid : Nat)
    (hostId : Uuid) (now : Time) (before : List (Event World Op Op.Resp Fn))
    (check : Event World Op Op.Resp Fn) (since : List (Event World Op Op.Resp Fn)) : Prop where
  split : h = before ++ check :: since
  label : check.label = .op tid (.sql (.select (.jobThisCycle hostId w.id))) (.ok false)
  opened : openedAt? tid before = some now
  last : exchanges tid since = []
  isOpen : ∃ h₁ e h₂, before = h₁ ++ e :: h₂ ∧ e.pre.world.db.now = now ∧
    ∃ m ∈ e.pre.world.db.maintenanceWindows, m.id = w.id ∧ m.windowOpen now = true

/-- A pass has created the job. -/
theorem autoCreation_inv (created : autoCreation? w h e = some (hostId, start)) :
    ∃ tid new jobId task now, e.label = .op tid (.sql (.insertAutoJob new hostId)) (.ok (some jobId)) ∧
      new.maintenanceWindowId = some w.id ∧ e.pre.tasks[tid]? = some task ∧
      task.root = .schedulerTick ∧ openedAt? tid h = some now ∧ start = w.occurrence now := by
  unfold autoCreation? at created
  split at created
  · rename_i tid new other jobId label
    split at created
    · rename_i own
      obtain ⟨now, opened, eq⟩ := Option.map_eq_some_iff.mp created
      obtain ⟨task, at_, tick⟩ := Option.any_eq_true _ _ |>.mp own.2
      obtain ⟨rfl, rfl⟩ := Prod.mk.inj eq
      have root : task.root = .schedulerTick := by
        generalize task.root = f at tick
        cases f <;> first | rfl | cases tick
      exact ⟨tid, new, jobId, task, now, label, own.1, at_, root, opened, rfl⟩
    · cases created
  · cases created

/-- What a pass has found before it creates a job. -/
theorem passFound {new : NewJob} {answer : Except String (Option Uuid)} {task : Task Op Op.Resp Fn}
    {now : Time} (run : Run (engine cfg) s (h₁ ++ e :: h₂) t) (initial : Initial s)
    (label : e.label = .op tid (.sql (.insertAutoJob new hostId)) answer)
    (window : new.maintenanceWindowId = some w.id) (at_ : e.pre.tasks[tid]? = some task)
    (root : task.root = .schedulerTick) (opened : openedAt? tid h₁ = some now) :
    ∃ before check since, PassFound w h₁ tid hostId now before check since ∧ new.kind = .patchApply := by
  obtain ⟨windows, l, win, last, ⟨more, began⟩, mem, rfl, rfl⟩ :=
    foundDue run initial label at_ root
  obtain ⟨before, check, since, rfl, rfl, asks, rest⟩ := exchanges_last last
  obtain ⟨a, q, b, rfl, finds, first⟩ := openedAt_of_first began
  obtain rfl : q.pre.world.db.now = now := Option.some.inj ((openedAt_append first).symm.trans opened)
  have same : win.windowId = w.id := Option.some.inj window
  rw [same] at asks
  refine ⟨_, check, since, ⟨rfl, asks, first, rest, a, q, b, rfl, rfl, ?_⟩, rfl⟩
  -- the pass has read the window among the open ones
  have part : Run (engine cfg) s (a ++ q :: (b ++ check :: since ++ e :: h₂)) t := by simpa using run
  obtain ⟨-, step, -⟩ := part.split_event
  rw [finds] at step
  obtain rfl := Option.some.inj (step_select step)
  obtain ⟨m, chosen, rfl⟩ := List.mem_map.mp mem
  simp only [List.mem_filter, Bool.and_eq_true] at chosen
  exact ⟨m, chosen.1, same, chosen.2.2⟩

/-! ## The job of a window stays -/

/-- The host has a job of the window that was created since `start`, whatever has become of it. -/
def HasJob (db : Db) (windowId hostId : Uuid) (start : Time) : Prop :=
  ∃ r ∈ db.patchJobHosts, r.hostId = hostId ∧ ∃ j, db.job r.jobId = some j ∧ j.kind = .patchApply ∧
    j.maintenanceWindowId = some windowId ∧ start ≤ j.createdAt

theorem JobUpdate.keeps_origin (now : Time) (u : JobUpdate) :
    (u.update now).Keeps fun j => (j.kind, j.maintenanceWindowId, j.createdAt) := by
  intro j _
  cases u with
  | syncParent _ _ setCompleted _ => cases setCompleted <;> rfl
  | _ => rfl

/-- No step changes where a job comes from. -/
theorem jobEffect_origin {l : Label Op Op.Resp Fn} (now : Time) (j : PatchJob) :
    (jobEffect now l j).kind = j.kind ∧ (jobEffect now l j).maintenanceWindowId = j.maintenanceWindowId ∧
      (jobEffect now l j).createdAt = j.createdAt := by
  have origin : ∀ st : Stmt, ((st.jobEffect now j).kind, (st.jobEffect now j).maintenanceWindowId,
      (st.jobEffect now j).createdAt) = (j.kind, j.maintenanceWindowId, j.createdAt) := by
    intro st
    cases st with
    | updateJobs u => exact (u.keeps_origin now).onRow j
    | _ => rfl
  unfold jobEffect
  split
  · rename_i st _
    simpa using origin st
  · exact ⟨rfl, rfl, rfl⟩

theorem HasJob.step {l : Label Op Op.Resp Fn} {windowId : Uuid} (step : Step (engine cfg) s l t)
    (had : HasJob s.world.db windowId hostId start) : HasJob t.world.db windowId hostId start := by
  obtain ⟨r, mem, host, j, found, kind, window, since⟩ := had
  obtain ⟨fresh, rows, -⟩ := step_patchJobHosts step
  obtain ⟨job', host'⟩ := hostEffect_key (l := l) s.world.db.now r
  obtain ⟨kind', window', created'⟩ := jobEffect_origin (l := l) s.world.db.now j
  refine ⟨hostEffect s.world.db.now l r, ?_, host'.trans host, jobEffect s.world.db.now l j, ?_,
    kind'.trans kind, window'.trans window, ?_⟩
  · rw [rows]
    exact List.mem_append_left _ (List.mem_map_of_mem mem)
  · rw [job']
    exact step_job step found
  · rw [created']
    exact since

/-- The statement that creates a job leaves one of its window and host, created at its time. -/
theorem HasJob.inserted {new : NewJob} {result : Option Uuid} {windowId : Uuid} {db db' : Db} (keys : Keys db)
    (ran : (Stmt.insertAutoJob new hostId).run db = some (result, db')) (kind : new.kind = .patchApply)
    (window : new.maintenanceWindowId = some windowId) (since : start ≤ db.now) :
    HasJob db' windowId hostId start := by
  simp only [Stmt.run, Option.ite_none_right_eq_some] at ran
  cases ran.2
  -- no job has the identifier handed out next
  have unused : db.job db.nextId = none := by
    cases found : db.job db.nextId with
    | none => rfl
    | some j =>
      obtain ⟨mem, id⟩ := Sql.lookup_some found
      have below := keys.jobs.below j mem
      rw [id] at below
      exact absurd below (Nat.lt_irrefl _)
  refine ⟨{ id := db.nextId + 1, jobId := db.nextId, hostId }, by simp [Db.insertJobHost, Db.insertJob],
    rfl, new.row db.nextId db.now, ?_, kind, window, since⟩
  unfold Db.job Sql.lookup at unused
  simp [Db.job, Sql.lookup, Db.insertJobHost, Db.insertJob, List.find?_append, unused, NewJob.row]

/-! ## Passes -/

/-- The passes of the scheduler. -/
def Fn.isPass : Fn → Bool := Fn.sameTick .schedulerTick

theorem passes_turn : (engine cfg).Turns Fn.isPass := ticks_turn _

/-- When a pass asks before it creates a job, an earlier job has been created already. -/
theorem asked_after {occurrence : Uuid × Time} {now : Time}
    {before since : List (Event World Op Op.Resp Fn)} {check : Event World Op Op.Resp Fn}
    {new : NewJob} {answer : Except String (Option Uuid)} {task : Task Op Op.Resp Fn}
    (run : Run (engine cfg) s (h₁ ++ e :: h₂) t) (initial : Initial s)
    (label : e.label = .op tid (.sql (.insertAutoJob new hostId)) answer)
    (at_ : e.pre.tasks[tid]? = some task) (root : task.root = .schedulerTick)
    (found : PassFound w h₁ tid hostId now before check since) (had : HadAutoJob w occurrence h₁) :
    ∃ l₁ x l₂, before = l₁ ++ x :: l₂ ∧ autoCreation? w l₁ x = some occurrence := by
  obtain ⟨l₁, x, l₂, split, created⟩ := had
  have pair : autoCreation? w l₁ x = some (occurrence.1, occurrence.2) := created
  obtain ⟨tid', new', jobId, task', now', label', window', at_', root', -⟩ := autoCreation_inv pair
  rcases split_cases (split.symm.trans found.split) with ⟨-, rfl, -⟩ | ⟨m, -, rfl⟩ | ⟨m, rfl, rfl⟩
  · rw [found.label] at label'
    cases label'
  · exact ⟨l₁, x, m, rfl, created⟩
  · -- the earlier job was created between the question and the creation of the later
    exfalso
    rcases eq_or_ne tid' tid with rfl | other
    · have silent := List.filterMap_eq_nil_iff.mp found.last x (by simp)
      simp [label', Label.exchange?] at silent
    · rw [split] at run
      have whole : Run (engine cfg) s (before ++ check :: m ++ x :: (l₂ ++ e :: h₂)) t := by
        simpa using run
      exact other (whole.op_between initial.tasks passes_turn label' at_' (by rw [root']; rfl)
        (x := check) (y := e) (by simp) found.label (by simp) label at_ (by rw [root]; rfl))

/-! ## One job -/

/-- In the run after the creation of a job there is one of its window and host, created since the
    occurrence began. -/
theorem hasJob_of_created {u : State} (run : Run (engine cfg) s (h₁ ++ e :: h₂) u)
    (initial : Initial s) (unedited : Unedited w (h₁ ++ [e]))
    (created : autoCreation? w h₁ e = some (hostId, start)) :
    HasJob u.world.db w.id hostId start := by
  obtain ⟨tid, new, jobId, task, now, label, window, at_, root, opened, rfl⟩ := autoCreation_inv created
  obtain ⟨before, check, since, found, kind⟩ := passFound run initial label window at_ root opened
  obtain ⟨l₁, q, l₂, rfl, rfl, m, mem, same, isOpen⟩ := found.isOpen
  obtain rfl := found.split
  obtain rfl : m = w := unedited.same q (by simp) m mem same
  obtain ⟨first, step, rest⟩ := run.split_event
  -- time has passed since the pass found the window open
  have passed : q.pre.world.db.now ≤ e.pre.world.db.now := by
    have part : Run (engine cfg) s (l₁ ++ q :: (l₂ ++ check :: since)) e.pre := by simpa using first
    obtain ⟨-, step, rest⟩ := part.split_event
    exact (Run.cons step rest).preserves (I := fun s => q.pre.world.db.now ≤ s.world.db.now)
      (fun _ _ step earlier => Int.le_trans earlier (step_clock step)) (Int.le_refl _)
  have begun := (occurrence_of_open isOpen).2
  have inserted : HasJob e.post.world.db m.id hostId (m.occurrence q.pre.world.db.now) := by
    rcases step_db step with ⟨st, result, effect, ran⟩ | ⟨effect, -⟩
    · rw [label] at effect
      cases effect
      exact HasJob.inserted (run_keys first initial) ran kind window (Int.le_trans begun passed)
    · rw [label] at effect
      cases effect
  exact rest.preserves (I := fun s => HasJob s.world.db m.id hostId (m.occurrence q.pre.world.db.now))
    (fun _ _ step had => had.step step) inserted

theorem Unedited.initial_part (unedited : Unedited w (h₁ ++ h₂)) : Unedited w h₁ where
  same e mem := unedited.same e (List.mem_append_left _ mem)
  stays k₁ e k₂ e' k₃ eq := unedited.stays k₁ e k₂ e' (k₃ ++ h₂) (by simp [eq])

/-- A pass that finds no job of the cycle would have found one of the occurrence. -/
theorem not_hasJob {db : Db} (mem : w ∈ db.maintenanceWindows) (cycle : db.cycleStart w = start)
    (none : (Query.jobThisCycle hostId w.id).eval db = some false) : ¬ HasJob db w.id hostId start := by
  rintro ⟨r, row, host, j, found, kind, window, since⟩
  have absent := List.any_eq_false.mp (Option.some.inj none) r row
  refine absent ?_
  simp only [Db.parentIs, found, host, kind, window, Option.any_some, beq_self_eq_true, Bool.true_and]
  exact List.any_eq_true.mpr ⟨w, mem, by simp [cycle, since]⟩

/-- In every run in which no pass that has gone over midnight asks for the job of a host that has
    one, an occurrence of a window that stays the same gets one automatic job for each host. -/
theorem oneAutoJob (run : Run (engine cfg) s h t) (initial : Initial s) (unedited : Unedited w h)
    (sameDay : AskedSameDay w h) : OneAutoJob w h := by
  rintro h₁ e h₂ ⟨hostId, start⟩ rfl had created
  obtain ⟨tid, new, jobId, task, now, label, window, at_, root, opened, rfl⟩ := autoCreation_inv created
  obtain ⟨before, check, since, found, -⟩ := passFound run initial label window at_ root opened
  obtain ⟨l₁, x, l₂, split, earlier⟩ := asked_after run initial label at_ root found had
  obtain rfl := found.split
  have whole : Run (engine cfg) s (before ++ check :: (since ++ e :: h₂)) t := by simpa using run
  obtain ⟨first, step, -⟩ := whole.split_event
  -- the window is still there when the pass asks, and the day is the same
  have there : w ∈ check.pre.world.db.maintenanceWindows := by
    obtain ⟨k₁, q, k₂, rfl, -, m, mem, same, -⟩ := found.isOpen
    obtain rfl : m = w := unedited.same q (by simp) m mem same
    exact unedited.stays k₁ q k₂ check (since ++ e :: h₂) (by simp) mem
  have cycle : check.pre.world.db.cycleStart w = w.occurrence now :=
    cycleStart_eq (sameDay before check (since ++ e :: h₂) tid hostId _ now (by simp) found.label
      found.opened ⟨l₁, x, l₂, split, earlier⟩)
  rw [found.label] at step
  refine not_hasJob there cycle (step_select step) ?_
  -- the earlier job is still that of the occurrence
  subst split
  have part : Unedited w ((l₁ ++ [x]) ++ (l₂ ++ check :: (since ++ e :: h₂))) := by simpa using unedited
  exact hasJob_of_created first initial part.initial_part earlier

/-! ## A pass over midnight -/

/-- `OneAutoJob` as a test of a history. -/
def oneAutoJobTest (w : MaintenanceWindow) (h : List (Event World Op Op.Resp Fn)) : Bool :=
  checksAll (fun before e => (autoCreation? w before e).all fun occurrence =>
    checksAll (fun earlier e => decide (autoCreation? w earlier e ≠ some occurrence)) before) h

theorem oneAutoJobTest_of (one : OneAutoJob w h) : oneAutoJobTest w h = true := by
  refine checksAll_of_forall fun h₁ e h₂ split => ?_
  cases created : autoCreation? w h₁ e with
  | none => rfl
  | some occurrence =>
    rw [Option.all_some]
    refine checksAll_of_forall fun l₁ x l₂ before => ?_
    rw [decide_eq_true_eq]
    exact fun earlier => one h₁ e h₂ occurrence split ⟨l₁, x, l₂, before, earlier⟩ created

/-- A window that is the only row with its identifier at every step stays the same. -/
theorem unedited_of_all (only : ∀ e ∈ h, e.pre.world.db.maintenanceWindows = [w]) : Unedited w h where
  same e mem m row _ := by
    rw [only e mem] at row
    exact List.mem_singleton.mp row
  stays h₁ e h₂ e' h₃ split _ := by
    rw [only e' (by simp [split])]
    exact List.mem_singleton.mpr rfl

deriving instance DecidableEq for MaintenanceWindow

namespace Small

/-- From 23:00:59 for 59 minutes. -/
def lateWindow (recurrence : WindowRecurrence) : MaintenanceWindow :=
  { id := 5, hostId := 100, recurrence, startAt := (23 * 3600 + 59) * microsPerSecond,
    durationMinutes := 59 }

/-- At 23:01 the host has patches to apply. -/
def evening (recurrence : WindowRecurrence) : State :=
  ⟨{ db :=
      { now := (23 * 3600 + 60) * microsPerSecond
        hosts := [host]
        maintenanceWindows := [lateWindow recurrence]
        hostPatchData := [{ hostId := 100, availablePatches := .arr [], patchCount := 3, polledAt := 0 }] } },
    []⟩

/-- The job of the first pass is cancelled.  The second pass finds the window open at 23:59:58 and
    asks for the job of the cycle three seconds later. -/
def passesMidnight : List (Move player) :=
  .call .schedulerTick :: steps 0 7 ++ .call (.cancelJob user 1) :: steps 2 3 ++
    .change (3538 * 1000000) :: .call .schedulerTick :: steps 3 2 ++
    .change (3 * 1000000) :: steps 3 2

theorem passesMidnight_unedited (recurrence : WindowRecurrence) :
    ∀ e ∈ player.history (evening recurrence) passesMidnight,
      e.pre.world.db.maintenanceWindows = [lateWindow recurrence] := by
  cases recurrence <;> decide +kernel

end Small

/-- The second pass creates a second job for the occurrence of the day before. -/
theorem oneAutoJob_fails :
    ¬ ∀ (cfg : WorkerConfig) (s t : State) (h : List (Event World Op Op.Resp Fn)) (w : MaintenanceWindow),
      Run (engine cfg) s h t → Initial s → Unedited w h → OneAutoJob w h := by
  intro all
  have plays : (Small.player.play (Small.evening .daily) Small.passesMidnight).isSome = true := by
    decide +kernel
  have test := oneAutoJobTest_of (all _ _ _ _ _ (Small.player.run_of_play plays) ⟨rfl, rfl, rfl, rfl⟩
    (unedited_of_all (Small.passesMidnight_unedited .daily)))
  revert test
  decide +kernel

/-- For a one-time window the same passes create one job. -/
theorem oneAutoJob_evening :
    OneAutoJob (Small.lateWindow .once) (Small.player.history (Small.evening .once) Small.passesMidnight) :=
  oneAutoJob (Small.player.run_of_play (by decide +kernel)) ⟨rfl, rfl, rfl, rfl⟩
    (unedited_of_all (Small.passesMidnight_unedited .once)) fun _ _ _ _ _ _ _ _ _ _ _ => .inl rfl

end PatchManager
