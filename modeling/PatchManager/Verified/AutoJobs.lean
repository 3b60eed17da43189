import PatchManager.Conc.Serve
import PatchManager.Engine.Keys

/-! # Every window that is due gets its job

A pass of `auto_create_patch_jobs` goes through the windows its first statement has found.  What
that statement looks for besides open windows with automatic patching is `auto_reboot`, although
the job of a window takes `allow_reboot` from the same column.

Main results:

* `autoJob_created_iff`: a window that is due gets its job in a pass, if and only if it has
  `auto_reboot` and none of the statements for it fails.
* `noReboot_skipped`: a window without `auto_reboot`.
-/

namespace PatchManager.AutoJobs

open PatchManager.Conc

/-! ## A pass on its own -/

/-- The surroundings say why a statement fails, or nothing. -/
def executeAlone (w : World) : (o : Op) → Option String → Option (o.Resp × World)
  | .sql _, some reason => some (.error reason, w)
  | .sql s, none => (s.run w.db).map fun (result, db) => (.ok result, { w with db })
  | _, _ => none

/-- The worker while nothing else moves. -/
def alone (cfg : WorkerConfig) : Service World Op Op.Resp Fn where
  body := body cfg
  Answer := Option String
  Change := Empty
  execute := executeAlone
  change w _ := w
  isEntry f := f.isTick
  restart w := w
  perishes f := !f.isRequest

section

variable {cfg : WorkerConfig} {w w' : World} {db db' : Db} {win : MaintenanceWindow} {a : AutoApplyWindow}
  {as : List AutoApplyWindow} {l : Exchanges}

/-- What is done alone can be done among others. -/
theorem exec_of_executeAlone {o : Op} {reason : Option String} {r : o.Resp}
    (executed : (alone cfg).execute w o reason = some (r, w')) : exec w o r w' := by
  cases o with
  | sql s =>
    cases reason with
    | some reason =>
      cases executed
      exact .inl ⟨reason, rfl, rfl⟩
    | none =>
      obtain ⟨⟨result, db⟩, ran, eq⟩ := Option.map_eq_some_iff.mp executed
      cases eq
      exact .inr ⟨result, db, ran, rfl, rfl⟩
  | _ => cases executed

theorem select_ends {q : Query} {reason : Option String} {r : Except String q.Result}
    (executed : (alone cfg).execute w (.sql (.select q)) reason = some (r, w')) :
    w' = w ∧ ((∃ reason, r = .error reason) ∨ ∃ result, q.eval w.db = some result ∧ r = .ok result) := by
  cases r with
  | error e =>
    obtain ⟨_, -, rfl⟩ | ⟨_, _, _, eq, -⟩ := exec_of_executeAlone executed
    · exact ⟨rfl, .inl ⟨e, rfl⟩⟩
    · cases eq
  | ok result =>
    obtain ⟨found, rfl⟩ := exec_select (exec_of_executeAlone executed)
    exact ⟨rfl, .inr ⟨result, found, rfl⟩⟩

/-! ## Windows that are due -/

/-- The window is enabled and open, patches on its own, and has something to patch and no job in
    this cycle. -/
structure Due (db : Db) (win : MaintenanceWindow) : Prop where
  mem : win ∈ db.maintenanceWindows
  autoApply : win.autoApply = true
  isOpen : win.windowOpen db.now = true
  pending : ∃ d ∈ db.hostPatchData, d.hostId = win.hostId ∧ 0 < d.patchCount
  noJob : ∀ r ∈ db.patchJobHosts, r.hostId = win.hostId → ∀ j, db.job r.jobId = some j →
    j.kind = .patchApply → j.maintenanceWindowId = some win.id → j.createdAt < db.cycleStart win

/-- The pass has added a job of the window, and queued it for the window's host. -/
def Created (db db' : Db) (win : MaintenanceWindow) : Prop :=
  ∃ new, db'.patchJobs = db.patchJobs ++ new ∧ ∃ j ∈ new, j.kind = .patchApply ∧ j.status = .queued ∧
    j.maintenanceWindowId = some win.id ∧ j.allowReboot = win.autoReboot ∧
    ∃ r ∈ db'.patchJobHosts, r.jobId = j.id ∧ r.hostId = win.hostId ∧ r.status = .queued

abbrev check (hostId windowId : Uuid) : Op := .sql (.select (.jobThisCycle hostId windowId))

abbrev lookup (hostId : Uuid) : Op := .sql (.select (.pendingPatches hostId))

/-- A statement for the window has failed.  Windows of one host ask the same about its patches;
    a pass that fails there for this window does not go on to ask for its job. -/
inductive Fails (win : MaintenanceWindow) (l : Exchanges) : Prop
  | listing (reason : String) (mem : ⟨.sql (.select .autoWindows), .error reason⟩ ∈ l)
  | patches (reason : String) (mem : ⟨lookup win.hostId, .error reason⟩ ∈ l)
    (unasked : ∀ answer, ⟨check win.hostId win.id, answer⟩ ∉ l)
  | job (reason : String) (mem : ⟨check win.hostId win.id, .error reason⟩ ∈ l)
  | insert (new : NewJob) (reason : String) (own : new.maintenanceWindowId = some win.id)
    (mem : ⟨.sql (.insertAutoJob new win.hostId), .error reason⟩ ∈ l)

/-! ## The turn of one window -/

/-- The database with the job of the window. -/
def withJob (db : Db) (a : AutoApplyWindow) : Db := (db.insertJob (autoJob a)).insertJobHost db.nextId a.hostId

abbrev insertion (a : AutoApplyWindow) : Op := .sql (.insertAutoJob (autoJob a) a.hostId)

inductive Turn (db : Db) (a : AutoApplyWindow) : Exchanges → Db → Prop
  | unknown {reason : String} : Turn db a [⟨lookup a.hostId, .error reason⟩] db
  | nothing (found : (Query.pendingPatches a.hostId).eval db = some none) :
    Turn db a [⟨lookup a.hostId, .ok none⟩] db
  | unchecked {count : PendingPatchHost} {reason : String} :
    Turn db a [⟨lookup a.hostId, .ok (some count)⟩, ⟨check a.hostId a.windowId, .error reason⟩] db
  | had {count : PendingPatchHost} (found : (Query.jobThisCycle a.hostId a.windowId).eval db = some true) :
    Turn db a [⟨lookup a.hostId, .ok (some count)⟩, ⟨check a.hostId a.windowId, .ok true⟩] db
  | failed {count : PendingPatchHost} {reason : String} :
    Turn db a [⟨lookup a.hostId, .ok (some count)⟩, ⟨check a.hostId a.windowId, .ok false⟩,
      ⟨insertion a, .error reason⟩] db
  | created {count : PendingPatchHost} :
    Turn db a [⟨lookup a.hostId, .ok (some count)⟩, ⟨check a.hostId a.windowId, .ok false⟩,
      ⟨insertion a, .ok (some db.nextId)⟩] (withJob db a)

theorem insert_ends {reason : Option String} {r : Except String (Option Uuid)}
    (executed : (alone cfg).execute w (insertion a) reason = some (r, w')) :
    (∃ reason, r = .error reason ∧ w' = w) ∨ (r = .ok (some w.db.nextId) ∧ w'.db = withJob w.db a) := by
  obtain ⟨reason, eq, rfl⟩ | ⟨result, db, ran, eq, rfl⟩ := exec_of_executeAlone executed
  · exact .inl ⟨reason, eq, rfl⟩
  · obtain ⟨-, pair⟩ := Option.ite_none_right_eq_some.mp ran
    cases pair
    exact .inr ⟨eq, rfl⟩

theorem autoCreateFor_ends (serves : Serves (alone cfg) w (autoCreateFor a) l (some ()) w') :
    Turn w.db a l w'.db := by
  obtain ⟨_, patches, w₁, _, executed, asked, rfl⟩ := serves.op_returned
  obtain ⟨rfl, ⟨reason, rfl⟩ | ⟨pending, found, rfl⟩⟩ := select_ends executed
  · obtain ⟨rfl, rfl, -⟩ := asked.ret_returned
    exact .unknown
  cases pending with
  | none =>
    obtain ⟨rfl, rfl, -⟩ := asked.ret_returned
    exact .nothing found
  | some count =>
    obtain ⟨_, existing, w₂, _, executed', checked, rfl⟩ := asked.op_returned
    obtain ⟨rfl, ⟨reason, rfl⟩ | ⟨existing, found', rfl⟩⟩ := select_ends executed'
    · obtain ⟨rfl, rfl, -⟩ := checked.ret_returned
      exact .unchecked
    cases existing with
    | true =>
      obtain ⟨rfl, rfl, -⟩ := checked.ret_returned
      exact .had found'
    | false =>
      obtain ⟨_, job, w₃, _, inserted, last, rfl⟩ := checked.op_returned
      obtain ⟨rfl, rfl, -⟩ := last.ret_returned
      obtain ⟨reason, rfl, rfl⟩ | ⟨rfl, eq⟩ := insert_ends inserted
      · exact .failed
      · rw [eq]
        exact .created

/-! ## Due windows and the turns of others -/

/-- What the tables ensure: identifiers are not given out twice. -/
structure Sound (db : Db) : Prop where
  jobs : ∀ j ∈ db.patchJobs, j.id < db.nextId
  windows : (db.maintenanceWindows.map MaintenanceWindow.id).Nodup

theorem sound_withJob (sound : Sound db) : Sound (withJob db a) where
  jobs := by
    intro j mem
    change j.id < db.nextId + 1 + 1
    rcases List.mem_append.mp mem with old | new
    · exact Nat.lt_succ_of_lt (Nat.lt_succ_of_lt (sound.jobs j old))
    · obtain rfl := List.mem_singleton.mp new
      exact Nat.lt_succ_of_lt (Nat.lt_succ_self _)
  windows := sound.windows

theorem Due.found (due : Due db win) : ∃ count, (Query.pendingPatches win.hostId).eval db = some (some count) := by
  obtain ⟨d, mem, host, many⟩ := due.pending
  have some : (db.hostPatchData.find? fun d => d.hostId == win.hostId && decide (d.patchCount > 0)).isSome := by
    rw [List.find?_isSome]
    exact ⟨d, mem, by simp [host, many]⟩
  obtain ⟨d', found⟩ := Option.isSome_iff_exists.mp some
  exact ⟨_, by rw [Query.eval, found]; rfl⟩

theorem Due.unserved (due : Due db win) (sound : Sound db) :
    (Query.jobThisCycle win.hostId win.id).eval db = some false := by
  refine congrArg some (Bool.eq_false_iff.mpr fun had => ?_)
  obtain ⟨r, mem, test⟩ := List.any_eq_true.mp had
  simp only [Bool.and_eq_true, beq_iff_eq, Db.parentIs, Option.any_eq_true, List.any_eq_true,
    decide_eq_true_eq] at test
  obtain ⟨host, j, job, ⟨kind, window⟩, w, there, same, begun⟩ := test
  obtain rfl := List.inj_on_of_nodup_map sound.windows there due.mem same
  exact Int.not_lt.mpr begun (due.noJob r mem host j job kind window)

/-- The job of another window leaves the window due. -/
theorem due_withJob (due : Due db win) (sound : Sound db) (other : a.windowId ≠ win.id) :
    Due (withJob db a) win := by
  refine ⟨due.mem, due.autoApply, due.isOpen, due.pending, fun r mem host j job kind window => ?_⟩
  obtain found | ⟨-, new, -⟩ := Sql.lookup_append_cases job
  · rcases List.mem_append.mp mem with old | row
    · exact due.noJob r old host j found kind window
    · obtain rfl := List.mem_singleton.mp row
      obtain ⟨there, id⟩ := Sql.lookup_some found
      exact absurd id (Nat.ne_of_lt (sound.jobs j there))
  · obtain rfl := List.mem_singleton.mp new
    exact absurd (Option.some.inj window) other

/-- What the turns of other windows leave of a database, and of the exchanges for the window. -/
structure Aside (win : MaintenanceWindow) (db db' : Db) (l : Exchanges) : Prop where
  sound : Sound db → Sound db'
  due : Sound db → Due db win → Due db' win
  jobs : ∃ new, db'.patchJobs = db.patchJobs ++ new ∧ ∀ j ∈ new, j.maintenanceWindowId ≠ some win.id
  rows : ∃ new, db'.patchJobHosts = db.patchJobHosts ++ new
  unasked : ∀ answer, ⟨check win.hostId win.id, answer⟩ ∉ l
  uninserted : ∀ new answer, new.maintenanceWindowId = some win.id →
    ⟨.sql (.insertAutoJob new win.hostId), answer⟩ ∉ l
  unlisted : ∀ answer, ⟨.sql (.select .autoWindows), answer⟩ ∉ l

/-- A turn asks for its own window. -/
theorem Turn.asks (turn : Turn db a l db') : ∀ x ∈ l, x.1 = lookup a.hostId ∨
    x.1 = check a.hostId a.windowId ∨ x.1 = insertion a := by
  cases turn <;> simp

theorem Turn.aside (turn : Turn db a l db') (other : a.windowId ≠ win.id) : Aside win db db' l where
  sound sound := by
    cases turn with
    | created => exact sound_withJob sound
    | _ => exact sound
  due sound due := by
    cases turn with
    | created => exact due_withJob due sound other
    | _ => exact due
  jobs := by
    cases turn with
    | created =>
      refine ⟨_, rfl, fun j mem same => ?_⟩
      obtain rfl := List.mem_singleton.mp mem
      exact other (Option.some.inj same)
    | _ => exact ⟨[], by simp, by simp⟩
  rows := by
    cases turn with
    | created => exact ⟨_, rfl⟩
    | _ => exact ⟨[], by simp⟩
  unasked answer mem := by
    rcases turn.asks _ mem with eq | eq | eq
    · cases eq
    · simp only [Op.sql.injEq, Stmt.select.injEq, Query.jobThisCycle.injEq] at eq
      exact other eq.2.symm
    · cases eq
  uninserted new answer own mem := by
    rcases turn.asks _ mem with eq | eq | eq
    · cases eq
    · cases eq
    · simp only [Op.sql.injEq, Stmt.insertAutoJob.injEq] at eq
      rw [eq.1] at own
      exact other (Option.some.inj own)
  unlisted answer mem := by
    rcases turn.asks _ mem with eq | eq | eq <;> cases eq

theorem aside_nil : Aside win db db [] where
  sound := id
  due _ := id
  jobs := ⟨[], by simp, by simp⟩
  rows := ⟨[], by simp⟩
  unasked := by simp
  uninserted := by simp
  unlisted := by simp

theorem Aside.append {db'' : Db} {l' : Exchanges} (first : Aside win db db' l) (second : Aside win db' db'' l') :
    Aside win db db'' (l ++ l') where
  sound sound := second.sound (first.sound sound)
  due sound due := second.due (first.sound sound) (first.due sound due)
  jobs := by
    obtain ⟨new, eq, others⟩ := first.jobs
    obtain ⟨new', eq', others'⟩ := second.jobs
    refine ⟨new ++ new', by rw [eq', eq, List.append_assoc], fun j mem => ?_⟩
    exact (List.mem_append.mp mem).elim (others j) (others' j)
  rows := by
    obtain ⟨new, eq⟩ := first.rows
    obtain ⟨new', eq'⟩ := second.rows
    exact ⟨new ++ new', by rw [eq', eq, List.append_assoc]⟩
  unasked answer mem := (List.mem_append.mp mem).elim (first.unasked answer) (second.unasked answer)
  uninserted new answer own mem :=
    (List.mem_append.mp mem).elim (first.uninserted new answer own) (second.uninserted new answer own)
  unlisted answer mem := (List.mem_append.mp mem).elim (first.unlisted answer) (second.unlisted answer)

theorem others_aside (serves : Serves (alone cfg) w (autoCreateEach as) l (some ()) w')
    (others : ∀ a ∈ as, a.windowId ≠ win.id) : Aside win w.db w'.db l := by
  induction as generalizing w l with
  | nil =>
    obtain ⟨rfl, rfl, -⟩ := serves.ret_returned
    exact aside_nil
  | cons a rest ih =>
    obtain ⟨l₁, _, w₁, l₂, first, later, rfl⟩ := Serves.bind_returned (p := autoCreateFor a) serves
    have turn := (autoCreateFor_ends first).aside (others a List.mem_cons_self)
    exact turn.append (ih later fun b mem => others b (List.mem_cons_of_mem a mem))

theorem autoCreateEach_append (before after : List AutoApplyWindow) :
    autoCreateEach (before ++ after) = (autoCreateEach before).bind fun _ => autoCreateEach after := by
  induction before with
  | nil => rfl
  | cons a rest ih =>
    simp only [List.cons_append, autoCreateEach, ih, Prog.bind_eq, Prog.bind_assoc]

/-! ## A whole pass -/

/-- The row of the first statement for a window. -/
def listed (win : MaintenanceWindow) : AutoApplyWindow :=
  { windowId := win.id, hostId := win.hostId, autoReboot := win.autoReboot
    rebootDelayMinutes := win.rebootDelayMinutes }

theorem mem_listing (found : Query.autoWindows.eval db = some as) :
    a ∈ as ↔ ∃ w ∈ db.maintenanceWindows, (w.autoApply = true ∧ w.autoReboot = true ∧ w.windowOpen db.now = true) ∧
      listed w = a := by
  cases found
  simp only [List.mem_map, List.mem_filter, Bool.and_eq_true, and_assoc]
  rfl

theorem listing_nodup (sound : Sound db) (found : Query.autoWindows.eval db = some as) :
    (as.map AutoApplyWindow.windowId).Nodup := by
  cases found
  rw [List.map_map]
  exact (List.filter_sublist.map _).nodup sound.windows

theorem not_created_of_others {new : List PatchJob} (jobs : db'.patchJobs = db.patchJobs ++ new)
    (others : ∀ j ∈ new, j.maintenanceWindowId ≠ some win.id) : ¬ Created db db' win := by
  rintro ⟨new', jobs', j, mem, -, -, own, -⟩
  obtain rfl := List.append_cancel_left (jobs.symm.trans jobs')
  exact others j mem own

theorem Aside.not_created (aside : Aside win db db' l) : ¬ Created db db' win := by
  obtain ⟨new, jobs, others⟩ := aside.jobs
  exact not_created_of_others jobs others

/-- The exchanges of a turn in which nothing has failed. -/
structure Served (win : MaintenanceWindow) (l : Exchanges) : Prop where
  asked : ∃ answer, ⟨check win.hostId win.id, answer⟩ ∈ l
  checked : ∀ reason, ⟨check win.hostId win.id, .error reason⟩ ∉ l
  inserted : ∀ new reason, ⟨.sql (.insertAutoJob new win.hostId), .error reason⟩ ∉ l

/-- The turn of a window that is due. -/
theorem turn_of_due (due : Due db win) (sound : Sound db) (turn : Turn db (listed win) l db') :
    (db' = withJob db (listed win) ∧ Served win l) ∨ (db' = db ∧ Fails win l) := by
  cases turn with
  | @unknown reason => exact .inr ⟨rfl, .patches reason (.head _) (by simp)⟩
  | nothing none =>
    obtain ⟨count, found⟩ := due.found
    cases found.symm.trans none
  | @unchecked count reason => exact .inr ⟨rfl, .job reason (.tail _ (.head _))⟩
  | had had => cases (due.unserved sound).symm.trans had
  | @failed count reason =>
    exact .inr ⟨rfl, .insert (autoJob (listed win)) reason rfl (.tail _ (.tail _ (.head _)))⟩
  | created =>
    refine .inl ⟨rfl, ⟨_, .tail _ (.head _)⟩, fun reason mem => ?_, fun new reason mem => ?_⟩
    · rcases List.mem_cons.mp mem with eq | mem
      · cases eq
      rcases List.mem_cons.mp mem with eq | mem
      · cases eq
      rcases List.mem_singleton.mp mem with eq
      cases eq
    · rcases List.mem_cons.mp mem with eq | mem
      · cases eq
      rcases List.mem_cons.mp mem with eq | mem
      · cases eq
      rcases List.mem_singleton.mp mem with eq
      cases eq

theorem created_withJob (first : Aside win db db' l) {l' : Exchanges} {db'' : Db}
    (last : Aside win (withJob db' (listed win)) db'' l') : Created db db'' win := by
  obtain ⟨new, jobs, -⟩ := first.jobs
  obtain ⟨new', jobs', -⟩ := last.jobs
  obtain ⟨rows, hosts⟩ := last.rows
  let job := (autoJob (listed win)).row db'.nextId db'.now
  have jobs_eq : db''.patchJobs = db.patchJobs ++ (new ++ [job] ++ new') := by
    rw [jobs']
    change db'.patchJobs ++ [job] ++ new' = _
    simp [jobs]
  have hosts_eq : db''.patchJobHosts =
      db'.patchJobHosts ++ [{ id := db'.nextId + 1, jobId := db'.nextId, hostId := win.hostId }] ++ rows := hosts
  refine ⟨_, jobs_eq, job, by simp, rfl, rfl, rfl, rfl, ?_⟩
  exact ⟨{ id := db'.nextId + 1, jobId := db'.nextId, hostId := win.hostId }, by simp [hosts_eq], rfl, rfl, rfl⟩

section parts

variable {l₁ l₂ l₃ : Exchanges} {db₁ db₂ db₃ db₄ : Db} (first : Aside win db₁ db₂ l₁) (last : Aside win db₃ db₄ l₃)

theorem mem_parts {x y : Exchange Op Op.Resp} (mem : x ∈ y :: (l₁ ++ (l₂ ++ l₃))) :
    x = y ∨ x ∈ l₁ ∨ x ∈ l₂ ∨ x ∈ l₃ := by
  simpa using mem

include first last in
theorem fails_of_turn (fails : Fails win l₂) :
    Fails win (⟨.sql (.select .autoWindows), .ok as⟩ :: (l₁ ++ (l₂ ++ l₃))) := by
  have whole {x : Exchange Op Op.Resp} (mem : x ∈ l₂) :
      x ∈ (⟨.sql (.select .autoWindows), .ok as⟩ : Exchange Op Op.Resp) :: (l₁ ++ (l₂ ++ l₃)) := by simp [mem]
  cases fails with
  | listing reason mem => exact .listing reason (whole mem)
  | patches reason mem unasked =>
    refine .patches reason (whole mem) fun answer asked => ?_
    rcases mem_parts asked with eq | asked | asked | asked
    · cases eq
    · exact first.unasked answer asked
    · exact unasked answer asked
    · exact last.unasked answer asked
  | job reason mem => exact .job reason (whole mem)
  | insert new reason own mem => exact .insert new reason own (whole mem)

include first last in
theorem not_fails_of_served (turn : ∀ answer, ⟨.sql (.select .autoWindows), answer⟩ ∉ l₂) (served : Served win l₂) :
    ¬ Fails win (⟨.sql (.select .autoWindows), .ok as⟩ :: (l₁ ++ (l₂ ++ l₃))) := by
  rintro (⟨reason, mem⟩ | ⟨reason, mem, unasked⟩ | ⟨reason, mem⟩ | ⟨new, reason, own, mem⟩)
  · rcases mem_parts mem with eq | mem | mem | mem
    · cases eq
    · exact first.unlisted _ mem
    · exact turn _ mem
    · exact last.unlisted _ mem
  · obtain ⟨answer, asked⟩ := served.asked
    exact unasked answer (by simp [asked])
  · rcases mem_parts mem with eq | mem | mem | mem
    · cases eq
    · exact first.unasked _ mem
    · exact served.checked reason mem
    · exact last.unasked _ mem
  · rcases mem_parts mem with eq | mem | mem | mem
    · cases eq
    · exact first.uninserted new _ own mem
    · exact served.inserted new reason mem
    · exact last.uninserted new _ own mem

end parts

/-- A window that is due gets its job, if and only if it has `auto_reboot` and no statement for it
    fails. -/
theorem autoJob_created_iff (cfg : WorkerConfig) (w w' : World) (l : Exchanges) (win : MaintenanceWindow)
    (sound : Sound w.db) (due : Due w.db win)
    (serves : Serves (alone cfg) w autoCreatePatchJobs l (some ()) w') :
    Created w.db w'.db win ↔ win.autoReboot = true ∧ ¬ Fails win l := by
  obtain ⟨_, listing, w₁, rest, executed, passed, rfl⟩ := serves.op_returned
  obtain ⟨rfl, ⟨reason, rfl⟩ | ⟨as, found, rfl⟩⟩ := select_ends executed
  · obtain ⟨rfl, rfl, -⟩ := passed.ret_returned
    refine iff_of_false aside_nil.not_created fun served => ?_
    exact served.2 (.listing reason (.head _))
  have each : Serves (alone cfg) w₁ (autoCreateEach as) rest (some ()) w' := passed
  by_cases reboots : win.autoReboot = true
  · have mem : listed win ∈ as :=
      (mem_listing found).mpr ⟨win, due.mem, ⟨due.autoApply, reboots, due.isOpen⟩, rfl⟩
    obtain ⟨before, after, rfl⟩ := List.append_of_mem mem
    have nodup := listing_nodup sound found
    rw [List.map_append, List.map_cons, List.nodup_append, List.nodup_cons] at nodup
    obtain ⟨-, ⟨later, -⟩, earlier⟩ := nodup
    rw [autoCreateEach_append] at each
    obtain ⟨l₁, _, w₂, _, served₁, served₂, rfl⟩ := each.bind_returned
    obtain ⟨l₂, _, w₃, l₃, own, served₃, rfl⟩ := Serves.bind_returned (p := autoCreateFor (listed win)) served₂
    have first : Aside win w₁.db w₂.db l₁ := others_aside served₁ fun a mem same =>
      earlier _ (List.mem_map_of_mem mem) win.id List.mem_cons_self same
    have last : Aside win w₃.db w'.db l₃ := others_aside served₃ fun a mem same =>
      later (List.mem_map.mpr ⟨a, mem, same⟩)
    have turn := autoCreateFor_ends own
    obtain ⟨eq, served⟩ | ⟨eq, fails⟩ := turn_of_due (first.due sound due) (first.sound sound) turn
    · refine iff_of_true (created_withJob first (eq ▸ last)) ⟨reboots, not_fails_of_served first last ?_ served⟩
      intro answer mem
      rcases turn.asks _ mem with eq | eq | eq <;> cases eq
    · refine iff_of_false (first.append (eq ▸ last)).not_created fun served => ?_
      exact served.2 (fails_of_turn first last fails)
  · refine iff_of_false ?_ fun served => reboots served.1
    refine (others_aside each fun a mem same => ?_).not_created
    obtain ⟨win', there, ⟨-, reboots', -⟩, rfl⟩ := (mem_listing found).mp mem
    obtain rfl := List.inj_on_of_nodup_map sound.windows there due.mem same
    exact reboots reboots'

end

/-! ## Two windows -/

def nightly (autoReboot : Bool) : MaintenanceWindow :=
  { id := 1, hostId := 2, recurrence := .once, startAt := 0, autoReboot }

def before (autoReboot : Bool) : Db :=
  { now := 0, nextId := 10
    hosts := [{ id := 2, fqdn := "web.example", ipAddress := "10.0.0.2", agentPort := 7443 }]
    maintenanceWindows := [nightly autoReboot]
    hostPatchData := [{ hostId := 2, availablePatches := .arr [], patchCount := 3, polledAt := 0 }] }

theorem before_sound (autoReboot : Bool) : Sound (before autoReboot) where
  jobs := by simp [before]
  windows := by simp [before]

theorem nightly_due (autoReboot : Bool) : Due (before autoReboot) (nightly autoReboot) where
  mem := by simp [before]
  autoApply := rfl
  isOpen := by cases autoReboot <;> decide
  pending := ⟨_, List.mem_singleton.mpr rfl, rfl, by decide⟩
  noJob := by simp [before]

def exchanges : Exchanges :=
  [⟨.sql (.select .autoWindows), .ok [listed (nightly true)]⟩, ⟨lookup 2, .ok (some ⟨2, 3⟩)⟩,
   ⟨check 2 1, .ok false⟩, ⟨insertion (listed (nightly true)), .ok (some 10)⟩]

theorem pass_served (cfg : WorkerConfig) : Serves (alone cfg) { db := before true } autoCreatePatchJobs exchanges
    (some ()) { db := withJob (before true) (listed (nightly true)) } :=
  .op (a := (none : Option String)) rfl <| .op (a := (none : Option String)) rfl <|
    .op (a := (none : Option String)) rfl <| .op (a := (none : Option String)) rfl .ret

def settings : WorkerConfig :=
  { maxConcurrentAgentCalls := 64, wsRelayPollIntervalSecs := 5, selfUpgradeReconnectTimeoutSecs := 600
    selfUpgradeReconnectPollIntervalSecs := 15, jobTimeoutSecs := 7200 }

theorem autoJob_created_iff_nightly :
    Created (before true) (withJob (before true) (listed (nightly true))) (nightly true) ↔
      (nightly true).autoReboot = true ∧ ¬ Fails (nightly true) exchanges :=
  autoJob_created_iff settings { db := before true } _ exchanges _ (before_sound true) (nightly_due true)
    (pass_served settings)

/-- The same window without `auto_reboot` is not found. -/
theorem noReboot_skipped : ¬ ∀ (cfg : WorkerConfig) (w w' : World) (l : Exchanges) (win : MaintenanceWindow),
    Sound w.db → Due w.db win → Serves (alone cfg) w autoCreatePatchJobs l (some ()) w' → ¬ Fails win l →
      Created w.db w'.db win := by
  intro complete
  have served : Serves (alone settings) { db := before false } autoCreatePatchJobs
      [⟨.sql (.select .autoWindows), .ok []⟩] (some ()) { db := before false } :=
    .op (a := (none : Option String)) rfl .ret
  have spared : ¬ Fails (nightly false) [⟨.sql (.select .autoWindows), .ok []⟩] := by
    rintro (⟨reason, mem⟩ | ⟨reason, mem, -⟩ | ⟨reason, mem⟩ | ⟨new, reason, -, mem⟩) <;>
      cases List.mem_singleton.mp mem
  obtain ⟨new, jobs, j, mem, -⟩ :=
    complete settings _ _ _ (nightly false) (before_sound false) (nightly_due false) served spared
  obtain rfl : [] = new := List.append_cancel_left (jobs.symm.trans (List.append_nil _).symm).symm
  cases mem

end PatchManager.AutoJobs
