import PatchManager.Engine.Keys
import PatchManager.Engine.Schedule
import PatchManager.Verified.Dispatch

/-! # Maintenance windows and submissions

The scanner and the scheduler look for rows whose host has an open window, but what they
select is the row's job, and all queued rows of the job are then dispatched; the retry of
a row does not look at windows at all.

Main results:

* `window_compliance`: where the rows fetched for dispatch are in an open window, or were
  found in one by the scan that started the dispatch, every submission is for a row
  selected in an open window.
* `submitted_outside_window`: a host without a window gets its job with another host's.
-/

namespace PatchManager

open PatchManager.Conc

variable {cfg : WorkerConfig} {s t : State} {h : List (Event World Op Op.Resp Fn)} {pjhId : Uuid}

/-- The rows a scan for work finds. -/
def Query.finds (db : Db) : Query → PatchJobHost → Bool
  | scanQueued, r => db.scanned r
  | queuedNonImmediate hostId, r => db.windowQueued hostId r
  | _, _ => false

/-- The rows a query fetches for dispatch. -/
def Query.fetches (db : Db) : Query → PatchJobHost → Bool
  | queuedHosts jobId, r => r.jobId == jobId && r.status == .queued
  | duePending, r => db.retryable r
  | _, _ => false

/-- The host of the row has a window open. -/
def Db.rowWindowOpen (db : Db) (pjhId : Uuid) : Bool :=
  (db.pjh pjhId).any fun r => db.hostWindowOpen r.hostId

/-- The parent job of the row is immediate. -/
def Db.rowImmediate (db : Db) (pjhId : Uuid) : Bool :=
  (db.pjh pjhId).any fun r => (db.job r.jobId).any PatchJob.immediate

/-- The step is a query of task `tid` that selects the row, in the sense of `selects`, at a
    time when its host has a window open. -/
def SelectsInWindow (selects : Db → Query → PatchJobHost → Bool) (tid : Nat) (pjhId : Uuid)
    (e : Event World Op Op.Resp Fn) : Prop :=
  ∃ q rows, e.label = .op tid (.sql (.select q)) (.ok rows) ∧
    (e.pre.world.db.pjh pjhId).any (selects e.pre.world.db q) = true ∧
    e.pre.world.db.rowWindowOpen pjhId = true

/-- A scan of the task that started task `tid` has found the row in an open window. -/
def FoundInWindow (pjhId : Uuid) (h : List (Event World Op Op.Resp Fn)) (tid : Nat) : Prop :=
  ∃ scanner, StartedBy h scanner tid ∧ ∃ f ∈ h, SelectsInWindow (fun db q => q.finds db) scanner pjhId f

/-- The row was selected in an open window for the dispatch that task `tid` carries out:
    by the task that started it, when it fetched the row, or by the scan that had started
    that one. -/
def SelectedInWindow (pjhId : Uuid) (h : List (Event World Op Op.Resp Fn)) (tid : Nat) : Prop :=
  ∃ parent, StartedBy h parent tid ∧
    ((∃ f ∈ h, SelectsInWindow (fun db q => q.fetches db) parent pjhId f) ∨ FoundInWindow pjhId h parent)

/-- Every submission of the row, unless its job is immediate, is for a dispatch that
    selected the row in an open window. -/
def WindowCompliant (pjhId : Uuid) (h : List (Event World Op Op.Resp Fn)) : Prop :=
  ∀ h₁ e h₂ tid o answer, h = h₁ ++ e :: h₂ → e.label = .op tid o answer →
    o.submission? = some pjhId → e.pre.world.db.rowImmediate pjhId = false →
    SelectedInWindow pjhId h₁ tid

/-- Whenever the row is fetched for dispatch, its job is immediate, or its host has a
    window open, or the scan that led to the query found the row in an open window. -/
def FetchedInWindow (pjhId : Uuid) (h : List (Event World Op Op.Resp Fn)) : Prop :=
  ∀ h₁ e h₂ tid, h = h₁ ++ e :: h₂ → fetches tid pjhId e.label →
    e.pre.world.db.rowImmediate pjhId = true ∨ e.pre.world.db.rowWindowOpen pjhId = true ∨
      FoundInWindow pjhId h₁ tid

theorem StartedBy.mono {h' : List (Event World Op Op.Resp Fn)} {parent tid : Nat}
    (sub : h ⊆ h') (started : StartedBy h parent tid) : StartedBy h' parent tid := by
  obtain ⟨e, mem, rest⟩ := started
  exact ⟨e, sub mem, rest⟩

theorem FoundInWindow.mono {h' : List (Event World Op Op.Resp Fn)} {tid : Nat} (sub : h ⊆ h')
    (found : FoundInWindow pjhId h tid) : FoundInWindow pjhId h' tid := by
  obtain ⟨scanner, started, f, mem, selects⟩ := found
  exact ⟨scanner, started.mono sub, f, sub mem, selects⟩

/-- A row of an immediate job stays one. -/
theorem rowImmediate_stays (run : Run (engine cfg) s h t)
    (immediate : s.world.db.rowImmediate pjhId = true) :
    t.world.db.rowImmediate pjhId = true := by
  simp only [Db.rowImmediate, Option.any_eq_true] at immediate ⊢
  obtain ⟨r, found, j, parent, immediate⟩ := immediate
  obtain ⟨r', found', job, -⟩ := run_pjh run found
  obtain ⟨j', parent', same⟩ := run_job run parent
  exact ⟨r', found', j', by rw [job]; exact parent', by rw [same]; exact immediate⟩

/-- A query that fetches the row for dispatch selects it. -/
theorem selects_of_fetches {e : Event World Op Op.Resp Fn} {tid : Nat} (keys : Keys e.pre.world.db)
    (step : Step (engine cfg) e.pre e.label e.post) (fetched : fetches tid pjhId e.label)
    (isOpen : e.pre.world.db.rowWindowOpen pjhId = true) :
    SelectsInWindow (fun db q => q.fetches db) tid pjhId e := by
  cases label : e.label with
  | op tid' o answer =>
    rw [label] at step fetched
    obtain ⟨root, next, w, -, done, -⟩ := step.op_inv
    have done' : exec e.pre.world o answer w := done
    obtain ⟨rfl, fetched⟩ := fetched
    unfold Op.fetched at fetched
    split at fetched
    · rename_i jobId rows
      obtain ⟨evaluated, -⟩ := exec_select done'
      cases Option.some.inj evaluated
      refine ⟨.queuedHosts jobId, _, label, ?_, isOpen⟩
      simp only [List.map_map, List.mem_map, List.mem_filter, Db.hostsOf, Function.comp] at fetched
      obtain ⟨r, ⟨⟨mem, job⟩, queued⟩, rfl⟩ := fetched
      rw [keys.pjh_eq mem]
      simp [Query.fetches, beq_iff_eq.mp job, beq_iff_eq.mp queued]
    · rename_i rows
      obtain ⟨evaluated, -⟩ := exec_select done'
      cases Option.some.inj evaluated
      refine ⟨.duePending, _, label, ?_, isOpen⟩
      simp only [List.map_map, List.mem_map, List.mem_filter, Function.comp] at fetched
      obtain ⟨r, ⟨mem, due⟩, rfl⟩ := fetched
      rw [keys.pjh_eq mem]
      exact due
    · cases fetched
  | _ => rw [label] at fetched; cases fetched

/-- In every run that fetches the row in open windows, the row is submitted only after a
    selection in an open window. -/
theorem window_compliance (run : Run (engine cfg) s h t) (initial : Initial s)
    (inWindow : FetchedInWindow pjhId h) : WindowCompliant pjhId h := by
  intro h₁ e h₂ tid o answer split label submission immediate
  obtain ⟨parent, started, h₃, f, h₄, rfl, fetched⟩ :=
    submits_fetched run initial split label submission
  subst split
  obtain ⟨before, -, -⟩ := run.split_event
  obtain ⟨first, step, rest⟩ := before.split_event
  rcases inWindow h₃ f (h₄ ++ e :: h₂) parent (by simp) fetched with isImmediate | isOpen | found
  · rw [rowImmediate_stays (Run.cons step rest) isImmediate] at immediate
    cases immediate
  · have selects := selects_of_fetches (run_keys first initial) step fetched isOpen
    exact ⟨parent, started, .inl ⟨f, by simp, selects⟩⟩
  · exact ⟨parent, started, .inr (found.mono (List.subset_append_left _ _))⟩

/-! ## Runs on the small installation -/

/-- A host that has a window from 0:00 on for an hour, and one that has none. -/
def twoHosts : State :=
  ⟨{ db := { now := 0, hosts := [Small.host, { Small.host with id := 101, fqdn := "web2" }],
             maintenanceWindows := [{ id := 1, hostId := 100, recurrence := .daily, startAt := 0 }] } },
    []⟩

theorem twoHosts_initial : Initial twoHosts := ⟨rfl, rfl, rfl, rfl⟩

/-- The scan, as task `tid`, finds the job and starts `process_job`. -/
def scans (tid : Nat) : List (Move Small.player) := .call .periodicScan :: Small.steps tid 2

/-- A queued job of the host with the window. -/
def windowDispatch : List (Move Small.player) :=
  .call (.createJob Small.user { Small.immediateJob with immediate := false }) :: Small.steps 0 3 ++
    scans 1 ++ Small.steps 2 5 ++ Small.submits 3 "a"

/-- A query that fetches the row for dispatch runs while its host has a window open. -/
def fetchedInWindow (pjhId : Uuid) (e : Event World Op Op.Resp Fn) : Bool :=
  match e.label with
  | .op _ o answer => !(o.fetched answer).contains pjhId || e.pre.world.db.rowWindowOpen pjhId
  | _ => true

theorem window_compliance_windowDispatch :
    WindowCompliant 2 (Small.player.history twoHosts windowDispatch) := by
  have plays : (Small.player.play twoHosts windowDispatch).isSome = true := by decide +kernel
  have inWindow : (Small.player.history twoHosts windowDispatch).all (fetchedInWindow 2) = true := by
    decide +kernel
  refine window_compliance (Small.player.run_of_play plays) twoHosts_initial
    fun h₁ e h₂ tid split fetched => .inr (.inl ?_)
  have ok := List.all_eq_true.mp inWindow e (by simp [split])
  cases label : e.label with
  | op tid' o answer =>
    simpa [fetchedInWindow, label, (label ▸ fetched : _ ∧ 2 ∈ o.fetched answer).2] using ok
  | _ => rw [label] at fetched; cases fetched

/-- A queued job of both hosts, in the window of one of them. -/
def jointDispatch : List (Move Small.player) :=
  .call (.createJob Small.user
      { Small.immediateJob with hostIds := [100, 101], immediate := false }) :: Small.steps 0 4 ++
    scans 1 ++ Small.steps 2 7 ++ Small.submits 4 "b"

/-- The row of the host without a window is submitted. -/
theorem submitted_outside_window :
    ¬ ∀ (cfg : WorkerConfig) (s t : State) (h : List (Event World Op Op.Resp Fn)) (pjhId : Uuid),
      Initial s → Run (engine cfg) s h t → WindowCompliant pjhId h := by
  intro all
  have plays : (Small.player.play twoHosts jointDispatch).isSome = true := by decide +kernel
  have compliant := all _ _ _ _ 3 twoHosts_initial (Small.player.run_of_play plays)
  have closed : (Small.player.history twoHosts jointDispatch).all (fun e =>
      !e.pre.world.db.rowWindowOpen 3) = true := by decide +kernel
  obtain ⟨e, mem, test⟩ := List.any_eq_true.mp (show
    (Small.player.history twoHosts jointDispatch).any (fun e =>
      submits 3 e.label && !e.pre.world.db.rowImmediate 3) = true by decide +kernel)
  simp only [Bool.and_eq_true, Bool.not_eq_true'] at test
  obtain ⟨h₁, h₂, split⟩ := List.append_of_mem mem
  cases label : e.label with
  | op tid o answer =>
    have submission : o.submission? = some 3 := by simpa [label, submits] using test.1
    have never : ∀ f ∈ h₁, f.pre.world.db.rowWindowOpen 3 = false := fun f mem => by
      simpa using List.all_eq_true.mp closed f (by simp [split, mem])
    obtain ⟨_, _, ⟨f, mem, _, _, _, _, isOpen⟩ | ⟨_, _, f, mem, _, _, _, _, isOpen⟩⟩ :=
      compliant h₁ e h₂ tid o answer split label submission test.2
    · rw [never f mem] at isOpen; cases isOpen
    · rw [never f mem] at isOpen; cases isOpen
  | _ => simp [label, submits] at test

end PatchManager
