import PatchManager.Conc.Exchange
import PatchManager.Engine.Keys
import PatchManager.Engine.Schedule
import PatchManager.Reports.Csv
import PatchManager.Text.Str
import PatchManager.Verified.Skeleton

/-! # The package counts of the patch history

The report looks for the packages of a job under a key of its selection.  What is stored is the list
itself, or an object that has no such key, so the report counts none.  The executor reads the list.

Main results:

* `printed_zero`: every record of a job prints no packages, whoever has created the job.
* `package_count_iff`: the count is the executor's for the jobs that name no packages, and for
  self-upgrades.
-/

namespace PatchManager

open PatchManager.Conc

variable {cfg : WorkerConfig} {s t : State} {h : List (Event World Op Op.Resp Fn)}
  {l : Label Op Op.Resp Fn} {tid : Nat} {f : Fn} {jobId : Uuid} {new : NewJob}

/-! ## What the executor reads -/

/-- `serde_json::from_value(patch_selection.clone()).unwrap_or_default()`. -/
def readPackages (patchSelection : Json) : List String := patchSelection.asStrings?.getD []

/-- The packages that are read are those that are sent, and all that are available for none. -/
theorem expandPackages_eq (hostId : Uuid) (patchSelection : Json) :
    expandPackages hostId patchSelection =
      if (readPackages patchSelection).isEmpty then
        (query (.availablePatches hostId)).bind fun answer =>
          match answer with
          | .ok (some val) => .ret (patchNames val)
          | .ok none => .ret []
          | .error _ => .ret []
      else .ret (readPackages patchSelection) := rfl

theorem readPackages_texts (packages : List String) :
    readPackages (.arr (packages.map .str)) = packages := by
  have read : (packages.map Json.str).mapM Json.asStr? = some packages := by
    induction packages with
    | nil => rfl
    | cons package packages ih => simp [Json.asStr?, ih]
  simp [readPackages, Json.asStrings?, Json.asArr?, read]

/-- The packages the executor reads for a job; it reads none for a self-upgrade. -/
def PatchJob.packagesRead (j : PatchJob) : Nat :=
  if j.kind = .selfUpgrade then 0 else (readPackages j.patchSelection).length

/-! ## What is stored -/

/-- The job an operation has inserted. -/
def Op.made? : (o : Op) → o.Resp → Option (NewJob × Uuid)
  | .sql (.insertJob new), .ok jobId => some (new, jobId)
  | .sql (.insertAutoJob new _), .ok (some jobId) => some (new, jobId)
  | _, _ => none

/-- A task that runs `f` has inserted the job. -/
def Made (h : List (Event World Op Op.Resp Fn)) (f : Fn) (jobId : Uuid) : Prop :=
  ∃ e ∈ h, ∃ tid o answer task new, e.label = .op tid o answer ∧ o.made? answer = some (new, jobId) ∧
    e.pre.tasks[tid]? = some task ∧ task.root = f

/-- The functions that create jobs for packages and versions: `create_job`, the pass that runs
    `auto_create_patch_jobs`, and the part of `trigger_upgrade` that writes. -/
def Fn.storesJobs : Fn → Bool
  | createJob _ _ | schedulerTick | insertUpgradeJobs _ _ _ _ _ => true
  | _ => false

/-- What such a function can insert. -/
def Fn.Stores : Fn → NewJob → Prop
  | createJob auth req, new => new = req.newJob auth.userId
  | schedulerTick, new => ∃ win, new = autoJob win
  | insertUpgradeJobs auth immediate window _ _, new =>
    ∃ version, new = upgradeJob auth immediate window version
  | _, _ => True

def Op.newJob? : Op → Option NewJob
  | .sql (.insertJob new) | .sql (.insertAutoJob new _) => some new
  | _ => none

theorem newJob_of_made {o : Op} {answer : o.Resp} (made : o.made? answer = some (new, jobId)) :
    o.newJob? = some new := by
  unfold Op.made? at made
  split at made <;> cases made <;> rfl

theorem follows_storesNone : Follows
    (fun {_} p => p.Within (fun o => ∀ new, o.newJob? = some new → f.Stores new) (fun _ => True)
      fun _ => False)
    (fun k => decide (k ≠ .insertJob ∧ k ≠ .insertAuto)) (fun _ => True) fun _ => False where
  toClosed := (closed_within _ _ _).mono
    (fun o kind new inserts => by
      obtain ⟨noJob, noAuto⟩ := of_decide_eq_true kind
      unfold Op.newJob? at inserts
      split at inserts
      · exact absurd rfl noJob
      · exact absurd rfl noAuto
      · cases inserts)
    (fun _ => id) fun _ => id
  other := rfl
  read := rfl

theorem writer_stores (writer : f.storesJobs = true) :
    (body cfg f).Within (fun o => ∀ new, o.newJob? = some new → f.Stores new) (fun _ => True)
      fun _ => False := by
  have C := follows_storesNone (f := f)
  cases f with
  | createJob auth req =>
    refine C.bind (createJob_follows C rfl auth req fun next rest => .op ?_ rest) fun _ => C.ret _
    rintro new ⟨⟩
    exact rfl
  | schedulerTick =>
    refine schedulerTick_follows C (fun win next rest => .op ?_ rest) fun _ => trivial
    rintro new ⟨⟩
    exact ⟨win, rfl⟩
  | insertUpgradeJobs auth immediate window groups skipped =>
    refine C.bind (insertUpgradeJobs_follows C rfl (fun version next rest => .op ?_ rest) groups skipped)
      fun _ => C.ret _
    rintro new ⟨⟩
    exact ⟨version, rfl⟩
  | _ => cases writer

/-- What is left of a writer inserts no other jobs. -/
theorem leaves_stores : (engine cfg).Leaves fun f p => f.storesJobs = true →
    p.Within (fun o => ∀ new, o.newJob? = some new → f.Stores new) (fun _ => True) fun _ => False where
  body _ := writer_stores
  ended _ _ := trivial
  op inside r writer := (inside writer).2 r
  spawn inside writer := (inside writer).2
  jump inside writer := (inside writer).elim

/-- The row of a job that has just been inserted. -/
theorem inserted_of_made {o : Op} {answer : o.Resp} (step : Step (engine cfg) s (.op tid o answer) t)
    (made : o.made? answer = some (new, jobId)) :
    ∃ j ∈ t.world.db.patchJobs, j.id = jobId ∧ j.kind = new.kind ∧ j.patchSelection = new.patchSelection := by
  obtain ⟨root, next, w, -, done, rfl⟩ := step.op_inv
  unfold Op.made? at made
  split at made
  · cases made
    obtain ⟨_, fails, -⟩ | ⟨result, db, ran, eq, rfl⟩ := done
    · cases fails
    · simp only [Stmt.run, Option.ite_none_right_eq_some] at ran
      cases eq
      cases ran.2
      exact ⟨new.row s.world.db.nextId s.world.db.now, by simp [Db.insertJob], rfl, rfl, rfl⟩
  · cases made
    obtain ⟨_, fails, -⟩ | ⟨result, db, ran, eq, rfl⟩ := done
    · cases fails
    · simp only [Stmt.run, Option.ite_none_right_eq_some] at ran
      cases eq
      cases ran.2
      exact ⟨new.row s.world.db.nextId s.world.db.now, by simp [Db.insertJobHost, Db.insertJob], rfl,
        rfl, rfl⟩
  · cases made

/-- A job stays what the writer has stored. -/
theorem stored_of_made (run : Run (engine cfg) s h t) (initial : Initial s) (writer : f.storesJobs = true)
    (made : Made h f jobId) : ∃ new j, f.Stores new ∧ t.world.db.job jobId = some j ∧
      j.kind = new.kind ∧ j.patchSelection = new.patchSelection := by
  obtain ⟨e, mem, tid, o, answer, task, new, label, inserts, at_, rfl⟩ := made
  obtain ⟨h₁, h₂, rfl⟩ := List.append_of_mem mem
  obtain ⟨before, step, after⟩ := run.split_event
  have keys := run_keys (before.snoc step) initial
  have left := before.leaves initial.tasks leaves_stores task (List.mem_of_getElem? at_) writer
  rw [label] at step
  obtain ⟨root, next, w, there, -⟩ := step.op_inv
  obtain rfl : task = ⟨root, .op o next⟩ := Option.some.inj (at_.symm.trans there)
  obtain ⟨j, inserted, rfl, kind, selection⟩ := inserted_of_made step inserts
  obtain ⟨j', found, kind', selection'⟩ := run_job_what after (keys.job_eq inserted)
  exact ⟨new, j', left.1 new (newJob_of_made inserts), found, kind'.trans kind, selection'.trans selection⟩

/-! ## What is printed -/

/-- No writer stores packages where the report looks for them. -/
theorem packages_of_stores (writer : f.storesJobs = true) (stores : f.Stores new) :
    new.patchSelection.get? "packages" = none := by
  cases f with
  | createJob auth req =>
    obtain rfl : new = req.newJob auth.userId := stores
    rfl
  | schedulerTick =>
    obtain ⟨win, rfl⟩ := stores
    rfl
  | insertUpgradeJobs =>
    obtain ⟨version, rfl⟩ := stores
    rfl
  | _ => cases writer

/-- The number of packages that the executor reads for the job of a writer. -/
def Fn.packages : Fn → List String
  | createJob _ req => if req.kind = some .selfUpgrade then [] else req.packages
  | _ => []

theorem packagesRead_of_stores {j : PatchJob} (writer : f.storesJobs = true) (stores : f.Stores new)
    (kind : j.kind = new.kind) (selection : j.patchSelection = new.patchSelection) :
    j.packagesRead = f.packages.length := by
  unfold PatchJob.packagesRead
  rw [kind, selection]
  cases f with
  | createJob auth req =>
    obtain rfl : new = req.newJob auth.userId := stores
    have upgrade : (req.newJob auth.userId).kind = .selfUpgrade ↔ req.kind = some .selfUpgrade := by
      cases own : req.kind <;> simp [CreateJobRequest.newJob, own]
    by_cases self : req.kind = some .selfUpgrade
    · simp [upgrade.mpr self, Fn.packages, self]
    · rw [if_neg (mt upgrade.mp self)]
      simp [Fn.packages, self, CreateJobRequest.newJob, readPackages_texts]
  | schedulerTick =>
    obtain ⟨win, rfl⟩ := stores
    rfl
  | insertUpgradeJobs =>
    obtain ⟨version, rfl⟩ := stores
    rfl
  | _ => cases writer

/-- A number that is read is the one in the column; the type may also be refused. -/
def ReadsNumbers (getI64 : Int → Option Int) : Prop := ∀ n m, getI64 n = some m → m = n

/-- The report has printed the record for a host of the job. -/
structure Printed (getI64 : Int → Option Int) (tables : ReportTables) (db : Db) (params : ReportParams)
    (jobId : Uuid) (record : List String) : Prop where
  mem : ∃ records, patchHistoryCsv getI64 tables db params = .ok (historyHeader :: records) ∧ record ∈ records
  job : record[0]? = some jobId.text

/-- The record prints the number of packages that the executor reads for the job. -/
def CountAgrees (db : Db) (jobId : Uuid) (record : List String) : Prop :=
  ∃ j, db.job jobId = some j ∧ record[5]? = some (toString j.packagesRead)

variable {getI64 : Int → Option Int} {tables : ReportTables} {params : ReportParams} {record : List String}

theorem historyRow_fields {r : PatchJobHost} {pj : PatchJob} {host : Host} {row : HistoryRow}
    (eq : historyRow tables r pj host = .ok row) :
    row.jobId = pj.id.text ∧ packageCount pj.patchSelection = .ok row.packageCount := by
  unfold historyRow at eq
  cases counted : packageCount pj.patchSelection with
  | error reason =>
    rw [counted] at eq
    cases eq
  | ok count =>
    rw [counted] at eq
    obtain rfl := Except.ok.inj eq
    exact ⟨rfl, rfl⟩

/-- No packages are counted where there are none under the key. -/
theorem zero_of_printed {db : Db} {j : PatchJob} (reads : ReadsNumbers getI64)
    (printed : Printed getI64 tables db params jobId record) (found : db.job jobId = some j)
    (none : j.patchSelection.get? "packages" = none) : record[5]? = some "0" := by
  obtain ⟨⟨records, csv, mem⟩, job⟩ := printed
  unfold patchHistoryCsv at csv
  split at csv
  · cases csv
  · rename_i rows queried
    cases csv
    obtain ⟨row, there, rfl⟩ := List.mem_map.mp mem
    obtain ⟨r, pj, host, -, parent, -, eq⟩ := mem_patchHistoryRows queried there
    obtain ⟨id, counted⟩ := historyRow_fields eq
    -- the record names the job by its text
    have own : pj.id = jobId := Uuid.text_injective (id.symm.trans (Option.some.inj job))
    have parent_id : pj.id = r.jobId := (Sql.lookup_some parent).2
    rw [← parent_id, own, found] at parent
    obtain rfl : j = pj := Option.some.inj parent
    rw [packageCount, none] at counted
    have nothing : row.packageCount = 0 := (Except.ok.inj counted).symm
    have read : (getI64 0).getD 0 = 0 := by
      cases value : getI64 0 with
      | none => rfl
      | some m => exact reads 0 m value
    change some (toString ((getI64 row.packageCount).getD 0)) = some "0"
    rw [nothing, read]
    rfl

/-- A record of a job prints no packages, whoever has created the job. -/
theorem printed_zero (reads : ReadsNumbers getI64) (run : Run (engine cfg) s h t) (initial : Initial s)
    (writer : f.storesJobs = true) (made : Made h f jobId)
    (printed : Printed getI64 tables t.world.db params jobId record) : record[5]? = some "0" := by
  obtain ⟨new, j, stores, found, -, selection⟩ := stored_of_made run initial writer made
  exact zero_of_printed reads printed found
    (selection ▸ packages_of_stores writer stores)

theorem toString_eq_zero {n : Nat} : "0" = toString n ↔ n = 0 := by
  constructor
  · intro same
    have digits : Nat.toDigits 10 0 = Nat.toDigits 10 n := String.ofList_injective same
    exact (Str.toDigits_injective digits).symm
  · rintro rfl
    rfl

/-- The package count of a record is that of the executor exactly for the jobs without packages. -/
theorem package_count_iff (reads : ReadsNumbers getI64) (run : Run (engine cfg) s h t) (initial : Initial s)
    (writer : f.storesJobs = true) (made : Made h f jobId)
    (printed : Printed getI64 tables t.world.db params jobId record) :
    CountAgrees t.world.db jobId record ↔ f.packages = [] := by
  have zero : record[5]? = some "0" := printed_zero reads run initial writer made printed
  obtain ⟨new, j, stores, found, kind, selection⟩ := stored_of_made run initial writer made
  have read : j.packagesRead = f.packages.length := packagesRead_of_stores writer stores kind selection
  have agrees : CountAgrees t.world.db jobId record ↔ "0" = toString f.packages.length := by
    simp [CountAgrees, found, zero, read]
  rw [agrees, toString_eq_zero, List.length_eq_zero_iff]

/-! ## A request for one host -/

namespace Small

def packagesRequest (packages : List String) : CreateJobRequest := { immediateJob with packages }

/-- Task 0 creates the job. -/
def requested (packages : List String) : List (Event World Op Op.Resp Fn) :=
  player.history start (.call (.createJob user (packagesRequest packages)) :: steps 0 3)

def requestedState (packages : List String) : State := Player.last start (requested packages)

def reportTables : ReportTables where
  displayName _ := "web"
  username _ := some "alice"

def requestedRow : HistoryRow where
  jobId := Uuid.text 1
  jobKind := "patch_apply"
  jobStatus := "queued"
  displayName := "web"
  fqdn := "web1"
  packageCount := 0
  startedAt := none
  completedAt := none
  durationSeconds := none
  operator := "alice"

def requestedRecord : List String :=
  [Uuid.text 1, "patch_apply", "queued", "web", "web1", "0", "", "", "0", "alice"]

theorem requested_run (packages : List String) :
    Run (engine config) start (requested packages) (requestedState packages) :=
  player.run_of_play rfl

theorem requested_made (packages : List String) :
    Made (requested packages) (.createJob user (packagesRequest packages)) 1 :=
  ⟨_, List.mem_of_getElem? (i := 1) rfl, 0, .sql (.insertJob ((packagesRequest packages).newJob 7)), .ok 1, _, _,
    rfl, rfl, rfl, rfl⟩

theorem requested_printed (packages : List String) :
    Printed some reportTables (requestedState packages).world.db {} 1 requestedRecord := by
  have rows : patchHistoryRows reportTables (requestedState packages).world.db {} = .ok [requestedRow] := by
    obtain ⟨r, pj, host, joined, row⟩ : ∃ r pj host,
        joinedHosts (requestedState packages).world.db {} = [(r, pj, host)] ∧
          historyRow reportTables r pj host = .ok requestedRow := ⟨_, _, _, rfl, rfl⟩
    rw [patchHistoryRows, joined, List.mergeSort_singleton, List.mapM_cons]
    simp only [row]
    rfl
  refine ⟨⟨[requestedRecord], ?_, List.mem_singleton_self _⟩, rfl⟩
  rw [patchHistoryCsv, rows]
  rfl

end Small

theorem package_count_iff_requested :
    CountAgrees (Small.requestedState []).world.db 1 Small.requestedRecord ↔
      (Fn.createJob Small.user (Small.packagesRequest [])).packages = [] :=
  package_count_iff (fun _ _ eq => (Option.some.inj eq).symm) (Small.requested_run []) Small.start_initial rfl
    (Small.requested_made []) (Small.requested_printed [])

/-- A job for one package is reported with none. -/
theorem package_not_counted :
    ¬ ∀ (getI64 : Int → Option Int) (tables : ReportTables) (params : ReportParams) (cfg : WorkerConfig)
        (s t : State) (h : List (Event World Op Op.Resp Fn)) (f : Fn) (jobId : Uuid) (record : List String),
      ReadsNumbers getI64 → Run (engine cfg) s h t → Initial s → f.storesJobs = true → Made h f jobId →
        Printed getI64 tables t.world.db params jobId record → CountAgrees t.world.db jobId record := by
  intro all
  obtain ⟨j, found, count⟩ := all some Small.reportTables {} _ _ _ _ _ 1 Small.requestedRecord
    (fun _ _ eq => (Option.some.inj eq).symm) (Small.requested_run ["curl"]) Small.start_initial rfl
    (Small.requested_made ["curl"]) (Small.requested_printed ["curl"])
  obtain rfl := Option.some.inj found
  exact absurd count (by decide)

end PatchManager
