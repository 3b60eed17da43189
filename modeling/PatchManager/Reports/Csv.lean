import PatchManager.Web.Jobs

/-! # The patch history as CSV

`patch_history_csv` of `pm-reports`: one record for each host of each job, newest first.  The
records are the lists of fields that are given to `csv::Writer`.
-/

namespace PatchManager

structure ReportParams where
  from_ : Option Time := none
  to_ : Option Time := none

/-- What the report reads beside the tables of the engine. -/
structure ReportTables where
  /-- `hosts.display_name` -/
  displayName : Uuid → String
  /-- `users.username`, if there is such a user -/
  username : Uuid → Option String

/-! ## The query -/

/-- `jsonb_array_length`. -/
def Json.arrayLength : Json → Except String Int
  | .arr items => .ok items.length
  | .obj _ => .error "cannot get array length of a non-array"
  | _ => .error "cannot get array length of a scalar"

/-- `jsonb_array_length(COALESCE(pj.patch_selection->'packages', '[]'::jsonb))`. -/
def packageCount (patchSelection : Json) : Except String Int :=
  ((patchSelection.get? "packages").getD (.arr [])).arrayLength

/-- A number of seconds as `::bigint` rounds it, half away from zero. -/
def roundedSeconds (duration : Int) : Int :=
  if 0 ≤ duration then (duration + microsPerSecond / 2) / microsPerSecond
  else -((-duration + microsPerSecond / 2) / microsPerSecond)

/-- `EXTRACT(EPOCH FROM (pjh.completed_at - pjh.started_at))::bigint`. -/
def PatchJobHost.durationSeconds (r : PatchJobHost) : Option Int := do
  return roundedSeconds ((← r.completedAt) - (← r.startedAt))

structure HistoryRow where
  jobId : String
  jobKind : String
  jobStatus : String
  displayName : String
  fqdn : String
  packageCount : Int
  startedAt : Option Time
  completedAt : Option Time
  durationSeconds : Option Int
  operator : String

/-- The row for one host of a job. -/
def historyRow (tables : ReportTables) (r : PatchJobHost) (pj : PatchJob) (h : Host) :
    Except String HistoryRow := do
  let packageCount ← packageCount pj.patchSelection
  return {
    jobId := pj.id.text
    jobKind := pj.kind.text
    jobStatus := pj.status.text
    displayName := tables.displayName h.id
    fqdn := h.fqdn
    packageCount
    startedAt := r.startedAt
    completedAt := r.completedAt
    durationSeconds := r.durationSeconds
    operator := (pj.createdByUserId.bind tables.username).getD "system" }

/-- The `WHERE` clause; a row that has not started is outside every limit. -/
def ReportParams.covers (params : ReportParams) (r : PatchJobHost) : Bool :=
  (params.from_.all fun limit => r.startedAt.any fun started => limit ≤ started) &&
    params.to_.all fun limit => r.startedAt.any fun started => started ≤ limit

/-- `ORDER BY pjh.started_at DESC`, where rows without it come first. -/
def startedLater (a b : PatchJobHost × PatchJob × Host) : Bool :=
  match a.1.startedAt, b.1.startedAt with
  | none, _ => true
  | some _, none => false
  | some started, some started' => started' ≤ started

/-- `patch_job_hosts pjh JOIN patch_jobs pj JOIN hosts h`, as far as the limits cover it. -/
def joinedHosts (db : Db) (params : ReportParams) : List (PatchJobHost × PatchJob × Host) :=
  db.patchJobHosts.filterMap fun r => do
    guard (params.covers r)
    return (r, ← db.job r.jobId, ← db.host r.hostId)

def patchHistoryRows (tables : ReportTables) (db : Db) (params : ReportParams) :
    Except String (List HistoryRow) :=
  ((joinedHosts db params).mergeSort startedLater).mapM fun (r, pj, h) => historyRow tables r pj h

/-- A row of the report is one of a host that has been joined. -/
theorem mem_patchHistoryRows {tables : ReportTables} {db : Db} {params : ReportParams}
    {rows : List HistoryRow} {row : HistoryRow} (found : patchHistoryRows tables db params = .ok rows)
    (mem : row ∈ rows) : ∃ r pj h, r ∈ db.patchJobHosts ∧ db.job r.jobId = some pj ∧
      db.host r.hostId = some h ∧ historyRow tables r pj h = .ok row := by
  obtain ⟨⟨r, pj, h⟩, joined, eq⟩ := Sql.mem_of_mapM_ok found mem
  obtain ⟨r', there, found⟩ := List.mem_filterMap.mp (List.mem_mergeSort.mp joined)
  simp only [bind, Option.bind_eq_some_iff, pure, Option.some.injEq, Prod.mk.injEq] at found
  obtain ⟨-, -, pj', job, h', host, rfl, rfl, rfl⟩ := found
  exact ⟨r', pj', h', there, job, host, eq⟩

/-! ## The records -/

/-- `DateTime<Utc>::to_rfc3339`; the fraction has 0, 3 or 6 digits. -/
def Time.toRfc3339 (t : Time) : String :=
  let date := Calendar.civilOfDays (t / microsPerDay)
  let second := t % microsPerDay / microsPerSecond
  let micros := t % microsPerSecond
  let year :=
    if 0 ≤ date.year ∧ date.year ≤ 9999 then decimal 4 date.year
    else (if date.year < 0 then "-" else "+") ++ decimal 4 date.year.natAbs
  let fraction :=
    if micros = 0 then "" else if micros % 1000 = 0 then "." ++ decimal 3 (micros / 1000)
    else "." ++ decimal 6 micros
  year ++ "-" ++ decimal 2 date.month ++ "-" ++ decimal 2 date.day ++ "T" ++
    decimal 2 (second / 3600) ++ ":" ++ decimal 2 (second / 60 % 60) ++ ":" ++
    decimal 2 (second % 60) ++ fraction ++ "+00:00"

def historyHeader : List String :=
  ["job_id", "job_kind", "job_status", "host_display_name", "host_fqdn", "package_count",
    "started_at", "completed_at", "duration_seconds", "operator"]

variable (getI64 : Int → Option Int)

/-- The fields of a row.  `jsonb_array_length` is an `INT4`; `getI64` is what `try_get::<i64>` makes
    of it. -/
def HistoryRow.record (row : HistoryRow) : List String :=
  [row.jobId, row.jobKind, row.jobStatus, row.displayName, row.fqdn,
    toString ((getI64 row.packageCount).getD 0), (row.startedAt.map Time.toRfc3339).getD "",
    (row.completedAt.map Time.toRfc3339).getD "", toString (row.durationSeconds.getD 0), row.operator]

def patchHistoryCsv (tables : ReportTables) (db : Db) (params : ReportParams) :
    Except String (List (List String)) :=
  match patchHistoryRows tables db params with
  | .error _ => .error "patch history query failed"
  | .ok rows => .ok (historyHeader :: rows.map (HistoryRow.record getI64))

end PatchManager
