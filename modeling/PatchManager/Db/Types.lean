import PatchManager.Calendar.Civil
import PatchManager.Sql.Table

/-! # The data the job engine works on

Rows of the tables the job engine reads and writes, with the columns it uses, and the
database as the collection of these tables.  Instants are microseconds since
1970-01-01 UTC, the resolution of `TIMESTAMPTZ`.
-/

namespace PatchManager

open PatchManager.Calendar

abbrev Uuid := Nat
abbrev Time := Int

def microsPerSecond : Int := 1000000
def microsPerMinute : Int := 60 * microsPerSecond
def microsPerDay : Int := 86400 * microsPerSecond

/-! ## Text of identifiers and instants in messages -/

def padLeft (width : Nat) (digits : List Char) : String :=
  String.ofList (List.replicate (width - digits.length) '0' ++ digits)

/-- The hyphenated lower-case form. -/
def Uuid.text (id : Uuid) : String :=
  let hex := (padLeft 32 (Nat.toDigits 16 id)).toList
  String.ofList (hex.take 8) ++ "-" ++ String.ofList ((hex.drop 8).take 4) ++ "-" ++
    String.ofList ((hex.drop 12).take 4) ++ "-" ++ String.ofList ((hex.drop 16).take 4) ++ "-" ++
    String.ofList (hex.drop 20)

def decimal (width : Nat) (n : Int) : String := padLeft width (Nat.toDigits 10 n.toNat)

/-- `DateTime<Utc>` as `Display` writes it; the fraction has 0, 3 or 6 digits. -/
def Time.text (t : Time) : String :=
  let date := civilOfDays (t / microsPerDay)
  let second := t % microsPerDay / microsPerSecond
  let micros := t % microsPerSecond
  let fraction :=
    if micros = 0 then "" else if micros % 1000 = 0 then "." ++ decimal 3 (micros / 1000)
    else "." ++ decimal 6 micros
  decimal 4 date.year ++ "-" ++ decimal 2 date.month ++ "-" ++ decimal 2 date.day ++ " " ++
    decimal 2 (second / 3600) ++ ":" ++ decimal 2 (second / 60 % 60) ++ ":" ++
    decimal 2 (second % 60) ++ fraction ++ " UTC"

/-! ## Identifiers are told apart by their text -/

/-- The value of a lower-case hexadecimal digit. -/
def hexValue (c : Char) : Nat := if c.isDigit then c.toNat - 48 else c.toNat - 87

theorem hexValue_digitChar {d : Nat} (digit : d < 16) : hexValue (Nat.digitChar d) = d := by
  have all : ∀ d < 16, hexValue (Nat.digitChar d) = d := by decide
  exact all d digit

def hexNat (digits : List Char) : Nat := digits.foldl (fun v c => 16 * v + hexValue c) 0

theorem hexNat_toDigits (n : Nat) : hexNat (Nat.toDigits 16 n) = n := by
  induction n using Nat.strongRecOn with
  | _ n ih =>
    rw [Nat.toDigits_eq_if (by decide)]
    split
    · rename_i digit
      simp [hexNat, hexValue_digitChar digit]
    · have quotient := ih (n / 16) (Nat.div_lt_self (by omega) (by decide))
      have value : hexNat (Nat.toDigits 16 (n / 16) ++ [Nat.digitChar (n % 16)]) =
          16 * hexNat (Nat.toDigits 16 (n / 16)) + hexValue (Nat.digitChar (n % 16)) := by
        simp [hexNat]
      rw [value, quotient, hexValue_digitChar (Nat.mod_lt n (by decide))]
      omega

/-- Leading zeros do not count. -/
theorem hexNat_padLeft (width : Nat) (digits : List Char) :
    hexNat (padLeft width digits).toList = hexNat digits := by
  have zeros : ∀ k, (List.replicate k '0').foldl (fun v c => 16 * v + hexValue c) 0 = 0 := by
    intro k
    induction k with
    | zero => rfl
    | succ k ih => simpa [List.replicate_succ, hexValue] using ih
  simp [padLeft, hexNat, List.foldl_append, zeros]

theorem le_length_padLeft (width : Nat) (digits : List Char) :
    width ≤ (padLeft width digits).toList.length := by
  simp [padLeft]
  omega

/-- A list from `k` on is known from its next `m` elements and what follows them. -/
theorem drop_eq_of_take {A : Type} {k m : Nat} {l l' : List A}
    (front : (l.drop k).take m = (l'.drop k).take m) (back : l.drop (k + m) = l'.drop (k + m)) :
    l.drop k = l'.drop k := by
  rw [← List.take_append_drop m (l.drop k), ← List.take_append_drop m (l'.drop k), front,
    List.drop_drop, List.drop_drop, back]

theorem Uuid.text_injective {id id' : Uuid} (same : Uuid.text id = Uuid.text id') : id = id' := by
  have long := le_length_padLeft 32 (Nat.toDigits 16 id)
  have long' := le_length_padLeft 32 (Nat.toDigits 16 id')
  have digits : (padLeft 32 (Nat.toDigits 16 id)).toList = (padLeft 32 (Nat.toDigits 16 id')).toList := by
    have chars := congrArg String.toList same
    simp only [Uuid.text, String.toList_append, String.toList_ofList, List.append_assoc] at chars
    generalize (padLeft 32 (Nat.toDigits 16 id)).toList = l at long chars ⊢
    generalize (padLeft 32 (Nat.toDigits 16 id')).toList = l' at long' chars ⊢
    obtain ⟨p₁, rest⟩ := List.append_inj chars (by simp; omega)
    obtain ⟨-, rest⟩ := List.append_inj rest rfl
    obtain ⟨p₂, rest⟩ := List.append_inj rest (by simp; omega)
    obtain ⟨-, rest⟩ := List.append_inj rest rfl
    obtain ⟨p₃, rest⟩ := List.append_inj rest (by simp; omega)
    obtain ⟨-, rest⟩ := List.append_inj rest rfl
    obtain ⟨p₄, rest⟩ := List.append_inj rest (by simp; omega)
    obtain ⟨-, p₅⟩ := List.append_inj rest rfl
    have from16 : l.drop 16 = l'.drop 16 := drop_eq_of_take p₄ p₅
    have from12 : l.drop 12 = l'.drop 12 := drop_eq_of_take p₃ from16
    have from8 : l.drop 8 = l'.drop 8 := drop_eq_of_take p₂ from12
    exact drop_eq_of_take (k := 0) p₁ from8
  rw [← hexNat_toDigits id, ← hexNat_padLeft 32, digits, hexNat_padLeft, hexNat_toDigits]

/-! ## JSON values -/

inductive Json where
  | null
  | bool (b : Bool)
  | num (n : Int)
  | str (s : String)
  | arr (items : List Json)
  | obj (fields : List (String × Json))

namespace Json

def get? (key : String) : Json → Option Json
  | .obj fields => (fields.find? fun field => field.1 == key).map Prod.snd
  | _ => none

def asStr? : Json → Option String
  | .str s => some s
  | _ => none

def asArr? : Json → Option (List Json)
  | .arr items => some items
  | _ => none

/-- `serde_json::from_value::<Vec<String>>`. -/
def asStrings? (v : Json) : Option (List String) := do (← v.asArr?).mapM asStr?

end Json

/-! ## Enumerations -/

/-- The SQL type `job_status`. -/
inductive JobStatus where
  | queued
  | pending
  | running
  | succeeded
  | failed
  | cancelled
  | waitingHealthCheck
deriving DecidableEq, Repr

/-- `'succeeded','failed','cancelled'`. -/
def JobStatus.isTerminal : JobStatus → Bool
  | .succeeded | .failed | .cancelled => true
  | _ => false

def JobStatus.text : JobStatus → String
  | .queued => "queued"
  | .pending => "pending"
  | .running => "running"
  | .succeeded => "succeeded"
  | .failed => "failed"
  | .cancelled => "cancelled"
  | .waitingHealthCheck => "waiting_health_check"

/-- The SQL type `job_kind`. -/
inductive JobKind where
  | patchApply
  | patchRemove
  | reboot
  | rollback
  | selfUpgrade
deriving DecidableEq, Repr

/-- The SQL type `window_recurrence`. -/
inductive WindowRecurrence where
  | once
  | daily
  | weekly
  | monthly
deriving DecidableEq, Repr

/-! ## Rows -/

/-- A row of `patch_jobs`. -/
structure PatchJob where
  id : Uuid
  kind : JobKind
  status : JobStatus := .queued
  createdByUserId : Option Uuid := none
  parentJobId : Option Uuid := none
  maintenanceWindowId : Option Uuid := none
  immediate : Bool := false
  patchSelection : Json := .arr []
  notes : String := ""
  createdAt : Time
  startedAt : Option Time := none
  completedAt : Option Time := none
  autoHostId : Option Uuid := none
  allowReboot : Bool := true
  rebootDelaySeconds : Int := 0

/-- A row of `patch_job_hosts`. -/
structure PatchJobHost where
  id : Uuid
  jobId : Uuid
  hostId : Uuid
  status : JobStatus := .queued
  agentJobId : Option String := none
  retryCount : Int := 0
  output : String := ""
  errorMessage : Option String := none
  retryNextAt : Option Time := none
  lastError : Option String := none
  startedAt : Option Time := none
  completedAt : Option Time := none

/-- A row of `hosts`. -/
structure Host where
  id : Uuid
  fqdn : String
  ipAddress : String
  agentPort : Int
  agentVersion : Option String := none
  rebootPaused : Bool := false
  packageDbClean : Bool := true

/-- A row of `maintenance_windows`. -/
structure MaintenanceWindow where
  id : Uuid
  hostId : Uuid
  recurrence : WindowRecurrence
  startAt : Time
  durationMinutes : Int := 60
  recurrenceDay : Option Int := none
  enabled : Bool := true
  autoApply : Bool := true
  autoReboot : Bool := true
  rebootDelayMinutes : Int := 0

/-- A row of `host_health_checks`. -/
structure HostHealthCheck where
  id : Uuid
  hostId : Uuid
  enabled : Bool := true

/-- A row of `host_health_check_results`. -/
structure HostHealthCheckResult where
  checkId : Uuid
  healthy : Bool
  checkedAt : Time

/-- A row of `host_patch_data`. -/
structure HostPatchData where
  hostId : Uuid
  availablePatches : Json
  patchCount : Int := 0
  polledAt : Time

/-- The database: the clock `NOW()` reads, the tables, and the `job_enqueued`
    notifications that have not been delivered yet. -/
structure Db where
  now : Time
  patchJobs : List PatchJob := []
  patchJobHosts : List PatchJobHost := []
  hosts : List Host := []
  maintenanceWindows : List MaintenanceWindow := []
  hostHealthChecks : List HostHealthCheck := []
  hostHealthCheckResults : List HostHealthCheckResult := []
  hostPatchData : List HostPatchData := []
  jobEnqueued : List Uuid := []
  /-- the next identifier `gen_random_uuid()` hands out -/
  nextId : Uuid := 1

namespace Db

/-- The `patch_jobs` row with this id. -/
def job (db : Db) (jobId : Uuid) : Option PatchJob := Sql.lookup PatchJob.id jobId db.patchJobs

/-- The `patch_job_hosts` row with this id. -/
def pjh (db : Db) (pjhId : Uuid) : Option PatchJobHost :=
  Sql.lookup PatchJobHost.id pjhId db.patchJobHosts

def host (db : Db) (hostId : Uuid) : Option Host := Sql.lookup Host.id hostId db.hosts

/-- The `patch_job_hosts` rows of a job. -/
def hostsOf (db : Db) (jobId : Uuid) : List PatchJobHost :=
  db.patchJobHosts.filter fun r => r.jobId == jobId

end Db

end PatchManager
