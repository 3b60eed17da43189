import PatchManager.Audit.Action
import PatchManager.Chain.Linked
import PatchManager.Db.Types

/-! # The audit log

`write_audit_row`, `verify_integrity` and `repair_integrity` of `audit.rs` over the table
`audit_log`, and what else the application does to that table: deleting a user sets the
actor of the user's rows to NULL.

What the log uses of its libraries and of the database's column types is a parameter,
`AuditCodec`.  A transaction that appends or repairs holds the advisory lock from its first
statement on, so each is one step here.
-/

namespace PatchManager

open PatchManager.Chain

/-- The texts of values as the libraries write them, and the values as the database gives
    them back. -/
structure AuditCodec where
  Details : Type
  /-- `serde_json::to_string` -/
  detailsText : Details → String
  /-- what a value reads as once it has been stored as JSONB -/
  readDetails : Details → Details
  Ip : Type
  /-- `IpAddr::to_string` -/
  ipText : Ip → String
  /-- `host(ip_address)` of an address stored as INET -/
  hostText : Ip → String
  /-- the SHA-256 digest of the bytes of a text, in hexadecimal -/
  sha256 : String → String

/-- `to_rfc3339_opts(SecondsFormat::Micros, true)`. -/
def Time.rfc3339 (t : Time) : String :=
  let date := Calendar.civilOfDays (t / microsPerDay)
  let second := t % microsPerDay / microsPerSecond
  let year :=
    if 0 ≤ date.year ∧ date.year ≤ 9999 then decimal 4 date.year
    else (if date.year < 0 then "-" else "+") ++ decimal 4 date.year.natAbs
  year ++ "-" ++ decimal 2 date.month ++ "-" ++ decimal 2 date.day ++ "T" ++
    decimal 2 (second / 3600) ++ ":" ++ decimal 2 (second / 60 % 60) ++ ":" ++
    decimal 2 (second % 60) ++ "." ++ decimal 6 (t % microsPerSecond) ++ "Z"

variable {c : AuditCodec}

/-- A row of `audit_log`. -/
structure AuditLogRow (c : AuditCodec) where
  id : Nat
  action : AuditAction
  actorUserId : Option Uuid
  actorUsername : Option String
  targetType : Option String
  targetId : Option String
  details : c.Details
  ipAddress : Option c.Ip
  requestId : Option String
  createdAt : Time
  rowHash : String
  prevHash : String

/-- A row as `verify_integrity` reads it. -/
structure AuditRow (c : AuditCodec) where
  id : Nat
  action : String
  actorUserId : Option Uuid
  actorUsername : Option String
  targetType : Option String
  targetId : Option String
  details : Option c.Details
  ipAddress : Option String
  requestId : Option String
  createdAt : Option Time
  rowHash : String
  prevHash : String

def AuditLogRow.read (row : AuditLogRow c) : AuditRow c where
  id := row.id
  action := row.action.asStr
  actorUserId := row.actorUserId
  actorUsername := row.actorUsername
  targetType := row.targetType
  targetId := row.targetId
  details := some (c.readDetails row.details)
  ipAddress := row.ipAddress.map c.hostText
  requestId := row.requestId
  createdAt := some row.createdAt
  rowHash := row.rowHash
  prevHash := row.prevHash

/-- The bytes that are hashed, fed to the hasher one field after the other. -/
def hashInput (prev action uid uname ttype tid details ip rid created : String) : String :=
  prev ++ action ++ uid ++ uname ++ ttype ++ tid ++ details ++ ip ++ rid ++ created

/-! ## Verification -/

structure IntegrityError where
  rowId : Nat
  expectedHash : String
  actualHash : String
deriving DecidableEq, Repr

structure IntegrityResult where
  intact : Bool
  rowsChecked : Nat
  errors : List IntegrityError
deriving DecidableEq, Repr

/-- The row's hash recomputed after `prev`. -/
def AuditRow.computedHash (row : AuditRow c) (prev : String) : String :=
  c.sha256 (hashInput prev row.action ((row.actorUserId.map Uuid.text).getD "")
    (row.actorUsername.getD "") (row.targetType.getD "") (row.targetId.getD "")
    ((row.details.map c.detailsText).getD "") (row.ipAddress.getD "") (row.requestId.getD "")
    ((row.createdAt.map Time.rfc3339).getD ""))

/-- The loop over the rows. -/
def integrityErrors : String → List (AuditRow c) → List IntegrityError
  | _, [] => []
  | expectedPrevHash, row :: rest =>
    let computedHash := row.computedHash row.prevHash
    (if row.prevHash ≠ expectedPrevHash then [⟨row.id, expectedPrevHash, row.prevHash⟩] else []) ++
    (if row.rowHash ≠ computedHash then [⟨row.id, computedHash, row.rowHash⟩] else []) ++
    integrityErrors row.rowHash rest

def verifyIntegrity : Except String (List (AuditRow c)) → IntegrityResult
  | .error _ => { intact := false, rowsChecked := 0, errors := [] }
  | .ok rows =>
    let errors := integrityErrors "" rows
    { intact := errors.isEmpty, rowsChecked := rows.length, errors }

/-! ## Writing -/

/-- The arguments of `log_event`. -/
structure AuditCall (c : AuditCodec) where
  action : AuditAction
  actorUserId : Option Uuid
  actorUsername : Option String
  targetType : Option String
  targetId : Option String
  details : c.Details
  ipAddress : Option c.Ip
  requestId : Option String

/-- The tables the audit log depends on, `audit_log` in the order of its ids. -/
structure AuditDb (c : AuditCodec) where
  users : List Uuid
  auditLog : List (AuditLogRow c)
  /-- the next value of the sequence of `id` -/
  nextId : Nat

/-- `SELECT row_hash FROM audit_log ORDER BY id DESC LIMIT 1`, empty without rows. -/
def AuditDb.prevHash (db : AuditDb c) : String :=
  (db.auditLog.getLast?.map AuditLogRow.rowHash).getD ""

/-- The row `write_audit_row` inserts. -/
def AuditCall.row (call : AuditCall c) (prev : String) (now : Time) (id : Nat) : AuditLogRow c where
  id := id
  action := call.action
  actorUserId := call.actorUserId
  actorUsername := call.actorUsername
  targetType := call.targetType
  targetId := call.targetId
  details := call.details
  ipAddress := call.ipAddress
  requestId := call.requestId
  createdAt := now
  rowHash := c.sha256 (hashInput prev call.action.asStr ((call.actorUserId.map Uuid.text).getD "")
    (call.actorUsername.getD "") (call.targetType.getD "") (call.targetId.getD "")
    (c.detailsText call.details) ((call.ipAddress.map c.ipText).getD "") (call.requestId.getD "")
    now.rfc3339)
  prevHash := prev

/-- The row with the hashes `repair_integrity` gives it after `expectedPrevHash`. -/
def AuditLogRow.repaired (expectedPrevHash : String) (row : AuditLogRow c) : AuditLogRow c :=
  { row with prevHash := expectedPrevHash, rowHash := row.read.computedHash expectedPrevHash }

/-- The loop of `repair_integrity`. -/
def repairRows : String → List (AuditLogRow c) → List (AuditLogRow c)
  | _, [] => []
  | expectedPrevHash, row :: rest =>
    row.repaired expectedPrevHash :: repairRows (row.repaired expectedPrevHash).rowHash rest

/-- `ON DELETE SET NULL` of `actor_user_id`. -/
def AuditLogRow.withoutActor (id : Uuid) (row : AuditLogRow c) : AuditLogRow c :=
  if row.actorUserId = some id then { row with actorUserId := none } else row

/-- What the application does to `audit_log` and to the users its rows refer to. -/
inductive AuditOp (c : AuditCodec) where
  /-- `log_event`, at this time -/
  | logEvent (call : AuditCall c) (now : Time)
  | createUser (id : Uuid)
  | deleteUser (id : Uuid)
  | repairIntegrity

/-- The tables after an operation all of whose statements succeed, `none` where a foreign
    key refuses it. -/
def AuditOp.run (db : AuditDb c) : AuditOp c → Option (AuditDb c)
  | logEvent call now =>
    if call.actorUserId.all (db.users.contains ·) then
      some { db with auditLog := db.auditLog ++ [call.row db.prevHash now db.nextId]
                     nextId := db.nextId + 1 }
    else none
  | createUser id => some { db with users := id :: db.users }
  | deleteUser id =>
    some { db with users := db.users.filter (· ≠ id)
                   auditLog := db.auditLog.map (AuditLogRow.withoutActor id) }
  | repairIntegrity => some { db with auditLog := repairRows "" db.auditLog }

/-- `AuditRun db h db'`: the operations `h`, oldest first, each with the tables before it,
    lead from `db` to `db'`.  An operation that fails is rolled back and leaves no trace. -/
inductive AuditRun (db : AuditDb c) : List (AuditDb c × AuditOp c) → AuditDb c → Prop
  | nil : AuditRun db [] db
  | snoc {h : List (AuditDb c × AuditOp c)} {db₁ db₂ : AuditDb c} {op : AuditOp c}
      (run : AuditRun db h db₁) (ran : op.run db₁ = some db₂) : AuditRun db (h ++ [(db₁, op)]) db₂

end PatchManager
