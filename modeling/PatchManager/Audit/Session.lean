import PatchManager.Audit.Log
import PatchManager.Conc.Schedule
import Mathlib.Data.List.Sort

/-! # The audit log statement by statement

`write_audit_row` and `repair_integrity` of `audit.rs` as transactions.  Their statements
interleave with those of other sessions: each sees what has been committed and what its own
transaction has written.  A statement that fails aborts its transaction; a transaction may be
rolled back at any point.  The advisory lock is given to one transaction at a time and is
released when that one commits, aborts or is rolled back.
-/

namespace PatchManager.Audit

open PatchManager.Conc

variable {c : AuditCodec}

/-! ## Transactions -/

/-- What a transaction has written. -/
inductive Write (c : AuditCodec) where
  | insert (row : AuditLogRow c)
  | updateHashes (prevHash rowHash : String) (id : Nat)

/-- The table, in the order of its ids, with the write in it. -/
def Write.apply : Write c → List (AuditLogRow c) → List (AuditLogRow c)
  | .insert row, rows => rows.orderedInsert (fun a b => a.id ≤ b.id) row
  | .updateHashes prevHash rowHash id, rows =>
    rows.map fun row => if row.id = id then { row with prevHash, rowHash } else row

inductive TxStatus where
  | active
  /-- a statement has failed -/
  | aborted
  /-- committed or rolled back -/
  | closed
deriving DecidableEq

structure Tx (c : AuditCodec) where
  status : TxStatus
  writes : List (Write c)

structure World (c : AuditCodec) where
  /-- what has been committed -/
  db : AuditDb c
  /-- the transactions begun so far, by their number -/
  txs : List (Tx c)
  /-- the transaction that has `pg_advisory_xact_lock(42)` -/
  lockHolder : Option Nat

namespace World

def status (w : World c) (tx : Nat) : Option TxStatus := (w.txs[tx]?).map Tx.status

def writes (w : World c) (tx : Nat) : List (Write c) := ((w.txs[tx]?).map Tx.writes).getD []

/-- The table as the transaction sees it. -/
def view (w : World c) (tx : Nat) : List (AuditLogRow c) :=
  (w.writes tx).foldl (fun rows write => write.apply rows) w.db.auditLog

def begin (w : World c) : World c := { w with txs := w.txs ++ [⟨.active, []⟩] }

/-- Not before the lock is free. -/
def lock (w : World c) (tx : Nat) : Option (World c) :=
  if w.status tx = some .active ∧ (w.lockHolder = none ∨ w.lockHolder = some tx) then
    some { w with lockHolder := some tx }
  else none

def write (w : World c) (tx : Nat) (write : Write c) : Option (World c) :=
  if w.status tx = some .active then
    some { w with txs := w.txs.modify tx fun t => { t with writes := t.writes ++ [write] } }
  else none

/-- The row gets the next id; its actor has to be a user. -/
def insert (w : World c) (tx : Nat) (row : Nat → AuditLogRow c) : Option (World c) :=
  if (row w.db.nextId).actorUserId.all (w.db.users.contains ·) then
    { w with db := { w.db with nextId := w.db.nextId + 1 } }.write tx (.insert (row w.db.nextId))
  else none

/-- The end of a transaction, its writes dropped and its lock released. -/
def finish (w : World c) (tx : Nat) (status : TxStatus) : World c :=
  { w with txs := w.txs.set tx ⟨status, []⟩
           lockHolder := if w.lockHolder = some tx then none else w.lockHolder }

def abort (w : World c) (tx : Nat) : World c :=
  if w.status tx = some .active then w.finish tx .aborted else w

/-- A transaction that has been aborted has nothing to commit, and that is no error. -/
def commit (w : World c) (tx : Nat) : Option (World c) :=
  if w.status tx = some .active ∨ w.status tx = some .aborted then
    some { w.finish tx .closed with db := { w.db with auditLog := w.view tx } }
  else none

end World

/-! ## Statements -/

inductive Op (c : AuditCodec) where
  | utcNow
  | begin
  /-- `SELECT pg_advisory_xact_lock(42)` -/
  | lock (tx : Nat)
  /-- `SELECT row_hash FROM audit_log ORDER BY id DESC LIMIT 1` -/
  | selectLastHash (tx : Nat)
  /-- `INSERT`, the row under the id that the database gives it -/
  | insertRow (tx : Nat) (row : Nat → AuditLogRow c)
  /-- the rows in the order of their ids, outside of any transaction where there is no `tx` -/
  | selectRows (tx : Option Nat)
  | updateHashes (tx : Nat) (prevHash rowHash : String) (id : Nat)
  | commit (tx : Nat)

@[reducible] def Op.Resp : Op c → Type
  | .utcNow => Time
  | .begin => Except String Nat
  | .lock _ | .insertRow _ _ | .updateHashes _ _ _ _ | .commit _ => Except String Unit
  | .selectLastHash _ => Except String (Option String)
  | .selectRows _ => Except String (List (AuditRow c))

inductive Answer where
  | done
  | failed (reason : String)
  /-- carried out, but the answer does not arrive -/
  | lost (reason : String)
  | clock (now : Time)

def execute (w : World c) : (o : Op c) → Answer → Option (o.Resp × World c)
  | .utcNow, .clock now => some (now, w)
  | .begin, .done => some (.ok w.txs.length, w.begin)
  | .begin, .failed reason => some (.error reason, w)
  | .begin, .lost reason => some (.error reason, w.begin)
  | .lock tx, .done => (w.lock tx).map (.ok (), ·)
  | .lock tx, .failed reason => some (.error reason, w.abort tx)
  | .lock tx, .lost reason => (w.lock tx).map (.error reason, ·)
  | .selectLastHash tx, .done =>
    if w.status tx = some .active then
      some (.ok ((w.view tx).getLast?.map AuditLogRow.rowHash), w)
    else none
  | .selectLastHash tx, .failed reason => some (.error reason, w.abort tx)
  | .selectLastHash _, .lost reason => some (.error reason, w)
  | .insertRow tx row, .done => (w.insert tx row).map (.ok (), ·)
  | .insertRow tx _, .failed reason => some (.error reason, w.abort tx)
  | .insertRow tx row, .lost reason => (w.insert tx row).map (.error reason, ·)
  | .selectRows none, .done => some (.ok (w.db.auditLog.map AuditLogRow.read), w)
  | .selectRows none, .failed reason => some (.error reason, w)
  | .selectRows (some tx), .done =>
    if w.status tx = some .active then some (.ok ((w.view tx).map AuditLogRow.read), w) else none
  | .selectRows (some tx), .failed reason => some (.error reason, w.abort tx)
  | .selectRows (some _), .lost reason => some (.error reason, w)
  | .updateHashes tx prevHash rowHash id, .done =>
    (w.write tx (.updateHashes prevHash rowHash id)).map (.ok (), ·)
  | .updateHashes tx _ _ _, .failed reason => some (.error reason, w.abort tx)
  | .updateHashes tx prevHash rowHash id, .lost reason =>
    (w.write tx (.updateHashes prevHash rowHash id)).map (.error reason, ·)
  | .commit tx, .done => (w.commit tx).map (.ok (), ·)
  | .commit tx, .failed reason => some (.error reason, w.finish tx .closed)
  | .commit tx, .lost reason => (w.commit tx).map (.error reason, ·)
  | _, _ => none

/-- What happens besides these statements. -/
inductive Change where
  /-- a connection is lost, or what held the transaction is dropped -/
  | rollback (tx : Nat)
  /-- ids given to rows that are never committed -/
  | skipIds (n : Nat)
  | createUser (id : Uuid)
  | deleteUser (id : Uuid)

/-- The transaction is about to insert a row with this actor. -/
def Write.refersTo (id : Uuid) : Write c → Bool
  | .insert row => row.actorUserId == some id
  | .updateHashes _ _ _ => false

def change (w : World c) : Change → World c
  | .rollback tx => w.finish tx .closed
  | .skipIds n => { w with db := { w.db with nextId := w.db.nextId + n } }
  | .createUser id => { w with db := { w.db with users := id :: w.db.users } }
  -- an insert that refers to the user keeps the row of the user locked
  | .deleteUser id =>
    if w.txs.any fun t => t.writes.any (Write.refersTo id) then w
    else { w with db := { w.db with users := w.db.users.filter (· ≠ id)
                                    auditLog := w.db.auditLog.map (AuditLogRow.withoutActor id) } }

/-! ## Programs -/

inductive Fn (c : AuditCodec) where
  | logEvent (call : AuditCall c)
  | repairIntegrity

abbrev Prog (c : AuditCodec) := Conc.Prog (Op c) Op.Resp (Fn c)

def perform (o : Op c) : Prog c o.Resp := Conc.Prog.perform o

def writeAuditRow (call : AuditCall c) : Prog c (Except String Unit) := do
  match ← perform .begin with
  | .error e => return .error e
  | .ok tx =>
    match ← perform (.lock tx) with
    | .error e => return .error e
    | .ok () =>
      match ← perform (.selectLastHash tx) with
      | .error e => return .error e
      | .ok prevHash =>
        let prev := prevHash.getD ""
        let now ← perform .utcNow
        match ← perform (.insertRow tx (call.row prev now)) with
        | .error e => return .error e
        | .ok () => perform (.commit tx)

/-- Errors are logged and go no further. -/
def logEvent (call : AuditCall c) : Prog c Unit := do
  let _ ← writeAuditRow call
  return

structure RepairResult where
  intact : Bool
  rowsChecked : Nat
  prevHashFixed : Nat
  rowHashFixed : Nat
  remainingErrors : List IntegrityError
deriving DecidableEq

/-- The answer of a repair that has not come to the rows. -/
def RepairResult.failed : RepairResult :=
  { intact := false, rowsChecked := 0, prevHashFixed := 0, rowHashFixed := 0, remainingErrors := [] }

/-- The loop over the rows, with the two counts. -/
def repairLoop (tx : Nat) : String → Nat → Nat → List (AuditRow c) → Prog c (Nat × Nat)
  | _, prevHashFixed, rowHashFixed, [] => return (prevHashFixed, rowHashFixed)
  | expectedPrevHash, prevHashFixed, rowHashFixed, row :: rest => do
    let prevHashFixed := if row.prevHash ≠ expectedPrevHash then prevHashFixed + 1 else prevHashFixed
    let computedHash := row.computedHash expectedPrevHash
    let rowHashFixed := if row.rowHash ≠ computedHash then rowHashFixed + 1 else rowHashFixed
    -- whether the update succeeds is not looked at
    let _ ← perform (.updateHashes tx expectedPrevHash computedHash row.id)
    repairLoop tx computedHash prevHashFixed rowHashFixed rest

def repairIntegrity : Prog c RepairResult := do
  match ← perform .begin with
  | .error _ => return .failed
  | .ok tx =>
    match ← perform (.lock tx) with
    | .error _ => return .failed
    | .ok () =>
      match ← perform (.selectRows (some tx)) with
      | .error _ => return .failed
      | .ok rows =>
        let (prevHashFixed, rowHashFixed) ← repairLoop tx "" 0 0 rows
        match ← perform (.commit tx) with
        | .error _ =>
          return { intact := false, rowsChecked := rows.length, prevHashFixed, rowHashFixed,
                   remainingErrors := [] }
        | .ok () =>
          let verify := verifyIntegrity (← perform (.selectRows none))
          return { intact := verify.intact, rowsChecked := verify.rowsChecked, prevHashFixed,
                   rowHashFixed, remainingErrors := verify.errors }

def body : Fn c → Prog c Unit
  | .logEvent call => logEvent call
  | .repairIntegrity => do
    let _ ← repairIntegrity
    return

/-- A restart ends the calls and leaves their transactions to be rolled back. -/
def auditLog (c : AuditCodec) : Service (World c) (Op c) Op.Resp (Fn c) where
  body := body
  Answer := Answer
  Change := Change
  execute := execute
  change := change
  isEntry _ := true
  restart w := w
  perishes _ := true

end PatchManager.Audit
