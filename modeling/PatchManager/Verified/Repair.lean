import PatchManager.Audit.Session
import PatchManager.Verified.AuditChain

/-! # Repairing the audit chain

`repair_integrity` run with no other session in between and no statement failing: whatever
hashes the log has, it ends with an intact chain, nothing but hashes has changed, and no hash
of a part at the front that was intact.  A second repair finds nothing to do.

Main results:

* `repairIntegrity_alone`: what the statements of a repair come to.
* `repair_restores_integrity`: the claims above.
-/

namespace PatchManager.Audit

open PatchManager.Conc
open PatchManager.Chain

variable {c : AuditCodec} {w : World c} {tx : Nat}

/-- `repair_integrity` with every statement carried out and nothing in between. -/
def repairAlone (w : World c) : Option (RepairResult × World c) :=
  (auditLog c).player.aloneBy (fun _ => .done) w repairIntegrity

theorem alone_op {α : Type} {w' : World c} {o : Op c} {r : o.Resp}
    {next : o.Resp → Conc.Prog (Op c) Op.Resp (Fn c) α} (executed : execute w o .done = some (r, w')) :
    (auditLog c).player.aloneBy (fun _ => .done) w (.op o next) =
      (auditLog c).player.aloneBy (fun _ => .done) w' (next r) :=
  (auditLog c).player.aloneBy_op executed

theorem alone_bind {α β : Type} {w' : World c} {a : α} {p : Conc.Prog (Op c) Op.Resp (Fn c) α}
    {rest : α → Conc.Prog (Op c) Op.Resp (Fn c) β}
    (first : (auditLog c).player.aloneBy (fun _ => .done) w p = some (a, w')) :
    (auditLog c).player.aloneBy (fun _ => .done) w (p.bind rest) =
      (auditLog c).player.aloneBy (fun _ => .done) w' (rest a) :=
  ((auditLog c).player.aloneBy_bind p rest).trans (by rw [first, Option.bind_some])

/-! ## The loop -/

/-- The updates of the loop. -/
def updates : String → List (AuditRow c) → List (Write c)
  | _, [] => []
  | expectedPrevHash, row :: rest =>
    let computedHash := row.computedHash expectedPrevHash
    .updateHashes expectedPrevHash computedHash row.id :: updates computedHash rest

/-- The counts of the loop. -/
def fixes : String → List (AuditRow c) → Nat × Nat
  | _, [] => (0, 0)
  | expectedPrevHash, row :: rest =>
    let computedHash := row.computedHash expectedPrevHash
    ((if row.prevHash ≠ expectedPrevHash then 1 else 0) + (fixes computedHash rest).1,
      (if row.rowHash ≠ computedHash then 1 else 0) + (fixes computedHash rest).2)

namespace World

/-- Several writes of one transaction. -/
def writeAll (w : World c) (tx : Nat) (writes : List (Write c)) : World c :=
  { w with txs := w.txs.modify tx fun t => { t with writes := t.writes ++ writes } }

@[simp] theorem writeAll_nil : w.writeAll tx [] = w := by
  have same : (fun t : Tx c => { t with writes := t.writes ++ [] }) = id := by
    funext t
    simp
  unfold writeAll
  rw [same, List.modify_id]

theorem write_eq_writeAll {write : Write c} (active : w.status tx = some .active) :
    w.write tx write = some (w.writeAll tx [write]) := if_pos active

@[simp] theorem writeAll_writeAll {first second : List (Write c)} :
    (w.writeAll tx first).writeAll tx second = w.writeAll tx (first ++ second) := by
  simp [writeAll, List.modify_modify_eq, Function.comp_def]

@[simp] theorem status_writeAll {writes : List (Write c)} : (w.writeAll tx writes).status tx = w.status tx := by
  simp [writeAll, status, Option.map_map, Function.comp_def]

end World

theorem aloneBy_repairLoop {expectedPrevHash : String} {p r : Nat} {rows : List (AuditRow c)}
    (active : w.status tx = some .active) :
    (auditLog c).player.aloneBy (fun _ => .done) w (repairLoop tx expectedPrevHash p r rows) =
      some ((p + (fixes expectedPrevHash rows).1, r + (fixes expectedPrevHash rows).2),
        w.writeAll tx (updates expectedPrevHash rows)) := by
  induction rows generalizing expectedPrevHash p r w with
  | nil => simp [repairLoop, updates, fixes, Player.aloneBy]
  | cons row rest ih =>
    have first : execute w (.updateHashes tx expectedPrevHash (row.computedHash expectedPrevHash) row.id)
        .done = some (.ok (), w.writeAll tx [.updateHashes expectedPrevHash
          (row.computedHash expectedPrevHash) row.id]) := by
      simp only [execute, World.write_eq_writeAll active, Option.map_some]
    have counted : ∀ (P : Prop) [Decidable P] (n m : Nat),
        (if P then n + 1 else n) + m = n + ((if P then 1 else 0) + m) := by
      intro P _ n m
      split <;> omega
    calc (auditLog c).player.aloneBy (fun _ => .done) w (repairLoop tx expectedPrevHash p r (row :: rest))
        = _ := alone_op first
      _ = _ := ih (by rwa [World.status_writeAll])
      _ = _ := by
        simp only [updates, fixes, World.writeAll_writeAll, List.singleton_append]
        rw [counted _ p, counted _ r]

/-! ## The rows -/

/-- An update of the hashes of one row. -/
theorem apply_updateHashes {before after : List (AuditLogRow c)} {row : AuditLogRow c}
    {prevHash rowHash : String} (nodup : ((before ++ row :: after).map AuditLogRow.id).Nodup) :
    (Write.updateHashes prevHash rowHash row.id).apply (before ++ row :: after) =
      before ++ { row with prevHash, rowHash } :: after :=
  Sql.map_if_key nodup

/-- The updates of the loop make the rows what `repairRows` makes them. -/
theorem foldl_updates {expectedPrevHash : String} (before : List (AuditLogRow c)) {todo : List (AuditLogRow c)}
    (nodup : ((before ++ todo).map AuditLogRow.id).Nodup) :
    (updates expectedPrevHash (todo.map AuditLogRow.read)).foldl (fun rows write => write.apply rows)
      (before ++ todo) = before ++ repairRows expectedPrevHash todo := by
  induction todo generalizing expectedPrevHash before with
  | nil => rfl
  | cons row rest ih =>
    have first : (Write.updateHashes expectedPrevHash (row.read.computedHash expectedPrevHash)
        row.read.id).apply (before ++ row :: rest) =
          (before ++ [row.repaired expectedPrevHash]) ++ rest := by
      rw [List.append_assoc]
      exact apply_updateHashes nodup
    simp only [List.map_cons, updates, List.foldl_cons, first]
    rw [ih _ (by simpa [AuditLogRow.repaired] using nodup), List.append_assoc]
    rfl

/-- Nothing is to be fixed in a linked chain. -/
theorem fixes_of_linked {expectedPrevHash : String} {rows : List (AuditLogRow c)}
    (linked : LinkedFrom (auditLinks c) expectedPrevHash rows) :
    fixes expectedPrevHash (rows.map AuditLogRow.read) = (0, 0) := by
  induction rows generalizing expectedPrevHash with
  | nil => rfl
  | cons row rest ih =>
    obtain ⟨rfl, digest, after⟩ := linked
    have hash : row.read.rowHash = row.read.computedHash row.prevHash := digest
    have prev : row.read.prevHash = row.prevHash := rfl
    rw [digest] at after
    have later : fixes (row.read.computedHash row.prevHash) (rest.map AuditLogRow.read) = (0, 0) :=
      ih after
    simp [fixes, auditLinks, hash, prev, later]

/-! ## The whole repair -/

/-- What a repair answers for the rows of a log. -/
def repairResult (log : List (AuditLogRow c)) : RepairResult :=
  let verify := verifyIntegrity (.ok ((repairRows "" log).map AuditLogRow.read))
  let fixed := fixes "" (log.map AuditLogRow.read)
  { intact := verify.intact, rowsChecked := verify.rowsChecked, prevHashFixed := fixed.1
    rowHashFixed := fixed.2, remainingErrors := verify.errors }

theorem repairIntegrity_alone (free : w.lockHolder = none)
    (nodup : (w.db.auditLog.map AuditLogRow.id).Nodup) :
    ∃ w', repairAlone w = some (repairResult w.db.auditLog, w') ∧ w'.lockHolder = none ∧
      w'.db = { w.db with auditLog := repairRows "" w.db.auditLog } := by
  let tx := w.txs.length
  let locked : World c := { w.begin with lockHolder := some tx }
  let rows := w.db.auditLog.map AuditLogRow.read
  let written := locked.writeAll tx (updates "" rows)
  have begin : execute w .begin .done = some (.ok tx, w.begin) := rfl
  have begun : w.begin.status tx = some .active := by simp [World.status, World.begin, tx]
  have active : locked.status tx = some .active := begun
  have blank : locked.writes tx = [] := by simp [World.writes, locked, World.begin, tx]
  have lock : execute w.begin (.lock tx) .done = some (.ok (), locked) := by
    simp only [execute, World.lock, begun]
    simp [World.begin, free, locked]
  have select : execute locked (.selectRows (some tx)) .done = some (.ok rows, locked) := by
    have view : locked.view tx = w.db.auditLog := by
      rw [World.view, blank]
      rfl
    simp only [execute, active, if_true, view, rows]
  have view : written.view tx = repairRows "" w.db.auditLog := by
    have writes : written.writes tx = updates "" rows := by
      simp [written, World.writeAll, World.writes, locked, World.begin, tx]
    rw [World.view, writes]
    exact foldl_updates [] nodup
  let repaired : World c :=
    { written.finish tx .closed with db := { w.db with auditLog := repairRows "" w.db.auditLog } }
  have commit : execute written (.commit tx) .done = some (.ok (), repaired) := by
    have still : written.status tx = some .active := by rwa [World.status_writeAll]
    simp only [execute, World.commit, still, true_or, if_true, Option.map_some, view]
    rfl
  refine ⟨repaired, ?_, if_pos rfl, rfl⟩
  unfold repairAlone repairIntegrity
  simp only [perform, Conc.Prog.bind_eq, Conc.Prog.perform_bind]
  rw [alone_op begin]
  dsimp only
  rw [alone_op lock]
  dsimp only
  rw [alone_op select]
  dsimp only
  rw [alone_bind (aloneBy_repairLoop active)]
  rw [alone_op commit]
  dsimp only
  rw [alone_op (show execute repaired (.selectRows none) .done =
    some (.ok ((repairRows "" w.db.auditLog).map AuditLogRow.read), repaired) from rfl)]
  simp only [Nat.zero_add]
  rfl

/-- What a repair that leads from `w` to `w'` with the answer `result` has achieved. -/
structure Repaired (w w' : World c) (result : RepairResult) : Prop where
  reported : result.intact = true ∧ result.remainingErrors = []
  intact : w'.db.ChainIntact
  fields : w'.db.auditLog.map (fun row => (row.id, row.fields)) =
    w.db.auditLog.map fun row => (row.id, row.fields)
  /-- a part at the front that was intact is as it was -/
  front : ∀ before after, w.db.auditLog = before ++ after →
    ({ w.db with auditLog := before } : AuditDb c).ChainIntact → ∃ after', w'.db.auditLog = before ++ after'
  again : ∃ second w'', repairAlone w' = some (second, w'') ∧ second.prevHashFixed = 0 ∧
    second.rowHashFixed = 0 ∧ w''.db = w'.db

section rows

variable {log before after : List (AuditLogRow c)} {expectedPrevHash : String}

theorem linked_repairRows : LinkedFrom (auditLinks c) expectedPrevHash (repairRows expectedPrevHash log) := by
  rw [repairRows_eq_restamp]
  exact linkedFrom_restamp (fun _ _ => rfl) fun _ _ => rfl

theorem repairRows_of_linked (linked : LinkedFrom (auditLinks c) expectedPrevHash log) :
    repairRows expectedPrevHash log = log := by
  rw [repairRows_eq_restamp]
  refine restamp_of_linked (fun row digest => ?_) linked
  change { row with rowHash := row.read.computedHash row.prevHash } = row
  rw [show row.read.computedHash row.prevHash = row.rowHash from digest.symm]

theorem map_repairRows {Column : Type} {f : AuditLogRow c → Column}
    (keeps : ∀ expected row, f (row.repaired expected) = f row) :
    (repairRows expectedPrevHash log).map f = log.map f := by
  rw [repairRows_eq_restamp]
  exact map_restamp keeps

/-- A repair leaves a linked part at the front as it is. -/
theorem repairRows_append (linked : LinkedFrom (auditLinks c) expectedPrevHash before) :
    ∃ after', repairRows expectedPrevHash (before ++ after) = before ++ after' := by
  have front := repairRows_of_linked linked
  rw [repairRows_eq_restamp] at front ⊢
  rw [restamp_append, front]
  exact ⟨_, rfl⟩

end rows

/-- The ids are a primary key, and the table is in their order. -/
theorem repair_restores_integrity (free : w.lockHolder = none)
    (ordered : (w.db.auditLog.map AuditLogRow.id).Pairwise (· < ·)) :
    ∃ result w', repairAlone w = some (result, w') ∧ Repaired w w' result := by
  have nodup : (w.db.auditLog.map AuditLogRow.id).Nodup := ordered.imp Nat.ne_of_lt
  obtain ⟨w', ran, free', db⟩ := repairIntegrity_alone free nodup
  have linked : LinkedFrom (auditLinks c) "" w'.db.auditLog := by
    rw [db]
    exact linked_repairRows
  have intact : w'.db.ChainIntact := chainIntact_iff_linked.mpr linked
  refine ⟨_, w', ran, ⟨?_, intact, ?_, ?_, ?_⟩⟩
  · have repaired : LinkedFrom (auditLinks c) "" (repairRows "" w.db.auditLog) := linked_repairRows
    have none := integrityErrors_eq_nil.mpr repaired
    simp [repairResult, verifyIntegrity, none]
  · rw [db]
    exact map_repairRows fun _ _ => rfl
  · intro before after split front
    rw [db, split]
    exact repairRows_append (chainIntact_iff_linked.mp front)
  · have nodup' : (w'.db.auditLog.map AuditLogRow.id).Nodup := by
      rw [db, map_repairRows fun _ _ => rfl]
      exact nodup
    obtain ⟨w'', ran', -, db'⟩ := repairIntegrity_alone free' nodup'
    refine ⟨_, w'', ran', ?_, ?_, ?_⟩
    · simp [repairResult, fixes_of_linked linked]
    · simp [repairResult, fixes_of_linked linked]
    · rw [db', repairRows_of_linked linked]

/-- The login, with a hash that is not its own, and after it a row that starts a chain anew. -/
def Small.corrupted : World Small.auditCodec where
  db := { users := [7, 8]
          auditLog := [{ Small.loginRow with rowHash := "0" }, { Small.loginRow with id := 2 }]
          nextId := 3 }
  txs := []
  lockHolder := none

theorem repair_restores_integrity_corrupted :
    ∃ result w', repairAlone Small.corrupted = some (result, w') ∧ Repaired Small.corrupted w' result :=
  repair_restores_integrity rfl (by decide)

end PatchManager.Audit
