import PatchManager.Audit.Session
import PatchManager.Conc.Outline
import PatchManager.Verified.AuditChain

/-! # Appends to the audit log are serial

Any number of `log_event` and `repair_integrity` calls, their statements interleaved in any
order the advisory lock permits, with transactions failing and rolled back at any point: the
committed rows form one chain.

Only the transaction that holds the lock has written anything, so what it has read of the end
of the log is still the end when it commits.

Main results:

* `outline_sound`: what a call may assume of the log at each of its statements.
* `committed_log_one_chain`: the committed rows form one chain in every reachable state.
-/

namespace PatchManager.Audit

open PatchManager.Conc
open PatchManager.Chain

variable {c : AuditCodec}

/-- Every row stores the hash of the row before it, in the order of the ids. -/
structure OneChain (log : List (AuditLogRow c)) : Prop where
  ordered : (log.map AuditLogRow.id).Pairwise (· < ·)
  linked : ∀ before row after, log = before ++ row :: after →
    row.prevHash = (before.getLast?.map AuditLogRow.rowHash).getD ""

/-! ## Links -/

/-- What matters of a row for the chain. -/
structure Link where
  id : Nat
  prevHash : String
  rowHash : String

def link (row : AuditLogRow c) : Link := ⟨row.id, row.prevHash, row.rowHash⟩

def lines : Links Link String where
  prev := Link.prevHash
  hash := Link.rowHash
  digest := Link.rowHash

/-- A write, as far as it matters for the chain. -/
def Write.applyLinks : Write c → List Link → List Link
  | .insert row, links => links.orderedInsert (fun a b => a.id ≤ b.id) (link row)
  | .updateHashes prevHash rowHash id, links =>
    links.map fun l => if l.id = id then { l with prevHash, rowHash } else l

theorem map_link_apply (write : Write c) (rows : List (AuditLogRow c)) :
    (write.apply rows).map link = write.applyLinks (rows.map link) := by
  cases write with
  | insert row => exact List.map_orderedInsert _ _ _ _ _ (fun _ _ => Iff.rfl) fun _ _ => Iff.rfl
  | updateHashes prevHash rowHash id =>
    simp only [Write.apply, Write.applyLinks, List.map_map]
    refine List.map_congr_left fun row _ => ?_
    by_cases own : row.id = id <;> simp [link, own]

def World.log (w : World c) : List Link := w.db.auditLog.map link

/-- The links of the log as a transaction sees it. -/
def World.links (w : World c) (tx : Nat) : List Link :=
  (w.writes tx).foldl (fun links write => write.applyLinks links) w.log

theorem map_link_view (w : World c) (tx : Nat) : (w.view tx).map link = w.links tx := by
  unfold World.view World.links World.log
  generalize w.db.auditLog = rows
  induction w.writes tx generalizing rows with
  | nil => rfl
  | cons write rest ih => rw [List.foldl_cons, List.foldl_cons, ih, map_link_apply]

/-- A list of rows that could be the committed log. -/
structure Sealed (nextId : Nat) (links : List Link) : Prop where
  ordered : (links.map Link.id).Pairwise (· < ·)
  given : ∀ l ∈ links, l.id < nextId
  linked : LinkedFrom lines "" links

/-- What is always true of the log and its transactions. -/
structure Inv (w : World c) : Prop where
  log : Sealed w.db.nextId w.log
  /-- only the transaction that holds the lock has written anything -/
  writers : ∀ tx, w.writes tx ≠ [] → w.lockHolder = some tx
  active : ∀ tx, w.writes tx ≠ [] → w.status tx = some .active

/-! ## What a call assumes -/

/-- How far a call is with its transaction. -/
inductive Phase where
  | begun
  | locked
  /-- it has read the end of the log -/
  | read (prev : String)
  | inserted
  /-- it rewrites the rows with these ids, the first after `expected` -/
  | rewriting (expected : String) (ids : List Nat)

/-- What the call assumes of a transaction that is active. -/
def Assumes (w : World c) (tx : Nat) : Phase → Prop
  | .begun => w.writes tx = []
  | .locked => w.lockHolder = some tx ∧ w.writes tx = []
  | .read prev => w.lockHolder = some tx ∧ w.writes tx = [] ∧ prev = endHash lines "" w.log
  | .inserted => w.lockHolder = some tx ∧ Sealed w.db.nextId (w.links tx)
  | .rewriting expected ids => w.lockHolder = some tx ∧ ∃ before todo, w.links tx = before ++ todo ∧
    todo.map Link.id = ids ∧ ((before ++ todo).map Link.id).Pairwise (· < ·) ∧
    (∀ l ∈ before ++ todo, l.id < w.db.nextId) ∧ LinkedFrom lines "" before ∧
    endHash lines "" before = expected

/-- A call's transaction, if it has one, and how far it is with it. -/
abbrev Stage := Option (Nat × Phase)

def Stage.next : Stage → (o : Op c) → o.Resp → Stage
  | σ, .utcNow, _ => σ
  | none, .begin, .ok tx => some (tx, .begun)
  | some (tx, .begun), .lock _, .ok _ => some (tx, .locked)
  | some (tx, .locked), .selectLastHash _, .ok prevHash => some (tx, .read (prevHash.getD ""))
  | some (tx, .locked), .selectRows _, .ok rows => some (tx, .rewriting "" (rows.map AuditRow.id))
  | some (tx, .read _), .insertRow _ _, .ok _ => some (tx, .inserted)
  | some (tx, .rewriting _ (_ :: rest)), .updateHashes _ _ rowHash _, _ => some (tx, .rewriting rowHash rest)
  | _, _, _ => none

/-- The statements a call issues at a stage. -/
def Stage.permits : Stage → Op c → Prop
  | _, .utcNow | none, .begin | none, .selectRows none => True
  | some (tx, .begun), .lock tx' => tx' = tx
  | some (tx, .locked), .selectLastHash tx' | some (tx, .locked), .selectRows (some tx') => tx' = tx
  | some (tx, .read prev), .insertRow tx' row => tx' = tx ∧
    ∀ id, (row id).id = id ∧ (row id).prevHash = prev
  | some (tx, .rewriting expected (id :: _)), .updateHashes tx' prevHash _ id' =>
    tx' = tx ∧ prevHash = expected ∧ id' = id
  | some (tx, .inserted), .commit tx' | some (tx, .rewriting _ []), .commit tx' => tx' = tx
  | _, _ => False

def calls (c : AuditCodec) : Contract (Op c) Op.Resp (Fn c) where
  State := Stage
  idle := none
  init _ := none
  next := Stage.next
  rely _ _ := True
  guar := Stage.permits
  start _ _ := True
  tail _ _ := False
  exit _ := True

def outline (c : AuditCodec) : Outline (World c) (calls c) where
  inv := Inv
  holds w σ := ∀ tx phase, σ = some (tx, phase) →
    tx < w.txs.length ∧ (w.status tx = some .active → Assumes w tx phase)
  apart σ σ' := ∀ tx phase phase', σ = some (tx, phase) → σ' ≠ some (tx, phase')

/-! ## What changes leave alone -/

variable {w w' : World c} {tx other : Nat} {σ : Stage}

/-- What the call with the transaction assumes is not touched. -/
structure Steady (tx : Nat) (w w' : World c) : Prop where
  active : w'.status tx = some .active → w.status tx = some .active ∧ w'.writes tx = w.writes tx
  lock : w'.status tx = some .active → w.lockHolder = some tx →
    w'.lockHolder = some tx ∧ w'.log = w.log ∧ w.db.nextId ≤ w'.db.nextId

theorem Sealed.mono {n m : Nat} {links : List Link} (sealed : Sealed n links) (le : n ≤ m) : Sealed m links :=
  { sealed with given := fun l mem => Nat.lt_of_lt_of_le (sealed.given l mem) le }

theorem Assumes.steady {phase : Phase} (assumes : Assumes w tx phase) (steady : Steady tx w w')
    (active : w'.status tx = some .active) : Assumes w' tx phase := by
  have writes := (steady.active active).2
  have held := steady.lock active
  have links : w'.log = w.log → w'.links tx = w.links tx := fun same => by
    rw [World.links, World.links, writes, same]
  cases phase with
  | begun => exact writes.trans assumes
  | locked => exact ⟨(held assumes.1).1, writes.trans assumes.2⟩
  | read prev =>
    obtain ⟨lock, blank, eq⟩ := assumes
    obtain ⟨lock', log, -⟩ := held lock
    exact ⟨lock', writes.trans blank, log ▸ eq⟩
  | inserted =>
    obtain ⟨lock, sealed⟩ := assumes
    obtain ⟨lock', log, given⟩ := held lock
    exact ⟨lock', links log ▸ sealed.mono given⟩
  | rewriting expected ids =>
    obtain ⟨lock, before, todo, eq, todoIds, ordered, ids, linked, last⟩ := assumes
    obtain ⟨lock', log, given⟩ := held lock
    exact ⟨lock', before, todo, (links log).trans eq, todoIds, ordered,
      fun l mem => Nat.lt_of_lt_of_le (ids l mem) given, linked, last⟩

theorem holds_steady (grows : w.txs.length ≤ w'.txs.length) (holds : (outline c).holds w σ)
    (steady : ∀ tx phase, σ = some (tx, phase) → tx < w.txs.length → Steady tx w w') :
    (outline c).holds w' σ := by
  intro tx phase eq
  obtain ⟨inside, assumes⟩ := holds tx phase eq
  have kept := steady tx phase eq inside
  exact ⟨Nat.lt_of_lt_of_le inside grows, fun active =>
    (assumes (kept.active active).1).steady kept active⟩

/-- A statement of the transaction `tx`: it keeps the invariant and touches no other call. -/
structure Moves (tx : Nat) (w w' : World c) : Prop where
  inv : Inv w'
  grows : w.txs.length ≤ w'.txs.length
  steady : ∀ other, other ≠ tx → other < w.txs.length → Steady other w w'

theorem Steady.refl : Steady tx w w :=
  ⟨fun active => ⟨active, rfl⟩, fun _ lock => ⟨lock, rfl, Nat.le_refl _⟩⟩

theorem Moves.refl (inv : Inv w) : Moves tx w w := ⟨inv, Nat.le_refl _, fun _ _ _ => .refl⟩

/-! ## Ends of transactions -/

@[simp] theorem status_finish_self {status : TxStatus} (inside : tx < w.txs.length) :
    (w.finish tx status).status tx = some status := by
  simp [World.finish, World.status, inside]

@[simp] theorem status_finish_ne {status : TxStatus} (ne : other ≠ tx) :
    (w.finish tx status).status other = w.status other := by
  simp [World.finish, World.status, List.getElem?_set_ne ne.symm]

@[simp] theorem writes_finish_self {status : TxStatus} : (w.finish tx status).writes tx = [] := by
  by_cases inside : tx < w.txs.length
  · simp [World.finish, World.writes, inside]
  · simp [World.finish, World.writes, inside]

@[simp] theorem writes_finish_ne {status : TxStatus} (ne : other ≠ tx) :
    (w.finish tx status).writes other = w.writes other := by
  simp [World.finish, World.writes, List.getElem?_set_ne ne.symm]

theorem lockHolder_finish (status : TxStatus) (ne : other ≠ tx)
    (lock : w.lockHolder = some other) : (w.finish tx status).lockHolder = some other := by
  simp [World.finish, lock, ne]

/-- The end of a transaction, the log replaced by one that could be committed.  It is the old
    one where another call has the lock. -/
theorem moves_finish {status : TxStatus} {log : List (AuditLogRow c)} (inv : Inv w)
    (sealed : Sealed w.db.nextId (log.map link))
    (same : ∀ other, other ≠ tx → w.lockHolder = some other → log.map link = w.log) :
    Moves tx w { w.finish tx status with db := { w.db with auditLog := log } } where
  inv := by
    refine ⟨sealed, fun other writes => ?_, fun other writes => ?_⟩
    · change (w.finish tx status).writes other ≠ [] at writes
      rcases eq_or_ne other tx with rfl | ne
      · simp at writes
      · rw [writes_finish_ne ne] at writes
        exact lockHolder_finish status ne (inv.writers other writes)
    · change (w.finish tx status).writes other ≠ [] at writes
      change (w.finish tx status).status other = _
      rcases eq_or_ne other tx with rfl | ne
      · simp at writes
      · rw [writes_finish_ne ne] at writes
        rw [status_finish_ne ne]
        exact inv.active other writes
  grows := by simp [World.finish]
  steady other ne inside := by
    refine ⟨fun active => ?_, fun active lock => ?_⟩
    · change (w.finish tx status).status other = _ at active
      rw [status_finish_ne ne] at active
      exact ⟨active, writes_finish_ne ne⟩
    · exact ⟨lockHolder_finish status ne lock, same other ne lock, Nat.le_refl _⟩

theorem moves_rollback {status : TxStatus} (inv : Inv w) : Moves tx w (w.finish tx status) :=
  moves_finish inv inv.log fun _ _ _ => rfl

theorem moves_abort (inv : Inv w) : Moves tx w (w.abort tx) := by
  unfold World.abort
  split
  · exact moves_rollback inv
  · exact .refl inv

theorem not_active_abort : (w.abort tx).status tx ≠ some .active := by
  unfold World.abort
  split
  · rename_i active
    obtain ⟨t, there, -⟩ := Option.map_eq_some_iff.mp active
    rw [status_finish_self (List.getElem?_eq_some_iff.mp there).1]
    simp
  · assumption

theorem moves_commit (inv : Inv w) (sealed : w.status tx = some .active → Sealed w.db.nextId (w.links tx))
    (done : w.commit tx = some w') : Moves tx w w' := by
  simp only [World.commit, Option.ite_none_right_eq_some, Option.some.injEq] at done
  obtain ⟨-, rfl⟩ := done
  have unwritten : w.writes tx = [] → w.links tx = w.log := fun blank => by rw [World.links, blank]; rfl
  refine moves_finish inv ?_ fun other ne lock => ?_
  · rw [map_link_view]
    by_cases blank : w.writes tx = []
    · rw [unwritten blank]
      exact inv.log
    · exact sealed (inv.active tx blank)
  · rw [map_link_view]
    refine unwritten ?_
    by_contra writes
    have mine := inv.writers tx writes
    rw [lock] at mine
    exact ne (Option.some.inj mine)

/-! ## Statements of open transactions -/

@[simp] theorem status_begin (inside : tx < w.txs.length) : w.begin.status tx = w.status tx := by
  simp [World.begin, World.status, List.getElem?_append_left inside]

@[simp] theorem writes_begin : w.begin.writes tx = w.writes tx := by
  unfold World.begin World.writes
  rcases Nat.lt_trichotomy tx w.txs.length with inside | rfl | beyond
  · rw [List.getElem?_append_left inside]
  · simp
  · rw [List.getElem?_eq_none (by simp; omega), List.getElem?_eq_none (Nat.le_of_lt beyond)]

theorem inside_of_writes (writes : w.writes tx ≠ []) : tx < w.txs.length := by
  by_contra beyond
  exact writes (by simp [World.writes, List.getElem?_eq_none (Nat.not_lt.mp beyond)])

theorem moves_begin (inv : Inv w) : Moves tx w w.begin where
  inv := by
    refine ⟨inv.log, fun other writes => ?_, fun other writes => ?_⟩
    · rw [writes_begin] at writes
      exact inv.writers other writes
    · rw [writes_begin] at writes
      rw [status_begin (inside_of_writes writes)]
      exact inv.active other writes
  grows := by simp [World.begin]
  steady other _ inside := by
    refine ⟨fun active => ?_, fun _ lock => ⟨lock, rfl, Nat.le_refl _⟩⟩
    rw [status_begin inside] at active
    exact ⟨active, writes_begin⟩

theorem moves_lock (inv : Inv w) (done : w.lock tx = some w') : Moves tx w w' := by
  simp only [World.lock, Option.ite_none_right_eq_some, Option.some.injEq] at done
  obtain ⟨⟨-, free⟩, rfl⟩ := done
  refine ⟨⟨inv.log, fun other writes => ?_, inv.active⟩, Nat.le_refl _, fun other ne _ => ?_⟩
  · have mine := inv.writers other writes
    rcases free with none | held
    · rw [none] at mine
      cases mine
    · rw [held] at mine
      exact mine
  · refine ⟨fun active => ⟨active, rfl⟩, fun _ lock => ?_⟩
    rcases free with none | held
    · rw [none] at lock
      cases lock
    · rw [held] at lock
      exact absurd (Option.some.inj lock).symm ne

/-- What a write does to the transactions. -/
theorem write_eq {write : Write c} (done : w.write tx write = some w') :
    w.status tx = some .active ∧ w'.db = w.db ∧ w'.lockHolder = w.lockHolder ∧
      w'.txs.length = w.txs.length ∧ (∀ other, w'.status other = w.status other) ∧
      w'.writes tx = w.writes tx ++ [write] ∧ ∀ other, other ≠ tx → w'.writes other = w.writes other := by
  simp only [World.write, Option.ite_none_right_eq_some, Option.some.injEq] at done
  obtain ⟨active, rfl⟩ := done
  obtain ⟨t, there, -⟩ := Option.map_eq_some_iff.mp active
  refine ⟨active, rfl, rfl, by simp, fun other => ?_, ?_, fun other ne => ?_⟩
  · simp only [World.status, List.getElem?_modify, Option.map_eq_map, Option.map_map]
    congr 1
    split <;> rfl
  · simp [World.writes, there]
  · simp [World.writes, ne.symm]

theorem moves_write {write : Write c} (inv : Inv w) (lock : w.lockHolder = some tx)
    (done : w.write tx write = some w') : Moves tx w w' := by
  obtain ⟨active, db, lock', length, status, writes, others⟩ := write_eq done
  have log : w'.log = w.log := by rw [World.log, World.log, db]
  refine ⟨⟨by rw [log, db]; exact inv.log, fun other written => ?_, fun other written => ?_⟩,
    Nat.le_of_eq length.symm, ?_⟩
  · rcases eq_or_ne other tx with rfl | ne
    · rw [lock', lock]
    · rw [others other ne] at written
      rw [lock']
      exact inv.writers other written
  · rcases eq_or_ne other tx with rfl | ne
    · rw [status, active]
    · rw [others other ne] at written
      rw [status]
      exact inv.active other written
  · intro other ne inside
    refine ⟨fun active => ⟨status other ▸ active, others other ne⟩, fun _ held => ?_⟩
    exact ⟨lock' ▸ held, log, by rw [db]⟩

/-- A new row comes after all others. -/
theorem moves_insert {row : Nat → AuditLogRow c} (inv : Inv w) (lock : w.lockHolder = some tx)
    (done : w.insert tx row = some w') : Moves tx w w' := by
  simp only [World.insert, Option.ite_none_right_eq_some] at done
  have next : Inv { w with db := { w.db with nextId := w.db.nextId + 1 } } :=
    ⟨inv.log.mono (Nat.le_succ _), inv.writers, inv.active⟩
  have moves := moves_write next lock done.2
  refine ⟨moves.inv, moves.grows, fun other ne inside => ?_⟩
  have steady := moves.steady other ne inside
  refine ⟨steady.active, fun active held => ?_⟩
  obtain ⟨held', log, given⟩ := steady.lock active held
  exact ⟨held', log, Nat.le_of_succ_le given⟩

/-! ## What statements establish -/

theorem links_of_blank (blank : w.writes tx = []) : w.links tx = w.log := by
  rw [World.links, blank]
  rfl

/-- The hash that is read is the one the next row has to store. -/
theorem lastHash_eq (blank : w.writes tx = []) :
    ((w.view tx).getLast?.map AuditLogRow.rowHash).getD "" = endHash lines "" w.log := by
  have links : (w.view tx).map link = w.log := (map_link_view w tx).trans (links_of_blank blank)
  rw [endHash_eq_getLast, ← links, List.getLast?_map, Option.map_map]
  rfl

theorem orderedInsert_last {l : Link} {links : List Link} (last : ∀ l' ∈ links, l'.id < l.id) :
    links.orderedInsert (fun a b => a.id ≤ b.id) l = links ++ [l] := by
  induction links with
  | nil => rfl
  | cons first rest ih =>
    have later : ¬ l.id ≤ first.id := Nat.not_le.mpr (last first (by simp))
    simp [later, ih fun l' mem => last l' (by simp [mem])]

theorem Sealed.snoc {n : Nat} {links : List Link} {l : Link} (sealed : Sealed n links) (id : l.id = n)
    (prev : l.prevHash = endHash lines "" links) : Sealed (n + 1) (links ++ [l]) where
  ordered := by
    rw [List.map_append, List.map_singleton, List.pairwise_append]
    refine ⟨sealed.ordered, List.pairwise_singleton _ _, ?_⟩
    intro x earlier y last
    obtain ⟨l', mem, rfl⟩ := List.mem_map.mp earlier
    obtain rfl := List.mem_singleton.mp last
    rw [id]
    exact sealed.given l' mem
  given l' mem := by
    rcases List.mem_append.mp mem with earlier | last
    · exact Nat.lt_succ_of_lt (sealed.given l' earlier)
    · obtain rfl := List.mem_singleton.mp last
      omega
  linked := linkedFrom_snoc sealed.linked prev rfl

theorem inserted_of_insert {row : Nat → AuditLogRow c} {prev : String} (inv : Inv w)
    (lock : w.lockHolder = some tx) (blank : w.writes tx = []) (last : prev = endHash lines "" w.log)
    (of : ∀ id, (row id).id = id ∧ (row id).prevHash = prev) (done : w.insert tx row = some w') :
    Assumes w' tx .inserted := by
  simp only [World.insert, Option.ite_none_right_eq_some] at done
  obtain ⟨-, db, lock', -, -, writes, -⟩ := write_eq done.2
  have log : w'.log = w.log := by rw [World.log, db]; rfl
  obtain ⟨id, prevHash⟩ := of w.db.nextId
  have links : w'.links tx = w.log ++ [link (row w.db.nextId)] := by
    have own : w'.writes tx = [.insert (row w.db.nextId)] := by
      rw [writes]
      exact congrArg (· ++ [_]) blank
    rw [World.links, own, log]
    refine orderedInsert_last fun l mem => ?_
    change l.id < (row w.db.nextId).id
    rw [id]
    exact inv.log.given l mem
  refine ⟨lock'.trans lock, ?_⟩
  rw [links, db]
  exact inv.log.snoc id (prevHash.trans last)

/-- The first of the rows to be rewritten is rewritten. -/
theorem rewriting_of_update {expected rowHash : String} {id : Nat} {rest : List Nat}
    (assumes : Assumes w tx (.rewriting expected (id :: rest)))
    (done : w.write tx (.updateHashes expected rowHash id) = some w') :
    Assumes w' tx (.rewriting rowHash rest) := by
  obtain ⟨lock, before, todo, eq, todoIds, ordered, given, linked, last⟩ := assumes
  obtain ⟨-, db, lock', -, -, writes, -⟩ := write_eq done
  obtain ⟨l, todo, rfl, rfl, rfl⟩ := List.map_eq_cons_iff.mp todoIds
  have log : w'.log = w.log := by rw [World.log, World.log, db]
  let l' : Link := { l with prevHash := expected, rowHash }
  have links : w'.links tx = before ++ l' :: todo := by
    rw [World.links, writes, List.foldl_append, log]
    change Write.applyLinks (.updateHashes expected rowHash l.id : Write c) (w.links tx) = _
    rw [eq]
    exact Sql.map_if_key (ordered.imp Nat.ne_of_lt)
  have ids : ((before ++ [l'] ++ todo).map Link.id) = (before ++ l :: todo).map Link.id := by simp [l']
  refine ⟨lock'.trans lock, before ++ [l'], todo, ?_, rfl, ?_, ?_, ?_, ?_⟩
  · rw [links, List.append_assoc]
    rfl
  · rw [ids]
    exact ordered
  · have given' : ∀ i ∈ (before ++ l :: todo).map Link.id, i < w.db.nextId :=
      List.forall_mem_map.mpr given
    rw [← ids, ← db] at given'
    exact List.forall_mem_map.mp given'
  · exact linkedFrom_snoc linked last.symm rfl
  · simp [endHash_eq_getLast, l', lines]

/-! ## The outline -/

/-- A statement of the call that has the transaction `tx`, and the stage it comes to. -/
inductive Goes (tx : Nat) (w w' : World c) : Stage → Prop
  | on {phase : Phase} (moves : Moves tx w w')
      (assumes : w'.status tx = some .active → Assumes w' tx phase) : Goes tx w w' (some (tx, phase))
  | out (moves : Moves tx w w') : Goes tx w w' none

theorem lock_eq (done : w.lock tx = some w') :
    w'.lockHolder = some tx ∧ w'.status tx = w.status tx ∧ w'.writes tx = w.writes tx := by
  simp only [World.lock, Option.ite_none_right_eq_some, Option.some.injEq] at done
  obtain ⟨-, rfl⟩ := done
  exact ⟨rfl, rfl, rfl⟩

section goes

variable {a : Answer}

theorem goes_lock {r : Except String Unit} (inv : Inv w)
    (assumes : w.status tx = some .active → Assumes w tx .begun)
    (done : execute w (.lock tx) a = some (r, w')) :
    Goes tx w w' (Stage.next (some (tx, .begun)) (.lock tx : Op c) r) := by
  cases a with
  | done =>
    obtain ⟨w₁, locked, eq⟩ := Option.map_eq_some_iff.mp done
    cases eq
    obtain ⟨lock, status, writes⟩ := lock_eq locked
    exact .on (moves_lock inv locked) fun active => ⟨lock, writes.trans (assumes (status ▸ active))⟩
  | failed =>
    cases done
    exact .out (moves_abort inv)
  | lost =>
    obtain ⟨w₁, locked, eq⟩ := Option.map_eq_some_iff.mp done
    cases eq
    exact .out (moves_lock inv locked)
  | clock => cases done

theorem goes_selectLastHash {r : Except String (Option String)} (inv : Inv w)
    (assumes : w.status tx = some .active → Assumes w tx .locked)
    (done : execute w (.selectLastHash tx) a = some (r, w')) :
    Goes tx w w' (Stage.next (some (tx, .locked)) (.selectLastHash tx : Op c) r) := by
  cases a with
  | done =>
    simp only [execute, Option.ite_none_right_eq_some] at done
    obtain ⟨active, eq⟩ := done
    cases eq
    obtain ⟨lock, blank⟩ := assumes active
    exact .on (.refl inv) fun _ => ⟨lock, blank, lastHash_eq blank⟩
  | failed =>
    cases done
    exact .out (moves_abort inv)
  | lost =>
    cases done
    exact .out (.refl inv)
  | clock => cases done

/-- The repair is given the whole log. -/
theorem goes_selectRows {r : Except String (List (AuditRow c))} (inv : Inv w)
    (assumes : w.status tx = some .active → Assumes w tx .locked)
    (done : execute w (.selectRows (some tx)) a = some (r, w')) :
    Goes tx w w' (Stage.next (some (tx, .locked)) (.selectRows (some tx) : Op c) r) := by
  cases a with
  | done =>
    simp only [execute, Option.ite_none_right_eq_some] at done
    obtain ⟨active, eq⟩ := done
    cases eq
    obtain ⟨lock, blank⟩ := assumes active
    have links : (w.view tx).map link = w.log := (map_link_view w tx).trans (links_of_blank blank)
    refine .on (.refl inv) fun _ => ⟨lock, [], w.log, links_of_blank blank, ?_, inv.log.ordered,
      inv.log.given, trivial, rfl⟩
    rw [← links, List.map_map, List.map_map]
    rfl
  | failed =>
    cases done
    exact .out (moves_abort inv)
  | lost =>
    cases done
    exact .out (.refl inv)
  | clock => cases done

theorem goes_insertRow {r : Except String Unit} {row : Nat → AuditLogRow c} {prev : String} (inv : Inv w)
    (assumes : w.status tx = some .active → Assumes w tx (.read prev))
    (of : ∀ id, (row id).id = id ∧ (row id).prevHash = prev)
    (done : execute w (.insertRow tx row) a = some (r, w')) :
    Goes tx w w' (Stage.next (some (tx, .read prev)) (.insertRow tx row) r) := by
  have active : ∀ {w₁}, w.insert tx row = some w₁ → w.status tx = some .active := fun inserted => by
    simp only [World.insert, Option.ite_none_right_eq_some] at inserted
    exact (write_eq inserted.2).1
  cases a with
  | done =>
    obtain ⟨w₁, inserted, eq⟩ := Option.map_eq_some_iff.mp done
    cases eq
    obtain ⟨lock, blank, last⟩ := assumes (active inserted)
    exact .on (moves_insert inv lock inserted) fun _ => inserted_of_insert inv lock blank last of inserted
  | failed =>
    cases done
    exact .out (moves_abort inv)
  | lost =>
    obtain ⟨w₁, inserted, eq⟩ := Option.map_eq_some_iff.mp done
    cases eq
    exact .out (moves_insert inv (assumes (active inserted)).1 inserted)
  | clock => cases done

/-- A repair goes on after an update whether or not it has succeeded.  Where it has failed,
    nothing that is written later is committed. -/
theorem goes_updateHashes {r : Except String Unit} {expected rowHash : String} {id : Nat}
    {rest : List Nat} (inv : Inv w)
    (assumes : w.status tx = some .active → Assumes w tx (.rewriting expected (id :: rest)))
    (done : execute w (.updateHashes tx expected rowHash id) a = some (r, w')) :
    Goes tx w w' (Stage.next (some (tx, .rewriting expected (id :: rest)))
      (.updateHashes tx expected rowHash id : Op c) r) := by
  have written : ∀ {w₁}, w.write tx (.updateHashes expected rowHash id) = some w₁ →
      Goes tx w w₁ (some (tx, .rewriting rowHash rest)) := fun wrote =>
    have before := assumes (write_eq wrote).1
    .on (moves_write inv before.1 wrote) fun _ => rewriting_of_update before wrote
  cases a with
  | done =>
    obtain ⟨w₁, wrote, eq⟩ := Option.map_eq_some_iff.mp done
    cases eq
    exact written wrote
  | failed =>
    cases done
    exact .on (moves_abort inv) fun active => absurd active not_active_abort
  | lost =>
    obtain ⟨w₁, wrote, eq⟩ := Option.map_eq_some_iff.mp done
    cases eq
    exact written wrote
  | clock => cases done

theorem goes_commit {r : Except String Unit} (inv : Inv w)
    (sealed : w.status tx = some .active → Sealed w.db.nextId (w.links tx))
    (done : execute w (.commit tx) a = some (r, w')) : Goes tx w w' none := by
  cases a with
  | done =>
    obtain ⟨w₁, committed, eq⟩ := Option.map_eq_some_iff.mp done
    cases eq
    exact .out (moves_commit inv sealed committed)
  | failed =>
    cases done
    exact .out (moves_rollback inv)
  | lost =>
    obtain ⟨w₁, committed, eq⟩ := Option.map_eq_some_iff.mp done
    cases eq
    exact .out (moves_commit inv sealed committed)
  | clock => cases done

end goes

/-- A rewriting that is through leaves what can be committed. -/
theorem sealed_of_rewriting {expected : String} (assumes : Assumes w tx (.rewriting expected [])) :
    Sealed w.db.nextId (w.links tx) := by
  obtain ⟨-, before, todo, eq, todoIds, ordered, given, linked, -⟩ := assumes
  obtain rfl := List.map_eq_nil_iff.mp todoIds
  rw [List.append_nil] at eq ordered given
  rw [eq]
  exact ⟨ordered, given, linked⟩

theorem goes_of_execute {phase : Phase} {o : Op c} {a : Answer} {r : o.Resp} (inv : Inv w)
    (assumes : w.status tx = some .active → Assumes w tx phase)
    (permitted : Stage.permits (some (tx, phase)) o) (done : execute w o a = some (r, w')) :
    Goes tx w w' (Stage.next (some (tx, phase)) o r) := by
  cases o with
  | utcNow =>
    cases a <;> cases done
    exact .on (.refl inv) assumes
  | begin => cases phase <;> cases permitted
  | lock tx' =>
    cases phase <;> cases permitted
    exact goes_lock inv assumes done
  | selectLastHash tx' =>
    cases phase <;> cases permitted
    exact goes_selectLastHash inv assumes done
  | insertRow tx' row =>
    cases phase with
    | read prev =>
      obtain ⟨rfl, of⟩ := permitted
      exact goes_insertRow inv assumes of done
    | _ => cases permitted
  | selectRows tx' =>
    cases phase <;> cases tx' <;> cases permitted
    exact goes_selectRows inv assumes done
  | updateHashes tx' prevHash rowHash id =>
    cases phase with
    | rewriting expected ids =>
      cases ids with
      | nil => cases permitted
      | cons _ rest =>
        obtain ⟨rfl, rfl, rfl⟩ := permitted
        exact goes_updateHashes inv assumes done
    | _ => cases permitted
  | commit tx' =>
    cases phase with
    | inserted =>
      cases permitted
      exact goes_commit inv (fun active => (assumes active).2) done
    | rewriting expected ids =>
      cases ids with
      | nil =>
        cases permitted
        exact goes_commit inv (fun active => sealed_of_rewriting (assumes active)) done
      | cons _ rest => cases permitted
    | _ => cases permitted

/-- What goes on with one call touches no other. -/
theorem others_of_moves {phase : Phase} {σ' : Stage} (moves : Moves tx w w')
    (apart : (outline c).apart (some (tx, phase)) σ') (holds : (outline c).holds w σ') :
    (outline c).holds w' σ' := by
  refine holds_steady moves.grows holds fun tx' phase' eq inside => moves.steady tx' ?_ inside
  rintro rfl
  exact apart tx' phase phase' rfl eq

theorem change_stable (w : World c) (d : Change) : (outline c).Stable w (change w d) := by
  intro inv
  have steady : ∀ {w'}, Inv w' → w.txs.length ≤ w'.txs.length →
      (∀ tx, tx < w.txs.length → Steady tx w w') →
      Inv w' ∧ ∀ σ, (outline c).holds w σ → (outline c).holds w' σ := fun inv' grows steady =>
    ⟨inv', fun σ holds => holds_steady grows holds fun tx _ _ inside => steady tx inside⟩
  cases d with
  | rollback tx =>
    have moves : Moves tx w (w.finish tx .closed) := moves_rollback inv
    refine steady moves.inv moves.grows fun other inside => ?_
    rcases eq_or_ne other tx with rfl | ne
    · have closed : (w.finish other .closed).status other ≠ some .active := by
        rw [status_finish_self inside]
        simp
      exact ⟨fun active => absurd active closed, fun active => absurd active closed⟩
    · exact moves.steady other ne inside
  | skipIds n =>
    exact steady ⟨inv.log.mono (Nat.le_add_right _ _), inv.writers, inv.active⟩ (Nat.le_refl _) fun tx _ =>
      ⟨fun active => ⟨active, rfl⟩, fun _ lock => ⟨lock, rfl, Nat.le_add_right _ _⟩⟩
  | createUser id =>
    exact steady ⟨inv.log, inv.writers, inv.active⟩ (Nat.le_refl _) fun tx _ =>
      ⟨fun active => ⟨active, rfl⟩, fun _ lock => ⟨lock, rfl, Nat.le_refl _⟩⟩
  | deleteUser id =>
    simp only [change]
    split
    · exact steady inv (Nat.le_refl _) fun tx _ => .refl
    · -- the rows lose their actor and keep their hashes
      have log : (w.db.auditLog.map (AuditLogRow.withoutActor id)).map link = w.log := by
        rw [World.log, List.map_map]
        refine List.map_congr_left fun row _ => ?_
        simp only [Function.comp_apply, AuditLogRow.withoutActor, link]
        split <;> rfl
      refine steady ⟨?_, inv.writers, inv.active⟩ (Nat.le_refl _) fun tx _ =>
        ⟨fun active => ⟨active, rfl⟩, fun _ lock => ⟨lock, log, Nat.le_refl _⟩⟩
      change Sealed w.db.nextId ((w.db.auditLog.map (AuditLogRow.withoutActor id)).map link)
      rw [log]
      exact inv.log

/-- One statement of a call that has no transaction.  One it begins is nobody else's. -/
theorem sound_none {o : Op c} {a : Answer} {r : o.Resp} (inv : Inv w) (permitted : Stage.permits none o)
    (done : execute w o a = some (r, w')) : Inv w' ∧ (outline c).holds w' (Stage.next none o r) ∧
      ∀ σ, (outline c).holds w σ →
        (outline c).holds w' σ ∧ (outline c).apart (Stage.next none o r) σ := by
  have same : Inv w ∧ (outline c).holds w none ∧
      ∀ σ, (outline c).holds w σ → (outline c).holds w σ ∧ (outline c).apart none σ :=
    ⟨inv, nofun, fun σ holds => ⟨holds, nofun⟩⟩
  have begin : Inv w.begin ∧ ∀ σ, (outline c).holds w σ → (outline c).holds w.begin σ := by
    have moves : Moves w.txs.length w w.begin := moves_begin inv
    exact ⟨moves.inv, fun σ holds => holds_steady moves.grows holds fun tx _ _ inside =>
      moves.steady tx (Nat.ne_of_lt inside) inside⟩
  cases o with
  | utcNow =>
    cases a <;> cases done
    exact same
  | begin =>
    cases a with
    | done =>
      cases done
      refine ⟨begin.1, ?_, fun σ holds => ⟨begin.2 σ holds, ?_⟩⟩
      · rintro _ _ ⟨⟩
        refine ⟨by simp [World.begin], fun _ => ?_⟩
        change w.begin.writes w.txs.length = []
        simp [World.begin, World.writes]
      · rintro _ _ phase' ⟨⟩ rfl
        exact Nat.lt_irrefl _ (holds _ phase' rfl).1
    | failed =>
      cases done
      exact same
    | lost =>
      cases done
      exact ⟨begin.1, nofun, fun σ holds => ⟨begin.2 σ holds, nofun⟩⟩
    | clock => cases done
  | selectRows tx =>
    cases tx with
    | none =>
      cases a with
      | done | failed =>
        cases done
        exact same
      | lost | clock => cases done
    | some tx => cases permitted
  | _ => cases permitted

theorem outline_sound : (outline c).Sound (auditLog c) where
  symm apart tx phase phase' eq eq' := apart tx phase' phase eq' eq
  idle _ _ := ⟨nofun, nofun⟩
  init _ _ _ := ⟨nofun, nofun⟩
  op {w w' o a r σ} inv holds permitted done := by
    rcases σ with _ | ⟨tx, phase⟩
    · obtain ⟨inv', own, others⟩ := sound_none inv permitted done
      exact ⟨inv', own, fun σ' _ => others σ'⟩
    · obtain ⟨inside, assumes⟩ := holds tx phase rfl
      have goes := goes_of_execute inv assumes permitted done
      change Inv w' ∧ (outline c).holds w' (Stage.next (some (tx, phase)) o r) ∧ ∀ σ', _ → _ → _ ∧
        (outline c).apart (Stage.next (some (tx, phase)) o r) σ'
      generalize Stage.next (some (tx, phase)) o r = σ at goes
      cases goes with
      | on moves assumes =>
        refine ⟨moves.inv, ?_, fun σ' apart holds => ⟨others_of_moves moves apart holds, ?_⟩⟩
        · rintro _ _ ⟨⟩
          exact ⟨Nat.lt_of_lt_of_le inside moves.grows, assumes⟩
        · rintro _ _ phase' ⟨⟩
          exact apart tx phase phase' rfl
      | out moves =>
        exact ⟨moves.inv, nofun, fun σ' apart holds => ⟨others_of_moves moves apart holds, nofun⟩⟩
  change := change_stable
  restart _ inv := ⟨inv, fun _ holds => holds⟩

/-! ## The calls -/

theorem writeAuditRow_along (call : AuditCall c) :
    (writeAuditRow call).Along (calls c) (fun _ _ => True) none := by
  refine ⟨trivial, fun r _ => ?_⟩
  cases r with
  | error e => trivial
  | ok tx =>
    refine ⟨rfl, fun r _ => ?_⟩
    cases r with
    | error e => trivial
    | ok _ =>
      refine ⟨rfl, fun r _ => ?_⟩
      cases r with
      | error e => trivial
      | ok prevHash =>
        refine ⟨trivial, fun now _ => ⟨⟨rfl, fun id => ⟨rfl, rfl⟩⟩, fun r _ => ?_⟩⟩
        cases r with
        | error e => trivial
        | ok _ => exact ⟨rfl, fun _ _ => trivial⟩

theorem repairLoop_along {tx : Nat} {expected : String} {p r : Nat} {rows : List (AuditRow c)} :
    (repairLoop tx expected p r rows).Along (calls c)
      (fun σ _ => ∃ last, σ = some (tx, .rewriting last []))
      (some (tx, .rewriting expected (rows.map AuditRow.id))) := by
  induction rows generalizing expected p r with
  | nil => exact ⟨expected, rfl⟩
  | cons row rest ih => exact ⟨⟨rfl, rfl, rfl⟩, fun _ _ => ih⟩

theorem repairIntegrity_along : (repairIntegrity (c := c)).Along (calls c) (fun _ _ => True) none := by
  refine ⟨trivial, fun r _ => ?_⟩
  cases r with
  | error e => trivial
  | ok tx =>
    refine ⟨rfl, fun r _ => ?_⟩
    cases r with
    | error e => trivial
    | ok _ =>
      refine ⟨rfl, fun r _ => ?_⟩
      cases r with
      | error e => trivial
      | ok rows =>
        simp only [Conc.Prog.ret_bind]
        refine Conc.Prog.Along.bind repairLoop_along ?_
        rintro _ fixed ⟨last, rfl⟩
        refine ⟨rfl, fun r _ => ?_⟩
        cases r with
        | error e => trivial
        | ok _ => exact ⟨trivial, fun _ _ => trivial⟩

theorem calls_kept : (auditLog c).machine.Keeps (calls c) where
  starts _ f _ := by
    cases f with
    | logEvent call => exact (writeAuditRow_along call).bind fun _ _ _ => trivial
    | repairIntegrity => exact repairIntegrity_along.bind fun _ _ _ => trivial
  tails _ _ tail := by cases tail
  idle := trivial

/-! ## Runs -/

/-- No transaction has been begun. -/
def World.start (db : AuditDb c) : World c := { db, txs := [], lockHolder := none }

/-- For rows that have their own hash as digest, linking is about neighbours. -/
theorem linked_iff {log : List (AuditLogRow c)} :
    LinkedFrom lines "" (log.map link) ↔ ∀ before row after, log = before ++ row :: after →
      row.prevHash = (before.getLast?.map AuditLogRow.rowHash).getD "" := by
  have last : ∀ before : List (AuditLogRow c), endHash lines "" (before.map link) =
      (before.getLast?.map AuditLogRow.rowHash).getD "" := fun before => by
    rw [endHash_eq_getLast, List.getLast?_map, Option.map_map]
    rfl
  rw [linkedFrom_iff_split fun _ => rfl]
  constructor
  · rintro split before row after rfl
    rw [← last before]
    exact split _ (link row) (after.map link) (by simp)
  · intro split before l after eq
    obtain ⟨first, others, rfl, rfl, eq'⟩ := List.map_eq_append_iff.mp eq
    obtain ⟨row, rest, rfl, rfl, rfl⟩ := List.map_eq_cons_iff.mp eq'
    rw [last first]
    exact split first row rest rfl

/-- The committed rows form one chain, whatever the calls do and however they fail. -/
theorem committed_log_one_chain {db : AuditDb c} {h : List (Event (World c) (Op c) Op.Resp (Fn c))}
    {t : Sys (World c) (Op c) Op.Resp (Fn c)} (chain : OneChain db.auditLog)
    (given : ∀ row ∈ db.auditLog, row.id < db.nextId)
    (run : Run (auditLog c).machine ⟨World.start db, []⟩ h t) : OneChain t.world.db.auditLog := by
  have ids : ∀ log : List (AuditLogRow c), (log.map link).map Link.id = log.map AuditLogRow.id := by
    intro log
    rw [List.map_map]
    rfl
  have start : Inv (World.start db) := by
    refine ⟨⟨?_, List.forall_mem_map.mpr given, linked_iff.mpr chain.linked⟩, ?_, ?_⟩
    · exact (ids db.auditLog).symm ▸ chain.ordered
    · exact fun tx written => absurd rfl written
    · exact fun tx written => absurd rfl written
  have relies : ∀ e ∈ h, (calls c).Relies e.label := fun e _ => by cases e.label <;> trivial
  have fits := run.fits calls_kept outline_sound relies (fun tid t at_ => by cases at_) start
  exact ⟨ids t.world.db.auditLog ▸ fits.inv.log.ordered, linked_iff.mp fits.inv.log.linked⟩

/-! ## A small run -/

def Small.call : AuditCall Small.auditCodec :=
  { action := .userLogin, actorUserId := some 8, actorUsername := some "bob", targetType := none
    targetId := none, details := "{}", ipAddress := none, requestId := none }

/-- Three calls and a repair begin together.  The second call loses its connection with its row
    inserted; the repair comes before the third. -/
def Small.interleaved : List (Move (auditLog Small.auditCodec).player) :=
  let insert (tid : Nat) : List (Move (auditLog Small.auditCodec).player) :=
    [.run tid .done, .run tid .done, .run tid (.clock 0), .run tid .done]
  [.call (.logEvent Small.call), .call (.logEvent Small.call), .call (.logEvent Small.call),
    .call .repairIntegrity, .run 0 .done, .run 1 .done, .run 2 .done, .run 3 .done] ++
  insert 0 ++ [.run 0 .done] ++ insert 1 ++ [.change (.rollback 1)] ++
  [.run 3 .done, .run 3 .done, .run 3 .done, .run 3 .done] ++ insert 2 ++ [.run 2 .done, .run 3 .done]

def Small.history : List (Event (World Small.auditCodec) (Op Small.auditCodec) Op.Resp (Fn Small.auditCodec)) :=
  (auditLog Small.auditCodec).player.history ⟨World.start Small.auditStart, []⟩ Small.interleaved

theorem committed_log_one_chain_interleaved :
    OneChain (Player.last ⟨World.start Small.auditStart, []⟩ Small.history).world.db.auditLog := by
  have empty : OneChain Small.auditStart.auditLog := ⟨.nil, by simp [Small.auditStart]⟩
  have plays : ((auditLog Small.auditCodec).player.play ⟨World.start Small.auditStart, []⟩
      Small.interleaved).isSome = true := by decide +kernel
  exact committed_log_one_chain empty (by simp [Small.auditStart]) (Player.run_of_play _ plays)

end PatchManager.Audit
