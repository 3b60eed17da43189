import PatchManager.Audit.Log
import Mathlib.Logic.Equiv.Basic
import Mathlib.Tactic.FinCases

/-! # The audit chain

`verify_integrity` finds the chain intact when every row stores the hash of the row before it
and the hash of its own fields.  An append keeps that if the row's texts read back from the
database as they were written; deleting a user breaks it if the user is the actor of a row.

Main results:

* `audit_chain_intact_iff`: the chain is intact at every point of a run exactly when every
  operation is harmless.
* `tampering_detected_iff`: a changed row is noticed exactly when its fields, joined without
  separators, make a different text.
-/

namespace PatchManager

open PatchManager.Chain

variable {c : AuditCodec}

/-- `verify_integrity` reports the chain intact. -/
def AuditDb.ChainIntact (db : AuditDb c) : Prop :=
  (verifyIntegrity (.ok (db.auditLog.map AuditLogRow.read))).intact = true

/-- The chain of the audit log. -/
def auditLinks (c : AuditCodec) : Links (AuditLogRow c) String where
  prev := AuditLogRow.prevHash
  hash := AuditLogRow.rowHash
  digest row := row.read.computedHash row.prevHash

theorem integrityErrors_eq_nil {expected : String} {rows : List (AuditLogRow c)} :
    integrityErrors expected (rows.map AuditLogRow.read) = [] ↔
      LinkedFrom (auditLinks c) expected rows := by
  induction rows generalizing expected with
  | nil => simp [integrityErrors, LinkedFrom]
  | cons row rest ih =>
    simp only [List.map_cons, integrityErrors, List.append_eq_nil_iff, ite_eq_right_iff,
      List.cons_ne_nil, imp_false, ne_eq, not_not]
    rw [and_assoc]
    exact and_congr_right' (and_congr_right' ih)

theorem chainIntact_iff_linked {db : AuditDb c} :
    db.ChainIntact ↔ LinkedFrom (auditLinks c) "" db.auditLog := by
  rw [← integrityErrors_eq_nil]
  simp [AuditDb.ChainIntact, verifyIntegrity]

/-! ## Operations -/

/-- The details and the address of a call read back from the database as the texts that were
    hashed. -/
def AuditCall.ReadsBack (call : AuditCall c) : Prop :=
  c.detailsText (c.readDetails call.details) ++ (call.ipAddress.map c.hostText).getD "" =
    c.detailsText call.details ++ (call.ipAddress.map c.ipText).getD ""

/-- The operation does not change what a row's hash is computed from. -/
def AuditOp.Harmless (db : AuditDb c) : AuditOp c → Prop
  | logEvent call _ => call.ReadsBack
  | deleteUser id => ∀ row ∈ db.auditLog, row.actorUserId ≠ some id
  | _ => True

/-- What is hashed for the row of a call and what is recomputed for it, without what comes
    before and after the two values that may read differently. -/
theorem AuditCall.hash_input (call : AuditCall c) (prev : String) (now : Time) (id : Nat) :
    ∃ before after, (call.row prev now id).rowHash =
        c.sha256 (before ++ (c.detailsText call.details ++ (call.ipAddress.map c.ipText).getD "") ++
          after) ∧
      (call.row prev now id).read.computedHash prev =
        c.sha256 (before ++ (c.detailsText (c.readDetails call.details) ++
          (call.ipAddress.map c.hostText).getD "") ++ after) := by
  refine ⟨prev ++ call.action.asStr ++ (call.actorUserId.map Uuid.text).getD "" ++
    call.actorUsername.getD "" ++ call.targetType.getD "" ++ call.targetId.getD "",
    call.requestId.getD "" ++ now.rfc3339, ?_, ?_⟩
  · simp only [AuditCall.row, hashInput, String.append_assoc]
  · simp only [AuditCall.row, AuditLogRow.read, AuditRow.computedHash, hashInput, Option.map_some,
      Option.getD_some, String.append_assoc]

theorem AuditCall.sealed_of_readsBack {call : AuditCall c} (back : call.ReadsBack) (prev : String)
    (now : Time) (id : Nat) :
    (call.row prev now id).rowHash = (call.row prev now id).read.computedHash prev := by
  obtain ⟨before, after, written, computed⟩ := call.hash_input prev now id
  rw [written, computed, back]

theorem AuditCall.readsBack_of_sealed {call : AuditCall c} (injective : Function.Injective c.sha256)
    {prev : String} {now : Time} {id : Nat}
    (sealed : (call.row prev now id).rowHash = (call.row prev now id).read.computedHash prev) :
    call.ReadsBack := by
  obtain ⟨before, after, written, computed⟩ := call.hash_input prev now id
  rw [written, computed] at sealed
  have texts := injective sealed
  exact ((String.append_right_inj _).mp ((String.append_left_inj _).mp texts)).symm

theorem Uuid.text_ne_empty (id : Uuid) : Uuid.text id ≠ "" := by
  intro empty
  have length := congrArg String.length empty
  simp [Uuid.text, String.length_append] at length

/-- Taking the actor away from a row changes what is recomputed for it. -/
theorem AuditLogRow.actor_of_computedHash (injective : Function.Injective c.sha256) {id : Uuid}
    {row : AuditLogRow c} {prev : String} (same : (row.withoutActor id).read.computedHash prev =
      row.read.computedHash prev) : row.actorUserId ≠ some id := by
  intro actor
  simp only [AuditLogRow.withoutActor, actor, if_true, AuditLogRow.read, AuditRow.computedHash,
    hashInput, String.append_assoc, Option.map_none, Option.map_some, Option.getD_none,
    Option.getD_some] at same
  have texts := injective same
  have uid := (String.append_left_inj _).mp
    ((String.append_right_inj _).mp ((String.append_right_inj _).mp texts))
  exact Uuid.text_ne_empty id uid.symm

theorem repairRows_eq_restamp {expected : String} {rows : List (AuditLogRow c)} :
    repairRows expected rows = restamp AuditLogRow.repaired (auditLinks c) expected rows := by
  induction rows generalizing expected with
  | nil => rfl
  | cons row rest ih => exact congrArg _ ih

/-! ## Steps and runs -/

theorem AuditDb.prevHash_eq (db : AuditDb c) :
    db.prevHash = endHash (auditLinks c) "" db.auditLog :=
  (endHash_eq_getLast (L := auditLinks c)).symm

/-- A harmless operation keeps the chain intact. -/
theorem AuditOp.intact_of_harmless {db db' : AuditDb c} {op : AuditOp c} (intact : db.ChainIntact)
    (ran : op.run db = some db') (harmless : op.Harmless db) : db'.ChainIntact := by
  rw [chainIntact_iff_linked] at intact ⊢
  cases op with
  | logEvent call now =>
    simp only [run, Option.ite_none_right_eq_some, Option.some.injEq] at ran
    obtain ⟨-, rfl⟩ := ran
    exact linkedFrom_snoc intact db.prevHash_eq (AuditCall.sealed_of_readsBack harmless _ _ _)
  | createUser id => cases ran; exact intact
  | deleteUser id =>
    cases ran
    refine (linkedFrom_map ?_ ?_ intact).mpr fun row mem => ?_
    · intro row; unfold AuditLogRow.withoutActor; split <;> rfl
    · intro row; unfold AuditLogRow.withoutActor; split <;> rfl
    · rw [AuditLogRow.withoutActor, if_neg (harmless row mem)]
  | repairIntegrity =>
    cases ran
    rw [repairRows_eq_restamp]
    exact linkedFrom_restamp (fun _ _ => rfl) fun _ _ => rfl

/-- An operation that keeps the chain intact is harmless, where no two texts have the same
    digest. -/
theorem AuditOp.harmless_of_intact {db db' : AuditDb c} {op : AuditOp c}
    (injective : Function.Injective c.sha256) (intact : db.ChainIntact)
    (ran : op.run db = some db') (intact' : db'.ChainIntact) : op.Harmless db := by
  rw [chainIntact_iff_linked] at intact intact'
  cases op with
  | logEvent call now =>
    simp only [run, Option.ite_none_right_eq_some, Option.some.injEq] at ran
    obtain ⟨-, rfl⟩ := ran
    obtain ⟨-, -, sealed, -⟩ := linkedFrom_append.mp intact'
    exact AuditCall.readsBack_of_sealed injective sealed
  | deleteUser id =>
    cases ran
    have same := (linkedFrom_map (f := AuditLogRow.withoutActor id) ?_ ?_ intact).mp intact'
    · intro row mem
      have kept : (row.withoutActor id).prevHash = row.prevHash := by
        unfold AuditLogRow.withoutActor; split <;> rfl
      have digest : (row.withoutActor id).read.computedHash row.prevHash =
          row.read.computedHash row.prevHash := by simpa only [auditLinks, kept] using same row mem
      exact AuditLogRow.actor_of_computedHash injective digest
    · intro row; unfold AuditLogRow.withoutActor; split <;> rfl
    · intro row; unfold AuditLogRow.withoutActor; split <;> rfl
  | createUser | repairIntegrity => trivial

/-- The chain is intact before every operation of the run and at its end. -/
def IntactThroughout (h : List (AuditDb c × AuditOp c)) (db : AuditDb c) : Prop :=
  (∀ e ∈ h, e.1.ChainIntact) ∧ db.ChainIntact

/-- From an intact chain on, the chain is intact at every point of a run whose operations are
    harmless, and only there. -/
theorem audit_chain_intact_iff {db db' : AuditDb c} {h : List (AuditDb c × AuditOp c)}
    (start : db.ChainIntact) (run : AuditRun db h db') :
    ((∀ e ∈ h, e.2.Harmless e.1) → IntactThroughout h db') ∧
      (Function.Injective c.sha256 → IntactThroughout h db' → ∀ e ∈ h, e.2.Harmless e.1) := by
  induction run with
  | nil => exact ⟨fun _ => ⟨by simp, start⟩, fun _ _ => by simp⟩
  | @snoc h db₁ db₂ op run ran ih =>
    constructor
    · intro harmless
      have before := ih.1 fun e mem => harmless e (by simp [mem])
      refine ⟨fun e mem => ?_, AuditOp.intact_of_harmless before.2 ran (harmless (db₁, op) (by simp))⟩
      rcases List.mem_append.mp mem with old | last
      · exact before.1 e old
      · obtain rfl := List.mem_singleton.mp last
        exact before.2
    · intro injective intact e mem
      have here : db₁.ChainIntact := intact.1 (db₁, op) (by simp)
      rcases List.mem_append.mp mem with old | last
      · exact ih.2 injective ⟨fun e mem => intact.1 e (by simp [mem]), here⟩ e old
      · obtain rfl := List.mem_singleton.mp last
        exact AuditOp.harmless_of_intact injective here ran intact.2

/-! ## A small log -/

namespace Small

def loginText : String :=
  "user_login00000000-0000-0000-0000-000000000008bob{}1970-01-01T00:00:00.000000Z"

def loginDigest : String := "62368815ffea0eef75ead7cc6edac8d64b68f735ba54a6ec2f38b46671ef2e6b"

/-- The same without the actor. -/
def orphanedText : String := "user_loginbob{}1970-01-01T00:00:00.000000Z"

def orphanedDigest : String := "898efc94a6165a6df8065d3bb7871900e0844fa22d45c4e981b776c573e8ce66"

/-- Texts as they are; an injective hash that has the digests of the two texts. -/
def auditCodec : AuditCodec where
  Details := String
  detailsText := id
  readDetails := id
  Ip := String
  ipText := id
  hostText := id
  sha256 text := (Equiv.swap orphanedText orphanedDigest) (Equiv.swap loginText loginDigest text)

theorem sha256_injective : Function.Injective auditCodec.sha256 :=
  (Equiv.swap _ _).injective.comp (Equiv.swap _ _).injective

def auditStart : AuditDb auditCodec := { users := [7, 8], auditLog := [], nextId := 1 }

/-- User 8 logs in. -/
def login : AuditOp auditCodec :=
  .logEvent
    { action := .userLogin, actorUserId := some 8, actorUsername := some "bob", targetType := none
      targetId := none, details := "{}", ipAddress := none, requestId := none } 0

def loginRow : AuditLogRow auditCodec where
  id := 1
  action := .userLogin
  actorUserId := some 8
  actorUsername := some "bob"
  targetType := none
  targetId := none
  details := "{}"
  ipAddress := none
  requestId := none
  createdAt := 0
  rowHash := loginDigest
  prevHash := ""

def loggedIn : AuditDb auditCodec := { users := [7, 8], auditLog := [loginRow], nextId := 2 }

theorem auditStart_intact : auditStart.ChainIntact := rfl

theorem sha256_loginText : auditCodec.sha256 loginText = loginDigest := by
  have other : loginDigest ≠ orphanedText ∧ loginDigest ≠ orphanedDigest := by
    rw [loginDigest, orphanedText, orphanedDigest]
    decide
  show Equiv.swap _ _ (Equiv.swap _ _ loginText) = loginDigest
  rw [Equiv.swap_apply_left, Equiv.swap_apply_of_ne_of_ne other.1 other.2]

theorem login_text :
    hashInput "" "user_login" (Uuid.text 8) "bob" "" "" "{}" "" "" (Time.rfc3339 0) = loginText := by
  decide +kernel

theorem login_run : login.run auditStart = some loggedIn := by
  have digest := sha256_loginText
  rw [← login_text] at digest
  simp only [loggedIn, loginRow]
  rw [← digest]
  rfl

theorem loggedIn_intact : loggedIn.ChainIntact :=
  AuditOp.intact_of_harmless auditStart_intact login_run rfl

end Small

theorem audit_chain_intact_iff_otherUser :
    IntactThroughout [(Small.auditStart, Small.login), (Small.loggedIn, .deleteUser 7)]
      { Small.loggedIn with users := [8] } :=
  (audit_chain_intact_iff Small.auditStart_intact ((AuditRun.nil.snoc Small.login_run).snoc rfl)).1 (by
    intro e mem
    fin_cases mem
    · rfl
    · intro row mem
      obtain rfl := List.mem_singleton.mp mem
      decide)

/-- The actor of a row is deleted. -/
theorem deleted_actor_breaks_chain :
    ¬ ∀ (c : AuditCodec) (db db' : AuditDb c) (h : List (AuditDb c × AuditOp c)),
      db.ChainIntact → AuditRun db h db' → IntactThroughout h db' := by
  intro all
  have run : AuditRun Small.auditStart
      [(Small.auditStart, Small.login), (Small.loggedIn, .deleteUser 8)]
      ⟨[7], [Small.loginRow.withoutActor 8], 2⟩ := (AuditRun.nil.snoc Small.login_run).snoc rfl
  have intact := (all _ _ _ _ Small.auditStart_intact run).2
  have harmless : AuditOp.Harmless Small.loggedIn (.deleteUser 8) :=
    AuditOp.harmless_of_intact Small.sha256_injective Small.loggedIn_intact rfl intact
  exact harmless Small.loginRow (by simp [Small.loggedIn]) rfl

/-! ## Tampering -/

/-- The values a row's hash covers. -/
def AuditLogRow.fields (row : AuditLogRow c) :=
  (row.action, row.actorUserId, row.actorUsername, row.targetType, row.targetId, row.details,
    row.ipAddress, row.requestId, row.createdAt)

/-- Their texts as `verify_integrity` hashes them, in its order. -/
def AuditLogRow.fieldTexts (row : AuditLogRow c) : List String :=
  [row.action.asStr, (row.actorUserId.map Uuid.text).getD "", row.actorUsername.getD "",
    row.targetType.getD "", row.targetId.getD "", c.detailsText (c.readDetails row.details),
    (row.ipAddress.map c.hostText).getD "", row.requestId.getD "", row.createdAt.rfc3339]

theorem AuditLogRow.computedHash_eq (row : AuditLogRow c) (prev : String) :
    row.read.computedHash prev = c.sha256 (prev ++ String.join row.fieldTexts) := by
  simp only [read, AuditRow.computedHash, hashInput, fieldTexts, String.join_cons, String.join_nil,
    String.append_empty, String.append_assoc, Option.map_some, Option.getD_some]

section replaced

variable {db : AuditDb c} {before after : List (AuditLogRow c)} {row row' : AuditLogRow c}

/-- A row changed under its stored hashes leaves the chain intact exactly when the texts of its
    fields, joined, are still the same text. -/
theorem replaced_intact_iff (injective : Function.Injective c.sha256) (intact : db.ChainIntact)
    (log : db.auditLog = before ++ row :: after) (prev : row'.prevHash = row.prevHash)
    (hash : row'.rowHash = row.rowHash) :
    ({ db with auditLog := before ++ row' :: after } : AuditDb c).ChainIntact ↔
      String.join row'.fieldTexts = String.join row.fieldTexts := by
  rw [chainIntact_iff_linked, log] at intact
  rw [chainIntact_iff_linked, linkedFrom_replace intact prev hash]
  simp only [auditLinks, AuditLogRow.computedHash_eq, prev, injective.eq_iff, String.append_right_inj]

theorem tampering_detected_iff (injective : Function.Injective c.sha256) (intact : db.ChainIntact)
    (log : db.auditLog = before ++ row :: after) (prev : row'.prevHash = row.prevHash)
    (hash : row'.rowHash = row.rowHash) :
    ¬ ({ db with auditLog := before ++ row' :: after } : AuditDb c).ChainIntact ↔
      String.join row'.fieldTexts ≠ String.join row.fieldTexts :=
  not_congr (replaced_intact_iff injective intact log prev hash)

/-- Changing one text of a list changes what they join to. -/
theorem join_set_iff {texts : List String} {k : Nat} (inside : k < texts.length) {text : String} :
    String.join (texts.set k text) = String.join texts ↔ text = texts[k] := by
  conv_lhs => rhs; rw [← List.set_getElem_self inside]
  rw [List.set_eq_take_append_cons_drop, List.set_eq_take_append_cons_drop, if_pos inside,
    if_pos inside]
  simp only [String.join_append, String.join_cons, String.append_right_inj, String.append_left_inj]

/-- A change of one field goes unnoticed only where its text stays the same, as when NULL takes
    the place of the empty text. -/
theorem field_change_intact_iff (injective : Function.Injective c.sha256) (intact : db.ChainIntact)
    (log : db.auditLog = before ++ row :: after) (prev : row'.prevHash = row.prevHash)
    (hash : row'.rowHash = row.rowHash) {k : Nat} (inside : k < row.fieldTexts.length)
    {text : String} (changed : row'.fieldTexts = row.fieldTexts.set k text) :
    ({ db with auditLog := before ++ row' :: after } : AuditDb c).ChainIntact ↔
      text = row.fieldTexts[k] := by
  rw [replaced_intact_iff injective intact log prev hash, changed, join_set_iff inside]

end replaced

/-- The row of the login with another name in it. -/
def Small.renamedRow : AuditLogRow Small.auditCodec := { Small.loginRow with actorUsername := some "eve" }

theorem tampering_detected_iff_renamed :
    ¬ ({ Small.loggedIn with auditLog := [] ++ [Small.renamedRow] } :
      AuditDb Small.auditCodec).ChainIntact :=
  (tampering_detected_iff Small.sha256_injective Small.loggedIn_intact
    (show Small.loggedIn.auditLog = [] ++ Small.loginRow :: [] from rfl)
    (show Small.renamedRow.prevHash = Small.loginRow.prevHash from rfl) rfl).mpr (by decide +kernel)

/-- The last letter of the actor's name moves to the target type. -/
theorem shifted_fields_undetected :
    ¬ ∀ (c : AuditCodec), Function.Injective c.sha256 → ∀ (db : AuditDb c)
      (before after : List (AuditLogRow c)) (row row' : AuditLogRow c), db.ChainIntact →
      db.auditLog = before ++ row :: after → row'.prevHash = row.prevHash →
      row'.rowHash = row.rowHash → row'.fields ≠ row.fields →
      ¬ ({ db with auditLog := before ++ row' :: after } : AuditDb c).ChainIntact := by
  intro all
  refine all Small.auditCodec Small.sha256_injective Small.loggedIn [] [] Small.loginRow
    { Small.loginRow with actorUsername := some "bo", targetType := some "b" }
    Small.loggedIn_intact rfl rfl rfl ?_ ?_
  · intro same
    exact absurd (congrArg (fun fields => fields.2.2.1) same) (by decide)
  · refine (replaced_intact_iff Small.sha256_injective Small.loggedIn_intact
      (show Small.loggedIn.auditLog = [] ++ Small.loginRow :: [] from rfl) rfl rfl).mpr ?_
    simp only [AuditLogRow.fieldTexts, Small.loginRow, String.join_cons, Option.getD_some, Option.getD_none]

end PatchManager
