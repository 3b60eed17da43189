import PatchManager.Ca.Authority

/-! # The list of revoked certificates

A list is read from the certificates there are.  A row that has been revoked stays as it is until
it is revoked again or its host is removed, and only those two take its entry away or date it anew.

Main results:

* `revocation_monotone`: without those, every later list has the entry of the first revocation.
* `removal_unlists`, `revoked_again_redates`: either of them takes the entry of the first away.
-/

namespace PatchManager.Ca

open PatchManager.Conc

abbrev State := Sys World Op Op.Resp Fn
abbrev Ev := Event World Op Op.Resp Fn
abbrev History := List Ev

variable {caRootPem : String} {s t : State} {h : History} {w w' : World} {c : Certificate} {first : Time}
  {l : Label Op Op.Resp Fn}

structure Initial (s : State) : Prop where
  tasks : s.tasks = []
  ids : (s.world.certificates.map (·.id)).Nodup

/-- The step revokes the certificate, for the first time. -/
def Revokes (c : Certificate) (e : Ev) : Prop :=
  c ∈ e.pre.world.certificates ∧ c.status ≠ .revoked ∧
    ∃ row ∈ e.post.world.certificates, row.id = c.id ∧ row.status = .revoked

/-- A list that is read and signed after the first revocation of a certificate, and read before
    it expires, has its serial number with the time of that revocation. -/
def RevocationMonotone (h : History) : Prop :=
  ∀ h₁ e m₁ x m₂ y m₃, h = h₁ ++ e :: (m₁ ++ x :: (m₂ ++ y :: m₃)) → ∀ c, Revokes c e →
    ∀ tid r revoked crl, x.label = .op tid .selectRevoked r → y.label = .op tid (.signCrl revoked) crl →
      x.pre.world.now < c.expiresAt → ∃ serialNumber, hexDecode c.serialNumber.toList = some serialNumber ∧
        ⟨serialNumber, e.pre.world.now / microsPerSecond⟩ ∈ revoked

/-- No certificate that is on the list is revoked again or goes with its host. -/
def spares (w : World) : Label Op Op.Resp Fn → Bool
  | .op _ (.revokeCertificate id) (.ok _) => w.certificates.all fun c => c.id != id || !c.isListed w.now
  | .op _ (.deleteHost id) (.ok _) => w.certificates.all fun c => c.hostId != some id || !c.isListed w.now
  | _ => true

/-! ## Programs -/

def Op.plain : Op → Prop
  | .selectRevoked | .signCrl _ => False
  | _ => True

/-- What is signed as a list has been read before. -/
def shape : Fn → List (Exchange Op Op.Resp) → Op → Prop
  | .getCrl, done, .selectRevoked => done = []
  | .getCrl, done, .signCrl revoked => ∃ rows, done = [⟨.selectRevoked, .ok rows⟩] ∧ revokedCerts rows = .ok revoked
  | _, _, o => o.plain

section programs

variable {α : Type} {ops : Op → Prop} {fns tails : Fn → Prop}

theorem perform_within {o : Op} (permitted : ops o) : (perform o).Within ops fns tails :=
  .op permitted fun _ => .ret _

theorem inContext_within {context : String} {p : Proc (Except String α)} (within : p.Within ops fns tails) :
    (inContext context p).Within ops fns tails :=
  within.bind fun _ => .ret _

theorem orError_within {error : String → ApiError} {p : Proc (Except String α)}
    (within : p.Within ops fns tails) : (orError error p).Within ops fns tails :=
  within.bind fun _ => .ret _

theorem issueCert_within (context : String) (hostId : Uuid) (commonName : String) (names : List String) :
    (issueCert context hostId commonName names).Within Op.plain fns tails :=
  .attempt (perform_within trivial) fun _ =>
    .attempt (inContext_within (perform_within trivial)) fun _ => .ret _

theorem issueClientCert_within (hostId : Uuid) (hostname ipAddress : String) :
    (issueClientCert caRootPem hostId hostname ipAddress).Within Op.plain fns tails :=
  .attempt (issueCert_within _ _ _ _) fun _ => .attempt (issueCert_within _ _ _ _) fun _ => .ret _

theorem revokeCert_within (certId : Uuid) : (revokeCert certId).Within Op.plain fns tails :=
  .attempt (inContext_within (perform_within trivial)) fun _ => .ret _

theorem renewCert_within (certId : Uuid) : (renewCert caRootPem certId).Within Op.plain fns tails := by
  refine .attempt (inContext_within (perform_within trivial)) fun row => ?_
  split
  · exact .ret _
  · exact .ret _
  · refine .attempt (inContext_within (perform_within trivial)) fun host => ?_
    split
    · exact .ret _
    · exact .attempt (revokeCert_within certId) fun _ => issueClientCert_within _ _ _

theorem fetchHost_within (hostId : Uuid) : (fetchHost hostId).Within Op.plain fns tails :=
  .attempt (orError_within (perform_within trivial)) fun _ => .ret _

/-- The other routes do not touch lists. -/
theorem body_within {f : Fn} (other : f ≠ .getCrl) : (body caRootPem f).Within Op.plain fns tails := by
  cases f with
  | issueClientCert auth hostId hostname =>
    exact .bind (.ite (.ret _) (.attempt (fetchHost_within _) fun _ =>
      orError_within (issueClientCert_within _ _ _))) fun _ => .ret _
  | renewCert auth certId => exact .bind (.ite (.ret _) (orError_within (renewCert_within _))) fun _ => .ret _
  | reissueHostCert auth hostId =>
    exact .bind (.ite (.ret _) (.attempt (fetchHost_within _) fun _ =>
      .attempt (orError_within (perform_within trivial)) fun _ =>
        orError_within (issueClientCert_within _ _ _))) fun _ => .ret _
  | revokeCert auth certId => exact .bind (.ite (.ret _) (orError_within (revokeCert_within _))) fun _ => .ret _
  | getCrl => exact absurd rfl other
  | removeHost auth id =>
    exact .bind (.ite (.ret _) (.bind (perform_within trivial) fun _ =>
      .attempt (orError_within (perform_within trivial)) fun _ => .ret _)) fun _ => .ret _

theorem body_shaped (f : Fn) : (body caRootPem f).Along (shaped shape) (fun _ _ => True) (.init f) := by
  by_cases list : f = .getCrl
  · subst list
    refine ⟨fun f root => ?_, fun r _ => ?_⟩
    · obtain rfl := Option.some.inj root
      rfl
    · cases r with
      | error reason => trivial
      | ok rows =>
        simp only [Prog.ret_bind, Except.mapError]
        cases read : revokedCerts rows with
        | error reason => trivial
        | ok revoked =>
          refine ⟨fun f root => ?_, fun _ _ => trivial⟩
          obtain rfl := Option.some.inj root
          exact ⟨rows, rfl, read⟩
  · have permits : ∀ g, (Traced.init f : Traced Op Op.Resp Fn).root = some g →
        ∀ l o, Op.plain o → shape g l o := by
      intro g root l o plain
      obtain rfl := Option.some.inj root
      cases f <;> first | exact plain | exact absurd rfl list
    have within : (body caRootPem f).Within Op.plain (fun _ => False) fun _ => False := body_within list
    exact (within.returned permits).weaken fun _ _ _ => trivial

end programs

/-! ## Steps -/

/-- What one step does to the world. -/
inductive Moves (w : World) : Label Op Op.Resp Fn → World → Prop
  | insert {l : Label Op Op.Resp Fn} (cert : NewCertificate) (id : Uuid) : Moves w l (insert w cert id).2
  | revoke {tid n : Nat} (id : Uuid) : Moves w (.op tid (.revokeCertificate id) (.ok n))
      { w with certificates := (revoke (·.id == id) w.now).apply w.certificates }
  | revokeActive {l : Label Op Op.Resp Fn} (hostId : Uuid) : Moves w l
      { w with certificates :=
        (Ca.revoke (fun c => c.hostId == some hostId && c.status == .active) w.now).apply w.certificates }
  | remove {tid n : Nat} (id : Uuid) : Moves w (.op tid (.deleteHost id) (.ok n)) { w with
      hosts := w.hosts.filter (·.id != id), certificates := w.certificates.filter (·.hostId != some id) }
  | host {l : Label Op Op.Resp Fn} (hosts : List HostRow) : Moves w l { w with hosts }
  | tick {l : Label Op Op.Resp Fn} (micros : Nat) : Moves w l { w with now := w.now + micros }
  | idle {l : Label Op Op.Resp Fn} : Moves w l w

theorem moves_of_step (step : Step (authority caRootPem).machine s l t) : Moves s.world l t.world := by
  rcases Service.world_cases step with ⟨tid, o, r, a, rfl, done⟩ | ⟨d, rfl, moved⟩ | ⟨rfl, moved⟩ | ⟨-, same⟩
  · change execute s.world o a = some (r, t.world) at done
    cases o with
    | insertCertificate cert =>
      cases a with
      | row id =>
        obtain ⟨-, moved⟩ := Prod.mk.inj (Option.some.inj done)
        exact moved ▸ .insert cert id
      | failed reason =>
        obtain ⟨-, moved⟩ := Prod.mk.inj (Option.some.inj done)
        exact moved ▸ .idle
      | _ => cases done
    | revokeCertificate id =>
      cases a with
      | ok =>
        obtain ⟨rfl, moved⟩ := Prod.mk.inj (Option.some.inj done)
        exact moved ▸ .revoke id
      | failed reason =>
        obtain ⟨-, moved⟩ := Prod.mk.inj (Option.some.inj done)
        exact moved ▸ .idle
      | _ => cases done
    | revokeActive hostId =>
      cases a with
      | ok =>
        obtain ⟨-, moved⟩ := Prod.mk.inj (Option.some.inj done)
        exact moved ▸ .revokeActive hostId
      | failed reason =>
        obtain ⟨-, moved⟩ := Prod.mk.inj (Option.some.inj done)
        exact moved ▸ .idle
      | _ => cases done
    | deleteHost id =>
      cases a with
      | ok =>
        obtain ⟨rfl, moved⟩ := Prod.mk.inj (Option.some.inj done)
        exact moved ▸ .remove id
      | failed reason =>
        obtain ⟨-, moved⟩ := Prod.mk.inj (Option.some.inj done)
        exact moved ▸ .idle
      | _ => cases done
    | selectHost | selectCertificate | signCert | selectRevoked | signCrl =>
      -- the other operations read
      have same : t.world = s.world := by
        cases a <;> first | exact (Prod.mk.inj (Option.some.inj done)).2.symm | cases done
      exact same ▸ .idle
  · change t.world = change s.world d at moved
    rw [moved]
    cases d with
    | tick micros => exact .tick micros
    | host row => exact .host _
    | issued cert id => exact .insert cert id
  · exact moved ▸ .idle
  · exact same ▸ .idle

theorem insert_cases (cert : NewCertificate) (id : Uuid) : (insert w cert id).2 = w ∨
    (∀ c ∈ w.certificates, c.id ≠ id) ∧
      (insert w cert id).2 = { w with certificates := cert.row id w.now :: w.certificates } := by
  unfold insert
  split_ifs with duplicate host
  · exact .inl rfl
  · simp only [List.any_eq_true, not_exists, not_and, Bool.or_eq_true, beq_iff_eq, not_or] at duplicate
    exact .inr ⟨fun c mem => (duplicate c mem).1, rfl⟩
  · exact .inl rfl

theorem revoke_keeps_id (cond : Certificate → Bool) (now : Time) : (revoke cond now).Keeps (·.id) :=
  fun _ _ => rfl

theorem ids_apply (cond : Certificate → Bool) (now : Time) (rows : List Certificate) :
    ((revoke cond now).apply rows).map (·.id) = rows.map (·.id) := by
  rw [Sql.Update.apply, List.map_map]
  exact List.map_congr_left fun c _ => (revoke_keeps_id cond now).onRow c

/-- Identifiers are not given twice. -/
theorem Moves.ids (moves : Moves w l w') (distinct : (w.certificates.map (·.id)).Nodup) :
    (w'.certificates.map (·.id)).Nodup := by
  cases moves with
  | insert cert id =>
    rcases insert_cases cert id with same | ⟨new, inserted⟩
    · rwa [same]
    · rw [inserted]
      refine List.nodup_cons.mpr ⟨fun mem => ?_, distinct⟩
      obtain ⟨c, there, same⟩ := List.mem_map.mp mem
      exact new c there same
  | revoke id => rwa [ids_apply]
  | revokeActive hostId => rwa [ids_apply]
  | remove id => exact distinct.sublist (List.filter_sublist.map _)
  | host hosts => exact distinct
  | tick micros => exact distinct
  | idle => exact distinct

/-- The row of a certificate after its revocation. -/
def Certificate.revokedOn (c : Certificate) (first : Time) : Certificate :=
  { c with status := .revoked, revokedAt := some first }

/-- As long as the certificate has not expired, its row is there as it was first revoked. -/
def Stays (c : Certificate) (first : Time) (w : World) : Prop :=
  w.now < c.expiresAt → c.revokedOn first ∈ w.certificates

theorem isListed_revokedOn (unexpired : w.now < c.expiresAt) : (c.revokedOn first).isListed w.now = true := by
  simp [Certificate.isListed, Certificate.revokedOn, unexpired]

theorem Moves.stays (moves : Moves w l w') (spared : spares w l = true) (stays : Stays c first w) :
    Stays c first w' := by
  have kept {u : Sql.Update Certificate} (there : c.revokedOn first ∈ w.certificates)
      (unmet : u.cond (c.revokedOn first) = false) : c.revokedOn first ∈ u.apply w.certificates :=
    Sql.Update.mem_apply.mpr ⟨_, there, Sql.Update.onRow_eq_self unmet⟩
  cases moves with
  | insert cert id =>
    rcases insert_cases cert id with same | ⟨-, inserted⟩
    · rwa [same]
    · rw [inserted]
      exact fun unexpired => List.mem_cons_of_mem _ (stays unexpired)
  | revoke id =>
    intro unexpired
    have there := stays unexpired
    have spared := List.all_eq_true.mp spared _ there
    rw [isListed_revokedOn unexpired] at spared
    exact kept there (by simpa [Ca.revoke] using spared)
  | revokeActive hostId => exact fun unexpired => kept (stays unexpired) (by simp [Ca.revoke, Certificate.revokedOn])
  | remove id =>
    intro unexpired
    have there := stays unexpired
    have spared := List.all_eq_true.mp spared _ there
    rw [isListed_revokedOn unexpired] at spared
    exact List.mem_filter.mpr ⟨there, by simpa using spared⟩
  | host hosts => exact stays
  | tick micros => exact fun unexpired => stays (Int.lt_of_le_of_lt (Int.le_add_of_nonneg_right (by simp)) unexpired)
  | idle => exact stays

/-- What the first revocation leaves. -/
theorem Moves.revoked (moves : Moves w l w') (distinct : (w.certificates.map (·.id)).Nodup)
    (there : c ∈ w.certificates) (unrevoked : c.status ≠ .revoked) {row : Certificate}
    (mem : row ∈ w'.certificates) (same : row.id = c.id) (revoked : row.status = .revoked) :
    Stays c w.now w' := by
  have unique : ∀ c' ∈ w.certificates, c'.id = c.id → c' = c := fun c' mem' same' =>
    List.inj_on_of_nodup_map distinct mem' there same'
  have new : row ∉ w.certificates := fun mem' => unrevoked (unique row mem' same ▸ revoked)
  have updated {cond : Certificate → Bool} (mem : row ∈ (Ca.revoke cond w.now).apply w.certificates) :
      c.revokedOn w.now ∈ (Ca.revoke cond w.now).apply w.certificates := by
    obtain ⟨c', mem', eq⟩ := Sql.Update.mem_apply.mp mem
    obtain rfl : c' = c := unique c' mem' (by rw [← (revoke_keeps_id cond w.now).onRow c', eq, same])
    refine Sql.Update.mem_apply.mpr ⟨c', mem', Sql.Update.onRow_eq_assign ?_⟩
    by_contra unmet
    rw [Sql.Update.onRow_eq_self (Bool.not_eq_true _ ▸ unmet)] at eq
    exact new (eq ▸ mem')
  cases moves with
  | insert cert id =>
    rcases insert_cases cert id with same' | ⟨-, inserted⟩
    · rw [same'] at mem
      exact absurd mem new
    · rw [inserted] at mem
      rcases List.mem_cons.mp mem with rfl | mem
      · cases revoked
      · exact absurd mem new
  | revoke id => exact fun _ => updated mem
  | revokeActive hostId => exact fun _ => updated mem
  | remove id => exact absurd (List.mem_filter.mp mem).1 new
  | host hosts => exact absurd mem new
  | tick micros => exact absurd mem new
  | idle => exact absurd mem new

/-! ## Lists -/

/-- The rows of a list are those revoked and unexpired. -/
theorem mem_revokedRows (there : c.revokedOn first ∈ w.certificates) (unexpired : w.now < c.expiresAt) :
    (c.serialNumber, first) ∈ revokedRows w := by
  refine List.mem_mergeSort.mpr (List.mem_filterMap.mpr ⟨c.revokedOn first, ?_, rfl⟩)
  exact List.mem_filter.mpr ⟨there, isListed_revokedOn unexpired⟩

theorem mem_revokedCerts {rows : List (String × Time)} {revoked : List RevokedCert} {serialHex : String}
    (read : revokedCerts rows = .ok revoked) (mem : (serialHex, first) ∈ rows) :
    ∃ serialNumber, hexDecode serialHex.toList = some serialNumber ∧
      ⟨serialNumber, first / microsPerSecond⟩ ∈ revoked := by
  induction rows generalizing revoked with
  | nil => cases mem
  | cons row rows ih =>
    obtain ⟨hex, revokedAt⟩ := row
    rw [revokedCerts, List.mapM_cons] at read
    dsimp only at read
    cases decoded : hexDecode hex.toList with
    | none =>
      rw [decoded] at read
      cases read
    | some serialNumber =>
      rw [decoded] at read
      cases tail : revokedCerts rows with
      | error reason =>
        rw [← revokedCerts, tail] at read
        cases read
      | ok rest =>
        rw [← revokedCerts, tail] at read
        cases read
        rcases List.mem_cons.mp mem with same | mem
        · obtain ⟨rfl, rfl⟩ := Prod.mk.inj same
          exact ⟨serialNumber, decoded, List.mem_cons_self⟩
        · obtain ⟨serialNumber, decoded, mem⟩ := ih tail mem
          exact ⟨serialNumber, decoded, List.mem_cons_of_mem _ mem⟩

theorem rows_of_select {tid : Nat} {rows : List (String × Time)}
    (step : Step (authority caRootPem).machine s (.op tid .selectRevoked (.ok rows)) t) :
    rows = revokedRows s.world := by
  obtain ⟨_, _, _, -, ⟨a, done⟩, -⟩ := step.op_inv
  change execute s.world .selectRevoked a = _ at done
  cases a <;> cases done
  rfl

/-- Where nothing on a list is revoked again or goes with its host, revocation is monotone. -/
theorem revocation_monotone (initial : Initial s) (run : Run (authority caRootPem).machine s h t)
    (spared : ∀ e ∈ h, spares e.pre.world e.label = true) : RevocationMonotone h := by
  intro h₁ e m₁ x m₂ y m₃ split c ⟨there, unrevoked, row, mem, same, revoked⟩ tid r entries crl reads signs unexpired
  subst split
  obtain ⟨before, step, later⟩ := run.split_event
  obtain ⟨between, reading, -⟩ := later.split_event
  have distinct := before.preserves (I := fun s => (s.world.certificates.map (·.id)).Nodup)
    (fun _ _ step => (moves_of_step step).ids) initial.ids
  -- the row is there after the revocation, and still when the list is read
  have start := (moves_of_step step).revoked distinct there unrevoked mem same revoked
  have stays := between.preserves (I := fun s => Stays c e.pre.world.now s.world)
    (fun e' mem step => (moves_of_step step).stays (spared e' (by simp [mem]))) start
  -- and what has been read is what is signed
  have whole : h₁ ++ e :: (m₁ ++ x :: (m₂ ++ y :: m₃)) = (h₁ ++ e :: (m₁ ++ x :: m₂)) ++ y :: m₃ := by simp
  obtain ⟨task, -, shape_of⟩ := (whole ▸ run).shaped initial.tasks body_shaped signs
  have read : ⟨Op.selectRevoked, r⟩ ∈ exchanges tid (h₁ ++ e :: (m₁ ++ x :: m₂)) := mem_exchanges (by simp) reads
  cases list : task.root with
  | getCrl =>
    rw [list] at shape_of
    obtain ⟨rows, done, decoded⟩ := shape_of
    rw [done, List.mem_singleton] at read
    obtain rfl : r = .ok rows := by simpa using read
    rw [reads] at reading
    obtain rfl := rows_of_select reading
    exact mem_revokedCerts decoded (mem_revokedRows (stays unexpired) unexpired)
  | _ =>
    rw [list] at shape_of
    exact shape_of.elim

namespace Small

def player : Player (authority "root").machine := (authority "root").player

def admin : AuthUser := ⟨9, "root", .admin⟩

def certificate : Certificate where
  id := 7
  hostId := some 1
  serialNumber := "0a1b"
  commonName := "web"
  status := .active
  issuedAt := 0
  expiresAt := 31536000000000
  revokedAt := none
  certPem := "pem"

def start : State := ⟨{ hosts := [⟨1, "web", "10.0.0.1"⟩], certificates := [certificate], now := 5000000 }, []⟩

/-- The certificate is revoked, by task 0. -/
def revokes : List (Move player) := [.call (.revokeCert admin 7), .run 0 .ok]

/-- A list is generated, by task `tid`. -/
def lists (tid : Nat) : List (Move player) := [.call .getCrl, .run tid .ok, .run tid (.text "crl")]

/-- Certificates are issued again before the list is generated. -/
def reissued : List (Move player) :=
  revokes ++ [.change (.tick 60000000), .call (.reissueHostCert admin 1), .run 1 .ok, .run 1 .ok,
    .run 1 (.signed ⟨"0c", 31536000000000, "pem", "key"⟩), .run 1 (.row 8)] ++ lists 2

/-- The host is removed before the list is generated. -/
def removed : List (Move player) := revokes ++ [.call (.removeHost admin 1), .run 1 .ok, .run 1 .ok] ++ lists 2

/-- The certificate is revoked again a minute later. -/
def revokedAgain : List (Move player) :=
  revokes ++ [.change (.tick 60000000), .call (.revokeCert admin 7), .run 1 .ok] ++ lists 2

theorem start_initial : Initial start := ⟨rfl, by decide⟩

/-- The entry of the first revocation. -/
def entry : RevokedCert := ⟨[0x0a, 0x1b], 5⟩

/-- The step revokes the certificate, five seconds after the start. -/
def revokesFirst (e : Ev) : Bool :=
  decide (certificate ∈ e.pre.world.certificates) && decide (e.pre.world.now = 5000000) &&
    (e.post.world.certificates.any fun row => row.id == 7 && row.status == .revoked)

/-- The step reads a list for task 2 before the certificate expires. -/
def readsList (e : Ev) : Bool :=
  match e.label with
  | .op tid .selectRevoked _ => tid == 2 && decide (e.pre.world.now < certificate.expiresAt)
  | _ => false

/-- The step signs a list, for task 2, that does not have the entry. -/
def signsWithout (e : Ev) : Bool :=
  match e.label with
  | .op tid (.signCrl revoked) _ => tid == 2 && !revoked.contains entry
  | _ => false

/-- The certificate is revoked, and a list that is read later does not have the entry. -/
theorem not_monotone {h : History} {i j : Nat} (before : i < j) (revokes : (h[i]?).any revokesFirst = true)
    (reads : (h[j]?).any readsList = true) (signs : (h.drop (j + 1)).any signsWithout = true) :
    ¬ RevocationMonotone h := by
  intro monotone
  obtain ⟨e, at_e, first⟩ := (Option.any_eq_true _ _).mp revokes
  obtain ⟨x, at_x, reading⟩ := (Option.any_eq_true _ _).mp reads
  obtain ⟨y, mem, signing⟩ := List.any_eq_true.mp signs
  obtain ⟨m₂, m₃, later⟩ := List.append_of_mem mem
  have split := exists_split_of_getElem? at_e at_x before
  rw [later] at split
  simp only [revokesFirst, Bool.and_eq_true, decide_eq_true_eq, List.any_eq_true, beq_iff_eq] at first
  obtain ⟨⟨there, now⟩, row, mem, same, revoked⟩ := first
  unfold readsList at reading
  unfold signsWithout at signing
  split at reading
  · rename_i label
    split at signing
    · rename_i label'
      simp only [Bool.and_eq_true, beq_iff_eq, decide_eq_true_eq, Bool.not_eq_true', List.contains_eq_mem,
        decide_eq_false_iff_not] at reading signing
      obtain ⟨rfl, unexpired⟩ := reading
      obtain ⟨rfl, missing⟩ := signing
      obtain ⟨serialNumber, serial, listed⟩ := monotone _ e _ x m₂ y m₃ split certificate
        ⟨there, by decide, row, mem, same, revoked⟩ 2 _ _ _ label label' unexpired
      rw [now] at listed
      have bytes : hexDecode certificate.serialNumber.toList = some [0x0a, 0x1b] := by decide +kernel
      obtain rfl := Option.some.inj (bytes.symm.trans serial)
      exact missing listed
    · cases signing
  · cases reading

end Small

theorem revocation_monotone_reissued : RevocationMonotone (Small.player.history Small.start Small.reissued) := by
  have plays : (Small.player.play Small.start Small.reissued).isSome = true := by decide +kernel
  refine revocation_monotone Small.start_initial (Small.player.run_of_play plays) ?_
  exact List.all_eq_true.mp (by decide +kernel)

/-- The certificates of a host that is removed are not on any list. -/
theorem removal_unlists : ¬ ∀ (caRootPem : String) (s t : State) (h : History), Initial s →
    Run (authority caRootPem).machine s h t → RevocationMonotone h := by
  intro all
  have plays : (Small.player.play Small.start Small.removed).isSome = true := by decide +kernel
  exact Small.not_monotone (i := 1) (j := 6) (by decide) (by decide +kernel) (by decide +kernel) (by decide +kernel)
    (all "root" _ _ _ Small.start_initial (Small.player.run_of_play plays))

/-- A certificate that is revoked again has the time of that. -/
theorem revoked_again_redates :
    ¬ RevocationMonotone (Small.player.history Small.start Small.revokedAgain) :=
  Small.not_monotone (i := 1) (j := 6) (by decide) (by decide +kernel) (by decide +kernel) (by decide +kernel)

end PatchManager.Ca
