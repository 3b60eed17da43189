import PatchManager.Verified.Revocation

/-! # Renewed certificates come in pairs

A host is given a pair of certificates, one for its client and one for its server.  A reissue
revokes what is active and issues a pair; a renewal revokes one certificate and issues a pair under
the name of that one, so three are active after it.  Either revokes before it issues, and what
fails in between leaves the host without.

Main results:

* `calls_lawful_iff`: the pair is kept over a sequence of calls exactly when no renewal and no
  unfinished reissue revokes anything.
* `renewal_leaves_three`: a renewal that succeeds.
-/

namespace PatchManager.Ca

open PatchManager.Conc
open PatchManager.Enrollment (Signed IssuedCert)

/-! ## What is active -/

/-- The active certificates of a host. -/
def actives (w : World) (hostId : Uuid) : List Certificate :=
  w.certificates.filter fun c => c.hostId == some hostId && c.status == .active

theorem mem_actives {w : World} {hostId : Uuid} {c : Certificate} :
    c ∈ actives w hostId ↔ c ∈ w.certificates ∧ c.hostId = some hostId ∧ c.status = .active := by
  simp [actives]

/-- One certificate for the client and one for the server are active, with the names that an
    enrollment gives them.  `names` reads the alternative names of a certificate. -/
def Pair (names : String → List String) (host : HostRow) (w : World) : Prop :=
  ∃ client server, (actives w host.id).Perm [client, server] ∧
    client.commonName = host.fqdn ∧ names client.certPem = [] ∧
    server.commonName = host.fqdn ++ "-server" ∧ host.fqdn ∈ names server.certPem

/-- Rows with new identifiers are put in front. -/
def Extends (w w' : World) : Prop :=
  ∃ new, w'.certificates = new ++ w.certificates ∧ ∀ row ∈ new, ∀ c ∈ w.certificates, row.id ≠ c.id

/-- What an update has revoked does not become active by issuing. -/
theorem not_mem_actives {w w₁ w' : World} {hostId : Uuid} {c : Certificate} {cond : Certificate → Bool} {now : Time}
    (there : c ∈ w.certificates) (met : cond c = true) (revoked : w₁.certificates = (revoke cond now).apply w.certificates)
    (issued : Extends w₁ w') (distinct : (w.certificates.map (·.id)).Nodup) : c ∉ actives w' hostId := by
  intro active
  obtain ⟨mem, -, active⟩ := mem_actives.mp active
  obtain ⟨new, eq, fresh⟩ := issued
  have row : (revoke cond now).onRow c ∈ w₁.certificates := revoked ▸ Sql.Update.mem_apply.mpr ⟨c, there, rfl⟩
  rw [eq] at mem
  obtain mem | mem := List.mem_append.mp mem
  · exact fresh c mem _ row ((revoke_keeps_id cond now).onRow c).symm
  · rw [revoked] at mem
    obtain ⟨c', mem', same⟩ := Sql.Update.mem_apply.mp mem
    obtain rfl : c' = c := List.inj_on_of_nodup_map distinct mem' there (by
      rw [← (revoke_keeps_id cond now).onRow c', same])
    rw [Sql.Update.onRow_eq_assign met] at same
    rw [← same] at active
    cases active

/-! ## Issuing a pair -/

def failed : Exchange Op Op.Resp → Bool
  | ⟨.selectHost _, .error _⟩ | ⟨.selectCertificate _, .error _⟩ | ⟨.signCert _ _, .error _⟩
  | ⟨.insertCertificate _, .error _⟩ | ⟨.revokeCertificate _, .error _⟩ | ⟨.revokeActive _, .error _⟩
  | ⟨.selectRevoked, .error _⟩ | ⟨.signCrl _, .error _⟩ | ⟨.deleteHost _, .error _⟩ => true
  | _ => false

section issuing

variable {caRootPem : String} {w w' : World} {l : List (Exchange Op Op.Resp)} {hostId : Uuid}
  {hostname ipAddress : String}

def Op.issues : Op → Prop
  | .signCert _ _ | .insertCertificate _ => True
  | _ => False

theorem extends_refl (w : World) : Extends w w := ⟨[], rfl, nofun⟩

theorem issueClientCert_issues :
    (issueClientCert caRootPem hostId hostname ipAddress).Within Op.issues (fun _ => False) fun _ => False := by
  have one (context cn : String) (names : List String) :
      (issueCert context hostId cn names).Within Op.issues (fun _ => False) fun _ => False :=
    .attempt (perform_within trivial) fun _ => .attempt (inContext_within (perform_within trivial)) fun _ => .ret _
  exact .attempt (one _ _ _) fun _ => .attempt (one _ _ _) fun _ => .ret _

theorem issueClientCert_extends {result : Option (Except String IssuedCert)}
    (serves : Serves (authority caRootPem) w (issueClientCert caRootPem hostId hostname ipAddress) l result w') :
    Extends w w' := by
  refine serves.within (I := Extends w) issueClientCert_issues ?_ (extends_refl w)
  intro w₁ o a r w₂ issues executed before
  change execute w₁ o a = some (r, w₂) at executed
  cases o with
  | signCert cn names =>
    cases a with
    | signed signed | failed reason =>
      obtain ⟨-, rfl⟩ := Prod.mk.inj (Option.some.inj executed)
      exact before
    | _ => cases executed
  | insertCertificate cert =>
    cases a with
    | row id =>
      have moved : (insert w₁ cert id).2 = w₂ := (Prod.mk.inj (Option.some.inj executed)).2
      rw [← moved]
      obtain same | ⟨new, inserted⟩ := insert_cases (w := w₁) cert id
      · rwa [same]
      · obtain ⟨rows, eq, fresh⟩ := before
        refine ⟨cert.row id w₁.now :: rows, by rw [inserted, eq]; rfl, ?_⟩
        intro row mem c there
        obtain rfl | mem := List.mem_cons.mp mem
        · exact (new c (eq ▸ List.mem_append_right _ there)).symm
        · exact fresh row mem c there
    | failed reason =>
      obtain ⟨-, rfl⟩ := Prod.mk.inj (Option.some.inj executed)
      exact before
    | _ => cases executed
  | _ => exact issues.elim

theorem insert_of_execute {cert : NewCertificate} {a : Answer}
    (executed : execute w (.insertCertificate cert) a = some (.ok (), w')) :
    ∃ id, w'.certificates = cert.row id w.now :: w.certificates := by
  cases a with
  | row id =>
    have both : insert w cert id = (.ok (), w') := Option.some.inj executed
    unfold insert at both
    split_ifs at both
    · cases both
    · cases both
      exact ⟨id, rfl⟩
    · cases both
  | _ => cases executed

/-- A row as the issue of a certificate has written it. -/
structure Written (hostId : Uuid) (commonName : String) (alternative : List String) (l : List (Exchange Op Op.Resp))
    (row : Certificate) : Prop where
  host : row.hostId = some hostId
  active : row.status = .active
  name : row.commonName = commonName
  signed : ∃ signed : Signed, ⟨.signCert commonName alternative, .ok signed⟩ ∈ l ∧ row.certPem = signed.certPem

theorem issueCert_ok {context : String} {alternative : List String} {signed : Signed}
    (serves : Serves (authority caRootPem) w (issueCert context hostId hostname alternative) l (some (.ok signed)) w') :
    ∃ row, Written hostId hostname alternative l row ∧ w'.certificates = row :: w.certificates ∧
      ∀ x ∈ l, failed x = false := by
  obtain ⟨l₁, signed', w₁, l₂, asked, rest, rfl⟩ | ⟨other, -⟩ := serves.attempt_inv
  swap
  · exact absurd rfl (other _)
  obtain ⟨-, -, none⟩ | ⟨a, r, w₂, l₃, executed, later, rfl⟩ := asked.op_inv
  · cases none
  obtain ⟨rfl, rfl, none | eq⟩ := later.ret_inv
  · cases none
  obtain rfl := Option.some.inj eq
  obtain rfl : w₁ = w := by
    change execute w (.signCert hostname alternative) a = _ at executed
    cases a with
    | signed given => exact (Prod.mk.inj (Option.some.inj executed)).2.symm
    | _ => cases executed
  obtain ⟨-, -, none⟩ | ⟨a', r, w₂, l₄, executed', rfl, ⟨_, ok, last⟩ | ⟨_, -, -, -, none | none⟩⟩ := rest.ask_cases
  · cases none
  · obtain ⟨rfl, rfl, none | eq⟩ := last.ret_inv
    · cases none
    obtain rfl : signed = signed' := by simpa using eq
    cases r with
    | error e => cases ok
    | ok done =>
      obtain ⟨id, row⟩ := insert_of_execute executed'
      exact ⟨_, ⟨rfl, rfl, rfl, signed, by simp, rfl⟩, row, by simp [failed]⟩
  · cases none
  · cases none

theorem Written.mono {row : Certificate} {alternative : List String} {l' : List (Exchange Op Op.Resp)}
    (written : Written hostId hostname alternative l row) (sub : l ⊆ l') : Written hostId hostname alternative l' row :=
  { written with signed := written.signed.imp fun _ both => both.imp_left (@sub _) }

theorem issueClientCert_ok {issued : IssuedCert}
    (serves : Serves (authority caRootPem) w (issueClientCert caRootPem hostId hostname ipAddress) l (some (.ok issued)) w') :
    ∃ client server, Written hostId hostname [] l client ∧
      Written hostId (hostname ++ "-server") [hostname, ipAddress] l server ∧
      w'.certificates = server :: client :: w.certificates ∧ ∀ x ∈ l, failed x = false := by
  obtain ⟨l₁, _, w₁, l₂, first, rest, rfl⟩ | ⟨other, -⟩ := serves.attempt_inv
  swap
  · exact absurd rfl (other _)
  obtain ⟨l₃, _, w₂, l₄, second, last, rfl⟩ | ⟨other, -⟩ := rest.attempt_inv
  swap
  · exact absurd rfl (other _)
  obtain ⟨rfl, rfl, -⟩ := last.ret_inv
  obtain ⟨client, writtenC, rows, good⟩ := issueCert_ok first
  obtain ⟨server, writtenS, rows', good'⟩ := issueCert_ok second
  refine ⟨client, server, writtenC.mono (by simp), writtenS.mono (by simp), by rw [rows', rows], ?_⟩
  simpa [or_imp, forall_and] using ⟨good, good'⟩

/-- Where nothing fails, a pair is issued. -/
theorem issueClientCert_failsOnly :
    (issueClientCert caRootPem hostId hostname ipAddress).FailsOnly fun o r => failed ⟨o, r⟩ = true := by
  have one (context cn : String) (names : List String) :
      (issueCert context hostId cn names).FailsOnly fun o r => failed ⟨o, r⟩ = true := by
    refine .bind (fun r good => ?_) fun signed => .bind (.bind (fun r good => ?_) fun _ => rfl) fun _ => rfl
    · cases r with
      | ok signed => rfl
      | error e => exact absurd rfl good
    · cases r with
      | ok done => rfl
      | error e => exact absurd rfl good
  exact .bind (one _ _ _) fun _ => .bind (one _ _ _) fun _ => rfl

end issuing

/-! ## Calls -/

/-- What is asked about a host. -/
inductive Request where
  | renew (certId : Uuid)
  | reissue

/-- One call, with the exchanges it makes and what it returns. -/
structure Call where
  auth : AuthUser
  request : Request
  before : World
  after : World
  exchanges : List (Exchange Op Op.Resp)
  /-- `none` where the call is interrupted -/
  result : Option (Except ApiError IssuedCert)

def Call.program (caRootPem : String) (hostId : Uuid) (call : Call) : Proc (Except ApiError IssuedCert) :=
  match call.request with
  | .renew certId => renewCertRoute caRootPem call.auth certId
  | .reissue => reissueHostCert caRootPem call.auth hostId

/-- Signing for no names gives a certificate without names, and the first name asked for is one of
    those it has. -/
def Named (names : String → List String) (l : List (Exchange Op Op.Resp)) : Prop :=
  ∀ commonName alternative (signed : Signed), ⟨.signCert commonName alternative, .ok signed⟩ ∈ l →
    (alternative = [] → names signed.certPem = []) ∧ ∀ first ∈ alternative.head?, first ∈ names signed.certPem

/-- A renewal is asked for an active certificate of the host. -/
structure Call.Served (caRootPem : String) (names : String → List String) (host : HostRow) (call : Call) : Prop where
  row : call.before.hosts.find? (·.id == host.id) = some host
  ids : (call.before.certificates.map (·.id)).Nodup
  active : ∀ certId, call.request = .renew certId → ∃ c ∈ actives call.before host.id, c.id = certId
  signed : Named names call.exchanges
  served : Serves (authority caRootPem) call.before (call.program caRootPem host.id) call.exchanges call.result call.after

/-- An exchange in which certificates are revoked. -/
def revokes : Exchange Op Op.Resp → Bool
  | ⟨.revokeCertificate _, .ok _⟩ | ⟨.revokeActive _, .ok _⟩ => true
  | _ => false

/-- The call ends before it revokes anything, or it is a reissue in which nothing fails. -/
def Call.Careful (call : Call) : Prop :=
  (∀ x ∈ call.exchanges, revokes x = false) ∨
    (call.request = .reissue ∧ (∀ x ∈ call.exchanges, failed x = false) ∧ call.result ≠ none)

/-- After a success the host has its pair, after anything else what it had. -/
structure Call.Lawful (names : String → List String) (host : HostRow) (call : Call) : Prop where
  success : ∀ issued, call.result = some (.ok issued) → Pair names host call.after
  failure : (∀ issued, call.result ≠ some (.ok issued)) →
    ∀ c ∈ actives call.before host.id, c ∈ actives call.after host.id

/-! ## How a call ends -/

section ends

variable {caRootPem : String} {names : String → List String} {host : HostRow} {call : Call}

/-- A call has revoked nothing and left all as it was, or it has revoked the rows of a condition
    and gone on to issue a pair, which may have failed or been interrupted. -/
inductive Call.Ends (caRootPem : String) (host : HostRow) (call : Call) : Prop
  | quiet (none : ∀ x ∈ call.exchanges, revokes x = false)
      (same : actives call.after host.id = actives call.before host.id)
      (unfinished : ∀ issued, call.result ≠ some (.ok issued))
  | late {x : Exchange Op Op.Resp} {l : List (Exchange Op Op.Resp)} {w : World} {cond : Certificate → Bool}
      {commonName ipAddress : String} {error : String → ApiError} {first : Option (Except String IssuedCert)}
      (mem : x ∈ call.exchanges) (revoking : revokes x = true) (sub : l ⊆ call.exchanges)
      (revoked : w.certificates = (revoke cond call.before.now).apply call.before.certificates)
      (issued : Serves (authority caRootPem) w (issueClientCert caRootPem host.id commonName ipAddress) l first call.after)
      (result : call.result = none ∨ call.result = first.map (·.mapError error))
      (renewal : ∀ certId, call.request = .renew certId → cond = (·.id == certId))
      (reissue : call.request = .reissue →
        cond = (fun c => c.hostId == some host.id && c.status == .active) ∧ commonName = host.fqdn ∧
          ∀ y ∈ call.exchanges, y ∈ l ∨ failed y = false)

/-- Operations that only read. -/
theorem execute_selectHost {w w' : World} {id : Uuid} {a : Answer} {r : Except String (Option HostRow)}
    (executed : execute w (.selectHost id) a = some (r, w')) :
    w' = w ∧ ∀ found, r = .ok found → found = w.hosts.find? (·.id == id) := by
  cases a with
  | ok =>
    cases executed
    exact ⟨rfl, fun found eq => (Except.ok.inj eq).symm⟩
  | failed reason =>
    cases executed
    exact ⟨rfl, nofun⟩
  | _ => cases executed

theorem execute_selectCertificate {w w' : World} {id : Uuid} {a : Answer}
    {r : Except String (Option (Option Uuid × String))} (executed : execute w (.selectCertificate id) a = some (r, w')) :
    w' = w ∧ ∀ found, r = .ok found →
      found = (w.certificates.find? (·.id == id)).map fun c => (c.hostId, c.commonName) := by
  cases a with
  | ok =>
    cases executed
    exact ⟨rfl, fun found eq => (Except.ok.inj eq).symm⟩
  | failed reason =>
    cases executed
    exact ⟨rfl, nofun⟩
  | _ => cases executed

theorem execute_revokeActive {w w' : World} {hostId : Uuid} {a : Answer} {r : Except String Nat}
    (executed : execute w (.revokeActive hostId) a = some (r, w')) :
    ((∃ reason, r = .error reason) ∧ w' = w) ∨ ∃ n, r = .ok n ∧ w'.certificates =
      (revoke (fun c => c.hostId == some hostId && c.status == .active) w.now).apply w.certificates := by
  cases a with
  | ok =>
    cases executed
    exact .inr ⟨_, rfl, rfl⟩
  | failed reason =>
    cases executed
    exact .inl ⟨⟨reason, rfl⟩, rfl⟩
  | _ => cases executed

theorem fetchHost_serves {w w' : World} {l : List (Exchange Op Op.Resp)} {id : Uuid}
    {result : Option (Except ApiError HostRow)} (serves : Serves (authority caRootPem) w (fetchHost id) l result w') :
    w' = w ∧ (∀ x ∈ l, revokes x = false) ∧
      ∀ found, result = some (.ok found) → w.hosts.find? (·.id == id) = some found ∧ ∀ x ∈ l, failed x = false := by
  obtain ⟨rfl, rfl, rfl⟩ | ⟨a, r, w₁, l', executed, rfl, ⟨row, ok, rest⟩ | ⟨e, -, rfl, rfl, ended⟩⟩ :=
    serves.ask_cases (o := Op.selectHost id)
  · exact ⟨rfl, nofun, nofun⟩
  · obtain ⟨rfl, read⟩ := execute_selectHost executed
    obtain ⟨rfl, rfl, ended⟩ := rest.ret_inv
    refine ⟨rfl, by simp [revokes], ?_⟩
    rintro found rfl
    cases r with
    | error e => cases ok
    | ok row' =>
      obtain rfl : row' = row := Except.ok.inj ok
      refine ⟨?_, by simp [failed]⟩
      rw [← read row' rfl]
      cases row' with
      | none => simp at ended
      | some h => simpa [eq_comm] using ended
  · obtain ⟨rfl, -⟩ := execute_selectHost executed
    refine ⟨rfl, by simp [revokes], ?_⟩
    rintro found rfl
    simp at ended

/-- Nothing has been revoked, and the rows are as they were. -/
theorem Call.Ends.of_early {l : List (Exchange Op Op.Resp)} (exchanges : call.exchanges = l)
    (none : ∀ x ∈ l, revokes x = false) (same : call.after = call.before)
    (unfinished : ∀ issued, call.result ≠ some (.ok issued)) : call.Ends caRootPem host :=
  .quiet (exchanges ▸ none) (by rw [same]) unfinished

theorem reissue_ends (served : call.Served caRootPem names host) (request : call.request = .reissue) :
    call.Ends caRootPem host := by
  have serves := served.served
  simp only [Call.program, request, reissueHostCert] at serves
  split at serves
  · obtain ⟨exchanges, after, ended⟩ := serves.ret_inv
    refine .of_early exchanges nofun after fun issued eq => ?_
    simp [eq] at ended
  obtain ⟨l₁, found, w₁, l₂, fetched, rest, exchanges⟩ | ⟨e, fetched, ended⟩ | ⟨none, fetched⟩ := serves.attempt_cases
  rotate_left
  · obtain ⟨after, quiet, -⟩ := fetchHost_serves fetched
    refine .of_early rfl quiet after fun issued eq => ?_
    simp [eq] at ended
  · obtain ⟨after, quiet, -⟩ := fetchHost_serves fetched
    exact .of_early rfl quiet after (by simp [none])
  obtain ⟨rfl, quiet, row⟩ := fetchHost_serves fetched
  obtain ⟨row, good⟩ := row found rfl
  obtain rfl : found = host := Option.some.inj (row.symm.trans served.row)
  obtain ⟨rfl, after, none⟩ | ⟨a, r, w₂, l₃, executed, rfl, asked⟩ := rest.ask_cases (o := Op.revokeActive found.id)
  · exact .of_early (by simpa using exchanges) quiet after (by simp [none])
  obtain ⟨⟨reason, rfl⟩, rfl⟩ | ⟨n, rfl, revoked⟩ := execute_revokeActive executed
  · obtain ⟨_, none, -⟩ | ⟨e, -, rfl, after, ended⟩ := asked
    · cases none
    refine .of_early exchanges ?_ after fun issued eq => ?_
    · simpa [revokes, or_imp, forall_and] using quiet
    · simp [eq] at ended
  · obtain ⟨_, -, issued⟩ | ⟨e, none, -⟩ := asked
    swap
    · cases none
    obtain ⟨first, issued, result⟩ := issued.map_inv
    refine .late (x := ⟨.revokeActive found.id, .ok n⟩) (by simp [exchanges]) rfl
      (by rw [exchanges]; exact fun y mem => by simp [mem]) revoked issued result
      (by simp [request]) fun _ => ⟨rfl, rfl, ?_⟩
    intro y mem
    rw [exchanges, List.mem_append, List.mem_cons] at mem
    obtain mem | rfl | mem := mem
    · exact .inr (good y mem)
    · exact .inr rfl
    · exact .inl mem

theorem execute_revokeCertificate {w w' : World} {id : Uuid} {a : Answer} {r : Except String Nat}
    (executed : execute w (.revokeCertificate id) a = some (r, w')) :
    ((∃ reason, r = .error reason) ∧ w' = w) ∨
      r = .ok (w.certificates.countP (·.id == id)) ∧ w'.certificates = (revoke (·.id == id) w.now).apply w.certificates := by
  cases a with
  | ok =>
    cases executed
    exact .inr ⟨rfl, rfl⟩
  | failed reason =>
    cases executed
    exact .inl ⟨⟨reason, rfl⟩, rfl⟩
  | _ => cases executed

theorem revokeCert_serves {w w' : World} {l : List (Exchange Op Op.Resp)} {id : Uuid} {result : Option (Except String Unit)}
    (serves : Serves (authority caRootPem) w (revokeCert id) l result w') (there : ∃ c ∈ w.certificates, c.id = id) :
    (w' = w ∧ (∀ x ∈ l, revokes x = false) ∧ ∀ u, result ≠ some (.ok u)) ∨
      ((∃ x ∈ l, revokes x = true) ∧ w'.certificates = (revoke (·.id == id) w.now).apply w.certificates ∧
        ∀ e, result ≠ some (.error e)) := by
  obtain ⟨rfl, rfl, rfl⟩ | ⟨a, r, w₁, l', executed, rfl, asked⟩ := serves.ask_cases (o := Op.revokeCertificate id)
  · exact .inl ⟨rfl, nofun, nofun⟩
  obtain ⟨⟨reason, rfl⟩, rfl⟩ | ⟨rfl, revoked⟩ := execute_revokeCertificate executed
  · obtain ⟨_, none, -⟩ | ⟨e, -, rfl, rfl, ended⟩ := asked
    · cases none
    refine .inl ⟨rfl, by simp [revokes], ?_⟩
    rintro u rfl
    simp at ended
  · obtain ⟨n, eq, rest⟩ | ⟨e, none, -⟩ := asked
    swap
    · cases none
    obtain rfl := Except.ok.inj eq
    obtain ⟨rfl, rfl, ended⟩ := rest.ret_inv
    obtain ⟨c, mem, same⟩ := there
    have some' : w.certificates.countP (·.id == id) ≠ 0 :=
      Nat.pos_iff_ne_zero.mp (List.countP_pos_iff.mpr ⟨c, mem, by simp [same]⟩)
    refine .inr ⟨⟨_, List.mem_cons_self, rfl⟩, revoked, ?_⟩
    rintro e rfl
    simp [some'] at ended

theorem renew_ends (served : call.Served caRootPem names host) {certId : Uuid} (request : call.request = .renew certId) :
    call.Ends caRootPem host := by
  obtain ⟨c, mem, same⟩ := served.active certId request
  obtain ⟨mem, hostId, -⟩ := mem_actives.mp mem
  have found : call.before.certificates.find? (·.id == certId) = some c := by
    have some' : (call.before.certificates.find? (·.id == certId)).isSome = true :=
      List.find?_isSome.mpr ⟨c, mem, by simp [same]⟩
    obtain ⟨c', found⟩ := Option.isSome_iff_exists.mp some'
    have id' := List.find?_some found
    simp only [beq_iff_eq] at id'
    rw [found, List.inj_on_of_nodup_map served.ids (List.mem_of_find?_eq_some found) mem (id'.trans same.symm)]
  have serves := served.served
  simp only [Call.program, request, renewCertRoute] at serves
  split at serves
  · obtain ⟨exchanges, after, ended⟩ := serves.ret_inv
    refine .of_early exchanges nofun after fun issued eq => ?_
    simp [eq] at ended
  obtain ⟨first, renewed, result⟩ := serves.map_inv
  -- up to its revocation a renewal changes nothing, and an error or interruption ends it
  have early {l : List (Exchange Op Op.Resp)} (exchanges : call.exchanges = l) (none : ∀ x ∈ l, revokes x = false)
      (after : call.after = call.before) (unfinished : ∀ issued, first ≠ some (.ok issued)) :
      call.Ends caRootPem host := by
    refine .of_early exchanges none after fun issued eq => ?_
    rw [eq] at result
    obtain none | mapped := result
    · cases none
    · obtain ⟨r, rfl, ok⟩ := Option.map_eq_some_iff.mp mapped.symm
      cases r with
      | ok issued => exact unfinished issued rfl
      | error e => cases ok
  obtain ⟨exchanges, after, rfl⟩ | ⟨a, r, w₁, l₁, executed, exchanges, asked⟩ :=
    renewed.ask_cases (o := Op.selectCertificate certId)
  · exact early exchanges nofun after nofun
  obtain ⟨rfl, read⟩ := execute_selectCertificate executed
  obtain ⟨row, ok, rest⟩ | ⟨e, -, rfl, after, ended⟩ := asked
  swap
  · exact early exchanges (by simp [revokes]) after (by rintro issued rfl; simp at ended)
  cases r with
  | error e => cases ok
  | ok row' =>
    obtain rfl : row' = row := Except.ok.inj ok
    obtain rfl := read row' rfl
    simp only [found, Option.map_some, hostId] at rest
    obtain ⟨rfl, after, rfl⟩ | ⟨a, r, w₁, l₁, executed, rfl, asked⟩ := rest.ask_cases (o := Op.selectHost host.id)
    · exact early exchanges (by simp [revokes]) after nofun
    obtain ⟨rfl, read⟩ := execute_selectHost executed
    obtain ⟨row, ok, rest⟩ | ⟨e, -, rfl, after, ended⟩ := asked
    swap
    · exact early exchanges (by simp [revokes]) after (by rintro issued rfl; simp at ended)
    cases r with
    | error e => cases ok
    | ok row' =>
      obtain rfl : row' = row := Except.ok.inj ok
      obtain rfl := (read row' rfl).trans served.row
      obtain ⟨l₂, _, w₁, l₃, revoking, issuing, rfl⟩ | ⟨e, revoking, ended⟩ | ⟨rfl, revoking⟩ := rest.attempt_cases
      · obtain ⟨-, -, failed⟩ | ⟨⟨x, mem', revokes⟩, revoked, -⟩ := revokeCert_serves revoking ⟨c, mem, same⟩
        · exact absurd rfl (failed _)
        exact .late (x := x) (by simp [exchanges, mem']) revokes
          (by rw [exchanges]; exact fun y mem => by simp [mem]) revoked issuing result
          (by simp [request]) (by simp [request])
      · obtain ⟨after, quiet, -⟩ | ⟨-, -, done⟩ := revokeCert_serves revoking ⟨c, mem, same⟩
        · refine early exchanges ?_ after (by rintro issued rfl; simp at ended)
          simpa [revokes] using quiet
        · exact absurd rfl (done e)
      · obtain ⟨after, quiet, -⟩ | ⟨⟨x, mem', revokes⟩, revoked, -⟩ := revokeCert_serves revoking ⟨c, mem, same⟩
        · refine early exchanges ?_ after nofun
          simpa [revokes] using quiet
        · exact .late (x := x) (by simp [exchanges, mem']) revokes (List.nil_subset _) revoked
            (.cut : Serves _ _ (issueClientCert caRootPem host.id c.commonName host.ipAddress) _ none _) result
            (by simp [request]) (by simp [request])

theorem Call.Served.ends (served : call.Served caRootPem names host) : call.Ends caRootPem host := by
  cases request : call.request with
  | renew certId => exact renew_ends served request
  | reissue => exact reissue_ends served request

/-! ## What a call does to the pair -/

/-- A pair is two certificates with different identifiers. -/
theorem Pair.length {w : World} (pair : Pair names host w) : (actives w host.id).length = 2 := by
  obtain ⟨client, server, perm, -⟩ := pair
  simpa using perm.length_eq

theorem Pair.active {w : World} (pair : Pair names host w) : ∃ c, c ∈ actives w host.id := by
  obtain ⟨client, server, perm, -⟩ := pair
  exact ⟨client, perm.mem_iff.mpr (by simp)⟩

theorem Pair.of_actives {w w' : World} (pair : Pair names host w) (same : actives w' host.id = actives w host.id) :
    Pair names host w' := by
  obtain ⟨client, server, perm, rest⟩ := pair
  exact ⟨client, server, same ▸ perm, rest⟩

/-- Of distinct rows a renewal takes one away. -/
theorem actives_renewed {w w' : World} {c : Certificate} (active : c ∈ actives w host.id)
    (distinct : (w.certificates.map (·.id)).Nodup) (now : Time)
    (revoked : w'.certificates = (revoke (·.id == c.id) now).apply w.certificates) :
    (actives w' host.id).length + 1 = (actives w host.id).length := by
  obtain ⟨mem, hostId, isActive⟩ := mem_actives.mp active
  obtain ⟨before, after, rows⟩ := List.append_of_mem mem
  rw [rows] at distinct
  have updated : w'.certificates = before ++ (revoke (·.id == c.id) now).assign c :: after := by
    rw [revoked, rows, ← Sql.map_if_key distinct]
    refine List.map_congr_left fun r _ => ?_
    simp [Sql.Update.onRow, revoke]
  rw [actives, actives, updated, rows]
  simp [revoke, hostId, isActive, Nat.add_assoc]

/-- All the active rows of the host are revoked. -/
theorem actives_reissued {w w' : World} {now : Time}
    (revoked : w'.certificates =
      (revoke (fun c => c.hostId == some host.id && c.status == .active) now).apply w.certificates) :
    actives w' host.id = [] := by
  refine List.eq_nil_iff_forall_not_mem.mpr fun c mem => ?_
  obtain ⟨mem, hostId, active⟩ := mem_actives.mp mem
  rw [revoked] at mem
  obtain ⟨c', -, same⟩ := Sql.Update.mem_apply.mp mem
  by_cases met : (c'.hostId == some host.id && c'.status == .active) = true
  · rw [Sql.Update.onRow_eq_assign met] at same
    rw [← same] at active
    cases active
  · rw [Sql.Update.onRow_eq_self (by simpa [revoke] using met)] at same
    simp [same, hostId, active] at met

/-- A pair has been issued on top of what was active. -/
theorem actives_issued {w w' : World} {client server : Certificate} {l : List (Exchange Op Op.Resp)}
    {commonName ipAddress : String} (writtenC : Written host.id commonName [] l client)
    (writtenS : Written host.id (commonName ++ "-server") [commonName, ipAddress] l server)
    (rows : w'.certificates = server :: client :: w.certificates) :
    actives w' host.id = server :: client :: actives w host.id := by
  simp [actives, rows, writtenC.host, writtenC.active, writtenS.host, writtenS.active]

theorem ok_of_mapError {ε ε' α : Type} {f : ε → ε'} {result : Option (Except ε' α)} {first : Option (Except ε α)} {v : α}
    (mapped : result = none ∨ result = first.map (·.mapError f)) (ok : result = some (.ok v)) : first = some (.ok v) := by
  obtain none | mapped := mapped
  · rw [none] at ok
    cases ok
  · obtain ⟨r, rfl, eq⟩ := Option.map_eq_some_iff.mp (mapped.symm.trans ok)
    cases r with
    | ok v' => exact congrArg some (congrArg Except.ok (Except.ok.inj eq))
    | error e => cases eq

/-- What has been revoked without a success is lost. -/
theorem Call.Lawful.success_of_revoked {w : World} {cond : Certificate → Bool} {c : Certificate}
    (lawful : call.Lawful names host) (distinct : (call.before.certificates.map (·.id)).Nodup)
    (active : c ∈ actives call.before host.id) (met : cond c = true)
    (revoked : w.certificates = (revoke cond call.before.now).apply call.before.certificates)
    (extended : Extends w call.after) : ∃ issued, call.result = some (.ok issued) := by
  by_contra unfinished
  have kept := lawful.failure (not_exists.mp unfinished) c active
  exact not_mem_actives (mem_actives.mp active).1 met revoked extended distinct kept

/-- Issuing that is not interrupted and in which nothing fails succeeds. -/
theorem issued_of_unfailed {w w' : World} {l : List (Exchange Op Op.Resp)} {hostId : Uuid} {commonName ipAddress : String}
    {first : Option (Except String IssuedCert)} {result : Option (Except ApiError IssuedCert)} {error : String → ApiError}
    (issued : Serves (authority caRootPem) w (issueClientCert caRootPem hostId commonName ipAddress) l first w')
    (unfailed : ∀ x ∈ l, failed x = false) (mapped : result = none ∨ result = first.map (·.mapError error))
    (finished : result ≠ none) : ∃ v, first = some (.ok v) ∧ result = some (.ok v) := by
  have mapped := mapped.resolve_left finished
  cases first with
  | none => exact absurd mapped finished
  | some r =>
    have isOk := issued.isOk issueClientCert_failsOnly fun x mem => by
      rw [unfailed x mem]
      decide
    cases r with
    | error e => cases isOk
    | ok v => exact ⟨v, rfl, mapped⟩

/-- From a pair, a call keeps the law exactly when it is careful. -/
theorem Call.Served.lawful_iff (served : call.Served caRootPem names host) (pair : Pair names host call.before) :
    call.Lawful names host ↔ call.Careful := by
  cases served.ends with
  | quiet none same unfinished =>
    exact ⟨fun _ => .inl none, fun _ => ⟨fun issued ok => absurd ok (unfinished issued), fun _ c mem => same ▸ mem⟩⟩
  | @late x l w cond commonName ipAddress error first mem revoking sub revoked issued result renewal reissue =>
    have extended := issueClientCert_extends issued
    have loud : ¬∀ x ∈ call.exchanges, revokes x = false := fun quiet => by
      rw [quiet x mem] at revoking
      cases revoking
    cases request : call.request with
    | renew certId =>
      obtain rfl := renewal certId request
      obtain ⟨c, active, rfl⟩ := served.active certId request
      constructor
      · intro lawful
        obtain ⟨v, ok⟩ := lawful.success_of_revoked served.ids active (by simp) revoked extended
        obtain rfl := ok_of_mapError result ok
        obtain ⟨client, server, writtenC, writtenS, rows, -⟩ := issueClientCert_ok issued
        -- three certificates are active, which is no pair
        have three := (lawful.success v ok).length
        rw [actives_issued writtenC writtenS rows] at three
        have two := pair.length
        have one := actives_renewed active served.ids call.before.now revoked
        simp only [List.length_cons] at three
        omega
      · rintro (quiet | ⟨reissue, -⟩)
        · exact absurd quiet loud
        · rw [request] at reissue
          cases reissue
    | reissue =>
      obtain ⟨rfl, rfl, good⟩ := reissue request
      constructor
      · intro lawful
        obtain ⟨c, active⟩ := pair.active
        obtain ⟨-, hostId, isActive⟩ := mem_actives.mp active
        obtain ⟨v, ok⟩ := lawful.success_of_revoked served.ids active (by simp [hostId, isActive]) revoked extended
        obtain rfl := ok_of_mapError result ok
        obtain ⟨-, -, -, -, -, good'⟩ := issueClientCert_ok issued
        refine .inr ⟨request, fun y mem => ?_, by simp [ok]⟩
        exact (good y mem).elim (good' y) id
      · rintro (quiet | ⟨-, unfailed, finished⟩)
        · exact absurd quiet loud
        obtain ⟨v, rfl, ok⟩ := issued_of_unfailed issued (fun y mem => unfailed y (sub mem)) result finished
        refine ⟨fun _ _ => ?_, fun unfinished => absurd ok (unfinished v)⟩
        obtain ⟨client, server, writtenC, writtenS, rows, -⟩ := issueClientCert_ok issued
        obtain ⟨signedC, atC, pemC⟩ := writtenC.signed
        obtain ⟨signedS, atS, pemS⟩ := writtenS.signed
        refine ⟨client, server, ?_, writtenC.name, ?_, writtenS.name, ?_⟩
        · rw [actives_issued writtenC writtenS rows, actives_reissued revoked]
          exact .swap _ _ _
        · rw [pemC]
          exact (served.signed _ _ _ (sub atC)).1 rfl
        · rw [pemS]
          exact (served.signed _ _ _ (sub atS)).2 host.fqdn rfl

theorem Call.Careful.pair (careful : call.Careful) (served : call.Served caRootPem names host)
    (pair : Pair names host call.before) : Pair names host call.after := by
  have lawful := (served.lawful_iff pair).mpr careful
  cases served.ends with
  | quiet none same unfinished => exact pair.of_actives same
  | late mem revoking sub revoked issued result =>
    obtain quiet | ⟨-, unfailed, finished⟩ := careful
    · rw [quiet _ mem] at revoking
      cases revoking
    · obtain ⟨v, -, ok⟩ := issued_of_unfailed issued (fun y mem => unfailed y (sub mem)) result finished
      exact lawful.success v ok

end ends

/-! ## Sequences of calls -/

def standing (start : World) : List Call → World
  | [] => start
  | call :: _ => call.after

/-- Calls one after the other, the last one first; between them nothing changes what is active of
    the host. -/
inductive Calls (caRootPem : String) (names : String → List String) (host : HostRow) (start : World) : List Call → Prop
  | nil : Calls caRootPem names host start []
  | call {call : Call} {earlier : List Call} (before : Calls caRootPem names host start earlier)
      (same : actives call.before host.id = actives (standing start earlier) host.id)
      (served : call.Served caRootPem names host) : Calls caRootPem names host start (call :: earlier)

/-- Over a sequence of calls that starts from a pair, every call keeps the law exactly when every
    call is careful. -/
theorem calls_lawful_iff {caRootPem : String} {names : String → List String} {host : HostRow} {start : World} {calls : List Call} (pair : Pair names host start)
    (sequence : Calls caRootPem names host start calls) :
    (∀ call ∈ calls, call.Lawful names host) ↔ ∀ call ∈ calls, call.Careful := by
  suffices both : ((∀ call ∈ calls, call.Lawful names host) ↔ ∀ call ∈ calls, call.Careful) ∧
      ((∀ call ∈ calls, call.Careful) → Pair names host (standing start calls)) from both.1
  induction sequence with
  | nil => exact ⟨by simp, fun _ => pair⟩
  | @call call earlier before same served ih =>
    simp only [List.forall_mem_cons]
    constructor
    · rw [ih.1, and_congr_left_iff]
      intro careful
      exact served.lawful_iff ((ih.2 careful).of_actives same)
    · rintro ⟨last, careful⟩
      exact last.pair served ((ih.2 careful).of_actives same)

/-! ## Small runs -/

namespace Renewals

def web : HostRow := ⟨1, "web", "10.0.0.1"⟩

def operator : AuthUser := ⟨7, "op", .operator⟩

def certificate (id : Uuid) (commonName certPem : String) : Certificate :=
  ⟨id, some 1, certPem, commonName, .active, 0, 1000, none, certPem⟩

def signed (certPem : String) : Signed := ⟨certPem, 1000, certPem, "key"⟩

def alternatives (certPem : String) : List String :=
  if certPem = "server" ∨ certPem = "server2" then ["web", "10.0.0.1"] else []

/-- A host with what the enrollment has given it. -/
def start : World := { hosts := [web], certificates := [certificate 11 "web-server" "server", certificate 10 "web" "client"], now := 5 }

def inserted (commonName certPem : String) : NewCertificate :=
  ⟨1, certPem, commonName, 1000, certPem⟩

def revoked (cond : Certificate → Bool) : World := { start with certificates := (revoke cond 5).apply start.certificates }

/-- A pair in front of what is there. -/
def issued (w : World) : World :=
  { w with certificates := (inserted "web-server" "server2").row 21 5 :: (inserted "web" "client2").row 20 5 :: w.certificates }

def issues : List (Exchange Op Op.Resp) :=
  [⟨.signCert "web" [], .ok (signed "client2")⟩, ⟨.insertCertificate (inserted "web" "client2"), .ok ()⟩,
    ⟨.signCert "web-server" ["web", "10.0.0.1"], .ok (signed "server2")⟩,
    ⟨.insertCertificate (inserted "web-server" "server2"), .ok ()⟩]

def answer : IssuedCert := ⟨"client2", "key", "client2", 1000, "server2", "key", "server2", "root"⟩

/-- Both certificates are issued again. -/
def reissue : Call where
  auth := operator
  request := .reissue
  before := start
  after := issued (revoked fun c => c.hostId == some 1 && c.status == .active)
  exchanges := ⟨.selectHost 1, .ok (some web)⟩ :: ⟨.revokeActive 1, .ok 2⟩ :: issues
  result := some (.ok answer)

/-- The certificate of the client is renewed. -/
def renewal : Call where
  auth := operator
  request := .renew 10
  before := start
  after := issued (revoked (·.id == 10))
  exchanges := ⟨.selectCertificate 10, .ok (some (some 1, "web"))⟩ :: ⟨.selectHost 1, .ok (some web)⟩ ::
    ⟨.revokeCertificate 10, .ok 1⟩ :: issues
  result := some (.ok answer)

theorem start_pair : Pair alternatives web start :=
  ⟨certificate 10 "web" "client", certificate 11 "web-server" "server", .swap _ _ _, rfl, by decide, by decide, by decide⟩

theorem reissue_serves : Serves (authority "root") start (reissueHostCert "root" operator 1) reissue.exchanges
    (some (.ok answer)) reissue.after :=
  .op (a := Answer.ok) rfl (.op (a := Answer.ok) rfl (.op (a := Answer.signed (signed "client2")) rfl
    (.op (a := Answer.row 20) rfl (.op (a := Answer.signed (signed "server2")) rfl (.op (a := Answer.row 21) rfl .ret)))))

theorem renewal_serves : Serves (authority "root") start (renewCertRoute "root" operator 10) renewal.exchanges
    (some (.ok answer)) renewal.after :=
  .op (a := Answer.ok) rfl (.op (a := Answer.ok) rfl (.op (a := Answer.ok) rfl
    (.op (a := Answer.signed (signed "client2")) rfl (.op (a := Answer.row 20) rfl
      (.op (a := Answer.signed (signed "server2")) rfl (.op (a := Answer.row 21) rfl .ret))))))

def signs : Exchange Op Op.Resp → Bool
  | ⟨.signCert _ _, _⟩ => true
  | _ => false

theorem issues_named {l : List (Exchange Op Op.Resp)} (others : l.all fun x => !signs x) :
    Named alternatives (l ++ issues) := by
  intro commonName alternative given mem
  obtain mem | mem := List.mem_append.mp mem
  · exact absurd (List.all_eq_true.mp others _ mem) (by simp [signs])
  simp only [issues, List.mem_cons, List.not_mem_nil, or_false] at mem
  obtain eq | eq | eq | eq := mem
  · cases eq
    decide
  · cases eq
  · cases eq
    decide
  · cases eq

theorem reissue_served : reissue.Served "root" alternatives web where
  row := by decide
  ids := by decide
  active := nofun
  signed := issues_named (l := [⟨.selectHost 1, .ok (some web)⟩, ⟨.revokeActive 1, .ok 2⟩]) rfl
  served := reissue_serves

theorem renewal_served : renewal.Served "root" alternatives web where
  row := by decide
  ids := by decide
  active certId request := by
    cases request
    exact ⟨certificate 10 "web" "client", by decide, rfl⟩
  signed := issues_named (l := [⟨.selectCertificate 10, .ok (some (some 1, "web"))⟩,
    ⟨.selectHost 1, .ok (some web)⟩, ⟨.revokeCertificate 10, .ok 1⟩]) rfl
  served := renewal_serves

end Renewals

/-- A reissue in which nothing fails. -/
theorem calls_lawful_reissue : Renewals.reissue.Lawful Renewals.alternatives Renewals.web := by
  refine (calls_lawful_iff Renewals.start_pair (.call .nil rfl Renewals.reissue_served)).mpr (fun call mem => ?_) _
    (List.mem_singleton_self _)
  obtain rfl := List.mem_singleton.mp mem
  exact .inr ⟨rfl, by decide, nofun⟩

/-- A renewal that succeeds, after which a host has three active certificates. -/
theorem renewal_leaves_three : ¬ ∀ (caRootPem : String) (names : String → List String) (host : HostRow) (start : World)
    (calls : List Call), Pair names host start → Calls caRootPem names host start calls →
      ∀ call ∈ calls, call.Lawful names host := by
  intro all
  have lawful := all "root" Renewals.alternatives Renewals.web Renewals.start [Renewals.renewal] Renewals.start_pair
    (.call .nil rfl Renewals.renewal_served) _ (List.mem_singleton_self _)
  have two := (lawful.success _ rfl).length
  have three : (actives Renewals.renewal.after Renewals.web.id).length = 3 := by decide
  omega

end PatchManager.Ca
