import PatchManager.Ca.Authority
import PatchManager.Verified.RenewalPairs

/-! # Downloaded certificates

The name of a server ends in `-server`, so a server is never taken for a client.  The other way
round it does happen: a host may have such a name, and so has what a renewal makes of the certificate
of a server.

Main results:

* `download_newest_iff`: in every state that is reached, the newest certificate of a client is
  downloaded exactly when a newest one does not have the name of a server.
* `download_is_client`: what is downloaded is never a server's.
* `client_not_found`: a host that is called like a server.
-/

namespace PatchManager.Ca

open PatchManager.Conc
open PatchManager.Enrollment (Signed)

/-! ## Certificates and their texts -/

/-- What is read from the text of a certificate. -/
structure Reader where
  names : String → List String
  serialNumber : String → String

/-- A row has the serial number of its text, and the name of a server where the text is a server's,
    which has alternative names. -/
def Reader.Fits (read : Reader) (serialNumber commonName certPem : String) : Prop :=
  read.serialNumber certPem = serialNumber ∧ (read.names certPem ≠ [] → isServerName commonName = true)

def Certificate.Fits (read : Reader) (c : Certificate) : Prop :=
  read.Fits c.serialNumber c.commonName c.certPem

/-- What is signed has the serial number that is reported, and no names where none are asked for. -/
def signsAs (read : Reader) : (o : Op) → o.Resp → Prop
  | .signCert _ alternative, .ok signed =>
    read.serialNumber signed.certPem = signed.serialNumber ∧ (alternative = [] → read.names signed.certPem = [])
  | _, _ => True

def recordsAs (read : Reader) : Op → Prop
  | .insertCertificate cert => read.Fits cert.serialNumber cert.commonName cert.certPem
  | _ => True

/-- What is recorded is signed before. -/
def recording (read : Reader) : Contract Op Op.Resp Fn where
  State := Unit
  idle := ()
  init _ := ()
  next _ _ _ := ()
  rely := signsAs read
  guar _ := recordsAs read
  start _ _ := True
  tail _ _ := False
  exit _ := True

/-- From here on, what is recorded fits. -/
def Records {α : Type} (read : Reader) (p : Proc α) : Prop := p.Along (recording read) (fun _ _ => True) ()

def Op.records : Op → Bool
  | .insertCertificate _ => true
  | _ => false

/-! ## Programs -/

section programs

variable {α β : Type} {read : Reader} {caRootPem : String}

namespace Records

theorem ret (value : α) : Records read (.ret value) := trivial

theorem bind {p : Proc α} {rest : α → Proc β} (first : Records read p) (second : ∀ a, Records read (rest a)) :
    Records read (p.bind rest) :=
  Prog.Along.bind first fun _ a _ => second a

theorem attempt {ε : Type} {p : Proc (Except ε α)} {rest : α → Proc (Except ε β)} (first : Records read p)
    (second : ∀ a, Records read (rest a)) : Records read (p.attempt rest) :=
  first.bind fun r => by
    cases r with
    | ok value => exact second value
    | error e => exact .ret _

theorem ite {c : Prop} [Decidable c] {p q : Proc α} (yes : Records read p) (no : Records read q) :
    Records read (if c then p else q) := by
  split
  · exact yes
  · exact no

theorem perform {o : Op} (quiet : o.records = false) : Records read (Ca.perform o) := by
  refine ⟨?_, fun _ _ => trivial⟩
  cases o <;> trivial

theorem mapError {ε ε' : Type} {error : ε → ε'} {p : Proc (Except ε α)} (records : Records read p) :
    Records read (p.bind fun r => .ret (r.mapError error)) :=
  records.bind fun _ => .ret _

end Records

theorem isServerName_append (hostname : String) : isServerName (hostname ++ "-server") = true := by
  simp [isServerName]

theorem issueCert_records {context : String} {hostId : Uuid} {commonName : String} {names : List String}
    (called : names = [] ∨ isServerName commonName = true) :
    Records read (issueCert context hostId commonName names) := by
  refine ⟨trivial, fun r signs => ?_⟩
  cases r with
  | error reason => trivial
  | ok signed =>
    refine ⟨⟨signs.1, fun others => called.resolve_left fun none => others (signs.2 none)⟩, fun r _ => ?_⟩
    cases r <;> trivial

theorem issueClientCert_records (hostId : Uuid) (hostname ipAddress : String) :
    Records read (issueClientCert caRootPem hostId hostname ipAddress) :=
  .attempt (issueCert_records (.inl rfl)) fun _ =>
    .attempt (issueCert_records (.inr (isServerName_append hostname))) fun _ => .ret _

theorem revokeCert_records (certId : Uuid) : Records read (revokeCert certId) :=
  .attempt (.mapError (.perform rfl)) fun _ => .ret _

theorem renewCert_records (certId : Uuid) : Records read (renewCert caRootPem certId) := by
  refine .attempt (.mapError (.perform rfl)) fun row => ?_
  split
  · exact .ret _
  · exact .ret _
  · refine .attempt (.mapError (.perform rfl)) fun host => ?_
    split
    · exact .ret _
    · exact .attempt (revokeCert_records certId) fun _ => issueClientCert_records _ _ _

theorem generateCrl_records : Records read generateCrl := by
  refine .attempt (.mapError (.perform rfl)) fun rows => ?_
  split
  · exact .ret _
  · exact .mapError (.perform rfl)

theorem fetchHost_records (hostId : Uuid) : Records read (fetchHost hostId) :=
  .attempt (.mapError (.perform rfl)) fun _ => .ret _

theorem body_records (f : Fn) : Records read (body caRootPem f) := by
  cases f with
  | issueClientCert auth hostId hostname =>
    exact .bind (.ite (.ret _) (.attempt (fetchHost_records _) fun _ => .mapError (issueClientCert_records _ _ _)))
      fun _ => .ret _
  | renewCert auth certId => exact .bind (.ite (.ret _) (.mapError (renewCert_records _))) fun _ => .ret _
  | reissueHostCert auth hostId =>
    exact .bind (.ite (.ret _) (.attempt (fetchHost_records _) fun _ => .attempt (.mapError (.perform rfl)) fun _ =>
      .mapError (issueClientCert_records _ _ _))) fun _ => .ret _
  | revokeCert auth certId => exact .bind (.ite (.ret _) (.mapError (revokeCert_records _))) fun _ => .ret _
  | getCrl => exact .bind (.mapError generateCrl_records) fun _ => .ret _
  | removeHost auth id =>
    exact .bind (.ite (.ret _) (.bind (.perform rfl) fun _ => .attempt (.mapError (.perform rfl)) fun _ => .ret _))
      fun _ => .ret _

theorem keeps_recording : (authority caRootPem).machine.Keeps (recording read) where
  starts _ f _ := body_records f
  tails _ _ none := none.elim
  idle := trivial

end programs

/-! ## Runs -/

section runs

variable {read : Reader} {caRootPem : String} {s t : State} {h : History} {w w' : World}

/-- The texts of all rows fit, and no serial number is given twice. -/
structure World.Fits (read : Reader) (w : World) : Prop where
  texts : ∀ c ∈ w.certificates, c.Fits read
  serials : (w.certificates.map (·.serialNumber)).Nodup

/-- What is signed fits, and so does what others record. -/
structure Honest (read : Reader) (e : Ev) : Prop where
  signs : ∀ tid o r, e.label = .op tid o r → signsAs read o r
  records : e.label = .drift → ∀ c ∈ e.post.world.certificates, c ∈ e.pre.world.certificates ∨ c.Fits read

theorem World.Fits.revoke (fits : w.Fits read) (cond : Certificate → Bool) (now : Time)
    (revoked : w'.certificates = (Ca.revoke cond now).apply w.certificates) : w'.Fits read where
  texts c mem := by
    rw [revoked] at mem
    obtain ⟨c', there, rfl⟩ := Sql.Update.mem_apply.mp mem
    have kept : ((Ca.revoke cond now).onRow c').Fits read ↔ c'.Fits read := by
      unfold Sql.Update.onRow
      split <;> rfl
    exact kept.mpr (fits.texts c' there)
  serials := by
    have same : (Ca.revoke cond now).Keeps (·.serialNumber) := fun _ _ => rfl
    have serials : ((Ca.revoke cond now).apply w.certificates).map (·.serialNumber) =
        w.certificates.map (·.serialNumber) := by
      rw [Sql.Update.apply, List.map_map]
      exact List.map_congr_left fun c _ => same.onRow c
    rw [revoked, serials]
    exact fits.serials

theorem World.Fits.sublist (fits : w.Fits read) (fewer : w'.certificates.Sublist w.certificates) : w'.Fits read where
  texts c mem := fits.texts c (fewer.subset mem)
  serials := fits.serials.sublist (fewer.map _)

theorem World.Fits.insert {cert : NewCertificate} {id : Uuid} (fits : w.Fits read)
    (new : ∀ c ∈ (Ca.insert w cert id).2.certificates, c ∈ w.certificates ∨ c.Fits read) :
    (Ca.insert w cert id).2.Fits read := by
  refine ⟨fun c mem => (new c mem).elim (fits.texts c) (fun fit => fit), ?_⟩
  unfold Ca.insert
  split_ifs with duplicate host
  · exact fits.serials
  · refine List.nodup_cons.mpr ⟨fun mem => ?_, fits.serials⟩
    obtain ⟨c, there, same⟩ := List.mem_map.mp mem
    exact duplicate (List.any_eq_true.mpr ⟨c, there, by simp [same, NewCertificate.row]⟩)
  · exact fits.serials

theorem World.Fits.of_certificates (fits : w.Fits read) (same : w'.certificates = w.certificates) : w'.Fits read :=
  fits.sublist (same ▸ .refl _)

theorem mem_insert {cert : NewCertificate} {id : Uuid} {c : Certificate}
    (mem : c ∈ (Ca.insert w cert id).2.certificates) : c ∈ w.certificates ∨ c = cert.row id w.now := by
  obtain same | ⟨-, inserted⟩ := insert_cases (w := w) cert id
  · exact .inl (same ▸ mem)
  · rw [inserted] at mem
    exact (List.mem_cons.mp mem).symm

theorem World.Fits.execute {o : Op} {a : Answer} {r : o.Resp} (fits : w.Fits read) (records : recordsAs read o)
    (executed : Ca.execute w o a = some (r, w')) : w'.Fits read := by
  cases o with
  | insertCertificate cert =>
    cases a with
    | row id =>
      have moved : (Ca.insert w cert id).2 = w' := (Prod.mk.inj (Option.some.inj executed)).2
      rw [← moved]
      refine fits.insert fun c mem => ?_
      obtain there | rfl := mem_insert mem
      · exact .inl there
      · exact .inr records
    | failed reason =>
      obtain ⟨-, rfl⟩ := Prod.mk.inj (Option.some.inj executed)
      exact fits
    | _ => cases executed
  | revokeCertificate id =>
    cases a with
    | ok =>
      obtain ⟨-, rfl⟩ := Prod.mk.inj (Option.some.inj executed)
      exact fits.revoke _ _ rfl
    | failed reason =>
      obtain ⟨-, rfl⟩ := Prod.mk.inj (Option.some.inj executed)
      exact fits
    | _ => cases executed
  | revokeActive hostId =>
    cases a with
    | ok =>
      obtain ⟨-, rfl⟩ := Prod.mk.inj (Option.some.inj executed)
      exact fits.revoke _ _ rfl
    | failed reason =>
      obtain ⟨-, rfl⟩ := Prod.mk.inj (Option.some.inj executed)
      exact fits
    | _ => cases executed
  | deleteHost id =>
    cases a with
    | ok =>
      obtain ⟨-, rfl⟩ := Prod.mk.inj (Option.some.inj executed)
      exact fits.sublist List.filter_sublist
    | failed reason =>
      obtain ⟨-, rfl⟩ := Prod.mk.inj (Option.some.inj executed)
      exact fits
    | _ => cases executed
  | selectHost | selectCertificate | signCert | selectRevoked | signCrl =>
    -- the other operations read
    have same : w' = w := by
      cases a <;> first | exact (Prod.mk.inj (Option.some.inj executed)).2.symm | cases executed
    exact same ▸ fits

theorem World.Fits.step {e : Ev} (fits : e.pre.world.Fits read) (records : ∀ tid o r, e.label = .op tid o r → recordsAs read o)
    (honest : Honest read e) (step : Step (authority caRootPem).machine e.pre e.label e.post) : e.post.world.Fits read := by
  obtain ⟨tid, o, r, a, label, executed⟩ | ⟨d, label, moved⟩ | ⟨-, same⟩ | ⟨-, same⟩ := Service.world_cases step
  · exact fits.execute (records tid o r label) executed
  · have recorded := honest.records label
    change e.post.world = change e.pre.world d at moved
    rw [moved] at recorded ⊢
    cases d with
    | tick micros => exact fits.of_certificates rfl
    | host row => exact fits.of_certificates rfl
    | issued cert id => exact fits.insert recorded
  · exact same ▸ fits
  · exact same ▸ fits

/-- In every state that is reached, the texts of the rows fit. -/
theorem fits_of_run (tasks : s.tasks = []) (fits : s.world.Fits read) (run : Run (authority caRootPem).machine s h t)
    (honest : ∀ e ∈ h, Honest read e) : t.world.Fits read := by
  have relies : ∀ e ∈ h, (recording read).Relies e.label := fun e mem => by
    cases label : e.label with
    | op tid o r => exact (honest e mem).signs tid o r label
    | _ => trivial
  have permitted := (run.guarantees keeps_recording relies (Sys.along_of_empty tasks)).2
  refine run.preserves (I := fun s => s.world.Fits read) (fun e mem step fits => ?_) fits
  refine fits.step (fun tid o r label => ?_) (honest e mem) step
  obtain ⟨h₁, h₂, split⟩ := List.append_of_mem mem
  have guaranteed := permitted h₁ e h₂ split
  rw [label] at guaranteed
  exact guaranteed

end runs

/-! ## What is downloaded -/

section downloads

variable {read : Reader} {w : World} {hostId : Uuid} {c : Certificate}

def isClient (read : Reader) (c : Certificate) : Bool := (read.names c.certPem).isEmpty

/-- An active certificate of the host's client, and no other was issued later. -/
structure Newest (read : Reader) (w : World) (hostId : Uuid) (c : Certificate) : Prop where
  active : c ∈ actives w hostId
  client : isClient read c = true
  latest : ∀ c' ∈ actives w hostId, isClient read c' = true → c'.issuedAt ≤ c.issuedAt

/-- The newest is downloaded where there is one, and nothing where there is none. -/
def Right (read : Reader) (w : World) (hostId : Uuid) : Except ApiError String → Prop
  | .ok certPem => ∃ c, Newest read w hostId c ∧ c.certPem = certPem
  | .error e => e = notFound "No active certificate found for this host" ∧
    ∀ c ∈ actives w hostId, isClient read c = false

/-- Where the host's client has active certificates, a newest one does not have the name of a
    server. -/
def Recognisable (read : Reader) (w : World) (hostId : Uuid) : Prop :=
  (∀ c ∈ actives w hostId, isClient read c = false) ∨
    ∃ c, Newest read w hostId c ∧ isServerName c.commonName = false

theorem mem_clientRows {rows : List Certificate} (same : rows.Perm w.certificates) :
    c ∈ clientRows rows hostId ↔ c ∈ actives w hostId ∧ isServerName c.commonName = false := by
  simp only [clientRows, List.mem_mergeSort, List.mem_filter, same.mem_iff, actives, Bool.and_eq_true,
    Bool.not_eq_true', and_assoc]

/-- Nothing is issued later than the first row. -/
theorem latest_of_clientRows {rows : List Certificate} {rest : List Certificate}
    (first : clientRows rows hostId = c :: rest) : ∀ c' ∈ clientRows rows hostId, c'.issuedAt ≤ c.issuedAt := by
  have sorted : (clientRows rows hostId).Pairwise fun a b => decide (b.issuedAt ≤ a.issuedAt) = true := by
    refine List.pairwise_mergeSort (fun a b c first second => ?_) (fun a b => ?_) _
    · simp only [decide_eq_true_eq] at first second ⊢
      exact le_trans second first
    · simp only [Bool.or_eq_true, decide_eq_true_eq]
      exact le_total _ _
  rw [first] at sorted ⊢
  intro c' mem
  obtain rfl | mem := List.mem_cons.mp mem
  · exact le_rfl
  · exact of_decide_eq_true ((List.pairwise_cons.mp sorted).1 c' mem)

theorem World.Fits.isClient (fits : w.Fits read) (active : c ∈ actives w hostId)
    (named : isServerName c.commonName = false) : isClient read c = true := by
  have text := (fits.texts c (mem_actives.mp active).1).2
  rw [Ca.isClient, List.isEmpty_iff]
  by_contra names
  rw [text names] at named
  cases named

theorem World.Fits.eq_of_certPem {c' : Certificate} (fits : w.Fits read) (mem : c ∈ w.certificates)
    (mem' : c' ∈ w.certificates) (same : c.certPem = c'.certPem) : c = c' :=
  List.inj_on_of_nodup_map fits.serials mem mem' (by
    rw [← (fits.texts c mem).1, ← (fits.texts c' mem').1, same])

/-- Where the texts fit, the newest is downloaded exactly when it is recognisable. -/
theorem World.Fits.right_iff (fits : w.Fits read) {auth : AuthUser} (writes : auth.role.canWrite = true) :
    (∀ rows, rows.Perm w.certificates → Right read w hostId (downloadClientCert auth (.ok (selectClientCert rows hostId)))) ↔
      Recognisable read w hostId := by
  have answer (rows : List Certificate) : downloadClientCert auth (.ok (selectClientCert rows hostId)) =
      (clientRows rows hostId).head?.elim (.error (notFound "No active certificate found for this host"))
        fun c => .ok c.certPem := by
    unfold downloadClientCert selectClientCert
    rw [writes]
    cases clientRows rows hostId <;> rfl
  constructor
  · intro right
    have right := right w.certificates (.refl _)
    rw [answer] at right
    cases eq : clientRows w.certificates hostId with
    | nil =>
      rw [eq] at right
      exact .inl right.2
    | cons c rest =>
      rw [eq] at right
      obtain ⟨c', newest, same⟩ := right
      obtain ⟨active, named⟩ := (mem_clientRows (.refl _)).mp (eq ▸ List.mem_cons_self)
      obtain rfl := fits.eq_of_certPem (mem_actives.mp newest.active).1 (mem_actives.mp active).1 same
      exact .inr ⟨c', newest, named⟩
  · intro recognisable rows perm
    rw [answer]
    cases eq : clientRows rows hostId with
    | nil =>
      refine ⟨rfl, recognisable.resolve_right ?_⟩
      rintro ⟨c, newest, named⟩
      have mem := (mem_clientRows perm).mpr ⟨newest.active, named⟩
      rw [eq] at mem
      cases mem
    | cons c rest =>
      obtain ⟨active, named⟩ := (mem_clientRows perm).mp (eq ▸ List.mem_cons_self)
      have client := fits.isClient active named
      refine ⟨c, ⟨active, client, fun c' active' client' => ?_⟩, rfl⟩
      obtain none | ⟨last, newest, named'⟩ := recognisable
      · rw [none c active] at client
        cases client
      · have row := (mem_clientRows perm).mpr ⟨newest.active, named'⟩
        exact le_trans (newest.latest c' active' client') (latest_of_clientRows eq last row)

/-- Whatever its host is called, a server is not taken for a client. -/
theorem World.Fits.selected_is_client (fits : w.Fits read) {rows : List Certificate} (perm : rows.Perm w.certificates)
    {certPem : String} (selected : selectClientCert rows hostId = some certPem) : read.names certPem = [] := by
  obtain ⟨c, first, rfl⟩ := Option.map_eq_some_iff.mp selected
  obtain ⟨active, named⟩ := (mem_clientRows perm).mp (List.mem_of_head? first)
  exact List.isEmpty_iff.mp (fits.isClient active named)

end downloads

/-- In every state that is reached, the newest active certificate of a host's client is downloaded
    exactly when it is recognisable. -/
theorem download_newest_iff {read : Reader} {caRootPem : String} {s t : State} {h : History} (tasks : s.tasks = [])
    (fits : s.world.Fits read) (run : Run (authority caRootPem).machine s h t) (honest : ∀ e ∈ h, Honest read e)
    (hostId : Uuid) {auth : AuthUser} (writes : auth.role.canWrite = true) :
    (∀ rows, rows.Perm t.world.certificates →
        Right read t.world hostId (downloadClientCert auth (.ok (selectClientCert rows hostId)))) ↔
      Recognisable read t.world hostId :=
  (fits_of_run tasks fits run honest).right_iff writes

/-- In every state that is reached, what is downloaded is a client's. -/
theorem download_is_client {read : Reader} {caRootPem : String} {s t : State} {h : History} (tasks : s.tasks = [])
    (fits : s.world.Fits read) (run : Run (authority caRootPem).machine s h t) (honest : ∀ e ∈ h, Honest read e)
    {hostId : Uuid} {auth : AuthUser} {rows : List Certificate} (perm : rows.Perm t.world.certificates) {certPem : String}
    (downloaded : downloadClientCert auth (.ok (selectClientCert rows hostId)) = .ok certPem) :
    read.names certPem = [] := by
  have selected : selectClientCert rows hostId = some certPem := by
    unfold downloadClientCert at downloaded
    split_ifs at downloaded
    cases found : selectClientCert rows hostId with
    | none =>
      rw [found] at downloaded
      cases downloaded
    | some pem =>
      rw [found] at downloaded
      exact congrArg some (Except.ok.inj downloaded)
  exact (fits_of_run tasks fits run honest).selected_is_client perm selected

namespace Downloads

def read : Reader where
  names certPem := if certPem = "client" then [] else ["host"]
  serialNumber certPem := if certPem = "client" then "0a" else "0b"

/-- A host without certificates. -/
def start (fqdn : String) : State := ⟨{ hosts := [⟨1, fqdn, "10.0.0.1"⟩], certificates := [], now := 5 }, []⟩

/-- The first certificates are issued. -/
def moves : List (Move Small.player) :=
  [.call (.reissueHostCert Small.admin 1), .run 0 .ok, .run 0 .ok, .run 0 (.signed ⟨"0a", 1000, "client", "key"⟩),
    .run 0 (.row 8), .run 0 (.signed ⟨"0b", 1000, "server", "key"⟩), .run 0 (.row 9)]

def signsWell (e : Ev) : Bool :=
  match e.label with
  | .op _ (.signCert _ alternative) (.ok signed) =>
    read.serialNumber signed.certPem == signed.serialNumber && (!alternative.isEmpty || (read.names signed.certPem).isEmpty)
  | .drift => false
  | _ => true

theorem honest_of_signsWell {e : Ev} (well : signsWell e = true) : Honest read e := by
  unfold signsWell at well
  refine ⟨fun tid o r label => ?_, fun label => ?_⟩
  · rw [label] at well
    cases o with
    | signCert commonName alternative =>
      cases r with
      | error reason => trivial
      | ok signed =>
        simp only [Bool.and_eq_true, beq_iff_eq, Bool.or_eq_true, Bool.not_eq_true', List.isEmpty_eq_false_iff,
          List.isEmpty_iff] at well
        exact ⟨well.1, fun none => well.2.resolve_left (absurd none)⟩
    | _ => trivial
  · rw [label] at well
    cases well

theorem start_fits (fqdn : String) : (start fqdn).world.Fits read := ⟨nofun, List.nodup_nil⟩

def issued (fqdn : String) : State := Player.last (start fqdn) (Small.player.history (start fqdn) moves)

def client (fqdn : String) : Certificate := ⟨8, some 1, "0a", fqdn, .active, 5, 1000, none, "client"⟩

def server (fqdn : String) : Certificate := ⟨9, some 1, "0b", fqdn ++ "-server", .active, 5, 1000, none, "server"⟩

theorem issued_world (fqdn : String) : (issued fqdn).world.certificates = [server fqdn, client fqdn] := rfl

theorem issued_run (fqdn : String) : Run (authority "root").machine (start fqdn)
    (Small.player.history (start fqdn) moves) (issued fqdn) :=
  Small.player.run_of_play rfl

theorem issued_honest (fqdn : String) : ∀ e ∈ Small.player.history (start fqdn) moves, Honest read e := by
  have well : (Small.player.history (start fqdn) moves).all signsWell = true := rfl
  exact fun e mem => honest_of_signsWell (List.all_eq_true.mp well e mem)

theorem client_newest (fqdn : String) : Newest read (issued fqdn).world 1 (client fqdn) where
  active := mem_actives.mpr ⟨issued_world fqdn ▸ by simp, rfl, rfl⟩
  client := rfl
  latest c active _ := by
    have mem := (mem_actives.mp active).1
    rw [issued_world] at mem
    simp only [List.mem_cons, List.not_mem_nil, or_false] at mem
    obtain rfl | rfl := mem <;> exact le_rfl

end Downloads

/-- The certificate of a host that is called `web`. -/
theorem download_newest_web : Recognisable Downloads.read (Downloads.issued "web").world 1 ∧
    ∀ rows, rows.Perm (Downloads.issued "web").world.certificates →
      Right Downloads.read (Downloads.issued "web").world 1
        (downloadClientCert Small.admin (.ok (selectClientCert rows 1))) := by
  have recognisable : Recognisable Downloads.read (Downloads.issued "web").world 1 :=
    .inr ⟨_, Downloads.client_newest "web", by decide +kernel⟩
  refine ⟨recognisable, ?_⟩
  exact (download_newest_iff rfl (Downloads.start_fits "web") (Downloads.issued_run "web")
    (Downloads.issued_honest "web") 1 (by decide)).mpr recognisable

/-- The certificate of a host that is called `web-server` is not found. -/
theorem client_not_found : ¬ ∀ (read : Reader) (caRootPem : String) (s t : State) (h : History), s.tasks = [] →
    s.world.Fits read → Run (authority caRootPem).machine s h t → (∀ e ∈ h, Honest read e) →
    ∀ (hostId : Uuid) (auth : AuthUser), auth.role.canWrite = true → ∀ rows, rows.Perm t.world.certificates →
      Right read t.world hostId (downloadClientCert auth (.ok (selectClientCert rows hostId))) := by
  intro all
  have right := all Downloads.read "root" _ _ _ rfl (Downloads.start_fits "web-server") (Downloads.issued_run "web-server")
    (Downloads.issued_honest "web-server") 1 Small.admin (by decide) _ (.refl _)
  have none : selectClientCert (Downloads.issued "web-server").world.certificates 1 = none := by decide +kernel
  rw [none] at right
  have client := right.2 _ (Downloads.client_newest "web-server").active
  cases client

end PatchManager.Ca
