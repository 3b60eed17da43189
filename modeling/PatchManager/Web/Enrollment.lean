import PatchManager.Conc.Serve
import PatchManager.Repo.Distro
import PatchManager.Web.Tickets

/-! # Enrollment of hosts

`enrollment.rs`: a host asks to be enrolled and polls for the answer, an administrator approves or
denies.  With it come the parts of `db.rs` and of the certificate authority that an approval goes
through, and what deletes requests and bundles that have expired.  The hash of tokens is a
parameter; certificates are signed elsewhere.

`enrollment` puts them together.  Requests run in parallel, one statement or map operation at a
time.
-/

namespace PatchManager.Enrollment

open PatchManager.Conc

structure CreateEnrollmentRequest where
  machineId : String
  fqdn : String
  ipAddress : String
  osDetails : Json
  hostname : Option String

/-- A row of `enrollment_requests`. -/
structure EnrollmentRequest where
  id : Uuid
  machineId : String
  fqdn : String
  ipAddress : String
  osDetails : Json
  /-- the hash of the token -/
  pollingToken : String
  hostname : Option String
  createdAt : Time
  expiresAt : Time

structure Host where
  id : Uuid
  fqdn : String
  ipAddress : String
  osFamily : Option String
  osName : Option String
  arch : Option String
  displayName : String
deriving DecidableEq

/-- A row of `certificates`, as it is inserted. -/
structure Certificate where
  hostId : Uuid
  serialNumber : String
  commonName : String
  expiresAt : Time
  certPem : String

structure PkiBundle where
  caCrt : String
  caChain : String
  serverCrt : String
  serverKey : String
  crlPem : String
  repoConfig : Option RepoConfig
deriving DecidableEq, Repr

def enrollmentBundleTtlSecs : Int := 600

structure ApprovedEntry where
  pki : PkiBundle
  approvedAt : Time
  ttl : Int

/-- `ApprovedEntry::new` at an instant. -/
def ApprovedEntry.new (pki : PkiBundle) (now : Time) : ApprovedEntry :=
  ⟨pki, now, enrollmentBundleTtlSecs * microsPerSecond⟩

def ApprovedEntry.isExpired (entry : ApprovedEntry) (now : Time) : Bool :=
  entry.approvedAt + entry.ttl < now

inductive EnrollmentStatusResponse where
  | pending
  | approved (caCrt caChain serverCrt serverKey crlPem : String)
  | denied
  | notFound
deriving DecidableEq, Repr

/-- The bundle an answer is read as, where a part that is missing has its default. -/
def EnrollmentStatusResponse.bundle : EnrollmentStatusResponse → Option PkiBundle
  | .approved caCrt caChain serverCrt serverKey crlPem =>
    some { caCrt, caChain, serverCrt, serverKey, crlPem, repoConfig := none }
  | _ => none

/-- An answer that is an error. -/
inductive Failure where
  | forbidden
  | database
  | certificate
  | conflict (existingHost : Host)
deriving DecidableEq

def Failure.status : Failure → Nat
  | .forbidden => 403
  | .database | .certificate => 500
  | .conflict _ => 409

def Failure.message : Failure → String
  | .forbidden => "Admin role required"
  | .database => "Database error"
  | .certificate => "Certificate generation failed"
  | .conflict _ => "Host collision detected"

/-- What is read of the section `repo` of the configuration. -/
structure RepoServerConfig where
  urlBase : String
  gpgPublicKeyPath : String
  apkRsaPublicKeyPath : String

structure IssuedCert where
  certPem : String
  keyPem : String
  serialNumber : String
  expiresAt : Time
  serverCertPem : String
  serverKeyPem : String
  serverSerialNumber : String
  caRootPem : String

/-! ## Operations -/

/-- A certificate and its key, as the authority signs them. -/
structure Signed where
  serialNumber : String
  expiresAt : Time
  certPem : String
  keyPem : String

inductive Op where
  | utcNow
  | generateToken
  | createEnrollmentRequest (payload : CreateEnrollmentRequest) (tokenHash : String)
  | listEnrollmentRequests
  | deleteEnrollmentRequest (id : Uuid)
  | findHost (fqdn ipAddress : String)
  | insertHost (host : Host)
  | signCert (commonName : String) (subjectAltNames : List String)
  | insertCertificate (cert : Certificate)
  | generateCrl
  | readToString (path : String)
  | removeApproved (tokenHash : String)
  | insertApproved (tokenHash : String) (entry : ApprovedEntry)

@[reducible] def Op.Resp : Op → Type
  | .utcNow => Time
  | .generateToken => String
  | .createEnrollmentRequest _ _ => Except String EnrollmentRequest
  | .listEnrollmentRequests => Except String (List EnrollmentRequest)
  | .deleteEnrollmentRequest _ => Except String Nat
  | .findHost _ _ => Except String (Option Host)
  | .insertHost _ | .insertCertificate _ => Except String Unit
  | .signCert _ _ => Except String Signed
  | .generateCrl | .readToString _ => Except String String
  | .removeApproved _ => Option ApprovedEntry
  | .insertApproved _ _ => Unit

/-! ## Programs -/

inductive Fn where
  | enrollHost (payload : CreateEnrollmentRequest)
  | enrollStatus (token : String)
  | approveEnrollment (auth : AuthUser) (id : Uuid)
  | denyEnrollment (auth : AuthUser) (id : Uuid)

abbrev Proc := Conc.Prog Op Op.Resp Fn

def perform (o : Op) : Proc o.Resp := Conc.Prog.perform o

/-- `map_err`. -/
def orFail {α : Type} (failure : Failure) (p : Proc (Except String α)) : Proc (Except Failure α) :=
  p.bind fun r => .ret (r.mapError fun _ => failure)

/-- Answers with the token. -/
def enrollHost (sha256 : String → String) (payload : CreateEnrollmentRequest) : Proc (Except Failure String) := do
  let pollingToken ← perform .generateToken
  (orFail .database (perform (.createEnrollmentRequest payload (sha256 pollingToken)))).attempt fun _ =>
    .ret (.ok pollingToken)

def ApprovedEntry.response (entry : ApprovedEntry) : EnrollmentStatusResponse :=
  .approved entry.pki.caCrt entry.pki.caChain entry.pki.serverCrt entry.pki.serverKey entry.pki.crlPem

def enrollStatus (sha256 : String → String) (token : String) :
    Proc (Except Failure EnrollmentStatusResponse) :=
  (orFail .database (perform .listEnrollmentRequests)).attempt fun requests =>
    match requests.find? (·.pollingToken == sha256 token) with
    | some req => do
      let now ← perform .utcNow
      return .ok (if req.expiresAt < now then .notFound else .pending)
    | none => do
      match ← perform (.removeApproved (sha256 token)) with
      | some entry =>
        let now ← perform .utcNow
        return .ok (if entry.isExpired now then .notFound else entry.response)
      | none => return .ok .notFound

/-- A text of `os_details`. -/
def EnrollmentRequest.os (req : EnrollmentRequest) (key : String) : Option String :=
  (req.osDetails.get? key).bind Json.asStr?

/-- The name, or what the system and its version make up. -/
def EnrollmentRequest.osName (req : EnrollmentRequest) : Option String :=
  (req.os "name").or ((req.os "os").map fun os =>
    String.ofList (Str.trim (os ++ " " ++ (req.os "os_version").getD "").toList))

/-- The host a request becomes. -/
def EnrollmentRequest.host (req : EnrollmentRequest) : Host where
  id := req.id
  fqdn := req.fqdn
  ipAddress := req.ipAddress
  osFamily := req.os "os"
  osName := req.osName
  arch := req.os "architecture"
  displayName := req.hostname.getD req.fqdn

/-- A certificate is signed and recorded. -/
def issueCert (hostId : Uuid) (commonName : String) (subjectAltNames : List String) :
    Proc (Except Failure Signed) :=
  (orFail .certificate (perform (.signCert commonName subjectAltNames))).attempt fun signed =>
    (orFail .certificate (perform (.insertCertificate
      { hostId, serialNumber := signed.serialNumber, commonName, expiresAt := signed.expiresAt
        certPem := signed.certPem }))).attempt fun _ => .ret (.ok signed)

/-- A certificate for the client, and one for the server. -/
def issueClientCert (caRootPem : String) (hostId : Uuid) (hostname ipAddress : String) :
    Proc (Except Failure IssuedCert) :=
  (issueCert hostId hostname []).attempt fun client =>
    (issueCert hostId (hostname ++ "-server") [hostname, ipAddress]).attempt fun server => .ret (.ok
      { certPem := client.certPem, keyPem := client.keyPem, serialNumber := client.serialNumber
        expiresAt := client.expiresAt, serverCertPem := server.certPem, serverKeyPem := server.keyPem
        serverSerialNumber := server.serialNumber, caRootPem })

def EnrollmentRequest.distroId (req : EnrollmentRequest) : Option String :=
  detectDistroId (req.os "distro") (req.os "name")

/-- The keys are read that the distribution needs; without the one for GPG there is nothing, and
    Alpine goes without the one for GPG. -/
def repoConfigFor (cfg : RepoServerConfig) (req : EnrollmentRequest) : Proc (Option RepoConfig) :=
  match req.distroId with
  | none => .ret none
  | some distroId =>
    let codename := (req.os "codename").or (detectAptSuite (req.os "version"))
    match generateDistroConfig distroId cfg.urlBase codename with
    | none => .ret none
    | some (sourcesConfig, keyringPath) =>
      if distroId = "alpine" then do
        let key ← perform (.readToString cfg.apkRsaPublicKeyPath)
        return some { gpgPublicKey := "", sourcesConfig, distroId, keyringPath, apkRsaPublicKey := key.toOption }
      else do
        let key ← perform (.readToString cfg.gpgPublicKeyPath)
        let gpgPublicKey := key.toOption.getD ""
        if gpgPublicKey.isEmpty then return none
        else return some { gpgPublicKey, sourcesConfig, distroId, keyringPath, apkRsaPublicKey := none }

/-- The part of `approve_enrollment` up to the generation of the bundle: the request is gone, the
    host is there and its certificates are issued.  There is no result without such a request. -/
def generateBundle (cfg : RepoServerConfig) (caRootPem : String) (auth : AuthUser) (id : Uuid) :
    Proc (Except Failure (Option (EnrollmentRequest × PkiBundle))) :=
  if !auth.role.isAdmin then .ret (.error .forbidden)
  else (orFail .database (perform .listEnrollmentRequests)).attempt fun requests =>
    match requests.find? (·.id == id) with
    | none => .ret (.ok none)
    | some req =>
      (orFail .database (perform (.findHost req.fqdn req.ipAddress))).attempt fun existing =>
        match existing with
        | some existingHost => .ret (.error (.conflict existingHost))
        | none =>
          (orFail .database (perform (.insertHost req.host))).attempt fun _ =>
          (issueClientCert caRootPem req.id req.fqdn req.ipAddress).attempt fun issued =>
          (orFail .database (perform (.deleteEnrollmentRequest id))).attempt fun _ => do
            let crl ← perform .generateCrl
            let repoConfig ← repoConfigFor cfg req
            return .ok (some (req, { caCrt := issued.caRootPem, caChain := issued.caRootPem
                                     serverCrt := issued.serverCertPem, serverKey := issued.serverKeyPem
                                     crlPem := crl.toOption.getD "", repoConfig }))

/-- Answers with a status. -/
def approveEnrollment (cfg : RepoServerConfig) (caRootPem : String) (auth : AuthUser) (id : Uuid) :
    Proc (Except Failure Nat) :=
  (generateBundle cfg caRootPem auth id).attempt fun generated =>
    match generated with
    | none => .ret (.ok 404)
    | some (req, pki) => do
      let now ← perform .utcNow
      perform (.insertApproved req.pollingToken (.new pki now))
      return .ok 200

def denyEnrollment (auth : AuthUser) (id : Uuid) : Proc (Except Failure Nat) :=
  if !auth.role.isAdmin then .ret (.error .forbidden)
  else (orFail .database (perform (.deleteEnrollmentRequest id))).attempt fun _ => .ret (.ok 204)

/-! ## Inversion -/

section Inversion

variable {l : List (Exchange Op Op.Resp)}

/-- An operation whose failure is mapped has returned what it answered. -/
theorem orFail_returns {α : Type} {failure : Failure} {p : Proc (Except String α)} {value : α}
    (returns : (orFail failure p).Returns l (.ok value)) : p.Returns l (.ok value) := by
  obtain ⟨r, l₁, l₂, rfl, first, second⟩ := Prog.Returns.bind_inv returns
  obtain ⟨rfl, eq⟩ := second.ret_inv
  cases r with
  | ok value' =>
    cases eq
    simpa using first
  | error e => cases eq

/-- What a bundle is generated from. -/
theorem generateBundle_returns {cfg : RepoServerConfig} {caRootPem : String} {auth : AuthUser} {id : Uuid}
    {req : EnrollmentRequest} {pki : PkiBundle}
    (returns : (generateBundle cfg caRootPem auth id).Returns l (.ok (some (req, pki)))) :
    ∃ reqs before reads, l = ⟨.listEnrollmentRequests, .ok reqs⟩ :: (before ++ reads) ∧
      reqs.find? (·.id == id) = some req ∧ (repoConfigFor cfg req).Returns reads pki.repoConfig := by
  unfold generateBundle at returns
  split at returns
  · cases returns.ret_inv.2
  obtain ⟨reqs, l₁, l₂, rfl, listed, rest⟩ := returns.attempt_inv
  obtain ⟨r, l₁, rfl, done⟩ := (orFail_returns listed).op_inv
  obtain ⟨rfl, rfl⟩ := done.ret_inv
  cases found : reqs.find? (·.id == id) with
  | none =>
    simp only [found] at rest
    cases rest.ret_inv.2
  | some req' =>
    simp only [found] at rest
    obtain ⟨existing, l₁, l₃, rfl, -, rest₁⟩ := rest.attempt_inv
    cases existing with
    | some host => cases rest₁.ret_inv.2
    | none =>
      obtain ⟨_, l₂, l₄, rfl, -, rest₂⟩ := rest₁.attempt_inv
      obtain ⟨issued, l₃, l₅, rfl, -, rest₃⟩ := rest₂.attempt_inv
      obtain ⟨_, l₄, l₆, rfl, -, rest₄⟩ := rest₃.attempt_inv
      obtain ⟨crl, l₅, rfl, rest₅⟩ := rest₄.op_inv
      simp only [Prog.ret_bind, Prog.bind_eq] at rest₅
      obtain ⟨config, reads, l₆, rfl, read, last⟩ := rest₅.bind_inv
      obtain ⟨rfl, eq⟩ := last.ret_inv
      cases eq
      exact ⟨reqs, l₁ ++ (l₂ ++ (l₃ ++ (l₄ ++ [⟨.generateCrl, crl⟩]))), reads, by simp, found, read⟩

end Inversion

/-! ## The service -/

structure World where
  requests : List EnrollmentRequest := []
  hosts : List Host := []
  certificates : List Certificate := []
  approved : DashMap ApprovedEntry := ∅
  /-- the hashes of the tokens given out so far, which are all different -/
  tokens : List String := []
  /-- the identifiers given to requests so far, which are all different -/
  ids : List Uuid := []
  now : Time

inductive Answer where
  | ok
  | failed (reason : String)
  | token (token : String)
  /-- the identifier of a new row, and the address as the database writes it -/
  | row (id : Uuid) (ipAddress : String)
  | signed (signed : Signed)
  | text (text : String)

inductive Change where
  | tick (micros : Nat)
  /-- the worker deletes the requests that have expired -/
  | cleanup
  /-- one entry as the purging task passes over it -/
  | purge (tokenHash : String)
  /-- what other requests do to hosts and certificates -/
  | other (hosts : List Host) (certificates : List Certificate)

/-- The row of a new request. -/
def CreateEnrollmentRequest.row (payload : CreateEnrollmentRequest) (tokenHash : String) (id : Uuid)
    (ipAddress : String) (now : Time) : EnrollmentRequest where
  id
  machineId := payload.machineId
  fqdn := payload.fqdn
  ipAddress
  osDetails := payload.osDetails
  pollingToken := tokenHash
  hostname := payload.hostname
  createdAt := now
  expiresAt := now + microsPerDay

/-- A unique key of the table is taken. -/
def duplicates (w : World) (payload : CreateEnrollmentRequest) (tokenHash : String) : Bool :=
  w.requests.any fun req => req.machineId == payload.machineId || req.pollingToken == tokenHash

def execute (sha256 : String → String) (w : World) : (o : Op) → Answer → Option (o.Resp × World)
  | .utcNow, .ok => some (w.now, w)
  | .generateToken, .token t =>
    if sha256 t ∈ w.tokens then none else some (t, { w with tokens := sha256 t :: w.tokens })
  | .createEnrollmentRequest payload tokenHash, .row id ipAddress =>
    if id ∈ w.ids then none
    else if duplicates w payload tokenHash then some (.error "duplicate key", w)
    else
      let row := payload.row tokenHash id ipAddress w.now
      some (.ok row, { w with requests := row :: w.requests, ids := id :: w.ids })
  | .createEnrollmentRequest _ _, .failed reason => some (.error reason, w)
  | .listEnrollmentRequests, .ok => some (.ok w.requests, w)
  | .listEnrollmentRequests, .failed reason => some (.error reason, w)
  | .deleteEnrollmentRequest id, .ok =>
    some (.ok (w.requests.countP (·.id == id)), { w with requests := w.requests.filter (·.id != id) })
  | .deleteEnrollmentRequest _, .failed reason => some (.error reason, w)
  | .findHost fqdn ipAddress, .ok =>
    some (.ok (w.hosts.find? fun h => h.fqdn == fqdn || h.ipAddress == ipAddress), w)
  | .findHost _ _, .failed reason => some (.error reason, w)
  | .insertHost host, .ok =>
    if w.hosts.any fun h => h.id == host.id || (h.fqdn == host.fqdn && h.ipAddress == host.ipAddress) then
      some (.error "duplicate key", w)
    else some (.ok (), { w with hosts := host :: w.hosts })
  | .insertHost _, .failed reason => some (.error reason, w)
  | .signCert _ _, .signed signed => some (.ok signed, w)
  | .signCert _ _, .failed reason => some (.error reason, w)
  | .insertCertificate cert, .ok =>
    if w.hosts.any (·.id == cert.hostId) then
      some (.ok (), { w with certificates := cert :: w.certificates })
    else some (.error "foreign key", w)
  | .insertCertificate _, .failed reason => some (.error reason, w)
  | .generateCrl, .text text => some (.ok text, w)
  | .generateCrl, .failed reason => some (.error reason, w)
  | .readToString _, .text text => some (.ok text, w)
  | .readToString _, .failed reason => some (.error reason, w)
  | .removeApproved tokenHash, .ok =>
    some (w.approved.lookup tokenHash, { w with approved := w.approved.erase tokenHash })
  | .insertApproved tokenHash entry, .ok =>
    some ((), { w with approved := w.approved.insert tokenHash entry })
  | _, _ => none

def change (w : World) : Change → World
  | .tick micros => { w with now := w.now + micros }
  | .cleanup => { w with requests := w.requests.filter fun req => !decide (req.expiresAt < w.now) }
  | .purge tokenHash =>
    if (w.approved.lookup tokenHash).any fun entry => entry.isExpired w.now then
      { w with approved := w.approved.erase tokenHash }
    else w
  | .other hosts certificates => { w with hosts, certificates }

def body (sha256 : String → String) (cfg : RepoServerConfig) (caRootPem : String) : Fn → Proc Unit
  | .enrollHost payload => do
    let _ ← enrollHost sha256 payload
  | .enrollStatus token => do
    let _ ← enrollStatus sha256 token
  | .approveEnrollment auth id => do
    let _ ← approveEnrollment cfg caRootPem auth id
  | .denyEnrollment auth id => do
    let _ ← denyEnrollment auth id

def enrollment (sha256 : String → String) (cfg : RepoServerConfig) (caRootPem : String) :
    Service World Op Op.Resp Fn where
  body := body sha256 cfg caRootPem
  Answer := Answer
  Change := Change
  execute := execute sha256
  change := change
  isEntry _ := true
  restart w := { w with approved := ∅ }
  perishes _ := true

end PatchManager.Enrollment

/-! ## The repository for agents enrolled earlier

`get_repo_config` of `pki.rs` answers with what an approval would have sent along.
-/

namespace PatchManager.Enrollment

open PatchManager.Conc

structure RepoConfigQuery where
  distroId : String
  codename : Option String

inductive RepoConfigError where
  | missingParam
  | notConfigured (key : String)
  | unsupportedDistro (distroId : String)
deriving DecidableEq

def RepoConfigError.status : RepoConfigError → Nat
  | .missingParam | .unsupportedDistro _ => 400
  | .notConfigured _ => 404

def RepoConfigError.code : RepoConfigError → String
  | .missingParam => "missing_param"
  | .notConfigured _ => "repo_not_configured"
  | .unsupportedDistro _ => "unsupported_distro"

def RepoConfigError.message : RepoConfigError → String
  | .missingParam => "distro_id query parameter is required"
  | .notConfigured key => key ++ " public key not available on this manager"
  | .unsupportedDistro distroId => "Unsupported distro_id: " ++ distroId

/-- The key has to be there that the distribution needs; Alpine has no use for the one for GPG. -/
def getRepoConfig (cfg : RepoServerConfig) (params : RepoConfigQuery) : Proc (Except RepoConfigError RepoConfig) :=
  let distroId := params.distroId
  if distroId.isEmpty then .ret (.error .missingParam)
  else do
    let alpine := distroId == "alpine"
    let key ← perform (.readToString (if alpine then cfg.apkRsaPublicKeyPath else cfg.gpgPublicKeyPath))
    match key with
    | .error _ => return .error (.notConfigured (if alpine then "Alpine RSA" else "GPG"))
    | .ok key =>
      match generateDistroConfig distroId cfg.urlBase params.codename with
      | none => return .error (.unsupportedDistro distroId)
      | some (sourcesConfig, keyringPath) =>
        return .ok { gpgPublicKey := if alpine then "" else key, sourcesConfig, distroId, keyringPath
                     apkRsaPublicKey := if alpine then some key else none }

end PatchManager.Enrollment
