import PatchManager.Sql.Table
import PatchManager.Web.Enrollment

/-! # The certificate authority

`ca.rs` of the authority's crate, the routes that manage the certificates of hosts, the list of
revoked certificates, and the removal of a host.  Certificates and lists are signed elsewhere; audit
entries are left out.

`authority` puts them together.  Requests run in parallel, one statement at a time.
-/

namespace PatchManager.Ca

open PatchManager.Conc
open PatchManager.Enrollment (Signed IssuedCert)

inductive CertStatus where
  | active
  | revoked
  | expired
deriving DecidableEq, Repr

/-- A row of `certificates`. -/
structure Certificate where
  id : Uuid
  hostId : Option Uuid
  serialNumber : String
  commonName : String
  status : CertStatus
  issuedAt : Time
  expiresAt : Time
  revokedAt : Option Time
  certPem : String
deriving DecidableEq

/-- The columns of `hosts` that certificates are issued from. -/
structure HostRow where
  id : Uuid
  fqdn : String
  ipAddress : String
deriving DecidableEq

/-- An entry of a list: the bytes of a serial number, and a time in seconds. -/
structure RevokedCert where
  serialNumber : List Nat
  revocationTime : Int
deriving DecidableEq, Repr

structure NewCertificate where
  hostId : Uuid
  serialNumber : String
  commonName : String
  expiresAt : Time
  certPem : String

inductive Op where
  | selectHost (id : Uuid)
  | selectCertificate (id : Uuid)
  | signCert (commonName : String) (subjectAltNames : List String)
  | insertCertificate (cert : NewCertificate)
  | revokeCertificate (id : Uuid)
  | revokeActive (hostId : Uuid)
  | selectRevoked
  | signCrl (revoked : List RevokedCert)
  | deleteHost (id : Uuid)

@[reducible] def Op.Resp : Op → Type
  | .selectHost _ => Except String (Option HostRow)
  | .selectCertificate _ => Except String (Option (Option Uuid × String))
  | .signCert _ _ => Except String Signed
  | .insertCertificate _ => Except String Unit
  | .revokeCertificate _ | .revokeActive _ | .deleteHost _ => Except String Nat
  | .selectRevoked => Except String (List (String × Time))
  | .signCrl _ => Except String String

inductive Fn where
  | issueClientCert (auth : AuthUser) (hostId : Uuid) (hostname : String)
  | renewCert (auth : AuthUser) (certId : Uuid)
  | reissueHostCert (auth : AuthUser) (hostId : Uuid)
  | revokeCert (auth : AuthUser) (certId : Uuid)
  | getCrl
  | removeHost (auth : AuthUser) (id : Uuid)

abbrev Proc := Prog Op Op.Resp Fn

/-! ## The authority -/

/-- `perform` with the answers of an operation. -/
def perform (o : Op) : Proc o.Resp := Prog.perform o

/-- `p`, where an error is reported as the context. -/
def inContext {α : Type} (context : String) (p : Proc (Except String α)) : Proc (Except String α) :=
  p.bind fun r => .ret (r.mapError fun _ => context)

/-- A certificate is signed and recorded. -/
def issueCert (context : String) (hostId : Uuid) (commonName : String) (subjectAltNames : List String) :
    Proc (Except String Signed) :=
  (perform (.signCert commonName subjectAltNames)).attempt fun signed =>
    (inContext context (perform (.insertCertificate
      { hostId, serialNumber := signed.serialNumber, commonName, expiresAt := signed.expiresAt
        certPem := signed.certPem }))).attempt fun _ => .ret (.ok signed)

/-- A certificate for the client, and one for the server. -/
def issueClientCert (caRootPem : String) (hostId : Uuid) (hostname ipAddress : String) : Proc (Except String IssuedCert) :=
  (issueCert "insert client cert into database" hostId hostname []).attempt fun client =>
    (issueCert "insert server cert into database" hostId (hostname ++ "-server") [hostname, ipAddress]).attempt
      fun server => .ret (.ok
        { certPem := client.certPem, keyPem := client.keyPem, serialNumber := client.serialNumber
          expiresAt := client.expiresAt, serverCertPem := server.certPem, serverKeyPem := server.keyPem
          serverSerialNumber := server.serialNumber, caRootPem })

def revokeCert (certId : Uuid) : Proc (Except String Unit) :=
  (inContext "revoke certificate in database" (perform (.revokeCertificate certId))).attempt fun rows =>
    .ret (if rows = 0 then .error ("certificate not found: " ++ Uuid.text certId) else .ok ())

/-- Revokes the certificate and issues another one with its name. -/
def renewCert (caRootPem : String) (certId : Uuid) : Proc (Except String IssuedCert) :=
  (inContext "fetch certificate for renewal" (perform (.selectCertificate certId))).attempt fun row =>
    match row with
    | none => .ret (.error "fetch certificate for renewal")
    | some (none, _) => .ret (.error "certificate has no host_id (cannot renew root CA)")
    | some (some hostId, commonName) =>
      (inContext "fetch host IP address for renewal" (perform (.selectHost hostId))).attempt fun host =>
        match host with
        | none => .ret (.error "fetch host IP address for renewal")
        | some host =>
          (revokeCert certId).attempt fun _ => issueClientCert caRootPem hostId commonName host.ipAddress

def hexDecode : List Char → Option (List Nat)
  | [] => some []
  | [_] => none
  | a :: b :: rest => do
    let high ← Str.toDigit 16 a
    let low ← Str.toDigit 16 b
    let bytes ← hexDecode rest
    return (16 * high + low) :: bytes

/-- The entries of a list, from the rows that are read. -/
def revokedCerts (rows : List (String × Time)) : Except String (List RevokedCert) :=
  rows.mapM fun (serialHex, revokedAt) =>
    match hexDecode serialHex.toList with
    | none => .error "serial_number is not valid hex"
    | some serialNumber => .ok { serialNumber, revocationTime := revokedAt / microsPerSecond }

def generateCrl : Proc (Except String String) :=
  (inContext "query revoked certificates for CRL" (perform .selectRevoked)).attempt fun rows =>
    match revokedCerts rows with
    | .error e => .ret (.error e)
    | .ok revoked => inContext "sign CRL with CA key" (perform (.signCrl revoked))

/-! ## Routes -/

def forbidden : ApiError := ⟨403, "forbidden", "Write access required"⟩

def notFound (message : String) : ApiError := ⟨404, "not_found", message⟩

/-- An error of the authority, where the message tells what is missing. -/
def certError (message : String) : ApiError :=
  if Str.contains "not found".toList message.toList then notFound "Certificate not found"
  else ⟨500, "internal_error", message⟩

def orError {α : Type} (error : String → ApiError) (p : Proc (Except String α)) : Proc (Except ApiError α) :=
  p.bind fun r => .ret (r.mapError error)

def fetchHost (hostId : Uuid) : Proc (Except ApiError HostRow) :=
  (orError (fun _ => .database) (perform (.selectHost hostId))).attempt fun host =>
    .ret (host.elim (.error (notFound "Host not found")) .ok)

def issueClientCertRoute (caRootPem : String) (auth : AuthUser) (hostId : Uuid) (hostname : String) :
    Proc (Except ApiError IssuedCert) :=
  if !auth.role.canWrite then .ret (.error forbidden)
  else (fetchHost hostId).attempt fun host =>
    orError (⟨500, "internal_error", ·⟩) (issueClientCert caRootPem hostId hostname host.ipAddress)

def renewCertRoute (caRootPem : String) (auth : AuthUser) (certId : Uuid) : Proc (Except ApiError IssuedCert) :=
  if !auth.role.canWrite then .ret (.error forbidden)
  else orError certError (renewCert caRootPem certId)

/-- Revokes what is active of the host, and issues certificates again. -/
def reissueHostCert (caRootPem : String) (auth : AuthUser) (hostId : Uuid) : Proc (Except ApiError IssuedCert) :=
  if !auth.role.canWrite then .ret (.error forbidden)
  else (fetchHost hostId).attempt fun host =>
    (orError (fun _ => .database) (perform (.revokeActive hostId))).attempt fun _ =>
      orError (⟨500, "internal_error", ·⟩) (issueClientCert caRootPem hostId host.fqdn host.ipAddress)

def revokeCertRoute (auth : AuthUser) (certId : Uuid) : Proc (Except ApiError Unit) :=
  if !auth.role.canWrite then .ret (.error forbidden)
  else orError certError (revokeCert certId)

def getCrl : Proc (Except ApiError String) :=
  orError (fun _ => ⟨500, "", "Failed to generate CRL"⟩) generateCrl

/-- The name of the host is read for the audit log. -/
def removeHost (auth : AuthUser) (id : Uuid) : Proc (Except ApiError Unit) :=
  if !auth.role.canWrite then .ret (.error forbidden)
  else do
    let _ ← perform (.selectHost id)
    (orError (fun _ => .database) (perform (.deleteHost id))).attempt fun rows =>
      .ret (if rows = 0 then .error (notFound "Host not found") else .ok ())

/-! ## The service -/

structure World where
  hosts : List HostRow := []
  certificates : List Certificate := []
  now : Time

inductive Answer where
  | ok
  | failed (reason : String)
  /-- the identifier of a new row -/
  | row (id : Uuid)
  | signed (signed : Signed)
  | text (text : String)

inductive Change where
  | tick (micros : Nat)
  /-- a host is registered, or its row is changed -/
  | host (row : HostRow)
  /-- an approval or the setup of the authority records a certificate -/
  | issued (cert : NewCertificate) (id : Uuid)

def NewCertificate.row (cert : NewCertificate) (id : Uuid) (now : Time) : Certificate where
  id
  hostId := some cert.hostId
  serialNumber := cert.serialNumber
  commonName := cert.commonName
  status := .active
  issuedAt := now
  expiresAt := cert.expiresAt
  revokedAt := none
  certPem := cert.certPem

/-- `SET status = 'revoked', revoked_at = NOW()`. -/
def revoke (cond : Certificate → Bool) (now : Time) : Sql.Update Certificate where
  cond
  assign c := { c with status := .revoked, revokedAt := some now }

/-- Revoked, and not expired yet. -/
def Certificate.isListed (c : Certificate) (now : Time) : Bool :=
  c.status == .revoked && c.revokedAt.isSome && decide (now < c.expiresAt)

/-- The rows of a list, the first revoked first. -/
def revokedRows (w : World) : List (String × Time) :=
  ((w.certificates.filter (·.isListed w.now)).filterMap fun c => c.revokedAt.map (c.serialNumber, ·)).mergeSort
    fun a b => a.2 ≤ b.2

def insert (w : World) (cert : NewCertificate) (id : Uuid) : Except String Unit × World :=
  if w.certificates.any fun c => c.id == id || c.serialNumber == cert.serialNumber then (.error "duplicate key", w)
  else if w.hosts.any (·.id == cert.hostId) then
    (.ok (), { w with certificates := cert.row id w.now :: w.certificates })
  else (.error "foreign key", w)

def execute (w : World) : (o : Op) → Answer → Option (o.Resp × World)
  | .selectHost id, .ok => some (.ok (w.hosts.find? (·.id == id)), w)
  | .selectHost _, .failed reason => some (.error reason, w)
  | .selectCertificate id, .ok =>
    some (.ok ((w.certificates.find? (·.id == id)).map fun c => (c.hostId, c.commonName)), w)
  | .selectCertificate _, .failed reason => some (.error reason, w)
  | .signCert _ _, .signed signed => some (.ok signed, w)
  | .signCert _ _, .failed reason => some (.error reason, w)
  | .insertCertificate cert, .row id => some (insert w cert id)
  | .insertCertificate _, .failed reason => some (.error reason, w)
  | .revokeCertificate id, .ok =>
    let update := revoke (·.id == id) w.now
    some (.ok (update.affected w.certificates), { w with certificates := update.apply w.certificates })
  | .revokeCertificate _, .failed reason => some (.error reason, w)
  | .revokeActive hostId, .ok =>
    let update := revoke (fun c => c.hostId == some hostId && c.status == .active) w.now
    some (.ok (update.affected w.certificates), { w with certificates := update.apply w.certificates })
  | .revokeActive _, .failed reason => some (.error reason, w)
  | .selectRevoked, .ok => some (.ok (revokedRows w), w)
  | .selectRevoked, .failed reason => some (.error reason, w)
  | .signCrl _, .text text => some (.ok text, w)
  | .signCrl _, .failed reason => some (.error reason, w)
  -- the certificates of a host go with it
  | .deleteHost id, .ok =>
    some (.ok (w.hosts.countP (·.id == id)), { w with
      hosts := w.hosts.filter (·.id != id), certificates := w.certificates.filter (·.hostId != some id) })
  | .deleteHost _, .failed reason => some (.error reason, w)
  | _, _ => none

def change (w : World) : Change → World
  | .tick micros => { w with now := w.now + micros }
  | .host row => { w with hosts := row :: w.hosts.filter (·.id != row.id) }
  | .issued cert id => (insert w cert id).2

def body (caRootPem : String) : Fn → Proc Unit
  | .issueClientCert auth hostId hostname => do
    let _ ← issueClientCertRoute caRootPem auth hostId hostname
  | .renewCert auth certId => do
    let _ ← renewCertRoute caRootPem auth certId
  | .reissueHostCert auth hostId => do
    let _ ← reissueHostCert caRootPem auth hostId
  | .revokeCert auth certId => do
    let _ ← revokeCertRoute auth certId
  | .getCrl => do
    let _ ← getCrl
  | .removeHost auth id => do
    let _ ← removeHost auth id

def authority (caRootPem : String) : Service World Op Op.Resp Fn where
  body := body caRootPem
  Answer := Answer
  Change := Change
  execute := execute
  change := change
  isEntry _ := true
  restart := id
  perishes _ := true

end PatchManager.Ca

/-! ## Downloading the certificate of a client

`download_client_cert`.  The certificates of clients and servers are in one table, and the statement
leaves out the names that end as those of servers do.
-/

namespace PatchManager.Ca

/-- `LIKE '%-server'`. -/
def isServerName (commonName : String) : Bool := "-server".toList.isSuffixOf commonName.toList

/-- The rows of the statement, with the newest in front.  Those of one time come in the order of the
    table, which can be any. -/
def clientRows (rows : List Certificate) (hostId : Uuid) : List Certificate :=
  (rows.filter fun c => c.hostId == some hostId && c.status == .active && !isServerName c.commonName).mergeSort
    fun a b => decide (b.issuedAt ≤ a.issuedAt)

/-- `SELECT cert_pem .. LIMIT 1`. -/
def selectClientCert (rows : List Certificate) (hostId : Uuid) : Option String :=
  (clientRows rows hostId).head?.map (·.certPem)

/-- The answer, from what the statement gives. -/
def downloadClientCert (auth : AuthUser) (selected : Except String (Option String)) : Except ApiError String :=
  if !auth.role.canWrite then .error forbidden
  else match selected with
    | .error _ => .error .database
    | .ok none => .error (notFound "No active certificate found for this host")
    | .ok (some certPem) => .ok certPem

end PatchManager.Ca
