import PatchManager.Audit.Action
import PatchManager.Conc.Serve
import PatchManager.Core.Crypto
import PatchManager.Core.Models
import PatchManager.Web.Headers

/-! # Changing health checks

`update_health_check` of `health_checks.rs` with the table `host_health_checks`, by primary key.
Of the hosts only their health is kept, since a check may name another host as its target.
-/

namespace PatchManager.HealthChecks

open PatchManager.Conc

inductive CheckType where
  | service
  | http
deriving DecidableEq

/-- A row of `host_health_checks`. -/
structure HealthCheck where
  hostId : Uuid
  name : String
  checkType : CheckType
  enabled : Bool
  serviceName : Option String
  url : Option String
  expectedBody : Option String
  ignoreCertErrors : Option Bool
  basicAuthUser : Option String
  basicAuthPassEncrypted : Option (List UInt8)
  basicAuthPassNonce : Option (List UInt8)
  targetHostId : Option Uuid
  createdAt : Time
  updatedAt : Time
deriving DecidableEq

structure UpdateHealthCheckRequest where
  name : Option String := none
  enabled : Option Bool := none
  serviceName : Option String := none
  url : Option String := none
  expectedBody : Option String := none
  ignoreCertErrors : Option Bool := none
  basicAuthUser : Option String := none
  basicAuthPass : Option String := none
  targetHostId : Option Uuid := none
deriving DecidableEq

/-- What `encrypt` returns. -/
structure Encrypted where
  ciphertext : List UInt8
  nonce : List UInt8

/-! ## Operations -/

inductive Op where
  | checkExists (checkId hostId : Uuid)
  | targetExists (id : Uuid)
  | targetHealthy (id : Uuid)
  | loadOrCreateKey
  | encrypt (pass : String)
  /-- the `UPDATE`, with the password as it has been encrypted -/
  | updateCheck (checkId hostId : Uuid) (req : UpdateHealthCheckRequest) (pass : Option Encrypted)
  | logEvent (action : AuditAction) (hostId checkId : Uuid) (target : Option Uuid)

@[reducible] def Op.Resp : Op → Type
  | .checkExists _ _ | .targetExists _ | .targetHealthy _ => Except String Bool
  | .loadOrCreateKey => Except String Unit
  | .encrypt _ => Except String Encrypted
  -- the number of rows
  | .updateCheck _ _ _ _ => Except String Nat
  | .logEvent _ _ _ _ => Unit

structure World where
  checks : Uuid → Option HealthCheck
  hosts : Uuid → Option HostHealthStatus
  now : Time

/-- The row under the assignments of the `UPDATE`, each a `COALESCE` with the old value. -/
def HealthCheck.update (row : HealthCheck) (req : UpdateHealthCheckRequest) (pass : Option Encrypted) (now : Time) :
    HealthCheck :=
  { row with
    name := req.name.getD row.name
    enabled := req.enabled.getD row.enabled
    serviceName := req.serviceName.or row.serviceName
    url := req.url.or row.url
    expectedBody := req.expectedBody.or row.expectedBody
    ignoreCertErrors := req.ignoreCertErrors.or row.ignoreCertErrors
    basicAuthUser := req.basicAuthUser.or row.basicAuthUser
    basicAuthPassEncrypted := (pass.map (·.ciphertext)).or row.basicAuthPassEncrypted
    basicAuthPassNonce := (pass.map (·.nonce)).or row.basicAuthPassNonce
    targetHostId := req.targetHostId.or row.targetHostId
    updatedAt := now }

/-- The row that the statement selects. -/
def World.find (w : World) (checkId hostId : Uuid) : Option HealthCheck :=
  (w.checks checkId).filter (·.hostId = hostId)

/-- What the surroundings say to an operation. -/
inductive Answer where
  | ok
  | failed (reason : String)
  | encrypted (secret : Encrypted)

/-- A statement that fails has no effect; one that asks for the row of a host fails without it. -/
def execute (crypto : Crypto) (w : World) : (o : Op) → Answer → Option (o.Resp × World)
  | .checkExists checkId hostId, .ok => some (.ok (w.find checkId hostId).isSome, w)
  | .targetExists id, .ok => some (.ok (w.hosts id).isSome, w)
  | .targetHealthy id, .ok => (w.hosts id).map fun health => (.ok (health = .healthy), w)
  | .loadOrCreateKey, .ok => some (.ok (), w)
  | .encrypt pass, .encrypted secret =>
    if crypto.isEncryption pass secret.ciphertext secret.nonce then some (.ok secret, w) else none
  | .updateCheck checkId hostId req pass, .ok =>
    match w.find checkId hostId with
    | some row =>
      some (.ok 1, { w with checks := Function.update w.checks checkId (some (row.update req pass w.now)) })
    | none => some (.ok 0, w)
  | .logEvent _ _ _ _, .ok => some ((), w)
  | .checkExists _ _, .failed reason | .targetExists _, .failed reason | .targetHealthy _, .failed reason
  | .loadOrCreateKey, .failed reason | .encrypt _, .failed reason | .updateCheck _ _ _ _, .failed reason =>
    some (.error reason, w)
  | _, _ => none

/-! ## Programs -/

inductive Fn where
  | updateHealthCheck (auth : AuthUser) (hostId checkId : Uuid) (req : UpdateHealthCheckRequest)

abbrev Proc := Prog Op Op.Resp Fn

def perform (o : Op) : Proc o.Resp := Prog.perform o

/-- `map_err`. -/
def orError {α : Type} (err : ApiError) (p : Proc (Except String α)) : Proc (Except ApiError α) :=
  p.bind fun r => .ret (r.mapError fun _ => err)

def invalidTarget (message : String) : ApiError := ⟨400, "invalid_target_host", message⟩

def notFound : ApiError := ⟨404, "not_found", "Health check not found"⟩

def noFields : ApiError := ⟨400, "validation_error", "No fields to update"⟩

/-- The host has to be there and to be healthy. -/
def checkTarget (targetHostId : Option Uuid) : Proc (Except ApiError Unit) :=
  match targetHostId with
  | none => .ret (.ok ())
  | some tid =>
    (orError .database (perform (.targetExists tid))).attempt fun found =>
      if !found then .ret (.error (invalidTarget "Target host does not exist"))
      else (orError .database (perform (.targetHealthy tid))).attempt fun healthy =>
        if !healthy then .ret (.error (invalidTarget "Target host is not currently healthy"))
        else .ret (.ok ())

def encryptPass (basicAuthPass : Option String) : Proc (Except ApiError (Option Encrypted)) :=
  match basicAuthPass with
  | none => .ret (.ok none)
  | some pass =>
    (orError ⟨500, "internal_error", "Encryption key error"⟩ (perform .loadOrCreateKey)).attempt fun _ =>
      (orError ⟨500, "internal_error", "Encryption error"⟩ (perform (.encrypt pass))).attempt fun secret =>
        .ret (.ok (some secret))

/-- The columns of `set_clauses`.  The clauses themselves are not used; the list is asked for being
    empty. -/
def setClauses (req : UpdateHealthCheckRequest) (pass : Option Encrypted) : List String :=
  (if req.name.isSome then ["name"] else []) ++
  (if req.enabled.isSome then ["enabled"] else []) ++
  (if req.serviceName.isSome then ["service_name"] else []) ++
  (if req.url.isSome then ["url"] else []) ++
  (if req.expectedBody.isSome then ["expected_body"] else []) ++
  (if req.ignoreCertErrors.isSome then ["ignore_cert_errors"] else []) ++
  (if req.basicAuthUser.isSome then ["basic_auth_user"] else []) ++
  (if pass.isSome then ["basic_auth_pass_encrypted", "basic_auth_pass_nonce"] else [])

def updateHealthCheck (auth : AuthUser) (hostId checkId : Uuid) (req : UpdateHealthCheckRequest) :
    Proc (Except ApiError Unit) :=
  if !auth.role.canWrite then .ret (.error ⟨403, "forbidden", "Write access required"⟩)
  else (orError .database (perform (.checkExists checkId hostId))).attempt fun found =>
    if !found then .ret (.error notFound)
    else (checkTarget req.targetHostId).attempt fun _ =>
      (encryptPass req.basicAuthPass).attempt fun pass =>
        if setClauses req pass = [] then .ret (.error noFields)
        else (orError .database (perform (.updateCheck checkId hostId req pass))).attempt fun affected =>
          if affected = 0 then .ret (.error notFound)
          else do
            perform (.logEvent .healthCheckUpdated hostId checkId req.targetHostId)
            return .ok ()

def healthChecks (crypto : Crypto) : Service World Op Op.Resp Fn where
  body
    | .updateHealthCheck auth hostId checkId req => do
      let _ ← updateHealthCheck auth hostId checkId req
  Answer := Answer
  Change := World
  execute := execute crypto
  change _ w := w
  isEntry _ := true
  restart w := w
  perishes _ := true

end PatchManager.HealthChecks
