import Mathlib.Data.List.Sort
import PatchManager.Agent.Client
import PatchManager.Conc.Exchange
import PatchManager.Conc.Schedule
import PatchManager.Core.Crypto
import PatchManager.Db.Query
import PatchManager.Text.Str
import PatchManager.Web.HealthChecks
import PatchManager.Worker.PatchData

/-! # Running health checks

`health_check_poller.rs` runs every enabled check in each of its cycles; `test_health_check` of
`health_checks.rs` runs one when it is asked to, with code of its own.  Both store what they find, the poller
removes what is old, and `check_host_health_checks` reads the rest before a host is touched.  The
permits of the poller are left out, and its cycle does not wait for the checks before it prunes.
-/

namespace PatchManager.Checks

open PatchManager.Conc
open PatchManager.HealthChecks (CheckType HealthCheck UpdateHealthCheckRequest Encrypted)
open PatchManager.PatchData (asI32)

/-! ## What is asked -/

/-- What is read of the answer of the agent. -/
structure ServiceStatusData where
  name : String
  activeState : String
  subState : String
  enabledState : String
  healthy : Bool
deriving DecidableEq

structure HttpRequest where
  url : String
  ignoreCertErrors : Bool
  redirects : Nat
  basicAuth : Option (String × String) := none
deriving DecidableEq

inductive HttpErrorKind where
  | timeout
  | connect
  | other
deriving DecidableEq

/-- `reqwest::Error` with its text. -/
structure HttpError where
  kind : HttpErrorKind
  text : String

structure HttpResponse where
  status : Nat
  /-- the body, or why it cannot be read -/
  text : Except String String

def HttpResponse.isSuccess (r : HttpResponse) : Bool := 200 ≤ r.status && r.status < 300

/-! ## Tables -/

structure Check extends HealthCheck where
  id : Uuid
deriving DecidableEq

/-- `valid_service_check` of the table. -/
def validServiceCheck (c : HealthCheck) : Bool :=
  match c.checkType with
  | .service => c.serviceName.isSome && c.url.isNone
  | .http => c.url.isSome && c.expectedBody.isSome && c.serviceName.isNone

/-- A row of `host_health_check_results`. -/
structure CheckResult extends HostHealthCheckResult where
  detail : String
  latencyMs : Option Int

structure HealthCheckRow where
  id : Uuid
  hostId : Uuid
  name : String
  checkType : CheckType
  serviceName : Option String
  url : Option String
  expectedBody : Option String
  ignoreCertErrors : Option Bool
  basicAuthUser : Option String
  basicAuthPassEncrypted : Option (List UInt8)
  basicAuthPassNonce : Option (List UInt8)
  targetHostId : Option Uuid
  ipAddress : String
  agentPort : Int
deriving DecidableEq

/-! ## Operations -/

inductive Op where
  | loadAgentCerts
  | loadOrCreateKey
  | selectChecks
  | newClient (hostIp : String) (port : Nat)
  | serviceStatus (client : AgentClient) (serviceName : String)
  /-- whether the builder of `reqwest` succeeds -/
  | buildClient
  | get (request : HttpRequest)
  /-- milliseconds since the check began -/
  | elapsed
  | insertResult (checkId : Uuid) (healthy : Bool) (detail : String) (latencyMs : Option Int)
  | pruneOldResults
  | selectCheck (checkId hostId : Uuid)
  | selectConnection (hostId : Uuid)
  | buildAgentHttpClient
  | getAgent (url : String)
  | selectPassword (checkId : Uuid)
  | healthCheckCount (hostId : Uuid)
  | unhealthyCount (hostId : Uuid)

@[reducible] def Op.Resp : Op → Type
  | .loadAgentCerts | .loadOrCreateKey | .buildClient | .insertResult _ _ _ _ => Bool
  | .selectChecks => Option (List HealthCheckRow)
  | .newClient _ _ => Except String AgentClient
  | .serviceStatus _ _ => Except AgentClientError ServiceStatusData
  | .get _ | .getAgent _ => Except HttpError HttpResponse
  | .elapsed => Nat
  | .pruneOldResults => Option Nat
  | .selectCheck _ _ => Option (Option Check)
  | .selectConnection _ => Option (String × Int)
  | .buildAgentHttpClient => Except String Unit
  | .selectPassword _ => Option (List UInt8 × List UInt8)
  | .healthCheckCount _ | .unhealthyCount _ => Except String Nat

inductive Fn where
  | pollCycle
  | runCheck (check : HealthCheckRow)
  | testHealthCheck (auth : AuthUser) (hostId checkId : Uuid)
  | checkHostHealthChecks (hostId : Uuid)

abbrev Proc := Prog Op Op.Resp Fn

def perform (o : Op) : Proc o.Resp := Prog.perform o

/-- What comes from libraries. -/
structure CheckSettings where
  crypto : Crypto
  decryptError : List UInt8 → List UInt8 → String
  /-- a status code with its name -/
  statusText : Nat → String
  /-- `serde_json::from_str` -/
  fromStr : String → Option Json

variable (cfg : CheckSettings)

/-! ## The poller -/

/-- `healthy` and `detail`. -/
abbrev Verdict := Bool × String

def ServiceStatusData.detail (data : ServiceStatusData) : String :=
  if data.healthy then
    "Service '" ++ data.name ++ "' is " ++ data.activeState ++ "/" ++ data.subState ++ " (enabled: " ++
      data.enabledState ++ ")"
  else
    "Service '" ++ data.name ++ "' status: " ++ data.activeState ++ "/" ++ data.subState ++ " (unhealthy, enabled: " ++
      data.enabledState ++ ")"

def runServiceCheck (check : HealthCheckRow) : Proc Verdict :=
  match check.serviceName with
  | none => .ret (false, "Service check missing service_name")
  | some serviceName => do
    match ← perform (.newClient check.ipAddress (asU16 check.agentPort)) with
    | .error e => return (false, "Failed to build AgentClient: " ++ e)
    | .ok client =>
      match ← perform (.serviceStatus client serviceName) with
      | .ok data => return (data.healthy, data.detail)
      | .error .timeout => return (false, "Agent timed out querying service '" ++ serviceName ++ "'")
      | .error (.connect _) => return (false, "Agent connection refused for service '" ++ serviceName ++ "'")
      | .error (.apiError code message) => return (false, "Agent error [" ++ code ++ "]: " ++ message)
      | .error e => return (false, "Agent error querying service '" ++ serviceName ++ "': " ++ e.text)

def basicAuth (check : HealthCheckRow) : Except String (Option (String × String)) :=
  match check.basicAuthUser with
  | none => .ok none
  | some user =>
    match check.basicAuthPassEncrypted, check.basicAuthPassNonce with
    | some enc, some nonce =>
      match cfg.crypto.decrypt enc nonce with
      | some password => .ok (some (user, password))
      | none => .error ("Failed to decrypt basic auth password: " ++ cfg.decryptError enc nonce)
    | _, _ => .error "HTTP check has basic_auth_user but no encrypted password"

/-- What `reqwest::Client::new()` does is done where the builder fails. -/
def pollRequest (url : String) (ignoreCertErrors built : Bool) (auth : Option (String × String)) : HttpRequest where
  url := url
  ignoreCertErrors := built && ignoreCertErrors
  redirects := if built then 5 else 10
  basicAuth := auth

def pollError (url : String) (e : HttpError) : String :=
  match e.kind with
  | .timeout => "HTTP check timed out: " ++ url
  | .connect => "HTTP check connection failed: " ++ url
  | .other => "HTTP check request error: " ++ e.text

def pollVerdict (url : String) (expectedBody : Option String) (r : HttpResponse) : Verdict :=
  if !r.isSuccess then (false, "HTTP check returned status " ++ toString r.status ++ " for " ++ url)
  else
    match r.text with
    | .error e => (false, "HTTP check failed to read response body: " ++ e)
    | .ok body =>
      if expectedBody.any fun expected => !Str.contains expected.toList body.toList then
        (false, "HTTP check body mismatch for " ++ url ++ ": expected substring not found")
      else (true, "HTTP check OK for " ++ url ++ " (status " ++ toString r.status ++ ")")

def runHttpCheck (check : HealthCheckRow) : Proc Verdict :=
  match check.url with
  | none => .ret (false, "HTTP check missing URL")
  | some url => do
    let built ← perform .buildClient
    match basicAuth cfg check with
    | .error e => return (false, e)
    | .ok auth =>
      match ← perform (.get (pollRequest url (check.ignoreCertErrors.getD true) built auth)) with
      | .error e => return (false, pollError url e)
      | .ok response => return pollVerdict url check.expectedBody response

/-- The column has no other types. -/
def runCheck (check : HealthCheckRow) : Proc Bool := do
  let (healthy, detail) ← (match check.checkType with
    | .service => runServiceCheck check
    | .http => runHttpCheck cfg check)
  let elapsed ← perform .elapsed
  let _ ← perform (.insertResult check.id healthy detail (some (asI32 elapsed)))
  return healthy

def spawnAll : List HealthCheckRow → Proc Unit
  | [] => .ret ()
  | check :: rest => .spawn (.runCheck check) (spawnAll rest)

/-- One turn of `run_health_check_poller`. -/
def pollCycle : Proc Unit := do
  if ← perform .loadAgentCerts then
    if ← perform .loadOrCreateKey then
      match ← perform .selectChecks with
      | none => return
      | some checks =>
        spawnAll checks
        let _ ← perform .pruneOldResults
    else return
  else return

/-! ## The route -/

/-- `CheckResult` of `health_checks.rs`. -/
structure TestResult where
  healthy : Bool
  detail : String
  latencyMs : Option Int := none

def forbidden : ApiError := ⟨403, "forbidden", "Write access required"⟩

def agentUrl (ip : String) (port : Int) (serviceName : String) : String :=
  "https://" ++ ip ++ ":" ++ toString port ++ "/api/v1/system/services/" ++ serviceName

/-- The field `healthy` of the data, with the two states. -/
def serviceVerdict (body : String) : Option Verdict := do
  let data ← (← cfg.fromStr body).get? "data"
  match ← data.get? "healthy" with
  | .bool healthy =>
    let text := fun key missing => ((data.get? key).bind Json.asStr?).getD missing
    return (healthy, text "active_state" "unknown" ++ " (" ++ text "sub_state" "" ++ ")")
  | _ => none

def testServiceVerdict (r : HttpResponse) : Verdict :=
  if r.isSuccess then
    match r.text with
    | .ok body => (serviceVerdict cfg body).getD (false, "Failed to parse agent response")
    | .error e => (false, "Failed to read response: " ++ e)
  else (false, "Agent returned HTTP " ++ cfg.statusText r.status)

def testServiceCheck (check : Check) : Proc TestResult :=
  match check.serviceName with
  | none => .ret { healthy := false, detail := "No service_name configured" }
  | some serviceName => do
    match ← perform (.selectConnection (check.targetHostId.getD check.hostId)) with
    | none => return { healthy := false, detail := "Host not found" }
    | some (ip, agentPort) =>
      match ← perform .buildAgentHttpClient with
      | .error e => return { healthy := false, detail := "Failed to build HTTP client: " ++ e }
      | .ok () =>
        match ← perform (.getAgent (agentUrl ip agentPort serviceName)) with
        | .ok response =>
          let latency ← perform .elapsed
          let verdict := testServiceVerdict cfg response
          return { healthy := verdict.1, detail := verdict.2, latencyMs := some (asI32 latency) }
        | .error e =>
          let latency ← perform .elapsed
          let detail := match e.kind with
            | .timeout => "Timeout (10s)"
            | _ => "Connection failed: " ++ e.text
          return { healthy := false, detail, latencyMs := some (asI32 latency) }

/-- Without a password that can be read the request goes without any. -/
def testAuth (check : Check) : Proc (Option (String × String)) :=
  match check.basicAuthUser with
  | none => .ret none
  | some user => do
    match ← perform (.selectPassword check.id) with
    | none => return none
    | some (enc, nonce) =>
      if ← perform .loadOrCreateKey then return (cfg.crypto.decrypt enc nonce).map fun password => (user, password)
      else return none

def testRequest (url : String) (ignoreCertErrors built : Bool) (auth : Option (String × String)) : HttpRequest where
  url := url
  ignoreCertErrors := built && ignoreCertErrors
  redirects := 10
  basicAuth := auth

def testVerdict (expected : String) (r : HttpResponse) : Verdict :=
  if !r.isSuccess then (false, "HTTP " ++ cfg.statusText r.status)
  else
    match r.text with
    | .ok body =>
      if Str.contains expected.toList body.toList then (true, "HTTP " ++ cfg.statusText r.status ++ " — body matched")
      else (false, "HTTP " ++ cfg.statusText r.status ++ " — body did not contain expected substring")
    | .error e => (false, "Failed to read response: " ++ e)

def testHttpCheck (check : Check) : Proc TestResult :=
  match check.url, check.expectedBody with
  | none, _ => .ret { healthy := false, detail := "No URL configured" }
  | some _, none => .ret { healthy := false, detail := "No expected_body configured" }
  | some url, some expected => do
    let built ← perform .buildClient
    let auth ← testAuth cfg check
    match ← perform (.get (testRequest url (check.ignoreCertErrors.getD true) built auth)) with
    | .ok response =>
      let latency ← perform .elapsed
      let verdict := testVerdict cfg expected response
      return { healthy := verdict.1, detail := verdict.2, latencyMs := some (asI32 latency) }
    | .error e =>
      let latency ← perform .elapsed
      let detail := match e.kind with
        | .timeout => "Timeout (10s)"
        | _ => "Request failed: " ++ e.text
      return { healthy := false, detail, latencyMs := some (asI32 latency) }

/-- `run_health_check` of the route. -/
def runHealthCheck (check : Check) : Proc TestResult :=
  match check.checkType with
  | .service => testServiceCheck cfg check
  | .http => testHttpCheck cfg check

def testHealthCheck (auth : AuthUser) (hostId checkId : Uuid) : Proc (Except ApiError TestResult) :=
  if !auth.role.canWrite then .ret (.error forbidden)
  else do
    match ← perform (.selectCheck checkId hostId) with
    | none => return .error .database
    | some none => return .error HealthChecks.notFound
    | some (some check) =>
      let result ← runHealthCheck cfg check
      let _ ← perform (.insertResult checkId result.healthy result.detail result.latencyMs)
      return .ok result

/-! ## The gate -/

def checkHostHealthChecks (hostId : Uuid) : Proc (Except String Bool) := do
  match ← perform (.healthCheckCount hostId) with
  | .error e => return .error e
  | .ok checkCount =>
    if checkCount = 0 then return .ok true
    else
      match ← perform (.unhealthyCount hostId) with
      | .error e => return .error e
      | .ok unhealthyCount => return .ok (unhealthyCount == 0)

def body : Fn → Proc Unit
  | .pollCycle => pollCycle
  | .runCheck check => do let _ ← runCheck cfg check
  | .testHealthCheck auth hostId checkId => do let _ ← testHealthCheck cfg auth hostId checkId
  | .checkHostHealthChecks hostId => do let _ ← checkHostHealthChecks hostId

/-! ## The database -/

structure World where
  hosts : List PatchData.HostRow
  checks : List Check
  results : List CheckResult := []
  now : Time

/-- What the executor sees of the tables. -/
def World.db (w : World) : Db where
  now := w.now
  hostHealthChecks := w.checks.map fun c => { id := c.id, hostId := c.hostId, enabled := c.enabled }
  hostHealthCheckResults := w.results.map CheckResult.toHostHealthCheckResult

def fourDays : Int := 4 * microsPerDay

/-- The row of the query for a check and the host whose agent is asked. -/
def Check.row (c : Check) (host : PatchData.HostRow) : HealthCheckRow where
  id := c.id
  hostId := c.hostId
  name := c.name
  checkType := c.checkType
  serviceName := c.serviceName
  url := c.url
  expectedBody := c.expectedBody
  ignoreCertErrors := c.ignoreCertErrors
  basicAuthUser := c.basicAuthUser
  basicAuthPassEncrypted := c.basicAuthPassEncrypted
  basicAuthPassNonce := c.basicAuthPassNonce
  targetHostId := c.targetHostId
  ipAddress := host.ipAddress
  agentPort := host.agentPort

/-- The check with its host and, where it has one, its target. -/
def World.row? (w : World) (c : Check) : Option HealthCheckRow := do
  let own ← Sql.lookup PatchData.HostRow.id c.hostId w.hosts
  let target := c.targetHostId.bind fun id => Sql.lookup PatchData.HostRow.id id w.hosts
  return c.row (target.getD own)

def World.enabledRows (w : World) : List HealthCheckRow :=
  ((w.checks.filter (·.enabled)).filterMap w.row?).insertionSort fun a b => a.id ≤ b.id

def World.check (w : World) (checkId hostId : Uuid) : Option Check :=
  w.checks.find? fun c => c.id == checkId && c.hostId == hostId

inductive Answer where
  | ok
  | fails
  | text (reason : String)
  | service (r : Except AgentClientError ServiceStatusData)
  | http (r : Except HttpError HttpResponse)
  | millis (n : Nat)

/-- A column that may not be read as `NULL` makes a query fail that reads it. -/
def execute (w : World) : (o : Op) → Answer → Option (o.Resp × World)
  | .loadAgentCerts, .fails | .loadOrCreateKey, .fails | .buildClient, .fails | .insertResult _ _ _ _, .fails =>
    some (false, w)
  | .loadAgentCerts, _ | .loadOrCreateKey, _ | .buildClient, _ => some (true, w)
  | .selectChecks, .fails => some (none, w)
  | .selectChecks, _ => some (some w.enabledRows, w)
  | .newClient _ _, .text reason => some (.error reason, w)
  | .newClient hostIp port, _ => some (.ok (AgentClient.new hostIp port), w)
  | .serviceStatus _ _, .service r => some (r, w)
  | .get _, .http r | .getAgent _, .http r => some (r, w)
  | .elapsed, .millis n => some (n, w)
  -- the foreign key
  | .insertResult checkId healthy detail latencyMs, _ =>
    if w.checks.any (·.id == checkId) then
      some (true, { w with results := w.results ++ [{ checkId, healthy, checkedAt := w.now, detail, latencyMs }] })
    else none
  | .pruneOldResults, .fails => some (none, w)
  | .pruneOldResults, _ =>
    let old := fun r : CheckResult => decide (r.checkedAt < w.now - fourDays)
    some (some (w.results.countP old), { w with results := w.results.filter fun r => !old r })
  | .selectCheck _ _, .fails => some (none, w)
  | .selectCheck checkId hostId, _ =>
    match w.check checkId hostId with
    | none => some (some none, w)
    | some c => some (if c.ignoreCertErrors.isSome then some (some c) else none, w)
  | .selectConnection _, .fails => some (none, w)
  | .selectConnection hostId, _ =>
    some ((Sql.lookup PatchData.HostRow.id hostId w.hosts).map fun host => (host.ipAddress, host.agentPort), w)
  | .buildAgentHttpClient, .text reason => some (.error reason, w)
  | .buildAgentHttpClient, _ => some (.ok (), w)
  | .selectPassword _, .fails => some (none, w)
  | .selectPassword checkId, _ =>
    some ((w.checks.find? (·.id == checkId)).bind fun c => do
      return (← c.basicAuthPassEncrypted, ← c.basicAuthPassNonce), w)
  | .healthCheckCount _, .text reason | .unhealthyCount _, .text reason => some (.error reason, w)
  | .healthCheckCount hostId, _ => (Query.eval w.db (.healthCheckCount hostId)).map fun n => (.ok n, w)
  | .unhealthyCount hostId, _ => (Query.eval w.db (.unhealthyCount hostId)).map fun n => (.ok n, w)
  | _, _ => none

/-- What other parts of the program do. -/
inductive Change where
  | tick (micros : Nat)
  | addHost (host : PatchData.HostRow)
  | editHost (host : PatchData.HostRow)
  | removeHost (id : Uuid)
  | addCheck (check : Check)
  | updateCheck (checkId hostId : Uuid) (req : UpdateHealthCheckRequest) (pass : Option Encrypted)
  | removeCheck (checkId hostId : Uuid)

/-- The results of a check go with it. -/
def World.removeChecks (w : World) (gone : Check → Bool) : World :=
  { w with
    checks := w.checks.filter fun c => !gone c
    results := w.results.filter fun r => !w.checks.any fun c => c.id == r.checkId && gone c }

/-- The row after the `UPDATE`, which fails where the constraint does not hold. -/
def Check.updated (c : Check) (req : UpdateHealthCheckRequest) (pass : Option Encrypted) (now : Time) : Check :=
  let updated := c.toHealthCheck.update req pass now
  if validServiceCheck updated then { updated with id := c.id } else c

def change (w : World) : Change → World
  | .tick micros => { w with now := w.now + micros }
  | .addHost host => if w.hosts.any (·.id == host.id) then w else { w with hosts := w.hosts ++ [host] }
  | .editHost host => { w with hosts := w.hosts.map fun h => if h.id = host.id then host else h }
  | .removeHost id =>
    let w' := w.removeChecks (·.hostId == id)
    { w' with
      hosts := w.hosts.filter (·.id ≠ id)
      checks := w'.checks.map fun c => if c.targetHostId = some id then { c with targetHostId := none } else c }
  | .addCheck check =>
    if validServiceCheck check.toHealthCheck && w.hosts.any (·.id == check.hostId) &&
        !w.checks.any (·.id == check.id) then
      { w with checks := w.checks ++ [check] }
    else w
  | .updateCheck checkId hostId req pass =>
    { w with
      checks := w.checks.map fun c => if c.id = checkId ∧ c.hostId = hostId then c.updated req pass w.now else c }
  | .removeCheck checkId hostId => w.removeChecks fun c => c.id == checkId && c.hostId == hostId

def isEntry : Fn → Bool
  | .runCheck _ => false
  | _ => true

def checkers : Service World Op Op.Resp Fn where
  body := body cfg
  Answer := Answer
  Change := Change
  execute := execute
  change := change
  isEntry := isEntry
  restart w := w
  perishes _ := true

end PatchManager.Checks
