import Mathlib.Data.List.Perm.Basic
import PatchManager.Agent.Client
import PatchManager.Conc.Exchange
import PatchManager.Conc.Schedule
import PatchManager.Core.Models
import PatchManager.Reports.Csv
import PatchManager.Sql.Paging
import PatchManager.Sql.Table

/-! # What hosts lack

`patch_poller.rs` and `refresh_listener.rs` ask the agents for what can be updated and keep the last
answer of each; `vulnerability_csv` of `pm-reports` reads it.  The permits of the poller, which bound how many tasks ask
at once, are left out.
-/

namespace PatchManager.PatchData

open PatchManager.Conc
open PatchManager.Sql (SortOrder)

/-! ## Answers of the agent -/

structure Package where
  name : String
  version : String
  status : String
  upgradable : Bool
  latestVersion : Option String
  description : String
  cveIds : List String
deriving DecidableEq

structure PackagesData where
  packages : List Package
deriving DecidableEq

structure Patch where
  name : String
  currentVersion : String
  availableVersion : String
  severity : String
  description : String
  cveIds : List String
  requiresReboot : Bool
deriving DecidableEq

structure PatchesData where
  patches : List Patch
  /-- an `u64` -/
  total : Nat
deriving DecidableEq

def Json.ofStrings (l : List String) : Json := .arr (l.map .str)

def Package.toJson (p : Package) : Json :=
  .obj [("name", .str p.name), ("version", .str p.version), ("status", .str p.status),
    ("upgradable", .bool p.upgradable), ("latest_version", p.latestVersion.elim .null .str),
    ("description", .str p.description), ("cve_ids", Json.ofStrings p.cveIds)]

def Patch.toJson (p : Patch) : Json :=
  .obj [("name", .str p.name), ("current_version", .str p.currentVersion),
    ("available_version", .str p.availableVersion), ("severity", .str p.severity),
    ("description", .str p.description), ("cve_ids", Json.ofStrings p.cveIds),
    ("requires_reboot", .bool p.requiresReboot)]

/-- `as i32`. -/
def asI32 (n : Nat) : Int := (n : Int).bmod (2 ^ 32)

def PatchesData.cveCount (d : PatchesData) : Int := asI32 (d.patches.countP fun p => !p.cveIds.isEmpty)

/-! ## Tables -/

/-- What the tasks select of a row of `hosts`. -/
structure HostRow where
  id : Uuid
  ipAddress : String
  agentPort : Int
deriving DecidableEq

structure Host extends HostRow where
  displayName : String
  fqdn : String
  healthStatus : HostHealthStatus := .pending
  lastPatchAt : Option Time := none

/-- A row of `host_patch_data`. -/
structure PatchRow where
  hostId : Uuid
  polledAt : Time
  availablePatches : Json
  installedPackages : Json
  patchCount : Int
  cveCount : Int

/-- A row of the query of `vulnerability_csv`. -/
structure VulnerabilityRow where
  hostId : Uuid
  displayName : String
  fqdn : String
  cveId : Option String
  packageName : Option String
  severity : Option String
  availableVersion : Option String
  lastSeenAt : Time
deriving DecidableEq

/-! ## Operations -/

inductive Op where
  | loadAgentCerts
  | selectHosts
  | selectHost (id : Uuid)
  | newClient (hostIp : String) (port : Nat)
  | health (client : AgentClient)
  | patches (client : AgentClient)
  | packagesUpgradable (client : AgentClient)
  | insertHealthData (id : Uuid) (status : HostHealthStatus) (payload : Json)
  | updateHealthStatus (id : Uuid) (status : HostHealthStatus)
  | upsertPatchData (id : Uuid) (availablePatches installedPackages : Json) (patchCount cveCount : Int)
  | updateLastPatch (id : Uuid)
  | selectVulnerabilities (params : ReportParams)

@[reducible] def Op.Resp : Op → Type
  | .selectHosts => Option (List HostRow)
  | .selectHost _ => Option HostRow
  | .newClient _ _ => Option AgentClient
  | .health _ => Except AgentClientError Json
  | .patches _ => Except AgentClientError PatchesData
  | .packagesUpgradable _ => Except AgentClientError PackagesData
  | .selectVulnerabilities _ => Option (List VulnerabilityRow)
  | .loadAgentCerts | .insertHealthData _ _ _ | .updateHealthStatus _ _ | .upsertPatchData _ _ _ _ _
  | .updateLastPatch _ => Bool

inductive Fn where
  | pollCycle
  | pollHostPatches (host : HostRow)
  | notified (hostId : Uuid)
  | refreshHost (host : HostRow)
  | vulnerabilityCsv (params : ReportParams)

abbrev Proc := Prog Op Op.Resp Fn

def perform (o : Op) : Proc o.Resp := Prog.perform o

/-! ## Collecting -/

/-- What both tasks write of the two answers. -/
def storePatchData (id : Uuid) (patches : PatchesData) (packages : PackagesData) : Proc Bool :=
  perform (.upsertPatchData id (.arr (patches.patches.map Patch.toJson))
    (.arr (packages.packages.map Package.toJson)) (asI32 patches.total) patches.cveCount)

/-- `tokio::join!` asks both at once and waits for both. -/
def fetchBoth (client : AgentClient) :
    Proc (Except AgentClientError PatchesData × Except AgentClientError PackagesData) := do
  let patches ← perform (.patches client)
  let packages ← perform (.packagesUpgradable client)
  return (patches, packages)

def pollHostPatches (host : HostRow) : Proc Bool := do
  match ← perform (.newClient host.ipAddress (asU16 host.agentPort)) with
  | none => return false
  | some client =>
    match ← fetchBoth client with
    | (.ok patches, .ok packages) =>
      if ← storePatchData host.id patches packages then
        let _ ← perform (.updateLastPatch host.id)
        return true
      else return false
    | _ => return false

def spawnAll : List HostRow → Proc Unit
  | [] => .ret ()
  | host :: rest => .spawn (.pollHostPatches host) (spawnAll rest)

/-- One turn of `run_patch_poller`, up to the wait for the tasks it starts. -/
def pollCycle : Proc Unit := do
  if ← perform .loadAgentCerts then
    match ← perform .selectHosts with
    | none => return
    | some hosts => spawnAll hosts
  else return

def persistHealth (id : Uuid) (status : HostHealthStatus) (payload : Json) : Proc Unit := do
  let _ ← perform (.insertHealthData id status payload)
  let _ ← perform (.updateHealthStatus id status)

/-- The second half of `refresh_host`. -/
def refreshPatchData (host : HostRow) (client : AgentClient) : Proc Unit := do
  match ← fetchBoth client with
  | (.ok patches, .ok packages) =>
    if ← storePatchData host.id patches packages then
      let _ ← perform (.updateLastPatch host.id)
    else return
  | _ => return

def refreshHost (host : HostRow) : Proc Unit := do
  match ← perform (.newClient host.ipAddress (asU16 host.agentPort)) with
  | none => persistHealth host.id .unreachable (.obj [])
  | some client =>
    let (status, payload) ← (do
      match ← perform (.health client) with
      | .ok data => return (.healthy, data)
      | .error .timeout => return (.unreachable, .obj [])
      | .error (.connect _) => return (.unreachable, .obj [])
      | .error _ => return (.degraded, .obj []) : Proc (HostHealthStatus × Json))
    persistHealth host.id status payload
    refreshPatchData host client

/-- What `listen_loop` does for a notification with a host's id. -/
def notified (hostId : Uuid) : Proc Unit := do
  match ← perform (.selectHost hostId) with
  | none => return
  | some host => if ← perform .loadAgentCerts then .spawn (.refreshHost host) (.ret ()) else return

/-! ## The report -/

def vulnerabilityHeader : List String :=
  ["host_id", "display_name", "fqdn", "cve_id", "package_name", "severity", "available_version", "last_seen_at"]

def VulnerabilityRow.record (row : VulnerabilityRow) : List String :=
  [row.hostId.text, row.displayName, row.fqdn, row.cveId.getD "", row.packageName.getD "", row.severity.getD "",
    row.availableVersion.getD "", row.lastSeenAt.toRfc3339]

/-- The records that are given to `csv::Writer`; of a query that fails only the header is left. -/
def vulnerabilityCsv (params : ReportParams) : Proc (List (List String)) := do
  match ← perform (.selectVulnerabilities params) with
  | some rows => return vulnerabilityHeader :: rows.map VulnerabilityRow.record
  | none => return [vulnerabilityHeader]

def body : Fn → Proc Unit
  | .pollCycle => pollCycle
  | .pollHostPatches host => do let _ ← pollHostPatches host
  | .notified hostId => notified hostId
  | .refreshHost host => refreshHost host
  | .vulnerabilityCsv params => do let _ ← vulnerabilityCsv params

/-! ## The database -/

/-- What is left open of the database. -/
structure Postgres where
  textOrder : SortOrder String
  /-- the text of a value that is not one itself -/
  jsonText : Json → String

structure World where
  hosts : List Host
  patchData : List PatchRow := []
  now : Time

section query

variable (pg : Postgres)

/-- `->>` and `jsonb_array_elements_text`: no text for `null`. -/
def Postgres.text : Json → Option String
  | .null => none
  | .str s => some s
  | v => some (pg.jsonText v)

/-- `v->>key`. -/
def Postgres.textAt (v : Json) (key : String) : Option String := (v.get? key).bind pg.text

/-- `jsonb_array_elements_text(COALESCE(patch->'cve_ids', '[]'::jsonb))`, which fails on what is no array. -/
def Postgres.cveIds (patch : Json) : Option (List (Option String)) :=
  ((patch.get? "cve_ids").getD (.arr [])).asArr?.map fun ids => ids.map pg.text

/-- `$1::timestamptz IS NULL OR pd.polled_at >= $1`, and the other limit. -/
def covers (params : ReportParams) (r : PatchRow) : Bool :=
  params.from_.all (· ≤ r.polledAt) && params.to_.all (r.polledAt ≤ ·)

/-- The rows for one patch of a host. -/
def Postgres.patchRows (h : Host) (r : PatchRow) (patch : Json) : Option (List VulnerabilityRow) := do
  let cveIds ← pg.cveIds patch
  return cveIds.map fun cveId =>
    { hostId := h.id, displayName := h.displayName, fqdn := h.fqdn, cveId, packageName := pg.textAt patch "name"
      severity := pg.textAt patch "severity", availableVersion := pg.textAt patch "available_version"
      lastSeenAt := r.polledAt }

def joined (w : World) (params : ReportParams) : List (Host × PatchRow) :=
  w.hosts.flatMap fun h => (w.patchData.filter fun r => r.hostId == h.id && covers params r).map fun r => (h, r)

/-- The rows of the query, in no order. -/
def Postgres.vulnerabilities (w : World) (params : ReportParams) : Option (List VulnerabilityRow) := do
  let rows ← (joined w params).mapM fun (h, r) => do
    let patches ← r.availablePatches.asArr?
    return (← patches.mapM (pg.patchRows h r)).flatten
  return rows.flatten

def severityRank : Option String → Nat
  | some "critical" => 1
  | some "high" => 2
  | some "medium" => 3
  | _ => 4

def natOrder : SortOrder Nat where
  le a b := a ≤ b
  total a b := by simpa using Nat.le_total a b
  trans a b c := by simpa using Nat.le_trans

/-- `ORDER BY CASE patch->>'severity' .. END, h.display_name`. -/
def Postgres.reportOrder : SortOrder VulnerabilityRow :=
  (natOrder.by fun row => severityRank row.severity).andThen (pg.textOrder.by (·.displayName))

end query

/-! ## The service -/

inductive Answer where
  | ok
  | fails
  | json (r : Except AgentClientError Json)
  | patches (r : Except AgentClientError PatchesData)
  | packages (r : Except AgentClientError PackagesData)
  | rows (l : List VulnerabilityRow)

/-- What other parts of the program do. -/
inductive Change where
  | tick (micros : Nat)
  | addHost (host : Host)
  | editHost (host : Host)
  | removeHost (id : Uuid)

/-- `ON CONFLICT (host_id) DO UPDATE`. -/
def World.upsert (w : World) (row : PatchRow) : World :=
  { w with patchData := Sql.upsertRow PatchRow.hostId w.patchData row }

def execute (pg : Postgres) (w : World) : (o : Op) → Answer → Option (o.Resp × World)
  | .loadAgentCerts, .fails | .insertHealthData _ _ _, .fails | .updateHealthStatus _ _, .fails
  | .upsertPatchData _ _ _ _ _, .fails | .updateLastPatch _, .fails => some (false, w)
  | .loadAgentCerts, _ => some (true, w)
  | .selectHosts, .fails => some (none, w)
  | .selectHosts, _ => some (some (w.hosts.map Host.toHostRow), w)
  | .selectHost _, .fails => some (none, w)
  | .selectHost id, _ => some ((Sql.lookup (·.id) id w.hosts).map Host.toHostRow, w)
  | .newClient _ _, .fails => some (none, w)
  | .newClient hostIp port, _ => some (some (AgentClient.new hostIp port), w)
  | .health _, .json r => some (r, w)
  | .patches _, .patches r => some (r, w)
  | .packagesUpgradable _, .packages r => some (r, w)
  | .insertHealthData id _ _, _ => if w.hosts.any (·.id == id) then some (true, w) else none
  | .updateHealthStatus id status, _ =>
    some (true, { w with hosts := w.hosts.map fun h => if h.id = id then { h with healthStatus := status } else h })
  -- the foreign key
  | .upsertPatchData id availablePatches installedPackages patchCount cveCount, _ =>
    if w.hosts.any (·.id == id) then
      some (true, w.upsert
        { hostId := id, polledAt := w.now, availablePatches, installedPackages, patchCount, cveCount })
    else none
  | .updateLastPatch id, _ =>
    some (true, { w with hosts := w.hosts.map fun h => if h.id = id then { h with lastPatchAt := some w.now } else h })
  | .selectVulnerabilities _, .fails => some (none, w)
  | .selectVulnerabilities params, .rows l =>
    (pg.vulnerabilities w params).bind fun rows =>
      if l.isPerm rows && decide (l.Pairwise fun a b => pg.reportOrder.le a b = true) then some (some l, w) else none
  | _, _ => none

/-- The rows of a host go with it. -/
def change (w : World) : Change → World
  | .tick micros => { w with now := w.now + micros }
  | .addHost host => if w.hosts.any (·.id == host.id) then w else { w with hosts := w.hosts ++ [host] }
  | .editHost host => { w with hosts := w.hosts.map fun h => if h.id = host.id then host else h }
  | .removeHost id =>
    { w with hosts := w.hosts.filter (·.id ≠ id), patchData := w.patchData.filter (·.hostId ≠ id) }

def isEntry : Fn → Bool
  | .pollHostPatches _ | .refreshHost _ => false
  | _ => true

def collector (pg : Postgres) : Service World Op Op.Resp Fn where
  body := body
  Answer := Answer
  Change := Change
  execute := execute pg
  change := change
  isEntry := isEntry
  restart w := w
  perishes _ := true

end PatchManager.PatchData
