import PatchManager.Conc.Among
import PatchManager.Order.Groups
import PatchManager.Repo.Sync
import PatchManager.Web.Jobs
import Mathlib.Data.List.Destutter

/-! # Upgrades

`upgrades.rs`: what it makes of the operating system of a host, the versions that a host is offered,
and the one that an upgrade is resolved to.
-/

namespace PatchManager

/-- `map_os_to_distro`: the repository and the suite whose packages a host can be offered. -/
def mapOsToDistro (osName : String) : Option (String × Option String) :=
  let lower := Str.toAsciiLowercase osName.toList
  if "ubuntu".toList.isPrefixOf lower then
    if Str.contains "24.04".toList lower then some ("apt", some "u2404")
    else if Str.contains "22.04".toList lower then some ("apt", some "u2204")
    else if Str.contains "26.04".toList lower then some ("apt", some "u2604")
    else some ("apt", none)
  else if "debian".toList.isPrefixOf lower then
    if Str.contains "12".toList lower || Str.contains "bookworm".toList lower then some ("apt", some "debian12")
    else if Str.contains "13".toList lower || Str.contains "trixie".toList lower then some ("apt", some "debian13")
    else some ("apt", none)
  else if "fedora".toList.isPrefixOf lower || "almalinux".toList.isPrefixOf lower then
    some ("dnf", some dnfCodename)
  else if "alpine".toList.isPrefixOf lower then some ("apk", some apkCodename)
  else if "arch".toList.isPrefixOf lower then some ("pacman", some "x86_64")
  else none

/-- `os_name_from_sysinfo`: what the health poller stores. -/
def osNameFromSysinfo (os osVersion : String) : String := os ++ " " ++ osVersion

/-! ## Versions -/

open RepoSync (RepoPackage)

structure RepoAvailableVersion where
  version : String
  distro : String
  distroCodename : Option String
  fileName : String
  publishedAt : Option Time
deriving DecidableEq

/-- `LIKE 'linux-patch-manager_%'`, where the underscore stands for any character. -/
def likeManager (filename : String) : Bool :=
  "linux-patch-manager".toList.isPrefixOf filename.toList &&
    filename.toList.drop "linux-patch-manager".toList.length ≠ []

/-- The packages of a host: of its suite, or of none. -/
def offered (rows : List RepoPackage) (distro : String) (codename : Option String) : List RepoPackage :=
  rows.filter fun row => row.distro == distro &&
    ((codename.isSome && row.distroCodename == codename) || row.distroCodename == none) && !likeManager row.filename

/-- `version DESC, published_at DESC NULLS LAST`. -/
def listedBefore (a b : RepoPackage) : Bool :=
  (compare b.version a.version).then
    (match a.publishedAt, b.publishedAt with
      | some s, some t => compare t s
      | some _, none => .lt
      | none, some _ => .gt
      | none, none => .eq) != .gt

def sortRepoVersionsDesc (versions : List RepoAvailableVersion) : List RepoAvailableVersion :=
  versions.mergeSort fun a b => compareVersions b.version a.version != .gt

/-- The row first listed for each version. -/
def listAvailableVersions (rows : List RepoPackage) (osName : Option String) : List RepoAvailableVersion :=
  match osName.bind mapOsToDistro with
  | none => []
  | some (distro, codename) =>
    let distinct := ((offered rows distro codename).mergeSort listedBefore).destutter fun a b => a.version ≠ b.version
    sortRepoVersionsDesc (distinct.map fun row =>
      { version := row.version, distro := row.distro, distroCodename := row.distroCodename
        fileName := row.filename, publishedAt := row.publishedAt })

def availableVersions (rows : List RepoPackage) (distro : String) (codename : Option String) : List String :=
  let versions := ((offered rows distro codename).map (·.version)).dedup.mergeSort fun a b => compare b a != .gt
  versions.mergeSort fun a b => compareVersions b a != .gt

/-- The part of a version before the release of the package. -/
def versionBase (version : String) : List Char := Str.splitNext '-' version.toList

/-- The columns of `hosts` that an upgrade reads. -/
structure UpgradeHost where
  osName : Option String
  agentVersion : Option String

/-- What a host is upgraded to, or why it is skipped. -/
def resolveVersion (rows : List RepoPackage) (targetVersion : Option String) (host : Option UpgradeHost) :
    Except String String := do
  let some host := host | throw "Host not found"
  let some osName := host.osName | throw "Host has no OS information"
  let some (distro, codename) := mapOsToDistro osName | throw ("Unsupported OS: " ++ osName)
  let available := availableVersions rows distro codename
  let latest :: _ := available | throw "No packages available for this host's OS in the repo"
  let resolved ← match targetVersion with
    | some target =>
      if target ∈ available then pure target else throw ("Version '" ++ target ++ "' not available for this host's OS")
    | none => pure latest
  if host.agentVersion.any fun current => versionBase current == versionBase resolved then
    throw ("Host is already at version " ++ resolved)
  return resolved

structure SkippedHost where
  hostId : Uuid
  reason : String
deriving DecidableEq, Repr

/-- The loop of `trigger_upgrade`: the hosts that are skipped, and those a job is made for. -/
def resolveHosts (rows : List RepoPackage) (hosts : Uuid → Option UpgradeHost) (targetVersion : Option String)
    (hostIds : List Uuid) : List SkippedHost × List (Uuid × String) :=
  hostIds.foldl (fun (skipped, valid) hostId =>
    match resolveVersion rows targetVersion (hosts hostId) with
    | .error reason => (skipped ++ [⟨hostId, reason⟩], valid)
    | .ok version => (skipped, valid ++ [(hostId, version)])) ([], [])

end PatchManager

/-! ## Triggering an upgrade

`trigger_upgrade` of `routes/upgrades.rs`: the hosts are looked up one by one, those that can be
upgraded are grouped by version, and each group gets a job.
-/

namespace PatchManager

open PatchManager.Conc PatchManager.Order RepoSync

structure TriggerUpgradeRequest where
  hostIds : List Uuid
  targetVersion : Option String
  immediate : Bool := false
  maintenanceWindowId : Option Uuid

structure TriggerUpgradeResponse where
  jobId : Uuid
  hostCount : Nat
  skipped : List SkippedHost

/-! ## Queries -/

/-- What an upgrade reads beside the tables of the engine. -/
structure UpgradeTables where
  /-- `hosts.os_name` -/
  osName : Uuid → Option String
  repoPackages : List RepoPackage

inductive UpgradeQuery where
  /-- `SELECT os_name, agent_version FROM hosts WHERE id = $1` -/
  | host (hostId : Uuid)
  /-- `SELECT DISTINCT version FROM repo_packages .. ORDER BY version DESC` -/
  | versions (distro : String) (codename : Option String)

@[reducible] def UpgradeQuery.Resp : UpgradeQuery → Type
  | host _ => Except String (Option UpgradeHost)
  | versions _ _ => Except String (List String)

abbrev UpgradeWorld := World × UpgradeTables

/-- The columns of a host that are read, if there is such a host. -/
def upgradeHost (w : UpgradeWorld) (hostId : Uuid) : Option UpgradeHost :=
  (w.1.db.host hostId).map fun h => { osName := w.2.osName hostId, agentVersion := h.agentVersion }

def distinctVersions (rows : List RepoPackage) (distro : String) (codename : Option String) : List String :=
  ((offered rows distro codename).map (·.version)).dedup.mergeSort fun a b => compare b a != .gt

/-- A query fails, or it answers with what is there. -/
def upgradeExec (w : UpgradeWorld) : (q : UpgradeQuery) → q.Resp → UpgradeWorld → Prop
  | .host hostId, answer, w' => w' = w ∧ ((∃ reason, answer = .error reason) ∨ answer = .ok (upgradeHost w hostId))
  | .versions distro codename, answer, w' =>
    w' = w ∧ ((∃ reason, answer = .error reason) ∨ answer = .ok (distinctVersions w.2.repoPackages distro codename))

abbrev UpgradeProc := Prog (Op ⊕ UpgradeQuery) (Sum.elim Op.Resp UpgradeQuery.Resp) Fn

abbrev readUpgrade (q : UpgradeQuery) : UpgradeProc q.Resp :=
  (Prog.op (.inr q) fun answer => .ret answer : UpgradeProc q.Resp)

/-! ## The handler -/

/-- The version a host is upgraded to among those that are available to it, or why it is skipped. -/
def chooseVersion (targetVersion : Option String) (available : List String) (agentVersion : Option String) :
    Except String String := do
  let latest :: _ := available | throw "No packages available for this host's OS in the repo"
  let resolved ← match targetVersion with
    | some target =>
      if target ∈ available then pure target else throw ("Version '" ++ target ++ "' not available for this host's OS")
    | none => pure latest
  if agentVersion.any fun current => versionBase current == versionBase resolved then
    throw ("Host is already at version " ++ resolved)
  return resolved

/-- The loop's body. -/
def resolveHost (targetVersion : Option String) (hostId : Uuid) :
    UpgradeProc (Except ApiError (Except String String)) := do
  match ← readUpgrade (.host hostId) with
  | .error _ => return .error .database
  | .ok none => return .ok (.error "Host not found")
  | .ok (some host) =>
    match host.osName with
    | none => return .ok (.error "Host has no OS information")
    | some osName =>
      match mapOsToDistro osName with
      | none => return .ok (.error ("Unsupported OS: " ++ osName))
      | some (distro, codename) =>
        match ← readUpgrade (.versions distro codename) with
        | .error _ => return .error .database
        | .ok versions =>
          -- the order of the database is that of texts
          let available := versions.mergeSort fun a b => compareVersions b a != .gt
          return .ok (chooseVersion targetVersion available host.agentVersion)

/-- The hosts that are skipped and those that are not, behind the ones before. -/
def resolveEach (targetVersion : Option String) (skipped : List SkippedHost) (valid : List (Uuid × String)) :
    List Uuid → UpgradeProc (Except ApiError (List SkippedHost × List (Uuid × String)))
  | [] => return .ok (skipped, valid)
  | hostId :: rest => do
    match ← resolveHost targetVersion hostId with
    | .error e => return .error e
    | .ok (.error reason) => resolveEach targetVersion (skipped ++ [⟨hostId, reason⟩]) valid rest
    | .ok (.ok version) => resolveEach targetVersion skipped (valid ++ [(hostId, version)]) rest

def triggerUpgrade (auth : AuthUser) (req : TriggerUpgradeRequest) :
    UpgradeProc (Except ApiError TriggerUpgradeResponse) := do
  if !auth.role.canWrite then return .error ⟨403, "forbidden", "Operator or Admin access required"⟩
  else if req.hostIds.isEmpty then return .error ⟨400, "bad_request", "host_ids must not be empty"⟩
  else
    match ← resolveEach req.targetVersion [] [] req.hostIds with
    | .error e => return .error e
    | .ok (skipped, valid) =>
      if valid.isEmpty then return .ok { jobId := 0, hostCount := 0, skipped }
      else
        let groups := groupByKey valid
        match ← (insertUpgradeJobs auth req.immediate req.maintenanceWindowId groups skipped.length).extend with
        | .error e => return .error e
        | .ok jobId =>
          return .ok { jobId, hostCount := (groups.map fun group => group.2.length).sum, skipped }

end PatchManager
