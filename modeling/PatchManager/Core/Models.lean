import PatchManager.Db.Types

/-! # Models of hosts

What `models.rs` says of hosts, for all that read or write them.
-/

namespace PatchManager

inductive HostHealthStatus where
  | pending
  | healthy
  | degraded
  | unreachable
deriving DecidableEq, Repr

/-- As the database and the requests spell it. -/
def HostHealthStatus.text : HostHealthStatus → String
  | .pending => "pending"
  | .healthy => "healthy"
  | .degraded => "degraded"
  | .unreachable => "unreachable"

/-- An item of the list of hosts. -/
structure HostSummary where
  id : Uuid
  fqdn : String
  ipAddress : String
  displayName : String
  osFamily : Option String
  osName : Option String
  healthStatus : HostHealthStatus
  agentVersion : Option String
  patchesMissing : Int
  healthCheckStatus : Option String
  registeredAt : Time
  crlStatus : Option String
  upgradeAvailable : Bool
  latestVersion : Option String
  pendingReboot : Bool
  rebootPaused : Bool
  packageDbClean : Bool
deriving DecidableEq

end PatchManager
