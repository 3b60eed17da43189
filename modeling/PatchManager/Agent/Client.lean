import PatchManager.Db.Types

/-! # The agent's interface

What the worker sends to the agent of a host and what it gets back: the requests and
answers of the HTTP client, its errors with their messages, and the events of the job
stream.
-/

namespace PatchManager

def defaultAgentPort : Nat := 12443

/-- `AgentClientError`; the texts of the transport library's own errors are opaque. -/
inductive AgentClientError where
  | tls (reason : String)
  | connect (source : String)
  | request (source : String)
  | timeout
  | apiError (code message : String)
  | deserialize (source : String)
deriving DecidableEq, Repr

def AgentClientError.text : AgentClientError → String
  | .tls reason => "TLS error: " ++ reason
  | .connect source => "Connection error: " ++ source
  | .request source => "Request error: " ++ source
  | .timeout => "Request timed out"
  | .apiError code message => "Agent API error [" ++ code ++ "]: " ++ message
  | .deserialize source => "Failed to deserialise agent response: " ++ source

/-- A client for one agent, known by its base URL. -/
structure AgentClient where
  baseUrl : String

/-- `as u16`. -/
def asU16 (n : Int) : Nat := (n % 2 ^ 16).toNat

/-- `as u64`. -/
def asU64 (n : Int) : Nat := (n % 2 ^ 64).toNat

/-- The URL part of `AgentClient::new`; a network prefix length after the address is cut. -/
def AgentClient.new (hostIp : String) (port : Nat) : AgentClient :=
  let cleanIp := String.ofList (hostIp.toList.takeWhile (· != '/'))
  { baseUrl := "https://" ++ cleanIp ++ ":" ++ toString port ++ "/api/v1" }

structure ApplyPatchesRequest where
  packages : List String
  allowReboot : Bool
  rebootDelaySeconds : Nat

structure RebootRequest where
  delaySeconds : Nat
  force : Bool

/-- `ApplyPatchesResponse`, `RebootResponse` and `UpdatePackageResponse`, three types with
    the same fields. -/
structure SubmitResponse where
  jobId : String
  status : String

structure AgentJobStatus where
  jobId : String
  status : String
  progressPercent : Option Nat := none
  output : Option String := none
  error : Option String := none

structure HealthData where
  version : String
  gpgKeyStatus : Option String := none

/-- A JSON event of the agent's job stream. -/
structure AgentWsEvent where
  jobId : String
  status : String
  output : Option String := none
  error : Option String := none
  progressPercent : Option Nat := none

end PatchManager
