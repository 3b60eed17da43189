import PatchManager.Conc.System
import PatchManager.Db.Types
import PatchManager.Net.SocketAddr
import PatchManager.Web.Headers

/-! # Scans of networks

`start_cidr_scan` and the scan it starts: for every host of the network a task that tries to connect
to the agent's port, and stores the address where it can.  At most so many tasks probe at a time, and
the scan ends when all have.

Networks are parsed and their hosts listed elsewhere.  Which addresses take a connection does not
change.  The server goes on with a scan when the request is answered.
-/

namespace PatchManager.Discovery

open PatchManager.Conc

/-- A network, as `ipnet` represents it. -/
structure IpNet where
  addr : IpAddr
  prefixLen : Nat
deriving DecidableEq

/-- What is used of `ipnet`. -/
structure IpNetLib where
  parse : String → Option IpNet
  hosts : IpNet → List IpAddr

structure DiscoveryCidrRequest where
  cidr : String
  agentPort : Option Int := none

/-- A row of `discovery_results`. -/
structure DiscoveryResult where
  scanId : Uuid
  ipAddress : IpAddr
  fqdn : Option String
  agentPort : Int
deriving DecidableEq

def maxConcurrentProbes : Nat := 128

inductive Op where
  /-- `Uuid::new_v4` -/
  | newScanId
  | acquire (scanId : Uuid)
  | connect (addr : SocketAddr)
  | reverseLookup (ip : IpAddr)
  | insertResult (scanId : Uuid) (ip : IpAddr) (fqdn : Option String) (port : Nat)
  | release (scanId : Uuid)
  /-- the task of an address is over; whether it has stored the address -/
  | finish (scanId : Uuid) (ip : IpAddr) (port : Nat) (stored : Bool)
  /-- `await` of the task of an address -/
  | join (scanId : Uuid) (ip : IpAddr) (port : Nat)
  /-- `run_cidr_scan` is over -/
  | ended (scanId : Uuid) (cidr : IpNet) (port : Nat)

@[reducible] def Op.Resp : Op → Type
  | .newScanId => Uuid
  | .connect _ => Bool
  | .reverseLookup _ => Option String
  | .insertResult _ _ _ _ => Except String Unit
  | .acquire _ | .release _ | .finish _ _ _ _ | .join _ _ _ | .ended _ _ _ => Unit

inductive Fn where
  | startCidrScan (auth : AuthUser) (req : DiscoveryCidrRequest)
  | probe (scanId : Uuid) (ip : IpAddr) (port : Nat)

abbrev Proc := Prog Op Op.Resp Fn

/-! ## Programs -/

def perform (o : Op) : Proc o.Resp := Prog.perform o

/-- Whether the port is open.  The address is written as a text and parsed again. -/
def tryConnect (ip : IpAddr) (port : Nat) : Proc Bool :=
  match SocketAddr.parse (SocketAddr.format ip port) with
  | none => .ret false
  | some addr => perform (.connect addr)

/-- Whether the address has been stored; a failure to store it is passed over. -/
def probeAndStore (scanId : Uuid) (ip : IpAddr) (port : Nat) : Proc Bool :=
  (tryConnect ip port).bind fun isOpen =>
    if !isOpen then .ret false
    else
      (perform (.reverseLookup ip)).bind fun fqdn =>
        (perform (.insertResult scanId ip fqdn port)).bind fun _ => .ret true

/-- The task of an address, which holds a permit while it probes. -/
def probe (scanId : Uuid) (ip : IpAddr) (port : Nat) : Proc Unit :=
  (perform (.acquire scanId)).bind fun _ =>
    (probeAndStore scanId ip port).bind fun stored =>
      (perform (.release scanId)).bind fun _ => perform (.finish scanId ip port stored)

def spawnAll (scanId : Uuid) (port : Nat) : List IpAddr → Proc Unit
  | [] => .ret ()
  | ip :: hosts => .spawn (.probe scanId ip port) (spawnAll scanId port hosts)

def joinAll (scanId : Uuid) (port : Nat) : List IpAddr → Proc Unit
  | [] => .ret ()
  | ip :: hosts => (perform (.join scanId ip port)).bind fun _ => joinAll scanId port hosts

def runCidrScan (lib : IpNetLib) (scanId : Uuid) (cidr : IpNet) (port : Nat) : Proc Unit :=
  (spawnAll scanId port (lib.hosts cidr)).bind fun _ =>
    (joinAll scanId port (lib.hosts cidr)).bind fun _ => perform (.ended scanId cidr port)

/-- `as u16`. -/
def asU16 (n : Int) : Nat := (n % 65536).toNat

/-- The checks of the request, with the network and the port to scan. -/
def checkScan (lib : IpNetLib) (auth : AuthUser) (req : DiscoveryCidrRequest) : Except ApiError (IpNet × Nat) :=
  if !auth.role.canWrite then .error ⟨403, "forbidden", "Write access required"⟩
  else match lib.parse req.cidr with
    | none => .error ⟨400, "bad_request", "Invalid CIDR range"⟩
    | some cidr => .ok (cidr, asU16 (req.agentPort.getD 12443))

def startCidrScan (lib : IpNetLib) (auth : AuthUser) (req : DiscoveryCidrRequest) : Proc Unit :=
  match checkScan lib auth req with
  | .error _ => .ret ()
  | .ok (cidr, port) => (perform .newScanId).bind fun scanId => runCidrScan lib scanId cidr port

def body (lib : IpNetLib) : Fn → Proc Unit
  | .startCidrScan auth req => startCidrScan lib auth req
  | .probe scanId ip port => probe scanId ip port

/-! ## The server -/

structure World where
  results : List DiscoveryResult := []
  /-- the identifiers that have been given to scans -/
  scanIds : List Uuid := []
  /-- the permits that are held, by scan -/
  permits : List Uuid := []
  /-- the tasks of addresses that are over -/
  finished : List (Uuid × IpAddr × Nat) := []

inductive Answer where
  | ok
  | failed (reason : String)
  | id (id : Uuid)
  | name (fqdn : Option String)

/-- `opens` tells which addresses take a connection. -/
def execute (opens : SocketAddr → Bool) (w : World) : (o : Op) → Answer → Option (o.Resp × World)
  | .newScanId, .id id => if id ∈ w.scanIds then none else some (id, { w with scanIds := id :: w.scanIds })
  | .acquire scanId, .ok =>
    if w.permits.count scanId < maxConcurrentProbes then some ((), { w with permits := scanId :: w.permits }) else none
  | .connect addr, .ok => some (opens addr, w)
  | .reverseLookup _, .name fqdn => some (fqdn, w)
  | .insertResult scanId ip fqdn port, .ok =>
    -- the text of the address is cast to `inet`
    match IpAddr.parse ip.text with
    | none => some (.error "invalid input syntax for type inet", w)
    | some ipAddress => some (.ok (), { w with results := ⟨scanId, ipAddress, fqdn, port⟩ :: w.results })
  | .insertResult _ _ _ _, .failed reason => some (.error reason, w)
  | .release scanId, .ok => some ((), { w with permits := w.permits.erase scanId })
  | .finish scanId ip port _, .ok => some ((), { w with finished := (scanId, ip, port) :: w.finished })
  | .join scanId ip port, .ok => if (scanId, ip, port) ∈ w.finished then some ((), w) else none
  | .ended _ _ _, .ok => some ((), w)
  | _, _ => none

def Fn.isRequest : Fn → Bool
  | .startCidrScan _ _ => true
  | .probe _ _ _ => false

def server (lib : IpNetLib) (opens : SocketAddr → Bool) : Machine World Op Op.Resp Fn where
  body := body lib
  exec w o r w' := ∃ a, execute opens w o a = some (r, w')
  enter s f w := f.isRequest = true ∧ w = s.world
  drift w w' := w' = w
  restart w := { w with permits := [], finished := [] }
  perishes _ := true
  abandons _ := false

end PatchManager.Discovery
