import PatchManager.Net.IpAddr
import PatchManager.Web.Headers

/-! # The authentication middleware

`require_auth` of `rbac.rs`: the address of the client against the allowlist, then the token.
The crates for networks, tokens and identifiers are parameters.
-/

namespace PatchManager

/-- What is used of the crate `ipnet`. -/
structure IpNetCrate where
  Net : Type
  /-- `IpNet::from_str` -/
  fromStr : List Char → Option Net
  contains : Net → IpAddr → Bool

variable {nets : IpNetCrate}

/-- The entries that are networks; the others are dropped. -/
def parseNets (nets : IpNetCrate) (entries : List (List Char)) : List nets.Net :=
  entries.filterMap nets.fromStr

structure AuthConfig (nets : IpNetCrate) where
  verifyKeyPem : String
  ipWhitelist : List nets.Net
  trustedProxies : List nets.Net

namespace AuthConfig

def new (verifyKeyPem : String) (ipWhitelistCidrs trustedProxyCidrs : List (List Char)) :
    AuthConfig nets where
  verifyKeyPem := verifyKeyPem
  ipWhitelist := parseNets nets ipWhitelistCidrs
  trustedProxies := parseNets nets trustedProxyCidrs

/-- An empty list allows every address. -/
def isIpAllowed (cfg : AuthConfig nets) (ip : IpAddr) : Bool :=
  cfg.ipWhitelist.isEmpty || cfg.ipWhitelist.any (nets.contains · ip)

def updateIpWhitelist (cfg : AuthConfig nets) (entries : List (List Char)) : AuthConfig nets :=
  { cfg with ipWhitelist := parseNets nets entries }

end AuthConfig

def stripPrefix (pre s : List Char) : Option (List Char) :=
  if pre.isPrefixOf s then some (s.drop pre.length) else none

def extractBearerToken (headers : HeaderMap) : Option (List Char) :=
  ((headers.get "authorization").bind headerText).bind (stripPrefix "Bearer ".toList)

/-- The peer is one of the trusted proxies. -/
def isTrusted (trustedProxies : List nets.Net) (peer : IpAddr) : Bool :=
  trustedProxies.any (nets.contains · peer)

/-- `xff.split(',').next()`, trimmed and parsed. -/
def firstForwarded (xff : List Char) : Option IpAddr := IpAddr.parse (Str.trim (Str.splitNext ',' xff))

def resolveClientIp (headers : HeaderMap) (peer : Option IpAddr) (trustedProxies : List nets.Net) :
    Option IpAddr := do
  let peerIp ← peer
  if !trustedProxies.isEmpty ∧ isTrusted trustedProxies peerIp then
    match (headers.get "x-forwarded-for").bind headerText with
    | some xff => return (firstForwarded xff).getD peerIp
    | none => return peerIp
  return peerIp

def unauthorized (message : String) : ApiError := ⟨401, "unauthorized", message⟩

def forbiddenIp (message : String) : ApiError := ⟨403, "forbidden_ip", message⟩

/-- `AccessClaims`, as far as it is read. -/
structure AccessClaims where
  sub : String
  role : String
  username : String

inductive JwtError where
  | expired
  | other (reason : String)

/-- What is used of the crates for tokens and identifiers. -/
structure JwtCrate where
  /-- `validate_access_token` with the key given second -/
  validate : List Char → String → Except JwtError AccessClaims
  /-- `Uuid::parse_str` -/
  parseUuid : String → Option Uuid

def UserRole.fromStr (s : String) : Option UserRole :=
  if s = "admin" then some .admin
  else if s = "operator" then some .operator
  else if s = "reporter" then some .reporter
  else none

/-- What the middleware looks at of a request. -/
structure Request where
  headers : HeaderMap
  /-- `ConnectInfo<SocketAddr>` -/
  peer : Option IpAddr

/-- The allowlist, which is enforced when it is not empty. -/
def checkAddress (cfg : AuthConfig nets) (req : Request) : Except ApiError Unit :=
  if cfg.ipWhitelist.isEmpty then .ok ()
  else
    match resolveClientIp req.headers req.peer cfg.trustedProxies with
    | none => .error (forbiddenIp "Client IP could not be determined")
    | some ip => if cfg.isIpAllowed ip then .ok () else .error (forbiddenIp "Access denied")

/-- The user the request goes on with, or the answer. -/
def requireAuth (jwt : JwtCrate) (cfg : AuthConfig nets) (req : Request) : Except ApiError AuthUser := do
  checkAddress cfg req
  let token ← (extractBearerToken req.headers).elim
    (.error (unauthorized "Missing authorization token")) .ok
  let claims ← match jwt.validate token cfg.verifyKeyPem with
    | .ok claims => .ok claims
    | .error .expired => .error (unauthorized "Token expired")
    | .error (.other _) => .error (unauthorized "Invalid token")
  let role ← (UserRole.fromStr claims.role).elim (.error (unauthorized "Invalid role in token")) .ok
  let userId ← (jwt.parseUuid claims.sub).elim (.error (unauthorized "Invalid user ID in token")) .ok
  return { userId, username := claims.username, role }

/-- Networks as the crate reads them: an address, a slash and the length of the prefix. -/
def Small.ipNets : IpNetCrate where
  Net := IpAddr × Nat
  fromStr s := do
    let (addr, len) ← Str.splitOnce "/".toList s
    let ip ← IpAddr.parse addr
    let len ← Str.parseUnsigned 129 len
    match ip with
    | .v4 _ => if len ≤ 32 then some (ip, len) else none
    | .v6 _ => some (ip, len)
  contains
    | (.v4 net, len), .v4 ip => net >>> (32 - len) == ip >>> (32 - len)
    | (.v6 net, len), .v6 ip => net >>> (128 - len) == ip >>> (128 - len)
    | _, _ => false

end PatchManager
