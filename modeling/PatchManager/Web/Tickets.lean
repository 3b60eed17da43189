import PatchManager.Conc.Schedule
import PatchManager.Text.Str
import PatchManager.Web.Headers
import Mathlib.Data.List.AList

/-! # The origin check

`parse_origin_header`, `is_origin_allowed` and `check_origin` of `ws.rs`: the `Origin` header
of a WebSocket upgrade has to be on the configured list, whatever way either is spelled.
`derive_allowed_origins` of `config.rs` makes that list from the SSO callback URL where the
configuration has none.
-/

namespace PatchManager

structure Origin where
  scheme : List Char
  host : List Char
  /-- `none` for the default port of the scheme -/
  port : Option Nat
deriving DecidableEq, Repr

def defaultPort (scheme : List Char) : Option Nat :=
  if scheme = "https".toList then some 443
  else if scheme = "http".toList then some 80
  else none

/-- `scheme://host[:port]`, without the default port. -/
def Origin.canonical (origin : Origin) : List Char :=
  let plain := origin.scheme ++ "://".toList ++ origin.host
  match origin.port, defaultPort origin.scheme with
  | some p, some d => if p = d then plain else plain ++ ':' :: Nat.toDigits 10 p
  | some p, none => plain ++ ':' :: Nat.toDigits 10 p
  | none, _ => plain

/-- The host and port of an authority.  A host with a colon in it is an IPv6 literal, which is
    refused. -/
def splitAuthority (authority : List Char) : Option (List Char × Option (List Char)) :=
  match Str.rsplitOnce ':' authority with
  | some (host, port) => if ':' ∈ host then none else some (host, some port)
  | none => some (authority, none)

def parseOriginHeader (value : List Char) : Option Origin := do
  let s := Str.trimEndMatches (· == '/') (Str.trim value)
  if s = [] then none
  let (scheme, rest) ← Str.splitOnce "://".toList s
  let scheme := Str.toAsciiLowercase scheme
  if scheme ≠ "http".toList ∧ scheme ≠ "https".toList then none
  let authority := rest.takeWhile fun c => !(c == '/' || c == '?' || c == '#')
  if authority = [] then none
  let (host, portStr) ← splitAuthority authority
  let host := Str.trim host
  if host = [] ∨ host.any Str.isWhitespace ∨ ':' ∈ host then none
  let port ← match portStr with
    | some p => (Str.parseUnsigned 65536 p).map some
    | none => some none
  return { scheme, host := Str.toAsciiLowercase host, port }

/-- Entries of the list that do not parse allow nothing; an empty list allows nothing. -/
def isOriginAllowed (origin : Origin) (allowlist : List (List Char)) : Bool :=
  allowlist.any fun entry => (parseOriginHeader entry).any fun parsed => parsed.canonical = origin.canonical

/-- The origin of the callback URL.  The parser is a copy of `parseOriginHeader`, but the host
    stays as it is written. -/
def derivedOrigin (ssoCallbackUrl : List Char) : Option (List Char) := do
  let s := Str.trimEndMatches (· == '/') (Str.trim ssoCallbackUrl)
  let (scheme, rest) ← Str.splitOnce "://".toList s
  if scheme = [] then none
  let schemeLower := Str.toAsciiLowercase scheme
  if schemeLower ≠ "http".toList ∧ schemeLower ≠ "https".toList then none
  let authority := rest.takeWhile fun c => !(c == '/' || c == '?' || c == '#')
  if authority = [] then none
  let (host, portStr) ← splitAuthority authority
  let host := Str.trim host
  if host = [] ∨ host.any Str.isWhitespace ∨ ':' ∈ host then none
  let port ← match portStr with
    | some p => (Str.parseUnsigned 65536 p).map some
    | none => some none
  return Origin.canonical { scheme := schemeLower, host, port }

/-- Empty for a URL that does not parse, and then every upgrade is refused. -/
def deriveAllowedOrigins (ssoCallbackUrl : List Char) : List (List Char) :=
  (derivedOrigin ssoCallbackUrl).toList

def forbiddenOrigin (message : String) : ApiError := ⟨403, "forbidden_origin", message⟩

/-- The error carries the reason that is logged with it. -/
def checkOrigin (headers : HeaderMap) (allowlist : List (List Char)) :
    Except (ApiError × String) Unit :=
  match headers.get "origin" with
  | none => .error (forbiddenOrigin "Origin header required", "missing")
  | some raw =>
    match headerText raw with
    | none => .error (forbiddenOrigin "Origin header not valid ASCII", "non-ascii")
    | some text =>
      match parseOriginHeader text with
      | none => .error (forbiddenOrigin "Malformed Origin header", "malformed")
      | some origin =>
        if isOriginAllowed origin allowlist then .ok ()
        else .error (forbiddenOrigin "Origin not allowed", "not-allowlisted")

example : (parseOriginHeader "https://X.org:443/a".toList).map Origin.canonical =
    some "https://x.org".toList := by decide

end PatchManager

/-! ## WebSocket tickets

`create_ticket_handler` and `ws_handler` of `ws.rs`, and the task that purges expired tickets.
The tickets are in a map in the memory of the web process, which all requests share.

`tickets` puts them together.  Requests run in parallel, one map operation at a time.
-/

namespace PatchManager

open PatchManager.Conc

/-- A map that tasks share.  Its operations are atomic. -/
abbrev DashMap (Value : Type) := AList fun _ : String => Value

namespace Ws

structure WsTicket where
  userId : Uuid
  role : String
  expiresAt : Time
deriving DecidableEq, Repr

inductive Op where
  | utcNow
  | newUlid
  | insertTicket (id : String) (ticket : WsTicket)
  | getTicket (id : String)
  | removeTicket (id : String)
  /-- the answer that switches protocols, for the request that presented the id -/
  | onUpgrade (id : String) (ticket : WsTicket)

@[reducible] def Op.Resp : Op → Type
  | .utcNow => Time
  | .newUlid => String
  | .getTicket _ | .removeTicket _ => Option WsTicket
  | _ => Unit

inductive Fn where
  | createTicketHandler (auth : AuthUser)
  | wsHandler (headers : HeaderMap) (ticket : String)

abbrev Proc := Prog Op Op.Resp Fn

abbrev perform (o : Op) : Proc o.Resp := Prog.perform o

def createTicketHandler (auth : AuthUser) : Proc String := do
  let ticketId ← perform .newUlid
  let now ← perform .utcNow
  perform (.insertTicket ticketId
    { userId := auth.userId, role := auth.role.asStr, expiresAt := now + 60 * microsPerSecond })
  return ticketId

def invalidTicket : ApiError :=
  ⟨401, "invalid_ticket", "WebSocket ticket not found or already used"⟩

def ticketExpired : ApiError := ⟨401, "ticket_expired", "WebSocket ticket has expired"⟩

def wsHandler (allowedOrigins : List (List Char)) (headers : HeaderMap) (ticket : String) :
    Proc (Except ApiError Unit) :=
  match checkOrigin headers allowedOrigins with
  | .error (err, _) => return .error err
  | .ok () => do
    match ← perform (.getTicket ticket) with
    | none => return .error invalidTicket
    | some t =>
      let now ← perform .utcNow
      if t.expiresAt < now then
        let _ ← perform (.removeTicket ticket)
        return .error ticketExpired
      else
        let _ ← perform (.removeTicket ticket)
        perform (.onUpgrade ticket t)
        return .ok ()

/-! ## The service -/

structure World where
  tickets : DashMap WsTicket := ∅
  /-- the identifiers given out so far, which are all different -/
  ulids : List String := []
  now : Time

/-- What happens besides the requests. -/
inductive Change where
  | tick (micros : Nat)
  /-- one entry as the purging task passes over it -/
  | purge (id : String)

/-- The answer is used by `newUlid` alone: the identifier. -/
def execute (w : World) : (o : Op) → String → Option (o.Resp × World)
  | .utcNow, _ => some (w.now, w)
  | .newUlid, id => if id ∈ w.ulids then none else some (id, { w with ulids := id :: w.ulids })
  | .insertTicket id ticket, _ => some ((), { w with tickets := w.tickets.insert id ticket })
  | .getTicket id, _ => some (w.tickets.lookup id, w)
  | .removeTicket id, _ => some (w.tickets.lookup id, { w with tickets := w.tickets.erase id })
  | .onUpgrade _ _, _ => some ((), w)

def change (w : World) : Change → World
  | .tick micros => { w with now := w.now + micros }
  | .purge id =>
    if (w.tickets.lookup id).any fun t => t.expiresAt ≤ w.now then
      { w with tickets := w.tickets.erase id }
    else w

def body (allowedOrigins : List (List Char)) : Fn → Proc Unit
  | .createTicketHandler auth => do
    let _ ← createTicketHandler auth
  | .wsHandler headers ticket => do
    let _ ← wsHandler allowedOrigins headers ticket

def tickets (allowedOrigins : List (List Char)) : Service World Op Op.Resp Fn where
  body := body allowedOrigins
  Answer := String
  Change := Change
  execute := execute
  change := change
  isEntry _ := true
  restart w := { w with tickets := ∅ }
  perishes _ := true

end Ws

end PatchManager
