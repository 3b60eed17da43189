import PatchManager.Conc.Exchange
import PatchManager.Core.Models
import PatchManager.Sql.Condition
import PatchManager.Sql.Paging
import PatchManager.Web.Headers
import PatchManager.Web.Upgrades

/-! # The list of hosts

`list_hosts` of `hosts.rs`: the two queries it puts together, the parameters they take, and what the
database answers to them.  Of what the database brings along, its matching of patterns and its order
of texts are left open.
-/

namespace PatchManager.Hosts

open PatchManager.Conc
open PatchManager.Sql (Cond SortOrder)

/-! ## Tables -/

/-- The columns of `hosts` that the list has. -/
structure HostRow where
  id : Uuid
  fqdn : String
  ipAddress : String
  displayName : String
  osFamily : Option String
  osName : Option String
  healthStatus : HostHealthStatus
  agentVersion : Option String
  registeredAt : Time
  crlStatus : Option String
  pendingReboot : Bool
  rebootPaused : Bool
  packageDbClean : Bool
deriving DecidableEq

/-- Of a row of `host_patch_data`. -/
structure PatchRow where
  hostId : Uuid
  patchCount : Int
deriving DecidableEq

structure HostGroup where
  hostId : Uuid
  groupId : Uuid
deriving DecidableEq

structure UserGroup where
  userId : Uuid
  groupId : Uuid
deriving DecidableEq

/-- A row of `host_health_checks` with the last of its results. -/
structure HealthCheck where
  hostId : Uuid
  enabled : Bool
  healthy : Option Bool
deriving DecidableEq

/-- The tables, with a key of `hosts` and one of `host_patch_data`. -/
structure Database where
  hosts : List HostRow
  patchData : List PatchRow := []
  hostGroups : List HostGroup := []
  userGroups : List UserGroup := []
  healthChecks : List HealthCheck := []
  hostKeys : (hosts.map (·.id)).Nodup := by decide
  patchKeys : (patchData.map (·.hostId)).Nodup := by decide

/-! ## Queries -/

/-- The conditions of the two queries; a number is that of a parameter. -/
inductive Atom where
  /-- `1=1` -/
  | always
  | fqdnIlike (p : Nat)
  | displayNameIlike (p : Nat)
  | healthStatusIs (p : Nat)
  | patchCountPositive
  | patchCountZero
  /-- the host is in a group of the user -/
  | inGroupOf (p : Nat)
  /-- the host is in a group -/
  | inAnyGroup
deriving DecidableEq

inductive Value where
  | text (s : String)
  | healthStatus (s : HostHealthStatus)
  | bigint (n : Int)
  | uuid (id : Uuid)
deriving DecidableEq

inductive SortColumn where
  | fqdn
  | displayName
  | ipAddress
  | osName
  | healthStatus
  | healthCheckStatus
  | crlStatus
  | agentVersion
  | patchesMissing
  | pendingReboot
deriving DecidableEq

structure OrderBy where
  column : SortColumn
  desc : Bool
deriving DecidableEq

/-- The query for a page; `limit` and `offset` are numbers of parameters. -/
structure Select where
  distinct : Bool
  condition : Cond Atom
  orderBy : OrderBy
  limit : Nat
  offset : Nat

inductive Op where
  | fetchHosts (query : Select) (binds : List Value)
  | fetchCount (condition : Cond Atom) (binds : List Value)
  | latestVersion (distro : String) (codename : Option String)

/-- `none` for an error, and where there is no version. -/
@[reducible] def Op.Resp : Op → Type
  | .fetchHosts _ _ => Option (List HostSummary)
  | .fetchCount _ _ => Option Int
  | .latestVersion _ _ => Option String

abbrev Proc := Prog Op Op.Resp Unit

def perform (o : Op) : Proc o.Resp := Prog.perform o

/-! ## The request -/

structure HostListQuery where
  groupId : Option Uuid := none
  healthStatus : Option String := none
  osFamily : Option String := none
  search : Option String := none
  limit : Option Int := none
  offset : Option Int := none
  sortBy : Option String := none
  order : Option String := none
  patchesMissing : Option String := none

structure HostListResponse where
  hosts : List HostSummary
  total : Int
  limit : Int
  offset : Int
deriving DecidableEq

def resolveSortColumn : String → Option SortColumn
  | "fqdn" => some .fqdn
  | "display_name" => some .displayName
  | "ip_address" => some .ipAddress
  | "os" => some .osName
  | "health_status" => some .healthStatus
  | "health_check_status" => some .healthCheckStatus
  | "crl_status" => some .crlStatus
  | "agent_version" => some .agentVersion
  | "patches_missing" => some .patchesMissing
  | "pending_reboot" => some .pendingReboot
  | _ => none

def resolveSortFragment (sortBy order : String) : Option OrderBy :=
  (resolveSortColumn sortBy).map fun column =>
    ⟨column, Str.toAsciiLowercase order.toList == "desc".toList⟩

def orderBy (q : HostListQuery) : OrderBy :=
  (match q.sortBy, q.order with
    | some field, some dir => resolveSortFragment field dir
    | some field, none => resolveSortFragment field "asc"
    | none, _ => none).getD ⟨.fqdn, false⟩

/-- A condition with a place for the number of its parameter. -/
structure HostFilter where
  sql : Nat → Cond Atom
  hasPlaceholder : Bool
  bind : String

def searchFilter (q : HostListQuery) : List HostFilter :=
  match q.search with
  | some search =>
    if search ≠ "" then
      [⟨fun p => .group (.or (.atom (.fqdnIlike p)) (.atom (.displayNameIlike p))), true,
        "%" ++ search ++ "%"⟩]
    else []
  | none => []

def statusFilter (q : HostListQuery) : List HostFilter :=
  match q.healthStatus with
  | some hs => if hs ≠ "" then [⟨fun p => .atom (.healthStatusIs p), true, hs⟩] else []
  | none => []

def patchesFilter (q : HostListQuery) : List HostFilter :=
  match q.patchesMissing with
  | some "missing" => [⟨fun _ => .atom .patchCountPositive, false, ""⟩]
  | some "uptodate" => [⟨fun _ => .atom .patchCountZero, false, ""⟩]
  | _ => []

def filters (q : HostListQuery) : List HostFilter := searchFilter q ++ statusFilter q ++ patchesFilter q

/-- The conditions with parameters from `start` on, and the number of these. -/
def assignPlaceholders : List HostFilter → Nat → List (Cond Atom) × Nat
  | [], _ => ([], 0)
  | f :: filters, idx =>
    let used := if f.hasPlaceholder then 1 else 0
    let (parts, more) := assignPlaceholders filters (idx + used)
    (f.sql idx :: parts, used + more)

def filterBinds (filters : List HostFilter) : List Value :=
  (filters.filter (·.hasPlaceholder)).map fun f => .text f.bind

/-! ## Upgrades -/

/-- `split('-').next()`. -/
def versionNorm (version : String) : List Char := version.toList.takeWhile (· ≠ '-')

def latestByPair : List (String × Option String) → Proc (List ((String × Option String) × String))
  | [] => return []
  | pair :: pairs => do
    let latest ← perform (.latestVersion pair.1 pair.2)
    let others ← latestByPair pairs
    return (latest.map (pair, ·)).toList ++ others

def setLatest (latest : List ((String × Option String) × String)) (h : HostSummary) : HostSummary :=
  match h.osName.bind mapOsToDistro with
  | none => h
  | some key =>
    match latest.lookup key with
    | none => h
    | some version =>
      { h with
        latestVersion := some version
        upgradeAvailable :=
          match h.agentVersion with
          | some current => versionNorm current != versionNorm version
          | none => h.upgradeAvailable }

def computeUpgradeAvailable (hosts : List HostSummary) : Proc (List HostSummary) := do
  let pairs := (hosts.filterMap fun h => h.osName.bind mapOsToDistro).dedup
  let latest ← latestByPair pairs
  return hosts.map (setLatest latest)

/-! ## The handler -/

def listHosts (auth : AuthUser) (q : HostListQuery) : Proc (Except ApiError HostListResponse) := do
  let limit := min (q.limit.getD 50) 200
  let offset := q.offset.getD 0
  let filters := filters q
  let (clause, n) := assignPlaceholders filters 1
  let found ←
    if auth.role.isAdmin then
      perform (.fetchHosts
        { distinct := false
          condition := (Cond.atom Atom.always).allAnd clause
          orderBy := orderBy q
          limit := 1 + n
          offset := 2 + n }
        (filterBinds filters ++ [.bigint limit, .bigint offset]))
    else
      -- the clause comes after an alternative without parentheses
      perform (.fetchHosts
        { distinct := true
          condition :=
            (Cond.or (.atom (.inGroupOf (3 + n))) (.not (.atom Atom.inAnyGroup))).allAnd clause
          orderBy := orderBy q
          limit := 1 + n
          offset := 2 + n }
        (filterBinds filters ++ [.bigint limit, .bigint offset, .uuid auth.userId]))
  match found with
  | none => return .error .database
  | some hosts =>
    let counted ←
      if auth.role.isAdmin then
        perform (.fetchCount ((Cond.atom Atom.always).allAnd (assignPlaceholders filters 1).1)
          (filterBinds filters))
      else
        perform (.fetchCount
          ((Cond.group (.or (.atom (.inGroupOf 1)) (.not (.atom Atom.inAnyGroup)))).allAnd
            (assignPlaceholders filters 2).1)
          (.uuid auth.userId :: filterBinds filters))
    let hosts ← computeUpgradeAvailable hosts
    return .ok ⟨hosts, counted.getD 0, limit, offset⟩

/-! ## Access -/

namespace Database

variable (db : Database)

def inGroup (userId hostId : Uuid) : Bool :=
  db.hostGroups.any fun hg => hg.hostId == hostId &&
    db.userGroups.any fun ug => ug.groupId == hg.groupId && ug.userId == userId

def ungrouped (hostId : Uuid) : Bool := !db.hostGroups.any fun hg => hg.hostId == hostId

def operatorCanAccessHost (userId hostId : Uuid) : Bool :=
  if db.inGroup userId hostId then true else db.ungrouped hostId

end Database

/-! ## What the database answers -/

/-- `ILIKE`, and the order of texts. -/
structure Postgres where
  ilike : String → String → Bool
  collation : SortOrder String

def orderOf (β : Type) [LinearOrder β] : SortOrder β where
  le a b := decide (a ≤ b)
  total a b := by simpa using le_total a b
  trans _ _ _ first second := by
    simp only [decide_eq_true_eq] at first second ⊢
    exact le_trans first second

/-- `NULLS LAST`, which `ASC` means. -/
def nullsLast {β : Type} (o : SortOrder β) : SortOrder (Option β) where
  le
    | _, none => true
    | none, some _ => false
    | some a, some b => o.le a b
  total
    | none, none => .inl rfl
    | none, some _ => .inr rfl
    | some _, none => .inl rfl
    | some a, some b => o.total a b
  trans
    | _, _, none => fun _ _ => rfl
    | some a, some b, some c => o.trans a b c
    | none, some _, some _ => nofun
    | _, none, some _ => nofun

/-- The place of a status in its type. -/
def statusIndex : HostHealthStatus → Nat
  | .pending => 0
  | .healthy => 1
  | .degraded => 2
  | .unreachable => 3

section answers

variable (pg : Postgres) (db : Database)

def SortColumn.order : SortColumn → SortOrder HostSummary
  | .fqdn => pg.collation.by (·.fqdn)
  | .displayName => pg.collation.by (·.displayName)
  | .ipAddress => pg.collation.by (·.ipAddress)
  | .osName => (nullsLast pg.collation).by (·.osName)
  | .healthStatus => (orderOf Nat).by fun h => statusIndex h.healthStatus
  | .healthCheckStatus => (nullsLast pg.collation).by (·.healthCheckStatus)
  | .crlStatus => (nullsLast pg.collation).by (·.crlStatus)
  | .agentVersion => (nullsLast pg.collation).by (·.agentVersion)
  | .patchesMissing => (orderOf Int).by (·.patchesMissing)
  | .pendingReboot => (orderOf Bool).by (·.pendingReboot)

def OrderBy.order (o : OrderBy) : SortOrder HostSummary :=
  if o.desc then (o.column.order pg).reverse else o.column.order pg

/-- The value of a parameter; they are numbered from 1. -/
def param (binds : List Value) (p : Nat) : Option Value := if p = 0 then none else binds[p - 1]?

/-- Whether the parameters have the types that the condition needs: a text is not a status. -/
def Atom.typed (binds : List Value) : Atom → Bool
  | .fqdnIlike p | .displayNameIlike p =>
    match param binds p with
    | some (.text _) => true
    | _ => false
  | .healthStatusIs p =>
    match param binds p with
    | some (.healthStatus _) => true
    | _ => false
  | .inGroupOf p =>
    match param binds p with
    | some (.uuid _) => true
    | _ => false
  | .always | .patchCountPositive | .patchCountZero | .inAnyGroup => true

/-- A row of `hosts h LEFT JOIN host_patch_data hpd ON hpd.host_id = h.id`. -/
structure Joined where
  host : HostRow
  patch : Option PatchRow
deriving DecidableEq

def Database.joined : List Joined :=
  db.hosts.flatMap fun h =>
    match db.patchData.filter (·.hostId == h.id) with
    | [] => [⟨h, none⟩]
    | found => found.map fun p => ⟨h, some p⟩

/-- `COALESCE(hpd.patch_count, 0)`. -/
def Joined.patchCount (j : Joined) : Int := (j.patch.map (·.patchCount)).getD 0

def Atom.holds (binds : List Value) (j : Joined) : Atom → Bool
  | .always => true
  | .fqdnIlike p =>
    match param binds p with
    | some (.text pattern) => pg.ilike j.host.fqdn pattern
    | _ => false
  | .displayNameIlike p =>
    match param binds p with
    | some (.text pattern) => pg.ilike j.host.displayName pattern
    | _ => false
  | .healthStatusIs p => param binds p == some (.healthStatus j.host.healthStatus)
  | .patchCountPositive => j.patchCount > 0
  | .patchCountZero => j.patchCount == 0
  | .inGroupOf p =>
    match param binds p with
    | some (.uuid userId) => db.inGroup userId j.host.id
    | _ => false
  | .inAnyGroup => !db.ungrouped j.host.id

def Database.healthCheckStatus (hostId : Uuid) : Option String :=
  let checks := db.healthChecks.filter fun hc => hc.hostId == hostId && hc.enabled
  if checks.isEmpty then none
  else if checks.any (·.healthy != some true) then some "some_unhealthy"
  else some "all_healthy"

/-- The columns of the list. -/
def Database.summary (j : Joined) : HostSummary where
  id := j.host.id
  fqdn := j.host.fqdn
  ipAddress := j.host.ipAddress
  displayName := j.host.displayName
  osFamily := j.host.osFamily
  osName := j.host.osName
  healthStatus := j.host.healthStatus
  agentVersion := j.host.agentVersion
  patchesMissing := j.patchCount
  healthCheckStatus := db.healthCheckStatus j.host.id
  registeredAt := j.host.registeredAt
  crlStatus := j.host.crlStatus
  upgradeAvailable := false
  latestVersion := none
  pendingReboot := j.host.pendingReboot
  rebootPaused := j.host.rebootPaused
  packageDbClean := j.host.packageDbClean

def Database.matching (condition : Cond Atom) (binds : List Value) : List Joined :=
  db.joined.filter fun j => condition.eval (Atom.holds pg db binds j)

/-- The rows of a query before they are put in order and cut. -/
def Select.rows (s : Select) (binds : List Value) : List HostSummary :=
  let found := (db.matching pg s.condition binds).map db.summary
  if s.distinct then found.dedup else found

/-- A natural number for `LIMIT` and `OFFSET`. -/
def natParam (binds : List Value) (p : Nat) : Option Nat :=
  match param binds p with
  | some (.bigint n) => if 0 ≤ n then some n.toNat else none
  | _ => none

/-- The parameters have their types, and with `DISTINCT` the rows are ordered by a column of the
    list: `COALESCE(h.pending_reboot, false)` is one, `h.pending_reboot` is not. -/
def Select.wellFormed (s : Select) (binds : List Value) : Bool :=
  s.condition.all (Atom.typed binds) && !(s.distinct && s.orderBy.column == .pendingReboot)

/-- The answers the database can give. -/
def Answers : (o : Op) → o.Resp → Prop
  | .fetchHosts s binds, found =>
    match s.wellFormed binds, natParam binds s.limit, natParam binds s.offset with
    | true, some limit, some offset =>
      ∃ sorted, (s.orderBy.order pg).Sorts (s.rows pg db binds) sorted ∧
        found = some ((sorted.drop offset).take limit)
    | _, _, _ => found = none
  | .fetchCount condition binds, counted =>
    counted = if condition.all (Atom.typed binds) then some (db.matching pg condition binds).length
      else none
  | .latestVersion _ _, _ => True

/-- The request can be answered so. -/
def Gives (auth : AuthUser) (q : HostListQuery) (answer : Except ApiError HostListResponse) : Prop :=
  ∃ exchanges, (listHosts auth q).Returns exchanges answer ∧ ∀ x ∈ exchanges, Answers pg db x.1 x.2

end answers

end PatchManager.Hosts
