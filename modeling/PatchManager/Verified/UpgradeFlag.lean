import PatchManager.Verified.HostList
import PatchManager.Verified.VersionOrder

/-! # The flag of a host and the upgrade of it

The list of hosts takes the version that was published last for the latest, an upgrade without a
version takes one that no other exceeds.  A release of an older branch that is published after a
newer one makes the two differ, and so does a host that has not reported its version: it has no
flag and is upgraded.

Main results:

* `agrees_iff`: exactly for which hosts the flag says what an upgrade does.
* `backported_flagged`: a host is flagged for a version that is older than its own.
-/

namespace PatchManager.Hosts

open PatchManager.Conc PatchManager.Order
open PatchManager.Sql (SortOrder)
open RepoSync (RepoPackage)

variable (pg : Postgres) (rows : List RepoPackage) (os agent : Option String)

/-! ## The flag -/

/-- `ORDER BY published_at DESC NULLS LAST, version DESC`. -/
def newestFirst : SortOrder RepoPackage :=
  ((nullsLast (orderOf Time).reverse).by (·.publishedAt)).andThen (pg.collation.reverse.by (·.version))

/-- The answers of a database with these packages.  The query for the hosts gives every host
    `false` and `NULL` for the two columns. -/
def AnswersWith : Exchange Op Op.Resp → Prop
  | ⟨.fetchHosts _ _, found⟩ => ∀ hosts, found = some hosts → ∀ h ∈ hosts,
      h.upgradeAvailable = false ∧ h.latestVersion = none
  | ⟨.fetchCount _ _, _⟩ => True
  | ⟨.latestVersion distro codename, answer⟩ =>
      ∃ l, (newestFirst pg).Sorts (offered rows distro codename) l ∧ answer = l.head?.map (·.version)

/-- A host is listed with this flag and this version. -/
def Flagged (upgradeAvailable : Bool) (latestVersion : Option String) : Prop :=
  ∃ auth q l response, (listHosts auth q).Returns l (.ok response) ∧ (∀ x ∈ l, AnswersWith pg rows x) ∧
    ∃ h ∈ response.hosts, h.osName = os ∧ h.agentVersion = agent ∧
      h.upgradeAvailable = upgradeAvailable ∧ h.latestVersion = latestVersion

/-! ## The upgrade -/

/-- The query for the versions of a host and the sort after it. -/
def Available (distro : String) (codename : Option String) (available : List String) : Prop :=
  ∃ listed, pg.collation.reverse.Sorts ((offered rows distro codename).map (·.version)).dedup listed ∧
    SortedDesc compareVersions listed available

/-- `resolveVersion` with the versions that are available. -/
def resolveFrom (availableVersions : String → Option String → List String) (targetVersion : Option String)
    (host : Option UpgradeHost) : Except String String := do
  let some host := host | throw "Host not found"
  let some osName := host.osName | throw "Host has no OS information"
  let some (distro, codename) := mapOsToDistro osName | throw ("Unsupported OS: " ++ osName)
  let available := availableVersions distro codename
  let latest :: _ := available | throw "No packages available for this host's OS in the repo"
  let resolved ← match targetVersion with
    | some target =>
      if target ∈ available then pure target else throw ("Version '" ++ target ++ "' not available for this host's OS")
    | none => pure latest
  if host.agentVersion.any fun current => versionBase current == versionBase resolved then
    throw ("Host is already at version " ++ resolved)
  return resolved

theorem resolveVersion_eq : resolveVersion rows = resolveFrom (availableVersions rows) := rfl

/-- What an upgrade without a version may resolve to for a host. -/
def Resolves (result : Except String String) : Prop :=
  ∃ available : String → Option String → List String,
    (∀ distro codename, Available pg rows distro codename (available distro codename)) ∧
      resolveFrom available none (some ⟨os, agent⟩) = result

/-- The flag says what an upgrade does. -/
def Agrees : Prop :=
  ∀ upgradeAvailable latestVersion, Flagged pg rows os agent upgradeAvailable latestVersion →
    ∀ result, Resolves pg rows os agent result →
      ∀ v, upgradeAvailable = true ∧ latestVersion = some v ↔ result = .ok v

/-! ## When they agree -/

section

variable (distro : String) (codename : Option String)

/-- No package was published after one with this version, nor with it and a version later as a text. -/
def Newest (version : String) : Prop :=
  ∃ row ∈ offered rows distro codename, row.version = version ∧
    ∀ other ∈ offered rows distro codename, (newestFirst pg).le row other = true

/-- No version is greater, nor alike and later as a text; where versions are tangled it may be any. -/
structure Foremost (version : String) : Prop where
  mem : version ∈ (offered rows distro codename).map (·.version)
  greatest : (∀ a ∈ (offered rows distro codename).map (·.version),
      ∀ b ∈ (offered rows distro codename).map (·.version),
      ∀ c ∈ (offered rows distro codename).map (·.version), ¬ TangledVersions a b c) →
    ∀ other ∈ (offered rows distro codename).map (·.version), compareVersions other version = .lt ∨
      compareVersions other version = .eq ∧ pg.collation.le other version = true

end

/-! ## What is flagged -/

section

variable {pg rows os agent} {distro : String} {codename : Option String} {upgradeAvailable : Bool}
  {latestVersion : Option String}

theorem latestByPair_lookup {pairs : List (String × Option String)} {l : List (Exchange Op Op.Resp)}
    {latest : List ((String × Option String) × String)} (returns : (latestByPair pairs).Returns l latest)
    (nodup : pairs.Nodup) (key : String × Option String) :
    (key ∈ pairs → ∃ x ∈ l, x = ⟨.latestVersion key.1 key.2, latest.lookup key⟩) ∧
      (key ∉ pairs → latest.lookup key = none) := by
  induction pairs generalizing l latest with
  | nil =>
    obtain ⟨-, rfl⟩ := returns.ret_inv
    simp
  | cons pair pairs ih =>
    obtain ⟨fresh, nodup⟩ := List.nodup_cons.mp nodup
    obtain ⟨answer, l', rfl, later⟩ := returns.op_inv
    have later : ((latestByPair pairs).bind fun others =>
      .ret ((answer.map (pair, ·)).toList ++ others)).Returns l' latest := later
    obtain ⟨others, l₁, l₂, rfl, first, last⟩ := later.bind_inv
    obtain ⟨rfl, rfl⟩ := last.ret_inv
    obtain ⟨asked, unasked⟩ := ih first nodup
    by_cases own : key = pair
    · have found : ((answer.map (pair, ·)).toList ++ others).lookup key = answer := by
        cases answer with
        | none => simpa [own] using unasked (own ▸ fresh)
        | some version => simp [own]
      rw [found]
      exact ⟨fun _ => ⟨_, List.mem_cons_self, by rw [own]⟩, fun missing => absurd (by simp [own]) missing⟩
    · have other : ((answer.map (pair, ·)).toList ++ others).lookup key = others.lookup key := by
        have apart : (key == pair) = false := beq_eq_false_iff_ne.mpr own
        cases answer with
        | none => rfl
        | some version => simp [List.lookup_cons, apart]
      rw [other]
      refine ⟨fun mem => ?_, fun missing => unasked fun mem => missing (List.mem_cons_of_mem _ mem)⟩
      obtain ⟨x, memX, eq⟩ := asked ((List.mem_cons.mp mem).resolve_left own)
      exact ⟨x, by simp [memX], eq⟩

/-- The flag of a host that has been found the version `latestVersion`. -/
def flagFor (agent latestVersion : Option String) : Bool :=
  latestVersion.any fun latest => agent.any fun current => versionBase current != versionBase latest

theorem setLatest_eq (latest : List ((String × Option String) × String)) {h : HostSummary}
    {key : String × Option String} (mapped : h.osName.bind mapOsToDistro = some key)
    (fresh : h.upgradeAvailable = false ∧ h.latestVersion = none) :
    (setLatest latest h).osName = h.osName ∧ (setLatest latest h).agentVersion = h.agentVersion ∧
      (setLatest latest h).upgradeAvailable = flagFor h.agentVersion (latest.lookup key) ∧
      (setLatest latest h).latestVersion = latest.lookup key := by
  cases found : latest.lookup key with
  | none => simp [setLatest, mapped, found, fresh, flagFor]
  | some version =>
    cases reported : h.agentVersion with
    | none => simp [setLatest, mapped, found, fresh, flagFor, reported]
    | some current => simp [setLatest, mapped, found, flagFor, reported, versionNorm, versionBase, Str.splitNext]

/-- A host is listed with what has been found for its system. -/
theorem flagged_inv (flagged : Flagged pg rows os agent upgradeAvailable latestVersion) :
    match os.bind mapOsToDistro with
    | none => upgradeAvailable = false
    | some key =>
      (∃ l, (newestFirst pg).Sorts (offered rows key.1 key.2) l ∧ latestVersion = l.head?.map (·.version)) ∧
        upgradeAvailable = flagFor agent latestVersion := by
  obtain ⟨auth, q, l, response, returns, answers, listed, mem, rfl, rfl, rfl, rfl⟩ := flagged
  rw [listHosts_eq] at returns
  obtain ⟨found, l', rfl, fetched⟩ := returns.op_inv
  cases found with
  | none => cases fetched.ret_inv.2
  | some hosts =>
    obtain ⟨counted, l'', rfl, rest⟩ := fetched.op_inv
    obtain ⟨computed, l₁, l₂, rfl, compute, last⟩ := rest.bind_inv
    obtain ⟨-, eq⟩ := last.ret_inv
    obtain rfl := Except.ok.inj eq
    obtain ⟨latest, l₃, l₄, rfl, lookups, last⟩ := compute.bind_inv
    obtain ⟨-, rfl⟩ := last.ret_inv
    obtain ⟨h, memH, rfl⟩ := List.mem_map.mp mem
    obtain ⟨noFlag, noVersion⟩ := answers _ List.mem_cons_self hosts rfl h memH
    cases mapped : h.osName.bind mapOsToDistro with
    | none => simp [setLatest, mapped, noFlag]
    | some key =>
      obtain ⟨asked, -⟩ := latestByPair_lookup lookups (List.nodup_dedup _) key
      obtain ⟨x, memX, rfl⟩ := asked (List.mem_dedup.mpr (List.mem_filterMap.mpr ⟨h, memH, mapped⟩))
      obtain ⟨sameOs, sameAgent, flag, version⟩ := setLatest_eq latest mapped ⟨noFlag, noVersion⟩
      have newest := answers ⟨.latestVersion key.1 key.2, latest.lookup key⟩
        (List.mem_cons_of_mem _ (List.mem_cons_of_mem _ (by simp [memX])))
      rw [sameOs, mapped, sameAgent, flag, version]
      exact ⟨newest, rfl⟩

/-- Any package that the query may put first is what a host is flagged for. -/
theorem flagged_of (mapped : os.bind mapOsToDistro = some (distro, codename)) {l : List RepoPackage}
    (sorts : (newestFirst pg).Sorts (offered rows distro codename) l) :
    Flagged pg rows os agent (flagFor agent (l.head?.map (·.version))) (l.head?.map (·.version)) := by
  let h : HostSummary :=
    { id := 1, fqdn := "h", ipAddress := "10.0.0.1", displayName := "h", osFamily := none, osName := os
      healthStatus := .healthy, agentVersion := agent, patchesMissing := 0, healthCheckStatus := none
      registeredAt := 0, crlStatus := none, upgradeAvailable := false, latestVersion := none
      pendingReboot := false, rebootPaused := false, packageDbClean := true }
  let newest := l.head?.map (·.version)
  let latest := (newest.map ((distro, codename), ·)).toList
  have computed : (computeUpgradeAvailable [h]).Returns [⟨.latestVersion distro codename, newest⟩] [setLatest latest h] := by
    have pairs : ([h].filterMap fun h => h.osName.bind mapOsToDistro).dedup = [(distro, codename)] := by
      simp [h, mapped]
    have found : (latestByPair [(distro, codename)]).Returns [⟨.latestVersion distro codename, newest⟩] latest := by
      simpa [latest] using latestByPair_returns (fun _ => newest) [(distro, codename)]
    rw [computeUpgradeAvailable, pairs]
    exact found.bind .ret
  have looked : latest.lookup (distro, codename) = newest := by
    cases value : newest <;> simp [latest, value]
  obtain ⟨sameOs, sameAgent, flag, version⟩ := setLatest_eq latest (h := h) mapped ⟨rfl, rfl⟩
  rw [looked] at flag version
  let auth : AuthUser := ⟨1, "admin", .admin⟩
  have returns : (listHosts auth {}).Returns
      [⟨.fetchHosts (pageSelect auth {}) (pageBinds auth {}), some [h]⟩,
        ⟨.fetchCount (countCondition auth {}) (countBinds auth {}), some 1⟩,
        ⟨.latestVersion distro codename, newest⟩]
      (.ok ⟨[setLatest latest h], 1, 50, 0⟩) := by
    rw [listHosts_eq]
    refine .op ?_
    exact Prog.Returns.op (computed.bind .ret)
  refine ⟨auth, {}, _, _, returns, ?_, _, List.mem_singleton_self _, sameOs, sameAgent, flag, version⟩
  simp only [List.forall_mem_cons]
  refine ⟨?_, trivial, ⟨l, sorts, rfl⟩, by simp⟩
  rintro hosts eq other mem
  obtain rfl := Option.some.inj eq
  obtain rfl := List.mem_singleton.mp mem
  exact ⟨rfl, rfl⟩

theorem newest_iff {version : String} :
    Newest pg rows distro codename version ↔ ∃ l, (newestFirst pg).Sorts (offered rows distro codename) l ∧
      l.head?.map (·.version) = some version := by
  constructor
  · rintro ⟨row, mem, rfl, least⟩
    obtain ⟨l, sorts, head⟩ := (newestFirst pg).head_iff.mpr ⟨mem, least⟩
    exact ⟨l, sorts, by rw [head, Option.map_some]⟩
  · rintro ⟨l, sorts, head⟩
    obtain ⟨row, first, rfl⟩ := Option.map_eq_some_iff.mp head
    obtain ⟨mem, least⟩ := (newestFirst pg).head_iff.mp ⟨l, sorts, first⟩
    exact ⟨row, mem, rfl, least⟩

/-! ## What is upgraded -/

theorem coherent_perm {l l' : List String} (perm : l.Perm l') :
    Coherent compareVersions l ↔ Coherent compareVersions l' :=
  ⟨fun coherent => coherent.subset perm.symm.subset, fun coherent => coherent.subset perm.subset⟩

/-- Before an element of a list without duplicates is what is in front of it. -/
theorem mem_of_pair {α : Type} {a b : α} {front back : List α} (nodup : (front ++ a :: back).Nodup)
    (pair : [b, a].Sublist (front ++ a :: back)) : b ∈ front := by
  obtain ⟨s, t, eq, inFront, inBack⟩ := List.sublist_append_iff.mp pair
  cases s with
  | nil =>
    obtain rfl : [b, a] = t := eq
    exact absurd inBack (not_pair_of_head nodup.of_append_right rfl)
  | cons c s =>
    obtain rfl : b = c := (List.cons.inj eq).1
    exact inFront.subset List.mem_cons_self

theorem foremost_iff {version : String} :
    Foremost pg rows distro codename version ↔
      ∃ available, Available pg rows distro codename available ∧ available.head? = some version := by
  set versions := (offered rows distro codename).map (·.version) with versionsEq
  have nodup {listed : List String} (sorts : pg.collation.reverse.Sorts versions.dedup listed) : listed.Nodup :=
    sorts.perm.nodup_iff.mpr (List.nodup_dedup versions)
  have coherent {listed : List String} (sorts : pg.collation.reverse.Sorts versions.dedup listed) :
      Coherent compareVersions listed ↔
        ∀ a ∈ versions, ∀ b ∈ versions, ∀ c ∈ versions, ¬ TangledVersions a b c := by
    rw [coherent_perm sorts.perm, coherent_versions_iff]
    simp only [List.mem_dedup]
  have mem {listed : List String} (sorts : pg.collation.reverse.Sorts versions.dedup listed) (v : String) :
      v ∈ listed ↔ v ∈ versions := by
    rw [sorts.perm.mem_iff, List.mem_dedup]
  constructor
  · intro foremost
    -- the version comes first of those that are the same text to the database
    have rest := pg.collation.reverse.sorts_mergeSort (version :: versions.dedup.erase version)
    have perm : (version :: versions.dedup.erase version).Perm versions.dedup :=
      (List.perm_cons_erase (List.mem_dedup.mpr foremost.mem)).symm
    obtain ⟨front, back, split, -, before⟩ := List.mergeSort_cons pg.collation.reverse.trans
      (by simpa using pg.collation.reverse.total) version (versions.dedup.erase version)
    have sorts : pg.collation.reverse.Sorts versions.dedup (front ++ version :: back) :=
      split ▸ ⟨rest.perm.trans perm, rest.sorted⟩
    obtain ⟨available, sorted, head⟩ : ∃ available, SortedDesc compareVersions (front ++ version :: back) available ∧
        available.head? = some version := (sortedDesc_head_iff (nodup sorts)).mpr
      ⟨(mem sorts version).mpr foremost.mem, fun keeps other memOther => by
        have place := foremost.greatest ((coherent sorts).mp keeps) other ((mem sorts other).mp memOther)
        refine ⟨by rcases place with lt | ⟨eq, -⟩ <;> simp_all, fun alike pair => ?_⟩
        have le : pg.collation.le other version = true :=
          (place.resolve_left (by simp [alike])).2
        have strict := before other (mem_of_pair (nodup sorts) pair)
        simp [SortOrder.reverse, le] at strict⟩
    exact ⟨available, ⟨_, sorts, sorted⟩, head⟩
  · rintro ⟨available, ⟨listed, sorts, sorted⟩, head⟩
    obtain ⟨memVersion, first⟩ := (sortedDesc_head_iff (nodup sorts)).mp ⟨available, sorted, head⟩
    refine ⟨(mem sorts version).mp memVersion, fun untangled other memOther => ?_⟩
    obtain ⟨le, apart⟩ := first ((coherent sorts).mpr untangled) other ((mem sorts other).mpr memOther)
    cases order : compareVersions other version with
    | lt => exact .inl rfl
    | gt => exact absurd order le
    | eq =>
      refine .inr ⟨rfl, ?_⟩
      by_cases same : other = version
      · subst same
        exact (pg.collation.total other other).elim id id
      · have pair := (pair_or_pair ((mem sorts other).mpr memOther) memVersion same).resolve_left (apart order)
        have ordered := sorts.sorted.sublist pair
        exact (List.pairwise_pair (R := fun a b => pg.collation.reverse.le a b = true)).mp ordered

/-- An upgrade of a host whose versions start with `latest`. -/
def upgradeTo (agent : Option String) (latest : String) : Except String String :=
  if agent.any fun current => versionBase current == versionBase latest then
    .error ("Host is already at version " ++ latest)
  else .ok latest

theorem resolveFrom_mapped (mapped : os.bind mapOsToDistro = some (distro, codename))
    (available : String → Option String → List String) :
    resolveFrom available none (some ⟨os, agent⟩) =
      match (available distro codename).head? with
      | none => .error "No packages available for this host's OS in the repo"
      | some latest => upgradeTo agent latest := by
  obtain ⟨osName, rfl, suite⟩ := Option.bind_eq_some_iff.mp mapped
  cases listed : available distro codename with
  | nil =>
    simp only [resolveFrom, suite, listed]
    rfl
  | cons latest rest =>
    simp only [resolveFrom, suite, listed, upgradeTo, List.head?_cons]
    rfl

theorem resolveFrom_unmapped (unmapped : os.bind mapOsToDistro = none)
    (available : String → Option String → List String) (v : String) :
    resolveFrom available none (some ⟨os, agent⟩) ≠ .ok v := by
  cases os with
  | none => simp [resolveFrom, throw, throwThe, MonadExceptOf.throw]
  | some osName =>
    have none : mapOsToDistro osName = none := unmapped
    simp [resolveFrom, none]

/-! ## Agreement -/

theorem available_nil {available : List String} (lists : Available pg rows distro codename available) :
    available = [] ↔ offered rows distro codename = [] := by
  obtain ⟨listed, sorts, sorted⟩ := lists
  have same (v : String) : v ∈ available ↔ v ∈ (offered rows distro codename).map (·.version) := by
    rw [sorted.perm.mem_iff, sorts.perm.mem_iff, List.mem_dedup]
  rw [List.eq_nil_iff_forall_not_mem, List.eq_nil_iff_forall_not_mem]
  simp only [same, List.mem_map, not_exists, not_and]
  exact ⟨fun none row mem => none row.version row mem rfl, fun none _ row mem => absurd mem (none row)⟩

theorem exists_available (pg : Postgres) (rows : List RepoPackage) (distro : String) (codename : Option String) :
    ∃ available, Available pg rows distro codename available :=
  ⟨_, _, pg.collation.reverse.sorts_mergeSort _, sortedDesc_sortDesc _⟩

/-- Any foremost version is what a host may be upgraded to. -/
theorem resolves_of (mapped : os.bind mapOsToDistro = some (distro, codename)) {version : String}
    (foremost : Foremost pg rows distro codename version) : Resolves pg rows os agent (upgradeTo agent version) := by
  obtain ⟨own, lists, head⟩ := foremost_iff.mp foremost
  choose others listsOthers using exists_available pg rows
  refine ⟨fun d c => if d = distro ∧ c = codename then own else others d c, fun d c => ?_, ?_⟩
  · dsimp only
    by_cases here : d = distro ∧ c = codename
    · rw [if_pos here, here.1, here.2]
      exact lists
    · rw [if_neg here]
      exact listsOthers d c
  · rw [resolveFrom_mapped mapped, if_pos ⟨rfl, rfl⟩, head]

theorem upgradeTo_eq_ok {agent : Option String} {latest v : String} :
    upgradeTo agent latest = .ok v ↔ latest = v ∧ ∀ current, agent = some current → versionBase current ≠ versionBase latest := by
  cases agent with
  | none => simp [upgradeTo]
  | some current =>
    by_cases same : versionBase current = versionBase latest <;> simp [upgradeTo, same]

theorem flagFor_eq_true {agent : Option String} {latest : String} :
    flagFor agent (some latest) = true ↔ ∃ current, agent = some current ∧ versionBase current ≠ versionBase latest := by
  cases agent <;> simp [flagFor]

/-- What is needed of a host whose newest version is `newest`, upgraded to `foremost`. -/
theorem agreement_iff {newest foremost : String} :
    (∀ v, flagFor agent (some newest) = true ∧ some newest = some v ↔ upgradeTo agent foremost = .ok v) ↔
      ∃ current, agent = some current ∧ (newest = foremost ∨
        versionBase newest = versionBase current ∧ versionBase foremost = versionBase current) := by
  cases agent with
  | none => simp [flagFor, upgradeTo_eq_ok]
  | some current =>
    simp only [flagFor_eq_true, upgradeTo_eq_ok, Option.some.injEq, exists_eq_left', forall_eq']
    constructor
    · intro agree
      by_cases same : versionBase current = versionBase foremost
      · have unflagged := (agree newest).not.mpr fun upgraded => upgraded.2 same
        exact .inr ⟨by simpa [eq_comm] using unflagged, same.symm⟩
      · exact .inl ((agree foremost).mpr ⟨rfl, same⟩).2
    · rintro (rfl | ⟨sameNewest, sameForemost⟩) v
      · exact and_comm
      · simp [sameNewest, sameForemost]

theorem exists_newest (pg : Postgres) {rows : List RepoPackage} (some : offered rows distro codename ≠ []) :
    ∃ newest, Newest pg rows distro codename newest := by
  have sorts := (newestFirst pg).sorts_mergeSort (offered rows distro codename)
  cases listed : (offered rows distro codename).mergeSort (newestFirst pg).le with
  | nil =>
    rw [listed] at sorts
    exact absurd sorts.perm.nil_eq.symm some
  | cons first rest =>
    rw [listed] at sorts
    exact ⟨first.version, newest_iff.mpr ⟨_, sorts, rfl⟩⟩

theorem exists_foremost (pg : Postgres) {rows : List RepoPackage} (some : offered rows distro codename ≠ []) :
    ∃ foremost, Foremost pg rows distro codename foremost := by
  obtain ⟨available, lists⟩ := exists_available pg rows distro codename
  cases available with
  | nil => exact absurd ((available_nil lists).mp rfl) some
  | cons first rest => exact ⟨first, foremost_iff.mpr ⟨_, lists, rfl⟩⟩

/-- Where the flag says what an upgrade does, it does so for all that the two may choose. -/
theorem Agrees.agreement (agrees : Agrees pg rows os agent) (mapped : os.bind mapOsToDistro = some (distro, codename))
    {newest foremost : String} (new : Newest pg rows distro codename newest)
    (fore : Foremost pg rows distro codename foremost) :
    ∃ current, agent = some current ∧ (newest = foremost ∨
      versionBase newest = versionBase current ∧ versionBase foremost = versionBase current) := by
  obtain ⟨l, sorts, head⟩ := newest_iff.mp new
  have flagged : Flagged pg rows os agent (flagFor agent (l.head?.map (·.version))) (l.head?.map (·.version)) :=
    flagged_of mapped sorts
  rw [head] at flagged
  exact agreement_iff.mp fun v => agrees _ _ flagged _ (resolves_of mapped fore) v

end

/-- The flag says what an upgrade does of a host that is offered nothing, and of one that has
    reported its version if the newest package has the foremost version or both have its own. -/
theorem agrees_iff : Agrees pg rows os agent ↔ ∀ distro codename,
    os.bind mapOsToDistro = some (distro, codename) → offered rows distro codename ≠ [] →
      ∃ current, agent = some current ∧
        ∀ newest, Newest pg rows distro codename newest →
          ∀ foremost, Foremost pg rows distro codename foremost →
            newest = foremost ∨
              versionBase newest = versionBase current ∧ versionBase foremost = versionBase current := by
  constructor
  · intro agrees distro codename mapped packages
    obtain ⟨newest, new⟩ := exists_newest pg packages
    obtain ⟨foremost, fore⟩ := exists_foremost pg packages
    obtain ⟨current, reported, -⟩ := agrees.agreement mapped new fore
    refine ⟨current, reported, fun newest new foremost fore => ?_⟩
    obtain ⟨own, again, same⟩ := agrees.agreement mapped new fore
    obtain rfl := Option.some.inj (reported.symm.trans again)
    exact same
  · intro condition upgradeAvailable latestVersion flagged result resolves v
    obtain ⟨available, lists, rfl⟩ := resolves
    have flag := flagged_inv flagged
    cases mapped : os.bind mapOsToDistro with
    | none =>
      rw [mapped] at flag
      simp [flag, resolveFrom_unmapped mapped]
    | some key =>
      obtain ⟨distro, codename⟩ := key
      rw [mapped] at flag
      obtain ⟨⟨l, sorts, rfl⟩, rfl⟩ := flag
      rw [resolveFrom_mapped mapped]
      cases first : l.head? with
      | none =>
        obtain rfl := List.head?_eq_none_iff.mp first
        have none := (available_nil (lists distro codename)).mpr sorts.perm.nil_eq.symm
        simp [none]
      | some row =>
        have packages : offered rows distro codename ≠ [] :=
          List.ne_nil_of_mem (sorts.perm.subset (List.mem_of_head? first))
        obtain ⟨current, reported, same⟩ := condition distro codename mapped packages
        cases latest : (available distro codename).head? with
        | none =>
          have none := (available_nil (lists distro codename)).mp (List.head?_eq_none_iff.mp latest)
          exact absurd none packages
        | some version =>
          have new : Newest pg rows distro codename row.version := newest_iff.mpr ⟨l, sorts, by rw [first, Option.map_some]⟩
          have fore := foremost_iff.mpr ⟨_, lists distro codename, latest⟩
          exact agreement_iff.mpr ⟨current, reported, same _ new _ fore⟩ v

/-- The order of texts by their bytes. -/
def plainPostgres : Postgres where
  ilike _ _ := false
  collation := orderOf String

/-- A release of the older branch is published last. -/
def backported : List RepoPackage :=
  [{ filename := "linux-patch-api-2.6.12-1-x86_64.pkg.tar.zst", version := "2.6.12-1", distro := "pacman"
     distroCodename := some "x86_64", arch := "x86_64", fileSize := 1000, sha256 := none, publishedAt := some 10 },
   { filename := "linux-patch-api-2.5.3-1-x86_64.pkg.tar.zst", version := "2.5.3-1", distro := "pacman"
     distroCodename := some "x86_64", arch := "x86_64", fileSize := 1000, sha256 := none, publishedAt := some 20 }]

/-- A host with the latest version is flagged for the older one, and not upgraded. -/
theorem backported_flagged : ¬ Agrees plainPostgres backported (some "Arch Linux") (some "2.6.12-1") := by
  intro agrees
  have mapped : (some "Arch Linux").bind mapOsToDistro = some ("pacman", some "x86_64") := by decide +kernel
  have versions : offered backported "pacman" (some "x86_64") = backported := by decide +kernel
  have new : Newest plainPostgres backported "pacman" (some "x86_64") "2.5.3-1" := by
    unfold Newest
    rw [versions]
    exact ⟨_, List.mem_cons_of_mem _ List.mem_cons_self, rfl, by decide +kernel⟩
  have fore : Foremost plainPostgres backported "pacman" (some "x86_64") "2.6.12-1" := by
    refine ⟨?_, fun _ => ?_⟩
    · rw [versions]
      decide +kernel
    · rw [versions]
      decide +kernel
  obtain ⟨current, reported, same | ⟨own, -⟩⟩ := agrees.agreement mapped new fore
  · exact absurd same (by decide)
  · obtain rfl := Option.some.inj reported
    exact absurd own (by decide +kernel)

end PatchManager.Hosts
