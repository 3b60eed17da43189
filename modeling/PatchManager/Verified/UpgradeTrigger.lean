import PatchManager.Engine.Keys
import PatchManager.Engine.Schedule
import PatchManager.Web.Upgrades

/-! # What an upgrade request does

`trigger_upgrade` skips a host that is at its target already, and makes a job for each version
that is left.  The worker judges by its own rule whether an upgrade has reached its target.

Main results: `skipped_iff_succeeded`, where the two rules agree, and `triggerUpgrade_partitions`,
where every host of a request is either skipped or has one row, and the rows are as many as reported.
-/

namespace PatchManager

open PatchManager.Conc PatchManager.Order RepoSync

/-! ## Skipping and succeeding -/

/-- One of the two begins with a `v` that the other lacks, and they agree after it. -/
def DifferByV (a b : List Char) : Prop :=
  (a = 'v' :: b ∧ b.head? ≠ some 'v') ∨ (b = 'v' :: a ∧ a.head? ≠ some 'v')

/-- Drops a leading `v`. -/
def dropV : List Char → List Char
  | 'v' :: rest => rest
  | chars => chars

theorem dropV_cons (rest : List Char) : dropV ('v' :: rest) = rest := rfl

theorem dropV_of_head {chars : List Char} (other : chars.head? ≠ some 'v') : dropV chars = chars := by
  cases chars with
  | nil => rfl
  | cons c rest =>
    unfold dropV
    split
    · rename_i eq
      cases eq
      exact absurd rfl other
    · rfl

/-- What is left of two texts is the same: they are, or they differ by a `v`. -/
theorem dropV_eq_iff {a b : List Char} : dropV a = dropV b ↔ a = b ∨ DifferByV a b := by
  by_cases headA : a.head? = some 'v' <;> by_cases headB : b.head? = some 'v'
  · obtain ⟨a, rfl⟩ := List.head?_eq_some_iff.mp headA
    obtain ⟨b, rfl⟩ := List.head?_eq_some_iff.mp headB
    simp [dropV_cons, DifferByV]
  · obtain ⟨a, rfl⟩ := List.head?_eq_some_iff.mp headA
    rw [dropV_cons, dropV_of_head headB]
    constructor
    · rintro rfl
      exact .inr (.inl ⟨rfl, headB⟩)
    · rintro (rfl | ⟨eq, -⟩ | ⟨-, other⟩)
      · exact absurd headA headB
      · exact (List.cons.inj eq).2
      · exact absurd headA other
  · obtain ⟨b, rfl⟩ := List.head?_eq_some_iff.mp headB
    rw [dropV_cons, dropV_of_head headA]
    constructor
    · rintro rfl
      exact .inr (.inr ⟨rfl, headA⟩)
    · rintro (rfl | ⟨-, other⟩ | ⟨eq, -⟩)
      · exact absurd headB headA
      · exact absurd headB other
      · exact (List.cons.inj eq).2.symm
  · rw [dropV_of_head headA, dropV_of_head headB]
    refine ⟨.inl, ?_⟩
    rintro (eq | ⟨rfl, -⟩ | ⟨rfl, -⟩)
    · exact eq
    · exact absurd rfl headA
    · exact absurd rfl headB

/-- The worker's form of a version is the one of the request without its `v`. -/
theorem normalizeVersion_eq (version : String) :
    normalizeVersion version = String.ofList (dropV (versionBase version)) := by
  unfold normalizeVersion versionBase Str.splitNext
  by_cases head : version.toList.head? = some 'v'
  · obtain ⟨rest, eq⟩ := List.head?_eq_some_iff.mp head
    rw [eq, List.takeWhile_cons_of_pos (by decide), dropV_cons]
    simp only [ne_eq, decide_not]
    rfl
  · have base : (version.toList.takeWhile (· ≠ '-')).head? ≠ some 'v' := by
      cases eq : version.toList with
      | nil => simp
      | cons c rest =>
        rw [eq, List.head?_cons] at head
        rw [List.takeWhile_cons]
        split <;> simp [head]
    rw [dropV_of_head base]
    split
    · rename_i rest eq
      exact absurd (by rw [eq]; rfl) head
    · simp only [ne_eq, decide_not]
      rfl

theorem succeeded_iff (current target : String) (old : Option String) :
    decideSelfUpgradeReconnectResult current (some target) old = .succeeded ↔
      versionBase current = versionBase target ∨ DifferByV (versionBase current) (versionBase target) := by
  rw [← dropV_eq_iff]
  simp [decideSelfUpgradeReconnectResult, normalizeVersion_eq, String.ofList_inj]

/-- The test of the current version comes last. -/
theorem resolveVersion_current {rows : List RepoPackage} {requested : Option String} {osName target : String}
    (resolved : resolveVersion rows requested (some ⟨some osName, none⟩) = .ok target) (current : String) :
    resolveVersion rows requested (some ⟨some osName, some current⟩) =
      if versionBase current = versionBase target then .error ("Host is already at version " ++ target)
      else .ok target := by
  cases mapped : mapOsToDistro osName with
  | none =>
    simp only [resolveVersion, mapped] at resolved
    cases resolved
  | some suite =>
    obtain ⟨distro, codename⟩ := suite
    simp only [resolveVersion, mapped] at resolved ⊢
    cases available : availableVersions rows distro codename with
    | nil =>
      simp only [available] at resolved
      cases resolved
    | cons latest rest =>
      simp only [available] at resolved
      cases requested with
      | none =>
        cases resolved
        simp only [Option.any_some, beq_iff_eq]
        rfl
      | some asked =>
        by_cases mem : asked ∈ latest :: rest
        · simp only [if_pos mem] at resolved ⊢
          cases resolved
          simp only [Option.any_some, beq_iff_eq]
          rfl
        · simp only [if_neg mem] at resolved
          cases resolved

/-- The request skips a host as being at the version. -/
def SkipsAsCurrent (rows : List RepoPackage) (requested : Option String) (osName current target : String) : Prop :=
  resolveVersion rows requested (some ⟨some osName, some current⟩) =
    .error ("Host is already at version " ++ target)

/-- A host is skipped exactly if its version is judged a success, unless one version has a `v` that
    the other lacks. -/
theorem skipped_iff_succeeded (rows : List RepoPackage) (requested : Option String) (osName target : String)
    (resolved : resolveVersion rows requested (some ⟨some osName, none⟩) = .ok target)
    (current : String) (old : Option String) :
    (SkipsAsCurrent rows requested osName current target ↔
        decideSelfUpgradeReconnectResult current (some target) old = .succeeded) ↔
      ¬ DifferByV (versionBase current) (versionBase target) := by
  have skips : SkipsAsCurrent rows requested osName current target ↔
      versionBase current = versionBase target := by
    rw [SkipsAsCurrent, resolveVersion_current resolved current]
    split
    · rename_i same
      exact ⟨fun _ => same, fun _ => rfl⟩
    · rename_i other
      exact ⟨nofun, fun same => absurd same other⟩
  rw [skips, succeeded_iff]
  constructor
  · intro agree differ
    have same := agree.mpr (.inr differ)
    rw [same] at differ
    rcases differ with ⟨eq, -⟩ | ⟨eq, -⟩ <;> simp at eq
  · intro alike
    exact ⟨.inl, fun either => either.resolve_right alike⟩

namespace Small

def package : RepoPackage where
  filename := "linux-patch-api_2.6.11_u2404_amd64.deb"
  version := "2.6.11"
  distro := "apt"
  distroCodename := some "u2404"
  arch := "amd64"
  fileSize := 1
  sha256 := none
  publishedAt := none

theorem resolved_package : resolveVersion [package] none (some ⟨some "Ubuntu 24.04", none⟩) = .ok "2.6.11" := by
  have found : availableVersions [package] "apt" (some "u2404") = ["2.6.11"] := by
    have offers : offered [package] "apt" (some "u2404") = [package] := by decide +kernel
    rw [availableVersions, offers]
    simp [package]
  have mapped : mapOsToDistro "Ubuntu 24.04" = some ("apt", some "u2404") := by decide +kernel
  simp only [resolveVersion, mapped, found]
  rfl

end Small

theorem skipped_iff_succeeded_revision : SkipsAsCurrent [Small.package] none "Ubuntu 24.04" "2.6.11-1" "2.6.11" ↔
    decideSelfUpgradeReconnectResult "2.6.11-1" (some "2.6.11") (some "2.6.10") = .succeeded :=
  (skipped_iff_succeeded [Small.package] none "Ubuntu 24.04" "2.6.11" Small.resolved_package "2.6.11-1"
    (some "2.6.10")).mpr (by unfold DifferByV; decide +kernel)

/-- A host that reports its version with a `v` is upgraded to what it runs. -/
theorem v_not_skipped : ¬ ∀ (rows : List RepoPackage) (requested : Option String) (osName target : String),
    resolveVersion rows requested (some ⟨some osName, none⟩) = .ok target → ∀ (current : String) (old : Option String),
      (SkipsAsCurrent rows requested osName current target ↔
        decideSelfUpgradeReconnectResult current (some target) old = .succeeded) := by
  intro all
  have agree := all [Small.package] none "Ubuntu 24.04" "2.6.11" Small.resolved_package "v2.6.11" none
  have skipped := agree.mpr (by decide +kernel)
  rw [SkipsAsCurrent, resolveVersion_current Small.resolved_package, if_neg (by decide +kernel)] at skipped
  cases skipped

/-! ## Looking the hosts up -/

variable {w w' : UpgradeWorld}

/-- What the tables say about a host. -/
def versionFor (w : UpgradeWorld) (targetVersion : Option String) (hostId : Uuid) : Except String String :=
  resolveVersion w.2.repoPackages targetVersion (upgradeHost w hostId)

/-- The request is alone: nothing else changes the tables meanwhile. -/
abbrev UpgradeProc.Alone {α : Type} (p : UpgradeProc α) (w w' : UpgradeWorld) (value : α) : Prop :=
  p.Among (alongside exec upgradeExec) Eq w w' value

theorem resolveHost_alone {targetVersion : Option String} {hostId : Uuid} {found : Except String String}
    (alone : (resolveHost targetVersion hostId).Alone w w' (.ok found)) :
    w' = w ∧ found = versionFor w targetVersion hostId := by
  obtain ⟨answer, w₁, w₂, ⟨same, answered⟩, moved, later⟩ := alone.op_inv
  subst same moved
  obtain ⟨reason, rfl⟩ | rfl := answered
  · cases later.ret_inv.2
  unfold versionFor
  cases known : upgradeHost w₁ hostId with
  | none =>
    rw [known] at later
    obtain ⟨rfl, eq⟩ := later.ret_inv
    exact ⟨rfl, Except.ok.inj eq⟩
  | some host =>
    rw [known] at later
    obtain ⟨osName, agentVersion⟩ := host
    cases osName with
    | none =>
      obtain ⟨rfl, eq⟩ := later.ret_inv
      exact ⟨rfl, Except.ok.inj eq⟩
    | some osName =>
      simp only [resolveVersion]
      cases mapped : mapOsToDistro osName with
      | none =>
        simp only [Prog.ret_bind, mapped] at later
        obtain ⟨rfl, eq⟩ := later.ret_inv
        exact ⟨rfl, Except.ok.inj eq⟩
      | some suite =>
        obtain ⟨distro, codename⟩ := suite
        simp only [Prog.ret_bind, mapped] at later
        obtain ⟨answer, w₂, w₃, ⟨same, answered⟩, moved, last⟩ := later.op_inv
        subst same moved
        obtain ⟨reason, rfl⟩ | rfl := answered
        · cases last.ret_inv.2
        · obtain ⟨rfl, eq⟩ := last.ret_inv
          exact ⟨rfl, Except.ok.inj eq⟩

/-- When no query fails, the host gets its answer. -/
theorem alone_resolveHost (w : UpgradeWorld) (targetVersion : Option String) (hostId : Uuid) :
    (resolveHost targetVersion hostId).Alone w w (.ok (versionFor w targetVersion hostId)) := by
  refine .stay ⟨rfl, .inr rfl⟩ ?_
  unfold versionFor
  rcases upgradeHost w hostId with _ | ⟨_ | osName, agentVersion⟩
  · exact .ret
  · exact .ret
  · simp only [Prog.ret_bind, resolveVersion]
    rcases mapOsToDistro osName with _ | ⟨distro, codename⟩
    · exact .ret
    · exact .stay ⟨rfl, .inr rfl⟩ .ret

/-- The hosts that are skipped, in the order they were named in. -/
def skippedOf (w : UpgradeWorld) (targetVersion : Option String) (hostIds : List Uuid) : List SkippedHost :=
  hostIds.filterMap fun hostId =>
    match versionFor w targetVersion hostId with
    | .error reason => some ⟨hostId, reason⟩
    | .ok _ => none

/-- The hosts that are left, with what they are upgraded to. -/
def validOf (w : UpgradeWorld) (targetVersion : Option String) (hostIds : List Uuid) : List (Uuid × String) :=
  hostIds.filterMap fun hostId =>
    match versionFor w targetVersion hostId with
    | .error _ => none
    | .ok version => some (hostId, version)

theorem resolveEach_alone {targetVersion : Option String} {hostIds : List Uuid}
    {skipped skipped' : List SkippedHost} {valid valid' : List (Uuid × String)}
    (alone : (resolveEach targetVersion skipped valid hostIds).Alone w w' (.ok (skipped', valid'))) :
    w' = w ∧ skipped' = skipped ++ skippedOf w targetVersion hostIds ∧
      valid' = valid ++ validOf w targetVersion hostIds := by
  induction hostIds generalizing skipped valid w with
  | nil =>
    obtain ⟨rfl, eq⟩ := alone.ret_inv
    cases eq
    simp [skippedOf, validOf]
  | cons hostId rest ih =>
    obtain ⟨found, w₁, first, later⟩ := Prog.Among.bind_inv alone
    cases found with
    | error e => cases later.ret_inv.2
    | ok found =>
      obtain ⟨rfl, rfl⟩ := resolveHost_alone first
      cases version : versionFor w₁ targetVersion hostId with
      | error reason =>
        rw [version] at later
        obtain ⟨same, skips, valids⟩ := ih later
        simp [same, skips, valids, skippedOf, validOf, version]
      | ok version' =>
        rw [version] at later
        obtain ⟨same, skips, valids⟩ := ih later
        simp [same, skips, valids, skippedOf, validOf, version]

theorem alone_resolveEach (w : UpgradeWorld) (targetVersion : Option String) (hostIds : List Uuid)
    (skipped : List SkippedHost) (valid : List (Uuid × String)) :
    (resolveEach targetVersion skipped valid hostIds).Alone w w
      (.ok (skipped ++ skippedOf w targetVersion hostIds, valid ++ validOf w targetVersion hostIds)) := by
  induction hostIds generalizing skipped valid with
  | nil =>
    simp only [skippedOf, validOf, List.filterMap_nil, List.append_nil]
    exact .ret
  | cons hostId rest ih =>
    refine (alone_resolveHost w targetVersion hostId).bind ?_
    cases version : versionFor w targetVersion hostId with
    | error reason =>
      have later := ih (skipped ++ [⟨hostId, reason⟩]) valid
      rw [List.append_assoc] at later
      simp only [skippedOf, validOf, List.filterMap_cons, version]
      exact later
    | ok version' =>
      have later := ih skipped (valid ++ [(hostId, version')])
      rw [List.append_assoc] at later
      simp only [skippedOf, validOf, List.filterMap_cons, version]
      exact later

/-! ## Inserting the rows -/

variable {db db' : Db} {v v' : World}

/-- The version a job upgrades its hosts to. -/
def Db.targetVersion (db : Db) (jobId : Uuid) : Option String :=
  (db.job jobId).bind fun j => (j.patchSelection.get? "target_version").bind Json.asStr?

/-- The identifiers of jobs are below the next one. -/
structure Issued (db : Db) : Prop where
  jobs : ∀ j ∈ db.patchJobs, j.id < db.nextId
  hosts : ∀ r ∈ db.patchJobHosts, r.jobId < db.nextId

/-- Rows have been added and none has changed. -/
structure Grown (db db' : Db) (jobs : List PatchJob) (rows : List PatchJobHost) : Prop where
  patchJobs : db'.patchJobs = db.patchJobs ++ jobs
  patchJobHosts : db'.patchJobHosts = db.patchJobHosts ++ rows
  nextId : db.nextId ≤ db'.nextId
  newJobs : ∀ j ∈ jobs, db.nextId ≤ j.id
  newRows : ∀ r ∈ rows, db.nextId ≤ r.jobId

theorem sql_of_exec {st : Stmt} {result : st.Result} (done : exec v (.sql st) (.ok result) v') :
    ∃ db, st.run v.db = some (result, db) ∧ v' = { v with db } := by
  obtain ⟨_, eq, -⟩ | ⟨_, db, ran, eq, rfl⟩ := done
  · cases eq
  · cases eq
    exact ⟨db, ran, rfl⟩

/-- The rows of a job after hosts have been inserted: one for each that has none yet. -/
structure HostsAdded (db db' : Db) (jobId : Uuid) (hostIds : List Uuid) (rows : List PatchJobHost) : Prop where
  patchJobs : db'.patchJobs = db.patchJobs
  patchJobHosts : db'.patchJobHosts = db.patchJobHosts ++ rows
  nextId : db.nextId ≤ db'.nextId
  ofJob : ∀ r ∈ rows, r.jobId = jobId
  once : (rows.map PatchJobHost.hostId).Nodup
  each : ∀ hostId, hostId ∈ rows.map PatchJobHost.hostId ↔
    hostId ∈ hostIds ∧ hostId ∉ (db.hostsOf jobId).map PatchJobHost.hostId

theorem insertHosts_alone {jobId : Uuid} {hostIds : List Uuid}
    (alone : (insertHosts jobId hostIds).Among exec Eq v v' (.ok ())) :
    ∃ rows, HostsAdded v.db v'.db jobId hostIds rows := by
  induction hostIds generalizing v with
  | nil =>
    obtain ⟨rfl, -⟩ := alone.ret_inv
    exact ⟨[], by constructor <;> simp⟩
  | cons hostId rest ih =>
    obtain ⟨answer, v₁, v₂, done, moved, later⟩ := alone.op_inv
    subst moved
    cases answer with
    | error reason => cases later.ret_inv.2
    | ok affected =>
      obtain ⟨rows, added⟩ := ih later
      obtain ⟨db, ran, rfl⟩ := sql_of_exec done
      simp only [Stmt.run, Option.ite_none_right_eq_some] at ran
      obtain ⟨-, ran⟩ := ran
      split at ran
      · -- the host has a row of the job
        rename_i there
        cases ran
        refine ⟨rows, { added with each := fun other => ?_ }⟩
        have taken : hostId ∈ (v.db.hostsOf jobId).map PatchJobHost.hostId := by
          obtain ⟨r, mem, eq⟩ := List.any_eq_true.mp there
          exact List.mem_map.mpr ⟨r, mem, by simpa using eq⟩
        rw [added.each other, List.mem_cons]
        constructor
        · rintro ⟨mem, free⟩
          exact ⟨.inr mem, free⟩
        · rintro ⟨rfl | mem, free⟩
          · exact absurd taken free
          · exact ⟨mem, free⟩
      · rename_i free
        cases ran
        have absent : hostId ∉ (v.db.hostsOf jobId).map PatchJobHost.hostId := by
          intro taken
          obtain ⟨r, mem, eq⟩ := List.mem_map.mp taken
          exact free (List.any_eq_true.mpr ⟨r, mem, by simpa using eq⟩)
        have before : ((v.db.insertJobHost jobId hostId).hostsOf jobId).map PatchJobHost.hostId =
            (v.db.hostsOf jobId).map PatchJobHost.hostId ++ [hostId] := by
          simp [Db.hostsOf, Db.insertJobHost]
        have each := added.each
        rw [before] at each
        exact
          ⟨{ id := v.db.nextId, jobId, hostId } :: rows,
            { patchJobs := added.patchJobs
              patchJobHosts := by rw [added.patchJobHosts]; simp [Db.insertJobHost]
              nextId := Nat.le_trans (Nat.le_succ _) added.nextId
              ofJob := by simpa using added.ofJob
              once := List.nodup_cons.mpr ⟨by simp [each], added.once⟩
              each := fun other => by
                rw [List.map_cons, List.mem_cons, each, List.mem_cons]
                by_cases same : other = hostId
                · simp [same, absent]
                · simp [same] }⟩

theorem Db.targetVersion_of_grown {jobs : List PatchJob} {rows : List PatchJobHost} {jobId : Uuid}
    (grown : Grown db db' jobs rows) (below : jobId < db.nextId) :
    db'.targetVersion jobId = db.targetVersion jobId := by
  unfold Db.targetVersion Db.job
  cases found : Sql.lookup PatchJob.id jobId db.patchJobs with
  | some j => rw [grown.patchJobs, Sql.lookup_append found]
  | none =>
    cases found' : Sql.lookup PatchJob.id jobId db'.patchJobs with
    | none => rfl
    | some j =>
      rw [grown.patchJobs] at found'
      obtain old | ⟨-, new, same⟩ := Sql.lookup_append_cases found'
      · rw [found] at old
        cases old
      · exact absurd (grown.newJobs j new) (Nat.not_le.mpr (same ▸ below))

theorem Issued.targetVersion_insertJob (issued : Issued db) (auth : AuthUser) (immediate : Bool)
    (window : Option Uuid) (version : String) :
    (db.insertJob (upgradeJob auth immediate window version)).targetVersion db.nextId = some version := by
  have none : Sql.lookup PatchJob.id db.nextId db.patchJobs = none := by
    refine List.find?_eq_none.mpr fun j mem same => ?_
    exact Nat.ne_of_lt (issued.jobs j mem) (by simpa using same)
  have found : (db.insertJob (upgradeJob auth immediate window version)).job db.nextId =
      some ((upgradeJob auth immediate window version).row db.nextId db.now) := by
    simp only [Db.job, Db.insertJob, Sql.lookup] at none ⊢
    rw [List.find?_append, none]
    simp [NewJob.row]
  rw [Db.targetVersion, found]
  rfl

theorem Issued.insertJob (issued : Issued db) (new : NewJob) : Issued (db.insertJob new) where
  jobs j mem := by
    rcases List.mem_append.mp mem with old | last
    · exact Nat.lt_succ_of_lt (issued.jobs j old)
    · obtain rfl := List.mem_singleton.mp last
      exact Nat.lt_succ_self _
  hosts r mem := Nat.lt_succ_of_lt (issued.hosts r mem)

theorem HostsAdded.issued {jobId : Uuid} {hostIds : List Uuid} {rows : List PatchJobHost}
    (added : HostsAdded db db' jobId hostIds rows) (issued : Issued db) (below : jobId < db.nextId) :
    Issued db' where
  jobs j mem := by
    rw [added.patchJobs] at mem
    exact Nat.lt_of_lt_of_le (issued.jobs j mem) added.nextId
  hosts r mem := by
    rw [added.patchJobHosts] at mem
    rcases List.mem_append.mp mem with old | new
    · exact Nat.lt_of_lt_of_le (issued.hosts r old) added.nextId
    · exact Nat.lt_of_lt_of_le (added.ofJob r new ▸ below) added.nextId

/-- A job that has no rows gets one for each host. -/
theorem HostsAdded.perm {jobId : Uuid} {hostIds : List Uuid} {rows : List PatchJobHost}
    (added : HostsAdded db db' jobId hostIds rows) (none : db.hostsOf jobId = []) :
    (rows.map PatchJobHost.hostId).Perm hostIds.dedup := by
  refine (List.perm_ext_iff_of_nodup added.once (List.nodup_dedup _)).mpr fun hostId => ?_
  rw [added.each, none]
  simp

/-- Each group has a job of its own with one row for each of its hosts. -/
structure GroupsAdded (db db' : Db) (groups : List (String × List Uuid)) (jobs : List PatchJob)
    (rows : List PatchJobHost) : Prop extends Grown db db' jobs rows where
  issued : Issued db'
  perm : (rows.map fun r => (r.hostId, db'.targetVersion r.jobId)).Perm
    (groups.flatMap fun group => group.2.dedup.map fun hostId => (hostId, some group.1))

theorem insertUpgradeGroups_alone {auth : AuthUser} {immediate : Bool} {window : Option Uuid}
    {groups : List (String × List Uuid)} {first jobId : Uuid} (issued : Issued v.db)
    (alone : (insertUpgradeGroups auth immediate window first groups).Among exec Eq v v' (.ok jobId)) :
    ∃ jobs rows, GroupsAdded v.db v'.db groups jobs rows := by
  induction groups generalizing v first with
  | nil =>
    obtain ⟨rfl, -⟩ := alone.ret_inv
    exact ⟨[], [], { issued, patchJobs := by simp, patchJobHosts := by simp, nextId := le_rfl
                     newJobs := by simp, newRows := by simp, perm := by simp }⟩
  | cons group rest ih =>
    obtain ⟨answer, v₁, v₂, done, moved, later⟩ := alone.op_inv
    subst moved
    cases answer with
    | error reason => cases later.ret_inv.2
    | ok newId =>
      simp only [Prog.ret_bind] at later
      obtain ⟨inserted, v₂, hostRows, others⟩ := later.bind_inv
      cases inserted with
      | error e => cases others.ret_inv.2
      | ok done' =>
        obtain ⟨version, hostIds⟩ := group
        obtain ⟨db₁, ran, rfl⟩ := sql_of_exec done
        simp only [Stmt.run, Option.ite_none_right_eq_some] at ran
        obtain ⟨-, ran⟩ := ran
        cases ran
        obtain ⟨rows₁, added⟩ := insertHosts_alone hostRows
        have issued₁ := issued.insertJob (upgradeJob auth immediate window version)
        have issued₂ := added.issued issued₁ (Nat.lt_succ_self _)
        have below : v.db.nextId < v₂.db.nextId := Nat.lt_of_lt_of_le (Nat.lt_succ_self _) added.nextId
        obtain ⟨jobs, rows, rest⟩ := ih issued₂ others
        have none : (v.db.insertJob (upgradeJob auth immediate window version)).hostsOf v.db.nextId = [] := by
          refine List.filter_eq_nil_iff.mpr fun r mem same => ?_
          exact Nat.ne_of_lt (issued.hosts r mem) (by simpa using same)
        have target : v'.db.targetVersion v.db.nextId = some version := by
          rw [Db.targetVersion_of_grown rest.toGrown below, Db.targetVersion, Db.job, added.patchJobs]
          exact issued.targetVersion_insertJob auth immediate window version
        refine ⟨(upgradeJob auth immediate window version).row v.db.nextId v.db.now :: jobs, rows₁ ++ rows,
          { issued := rest.issued
            patchJobs := by rw [rest.patchJobs, added.patchJobs]; simp [Db.insertJob]
            patchJobHosts := by rw [rest.patchJobHosts, added.patchJobHosts]; simp [Db.insertJob]
            nextId := Nat.le_trans (Nat.le_of_lt below) rest.nextId
            newJobs := fun j mem => ?_, newRows := fun r mem => ?_, perm := ?_ }⟩
        · rcases List.mem_cons.mp mem with rfl | new
          · exact le_rfl
          · exact Nat.le_trans (Nat.le_of_lt below) (rest.newJobs j new)
        · rcases List.mem_append.mp mem with first | later
          · exact (added.ofJob r first).ge
          · exact Nat.le_trans (Nat.le_of_lt below) (rest.newRows r later)
        · rw [List.map_append, List.flatMap_cons]
          refine List.Perm.append ?_ rest.perm
          have same : (rows₁.map fun r => (r.hostId, v'.db.targetVersion r.jobId)) =
              (rows₁.map PatchJobHost.hostId).map fun hostId => (hostId, some version) := by
            rw [List.map_map]
            exact List.map_congr_left fun r mem => by simp [added.ofJob r mem, target]
          rw [same]
          exact (added.perm none).map _

/-! ## The request as a whole -/

/-- The rows of the jobs that were not there before. -/
def createdRows (db db' : Db) : List PatchJobHost :=
  db'.patchJobHosts.filter fun r => (db.job r.jobId).isNone

theorem Grown.createdRows_eq {jobs : List PatchJob} {rows : List PatchJobHost} (grown : Grown db db' jobs rows)
    (issued : Issued db) (parents : ∀ r ∈ db.patchJobHosts, (db.job r.jobId).isSome = true) :
    createdRows db db' = rows := by
  unfold createdRows
  rw [grown.patchJobHosts, List.filter_append, List.filter_eq_nil_iff.mpr, List.filter_eq_self.mpr,
    List.nil_append]
  · intro r mem
    refine Option.isNone_iff_eq_none.mpr (List.find?_eq_none.mpr fun j there same => ?_)
    have below := issued.jobs j there
    rw [show j.id = r.jobId by simpa using same] at below
    exact Nat.not_le.mpr below (grown.newRows r mem)
  · intro r mem none
    simpa [Option.isNone_iff_eq_none.mp none] using parents r mem

theorem Grown.refl (db : Db) : Grown db db [] [] := by
  constructor <;> simp

theorem insertUpgradeJobs_alone {auth : AuthUser} {immediate : Bool} {window : Option Uuid}
    {groups : List (String × List Uuid)} {skippedCount : Nat} {jobId : Uuid} (issued : Issued v.db)
    (alone : (insertUpgradeJobs auth immediate window groups skippedCount).Among exec Eq v v' (.ok jobId)) :
    ∃ jobs rows, GroupsAdded v.db v'.db groups jobs rows := by
  obtain ⟨inserted, v₁, first, later⟩ := Prog.Among.bind_inv alone
  cases inserted with
  | error e => cases later.ret_inv.2
  | ok firstJobId =>
    obtain ⟨_, v₂, v₃, logged, moved, last⟩ := later.op_inv
    obtain ⟨rfl, -⟩ := last.ret_inv
    cases logged
    subst moved
    exact insertUpgradeGroups_alone issued first

/-- The rows that a request has created are for the hosts that it has not skipped. -/
structure Triggered (w w' : UpgradeWorld) (req : TriggerUpgradeRequest) (resp : TriggerUpgradeResponse) : Prop where
  skipped : resp.skipped = skippedOf w req.targetVersion req.hostIds
  hostCount : resp.hostCount = (validOf w req.targetVersion req.hostIds).length
  rows : ((createdRows w.1.db w'.1.db).map fun r => (r.hostId, w'.1.db.targetVersion r.jobId)).Perm
    ((validOf w req.targetVersion req.hostIds).dedup.map fun entry => (entry.1, some entry.2))

theorem triggerUpgrade_alone {auth : AuthUser} {req : TriggerUpgradeRequest} {resp : TriggerUpgradeResponse}
    (issued : Issued w.1.db) (parents : ∀ r ∈ w.1.db.patchJobHosts, (w.1.db.job r.jobId).isSome = true)
    (alone : (triggerUpgrade auth req).Alone w w' (.ok resp)) : Triggered w w' req resp := by
  unfold triggerUpgrade at alone
  split at alone
  · cases alone.ret_inv.2
  split at alone
  · cases alone.ret_inv.2
  obtain ⟨found, w₁, lookedUp, later⟩ := Prog.Among.bind_inv alone
  cases found with
  | error e => cases later.ret_inv.2
  | ok found =>
    obtain ⟨skipped, valid⟩ := found
    obtain ⟨rfl, skips, valids⟩ := resolveEach_alone lookedUp
    rw [List.nil_append] at skips valids
    subst skips valids
    dsimp only at later
    split at later
    · rename_i none
      obtain ⟨rfl, eq⟩ := later.ret_inv
      cases eq
      have none : validOf w' req.targetVersion req.hostIds = [] := by simpa using none
      refine ⟨rfl, by rw [none]; rfl, ?_⟩
      rw [(Grown.refl w'.1.db).createdRows_eq issued parents, none]
      exact List.Perm.nil
    · obtain ⟨inserted, w₂, jobs, last⟩ := Prog.Among.bind_inv later
      cases inserted with
      | error e => cases last.ret_inv.2
      | ok jobId =>
        obtain ⟨rfl, eq⟩ := last.ret_inv
        cases eq
        obtain ⟨jobs, rows, added⟩ := insertUpgradeJobs_alone issued jobs.of_extend.1
        refine ⟨rfl, length_groups _, ?_⟩
        rw [added.createdRows_eq issued parents]
        refine added.perm.trans ?_
        have targets := (perm_dedup (validOf w₁ req.targetVersion req.hostIds)).map
          fun entry : Uuid × String => (entry.1, some entry.2)
        simpa [List.map_flatMap, Function.comp_def] using targets

/-! ## Every host once -/

/-- What a request promises. -/
structure UpgradePartition (w w' : UpgradeWorld) (req : TriggerUpgradeRequest) (resp : TriggerUpgradeResponse) :
    Prop where
  /-- a host is skipped, or it has one row and that is of a job for its version -/
  either : ∀ hostId ∈ req.hostIds,
    ((∃ r version, (createdRows w.1.db w'.1.db).filter (fun r => r.hostId == hostId) = [r] ∧
        versionFor w req.targetVersion hostId = .ok version ∧ w'.1.db.targetVersion r.jobId = some version) ∧
      hostId ∉ resp.skipped.map SkippedHost.hostId) ∨
    ((createdRows w.1.db w'.1.db).filter (fun r => r.hostId == hostId) = [] ∧
      hostId ∈ resp.skipped.map SkippedHost.hostId)
  counted : resp.hostCount = (createdRows w.1.db w'.1.db).length

/-- No host that can be upgraded is named twice. -/
def NamedOnce (w : UpgradeWorld) (req : TriggerUpgradeRequest) : Prop :=
  (req.hostIds.filter fun hostId => (versionFor w req.targetVersion hostId).isOk).Nodup

variable {targetVersion : Option String} {hostIds : List Uuid} {hostId : Uuid} {version : String}

theorem mem_validOf : (hostId, version) ∈ validOf w targetVersion hostIds ↔
    hostId ∈ hostIds ∧ versionFor w targetVersion hostId = .ok version := by
  rw [validOf, List.mem_filterMap]
  constructor
  · rintro ⟨id, mem, eq⟩
    split at eq
    · cases eq
    case h_2 found =>
      cases eq
      exact ⟨mem, found⟩
  · rintro ⟨mem, found⟩
    exact ⟨hostId, mem, by rw [found]⟩

theorem mem_skippedOf : hostId ∈ (skippedOf w targetVersion hostIds).map SkippedHost.hostId ↔
    hostId ∈ hostIds ∧ (versionFor w targetVersion hostId).isOk = false := by
  rw [skippedOf, List.map_filterMap, List.mem_filterMap]
  constructor
  · rintro ⟨id, mem, eq⟩
    cases found : versionFor w targetVersion id with
    | error reason =>
      rw [found] at eq
      cases eq
      exact ⟨mem, by rw [found]; rfl⟩
    | ok version =>
      rw [found] at eq
      cases eq
  · rintro ⟨mem, skips⟩
    refine ⟨hostId, mem, ?_⟩
    cases found : versionFor w targetVersion hostId with
    | error reason => rfl
    | ok version =>
      rw [found] at skips
      cases skips

theorem map_validOf : (validOf w targetVersion hostIds).map Prod.fst =
    hostIds.filter fun hostId => (versionFor w targetVersion hostId).isOk := by
  rw [validOf, List.map_filterMap, ← List.filterMap_eq_filter]
  refine List.filterMap_congr fun hostId _ => ?_
  cases found : versionFor w targetVersion hostId with
  | error reason => simp [found, Except.isOk, Except.toBool, Option.guard]
  | ok version => simp [found, Except.isOk, Except.toBool, Option.guard]

theorem nodup_validOf : (validOf w targetVersion hostIds).Nodup ↔
    (hostIds.filter fun hostId => (versionFor w targetVersion hostId).isOk).Nodup := by
  rw [← map_validOf]
  refine ⟨fun once => once.map_on ?_, List.Nodup.of_map _⟩
  rintro ⟨a, va⟩ memA ⟨b, vb⟩ memB (rfl : a = b)
  have same := (mem_validOf.mp memA).2.symm.trans (mem_validOf.mp memB).2
  rw [Except.ok.inj same]

theorem Triggered.row {req : TriggerUpgradeRequest} {resp : TriggerUpgradeResponse}
    (triggered : Triggered w w' req resp) (mem : hostId ∈ req.hostIds)
    (found : versionFor w req.targetVersion hostId = .ok version) :
    ∃ r, (createdRows w.1.db w'.1.db).filter (fun r => r.hostId == hostId) = [r] ∧
      w'.1.db.targetVersion r.jobId = some version := by
  have entry := mem_validOf.mpr ⟨mem, found⟩
  have only : ((validOf w req.targetVersion req.hostIds).dedup.filter fun entry => entry.1 == hostId) =
      [(hostId, version)] := by
    have same : ((validOf w req.targetVersion req.hostIds).dedup.filter fun entry => entry.1 == hostId) =
        (validOf w req.targetVersion req.hostIds).dedup.filter (· == (hostId, version)) := by
      refine List.filter_congr fun other there => ?_
      obtain ⟨id, version'⟩ := other
      have found' := (mem_validOf.mp (List.mem_dedup.mp there)).2
      by_cases eq : id = hostId
      · subst eq
        rw [found] at found'
        simp [Except.ok.inj found']
      · simp [eq]
    rw [same, List.filter_beq, List.count_eq_one_of_mem (List.nodup_dedup _) (List.mem_dedup.mpr entry)]
    rfl
  have rows := triggered.rows.filter fun entry => entry.1 == hostId
  rw [List.filter_map, List.filter_map] at rows
  simp only [Function.comp_def, only] at rows
  obtain ⟨r, eq, pair⟩ := List.map_eq_singleton_iff.mp (List.perm_singleton.mp rows)
  exact ⟨r, eq, (Prod.mk.inj pair).2⟩

theorem Triggered.no_row {req : TriggerUpgradeRequest} {resp : TriggerUpgradeResponse}
    (triggered : Triggered w w' req resp) (skips : (versionFor w req.targetVersion hostId).isOk = false) :
    (createdRows w.1.db w'.1.db).filter (fun r => r.hostId == hostId) = [] := by
  refine List.filter_eq_nil_iff.mpr fun r mem same => ?_
  have there := triggered.rows.mem_iff.mp (List.mem_map_of_mem mem)
  obtain ⟨⟨id, version⟩, valid, eq⟩ := List.mem_map.mp there
  have found := (mem_validOf.mp (List.mem_dedup.mp valid)).2
  obtain rfl : id = hostId := (Prod.mk.inj eq).1.trans (by simpa using same)
  rw [found] at skips
  cases skips

theorem Triggered.partition_iff {req : TriggerUpgradeRequest} {resp : TriggerUpgradeResponse}
    (triggered : Triggered w w' req resp) : UpgradePartition w w' req resp ↔ NamedOnce w req := by
  have rows : (createdRows w.1.db w'.1.db).length = (validOf w req.targetVersion req.hostIds).dedup.length := by
    simpa using triggered.rows.length_eq
  have counted : resp.hostCount = (createdRows w.1.db w'.1.db).length ↔ NamedOnce w req := by
    rw [triggered.hostCount, rows, NamedOnce, ← nodup_validOf, ← List.dedup_eq_self]
    exact ⟨fun same => (List.dedup_sublist _).eq_of_length same.symm, fun same => by rw [same]⟩
  refine ⟨fun promised => counted.mp promised.counted, fun once => ⟨fun hostId mem => ?_, counted.mpr once⟩⟩
  rw [triggered.skipped]
  cases found : versionFor w req.targetVersion hostId with
  | error reason =>
    have skips : (versionFor w req.targetVersion hostId).isOk = false := by rw [found]; rfl
    exact .inr ⟨triggered.no_row skips, mem_skippedOf.mpr ⟨mem, skips⟩⟩
  | ok version =>
    obtain ⟨r, only, target⟩ := triggered.row mem found
    refine .inl ⟨⟨r, version, only, rfl, target⟩, fun skips => ?_⟩
    have fails := (mem_skippedOf.mp skips).2
    rw [found] at fails
    cases fails

variable {cfg : WorkerConfig} {s t : State} {h : List (Event World Op Op.Resp Fn)}

theorem triggerUpgrade_partitions (run : Run (engine cfg) s h t) (initial : Initial s) (tables : UpgradeTables)
    (auth : AuthUser) (req : TriggerUpgradeRequest) (resp : TriggerUpgradeResponse) (w' : UpgradeWorld)
    (done : (triggerUpgrade auth req).Alone (t.world, tables) w' (.ok resp)) :
    UpgradePartition (t.world, tables) w' req resp ↔ NamedOnce (t.world, tables) req := by
  have keys := run_keys run initial
  have parents := run_parent run initial
  refine (triggerUpgrade_alone ⟨keys.jobs.below, fun r mem => ?_⟩ parents done).partition_iff
  obtain ⟨j, found⟩ := Option.isSome_iff_exists.mp (parents r mem)
  obtain ⟨there, same⟩ := Sql.lookup_some found
  exact same ▸ keys.jobs.below j there

namespace Small

def tables : UpgradeTables := ⟨fun _ => some "Ubuntu 24.04", [package]⟩

def upgradeRequest (hostIds : List Uuid) : TriggerUpgradeRequest := ⟨hostIds, none, false, none⟩

theorem versionFor_host : versionFor (start.world, tables) none 100 = .ok "2.6.11" := resolved_package

theorem versionFor_unknown : versionFor (start.world, tables) none 101 = .error "Host not found" := rfl

/-- The job is inserted, and a row for the host. -/
theorem inserts (hostIds : List Uuid) (same : hostIds = [100] ∨ hostIds = [100, 100]) (skippedCount : Nat) :
    ∃ v, (insertUpgradeJobs user false none [("2.6.11", hostIds)] skippedCount).Among exec Eq start.world v (.ok 1) := by
  rcases same with rfl | rfl
  · exact ⟨_, .op (.inr ⟨_, _, rfl, rfl, rfl⟩) rfl <| .op (.inr ⟨_, _, rfl, rfl, rfl⟩) rfl <| .op (r := ()) rfl rfl .ret⟩
  · exact ⟨_, .op (.inr ⟨_, _, rfl, rfl, rfl⟩) rfl <| .op (.inr ⟨_, _, rfl, rfl, rfl⟩) rfl <|
      .op (.inr ⟨_, _, rfl, rfl, rfl⟩) rfl <| .op (r := ()) rfl rfl .ret⟩

/-- The request of an operator that names the host, perhaps twice, and another that is not known. -/
theorem triggers (hostIds : List Uuid) (same : hostIds = [100, 101] ∨ hostIds = [100, 100]) :
    ∃ w' resp, (triggerUpgrade user (upgradeRequest hostIds)).Alone (start.world, tables) w' (.ok resp) := by
  have looksUp := alone_resolveEach (start.world, tables) none hostIds [] []
  rcases same with rfl | rfl
  · obtain ⟨v, inserted⟩ := inserts [100] (.inl rfl) 1
    refine ⟨(v, tables), ⟨1, 1, [⟨101, "Host not found"⟩]⟩, looksUp.bind ?_⟩
    simp only [skippedOf, validOf, List.filterMap_cons, versionFor_host, versionFor_unknown]
    exact (inserted.extend tables).bind .ret
  · obtain ⟨v, inserted⟩ := inserts [100, 100] (.inr rfl) 0
    refine ⟨(v, tables), ⟨1, 2, []⟩, looksUp.bind ?_⟩
    simp only [skippedOf, validOf, List.filterMap_cons, versionFor_host]
    exact (inserted.extend tables).bind .ret

end Small

theorem triggerUpgrade_partitions_known : ∃ w' resp,
    UpgradePartition (Small.start.world, Small.tables) w' (Small.upgradeRequest [100, 101]) resp := by
  obtain ⟨w', resp, done⟩ := Small.triggers [100, 101] (.inl rfl)
  refine ⟨w', resp, (triggerUpgrade_partitions (.nil : Run (engine Small.config) _ _ _) Small.start_initial Small.tables
    Small.user _ resp w' done).mpr ?_⟩
  simp [NamedOnce, Small.upgradeRequest, Small.versionFor_host, Small.versionFor_unknown,
    Except.isOk, Except.toBool]

theorem twice_named_counted_twice : ¬ ∀ (tables : UpgradeTables) (auth : AuthUser) (req : TriggerUpgradeRequest)
    (resp : TriggerUpgradeResponse) (w' : UpgradeWorld),
    (triggerUpgrade auth req).Alone (Small.start.world, tables) w' (.ok resp) →
      UpgradePartition (Small.start.world, tables) w' req resp := by
  intro all
  obtain ⟨w', resp, done⟩ := Small.triggers [100, 100] (.inr rfl)
  have once := (triggerUpgrade_alone ⟨by simp [Small.start], by simp [Small.start]⟩ (by simp [Small.start])
    done).partition_iff.mp (all _ _ _ resp w' done)
  simp [NamedOnce, Small.upgradeRequest, Small.versionFor_host, Except.isOk, Except.toBool] at once

end PatchManager
