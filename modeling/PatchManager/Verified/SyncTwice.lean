import PatchManager.Verified.Catalogue

/-! # Synchronising twice

A package of the manager is recorded with its hash when it is downloaded, and without one when it is
there already, so the second of two cycles takes away the hashes that the first has recorded.

Main results:

* `sync_twice_iff`: exactly after which cycles another one changes nothing.
* `fetches_nothing`: after such a cycle nothing is fetched again.
* `manager_hash_lost`: the hash of a package of the manager is gone after the second cycle.
-/

namespace PatchManager.RepoSync

/-! ## Cycles with the same releases -/

/-- What a release lists; how a transfer ends is no part of it. -/
def GithubAsset.upstream (asset : GithubAsset) : String × Int × Option PackageInfo :=
  (asset.name, asset.size, asset.info)

def GithubRelease.upstream (release : GithubRelease) :
    String × Bool × List (String × Int × Option PackageInfo) × Option Time :=
  (release.tagName, release.prerelease, release.assets.map GithubAsset.upstream, release.publishedAt)

/-- The second listing fails or is the same as the first. -/
def SameReleases (first second : Except String (List GithubRelease)) : Prop :=
  ∀ releases', second = .ok releases' → ∃ releases, first = .ok releases ∧
    releases'.map GithubRelease.upstream = releases.map GithubRelease.upstream

/-- Another cycle while nothing changes upstream.  Its transfers may end in any way. -/
structure Again (cycle again : Cycle) : Prop where
  releases : SameReleases cycle.releases again.releases
  managerReleases : SameReleases cycle.managerReleases again.managerReleases
  existingRead : again.existingRead = true
  stored : ∀ pkg, again.stored pkg = true

/-- The cycle comes to its end without an error, and what it has imported is recorded. -/
structure Clean (config : PackageSyncConfig) (repo : Repository) (cycle : Cycle) : Prop where
  ran : ∃ s, runSyncCycle config repo cycle = some s ∧ s.2.errors = []
  stored : ∀ pkg, cycle.stored pkg = true

/-- Another cycle changes neither a file nor a row. -/
def Idempotent (config : PackageSyncConfig) (repo : Repository) (cycle : Cycle) : Prop :=
  ∀ again, Again cycle again →
    (sync config (sync config repo cycle) again).files = (sync config repo cycle).files ∧
      ∀ row, row ∈ (sync config (sync config repo cycle) again).rows ↔ row ∈ (sync config repo cycle).rows

/-! ## What is listed -/

/-- An asset and the release that lists it. -/
abbrev Listed := GithubRelease × GithubAsset

def listing (config : PackageSyncConfig) : Except String (List GithubRelease) → List Listed
  | .error _ => []
  | .ok releases => (latestReleases config releases).flatMap fun release => release.assets.map (release, ·)

def managerListing (config : PackageSyncConfig) (cycle : Cycle) : List Listed :=
  if config.managerGithubRepo.isEmpty then []
  else (listing config cycle.managerReleases).filter fun x => isManagerPackage x.2.name

/-- No package of the agent has the name and the version of one of the manager, and one of the manager
    that was not in the pool is listed a second time with its version. -/
structure Stable (config : PackageSyncConfig) (repo : Repository) (cycle : Cycle) : Prop where
  apart : ∀ x ∈ listing config cycle.releases, ∀ y ∈ managerListing config cycle,
    x.2.name = y.2.name → x.1.version ≠ y.1.version
  relisted : ∀ before x after, managerListing config cycle = before ++ x :: after →
    isPresent repo.files "apt" x.2.name = false →
    (∀ y ∈ listing config cycle.releases, y.2.name ≠ x.2.name) → (∀ y ∈ before, y.2.name ≠ x.2.name) →
    ∃ y ∈ after, y.2.name = x.2.name ∧ y.1.version = x.1.version

/-! ## Rows -/

open PatchManager.Sql (upsertRow lastWith lastWith_append lastWith_eq_none lastWith_eq_some mem_foldl_upsertRow)

def RepoPackage.key (row : RepoPackage) : String × String × String × String :=
  (row.filename, row.version, row.distro, row.arch)

/-- The row that is written for a package. -/
def SyncedPackage.row (pkg : SyncedPackage) : RepoPackage where
  filename := pkg.filename
  version := pkg.version
  distro := pkg.distro
  distroCodename := pkg.distroCodename
  arch := "amd64"
  fileSize := pkg.fileSize
  sha256 := pkg.sha256
  publishedAt := pkg.publishedAt

theorem upsert_eq (rows : List RepoPackage) (pkg : SyncedPackage) :
    upsert rows pkg = upsertRow RepoPackage.key rows pkg.row := by
  unfold upsert upsertRow
  refine congrArg (pkg.row :: ·) (List.filter_congr fun row _ => ?_)
  rw [Bool.eq_iff_iff]
  simp [RepoPackage.key, SyncedPackage.row, imp_iff_not_or, or_assoc]

/-- The row that some packages leave under a key. -/
def written (packages : List SyncedPackage) (key : String × String × String × String) : Option RepoPackage :=
  lastWith RepoPackage.key key (packages.map SyncedPackage.row)

theorem written_append (packages more : List SyncedPackage) (key : String × String × String × String) :
    written (packages ++ more) key = (written more key).or (written packages key) := by
  rw [written, List.map_append, lastWith_append, written, written]

theorem written_eq_none {packages : List SyncedPackage} {key : String × String × String × String} :
    written packages key = none ↔ ∀ pkg ∈ packages, pkg.row.key ≠ key := by
  simp [written, lastWith_eq_none]

theorem mem_persist_iff {rows : List RepoPackage} {packages : List SyncedPackage} {stored : SyncedPackage → Bool}
    (all : ∀ pkg, stored pkg = true) {row : RepoPackage} :
    row ∈ persist rows packages stored ↔
      written packages row.key = some row ∨ written packages row.key = none ∧ row ∈ rows := by
  have upserts : persist rows packages stored = (packages.map SyncedPackage.row).foldl (upsertRow RepoPackage.key) rows := by
    rw [persist, List.filter_eq_self.mpr fun pkg _ => all pkg, List.foldl_map]
    exact congrArg (fun f => packages.foldl f rows) (funext fun rows => funext (upsert_eq rows))
  rw [upserts, mem_foldl_upsertRow, written]

/-! ## The packages of the agent -/

/-- The asset is a package of this format. -/
structure Listed.Package (x : Listed) (distro : String) : Prop where
  file : isPackageFile x.2.name = true
  detected : detectDistroFromFilename x.2.name = some distro

def Listed.key (x : Listed) (distro : String) : String × String × String × String :=
  (x.2.name, x.1.version, distro, "amd64")

def syncListed (existing : List RepoPackage) (s : Progress) (x : Listed) : Progress := syncAsset existing x.1 s x.2

/-- What a step does that meets with no error. -/
theorem syncListed_cases {existing : List RepoPackage} {s : Progress} {x : Listed}
    (clean : (syncListed existing s x).2.errors = []) : s.2.errors = [] ∧
      (((∀ distro, x.Package distro → unchanged existing s.1 x.2.name x.1.version distro = true) ∧
          syncListed existing s x = skip s) ∨
        ∃ distro sha256, x.Package distro ∧
          unchanged existing s.1 x.2.name x.1.version distro = false ∧
          (syncListed existing s x).1 = copyTo s.1 distro ⟨x.2.name, x.2.info⟩ ∧
          (syncListed existing s x).2.syncedPackages = s.2.syncedPackages ++
            [x.2.synced x.1 distro (detectCodenameFromFilename x.2.name distro) (some sha256)]) := by
  unfold syncListed syncAsset at *
  by_cases file : isPackageFile x.2.name = true
  case neg =>
    rw [if_pos (by simpa using file)] at clean ⊢
    exact ⟨clean, .inl ⟨fun distro package => absurd package.file file, rfl⟩⟩
  rw [if_neg (by simpa using file)] at clean ⊢
  cases detected : detectDistroFromFilename x.2.name with
  | none =>
    simp only [detected] at clean ⊢
    refine ⟨clean, .inl ⟨fun distro package => ?_, trivial⟩⟩
    rw [package.detected] at detected
    cases detected
  | some distro =>
    have package : x.Package distro := ⟨file, detected⟩
    have only {other : String} (package' : x.Package other) : other = distro :=
      Option.some.inj (package'.detected.symm.trans detected)
    simp only [detected] at clean ⊢
    by_cases same : unchanged existing s.1 x.2.name x.1.version distro = true
    · rw [if_pos same] at clean ⊢
      exact ⟨clean, .inl ⟨fun other package' => only package' ▸ same, rfl⟩⟩
    · rw [if_neg same] at clean ⊢
      cases transfer : x.2.transfer with
      | imported sha256 =>
        simp only [transfer] at clean ⊢
        exact ⟨clean, .inr ⟨distro, sha256, package, by simpa using same, rfl, rfl⟩⟩
      | downloadFailed reason => simp [transfer, skip] at clean
      | notCopied sha256 reason => simp [transfer, skip] at clean
      | notIndexed sha256 reason => simp [transfer, skip] at clean

/-- What has been done when some assets have been gone through without an error. -/
structure AgentsSynced (existing : List RepoPackage) (l : List Listed) (s₀ s : Progress)
    (pushed : List SyncedPackage) : Prop where
  packages : s.2.syncedPackages = s₀.2.syncedPackages ++ pushed
  hashed : ∀ pkg ∈ pushed, pkg.sha256.isSome ∧ ∃ x ∈ l, ∃ distro, x.Package distro ∧ pkg.row.key = x.key distro
  recorded : ∀ x ∈ l, ∀ distro, x.Package distro → isPresent s.1 distro x.2.name = true ∧
    ((existing.any fun p => p.filename == x.2.name && p.version == x.1.version && p.distro == distro &&
      p.sha256.isSome) = true ∨ ∃ pkg ∈ pushed, pkg.row.key = x.key distro)
  grown : ∀ distro name, isPresent s₀.1 distro name = true → isPresent s.1 distro name = true
  from_ : ∀ distro name, isPresent s.1 distro name = true → isPresent s₀.1 distro name = true ∨ ∃ x ∈ l, x.2.name = name

theorem agentsSynced {existing : List RepoPackage} {l : List Listed} {s₀ : Progress}
    (clean : (l.foldl (syncListed existing) s₀).2.errors = []) :
    s₀.2.errors = [] ∧ ∃ pushed, AgentsSynced existing l s₀ (l.foldl (syncListed existing) s₀) pushed := by
  induction l generalizing s₀ with
  | nil => exact ⟨clean, [], by simp, by simp, by simp, fun _ _ => id, fun _ _ => .inl⟩
  | cons x l ih =>
    obtain ⟨cleanStep, pushed, rest⟩ := ih clean
    obtain ⟨cleanStart, ⟨same, eq⟩ | ⟨distro, sha256, package, fresh, files, packages⟩⟩ := syncListed_cases cleanStep
    · rw [List.foldl_cons]
      rw [eq] at rest ⊢
      refine ⟨cleanStart, pushed, rest.packages, fun pkg mem => ?_, fun y mem distro package => ?_, rest.grown,
        fun distro name present => ?_⟩
      · obtain ⟨hash, y, memY, of⟩ := rest.hashed pkg mem
        exact ⟨hash, y, List.mem_cons_of_mem _ memY, of⟩
      · rcases List.mem_cons.mp mem with rfl | later
        · obtain ⟨recorded, present⟩ := Bool.and_eq_true_iff.mp (same distro package)
          exact ⟨rest.grown _ _ present, .inl recorded⟩
        · exact rest.recorded y later distro package
      · exact (rest.from_ distro name present).imp_right fun ⟨y, mem, eq⟩ => ⟨y, List.mem_cons_of_mem _ mem, eq⟩
    · rw [List.foldl_cons]
      have copied {distro' name : String} : isPresent (syncListed existing s₀ x).1 distro' name = true ↔
          (distro' = distro ∧ name = x.2.name) ∨ isPresent s₀.1 distro' name = true := by
        rw [files, isPresent_copyTo]
      refine ⟨cleanStart, x.2.synced x.1 distro (detectCodenameFromFilename x.2.name distro) (some sha256) :: pushed,
        by rw [rest.packages, packages, List.append_assoc, List.singleton_append], fun pkg mem => ?_,
        fun y mem distro' package' => ?_, fun distro name present => rest.grown _ _ (copied.mpr (.inr present)),
        fun distro' name present => ?_⟩
      · rcases List.mem_cons.mp mem with rfl | later
        · exact ⟨rfl, x, List.mem_cons_self, distro, package, rfl⟩
        · obtain ⟨hash, y, memY, of⟩ := rest.hashed pkg later
          exact ⟨hash, y, List.mem_cons_of_mem _ memY, of⟩
      · rcases List.mem_cons.mp mem with rfl | later
        · obtain rfl : distro' = distro := Option.some.inj (package'.detected.symm.trans package.detected)
          exact ⟨rest.grown _ _ (copied.mpr (.inl ⟨rfl, rfl⟩)), .inr ⟨_, List.mem_cons_self, rfl⟩⟩
        · obtain ⟨present, recorded⟩ := rest.recorded y later distro' package'
          exact ⟨present, recorded.imp_right fun ⟨pkg, mem, key⟩ => ⟨pkg, List.mem_cons_of_mem _ mem, key⟩⟩
      · rcases rest.from_ distro' name present with before | ⟨y, mem, eq⟩
        · rcases copied.mp before with ⟨-, rfl⟩ | old
          · exact .inr ⟨x, List.mem_cons_self, rfl⟩
          · exact .inl old
        · exact .inr ⟨y, List.mem_cons_of_mem _ mem, eq⟩

/-- Nothing is fetched of what is recorded and there. -/
theorem agents_quiet {existing : List RepoPackage} {l : List Listed} {s : Progress}
    (same : ∀ x ∈ l, ∀ distro, x.Package distro → unchanged existing s.1 x.2.name x.1.version distro = true) :
    (l.foldl (syncListed existing) s).1 = s.1 ∧
      (l.foldl (syncListed existing) s).2.syncedPackages = s.2.syncedPackages := by
  induction l generalizing s with
  | nil => exact ⟨rfl, rfl⟩
  | cons x l ih =>
    have step : syncListed existing s x = skip s := by
      unfold syncListed syncAsset
      by_cases file : isPackageFile x.2.name = true
      · cases detected : detectDistroFromFilename x.2.name with
        | none => simp [file]
        | some distro => simp [file, same x List.mem_cons_self distro ⟨file, detected⟩]
      · simp [file]
    rw [List.foldl_cons, step]
    exact ih fun y mem => same y (List.mem_cons_of_mem _ mem)

/-! ## The packages of the manager -/

def Transfer.sha256 : Transfer → Option String
  | .downloadFailed _ => none
  | .notCopied sha256 _ | .notIndexed sha256 _ | .imported sha256 => some sha256

/-- What is recorded of the manager when the files `present` are in the pool. -/
def managerPackages (present : String → Bool) : List Listed → List SyncedPackage
  | [] => []
  | x :: l => x.2.synced x.1 "apt" none (if present x.2.name then none else x.2.transfer.sha256) ::
      managerPackages (fun name => present name || name == x.2.name) l

def syncManagerListed (s : Progress) (x : Listed) : Progress := syncManagerAsset x.1 s x.2

/-- What has been done when packages of the manager have been gone through without an error. -/
structure ManagersSynced (l : List Listed) (s₀ s : Progress) : Prop where
  packages : s.2.syncedPackages = s₀.2.syncedPackages ++ managerPackages (isPresent s₀.1 "apt") l
  present : ∀ x ∈ l, isPresent s.1 "apt" x.2.name = true
  grown : ∀ distro name, isPresent s₀.1 distro name = true → isPresent s.1 distro name = true
  hashed : ∀ before x after, l = before ++ x :: after → isPresent s₀.1 "apt" x.2.name = false →
    (∀ y ∈ before, y.2.name ≠ x.2.name) → x.2.transfer.sha256.isSome

theorem syncManagerListed_cases {s : Progress} {x : Listed} (manager : isManagerPackage x.2.name = true)
    (clean : (syncManagerListed s x).2.errors = []) : s.2.errors = [] ∧
      (syncManagerListed s x).2.syncedPackages = s.2.syncedPackages ++
        [x.2.synced x.1 "apt" none (if isPresent s.1 "apt" x.2.name then none else x.2.transfer.sha256)] ∧
      (∀ distro name, isPresent (syncManagerListed s x).1 distro name = true ↔
        distro = "apt" ∧ name = x.2.name ∨ isPresent s.1 distro name = true) ∧
      (isPresent s.1 "apt" x.2.name = false → x.2.transfer.sha256.isSome) := by
  unfold syncManagerListed syncManagerAsset at *
  rw [if_neg (by simpa using manager)] at clean ⊢
  by_cases present : isPresent s.1 "apt" x.2.name = true
  · rw [if_pos present] at clean ⊢
    refine ⟨clean, by rw [if_pos present], fun distro name => ?_, by simp [present]⟩
    refine ⟨.inr, fun either => either.elim ?_ id⟩
    rintro ⟨rfl, rfl⟩
    exact present
  · rw [if_neg present] at clean ⊢
    cases transfer : x.2.transfer with
    | downloadFailed reason => simp [transfer] at clean
    | notCopied sha256 reason => simp [transfer] at clean
    | notIndexed sha256 reason =>
      simp only [transfer] at clean ⊢
      exact ⟨clean, by rw [if_neg present]; rfl, fun _ _ => isPresent_copyTo, fun _ => rfl⟩
    | imported sha256 =>
      simp only [transfer] at clean ⊢
      exact ⟨clean, by rw [if_neg present]; rfl, fun _ _ => isPresent_copyTo, fun _ => rfl⟩

theorem managersSynced {l : List Listed} {s₀ : Progress} (managers : ∀ x ∈ l, isManagerPackage x.2.name = true)
    (clean : (l.foldl syncManagerListed s₀).2.errors = []) :
    s₀.2.errors = [] ∧ ManagersSynced l s₀ (l.foldl syncManagerListed s₀) := by
  induction l generalizing s₀ with
  | nil => exact ⟨clean, by simp [managerPackages], by simp, fun _ _ => id, by simp⟩
  | cons x l ih =>
    obtain ⟨cleanStep, rest⟩ := ih (fun y mem => managers y (List.mem_cons_of_mem _ mem)) clean
    obtain ⟨cleanStart, packages, present, hashed⟩ := syncManagerListed_cases (managers x List.mem_cons_self) cleanStep
    have known : isPresent (syncManagerListed s₀ x).1 "apt" =
        fun name => isPresent s₀.1 "apt" name || name == x.2.name := by
      refine funext fun name => Bool.eq_iff_iff.mpr ?_
      rw [present]
      simp [or_comm]
    rw [List.foldl_cons]
    refine ⟨cleanStart, ?_, fun y mem => ?_, fun distro name there => rest.grown _ _ ((present _ _).mpr (.inr there)),
      fun before y after split absent first => ?_⟩
    · rw [rest.packages, packages, known, List.append_assoc]
      rfl
    · rcases List.mem_cons.mp mem with rfl | later
      · exact rest.grown _ _ ((present _ _).mpr (.inl ⟨rfl, rfl⟩))
      · exact rest.present y later
    · cases before with
      | nil =>
        obtain ⟨rfl, -⟩ := List.cons.inj split
        exact hashed absent
      | cons z before =>
        obtain ⟨rfl, rfl⟩ := List.cons.inj split
        refine rest.hashed before y after rfl ?_ fun w mem => first w (List.mem_cons_of_mem _ mem)
        rw [known]
        simpa [absent] using (first x List.mem_cons_self).symm

/-- What is recorded of a package of the manager that is there. -/
def Listed.plain (x : Listed) : SyncedPackage := x.2.synced x.1 "apt" none none

/-- Nothing of the manager is fetched that is there. -/
theorem managers_quiet {l : List Listed} {s : Progress}
    (there : ∀ x ∈ l, isManagerPackage x.2.name = true ∧ isPresent s.1 "apt" x.2.name = true) :
    (l.foldl syncManagerListed s).1 = s.1 ∧
      (l.foldl syncManagerListed s).2.syncedPackages =
        s.2.syncedPackages ++ l.map Listed.plain := by
  induction l generalizing s with
  | nil => simp
  | cons x l ih =>
    obtain ⟨manager, present⟩ := there x List.mem_cons_self
    have step : syncManagerListed s x = (s.1, { s.2 with
        syncedPackages := s.2.syncedPackages ++ [x.plain] }) := by
      simp [syncManagerListed, syncManagerAsset, manager, present, Listed.plain]
    rw [List.foldl_cons, step]
    obtain ⟨files, packages⟩ := ih (s := (s.1, { s.2 with
        syncedPackages := s.2.syncedPackages ++ [x.plain] }))
      fun y mem => there y (List.mem_cons_of_mem _ mem)
    exact ⟨files, by simp [packages]⟩

theorem written_cons (pkg : SyncedPackage) (packages : List SyncedPackage) (key : String × String × String × String) :
    written (pkg :: packages) key = (written packages key).or (if pkg.row.key = key then some pkg.row else none) := rfl

theorem mem_managerPackages {present : String → Bool} {l : List Listed} {pkg : SyncedPackage}
    (mem : pkg ∈ managerPackages present l) : ∃ x ∈ l, pkg.row.key = x.key "apt" := by
  induction l generalizing present with
  | nil => cases mem
  | cons x l ih =>
    rcases List.mem_cons.mp mem with rfl | later
    · exact ⟨x, List.mem_cons_self, rfl⟩
    · obtain ⟨y, memY, eq⟩ := ih later
      exact ⟨y, List.mem_cons_of_mem _ memY, eq⟩

theorem written_managerPackages_none {present : String → Bool} {l : List Listed}
    {key : String × String × String × String} (other : ∀ x ∈ l, x.key "apt" ≠ key) :
    written (managerPackages present l) key = none := by
  refine written_eq_none.mpr fun pkg mem => ?_
  obtain ⟨x, memX, eq⟩ := mem_managerPackages mem
  exact eq ▸ other x memX

theorem key_name {x y : Listed} {distro distro' : String} (same : x.key distro = y.key distro') :
    x.2.name = y.2.name ∧ x.1.version = y.1.version := by
  simp only [Listed.key, Prod.mk.injEq] at same
  exact ⟨same.1, same.2.1⟩

/-- A hash is not left where the package that has it is listed again. -/
theorem written_plain {present : String → Bool} {l : List Listed} {key : String × String × String × String}
    (relisted : ∀ before x after, l = before ++ x :: after → x.key "apt" = key → present x.2.name = false →
      (∀ y ∈ before, y.2.name ≠ x.2.name) → ∃ y ∈ after, y.key "apt" = key) :
    written (managerPackages present l) key = written (l.map Listed.plain) key := by
  induction l generalizing present with
  | nil => rfl
  | cons x l ih =>
    have rest : written (managerPackages (fun name => present name || name == x.2.name) l) key =
        written (l.map Listed.plain) key := ih fun before y after split own absent first => by
      obtain ⟨absent, other⟩ := Bool.or_eq_false_iff.mp absent
      refine relisted (x :: before) y after (by rw [split]; rfl) own absent fun z mem => ?_
      rcases List.mem_cons.mp mem with rfl | later
      · exact fun same => by simp [same] at other
      · exact first z later
    rw [managerPackages, List.map_cons, written_cons, written_cons, rest]
    by_cases own : x.key "apt" = key
    · by_cases there : present x.2.name = true
      · rw [if_pos there]
        rfl
      · obtain ⟨y, mem, eq⟩ := relisted [] x l rfl own (by simpa using there) (by simp)
        cases later : written (l.map Listed.plain) key with
        | none => exact absurd eq (written_eq_none.mp later _ (List.mem_map_of_mem mem))
        | some row => rfl
    · have apart (hash : Option String) : (x.2.synced x.1 "apt" none hash).row.key ≠ key := own
      have apart' : x.plain.row.key ≠ key := own
      rw [if_neg (apart _), if_neg apart']

/-- The hash of a package is left that was not there and is not listed again. -/
theorem written_hash {before after : List Listed} {x : Listed} {present : String → Bool}
    (absent : present x.2.name = false) (first : ∀ y ∈ before, y.2.name ≠ x.2.name)
    (last : ∀ y ∈ after, y.key "apt" ≠ x.key "apt") :
    written (managerPackages present (before ++ x :: after)) (x.key "apt") =
      some (x.2.synced x.1 "apt" none x.2.transfer.sha256).row := by
  induction before generalizing present with
  | nil =>
    have hash : (if present x.2.name = true then none else x.2.transfer.sha256) = x.2.transfer.sha256 :=
      if_neg (by simp [absent])
    rw [List.nil_append, managerPackages, written_cons, written_managerPackages_none last, hash]
    exact if_pos rfl
  | cons y before ih =>
    rw [List.cons_append, managerPackages, written_cons]
    rw [ih (by simpa [absent] using (first y List.mem_cons_self).symm) fun z mem => first z (List.mem_cons_of_mem _ mem)]
    rfl

/-! ## Cycles -/

variable {config : PackageSyncConfig} {repo : Repository} {cycle again : Cycle}

def existing (repo : Repository) (cycle : Cycle) : List RepoPackage := if cycle.existingRead then repo.rows else []

/-- What the cycle has done before it comes to the packages of the manager. -/
def agentsProgress (config : PackageSyncConfig) (repo : Repository) (cycle : Cycle) : Progress :=
  (listing config cycle.releases).foldl (syncListed (existing repo cycle)) (repo.files, {})

variable (config repo) in
theorem runSyncCycle_eq {releases : List GithubRelease} (listed : cycle.releases = .ok releases) :
    runSyncCycle config repo cycle =
      some (syncManagerPackages config cycle.managerReleases (agentsProgress config repo cycle)) := by
  unfold runSyncCycle agentsProgress listing existing
  simp only [listed, List.foldl_flatMap, List.foldl_map]
  rfl

theorem syncManagerPackages_eq {releases : List GithubRelease} (listed : cycle.managerReleases = .ok releases)
    (s : Progress) : syncManagerPackages config cycle.managerReleases s =
      (managerListing config cycle).foldl syncManagerListed s := by
  unfold syncManagerPackages managerListing
  by_cases off : config.managerGithubRepo.isEmpty = true
  · rw [if_pos off, if_pos off]
    rfl
  · rw [if_neg off, if_neg off]
    simp only [listed, listing, List.foldl_filter, List.foldl_flatMap, List.foldl_map]
    refine congrArg (fun f => (latestReleases config releases).foldl f s) (funext fun s => funext fun release => ?_)
    refine congrArg (fun f => release.assets.foldl f s) (funext fun s => funext fun asset => ?_)
    by_cases manager : isManagerPackage asset.name = true
    · rw [if_pos manager]
      rfl
    · rw [if_neg manager, syncManagerAsset, if_pos (by simpa using manager)]

theorem sync_of_ran {s : Progress} (ran : runSyncCycle config repo cycle = some s) :
    sync config repo cycle = ⟨s.1, persist repo.rows s.2.syncedPackages cycle.stored⟩ := by
  rw [sync, ran]

/-- Without an error the packages of the manager have been listed. -/
theorem syncManagerPackages_clean {s : Progress}
    (clean : (syncManagerPackages config cycle.managerReleases s).2.errors = []) :
    syncManagerPackages config cycle.managerReleases s = (managerListing config cycle).foldl syncManagerListed s := by
  by_cases off : config.managerGithubRepo.isEmpty = true
  · simp [syncManagerPackages, managerListing, off]
  · cases listed : cycle.managerReleases with
    | ok releases =>
      rw [← listed]
      exact syncManagerPackages_eq listed s
    | error reason => simp [syncManagerPackages, off, listed] at clean

theorem managerListing_manager {x : Listed} (mem : x ∈ managerListing config cycle) :
    isManagerPackage x.2.name = true := by
  unfold managerListing at mem
  split at mem
  · cases mem
  · exact (List.mem_filter.mp mem).2

/-- A package of the manager is one for `apt`. -/
theorem package_of_manager {x : Listed} (manager : isManagerPackage x.2.name = true) : x.Package "apt" := by
  obtain ⟨-, deb⟩ := Bool.and_eq_true_iff.mp manager
  exact ⟨by simp [isPackageFile, deb], by simp [detectDistroFromFilename, deb]⟩

/-- Where all packages of the manager are there, none of them is fetched. -/
theorem syncManagerPackages_quiet {s : Progress}
    (there : ∀ x ∈ managerListing config cycle, isPresent s.1 "apt" x.2.name = true) :
    (syncManagerPackages config cycle.managerReleases s).1 = s.1 ∧
      (syncManagerPackages config cycle.managerReleases s).2.syncedPackages =
        s.2.syncedPackages ++ (managerListing config cycle).map Listed.plain := by
  cases listed : cycle.managerReleases with
  | ok releases =>
    rw [← listed, syncManagerPackages_eq listed]
    exact managers_quiet fun x mem => ⟨managerListing_manager mem, there x mem⟩
  | error reason =>
    have none : managerListing config cycle = [] := by simp [managerListing, listed, listing]
    rw [none]
    unfold syncManagerPackages
    split <;> simp

/-- What the first cycle leaves. -/
structure FirstCycle (config : PackageSyncConfig) (repo : Repository) (cycle : Cycle) (s : Progress)
    (pushed : List SyncedPackage) : Prop where
  agents : AgentsSynced (existing repo cycle) (listing config cycle.releases) (repo.files, {})
    (agentsProgress config repo cycle) pushed
  managers : ManagersSynced (managerListing config cycle) (agentsProgress config repo cycle) s
  files : (sync config repo cycle).files = s.1
  rows : ∀ row, row ∈ (sync config repo cycle).rows ↔
    (written (managerPackages (isPresent (agentsProgress config repo cycle).1 "apt") (managerListing config cycle))
      row.key).or (written pushed row.key) = some row ∨
    (written (managerPackages (isPresent (agentsProgress config repo cycle).1 "apt") (managerListing config cycle))
      row.key = none ∧ written pushed row.key = none) ∧ row ∈ repo.rows

theorem Clean.first (clean : Clean config repo cycle) : ∃ s pushed, FirstCycle config repo cycle s pushed := by
  obtain ⟨⟨s, ran, noErrors⟩, stored⟩ := clean
  cases listed : cycle.releases with
  | error reason => simp [runSyncCycle, listed] at ran
  | ok releases =>
    have synced := sync_of_ran ran
    rw [runSyncCycle_eq config repo listed] at ran
    obtain rfl := Option.some.inj ran
    have run := syncManagerPackages_clean noErrors
    rw [run] at noErrors
    obtain ⟨noErrors, managers⟩ := managersSynced (fun _ => managerListing_manager) noErrors
    obtain ⟨-, pushed, agents⟩ := agentsSynced noErrors
    refine ⟨_, pushed, agents, managers, ?_, fun row => ?_⟩
    · rw [synced, run]
    · rw [synced, run, mem_persist_iff stored, managers.packages]
      have start : (agentsProgress config repo cycle).2.syncedPackages = pushed := agents.packages
      rw [start, written_append]
      simp [Option.or_eq_none_iff]

/-! ## The second cycle -/

section first

variable {s : Progress} {pushed : List SyncedPackage} (first : FirstCycle config repo cycle s pushed)
include first

/-- Who of the agent is listed has a row with a hash after the first cycle. -/
theorem FirstCycle.recorded (amd64 : ∀ row ∈ repo.rows, row.arch = "amd64") (stable : Stable config repo cycle)
    {x : Listed} (mem : x ∈ listing config cycle.releases) {distro : String} (package : x.Package distro) :
    unchanged (sync config repo cycle).rows (sync config repo cycle).files x.2.name x.1.version distro = true := by
  obtain ⟨present, recorded⟩ := first.agents.recorded x mem distro package
  have there : isPresent (sync config repo cycle).files distro x.2.name = true := by
    rw [first.files]
    exact first.managers.grown _ _ present
  have noManager : written (managerPackages (isPresent (agentsProgress config repo cycle).1 "apt")
      (managerListing config cycle)) (x.key distro) = none :=
    written_managerPackages_none fun y memY same =>
      stable.apart x mem y memY (key_name same).1.symm (key_name same).2.symm
  suffices row : ∃ row ∈ (sync config repo cycle).rows, row.key = x.key distro ∧ row.sha256.isSome by
    obtain ⟨row, memRow, key, hash⟩ := row
    simp only [RepoPackage.key, Listed.key, Prod.mk.injEq] at key
    refine Bool.and_eq_true_iff.mpr ⟨List.any_eq_true.mpr ⟨row, memRow, ?_⟩, there⟩
    simp [key, hash]
  cases new : written pushed (x.key distro) with
  | some row =>
    obtain ⟨memNew, key⟩ := lastWith_eq_some new
    obtain ⟨pkg, memPkg, rfl⟩ := List.mem_map.mp memNew
    refine ⟨pkg.row, (first.rows _).mpr (.inl ?_), key, (first.agents.hashed pkg memPkg).1⟩
    rw [key, noManager, new]
    rfl
  | none =>
    rcases recorded with old | ⟨pkg, memPkg, key⟩
    · obtain ⟨row, memRow, same⟩ := List.any_eq_true.mp old
      have memRow : row ∈ repo.rows := by
        unfold existing at memRow
        split at memRow
        · exact memRow
        · cases memRow
      simp only [Bool.and_eq_true, beq_iff_eq] at same
      obtain ⟨⟨⟨filename, version⟩, distro_⟩, hash⟩ := same
      have key : row.key = x.key distro := by
        rw [RepoPackage.key, filename, version, distro_, amd64 row memRow]
        rfl
      exact ⟨row, (first.rows row).mpr (.inr ⟨by rw [key]; exact ⟨noManager, new⟩, memRow⟩), key, hash⟩
    · exact absurd key (written_eq_none.mp new pkg memPkg)

end first

/-- What is recorded of an asset, but for the hash. -/
def Listed.item (x : Listed) : String × Option Time × String × Int :=
  (x.1.version, x.1.publishedAt, x.2.name, x.2.size)

variable (config) in
theorem listing_items {first second : Except String (List GithubRelease)} (same : SameReleases first second) :
    listing config second = [] ∨ (listing config second).map Listed.item = (listing config first).map Listed.item := by
  cases second with
  | error reason => exact .inl rfl
  | ok releases' =>
    obtain ⟨releases, rfl, eq⟩ := same releases' rfl
    -- the items are read off what the releases list
    let items (u : String × Bool × List (String × Int × Option PackageInfo) × Option Time) :=
      u.2.2.1.map fun a => ((⟨u.1, false, [], none⟩ : GithubRelease).version, u.2.2.2, a.1, a.2.1)
    have read (releases : List GithubRelease) : (listing config (.ok releases)).map Listed.item =
        (((releases.map GithubRelease.upstream).filter (!·.2.1)).take config.maxReleases).flatMap items := by
      rw [listing, List.map_flatMap, List.filter_map, ← List.map_take, List.flatMap_map]
      refine List.flatMap_congr fun release _ => ?_
      simp only [List.map_map, GithubRelease.upstream, items]
      rfl
    exact .inr (by rw [read, read, eq])

variable (config) in
theorem managerListing_items (same : SameReleases cycle.managerReleases again.managerReleases) :
    managerListing config again = [] ∨
      (managerListing config again).map Listed.item = (managerListing config cycle).map Listed.item := by
  unfold managerListing
  by_cases off : config.managerGithubRepo.isEmpty = true
  · exact .inl (if_pos off)
  · rw [if_neg off, if_neg off]
    have select (l : List Listed) : (l.filter fun x => isManagerPackage x.2.name).map Listed.item =
        (l.map Listed.item).filter fun item => isManagerPackage item.2.2.1 := by
      rw [List.filter_map]
      rfl
    rcases listing_items config same with none | items
    · exact .inl (by rw [none]; rfl)
    · exact .inr (by rw [select, select, items])

theorem mem_of_items {l l' : List Listed} (same : l' = [] ∨ l'.map Listed.item = l.map Listed.item) {x : Listed}
    (mem : x ∈ l') : ∃ y ∈ l, y.item = x.item := by
  rcases same with rfl | same
  · cases mem
  · exact List.mem_map.mp (same ▸ List.mem_map_of_mem mem)

theorem plain_of_items {l l' : List Listed} (same : l'.map Listed.item = l.map Listed.item) :
    l'.map Listed.plain = l.map Listed.plain := by
  let plain (item : String × Option Time × String × Int) : SyncedPackage :=
    { filename := item.2.2.1, version := item.1, distro := "apt", distroCodename := none, fileSize := item.2.2.2
      sha256 := none, publishedAt := item.2.1 }
  have read (l : List Listed) : l.map Listed.plain = (l.map Listed.item).map plain := by
    rw [List.map_map]
    rfl
  rw [read, read, same]

section second

variable {s : Progress} {pushed : List SyncedPackage} (first : FirstCycle config repo cycle s pushed)
include first

/-- A second cycle that has listed the releases, after one that leaves nothing to be fetched. -/
theorem FirstCycle.quiet (amd64 : ∀ row ∈ repo.rows, row.arch = "amd64") (stable : Stable config repo cycle)
    (same : Again cycle again) {releases : List GithubRelease} (listed : again.releases = .ok releases) :
    (sync config (sync config repo cycle) again).files = (sync config repo cycle).files ∧
      (sync config (sync config repo cycle) again).rows = persist (sync config repo cycle).rows
        ((managerListing config again).map Listed.plain) again.stored := by
  have read : existing (sync config repo cycle) again = (sync config repo cycle).rows := if_pos same.existingRead
  have agents : (agentsProgress config (sync config repo cycle) again).1 = (sync config repo cycle).files ∧
      (agentsProgress config (sync config repo cycle) again).2.syncedPackages = [] := by
    rw [agentsProgress, read]
    refine agents_quiet fun x mem distro package => ?_
    obtain ⟨y, memY, items⟩ := mem_of_items (listing_items config same.releases) mem
    simp only [Listed.item, Prod.mk.injEq] at items
    rw [← items.1, ← items.2.2.1]
    exact first.recorded amd64 stable memY ⟨items.2.2.1 ▸ package.file, items.2.2.1 ▸ package.detected⟩
  have managers : (syncManagerPackages config again.managerReleases
        (agentsProgress config (sync config repo cycle) again)).1 = (sync config repo cycle).files ∧
      (syncManagerPackages config again.managerReleases
        (agentsProgress config (sync config repo cycle) again)).2.syncedPackages =
        (managerListing config again).map Listed.plain := by
    obtain ⟨files, packages⟩ := agents
    rw [← files, ← List.nil_append ((managerListing config again).map Listed.plain), ← packages]
    refine syncManagerPackages_quiet fun x mem => ?_
    obtain ⟨y, memY, items⟩ := mem_of_items (managerListing_items config same.managerReleases) mem
    simp only [Listed.item, Prod.mk.injEq] at items
    rw [files, first.files, ← items.2.2.1]
    exact first.managers.present y memY
  have synced := sync_of_ran (runSyncCycle_eq config (sync config repo cycle) listed)
  exact ⟨by rw [synced]; exact managers.1, by rw [synced, managers.2]⟩

theorem FirstCycle.idempotent (amd64 : ∀ row ∈ repo.rows, row.arch = "amd64") (stable : Stable config repo cycle) :
    Idempotent config repo cycle := by
  intro again same
  cases listed : again.releases with
  | error reason =>
    have unchanged : sync config (sync config repo cycle) again = sync config repo cycle := by
      simp [sync, runSyncCycle, listed]
    rw [unchanged]
    exact ⟨rfl, fun _ => Iff.rfl⟩
  | ok releases =>
    obtain ⟨files, rows⟩ := first.quiet amd64 stable same listed
    refine ⟨files, fun row => ?_⟩
    rw [rows, mem_persist_iff same.stored]
    rcases managerListing_items config same.managerReleases with none | items
    · simp [none, written, lastWith]
    · -- what is recorded of the manager has no hash already
      have plain : written (managerPackages (isPresent (agentsProgress config repo cycle).1 "apt")
          (managerListing config cycle)) row.key = written ((managerListing config cycle).map Listed.plain) row.key :=
        written_plain fun before x after split own absent new => by
          have memX : x ∈ managerListing config cycle := by simp [split]
          have old : isPresent repo.files "apt" x.2.name = false := by
            by_contra there
            have grown := first.agents.grown "apt" x.2.name (by simpa using there)
            simp [absent] at grown
          have noAgent : ∀ y ∈ listing config cycle.releases, y.2.name ≠ x.2.name := by
            intro y memY named
            have package := package_of_manager (managerListing_manager memX)
            have there := (first.agents.recorded y memY "apt" ⟨named ▸ package.file, named ▸ package.detected⟩).1
            simp [named, absent] at there
          obtain ⟨y, memY, name, version⟩ := stable.relisted before x after split old noAgent new
          exact ⟨y, memY, by rw [← own, Listed.key, Listed.key, name, version]⟩
      rw [plain_of_items items, ← plain, first.rows]
      cases written (managerPackages (isPresent (agentsProgress config repo cycle).1 "apt")
        (managerListing config cycle)) row.key <;> simp

/-- The only row after the first cycle that has the key of a package of the manager. -/
theorem FirstCycle.only {key : String × String × String × String} {row : RepoPackage}
    (written_ : written (managerPackages (isPresent (agentsProgress config repo cycle).1 "apt")
      (managerListing config cycle)) key = some row) {other : RepoPackage}
    (mem : other ∈ (sync config repo cycle).rows) (same : other.key = key) : other = row := by
  subst same
  rcases (first.rows other).mp mem with there | ⟨⟨none, -⟩, -⟩
  · rw [written_] at there
    exact (Option.some.inj there).symm
  · rw [written_] at none
    cases none

end second

/-- Every row is written for `amd64`. -/
theorem sync_amd64 (amd64 : ∀ row ∈ repo.rows, row.arch = "amd64") : ∀ row ∈ (sync config repo cycle).rows, row.arch = "amd64" := by
  unfold sync
  cases runSyncCycle config repo cycle with
  | none => exact amd64
  | some s =>
    exact List.foldlRecOn _ upsert amd64 (motive := fun rows => ∀ row ∈ rows, row.arch = "amd64")
      fun rows kept pkg _ row mem => by
        rcases List.mem_cons.mp mem with rfl | old
        · rfl
        · exact kept row (List.mem_of_mem_filter old)

theorem syncAll_amd64 (config : PackageSyncConfig) (cycles : List Cycle) :
    ∀ row ∈ (syncAll config cycles).rows, row.arch = "amd64" :=
  List.foldlRecOn cycles (sync config) (motive := fun repo => ∀ row ∈ repo.rows, row.arch = "amd64")
    (by simp [initial]) fun _ amd64 _ _ => sync_amd64 amd64

/-! ## What a second cycle changes -/

/-- The same release, where every transfer succeeds. -/
def GithubRelease.reachable (release : GithubRelease) : GithubRelease :=
  { release with assets := release.assets.map fun asset => { asset with transfer := .imported "" } }

/-- The packages of the manager cannot be listed, and everything else succeeds. -/
def withoutManager (cycle : Cycle) : Cycle where
  releases := cycle.releases.map (List.map GithubRelease.reachable)
  managerReleases := .error ""
  existingRead := true
  stored _ := true

theorem again_withoutManager (cycle : Cycle) : Again cycle (withoutManager cycle) := by
  refine ⟨fun releases' listed => ?_, nofun, rfl, fun _ => rfl⟩
  cases first : cycle.releases with
  | error reason => simp [withoutManager, first, Except.map] at listed
  | ok releases =>
    obtain rfl : releases.map GithubRelease.reachable = releases' := by simpa [withoutManager, first, Except.map] using listed
    refine ⟨releases, rfl, ?_⟩
    simp [GithubRelease.upstream, GithubRelease.reachable, GithubAsset.upstream, Function.comp_def]

/-- The same asset of the same release, where every transfer succeeds. -/
def Listed.reachable (x : Listed) : Listed := (x.1.reachable, { x.2 with transfer := .imported "" })

variable (config) in
theorem listing_withoutManager (cycle : Cycle) :
    listing config (withoutManager cycle).releases = (listing config cycle.releases).map Listed.reachable := by
  cases listed : cycle.releases with
  | error reason => simp [withoutManager, listed, Except.map, listing]
  | ok releases =>
    have latest : latestReleases config (releases.map GithubRelease.reachable) =
        (latestReleases config releases).map GithubRelease.reachable := by
      rw [latestReleases, latestReleases, List.filter_map, ← List.map_take]
      rfl
    simp [withoutManager, listed, Except.map, listing, latest, List.flatMap_map, List.map_flatMap,
      GithubRelease.reachable, Listed.reachable, Function.comp_def]

theorem agents_imported {existing : List RepoPackage} {l : List Listed} {s : Progress}
    (imported : ∀ x ∈ l, x.2.transfer = .imported "") :
    (l.foldl (syncListed existing) s).2.errors = s.2.errors := by
  induction l generalizing s with
  | nil => rfl
  | cons x l ih =>
    have step : (syncListed existing s x).2.errors = s.2.errors := by
      unfold syncListed syncAsset
      rw [imported x List.mem_cons_self]
      split
      · rfl
      · cases detectDistroFromFilename x.2.name with
        | none => rfl
        | some distro =>
          dsimp only
          split <;> rfl
    rw [List.foldl_cons, ih fun y mem => imported y (List.mem_cons_of_mem _ mem), step]

/-- Files stay, whatever errors there are. -/
theorem agents_grown {existing : List RepoPackage} {l : List Listed} {s : Progress} {distro name : String}
    (there : isPresent s.1 distro name = true) : isPresent (l.foldl (syncListed existing) s).1 distro name = true := by
  induction l generalizing s with
  | nil => exact there
  | cons x l ih =>
    refine ih ?_
    unfold syncListed syncAsset
    split
    · exact there
    · cases detectDistroFromFilename x.2.name with
      | none => exact there
      | some distro' =>
        dsimp only
        split
        · exact there
        · cases x.2.transfer with
          | downloadFailed reason => exact there
          | notCopied sha256 reason => exact there
          | notIndexed sha256 reason => exact isPresent_copyTo.mpr (.inr there)
          | imported sha256 => exact isPresent_copyTo.mpr (.inr there)

theorem row_of_written {s : Progress} (ran : runSyncCycle config repo cycle = some s)
    (stored : ∀ pkg, cycle.stored pkg = true) {row : RepoPackage}
    (new : written s.2.syncedPackages row.key = some row) : row ∈ (sync config repo cycle).rows := by
  rw [sync_of_ran ran]
  exact (mem_persist_iff stored).mpr (.inl new)

/-- A package that is recorded without a hash is fetched, and has one then. -/
theorem hash_withoutManager (amd64 : ∀ row ∈ repo.rows, row.arch = "amd64") {x : Listed}
    (mem : x ∈ listing config cycle.releases) {distro : String} (package : x.Package distro)
    (noHash : ∀ row ∈ repo.rows, row.key = x.key distro → row.sha256 = none) :
    ∃ row ∈ (sync config repo (withoutManager cycle)).rows, row.key = x.key distro ∧ row.sha256.isSome := by
  have memX : x.reachable ∈ listing config (withoutManager cycle).releases := by
    rw [listing_withoutManager]
    exact List.mem_map_of_mem mem
  have clean : (agentsProgress config repo (withoutManager cycle)).2.errors = [] := by
    refine agents_imported fun z mem => ?_
    rw [listing_withoutManager] at mem
    obtain ⟨z, -, rfl⟩ := List.mem_map.mp mem
    rfl
  obtain ⟨-, fetched, agents⟩ := agentsSynced clean
  have fetches : ∃ pkg ∈ fetched, pkg.row.key = x.key distro := by
    rcases (agents.recorded x.reachable memX distro ⟨package.file, package.detected⟩).2 with old | new
    · obtain ⟨row, memRow, same⟩ := List.any_eq_true.mp old
      have memRow : row ∈ repo.rows := memRow
      simp only [Bool.and_eq_true, beq_iff_eq] at same
      obtain ⟨⟨⟨filename, version⟩, distro_⟩, hash⟩ := same
      have key : row.key = x.key distro := by
        rw [RepoPackage.key, filename, version, distro_, amd64 row memRow]
        rfl
      rw [noHash row memRow key] at hash
      cases hash
    · exact new
  obtain ⟨releases, listed⟩ : ∃ releases, (withoutManager cycle).releases = .ok releases := by
    cases listed : cycle.releases with
    | error reason => simp [listed, listing] at mem
    | ok releases => exact ⟨_, by rw [withoutManager, listed]; rfl⟩
  have ran := runSyncCycle_eq config repo listed
  have packages : (syncManagerPackages config (withoutManager cycle).managerReleases
      (agentsProgress config repo (withoutManager cycle))).2.syncedPackages = fetched := by
    have only : (agentsProgress config repo (withoutManager cycle)).2.syncedPackages = fetched := agents.packages
    unfold syncManagerPackages
    split <;> exact only
  cases new : written fetched (x.key distro) with
  | none =>
    obtain ⟨pkg, mem, same⟩ := fetches
    exact absurd same (written_eq_none.mp new pkg mem)
  | some row =>
    obtain ⟨memRow, key⟩ := lastWith_eq_some new
    obtain ⟨pkg, memPkg, rfl⟩ := List.mem_map.mp memRow
    refine ⟨pkg.row, row_of_written ran (again_withoutManager cycle).stored ?_, key, (agents.hashed pkg memPkg).1⟩
    rw [packages, key, new]

section changes

variable {s : Progress} {pushed : List SyncedPackage} (first : FirstCycle config repo cycle s pushed)
  (idempotent : Idempotent config repo cycle)
include first idempotent

/-- A package of the agent would be fetched again, and be recorded with a hash. -/
theorem FirstCycle.apart (amd64 : ∀ row ∈ repo.rows, row.arch = "amd64") {x y : Listed}
    (memX : x ∈ listing config cycle.releases) (memY : y ∈ managerListing config cycle)
    (name : x.2.name = y.2.name) : x.1.version ≠ y.1.version := by
  intro version
  have key : x.key "apt" = y.key "apt" := by rw [Listed.key, Listed.key, name, version]
  have package := package_of_manager (managerListing_manager memY)
  have packageX : x.Package "apt" := ⟨name ▸ package.file, name ▸ package.detected⟩
  -- the manager's package is there, and recorded without a hash
  have plain : written (managerPackages (isPresent (agentsProgress config repo cycle).1 "apt")
      (managerListing config cycle)) (y.key "apt") = written ((managerListing config cycle).map Listed.plain) (y.key "apt") :=
    written_plain fun before z after split own absent new => by
      have there := (first.agents.recorded x memX "apt" packageX).1
      rw [name, ← (key_name own).1, absent] at there
      cases there
  cases row : written ((managerListing config cycle).map Listed.plain) (y.key "apt") with
  | none => exact absurd rfl (written_eq_none.mp row _ (List.mem_map_of_mem memY))
  | some r =>
    obtain ⟨memR, keyR⟩ := lastWith_eq_some row
    have noHash : r.sha256 = none := by
      simp only [List.map_map, List.mem_map] at memR
      obtain ⟨z, -, rfl⟩ := memR
      rfl
    -- so it would be fetched if the packages of the manager could not be listed
    have only {other : RepoPackage} (mem : other ∈ (sync config repo cycle).rows) (same : other.key = x.key "apt") :
        other = r := first.only (plain.trans row) mem (same.trans key)
    obtain ⟨r', memR', keyR', hash⟩ := hash_withoutManager (sync_amd64 amd64) memX packageX fun other mem same => by
      rw [only mem same, noHash]
    rw [only (((idempotent _ (again_withoutManager cycle)).2 _).mp memR') keyR', noHash] at hash
    cases hash

/-- A package of the manager that was downloaded would lose its hash. -/
theorem FirstCycle.relisted (clean : Clean config repo cycle) {before after : List Listed} {x : Listed}
    (split : managerListing config cycle = before ++ x :: after)
    (absent : isPresent repo.files "apt" x.2.name = false)
    (noAgent : ∀ y ∈ listing config cycle.releases, y.2.name ≠ x.2.name)
    (new : ∀ y ∈ before, y.2.name ≠ x.2.name) :
    ∃ y ∈ after, y.2.name = x.2.name ∧ y.1.version = x.1.version := by
  by_contra last
  have absentThen : isPresent (agentsProgress config repo cycle).1 "apt" x.2.name = false := by
    by_contra there
    rcases first.agents.from_ "apt" x.2.name (by simpa using there) with before | ⟨y, mem, eq⟩
    · simp [absent] at before
    · exact noAgent y mem eq
  have hash : x.2.transfer.sha256.isSome := first.managers.hashed before x after split absentThen new
  have left : written (managerPackages (isPresent (agentsProgress config repo cycle).1 "apt")
      (managerListing config cycle)) (x.key "apt") = some (x.2.synced x.1 "apt" none x.2.transfer.sha256).row := by
    rw [split]
    exact written_hash absentThen new fun y mem same => last ⟨y, mem, (key_name same).1, (key_name same).2⟩
  -- the second cycle finds everything of the manager in the pool
  let again : Cycle := { cycle with existingRead := true }
  have same : Again cycle again := ⟨fun rs eq => ⟨rs, eq, rfl⟩, fun rs eq => ⟨rs, eq, rfl⟩, rfl, clean.stored⟩
  obtain ⟨_, ran, -⟩ := clean.ran
  cases listed : cycle.releases with
  | error reason => simp [runSyncCycle, listed] at ran
  | ok releases =>
    have ran : runSyncCycle config (sync config repo cycle) again = _ := runSyncCycle_eq config _ listed
    have there (y : Listed) (mem : y ∈ managerListing config again) :
        isPresent (agentsProgress config (sync config repo cycle) again).1 "apt" y.2.name = true := by
      refine agents_grown ?_
      dsimp only
      rw [first.files]
      exact first.managers.present y mem
    obtain ⟨-, packages⟩ := syncManagerPackages_quiet there
    cases row : written ((managerListing config cycle).map Listed.plain) (x.key "apt") with
    | none => exact absurd rfl (written_eq_none.mp row x.plain (List.mem_map_of_mem (by simp [split])))
    | some r =>
      obtain ⟨memR, keyR⟩ := lastWith_eq_some row
      have there : r ∈ (sync config (sync config repo cycle) again).rows := by
        refine row_of_written ran same.stored ?_
        rw [packages, written_append, keyR]
        have again_ : written ((managerListing config again).map Listed.plain) (x.key "apt") = some r := row
        rw [again_]
        rfl
      have eq := first.only left (((idempotent again same).2 r).mp there) keyR
      simp only [List.map_map, List.mem_map] at memR
      obtain ⟨z, -, rfl⟩ := memR
      have noHash : (none : Option String) = x.2.transfer.sha256 := congrArg RepoPackage.sha256 eq
      simp [← noHash] at hash

end changes

/-- Another cycle changes nothing exactly if no package of the agent is named and numbered as one of the
    manager and none of the manager was downloaded that is not listed again. -/
theorem sync_twice_iff (config : PackageSyncConfig) (repo : Repository) (cycle : Cycle)
    (amd64 : ∀ row ∈ repo.rows, row.arch = "amd64") (clean : Clean config repo cycle) :
    Idempotent config repo cycle ↔ Stable config repo cycle := by
  obtain ⟨s, pushed, first⟩ := clean.first
  constructor
  · intro idempotent
    exact ⟨fun x memX y memY => first.apart idempotent amd64 memX memY,
      fun before x after split => first.relisted idempotent clean split⟩
  · exact first.idempotent amd64

/-- After a cycle that another one changes nothing of, all that is listed is there. -/
theorem fetches_nothing (amd64 : ∀ row ∈ repo.rows, row.arch = "amd64") (clean : Clean config repo cycle)
    (stable : Stable config repo cycle) :
    (∀ x ∈ listing config cycle.releases, ∀ distro, x.Package distro →
      unchanged (sync config repo cycle).rows (sync config repo cycle).files x.2.name x.1.version distro = true) ∧
      ∀ x ∈ managerListing config cycle, isPresent (sync config repo cycle).files "apt" x.2.name = true := by
  obtain ⟨s, pushed, first⟩ := clean.first
  refine ⟨fun x mem distro package => first.recorded amd64 stable mem package, fun x mem => ?_⟩
  rw [first.files]
  exact first.managers.present x mem

namespace Small

def managerConfig : PackageSyncConfig := ⟨10, "Draco-Lunaris/Linux-Patch-Manager"⟩

/-- A release of the manager. -/
def manager : Cycle where
  releases := .ok []
  managerReleases := .ok [release "0.2.0" (asset "linux-patch-manager_0.2.0_amd64.deb" "0.2.0")]
  existingRead := true
  stored _ := true

end Small

theorem sync_twice_iff_manager :
    Idempotent Small.managerConfig initial Small.manager ↔ Stable Small.managerConfig initial Small.manager :=
  sync_twice_iff _ _ _ (by simp [initial]) ⟨⟨_, rfl, by decide +kernel⟩, fun _ => rfl⟩

/-- The second cycle finds the package and records it without its hash. -/
theorem manager_hash_lost : ¬ ∀ (config : PackageSyncConfig) (cycles : List Cycle) (cycle : Cycle),
    Clean config (syncAll config cycles) cycle → Idempotent config (syncAll config cycles) cycle := by
  intro all
  have again : Again Small.manager Small.manager :=
    ⟨fun rs eq => ⟨rs, eq, rfl⟩, fun rs eq => ⟨rs, eq, rfl⟩, rfl, fun _ => rfl⟩
  have same := ((all Small.managerConfig [] Small.manager ⟨⟨_, rfl, by decide +kernel⟩, fun _ => rfl⟩ _ again).2
    (SyncedPackage.row ⟨"linux-patch-manager_0.2.0_amd64.deb", "0.2.0", "apt", none, 1, none, none⟩)).mp (by decide +kernel)
  exact absurd same (by decide +kernel)

end PatchManager.RepoSync
