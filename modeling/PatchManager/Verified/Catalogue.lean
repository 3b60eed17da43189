import PatchManager.Web.Upgrades

/-! # The catalogue of upgrades

The versions that a host is offered come from `repo_packages`, the versions it can install from
the index that its package manager reads.

Main results:

* `catalogue_installable`: synchronising releases that are in order keeps the two together.
* `older_pacman_version`: a second release for Arch takes the first out of the database, and leaves it
  in the catalogue.
-/

namespace PatchManager.RepoSync

/-- The index that the package manager of a host reads. -/
def hostIndex (files : String → List PackageFile) (osName : String) : List IndexEntry :=
  match mapOsToDistro osName with
  | none => []
  | some (distro, codename) =>
    if distro = "apt" then codename.elim [] (generateAptMetadata (files "apt"))
    else if distro = "dnf" then generateDnfMetadata (files "dnf")
    else if distro = "apk" then generateApkMetadata (files "apk")
    else if distro = "pacman" then generatePacmanMetadata (files "pacman")
    else []

/-- The index has the version, in some release of the package. -/
def Installable (files : String → List PackageFile) (osName version : String) : Prop :=
  ∃ entry ∈ hostIndex files osName, versionBase entry.info.version = versionBase version

/-! ## What arrives -/

/-- An asset that is copied, with the version of its release. -/
structure Arrival where
  version : String
  asset : GithubAsset
deriving DecidableEq

def arrivals (config : PackageSyncConfig) (cycle : Cycle) : List Arrival :=
  match cycle.releases with
  | .error _ => []
  | .ok releases => (latestReleases config releases).flatMap fun release =>
    (release.assets.filter fun asset => isPackageFile asset.name && asset.transfer.copied).map fun asset =>
      ⟨release.version, asset⟩

/-- The releases are in order: every Debian package is for a suite, every package can be read and has
    the version of its release, and neither a file name nor a package of `pacman` comes in two versions. -/
structure InOrder (arrived : List Arrival) : Prop where
  suite : ∀ a ∈ arrived, endsWith a.asset.name ".deb" → likeManager a.asset.name = false →
    ∃ suite ∈ aptSuites, hasSuiteToken suite a.asset.name
  version : ∀ a ∈ arrived, likeManager a.asset.name = false →
    ∃ info, a.asset.info = some info ∧ versionBase info.version = versionBase a.version
  filename : ∀ a ∈ arrived, ∀ b ∈ arrived, a.asset.name = b.asset.name → likeManager a.asset.name = false →
    versionBase a.version = versionBase b.version
  pacman : ∀ a ∈ arrived, ∀ b ∈ arrived, endsWith a.asset.name ".pkg.tar.zst" → endsWith b.asset.name ".pkg.tar.zst" →
    ∀ i j, a.asset.info = some i → b.asset.info = some j → i.name = j.name → versionBase i.version = versionBase j.version

/-! ## What a cycle leaves -/

variable {arrived : List Arrival} {files files' : String → List PackageFile}

/-- A package file is the latest that came under its name, or one of the manager. -/
def FilesFrom (arrived : List Arrival) (files : String → List PackageFile) : Prop :=
  ∀ distro, ∀ file ∈ files distro, isManagerPackage file.filename = false →
    ∃ a ∈ arrived, a.asset.name = file.filename ∧ a.asset.info = file.info ∧
      detectDistroFromFilename file.filename = some distro

/-- Who is recorded has arrived, and a file of the name is still there. -/
def Recorded (arrived : List Arrival) (files : String → List PackageFile) (filename version distro : String)
    (codename : Option String) : Prop :=
  likeManager filename = false → detectDistroFromFilename filename = some distro ∧
    codename = detectCodenameFromFilename filename distro ∧ isPresent files distro filename = true ∧
    ∃ a ∈ arrived, a.asset.name = filename ∧ a.version = version

structure Synced (arrived : List Arrival) (before : String → List PackageFile) (s : Progress) : Prop where
  files : FilesFrom arrived s.1
  packages : ∀ pkg ∈ s.2.syncedPackages, Recorded arrived s.1 pkg.filename pkg.version pkg.distro pkg.distroCodename
  grown : ∀ distro name, isPresent before distro name = true → isPresent s.1 distro name = true

theorem isPresent_copyTo {distro : String} {file : PackageFile} {distro' name : String} :
    isPresent (copyTo files distro file) distro' name = true ↔
      (distro' = distro ∧ name = file.filename) ∨ isPresent files distro' name = true := by
  by_cases same : distro' = distro
  · subst same
    simp only [isPresent, copyTo, Function.update_self, List.any_eq_true, List.mem_cons, List.mem_filter, true_and]
    constructor
    · rintro ⟨f, rfl | ⟨mem, -⟩, eq⟩
      · exact .inl (beq_iff_eq.mp eq).symm
      · exact .inr ⟨f, mem, eq⟩
    · rintro (rfl | ⟨f, mem, eq⟩)
      · exact ⟨file, .inl rfl, beq_self_eq_true _⟩
      · -- a file of the name stays, unless it is overwritten by one
        by_cases over_ : f.filename = file.filename
        · exact ⟨file, .inl rfl, over_ ▸ eq⟩
        · exact ⟨f, .inr ⟨mem, by simpa using over_⟩, eq⟩
  · simp [isPresent, copyTo, same]

theorem mem_copyTo {distro distro' : String} {file f : PackageFile} (mem : f ∈ copyTo files distro file distro') :
    (distro' = distro ∧ f = file) ∨ f ∈ files distro' := by
  by_cases same : distro' = distro
  · subst same
    simp only [copyTo, Function.update_self, List.mem_cons, List.mem_filter] at mem
    exact mem.imp (⟨rfl, ·⟩) (·.1)
  · exact .inr (by simpa [copyTo, same] using mem)

theorem Recorded.mono {filename version distro : String} {codename : Option String}
    (recorded : Recorded arrived files filename version distro codename)
    (grown : ∀ distro name, isPresent files distro name = true → isPresent files' distro name = true) :
    Recorded arrived files' filename version distro codename := by
  intro own
  obtain ⟨detected, suite, present, a⟩ := recorded own
  exact ⟨detected, suite, grown _ _ present, a⟩

/-- A package of the manager is no part of the catalogue. -/
theorem likeManager_of_isManagerPackage {name : String} (manager : isManagerPackage name = true) :
    likeManager name = true := by
  obtain ⟨starts, ends⟩ := Bool.and_eq_true_iff.mp manager
  refine Bool.and_eq_true_iff.mpr ⟨starts, decide_eq_true fun rest => ?_⟩
  -- the name would be the word alone, which does not end so
  obtain ⟨more, eq⟩ := List.isPrefixOf_iff_prefix.mp starts
  rw [← eq, List.drop_left] at rest
  rw [endsWith, ← eq, rest] at ends
  exact absurd ends (by decide +kernel)

/-! ## Steps -/

variable {before : String → List PackageFile} {s : Progress}

theorem Synced.skip (synced : Synced arrived before s) : Synced arrived before (skip s) :=
  ⟨synced.files, synced.packages, synced.grown⟩

/-- What is copied has arrived, or is of the manager. -/
theorem FilesFrom.copyTo {distro : String} {file : PackageFile} (from_ : FilesFrom arrived files)
    (came : isManagerPackage file.filename = false → ∃ a ∈ arrived, a.asset.name = file.filename ∧
      a.asset.info = file.info ∧ detectDistroFromFilename file.filename = some distro) :
    FilesFrom arrived (copyTo files distro file) := by
  intro distro' f mem agents
  rcases mem_copyTo mem with ⟨rfl, rfl⟩ | mem
  · exact came agents
  · exact from_ distro' f mem agents

/-- After a copy, errors or not. -/
theorem Synced.copied (synced : Synced arrived before s) {distro : String} {file : PackageFile} (result : SyncResult)
    (came : isManagerPackage file.filename = false → ∃ a ∈ arrived, a.asset.name = file.filename ∧
      a.asset.info = file.info ∧ detectDistroFromFilename file.filename = some distro)
    (packages : ∀ pkg ∈ result.syncedPackages, pkg ∈ s.2.syncedPackages ∨
      Recorded arrived (copyTo s.1 distro file) pkg.filename pkg.version pkg.distro pkg.distroCodename) :
    Synced arrived before (copyTo s.1 distro file, result) := by
  have grown : ∀ distro' name, isPresent s.1 distro' name = true →
      isPresent (copyTo s.1 distro file) distro' name = true :=
    fun _ _ present => isPresent_copyTo.mpr (.inr present)
  refine ⟨synced.files.copyTo came, fun pkg mem => ?_, fun distro' name present =>
    grown distro' name (synced.grown distro' name present)⟩
  exact (packages pkg mem).elim (fun old => (synced.packages pkg old).mono grown) id

theorem Synced.syncAsset {existing : List RepoPackage} {release : GithubRelease} {asset : GithubAsset}
    (synced : Synced arrived before s)
    (came : isPackageFile asset.name = true → asset.transfer.copied = true → ⟨release.version, asset⟩ ∈ arrived) :
    Synced arrived before (syncAsset existing release s asset) := by
  unfold RepoSync.syncAsset
  by_cases package : isPackageFile asset.name = true
  case neg =>
    rw [if_pos (by simpa using package)]
    exact synced.skip
  rw [if_neg (by simpa using package)]
  cases detected : detectDistroFromFilename asset.name with
  | none => exact synced.skip
  | some distro =>
    dsimp only
    split
    · exact synced.skip
    · -- how far the transfer goes decides whether there is a copy, and a record of it
      have here (copied : asset.transfer.copied = true) : ∃ a ∈ arrived, a.asset.name = asset.name ∧
          a.asset.info = asset.info ∧ detectDistroFromFilename asset.name = some distro :=
        ⟨_, came package copied, rfl, rfl, detected⟩
      cases end_ : asset.transfer with
      | downloadFailed reason => exact ⟨synced.files, synced.packages, synced.grown⟩
      | notCopied sha256 reason => exact ⟨synced.files, synced.packages, synced.grown⟩
      | notIndexed sha256 reason =>
        refine (synced.copied _ (fun _ => here (by rw [end_]; rfl)) ?_).skip
        exact fun pkg mem => .inl mem
      | imported sha256 =>
        refine synced.copied _ (fun _ => here (by rw [end_]; rfl)) fun pkg mem => ?_
        refine (List.mem_append.mp mem).imp id fun new => ?_
        cases List.mem_singleton.mp new
        exact fun _ => ⟨detected, rfl, isPresent_copyTo.mpr (.inl ⟨rfl, rfl⟩), _,
          came package (by rw [end_]; rfl), rfl, rfl⟩

theorem Synced.syncManagerAsset {release : GithubRelease} {asset : GithubAsset} (synced : Synced arrived before s) :
    Synced arrived before (syncManagerAsset release s asset) := by
  unfold RepoSync.syncManagerAsset
  by_cases manager : isManagerPackage asset.name = true
  case neg =>
    rw [if_pos (by simpa using manager)]
    exact synced
  rw [if_neg (by simpa using manager)]
  have like := likeManager_of_isManagerPackage manager
  have foreign {P : Prop} (own : likeManager asset.name = false) : P := by
    rw [like] at own
    cases own
  split
  · refine ⟨synced.files, fun pkg mem => ?_, synced.grown⟩
    rcases List.mem_append.mp mem with old | new
    · exact synced.packages pkg old
    · cases List.mem_singleton.mp new
      exact fun own => foreign own
  · have copied (sha256 : String) : Synced arrived before (copyTo s.1 "apt" ⟨asset.name, asset.info⟩,
        { s.2 with
          packagesSynced := s.2.packagesSynced + 1
          syncedPackages := s.2.syncedPackages ++ [asset.synced release "apt" none (some sha256)] }) := by
      refine synced.copied _ (fun agents => absurd (manager.symm.trans agents) (by decide)) fun pkg mem => ?_
      refine (List.mem_append.mp mem).imp id fun new => ?_
      cases List.mem_singleton.mp new
      exact fun own => foreign own
    cases asset.transfer with
    | downloadFailed reason => exact ⟨synced.files, synced.packages, synced.grown⟩
    | notCopied sha256 reason => exact ⟨synced.files, synced.packages, synced.grown⟩
    | notIndexed sha256 reason => exact copied sha256
    | imported sha256 => exact copied sha256

/-! ## Cycles -/

structure Catalogued (arrived : List Arrival) (repo : Repository) : Prop where
  files : FilesFrom arrived repo.files
  rows : ∀ row ∈ repo.rows, Recorded arrived repo.files row.filename row.version row.distro row.distroCodename

theorem runSyncCycle_synced {config : PackageSyncConfig} {repo : Repository} {cycle : Cycle} {s : Progress}
    (catalogued : Catalogued arrived repo) (sub : ∀ a ∈ arrivals config cycle, a ∈ arrived)
    (ran : runSyncCycle config repo cycle = some s) : Synced arrived repo.files s := by
  unfold runSyncCycle at ran
  unfold arrivals at sub
  cases listed : cycle.releases with
  | error reason =>
    simp only [listed] at ran
    cases ran
  | ok releases =>
    simp only [listed] at ran sub
    cases ran
    have start : Synced arrived repo.files (repo.files, {}) :=
      ⟨catalogued.files, fun pkg mem => by simp at mem, fun _ _ present => present⟩
    -- the assets of the releases, one after the other
    have agents := List.foldlRecOn (latestReleases config releases)
      (fun s release => release.assets.foldl (RepoSync.syncAsset (if cycle.existingRead then repo.rows else []) release) s)
      start (motive := Synced arrived repo.files) fun s synced release mem =>
        List.foldlRecOn release.assets _ synced fun s synced asset mem' => synced.syncAsset fun package copied =>
          sub _ (List.mem_flatMap.mpr ⟨release, mem, List.mem_map.mpr ⟨asset, by simp [mem', package, copied], rfl⟩⟩)
    unfold syncManagerPackages
    split
    · exact agents
    · cases cycle.managerReleases with
      | error reason => exact ⟨agents.files, agents.packages, agents.grown⟩
      | ok releases =>
        exact List.foldlRecOn _ _ agents fun s synced release _ =>
          List.foldlRecOn release.assets _ synced fun s synced asset _ => synced.syncManagerAsset

theorem mem_persist {rows : List RepoPackage} {packages : List SyncedPackage} {stored : SyncedPackage → Bool}
    {row : RepoPackage} (mem : row ∈ persist rows packages stored) : row ∈ rows ∨ ∃ pkg ∈ packages,
      row.filename = pkg.filename ∧ row.version = pkg.version ∧ row.distro = pkg.distro ∧
        row.distroCodename = pkg.distroCodename := by
  unfold persist at mem
  have all := List.foldlRecOn (packages.filter stored) upsert (b := rows) (motive := fun rows' => ∀ row ∈ rows',
    row ∈ rows ∨ ∃ pkg ∈ packages, row.filename = pkg.filename ∧ row.version = pkg.version ∧
      row.distro = pkg.distro ∧ row.distroCodename = pkg.distroCodename) (fun row mem => .inl mem)
    fun rows' kept pkg mem row mem' => by
      rcases List.mem_cons.mp mem' with rfl | old
      · exact .inr ⟨pkg, (List.mem_filter.mp mem).1, rfl, rfl, rfl, rfl⟩
      · exact kept row (List.mem_filter.mp old).1
  exact all row mem

theorem Catalogued.sync {config : PackageSyncConfig} {repo : Repository} {cycle : Cycle}
    (catalogued : Catalogued arrived repo) (sub : ∀ a ∈ arrivals config cycle, a ∈ arrived) :
    Catalogued arrived (sync config repo cycle) := by
  unfold RepoSync.sync
  cases ran : runSyncCycle config repo cycle with
  | none => exact catalogued
  | some s =>
    obtain ⟨files, result⟩ := s
    have synced := runSyncCycle_synced catalogued sub ran
    refine ⟨synced.files, fun row mem => ?_⟩
    rcases mem_persist mem with old | ⟨pkg, mem, filename, version, distro, codename⟩
    · exact (catalogued.rows row old).mono synced.grown
    · rw [filename, version, distro, codename]
      exact synced.packages pkg mem

/-- A run of cycles, from the empty repository. -/
theorem syncAll_catalogued (config : PackageSyncConfig) (cycles : List Cycle) :
    Catalogued (cycles.flatMap (arrivals config)) (syncAll config cycles) :=
  List.foldlRecOn cycles (RepoSync.sync config) (motive := Catalogued (cycles.flatMap (arrivals config)))
    ⟨fun _ _ mem => by simp [initial] at mem, fun _ mem => by simp [initial] at mem⟩
    fun _ catalogued cycle mem => catalogued.sync fun a came => List.mem_flatMap.mpr ⟨cycle, mem, came⟩

/-! ## The indexes -/

theorem entry_of_info {file : PackageFile} {info : PackageInfo} (read : file.info = some info) :
    file.entry = some ⟨file.filename, info⟩ := by
  simp [PackageFile.entry, read]

/-- What is selected and can be read is listed. -/
theorem mem_listed {selected : List PackageFile} {file : PackageFile} {info : PackageInfo} (mem : file ∈ selected)
    (read : file.info = some info) :
    ⟨file.filename, info⟩ ∈ (sortFiles selected).filterMap PackageFile.entry :=
  List.mem_filterMap.mpr ⟨file, List.mem_mergeSort.mpr mem, entry_of_info read⟩

theorem mem_keepLatest {latest : List IndexEntry} {entry e : IndexEntry} (mem : e ∈ keepLatest latest entry) :
    e = entry ∨ e ∈ latest := by
  unfold keepLatest at mem
  split at mem
  · split at mem
    · exact (List.mem_cons.mp mem).imp id fun mem => (List.mem_filter.mp mem).1
    · exact .inr mem
  · exact List.mem_cons.mp mem

/-- A name that is there, or comes now, has an entry. -/
theorem name_mem_keepLatest {latest : List IndexEntry} {entry : IndexEntry} {name : String}
    (named : entry.info.name = name ∨ ∃ e ∈ latest, e.info.name = name) :
    ∃ e ∈ keepLatest latest entry, e.info.name = name := by
  unfold keepLatest
  split
  case h_1 existing found =>
    have same : existing.info.name = entry.info.name := by simpa using List.find?_some found
    split
    · rcases named with eq | ⟨e, mem, eq⟩
      · exact ⟨entry, List.mem_cons_self, eq⟩
      · by_cases replaced : e.info.name = entry.info.name
        · exact ⟨entry, List.mem_cons_self, replaced ▸ eq⟩
        · exact ⟨e, List.mem_cons_of_mem _ (List.mem_filter.mpr ⟨mem, by simpa using replaced⟩), eq⟩
    · rcases named with eq | ⟨e, mem, eq⟩
      · exact ⟨existing, List.mem_of_find?_eq_some found, same.trans eq⟩
      · exact ⟨e, mem, eq⟩
  case h_2 =>
    rcases named with eq | ⟨e, mem, eq⟩
    · exact ⟨entry, List.mem_cons_self, eq⟩
    · exact ⟨e, List.mem_cons_of_mem _ mem, eq⟩

theorem foldl_keepLatest (entries latest : List IndexEntry) :
    (∀ e ∈ entries.foldl keepLatest latest, e ∈ entries ∨ e ∈ latest) ∧
      ∀ e, (e ∈ entries ∨ e ∈ latest) → ∃ e' ∈ entries.foldl keepLatest latest, e'.info.name = e.info.name := by
  induction entries generalizing latest with
  | nil => exact ⟨fun e mem => .inr mem, fun e mem => ⟨e, mem.resolve_left List.not_mem_nil, rfl⟩⟩
  | cons entry rest ih =>
    obtain ⟨from_, kept⟩ := ih (keepLatest latest entry)
    constructor
    · intro e mem
      rcases from_ e mem with mem | mem
      · exact .inl (List.mem_cons_of_mem _ mem)
      · rcases mem_keepLatest mem with rfl | mem
        · exact .inl List.mem_cons_self
        · exact .inr mem
    · intro e mem
      have named : e ∈ rest ∨ ∃ e' ∈ keepLatest latest entry, e'.info.name = e.info.name := by
        rcases mem with mem | mem
        · rcases List.mem_cons.mp mem with rfl | mem
          · exact .inr (name_mem_keepLatest (.inl rfl))
          · exact .inl mem
        · exact .inr (name_mem_keepLatest (.inr ⟨e, mem, rfl⟩))
      rcases named with mem | ⟨e', mem, eq⟩
      · exact kept e (.inl mem)
      · obtain ⟨e'', mem'', eq'⟩ := kept e' (.inr mem)
        exact ⟨e'', mem'', eq'.trans eq⟩

theorem endsWith_filename (file : PackageFile) (suffix : String) :
    file.endsWith suffix = endsWith file.filename suffix := rfl

/-- A name ends in one of two ways at most. -/
theorem not_endsWith {name long : String} (short : String) (ends : endsWith name long = true)
    (shorter : short.toList.length ≤ long.toList.length)
    (other : short.toList.isSuffixOf long.toList = false) : endsWith name short = false := by
  rw [Bool.eq_false_iff] at other ⊢
  intro ends'
  exact other (List.isSuffixOf_iff_suffix.mpr (List.suffix_of_suffix_length_le
    (List.isSuffixOf_iff_suffix.mp ends') (List.isSuffixOf_iff_suffix.mp ends) shorter))

/-- The database has a package of every name, from a file that is there. -/
theorem pacman_named {packages : List PackageFile} {file : PackageFile} {info : PackageInfo} (mem : file ∈ packages)
    (ends : endsWith file.filename ".pkg.tar.zst" = true) (read : file.info = some info) :
    ∃ entry ∈ generatePacmanMetadata packages, entry.info.name = info.name ∧ ∃ file' ∈ packages,
      endsWith file'.filename ".pkg.tar.zst" = true ∧ file'.info = some entry.info := by
  have noSig := not_endsWith ".sig" ends (by decide +kernel) (by decide +kernel)
  have noDb := not_endsWith ".db.tar.zst" ends (by decide +kernel) (by decide +kernel)
  have selected : file ∈ packages.filter fun file =>
      file.endsWith ".pkg.tar.zst" && !file.endsWith ".sig" && !file.endsWith ".db.tar.zst" := by
    refine List.mem_filter.mpr ⟨mem, ?_⟩
    simp only [endsWith_filename, ends, noSig, noDb]
    rfl
  obtain ⟨from_, kept⟩ := foldl_keepLatest ((sortFiles (packages.filter fun file =>
    file.endsWith ".pkg.tar.zst" && !file.endsWith ".sig" && !file.endsWith ".db.tar.zst")).filterMap PackageFile.entry) []
  obtain ⟨entry, mem', name⟩ := kept _ (.inl (mem_listed selected read))
  refine ⟨entry, mem', name, ?_⟩
  obtain ⟨file', mem'', eq⟩ := List.mem_filterMap.mp ((from_ entry mem').resolve_right List.not_mem_nil)
  obtain ⟨inDir, ends'⟩ := List.mem_filter.mp (List.mem_mergeSort.mp mem'')
  refine ⟨file', inDir, ?_, ?_⟩
  · simp only [Bool.and_eq_true] at ends'
    exact ends'.1.1
  · unfold PackageFile.entry at eq
    obtain ⟨info', read', rfl⟩ := Option.map_eq_some_iff.mp eq
    exact read'

theorem endsWith_of_detected {name distro : String} (detected : detectDistroFromFilename name = some distro) :
    (distro = "apt" ∧ endsWith name ".deb" = true) ∨ (distro = "dnf" ∧ endsWith name ".rpm" = true) ∨
      (distro = "apk" ∧ endsWith name ".apk" = true) ∨ (distro = "pacman" ∧ endsWith name ".pkg.tar.zst" = true) := by
  unfold detectDistroFromFilename at detected
  split_ifs at detected <;> cases detected <;> simp_all

/-! ## The catalogue -/

theorem mem_offered {rows : List RepoPackage} {distro : String} {codename : Option String} {row : RepoPackage}
    (mem : row ∈ offered rows distro codename) : row ∈ rows ∧ row.distro = distro ∧
      (row.distroCodename = codename ∨ row.distroCodename = none) ∧ likeManager row.filename = false := by
  obtain ⟨mem, conditions⟩ := List.mem_filter.mp mem
  simp only [Bool.and_eq_true, Bool.or_eq_true, beq_iff_eq, Bool.not_eq_true'] at conditions
  obtain ⟨⟨same, codename⟩, own⟩ := conditions
  exact ⟨mem, same, codename.imp (·.2) id, own⟩

/-- A row that is offered stands for a file of its version. -/
theorem Catalogued.file {repo : Repository} (catalogued : Catalogued arrived repo) (order : InOrder arrived)
    {row : RepoPackage} (mem : row ∈ repo.rows) (own : likeManager row.filename = false) :
    ∃ file ∈ repo.files row.distro, file.filename = row.filename ∧ ∃ info, file.info = some info ∧
      versionBase info.version = versionBase row.version := by
  obtain ⟨-, -, present, a, came, name, version⟩ := catalogued.rows row mem own
  obtain ⟨file, inDir, eq⟩ := List.any_eq_true.mp present
  have filename : file.filename = row.filename := beq_iff_eq.mp eq
  -- whatever came last under the name has the version of what is recorded
  have agents : isManagerPackage file.filename = false := by
    rw [filename, Bool.eq_false_iff]
    exact fun manager => absurd (likeManager_of_isManagerPackage manager) (Bool.eq_false_iff.mp own)
  obtain ⟨b, came', name', info', -⟩ := catalogued.files _ file inDir agents
  obtain ⟨info, read, same⟩ := order.version b came' (by rw [name', filename]; exact own)
  refine ⟨file, inDir, filename, info, info' ▸ read, same.trans ?_⟩
  rw [← version]
  exact order.filename b came' a came (by rw [name', filename, name]) (by rw [name', filename]; exact own)

theorem offered_installable {repo : Repository} (catalogued : Catalogued arrived repo) (order : InOrder arrived)
    {osName distro : String} {codename : Option String} (mapped : mapOsToDistro osName = some (distro, codename))
    {row : RepoPackage} (mem : row ∈ offered repo.rows distro codename) :
    Installable repo.files osName row.version := by
  obtain ⟨isRow, same, suite, own⟩ := mem_offered mem
  obtain ⟨detected, recorded, -, a, came, name, -⟩ := catalogued.rows row isRow own
  obtain ⟨file, inDir, filename, info, read, version⟩ := catalogued.file order isRow own
  rw [same] at detected recorded inDir
  unfold Installable hostIndex
  simp only [mapped]
  rcases endsWith_of_detected detected with ⟨rfl, ends⟩ | ⟨rfl, ends⟩ | ⟨rfl, ends⟩ | ⟨rfl, ends⟩
  · -- the suite of the row is that of the name of its file, so it is the suite of the host
    obtain ⟨known, isSuite, token⟩ := order.suite a came (by rw [name]; exact ends) (by rw [name]; exact own)
    rw [name] at token
    rw [detectCodenameFromFilename, if_pos rfl] at recorded
    cases found : aptSuites.find? (hasSuiteToken · row.filename) with
    | none => exact absurd token (List.find?_eq_none.mp found known isSuite)
    | some suite' =>
      rw [found] at recorded
      have host : codename = some suite' := suite.elim (fun eq => eq.symm.trans recorded) fun none_ => by
        rw [recorded] at none_
        cases none_
      rw [if_pos rfl, host]
      refine ⟨_, mem_listed (List.mem_filter.mpr ⟨inDir, ?_⟩) read, version⟩
      have here : hasSuiteToken suite' file.filename = true := by
        rw [filename]
        simpa using List.find?_some found
      rw [endsWith_filename, filename, ends, ← filename, here]
      rfl
  · rw [if_neg (by decide), if_pos rfl]
    exact ⟨_, mem_listed (List.mem_filter.mpr ⟨inDir, by rw [endsWith_filename, filename]; exact ends⟩) read, version⟩
  · rw [if_neg (by decide), if_neg (by decide), if_pos rfl]
    exact ⟨_, mem_listed (List.mem_filter.mpr ⟨inDir, by rw [endsWith_filename, filename]; exact ends⟩) read, version⟩
  · -- the latest package of the name has the same version
    rw [if_neg (by decide), if_neg (by decide), if_neg (by decide), if_pos rfl]
    obtain ⟨entry, listed, named, file', inDir', ends', read'⟩ :=
      pacman_named inDir (by rw [filename]; exact ends) read
    have agents {f : PackageFile} (ends : endsWith f.filename ".pkg.tar.zst" = true) :
        isManagerPackage f.filename = false := by
      rw [isManagerPackage, not_endsWith ".deb" ends (by decide +kernel) (by decide +kernel), Bool.and_false]
    have ends'' : endsWith file.filename ".pkg.tar.zst" = true := by rw [filename]; exact ends
    obtain ⟨b, came₁, name₁, info₁, -⟩ := catalogued.files _ file' inDir' (agents ends')
    obtain ⟨c, came₂, name₂, info₂, -⟩ := catalogued.files _ file inDir (agents ends'')
    refine ⟨entry, listed, Eq.trans ?_ version⟩
    exact order.pacman b came₁ c came₂ (name₁ ▸ ends') (name₂ ▸ ends'') _ _ (info₁.trans read') (info₂.trans read) named

theorem mem_listAvailableVersions {rows : List RepoPackage} {osName : Option String} {v : RepoAvailableVersion}
    (mem : v ∈ listAvailableVersions rows osName) : ∃ os distro codename, osName = some os ∧
      mapOsToDistro os = some (distro, codename) ∧ ∃ row ∈ offered rows distro codename, row.version = v.version := by
  unfold listAvailableVersions at mem
  split at mem
  · cases mem
  case h_2 distro codename mapped =>
    obtain ⟨os, rfl, mapped⟩ := Option.bind_eq_some_iff.mp mapped
    obtain ⟨row, distinct, rfl⟩ := List.mem_map.mp (List.mem_mergeSort.mp mem)
    exact ⟨os, distro, codename, rfl, mapped, row,
      List.mem_mergeSort.mp ((List.destutter_sublist _ _).subset distinct), rfl⟩

theorem resolveVersion_ok {rows : List RepoPackage} {target : Option String} {host : Option UpgradeHost}
    {version : String} (resolved : resolveVersion rows target host = .ok version) : ∃ h os distro codename,
      host = some h ∧ h.osName = some os ∧ mapOsToDistro os = some (distro, codename) ∧
        ∃ row ∈ offered rows distro codename, row.version = version := by
  have listed {distro : String} {codename : Option String} (mem : version ∈ availableVersions rows distro codename) :
      ∃ row ∈ offered rows distro codename, row.version = version := by
    have := List.mem_dedup.mp (List.mem_mergeSort.mp (List.mem_mergeSort.mp mem))
    exact List.mem_map.mp this
  cases host with
  | none => cases resolved
  | some h =>
    cases os : h.osName with
    | none =>
      simp only [resolveVersion, os] at resolved
      cases resolved
    | some os' =>
      cases mapped : mapOsToDistro os' with
      | none =>
        simp only [resolveVersion, os, mapped] at resolved
        cases resolved
      | some suite =>
        obtain ⟨distro, codename⟩ := suite
        refine ⟨h, os', distro, codename, rfl, os, mapped, listed ?_⟩
        simp only [resolveVersion, os, mapped] at resolved
        cases available : availableVersions rows distro codename with
        | nil =>
          simp only [available] at resolved
          cases resolved
        | cons latest rest =>
          simp only [available] at resolved
          -- the version is the one asked for, or the latest
          have result {v : String} (checked : (if h.agentVersion.any fun current => versionBase current == versionBase v
              then throw ("Host is already at version " ++ v) else pure v : Except String String) = .ok version) :
              v = version := by
            split at checked
            · cases checked
            · exact Except.ok.inj checked
          cases target with
          | none => exact result resolved ▸ List.mem_cons_self
          | some asked =>
            by_cases mem : asked ∈ latest :: rest
            · simp only [if_pos mem] at resolved
              exact result resolved ▸ mem
            · simp only [if_neg mem] at resolved
              cases resolved

/-- A version that is asked for and available is taken, whatever runs on the host. -/
theorem resolveVersion_asked {rows : List RepoPackage} {os distro asked : String} {codename : Option String}
    (mapped : mapOsToDistro os = some (distro, codename)) (mem : asked ∈ availableVersions rows distro codename) :
    resolveVersion rows (some asked) (some ⟨some os, none⟩) = .ok asked := by
  simp only [resolveVersion, mapped]
  cases available : availableVersions rows distro codename with
  | nil =>
    rw [available] at mem
    cases mem
  | cons latest rest =>
    rw [available] at mem
    simp only [if_pos mem]
    rfl

theorem mem_resolveHosts {rows : List RepoPackage} {hosts : Uuid → Option UpgradeHost} {target : Option String}
    {hostIds : List Uuid} {hostId : Uuid} {version : String}
    (mem : (hostId, version) ∈ (resolveHosts rows hosts target hostIds).2) :
    resolveVersion rows target (hosts hostId) = .ok version := by
  unfold resolveHosts at mem
  refine List.foldlRecOn hostIds _ (b := ([], [])) (motive := fun s : List SkippedHost × List (Uuid × String) =>
    ∀ x ∈ s.2, resolveVersion rows target (hosts x.1) = .ok x.2) (fun x mem => by cases mem) ?_ _ mem
  intro s resolved id _ x mem
  obtain ⟨skipped, valid⟩ := s
  dsimp only at mem
  split at mem
  · exact resolved x mem
  case h_2 found =>
    rcases List.mem_append.mp mem with mem | mem
    · exact resolved x mem
    · cases List.mem_singleton.mp mem
      exact found

/-- What the catalogue promises of a repository. -/
structure CatalogueInstallable (repo : Repository) : Prop where
  listed : ∀ osName, ∀ v ∈ listAvailableVersions repo.rows (some osName), Installable repo.files osName v.version
  triggered : ∀ hosts targetVersion hostIds hostId version,
    (hostId, version) ∈ (resolveHosts repo.rows hosts targetVersion hostIds).2 →
      ∃ host osName, hosts hostId = some host ∧ host.osName = some osName ∧ Installable repo.files osName version

namespace Small

def config : PackageSyncConfig := ⟨10, ""⟩

def asset (name version : String) : GithubAsset := ⟨name, 1, some ⟨"linux-patch-api", version⟩, .imported "hash"⟩

def release (version : String) (asset : GithubAsset) : GithubRelease := ⟨"v" ++ version, false, [asset], none⟩

/-- A release for Ubuntu. -/
def ubuntu : Cycle where
  releases := .ok [release "2.6.11" (asset "linux-patch-api_2.6.11_u2404_amd64.deb" "2.6.11-1")]
  managerReleases := .ok []
  existingRead := true
  stored _ := true

def older : GithubAsset := asset "linux-patch-api-2.6.10-1-x86_64.pkg.tar.zst" "2.6.10-1"

def newer : GithubAsset := asset "linux-patch-api-2.6.11-1-x86_64.pkg.tar.zst" "2.6.11-1"

/-- Two releases for Arch, the newer one first. -/
def arch : Cycle := { ubuntu with releases := .ok [release "2.6.11" newer, release "2.6.10" older] }

end Small

end PatchManager.RepoSync
