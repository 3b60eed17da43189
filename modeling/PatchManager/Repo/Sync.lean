import PatchManager.Db.Types
import PatchManager.Repo.Metadata

/-! # Synchronising the repository

`repo_sync.rs` and what the worker does with its result: the packages of the latest releases are
downloaded and copied to where the generators find them, and those that were imported are
recorded in `repo_packages`.  How each transfer ends comes with the asset.
-/

namespace PatchManager.RepoSync

/-- How far an asset gets when it is fetched. -/
inductive Transfer where
  | downloadFailed (reason : String)
  | notCopied (sha256 reason : String)
  /-- the copy is there, and what follows fails -/
  | notIndexed (sha256 reason : String)
  | imported (sha256 : String)
deriving DecidableEq, Repr

def Transfer.copied : Transfer → Bool
  | .notIndexed _ _ | .imported _ => true
  | _ => false

structure GithubAsset where
  name : String
  size : Int
  info : Option PackageInfo
  transfer : Transfer
deriving DecidableEq

structure GithubRelease where
  tagName : String
  prerelease : Bool
  assets : List GithubAsset
  publishedAt : Option Time

structure SyncedPackage where
  filename : String
  version : String
  distro : String
  distroCodename : Option String
  fileSize : Int
  sha256 : Option String
  publishedAt : Option Time
deriving DecidableEq

structure SyncResult where
  packagesSynced : Nat := 0
  packagesSkipped : Nat := 0
  errors : List String := []
  syncedPackages : List SyncedPackage := []

/-- What is read of the section `package_sync` of the configuration. -/
structure PackageSyncConfig where
  maxReleases : Nat
  managerGithubRepo : String

/-! ## Names of files -/

def endsWith (name suffix : String) : Bool := suffix.toList.isSuffixOf name.toList

def isPackageFile (name : String) : Bool :=
  endsWith name ".deb" || endsWith name ".rpm" || endsWith name ".apk" || endsWith name ".pkg.tar.zst"

def isManagerPackage (name : String) : Bool :=
  "linux-patch-manager".toList.isPrefixOf name.toList && endsWith name ".deb"

def detectDistroFromFilename (name : String) : Option String :=
  if endsWith name ".deb" then some "apt"
  else if endsWith name ".rpm" then some "dnf"
  else if endsWith name ".apk" then some "apk"
  else if endsWith name ".pkg.tar.zst" then some "pacman"
  else none

def detectCodenameFromFilename (name distro : String) : Option String :=
  let lower := Str.toAsciiLowercase name.toList
  if distro = "apt" then aptSuites.find? (hasSuiteToken · name)
  else if distro = "dnf" then
    if Str.contains dnfCodename.toList lower || Str.contains "fc".toList lower then some dnfCodename else none
  else if distro = "apk" then
    if Str.contains apkCodename.toList lower then some apkCodename else none
  else if distro = "pacman" then some "x86_64"
  else none

/-! ## The repository -/

/-- A row of `repo_packages`. -/
structure RepoPackage where
  filename : String
  version : String
  distro : String
  distroCodename : Option String
  arch : String
  fileSize : Int
  sha256 : Option String
  publishedAt : Option Time
deriving DecidableEq

structure Repository where
  /-- the packages in the directory of each format -/
  files : String → List PackageFile
  rows : List RepoPackage

/-- A file that is there already is overwritten. -/
def copyTo (files : String → List PackageFile) (distro : String) (file : PackageFile) : String → List PackageFile :=
  Function.update files distro (file :: (files distro).filter (·.filename != file.filename))

def isPresent (files : String → List PackageFile) (distro filename : String) : Bool :=
  (files distro).any (·.filename == filename)

/-! ## A cycle -/

def GithubRelease.version (release : GithubRelease) : String :=
  match release.tagName.toList with
  | 'v' :: rest => String.ofList rest
  | _ => release.tagName

/-- The asset as a package, once its hash is known. -/
def GithubAsset.synced (asset : GithubAsset) (release : GithubRelease) (distro : String)
    (distroCodename sha256 : Option String) : SyncedPackage where
  filename := asset.name
  version := release.version
  distro
  distroCodename
  fileSize := asset.size
  sha256
  publishedAt := release.publishedAt

/-- Recorded with a hash, and still there. -/
def unchanged (existing : List RepoPackage) (files : String → List PackageFile) (name version distro : String) : Bool :=
  (existing.any fun p => p.filename == name && p.version == version && p.distro == distro && p.sha256.isSome) &&
    isPresent files distro name

abbrev Progress := (String → List PackageFile) × SyncResult

def skip (s : Progress) : Progress := (s.1, { s.2 with packagesSkipped := s.2.packagesSkipped + 1 })

def syncAsset (existing : List RepoPackage) (release : GithubRelease) (s : Progress) (asset : GithubAsset) : Progress :=
  if !isPackageFile asset.name then skip s
  else match detectDistroFromFilename asset.name with
    | none => skip s
    | some distro =>
      let codename := detectCodenameFromFilename asset.name distro
      if unchanged existing s.1 asset.name release.version distro then skip s
      else
        let files := if asset.transfer.copied then copyTo s.1 distro ⟨asset.name, asset.info⟩ else s.1
        match asset.transfer with
        | .downloadFailed reason =>
          skip (files, { s.2 with errors := s.2.errors ++ ["Download failed for " ++ asset.name ++ ": " ++ reason] })
        | .notCopied _ reason | .notIndexed _ reason =>
          skip (files, { s.2 with errors := s.2.errors ++ ["Import failed for " ++ asset.name ++ ": " ++ reason] })
        | .imported sha256 =>
          (files, { s.2 with
            packagesSynced := s.2.packagesSynced + 1
            syncedPackages := s.2.syncedPackages ++ [asset.synced release distro codename (some sha256)] })

/-- A package of the manager only has to be copied to the pool. -/
def syncManagerAsset (release : GithubRelease) (s : Progress) (asset : GithubAsset) : Progress :=
  if !isManagerPackage asset.name then s
  else if isPresent s.1 "apt" asset.name then
    (s.1, { s.2 with syncedPackages := s.2.syncedPackages ++ [asset.synced release "apt" none none] })
  else match asset.transfer with
    | .downloadFailed reason =>
      (s.1, { s.2 with
        errors := s.2.errors ++ ["Manager sync: download failed for " ++ asset.name ++ ": " ++ reason] })
    | .notCopied _ reason =>
      (s.1, { s.2 with
        errors := s.2.errors ++ ["Manager sync: failed to copy " ++ asset.name ++ " to pool: " ++ reason] })
    | .notIndexed sha256 _ | .imported sha256 =>
      (copyTo s.1 "apt" ⟨asset.name, asset.info⟩, { s.2 with
        packagesSynced := s.2.packagesSynced + 1
        syncedPackages := s.2.syncedPackages ++ [asset.synced release "apt" none (some sha256)] })

/-- The releases that are gone through. -/
def latestReleases (config : PackageSyncConfig) (releases : List GithubRelease) : List GithubRelease :=
  (releases.filter (!·.prerelease)).take config.maxReleases

def syncManagerPackages (config : PackageSyncConfig) (releases : Except String (List GithubRelease)) (s : Progress) :
    Progress :=
  if config.managerGithubRepo.isEmpty then s
  else match releases with
    | .error reason => (s.1, { s.2 with errors := s.2.errors ++ ["Manager sync: " ++ reason] })
    | .ok releases =>
      (latestReleases config releases).foldl
        (fun s release => release.assets.foldl (syncManagerAsset release) s) s

/-- What a cycle meets with outside. -/
structure Cycle where
  releases : Except String (List GithubRelease)
  managerReleases : Except String (List GithubRelease)
  /-- the rows can be read at the start; else the cycle goes on with none -/
  existingRead : Bool
  /-- the packages whose rows can be written at the end -/
  stored : SyncedPackage → Bool

/-- There is no result when the releases cannot be listed. -/
def runSyncCycle (config : PackageSyncConfig) (repo : Repository) (cycle : Cycle) : Option Progress :=
  let existing := if cycle.existingRead then repo.rows else []
  match cycle.releases with
  | .error _ => none
  | .ok releases =>
    let synced := (latestReleases config releases).foldl
      (fun s release => release.assets.foldl (syncAsset existing release) s) (repo.files, {})
    some (syncManagerPackages config cycle.managerReleases synced)

/-- `INSERT … ON CONFLICT (filename, version, distro, arch) DO UPDATE`. -/
def upsert (rows : List RepoPackage) (pkg : SyncedPackage) : List RepoPackage :=
  { filename := pkg.filename, version := pkg.version, distro := pkg.distro, distroCodename := pkg.distroCodename
    arch := "amd64", fileSize := pkg.fileSize, sha256 := pkg.sha256, publishedAt := pkg.publishedAt } ::
    rows.filter fun row => !(row.filename == pkg.filename && row.version == pkg.version && row.distro == pkg.distro &&
      row.arch == "amd64")

/-- Errors of the inserts are ignored. -/
def persist (rows : List RepoPackage) (packages : List SyncedPackage) (stored : SyncedPackage → Bool) :
    List RepoPackage :=
  (packages.filter stored).foldl upsert rows

def sync (config : PackageSyncConfig) (repo : Repository) (cycle : Cycle) : Repository :=
  match runSyncCycle config repo cycle with
  | none => repo
  | some (files, result) => { files, rows := persist repo.rows result.syncedPackages cycle.stored }

def initial : Repository := ⟨fun _ => [], []⟩

def syncAll (config : PackageSyncConfig) (cycles : List Cycle) : Repository := cycles.foldl (sync config) initial

end PatchManager.RepoSync
