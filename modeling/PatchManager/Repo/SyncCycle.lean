import PatchManager.Repo.Files
import PatchManager.Repo.Sync

/-! # A sync cycle on disk

`run_sync_cycle` of `repo_sync.rs` with the files it looks at and writes: which assets are skipped, and what
stands on disk when that is decided.  What goes wrong outside comes with each asset, and before it is
handled others may have changed any file.  The index files are left out.
-/

namespace PatchManager.SyncCycle

open PatchManager.RepoSync

/-- What an asset meets with when it is handled. -/
structure Circumstances where
  /-- what others have done to the files before -/
  meanwhile : Files → Files
  /-- why `try_exists` fails -/
  lookup : Option String
  /-- what an address gives -/
  get : String → Except String (List UInt8)
  /-- why the download cannot be written -/
  write : Option String
  /-- why it cannot be copied -/
  copy : Option String
  /-- an `apk` package with the signature of the manager, if it can be signed -/
  resigned : Option (List UInt8)
  /-- why the index cannot be written -/
  index : Option String

structure Asset where
  name : String
  browserDownloadUrl : String
  size : UInt64
  circumstances : Circumstances

structure Release where
  tagName : String
  prerelease : Bool
  assets : List Asset
  publishedAt : Option Time

structure ExistingPackage where
  filename : String
  version : String
  distro : String
  sha256 : Option String

/-- What packages are looked up by. -/
structure Key where
  filename : String
  version : String
  distro : String
deriving DecidableEq

def ExistingPackage.key (p : ExistingPackage) : Key := ⟨p.filename, p.version, p.distro⟩

/-- `existing_map`: of two packages with the same key the later one counts. -/
def existingMap (existing : List ExistingPackage) (key : Key) : Option (Option String) :=
  (existing.reverse.find? (·.key = key)).map (·.sha256)

/-! ## Files -/

def tryExists (failure : Option String) (path : String) (files : Files) : Except String Bool :=
  match failure with
  | some e => .error e
  | none => .ok (files path).isSome

/-- `Path::file_name`. -/
def fileName (path : String) : Option String :=
  match ((path.toList.splitOn '/').filter fun part => part ≠ [] ∧ part ≠ ['.']).getLast? with
  | none => none
  | some part => if part = ['.', '.'] then none else some (.ofList part)

/-- The name for a path that has none. -/
def defaultName (distro : String) : String :=
  if distro = "apt" then "package.deb"
  else if distro = "dnf" then "package.rpm"
  else if distro = "apk" then "package.apk"
  else "package.pkg.tar.zst"

/-- Where `import_to_repo` copies a file to. -/
def importPath (repoDir distro filePath : String) : Option String :=
  packagePath repoDir distro ((fileName filePath).getD (defaultName distro))

section

variable (digest : List UInt8 → String) (c : Circumstances)

def downloadAsset (url path : String) (files : Files) : Except String String × Files :=
  match c.get url, c.write with
  | .error e, _ | .ok _, some e => (.error e, files)
  | .ok bytes, none => (.ok (digest bytes), Function.update files path (some bytes))

def copyFile (source dest : String) (files : Files) : Except String Unit × Files :=
  match c.copy with
  | some e => (.error e, files)
  | none => (.ok (), Function.update files dest (files source))

/-- That a package of `apk` cannot be signed, or its index, is not an error. -/
def importToRepo (filePath distro : String) (_codename : Option String) (repoDir : String) (files : Files) :
    Except String Unit × Files :=
  match importPath repoDir distro filePath with
  | none => (.error ("Unsupported distro: " ++ distro), files)
  | some dest =>
    match copyFile c filePath dest files with
    | (.error e, files) => (.error e, files)
    | (.ok (), files) =>
      if distro = "apk" then
        (.ok (), c.resigned.elim files fun bytes => Function.update files dest (some bytes))
      else (c.index.elim (.ok ()) .error, files)

end

/-! ## Assets -/

/-- What there is when it is decided whether an asset has to be downloaded. -/
structure Decision where
  key : Key
  /-- an asset of `sync_manager_packages` -/
  manager : Bool
  files : Files
  lookup : Option String
  /-- where the file is looked for -/
  looked : Option String
  /-- where it goes when it is downloaded -/
  destination : Option String
  downloads : Bool

structure Progress where
  files : Files
  result : SyncResult
  /-- the decisions so far -/
  decisions : List Decision

def Progress.skip (s : Progress) : Progress :=
  { s with result := { s.result with packagesSkipped := s.result.packagesSkipped + 1 } }

def Progress.fail (s : Progress) (message : String) : Progress :=
  { s with result := { s.result with errors := s.result.errors ++ [message] } }

def Progress.add (s : Progress) (package : SyncedPackage) : Progress :=
  { s with result := { s.result with syncedPackages := s.result.syncedPackages ++ [package] } }

def Progress.sync (s : Progress) (package : SyncedPackage) : Progress :=
  { s with result := { s.result with
      packagesSynced := s.result.packagesSynced + 1
      syncedPackages := s.result.syncedPackages ++ [package] } }

/-- `remove_file`, whose failure is ignored. -/
def Progress.cleanUp (s : Progress) (path : String) : Progress :=
  { s with files := (removeFile none path s.files).2 }

def Release.version (release : Release) : String :=
  match release.tagName.toList with
  | 'v' :: rest => String.ofList rest
  | _ => release.tagName

def Asset.synced (asset : Asset) (release : Release) (distro : String) (distroCodename sha256 : Option String) :
    SyncedPackage where
  filename := asset.name
  version := release.version
  distro
  distroCodename
  fileSize := asset.size.toBitVec.toInt
  sha256
  publishedAt := release.publishedAt

/-- A file that is recorded with a checksum is on disk. -/
def unchanged (existing : List ExistingPackage) (key : Key) (lookup looked : Option String) (files : Files) : Bool :=
  match existingMap existing key, looked with
  | some (some _), some path => (tryExists lookup path files).toOption.getD false
  | _, _ => false

section

variable (digest : List UInt8 → String) (repoDir : String)

/-- An asset that is not skipped. -/
def fetchAsset (release : Release) (asset : Asset) (distro : String) (codename : Option String) (s : Progress) :
    Progress :=
  let downloadPath := repoDir ++ "/tmp/" ++ asset.name
  match downloadAsset digest asset.circumstances asset.browserDownloadUrl downloadPath s.files with
  | (.ok sha256, files) =>
    let s := match importToRepo asset.circumstances downloadPath distro codename repoDir files with
      | (.error e, files) => ({ s with files }.fail ("Import failed for " ++ asset.name ++ ": " ++ e)).skip
      | (.ok (), files) => { s with files }.sync (asset.synced release distro codename (some sha256))
    s.cleanUp downloadPath
  | (.error e, files) => ({ s with files }.fail ("Download failed for " ++ asset.name ++ ": " ++ e)).skip

def syncAsset (existing : List ExistingPackage) (release : Release) (s : Progress) (asset : Asset) : Progress :=
  let s := { s with files := asset.circumstances.meanwhile s.files }
  if !isPackageFile asset.name then s.skip
  else match detectDistroFromFilename asset.name with
    | none => s.skip
    | some distro =>
      let codename := detectCodenameFromFilename asset.name distro
      let key := ⟨asset.name, release.version, distro⟩
      let localPath := localPackagePath repoDir distro codename asset.name
      let skips := unchanged existing key asset.circumstances.lookup localPath s.files
      let s := { s with decisions := s.decisions ++ [{
        key, manager := false, files := s.files, lookup := asset.circumstances.lookup, looked := localPath
        destination := importPath repoDir distro (repoDir ++ "/tmp/" ++ asset.name), downloads := !skips }] }
      if skips then s.skip else fetchAsset digest repoDir release asset distro codename s

def fetchManagerAsset (release : Release) (asset : Asset) (dest : String) (s : Progress) : Progress :=
  let tmpPath := repoDir ++ "/tmp/" ++ asset.name
  match downloadAsset digest asset.circumstances asset.browserDownloadUrl tmpPath s.files with
  | (.ok sha256, files) =>
    let s := match copyFile asset.circumstances tmpPath dest files with
      | (.error e, files) =>
        { s with files }.fail ("Manager sync: failed to copy " ++ asset.name ++ " to pool: " ++ e)
      | (.ok (), files) => { s with files }.sync (asset.synced release "apt" none (some sha256))
    s.cleanUp tmpPath
  | (.error e, files) => { s with files }.fail ("Manager sync: download failed for " ++ asset.name ++ ": " ++ e)

def syncManagerAsset (release : Release) (s : Progress) (asset : Asset) : Progress :=
  let s := { s with files := asset.circumstances.meanwhile s.files }
  if !isManagerPackage asset.name then s
  else
    let dest := repoDir ++ "/apt/pool/" ++ asset.name
    let skips := (tryExists asset.circumstances.lookup dest s.files).toOption.getD false
    let s := { s with decisions := s.decisions ++ [{
      key := ⟨asset.name, release.version, "apt"⟩, manager := true, files := s.files
      lookup := asset.circumstances.lookup, looked := some dest, destination := some dest, downloads := !skips }] }
    if skips then s.add (asset.synced release "apt" none none)
    else fetchManagerAsset digest repoDir release asset dest s

/-! ## The cycle -/

/-- The releases that are gone through. -/
def latestReleases (config : PackageSyncConfig) (releases : List Release) : List Release :=
  (releases.filter (!·.prerelease)).take config.maxReleases

/-- What is fetched, and how the regeneration of the indexes ends. -/
structure Outside where
  releases : Except String (List Release)
  managerReleases : Except String (List Release)
  metadataErrors : List (String × String)

def syncManagerPackages (config : PackageSyncConfig) (outside : Outside) (s : Progress) : Progress :=
  if config.managerGithubRepo = "" then s
  else match outside.managerReleases with
    | .error e => s.fail ("Manager sync: " ++ e)
    | .ok releases => (latestReleases config releases).foldl
        (fun s release => release.assets.foldl (syncManagerAsset digest repoDir release) s) s

def regenerate (errors : List (String × String)) (s : Progress) : Progress :=
  errors.foldl (fun s e => s.fail ("apt metadata regeneration failed for " ++ e.1 ++ ": " ++ e.2)) s

def runSyncCycle (config : PackageSyncConfig) (existing : List ExistingPackage) (outside : Outside) (files : Files) :
    Except String Progress :=
  match outside.releases with
  | .error e => .error e
  | .ok releases =>
    let synced := (latestReleases config releases).foldl
      (fun s release => release.assets.foldl (syncAsset digest repoDir existing release) s) ⟨files, {}, []⟩
    .ok (regenerate outside.metadataErrors (syncManagerPackages digest repoDir config outside synced))

end

end PatchManager.SyncCycle
