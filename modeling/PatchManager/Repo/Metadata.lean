import PatchManager.Repo.Distro
import PatchManager.Repo.Version

/-! # The indexes of the repository

What `repo_metadata.rs` writes for the package managers: where, below the directory of the
repository, and which packages are listed there.  What is read in a package is a field of its file.
-/

namespace PatchManager

def aptSuites : List String := ["u2404", "u2204", "u2604", "debian12", "debian13"]

def aptReleasePath (suite : String) : String := "/apt/dists/" ++ suite ++ "/Release"

def dnfRepomdPath : String := "/dnf/el9/repodata/repomd.xml"

def apkIndexPath : String := "/apk/" ++ apkCodename ++ "/x86_64/APKINDEX.tar.gz"

def pacmanDbPath : String := "/pacman/x86_64/lpa-repo.db"

/-- The indexes that the generators write, from whatever packages there are. -/
def indexPaths : List String :=
  aptSuites.map aptReleasePath ++ [dnfRepomdPath, apkIndexPath, pacmanDbPath]

/-! ## Packages -/

structure PackageInfo where
  name : String
  version : String
deriving DecidableEq, Repr

structure PackageFile where
  filename : String
  /-- what the parser of its format reads in it, if it can -/
  info : Option PackageInfo
deriving DecidableEq, Repr

structure IndexEntry where
  filename : String
  info : PackageInfo
deriving DecidableEq, Repr

def PackageFile.entry (file : PackageFile) : Option IndexEntry :=
  file.info.map fun info => { filename := file.filename, info }

def PackageFile.endsWith (file : PackageFile) (suffix : String) : Bool :=
  suffix.toList.isSuffixOf file.filename.toList

def sortFiles (files : List PackageFile) : List PackageFile :=
  files.mergeSort fun a b => a.filename ≤ b.filename

/-- The token of a suite as it stands in the name of a file. -/
def hasSuiteToken (suite filename : String) : Bool :=
  Str.contains ("_" ++ suite ++ "_").toList (Str.toAsciiLowercase filename.toList)

/-- The packages of the manager have no token; they are for Ubuntu 24.04. -/
def generateAptMetadata (pool : List PackageFile) (suite : String) : List IndexEntry :=
  let selected := pool.filter fun file => file.endsWith ".deb" &&
    (hasSuiteToken suite file.filename || suite == "u2404" &&
      "linux-patch-manager_".toList.isPrefixOf (Str.toAsciiLowercase file.filename.toList))
  (sortFiles selected).filterMap PackageFile.entry

def generateDnfMetadata (packages : List PackageFile) : List IndexEntry :=
  (sortFiles (packages.filter (·.endsWith ".rpm"))).filterMap PackageFile.entry

def generateApkMetadata (packages : List PackageFile) : List IndexEntry :=
  (sortFiles (packages.filter (·.endsWith ".apk"))).filterMap PackageFile.entry

/-- Goes on with the newer of two packages of a name. -/
def keepLatest (latestByName : List IndexEntry) (entry : IndexEntry) : List IndexEntry :=
  match latestByName.find? (·.info.name == entry.info.name) with
  | some existing =>
    if compareVersions entry.info.version existing.info.version = .gt then
      entry :: latestByName.filter (·.info.name != entry.info.name)
    else latestByName
  | none => entry :: latestByName

/-- One entry for each name: `pacman` rejects a database with several. -/
def generatePacmanMetadata (packages : List PackageFile) : List IndexEntry :=
  let selected := packages.filter fun file =>
    file.endsWith ".pkg.tar.zst" && !file.endsWith ".sig" && !file.endsWith ".db.tar.zst"
  ((sortFiles selected).filterMap PackageFile.entry).foldl keepLatest []

end PatchManager
