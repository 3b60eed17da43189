import PatchManager.Conc.Schedule
import PatchManager.Core.Models
import PatchManager.Db.Types
import PatchManager.Repo.Metadata
import PatchManager.Text.Str
import Mathlib.Logic.Function.Basic

/-! # Regenerating the indexes

`generate_apt_metadata` and `generate_dnf_metadata` of `repo_metadata.rs` as the sequences of file
operations they are, and what calls them: the sync cycle of `repo_sync.rs`, which the worker and
the web process both run, and the regenerate and delete endpoints of `repo_admin.rs`.

`repository` puts them together: any number of these run in parallel, in one process or two, one
file operation at a time, and packages come and go meanwhile.  Writes succeed; a package that is
gone cannot be read.  The `Release` and `repomd.xml` files are kept as records of what stands in
them.  What the callers do for `apk` and `pacman` touches other directories and is left out.
-/

namespace PatchManager.Generators

open PatchManager.Conc

/-- What is read in the header of an RPM package. -/
structure RpmInfo where
  name : String
  version : String
  release : String
  epoch : Nat
  arch : String
  summary : String
  description : String
  url : String
  buildTime : Nat
  size : Nat
  archiveSize : Nat

/-- The digests, the compression and the parsers of packages. -/
structure Tools where
  Bytes : Type
  encode : String → Bytes
  size : Bytes → Nat
  md5 : Bytes → String
  sha1 : Bytes → String
  sha256 : Bytes → String
  gzip : Bytes → Bytes
  /-- the fields of the control file of a Debian package, in the order of their names -/
  parseDebControl : Bytes → Option (List (String × String))
  parseRpm : Bytes → Option RpmInfo

variable {T : Tools}

/-! ## The directory of the repository -/

/-- The directories with packages. -/
inductive Pool where
  | apt
  | dnf
deriving DecidableEq

structure PackageOnDisk (T : Tools) where
  filename : String
  data : T.Bytes
  /-- seconds since the epoch -/
  modified : Nat

/-- The files that `Release` and `repomd.xml` describe. -/
inductive IndexFile where
  | packages (suite : String)
  | packagesGz (suite : String)
  | primary
  | filelists
deriving DecidableEq

/-- A line of one of the lists of `Release`. -/
structure HashLine where
  checksum : String
  size : Nat
  path : String
deriving DecidableEq

structure Release where
  suite : String
  date : Time
  md5Sum : List HashLine
  sha1 : List HashLine
  sha256 : List HashLine
deriving DecidableEq

/-- A `data` element of `repomd.xml`. -/
structure RepomdData where
  checksum : String
  openChecksum : String
  location : String
  timestamp : Int
  size : Nat
  openSize : Nat
deriving DecidableEq

structure Repomd where
  revision : Int
  primary : RepomdData
  filelists : RepomdData
deriving DecidableEq

structure Disk (T : Tools) where
  pool : Pool → List (PackageOnDisk T)
  index : IndexFile → Option T.Bytes
  release : String → Option Release
  repomd : Option Repomd

inductive Op (T : Tools) where
  | utcNow
  | readDir (pool : Pool)
  | readPackage (pool : Pool) (filename : String)
  | putPackage (pool : Pool) (file : PackageOnDisk T)
  | removePackage (pool : Pool) (filename : String)
  | readIndex (file : IndexFile)
  | writeIndex (file : IndexFile) (data : T.Bytes)
  | writeRelease (suite : String) (release : Release)
  | repomdExists
  | writeRepomd (repomd : Repomd)
  /-- `gpg::sign_file_clearsign` and `sign_file_detached`, by the file that is signed -/
  | signRelease (suite : String) (detached : Bool)
  | signRepomd

@[reducible] def Op.Resp : Op T → Type
  | .utcNow => Time
  | .readDir _ => List String
  | .readPackage _ _ => Option (PackageOnDisk T)
  | .readIndex _ => Option T.Bytes
  | .repomdExists | .signRelease _ _ | .signRepomd => Bool
  | _ => Unit

/-- A package that a sync cycle has downloaded, and where it puts it. -/
inductive Import (T : Tools) where
  /-- a package for the agents, with the codename found in its name -/
  | apt (codename : Option String) (file : PackageOnDisk T)
  | dnf (file : PackageOnDisk T)
  /-- a package of the manager, for which the indexes are regenerated at the end -/
  | manager (file : PackageOnDisk T)

inductive Fn (T : Tools) where
  | runSyncCycle (imports : List (Import T))
  | regenerateMetadata
  | deletePackages (files : List (Pool × String))

abbrev Proc (T : Tools) := Prog (Op T) Op.Resp (Fn T)

abbrev perform (o : Op T) : Proc T o.Resp := Prog.perform o

/-! ## Debian -/

/-- The packages of the manager have no token; they are for Ubuntu 24.04. -/
def selects (suite filename : String) : Bool :=
  ".deb".toList.isSuffixOf filename.toList &&
    (hasSuiteToken suite filename || suite == "u2404" &&
      "linux-patch-manager_".toList.isPrefixOf (Str.toAsciiLowercase filename.toList))

def sortNames (names : List String) : List String := names.mergeSort fun a b => a ≤ b

def packageStanza (fields : List (String × String)) (filename : String) (data : T.Bytes) : String :=
  fields.foldl (fun text field => text ++ field.1 ++ ": " ++ field.2 ++ "\n") "" ++
    "Filename: pool/" ++ filename ++ "\n" ++
    "Size: " ++ toString (T.size data) ++ "\n" ++
    "MD5sum: " ++ T.md5 data ++ "\n" ++
    "SHA1: " ++ T.sha1 data ++ "\n" ++
    "SHA256: " ++ T.sha256 data ++ "\n\n"

/-- The text of `Packages`.  A package is read twice, and one that is gone the second time ends
    the regeneration. -/
def packagesContent : List String → String → Proc T (Option String)
  | [], content => return some content
  | filename :: rest, content => do
    let first ← perform (.readPackage .apt filename)
    match first.bind fun file => T.parseDebControl file.data with
    | none => packagesContent rest content
    | some fields =>
      let again ← perform (.readPackage .apt filename)
      match again with
      | none => return none
      | some file => packagesContent rest (content ++ packageStanza fields filename file.data)

/-- The files that a `Release` lists, by their paths. -/
def filesToHash (packages packagesGz : Option T.Bytes) : List (String × T.Bytes) :=
  ((packages.map fun data => ("main/binary-amd64/Packages", data)) :: [packagesGz.map fun data =>
    ("main/binary-amd64/Packages.gz", data)]).filterMap id

def hashLines (digest : T.Bytes → String) (files : List (String × T.Bytes)) : List HashLine :=
  files.map fun file => ⟨digest file.2, T.size file.2, file.1⟩

def generateAptRelease (suite : String) : Proc T Release := do
  let date ← perform .utcNow
  let packages ← perform (.readIndex (.packages suite))
  let packagesGz ← perform (.readIndex (.packagesGz suite))
  let files := filesToHash packages packagesGz
  return {
    suite
    date
    md5Sum := hashLines T.md5 files
    sha1 := hashLines T.sha1 files
    sha256 := hashLines T.sha256 files }

/-- The answer says whether the indexes have been written. -/
def generateAptMetadata (suite : String) : Proc T Bool := do
  let names ← perform (.readDir .apt)
  let content ← packagesContent (sortNames (names.filter (selects suite))) ""
  match content with
  | none => return false
  | some content =>
    perform (.writeIndex (.packages suite) (T.encode content))
    perform (.writeIndex (.packagesGz suite) (T.gzip (T.encode content)))
    let release ← generateAptRelease suite
    perform (.writeRelease suite release)
    let _ ← perform (.signRelease suite false)
    let _ ← perform (.signRelease suite true)
    return true

def regenerateSuites : List String → Proc T Unit
  | [] => return ()
  | suite :: rest => do
    let _ ← generateAptMetadata suite
    regenerateSuites rest

def regenerateAllAptMetadata : Proc T Unit := regenerateSuites aptSuites

/-! ## RPM -/

def xmlEscape (s : String) : String :=
  let escape (text : List Char) (pattern value : String) :=
    Str.replace pattern.toList value.toList text
  .ofList <| escape (escape (escape (escape (escape s.toList "&" "&amp;") "<" "&lt;") ">" "&gt;")
    "\"" "&quot;") "'" "&apos;"

def versionTag (info : RpmInfo) : String :=
  "    <version epoch=\"" ++ toString info.epoch ++ "\" ver=\"" ++ xmlEscape info.version ++
    "\" rel=\"" ++ xmlEscape info.release ++ "\"/>\n"

def primaryPackage (info : RpmInfo) (filename sha256 : String) (fileSize fileTime : Nat) : String :=
  "  <package type=\"rpm\">\n" ++
    "    <name>" ++ xmlEscape info.name ++ "</name>\n" ++
    "    <arch>" ++ xmlEscape info.arch ++ "</arch>\n" ++
    versionTag info ++
    "    <summary>" ++ xmlEscape info.summary ++ "</summary>\n" ++
    "    <description>" ++ xmlEscape info.description ++ "</description>\n" ++
    "    <url>" ++ xmlEscape info.url ++ "</url>\n" ++
    "    <time file=\"" ++ toString fileTime ++ "\" build=\"" ++ toString info.buildTime ++ "\"/>\n" ++
    "    <size package=\"" ++ toString fileSize ++ "\" installed=\"" ++ toString info.size ++
    "\" archive=\"" ++ toString info.archiveSize ++ "\"/>\n" ++
    "    <location href=\"Packages/" ++ filename ++ "\"/>\n" ++
    "    <checksum type=\"sha256\" pkgid=\"YES\">" ++ sha256 ++ "</checksum>\n" ++
    "  </package>\n"

def filelistsPackage (info : RpmInfo) (sha256 : String) : String :=
  "  <package pkgid=\"" ++ sha256 ++ "\" name=\"" ++ xmlEscape info.name ++ "\" arch=\"" ++
    xmlEscape info.arch ++ "\">\n" ++ versionTag info ++ "  </package>\n"

/-- The bodies of the two lists.  A package is parsed, digested and looked up twice in its
    directory, and one that goes meanwhile ends the regeneration. -/
def rpmBodies : List String → String × String → Proc T (Option (String × String))
  | [], bodies => return some bodies
  | filename :: rest, (primary, filelists) => do
    let parsed ← perform (.readPackage .dnf filename)
    match parsed.bind fun file => T.parseRpm file.data with
    | none => rpmBodies rest (primary, filelists)
    | some info =>
      let digested ← perform (.readPackage .dnf filename)
      let some digested := digested | return none
      let measured ← perform (.readPackage .dnf filename)
      let some measured := measured | return none
      let dated ← perform (.readPackage .dnf filename)
      let some dated := dated | return none
      let sha256 := T.sha256 digested.data
      rpmBodies rest
        (primary ++ primaryPackage info filename sha256 (T.size measured.data) dated.modified,
          filelists ++ filelistsPackage info sha256)

def primaryXml (count : Nat) (body : String) : String :=
  "<?xml version=\"1.0\" encoding=\"UTF-8\"?>\n" ++
    "<metadata xmlns=\"http://linux.duke.edu/metadata/common\" " ++
    "xmlns:rpm=\"http://linux.duke.edu/metadata/rpm\" packages=\"" ++ toString count ++ "\">\n" ++
    body ++ "</metadata>\n"

def filelistsXml (count : Nat) (body : String) : String :=
  "<?xml version=\"1.0\" encoding=\"UTF-8\"?>\n" ++
    "<filelists xmlns=\"http://linux.duke.edu/metadata/filelists\" packages=\"" ++ toString count ++
    "\">\n" ++ body ++ "</filelists>\n"

/-- The entry for a list whose text is `xml` and whose file is its compressed form. -/
def repomdData (xml : T.Bytes) (location : String) (timestamp : Int) : RepomdData where
  checksum := T.sha256 (T.gzip xml)
  openChecksum := T.sha256 xml
  location := location
  timestamp := timestamp
  size := T.size (T.gzip xml)
  openSize := T.size xml

def isRpm (filename : String) : Bool := ".rpm".toList.isSuffixOf filename.toList

/-- The checksums are those of the data in memory. -/
def generateDnfMetadata : Proc T Bool := do
  let names ← perform (.readDir .dnf)
  let rpmFiles := sortNames (names.filter isRpm)
  let bodies ← rpmBodies rpmFiles ("", "")
  match bodies with
  | none => return false
  | some (primaryBody, filelistsBody) =>
    let primary := T.encode (primaryXml rpmFiles.length primaryBody)
    let filelists := T.encode (filelistsXml rpmFiles.length filelistsBody)
    perform (.writeIndex .primary (T.gzip primary))
    perform (.writeIndex .filelists (T.gzip filelists))
    let now ← perform .utcNow
    let timestamp := now / microsPerSecond
    perform (.writeRepomd
      { revision := timestamp
        primary := repomdData primary "repodata/primary.xml.gz" timestamp
        filelists := repomdData filelists "repodata/filelists.xml.gz" timestamp })
    return true

def signRepomdIfThere : Proc T Unit := do
  let present ← perform .repomdExists
  if present then
    let _ ← perform .signRepomd

/-! ## Who regenerates -/

/-- `import_to_repo`, and the copy of a package of the manager. -/
def importToRepo : Import T → Proc T Unit
  | .apt codename file => do
    perform (.putPackage .apt file)
    let _ ← generateAptMetadata (codename.getD "u2404")
  | .dnf file => do
    perform (.putPackage .dnf file)
    let written ← generateDnfMetadata
    if written then signRepomdIfThere
  | .manager file => perform (.putPackage .apt file)

def importAll : List (Import T) → Proc T Unit
  | [] => return ()
  | first :: rest => do
    importToRepo first
    importAll rest

/-- `run_sync_cycle`, with the packages it downloads. -/
def runSyncCycle (imports : List (Import T)) : Proc T Unit := do
  importAll imports
  regenerateAllAptMetadata

/-- `regenerate_metadata`. -/
def regenerateMetadata : Proc T Unit := do
  regenerateAllAptMetadata
  let _ ← generateDnfMetadata
  signRepomdIfThere

def removeFiles : List (Pool × String) → Proc T Unit
  | [] => return ()
  | (pool, filename) :: rest => do
    perform (.removePackage pool filename)
    removeFiles rest

/-- The delete endpoint, from the removal of the files on. -/
def deletePackages (files : List (Pool × String)) : Proc T Unit := do
  removeFiles files
  regenerateMetadata

def body : Fn T → Proc T Unit
  | .runSyncCycle imports => runSyncCycle imports
  | .regenerateMetadata => regenerateMetadata
  | .deletePackages files => deletePackages files

/-! ## The repository -/

/-- What the clock and the signing say to an operation. -/
structure Answer where
  now : Time
  signed : Bool

def Disk.withPool (w : Disk T) (pool : Pool) (files : List (PackageOnDisk T)) : Disk T :=
  { w with pool := Function.update w.pool pool files }

def execute (w : Disk T) : (o : Op T) → Answer → o.Resp × Disk T
  | .utcNow, a => (a.now, w)
  | .readDir pool, _ => ((w.pool pool).map (·.filename), w)
  | .readPackage pool filename, _ => ((w.pool pool).find? (·.filename == filename), w)
  | .putPackage pool file, _ =>
    ((), w.withPool pool ((w.pool pool).filter (·.filename != file.filename) ++ [file]))
  | .removePackage pool filename, _ =>
    ((), w.withPool pool ((w.pool pool).filter (·.filename != filename)))
  | .readIndex file, _ => (w.index file, w)
  | .writeIndex file data, _ => ((), { w with index := Function.update w.index file (some data) })
  | .writeRelease suite release, _ =>
    ((), { w with release := Function.update w.release suite (some release) })
  | .repomdExists, _ => (w.repomd.isSome, w)
  | .writeRepomd repomd, _ => ((), { w with repomd := some repomd })
  | .signRelease _ _, a | .signRepomd, a => (a.signed, w)

/-- Regenerations run to their end, and the packages change in any way. -/
def repository (T : Tools) : Machine (Disk T) (Op T) Op.Resp (Fn T) where
  body := body
  exec w o r w' := ∃ a, execute w o a = (r, w')
  enter s _ w := w = s.world
  drift w w' := ∃ pool, w' = { w with pool }
  restart w := w
  perishes _ := false
  abandons _ := false

end PatchManager.Generators
