import PatchManager.Order.OrderedMap
import PatchManager.Repo.Metadata
import Mathlib.Data.String.Basic

/-! # Packages of Alpine and Arch

What `repo_metadata.rs` reads in the `.PKGINFO` of an archive, and what it writes about it into the
index of `apk` and the database of `pacman`.
-/

namespace PatchManager

open PatchManager.Order

/-! ## Lines -/

/-- A line ends with `\n` or `\r\n`. -/
def stripCr (line : List Char) : List Char :=
  if line.getLast? = some '\r' then line.dropLast else line

/-- `str::lines`, after the characters of a line that has begun, last first. -/
def linesFrom (line : List Char) : List Char → List (List Char)
  | [] => if line = [] then [] else [line.reverse]
  | c :: rest => if c = '\n' then stripCr line.reverse :: linesFrom [] rest else linesFrom (c :: line) rest

def lines (text : List Char) : List (List Char) := linesFrom [] text

/-! ## `.PKGINFO` -/

/-- The key and the value of a line that has both. -/
def keyvalueLine (line : List Char) : Option (String × String) :=
  let line := Str.trim line
  if line = [] ∨ line.head? = some '#' then none
  else
    match Str.splitOnce ['='] line with
    | some (before, after) =>
      let key := Str.trim before
      if key = [] then none else some (.ofList key, .ofList (Str.trim after))
    | none => none

/-- `parse_keyvalue`. -/
def parseKeyvalue (content : String) : OrderedMap String String :=
  (lines content.toList).foldl (fun fields line =>
    match keyvalueLine line with
    | some (key, val) => OrderedMap.put key val fields
    | none => fields) []

/-- `fields.get(..).cloned().unwrap_or_default()`. -/
def fieldOf (fields : OrderedMap String String) (key : String) : String := (OrderedMap.get key fields).getD ""

/-- `fields.get(..).and_then(|s| s.parse().ok()).unwrap_or(0)`, for a `u64`. -/
def numberOf (fields : OrderedMap String String) (key : String) : Nat :=
  ((OrderedMap.get key fields).bind fun s => Str.parseUnsigned (2 ^ 64) s.toList).getD 0

/-- An archive in the repository, with what the parsers take from it. -/
structure Archive where
  filename : String
  /-- the entry `.PKGINFO`; an archive without it has the empty text, a broken one none -/
  pkginfo : Option String
  /-- the length of the file -/
  size : Nat
  sha256 : String
  /-- the SHA-1 of the control stream in base64, if the archive has one -/
  control : Option String

structure ApkInfo where
  pkgname : String
  pkgver : String
  arch : String
  size : Nat
  installedSize : Nat
  description : String
  url : String
  license : String
  depends : String
  provides : String
  controlChecksum : String

def parseApk (archive : Archive) : Option ApkInfo := do
  let content ← archive.pkginfo
  if content = "" then none
  else
    let fields := parseKeyvalue content
    return {
      pkgname := fieldOf fields "pkgname"
      pkgver := fieldOf fields "pkgver"
      arch := fieldOf fields "arch"
      size := archive.size
      installedSize := numberOf fields "size"
      description := fieldOf fields "pkgdesc"
      url := fieldOf fields "url"
      license := fieldOf fields "license"
      depends := fieldOf fields "depend"
      provides := fieldOf fields "provides"
      controlChecksum := archive.control.elim "" fun digest => "Q1" ++ digest }

structure PacmanInfo where
  pkgname : String
  pkgver : String
  arch : String
  description : String
  url : String
  license : String
  size : Nat
  csize : Nat
  builddate : Nat
  sha256 : String
  depends : String
deriving DecidableEq

def parsePacmanPkg (archive : Archive) : Option PacmanInfo := do
  let content ← archive.pkginfo
  if content = "" then none
  else
    let fields := parseKeyvalue content
    return {
      pkgname := fieldOf fields "pkgname"
      pkgver := fieldOf fields "pkgver"
      arch := fieldOf fields "arch"
      description := fieldOf fields "pkgdesc"
      url := fieldOf fields "url"
      license := fieldOf fields "license"
      size := numberOf fields "size"
      csize := archive.size
      builddate := numberOf fields "builddate"
      sha256 := archive.sha256
      depends := fieldOf fields "depend" }

/-! ## The indexes -/

/-- A field that is written unless its value is empty. -/
def unlessEmpty (key value : String) : List (String × String) := if value = "" then [] else [(key, value)]

/-- The fields of a package in `APKINDEX`. -/
def apkFields (info : ApkInfo) : List (String × String) :=
  [("C", info.controlChecksum), ("P", info.pkgname), ("V", info.pkgver), ("A", info.arch),
    ("S", toString info.size), ("I", toString info.installedSize)] ++
  unlessEmpty "T" info.description ++ unlessEmpty "D" info.depends ++ unlessEmpty "p" info.provides ++
  unlessEmpty "U" info.url ++ unlessEmpty "F" info.license

def apkStanza (info : ApkInfo) : String :=
  (apkFields info).foldl (fun text field => text ++ field.1 ++ ":" ++ field.2 ++ "\n") "" ++ "\n"

def sortArchives (archives : List Archive) : List Archive := archives.mergeSort fun a b => a.filename ≤ b.filename

def endsWith (suffix filename : String) : Bool := suffix.toList.isSuffixOf filename.toList

/-- The text of `APKINDEX`. -/
def apkIndex (directory : List Archive) : String :=
  ((sortArchives (directory.filter fun a => endsWith ".apk" a.filename)).filterMap parseApk).foldl
    (fun text info => text ++ apkStanza info) ""

/-- The sections of the file `desc` of a package in the database of `pacman`. -/
def descSections (filename : String) (info : PacmanInfo) : List (String × String) :=
  [("%FILENAME%", filename), ("%NAME%", info.pkgname), ("%VERSION%", info.pkgver)] ++
  unlessEmpty "%DESC%" info.description ++
  [("%CSIZE%", toString info.csize), ("%ISIZE%", toString info.size), ("%SHA256SUM%", info.sha256),
    ("%ARCH%", info.arch)] ++
  unlessEmpty "%URL%" info.url ++ unlessEmpty "%LICENSE%" info.license ++
  [("%BUILDDATE%", toString info.builddate)] ++ unlessEmpty "%DEPENDS%" info.depends

def pacmanDesc (filename : String) (info : PacmanInfo) : String :=
  (descSections filename info).foldl (fun text part => text ++ part.1 ++ "\n" ++ part.2 ++ "\n\n") ""

/-- The two maps of `generate_pacman_metadata`. -/
structure LatestPackages where
  latestByName : OrderedMap String PacmanInfo
  pkgPathByName : OrderedMap String String

/-- Goes on with the newer of two packages of a name. -/
def keepNewer (latest : LatestPackages) (archive : Archive) : LatestPackages :=
  match parsePacmanPkg archive with
  | none => latest
  | some info =>
    let isNewer : Bool := match OrderedMap.get info.pkgname latest.latestByName with
      | some existing => compareVersions info.pkgver existing.pkgver == .gt
      | none => true
    if isNewer then
      { latestByName := OrderedMap.put info.pkgname info latest.latestByName
        pkgPathByName := OrderedMap.put info.pkgname archive.filename latest.pkgPathByName }
    else latest

def isPacmanPkg (filename : String) : Bool :=
  endsWith ".pkg.tar.zst" filename && !endsWith ".sig" filename && !endsWith ".db.tar.zst" filename

def latestPackages (directory : List Archive) : LatestPackages :=
  (sortArchives (directory.filter fun a => isPacmanPkg a.filename)).foldl keepNewer ⟨[], []⟩

/-- The packages in the database: the name of the file and what has been read in it.  A package
    without a path would end the call with a panic. -/
def databasePackages (directory : List Archive) : Option (List (String × PacmanInfo)) :=
  let latest := latestPackages directory
  latest.latestByName.mapM fun (pkgname, info) => do
    let filename ← OrderedMap.get pkgname latest.pkgPathByName
    return (filename, info)

/-- The entries of the archive: the name of the directory and the text of `desc`. -/
def pacmanDatabase (directory : List Archive) : Option (List (String × String)) :=
  (databasePackages directory).map fun packages => packages.map fun (filename, info) =>
    (info.pkgname ++ "-" ++ info.pkgver, pacmanDesc filename info)

end PatchManager
