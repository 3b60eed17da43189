import PatchManager.Bytes.Tar
import PatchManager.Repo.Gzip
import PatchManager.Repo.PkgInfo
import PatchManager.Text.Utf8

/-! # Signed archives of `apk`

`generate_apk_metadata`, `resign_apk` and `compute_apk_control_checksum` of `repo_metadata.rs`.  A signed
archive is a gzip stream with a tar that holds the signature and does not end, and behind it the gzip
streams that are signed.
-/

namespace PatchManager

open PatchManager.Bytes

/-! ## Tar and gzip -/

inductive HeaderKind where
  | gnu
  | ustar
deriving DecidableEq

inductive EntryType where
  | regular
  | xHeader
deriving DecidableEq

/-- What is set in a `tar::Header`. -/
structure TarHeader where
  kind : HeaderKind
  path : String
  size : Nat
  mode : Nat
  entryType : EntryType
  mtime : Nat
deriving DecidableEq

/-- The path is the name of a file and fits in a header. -/
structure PlainName (path : String) : Prop where
  /-- no `/` and no zero -/
  bytes : ∀ b ∈ Utf8.encode path.toList, b ≠ 0x2F ∧ b ≠ 0
  named : path ≠ "" ∧ path ≠ "." ∧ path ≠ ".."
  short : (Utf8.encode path.toList).length ≤ 100

structure TarHeader.Plain (h : TarHeader) : Prop where
  path : PlainName h.path
  size : h.size < 2 ^ 64
  mode : h.mode < 8 ^ 7
  mtime : h.mtime < 8 ^ 11

/-- An entry that `tar::Archive` lists. -/
structure TarItem where
  path : String
  /-- what `read_to_string` gives -/
  content : Except String String

/-- `path.trim_start_matches("./")`. -/
def trimDotSlash : List Char → List Char
  | '.' :: '/' :: rest => trimDotSlash rest
  | path => path

/-- The crates that read and write archives. -/
structure ApkTools where
  decoder : GzDecoder
  /-- `GzEncoder` -/
  compress : List UInt8 → List UInt8
  /-- `tar::Builder` -/
  tar : TarFormat TarHeader
  /-- the entries of the tar in the first gzip stream of the bytes, to the end or to an error -/
  entries : List UInt8 → List (Except String TarItem)
  sha1 : List UInt8 → List UInt8
  base64 : List UInt8 → String

/-- A round of the loop of `strip_tar_eof`. -/
def stripRound (tarData : List UInt8) (stop : Nat) : Outcome (Nat ⊕ Nat) := do
  if 512 ≤ stop then
    let block ← slice tarData (← sub stop 512) stop
    if block.all (· == 0) then return .inl (← sub stop 512) else return .inr stop
  else return .inr stop

def stripTarEof (tarData : List UInt8) : Outcome (List UInt8) := do
  if tarData.length < 512 * 2 then return tarData
  else slice tarData 0 (← Outcome.loop (stripRound tarData) (tarData.length + 1) tarData.length)

variable (T : ApkTools)

def signEntryName : String := ".SIGN.RSA256.lpa-repo.rsa.pub"

/-! ## The index -/

/-- A file of the given length. -/
def gnuHeader (path : String) (size : Nat) : TarHeader where
  kind := .gnu
  path := path
  size := size
  mode := 0o644
  entryType := .regular
  mtime := 0

def apkDescription : List UInt8 := Utf8.encode "Linux Patch Manager Repository\n".toList

/-- The entries of the archive that is signed. -/
def apkIndexEntries (apkindex : List UInt8) : List (TarHeader × List UInt8) :=
  [(gnuHeader "DESCRIPTION" apkDescription.length, apkDescription),
    (gnuHeader "APKINDEX" apkindex.length, apkindex)]

def indexSignEntry (signature : List UInt8) : TarHeader × List UInt8 :=
  (gnuHeader signEntryName signature.length, signature)

/-- `sign_data` in a task of its own: the error of the task, the error of the call, or the signature. -/
abbrev SignTask := String → List UInt8 → Except String (Except String ByteString)

/-- `generate_apk_metadata` from the text of `APKINDEX` on, up to what it writes. -/
def signedApkIndex (rsaPrivateKeyPath : Option String) (signData : SignTask) (apkindex : List UInt8) :
    Outcome (List UInt8) := do
  let innerGz := T.compress (T.tar.archive (apkIndexEntries apkindex))
  match rsaPrivateKeyPath with
  | none => .fails "No RSA private key provided for APKINDEX signing"
  | some path =>
    if path = "" then .fails "No RSA private key provided for APKINDEX signing"
    else
      match signData path innerGz with
      | .error e => .fails ("RSA signing task failed: " ++ e)
      | .ok (.error e) => .fails ("RSA signing failed: " ++ e)
      | .ok (.ok signature) =>
        let sigTarCut ← stripTarEof (T.tar.archive [indexSignEntry signature.1])
        return T.compress sigTarCut ++ innerGz

/-- The directory of the repository, and what the file system answers. -/
structure ApkDirectory where
  archives : List Archive
  createDirAll : Except String Unit
  write : Except String Unit

def Bytes.Outcome.ofExcept {α : Type} : Except String α → Outcome α
  | .ok value => .ok value
  | .error e => .fails e

/-- The contents of `APKINDEX.tar.gz` after the call. -/
def generateApkIndex (rsaPrivateKeyPath : Option String) (signData : SignTask) (directory : ApkDirectory) :
    Outcome (List UInt8) := do
  Outcome.ofExcept directory.createDirAll
  let finalGz ← signedApkIndex T rsaPrivateKeyPath signData (Utf8.encode (apkIndex directory.archives).toList)
  Outcome.ofExcept directory.write
  return finalGz

/-! ## Packages -/

def isDataHashLine (line : List Char) : Bool :=
  let line := Str.trim line
  "datahash".toList.isPrefixOf line && line.contains '='

/-- `apk_has_data_hash`, over the entries of the stream. -/
def apkHasDataHash : List (Except String TarItem) → Outcome Bool
  | [] => .ok false
  | .error e :: _ => .fails e
  | .ok entry :: rest =>
    if entry.path = ".PKGINFO" then do
      let content ← Outcome.ofExcept entry.content
      return (lines content.toList).any isDataHashLine
    else apkHasDataHash rest

/-- `control_gz` of `compute_apk_control_checksum`. -/
def apkControlGz (data : List UInt8) : Outcome (List UInt8) := do
  match ← findGzipStreamBoundaries T.decoder data with
  | _ :: controlStart :: rest => slice data controlStart (rest.head?.getD data.length)
  | _ => .fails "Invalid .apk: expected at least 2 gzip streams"

def computeApkControlChecksum (data : List UInt8) : Outcome String := do
  let controlGz ← apkControlGz T data
  return "Q1" ++ T.base64 (T.sha1 controlGz)

def paxEntryName : String := "./PaxHeaders/.SIGN.RSA256.lpa-repo.rsa.pub"

def paxData : List UInt8 := Utf8.encode "12 comment=\n".toList

/-- The entries of the signature, in the format that `abuild-tar` writes. -/
def apkSignEntries (signature : List UInt8) : List (TarHeader × List UInt8) :=
  [({ kind := .ustar, path := paxEntryName, size := paxData.length, mode := 0o644, entryType := .xHeader, mtime := 0 },
      paxData),
    ({ kind := .ustar, path := signEntryName, size := signature.length, mode := 0o644, entryType := .regular,
       mtime := 0 }, signature)]

/-- `fs::read`, into a vector. -/
def fsRead (answer : Except String Unit) (data : List UInt8) : Outcome (List UInt8) := do
  Outcome.ofExcept answer
  if data.length < 2 ^ 63 then return data else .fails "out of memory"

/-- A call of `resign_apk`: the key that signs, and what the file system answers. -/
structure ResignCall where
  read : Except String Unit
  signData : List UInt8 → Except String ByteString
  write : Except String Unit
  rename : Except String Unit

/-- The control stream alone when it has the hash of the data, and both else. -/
def signedData (hasDataHash : Bool) (controlGz data : List UInt8) (controlStart : Nat) : Outcome (List UInt8) :=
  if hasDataHash then .ok controlGz else slice data controlStart data.length

/-- The contents of the file after a call that returns. -/
def resignApk (call : ResignCall) (data : List UInt8) : Outcome (List UInt8) := do
  let data ← fsRead call.read data
  let streamOffsets ← findGzipStreamBoundaries T.decoder data
  match streamOffsets with
  | _ :: controlStart :: rest =>
    let controlGz ← slice data controlStart (rest.head?.getD data.length)
    let hasDataHash ← apkHasDataHash (T.entries controlGz)
    let signedData ← signedData hasDataHash controlGz data controlStart
    let signature ← Outcome.ofExcept (call.signData signedData)
    let sigTarCut ← stripTarEof (T.tar.archive (apkSignEntries signature.1))
    let newApk := T.compress sigTarCut ++ (← slice data controlStart data.length)
    Outcome.ofExcept call.write
    Outcome.ofExcept call.rename
    return newApk
  | _ =>
    .fails ("Invalid .apk format: expected at least 2 gzip streams, found " ++ toString streamOffsets.length)

/-- The file after some calls; one that fails leaves it as it is. -/
def resignedApk : List ResignCall → List UInt8 → List UInt8
  | [], data => data
  | call :: calls, data =>
    match resignApk T call data with
    | .ok newApk => resignedApk calls newApk
    | _ => resignedApk calls data

end PatchManager
