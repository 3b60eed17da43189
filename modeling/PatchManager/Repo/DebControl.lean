import PatchManager.Repo.Apk
import PatchManager.Repo.Ar
import PatchManager.Repo.Generators
import PatchManager.Text.Hex

/-! # Control files of Debian packages

`parse_control_fields` and `parse_deb_control` of `repo_metadata.rs`, over the crates that decompress
and list archives.  Of the parsed control section `generate_apt_metadata` takes all fields.
-/

namespace PatchManager

open PatchManager.Bytes PatchManager.Order

structure ControlState where
  fields : OrderedMap String String
  currentKey : List Char
  currentVal : List Char

/-- The fields with the one that is being read, if there is one. -/
def ControlState.insert (s : ControlState) : OrderedMap String String :=
  if s.currentKey = [] then s.fields
  else OrderedMap.put (.ofList s.currentKey) (.ofList (Str.trim s.currentVal)) s.fields

/-- A round of the loop of `parse_control_fields`. -/
def controlLine (s : ControlState) (line : List Char) : ControlState :=
  if line = [] then s
  else if line.head? = some ' ' ∨ line.head? = some '\t' then { s with currentVal := s.currentVal ++ '\n' :: line }
  else
    match Str.splitOnce [':'] line with
    | some (before, after) =>
      { fields := s.insert, currentKey := Str.trim before, currentVal := Str.trim after }
    | none => s

def parseControlFields (content : List Char) : OrderedMap String String :=
  ((lines content).foldl controlLine ⟨[], [], []⟩).insert

/-- The crates that `repo_metadata.rs` reads and indexes packages with. -/
structure DebLibs where
  gunzip : List UInt8 → Except String (List UInt8)
  unxz : List UInt8 → Except String (List UInt8)
  unzstd : List UInt8 → Except String (List UInt8)
  /-- the entries of a tar, to the end or to an error -/
  entries : List UInt8 → List (Except String TarItem)
  md5 : List UInt8 → List UInt8
  sha1 : List UInt8 → List UInt8
  sha256 : List UInt8 → List UInt8
  gzip : List UInt8 → List UInt8
  parseRpm : List UInt8 → Option Generators.RpmInfo

variable (X : DebLibs)

def decompressTar (data : List UInt8) (name : String) : Outcome (List UInt8) :=
  if endsWith ".gz" name then Outcome.ofExcept (X.gunzip data)
  else if endsWith ".xz" name then Outcome.ofExcept (X.unxz data)
  else if endsWith ".zst" name then Outcome.ofExcept (X.unzstd data)
  else .ok data

/-- `control_content` after the loop over the entries. -/
def controlContent : List (Except String TarItem) → Outcome String
  | [] => .ok ""
  | .error e :: _ => .fails e
  | .ok entry :: rest =>
    if trimDotSlash entry.path.toList = "control".toList then Outcome.ofExcept entry.content else controlContent rest

/-- The text of the control file. -/
def debControlText (data : List UInt8) : Outcome String := do
  let arEntries ← parseAr data
  match arEntries.find? fun e => "control.tar".toList.isPrefixOf e.name.toList with
  | none => .fails "No control.tar.* found in .deb"
  | some control =>
    let tarData ← decompressTar X control.data control.name
    let content ← controlContent (X.entries tarData)
    if content = "" then .fails "No control file found in control.tar.*" else return content

/-- The text that can be parsed, if the file has one. -/
def controlText (data : List UInt8) : Option String :=
  match (fsRead (.ok ()) data).bind (debControlText X) with
  | .ok content => some content
  | _ => none

def debTools : Generators.Tools where
  Bytes := List UInt8
  encode text := Utf8.encode text.toList
  size := List.length
  md5 data := Hex.encode (X.md5 data)
  sha1 data := Hex.encode (X.sha1 data)
  sha256 data := Hex.encode (X.sha256 data)
  gzip := X.gzip
  parseDebControl data := (controlText X data).map fun content => parseControlFields content.toList
  parseRpm := X.parseRpm

end PatchManager
