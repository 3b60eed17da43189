import PatchManager.Bytes.Slices
import PatchManager.Text.Utf8

/-! # Headers of RPM packages

`parse_rpm` of `repo_metadata.rs` and what it calls.  A package begins with a lead of 96 bytes and two
headers, the second of which starts at a multiple of 8.  A header is an index of tags and a store that the
index points to.
-/

namespace PatchManager.Rpm

open PatchManager.Bytes

structure RpmInfo where
  name : String
  version : String
  release : String
  epoch : Nat
  arch : String
  summary : String
  description : String
  url : String
  license : String
  buildTime : Nat
  size : Nat
  archiveSize : Nat
deriving DecidableEq

structure RpmIndexEntry where
  tag : Nat
  type : Nat
  offset : Nat
  count : Nat
deriving DecidableEq

def leadMagic : List UInt8 := [0xED, 0xAB, 0xEE, 0xDB]

def headerMagic : List UInt8 := [0x8E, 0xAD, 0xE8]

def readEntry (data : List UInt8) (indexStart i : Nat) : Outcome RpmIndexEntry := do
  let e ← add indexStart (← mul i 16)
  let tag ← number data e 0 4
  let type ← number data e 4 8
  let offset ← number data e 8 12
  let count ← number data e 12 16
  return { tag, type, offset, count }

/-- The entries from the `i`th on. -/
def readEntries (data : List UInt8) (indexStart : Nat) : Nat → Nat → Outcome (List RpmIndexEntry)
  | _, 0 => return []
  | i, left + 1 => do
    let entry ← readEntry data indexStart i
    let rest ← readEntries data indexStart (i + 1) left
    return entry :: rest

def readRpmHeader (data : List UInt8) (offset : Nat) : Outcome (List RpmIndexEntry × List UInt8) := do
  if (← add offset 16) > data.length then .fails "RPM header offset out of bounds"
  else if (← within data offset 0 3) ≠ headerMagic then
    .fails ("Invalid RPM header magic at offset " ++ toString offset)
  else
    let numEntries ← number data offset 8 12
    let dataLen ← number data offset 12 16
    let indexStart ← add offset 16
    let dataStart ← add indexStart (← mul 16 numEntries)
    if (← add dataStart dataLen) > data.length then .fails "RPM header data extends beyond file"
    else
      let entries ← readEntries data indexStart 0 numEntries
      let headerData ← slice data dataStart (← add dataStart dataLen)
      return (entries, headerData)

/-- Up to the next zero, or to the end. -/
def rpmReadString (data : List UInt8) (offset : Nat) : Outcome String := do
  if offset ≥ data.length then return ""
  else
    let rest ← slice data offset data.length
    let length ← sub data.length offset
    let stop := (rest.findIdx? (· == 0)).getD length
    return .ofList (Utf8.fromUtf8Lossy (← slice data offset (← add offset stop)))

def rpmReadInt32 (data : List UInt8) (offset : Nat) : Outcome (Option Nat) := do
  if (← add offset 4) > data.length then return none
  else return some (← number data offset 0 4)

/-- STRING and I18NSTRING. -/
def isStringType (type : Nat) : Bool := type == 6 || type == 9

def rpmGetString (entries : List RpmIndexEntry) (data : List UInt8) (tag : Nat) : Outcome String :=
  match entries.find? fun entry => entry.tag == tag && isStringType entry.type with
  | some entry => rpmReadString data entry.offset
  | none => return ""

def rpmGetInt32 (entries : List RpmIndexEntry) (data : List UInt8) (tag : Nat) : Outcome (Option Nat) :=
  match entries.find? fun entry => entry.tag == tag && entry.type == 4 with
  | some entry => rpmReadInt32 data entry.offset
  | none => return none

/-- The fields of the main header. -/
def rpmInfo (entries : List RpmIndexEntry) (headerData : List UInt8) : Outcome RpmInfo := do
  let name ← rpmGetString entries headerData 1000
  let version ← rpmGetString entries headerData 1001
  let release ← rpmGetString entries headerData 1002
  let epoch ← rpmGetInt32 entries headerData 1003
  let arch ← rpmGetString entries headerData 1022
  let summary ← rpmGetString entries headerData 1004
  let description ← rpmGetString entries headerData 1005
  let url ← rpmGetString entries headerData 1020
  let license ← rpmGetString entries headerData 1014
  let buildTime ← rpmGetInt32 entries headerData 1006
  let size ← rpmGetInt32 entries headerData 1009
  let archiveSize ← rpmGetInt32 entries headerData 1046
  return {
    name, version, release, epoch := epoch.getD 0, arch, summary, description, url, license
    buildTime := buildTime.getD 0, size := size.getD 0, archiveSize := archiveSize.getD 0 }

/-- Where the main header starts, after a signature header of the given size. -/
def mainOffset (sigHeaderSize : Nat) : Outcome Nat := do
  let totalAfterSig ← add 96 sigHeaderSize
  let padding := (8 - totalAfterSig % 8) % 8
  add totalAfterSig padding

/-- `parse_rpm`, from the bytes of the file. -/
def parseRpm (data : List UInt8) : Outcome RpmInfo := do
  if data.length < 96 then .fails "File too small to be an RPM"
  else if (← slice data 0 4) ≠ leadMagic then .fails "Invalid RPM lead magic"
  else if (← add 96 16) > data.length then .fails "RPM file too small for signature header"
  else if (← within data 96 0 3) ≠ headerMagic then .fails "Invalid RPM signature header magic"
  else
    let sigNumEntries ← number data 96 8 12
    let sigDataLen ← number data 96 12 16
    let sigHeaderSize ← add (← add 16 (← mul 16 sigNumEntries)) sigDataLen
    let main ← mainOffset sigHeaderSize
    let (entries, headerData) ← readRpmHeader data main
    rpmInfo entries headerData

end PatchManager.Rpm
